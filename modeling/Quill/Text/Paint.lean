/-!
# Coloured text

Text between the terminal's codes for a colour and for the end of colours. Where the text itself
ends colours, the colour is taken up again behind that place.
-/

namespace Quill

/-- The colours that reports use. -/
inductive Tint where
  | bold
  | boldRed
  | boldGreen
  | brightBlue
  | brightYellow
  deriving DecidableEq

namespace Tint

/-- The code that begins the colour. -/
def code : Tint → List Char
  | bold => "\x1b[1m".toList
  | boldRed => "\x1b[1;31m".toList
  | boldGreen => "\x1b[1;32m".toList
  | brightBlue => "\x1b[94m".toList
  | brightYellow => "\x1b[93m".toList

end Tint

/-- The code that ends all colours. -/
def plainCode : List Char :=
  "\x1b[0m".toList

/-- The text with `code` behind every place where it ends colours itself. -/
def resume (code : List Char) : List Char → List Char
  | '\x1b' :: '[' :: '0' :: 'm' :: rest => plainCode ++ code ++ resume code rest
  | c :: rest => c :: resume code rest
  | [] => []

/-- The text in a colour, or as it is when colours are off.

This stands for the package that colours text. Followed is what that documents: the codes of ANSI
terminals around the text, and the colour taken up again behind each reset inside it. -/
def paint (colour : Bool) (tint : Tint) (text : String) : String :=
  if colour then
    String.ofList (tint.code ++ resume tint.code text.toList ++ plainCode)
  else
    text

/-- Without colours a text stays as it is. -/
@[simp] theorem paint_false (tint : Tint) (text : String) : paint false tint text = text := rfl

end Quill
