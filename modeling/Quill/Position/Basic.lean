/-!
# Positions

A place in a text, told three ways at once: bytes of UTF-8 before it, its line, and its column on
that line. `Position.step` moves past one character and `Position.after` past a run of them, so the
three numbers are always those of the characters that were read.
-/

namespace Quill

/-- A place in a text. Lines and columns count from one, offsets from zero.

The numbers have no bound here. In a machine word they have one, which no place in a text that fits
into memory comes near; a place that is made by hand is meant to fit into a word as well, and so is
the end of a token behind it. -/
structure Position where
  offset : Nat
  line : Nat
  column : Nat
  deriving DecidableEq

namespace Position

/-- The place before the first character. -/
def start : Position := ⟨0, 1, 1⟩

/-- A place is at hand where one is asked for: the start of a text. -/
instance : Inhabited Position := ⟨start⟩

/-- The place after the character `c`: a newline opens the next line, any other character is one
column wide. -/
def step (p : Position) (c : Char) : Position :=
  if c = '\n' then
    ⟨p.offset + c.utf8Size, p.line + 1, 1⟩
  else
    ⟨p.offset + c.utf8Size, p.line, p.column + 1⟩

/-- The place after a run of characters. -/
def after (p : Position) (cs : List Char) : Position :=
  cs.foldl step p

/-- The place `text` ends at when it lies on one line. -/
def past (p : Position) (text : String) : Position :=
  ⟨p.offset + text.utf8ByteSize, p.line, p.column + text.length⟩

/-- How a message names the place. -/
def display (p : Position) : String :=
  toString p.line ++ ":" ++ toString p.column

/-- No character moves the place. -/
@[simp] theorem after_nil (p : Position) : p.after [] = p := rfl

/-- The first character moves the place by one step. -/
@[simp] theorem after_cons (p : Position) (c : Char) (cs : List Char) :
    p.after (c :: cs) = (p.step c).after cs := rfl

/-- The place behind two texts is reached by way of the place between them. -/
theorem after_append (p : Position) (cs ds : List Char) :
    p.after (cs ++ ds) = (p.after cs).after ds :=
  List.foldl_append

end Position

end Quill
