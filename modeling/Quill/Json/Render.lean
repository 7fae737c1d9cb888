import Quill.Json.Basic

/-!
# JSON text

A JSON value written out, on one line or with two blanks of indentation per level. Empty arrays and
objects take no line of their own. Strings escape the quote, the backslash and the control
characters below the space, and nothing else.

A value is written before the text that follows it, so nothing is copied however deep it stands.
-/

namespace Quill

namespace Json

/-- A digit of a code point below sixteen. -/
def hexDigit (n : Nat) : Char :=
  Nat.digitChar n

/-- One character of a string. -/
def escapeChar (c : Char) : List Char :=
  if c = '"' then
    ['\\', '"']
  else if c = '\\' then
    ['\\', '\\']
  else if c = '\x08' then
    ['\\', 'b']
  else if c = '\x0c' then
    ['\\', 'f']
  else if c = '\n' then
    ['\\', 'n']
  else if c = '\r' then
    ['\\', 'r']
  else if c = '\t' then
    ['\\', 't']
  else if c.toNat < 0x20 then
    ['\\', 'u', '0', '0', hexDigit (c.toNat / 16), hexDigit (c.toNat % 16)]
  else
    [c]

/-- A string in its quotes. A string that is no text has no spelling of its own and is written as
half of a surrogate pair. -/
def renderString : Option String → List Char
  | some s => '"' :: (s.toList.flatMap escapeChar ++ ['"'])
  | none => "\"\\ud800\"".toList

/-- A truth value. -/
def renderBool : Bool → List Char
  | true => "true".toList
  | false => "false".toList

/-- How a text is spread over lines: what follows an opening bracket or a comma, what stands before
a closing bracket, each by the level of the bracket, and what follows a colon. -/
structure Style where
  item : Nat → List Char
  close : Nat → List Char
  colon : List Char

/-- Everything on one line, without blanks. -/
def Style.compact : Style :=
  ⟨fun _ => [], fun _ => [], [':']⟩

/-- A new line at a level of indentation. -/
def newLine (level : Nat) : List Char :=
  '\n' :: List.replicate (2 * level) ' '

/-- Every item and member on a line of its own. -/
def Style.pretty : Style :=
  ⟨fun level => newLine (level + 1), newLine, [':', ' ']⟩

mutual

/-- A value in a style, `level` brackets deep, written before the text `rest`. -/
def renderBefore (style : Style) (level : Nat) (rest : List Char) : Json → List Char
  | .null => "null".toList ++ rest
  | .bool b => renderBool b ++ rest
  | .number n => n.spell ++ rest
  | .string s => renderString s ++ rest
  | .array [] => '[' :: ']' :: rest
  | .array (v :: vs) =>
    '[' :: (style.item level ++
      renderBefore style (level + 1) (renderItems style level (style.close level ++ ']' :: rest) vs)
        v)
  | .object [] => '{' :: '}' :: rest
  | .object ((k, v) :: ms) =>
    '{' :: (style.item level ++ renderString k ++ style.colon ++
      renderBefore style (level + 1)
        (renderMembers style level (style.close level ++ '}' :: rest) ms) v)

/-- The items of an array behind its first. -/
def renderItems (style : Style) (level : Nat) (rest : List Char) : List Json → List Char
  | [] => rest
  | v :: vs =>
    ',' :: (style.item level ++ renderBefore style (level + 1) (renderItems style level rest vs) v)

/-- The members of an object behind its first. -/
def renderMembers (style : Style) (level : Nat) (rest : List Char) :
    List (Option String × Json) → List Char
  | [] => rest
  | (k, v) :: ms =>
    ',' :: (style.item level ++ renderString k ++ style.colon ++
      renderBefore style (level + 1) (renderMembers style level rest ms) v)

end

/-- A value as text in a style. -/
def render (style : Style) (v : Json) : String :=
  String.ofList (renderBefore style 0 [] v)

end Json

end Quill
