import Quill.Text.Shown

/-!
# Quoted text

Text as messages and shown expressions quote it: between two quotes, with the quote in use and the
backslash behind a backslash, short escapes for four control characters, and a code point in braces
for every other character that does not show.
-/

namespace Quill

/-- The code point of a character in braces. -/
def codePointEscape (c : Char) : List Char :=
  '\\' :: 'u' :: '{' :: (Nat.toDigits 16 c.toNat ++ ['}'])

/-- One character as it stands between two of the quote `q`. -/
def quoteChar (q c : Char) : List Char :=
  if c = '\x00' then
    ['\\', '0']
  else if c = '\t' then
    ['\\', 't']
  else if c = '\r' then
    ['\\', 'r']
  else if c = '\n' then
    ['\\', 'n']
  else if c = '\\' ∨ c = q then
    ['\\', c]
  else if isShown c then
    [c]
  else
    codePointEscape c

/-- A text between two of the quote `q`. -/
def quoteWith (q : Char) (cs : List Char) : List Char :=
  q :: (cs.flatMap (quoteChar q) ++ [q])

end Quill
