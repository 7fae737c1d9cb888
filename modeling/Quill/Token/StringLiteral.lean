import Quill.Text.Cut
import Quill.Text.Hex

/-!
# String literals

A string literal stands between double quotes on one line. A backslash opens an escape: a short one
for a quote, a backslash, a slash or a control character, or `\u` with four hexadecimal digits that
name a Unicode scalar value. The reader decodes as it goes and stops at the first fault.
-/

namespace Quill

/-- The character that a one-letter escape stands for. -/
def shortEscape? : Char → Option Char
  | '"' => some '"'
  | '\\' => some '\\'
  | '/' => some '/'
  | '\'' => some '\''
  | 'n' => some '\n'
  | 't' => some '\t'
  | 'r' => some '\r'
  | 'b' => some '\x08'
  | 'f' => some '\x0c'
  | '0' => some '\x00'
  | _ => none

/-- What comes of reading a literal behind its opening quote. -/
inductive StringScan where
  | closed (value : List Char) (cut : Cut)
  | unterminated
  | badEscape (before : List Char) (letter : Char)
  deriving DecidableEq

/-- The reading with one more decoded character and its spelling in front. -/
def StringScan.prepend (value : Char) (spelling : List Char) : StringScan → StringScan
  | closed vs cut => closed (value :: vs) (cut.prepend spelling)
  | unterminated => unterminated
  | badEscape before letter => badEscape (spelling ++ before) letter

/-- Reads a literal behind its opening quote, up to and with the closing one. -/
def scanString : List Char → StringScan
  | [] => .unterminated
  | '\n' :: _ => .unterminated
  | '"' :: rest => .closed [] ⟨['"'], rest⟩
  | '\\' :: [] => .unterminated
  | '\\' :: '\n' :: _ => .unterminated
  | '\\' :: 'u' :: a :: b :: c :: d :: rest =>
    match (hexQuad? a b c d).bind scalar? with
    | some v => (scanString rest).prepend v ['\\', 'u', a, b, c, d]
    | none => .badEscape [] 'u'
  | '\\' :: e :: rest =>
    match shortEscape? e with
    | some v => (scanString rest).prepend v ['\\', e]
    | none => .badEscape [] e
  | c :: rest => (scanString rest).prepend c [c]

/-- A literal is cut from its text and holds at least its closing quote. -/
theorem text_of_scanString {cs value : List Char} {cut : Cut}
    (h : scanString cs = .closed value cut) : cut.text = cs ∧ cut.taken ≠ [] := by
  fun_induction scanString cs generalizing value cut with
  | case1 => simp at h
  | case2 => simp at h
  | case3 rest =>
    cases h
    exact ⟨rfl, by simp⟩
  | case4 => simp at h
  | case5 => simp at h
  | case6 a b c d rest v hv ih =>
    cases hs : scanString rest <;> rw [hs] at h <;> simp [StringScan.prepend] at h
    obtain ⟨rfl, rfl⟩ := h
    simp [(ih hs).1]
  | case7 => simp at h
  | case8 e rest _ _ v hv ih =>
    cases hs : scanString rest <;> rw [hs] at h <;> simp [StringScan.prepend] at h
    obtain ⟨rfl, rfl⟩ := h
    simp [(ih hs).1]
  | case9 => simp at h
  | case10 c rest _ _ _ _ _ _ ih =>
    cases hs : scanString rest <;> rw [hs] at h <;> simp [StringScan.prepend] at h
    obtain ⟨rfl, rfl⟩ := h
    simp [(ih hs).1]

end Quill
