import Quill.Text.Hex

/-!
# JSON strings

What a JSON string says. Its escapes name UTF-16 units: a unit that is half of a surrogate pair
stands for a character only together with its other half. The characters of a string are read as a
list of code points and units first, and pairs are joined afterwards.
-/

namespace Quill

namespace Json

/-- The character that a one-letter escape stands for. -/
def escape? : Char → Option Char
  | '"' => some '"'
  | '\\' => some '\\'
  | '/' => some '/'
  | 'b' => some '\x08'
  | 'f' => some '\x0c'
  | 'n' => some '\n'
  | 'r' => some '\r'
  | 't' => some '\t'
  | _ => none

/-- Reads a string behind its opening quote: the numbers of its characters, and the text behind its
closing quote. A control character must be escaped. -/
def readUnits? : List Char → Option (List Nat × List Char)
  | [] => none
  | '"' :: rest => some ([], rest)
  | '\\' :: 'u' :: a :: b :: c :: d :: rest =>
    match hexQuad? a b c d with
    | some n => (readUnits? rest).map fun r => (n :: r.1, r.2)
    | none => none
  | '\\' :: e :: rest =>
    match escape? e with
    | some v => (readUnits? rest).map fun r => (v.toNat :: r.1, r.2)
    | none => none
  | c :: rest =>
    if c.toNat < 0x20 then none else (readUnits? rest).map fun r => (c.toNat :: r.1, r.2)

/-- The code point that a high and a low surrogate name together. -/
def joinPair? (high low : Nat) : Option Nat :=
  if 0xd800 ≤ high ∧ high < 0xdc00 ∧ 0xdc00 ≤ low ∧ low < 0xe000 then
    some (0x10000 + (high - 0xd800) * 0x400 + (low - 0xdc00))
  else
    none

/-- The characters that a list of units names, unless one of them is half of a pair alone. -/
def ofUnits? : List Nat → Option (List Char)
  | [] => some []
  | [n] => (scalar? n).map ([·])
  | m :: n :: rest =>
    match joinPair? m n with
    | some point => (scalar? point).bind fun c => (ofUnits? rest).map (c :: ·)
    | none => (scalar? m).bind fun c => (ofUnits? (n :: rest)).map (c :: ·)

/-- Reads a string behind its opening quote. The text is absent when the units name none. -/
def readString? (cs : List Char) : Option (Option String × List Char) :=
  (readUnits? cs).map fun r => ((ofUnits? r.1).map String.ofList, r.2)

/-- Reading a string leaves less to read. -/
theorem length_of_readUnits? {cs rest : List Char} {us : List Nat}
    (h : readUnits? cs = some (us, rest)) : rest.length < cs.length := by
  fun_induction readUnits? cs generalizing us rest with
  | case1 => simp at h
  | case2 =>
    cases h
    simp
  | case3 a b c d more n hn ih =>
    obtain ⟨r, hr, he⟩ := Option.map_eq_some_iff.1 h
    cases he
    have := ih hr
    simp only [List.length_cons]
    omega
  | case4 => simp at h
  | case5 e more _ v hv ih =>
    obtain ⟨r, hr, he⟩ := Option.map_eq_some_iff.1 h
    cases he
    have := ih hr
    simp only [List.length_cons]
    omega
  | case6 => simp at h
  | case7 => simp at h
  | case8 c more _ _ _ _ ih =>
    obtain ⟨r, hr, he⟩ := Option.map_eq_some_iff.1 h
    cases he
    have := ih hr
    simp only [List.length_cons]
    omega

/-- A string takes at least its closing quote. -/
theorem length_of_readString? {cs rest : List Char} {s : Option String}
    (h : readString? cs = some (s, rest)) : rest.length < cs.length := by
  obtain ⟨r, hr, he⟩ := Option.map_eq_some_iff.1 h
  cases he
  exact length_of_readUnits? hr

end Json

end Quill
