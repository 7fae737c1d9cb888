import Mathlib.Tactic.Common
import Quill.Grammar.Expectation
import Quill.Proofs.Grammar.Derivation

/-!
# The tables of the grammar

The functions by which the machine classifies a token, against the relations of the grammar: each
lemma says exactly which tokens a table knows, and what it makes of them.
-/

namespace Quill

/-- The text of a reserved word is found in the table. -/
@[simp] lemma Keyword.ofText?_text (w : Keyword) : Keyword.ofText? w.text = some w := by
  cases w <;> decide

/-- The table finds a word exactly under its text. -/
lemma Keyword.ofText?_eq_some_iff {x : String} {w : Keyword} :
    Keyword.ofText? x = some w ↔ x = w.text := by
  constructor
  · intro h
    have found := List.find?_some h
    exact (beq_iff_eq.1 found).symm
  · rintro rfl
    exact Keyword.ofText?_text w

/-- The words that the table does not know are the names. -/
lemma Keyword.ofText?_eq_none_iff {x : String} : Keyword.ofText? x = none ↔ IsName x := by
  constructor
  · rintro h w rfl
    simp at h
  · intro h
    cases hw : Keyword.ofText? x with
    | none => rfl
    | some w => exact absurd (Keyword.ofText?_eq_some_iff.1 hw) (h w)

namespace Kind

/-- A token is read as a keyword exactly if it is the token of that keyword. -/
lemma keyword?_eq_some_iff {k : Kind} {w : Keyword} : k.keyword? = some w ↔ k = w.kind := by
  cases k with
  | word x => simp [keyword?, word?, Keyword.kind, Keyword.ofText?_eq_some_iff]
  | _ => simp [keyword?, word?, Keyword.kind]

/-- The token of a keyword is read as that keyword. -/
@[simp] lemma keyword?_kind (w : Keyword) : w.kind.keyword? = some w :=
  keyword?_eq_some_iff.2 rfl

/-- A token is read as a name exactly if it is a word that is no keyword. -/
lemma name?_eq_some_iff {k : Kind} {x : String} : k.name? = some x ↔ k = .word x ∧ IsName x := by
  cases k with
  | word y =>
    simp only [name?, word?, Option.filter_eq_some_iff, Option.some.injEq, word.injEq]
    constructor
    · rintro ⟨rfl, hy⟩
      refine ⟨rfl, Keyword.ofText?_eq_none_iff.1 ?_⟩
      simpa [isReserved] using hy
    · rintro ⟨rfl, hy⟩
      refine ⟨rfl, ?_⟩
      simp [isReserved, Keyword.ofText?_eq_none_iff.2 hy]
  | _ => simp [name?, word?]

/-- The comparisons of the table are those of the grammar. -/
lemma comparison?_eq_some_iff {k : Kind} {op : BinaryOp} :
    k.comparison? = some op ↔ ∃ o, k = .operator o ∧ Compares o op := by
  constructor
  · intro h
    unfold comparison? at h
    split at h <;> cases h <;> exact ⟨_, rfl, by constructor⟩
  · rintro ⟨o, rfl, h⟩
    cases h <;> rfl

/-- A token adds exactly if it is an operator that does. -/
lemma additive?_eq_some_iff {k : Kind} {op : BinaryOp} :
    k.additive? = some op ↔ ∃ o, k = .operator o ∧ Adds o op := by
  constructor
  · intro h
    unfold additive? at h
    split at h <;> cases h <;> exact ⟨_, rfl, by constructor⟩
  · rintro ⟨o, rfl, h⟩
    cases h <;> rfl

/-- A token multiplies exactly if it is an operator that does in the mode. -/
lemma multiplicative?_eq_some_iff {d : Division} {k : Kind} {op : BinaryOp} :
    k.multiplicative? d = some op ↔ ∃ o, k = .operator o ∧ Multiplies d o op := by
  constructor
  · intro h
    unfold multiplicative? at h
    split at h
    · cases h
      exact ⟨_, rfl, .star⟩
    · cases d <;> cases h
      · exact ⟨_, rfl, .slash⟩
      · exact ⟨_, rfl, .legacySlash⟩
    · cases h
  · rintro ⟨o, rfl, h⟩
    cases h <;> rfl

end Kind

/-- No operator comes next exactly when the table finds none in the next token. -/
lemma noneAhead_cons_iff {joins : Operator → BinaryOp → Prop} {table : Kind → Option BinaryOp}
    (exact : ∀ {k op}, table k = some op ↔ ∃ o, k = .operator o ∧ joins o op)
    {k : Kind} {ks : List Kind} : NoneAhead joins (k :: ks) ↔ table k = none := by
  constructor
  · intro h
    cases hk : table k with
    | none => rfl
    | some op =>
      obtain ⟨o, rfl, ho⟩ := exact.1 hk
      exact absurd rfl (h o op ho)
  · intro h o op ho hk
    cases hk
    have found := exact.2 ⟨o, rfl, ho⟩
    simp [h] at found

/-- No comparison is ahead exactly if the next token is none. -/
lemma noneAhead_compares {k : Kind} {ks : List Kind} :
    NoneAhead Compares (k :: ks) ↔ k.comparison? = none :=
  noneAhead_cons_iff Kind.comparison?_eq_some_iff

/-- No addition is ahead exactly if the next token is none. -/
lemma noneAhead_adds {k : Kind} {ks : List Kind} :
    NoneAhead Adds (k :: ks) ↔ k.additive? = none :=
  noneAhead_cons_iff Kind.additive?_eq_some_iff

/-- No multiplication is ahead exactly if the next token is none. -/
lemma noneAhead_multiplies {d : Division} {k : Kind} {ks : List Kind} :
    NoneAhead (Multiplies d) (k :: ks) ↔ k.multiplicative? d = none :=
  noneAhead_cons_iff Kind.multiplicative?_eq_some_iff

end Quill
