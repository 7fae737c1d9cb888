import Quill.Proofs.Nesting.Limit
import Quill.Proofs.Tree.Unparse

/-!
# Exactly the well-formed trees

A tree has a text exactly if it is well-formed. The tree of a text is derived from kinds that can be
written, so it is well-formed. A well-formed tree is derived from the kinds that it is written with.
Those are the kinds of a text, and a limit above their number does not stop the parse of that text.
-/

namespace Quill

variable {d : Division} {b : Block} {ks : List Kind}

/-- A program of kinds that can be written is well-formed. -/
lemma DerivesProgram.wellFormed (h : DerivesProgram d ks b) (w : ∀ k ∈ ks, k.Spellable) :
    b.WellFormed d := by
  refine DerivesBlock.wellFormed h fun k hk inner => ?_
  obtain hk | hk := List.mem_append.1 hk
  · exact w k hk
  · exact absurd (List.mem_singleton.1 hk) inner

/-- A well-formed block is a program of kinds that can be written. -/
lemma Block.WellFormed.exists_kinds (h : b.WellFormed d) :
    ∃ ks, (∀ k ∈ ks, k.Spellable) ∧ DerivesProgram d ks b := by
  have derived := derivesBlock_unparse (fun s hs => (h s hs).readable) [.endOfInput]
  have last : Written [.endOfInput] :=
    List.forall_mem_singleton.2 fun inner => absurd rfl inner
  have written := written_unparse_block (fun s hs => (h s hs).written) _ last
  obtain ⟨ks, split, inner⟩ := derived.takes
  rw [split] at derived written
  refine ⟨ks, fun k hk => written k (List.mem_append_left _ hk) ?_, derived⟩
  rintro rfl
  exact inner hk

/-- The tree of a text is a program of kinds that can be written. -/
lemma exists_kinds_of_parse {source : String} {limit : Nat}
    (parsed : parseText ⟨d, limit⟩ source = .ok b) :
    ∃ ks, (∀ k ∈ ks, k.Spellable) ∧ DerivesProgram d ks b := by
  obtain ⟨ts, last, after, stream, _, derived⟩ := exists_program_of_parse parsed
  refine ⟨_, fun k hk => ?_, derived⟩
  have inner : k ≠ .endOfInput := fun same => derived.end_notMem (same ▸ hk)
  obtain ⟨t, ht, rfl⟩ := List.mem_map.1 hk
  have mem : .ok t ∈ withEnd (tokenize source) := by
    rw [stream]
    exact List.mem_append_left _ (List.mem_map_of_mem ht)
  -- The end that the stream was given is no token of the program.
  obtain mem | mem := List.mem_append.1 mem
  · exact spellable_of_mem mem inner
  · cases List.mem_singleton.1 mem
    exact absurd rfl inner

/-- Every tree that a parse gives is well-formed. -/
theorem wellFormed_of_parse {source : String} {limit : Nat}
    (parsed : parseText ⟨d, limit⟩ source = .ok b) : b.WellFormed d := by
  obtain ⟨ks, spellable, derived⟩ := exists_kinds_of_parse parsed
  exact derived.wellFormed spellable

/-- With room for every token, a text is parsed as the program that the kinds in front of its end
derive. -/
lemma parse_iff_of_items {source : String} {limit : Nat} {ts : List Token} {p : Position}
    (items : tokenize source = (ts ++ [Token.endAt p]).map .ok)
    (inner : .endOfInput ∉ ts.map Token.kind) (room : ts.length < limit) :
    parseText ⟨d, limit⟩ source = .ok b ↔ DerivesProgram d (ts.map Token.kind) b := by
  have kinds : kindsBeforeEnd (ts ++ [.endAt p]) = ts.map Token.kind :=
    kindsBeforeEnd_of_split List.map_append inner
  rw [parseText, items, parseItems_eq_ok_iff_closes (by rwa [kinds, List.length_map]), kinds,
    closes_initial_iff inner]

/-- A program of kinds that can be written is the tree of a text. -/
lemma exists_parse_of_kinds (spellable : ∀ k ∈ ks, k.Spellable) (derived : DerivesProgram d ks b) :
    ∃ source limit, parseText ⟨d, limit⟩ source = .ok b := by
  obtain ⟨source, ts, p, items, rfl⟩ := exists_source spellable
  have room := Nat.lt_succ_self ts.length
  exact ⟨source, _, (parse_iff_of_items items derived.end_notMem room).2 derived⟩

/-- A block is the tree of some text under some limit exactly if it is well-formed: every name is an
identifier that is not reserved, every conditional has an arm, no number has a sign (all are finite
by their type), and if a slash subtracts, nothing is a division. -/
theorem parses_iff_wellFormed (d : Division) (b : Block) :
    (∃ source limit, parseText ⟨d, limit⟩ source = .ok b) ↔ b.WellFormed d := by
  constructor
  · rintro ⟨source, limit, parsed⟩
    exact wellFormed_of_parse parsed
  · intro h
    obtain ⟨ks, spellable, derived⟩ := h.exists_kinds
    exact exists_parse_of_kinds spellable derived

end Quill
