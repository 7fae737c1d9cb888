import Quill.Proofs.Nesting.Limit
import Quill.Proofs.Tree.Unparse

/-!
# Chains

Programs that grow without opening a level. The sum `None + None + … + None` groups to the left, so
its tree gains a node above with every operator, and all of it is one expression. A program that
prints it has two levels, one for the block and one for the expression, and every limit from two on
lets it through (`exists_chain_source`).
-/

namespace Quill

/-- A sum of words, grouped to the left, with `n` operators. -/
def chain : Nat → Expr
  | 0 => .none
  | n + 1 => .binary .add (chain n) .none

/-- More terms of a sum, with their levels, in front of further tokens. -/
def links (rest : List Levelled) : Nat → List Levelled
  | 0 => rest
  | n + 1 => (.operator .plus, 0) :: (Keyword.kwNone.kind, 0) :: links rest n

/-- A program that prints a chain, with its levels. -/
def chainProgram (n : Nat) : List Levelled :=
  (.mark .leftBrace, 1) :: (Keyword.kwPrint.kind, 0) :: (Keyword.kwNone.kind, 2) ::
    links [(.mark .semicolon, 0), (.mark .rightBrace, 0)] n

section

variable {d : Division} {k : Kind} {l : Nat} {rest : List Levelled}

/-- Behind a term of a chain there is no operator but that of a sum. -/
lemma noneAhead_links (hk : Inert k) (n : Nat) :
    NoneAhead Compares (kindsOf (links ((k, l) :: rest) n)) ∧
      NoneAhead (Multiplies d) (kindsOf (links ((k, l) :: rest) n)) := by
  cases n with
  | zero => exact ⟨hk.noneAhead _, hk.noneAhead _⟩
  | succ n => exact ⟨Adds.plus.no_comparison _, Adds.plus.no_factor _⟩

/-- Each link puts the chain in front of it on the left of a sum. -/
lemma levelsSum_links (hk : Inert k) (m n : Nat) :
    LevelsSum d 2 (chain m) (links ((k, l) :: rest) n) ((k, l) :: rest) (chain (m + n)) := by
  induction n generalizing m with
  | zero => exact .done (hk.noneAhead _)
  | succ n ih =>
    have further := ih (m + 1)
    rw [Nat.succ_add_eq_add_succ] at further
    exact .more .plus (.product .kwNone (.done (noneAhead_links hk n).2)) further

/-- A chain has the levels of one expression. -/
lemma levelsExpr_chain (hk : Inert k) (n : Nat) :
    LevelsExpr d 1 ((Keyword.kwNone.kind, 2) :: links ((k, l) :: rest) n) ((k, l) :: rest)
      (chain n) := by
  obtain ⟨compares, multiplies⟩ := noneAhead_links hk n
  have sum : LevelsSum d 2 .none _ ((k, l) :: rest) _ := levelsSum_links hk 0 n
  rw [Nat.zero_add] at sum
  exact .sum (.product .kwNone (.done multiplies)) compares sum

/-- The links stand in front of what follows them. -/
lemma links_append (front back : List Levelled) (n : Nat) :
    links front n ++ back = links (front ++ back) n := by
  induction n with
  | zero => rfl
  | succ n ih => rw [links, links, List.cons_append, List.cons_append, ih]

/-- The tokens of more terms are operators and words, none of which begins a level. -/
lemma mem_links {x : Levelled} {n : Nat} (h : x ∈ links rest n) :
    x ∈ rest ∨ x = (.operator .plus, 0) ∨ x = (Keyword.kwNone.kind, 0) := by
  induction n with
  | zero => exact .inl h
  | succ n ih =>
    obtain rfl | h := List.mem_cons.1 h
    · exact .inr (.inl rfl)
    · obtain rfl | h := List.mem_cons.1 h
      · exact .inr (.inr rfl)
      · exact ih h

end

/-- The program with the chain, and its levels: one for the block and one for the expression. -/
lemma levelsProgram_chain (d : Division) (n : Nat) :
    LevelsProgram d (kindsOf (chainProgram n)) ((chainProgram n).map Prod.snd)
      [.print (chain n)] := by
  refine ⟨by simp, ?_⟩
  rw [← List.zip_of_prod rfl rfl, chainProgram, List.cons_append, List.cons_append,
    List.cons_append, links_append]
  exact .braces (.cons (.print (levelsExpr_chain .semicolon n)) .nil)

/-- No chain has other tokens than the one with a single operator. -/
lemma mem_chainProgram {x : Levelled} {n : Nat} (h : x ∈ chainProgram n) : x ∈ chainProgram 1 := by
  simp only [chainProgram, List.mem_cons] at h ⊢
  refine h.imp_right (Or.imp_right (Or.imp_right fun later => ?_))
  obtain last | rfl | rfl := mem_links later
  · exact List.mem_cons_of_mem _ (List.mem_cons_of_mem _ last)
  · exact List.mem_cons_self
  · exact List.mem_cons_of_mem _ List.mem_cons_self

/-- The program that prints a chain has two levels, however long the chain is. -/
lemma deepest_chainProgram (n : Nat) : deepest ((chainProgram n).map Prod.snd) ≤ 2 := by
  rw [deepest_le_iff]
  intro l hl
  obtain ⟨x, hx, rfl⟩ := List.mem_map.1 hl
  have low : ∀ x ∈ chainProgram 1, x.2 ≤ 2 := by decide
  exact low x (mem_chainProgram hx)

/-- Every token of the program that prints a chain can be spelled. -/
lemma spellable_chainProgram (n : Nat) : ∀ k ∈ kindsOf (chainProgram n), k.Spellable := by
  intro k hk
  obtain ⟨x, hx, rfl⟩ := List.mem_map.1 hk
  have written : ∀ x ∈ chainProgram 1, x.1.Spellable := by
    simp only [chainProgram, links, List.forall_mem_cons]
    exact ⟨spellable_mark _, spellable_keyword _, spellable_keyword _, spellable_operator _,
      spellable_keyword _, spellable_mark _, spellable_mark _, nofun⟩
  exact written x (mem_chainProgram hx)

/-- A program that prints a chain is accepted under every limit from two on. -/
theorem exists_chain_source (d : Division) (n : Nat) :
    ∃ source, ∀ limit, 2 ≤ limit → parseText ⟨d, limit⟩ source = .ok [.print (chain n)] := by
  obtain ⟨source, ts, p, items, kinds⟩ := exists_source (spellable_chainProgram n)
  have levels := levelsProgram_chain d n
  rw [← kinds] at levels
  have stream : withEnd (tokenize source) =
      ts.map .ok ++ .ok (.endAt p) :: [.ok (.endAt (endPlace (tokenize source)))] := by
    rw [withEnd, items, List.map_append, List.append_assoc]
    rfl
  exact ⟨source, fun limit room =>
    levels.parse_eq_ok stream rfl ((deepest_chainProgram n).trans room)⟩

end Quill
