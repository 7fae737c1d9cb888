import Mathlib.Tactic.Common
import Quill.Proofs.Grammar.Derivation

/-!
# What a derivation takes

A derivation takes the front of the kinds and leaves the rest as it is, and it never takes the end
of the input. So a program holds no end, and nothing is left behind the end in front of which it
stops.
-/

namespace Quill

variable {d : Division}

/-- `rest` is what is left when some kinds, none of them the end of the input, are taken. -/
def Takes (ks rest : List Kind) : Prop :=
  ∃ taken, ks = taken ++ rest ∧ .endOfInput ∉ taken

/-- It may be that nothing is taken. -/
lemma Takes.refl (ks : List Kind) : Takes ks ks :=
  ⟨[], rfl, List.not_mem_nil⟩

/-- What is taken in two parts is taken. -/
lemma Takes.trans {ks mid rest : List Kind} (h : Takes ks mid) (h' : Takes mid rest) :
    Takes ks rest := by
  obtain ⟨taken, rfl, ht⟩ := h
  obtain ⟨more, rfl, hm⟩ := h'
  exact ⟨taken ++ more, (List.append_assoc _ _ _).symm, by simp [ht, hm]⟩

/-- One more token may be taken, if it is not the end of the input. -/
lemma Takes.cons {k : Kind} {ks rest : List Kind} (hk : k ≠ .endOfInput) (h : Takes ks rest) :
    Takes (k :: ks) rest := by
  obtain ⟨taken, rfl, ht⟩ := h
  exact ⟨k :: taken, rfl, by simp [ht, hk.symm]⟩

/-- A token that is not the end of the input may be taken alone. -/
lemma Takes.one {k : Kind} (ks : List Kind) (hk : k ≠ .endOfInput) : Takes (k :: ks) ks :=
  .cons hk (.refl ks)

/-- The token behind what is taken may be taken too, if it is not the end of the input. -/
lemma Takes.tail {k : Kind} {ks rest : List Kind} (h : Takes ks (k :: rest))
    (hk : k ≠ .endOfInput) : Takes ks rest :=
  h.trans (Takes.one rest hk)

/-- What is left was there before. -/
lemma Takes.mem {k : Kind} {ks rest : List Kind} (h : Takes ks rest) (hk : k ∈ rest) : k ∈ ks := by
  obtain ⟨taken, rfl, _⟩ := h
  exact List.mem_append_right _ hk

/-- Where the end of the input is reached, everything in front of it was taken and nothing is
behind it. -/
lemma Takes.eq_nil {ks rest : List Kind} (inner : .endOfInput ∉ ks)
    (h : Takes (ks ++ [.endOfInput]) (.endOfInput :: rest)) : rest = [] := by
  obtain ⟨taken, split, _⟩ := h
  obtain ⟨more, rfl, tail⟩ | ⟨more, rfl, tail⟩ := List.append_eq_append_iff.1 split
  · cases more with
    | nil => exact (List.cons.inj tail).2.symm
    | cons k more => simp at tail
  · cases more with
    | nil => exact (List.cons.inj tail).2
    | cons k more =>
      cases tail
      simp at inner

mutual

/-- An expression is taken without an end of the input. -/
theorem DerivesExpr.takes {ks rest : List Kind} {e : Expr} : DerivesExpr d ks rest e → Takes ks rest
  | .not h => .cons nofun h.takes
  | .compare ht _ h => (ht.takes.tail nofun).trans h.takes
  | .sum ht _ h => ht.takes.trans h.takes

/-- So are the terms of a sum behind the first one. -/
theorem DerivesSum.takes {ks rest : List Kind} {l e : Expr} :
    DerivesSum d l ks rest e → Takes ks rest
  | .done _ => .refl _
  | .more _ ht h => .cons nofun (ht.takes.trans h.takes)

/-- So is a term. -/
theorem DerivesTerm.takes {ks rest : List Kind} {e : Expr} : DerivesTerm d ks rest e → Takes ks rest
  | .product hf h => hf.takes.trans h.takes

/-- So are the factors of a product behind the first one. -/
theorem DerivesProduct.takes {ks rest : List Kind} {l e : Expr} :
    DerivesProduct d l ks rest e → Takes ks rest
  | .done _ => .refl _
  | .more _ hf h => .cons nofun (hf.takes.trans h.takes)

/-- So is a factor. -/
theorem DerivesFactor.takes {ks rest : List Kind} {e : Expr} :
    DerivesFactor d ks rest e → Takes ks rest
  | .plus h => .cons nofun h.takes
  | .minus h => .cons nofun h.takes
  | .number => .one _ nofun
  | .string => .one _ nofun
  | .kwTrue => .one _ nofun
  | .kwFalse => .one _ nofun
  | .kwNone => .one _ nofun
  | .ref _ _ => .one _ nofun
  | .call _ h => .cons nofun (.cons nofun (h.takes.tail nofun))
  | .group h => .cons nofun (h.takes.tail nofun)

/-- So are the arguments of a call. -/
theorem DerivesArgs.takes {ks rest : List Kind} {es : List Expr} :
    DerivesArgs d ks rest es → Takes ks rest
  | .nil => .refl _
  | .cons he h => he.takes.trans h.takes

end

/-- So are the parameters of a declaration. -/
lemma DerivesParams.takes {ks rest : List Kind} {xs : List String}
    (h : DerivesParams ks rest xs) : Takes ks rest := by
  induction h with
  | nil => exact .refl _
  | cons _ _ ih => exact .cons nofun ih

mutual

/-- A statement is taken without an end of the input. -/
theorem DerivesStmt.takes {ks rest : List Kind} {s : Stmt} : DerivesStmt d ks rest s → Takes ks rest
  | .assignGlobal _ h => .cons nofun (.cons nofun h.takes)
  | .assignLocal _ h => .cons nofun (.cons nofun h.takes)
  | .declare _ hxs h =>
    .cons nofun (.cons nofun (.cons nofun ((hxs.takes.tail nofun).trans h.takes)))
  | .giveBack h => .cons nofun h.takes
  | .conditional hc hb hbs h =>
    .cons nofun (hc.takes.trans (hb.takes.trans (hbs.takes.trans h.takes)))
  | .loop hc h => .cons nofun (hc.takes.trans h.takes)
  | .print h => .cons nofun h.takes
  | .expression h => h.takes

/-- So are the arms of a conditional. -/
theorem DerivesElifs.takes {ks rest : List Kind} {bs : List Branch} :
    DerivesElifs d ks rest bs → Takes ks rest
  | .nil _ => .refl _
  | .cons hc hb h => .cons nofun (hc.takes.trans (hb.takes.trans h.takes))

/-- So is its last arm. -/
theorem DerivesElse.takes {ks rest : List Kind} {o : Option Block} :
    DerivesElse d ks rest o → Takes ks rest
  | .none _ => .refl _
  | .some h => .cons nofun h.takes

/-- So are the statements of a block. -/
theorem DerivesStmts.takes {ks rest : List Kind} {ss : Block} :
    DerivesStmts d ks rest ss → Takes ks rest
  | .nil => .refl _
  | .cons hs h => (hs.takes.tail nofun).trans h.takes

/-- So is a block. -/
theorem DerivesBlock.takes {ks rest : List Kind} {b : Block} :
    DerivesBlock d ks rest b → Takes ks rest
  | .braces h => .cons nofun (h.takes.tail nofun)

end

/-- A block in front of the end of the input leaves nothing behind that end. -/
lemma derivesProgram_of_rest {ks rest : List Kind} {b : Block} (inner : .endOfInput ∉ ks)
    (h : DerivesBlock d (ks ++ [.endOfInput]) (.endOfInput :: rest) b) :
    DerivesProgram d ks b := by
  obtain rfl := h.takes.eq_nil inner
  exact h

/-- A program holds no end of the input. -/
lemma DerivesProgram.end_notMem {ks : List Kind} {b : Block} (h : DerivesProgram d ks b) :
    .endOfInput ∉ ks := by
  obtain ⟨taken, split, ht⟩ := DerivesBlock.takes h
  rwa [List.append_cancel_right split]

end Quill
