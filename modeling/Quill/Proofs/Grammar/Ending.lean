import Quill.Proofs.Grammar.Consumed
import Quill.Proofs.Grammar.Simulation

/-!
# Where a program ends

Whatever is open while a program is read, nothing closes it but the end of the input, and that token
closes nothing but the program's own block. So the machine is done with a program there and nowhere
else (`closed_of_step_done`).
-/

namespace Quill

variable {d : Division}

mutual

/-- Behind the expression that a program waits for, there is an end of the input. -/
theorem ExprContext.end_mem {e : Expr} {ks : List Kind} {r : Block} :
    ∀ {outer : ExprContext .program}, outer.Closes d e ks r → .endOfInput ∈ ks
  | .whole asked, _ => nomatch asked
  | .not outer, h => outer.end_mem h
  | .compare _ _ outer, h => outer.end_mem h
  | .group outer, ⟨_, hk, h⟩ => hk ▸ List.mem_cons_of_mem _ (outer.end_mem h)
  | .argument _ _ outer, ⟨_, _, hes, h⟩ => (hes.takes.tail nofun).mem (outer.end_mem h)
  | .assign _ _ outer, h => outer.end_mem h
  | .giveBack outer, h => outer.end_mem h
  | .print outer, h => outer.end_mem h
  | .expression outer, h => outer.end_mem h
  | .branch _ outer, ⟨_, _, _, _, _, _, hb, hbs, ho, h⟩ =>
    (hb.takes.trans (hbs.takes.trans ho.takes)).mem (outer.end_mem h)
  | .loop outer, ⟨_, _, hb, h⟩ => hb.takes.mem (outer.end_mem h)

/-- Behind the term that a program waits for, there is an end of the input. -/
theorem TermContext.end_mem {t : Expr} {ks : List Kind} {r : Block} :
    ∀ {outer : TermContext .program}, outer.Closes d t ks r → .endOfInput ∈ ks
  | .first outer, .inl ⟨_, _, _, _, _, hk, _, he, h⟩ =>
    hk ▸ List.mem_cons_of_mem _ (he.takes.mem (outer.end_mem h))
  | .first outer, .inr ⟨_, _, _, he, h⟩ => he.takes.mem (outer.end_mem h)
  | .sum _ _ outer, ⟨_, _, he, h⟩ => he.takes.mem (outer.end_mem h)

/-- Behind the factor that a program waits for, there is an end of the input. -/
theorem FactorContext.end_mem {f : Expr} {ks : List Kind} {r : Block} :
    ∀ {outer : FactorContext .program}, outer.Closes d f ks r → .endOfInput ∈ ks
  | .first outer, ⟨_, _, ht, h⟩ => ht.takes.mem (outer.end_mem h)
  | .product _ _ outer, ⟨_, _, ht, h⟩ => ht.takes.mem (outer.end_mem h)
  | .signed _ outer, h => outer.end_mem h

/-- Behind the statement that a program waits for, there is an end of the input. -/
theorem StmtContext.end_mem {s : Stmt} {ks : List Kind} {r : Block} :
    ∀ {outer : StmtContext .program}, outer.Closes d s ks r → .endOfInput ∈ ks
  | .whole asked, _ => nomatch asked
  | .item _ outer, ⟨_, _, _, hk, hss, h⟩ =>
    hk ▸ List.mem_cons_of_mem _ ((hss.takes.tail nofun).mem (outer.end_mem h))

/-- Behind the block that a program waits for, there is an end of the input. -/
theorem BlockContext.end_mem {b : Block} {ks : List Kind} {r : Block} :
    ∀ {outer : BlockContext .program}, outer.Closes d b ks r → .endOfInput ∈ ks
  | .whole asked, _ => nomatch asked
  | .program _, ⟨⟨_, hk⟩, _⟩ => hk ▸ List.mem_cons_self
  | .function _ _ outer, h => outer.end_mem h
  | .branch _ _ outer, ⟨_, _, _, _, hbs, ho, h⟩ =>
    (hbs.takes.trans ho.takes).mem (outer.end_mem h)
  | .otherwise _ outer, h => outer.end_mem h
  | .loop _ outer, h => outer.end_mem h

end

/-- Kinds that complete a state of a program reach the end of the input. -/
lemma State.end_mem {ks : List Kind} {r : Block} :
    ∀ {s : State .program}, s.Closes d ks r → .endOfInput ∈ ks
  | .block _, ⟨_, _, hb, h⟩ => hb.takes.mem (BlockContext.end_mem h)
  | .statements _ _, ⟨_, _, hss, h⟩ =>
    (hss.takes.tail nofun).mem (BlockContext.end_mem h)
  | .closed _ _, h => BlockContext.end_mem h
  | .statement _, ⟨_, _, hs, h⟩ => hs.takes.mem (StmtContext.end_mem h)
  | .variableName _ _, ⟨_, _, _, _, hk, _, he, h⟩ =>
    hk ▸ List.mem_cons_of_mem _ (he.takes.mem (StmtContext.end_mem h))
  | .functionName _, ⟨_, _, _, _, _, _, hk, _, hxs, hb, h⟩ =>
    hk ▸ List.mem_cons_of_mem _ (List.mem_cons_of_mem _
      (((hxs.takes.tail nofun).trans hb.takes).mem (StmtContext.end_mem h)))
  | .signature _ _, ⟨_, _, _, _, _, hk, hxs, hb, h⟩ =>
    hk ▸ List.mem_cons_of_mem _
      (((hxs.takes.tail nofun).trans hb.takes).mem (StmtContext.end_mem h))
  | .parameters _ _ _, ⟨_, _, _, _, hxs, hb, h⟩ =>
    ((hxs.takes.tail nofun).trans hb.takes).mem (StmtContext.end_mem h)
  | .expression _, ⟨_, _, he, h⟩ => he.takes.mem (ExprContext.end_mem h)
  | .factor _, ⟨_, _, hf, h⟩ => hf.takes.mem (FactorContext.end_mem h)
  | .operand _ _, ⟨_, _, hf, h⟩ => hf.takes.mem (FactorContext.end_mem h)
  | .name _ _, .inl ⟨_, _, _, hk, hes, h⟩ =>
    hk ▸ List.mem_cons_of_mem _ ((hes.takes.tail nofun).mem (FactorContext.end_mem h))
  | .name _ _, .inr ⟨_, h⟩ => FactorContext.end_mem h
  | .arguments _ _ _, ⟨_, _, hes, h⟩ =>
    (hes.takes.tail nofun).mem (FactorContext.end_mem h)
  | .value _ _, h => FactorContext.end_mem h

/-- No expression begins with the end of the input. -/
lemma DerivesExpr.not_end {ks rest : List Kind} {e : Expr} :
    ¬ DerivesExpr d (.endOfInput :: ks) rest e := by
  intro h
  obtain ⟨_, _, hk, starts⟩ := h.head
  cases hk
  simp [Kind.startsExpression] at starts

/-- No statement begins with the end of the input. -/
lemma DerivesStmt.not_end {ks rest : List Kind} {s : Stmt} :
    ¬ DerivesStmt d (.endOfInput :: ks) rest s := by
  intro h
  obtain ⟨_, _, hk, starts⟩ := h.head
  cases hk
  simp [Kind.startsStatement, Kind.startsExpression, Kind.keyword?, Kind.word?] at starts

mutual

/-- Right behind an expression, the end of the input closes no program. -/
theorem ExprContext.not_closes_end {e : Expr} {ks : List Kind} {r : Block} :
    ∀ {outer : ExprContext .program}, ¬ outer.Closes d e (.endOfInput :: ks) r
  | .whole asked, _ => nomatch asked
  | .not outer, h => outer.not_closes_end h
  | .compare _ _ outer, h => outer.not_closes_end h
  | .group _, ⟨_, hk, _⟩ => nomatch hk
  | .argument _ _ _, ⟨_, _, .cons he _, _⟩ => he.not_end
  | .assign _ _ outer, h => outer.not_closes_end h
  | .giveBack outer, h => outer.not_closes_end h
  | .print outer, h => outer.not_closes_end h
  | .expression outer, h => outer.not_closes_end h
  | .branch _ _, ⟨_, _, _, _, _, _, hb, _⟩ => nomatch hb
  | .loop _, ⟨_, _, hb, _⟩ => nomatch hb

/-- Right behind a term, the end of the input closes no program. -/
theorem TermContext.not_closes_end {t : Expr} {ks : List Kind} {r : Block} :
    ∀ {outer : TermContext .program}, ¬ outer.Closes d t (.endOfInput :: ks) r
  | .first _, .inl ⟨_, _, _, _, _, hk, _⟩ => nomatch hk
  | .first outer, .inr ⟨_, _, _, .done _, h⟩ => outer.not_closes_end h
  | .sum _ _ outer, ⟨_, _, .done _, h⟩ => outer.not_closes_end h

/-- Right behind a factor, the end of the input closes no program. -/
theorem FactorContext.not_closes_end {f : Expr} {ks : List Kind} {r : Block} :
    ∀ {outer : FactorContext .program}, ¬ outer.Closes d f (.endOfInput :: ks) r
  | .first outer, ⟨_, _, .done _, h⟩ => outer.not_closes_end h
  | .product _ _ outer, ⟨_, _, .done _, h⟩ => outer.not_closes_end h
  | .signed _ outer, h => outer.not_closes_end h

/-- Right behind a statement, the end of the input closes no program. -/
theorem StmtContext.not_closes_end {s : Stmt} {ks : List Kind} {r : Block} :
    ∀ {outer : StmtContext .program}, ¬ outer.Closes d s (.endOfInput :: ks) r
  | .whole asked, _ => nomatch asked
  | .item _ _, ⟨_, _, _, hk, _⟩ => nomatch hk

end

/-- What the end of the input closes is the program's own block. -/
lemma BlockContext.program_of_closes_end {b : Block} {ks : List Kind} {r : Block} :
    ∀ {outer : BlockContext .program}, outer.Closes d b (.endOfInput :: ks) r →
      outer = .program rfl
  | .whole asked, _ => nomatch asked
  | .program _, _ => rfl
  | .function _ _ _, h => (StmtContext.not_closes_end h).elim
  | .branch _ _ _, ⟨_, _, _, _, .nil _, .none _, h⟩ => (StmtContext.not_closes_end h).elim
  | .otherwise _ _, h => (StmtContext.not_closes_end h).elim
  | .loop _ _, h => (StmtContext.not_closes_end h).elim

/-- The end of the input completes a state of a program only where its block is closed. -/
lemma State.closed_of_closes_end {ks : List Kind} {r : Block} :
    ∀ {s : State .program}, s.Closes d (.endOfInput :: ks) r → ∃ b, s = .closed b (.program rfl)
  | .block _, ⟨_, _, hb, _⟩ => nomatch hb
  | .statements _ _, ⟨_, _, .cons hs _, _⟩ => hs.not_end.elim
  | .closed b _, h => ⟨b, by rw [BlockContext.program_of_closes_end h]⟩
  | .statement _, ⟨_, _, hs, _⟩ => hs.not_end.elim
  | .variableName _ _, ⟨_, _, _, _, hk, _⟩ => nomatch hk
  | .functionName _, ⟨_, _, _, _, _, _, hk, _⟩ => nomatch hk
  | .signature _ _, ⟨_, _, _, _, _, hk, _⟩ => nomatch hk
  | .parameters _ _ _, ⟨_, _, _, _, hxs, _⟩ => nomatch hxs
  | .expression _, ⟨_, _, he, _⟩ => he.not_end.elim
  | .factor _, ⟨_, _, hf, _⟩ => nomatch hf
  | .operand _ _, ⟨_, _, hf, _⟩ => nomatch hf
  | .name _ _, .inl ⟨_, _, _, hk, _⟩ => nomatch hk
  | .name _ _, .inr ⟨_, h⟩ => (FactorContext.not_closes_end h).elim
  | .arguments _ _ _, ⟨_, _, .cons he _, _⟩ => he.not_end.elim
  | .value _ _, h => (FactorContext.not_closes_end h).elim

/-- The machine is done with a program at the end of the input only, behind the program's block. -/
theorem closed_of_step_done {settings : Settings} {s : State .program} {k : Kind} {b : Block}
    (h : step settings s k = .done b) :
    k = .endOfInput ∧ ∃ b, s = .closed b (.program rfl) := by
  have free : step settings s k ≠ .refuse .tooDeep := by
    rw [h]
    nofun
  have closes : (step settings s k).Closes settings.division [] b := by
    rw [h]
    exact rfl
  rw [closes_step free] at closes
  have mem := State.end_mem closes
  obtain rfl := List.mem_singleton.1 mem
  exact ⟨rfl, State.closed_of_closes_end closes⟩

end Quill
