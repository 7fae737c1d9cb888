import Mathlib.Tactic.Common
import Quill.Grammar.Descent

/-!
# More rounds make no difference

A part of a call that has an answer keeps it when the calls in it may go deeper (`Refines`): their
answers stay as they are, and a call that ran out of rounds did not come to an answer. So what is
answered within some rounds is answered within any more of them (`seek_mono`).
-/

namespace Quill.Descent

variable {α β : Type} {f f' : Descent α} {self self' : Calls}

/-- Whatever comes of the one part comes of the other. The other may have an answer where the one
has none. -/
def Refines (f f' : Descent α) : Prop :=
  ∀ p r, f.outcome p = some r → f'.outcome p = some r

/-- Every part refines itself. -/
lemma Refines.refl (f : Descent α) : Refines f f :=
  fun _ _ h => h

/-- What runs out of rounds is refined by everything. -/
lemma Refines.runOut (f : Descent α) : Refines runOut f :=
  fun _ _ => nofun

/-- What comes behind may be refined along with what is in front of it. -/
lemma Refines.bind {k k' : α → Descent β} (hf : Refines f f') (hk : ∀ v, Refines (k v) (k' v)) :
    Refines (f >>= k) (f' >>= k') := by
  intro p r answered
  change (f.outcome p).bind _ = some r at answered
  change (f'.outcome p).bind _ = some r
  cases front : f.outcome p with
  | none => simp [front] at answered
  | some answer =>
    rw [hf p answer front]
    rw [front] at answered
    obtain ⟨result, q⟩ := answer
    cases result with
    | error e => exact answered
    | ok v => exact hk v q r answered

/-- A level deeper the same is refined. -/
lemma Refines.nested (hf : Refines f f') : Refines (nested f) (nested f') := by
  intro p r answered
  change (ite (p.settings.maxDepth ≤ p.depth) _ _ : StateT _ Option _) p = some r at answered
  change (ite (p.settings.maxDepth ≤ p.depth) _ _ : StateT _ Option _) p = some r
  by_cases full : p.settings.maxDepth ≤ p.depth
  · rw [if_pos full] at answered ⊢
    exact answered
  · rw [if_neg full] at answered ⊢
    change (f.outcome (p.setDepth (p.depth + 1))).bind _ = some r at answered
    change (f'.outcome (p.setDepth (p.depth + 1))).bind _ = some r
    cases inner : f.outcome (p.setDepth (p.depth + 1)) with
    | none => simp [inner] at answered
    | some answer =>
      rw [hf _ answer inner]
      rw [inner] at answered
      exact answered

/-- Both branches are refined. -/
lemma Refines.ite {c : Prop} [Decidable c] {g g' : Descent α} (hf : Refines f f')
    (hg : Refines g g') : Refines (if c then f else g) (if c then f' else g') := by
  split
  · exact hf
  · exact hg

/-- All that may be called is refined. -/
structure Calls.Refines (called called' : Calls) : Prop where
  parameters (params : List String) :
    Descent.Refines (called.parameters params) (called'.parameters params)
  expression : Descent.Refines called.expression called'.expression
  arguments (args : List Expr) : Descent.Refines (called.arguments args) (called'.arguments args)
  factor : Descent.Refines called.factor called'.factor
  multiplicative (left : Expr) :
    Descent.Refines (called.multiplicative left) (called'.multiplicative left)
  additive (left : Expr) : Descent.Refines (called.additive left) (called'.additive left)
  block : Descent.Refines called.block called'.block
  moreBranches (branches : List Branch) :
    Descent.Refines (called.moreBranches branches) (called'.moreBranches branches)
  statements (earlier : List Stmt) :
    Descent.Refines (called.statements earlier) (called'.statements earlier)

section

variable (h : self.Refines self')

include h

/-- Parameters are refined. -/
lemma refines_parameters (params : List String) :
    Refines (parameters self params) (parameters self' params) := by
  apply Refines.bind (.refl look)
  intro k
  apply Refines.ite (.refl _)
  apply Refines.bind (.refl look)
  intro k'
  apply Refines.ite _ (.refl _)
  exact Refines.bind (.refl _) fun param => h.parameters _

/-- Arguments are refined. -/
lemma refines_arguments (args : List Expr) :
    Refines (arguments self args) (arguments self' args) := by
  apply Refines.bind (.refl look)
  intro k
  apply Refines.ite (.refl _)
  apply Refines.bind (.refl look)
  intro k'
  apply Refines.ite _ (.refl _)
  exact Refines.bind h.expression fun arg => h.arguments _

/-- The call of a function is refined. -/
lemma refines_callOf (callee : String) : Refines (callOf self callee) (callOf self' callee) :=
  .bind (.refl advance) fun _ => .bind (refines_arguments h []) fun _ => .refl _

/-- What stands without a sign is refined. -/
lemma refines_primary : Refines (primary self) (primary self') := by
  apply Refines.bind (.refl look)
  intro k
  cases k with
  | number x => exact .refl _
  | string s => exact .refl _
  | word w =>
    dsimp only
    cases Keyword.ofText? w with
    | none =>
      apply Refines.bind (.refl advance)
      intro _
      apply Refines.bind (.refl look)
      exact fun k => .ite (refines_callOf h w) (.refl _)
    | some kw => cases kw <;> exact .refl _
  | operator op => exact .refl _
  | mark m =>
    cases m with
    | leftParen => exact .bind (.refl advance) fun _ => .bind h.expression fun _ => .refl _
    | _ => exact .refl _
  | endOfInput => exact .refl _

/-- A factor is refined. -/
lemma refines_factor : Refines (factor self) (factor self') := by
  apply Refines.bind (.refl (matchOperator .plus))
  intro isPlus
  apply Refines.ite (.nested h.factor)
  apply Refines.bind (.refl (matchOperator .minus))
  intro isMinus
  exact .ite (.bind (.nested h.factor) fun _ => .refl _) (refines_primary h)

/-- The other factors of a product are refined. -/
lemma refines_multiplicative (left : Expr) :
    Refines (multiplicative self left) (multiplicative self' left) := by
  apply Refines.bind (.refl look)
  intro k
  apply Refines.bind (.refl get)
  intro p
  cases k.multiplicative? p.settings.division with
  | none => exact .refl _
  | some op =>
    apply Refines.bind (.refl advance)
    exact fun _ => .bind (refines_factor h) fun _ => h.multiplicative _

/-- A product is refined. -/
lemma refines_term : Refines (term self) (term self') :=
  .bind (refines_factor h) (refines_multiplicative h)

/-- The other terms of a sum are refined. -/
lemma refines_additive (left : Expr) : Refines (additive self left) (additive self' left) := by
  apply Refines.bind (.refl look)
  intro k
  cases k.additive? with
  | none => exact .refl _
  | some op =>
    apply Refines.bind (.refl advance)
    exact fun _ => .bind (refines_term h) fun _ => h.additive _

/-- A comparison is refined. -/
lemma refines_comparison : Refines (comparison self) (comparison self') := by
  apply Refines.bind (.refl (matchOperator .bang))
  intro isBang
  apply Refines.ite (.bind h.expression fun _ => .refl _)
  apply Refines.bind (refines_term h)
  intro left
  apply Refines.bind (.refl look)
  intro k
  cases k.comparison? with
  | none => exact refines_additive h left
  | some op => exact .bind (.refl advance) fun _ => .bind h.expression fun _ => .refl _

/-- An expression is refined. -/
lemma refines_expression : Refines (expression self) (expression self') :=
  .nested (refines_comparison h)

/-- A branch is refined. -/
lemma refines_branch : Refines (branch self) (branch self') :=
  .bind (refines_expression h) fun _ => .bind h.block fun _ => .refl _

/-- The other branches of a conditional are refined. -/
lemma refines_moreBranches (branches : List Branch) :
    Refines (moreBranches self branches) (moreBranches self' branches) := by
  apply Refines.bind (.refl (matchKeyword .kwElif))
  intro isElif
  apply Refines.ite (.bind (refines_branch h) fun _ => h.moreBranches _)
  apply Refines.bind (.refl (matchKeyword .kwElse))
  intro isElse
  exact .ite (.bind h.block fun _ => .refl _) (.refl _)

/-- A statement is refined, whichever form its first word selects. -/
lemma refines_statement : Refines (statement self) (statement self') := by
  have valued {form : Expr → Stmt} :
      Refines (expression self >>= fun value => pure (form value))
        (expression self' >>= fun value => pure (form value)) :=
    .bind (refines_expression h) fun _ => .refl _
  apply Refines.bind (.refl look)
  intro k
  cases k.keyword? with
  | none => exact valued
  | some kw =>
    cases kw
    case kwGlobal | kwLocal => exact .bind (.refl advance) fun _ => .bind (.refl _) fun _ => valued
    case kwFn =>
      apply Refines.bind (.refl advance)
      intro _
      apply Refines.bind (.refl (consumeName .functionName))
      intro name
      apply Refines.bind (.refl (consumeMark .leftParen))
      exact fun _ => .bind (refines_parameters h []) fun _ => .bind h.block fun _ => .refl _
    case kwReturn | kwPrint => exact .bind (.refl advance) fun _ => valued
    case kwIf =>
      apply Refines.bind (.refl advance)
      exact fun _ => .bind (refines_branch h) fun _ => refines_moreBranches h _
    case kwWhile =>
      apply Refines.bind (.refl advance)
      exact fun _ => .bind (refines_expression h) fun _ => .bind h.block fun _ => .refl _
    all_goals exact valued

/-- Statements are refined. -/
lemma refines_statements (earlier : List Stmt) :
    Refines (statements self earlier) (statements self' earlier) := by
  apply Refines.bind (.refl look)
  intro k
  apply Refines.ite (.refl _)
  apply Refines.bind (.refl look)
  intro k'
  apply Refines.ite _ (.refl _)
  apply Refines.bind (refines_statement h)
  exact fun s => .bind (.refl _) fun _ => h.statements _

/-- A block is refined. -/
lemma refines_block : Refines (block self) (block self') :=
  .nested (.bind (.refl _) fun _ => refines_statements h [])

/-- What looks for a goal is refined. -/
lemma refines_seek (g : Goal) : Refines (seek self g) (seek self' g) := by
  cases g with
  | expression => exact refines_expression h
  | statement => exact refines_statement h
  | block => exact refines_block h
  | program => exact .bind (refines_block h) fun _ => .refl _

/-- A round deeper all is refined. -/
lemma Calls.Refines.round : self.round.Refines self'.round where
  parameters := refines_parameters h
  expression := refines_expression h
  arguments := refines_arguments h
  factor := refines_factor h
  multiplicative := refines_multiplicative h
  additive := refines_additive h
  block := refines_block h
  moreBranches := refines_moreBranches h
  statements := refines_statements h

end

/-- Calls that may go deeper refine those that may not. -/
lemma calls_refines {n m : Nat} (le : n ≤ m) : (calls n).Refines (calls m) := by
  induction n generalizing m with
  | zero =>
    exact
      { parameters := fun _ => .runOut _
        expression := .runOut _
        arguments := fun _ => .runOut _
        factor := .runOut _
        multiplicative := fun _ => .runOut _
        additive := fun _ => .runOut _
        block := .runOut _
        moreBranches := fun _ => .runOut _
        statements := fun _ => .runOut _ }
  | succ n ih =>
    obtain ⟨m, rfl⟩ := Nat.exists_eq_add_of_le' le
    exact (ih (Nat.le_add_left n m)).round

/-- What is answered within some rounds is answered within more. -/
theorem seek_mono {n m : Nat} (le : n ≤ m) (g : Goal) :
    Refines (seek (calls n) g) (seek (calls m) g) :=
  refines_seek (calls_refines le) g

end Quill.Descent
