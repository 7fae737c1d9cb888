import Quill.Proofs.Grammar.Consumed
import Quill.Proofs.Lexical.Spellable

/-!
# Well-formed trees

What a tree must be like to have a text, said of the tree alone: its names are identifiers, its
conditionals have an arm, its numbers have no sign, and where the mode gives a slash another meaning
there is no division. Strings, arguments, parameters and bodies are unrestricted. A number of a tree
is finite by its type.

Every tree that the grammar derives from kinds that can be written is well-formed. The names and
numbers come from words and literals, and everything else is the grammar's doing.
-/

namespace Quill

/-- The text is spelled like a word and not reserved. -/
structure IsIdentifier (x : String) : Prop where
  word : IsWord x
  name : IsName x

/-- The operator can stand in trees of the mode. -/
def Division.Allows : Division → BinaryOp → Prop
  | distinct, _ => True
  | legacySubtraction, op => op ≠ .div

/-- The expression is well-formed. -/
inductive Expr.WellFormed (d : Division) : Expr → Prop where
  | binary {op l r} :
    d.Allows op →
    WellFormed d l →
    WellFormed d r →
    WellFormed d (.binary op l r)
  | unary {op e} :
    WellFormed d e →
    WellFormed d (.unary op e)
  | number {x} :
    x.negative = false →
    WellFormed d (.number x)
  | string {s} : WellFormed d (.string s)
  | bool {b} : WellFormed d (.bool b)
  | none : WellFormed d .none
  | ref {x} :
    IsIdentifier x →
    WellFormed d (.ref x)
  | call {f es} :
    IsIdentifier f →
    (∀ e ∈ es, WellFormed d e) →
    WellFormed d (.call f es)

mutual

/-- The statement is well-formed. -/
inductive Stmt.WellFormed (d : Division) : Stmt → Prop where
  | assign {scope x e} :
    IsIdentifier x →
    e.WellFormed d →
    Stmt.WellFormed d (.assign scope x e)
  | declare {f xs b} :
    IsIdentifier f →
    (∀ x ∈ xs, IsIdentifier x) →
    (∀ s ∈ b, Stmt.WellFormed d s) →
    Stmt.WellFormed d (.declare f xs b)
  | giveBack {e} :
    e.WellFormed d →
    Stmt.WellFormed d (.giveBack e)
  | conditional {bs o} :
    bs ≠ [] →
    (∀ b ∈ bs, Branch.WellFormed d b) →
    (∀ b ∈ o, ∀ s ∈ b, Stmt.WellFormed d s) →
    Stmt.WellFormed d (.conditional bs o)
  | loop {c b} :
    c.WellFormed d →
    (∀ s ∈ b, Stmt.WellFormed d s) →
    Stmt.WellFormed d (.loop c b)
  | print {e} :
    e.WellFormed d →
    Stmt.WellFormed d (.print e)
  | expression {e} :
    e.WellFormed d →
    Stmt.WellFormed d (.expression e)

/-- The arm is well-formed. -/
inductive Branch.WellFormed (d : Division) : Branch → Prop where
  | arm {c b} :
    c.WellFormed d →
    (∀ s ∈ b, Stmt.WellFormed d s) →
    Branch.WellFormed d (.arm c b)

end

/-- Every statement of the block is well-formed. -/
def Block.WellFormed (d : Division) (b : Block) : Prop :=
  ∀ s ∈ b, s.WellFormed d

/-! ## Derived trees are well-formed -/

/-- Every kind but the end of the input can be written. -/
def Written (ks : List Kind) : Prop :=
  ∀ k ∈ ks, k ≠ .endOfInput → k.Spellable

section

variable {k : Kind} {ks rest : List Kind}

/-- One more kind that can be spelled can be written. -/
lemma Written.cons (hk : k.Spellable) (h : Written ks) : Written (k :: ks) :=
  List.forall_mem_cons.2 ⟨fun _ => hk, h⟩

/-- What stands behind the first kind can be written. -/
lemma Written.tail (h : Written (k :: ks)) : Written ks :=
  (List.forall_mem_cons.1 h).2

/-- What is left of kinds that can be written can be written. -/
lemma Written.after (h : Written ks) (taken : Takes ks rest) : Written rest :=
  fun k hk => h k (taken.mem hk)

/-- A name that can be written is an identifier. -/
lemma Written.identifier {x : String} (h : Written (.word x :: ks)) (name : IsName x) :
    IsIdentifier x where
  word := spellable_word_iff.1 (h _ List.mem_cons_self (by simp))
  name := name

/-- A number that can be written has no sign. -/
lemma Written.unsigned {x : Double} (h : Written (.number x :: ks)) : x.negative = false :=
  spellable_number_iff.1 (h _ List.mem_cons_self (by simp))

end

variable {d : Division}

/-- Only a division is not allowed in every mode. -/
lemma Division.allows_of_ne {op : BinaryOp} (h : op ≠ .div) : d.Allows op := by
  cases d with
  | distinct => trivial
  | legacySubtraction => exact h

/-- What compares is allowed in every mode. -/
lemma Compares.allows {o : Operator} {op : BinaryOp} (h : Compares o op) : d.Allows op := by
  cases h <;> exact d.allows_of_ne nofun

/-- What adds is allowed in every mode. -/
lemma Adds.allows {o : Operator} {op : BinaryOp} (h : Adds o op) : d.Allows op := by
  cases h <;> exact d.allows_of_ne nofun

/-- What multiplies in a mode is allowed in it. -/
lemma Multiplies.allows {o : Operator} {op : BinaryOp} (h : Multiplies d o op) : d.Allows op := by
  cases h with
  | star => exact d.allows_of_ne nofun
  | slash => trivial
  | legacySlash => exact nofun

mutual

/-- A derived expression is well-formed. -/
theorem DerivesExpr.wellFormed {ks rest : List Kind} {e : Expr} :
    DerivesExpr d ks rest e → Written ks → e.WellFormed d
  | .not h, w => .unary (h.wellFormed w.tail)
  | .compare ht hc h, w =>
    .binary hc.allows (ht.wellFormed w) (h.wellFormed (w.after ht.takes).tail)
  | .sum ht _ h, w => h.wellFormed (ht.wellFormed w) (w.after ht.takes)

/-- So is a sum, if its first terms are. -/
theorem DerivesSum.wellFormed {ks rest : List Kind} {l e : Expr} :
    DerivesSum d l ks rest e → l.WellFormed d → Written ks → e.WellFormed d
  | .done _, hl, _ => hl
  | .more ha ht h, hl, w =>
    h.wellFormed (.binary ha.allows hl (ht.wellFormed w.tail)) (w.tail.after ht.takes)

/-- So is a term. -/
theorem DerivesTerm.wellFormed {ks rest : List Kind} {e : Expr} :
    DerivesTerm d ks rest e → Written ks → e.WellFormed d
  | .product hf h, w => h.wellFormed (hf.wellFormed w) (w.after hf.takes)

/-- So is a product, if its first factors are. -/
theorem DerivesProduct.wellFormed {ks rest : List Kind} {l e : Expr} :
    DerivesProduct d l ks rest e → l.WellFormed d → Written ks → e.WellFormed d
  | .done _, hl, _ => hl
  | .more hm hf h, hl, w =>
    h.wellFormed (.binary hm.allows hl (hf.wellFormed w.tail)) (w.tail.after hf.takes)

/-- So is a factor. -/
theorem DerivesFactor.wellFormed {ks rest : List Kind} {e : Expr} :
    DerivesFactor d ks rest e → Written ks → e.WellFormed d
  | .plus h, w => h.wellFormed w.tail
  | .minus h, w => .unary (h.wellFormed w.tail)
  | .number, w => .number w.unsigned
  | .string, _ => .string
  | .kwTrue, _ => .bool
  | .kwFalse, _ => .bool
  | .kwNone, _ => .none
  | .ref name _, w => .ref (w.identifier name)
  | .call name h, w => .call (w.identifier name) (h.wellFormed w.tail.tail)
  | .group h, w => h.wellFormed w.tail

/-- So are the arguments of a call. -/
theorem DerivesArgs.wellFormed {ks rest : List Kind} {es : List Expr} :
    DerivesArgs d ks rest es → Written ks → ∀ e ∈ es, e.WellFormed d
  | .nil, _ => nofun
  | .cons he h, w =>
    List.forall_mem_cons.2 ⟨he.wellFormed w, h.wellFormed (w.after he.takes)⟩

end

/-- The parameters of a declaration are identifiers. -/
lemma DerivesParams.identifiers {ks rest : List Kind} {xs : List String}
    (h : DerivesParams ks rest xs) (w : Written ks) : ∀ x ∈ xs, IsIdentifier x := by
  induction h with
  | nil => exact nofun
  | cons name _ ih => exact List.forall_mem_cons.2 ⟨w.identifier name, ih w.tail⟩

mutual

/-- A derived statement is well-formed. -/
theorem DerivesStmt.wellFormed {ks rest : List Kind} {s : Stmt} :
    DerivesStmt d ks rest s → Written ks → s.WellFormed d
  | .assignGlobal name h, w => .assign (w.tail.identifier name) (h.wellFormed w.tail.tail)
  | .assignLocal name h, w => .assign (w.tail.identifier name) (h.wellFormed w.tail.tail)
  | .declare name hxs h, w =>
    .declare (w.tail.identifier name) (hxs.identifiers w.tail.tail.tail)
      (h.wellFormed (w.tail.tail.tail.after hxs.takes).tail)
  | .giveBack h, w => .giveBack (h.wellFormed w.tail)
  | .conditional hc hb hbs h, w =>
    have body := w.tail.after hc.takes
    have elifs := body.after hb.takes
    .conditional (List.cons_ne_nil _ _)
      (List.forall_mem_cons.2
        ⟨.arm (hc.wellFormed w.tail) (hb.wellFormed body), hbs.wellFormed elifs⟩)
      (h.wellFormed (elifs.after hbs.takes))
  | .loop hc h, w => .loop (hc.wellFormed w.tail) (h.wellFormed (w.tail.after hc.takes))
  | .print h, w => .print (h.wellFormed w.tail)
  | .expression h, w => .expression (h.wellFormed w)

/-- So are the arms of a conditional. -/
theorem DerivesElifs.wellFormed {ks rest : List Kind} {bs : List Branch} :
    DerivesElifs d ks rest bs → Written ks → ∀ b ∈ bs, b.WellFormed d
  | .nil _, _ => nofun
  | .cons hc hb h, w =>
    have body := w.tail.after hc.takes
    List.forall_mem_cons.2
      ⟨.arm (hc.wellFormed w.tail) (hb.wellFormed body), h.wellFormed (body.after hb.takes)⟩

/-- So is its last arm. -/
theorem DerivesElse.wellFormed {ks rest : List Kind} {o : Option Block} :
    DerivesElse d ks rest o → Written ks → ∀ b ∈ o, ∀ s ∈ b, s.WellFormed d
  | .none _, _ => nofun
  | .some h, w => fun _ hb => Option.some.inj hb ▸ h.wellFormed w.tail

/-- So are the statements of a block. -/
theorem DerivesStmts.wellFormed {ks rest : List Kind} {b : Block} :
    DerivesStmts d ks rest b → Written ks → ∀ s ∈ b, s.WellFormed d
  | .nil, _ => nofun
  | .cons hs h, w =>
    List.forall_mem_cons.2 ⟨hs.wellFormed w, h.wellFormed (w.after hs.takes).tail⟩

/-- So is a block. -/
theorem DerivesBlock.wellFormed {ks rest : List Kind} {b : Block} :
    DerivesBlock d ks rest b → Written ks → ∀ s ∈ b, s.WellFormed d
  | .braces h, w => h.wellFormed w.tail

end

end Quill
