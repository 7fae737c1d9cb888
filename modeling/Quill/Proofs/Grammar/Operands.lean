import Quill.Proofs.Grammar.Completion
import Quill.Proofs.Grammar.Tables

/-!
# Operands

Which part of some kinds is read as an operand. Reading preserves two things: the kinds that are
taken are balanced, so what stands in parentheses ends where they are closed, and as many literals
and names are taken as the tree has (`Spans`). The operands of a chain are found from the left, and
each has fewer of them than the chain. So a tree with as few literals and names as any factor that
stands there is that factor (`DerivesExpr.factor_of_least`), and an operation has the left operand
that stands there if the numbers agree (`DerivesExpr.operands`).
-/

namespace Quill

variable {d : Division}

/-! ## What is behind an operand -/

/-- No operator comes next that could stand behind an operand. -/
structure Unjoined (d : Division) (ks : List Kind) : Prop where
  compares : NoneAhead Compares ks
  adds : NoneAhead Adds ks
  multiplies : NoneAhead (Multiplies d) ks

/-- A token that is no operator of the mode joins nothing. -/
lemma unjoined_cons {k : Kind} (compares : k.comparison? = none) (adds : k.additive? = none)
    (multiplies : k.multiplicative? d = none) (ks : List Kind) : Unjoined d (k :: ks) :=
  ⟨noneAhead_compares.2 compares, noneAhead_adds.2 adds, noneAhead_multiplies.2 multiplies⟩

/-- An inert token joins nothing. -/
lemma Inert.unjoined {k : Kind} (hk : Inert k) (ks : List Kind) : Unjoined d (k :: ks) :=
  ⟨hk.noneAhead _, hk.noneAhead _, hk.noneAhead _⟩

/-- In front of what goes on with no operand, a factor by itself is a whole expression. -/
lemma DerivesFactor.expr_of_unjoined {ks rest : List Kind} {e : Expr} (free : Unjoined d rest)
    (h : DerivesFactor d ks rest e) : DerivesExpr d ks rest e :=
  .sum (.product h (.done free.multiplies)) free.compares (.done free.adds)

/-! ## What reading preserves -/

/-- What is behind the parenthesis that closes an open one, with `depth` more open inside it. -/
def behindClose : Nat → List Kind → List Kind
  | _, [] => []
  | depth, .mark .leftParen :: ks => behindClose (depth + 1) ks
  | 0, .mark .rightParen :: ks => ks
  | depth + 1, .mark .rightParen :: ks => behindClose depth ks
  | depth, _ :: ks => behindClose depth ks

/-- Literals and names. -/
def Kind.isAtom : Kind → Bool
  | .number _ | .string _ | .word _ => true
  | _ => false

mutual

/-- How many literals and names the expression has. -/
def Expr.atoms : Expr → Nat
  | .binary _ l r => l.atoms + r.atoms
  | .unary _ e => e.atoms
  | .call _ es => Expr.atomsOfAll es + 1
  | _ => 1

/-- How many literals and names the expressions have. -/
def Expr.atomsOfAll : List Expr → Nat
  | [] => 0
  | e :: es => e.atoms + Expr.atomsOfAll es

end

/-- Every expression has an atom. -/
lemma Expr.atoms_pos : ∀ e : Expr, 0 < e.atoms
  | .binary _ l _ => Nat.add_pos_left l.atoms_pos _
  | .unary _ e => e.atoms_pos
  | .number _ | .string _ | .bool _ | .none | .ref _ => Nat.one_pos
  | .call _ _ => Nat.succ_pos _

/-- The kinds in front of `rest` are balanced, and `n` of them are atoms. -/
structure Spans (ks rest : List Kind) (n : Nat) : Prop where
  behindClose_eq : ∀ depth, behindClose depth ks = behindClose depth rest
  atoms_eq : ks.countP Kind.isAtom = n + rest.countP Kind.isAtom

namespace Spans

variable {ks mid rest : List Kind} {m n : Nat}

/-- Nothing is balanced and has no atom. -/
lemma refl (ks : List Kind) : Spans ks ks 0 :=
  ⟨fun _ => rfl, (Nat.zero_add _).symm⟩

/-- Balanced parts make up a balanced whole, and their atoms add up. -/
lemma trans (h : Spans ks mid m) (h' : Spans mid rest n) : Spans ks rest (m + n) where
  behindClose_eq depth := (h.behindClose_eq depth).trans (h'.behindClose_eq depth)
  atoms_eq := by rw [h.atoms_eq, h'.atoms_eq, Nat.add_assoc]

/-- An operator in front changes neither the balance nor the atoms. -/
lemma operator (h : Spans ks rest n) (o : Operator) : Spans (.operator o :: ks) rest n where
  behindClose_eq depth := by
    rw [← h.behindClose_eq depth]
    cases depth <;> rfl
  atoms_eq := h.atoms_eq

/-- One more atom in front is counted. -/
lemma atom (h : Spans ks rest n) {k : Kind} (hk : k.isAtom = true) :
    Spans (k :: ks) rest (n + 1) where
  behindClose_eq depth := by
    rw [← h.behindClose_eq depth]
    cases k with
    | number _ | string _ | word _ => cases depth <;> rfl
    | _ => cases hk
  atoms_eq := by
    rw [List.countP_cons_of_pos hk, h.atoms_eq]
    omega

/-- Parentheses around what is balanced are balanced. -/
lemma brackets (h : Spans ks (.mark .rightParen :: rest) n) :
    Spans (.mark .leftParen :: ks) rest n where
  behindClose_eq depth := by
    have inner := h.behindClose_eq (depth + 1)
    cases depth <;> exact inner
  atoms_eq := h.atoms_eq

/-- In front of a parenthesis that closes, the way to it tells what is behind it. -/
lemma closed (h : Spans ks (.mark .rightParen :: rest) n) : behindClose 0 ks = rest :=
  h.behindClose_eq 0

end Spans

mutual

/-- The kinds of an expression are balanced, with as many atoms as the expression has. -/
theorem DerivesExpr.spans {ks rest : List Kind} {e : Expr} :
    DerivesExpr d ks rest e → Spans ks rest e.atoms
  | .not h => h.spans.operator _
  | .compare ht _ h => ht.spans.trans (.operator h.spans _)
  | .sum ht _ h => h.spans ht.spans

/-- With its first term in front, so are the kinds of a sum. -/
theorem DerivesSum.spans {start ks rest : List Kind} {l e : Expr} :
    DerivesSum d l ks rest e → Spans start ks l.atoms → Spans start rest e.atoms
  | .done _, first => first
  | .more _ ht h, first => h.spans (first.trans (ht.spans.operator _))

/-- So are the kinds of a term. -/
theorem DerivesTerm.spans {ks rest : List Kind} {e : Expr} :
    DerivesTerm d ks rest e → Spans ks rest e.atoms
  | .product hf h => h.spans hf.spans

/-- With its first factor in front, so are the kinds of a product. -/
theorem DerivesProduct.spans {start ks rest : List Kind} {l e : Expr} :
    DerivesProduct d l ks rest e → Spans start ks l.atoms → Spans start rest e.atoms
  | .done _, first => first
  | .more _ hf h, first => h.spans (first.trans (hf.spans.operator _))

/-- So are the kinds of a factor. -/
theorem DerivesFactor.spans {ks rest : List Kind} {e : Expr} :
    DerivesFactor d ks rest e → Spans ks rest e.atoms
  | .plus h => h.spans.operator _
  | .minus h => h.spans.operator _
  | .number | .string | .kwTrue | .kwFalse | .kwNone | .ref _ _ => (Spans.refl _).atom rfl
  | .call _ h => (h.spans.brackets).atom rfl
  | .group h => h.spans.brackets

/-- So are the arguments of a call. -/
theorem DerivesArgs.spans {ks rest : List Kind} {es : List Expr} :
    DerivesArgs d ks rest es → Spans ks rest (Expr.atomsOfAll es)
  | .nil => .refl _
  | .cons he h => he.spans.trans h.spans

end

/-! ## How words are read -/

section

variable {ks rest : List Kind} {u : Expr}

/-- A word that is read as a factor is a variable, or the name of a call. -/
lemma DerivesFactor.cases_name {x : String} (h : DerivesFactor d (.word x :: ks) rest u)
    (name : IsName x) :
    u = .ref x ∧ ks = rest ∧ rest.head? ≠ some (.mark .leftParen) ∨
      ∃ inner es, ks = .mark .leftParen :: inner ∧ u = .call x es ∧
        DerivesArgs d inner (.mark .rightParen :: rest) es := by
  generalize text : Kind.word x :: ks = front at h
  have reserved (w : Keyword) (tail : List Kind) : Kind.word x :: ks ≠ w.kind :: tail :=
    fun same => name w (Kind.word.inj (List.cons.inj same).1)
  cases h with
  | kwTrue => exact absurd text (reserved .kwTrue _)
  | kwFalse => exact absurd text (reserved .kwFalse _)
  | kwNone => exact absurd text (reserved .kwNone _)
  | ref _ ahead =>
    cases text
    exact .inl ⟨rfl, rfl, ahead⟩
  | call _ args =>
    cases text
    exact .inr ⟨_, _, rfl, rfl, args⟩
  | _ => cases text

/-- A reserved word that is read as a factor is one by itself. -/
lemma DerivesFactor.rest_of_keyword {w : Keyword} (h : DerivesFactor d (w.kind :: ks) rest u) :
    ks = rest := by
  generalize text : w.kind :: ks = front at h
  cases h with
  | ref name _ => exact absurd (Kind.word.inj (List.cons.inj text).1).symm (name w)
  | call name _ => exact absurd (Kind.word.inj (List.cons.inj text).1).symm (name w)
  | kwTrue | kwFalse | kwNone => exact (List.cons.inj text).2
  | _ => cases text

end

/-! ## How operands are found -/

/-- The expression is on the way from the root of another one down the left operands. -/
inductive Expr.Leads (l : Expr) : Expr → Prop where
  | here : Leads l l
  | operand {op e r} :
    Leads l e →
    Leads l (.binary op e r)

namespace Expr.Leads

variable {l r e u : Expr} {op op' : BinaryOp}

/-- A part of an expression has no more atoms than the whole. -/
lemma atoms_le (h : l.Leads e) : l.atoms ≤ e.atoms := by
  induction h with
  | here => exact Nat.le_refl _
  | operand _ ih => exact Nat.le_trans ih (Nat.le_add_right _ _)

/-- There are more atoms further up. -/
lemma eq_of_atoms (h : l.Leads e) (least : e.atoms ≤ l.atoms) : l = e := by
  cases h with
  | here => rfl
  | @operand _ e r h =>
    have := h.atoms_le
    have := r.atoms_pos
    rw [Expr.atoms] at least
    omega

/-- Where the left operands have as many atoms, the operation is the same. -/
lemma eq_of_left {r' : Expr} (h : (Expr.binary op' u r').Leads (.binary op l r))
    (least : l.atoms ≤ u.atoms) : Expr.binary op' u r' = .binary op l r := by
  cases h with
  | here => rfl
  | operand h =>
    have below := h.atoms_le
    have := r'.atoms_pos
    rw [Expr.atoms] at below
    omega

end Expr.Leads

/-- A sum goes on from its first term to the root. -/
theorem DerivesSum.leads {ks rest : List Kind} {u l e : Expr} :
    DerivesSum d l ks rest e → u.Leads l → u.Leads e
  | .done _, way => way
  | .more _ _ h, way => h.leads (.operand way)

/-- A product goes on from its first factor to the root. -/
theorem DerivesProduct.leads {ks rest : List Kind} {u l e : Expr} :
    DerivesProduct d l ks rest e → u.Leads l → u.Leads e
  | .done _, way => way
  | .more _ _ h, way => h.leads (.operand way)

section

variable {ks rest behind : List Kind} {e l r t : Expr} {op : BinaryOp} {o : Operator}

/-- A sum that is its first term does not go on. -/
lemma DerivesSum.stays (h : DerivesSum d e ks rest e) : ks = rest ∧ NoneAhead Adds rest := by
  generalize same : e = result at h
  cases h with
  | done free => exact ⟨rfl, free⟩
  | @more _ _ _ _ _ _ r _ _ _ h =>
    have more := (h.leads .here).atoms_le
    have := r.atoms_pos
    rw [← same, Expr.atoms] at more
    omega

/-- A product that is its first factor does not go on. -/
lemma DerivesProduct.stays (h : DerivesProduct d e ks rest e) :
    ks = rest ∧ NoneAhead (Multiplies d) rest := by
  generalize same : e = result at h
  cases h with
  | done free => exact ⟨rfl, free⟩
  | @more _ _ _ _ _ _ r _ _ _ h =>
    have more := (h.leads .here).atoms_le
    have := r.atoms_pos
    rw [← same, Expr.atoms] at more
    omega

/-- A term begins with a factor, which is on the way down its left operands. -/
lemma DerivesTerm.exists_factor (h : DerivesTerm d ks rest t) :
    ∃ mid u, DerivesFactor d ks mid u ∧ u.Leads t := by
  cases h with
  | product first h => exact ⟨_, _, first, h.leads .here⟩

/-- What begins with a `!` is the expression behind it, negated. -/
lemma DerivesExpr.exists_operand (h : DerivesExpr d (.operator .bang :: ks) rest e) :
    ∃ operand, e = .unary .not operand ∧ DerivesExpr d ks rest operand := by
  cases h with
  | not h => exact ⟨_, rfl, h⟩
  | compare ht _ _ =>
    obtain ⟨_, _, first, _⟩ := ht.exists_factor
    cases first
  | sum ht _ _ =>
    obtain ⟨_, _, first, _⟩ := ht.exists_factor
    cases first

/-- A term with as few atoms as any factor that stands there is that factor. -/
lemma DerivesTerm.factor_of_least (h : DerivesTerm d ks rest t)
    (least : ∀ mid u, DerivesFactor d ks mid u → t.atoms ≤ u.atoms) :
    DerivesFactor d ks rest t ∧ NoneAhead (Multiplies d) rest := by
  cases h with
  | product first h =>
    obtain rfl := (h.leads .here).eq_of_atoms (least _ _ first)
    obtain ⟨rfl, free⟩ := h.stays
    exact ⟨first, free⟩

/-- An expression with as few atoms as any factor that stands there is that factor. -/
lemma DerivesExpr.factor_of_least (h : DerivesExpr d ks rest e)
    (least : ∀ mid u, DerivesFactor d ks mid u → e.atoms ≤ u.atoms)
    (head : ks.head? ≠ some (.operator .bang)) : DerivesFactor d ks rest e ∧ Unjoined d rest := by
  cases h with
  | not _ => exact absurd rfl head
  | @compare _ _ _ _ _ l r ht _ _ =>
    obtain ⟨_, u, first, leads⟩ := ht.exists_factor
    have more := least _ _ first
    have := leads.atoms_le
    have := r.atoms_pos
    rw [Expr.atoms] at more
    omega
  | sum ht compares hs =>
    obtain ⟨_, u, first, leads⟩ := ht.exists_factor
    obtain rfl := (hs.leads .here).eq_of_atoms (Nat.le_trans (least _ _ first) leads.atoms_le)
    obtain ⟨rfl, adds⟩ := hs.stays
    obtain ⟨factor, multiplies⟩ := ht.factor_of_least least
    exact ⟨factor, compares, adds, multiplies⟩

/-- Where every factor ends in front of one operator and has the atoms of the left operand, the
operands stand on either side of that operator. -/
lemma DerivesExpr.operands (h : DerivesExpr d ks rest (.binary op l r))
    (first : ∀ mid u, DerivesFactor d ks mid u → mid = .operator o :: behind ∧ u.atoms = l.atoms) :
    DerivesFactor d ks (.operator o :: behind) l ∧
      (Compares o op ∧ DerivesExpr d behind rest r ∨
        (Adds o op ∨ Multiplies d o op) ∧ DerivesTerm d behind rest r) := by
  have least (mid u) (hu : DerivesFactor d ks mid u) : l.atoms ≤ u.atoms :=
    Nat.le_of_eq (first mid u hu).2.symm
  cases h with
  | compare ht compares hr =>
    obtain ⟨hl, _⟩ := ht.factor_of_least least
    cases (first _ _ hl).1
    exact ⟨hl, .inl ⟨compares, hr⟩⟩
  | sum ht _ hs =>
    cases hs with
    | done _ =>
      -- The operator multiplies: it stands behind the first factor of the term.
      cases ht with
      | @product _ _ _ u _ hu hp =>
        obtain ⟨rfl, atoms⟩ := first _ _ hu
        cases hp with
        | done _ =>
          have := r.atoms_pos
          rw [Expr.atoms] at atoms
          omega
        | more multiplies hr hp =>
          cases (hp.leads .here).eq_of_left (Nat.le_of_eq atoms.symm)
          obtain ⟨rfl, free⟩ := hp.stays
          exact ⟨hu, .inr ⟨.inr multiplies, .product hr (.done free)⟩⟩
    | more adds hr hs =>
      obtain ⟨_, u, hu, leads⟩ := ht.exists_factor
      cases (hs.leads .here).eq_of_left (Nat.le_trans (least _ _ hu) leads.atoms_le)
      obtain ⟨rfl, _⟩ := hs.stays
      obtain ⟨hl, _⟩ := ht.factor_of_least least
      cases (first _ _ hl).1
      exact ⟨hl, .inr ⟨.inl adds, hr⟩⟩

end

end Quill
