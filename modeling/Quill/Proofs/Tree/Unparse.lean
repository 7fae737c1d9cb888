import Quill.Proofs.Grammar.Completion
import Quill.Proofs.Tree.WellFormed

/-!
# Writing trees

A way to write each well-formed tree. An expression is written so that it is a factor whatever comes
behind it: a parenthesis stands around every operator with its operands, and around every variable,
since a variable must not have a parenthesis behind it. So arguments can stand side by side, and an
operand is never taken apart by the operators around it. As in the grammar, what follows is part of
the text that is written (`Expr.unparse`).
-/

namespace Quill

/-! ## The text of a tree -/

/-- The symbol that is read as the operator. -/
def BinaryOp.operator : BinaryOp → Operator
  | eq => .equalEqual
  | lt => .less
  | gt => .greater
  | le => .lessEqual
  | ge => .greaterEqual
  | ne => .bangEqual
  | add => .plus
  | sub => .minus
  | mul => .star
  | div => .slash

/-- The symbol that is read as the operator. -/
def UnaryOp.operator : UnaryOp → Operator
  | not => .bang
  | negate => .minus

/-- The word in front of an assignment. -/
def Scope.keyword : Scope → Keyword
  | outermost => .kwGlobal
  | here => .kwLocal

mutual

/-- The expression in front of some kinds. -/
def Expr.unparse : Expr → List Kind → List Kind
  | .binary op l r, rest =>
    .mark .leftParen :: l.unparse (.operator op.operator :: r.unparse (.mark .rightParen :: rest))
  | .unary op e, rest =>
    .mark .leftParen :: .operator op.operator :: e.unparse (.mark .rightParen :: rest)
  | .number x, rest => .number x :: rest
  | .string s, rest => .string s :: rest
  | .bool true, rest => Keyword.kwTrue.kind :: rest
  | .bool false, rest => Keyword.kwFalse.kind :: rest
  | .none, rest => Keyword.kwNone.kind :: rest
  | .ref x, rest => .mark .leftParen :: .word x :: .mark .rightParen :: rest
  | .call f es, rest =>
    .word f :: .mark .leftParen :: Expr.unparseAll es (.mark .rightParen :: rest)

/-- The expressions side by side in front of some kinds. -/
def Expr.unparseAll : List Expr → List Kind → List Kind
  | [], rest => rest
  | e :: es, rest => e.unparse (Expr.unparseAll es rest)

end

mutual

/-- The statement in front of some kinds. A conditional without an arm has no text. -/
def Stmt.unparse : Stmt → List Kind → List Kind
  | .assign scope x e, rest => scope.keyword.kind :: .word x :: e.unparse rest
  | .declare f xs b, rest =>
    Keyword.kwFn.kind :: .word f :: .mark .leftParen ::
      (xs.map .word ++ .mark .rightParen :: .mark .leftBrace ::
        Stmt.unparseAll b (.mark .rightBrace :: rest))
  | .giveBack e, rest => Keyword.kwReturn.kind :: e.unparse rest
  | .conditional [] _, rest => rest
  | .conditional (b :: bs) o, rest =>
    Keyword.kwIf.kind :: b.unparse (Branch.unparseAll bs (Stmt.unparseOtherwise o rest))
  | .loop c b, rest =>
    Keyword.kwWhile.kind ::
      c.unparse (.mark .leftBrace :: Stmt.unparseAll b (.mark .rightBrace :: rest))
  | .print e, rest => Keyword.kwPrint.kind :: e.unparse rest
  | .expression e, rest => e.unparse rest

/-- The statements, each with its semicolon, in front of some kinds. -/
def Stmt.unparseAll : List Stmt → List Kind → List Kind
  | [], rest => rest
  | s :: ss, rest => s.unparse (.mark .semicolon :: Stmt.unparseAll ss rest)

/-- The last arm, if there is one, in front of some kinds. -/
def Stmt.unparseOtherwise : Option (List Stmt) → List Kind → List Kind
  | .none, rest => rest
  | .some b, rest =>
    Keyword.kwElse.kind :: .mark .leftBrace :: Stmt.unparseAll b (.mark .rightBrace :: rest)

/-- The condition and the body of the arm in front of some kinds. -/
def Branch.unparse : Branch → List Kind → List Kind
  | .arm c b, rest =>
    c.unparse (.mark .leftBrace :: Stmt.unparseAll b (.mark .rightBrace :: rest))

/-- The arms behind the first in front of some kinds. -/
def Branch.unparseAll : List Branch → List Kind → List Kind
  | [], rest => rest
  | b :: bs, rest => Keyword.kwElif.kind :: b.unparse (Branch.unparseAll bs rest)

end

/-- The block in front of some kinds. -/
def Block.unparse (b : Block) (rest : List Kind) : List Kind :=
  .mark .leftBrace :: Stmt.unparseAll b (.mark .rightBrace :: rest)

variable {d : Division}

/-! ## The text derives the tree -/

/-- An operator that can stand in a tree compares, adds or multiplies. -/
lemma joins_of_allows {op : BinaryOp} (h : d.Allows op) :
    Compares op.operator op ∨ Adds op.operator op ∨ Multiplies d op.operator op := by
  cases op with
  | eq => exact .inl .equalEqual
  | lt => exact .inl .less
  | gt => exact .inl .greater
  | le => exact .inl .lessEqual
  | ge => exact .inl .greaterEqual
  | ne => exact .inl .bangEqual
  | add => exact .inr (.inl .plus)
  | sub => exact .inr (.inl .minus)
  | mul => exact .inr (.inr .star)
  | div =>
    cases d with
    | distinct => exact .inr (.inr .slash)
    | legacySubtraction => exact absurd rfl h

/-- A comparison is no multiplication. -/
lemma Compares.no_factor {o : Operator} {op : BinaryOp} (h : Compares o op) (ks : List Kind) :
    NoneAhead (Multiplies d) (.operator o :: ks) := by
  rw [noneAhead_multiplies]
  cases h <;> rfl

/-- An addition is no multiplication. -/
lemma Adds.no_factor {o : Operator} {op : BinaryOp} (h : Adds o op) (ks : List Kind) :
    NoneAhead (Multiplies d) (.operator o :: ks) := by
  rw [noneAhead_multiplies]
  cases h <;> rfl

/-- An addition is no comparison. -/
lemma Adds.no_comparison {o : Operator} {op : BinaryOp} (h : Adds o op) (ks : List Kind) :
    NoneAhead Compares (.operator o :: ks) := by
  rw [noneAhead_compares]
  cases h <;> rfl

/-- An operation on two factors, in front of a closing parenthesis. -/
lemma derivesExpr_binary {op : BinaryOp} (allowed : d.Allows op) {ks ks' rest : List Kind}
    {l r : Expr} (hl : DerivesFactor d ks (.operator op.operator :: ks') l)
    (hr : DerivesFactor d ks' (.mark .rightParen :: rest) r) :
    DerivesExpr d ks (.mark .rightParen :: rest) (.binary op l r) := by
  have quiet (joins) : NoneAhead joins (.mark .rightParen :: rest) := Inert.rightParen.noneAhead _
  obtain compares | adds | multiplies := joins_of_allows allowed
  · have left := DerivesTerm.product hl (.done (compares.no_factor ks'))
    exact .compare left compares (hr.expr .rightParen)
  · have left := DerivesTerm.product hl (.done (adds.no_factor ks'))
    have right := DerivesTerm.product hr (.done (quiet _))
    exact .sum left (adds.no_comparison ks') (.more adds right (.done (quiet _)))
  · have term := DerivesTerm.product hl (.more multiplies hr (.done (quiet _)))
    exact .sum term (quiet _) (.done (quiet _))

/-- An operator in front of a factor, in front of a closing parenthesis. -/
lemma derivesExpr_unary (op : UnaryOp) {ks rest : List Kind} {e : Expr}
    (h : DerivesFactor d ks (.mark .rightParen :: rest) e) :
    DerivesExpr d (.operator op.operator :: ks) (.mark .rightParen :: rest) (.unary op e) := by
  cases op with
  | not => exact .not (h.expr .rightParen)
  | negate => exact (DerivesFactor.minus h).expr .rightParen

/-- No expression begins with an operator. -/
lemma noneAhead_unparse (e : Expr) (rest : List Kind) (joins : Operator → BinaryOp → Prop) :
    NoneAhead joins (e.unparse rest) := by
  intro o op _
  unfold Expr.unparse
  split <;> nofun

/-- Arguments and the parenthesis behind them begin with no operator that joins. -/
lemma noneAhead_unparseAll (es : List Expr) (rest : List Kind)
    (joins : Operator → BinaryOp → Prop) :
    NoneAhead joins (Expr.unparseAll es (.mark .rightParen :: rest)) := by
  cases es with
  | nil => exact Inert.rightParen.noneAhead _
  | cons e es => exact noneAhead_unparse e _ joins

/-- Expressions that are factors can stand side by side. -/
lemma derivesArgs_unparseAll {es : List Expr} {rest : List Kind}
    (h : ∀ e ∈ es, ∀ rest, DerivesFactor d (e.unparse rest) rest e) :
    DerivesArgs d (Expr.unparseAll es (.mark .rightParen :: rest)) (.mark .rightParen :: rest)
      es := by
  induction es with
  | nil => exact .nil
  | cons e es ih =>
    obtain ⟨he, hes⟩ := List.forall_mem_cons.1 h
    exact .cons ((he _).expr_of_noneAhead (noneAhead_unparseAll es rest)) (ih hes)

/-- An expression is a factor, whatever comes behind it. -/
theorem Expr.WellFormed.derives {e : Expr} (h : e.WellFormed d) (rest : List Kind) :
    DerivesFactor d (e.unparse rest) rest e := by
  induction h generalizing rest with
  | binary allowed _ _ ihl ihr => exact .group (derivesExpr_binary allowed (ihl _) (ihr _))
  | unary _ ih => exact .group (derivesExpr_unary _ (ih _))
  | number _ => exact .number
  | string => exact .string
  | @bool b =>
    cases b with
    | false => exact .kwFalse
    | true => exact .kwTrue
  | none => exact .kwNone
  | ref hx =>
    exact .group ((DerivesFactor.ref hx.name Inert.rightParen.head_ne_leftParen).expr .rightParen)
  | call hf _ ih => exact .call hf.name (derivesArgs_unparseAll ih)

/-- The second argument begins with a parenthesis, so its sign does not subtract it from the
first. -/
example : (Expr.call "f" [.string "", .unary .negate (.ref "x")]).unparse [] =
    [.word "f", .mark .leftParen, .string "", .mark .leftParen, .operator .minus,
      .mark .leftParen, .word "x", .mark .rightParen, .mark .rightParen, .mark .rightParen] := rfl

/-- Identifiers side by side are parameters. -/
lemma derivesParams_map {xs : List String} (h : ∀ x ∈ xs, IsIdentifier x) (rest : List Kind) :
    DerivesParams (xs.map .word ++ rest) rest xs := by
  induction xs with
  | nil => exact .nil
  | cons x xs ih =>
    obtain ⟨hx, hxs⟩ := List.forall_mem_cons.1 h
    exact .cons hx.name (ih hxs)

/-- An expression in front of an inert token. -/
lemma Expr.WellFormed.derivesExpr {e : Expr} (h : e.WellFormed d) {k : Kind} (hk : Inert k)
    (rest : List Kind) : DerivesExpr d (e.unparse (k :: rest)) (k :: rest) e :=
  (h.derives _).expr hk

/-- The statement is read in front of its semicolon. -/
def Stmt.Readable (d : Division) (s : Stmt) : Prop :=
  ∀ rest, DerivesStmt d (s.unparse (.mark .semicolon :: rest)) (.mark .semicolon :: rest) s

/-- The arm is read behind its keyword. -/
def Branch.Readable (d : Division) : Branch → Prop
  | .arm c b => ∀ rest, ∃ mid, DerivesExpr d ((Branch.arm c b).unparse rest) mid c ∧
      DerivesBlock d mid rest b

/-- Statements that are read one by one are read one after the other. -/
lemma derivesStmts_unparseAll {b : Block} (h : ∀ s ∈ b, s.Readable d) (rest : List Kind) :
    DerivesStmts d (Stmt.unparseAll b rest) rest b := by
  induction b with
  | nil => exact .nil
  | cons s ss ih =>
    obtain ⟨hs, hss⟩ := List.forall_mem_cons.1 h
    exact .cons (hs _) (ih hss)

/-- A block is read if its statements are. -/
lemma derivesBlock_unparse {b : Block} (h : ∀ s ∈ b, s.Readable d) (rest : List Kind) :
    DerivesBlock d (b.unparse rest) rest b :=
  .braces (derivesStmts_unparseAll h _)

/-- Arms that are read one by one are read one after the other. -/
lemma derivesElifs_unparseAll {bs : List Branch} (h : ∀ b ∈ bs, b.Readable d) {rest : List Kind}
    (none_ahead : rest.head? ≠ some Keyword.kwElif.kind) :
    DerivesElifs d (Branch.unparseAll bs rest) rest bs := by
  induction bs with
  | nil => exact .nil none_ahead
  | cons b bs ih =>
    obtain ⟨c, body⟩ := b
    obtain ⟨hb, hbs⟩ := List.forall_mem_cons.1 h
    obtain ⟨mid, hc, hbody⟩ := hb (Branch.unparseAll bs rest)
    exact .cons hc hbody (ih hbs)

/-- The last arm, or none, is no `elif` and is read in front of the semicolon. -/
lemma derivesElse_unparseOtherwise {o : Option Block} (h : ∀ b ∈ o, ∀ s ∈ b, s.Readable d)
    (rest : List Kind) :
    (Stmt.unparseOtherwise o (.mark .semicolon :: rest)).head? ≠ some Keyword.kwElif.kind ∧
      DerivesElse d (Stmt.unparseOtherwise o (.mark .semicolon :: rest))
        (.mark .semicolon :: rest) o := by
  cases o with
  | none =>
    exact ⟨Inert.semicolon.head_ne_keyword _, .none (Inert.semicolon.head_ne_keyword _)⟩
  | some b =>
    have other : Keyword.kwElse.kind ≠ Keyword.kwElif.kind := by decide
    exact ⟨fun same => other (Option.some.inj same), .some (derivesBlock_unparse (h b rfl) _)⟩

mutual

/-- A well-formed statement is read in front of its semicolon. -/
theorem Stmt.WellFormed.readable {s : Stmt} : s.WellFormed d → s.Readable d
  | @Stmt.WellFormed.assign _ scope _ _ hx he => fun _ =>
    match scope with
    | .outermost => .assignGlobal hx.name (he.derivesExpr .semicolon _)
    | .here => .assignLocal hx.name (he.derivesExpr .semicolon _)
  | .declare hf hxs hb => fun _ =>
    .declare hf.name (derivesParams_map hxs _)
      (derivesBlock_unparse (fun s hs => (hb s hs).readable) _)
  | .giveBack he => fun _ => .giveBack (he.derivesExpr .semicolon _)
  | @Stmt.WellFormed.conditional _ bs o ne hbs ho => by
    have arms : ∀ b ∈ bs, b.Readable d := fun b hb => (hbs b hb).readable
    have last : ∀ b ∈ o, ∀ s ∈ b, s.Readable d := fun b hb s hs => (ho b hb s hs).readable
    intro rest
    match bs with
    | [] => exact absurd rfl ne
    | .arm c b :: bs =>
      obtain ⟨first, others⟩ := List.forall_mem_cons.1 arms
      obtain ⟨no_elif, otherwise⟩ := derivesElse_unparseOtherwise last rest
      obtain ⟨mid, hc, hb⟩ := first _
      exact .conditional hc hb (derivesElifs_unparseAll others no_elif) otherwise
  | .loop hc hb => fun _ =>
    .loop (hc.derivesExpr .leftBrace _)
      (derivesBlock_unparse (fun s hs => (hb s hs).readable) _)
  | .print he => fun _ => .print (he.derivesExpr .semicolon _)
  | .expression he => fun _ => .expression (he.derivesExpr .semicolon _)

/-- A well-formed arm is read behind its keyword. -/
theorem Branch.WellFormed.readable {b : Branch} : b.WellFormed d → b.Readable d
  | .arm hc hb => fun _ =>
    ⟨_, hc.derivesExpr .leftBrace _,
      derivesBlock_unparse (fun s hs => (hb s hs).readable) _⟩

end

/-! ## The text can be written -/

/-- What is put in front of some kinds can be written. -/
def PutsWritten (text : List Kind → List Kind) : Prop :=
  ∀ rest, Written rest → Written (text rest)

/-- A mark in front can be written. -/
lemma Written.mark {ks : List Kind} (h : Written ks) (m : Mark) : Written (.mark m :: ks) :=
  h.cons (spellable_mark m)

/-- An operator in front can be written. -/
lemma Written.operator {ks : List Kind} (h : Written ks) (op : Operator) :
    Written (.operator op :: ks) :=
  h.cons (spellable_operator op)

/-- A keyword in front can be written. -/
lemma Written.keyword {ks : List Kind} (h : Written ks) (w : Keyword) : Written (w.kind :: ks) :=
  h.cons (spellable_keyword w)

/-- An identifier in front can be written. -/
lemma Written.word {ks : List Kind} (h : Written ks) {x : String} (hx : IsIdentifier x) :
    Written (.word x :: ks) :=
  h.cons (spellable_word_iff.2 hx.word)

/-- Expressions side by side can be written if each of them can. -/
lemma written_unparse_exprs {es : List Expr} (h : ∀ e ∈ es, PutsWritten e.unparse) :
    PutsWritten (Expr.unparseAll es) := by
  intro rest w
  induction es with
  | nil => exact w
  | cons e es ih =>
    obtain ⟨he, hes⟩ := List.forall_mem_cons.1 h
    exact he _ (ih hes)

/-- A well-formed expression can be written. -/
theorem Expr.WellFormed.written {e : Expr} (h : e.WellFormed d) : PutsWritten e.unparse := by
  induction h with
  | binary _ _ _ ihl ihr => exact fun _ w => (ihl _ ((ihr _ (w.mark _)).operator _)).mark _
  | unary _ ih => exact fun _ w => ((ih _ (w.mark _)).operator _).mark _
  | number unsigned => exact fun _ w => w.cons (spellable_number_iff.2 unsigned)
  | string => exact fun _ w => w.cons (spellable_string _)
  | @bool b =>
    cases b with
    | false => exact fun _ w => w.keyword _
    | true => exact fun _ w => w.keyword _
  | none => exact fun _ w => w.keyword _
  | ref hx => exact fun _ w => ((w.mark _).word hx).mark _
  | call hf _ ih =>
    exact fun _ w => ((written_unparse_exprs ih _ (w.mark _)).mark _).word hf

/-- Parameters can be written. -/
lemma Written.params {xs : List String} (h : ∀ x ∈ xs, IsIdentifier x) {ks : List Kind}
    (w : Written ks) : Written (xs.map .word ++ ks) := by
  induction xs with
  | nil => exact w
  | cons x xs ih =>
    obtain ⟨hx, hxs⟩ := List.forall_mem_cons.1 h
    exact (ih hxs).word hx

/-- Statements can be written if each of them can. -/
lemma written_unparse_stmts {b : Block} (h : ∀ s ∈ b, PutsWritten s.unparse) :
    PutsWritten (Stmt.unparseAll b) := by
  intro rest w
  induction b with
  | nil => exact w
  | cons s ss ih =>
    obtain ⟨hs, hss⟩ := List.forall_mem_cons.1 h
    exact hs _ ((ih hss).mark _)

/-- A block can be written if its statements can. -/
lemma written_unparse_block {b : Block} (h : ∀ s ∈ b, PutsWritten s.unparse) :
    PutsWritten b.unparse :=
  fun _ w => (written_unparse_stmts h _ (w.mark _)).mark _

/-- Arms can be written if each of them can. -/
lemma written_unparse_branches {bs : List Branch} (h : ∀ b ∈ bs, PutsWritten b.unparse) :
    PutsWritten (Branch.unparseAll bs) := by
  intro rest w
  induction bs with
  | nil => exact w
  | cons b bs ih =>
    obtain ⟨hb, hbs⟩ := List.forall_mem_cons.1 h
    exact (hb _ (ih hbs)).keyword _

/-- A last arm can be written if its statements can. -/
lemma written_unparse_otherwise {o : Option Block} (h : ∀ b ∈ o, ∀ s ∈ b, PutsWritten s.unparse) :
    PutsWritten (Stmt.unparseOtherwise o) := by
  intro rest w
  cases o with
  | none => exact w
  | some b => exact (written_unparse_block (h b rfl) _ w).keyword _

mutual

/-- A well-formed statement can be written. -/
theorem Stmt.WellFormed.written {s : Stmt} : s.WellFormed d → PutsWritten s.unparse
  | .assign hx he => fun _ w => ((he.written _ w).word hx).keyword _
  | .declare hf hxs hb => fun _ w =>
    have body := written_unparse_block (fun s hs => (hb s hs).written) _ w
    ((((body.mark _).params hxs).mark _).word hf).keyword _
  | .giveBack he => fun _ w => (he.written _ w).keyword _
  | @Stmt.WellFormed.conditional _ bs o ne hbs ho => by
    have arms : ∀ b ∈ bs, PutsWritten b.unparse := fun b hb => (hbs b hb).written
    have last : ∀ b ∈ o, ∀ s ∈ b, PutsWritten s.unparse := fun b hb s hs => (ho b hb s hs).written
    intro rest w
    match bs with
    | [] => exact w
    | b :: bs =>
      obtain ⟨first, others⟩ := List.forall_mem_cons.1 arms
      have behind := written_unparse_branches others _ (written_unparse_otherwise last _ w)
      exact (first _ behind).keyword _
  | .loop hc hb => fun _ w =>
    (hc.written _ (written_unparse_block (fun s hs => (hb s hs).written) _ w)).keyword _
  | .print he => fun _ w => (he.written _ w).keyword _
  | .expression he => fun _ w => he.written _ w

/-- A well-formed arm can be written. -/
theorem Branch.WellFormed.written {b : Branch} : b.WellFormed d → PutsWritten b.unparse
  | .arm hc hb => fun _ w =>
    hc.written _ (written_unparse_block (fun s hs => (hb s hs).written) _ w)

end

end Quill
