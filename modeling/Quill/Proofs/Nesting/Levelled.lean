import Mathlib.Tactic.Common
import Quill.Proofs.Grammar.Derivation

/-!
# Levels of a derivation

A program's block has level one. Every block, every expression and every factor behind a sign has
one level more than what encloses it, and nothing else has a level. `LevelsExpr d n ks rest e` is a
derivation of an expression enclosed at level `n` in which each token carries the level of the
construct that begins at it, zero where none does; the other constructs are stated alike. No token
begins two of them, so a list of numbers says it all.

A term or a factor that an expression begins with carries that expression's level on its first
token, and any other one carries none: the number `l` in `LevelsTerm d n l` and `LevelsFactor d n
l`.

Levels can be put on every derivation in one grammar or the other: forgetting them leaves a
derivation (`LevelsBlock.derives`), and every derivation has some (`DerivesBlock.exists_levels`).
-/

namespace Quill

/-- A token's kind with the level of the construct that begins at the token, zero where none
does. -/
abbrev Levelled := Kind × Nat

/-- The tokens without their levels. -/
abbrev kindsOf (ks : List Levelled) : List Kind :=
  ks.map Prod.fst

mutual

/-- An expression enclosed at level `n`, so of level `n + 1`. -/
inductive LevelsExpr (d : Division) : Nat → List Levelled → List Levelled → Expr → Prop where
  | not {n ks rest e} :
    LevelsExpr d (n + 1) ks rest e →
    LevelsExpr d n ((.operator .bang, n + 1) :: ks) rest (.unary .not e)
  | compare {n ks o op ks' rest l r} :
    LevelsTerm d (n + 1) (n + 1) ks ((.operator o, 0) :: ks') l →
    Compares o op →
    LevelsExpr d (n + 1) ks' rest r →
    LevelsExpr d n ks rest (.binary op l r)
  | sum {n ks mid rest t e} :
    LevelsTerm d (n + 1) (n + 1) ks mid t →
    NoneAhead Compares (kindsOf mid) →
    LevelsSum d (n + 1) t mid rest e →
    LevelsExpr d n ks rest e

/-- More terms of a sum. -/
inductive LevelsSum (d : Division) : Nat → Expr → List Levelled → List Levelled → Expr → Prop where
  | done {n l rest} :
    NoneAhead Adds (kindsOf rest) →
    LevelsSum d n l rest rest l
  | more {n l o op ks mid rest r e} :
    Adds o op →
    LevelsTerm d n 0 ks mid r →
    LevelsSum d n (.binary op l r) mid rest e →
    LevelsSum d n l ((.operator o, 0) :: ks) rest e

/-- A term with the level `l` on its first token. -/
inductive LevelsTerm (d : Division) : Nat → Nat → List Levelled → List Levelled → Expr → Prop where
  | product {n l ks mid rest f e} :
    LevelsFactor d n l ks mid f →
    LevelsProduct d n f mid rest e →
    LevelsTerm d n l ks rest e

/-- More factors of a product. -/
inductive LevelsProduct (d : Division) :
    Nat → Expr → List Levelled → List Levelled → Expr → Prop where
  | done {n l rest} :
    NoneAhead (Multiplies d) (kindsOf rest) →
    LevelsProduct d n l rest rest l
  | more {n l o op ks mid rest r e} :
    Multiplies d o op →
    LevelsFactor d n 0 ks mid r →
    LevelsProduct d n (.binary op l r) mid rest e →
    LevelsProduct d n l ((.operator o, 0) :: ks) rest e

/-- A factor with the level `l` on its first token. -/
inductive LevelsFactor (d : Division) :
    Nat → Nat → List Levelled → List Levelled → Expr → Prop where
  | plus {n l ks rest e} :
    LevelsFactor d (n + 1) (n + 1) ks rest e →
    LevelsFactor d n l ((.operator .plus, l) :: ks) rest e
  | minus {n l ks rest e} :
    LevelsFactor d (n + 1) (n + 1) ks rest e →
    LevelsFactor d n l ((.operator .minus, l) :: ks) rest (.unary .negate e)
  | number {n l x rest} : LevelsFactor d n l ((.number x, l) :: rest) rest (.number x)
  | string {n l s rest} : LevelsFactor d n l ((.string s, l) :: rest) rest (.string s)
  | kwTrue {n l rest} : LevelsFactor d n l ((Keyword.kwTrue.kind, l) :: rest) rest (.bool true)
  | kwFalse {n l rest} : LevelsFactor d n l ((Keyword.kwFalse.kind, l) :: rest) rest (.bool false)
  | kwNone {n l rest} : LevelsFactor d n l ((Keyword.kwNone.kind, l) :: rest) rest .none
  | ref {n l x rest} :
    IsName x →
    (kindsOf rest).head? ≠ some (.mark .leftParen) →
    LevelsFactor d n l ((.word x, l) :: rest) rest (.ref x)
  | call {n l f ks rest es} :
    IsName f →
    LevelsArgs d n ks ((.mark .rightParen, 0) :: rest) es →
    LevelsFactor d n l ((.word f, l) :: (.mark .leftParen, 0) :: ks) rest (.call f es)
  | group {n l ks rest e} :
    LevelsExpr d n ks ((.mark .rightParen, 0) :: rest) e →
    LevelsFactor d n l ((.mark .leftParen, l) :: ks) rest e

/-- Arguments side by side. -/
inductive LevelsArgs (d : Division) :
    Nat → List Levelled → List Levelled → List Expr → Prop where
  | nil {n rest} : LevelsArgs d n rest rest []
  | cons {n ks mid rest e es} :
    LevelsExpr d n ks mid e →
    LevelsArgs d n mid rest es →
    LevelsArgs d n ks rest (e :: es)

end

/-- Parameters side by side. -/
inductive LevelsParams : List Levelled → List Levelled → List String → Prop where
  | nil {rest} : LevelsParams rest rest []
  | cons {x ks rest xs} :
    IsName x →
    LevelsParams ks rest xs →
    LevelsParams ((.word x, 0) :: ks) rest (x :: xs)

mutual

/-- A statement enclosed at level `n`. It has no level of its own. -/
inductive LevelsStmt (d : Division) : Nat → List Levelled → List Levelled → Stmt → Prop where
  | assignGlobal {n x ks rest e} :
    IsName x →
    LevelsExpr d n ks rest e →
    LevelsStmt d n ((Keyword.kwGlobal.kind, 0) :: (.word x, 0) :: ks) rest (.assign .outermost x e)
  | assignLocal {n x ks rest e} :
    IsName x →
    LevelsExpr d n ks rest e →
    LevelsStmt d n ((Keyword.kwLocal.kind, 0) :: (.word x, 0) :: ks) rest (.assign .here x e)
  | declare {n f ks ks' rest xs b} :
    IsName f →
    LevelsParams ks ((.mark .rightParen, 0) :: ks') xs →
    LevelsBlock d n ks' rest b →
    LevelsStmt d n ((Keyword.kwFn.kind, 0) :: (.word f, 0) :: (.mark .leftParen, 0) :: ks) rest
      (.declare f xs b)
  | giveBack {n ks rest e} :
    LevelsExpr d n ks rest e →
    LevelsStmt d n ((Keyword.kwReturn.kind, 0) :: ks) rest (.giveBack e)
  | conditional {n ks ks₁ ks₂ ks₃ rest c b bs o} :
    LevelsExpr d n ks ks₁ c →
    LevelsBlock d n ks₁ ks₂ b →
    LevelsElifs d n ks₂ ks₃ bs →
    LevelsElse d n ks₃ rest o →
    LevelsStmt d n ((Keyword.kwIf.kind, 0) :: ks) rest (.conditional (.arm c b :: bs) o)
  | loop {n ks mid rest c b} :
    LevelsExpr d n ks mid c →
    LevelsBlock d n mid rest b →
    LevelsStmt d n ((Keyword.kwWhile.kind, 0) :: ks) rest (.loop c b)
  | print {n ks rest e} :
    LevelsExpr d n ks rest e →
    LevelsStmt d n ((Keyword.kwPrint.kind, 0) :: ks) rest (.print e)
  | expression {n ks rest e} :
    LevelsExpr d n ks rest e →
    LevelsStmt d n ks rest (.expression e)

/-- More arms of a conditional. -/
inductive LevelsElifs (d : Division) :
    Nat → List Levelled → List Levelled → List Branch → Prop where
  | nil {n rest} :
    (kindsOf rest).head? ≠ some Keyword.kwElif.kind →
    LevelsElifs d n rest rest []
  | cons {n ks ks₁ ks₂ rest c b bs} :
    LevelsExpr d n ks ks₁ c →
    LevelsBlock d n ks₁ ks₂ b →
    LevelsElifs d n ks₂ rest bs →
    LevelsElifs d n ((Keyword.kwElif.kind, 0) :: ks) rest (.arm c b :: bs)

/-- The last arm of a conditional, if it has one. -/
inductive LevelsElse (d : Division) :
    Nat → List Levelled → List Levelled → Option Block → Prop where
  | none {n rest} :
    (kindsOf rest).head? ≠ some Keyword.kwElse.kind →
    LevelsElse d n rest rest none
  | some {n ks rest b} :
    LevelsBlock d n ks rest b →
    LevelsElse d n ((Keyword.kwElse.kind, 0) :: ks) rest (some b)

/-- Statements, each with its semicolon. -/
inductive LevelsStmts (d : Division) : Nat → List Levelled → List Levelled → Block → Prop where
  | nil {n rest} : LevelsStmts d n rest rest []
  | cons {n ks mid rest s ss} :
    LevelsStmt d n ks ((.mark .semicolon, 0) :: mid) s →
    LevelsStmts d n mid rest ss →
    LevelsStmts d n ks rest (s :: ss)

/-- A block enclosed at level `n`, so of level `n + 1`. -/
inductive LevelsBlock (d : Division) : Nat → List Levelled → List Levelled → Block → Prop where
  | braces {n ks rest b} :
    LevelsStmts d (n + 1) ks ((.mark .rightBrace, 0) :: rest) b →
    LevelsBlock d n ((.mark .leftBrace, n + 1) :: ks) rest b

end

/-- The kinds of a program with their levels. Nothing encloses the program's block. -/
def LevelsProgram (d : Division) (ks : List Kind) (levels : List Nat) (b : Block) : Prop :=
  levels.length = ks.length ∧
    LevelsBlock d 0 (ks.zip levels ++ [(.endOfInput, 0)]) [(.endOfInput, 0)] b

/-- The deepest level. -/
def deepest (levels : List Nat) : Nat :=
  levels.foldr max 0

/-! ## Forgetting the levels -/

variable {d : Division}

mutual

/-- Without the levels, an expression is derived. -/
theorem LevelsExpr.derives {n : Nat} {ks rest : List Levelled} {e : Expr} :
    LevelsExpr d n ks rest e → DerivesExpr d (kindsOf ks) (kindsOf rest) e
  | .not he => .not he.derives
  | .compare ht ho he => .compare ht.derives ho he.derives
  | .sum ht hc he => .sum ht.derives hc he.derives

/-- So are more terms of a sum. -/
theorem LevelsSum.derives {n : Nat} {ks rest : List Levelled} {l e : Expr} :
    LevelsSum d n l ks rest e → DerivesSum d l (kindsOf ks) (kindsOf rest) e
  | .done ha => .done ha
  | .more ho ht he => .more ho ht.derives he.derives

/-- So is a term. -/
theorem LevelsTerm.derives {n l : Nat} {ks rest : List Levelled} {e : Expr} :
    LevelsTerm d n l ks rest e → DerivesTerm d (kindsOf ks) (kindsOf rest) e
  | .product hf ht => .product hf.derives ht.derives

/-- So are more factors of a product. -/
theorem LevelsProduct.derives {n : Nat} {ks rest : List Levelled} {l e : Expr} :
    LevelsProduct d n l ks rest e → DerivesProduct d l (kindsOf ks) (kindsOf rest) e
  | .done hm => .done hm
  | .more ho hf ht => .more ho hf.derives ht.derives

/-- So is a factor. -/
theorem LevelsFactor.derives {n l : Nat} {ks rest : List Levelled} {e : Expr} :
    LevelsFactor d n l ks rest e → DerivesFactor d (kindsOf ks) (kindsOf rest) e
  | .plus hf => .plus hf.derives
  | .minus hf => .minus hf.derives
  | .number => .number
  | .string => .string
  | .kwTrue => .kwTrue
  | .kwFalse => .kwFalse
  | .kwNone => .kwNone
  | .ref hx hk => .ref hx hk
  | .call hf hes => .call hf hes.derives
  | .group he => .group he.derives

/-- So are the arguments of a call. -/
theorem LevelsArgs.derives {n : Nat} {ks rest : List Levelled} {es : List Expr} :
    LevelsArgs d n ks rest es → DerivesArgs d (kindsOf ks) (kindsOf rest) es
  | .nil => .nil
  | .cons he hes => .cons he.derives hes.derives

end

/-- So are the parameters of a declaration. -/
theorem LevelsParams.derives {ks rest : List Levelled} {xs : List String} :
    LevelsParams ks rest xs → DerivesParams (kindsOf ks) (kindsOf rest) xs
  | .nil => .nil
  | .cons hx hxs => .cons hx hxs.derives

mutual

/-- So is a statement. -/
theorem LevelsStmt.derives {n : Nat} {ks rest : List Levelled} {s : Stmt} :
    LevelsStmt d n ks rest s → DerivesStmt d (kindsOf ks) (kindsOf rest) s
  | .assignGlobal hx he => .assignGlobal hx he.derives
  | .assignLocal hx he => .assignLocal hx he.derives
  | .declare hf hxs hb => .declare hf hxs.derives hb.derives
  | .giveBack he => .giveBack he.derives
  | .conditional hc hb hbs ho => .conditional hc.derives hb.derives hbs.derives ho.derives
  | .loop hc hb => .loop hc.derives hb.derives
  | .print he => .print he.derives
  | .expression he => .expression he.derives

/-- So are the arms of a conditional. -/
theorem LevelsElifs.derives {n : Nat} {ks rest : List Levelled} {bs : List Branch} :
    LevelsElifs d n ks rest bs → DerivesElifs d (kindsOf ks) (kindsOf rest) bs
  | .nil hk => .nil hk
  | .cons hc hb hbs => .cons hc.derives hb.derives hbs.derives

/-- So is its last arm. -/
theorem LevelsElse.derives {n : Nat} {ks rest : List Levelled} {o : Option Block} :
    LevelsElse d n ks rest o → DerivesElse d (kindsOf ks) (kindsOf rest) o
  | .none hk => .none hk
  | .some hb => .some hb.derives

/-- So are the statements of a block. -/
theorem LevelsStmts.derives {n : Nat} {ks rest : List Levelled} {ss : Block} :
    LevelsStmts d n ks rest ss → DerivesStmts d (kindsOf ks) (kindsOf rest) ss
  | .nil => .nil
  | .cons hs hss => .cons hs.derives hss.derives

/-- So is a block. -/
theorem LevelsBlock.derives {n : Nat} {ks rest : List Levelled} {b : Block} :
    LevelsBlock d n ks rest b → DerivesBlock d (kindsOf ks) (kindsOf rest) b
  | .braces hss => .braces hss.derives

end

/-! ## What a construct leaves -/

/-- Behind a token that is taken, what is left is a suffix. -/
lemma suffix_behind {x : Levelled} {ks rest : List Levelled} (h : rest <:+ ks) : rest <:+ x :: ks :=
  h.trans (List.suffix_cons x ks)

/-- A token that is left and then taken leaves a suffix. -/
lemma suffix_tail {x : Levelled} {ks rest : List Levelled} (h : x :: rest <:+ ks) : rest <:+ ks :=
  (List.suffix_cons x rest).trans h

mutual

/-- An expression takes the front of the tokens. -/
theorem LevelsExpr.suffix {n : Nat} {ks rest : List Levelled} {e : Expr} :
    LevelsExpr d n ks rest e → rest <:+ ks
  | .not he => suffix_behind he.suffix
  | .compare ht _ he => he.suffix.trans (suffix_tail ht.suffix)
  | .sum ht _ he => he.suffix.trans ht.suffix

/-- So do more terms of a sum. -/
theorem LevelsSum.suffix {n : Nat} {ks rest : List Levelled} {l e : Expr} :
    LevelsSum d n l ks rest e → rest <:+ ks
  | .done _ => List.suffix_rfl
  | .more _ ht he => suffix_behind (he.suffix.trans ht.suffix)

/-- So does a term. -/
theorem LevelsTerm.suffix {n l : Nat} {ks rest : List Levelled} {e : Expr} :
    LevelsTerm d n l ks rest e → rest <:+ ks
  | .product hf ht => ht.suffix.trans hf.suffix

/-- So do more factors of a product. -/
theorem LevelsProduct.suffix {n : Nat} {ks rest : List Levelled} {l e : Expr} :
    LevelsProduct d n l ks rest e → rest <:+ ks
  | .done _ => List.suffix_rfl
  | .more _ hf ht => suffix_behind (ht.suffix.trans hf.suffix)

/-- So does a factor. -/
theorem LevelsFactor.suffix {n l : Nat} {ks rest : List Levelled} {e : Expr} :
    LevelsFactor d n l ks rest e → rest <:+ ks
  | .plus hf => suffix_behind hf.suffix
  | .minus hf => suffix_behind hf.suffix
  | .number => List.suffix_cons _ _
  | .string => List.suffix_cons _ _
  | .kwTrue => List.suffix_cons _ _
  | .kwFalse => List.suffix_cons _ _
  | .kwNone => List.suffix_cons _ _
  | .ref _ _ => List.suffix_cons _ _
  | .call _ hes => suffix_behind (suffix_behind (suffix_tail hes.suffix))
  | .group he => suffix_behind (suffix_tail he.suffix)

/-- So do the arguments of a call. -/
theorem LevelsArgs.suffix {n : Nat} {ks rest : List Levelled} {es : List Expr} :
    LevelsArgs d n ks rest es → rest <:+ ks
  | .nil => List.suffix_rfl
  | .cons he hes => hes.suffix.trans he.suffix

end

/-- So do the parameters of a declaration. -/
theorem LevelsParams.suffix {ks rest : List Levelled} {xs : List String} :
    LevelsParams ks rest xs → rest <:+ ks
  | .nil => List.suffix_rfl
  | .cons _ hxs => suffix_behind hxs.suffix

mutual

/-- So does a statement. -/
theorem LevelsStmt.suffix {n : Nat} {ks rest : List Levelled} {s : Stmt} :
    LevelsStmt d n ks rest s → rest <:+ ks
  | .assignGlobal _ he => suffix_behind (suffix_behind he.suffix)
  | .assignLocal _ he => suffix_behind (suffix_behind he.suffix)
  | .declare _ hxs hb =>
    suffix_behind (suffix_behind (suffix_behind (hb.suffix.trans (suffix_tail hxs.suffix))))
  | .giveBack he => suffix_behind he.suffix
  | .conditional hc hb hbs ho =>
    suffix_behind (ho.suffix.trans (hbs.suffix.trans (hb.suffix.trans hc.suffix)))
  | .loop hc hb => suffix_behind (hb.suffix.trans hc.suffix)
  | .print he => suffix_behind he.suffix
  | .expression he => he.suffix

/-- So do the arms of a conditional. -/
theorem LevelsElifs.suffix {n : Nat} {ks rest : List Levelled} {bs : List Branch} :
    LevelsElifs d n ks rest bs → rest <:+ ks
  | .nil _ => List.suffix_rfl
  | .cons hc hb hbs => suffix_behind (hbs.suffix.trans (hb.suffix.trans hc.suffix))

/-- So does its last arm. -/
theorem LevelsElse.suffix {n : Nat} {ks rest : List Levelled} {o : Option Block} :
    LevelsElse d n ks rest o → rest <:+ ks
  | .none _ => List.suffix_rfl
  | .some hb => suffix_behind hb.suffix

/-- So do the statements of a block. -/
theorem LevelsStmts.suffix {n : Nat} {ks rest : List Levelled} {ss : Block} :
    LevelsStmts d n ks rest ss → rest <:+ ks
  | .nil => List.suffix_rfl
  | .cons hs hss => hss.suffix.trans (suffix_tail hs.suffix)

/-- So does a block. -/
theorem LevelsBlock.suffix {n : Nat} {ks rest : List Levelled} {b : Block} :
    LevelsBlock d n ks rest b → rest <:+ ks
  | .braces hss => suffix_behind (suffix_tail hss.suffix)

end

/-!
## Putting levels on a derivation

The levels of what follows are given, and those of the construct are found from the right to the
left.
-/

/-- A token in front, with any level. -/
lemma kindsOf_cons {ks : List Kind} {ks' : List Levelled} (k : Kind) (l : Nat)
    (h : kindsOf ks' = ks) : kindsOf ((k, l) :: ks') = k :: ks :=
  congrArg (k :: ·) h

mutual

/-- What is derived as an expression has levels as one, whatever encloses it. -/
theorem DerivesExpr.exists_levels {ks rest : List Kind} {e : Expr} :
    DerivesExpr d ks rest e → ∀ n rest', kindsOf rest' = rest →
      ∃ ks', kindsOf ks' = ks ∧ LevelsExpr d n ks' rest' e
  | .not he, n, rest', h =>
    let ⟨_, h₁, he'⟩ := he.exists_levels (n + 1) rest' h
    ⟨_, kindsOf_cons _ _ h₁, .not he'⟩
  | .compare ht ho he, n, rest', h =>
    let ⟨_, h₁, he'⟩ := he.exists_levels (n + 1) rest' h
    let ⟨_, h₂, ht'⟩ := ht.exists_levels (n + 1) (n + 1) _ (kindsOf_cons _ 0 h₁)
    ⟨_, h₂, .compare ht' ho he'⟩
  | .sum ht hc he, n, rest', h =>
    let ⟨mid, h₁, he'⟩ := he.exists_levels (n + 1) rest' h
    let ⟨_, h₂, ht'⟩ := ht.exists_levels (n + 1) (n + 1) mid h₁
    ⟨_, h₂, .sum ht' (h₁ ▸ hc) he'⟩

/-- So do more terms of a sum. -/
theorem DerivesSum.exists_levels {ks rest : List Kind} {l e : Expr} :
    DerivesSum d l ks rest e → ∀ n rest', kindsOf rest' = rest →
      ∃ ks', kindsOf ks' = ks ∧ LevelsSum d n l ks' rest' e
  | .done ha, _, rest', h => ⟨rest', h, .done (h ▸ ha)⟩
  | .more ho ht he, n, rest', h =>
    let ⟨mid, h₁, he'⟩ := he.exists_levels n rest' h
    let ⟨_, h₂, ht'⟩ := ht.exists_levels n 0 mid h₁
    ⟨_, kindsOf_cons _ _ h₂, .more ho ht' he'⟩

/-- So does a term, with any level on its first token. -/
theorem DerivesTerm.exists_levels {ks rest : List Kind} {e : Expr} :
    DerivesTerm d ks rest e → ∀ n l rest', kindsOf rest' = rest →
      ∃ ks', kindsOf ks' = ks ∧ LevelsTerm d n l ks' rest' e
  | .product hf ht, n, l, rest', h =>
    let ⟨mid, h₁, ht'⟩ := ht.exists_levels n rest' h
    let ⟨_, h₂, hf'⟩ := hf.exists_levels n l mid h₁
    ⟨_, h₂, .product hf' ht'⟩

/-- So do more factors of a product. -/
theorem DerivesProduct.exists_levels {ks rest : List Kind} {l e : Expr} :
    DerivesProduct d l ks rest e → ∀ n rest', kindsOf rest' = rest →
      ∃ ks', kindsOf ks' = ks ∧ LevelsProduct d n l ks' rest' e
  | .done hm, _, rest', h => ⟨rest', h, .done (h ▸ hm)⟩
  | .more ho hf ht, n, rest', h =>
    let ⟨mid, h₁, ht'⟩ := ht.exists_levels n rest' h
    let ⟨_, h₂, hf'⟩ := hf.exists_levels n 0 mid h₁
    ⟨_, kindsOf_cons _ _ h₂, .more ho hf' ht'⟩

/-- So does a factor, with any level on its first token. -/
theorem DerivesFactor.exists_levels {ks rest : List Kind} {e : Expr} :
    DerivesFactor d ks rest e → ∀ n l rest', kindsOf rest' = rest →
      ∃ ks', kindsOf ks' = ks ∧ LevelsFactor d n l ks' rest' e
  | .plus hf, n, _, rest', h =>
    let ⟨_, h₁, hf'⟩ := hf.exists_levels (n + 1) (n + 1) rest' h
    ⟨_, kindsOf_cons _ _ h₁, .plus hf'⟩
  | .minus hf, n, _, rest', h =>
    let ⟨_, h₁, hf'⟩ := hf.exists_levels (n + 1) (n + 1) rest' h
    ⟨_, kindsOf_cons _ _ h₁, .minus hf'⟩
  | .number, _, _, _, h => ⟨_, kindsOf_cons _ _ h, .number⟩
  | .string, _, _, _, h => ⟨_, kindsOf_cons _ _ h, .string⟩
  | .kwTrue, _, _, _, h => ⟨_, kindsOf_cons _ _ h, .kwTrue⟩
  | .kwFalse, _, _, _, h => ⟨_, kindsOf_cons _ _ h, .kwFalse⟩
  | .kwNone, _, _, _, h => ⟨_, kindsOf_cons _ _ h, .kwNone⟩
  | .ref hx hk, _, _, _, h => ⟨_, kindsOf_cons _ _ h, .ref hx (h ▸ hk)⟩
  | .call hf hes, n, _, _, h =>
    let ⟨_, h₁, hes'⟩ := hes.exists_levels n _ (kindsOf_cons _ 0 h)
    ⟨_, kindsOf_cons _ _ (kindsOf_cons _ _ h₁), .call hf hes'⟩
  | .group he, n, _, _, h =>
    let ⟨_, h₁, he'⟩ := he.exists_levels n _ (kindsOf_cons _ 0 h)
    ⟨_, kindsOf_cons _ _ h₁, .group he'⟩

/-- So do the arguments of a call. -/
theorem DerivesArgs.exists_levels {ks rest : List Kind} {es : List Expr} :
    DerivesArgs d ks rest es → ∀ n rest', kindsOf rest' = rest →
      ∃ ks', kindsOf ks' = ks ∧ LevelsArgs d n ks' rest' es
  | .nil, _, rest', h => ⟨rest', h, .nil⟩
  | .cons he hes, n, rest', h =>
    let ⟨mid, h₁, hes'⟩ := hes.exists_levels n rest' h
    let ⟨_, h₂, he'⟩ := he.exists_levels n mid h₁
    ⟨_, h₂, .cons he' hes'⟩

end

/-- So do the parameters of a declaration. -/
theorem DerivesParams.exists_levels {ks rest : List Kind} {xs : List String} :
    DerivesParams ks rest xs → ∀ rest', kindsOf rest' = rest →
      ∃ ks', kindsOf ks' = ks ∧ LevelsParams ks' rest' xs
  | .nil, rest', h => ⟨rest', h, .nil⟩
  | .cons hx hxs, rest', h =>
    let ⟨_, h₁, hxs'⟩ := hxs.exists_levels rest' h
    ⟨_, kindsOf_cons _ _ h₁, .cons hx hxs'⟩

mutual

/-- So does a statement. -/
theorem DerivesStmt.exists_levels {ks rest : List Kind} {s : Stmt} :
    DerivesStmt d ks rest s → ∀ n rest', kindsOf rest' = rest →
      ∃ ks', kindsOf ks' = ks ∧ LevelsStmt d n ks' rest' s
  | .assignGlobal hx he, n, rest', h =>
    let ⟨_, h₁, he'⟩ := he.exists_levels n rest' h
    ⟨_, kindsOf_cons _ _ (kindsOf_cons _ _ h₁), .assignGlobal hx he'⟩
  | .assignLocal hx he, n, rest', h =>
    let ⟨_, h₁, he'⟩ := he.exists_levels n rest' h
    ⟨_, kindsOf_cons _ _ (kindsOf_cons _ _ h₁), .assignLocal hx he'⟩
  | .declare hf hxs hb, n, rest', h =>
    let ⟨_, h₁, hb'⟩ := hb.exists_levels n rest' h
    let ⟨_, h₂, hxs'⟩ := hxs.exists_levels _ (kindsOf_cons _ 0 h₁)
    ⟨_, kindsOf_cons _ _ (kindsOf_cons _ _ (kindsOf_cons _ _ h₂)), .declare hf hxs' hb'⟩
  | .giveBack he, n, rest', h =>
    let ⟨_, h₁, he'⟩ := he.exists_levels n rest' h
    ⟨_, kindsOf_cons _ _ h₁, .giveBack he'⟩
  | .conditional hc hb hbs ho, n, rest', h =>
    let ⟨ks₃, h₃, ho'⟩ := ho.exists_levels n rest' h
    let ⟨ks₂, h₂, hbs'⟩ := hbs.exists_levels n ks₃ h₃
    let ⟨ks₁, h₁, hb'⟩ := hb.exists_levels n ks₂ h₂
    let ⟨_, h₀, hc'⟩ := hc.exists_levels n ks₁ h₁
    ⟨_, kindsOf_cons _ _ h₀, .conditional hc' hb' hbs' ho'⟩
  | .loop hc hb, n, rest', h =>
    let ⟨mid, h₁, hb'⟩ := hb.exists_levels n rest' h
    let ⟨_, h₂, hc'⟩ := hc.exists_levels n mid h₁
    ⟨_, kindsOf_cons _ _ h₂, .loop hc' hb'⟩
  | .print he, n, rest', h =>
    let ⟨_, h₁, he'⟩ := he.exists_levels n rest' h
    ⟨_, kindsOf_cons _ _ h₁, .print he'⟩
  | .expression he, n, rest', h =>
    let ⟨_, h₁, he'⟩ := he.exists_levels n rest' h
    ⟨_, h₁, .expression he'⟩

/-- So do the arms of a conditional. -/
theorem DerivesElifs.exists_levels {ks rest : List Kind} {bs : List Branch} :
    DerivesElifs d ks rest bs → ∀ n rest', kindsOf rest' = rest →
      ∃ ks', kindsOf ks' = ks ∧ LevelsElifs d n ks' rest' bs
  | .nil hk, _, rest', h => ⟨rest', h, .nil (h ▸ hk)⟩
  | .cons hc hb hbs, n, rest', h =>
    let ⟨ks₂, h₂, hbs'⟩ := hbs.exists_levels n rest' h
    let ⟨ks₁, h₁, hb'⟩ := hb.exists_levels n ks₂ h₂
    let ⟨_, h₀, hc'⟩ := hc.exists_levels n ks₁ h₁
    ⟨_, kindsOf_cons _ _ h₀, .cons hc' hb' hbs'⟩

/-- So does its last arm. -/
theorem DerivesElse.exists_levels {ks rest : List Kind} {o : Option Block} :
    DerivesElse d ks rest o → ∀ n rest', kindsOf rest' = rest →
      ∃ ks', kindsOf ks' = ks ∧ LevelsElse d n ks' rest' o
  | .none hk, _, rest', h => ⟨rest', h, .none (h ▸ hk)⟩
  | .some hb, n, rest', h =>
    let ⟨_, h₁, hb'⟩ := hb.exists_levels n rest' h
    ⟨_, kindsOf_cons _ _ h₁, .some hb'⟩

/-- So do the statements of a block. -/
theorem DerivesStmts.exists_levels {ks rest : List Kind} {ss : Block} :
    DerivesStmts d ks rest ss → ∀ n rest', kindsOf rest' = rest →
      ∃ ks', kindsOf ks' = ks ∧ LevelsStmts d n ks' rest' ss
  | .nil, _, rest', h => ⟨rest', h, .nil⟩
  | .cons hs hss, n, rest', h =>
    let ⟨_, h₁, hss'⟩ := hss.exists_levels n rest' h
    let ⟨_, h₂, hs'⟩ := hs.exists_levels n _ (kindsOf_cons _ 0 h₁)
    ⟨_, h₂, .cons hs' hss'⟩

/-- So does a block. -/
theorem DerivesBlock.exists_levels {ks rest : List Kind} {b : Block} :
    DerivesBlock d ks rest b → ∀ n rest', kindsOf rest' = rest →
      ∃ ks', kindsOf ks' = ks ∧ LevelsBlock d n ks' rest' b
  | .braces hss, n, _, h =>
    let ⟨_, h₁, hss'⟩ := hss.exists_levels (n + 1) _ (kindsOf_cons _ 0 h)
    ⟨_, kindsOf_cons _ _ h₁, .braces hss'⟩

end

/-- Every program has levels. -/
theorem DerivesProgram.exists_levels {ks : List Kind} {b : Block} (h : DerivesProgram d ks b) :
    ∃ levels, LevelsProgram d ks levels b := by
  obtain ⟨ks', hks, hb⟩ := DerivesBlock.exists_levels h 0 [(.endOfInput, 0)] rfl
  obtain ⟨front, rfl⟩ := hb.suffix
  have same : kindsOf front = ks := by
    rw [kindsOf, List.map_append] at hks
    exact (List.append_inj' hks rfl).1
  subst same
  refine ⟨front.map Prod.snd, by simp, ?_⟩
  rwa [← List.zip_of_prod rfl rfl]

end Quill
