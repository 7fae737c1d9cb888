import Mathlib.Data.List.Forall2
import Quill.Proofs.Number.Reread
import Quill.Proofs.Tree.Answers
import Quill.Proofs.Tree.Handoff
import Quill.Proofs.Tree.Operators

/-!
# Handing numbers over

What becomes of the numbers of a program whose tree is handed over as JSON text. The text keeps
them: each is nearest to the number that is written for it. The reader approaches another number, in
which the digits and the power of ten are rounded already, so some come back as the double beside
them. A number comes back as it was exactly if it is nearest to the number that is approached as
well, and the tree does exactly if all of its numbers do (`handed_numbers`).
-/

namespace Quill

/-! ## The numbers of a block -/

/-- The numbers in a block, in the order of the text. -/
def Block.numbers (b : Block) : List Double :=
  (Stmt.exprsOfAll b).flatMap Expr.numbers

section

variable {f : Double → Double}

mutual

/-- The numbers of an expression with other numbers are those other numbers. -/
theorem Expr.numbers_mapNumbers : ∀ e : Expr, (e.mapNumbers f).numbers = e.numbers.map f
  | .binary op l r => by
    rw [mapNumbers, numbers, numbers, numbers_mapNumbers l, numbers_mapNumbers r, List.map_append]
  | .unary op e => by rw [mapNumbers, numbers, numbers, numbers_mapNumbers e]
  | .number _ | .string _ | .bool _ | .none | .ref _ => rfl
  | .call g args => by rw [mapNumbers, numbers, numbers, numbersOfAll_mapNumbers args]

/-- So are the numbers of some expressions. -/
theorem Expr.numbersOfAll_mapNumbers :
    ∀ es : List Expr, numbersOfAll (mapNumbersOfAll f es) = (numbersOfAll es).map f
  | [] => rfl
  | e :: es => by
    rw [mapNumbersOfAll, numbersOfAll, numbersOfAll, numbers_mapNumbers e,
      numbersOfAll_mapNumbers es, List.map_append]

end

end

/-- The numbers that are read back are those that were written, each as its text is read. -/
lemma numbers_rereadBlock (b : Block) :
    Block.numbers (rereadBlock b) = (Block.numbers b).map Double.reread := by
  rw [Block.numbers, Block.numbers, rereadBlock, Stmt.exprsOfAll_mapExprsOfAll, List.flatMap_map,
    List.map_flatMap]
  simp only [Expr.numbers_mapNumbers]

/-- A block is read back as it was exactly if its numbers are. -/
lemma rereadBlock_eq_self_iff (b : Block) :
    rereadBlock b = b ↔ ∀ x ∈ Block.numbers b, x.reread = x := by
  constructor
  · intro same
    have numbers := numbers_rereadBlock b
    rw [same] at numbers
    exact List.map_inj_left.1 (numbers.symm.trans (List.map_id _).symm)
  · intro same
    apply Stmt.mapExprsOfAll_eq_self
    intro e he
    apply Expr.mapNumbers_eq_self
    intro x hx
    exact same x (List.mem_flatMap.2 ⟨e, he, hx⟩)

/-! ## Parsed numbers -/

section

variable {d : Division}

/-- What holds of the numbers of each expression holds of the numbers of all. -/
lemma Expr.forall_numbersOfAll {P : Double → Prop} {es : List Expr}
    (h : ∀ e ∈ es, ∀ x ∈ e.numbers, P x) : ∀ x ∈ numbersOfAll es, P x := by
  induction es with
  | nil => exact nofun
  | cons e es ih =>
    obtain ⟨he, hes⟩ := List.forall_mem_cons.1 h
    exact List.forall_mem_append.2 ⟨he, ih hes⟩

/-- The numbers in a well-formed expression have no sign. -/
theorem Expr.WellFormed.unsigned {e : Expr} :
    e.WellFormed d → ∀ x ∈ e.numbers, x.negative = false
  | .binary _ hl hr => List.forall_mem_append.2 ⟨hl.unsigned, hr.unsigned⟩
  | .unary he => he.unsigned
  | .number hx => List.forall_mem_singleton.2 hx
  | .string | .bool | .none | .ref _ => nofun
  | .call _ hes => Expr.forall_numbersOfAll fun e he => (hes e he).unsigned

/-- So the numbers of a parsed program have none. -/
lemma unsigned_of_parse {settings : Settings} {source : String} {b : Block}
    (parsed : parseText settings source = .ok b) :
    ∀ x ∈ Block.numbers b, x.negative = false := by
  intro x hx
  obtain ⟨e, he, hx⟩ := List.mem_flatMap.1 hx
  have formed := wellFormed_of_parse parsed
  exact (forall_exprsOfAll (fun s hs => (formed s hs).exprs) e he).unsigned x hx

end

/-! ## What comes back -/

/-- What becomes of the double `x`, which comes back as `y`. It is nearest to the number that is
written for it, and what comes back is nearest to the one that is approached. So it comes back as it
was exactly if it is nearest there as well, and that it is if its digits and its power of ten are
doubles. -/
structure Double.ComesBackAs (x y : Double) : Prop where
  written : x.IsNearest (Layout.data.write x).magnitude
  read : y.IsNearest x.approached
  same_iff : y = x ↔ x.IsNearest x.approached
  short : (Layout.data.write x).IsShort → y = x

/-- What becomes of a double without a sign is what its text is read as. -/
lemma Double.comesBackAs_reread {x : Double} (hx : x.negative = false) :
    x.ComesBackAs x.reread where
  written := isNearest_write hx
  read := (isNearest_reread hx).2
  same_iff := reread_eq_self_iff hx
  short := reread_eq_self_of_short hx

/-- The tree of a program that nests no deeper than text may comes back from its text in every
style, with another double in the place of some. Each is settled by what its text approaches, and
the tree is the same exactly if every number is nearest there. -/
theorem handed_numbers {settings : Settings} {source : String} {b : Block}
    (parsed : parseText settings source = .ok b) (shallow : (blockToJson b).nesting ≤ maxNesting) :
    (∀ style ∈ handoffStyles,
      blockOfText? ((blockToJson b).render style) = some (rereadBlock b)) ∧
    List.Forall₂ Double.ComesBackAs (Block.numbers b) (Block.numbers (rereadBlock b)) ∧
    (rereadBlock b = b ↔ ∀ x ∈ Block.numbers b, x.IsNearest x.approached) := by
  have unsigned := unsigned_of_parse parsed
  refine ⟨fun style hs => ?_, ?_, ?_⟩
  · rw [blockOfText?_render (blank_of_mem_handoffStyles hs), if_pos shallow]
  · rw [numbers_rereadBlock, List.forall₂_map_right_iff, List.forall₂_same]
    exact fun x hx => Double.comesBackAs_reread (unsigned x hx)
  · rw [rereadBlock_eq_self_iff]
    exact forall₂_congr fun x hx => Double.reread_eq_self_iff (unsigned x hx)

/-- The nearest double to three tenths. -/
def threeTenths : Double :=
  ⟨false, 5404319552844595, 1020, by decide, by decide, by decide⟩

/-- The nearest double to `3 * 10 ^ 23`. -/
def threeE23 : Double :=
  ⟨false, 8940696716308594, 1099, by decide, by decide, by decide⟩

/-- The tokens of `{ print 0.3 + 3e23; }`. -/
def sumTokens : List Token :=
  [⟨.mark .leftBrace, "\x7b", .start⟩, ⟨.word "print", "print", ⟨2, 1, 3⟩⟩,
    ⟨.number threeTenths, "0.3", ⟨8, 1, 9⟩⟩, ⟨.operator .plus, "+", ⟨12, 1, 13⟩⟩,
    ⟨.number threeE23, "3e23", ⟨14, 1, 15⟩⟩, ⟨.mark .semicolon, ";", ⟨18, 1, 19⟩⟩,
    ⟨.mark .rightBrace, "\x7d", ⟨20, 1, 21⟩⟩, .endAt ⟨21, 1, 22⟩]

/-- The tree of these tokens. -/
def sumBlock : Block :=
  [.print (.binary .add (.number threeTenths) (.number threeE23))]

/-- The sum is handed over, and each of its numbers comes back as what its text is read as. -/
theorem sumBlock_handed_over :
    parseText {} "\x7b print 0.3 + 3e23; \x7d" = .ok sumBlock ∧
      (blockToJson sumBlock).nesting ≤ maxNesting ∧
      (∀ style ∈ handoffStyles,
        blockOfText? ((blockToJson sumBlock).render style) = some (rereadBlock sumBlock)) ∧
      List.Forall₂ Double.ComesBackAs (Block.numbers sumBlock)
        (Block.numbers (rereadBlock sumBlock)) ∧
      (rereadBlock sumBlock = sumBlock ↔
        ∀ x ∈ Block.numbers sumBlock, x.IsNearest x.approached) := by
  have lexed : tokenize "\x7b print 0.3 + 3e23; \x7d" = sumTokens.map .ok := by decide +kernel
  have parsed : parseText {} "\x7b print 0.3 + 3e23; \x7d" = .ok sumBlock := by
    rw [parseText, lexed]
    cbv
  have shallow : (blockToJson sumBlock).nesting ≤ maxNesting := by decide
  exact ⟨parsed, shallow, handed_numbers parsed shallow⟩

/-- The greatest odd double without a fraction. It is written as `9007199254740991.0`, and these
digits need four bits more than a double has. -/
def lastOdd : Double :=
  ⟨false, 9007199254740991, 1074, by decide, by decide, by decide⟩

/-- The double in front of it. -/
def beforeLastOdd : Double :=
  ⟨false, 9007199254740990, 1074, by decide, by decide, by decide⟩

/-- The tokens of `{ print 9007199254740991; }`. -/
def lastOddTokens : List Token :=
  [⟨.mark .leftBrace, "\x7b", .start⟩, ⟨.word "print", "print", ⟨2, 1, 3⟩⟩,
    ⟨.number lastOdd, "9007199254740991", ⟨8, 1, 9⟩⟩, ⟨.mark .semicolon, ";", ⟨24, 1, 25⟩⟩,
    ⟨.mark .rightBrace, "\x7d", ⟨26, 1, 27⟩⟩, .endAt ⟨27, 1, 28⟩]

/-- Handed over, it comes back as the double in front of it. -/
theorem lastOdd_not_handed_over :
    parseText {} "\x7b print 9007199254740991; \x7d" = .ok [.print (.number lastOdd)] ∧
      (blockToJson [.print (.number lastOdd)]).nesting ≤ maxNesting ∧
      (∀ style ∈ handoffStyles,
        blockOfText? ((blockToJson [.print (.number lastOdd)]).render style) =
          some [.print (.number beforeLastOdd)]) ∧
      beforeLastOdd ≠ lastOdd := by
  have lexed : tokenize "\x7b print 9007199254740991; \x7d" = lastOddTokens.map .ok := by
    decide +kernel
  have parsed : parseText {} "\x7b print 9007199254740991; \x7d" =
      .ok [.print (.number lastOdd)] := by
    rw [parseText, lexed]
    cbv
  have shallow : (blockToJson [.print (.number lastOdd)]).nesting ≤ maxNesting := by decide
  have read : Json.double? (Layout.data.write lastOdd) = some beforeLastOdd := by decide +kernel
  rw [lastOdd.double?_write] at read
  have same : rereadBlock [.print (.number lastOdd)] = [.print (.number beforeLastOdd)] := by
    rw [← Option.some.inj read]
    rfl
  refine ⟨parsed, shallow, fun style hs => ?_, by decide⟩
  rw [blockOfText?_render (blank_of_mem_handoffStyles hs), if_pos shallow, same]

end Quill
