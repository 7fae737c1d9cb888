import Mathlib
import Quill.Proofs.Tree.Answers
import Quill.Proofs.Tree.ShownText

/-!
# Shown expressions parsed again

An expression that a parser returned is shown, and the text is parsed as what a program prints. That
gives the same expression back, under any limit that is great enough, exactly if the expression
keeps its grouping (`reparsed_iff_keepsGrouping`). Otherwise it is given back under no limit: the
text is refused, or it is the text of another tree.
-/

namespace Quill

variable {d : Division} {e : Expr}

/-- The program that prints the expression, by its shown text. -/
def Expr.printed (e : Expr) : String :=
  "\x7b print " ++ e.display ++ "; \x7d"

/-- With room for every token, a text is parsed as the block that its kinds derive. -/
lemma Lexes.parse_iff {source : String} {ks : List Kind} {b : Block} {limit : Nat}
    (h : Lexes source.toList ks) (room : ks.length ≤ limit) :
    parseText ⟨d, limit⟩ source = .ok b ↔ DerivesBlock d ks [.endOfInput] b := by
  obtain ⟨ts, q, tiles, rfl⟩ := h .start
  have items : tokenize source = (ts ++ [Token.endAt q]).map .ok := items_of_tiles tiles
  obtain ⟨front, last, split, inner, _⟩ := tiles.last
  rw [List.map_append] at split
  obtain ⟨same, _⟩ := List.append_inj' split rfl
  obtain rfl := (List.map_inj_right fun _ _ => Except.ok.inj).1 same
  have free : .endOfInput ∉ ts.map Token.kind := by
    intro hk
    obtain ⟨t, ht, is_end⟩ := List.mem_map.1 hk
    exact inner t ht is_end
  have fits : ts.length < limit := by
    rw [List.length_append, List.length_map] at room
    exact Nat.lt_of_succ_le room
  exact parse_iff_of_items items free fits

/-- A block that prints one expression is derived from braces around the statement. -/
lemma derivesBlock_print_iff {ks : List Kind} :
    DerivesBlock d (.mark .leftBrace :: Keyword.kwPrint.kind :: ks) [.endOfInput] [.print e] ↔
      DerivesExpr d ks [.mark .semicolon, .mark .rightBrace, .endOfInput] e := by
  constructor
  · intro block
    cases block with
    | braces statements =>
      cases statements with
      | cons statement none_left =>
        cases none_left
        generalize front : Keyword.kwPrint.kind :: ks = all at statement
        cases statement with
        | print h =>
          obtain rfl := (List.cons.inj front).2
          exact h
  · intro h
    exact .braces (.cons (.print h) .nil)

/-- The program is lexed as its kinds. -/
lemma Expr.WellFormed.lexes_printed (h : e.WellFormed d) (plain : e.PlainStrings) :
    Lexes e.printed.toList (.mark .leftBrace :: Keyword.kwPrint.kind ::
      e.shown [.mark .semicolon, .mark .rightBrace, .endOfInput]) := by
  have blank {cs : List Char} : (' ' :: cs).head? ≠ some '#' :=
    (shuts_cons (.inl rfl) cs).head_ne_sign
  have brace : Lexes ['\x7d'] [.mark .rightBrace, .endOfInput] :=
    Lexes.nil.mark .rightBrace (Option.some_ne_none _).symm
  have behind : Lexes [';', ' ', '\x7d'] [.mark .semicolon, .mark .rightBrace, .endOfInput] :=
    brace.blank.mark .semicolon blank
  have value := h.lexes plain behind (shuts_cons (.inr (.inr (.inr rfl))) _)
  have print := value.blank.word (isWord_keyword .kwPrint) (shuts_cons (.inl rfl) _)
  have text : e.printed.toList = Mark.leftBrace.text.toList ++
      ' ' :: (Keyword.kwPrint.text.toList ++ ' ' :: (e.spell ++ [';', ' ', '\x7d'])) := by
    simp [Expr.printed, Expr.display, Mark.text, Keyword.text]
  rw [text]
  exact print.blank.mark .leftBrace blank

/-- With room for every token, the program prints the expression itself exactly if that keeps its
grouping. -/
lemma Expr.WellFormed.parse_printed_iff (h : e.WellFormed d) (plain : e.PlainStrings)
    {limit : Nat}
    (room : (e.shown [.mark .semicolon, .mark .rightBrace, .endOfInput]).length + 2 ≤ limit) :
    parseText ⟨d, limit⟩ e.printed = .ok [.print e] ↔ e.KeepsGrouping := by
  rw [(h.lexes_printed plain).parse_iff room, derivesBlock_print_iff,
    derivesExpr_shown_iff h .semicolon]

/-- An expression that loses its grouping is printed under no limit. -/
lemma Expr.WellFormed.parse_printed_ne (h : e.WellFormed d) (plain : e.PlainStrings)
    (lost : ¬ e.KeepsGrouping) (limit : Nat) :
    parseText ⟨d, limit⟩ e.printed ≠ .ok [.print e] := by
  intro parsed
  -- A greater limit has room for every token, and changes no tree.
  let enough := (e.shown [.mark .semicolon, .mark .rightBrace, .endOfInput]).length + 2
  have more := parseItems_mono (Nat.le_max_left limit enough) parsed nofun
  exact lost ((h.parse_printed_iff plain (Nat.le_max_right limit enough)).1 more)

/-- An expression that a parser returns is given back by a program that prints its shown text, under
every limit from some one on, if it keeps its grouping: no `!` is a left operand, an operand of
arithmetic or behind a minus, no argument but the first begins with a minus, and no argument that is
an operation stands behind a name. Any other expression is given back under no limit. -/
theorem reparsed_iff_keepsGrouping {settings : Settings} (h : Returned settings e)
    (plain : e.PlainStrings) :
    (e.KeepsGrouping → ∃ least, ∀ limit, least ≤ limit →
      parseText ⟨settings.division, limit⟩ e.printed = .ok [.print e]) ∧
    (¬ e.KeepsGrouping → ∀ limit,
      parseText ⟨settings.division, limit⟩ e.printed ≠ .ok [.print e]) := by
  constructor
  · intro keeps
    exact ⟨_, fun limit room => (h.wellFormed.parse_printed_iff plain room).2 keeps⟩
  · intro lost
    exact h.wellFormed.parse_printed_ne plain lost

/-- The expression of `{ print x < !f(-y "a b"); }`. -/
def sampleComparison : Expr :=
  .binary .lt (.ref "x")
    (.unary .not (.call "f" [.unary .negate (.ref "y"), .string "a b"]))

/-- A `!` that is compared with and a sign of the first argument keep the grouping. -/
lemma keepsGrouping_sampleComparison : sampleComparison.KeepsGrouping := by
  refine .binary .ref (.not (.call ?_ (.cons_cons trivial (.singleton _)))) rfl nofun
  exact List.forall_mem_cons.2 ⟨.negate .ref rfl, List.forall_mem_singleton.2 .string⟩

/-- The comparison comes back as it was, though its operand is a call with two arguments. -/
theorem sampleComparison_reparsed :
    Returned ⟨.distinct, 128⟩ sampleComparison ∧ sampleComparison.PlainStrings ∧
      sampleComparison.printed = "\x7b print (x < !f(-y \"a b\")); \x7d" ∧
      ∃ least, ∀ limit, least ≤ limit →
        parseText ⟨.distinct, limit⟩ sampleComparison.printed = .ok [.print sampleComparison] := by
  have parsed : parseText ⟨.distinct, 128⟩ "\x7b print x < !f(-y \"a b\"); \x7d" =
      .ok [.print sampleComparison] := by cbv
  have returned := returned_of_parse parsed List.mem_cons_self
  have chars : ("a b".toList.all fun c => decide (PlainChar c)) = true := by decide
  have plain : sampleComparison.PlainStrings :=
    List.forall_mem_singleton.2 fun c hc => of_decide_eq_true (List.all_eq_true.1 chars c hc)
  exact ⟨returned, plain, by decide,
    (reparsed_iff_keepsGrouping returned plain).1 keepsGrouping_sampleComparison⟩

/-- The expression of `{ print (!a) + b; }`. -/
def negatedOperand : Expr :=
  .binary .add (.unary .not (.ref "a")) (.ref "b")

/-- Without its parentheses, the `!` of a left operand takes the whole sum. -/
theorem negatedOperand_not_reparsed :
    Returned ⟨.distinct, 128⟩ negatedOperand ∧ negatedOperand.PlainStrings ∧
      negatedOperand.printed = "\x7b print (!a + b); \x7d" ∧
      parseText ⟨.distinct, 128⟩ negatedOperand.printed =
        .ok [.print (.unary .not (.binary .add (.ref "a") (.ref "b")))] ∧
      ¬ ∃ least, ∀ limit, least ≤ limit →
        parseText ⟨.distinct, limit⟩ negatedOperand.printed = .ok [.print negatedOperand] := by
  have parsed : parseText ⟨.distinct, 128⟩ "\x7b print (!a) + b; \x7d" =
      .ok [.print negatedOperand] := by cbv
  have returned := returned_of_parse parsed List.mem_cons_self
  have plain : negatedOperand.PlainStrings := List.forall_mem_nil _
  refine ⟨returned, plain, by decide, by cbv, ?_⟩
  rintro ⟨least, all⟩
  refine returned.wellFormed.parse_printed_ne plain (fun keeps => ?_) least (all least le_rfl)
  cases keeps with
  | binary _ _ left _ => cases left

end Quill
