import Quill.Proofs.Nesting.Chain
import Quill.Proofs.Tree.ReadBack

/-!
# Handing trees over

A tree is handed over as JSON text. What the reader makes of the text is settled for every tree
(`blockOfText?_render`): up to `maxNesting` levels of arrays and objects the tree comes back, with
each number as its text is read, and beyond them the text is refused. So a tree whose numbers are
read as themselves comes back as it was, and two such trees never share a text
(`written_tree_reads_back`).

The nesting limit of the parser is no bound on those levels. Every operator of a chain puts its left
operand one level deeper, but the chain is one expression and opens no level for the parser, so
there are texts within the limit whose trees nest as deep as one likes (`handoff_iff_nesting`).
-/

namespace Quill

/-! ## Written trees are plain -/

section

variable {P : Decimal → Prop} {fields : List (String × Json)}

/-- A node is plain exactly if its fields are. -/
lemma plain_node {form : String} :
    (node form fields).Plain P ↔ ∀ f ∈ fields, f.2.Plain P := by
  rw [node, Json.plain_record, List.forall_mem_cons]
  exact and_iff_right (Json.plain_text form)

/-- The record of a block is plain exactly if its statements are. -/
lemma plain_blockRecord {statements : List Json} :
    (blockRecord statements).Plain P ↔ ∀ v ∈ statements, v.Plain P := by
  rw [blockRecord, Json.plain_record, List.forall_mem_singleton, Json.plain_array]

/-- Texts are plain. -/
lemma plain_texts (ss : List String) : ∀ v ∈ ss.map Json.text, v.Plain P := by
  intro v hv
  obtain ⟨s, _, rfl⟩ := List.mem_map.1 hv
  exact Json.plain_text s

mutual

/-- What holds of the text of every double holds of the numbers in a written expression. -/
theorem Expr.plain_toJson (hP : ∀ x, P (Layout.data.write x)) : ∀ e : Expr, e.toJson.Plain P
  | .binary op l r => by
    rw [Expr.toJson, plain_node]
    simp only [List.forall_mem_cons]
    exact ⟨Json.plain_text _, l.plain_toJson hP, r.plain_toJson hP, nofun⟩
  | .unary op e => by
    rw [Expr.toJson, plain_node]
    simp only [List.forall_mem_cons]
    exact ⟨Json.plain_text _, e.plain_toJson hP, nofun⟩
  | .number x => by
    rw [Expr.toJson, plain_node, List.forall_mem_singleton, Double.toJson, Json.Plain]
    exact hP x
  | .string s => by
    rw [Expr.toJson, plain_node, List.forall_mem_singleton]
    exact Json.plain_text s
  | .bool b => by
    rw [Expr.toJson, plain_node, List.forall_mem_singleton, Json.Plain]
    trivial
  | .none => by
    rw [Expr.toJson, plain_node]
    nofun
  | .ref x => by
    rw [Expr.toJson, plain_node, List.forall_mem_singleton]
    exact Json.plain_text x
  | .call f args => by
    rw [Expr.toJson, plain_node]
    simp only [List.forall_mem_cons, Json.plain_array]
    exact ⟨Json.plain_text f, Expr.plain_toJsonAll hP args, nofun⟩

/-- Every expression of a list is written plainly. -/
theorem Expr.plain_toJsonAll (hP : ∀ x, P (Layout.data.write x)) :
    ∀ es : List Expr, ∀ v ∈ Expr.toJsonAll es, v.Plain P
  | [] => by
    rw [Expr.toJsonAll]
    nofun
  | e :: es => by
    rw [Expr.toJsonAll, List.forall_mem_cons]
    exact ⟨e.plain_toJson hP, Expr.plain_toJsonAll hP es⟩

end

mutual

/-- So it does of those in a written statement. -/
theorem Stmt.plain_toJson (hP : ∀ x, P (Layout.data.write x)) : ∀ s : Stmt, s.toJson.Plain P
  | .assign scope x e => by
    rw [Stmt.toJson, plain_node]
    simp only [List.forall_mem_cons]
    exact ⟨Json.plain_text x, e.plain_toJson hP, nofun⟩
  | .declare f params body => by
    rw [Stmt.toJson, plain_node]
    simp only [List.forall_mem_cons, Json.plain_array, plain_blockRecord]
    exact ⟨Json.plain_text f, plain_texts params, Stmt.plain_toJsonAll hP body, nofun⟩
  | .giveBack e => by
    rw [Stmt.toJson, plain_node, List.forall_mem_singleton]
    exact e.plain_toJson hP
  | .conditional branches otherwise => by
    rw [Stmt.toJson, plain_node]
    simp only [List.forall_mem_cons, Json.plain_array]
    exact ⟨Branch.plain_toJsonAll hP branches, Stmt.plain_toJsonOrNull hP otherwise, nofun⟩
  | .loop c body => by
    rw [Stmt.toJson, plain_node]
    simp only [List.forall_mem_cons, plain_blockRecord]
    exact ⟨c.plain_toJson hP, Stmt.plain_toJsonAll hP body, nofun⟩
  | .print e => by
    rw [Stmt.toJson, plain_node, List.forall_mem_singleton]
    exact e.plain_toJson hP
  | .expression e => by
    rw [Stmt.toJson, plain_node, List.forall_mem_singleton]
    exact e.plain_toJson hP

/-- Every statement of a block is written plainly. -/
theorem Stmt.plain_toJsonAll (hP : ∀ x, P (Layout.data.write x)) :
    ∀ ss : List Stmt, ∀ v ∈ Stmt.toJsonAll ss, v.Plain P
  | [] => by
    rw [Stmt.toJsonAll]
    nofun
  | s :: ss => by
    rw [Stmt.toJsonAll, List.forall_mem_cons]
    exact ⟨s.plain_toJson hP, Stmt.plain_toJsonAll hP ss⟩

/-- The last arm of a conditional is written plainly. -/
theorem Stmt.plain_toJsonOrNull (hP : ∀ x, P (Layout.data.write x)) :
    ∀ o : Option (List Stmt), (Stmt.toJsonOrNull o).Plain P
  | .none => by
    rw [Stmt.toJsonOrNull, Json.Plain]
    trivial
  | .some body => by
    rw [Stmt.toJsonOrNull, plain_blockRecord]
    exact Stmt.plain_toJsonAll hP body

/-- An arm is written plainly. -/
theorem Branch.plain_toJson (hP : ∀ x, P (Layout.data.write x)) : ∀ b : Branch, b.toJson.Plain P
  | .arm c body => by
    rw [Branch.toJson, Json.plain_record]
    simp only [List.forall_mem_cons, plain_blockRecord]
    exact ⟨c.plain_toJson hP, Stmt.plain_toJsonAll hP body, nofun⟩

/-- Every arm of a conditional is written plainly. -/
theorem Branch.plain_toJsonAll (hP : ∀ x, P (Layout.data.write x)) :
    ∀ bs : List Branch, ∀ v ∈ Branch.toJsonAll bs, v.Plain P
  | [] => by
    rw [Branch.toJsonAll]
    nofun
  | b :: bs => by
    rw [Branch.toJsonAll, List.forall_mem_cons]
    exact ⟨b.plain_toJson hP, Branch.plain_toJsonAll hP bs⟩

end

end

/-! ## Programs -/

/-- The nesting of a written block, by that of its statements. -/
lemma nesting_blockToJson (b : Block) :
    (blockToJson b).nesting = (Json.array (Stmt.toJsonAll b)).nesting + 1 := by
  simp [blockToJson, blockRecord, Json.record, Json.nesting, Json.nestingOfMembers]

/-- The root of a written tree holds its statements. -/
lemma rootStatements?_blockToJson (b : Block) :
    rootStatements? (blockToJson b) = some (.array (Stmt.toJsonAll b)) := by
  simp [rootStatements?, blockToJson, blockRecord, Json.record, Json.fieldAt?, Json.valuesAt]

/-- Nothing in a written block is refused on sight. -/
lemma readable_toJsonAll (b : Block) : (Json.array (Stmt.toJsonAll b)).readable = true := by
  refine Json.Plain.readable (P := fun d => (Json.double? d).isSome) (fun _ h => h) ?_
  rw [Json.plain_array]
  refine Stmt.plain_toJsonAll (fun x => ?_) b
  rw [Double.double?_write]
  rfl

/-- The root block is read back exactly up to the greatest nesting. -/
theorem readProgram?_blockToJson (b : Block) :
    readProgram? (blockToJson b) =
      if (blockToJson b).nesting ≤ maxNesting then some (rereadBlock b) else none := by
  rw [readProgram?, rootStatements?_blockToJson, nesting_blockToJson, Option.bind_eq_bind,
    Option.bind_some]
  by_cases shallow : (Json.array (Stmt.toJsonAll b)).nesting < maxNesting
  · have inner : ∀ v ∈ Stmt.toJsonAll b, v.nesting ≤ maxNesting := by
      obtain ⟨m, hm, each⟩ := Json.nesting_array_le shallow.le
      intro v hv
      have := each v hv
      omega
    rw [if_pos ⟨readable_toJsonAll b, shallow⟩, if_pos (Nat.succ_le_of_lt shallow), asItems?_array]
    exact readStmt?_toJsonAll b true maxNesting inner
  · rw [if_neg fun h => shallow h.2, if_neg fun h => shallow (Nat.lt_of_succ_le h)]

/-- What the reader makes of the text of a tree, in every style. -/
theorem blockOfText?_render {style : Json.Style} (hs : style.Blank) (b : Block) :
    blockOfText? ((blockToJson b).render style) =
      if (blockToJson b).nesting ≤ maxNesting then some (rereadBlock b) else none := by
  have spelled : (blockToJson b).Plain Decimal.IsJson := by
    rw [blockToJson, plain_blockRecord]
    exact Stmt.plain_toJsonAll (fun x => (Layout.isJson_write x).1) b
  rw [blockOfText?, Json.parse?_render hs spelled.numbers, Option.bind_some,
    readProgram?_blockToJson]

/-- Every number of the block is read from its text as itself. -/
def Block.NumbersReadBack (b : Block) : Prop :=
  ∀ e ∈ Stmt.exprsOfAll b, ∀ x ∈ e.numbers, Json.double? (Layout.data.write x) = some x

/-- A block whose numbers are all read as themselves is read back as itself. -/
lemma Block.NumbersReadBack.rereadBlock_eq {b : Block} (h : b.NumbersReadBack) :
    rereadBlock b = b := by
  apply Stmt.mapExprsOfAll_eq_self
  intro e he
  apply Expr.mapNumbers_eq_self
  intro x hx
  have read := x.double?_write
  rw [h e he x hx] at read
  exact (Option.some.inj read).symm

/-- The layouts that trees are handed over in. -/
def handoffStyles : List Json.Style :=
  [.compact, .pretty]

/-- The layouts that trees are handed over in add nothing but white space. -/
lemma blank_of_mem_handoffStyles {style : Json.Style} (h : style ∈ handoffStyles) :
    style.Blank := by
  obtain rfl | h := List.mem_cons.1 h
  · exact Json.Style.blank_compact
  · obtain rfl := List.mem_singleton.1 h
    exact Json.Style.blank_pretty

/-- A block that nests no deeper than text may, and whose numbers are read from their texts as
themselves, comes back from its compact and from its pretty text, no matter whether it was parsed.
So two different blocks of this kind have different texts. -/
theorem written_tree_reads_back (b : Block) (shallow : (blockToJson b).nesting ≤ maxNesting)
    (codec : b.NumbersReadBack) :
    blockOfText? ((blockToJson b).render .compact) = some b ∧
      blockOfText? ((blockToJson b).render .pretty) = some b ∧
      ∀ b' : Block, (blockToJson b').nesting ≤ maxNesting → b'.NumbersReadBack →
        ∀ style ∈ handoffStyles, ∀ style' ∈ handoffStyles,
          (blockToJson b).render style = (blockToJson b').render style' → b = b' := by
  have back (b : Block) (shallow : (blockToJson b).nesting ≤ maxNesting)
      (codec : b.NumbersReadBack) (style : Json.Style) (hs : style.Blank) :
      blockOfText? ((blockToJson b).render style) = some b := by
    rw [blockOfText?_render hs, if_pos shallow, codec.rereadBlock_eq]
  refine ⟨back b shallow codec _ Json.Style.blank_compact,
    back b shallow codec _ Json.Style.blank_pretty, ?_⟩
  intro b' shallow' codec' style hs style' hs' same
  have left := back b shallow codec style (blank_of_mem_handoffStyles hs)
  have right := back b' shallow' codec' style' (blank_of_mem_handoffStyles hs')
  rw [same, right] at left
  exact (Option.some.inj left).symm

/-- A block that no text parses to: a conditional without arms, a negative number, and a name with a
line break in it. -/
def unparsable : Block :=
  [.conditional [] none,
    .print (.binary .div (.number ⟨true, 3 * twoTo 51, 1022, by decide, by decide, by decide⟩)
      (.ref "a\n"))]

/-- The block that no text parses to is read back from both of its texts. -/
theorem unparsable_reads_back :
    blockOfText? ((blockToJson unparsable).render .compact) = some unparsable ∧
      blockOfText? ((blockToJson unparsable).render .pretty) = some unparsable ∧
      ∀ b' : Block, (blockToJson b').nesting ≤ maxNesting → b'.NumbersReadBack →
        ∀ style ∈ handoffStyles, ∀ style' ∈ handoffStyles,
          (blockToJson unparsable).render style = (blockToJson b').render style' →
          unparsable = b' := by
  refine written_tree_reads_back unparsable (by decide) ?_
  have codec : ∀ e ∈ Stmt.exprsOfAll unparsable, ∀ x ∈ e.numbers,
      Json.double? (Layout.data.write x) = some x := by decide +kernel
  exact codec

/-! ## Programs that nest deep -/

/-- Every operator of a chain is one level of nesting. -/
lemma lt_nesting_chain {n m : Nat} (h : (chain n).toJson.nesting ≤ m) : n < m := by
  induction n generalizing m with
  | zero =>
    rw [chain, Expr.toJson] at h
    obtain ⟨m, rfl, _⟩ := nesting_node_le h
    exact Nat.succ_pos m
  | succ n ih =>
    rw [chain, Expr.toJson] at h
    obtain ⟨m, rfl, inner⟩ := nesting_node_le h
    simp only [List.forall_mem_cons] at inner
    exact Nat.succ_lt_succ (ih inner.2.1)

/-- A parsed program within the default limit can nest as deep as one likes. -/
lemma exists_deep_program (n : Nat) :
    ∃ source b, parseText {} source = .ok b ∧ n < (blockToJson b).nesting := by
  obtain ⟨source, parsed⟩ := exists_chain_source .distinct n
  refine ⟨source, [.print (chain n)], parsed 128 (by decide), ?_⟩
  by_contra shallow
  obtain ⟨m, hm, each⟩ := nesting_blockRecord_le (Nat.le_of_not_lt shallow)
  have statement := each _ List.mem_cons_self
  rw [Stmt.toJson] at statement
  obtain ⟨k, hk, inner⟩ := nesting_node_le statement
  have := lt_nesting_chain (inner _ List.mem_cons_self)
  omega

/-- The text of a tree is read back exactly if the tree nests no deeper than text may, and then to
the same tree with each number as its text is read. The parser's limit does not see to that: some
programs within it have trees that nest deeper than any given bound. -/
theorem handoff_iff_nesting :
    (∀ (b : Block), ∀ style ∈ handoffStyles,
      ((∃ b', blockOfText? ((blockToJson b).render style) = some b') ↔
        (blockToJson b).nesting ≤ maxNesting) ∧
      ∀ b', blockOfText? ((blockToJson b).render style) = some b' → b' = rereadBlock b) ∧
    ∀ n, ∃ source b, parseText {} source = .ok b ∧ n < (blockToJson b).nesting := by
  refine ⟨fun b style hs => ?_, exists_deep_program⟩
  rw [blockOfText?_render (blank_of_mem_handoffStyles hs)]
  by_cases shallow : (blockToJson b).nesting ≤ maxNesting
  · rw [if_pos shallow]
    exact ⟨⟨fun _ => shallow, fun _ => ⟨_, rfl⟩⟩, fun _ same => (Option.some.inj same).symm⟩
  · rw [if_neg shallow]
    exact ⟨⟨nofun, fun h => absurd h shallow⟩, nofun⟩

/-- Not every tree of a program within the default limit is read back from its text. -/
theorem not_every_program_handed_off :
    ¬ ∀ source b, parseText {} source = .ok b → ∀ style ∈ handoffStyles,
      ∃ b', blockOfText? ((blockToJson b).render style) = some b' := by
  intro every
  obtain ⟨source, b, parsed, deep⟩ := exists_deep_program maxNesting
  obtain ⟨b', read⟩ := every source b parsed .compact List.mem_cons_self
  rw [blockOfText?_render Json.Style.blank_compact, if_neg (Nat.not_le_of_lt deep)] at read
  cases read

end Quill
