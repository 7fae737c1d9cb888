import Quill.Proofs.Tree.Handoff

/-!
# Every spelling of a written tree

The reader of blocks takes every text that writes the block in an equivalent way, and gives the same
block for all of them. It refuses every text in which one record has lost a field that it needs, or
has one twice, no matter how deep the record stands (`spellings_read_back`).

Beside its own members a record may hold others, but they are not passed over unread. Below the
root, the key must be text, and so must be a string under it; a number must be in the range of
doubles. At the root only the key is looked at (`Block.Respelled`).
-/

namespace Quill

/-- The value writes the block in an equivalent way. -/
inductive Block.Respelled (b : Block) : Json → Prop where
  | root {statements others ms} :
    Json.Rewritten Json.Harmless true (.array (Stmt.toJsonAll b)) statements →
    (∀ m ∈ others, m.1.isSome = true ∧ m.1 ≠ some "statements" ∧ m.2.IsScalar) →
    ((some "statements", statements) :: others).Perm ms →
    Block.Respelled b (.object ms)

/-- The value writes the block with at least one record that lacks a field or has one twice,
whatever else stands beside the members. -/
def Block.Damaged (b : Block) (v : Json) : Prop :=
  Json.Rewritten (fun _ _ => True) false (blockToJson b) v

section

variable {b : Block} {v : Json}

/-- There is room for every statement. -/
lemma nesting_statement_le (shallow : (blockToJson b).nesting ≤ maxNesting) :
    ∀ s ∈ Stmt.toJsonAll b, s.nesting ≤ maxNesting := by
  obtain ⟨m, hm, each⟩ := nesting_blockRecord_le shallow
  intro s hs
  have := each s hs
  omega

/-- The root of a value that writes a block holds its statements, written in an equivalent way. -/
lemma rootStatements?_respelled (h : b.Respelled v) :
    ∃ statements, rootStatements? v = some statements ∧
      Json.Rewritten Json.Harmless true (.array (Stmt.toJsonAll b)) statements := by
  cases h with
  | @root statements others ms rewritten beside perm =>
    refine ⟨statements, ?_, rewritten⟩
    have foreign : some "statements" ∉ others.map Prod.fst := by
      intro mem
      obtain ⟨m, hm, same⟩ := List.mem_map.1 mem
      exact (beside m hm).2.1 same
    have values : (Json.valuesAt "statements" ms).Perm [statements] := by
      have all := @Json.valuesAt_perm "statements" _ _ perm.symm
      have own : Json.valuesAt "statements" ((some "statements", statements) :: others) =
          statements :: Json.valuesAt "statements" others := rfl
      rwa [own, Json.valuesAt_eq_nil foreign] at all
    have found : Json.fieldAt? ms "statements" = some (some statements) :=
      Json.fieldAt?_of_perm values
    have text : ms.all (·.1.isSome) = true := by
      rw [List.all_eq_true]
      intro m hm
      obtain rfl | hm := List.mem_cons.1 (perm.mem_iff.2 hm)
      · rfl
      · exact (beside m hm).1
    rw [rootStatements?, if_pos text, found]
    rfl

/-- A respelled block is read as the block. -/
theorem readProgram?_respelled (shallow : (blockToJson b).nesting ≤ maxNesting)
    (h : b.Respelled v) : readProgram? v = some (rereadBlock b) := by
  obtain ⟨statements, root, rewritten⟩ := rootStatements?_respelled h
  -- The root's own object is one level, and what stands beside the statements counts for nothing.
  rw [nesting_blockToJson] at shallow
  have fits : statements.Fits (maxNesting - 1) :=
    rewritten.fits rfl ⟨readable_toJsonAll b, Nat.le_sub_one_of_lt shallow⟩
  have below : statements.nesting < maxNesting := Nat.lt_of_le_pred (by decide) fits.nesting
  rw [← nesting_blockToJson] at shallow
  obtain ⟨vs, rfl, items⟩ := rewritten.array
  have read := readStmt?_rewrittenAll b true maxNesting (nesting_statement_le shallow) _ _ items
  rw [readProgram?, root, Option.bind_eq_bind, Option.bind_some, if_pos ⟨fits.readable, below⟩,
    asItems?_array]
  exact read

/-- The root of a rewritten block has its statements, rewritten, or none that are read. -/
lemma rootStatements?_rewritten {extra : Option String → Json → Prop} {intact : Bool}
    (h : Json.Rewritten extra intact (blockToJson b) v) :
    rootStatements? v = none ∨ ∃ vs, rootStatements? v = some (.array vs) ∧
      Json.RewrittenItems extra intact (Stmt.toJsonAll b) vs := by
  rw [blockToJson, blockRecord] at h
  obtain ⟨ns, rfl⟩ := Json.Rewritten.object h
  have fields : (Json.object ns).fields? ["statements"] =
      (Json.fieldAt? ns "statements").map ([·]) := by
    rw [Json.fields?, List.mapM_cons, List.mapM_nil]
    cases Json.fieldAt? ns "statements" <;> rfl
  rw [rootStatements?]
  split
  · obtain ⟨_, refused⟩ | ⟨left, found, members⟩ := Json.fields?_rewritten (by simp) h
    · rw [List.map_singleton, fields, Option.map_eq_none_iff] at refused
      exact .inl (by rw [refused]; rfl)
    · rw [List.map_singleton, fields] at found
      obtain ⟨o, field, rfl⟩ := Option.map_eq_some_iff.1 found
      rw [field]
      obtain ⟨_, missing⟩ | ⟨ws, same, items⟩ := members.complete (by simp)
      · rw [← List.mem_singleton.1 missing]
        exact .inl rfl
      · obtain _ | ⟨statements, _ | _⟩ := items
        obtain ⟨vs, rfl, items⟩ := statements.array
        cases same
        exact .inr ⟨vs, rfl, by rwa [Bool.and_true]⟩
  · exact .inl rfl

/-- A damaged block is refused. -/
theorem readProgram?_damaged (shallow : (blockToJson b).nesting ≤ maxNesting)
    (h : b.Damaged v) : readProgram? v = none := by
  obtain refused | ⟨vs, found, items⟩ := rootStatements?_rewritten h
  · rw [readProgram?, refused]
    rfl
  · have read := readStmt?_rewrittenAll b true maxNesting (nesting_statement_le shallow) _ _ items
    rw [readProgram?, found, Option.bind_eq_bind, Option.bind_some, asItems?_array]
    split
    · exact read
    · rfl

end

/-- A block that nests no deeper than text may, and whose numbers are read from their texts as
themselves, is read from every text that writes it in an equivalent way: with any white space
between its pieces, any escapes in its strings, the members of each record in any order, others
beside them, and no key for a last arm that is not there. Where a record lacks a field it needs, its
tag included, or has one of its own twice, the whole text is refused, whatever else is in it. -/
theorem spellings_read_back (b : Block) (shallow : (blockToJson b).nesting ≤ maxNesting)
    (codec : b.NumbersReadBack) :
    (∀ v text, b.Respelled v → v.SpelledBy text → blockOfText? text = some b) ∧
      ∀ v text, b.Damaged v → v.SpelledBy text → blockOfText? text = none := by
  constructor
  · intro v text respelled spelled
    rw [blockOfText?, Json.parse?_of_spelledBy spelled, Option.bind_some,
      readProgram?_respelled shallow respelled, codec.rereadBlock_eq]
  · intro v text damaged spelled
    rw [blockOfText?, Json.parse?_of_spelledBy spelled, Option.bind_some,
      readProgram?_damaged shallow damaged]

/-! ## A conditional without arms -/

/-- A number beyond every double. -/
def beyondDoubles : Decimal :=
  ⟨false, ['1'], none, some ⟨'e', none, ['9', '9', '9']⟩⟩

/-- The number beyond every double is well-formed JSON. -/
lemma isJson_beyondDoubles : beyondDoubles.IsJson where
  whole := by simp [beyondDoubles, AreDigits]
  ne_nil := by decide
  leading := by decide
  fraction := nofun
  exponent := by
    rintro _ ⟨⟩
    exact ⟨.inl rfl, .inl rfl, by simp [AreDigits], by decide⟩

/-- A conditional without arms that has its tag behind its field, another key in front, and nothing
said about a last arm. Beside the statements stands a number that is not read. -/
def respelledArmless : Json :=
  .object [(some "x", .number beyondDoubles),
    (some "statements", .array [.object [(some "y", .null), (some "branches", .array []),
      (some "kind", .text "conditional")]])]

/-- The spelling without a last arm writes the conditional in an equivalent way. -/
lemma respelled_armless : Block.Respelled [.conditional [] none] respelledArmless := by
  have beside : ∀ m ∈ [(some "y", Json.null)], Json.Harmless m.1 m.2 ∧
      m.1 ∉ [some "kind", some "branches", some "otherwise"] :=
    List.forall_mem_singleton.2 ⟨⟨rfl, trivial, rfl⟩, by decide⟩
  have statement : Json.Rewritten Json.Harmless true (Stmt.conditional [] none).toJson
      (.object [(some "y", .null), (some "branches", .array []),
        (some "kind", .text "conditional")]) :=
    .members (.keep (.scalar (Json.isScalar_text _)) (.keep (.items .nil) (.leave .nil)))
      (List.forall_mem_nil _) beside (List.reverse_perm _).symm
  have atRoot : ∀ m ∈ [(some "x", Json.number beyondDoubles)],
      m.1.isSome = true ∧ m.1 ≠ some "statements" ∧ m.2.IsScalar :=
    List.forall_mem_singleton.2 ⟨rfl, by decide, trivial⟩
  exact .root (.items (.cons statement .nil)) atRoot (.swap _ _ [])

/-- The first letter of its tag may be escaped. -/
lemma respelledArmless_spelledBy :
    respelledArmless.SpelledBy ("\x7b \"x\":1e999,\"statements\":[\x7b\"y\":null," ++
      "\"branches\":[],\"\\u006bind\":\"conditional\"\x7d]\x7d") := by
  have quoted (s : String) := Json.spellsPiece_renderString (some s)
  have k : Json.SpellsUnit 'k'.toNat "\\u006b".toList :=
    @Json.SpellsUnit.digits _ _ _ _ 0 0 6 11 (.inl rfl) (.inl rfl) (.inl rfl) (.inl rfl)
  have tag : Json.SpellsString ((some "kind").map String.toList) "\\u006bind".toList :=
    .char (.unit k) (Json.spellsString_escaped ['i', 'n', 'd'])
  have kind : Json.SpellsPiece (.string (some "kind")) "\"\\u006bind\"".toList := .string tag
  have blank : ∀ c ∈ [' '], Json.isSpace c = true := List.forall_mem_singleton.2 rfl
  exact .piece .beginObject <| .cons blank (quoted "x") <| .piece .colon <|
    .piece (.number isJson_beyondDoubles) <| .piece .comma <| .piece (quoted "statements") <|
    .piece .colon <| .piece .beginArray <| .piece .beginObject <| .piece (quoted "y") <|
    .piece .colon <| .piece .null <| .piece .comma <| .piece (quoted "branches") <|
    .piece .colon <| .piece .beginArray <| .piece .endArray <| .piece .comma <| .piece kind <|
    .piece .colon <| .piece (quoted "conditional") <| .piece .endObject <| .piece .endArray <|
    .piece .endObject <| .nil (List.forall_mem_nil _)

/-- Its tag is left out. -/
def untaggedArmless : Json :=
  .object [(some "statements", .array [.object [(some "branches", .array [])]])]

/-- The spelling without a tag is damaged. -/
lemma damaged_armless : Block.Damaged [.conditional [] none] untaggedArmless := by
  have statement : Json.Rewritten (fun _ _ => True) false (Stmt.conditional [] none).toJson
      (.object [(some "branches", .array [])]) :=
    .members (.drop (by decide) (.keep (.items .nil) (.leave .nil)))
      (List.forall_mem_nil _) (List.forall_mem_nil _) (.refl _)
  exact .members (.keep (.items (.cons statement .nil)) .nil)
    (List.forall_mem_nil _) (List.forall_mem_nil _) (.refl _)

/-- The conditional without arms is read from the one spelling and refused from the other. -/
theorem armless_spellings :
    blockOfText? ("\x7b \"x\":1e999,\"statements\":[\x7b\"y\":null," ++
        "\"branches\":[],\"\\u006bind\":\"conditional\"\x7d]\x7d") =
        some [.conditional [] none] ∧
      blockOfText? "\x7b\"statements\":[\x7b\"branches\":[]\x7d]\x7d" = none := by
  obtain ⟨reads, refuses⟩ :=
    spellings_read_back [.conditional [] none] (by decide) (List.forall_mem_nil _)
  constructor
  · exact reads _ _ respelled_armless respelledArmless_spelledBy
  · apply refuses _ _ damaged_armless
    exact @Json.spelledBy_render .compact Json.Style.blank_compact _ nofun

/-! ## Scalars that may not stand beside -/

/-- Members with scalar values that no record below the root may have beside its own: a number
beyond the doubles, a string that is no text, and a key that is none. -/
def refusedBeside : List (Option String × Json) :=
  [(some "x", .number beyondDoubles), (some "x", .string none), (none, .null)]

/-- A program that prints the literal without a value, with another member beside the tag of the
literal. -/
def printBeside (m : Option String × Json) : Json :=
  .object [(some "statements", .array [.object [(some "kind", .text "print"),
    (some "value", .object [(some "kind", .text "none_literal"), m])]])]

section

variable {m : Option String × Json}

/-- The member beside the tag is all that differs from the tree as it is written. -/
lemma rewritten_printBeside (hm : m ∈ refusedBeside) :
    Json.Rewritten (fun k w => (k, w) = m) true (blockToJson [.print .none]) (printBeside m) := by
  have foreign : ∀ m ∈ refusedBeside, m.1 ∉ [some "kind"] := by decide
  have beside : ∀ m' ∈ [m], (m'.1, m'.2) = m ∧ m'.1 ∉ [some "kind"] :=
    List.forall_mem_singleton.2 ⟨rfl, foreign m hm⟩
  have literal : Json.Rewritten (fun k w => (k, w) = m) true Expr.none.toJson
      (.object [(some "kind", .text "none_literal"), m]) :=
    .members (.keep (.scalar (Json.isScalar_text _)) .nil) (List.forall_mem_nil _) beside (.refl _)
  have statement : Json.Rewritten (fun k w => (k, w) = m) true (Stmt.print .none).toJson
      (.object [(some "kind", .text "print"),
        (some "value", .object [(some "kind", .text "none_literal"), m])]) :=
    .members (.keep (.scalar (Json.isScalar_text _)) (.keep literal .nil))
      (List.forall_mem_nil _) (List.forall_mem_nil _) (.refl _)
  exact .members (.keep (.items (.cons statement .nil)) .nil)
    (List.forall_mem_nil _) (List.forall_mem_nil _) (.refl _)

/-- The value with the member beside the tag is spelled by its compact text. -/
lemma printBeside_spelledBy (hm : m ∈ refusedBeside) :
    (printBeside m).SpelledBy ((printBeside m).render .compact) := by
  have numbers : ∀ m ∈ refusedBeside, ∀ d ∈ m.2.numbers, d.IsJson := by
    simp [refusedBeside, Json.numbers, isJson_beyondDoubles]
  apply Json.spelledBy_render Json.Style.blank_compact
  simpa [printBeside, Json.numbers, Json.numbersOfMembers, Json.numbersOfItems, Json.text] using
    numbers m hm

/-- With one of the members beside its tag, the literal is refused. -/
lemma readProgram?_printBeside : ∀ m ∈ refusedBeside, readProgram? (printBeside m) = none := by
  decide +kernel

end

/-- Not every scalar may stand beside the members of a record. -/
theorem not_every_scalar_beside :
    (∀ m ∈ refusedBeside, m.2.IsScalar) ∧
      ¬ ∃ m ∈ refusedBeside, ∀ b : Block, (blockToJson b).nesting ≤ maxNesting →
        b.NumbersReadBack → ∀ v text,
          Json.Rewritten (fun k w => (k, w) = m) true (blockToJson b) v → v.SpelledBy text →
          blockOfText? text = some b := by
  constructor
  · simp [refusedBeside, Json.IsScalar]
  · rintro ⟨m, hm, accepted⟩
    have codec : Block.NumbersReadBack [.print .none] := by
      simp [Block.NumbersReadBack, Stmt.exprsOfAll, Stmt.exprs, Expr.numbers]
    have read := accepted [.print .none] (by decide) codec _ _ (rewritten_printBeside hm)
      (printBeside_spelledBy hm)
    rw [blockOfText?, Json.parse?_of_spelledBy (printBeside_spelledBy hm), Option.bind_some,
      readProgram?_printBeside m hm] at read
    cases read

end Quill
