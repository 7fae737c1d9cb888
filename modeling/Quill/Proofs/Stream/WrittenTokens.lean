import Quill.Grammar.Parser
import Quill.Proofs.Lexical.Places
import Quill.Proofs.Tree.Handoff
import Quill.Token.Written

/-!
# Handing tokens over

A token comes back from the text it is written as (`ofJson?_toJson`): the tag tells the form of its
kind, and each form has a payload of one sort. So tokens can be lexed in one place and parsed in
another, and the parse is that of the source itself (`tokens_survive_json`).
-/

namespace Quill

/-- The number of a kind, if it has one, is read from its text as itself. -/
def Kind.NumberReadsBack : Kind → Prop
  | .number x => Json.double? (Layout.data.write x) = some x
  | _ => True

/-- Whether the number of a kind is read back can be computed. -/
instance : DecidablePred Kind.NumberReadsBack
  | .number x => inferInstanceAs (Decidable (Json.double? (Layout.data.write x) = some x))
  | .string _ | .word _ | .operator _ | .mark _ | .endOfInput => inferInstanceAs (Decidable True)

/-- The numbers of a place have no more than 64 bits. -/
structure Position.Fits (p : Position) : Prop where
  offset : p.offset < wordLimit
  line : p.line < wordLimit
  column : p.column < wordLimit

/-- Whether the numbers of a place fit can be computed. -/
instance : DecidablePred Position.Fits := fun p =>
  decidable_of_iff (p.offset < wordLimit ∧ p.line < wordLimit ∧ p.column < wordLimit)
    ⟨fun ⟨offset, line, column⟩ => ⟨offset, line, column⟩,
      fun ⟨offset, line, column⟩ => ⟨offset, line, column⟩⟩

/-! ## Reading what is written -/

/-- A number of 64 bits is read from its decimal. -/
lemma word64?_ofNat {n : Nat} (h : n < wordLimit) : Json.word64? (.ofNat n) = some n := by
  have value : digitsValue (Decimal.ofNat n).whole = n := digitsValue_digitsOf n
  rw [Json.word64?, value]
  exact if_pos ⟨rfl, rfl, rfl, h⟩

/-- A number of 64 bits is read from its value. -/
lemma asWord64?_nat {n : Nat} (h : n < wordLimit) : (Json.nat n).asWord64? = some n :=
  word64?_ofNat h

namespace Position

/-- A place is read from what it is written as. -/
lemma ofJson?_toJson {p : Position} (h : p.Fits) : ofJson? p.toJson = some p := by
  simp [ofJson?, toJson, Json.fields?, Json.record, Json.fieldAt?, Json.valuesAt,
    asWord64?_nat h.offset, asWord64?_nat h.line, asWord64?_nat h.column]

/-- A place is written plainly. -/
lemma plain_toJson (p : Position) : p.toJson.Plain Decimal.IsJson := by
  rw [toJson, Json.plain_record]
  simp only [List.forall_mem_cons, Json.nat, Json.Plain]
  exact ⟨isJson_ofNat _, isJson_ofNat _, isJson_ofNat _, List.forall_mem_nil _⟩

end Position

/-- The form of a kind is told by its name. -/
lemma caseNamed?_kindForm (form : KindForm) :
    Json.caseNamed? true KindForm.ofName? (.text form.name) = some form := by
  cases form <;> decide

/-- An operator is told by its name. -/
lemma caseNamed?_operator (op : Operator) :
    Json.caseNamed? true Operator.ofName? (.text op.name) = some op := by
  cases op <;> decide

/-- A mark is told by its name. -/
lemma caseNamed?_mark (m : Mark) : Json.caseNamed? true Mark.ofName? (.text m.name) = some m := by
  cases m <;> decide

namespace Kind

/-- The form of a kind and its payload tell the kind. -/
lemma ofPayload?_payload? {k : Kind} (h : k.NumberReadsBack) :
    ofPayload? k.form k.payload? = some k := by
  cases k with
  | number x =>
    have read : x.toJson.asDouble? = some x := h
    rw [form, payload?, ofPayload?, read, Option.map_some]
  | string s => rfl
  | word w => rfl
  | operator op => rw [form, payload?, ofPayload?, caseNamed?_operator, Option.map_some]
  | mark m => rw [form, payload?, ofPayload?, caseNamed?_mark, Option.map_some]
  | endOfInput => rfl

/-- The payload of a kind is written plainly. -/
lemma plain_payload? (k : Kind) : ∀ v ∈ k.payload?, v.Plain Decimal.IsJson := by
  cases k with
  | number x =>
    rintro _ ⟨⟩
    rw [Double.toJson, Json.Plain]
    exact (Layout.isJson_write x).1
  | endOfInput => nofun
  | _ =>
    rintro _ ⟨⟩
    exact Json.plain_text _

end Kind

namespace Token

/-- What a token is written as is read as that token. -/
theorem ofJson?_toJson {t : Token} (number : t.kind.NumberReadsBack) (place : t.position.Fits) :
    ofJson? t.toJson = some t := by
  have tag := caseNamed?_kindForm t.kind.form
  have kind := Kind.ofPayload?_payload? number
  have position := Position.ofJson?_toJson place
  -- Whether there is a payload, each of the keys stands once or not at all.
  cases payload : t.kind.payload? with
  | none =>
    rw [payload] at kind
    simp [ofJson?, toJson, Json.record, Json.fieldAt?, Json.valuesAt, payload, tag, kind, position,
      asText?_text]
  | some v =>
    rw [payload] at kind
    simp [ofJson?, toJson, Json.record, Json.fieldAt?, Json.valuesAt, payload, tag, kind, position,
      asText?_text]

/-- A token is written plainly. -/
lemma plain_toJson (t : Token) : t.toJson.Plain Decimal.IsJson := by
  rw [toJson, Json.plain_record, List.forall_mem_cons, List.forall_mem_append]
  refine ⟨Json.plain_text _, fun field hf => ?_, ?_⟩
  · obtain ⟨v, hv, rfl⟩ := List.mem_map.1 hf
    exact t.kind.plain_payload? v (Option.mem_toList.1 hv)
  · simp only [List.forall_mem_cons]
    exact ⟨Json.plain_text _, t.position.plain_toJson, List.forall_mem_nil _⟩

/-- A token comes back from its text, whatever the layout. -/
theorem ofJson?_parse? {style : Json.Style} (hs : style.Blank) {t : Token}
    (number : t.kind.NumberReadsBack) (place : t.position.Fits) :
    (Json.parse? (t.toJson.render style)).bind ofJson? = some t := by
  rw [Json.parse?_render hs t.plain_toJson.numbers, Option.bind_some, ofJson?_toJson number place]

end Token

/-! ## The tokens of a source -/

/-- Values that are read as themselves are read as themselves one after the other. -/
lemma mapM_eq_some_self {α : Type} {f : α → Option α} {as : List α} (h : ∀ a ∈ as, f a = some a) :
    as.mapM f = some as := by
  induction as with
  | nil => rfl
  | cons a as ih =>
    obtain ⟨ha, has⟩ := List.forall_mem_cons.1 h
    rw [List.mapM_cons, ha, ih has]
    rfl

/-- A character takes at least one byte, so lines and columns are counted no faster than bytes. -/
lemma Position.after_le {p : Position} (line : p.line ≤ p.offset + 1)
    (column : p.column ≤ p.offset + 1) (cs : List Char) :
    (p.after cs).line ≤ (p.after cs).offset + 1 ∧ (p.after cs).column ≤ (p.after cs).offset + 1 := by
  induction cs generalizing p with
  | nil => exact ⟨line, column⟩
  | cons c cs ih =>
    have size := c.utf8Size_pos
    rw [after_cons]
    apply ih <;> unfold step <;> split <;> dsimp only <;> omega

/-- A place in a source has no greater numbers than the source has bytes, and one more. -/
lemma fits_of_front {source : String} {before rest : List Char}
    (text : source.toList = before ++ rest) (size : source.utf8ByteSize + 1 < wordLimit) :
    (Position.start.after before).Fits := by
  have ⟨line, column⟩ := Position.after_le (p := .start) (Nat.le_refl _) (Nat.le_refl _) before
  have offset : (Position.start.after before).offset ≤ source.utf8ByteSize :=
    calc (Position.start.after before).offset
        ≤ ((Position.start.after before).after rest).offset := by
          rw [offset_after _ rest]
          exact Nat.le_add_right _ _
      _ = (Position.start.after source.toList).offset := by rw [text, Position.after_append]
      _ = source.utf8ByteSize := by
        rw [offset_after, String.ofList_toList]
        exact Nat.zero_add _
  constructor <;> omega

/-- Tokens with numbers that are read from their texts as themselves come back from their texts,
whatever their kinds, lexemes and places are. So the tokens of a source that is lexed without an
error can be written and read, and what comes back is parsed as the source is: to the same tree, or
to the same error at the same place. -/
theorem tokens_survive_json {style : Json.Style} (hs : style ∈ handoffStyles) :
    (∀ ts : List Token, (∀ t ∈ ts, t.kind.NumberReadsBack ∧ t.position.Fits) →
      ts.mapM (fun t => (Json.parse? (t.toJson.render style)).bind Token.ofJson?) = some ts) ∧
    ∀ (source : String) (ts : List Token), source.utf8ByteSize + 1 < wordLimit →
      tokenizeAll source = .ok ts → (∀ t ∈ ts, t.kind.NumberReadsBack) →
      ∃ us, ts.mapM (fun t => (Json.parse? (t.toJson.render style)).bind Token.ofJson?) = some us ∧
        ∀ settings, parseItems settings (us.map .ok) = parseText settings source := by
  have blank := blank_of_mem_handoffStyles hs
  have back (ts : List Token) (h : ∀ t ∈ ts, t.kind.NumberReadsBack ∧ t.position.Fits) :
      ts.mapM (fun t => (Json.parse? (t.toJson.render style)).bind Token.ofJson?) = some ts :=
    mapM_eq_some_self fun t ht => Token.ofJson?_parse? blank (h t ht).1 (h t ht).2
  refine ⟨back, fun source ts size lexed codec => ⟨ts, back ts fun t ht => ?_, fun settings => ?_⟩⟩
  · have item : .ok t ∈ tokenize source :=
      tokenizeAll_eq_ok_iff.1 lexed ▸ List.mem_map_of_mem ht
    obtain ⟨before, rest, text, place, -⟩ := (tiles_tokenize source).token_slice item
    exact ⟨codec t ht, place ▸ fits_of_front text size⟩
  · rw [parseText, tokenizeAll_eq_ok_iff.1 lexed]

/-- A token of each form. Some of the lexemes do not spell their payloads, and the places are in no
order. -/
def tokenOfEachForm : List Token :=
  [⟨.number ⟨true, 5 * twoTo 50, 1023, by decide, by decide, by decide⟩, "x", ⟨0, 0, 0⟩⟩,
    ⟨.string "\n\x7b", "", ⟨wordLimit - 1, 1, 1⟩⟩, ⟨.word "é", "\"", ⟨7, wordLimit - 1, 2⟩⟩,
    ⟨.operator .lessEqual, "<=", ⟨3, 2, 1⟩⟩, ⟨.mark .leftBrace, "\x7b", .start⟩,
    ⟨.endOfInput, "end", ⟨5, 5, 5⟩⟩]

/-- The tokens of a source whose number is no double exactly. -/
def printTenthTokens : List Token :=
  [⟨.mark .leftBrace, "\x7b", .start⟩, ⟨.word "print", "print", ⟨2, 1, 3⟩⟩,
    ⟨.number ⟨false, 7205759403792794, 1018, by decide, by decide, by decide⟩, "0.1", ⟨8, 1, 9⟩⟩,
    ⟨.mark .rightBrace, "\x7d", ⟨12, 1, 13⟩⟩, .endAt ⟨13, 1, 14⟩]

/-- The tokens of each form are read from their pretty texts, and those of the number make up its
program. -/
theorem tokenOfEachForm_survives :
    tokenOfEachForm.mapM (fun t => (Json.parse? (t.toJson.render .pretty)).bind Token.ofJson?) =
        some tokenOfEachForm ∧
      ∃ us, printTenthTokens.mapM
          (fun t => (Json.parse? (t.toJson.render .pretty)).bind Token.ofJson?) = some us ∧
        ∀ settings, parseItems settings (us.map .ok) =
          parseText settings "\x7b print 0.1 \x7d" := by
  have pretty : Json.Style.pretty ∈ handoffStyles := List.mem_cons_of_mem _ List.mem_cons_self
  have lexed : tokenizeAll "\x7b print 0.1 \x7d" = .ok printTenthTokens := by decide +kernel
  exact ⟨(tokens_survive_json pretty).1 _ (by decide +kernel),
    (tokens_survive_json pretty).2 _ _ (by decide +kernel) lexed (by decide +kernel)⟩

end Quill
