import Quill.Json.Render
import Quill.Proofs.Json.Spelling

/-!
# Written JSON is read back

A value whose numbers are spelled as JSON has them is read back from the text it is written as
(`parse?_render`). A style only spreads the text over lines, so what is written in it is one of the
texts that spell the value (`spelledBy_render`).
-/

namespace Quill

namespace Json

mutual

/-- The numbers in a value. -/
def numbers : Json → List Decimal
  | .number d => [d]
  | .array items => numbersOfItems items
  | .object members => numbersOfMembers members
  | _ => []

/-- The numbers in the items of an array. -/
def numbersOfItems : List Json → List Decimal
  | [] => []
  | v :: vs => v.numbers ++ numbersOfItems vs

/-- The numbers in the members of an object. -/
def numbersOfMembers : List (Option String × Json) → List Decimal
  | [] => []
  | (_, v) :: ms => v.numbers ++ numbersOfMembers ms

end

/-- A style that adds nothing but white space. -/
structure Style.Blank (style : Style) : Prop where
  item : ∀ level, ∀ c ∈ style.item level, isSpace c = true
  close : ∀ level, ∀ c ∈ style.close level, isSpace c = true
  colon : ∃ blank, style.colon = ':' :: blank ∧ ∀ c ∈ blank, isSpace c = true

/-- The compact style adds white space only, and that is none. -/
theorem Style.blank_compact : Style.compact.Blank where
  item _ := nofun
  close _ := nofun
  colon := ⟨[], rfl, nofun⟩

/-- A new line and its indentation are white space. -/
lemma isSpace_newLine (level : Nat) : ∀ c ∈ newLine level, isSpace c = true := by
  intro c hc
  obtain rfl | hc := List.mem_cons.1 hc
  · rfl
  · obtain rfl := List.eq_of_mem_replicate hc
    rfl

/-- The pretty style adds white space only. -/
theorem Style.blank_pretty : Style.pretty.Blank where
  item level := isSpace_newLine (level + 1)
  close := isSpace_newLine
  colon := ⟨[' '], rfl, by simp [isSpace]⟩

/-! ## What is written spells the value -/

variable {ps : List Piece} {blank front rest : List Char} {style : Style}

/-- White space may stand in front. -/
lemma Spells.behind_blank (hb : ∀ c ∈ blank, isSpace c = true) (h : Spells ps rest) :
    Spells ps (blank ++ rest) := by
  cases h with
  | nil hr => exact .nil (List.forall_mem_append.2 ⟨hb, hr⟩)
  | cons hr hp h =>
    rw [← List.append_assoc]
    exact .cons (List.forall_mem_append.2 ⟨hb, hr⟩) hp h

/-- A piece with no space in front of it goes on with the pieces behind it. -/
lemma Spells.piece {p : Piece} (hp : SpellsPiece p front) (h : Spells ps rest) :
    Spells (p :: ps) (front ++ rest) :=
  .cons (List.forall_mem_nil _) hp h

/-- A string is rendered as a text that spells it. -/
lemma spellsPiece_renderString (s : Option String) : SpellsPiece (.string s) (renderString s) := by
  obtain ⟨body, written, spelled⟩ := spellsString_renderString s
  rw [written]
  exact .string spelled

/-- A key and what follows it up to its value. -/
lemma Spells.key (hs : style.Blank) (level : Nat) (k : Option String) (h : Spells ps rest) :
    Spells (.string k :: .colon :: ps)
      (style.item level ++ renderString k ++ style.colon ++ rest) := by
  obtain ⟨blank, colon, hb⟩ := hs.colon
  have value : Spells (.colon :: ps) ([':'] ++ (blank ++ rest)) :=
    .piece .colon (h.behind_blank hb)
  rw [colon, List.append_assoc, List.append_assoc]
  apply Spells.behind_blank (hs.item level)
  exact .piece (spellsPiece_renderString k) value

mutual

/-- The text of a value spells the pieces of the value, in front of those of what follows. -/
theorem spells_renderBefore (hs : style.Blank) {ps : List Piece} :
    ∀ (v : Json) (level : Nat) (rest : List Char), (∀ d ∈ v.numbers, d.IsJson) →
      Spells ps rest → Spells (piecesBefore ps v) (renderBefore style level rest v)
  | .null, level, rest, _, h => by
    rw [renderBefore, piecesBefore]
    exact .piece .null h
  | .bool b, level, rest, _, h => by
    rw [renderBefore, piecesBefore]
    exact .piece .bool h
  | .number d, level, rest, hd, h => by
    rw [numbers, List.forall_mem_singleton] at hd
    rw [renderBefore, piecesBefore]
    exact .piece (.number hd) h
  | .string s, level, rest, _, h => by
    rw [renderBefore, piecesBefore]
    exact .piece (spellsPiece_renderString s) h
  | .array [], level, rest, _, h => by
    rw [renderBefore, piecesBefore]
    exact .piece .beginArray (.piece .endArray h)
  | .array (v :: vs), level, rest, hd, h => by
    rw [numbers, numbersOfItems, List.forall_mem_append] at hd
    have close : Spells (.endArray :: ps) (style.close level ++ ']' :: rest) :=
      .behind_blank (hs.close level) (.piece .endArray h)
    have items := spells_renderItems hs vs level _ hd.2 close
    have first := spells_renderBefore hs v (level + 1) _ hd.1 items
    rw [renderBefore, piecesBefore]
    exact .piece .beginArray (first.behind_blank (hs.item level))
  | .object [], level, rest, _, h => by
    rw [renderBefore, piecesBefore]
    exact .piece .beginObject (.piece .endObject h)
  | .object ((k, v) :: ms), level, rest, hd, h => by
    rw [numbers, numbersOfMembers, List.forall_mem_append] at hd
    have close : Spells (.endObject :: ps) (style.close level ++ '}' :: rest) :=
      .behind_blank (hs.close level) (.piece .endObject h)
    have members := spells_renderMembers hs ms level _ hd.2 close
    have first := spells_renderBefore hs v (level + 1) _ hd.1 members
    rw [renderBefore, piecesBefore]
    exact .piece .beginObject (first.key hs level k)

/-- The items behind the first one are rendered as a text that spells their pieces. -/
theorem spells_renderItems (hs : style.Blank) {ps : List Piece} :
    ∀ (vs : List Json) (level : Nat) (rest : List Char), (∀ d ∈ numbersOfItems vs, d.IsJson) →
      Spells ps rest → Spells (piecesOfItems ps vs) (renderItems style level rest vs)
  | [], level, rest, _, h => by
    rw [renderItems, piecesOfItems]
    exact h
  | v :: vs, level, rest, hd, h => by
    rw [numbersOfItems, List.forall_mem_append] at hd
    have items := spells_renderItems hs vs level rest hd.2 h
    have first := spells_renderBefore hs v (level + 1) _ hd.1 items
    rw [renderItems, piecesOfItems]
    exact .piece .comma (first.behind_blank (hs.item level))

/-- The members behind the first one are rendered as a text that spells their pieces. -/
theorem spells_renderMembers (hs : style.Blank) {ps : List Piece} :
    ∀ (ms : List (Option String × Json)) (level : Nat) (rest : List Char),
      (∀ d ∈ numbersOfMembers ms, d.IsJson) →
      Spells ps rest → Spells (piecesOfMembers ps ms) (renderMembers style level rest ms)
  | [], level, rest, _, h => by
    rw [renderMembers, piecesOfMembers]
    exact h
  | (k, v) :: ms, level, rest, hd, h => by
    rw [numbersOfMembers, List.forall_mem_append] at hd
    have members := spells_renderMembers hs ms level rest hd.2 h
    have first := spells_renderBefore hs v (level + 1) _ hd.1 members
    rw [renderMembers, piecesOfMembers]
    exact .piece .comma (first.key hs level k)

end

/-- What a value is written as spells it. -/
theorem spelledBy_render (hs : style.Blank) {v : Json} (h : ∀ d ∈ v.numbers, d.IsJson) :
    v.SpelledBy (v.render style) := by
  rw [SpelledBy, render, String.toList_ofList]
  exact spells_renderBefore hs v 0 [] h (.nil (List.forall_mem_nil _))

/-- A value is read back from the text it is written as. -/
theorem parse?_render (hs : style.Blank) {v : Json} (h : ∀ d ∈ v.numbers, d.IsJson) :
    parse? (v.render style) = some v :=
  parse?_of_spelledBy (spelledBy_render hs h)

end Json

end Quill
