import Quill.Json.Parse
import Quill.Proofs.Json.Numbers
import Quill.Proofs.Json.Strings

/-!
# Spellings of JSON text

All the texts that spell a value: its pieces one after the other, with white space before, between
and behind them. Every such text is read as the value (`parse?_of_spelledBy`), for it is cut into
these pieces (`pieces?_of_spells`), and a reader that is given the pieces of a value has that value
behind them (`run?_piecesBefore`).

A number is the only piece that could go on with what is behind it. The reader says that it does
not: behind a scalar it takes a comma or a closing bracket, or the text is at its end.
-/

namespace Quill

namespace Json

mutual

/-- The pieces of a value, in front of the pieces `rest`. -/
def piecesBefore (rest : List Piece) : Json → List Piece
  | .null => .scalar .null :: rest
  | .bool b => .scalar (.bool b) :: rest
  | .number n => .scalar (.number n) :: rest
  | .string s => .string s :: rest
  | .array [] => .beginArray :: .endArray :: rest
  | .array (v :: vs) => .beginArray :: piecesBefore (piecesOfItems (.endArray :: rest) vs) v
  | .object [] => .beginObject :: .endObject :: rest
  | .object ((k, v) :: ms) =>
    .beginObject :: .string k :: .colon :: piecesBefore (piecesOfMembers (.endObject :: rest) ms) v

/-- The pieces of the items of an array behind its first. -/
def piecesOfItems (rest : List Piece) : List Json → List Piece
  | [] => rest
  | v :: vs => .comma :: piecesBefore (piecesOfItems rest vs) v

/-- The pieces of the members of an object behind its first. -/
def piecesOfMembers (rest : List Piece) : List (Option String × Json) → List Piece
  | [] => rest
  | (k, v) :: ms => .comma :: .string k :: .colon :: piecesBefore (piecesOfMembers rest ms) v

end

/-- The text of a piece. -/
inductive SpellsPiece : Piece → List Char → Prop where
  | beginArray : SpellsPiece .beginArray ['[']
  | endArray : SpellsPiece .endArray [']']
  | beginObject : SpellsPiece .beginObject ['{']
  | endObject : SpellsPiece .endObject ['}']
  | comma : SpellsPiece .comma [',']
  | colon : SpellsPiece .colon [':']
  | string {s body} :
    SpellsString (s.map String.toList) body →
    SpellsPiece (.string s) ('"' :: (body ++ ['"']))
  | null : SpellsPiece (.scalar .null) "null".toList
  | bool {b} : SpellsPiece (.scalar (.bool b)) (renderBool b)
  | number {d} :
    d.IsJson →
    SpellsPiece (.scalar (.number d)) d.spell

/-- Pieces one after the other, with white space before, between and behind them. -/
inductive Spells : List Piece → List Char → Prop where
  | nil {blank} :
    (∀ c ∈ blank, isSpace c = true) →
    Spells [] blank
  | cons {p ps blank front rest} :
    (∀ c ∈ blank, isSpace c = true) →
    SpellsPiece p front →
    Spells ps rest →
    Spells (p :: ps) (blank ++ (front ++ rest))

/-- The text spells the value. -/
def SpelledBy (v : Json) (text : String) : Prop :=
  Spells (piecesBefore [] v) text.toList

/-! ## Reading pieces -/

/-- The first item of an array is read as any value is: no value begins with the closing bracket. -/
lemma run?_firstItem (v : Json) (frames : List Frame) (ps : List Piece) :
    Reader.run? ⟨.firstItem, frames⟩ (piecesBefore ps v) =
      Reader.run? ⟨.value, .array [] :: frames⟩ (piecesBefore ps v) := by
  cases v with
  | array items => cases items <;> rw [piecesBefore] <;> rfl
  | object members =>
    cases members with
    | nil =>
      rw [piecesBefore]
      rfl
    | cons m ms =>
      rw [piecesBefore]
      rfl
  | null | bool _ | number _ | string _ =>
    rw [piecesBefore]
    rfl

mutual

/-- Behind the pieces of a value, the reader has the value. -/
theorem run?_piecesBefore :
    ∀ (v : Json) (frames : List Frame) (ps : List Piece),
      Reader.run? ⟨.value, frames⟩ (piecesBefore ps v) = Reader.run? ⟨.after v, frames⟩ ps
  | .null, frames, ps => by
    rw [piecesBefore]
    rfl
  | .bool b, frames, ps => by
    rw [piecesBefore]
    rfl
  | .number d, frames, ps => by
    rw [piecesBefore]
    rfl
  | .string s, frames, ps => by
    rw [piecesBefore]
    rfl
  | .array [], frames, ps => by
    rw [piecesBefore]
    rfl
  | .array (v :: vs), frames, ps =>
    calc Reader.run? ⟨.value, frames⟩ (piecesBefore ps (.array (v :: vs))) =
          Reader.run? ⟨.firstItem, frames⟩
            (piecesBefore (piecesOfItems (.endArray :: ps) vs) v) := by
          rw [piecesBefore]
          rfl
      _ = Reader.run? ⟨.after v, .array [] :: frames⟩ (piecesOfItems (.endArray :: ps) vs) := by
          rw [run?_firstItem, run?_piecesBefore v]
      _ = Reader.run? ⟨.after (.array (v :: vs)), frames⟩ ps := run?_piecesOfItems vs [] v frames ps
  | .object [], frames, ps => by
    rw [piecesBefore]
    rfl
  | .object ((k, v) :: ms), frames, ps =>
    calc Reader.run? ⟨.value, frames⟩ (piecesBefore ps (.object ((k, v) :: ms))) =
          Reader.run? ⟨.value, .object [] k :: frames⟩
            (piecesBefore (piecesOfMembers (.endObject :: ps) ms) v) := by
          rw [piecesBefore]
          rfl
      _ = Reader.run? ⟨.after v, .object [] k :: frames⟩
            (piecesOfMembers (.endObject :: ps) ms) := run?_piecesBefore v _ _
      _ = Reader.run? ⟨.after (.object ((k, v) :: ms)), frames⟩ ps :=
          run?_piecesOfMembers ms [] k v frames ps

/-- Behind the items of an array and its closing bracket, the reader has the array. -/
theorem run?_piecesOfItems :
    ∀ (vs items : List Json) (v : Json) (frames : List Frame) (ps : List Piece),
      Reader.run? ⟨.after v, .array items :: frames⟩ (piecesOfItems (.endArray :: ps) vs) =
        Reader.run? ⟨.after (.array (items.reverse ++ v :: vs)), frames⟩ ps
  | [], items, v, frames, ps => by
    rw [piecesOfItems, ← List.reverse_cons]
    rfl
  | w :: vs, items, v, frames, ps => by
    have next := run?_piecesOfItems vs (v :: items) w frames ps
    rw [List.reverse_cons, List.append_assoc, List.singleton_append] at next
    rw [piecesOfItems, ← next]
    exact run?_piecesBefore w (.array (v :: items) :: frames) _

/-- Behind the members of an object and its closing brace, the reader has the object. -/
theorem run?_piecesOfMembers :
    ∀ (ms members : List (Option String × Json)) (k : Option String) (v : Json)
      (frames : List Frame) (ps : List Piece),
      Reader.run? ⟨.after v, .object members k :: frames⟩ (piecesOfMembers (.endObject :: ps) ms) =
        Reader.run? ⟨.after (.object (members.reverse ++ (k, v) :: ms)), frames⟩ ps
  | [], members, k, v, frames, ps => by
    rw [piecesOfMembers, ← List.reverse_cons]
    rfl
  | (l, w) :: ms, members, k, v, frames, ps => by
    have next := run?_piecesOfMembers ms ((k, v) :: members) l w frames ps
    rw [List.reverse_cons, List.append_assoc, List.singleton_append] at next
    rw [piecesOfMembers, ← next]
    exact run?_piecesBefore w (.object ((k, v) :: members) l :: frames) _

end

/-! ## Cutting a text into pieces -/

section

variable {cs rest blank : List Char} {c : Char}

/-- A space in front of a text is no piece of it. -/
lemma pieces?_space (hc : isSpace c = true) (cs : List Char) : pieces? (c :: cs) = pieces? cs := by
  rw [pieces?, if_pos hc]

/-- White space in front of a text is no piece of it. -/
lemma pieces?_blank (hb : ∀ c ∈ blank, isSpace c = true) (cs : List Char) :
    pieces? (blank ++ cs) = pieces? cs := by
  induction blank with
  | nil => rfl
  | cons c blank ih =>
    obtain ⟨hc, hb⟩ := List.forall_mem_cons.1 hb
    rw [List.cons_append, pieces?_space hc, ih hb]

/-- A text that begins with a piece is taken apart into that piece and the pieces behind it. -/
lemma pieces?_cons {p : Piece} (hc : isSpace c = false)
    (h : readPiece? (c :: cs) = some (p, rest)) :
    pieces? (c :: cs) = (pieces? rest).map (p :: ·) := by
  rw [pieces?, if_neg (by simp [hc])]
  split
  · rename_i none
    rw [h] at none
    cases none
  · rename_i same
    rw [h] at same
    cases same
    rfl

/-- A string is the same as its characters. -/
lemma map_ofList_toList (s : Option String) : (s.map String.toList).map String.ofList = s := by
  cases s <;> simp

/-- A number at the front of a text is its first piece, if it ends there. -/
lemma pieces?_number {d : Decimal} (h : d.IsJson) (hr : EndsNumber rest) :
    pieces? (d.spell ++ rest) = (pieces? rest).map (.scalar (.number d) :: ·) := by
  have read := readNumber?_spell h hr
  obtain ⟨c, cs, spelled, hc⟩ := exists_cons_spell h
  rw [spelled, List.cons_append] at read ⊢
  have visible : isSpace c = false := by
    obtain rfl | hc := hc
    · rfl
    · have bounds := digit_bounds hc
      simp only [isSpace, Bool.or_eq_false_iff, beq_eq_false_iff_ne]
      refine ⟨⟨⟨?_, ?_⟩, ?_⟩, ?_⟩ <;> (rintro rfl; simp at bounds)
  refine pieces?_cons visible ?_
  rw [readPiece?_number hc, read]
  rfl

/-- A truth value at the front of a text is its first piece. -/
lemma pieces?_bool (b : Bool) (cs : List Char) :
    pieces? (renderBool b ++ cs) = (pieces? cs).map (.scalar (.bool b) :: ·) := by
  cases b with
  | true => exact pieces?_cons rfl rfl
  | false => exact pieces?_cons rfl rfl

/-- White space ends a number, and so does what ended it behind the white space. -/
lemma EndsNumber.behind_blank (hb : ∀ c ∈ blank, isSpace c = true) (h : EndsNumber cs) :
    EndsNumber (blank ++ cs) := by
  cases blank with
  | nil => exact h
  | cons c blank =>
    rintro _ ⟨⟩
    have space := hb c List.mem_cons_self
    simp only [isSpace, Bool.or_eq_true, beq_iff_eq] at space
    obtain ((rfl | rfl) | rfl) | rfl := space <;> decide

/-- At the end of a text no number goes on. -/
lemma endsNumber_nil : EndsNumber [] := nofun

end

section

variable {r r' : Reader} {v : Json} {ps : List Piece} {text : List Char}

/-- Behind a scalar, a value is finished. -/
lemma step?_scalar (h : r.step? (.scalar v) = some r') :
    ∃ frames, r' = ⟨.after v, frames⟩ := by
  obtain ⟨turn, frames⟩ := r
  cases turn with
  | value | firstItem =>
    cases h
    exact ⟨_, rfl⟩
  | firstKey | key _ | colon _ _ => cases h
  | after w =>
    cases frames with
    | nil => cases h
    | cons frame frames => cases frame <;> cases h

/-- A value is finished by a comma or a closing bracket. -/
lemma afterValue?_cases {frames : List Frame} {p : Piece} (h : afterValue? v frames p = some r) :
    p = .comma ∨ p = .endArray ∨ p = .endObject := by
  unfold afterValue? at h
  split at h
  · exact .inl rfl
  · exact .inr (.inl rfl)
  · exact .inl rfl
  · exact .inr (.inr rfl)
  · cases h

/-- No number goes on with what is behind a value. -/
lemma endsNumber_of_run {w : Json} {frames : List Frame}
    (run : Reader.run? ⟨.after w, frames⟩ ps = some v) (h : Spells ps text) : EndsNumber text := by
  cases h with
  | nil hb =>
    rw [← List.append_nil text]
    exact endsNumber_nil.behind_blank hb
  | @cons p ps blank front rest hb hp _ =>
    apply EndsNumber.behind_blank hb
    obtain ⟨r', step, _⟩ := Option.bind_eq_some_iff.1 run
    obtain rfl | rfl | rfl := afterValue?_cases step <;> cases hp <;> simp [EndsNumber]

/-- The pieces that a reader takes are those of every text that spells them. -/
theorem pieces?_of_spells (h : Spells ps text) (run : r.run? ps = some v) :
    pieces? text = some ps := by
  induction h generalizing r with
  | @nil blank hb =>
    rw [← List.append_nil blank, pieces?_blank hb, pieces?]
  | @cons p ps blank front rest hb hp spelled ih =>
    obtain ⟨r', step, run'⟩ := Option.bind_eq_some_iff.1 run
    have behind := ih run'
    rw [pieces?_blank hb]
    cases hp with
    | beginArray | endArray | beginObject | endObject | comma | colon | null =>
      exact (pieces?_cons rfl rfl).trans (congrArg (Option.map _) behind)
    | bool => rw [pieces?_bool, behind, Option.map_some]
    | number hd =>
      -- Only here does it matter what is behind the piece.
      obtain ⟨frames, rfl⟩ := step?_scalar step
      have ends := endsNumber_of_run run' spelled
      rw [pieces?_number hd ends, behind, Option.map_some]
    | string hs =>
      rw [List.cons_append, List.append_assoc, List.singleton_append]
      refine (pieces?_cons rfl ?_).trans (congrArg (Option.map _) behind)
      rw [readPiece?, readString?_of_spells hs, Option.map_some, map_ofList_toList]

end

/-- Every text that spells a value is read as the value. -/
theorem parse?_of_spelledBy {v : Json} {text : String} (h : v.SpelledBy text) :
    parse? text = some v := by
  have run : Reader.run? ⟨.value, []⟩ (piecesBefore [] v) = some v := run?_piecesBefore v [] []
  rw [parse?, pieces?_of_spells h run, Option.bind_some, run]

end Json

end Quill
