import Quill.Proofs.Lexical.Lexeme
import Quill.Proofs.Lexical.Trivia

/-!
# Tilings

A text is trivia, lexeme, trivia, lexeme, and so on, each lexeme the longest that stands at its
place, up to trivia at the end or up to what is no lexeme. `Tiles p cs items` says that the text
`cs` from the place `p` is tiled in this way and that `items` are its tokens and what ends them.
Every text has one tiling, and a scanner yields its items (`items_eq_iff_tiles`).
-/

namespace Quill

/-- The text from the place `p` is tiled by the items and the trivia around them. -/
inductive Tiles : Position → List Char → List Item → Prop where
  | done {p gap} :
    Gap gap →
    Tiles p gap [.ok (.endAt (p.after gap))]
  | token {p gap lexeme rest kind items} :
    Gap gap →
    Bare (lexeme ++ rest) →
    Longest (lexeme ++ rest) lexeme (some kind) →
    Tiles ((p.after gap).after lexeme) rest items →
    Tiles p (gap ++ (lexeme ++ rest)) (.ok ⟨kind, String.ofList lexeme, p.after gap⟩ :: items)
  | fault {p gap cs before reason} :
    Gap gap →
    Bare cs →
    Fault cs before reason →
    Tiles p (gap ++ cs) [.error ⟨(p.after gap).after before, reason⟩]
  | unclosed {p gap inside} :
    Gap gap →
    Unclosed inside →
    Tiles p (gap ++ '(' :: '#' :: inside) [.error ⟨p.after gap, .unterminatedComment⟩]

/-- A text that is refused is not empty. -/
lemma Fault.exists_cons {cs before : List Char} {reason : LexReason} (h : Fault cs before reason) :
    ∃ c cs', cs = c :: cs' := by
  cases h with
  | unexpectedChar _ _ => exact ⟨_, _, rfl⟩
  | unterminatedString _ _ => exact ⟨_, _, rfl⟩
  | invalidEscape _ _ => exact ⟨_, _, rfl⟩
  | invalidNumber longest =>
    apply List.exists_cons_of_ne_nil
    rintro rfl
    exact longest.lexeme.ne_nil (List.prefix_nil.1 longest.isPrefix)

namespace Scanner

/-! ## One call -/

/-- A scanner that is finished yields nothing. -/
lemma items_finished (p : Position) : (finished p).items = [] := by
  rw [items]
  rfl

/-- A scanner in front of a text yields what it reads, and then what it reads behind it. -/
lemma items_of_read {p : Position} {cs : List Char} {item : Item} {t : Scanner}
    (h : read p cs = (item, t)) : (Scanner.mk p (some cs)).items = item :: t.items := by
  rw [items]
  split
  · rename_i hs
    cases hs
  · rename_i hs
    cases (Option.some.inj hs).symm.trans h
    rfl

/-- Trivia up to the end of the text are read as the end. -/
lemma read_gap {gap : List Char} (hg : Gap gap) (p : Position) :
    read p gap = (.ok (.endAt (p.after gap)), finished (p.after gap)) := by
  have skipped : skipTrivia gap = .skipped ⟨gap, []⟩ :=
    skipTrivia_eq_skipped_iff.2 ⟨by simp [Cut.text], hg, ⟨nofun, by simp⟩⟩
  rw [read, skipped]

/-- Trivia and the longest lexeme behind them are read as the token of that lexeme. -/
lemma read_token {gap lexeme rest : List Char} {kind : Kind} (hg : Gap gap)
    (hb : Bare (lexeme ++ rest)) (hl : Longest (lexeme ++ rest) lexeme (some kind)) (p : Position) :
    read p (gap ++ (lexeme ++ rest)) =
      (.ok ⟨kind, String.ofList lexeme, p.after gap⟩,
        ⟨(p.after gap).after lexeme, some rest⟩) := by
  have skipped : skipTrivia (gap ++ (lexeme ++ rest)) = .skipped ⟨gap, lexeme ++ rest⟩ :=
    skipTrivia_eq_skipped_iff.2 ⟨rfl, hg, hb⟩
  obtain ⟨c, cs, text⟩ := List.exists_cons_of_ne_nil hl.lexeme.ne_nil
  have symbol : scanSymbol c (cs ++ rest) = .token kind ⟨lexeme, rest⟩ := by
    rw [scanSymbol_eq_token_iff, ← List.cons_append, ← text]
    exact ⟨rfl, hl⟩
  rw [read, skipped]
  simp only [text, List.cons_append]
  rw [symbol]
  simp only [text]

/-- Trivia and what is no token behind them are read as the error. -/
lemma read_fault {gap cs before : List Char} {reason : LexReason} (hg : Gap gap) (hb : Bare cs)
    (hf : Fault cs before reason) (p : Position) :
    read p (gap ++ cs) =
      (.error ⟨(p.after gap).after before, reason⟩, finished (p.after gap)) := by
  have skipped : skipTrivia (gap ++ cs) = .skipped ⟨gap, cs⟩ :=
    skipTrivia_eq_skipped_iff.2 ⟨rfl, hg, hb⟩
  obtain ⟨c, cs, rfl⟩ := hf.exists_cons
  rw [read, skipped]
  simp only [scanSymbol_eq_fault_iff.2 hf]

/-- Trivia and a comment behind them that is never closed are read as the error, at its opener. -/
lemma read_unclosed {gap inside : List Char} (hg : Gap gap) (hu : Unclosed inside) (p : Position) :
    read p (gap ++ '(' :: '#' :: inside) =
      (.error ⟨p.after gap, .unterminatedComment⟩, finished (p.after gap)) := by
  have unclosed : skipTrivia (gap ++ '(' :: '#' :: inside) = .unclosed gap :=
    skipTrivia_eq_unclosed_iff.2 ⟨hg, inside, rfl, hu⟩
  rw [read, unclosed]

end Scanner

/-! ## All calls -/

/-- The items that tile a text are those that the scanner yields. -/
lemma items_of_tiles {p : Position} {cs : List Char} {items : List Item} (h : Tiles p cs items) :
    (Scanner.mk p (some cs)).items = items := by
  induction h with
  | done hg => rw [Scanner.items_of_read (Scanner.read_gap hg _), Scanner.items_finished]
  | token hg hb hl _ ih => rw [Scanner.items_of_read (Scanner.read_token hg hb hl _), ih]
  | fault hg hb hf =>
    rw [Scanner.items_of_read (Scanner.read_fault hg hb hf _), Scanner.items_finished]
  | unclosed hg hu =>
    rw [Scanner.items_of_read (Scanner.read_unclosed hg hu _), Scanner.items_finished]

/-- Every text is tiled by some items. -/
lemma exists_tiles (p : Position) (cs : List Char) : ∃ items, Tiles p cs items := by
  obtain ⟨gap, rest, split, hg, hb | ⟨inside, rfl, hu⟩⟩ := exists_gap cs
  · cases rest with
    | nil =>
      rw [List.append_nil] at split
      exact split ▸ ⟨_, .done hg⟩
    | cons c rest =>
      cases hs : scanSymbol c rest with
      | fault before reason => exact split ▸ ⟨_, .fault hg hb (scanSymbol_eq_fault_iff.1 hs)⟩
      | token kind cut =>
        -- The rest is shorter, since a lexeme has a character.
        obtain ⟨lexeme, after⟩ := cut
        obtain ⟨text, longest⟩ := scanSymbol_eq_token_iff.1 hs
        rw [← text] at longest hb split
        have shorter : after.length < cs.length := by
          have nonempty : 0 < lexeme.length := List.length_pos_iff.2 longest.lexeme.ne_nil
          simp only [split, Cut.text, List.length_append]
          omega
        obtain ⟨items, h⟩ := exists_tiles ((p.after gap).after lexeme) after
        exact split ▸ ⟨_, .token hg hb longest h⟩
  · exact split ▸ ⟨_, .unclosed hg hu⟩
termination_by cs.length

/-- The scanner yields the items of the one tiling that its text has. -/
theorem items_eq_iff_tiles {p : Position} {cs : List Char} {items : List Item} :
    (Scanner.mk p (some cs)).items = items ↔ Tiles p cs items := by
  constructor
  · rintro rfl
    obtain ⟨items, h⟩ := exists_tiles p cs
    rwa [items_of_tiles h]
  · exact items_of_tiles

/-! ## What a tiling says of its items -/

/-- The place behind some characters is as many bytes further as they take. -/
lemma offset_after (p : Position) (cs : List Char) :
    (p.after cs).offset = p.offset + (String.ofList cs).utf8ByteSize := by
  induction cs generalizing p with
  | nil => rfl
  | cons c cs ih =>
    have size : (String.ofList (c :: cs)).utf8ByteSize =
        c.utf8Size + (String.ofList cs).utf8ByteSize := by
      rw [← List.singleton_append, String.ofList_append, String.utf8ByteSize_append,
        ← String.singleton_eq_ofList, String.utf8ByteSize_singleton]
    have step : (p.step c).offset = p.offset + c.utf8Size := by
      unfold Position.step
      split <;> rfl
    rw [Position.after_cons, ih, step, size, Nat.add_assoc]

/-- A character takes at least one byte. -/
lemma offset_lt_after (p : Position) {cs : List Char} (h : cs ≠ []) :
    p.offset < (p.after cs).offset := by
  obtain ⟨c, cs, rfl⟩ := List.exists_cons_of_ne_nil h
  have step : p.offset < (p.step c).offset := by
    have := c.utf8Size_pos
    unfold Position.step
    split <;> simp only <;> omega
  rw [Position.after_cons, offset_after]
  omega

/-- No lexeme is the end of the input. -/
lemma Lexeme.ne_endOfInput {front : List Char} : ¬ Lexeme front (some .endOfInput) := by
  intro h
  generalize hk : some Kind.endOfInput = k at h
  cases h with
  | number _ => simp at hk
  | _ => cases hk

variable {p : Position} {cs : List Char} {items : List Item}

/-- Each token but the last takes a character. -/
lemma Tiles.length_le (h : Tiles p cs items) : items.length ≤ cs.length + 1 := by
  induction h with
  | done _ => simp
  | token _ _ hl _ ih =>
    have := List.length_pos_iff.2 hl.lexeme.ne_nil
    simp only [List.length_append, List.length_cons] at *
    omega
  | fault _ _ _ => simp
  | unclosed _ _ => simp

/-- The items are tokens, and then the end behind the whole text or an error. -/
lemma Tiles.last (h : Tiles p cs items) :
    ∃ (ts : List Token) (last : Item), items = ts.map .ok ++ [last] ∧
      (∀ t ∈ ts, t.kind ≠ .endOfInput) ∧
      (last = .ok (.endAt (p.after cs)) ∨ ∃ e, last = .error e) := by
  induction h with
  | done _ => exact ⟨[], _, rfl, nofun, .inl rfl⟩
  | @token p gap lexeme rest kind items _ _ hl _ ih =>
    obtain ⟨ts, last, rfl, inner, hlast⟩ := ih
    refine ⟨⟨kind, String.ofList lexeme, p.after gap⟩ :: ts, last, rfl, ?_, ?_⟩
    · intro t ht
      cases ht with
      | head =>
        rintro rfl
        exact Lexeme.ne_endOfInput hl.lexeme
      | tail _ ht => exact inner t ht
    · rwa [Position.after_append, Position.after_append]
  | fault _ _ _ => exact ⟨[], _, rfl, nofun, .inr ⟨_, rfl⟩⟩
  | unclosed _ _ => exact ⟨[], _, rfl, nofun, .inr ⟨_, rfl⟩⟩

/-- A token's lexeme stands in the text at the token's place. -/
lemma Tiles.slice (h : Tiles p cs items) {t : Token} (ht : .ok t ∈ items) :
    ∃ before after, cs = before ++ (t.lexeme.toList ++ after) ∧ t.position = p.after before := by
  induction h with
  | @done p gap _ =>
    obtain ⟨⟩ := List.mem_singleton.1 ht
    exact ⟨gap, [], by simp [Token.endAt], rfl⟩
  | @token p gap lexeme rest kind items _ _ _ _ ih =>
    cases ht with
    | head => exact ⟨gap, rest, by simp, rfl⟩
    | tail _ ht =>
      obtain ⟨before, after, rfl, place⟩ := ih ht
      refine ⟨gap ++ (lexeme ++ before), after, by simp, ?_⟩
      rw [place, Position.after_append, Position.after_append]
  | fault _ _ _ => cases List.mem_singleton.1 ht
  | unclosed _ _ => cases List.mem_singleton.1 ht

/-- The place of an item. -/
def Item.offset : Item → Nat
  | .ok t => t.position.offset
  | .error e => e.position.offset

/-- No item stands in front of the text. -/
lemma Tiles.le_offset (h : Tiles p cs items) {item : Item} (hi : item ∈ items) :
    p.offset ≤ Item.offset item := by
  induction h with
  | done _ =>
    obtain rfl := List.mem_singleton.1 hi
    simp [Item.offset, Token.endAt, offset_after]
  | token _ _ _ _ ih =>
    cases hi with
    | head => simp [Item.offset, offset_after]
    | tail _ hi =>
      have := ih hi
      rw [offset_after, offset_after] at this
      omega
  | fault _ _ _ =>
    obtain rfl := List.mem_singleton.1 hi
    simp only [Item.offset, offset_after]
    omega
  | unclosed _ _ =>
    obtain rfl := List.mem_singleton.1 hi
    simp [Item.offset, offset_after]

/-- Every item stands behind the items before it. -/
theorem Tiles.pairwise (h : Tiles p cs items) :
    items.Pairwise fun i j => Item.offset i < Item.offset j := by
  induction h with
  | done _ => exact List.pairwise_singleton _ _
  | @token p gap lexeme rest kind items _ _ hl h ih =>
    refine List.pairwise_cons.2 ⟨fun item hi => ?_, ih⟩
    exact (offset_lt_after _ hl.lexeme.ne_nil).trans_le (h.le_offset hi)
  | fault _ _ _ => exact List.pairwise_singleton _ _
  | unclosed _ _ => exact List.pairwise_singleton _ _

end Quill
