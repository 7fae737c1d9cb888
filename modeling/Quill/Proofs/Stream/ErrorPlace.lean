import Quill.Proofs.Lexical.Places
import Quill.Proofs.Stream.FirstError

/-!
# Where a parse fails

The error of a text stands where one of the text's items does: at the first character of a token or
of something malformed, at a backslash, or behind the whole text. So the character at an error is
never a blank.
-/

namespace Quill

/-- The place of an item. -/
def Item.position : Item → Position
  | .ok t => t.position
  | .error e => e.position

/-- Every item stands in front of a character that is no blank, or at the end of the text. -/
lemma Tiles.not_blank {p : Position} {cs : List Char} {items : List Item} (h : Tiles p cs items)
    {item : Item} (hi : item ∈ items) :
    ∃ before rest, cs = before ++ rest ∧ Item.position item = p.after before ∧
      ∀ c ∈ rest.head?, isBlank c = false := by
  induction h with
  | @done p gap _ =>
    obtain rfl := List.mem_singleton.1 hi
    exact ⟨gap, [], (List.append_nil gap).symm, rfl, by simp⟩
  | @token p gap lexeme rest kind items _ hb _ _ ih =>
    cases hi with
    | head => exact ⟨gap, lexeme ++ rest, rfl, rfl, hb.blank⟩
    | tail _ hi =>
      obtain ⟨before, after, rfl, place, bare⟩ := ih hi
      refine ⟨gap ++ (lexeme ++ before), after, by simp, ?_, bare⟩
      rw [place, Position.after_append, Position.after_append]
  | @fault p gap cs before reason _ hb hf =>
    obtain rfl := List.mem_singleton.1 hi
    obtain ⟨rest, rfl, malformed⟩ := hf.malformed
    refine ⟨gap ++ before, rest, by simp, (Position.after_append _ _ _).symm, ?_⟩
    cases malformed with
    | invalidEscape _ _ =>
      rintro c ⟨⟩
      decide
    | _ => exact hb.blank
  | @unclosed p gap inside _ _ =>
    obtain rfl := List.mem_singleton.1 hi
    refine ⟨gap, '(' :: '#' :: inside, rfl, rfl, ?_⟩
    rintro c ⟨⟩
    decide

/-- The item that a parse stops at is one of the text's own, since none that is taken is the
end. -/
lemma mem_tokenize_of_stop {source : String} {before : List Token} {item : Item}
    {after : List Item} (stream : withEnd (tokenize source) = before.map .ok ++ item :: after)
    (inner : ∀ t ∈ before, t.kind ≠ .endOfInput) : item ∈ tokenize source := by
  obtain rfl | ⟨after, last, rfl⟩ := after.eq_nil_or_concat
  · -- Then the tokens that are taken would be all the text's items.
    obtain ⟨taken, -⟩ := List.append_inj' stream rfl
    obtain ⟨ts, last, items, -, ends⟩ := (tiles_tokenize source).last
    have mem : last ∈ before.map .ok := by
      rw [← taken, items]
      simp
    obtain ⟨t, ht, same⟩ := List.mem_map.1 mem
    obtain rfl | ⟨e, rfl⟩ := ends
    · cases same
      exact absurd rfl (inner _ ht)
    · cases same
  · rw [List.concat_eq_append, ← List.cons_append, ← List.append_assoc] at stream
    obtain ⟨items, -⟩ := List.append_inj' stream rfl
    rw [items]
    simp

/-- An error of a text is at the place of one of its items. -/
lemma exists_item_of_error {settings : Settings} {source : String} {e : SyntaxError}
    (failed : parseText settings source = .error e) :
    ∃ item ∈ tokenize source, e.position = Item.position item := by
  obtain ⟨before, item, after, stream, stop, -⟩ := exists_stop settings (tokenize source)
  refine ⟨item, mem_tokenize_of_stop stream stop.kind_ne_endOfInput, ?_⟩
  cases reports_of_stop stop failed <;> rfl

/-- An error of a text is in front of a character that is no blank, or at the end of the text. -/
theorem exists_between_of_error {settings : Settings} {source : String} {e : SyntaxError}
    (failed : parseText settings source = .error e) :
    ∃ before rest, Between source before rest e.position ∧
      ∀ c ∈ rest.head?, isBlank c = false := by
  obtain ⟨item, mem, place⟩ := exists_item_of_error failed
  obtain ⟨before, rest, text, here, bare⟩ := (tiles_tokenize source).not_blank mem
  exact ⟨before, rest, place ▸ here ▸ between_after text, bare⟩

end Quill
