import Quill.Proofs.Grammar.Ending
import Quill.Proofs.Stream.Reading

/-!
# Where a program stops

A parse of a program takes tokens and stops at one item, which alone decides the answer: an error is
passed on, a token is refused, or the program is done (`exists_stop`). Which item that is depends on
nothing behind it, so a stream that goes on in another way has the same answer (`Stop.parseItems`).
-/

namespace Quill

variable {settings : Settings}

/-- The tokens `before` are taken, and the item behind them gives the answer. -/
inductive Stop (settings : Settings) (before : List Token) :
    Item → Except SyntaxError Block → Prop where
  | error {s e} :
    walk settings (State.initial .program) (before.map Token.kind) = .shift s →
    Stop settings before (.error e) (.error (.lex e))
  | refuse {s t why} :
    walk settings (State.initial .program) (before.map Token.kind) = .shift s →
    step settings s t.kind = .refuse why →
    Stop settings before (.ok t) (.error (why.error settings.maxDepth t))
  | done {s t b} :
    walk settings (State.initial .program) (before.map Token.kind) = .shift s →
    step settings s t.kind = .done b →
    Stop settings before (.ok t) (.ok b)

/-- Behind the tokens that are taken, the item gives the answer, and what follows it is not
pulled. -/
lemma Stop.readItems {before : List Token} {item : Item} {answer : Except SyntaxError Block}
    (h : Stop settings before item answer) (after : List Item) :
    readItems settings (State.initial .program) (before.map .ok ++ item :: after) =
      (answer, after) := by
  cases h with
  | error hw =>
    rw [readItems_of_walk hw]
    rfl
  | refuse hw hs => rw [readItems_of_walk hw, readItems_of_refuse hs]
  | done hw hs => rw [readItems_of_walk hw, readItems_of_done hs]

/-- Whatever follows the item at which a parse stops, the answer is the same. -/
lemma Stop.parseItems {before : List Token} {item : Item} {answer : Except SyntaxError Block}
    (h : Stop settings before item answer) {items after : List Item}
    (stream : withEnd items = before.map .ok ++ item :: after) :
    parseItems settings items = answer := by
  rw [← parseItems_withEnd, parseItems_eq, stream, h.readItems]

/-- Every parse stops, and all that the stream has behind the item is not pulled. -/
theorem exists_stop (settings : Settings) (items : List Item) :
    ∃ before item after, withEnd items = before.map .ok ++ item :: after ∧
      Stop settings before item (parseItems settings items) ∧
      unpulled settings items = after.dropLast := by
  obtain ⟨before, item, after, s, stream, hw, stops⟩ :=
    exists_stopsAt settings (hasEnd_withEnd items) (State.initial .program)
  have stop : ∃ answer, Stop settings before item answer := by
    cases item with
    | error e => exact ⟨_, .error hw⟩
    | ok t =>
      cases hs : step settings s t.kind with
      | shift next => exact absurd hs (stops next)
      | done b => exact ⟨_, .done hw hs⟩
      | refuse why => exact ⟨_, .refuse hw hs⟩
  obtain ⟨answer, stop⟩ := stop
  refine ⟨before, item, after, stream, (stop.parseItems stream).symm ▸ stop, ?_⟩
  rw [unpulled_eq, unread_withEnd, stream, stop.readItems]

/-- None of the tokens that are taken in front of a stop is an end. -/
lemma Stop.kind_ne_endOfInput {before : List Token} {item : Item}
    {answer : Except SyntaxError Block} (h : Stop settings before item answer) :
    ∀ t ∈ before, t.kind ≠ .endOfInput := by
  cases h with
  | error hw => exact kind_ne_endOfInput_of_walk hw
  | refuse hw _ => exact kind_ne_endOfInput_of_walk hw
  | done hw _ => exact kind_ne_endOfInput_of_walk hw

end Quill
