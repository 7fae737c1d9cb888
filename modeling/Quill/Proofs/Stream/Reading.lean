import Quill.Grammar.Parser
import Quill.Proofs.Grammar.Walk

/-!
# Reading a stream

A parse as a walk over a stream of items. `readItems settings s items` is what comes of standing in
the state `s` in front of `items`, the item that is looked at included: the answer, and the items
that were never pulled. It is `run` with the look-ahead put back into the stream, so each step of
the machine takes one item (`readItems_of_shift`).

A stream that runs dry is read as if one end stood behind its last token (`readItems_withEnd`), so
statements about all streams are statements about streams with an end in them. On those, a parse
stops at one item, with the items before it taken and the items behind it not pulled
(`exists_stopsAt`).
-/

namespace Quill

variable {g : Goal} {settings : Settings}

/-- The answer of a run and the items it has not pulled. -/
def outcome (out : Except SyntaxError g.Result × Token × List Item) :
    Except SyntaxError g.Result × List Item :=
  (out.1, out.2.2)

/-- Reads a stream from a state. The answer comes with the items that were not pulled. -/
def readItems (settings : Settings) (s : State g) :
    List Item → Except SyntaxError g.Result × List Item
  | .ok t :: items => outcome (run settings s t items)
  | .error e :: items => (.error (.lex e), items)
  | [] => outcome (run settings s (.endAt .start) [])

/-- A parse of a program reads the stream from the initial state. -/
lemma parseItems_eq (items : List Item) :
    parseItems settings items = (readItems settings (State.initial .program) items).1 := by
  cases items with
  | nil => rfl
  | cons item _ => cases item <;> rfl

/-- The items that a parse of a program does not pull. -/
def unpulled (settings : Settings) (items : List Item) : List Item :=
  match Parser.start settings items with
  | .ok p => (p.parse .program).2.unread
  | .error _ => items.tail

/-- What a parse does not pull is what is left behind the reading of its stream. -/
lemma unpulled_eq (items : List Item) :
    unpulled settings items = (readItems settings (State.initial .program) items).2 := by
  cases items with
  | nil => rfl
  | cons item _ => cases item <;> rfl

/-! ## One step on a stream -/

/-- A run ends with the construct that it finds. -/
lemma run_of_done {s : State g} {t : Token} {r : g.Result} (items : List Item)
    (h : step settings s t.kind = .done r) : run settings s t items = (.ok r, t, items) := by
  rw [run]
  split <;> rename_i hs <;> rw [h] at hs <;> cases hs
  rfl

/-- A run ends with the error of a refusal. -/
lemma run_of_refuse {s : State g} {t : Token} {why : Refusal} (items : List Item)
    (h : step settings s t.kind = .refuse why) :
    run settings s t items = (.error (why.error settings.maxDepth t), t, items) := by
  rw [run]
  split <;> rename_i hs <;> rw [h] at hs <;> cases hs
  rfl

/-- Behind a token that is taken, a run goes on with the next one. -/
lemma run_of_pull {s next : State g} {t : Token} (u : Token) (items : List Item)
    (h : step settings s t.kind = .shift next) :
    run settings s t (.ok u :: items) = run settings next u items := by
  rw [run]
  split <;> rename_i hs <;> rw [h] at hs <;> cases hs
  rfl

/-- An error that is pulled leaves the look-ahead where it is. -/
lemma run_of_error {s next : State g} {t : Token} (e : LexError) (items : List Item)
    (h : step settings s t.kind = .shift next) :
    run settings s t (.error e :: items) = (.error (.lex e), t, items) := by
  rw [run]
  split <;> rename_i hs <;> rw [h] at hs <;> cases hs

/-- Behind the last token, a run goes on with the end. -/
lemma run_of_dry {s next : State g} {t : Token} (h : step settings s t.kind = .shift next) :
    run settings s t [] = run settings next (.endAt t.endPosition) [] := by
  rw [run]
  split <;> rename_i hs <;> rw [h] at hs <;> cases hs
  rfl

/-- A reading ends with the construct that it finds. -/
lemma readItems_of_done {s : State g} {t : Token} {items : List Item} {r : g.Result}
    (h : step settings s t.kind = .done r) :
    readItems settings s (.ok t :: items) = (.ok r, items) := by
  rw [readItems, run_of_done items h]
  rfl

/-- A reading ends with the error of a refusal. -/
lemma readItems_of_refuse {s : State g} {t : Token} {items : List Item} {why : Refusal}
    (h : step settings s t.kind = .refuse why) :
    readItems settings s (.ok t :: items) = (.error (why.error settings.maxDepth t), items) := by
  rw [readItems, run_of_refuse items h]
  rfl

/-- A token that is taken leaves the rest of the stream to the next state. -/
lemma readItems_of_shift {s next : State g} {t : Token} {item : Item} {items : List Item}
    (h : step settings s t.kind = .shift next) :
    readItems settings s (.ok t :: item :: items) = readItems settings next (item :: items) := by
  cases item with
  | ok u =>
    rw [readItems, run_of_pull u items h]
    rfl
  | error e =>
    rw [readItems, run_of_error e items h]
    rfl

/-- A stream that runs dry goes on with the end behind its last token. -/
lemma readItems_of_shift_dry {s next : State g} {t : Token}
    (h : step settings s t.kind = .shift next) :
    readItems settings s [.ok t] = readItems settings next [.ok (.endAt t.endPosition)] := by
  rw [readItems, run_of_dry h]
  rfl

/-! ## The end of a stream that runs dry -/

/-- The place where a stream that runs dry is read as ending. -/
def endPlace (items : List Item) : Position :=
  match items.getLast? with
  | some (.ok t) => t.endPosition
  | _ => .start

/-- The stream with the end that a dry stream is read with. -/
def withEnd (items : List Item) : List Item :=
  items ++ [.ok (.endAt (endPlace items))]

/-- The end that a dry stream is given stands behind all of its items. -/
lemma withEnd_cons_cons (i j : Item) (items : List Item) :
    withEnd (i :: j :: items) = i :: withEnd (j :: items) := by
  simp [withEnd, endPlace]

/-- A stream is read as if it had an end. -/
theorem readItems_withEnd (s : State g) (items : List Item) :
    (readItems settings s (withEnd items)).1 = (readItems settings s items).1 := by
  induction items generalizing s with
  | nil => rfl
  | cons item items ih =>
    match item, items with
    | .error e, _ => rfl
    | .ok t, [] =>
      change (readItems settings s [.ok t, .ok (.endAt t.endPosition)]).1 = _
      cases hs : step settings s t.kind with
      | shift next => rw [readItems_of_shift hs, readItems_of_shift_dry hs]
      | done r => rw [readItems_of_done hs, readItems_of_done hs]
      | refuse why => rw [readItems_of_refuse hs, readItems_of_refuse hs]
    | .ok t, j :: items =>
      rw [withEnd_cons_cons]
      cases hs : step settings s t.kind with
      | shift next =>
        rw [readItems_of_shift hs, ← ih next]
        rw [withEnd, List.cons_append, readItems_of_shift hs]
      | done r => rw [readItems_of_done hs, readItems_of_done hs]
      | refuse why => rw [readItems_of_refuse hs, readItems_of_refuse hs]

/-- Nothing is left of a stream with one token. -/
lemma unread_single (s : State g) (t : Token) : (readItems settings s [.ok t]).2 = [] := by
  have unread : ∀ (s : State g) (u : Token), u.kind = .endOfInput →
      (readItems settings s [.ok u]).2 = [] := by
    intro s u hu
    cases hs : step settings s u.kind with
    | shift next => exact absurd hs (hu ▸ step_endOfInput settings s next)
    | done r => rw [readItems_of_done hs]
    | refuse why => rw [readItems_of_refuse hs]
  cases hs : step settings s t.kind with
  | shift next =>
    rw [readItems_of_shift_dry hs]
    exact unread next _ rfl
  | done r => rw [readItems_of_done hs]
  | refuse why => rw [readItems_of_refuse hs]

/-- What is left of a stream is left of the stream with its end, up to that end. -/
lemma unread_withEnd (s : State g) (items : List Item) :
    (readItems settings s items).2 = (readItems settings s (withEnd items)).2.dropLast := by
  induction items generalizing s with
  | nil =>
    let only : List Item := [.ok (.endAt .start)]
    change (readItems settings s only).2 = (readItems settings s only).2.dropLast
    rw [unread_single, List.dropLast_nil]
  | cons item items ih =>
    match item, items with
    | .error e, items => exact List.dropLast_concat.symm
    | .ok t, [] =>
      rw [unread_single]
      change [] = (readItems settings s [.ok t, .ok (.endAt t.endPosition)]).2.dropLast
      cases hs : step settings s t.kind with
      | shift next => rw [readItems_of_shift hs, unread_single, List.dropLast_nil]
      | done r => rw [readItems_of_done hs, List.dropLast_singleton]
      | refuse why => rw [readItems_of_refuse hs, List.dropLast_singleton]
    | .ok t, j :: items =>
      rw [withEnd_cons_cons]
      cases hs : step settings s t.kind with
      | shift next =>
        rw [readItems_of_shift hs, ih next, withEnd, List.cons_append, readItems_of_shift hs]
      | done r =>
        rw [readItems_of_done hs, readItems_of_done hs]
        exact List.dropLast_concat.symm
      | refuse why =>
        rw [readItems_of_refuse hs, readItems_of_refuse hs]
        exact List.dropLast_concat.symm

/-- A parse of a stream is the parse of the stream with its end. -/
lemma parseItems_withEnd (items : List Item) :
    parseItems settings (withEnd items) = parseItems settings items := by
  rw [parseItems_eq, parseItems_eq, readItems_withEnd]

/-! ## Where a parse stops -/

/-- Tokens that a walk takes leave the rest of the stream to the state it reaches. -/
lemma readItems_of_walk {s next : State g} {ts : List Token} {item : Item} {items : List Item}
    (h : walk settings s (ts.map Token.kind) = .shift next) :
    readItems settings s (ts.map .ok ++ item :: items) = readItems settings next (item :: items) := by
  induction ts generalizing s with
  | nil =>
    cases h
    rfl
  | cons t ts ih =>
    rw [List.map_cons, walk] at h
    split at h
    · rename_i hs
      rw [← ih h]
      cases ts with
      | nil => exact readItems_of_shift hs
      | cons u ts => exact readItems_of_shift hs
    · cases h
    · cases h

/-- The stream has an end in it. -/
def HasEnd (items : List Item) : Prop :=
  ∃ t, .ok t ∈ items ∧ t.kind = .endOfInput

/-- With the end that a dry stream is given, a stream has an end. -/
lemma hasEnd_withEnd (items : List Item) : HasEnd (withEnd items) :=
  ⟨.endAt (endPlace items), List.mem_append_right _ List.mem_cons_self, rfl⟩

/-- The machine stops at the item: it is an error, or a token that is not taken. -/
def StopsAt (settings : Settings) (s : State g) : Item → Prop
  | .ok t => (step settings s t.kind).Stays
  | .error _ => True

/-- On a stream with an end, the machine takes tokens and stops at an item. -/
theorem exists_stopsAt (settings : Settings) {items : List Item} (h : HasEnd items) (s : State g) :
    ∃ (ts : List Token) (item : Item) (after : List Item) (next : State g),
      items = ts.map .ok ++ item :: after ∧
      walk settings s (ts.map Token.kind) = .shift next ∧ StopsAt settings next item := by
  induction items generalizing s with
  | nil =>
    obtain ⟨t, ht, _⟩ := h
    cases ht
  | cons item items ih =>
    cases item with
    | error e => exact ⟨[], .error e, items, s, rfl, rfl, trivial⟩
    | ok t =>
      cases hs : step settings s t.kind with
      | shift next =>
        -- The end is never taken, so it is still ahead.
        have tail : HasEnd items := by
          obtain ⟨u, hu, hk⟩ := h
          cases hu with
          | head => exact absurd hs (hk ▸ step_endOfInput settings s next)
          | tail _ hu => exact ⟨u, hu, hk⟩
        obtain ⟨ts, item, after, last, rfl, hw, stops⟩ := ih tail next
        refine ⟨t :: ts, item, after, last, rfl, ?_, stops⟩
        rw [List.map_cons, walk_cons_of_shift hs]
        exact hw
      | done r =>
        refine ⟨[], .ok t, items, s, rfl, rfl, ?_⟩
        simp only [StopsAt, hs]
        exact Move.stays_done r
      | refuse why =>
        refine ⟨[], .ok t, items, s, rfl, rfl, ?_⟩
        simp only [StopsAt, hs]
        exact Move.stays_refuse why

/-- A walk over tokens passes over no end. -/
lemma kind_ne_endOfInput_of_walk {s next : State g} {ts : List Token}
    (h : walk settings s (ts.map Token.kind) = .shift next) : ∀ t ∈ ts, t.kind ≠ .endOfInput := by
  induction ts generalizing s with
  | nil => nofun
  | cons t ts ih =>
    rw [List.map_cons, walk] at h
    split at h
    · rename_i mid hs
      intro u hu
      cases hu with
      | head =>
        intro hk
        exact step_endOfInput settings s mid (hk ▸ hs)
      | tail _ hu => exact ih h u hu
    · cases h
    · cases h

end Quill
