import Mathlib.Data.List.Forall2
import Quill.Proofs.Stream.Stopping

/-!
# What decides a parse

Nothing of a token but its kind reaches a decision or a tree. Lexemes and places only flow into the
error that is reported at the end. So two streams whose tokens agree in kind, with errors in the
same places, are read alike: both parses stop at the same item (`Stop.transfer`), with the same tree
or with errors that differ in what the item was written as and where it stands.
-/

namespace Quill

variable {settings : Settings}

/-- Two tokens of one kind, or two errors. -/
inductive SameKind : Item → Item → Prop where
  | token {t t' : Token} : t'.kind = t.kind → SameKind (.ok t) (.ok t')
  | error {e e' : LexError} : SameKind (.error e) (.error e')

/-- The token is a number or a string, which messages quote as it was written. -/
def Kind.IsQuoted (k : Kind) : Prop :=
  (∃ x, k = .number x) ∨ ∃ s, k = .string s

/-- The answers of two parses that stop at the two items: the same tree, or errors at the two items
that say the same. -/
inductive Corresponds (limit : Nat) :
    Item → Item → Except SyntaxError Block → Except SyntaxError Block → Prop where
  | tree {t t' : Token} {b} :
    t.kind = .endOfInput →
    Corresponds limit (.ok t) (.ok t') (.ok b) (.ok b)
  | lex {e e' : LexError} :
    Corresponds limit (.error e) (.error e') (.error (.lex e)) (.error (.lex e'))
  | parse {t t' : Token} {expected} :
    (¬ t.kind.IsQuoted → t'.describe = t.describe) →
    Corresponds limit (.ok t) (.ok t') (.error (.parse ⟨t.position, expected, t.describe⟩))
      (.error (.parse ⟨t'.position, expected, t'.describe⟩))
  | nesting {t t' : Token} :
    Corresponds limit (.ok t) (.ok t') (.error (.nestingTooDeep t.position limit))
      (.error (.nestingTooDeep t'.position limit))

/-- A token that is not quoted is described by its kind. -/
lemma describe_eq {t t' : Token} (same : t'.kind = t.kind) (unquoted : ¬ t.kind.IsQuoted) :
    t'.describe = t.describe := by
  unfold Token.describe
  rw [same]
  cases hk : t.kind with
  | number x => exact absurd (.inl ⟨x, hk⟩) unquoted
  | string s => exact absurd (.inr ⟨s, hk⟩) unquoted
  | word _ => rfl
  | operator _ => rfl
  | mark _ => rfl
  | endOfInput => rfl

/-- Refusing two tokens of one kind for one reason makes corresponding errors. -/
lemma corresponds_refusal {t t' : Token} (same : t'.kind = t.kind) (limit : Nat) (why : Refusal) :
    Corresponds limit (.ok t) (.ok t') (.error (why.error limit t)) (.error (why.error limit t')) := by
  cases why with
  | unexpected expected => exact .parse (describe_eq same)
  | tooDeep => exact .nesting

/-- Where a parse stops, it stops at items of the same kinds, with a corresponding answer. -/
lemma Stop.transfer {before before' : List Token} {item item' : Item}
    {answer : Except SyntaxError Block} (h : Stop settings before item answer)
    (kinds : before'.map Token.kind = before.map Token.kind) (same : SameKind item item') :
    ∃ answer', Stop settings before' item' answer' ∧
      Corresponds settings.maxDepth item item' answer answer' := by
  cases h with
  | error hw =>
    cases same
    exact ⟨_, .error (kinds ▸ hw), .lex⟩
  | refuse hw hs =>
    obtain ⟨kind⟩ := same
    exact ⟨_, .refuse (kinds ▸ hw) (kind ▸ hs), corresponds_refusal kind _ _⟩
  | done hw hs =>
    obtain ⟨kind⟩ := same
    exact ⟨_, .done (kinds ▸ hw) (kind ▸ hs), .tree (closed_of_step_done hs).1⟩

/-- A stream of the same kinds is taken apart in the same places. -/
lemma exists_split_of_sameKind {before : List Token} {item : Item} {after items' : List Item}
    (same : List.Forall₂ SameKind (before.map .ok ++ item :: after) items') :
    ∃ (before' : List Token) (item' : Item) (after' : List Item),
      items' = before'.map .ok ++ item' :: after' ∧
      before'.map Token.kind = before.map Token.kind ∧ SameKind item item' := by
  induction before generalizing items' with
  | nil =>
    obtain ⟨item', after', first, _, rfl⟩ := List.forall₂_cons_left_iff.1 same
    exact ⟨[], item', after', rfl, rfl, first⟩
  | cons t before ih =>
    obtain ⟨u, rest, first, others, rfl⟩ := List.forall₂_cons_left_iff.1 same
    obtain ⟨kind⟩ := first
    rename_i t'
    obtain ⟨before', item', after', rfl, kinds, last⟩ := ih others
    refine ⟨t' :: before', item', after', rfl, ?_, last⟩
    rw [List.map_cons, List.map_cons, kind, kinds]

/-- The ends that two streams are read with are of one kind. -/
lemma sameKind_withEnd {items items' : List Item} (same : List.Forall₂ SameKind items items') :
    List.Forall₂ SameKind (withEnd items) (withEnd items') :=
  List.rel_append same (.cons (.token rfl) .nil)

/-- Only kinds decide. Two streams whose tokens agree in kind, item by item, and that have errors in
the same places are parsed up to the same place, and there both give the same tree, or both fail for
the same reason: with the error that the item is, with the same expectations, or at the same limit.
The words for the token that was found differ at most for a number or a string. -/
theorem parse_depends_on_kinds (settings : Settings) {items items' : List Item}
    (same : List.Forall₂ SameKind items items') :
    ∃ (k : Nat) (item item' : Item), (withEnd items)[k]? = some item ∧
      (withEnd items')[k]? = some item' ∧
      Corresponds settings.maxDepth item item' (parseItems settings items)
        (parseItems settings items') := by
  obtain ⟨before, item, after, stream, stop, _⟩ := exists_stop settings items
  have ends := sameKind_withEnd same
  rw [stream] at ends
  obtain ⟨before', item', after', stream', kinds, last⟩ := exists_split_of_sameKind ends
  obtain ⟨answer', stop', corresponds⟩ := stop.transfer kinds last
  have length : before'.length = before.length := by
    have lengths := congrArg List.length kinds
    rwa [List.length_map, List.length_map] at lengths
  refine ⟨before.length, item, item', ?_, ?_, ?_⟩
  · simp [stream]
  · simp [stream', ← length]
  · rw [stop'.parseItems stream']
    exact corresponds

/-- A brace, a number and a string, written and placed in any way. -/
def strayString (brace number string : String) (p : Position) : List Item :=
  [.ok ⟨.mark .leftBrace, brace, .start⟩, .ok ⟨.number (.zero false), number, p⟩,
    .ok ⟨.string "", string, p⟩]

/-- The string is refused wherever it stands, and only its own spelling is repeated. -/
theorem parse_strayString :
    List.Forall₂ SameKind (strayString "\x7b" "0" "\"\"" ⟨1, 1, 2⟩)
      (strayString "brace" "one" "text" ⟨7, 3, 1⟩) ∧
    (∃ (k : Nat) (item item' : Item),
      (withEnd (strayString "\x7b" "0" "\"\"" ⟨1, 1, 2⟩))[k]? = some item ∧
      (withEnd (strayString "brace" "one" "text" ⟨7, 3, 1⟩))[k]? = some item' ∧
      Corresponds 128 item item' (parseItems {} (strayString "\x7b" "0" "\"\"" ⟨1, 1, 2⟩))
        (parseItems {} (strayString "brace" "one" "text" ⟨7, 3, 1⟩))) ∧
    parseItems {} (strayString "brace" "one" "text" ⟨7, 3, 1⟩) =
      .error (.parse ⟨⟨7, 3, 1⟩, ["`;`"], "string text"⟩) := by
  have same : List.Forall₂ SameKind (strayString "\x7b" "0" "\"\"" ⟨1, 1, 2⟩)
      (strayString "brace" "one" "text" ⟨7, 3, 1⟩) :=
    .cons (.token rfl) (.cons (.token rfl) (.cons (.token rfl) .nil))
  refine ⟨same, parse_depends_on_kinds {} same, ?_⟩
  cbv

end Quill
