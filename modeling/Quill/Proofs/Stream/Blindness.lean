import Quill.Proofs.Stream.Stopping

/-!
# What a parse does not see

A parse asks a token for its kind. Only when it refuses the token does it look further: the error
describes the token, by its kind and its lexeme, and says where it stands. So two streams of tokens
that differ in nothing but places have the same tree, or errors that differ in nothing but places.
-/

namespace Quill

variable {settings : Settings}

/-- What a token is apart from its place. -/
def Token.content (t : Token) : Kind × String :=
  (t.kind, t.lexeme)

/-- Two answers with the same tree, or with errors of one code and one message. -/
inductive Alike : Except SyntaxError Block → Except SyntaxError Block → Prop where
  | tree {b} : Alike (.ok b) (.ok b)
  | error {e e'} :
    e.code = e'.code →
    e.message = e'.message →
    Alike (.error e) (.error e')

/-- A refusal of the same token elsewhere has the same words. -/
lemma alike_refusal {t t' : Token} (same : t'.content = t.content) (limit : Nat) (why : Refusal) :
    Alike (.error (why.error limit t)) (.error (why.error limit t')) := by
  obtain ⟨kind, lexeme, p⟩ := t
  obtain ⟨kind', lexeme', p'⟩ := t'
  cases same
  cases why with
  | unexpected _ => exact .error rfl rfl
  | tooDeep => exact .error rfl rfl

/-- Tokens that differ in their places alone have the same kinds. -/
lemma kinds_of_contents {ts ts' : List Token} (same : ts'.map Token.content = ts.map Token.content) :
    ts'.map Token.kind = ts.map Token.kind := by
  have firsts := congrArg (List.map Prod.fst) same
  rwa [List.map_map, List.map_map] at firsts

/-- Where a parse stops at a token, it stops at the same token elsewhere. -/
lemma Stop.alike {before before' : List Token} {t t' : Token} {answer : Except SyntaxError Block}
    (h : Stop settings before (.ok t) answer)
    (same : before'.map Token.content = before.map Token.content)
    (same_token : t'.content = t.content) :
    ∃ answer', Stop settings before' (.ok t') answer' ∧ Alike answer answer' := by
  have kinds := kinds_of_contents same
  have kind : t'.kind = t.kind := (Prod.mk.inj same_token).1
  cases h with
  | refuse hw hs =>
    exact ⟨_, .refuse (kinds ▸ hw) (kind ▸ hs), alike_refusal same_token _ _⟩
  | done hw hs => exact ⟨_, .done (kinds ▸ hw) (kind ▸ hs), .tree⟩

/-- Tokens with the end that a dry stream is given are tokens and an end. -/
lemma withEnd_tokens (ts : List Token) :
    ∃ last : Token, last.content = (.endOfInput, "") ∧
      withEnd (ts.map .ok) = (ts ++ [last]).map .ok :=
  ⟨.endAt (endPlace (ts.map .ok)), rfl, by rw [withEnd, List.map_append]; rfl⟩

/-- Streams of tokens that differ in nothing but places have answers that differ in nothing else. -/
theorem parseItems_alike (settings : Settings) {ts ts' : List Token}
    (same : ts'.map Token.content = ts.map Token.content) :
    Alike (parseItems settings (ts.map .ok)) (parseItems settings (ts'.map .ok)) := by
  obtain ⟨before, item, after, stream, stop, _⟩ := exists_stop settings (ts.map .ok)
  obtain ⟨last, end_content, end_stream⟩ := withEnd_tokens ts
  obtain ⟨last', end_content', end_stream'⟩ := withEnd_tokens ts'
  have same_all : (ts' ++ [last']).map Token.content = (ts ++ [last]).map Token.content := by
    simp [same, end_content, end_content']
  -- The item is a token, and the other stream has one of the same content at its place.
  rw [stream] at end_stream
  obtain ⟨front, back, split, hfront, hback⟩ := List.map_eq_append_iff.1 end_stream.symm
  obtain ⟨t, rest, rfl, rfl, rfl⟩ := List.map_eq_cons_iff.1 hback
  obtain rfl : front = before := (List.map_inj_right fun _ _ => Except.ok.inj).1 hfront
  rw [split] at same_all
  obtain ⟨front', back', split', same_front, same_back⟩ :=
    List.map_eq_append_iff.1 (same_all.trans List.map_append)
  obtain ⟨t', rest', rfl, same_token, _⟩ := List.map_eq_cons_iff.1 same_back
  obtain ⟨answer', stop', alike⟩ := stop.alike same_front same_token
  have stream' : withEnd (ts'.map .ok) = front'.map .ok ++ .ok t' :: rest'.map .ok := by
    rw [end_stream', split', List.map_append, List.map_cons]
  rw [stop'.parseItems stream']
  exact alike

end Quill
