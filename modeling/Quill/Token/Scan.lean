import Quill.Error.Basic
import Quill.Token.Basic
import Quill.Token.Trivia
import Quill.Token.Numeral
import Quill.Token.StringLiteral

/-!
# Scanning

From text to tokens. `scanSymbol` takes the longest token at the front of a text, `Scanner.next?`
skips trivia and takes one token with its place, and `Scanner.items` runs to the end. The last item
of every text is the token at its end or the first error; after either the scanner is finished.
-/

namespace Quill

/-- What a scanner yields: a token or an error. -/
abbrev Item := Except LexError Token

/-- What stands at the front of a text: a token's kind with the characters it takes, or a fault with
the characters before it. -/
inductive Symbol where
  | token (kind : Kind) (cut : Cut)
  | fault (before : List Char) (reason : LexReason)

/-- Whether a word may start with the character. -/
def isWordStart (c : Char) : Bool :=
  c.isAlpha || c == '_'

/-- Whether a word may go on with the character. -/
def isWordChar (c : Char) : Bool :=
  c.isAlphanum || c == '_'

/-- The operator at the front of a text. Two characters win over one. -/
def scanOperator? : List Char → Option (Operator × Cut)
  | '=' :: '=' :: cs => some (.equalEqual, ⟨['=', '='], cs⟩)
  | '!' :: '=' :: cs => some (.bangEqual, ⟨['!', '='], cs⟩)
  | '<' :: '=' :: cs => some (.lessEqual, ⟨['<', '='], cs⟩)
  | '>' :: '=' :: cs => some (.greaterEqual, ⟨['>', '='], cs⟩)
  | '!' :: cs => some (.bang, ⟨['!'], cs⟩)
  | '<' :: cs => some (.less, ⟨['<'], cs⟩)
  | '>' :: cs => some (.greater, ⟨['>'], cs⟩)
  | '+' :: cs => some (.plus, ⟨['+'], cs⟩)
  | '-' :: cs => some (.minus, ⟨['-'], cs⟩)
  | '*' :: cs => some (.star, ⟨['*'], cs⟩)
  | '/' :: cs => some (.slash, ⟨['/'], cs⟩)
  | _ => none

/-- The string literal behind an opening quote, or its fault. -/
def stringSymbol (cs : List Char) : Symbol :=
  match scanString cs with
  | .closed value cut => .token (.string (String.ofList value)) (cut.prepend ['"'])
  | .unterminated => .fault [] .unterminatedString
  | .badEscape before letter => .fault ('"' :: before) (.invalidEscape letter)

/-- The token of a number literal, or the fault that its value is too great for a double. -/
def numberSymbol (d : Decimal) (rest : List Char) : Symbol :=
  match Double.ofDecimal? d with
  | some value => .token (.number value) ⟨d.spell, rest⟩
  | none => .fault [] (.invalidNumber (String.ofList d.spell))

/-- The token at the front of the text `c :: cs`, or its fault. -/
def scanSymbol (c : Char) (cs : List Char) : Symbol :=
  match scanNumeral? (c :: cs) with
  | some (d, rest) => numberSymbol d rest
  | none =>
    if c = '"' then
      stringSymbol cs
    else if isWordStart c then
      let word := (Cut.takeWhile isWordChar cs).prepend [c]
      .token (.word (String.ofList word.taken)) word
    else
      match Mark.ofChar? c with
      | some m => .token (.mark m) ⟨[c], cs⟩
      | none =>
        match scanOperator? (c :: cs) with
        | some (op, cut) => .token (.operator op) cut
        | none => .fault [] (.unexpectedChar c)

/-- An operator that is scanned is a part of the text, and not empty. -/
theorem text_of_scanOperator? {cs : List Char} {op : Operator} {cut : Cut}
    (h : scanOperator? cs = some (op, cut)) : cut.text = cs ∧ cut.taken ≠ [] := by
  unfold scanOperator? at h
  split at h <;> cases h <;> exact ⟨rfl, by simp⟩

/-- A token is cut from its text and has at least one character. -/
theorem text_of_scanSymbol {c : Char} {cs : List Char} {kind : Kind} {cut : Cut}
    (h : scanSymbol c cs = .token kind cut) : cut.text = c :: cs ∧ cut.taken ≠ [] := by
  unfold scanSymbol at h
  split at h
  · rename_i d rest hn
    unfold numberSymbol at h
    split at h <;> cases h
    exact ⟨spell_of_scanNumeral? hn, spell_ne_nil_of_scanNumeral? hn⟩
  · split at h
    · rename_i hq
      subst hq
      unfold stringSymbol at h
      split at h <;> cases h
      rename_i hs
      simp [(text_of_scanString hs).1]
    · split at h
      · cases h
        simp
      · split at h
        · cases h
          exact ⟨rfl, by simp⟩
        · split at h
          · rename_i ho
            cases h
            exact text_of_scanOperator? ho
          · cases h

/-- Where a scanner stands: the text it has not read and that text's place, or nothing once the last
item is out. -/
structure Scanner where
  position : Position
  rest : Option (List Char)

namespace Scanner

/-- A scanner in front of a text. -/
def ofText (source : String) : Scanner :=
  ⟨.start, some source.toList⟩

/-- The scanner after its last item. -/
def finished (p : Position) : Scanner :=
  ⟨p, none⟩

/-- How much is left to read, the end of the text counted as one. -/
def size (s : Scanner) : Nat :=
  s.rest.elim 0 (·.length + 1)

/-- The item at the front of a text at the place `p`, and the scanner behind it. -/
def read (p : Position) (cs : List Char) : Item × Scanner :=
  match skipTrivia cs with
  | .unclosed before =>
    let here := p.after before
    (.error ⟨here, .unterminatedComment⟩, finished here)
  | .skipped gap =>
    let here := p.after gap.taken
    match gap.rest with
    | [] => (.ok (.endAt here), finished here)
    | c :: rest =>
      match scanSymbol c rest with
      | .fault before reason =>
        (.error ⟨here.after before, reason⟩, finished here)
      | .token kind cut =>
        (.ok ⟨kind, String.ofList cut.taken, here⟩, ⟨here.after cut.taken, some cut.rest⟩)

/-- The next item, until the end of the text or the first error has come out. -/
def next? (s : Scanner) : Option (Item × Scanner) :=
  s.rest.map (read s.position)

end Scanner

/-- Skipped trivia is cut from its text. -/
theorem text_of_skipTrivia {cs : List Char} {cut : Cut} (h : skipTrivia cs = .skipped cut) :
    cut.text = cs := by
  fun_induction skipTrivia cs generalizing cut with
  | case1 => simp at h
  | case2 cs comment hc _ ih =>
    cases hs : skipTrivia comment.rest <;> rw [hs] at h <;> simp [Trivia.prepend] at h
    subst h
    have := text_of_closeComment? hc
    simp only [Cut.text] at this
    simp [ih hs, this]
  | case3 c cs _ _ ih =>
    cases hs : skipTrivia cs <;> rw [hs] at h <;> simp [Trivia.prepend] at h
    subst h
    simp [ih hs]
  | case4 =>
    cases h
    rfl
  | case5 =>
    cases h
    rfl

namespace Scanner

/-- Every item makes the scanner's text shorter. -/
theorem size_of_next? {s t : Scanner} {item : Item} (h : s.next? = some (item, t)) :
    t.size < s.size := by
  obtain ⟨p, cs | cs⟩ := s
  · simp [next?] at h
  · simp only [next?, Option.map_some, Option.some.injEq] at h
    simp only [size, Option.elim]
    unfold read at h
    split at h
    · cases h
      simp [finished]
    · rename_i gap hg
      have hl := Cut.length_rest (text_of_skipTrivia hg)
      dsimp only at h
      split at h
      · cases h
        simp [finished]
      · rename_i c rest hr
        split at h
        · cases h
          simp [finished]
        · rename_i kind cut hk
          cases h
          obtain ⟨ht, hne⟩ := text_of_scanSymbol hk
          have hc := Cut.length_rest ht
          have := List.length_pos_iff.2 hne
          rw [hr, List.length_cons] at hl
          rw [List.length_cons] at hc
          change cut.rest.length + 1 < cs.length + 1
          omega

/-- Every item, in order. -/
def items (s : Scanner) : List Item :=
  match h : s.next? with
  | none => []
  | some (item, t) =>
    have := size_of_next? h
    item :: t.items
termination_by s.size

end Scanner

/-- The items of a text: its tokens, and the error that stops them if there is one. -/
def tokenize (source : String) : List Item :=
  (Scanner.ofText source).items

/-- The tokens of a text, or its first error. -/
def tokenizeAll (source : String) : Except LexError (List Token) :=
  (tokenize source).mapM id

/-- The lexemes of tokens with one blank between them: a text with the same tokens, elsewhere. -/
def joinLexemes (ts : List Token) : String :=
  " ".intercalate (ts.map Token.lexeme)

end Quill
