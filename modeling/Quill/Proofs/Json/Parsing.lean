import Quill.Proofs.Json.Rendering

/-!
# What is read as JSON

The reader takes no text but those that spell a value, so a text is read as a value exactly if it
spells that value (`parse?_eq_some_iff`). Numbers and strings are taken apart where the reader takes
them, and the pieces are followed with the frames that are open: each frame waits for the rest of
its array or object, and hands the whole to the frame around it (`Closes`).
-/

namespace Quill

namespace Json

/-! ## Numbers -/

/-- The minus sign that is read and what stands behind it make up the text. -/
lemma readMinus_spell (cs : List Char) :
    (if (readMinus cs).1 then ['-'] else []) ++ (readMinus cs).2 = cs := by
  unfold readMinus
  split <;> rfl

/-- A number is read where one is spelled. -/
lemma spell_of_readNumber? {cs rest : List Char} {d : Decimal}
    (h : readNumber? cs = some (d, rest)) : d.IsJson ∧ cs = d.spell ++ rest := by
  unfold readNumber? at h
  dsimp only at h
  split at h
  · cases h
  · rename_i valid
    cases h
    obtain ⟨ne, valid⟩ := not_or.1 valid
    obtain ⟨leading, pointed⟩ := not_or.1 valid
    refine ⟨⟨areDigits_takeWhile _, ne, fun zero => ?_, fun ds hds => ?_,
      isLiteral_of_scanExponent⟩, ?_⟩
    · by_contra longer
      exact leading ⟨zero, longer⟩
    · refine ⟨areDigits_of_scanFraction ds hds, ?_⟩
      rintro rfl
      exact pointed hds
    · have digits := Cut.text_takeWhile Char.isDigit (readMinus cs).2
      rw [Cut.text] at digits
      rw [spell_eq, List.append_assoc, List.append_assoc, List.append_assoc, scanExponent_spell,
        scanFraction_spell, digits, readMinus_spell]

/-! ## Strings -/

/-- One unit of a string, as it stands between the quotes: a character as itself or behind a
backslash, or a unit of UTF-16. -/
inductive SpellsOne : Nat → List Char → Prop where
  | plain {c} :
    c ≠ '"' →
    c ≠ '\\' →
    0x20 ≤ c.toNat →
    SpellsOne c.toNat [c]
  | letter {e c} :
    LetterEscape e c →
    SpellsOne c.toNat ['\\', e]
  | unit {n unit} :
    SpellsUnit n unit →
    SpellsOne n unit

/-- Units one after the other. -/
inductive SpellsUnits : List Nat → List Char → Prop where
  | nil : SpellsUnits [] []
  | cons {n us front rest} :
    SpellsOne n front →
    SpellsUnits us rest →
    SpellsUnits (n :: us) (front ++ rest)

section

variable {c : Char} {n : Nat} {us : List Nat} {cs rest front body unit : List Char}

/-- What is read as an escape by a letter is spelled by that escape. -/
lemma letterEscape_of_escape? {e : Char} (h : escape? e = some c) : LetterEscape e c := by
  unfold escape? at h
  split at h <;> cases h <;> constructor

/-- Units are read where they are spelled. -/
lemma spellsUnits_of_readUnits? (h : readUnits? cs = some (us, rest)) :
    ∃ body, cs = body ++ '"' :: rest ∧ SpellsUnits us body := by
  fun_induction readUnits? cs generalizing us rest with
  | case1 => cases h
  | case2 =>
    cases h
    exact ⟨[], rfl, .nil⟩
  | case3 a b c d more n quad ih =>
    obtain ⟨⟨us, rest⟩, read, same⟩ := Option.map_eq_some_iff.1 h
    cases same
    obtain ⟨body, rfl, spelled⟩ := ih read
    obtain ⟨i, j, k, l, ha, hb, hc, hd, rfl⟩ := hexQuad?_eq_some_iff.1 quad
    exact ⟨_, rfl, .cons (.unit (.digits ha hb hc hd)) spelled⟩
  | case4 => cases h
  | case5 e more _ c escape ih =>
    obtain ⟨⟨us, rest⟩, read, same⟩ := Option.map_eq_some_iff.1 h
    cases same
    obtain ⟨body, rfl, spelled⟩ := ih read
    exact ⟨_, rfl, .cons (.letter (letterEscape_of_escape? escape)) spelled⟩
  | case6 => cases h
  | case7 => cases h
  | case8 c more quote _ backslash control ih =>
    obtain ⟨⟨us, rest⟩, read, same⟩ := Option.map_eq_some_iff.1 h
    cases same
    obtain ⟨body, rfl, spelled⟩ := ih read
    refine ⟨_, rfl, .cons (.plain quote (fun hc => ?_) (Nat.le_of_not_lt control)) spelled⟩
    obtain ⟨e, more, text⟩ := List.exists_cons_of_ne_nil
      (List.append_ne_nil_of_right_ne_nil body (List.cons_ne_nil '"' rest))
    exact backslash e more hc text

/-- The text of a unit spells no other unit. -/
lemma SpellsUnit.unique {m : Nat} (h : SpellsUnit m unit) (h' : SpellsUnit n unit) : m = n := by
  cases h with
  | digits ha hb hc hd =>
    cases h' with
    | digits ha' hb' hc' hd' =>
      rw [ha.unique ha', hb.unique hb', hc.unique hc', hd.unique hd']

/-- Every code point that is no surrogate belongs to a character. -/
lemma exists_char (h : n.isValidChar) : ∃ c : Char, c.toNat = n :=
  ⟨Char.ofNatAux n h, rfl⟩

/-- A unit that is no half of a pair is a character. -/
lemma SpellsOne.char (h : SpellsOne n front) (high : ¬ IsHigh n) (low : ¬ IsLow n) :
    ∃ c : Char, c.toNat = n ∧ SpellsChar c front := by
  cases h with
  | plain quote backslash visible => exact ⟨_, rfl, .plain quote backslash visible⟩
  | letter he => exact ⟨_, rfl, .letter he⟩
  | unit hu =>
    have valid : n.isValidChar := by
      cases hu with
      | digits ha hb hc hd =>
        have := ha.lt
        have := hb.lt
        have := hc.lt
        have := hd.lt
        unfold IsHigh at high
        unfold IsLow at low
        unfold Nat.isValidChar
        omega
    obtain ⟨c, rfl⟩ := exists_char valid
    exact ⟨c, rfl, .unit hu⟩

/-- Half of a pair is written as a unit. -/
lemma SpellsOne.half (h : SpellsOne n front) (half : IsHigh n ∨ IsLow n) : SpellsUnit n front := by
  cases h with
  | plain | letter => exact absurd half (not_or.2 (not_half _))
  | unit hu => exact hu

/-- A unit of UTF-16 in front of a string is its first unit. -/
lemma SpellsUnits.head (h : SpellsUnits us body) (hu : SpellsUnit n unit)
    (text : body = unit ++ rest) : us.head? = some n := by
  cases hu with
  | @digits a b c d i j k l ha hb hc hd =>
    cases h with
    | nil => cases text
    | cons one more =>
      cases one with
      | plain _ backslash _ =>
        cases text
        exact absurd rfl backslash
      | letter he =>
        cases text
        cases he
      | unit hu' =>
        have same := hu'
        cases hu' with
        | digits =>
          cases text
          rw [same.unique (.digits ha hb hc hd)]
          rfl

/-- Both halves of a pair name a character. -/
lemma exists_of_joinPair? {m point : Nat} (h : joinPair? m n = some point) :
    IsHigh m ∧ IsLow n ∧ ∃ c : Char, c.toNat = point ∧
      point = 0x10000 + (m - 0xd800) * 0x400 + (n - 0xdc00) := by
  unfold joinPair? at h
  split at h
  · rename_i range
    obtain ⟨low, high, low', high'⟩ := range
    have named := Option.some.inj h
    have valid : point.isValidChar := by
      unfold Nat.isValidChar
      omega
    obtain ⟨c, hc⟩ := exists_char valid
    exact ⟨⟨low, high⟩, ⟨low', high'⟩, c, hc, named.symm⟩
  · cases h

/-- A unit that is not joined with the next one is a character, or half of a pair that stands
alone. -/
lemma spellsString_apart (one : SpellsOne n front) (more : SpellsUnits us rest)
    (behind : SpellsString (ofUnits? us) rest) (apart : IsHigh n → ∀ m ∈ us.head?, ¬ IsLow m) :
    SpellsString (ofUnits? (n :: us)) (front ++ rest) := by
  by_cases half : IsHigh n ∨ IsLow n
  · rw [ofUnits?_half half apart]
    refine .half (one.half half) half (fun high m low text hm second same => ?_) behind
    exact apart high m (more.head hm same) second
  · obtain ⟨high, low⟩ := not_or.1 half
    obtain ⟨c, rfl, spelled⟩ := one.char high low
    rw [ofUnits?_char]
    exact .char spelled behind

/-- What units name is what they spell between quotes. -/
lemma SpellsUnits.spellsString (h : SpellsUnits us body) : SpellsString (ofUnits? us) body := by
  fun_induction ofUnits? us generalizing body with
  | case1 =>
    cases h
    exact .nil
  | case2 n =>
    cases h with
    | cons one more =>
      cases more
      exact spellsString_apart one .nil .nil nofun
  | case3 m n us point joined ih =>
    cases h with
    | cons one more =>
      cases more with
      | cons two more =>
        obtain ⟨high, low, c, rfl, point⟩ := exists_of_joinPair? joined
        rw [← List.append_assoc, scalar?_eq_some_iff.2 rfl, Option.bind_some]
        exact .char (.pair (one.half (.inl high)) (two.half (.inr low)) high low point) (ih more)
  | case4 m n us apart ih =>
    cases h with
    | cons one more =>
      have alone : IsHigh m → ∀ k ∈ (n :: us).head?, ¬ IsLow k := by
        rintro high _ ⟨⟩ low
        rw [joinPair?, if_pos ⟨high.1, high.2, low.1, low.2⟩] at apart
        cases apart
      have spelled := spellsString_apart one more (ih more) alone
      rwa [ofUnits?, apart] at spelled

/-- A string is read where one is spelled. -/
lemma spells_of_readString? {s : Option String} (h : readString? cs = some (s, rest)) :
    ∃ body, cs = body ++ '"' :: rest ∧ SpellsString (s.map String.toList) body := by
  obtain ⟨⟨us, rest⟩, read, same⟩ := Option.map_eq_some_iff.1 h
  cases same
  obtain ⟨body, text, spelled⟩ := spellsUnits_of_readUnits? read
  refine ⟨body, text, ?_⟩
  have named : ((ofUnits? us).map String.ofList).map String.toList = ofUnits? us := by
    cases ofUnits? us <;> simp
  rw [named]
  exact spelled.spellsString

end

/-! ## Pieces -/

/-- A piece is read where one is spelled. -/
lemma spells_of_readPiece? {cs rest : List Char} {p : Piece} (h : readPiece? cs = some (p, rest)) :
    ∃ front, cs = front ++ rest ∧ SpellsPiece p front := by
  unfold readPiece? at h
  split at h
  case h_7 =>
    obtain ⟨⟨s, rest⟩, read, same⟩ := Option.map_eq_some_iff.1 h
    cases same
    obtain ⟨body, rfl, spelled⟩ := spells_of_readString? read
    exact ⟨'"' :: (body ++ ['"']), by simp, .string spelled⟩
  case h_9 =>
    cases h
    exact ⟨renderBool true, rfl, .bool⟩
  case h_10 =>
    cases h
    exact ⟨renderBool false, rfl, .bool⟩
  case h_11 =>
    obtain ⟨⟨d, rest⟩, read, same⟩ := Option.map_eq_some_iff.1 h
    cases same
    obtain ⟨valid, rfl⟩ := spell_of_readNumber? read
    exact ⟨d.spell, rfl, .number valid⟩
  all_goals
    cases h
    exact ⟨_, rfl, by constructor⟩

/-- A text is cut into pieces that it spells. -/
lemma spells_of_pieces? {cs : List Char} {ps : List Piece} (h : pieces? cs = some ps) :
    Spells ps cs := by
  fun_induction pieces? cs generalizing ps with
  | case1 =>
    cases h
    exact .nil nofun
  | case2 c more space ih =>
    have blank : ∀ d ∈ [c], isSpace d = true := List.forall_mem_singleton.2 space
    exact (ih h).behind_blank blank
  | case3 => cases h
  | case4 c more _ p rest read _ ih =>
    obtain ⟨ps, behind, rfl⟩ := Option.map_eq_some_iff.1 h
    obtain ⟨front, text, spelled⟩ := spells_of_readPiece? read
    rw [text]
    exact .piece spelled (ih behind)

/-! ## Values -/

/-- What is behind a value finishes the frames that are open around it, with `root` as the whole. -/
def Closes : List Frame → Json → List Piece → Json → Prop
  | [], v, ps, root => ps = [] ∧ root = v
  | .array items :: frames, v, ps, root =>
    ∃ vs rest, ps = piecesOfItems (.endArray :: rest) vs ∧
      Closes frames (.array (items.reverse ++ v :: vs)) rest root
  | .object members k :: frames, v, ps, root =>
    ∃ ms rest, ps = piecesOfMembers (.endObject :: rest) ms ∧
      Closes frames (.object (members.reverse ++ (k, v) :: ms)) rest root

/-- A value comes next, and what is behind it finishes the frames. -/
def Opens (frames : List Frame) (ps : List Piece) (root : Json) : Prop :=
  ∃ w rest, ps = piecesBefore rest w ∧ Closes frames w rest root

/-- What a reader waits for, by its turn. -/
def Reader.Awaits : Reader → List Piece → Json → Prop
  | ⟨.value, frames⟩, ps, root => Opens frames ps root
  | ⟨.firstItem, frames⟩, ps, root =>
    (∃ rest, ps = .endArray :: rest ∧ Closes frames (.array []) rest root) ∨
      Opens (.array [] :: frames) ps root
  | ⟨.firstKey, frames⟩, ps, root =>
    (∃ rest, ps = .endObject :: rest ∧ Closes frames (.object []) rest root) ∨
      ∃ k rest, ps = .string k :: .colon :: rest ∧ Opens (.object [] k :: frames) rest root
  | ⟨.key members, frames⟩, ps, root =>
    ∃ k rest, ps = .string k :: .colon :: rest ∧ Opens (.object members k :: frames) rest root
  | ⟨.colon members k, frames⟩, ps, root =>
    ∃ rest, ps = .colon :: rest ∧ Opens (.object members k :: frames) rest root
  | ⟨.after v, frames⟩, ps, root => Closes frames v ps root

section

variable {frames : List Frame} {p : Piece} {ps : List Piece} {front : List Char} {r : Reader}
  {v root : Json}

/-- A piece that begins a value, with what is waited for behind it. -/
lemma opens_of_beginValue? (hp : SpellsPiece p front) (h : beginValue? frames p = some r)
    (awaits : r.Awaits ps root) : Opens frames (p :: ps) root := by
  cases hp with
  | null =>
    cases h
    exact ⟨.null, ps, by rw [piecesBefore], awaits⟩
  | @bool b =>
    cases h
    exact ⟨.bool b, ps, by rw [piecesBefore], awaits⟩
  | @number d _ =>
    cases h
    exact ⟨.number d, ps, by rw [piecesBefore], awaits⟩
  | @string s _ _ =>
    cases h
    exact ⟨.string s, ps, by rw [piecesBefore], awaits⟩
  | beginArray =>
    cases h
    obtain ⟨rest, rfl, closes⟩ | ⟨w, _, rfl, vs, rest, rfl, closes⟩ := awaits
    · exact ⟨.array [], rest, by rw [piecesBefore], closes⟩
    · exact ⟨.array (w :: vs), rest, by rw [piecesBefore], closes⟩
  | beginObject =>
    cases h
    obtain ⟨rest, rfl, closes⟩ | ⟨k, _, rfl, w, _, rfl, ms, rest, rfl, closes⟩ := awaits
    · exact ⟨.object [], rest, by rw [piecesBefore], closes⟩
    · exact ⟨.object ((k, w) :: ms), rest, by rw [piecesBefore], closes⟩
  | endArray | endObject | comma | colon => cases h

/-- A piece behind a value, with what is waited for behind it. -/
lemma closes_of_afterValue? (h : afterValue? v frames p = some r) (awaits : r.Awaits ps root) :
    Closes frames v (p :: ps) root := by
  unfold afterValue? at h
  split at h <;> cases h
  · obtain ⟨w, _, rfl, vs, rest, rfl, closes⟩ := awaits
    rw [List.reverse_cons, List.append_assoc, List.singleton_append] at closes
    exact ⟨w :: vs, rest, by rw [piecesOfItems], closes⟩
  · rw [Reader.Awaits, List.reverse_cons] at awaits
    exact ⟨[], ps, by rw [piecesOfItems], awaits⟩
  · obtain ⟨k, _, rfl, w, _, rfl, ms, rest, rfl, closes⟩ := awaits
    rw [List.reverse_cons, List.append_assoc, List.singleton_append] at closes
    exact ⟨(k, w) :: ms, rest, by rw [piecesOfMembers], closes⟩
  · rw [Reader.Awaits, List.reverse_cons] at awaits
    exact ⟨[], ps, by rw [piecesOfMembers], awaits⟩

/-- One step of the reader, from behind it to in front of it. -/
lemma awaits_of_step? (hp : SpellsPiece p front) {r' : Reader} (h : r.step? p = some r')
    (awaits : r'.Awaits ps root) : r.Awaits (p :: ps) root := by
  obtain ⟨turn, frames⟩ := r
  cases turn with
  | value => exact opens_of_beginValue? hp h awaits
  | firstItem =>
    cases p with
    | endArray =>
      cases h
      exact .inl ⟨ps, rfl, awaits⟩
    | _ => exact .inr (opens_of_beginValue? hp h awaits)
  | firstKey =>
    cases p with
    | endObject =>
      cases h
      exact .inl ⟨ps, rfl, awaits⟩
    | string k =>
      cases h
      obtain ⟨rest, rfl, opens⟩ := awaits
      exact .inr ⟨k, rest, rfl, opens⟩
    | _ => cases h
  | key members =>
    cases p with
    | string k =>
      cases h
      obtain ⟨rest, rfl, opens⟩ := awaits
      exact ⟨k, rest, rfl, opens⟩
    | _ => cases h
  | colon members k =>
    cases p with
    | colon =>
      cases h
      exact ⟨ps, rfl, awaits⟩
    | _ => cases h
  | after v => exact closes_of_afterValue? h awaits

/-- A reader that is done with all pieces was waiting for them. -/
theorem awaits_of_run? {text : List Char} (h : Spells ps text) (run : r.run? ps = some root) :
    r.Awaits ps root := by
  induction h generalizing r with
  | nil _ =>
    unfold Reader.run? Reader.value? at run
    split at run <;> cases run
    exact ⟨rfl, rfl⟩
  | cons _ hp _ ih =>
    obtain ⟨r', step, run⟩ := Option.bind_eq_some_iff.1 run
    exact awaits_of_step? hp step (ih run)

end

/-- A text is read as a value exactly if it spells the value. -/
theorem parse?_eq_some_iff {text : String} {v : Json} : parse? text = some v ↔ v.SpelledBy text := by
  constructor
  · intro h
    obtain ⟨ps, cut, run⟩ := Option.bind_eq_some_iff.1 h
    have spells := spells_of_pieces? cut
    obtain ⟨w, _, rfl, rfl, rfl⟩ := awaits_of_run? spells run
    exact spells
  · exact parse?_of_spelledBy

end Json

end Quill
