import Quill.Proofs.Json.Parsing
import Quill.Settings.Read

/-!
# Texts of settings

Which texts are settings, and which settings they are (`ofText?_eq_some_iff`): the JSON text of an
object with the two fields, each at most once, or of an array with at most the two in their order.
Neither the order of an object's members nor what stands under other keys matters
(`ofText?_members`).
-/

namespace Quill

/-- The object has the value under the key and nothing else there, or nothing at all. -/
inductive Json.Field (key : String) : List (Option String × Json) → Option Json → Prop where
  | absent {ms} :
    (∀ m ∈ ms, m.1 ≠ some key) →
    Field key ms none
  | once {before v after} :
    (∀ m ∈ before, m.1 ≠ some key) →
    (∀ m ∈ after, m.1 ≠ some key) →
    Field key (before ++ (some key, v) :: after) (some v)

namespace Settings

/-- The value names the mode, as a string or as the only key of an object with null behind it. -/
inductive NamesDivision : Division → Json → Prop where
  | text {m} : NamesDivision m (.text m.name)
  | key {m} : NamesDivision m (.object [(some m.name, .null)])

/-- The value is a number of at most 64 bits, written in digits alone. -/
inductive WritesWord : Nat → Json → Prop where
  | digits {ds} :
    digitsValue ds < twoTo 64 →
    WritesWord (digitsValue ds) (.number ⟨false, ds, none, none⟩)

/-- The setting that a value gives, or the default where there is no value. -/
inductive Gives {α : Type} (P : α → Json → Prop) (default : α) : Option Json → α → Prop where
  | default : Gives P default none default
  | value {a v} :
    P a v →
    Gives P default (some v) a

/-- The settings are those of the two values, where they are given. -/
structure GivenBy (s : Settings) (division maxDepth : Option Json) : Prop where
  division : Gives NamesDivision .distinct division s.division
  maxDepth : Gives WritesWord 128 maxDepth s.maxDepth

/-- The value writes the settings. Every key of an object has to be text. -/
inductive WrittenAs (s : Settings) : Json → Prop where
  | object {ms division maxDepth} :
    (∀ m ∈ ms, m.1.isSome = true) →
    Json.Field "division" ms division →
    Json.Field "max_depth" ms maxDepth →
    s.GivenBy division maxDepth →
    WrittenAs s (.object ms)
  | array {vs} :
    vs.length ≤ 2 →
    s.GivenBy vs[0]? vs[1]? →
    WrittenAs s (.array vs)

/-! ## Fields -/

section

variable {key : String} {ms ms' : List (Option String × Json)} {o : Option Json}

/-- The values under a key are those of the front and those of the rest. -/
lemma valuesAt_append (ms ms' : List (Option String × Json)) :
    Json.valuesAt key (ms ++ ms') = Json.valuesAt key ms ++ Json.valuesAt key ms' :=
  List.filterMap_append

/-- A member with the key comes first among the values under it. -/
lemma valuesAt_cons_self (v : Json) (ms : List (Option String × Json)) :
    Json.valuesAt key ((some key, v) :: ms) = v :: Json.valuesAt key ms := by
  simp [Json.valuesAt]

/-- There is no value under a key exactly if no member has it. -/
lemma valuesAt_eq_nil_iff : Json.valuesAt key ms = [] ↔ ∀ m ∈ ms, m.1 ≠ some key := by
  simp [Json.valuesAt, List.filterMap_eq_nil_iff]

/-- A field is what stands under its key. -/
lemma field_iff : Json.Field key ms o ↔ Json.valuesAt key ms = o.toList := by
  constructor
  · intro h
    cases h with
    | absent none => exact valuesAt_eq_nil_iff.2 none
    | once before after =>
      rw [valuesAt_append, valuesAt_cons_self, valuesAt_eq_nil_iff.2 before,
        valuesAt_eq_nil_iff.2 after]
      rfl
  · intro h
    cases o with
    | none => exact .absent (valuesAt_eq_nil_iff.1 h)
    | some v =>
      obtain ⟨before, ⟨k, w⟩, after, rfl, other, here, behind⟩ := List.filterMap_eq_cons_iff.1 h
      obtain ⟨rfl, rfl⟩ : k = some key ∧ w = v := by simpa using here
      exact .once (valuesAt_eq_nil_iff.1 (List.filterMap_eq_nil_iff.2 other))
        (valuesAt_eq_nil_iff.1 behind)

/-- A field is found where the object has it. -/
lemma fieldAt?_eq_some_iff : Json.fieldAt? ms key = some o ↔ Json.Field key ms o := by
  rw [field_iff]
  unfold Json.fieldAt?
  cases o <;> split <;> simp_all

end

/-! ## Values -/

/-- A mode is named by its name and by nothing else. -/
lemma ofName?_eq_some_iff {name : String} {m : Division} :
    Division.ofName? name = some m ↔ name = m.name := by
  constructor
  · intro h
    have found := List.find?_some h
    exact (eq_of_beq found).symm
  · rintro rfl
    cases m <;> decide

/-- The reader takes the mode from exactly the values that name it. -/
lemma caseNamed?_eq_some_iff {v : Json} {m : Division} :
    Json.caseNamed? false Division.ofName? v = some m ↔ NamesDivision m v := by
  constructor
  · intro h
    unfold Json.caseNamed? at h
    split at h
    · rw [ofName?_eq_some_iff] at h
      subst h
      exact .key
    · cases h
    · obtain ⟨name, text, named⟩ := Option.bind_eq_some_iff.1 h
      rw [ofName?_eq_some_iff] at named
      subst named
      unfold Json.asText? at text
      split at text
      · subst text
        exact .text
      · cases text
  · intro h
    cases h <;> exact ofName?_eq_some_iff.2 rfl

/-- A value is read as a word of 64 bits exactly if it writes that word. -/
lemma asWord64?_eq_some_iff {v : Json} {n : Nat} : v.asWord64? = some n ↔ WritesWord n v := by
  constructor
  · intro h
    unfold Json.asWord64? at h
    split at h
    · rename_i d
      obtain ⟨negative, whole, fraction, exponent⟩ := d
      unfold Json.word64? at h
      dsimp only at h
      split at h
      · rename_i valid
        obtain ⟨rfl, rfl, rfl, small⟩ := valid
        cases h
        exact .digits small
      · cases h
    · cases h
  · intro h
    cases h with
    | digits small => exact if_pos ⟨rfl, rfl, rfl, small⟩

/-- The settings of two values are read from exactly those values. -/
lemma ofFields?_eq_some_iff {division maxDepth : Option Json} {s : Settings} :
    ofFields? division maxDepth = some s ↔ s.GivenBy division maxDepth := by
  constructor
  · intro h
    cases division with
    | none =>
      cases maxDepth with
      | none =>
        cases h
        exact ⟨.default, .default⟩
      | some w =>
        obtain ⟨n, hn, h⟩ := Option.bind_eq_some_iff.1 h
        cases h
        exact ⟨.default, .value (asWord64?_eq_some_iff.1 hn)⟩
    | some v =>
      obtain ⟨d, hd, h⟩ := Option.bind_eq_some_iff.1 h
      cases maxDepth with
      | none =>
        cases h
        exact ⟨.value (caseNamed?_eq_some_iff.1 hd), .default⟩
      | some w =>
        obtain ⟨n, hn, h⟩ := Option.bind_eq_some_iff.1 h
        cases h
        exact ⟨.value (caseNamed?_eq_some_iff.1 hd), .value (asWord64?_eq_some_iff.1 hn)⟩
  · rintro ⟨hd, hn⟩
    obtain ⟨d, n⟩ := s
    unfold ofFields?
    cases hd with
    | default =>
      cases hn with
      | default => rfl
      | value hn => simp [asWord64?_eq_some_iff.2 hn]
    | value hd =>
      cases hn with
      | default => simp [caseNamed?_eq_some_iff.2 hd]
      | value hn => simp [caseNamed?_eq_some_iff.2 hd, asWord64?_eq_some_iff.2 hn]

/-! ## Settings -/

/-- Settings are read from exactly the values that write them. -/
lemma ofJson?_eq_some_iff {v : Json} {s : Settings} : ofJson? v = some s ↔ s.WrittenAs v := by
  constructor
  · intro h
    unfold ofJson? at h
    split at h
    · split at h
      · rename_i keys
        obtain ⟨division, hd, h⟩ := Option.bind_eq_some_iff.1 h
        obtain ⟨maxDepth, hn, h⟩ := Option.bind_eq_some_iff.1 h
        exact .object (List.all_eq_true.1 keys) (fieldAt?_eq_some_iff.1 hd)
          (fieldAt?_eq_some_iff.1 hn) (ofFields?_eq_some_iff.1 h)
      · cases h
    · exact .array (Nat.zero_le 2) (ofFields?_eq_some_iff.1 h)
    · exact .array (by decide : 1 ≤ 2) (ofFields?_eq_some_iff.1 h)
    · exact .array (Nat.le_refl 2) (ofFields?_eq_some_iff.1 h)
    · cases h
  · intro h
    cases h with
    | object keys division maxDepth given =>
      have all := List.all_eq_true.2 keys
      simp only [ofJson?, all, if_true, fieldAt?_eq_some_iff.2 division,
        fieldAt?_eq_some_iff.2 maxDepth]
      exact ofFields?_eq_some_iff.2 given
    | @array vs length given =>
      match vs, length with
      | [], _ | [_], _ | [_, _], _ => exact ofFields?_eq_some_iff.2 given

/-- A text is settings exactly if it spells a value that writes them. -/
theorem ofText?_eq_some_iff {text : String} {s : Settings} :
    ofText? text = some s ↔ ∃ v : Json, v.SpelledBy text ∧ s.WrittenAs v := by
  simp only [ofText?, Option.bind_eq_some_iff, Json.parse?_eq_some_iff, ofJson?_eq_some_iff]

/-! ## What does not matter -/

/-- The member is one of the two fields. -/
def isField (m : Option String × Json) : Bool :=
  m.1 = some "division" ∨ m.1 = some "max_depth"

section

variable {key : String} {ms ms' : List (Option String × Json)}

/-- Members that are no fields have no say in the values under a field. -/
lemma valuesAt_filter (h : ∀ m : Option String × Json, m.1 = some key → isField m = true) :
    Json.valuesAt key (ms.filter isField) = Json.valuesAt key ms := by
  rw [Json.valuesAt, List.filterMap_filter]
  refine congrArg (fun f => ms.filterMap f) (funext fun m => ?_)
  by_cases here : m.1 = some key
  · rw [h m here, if_pos rfl]
  · simp [here]

/-- Objects with the same fields, in whatever order and among whatever else, have the same value
under a field's key. -/
lemma field_of_perm {o : Option Json}
    (h : ∀ m : Option String × Json, m.1 = some key → isField m = true)
    (perm : (ms.filter isField).Perm (ms'.filter isField)) (field : Json.Field key ms o) :
    Json.Field key ms' o := by
  have values := perm.filterMap fun m => if m.1 = some key then some m.2 else none
  change (Json.valuesAt key _).Perm (Json.valuesAt key _) at values
  rw [valuesAt_filter h, valuesAt_filter h, field_iff.1 field] at values
  rw [field_iff]
  cases o with
  | none => exact values.nil_eq.symm
  | some v => exact (List.singleton_perm.1 values).symm

/-- Objects with the same fields write the same settings, if all their keys are text. -/
lemma WrittenAs.of_perm {s : Settings} (h : s.WrittenAs (.object ms))
    (perm : (ms.filter isField).Perm (ms'.filter isField)) (keys : ∀ m ∈ ms', m.1.isSome = true) :
    s.WrittenAs (.object ms') := by
  cases h with
  | object _ division maxDepth given =>
    exact .object keys (field_of_perm (by simp [isField]) perm division)
      (field_of_perm (by simp [isField]) perm maxDepth) given

/-- Texts of objects with the same fields are the same settings, or both are none. -/
theorem ofText?_members {text text' : String} (spelled : (Json.object ms).SpelledBy text)
    (spelled' : (Json.object ms').SpelledBy text') (keys : ∀ m ∈ ms, m.1.isSome = true)
    (keys' : ∀ m ∈ ms', m.1.isSome = true)
    (perm : (ms.filter isField).Perm (ms'.filter isField)) : ofText? text = ofText? text' := by
  rw [ofText?, ofText?, Json.parse?_of_spelledBy spelled, Json.parse?_of_spelledBy spelled']
  refine Option.ext fun s => ?_
  simp only [Option.bind_some, ofJson?_eq_some_iff]
  exact ⟨fun h => h.of_perm perm keys', fun h => h.of_perm perm.symm keys⟩

end

end Settings

end Quill
