import Quill.Json.Record
import Quill.Proofs.Json.Rendering

/-!
# Nesting and plain values

What stands in an array or a record nests one level less. Nothing in a value that is made of text
and of readable numbers is refused on sight (`Plain.readable`).
-/

namespace Quill

namespace Json

variable {fields : List (String × Json)}

/-- The members that a record's fields become. -/
def membersOf (fields : List (String × Json)) : List (Option String × Json) :=
  fields.map fun f => (some f.1, f.2)

/-! ## Nesting -/

section

variable {n : Nat} {vs : List Json} {ms : List (Option String × Json)}

/-- Items nest within a bound exactly if each of them does. -/
lemma nestingOfItems_le : nestingOfItems vs ≤ n ↔ ∀ v ∈ vs, v.nesting ≤ n := by
  induction vs with
  | nil => simp [nestingOfItems]
  | cons v vs ih => rw [nestingOfItems, Nat.max_le, ih, List.forall_mem_cons]

/-- Members nest within a bound exactly if the value of each of them does. -/
lemma nestingOfMembers_le : nestingOfMembers ms ≤ n ↔ ∀ m ∈ ms, m.2.nesting ≤ n := by
  induction ms with
  | nil => simp [nestingOfMembers]
  | cons m ms ih => rw [nestingOfMembers, Nat.max_le, ih, List.forall_mem_cons]

/-- What stands in an array nests one level less. -/
lemma nesting_array_le (h : (array vs).nesting ≤ n) :
    ∃ m, n = m + 1 ∧ ∀ v ∈ vs, v.nesting ≤ m := by
  rw [nesting] at h
  obtain ⟨m, rfl⟩ : ∃ m, n = m + 1 := ⟨n - 1, by omega⟩
  exact ⟨m, rfl, nestingOfItems_le.1 (Nat.le_of_succ_le_succ h)⟩

/-- What stands in a record nests one level less. -/
lemma nesting_record_le (h : (record fields).nesting ≤ n) :
    ∃ m, n = m + 1 ∧ ∀ f ∈ fields, f.2.nesting ≤ m := by
  rw [record, nesting] at h
  obtain ⟨m, rfl⟩ : ∃ m, n = m + 1 := ⟨n - 1, by omega⟩
  have inner := nestingOfMembers_le.1 (Nat.le_of_succ_le_succ h)
  exact ⟨m, rfl, fun f hf => inner _ (List.mem_map_of_mem hf)⟩

end

/-! ## Plain values -/

mutual

/-- Every string is text, and every number satisfies `P`. -/
def Plain (P : Decimal → Prop) : Json → Prop
  | .null | .bool _ => True
  | .number d => P d
  | .string s => s.isSome
  | .array items => PlainItems P items
  | .object members => PlainMembers P members

/-- Every item is plain. -/
def PlainItems (P : Decimal → Prop) : List Json → Prop
  | [] => True
  | v :: vs => v.Plain P ∧ PlainItems P vs

/-- Every key is text, and every value is plain. -/
def PlainMembers (P : Decimal → Prop) : List (Option String × Json) → Prop
  | [] => True
  | (k, v) :: ms => k.isSome ∧ v.Plain P ∧ PlainMembers P ms

end

section

variable {P : Decimal → Prop}

/-- A string that is text is plain. -/
lemma plain_text (s : String) : (text s).Plain P := by
  simp [text, Plain]

/-- Items are plain exactly if each of them is. -/
lemma plainItems_iff {vs : List Json} : PlainItems P vs ↔ ∀ v ∈ vs, v.Plain P := by
  induction vs with
  | nil => simp [PlainItems]
  | cons v vs ih => rw [PlainItems, ih, List.forall_mem_cons]

/-- An array is plain exactly if each of its items is. -/
lemma plain_array {vs : List Json} : (array vs).Plain P ↔ ∀ v ∈ vs, v.Plain P := by
  rw [Plain, plainItems_iff]

/-- A record is plain exactly if each of its fields is. -/
lemma plain_record : (record fields).Plain P ↔ ∀ f ∈ fields, f.2.Plain P := by
  rw [record, Plain]
  induction fields with
  | nil => simp [PlainMembers]
  | cons f fields ih => simp [PlainMembers, ih]

mutual

/-- The numbers of a plain value satisfy its predicate. -/
theorem Plain.numbers : ∀ {v : Json}, v.Plain P → ∀ d ∈ v.numbers, P d
  | .null, _ => by simp [Json.numbers]
  | .bool _, _ => by simp [Json.numbers]
  | .number d, h => by
    rw [Plain] at h
    simpa [Json.numbers] using h
  | .string _, _ => by simp [Json.numbers]
  | .array vs, h => by
    rw [Plain] at h
    rw [Json.numbers]
    exact PlainItems.numbers h
  | .object ms, h => by
    rw [Plain] at h
    rw [Json.numbers]
    exact PlainMembers.numbers h

/-- So do the numbers of plain items. -/
theorem PlainItems.numbers : ∀ {vs : List Json}, PlainItems P vs → ∀ d ∈ numbersOfItems vs, P d
  | [], _ => by simp [numbersOfItems]
  | v :: vs, h => by
    rw [PlainItems] at h
    rw [numbersOfItems, List.forall_mem_append]
    exact ⟨h.1.numbers, PlainItems.numbers h.2⟩

/-- So do the numbers of plain members. -/
theorem PlainMembers.numbers :
    ∀ {ms : List (Option String × Json)}, PlainMembers P ms → ∀ d ∈ numbersOfMembers ms, P d
  | [], _ => by simp [numbersOfMembers]
  | (k, v) :: ms, h => by
    rw [PlainMembers] at h
    rw [numbersOfMembers, List.forall_mem_append]
    exact ⟨h.2.1.numbers, PlainMembers.numbers h.2.2⟩

end

mutual

/-- A plain value is readable if its numbers are read as doubles. -/
theorem Plain.readable (hP : ∀ d, P d → (double? d).isSome) :
    ∀ {v : Json}, v.Plain P → v.readable = true
  | .null, _ => by rw [Json.readable]; all_goals nofun
  | .bool _, _ => by rw [Json.readable]; all_goals nofun
  | .number d, h => by
    rw [Plain] at h
    rw [Json.readable]
    exact hP d h
  | .string s, h => by
    rw [Plain] at h
    rw [Json.readable]
    exact h
  | .array vs, h => by
    rw [Plain] at h
    rw [Json.readable]
    exact PlainItems.readable hP h
  | .object ms, h => by
    rw [Plain] at h
    rw [Json.readable]
    exact PlainMembers.readable hP h

/-- So are plain items. -/
theorem PlainItems.readable (hP : ∀ d, P d → (double? d).isSome) :
    ∀ {vs : List Json}, PlainItems P vs → readableItems vs = true
  | [], _ => by rw [readableItems]
  | v :: vs, h => by
    rw [PlainItems] at h
    rw [readableItems, h.1.readable hP, PlainItems.readable hP h.2]
    rfl

/-- So are plain members. -/
theorem PlainMembers.readable (hP : ∀ d, P d → (double? d).isSome) :
    ∀ {ms : List (Option String × Json)}, PlainMembers P ms → readableMembers ms = true
  | [], _ => by rw [readableMembers]
  | (k, v) :: ms, h => by
    rw [PlainMembers] at h
    rw [readableMembers, h.1, h.2.1.readable hP, PlainMembers.readable hP h.2.2]
    rfl

end

end

end Json

end Quill
