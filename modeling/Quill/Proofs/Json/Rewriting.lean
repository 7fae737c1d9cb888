import Mathlib.Data.List.Perm.Basic
import Quill.Proofs.Json.Records

/-!
# Records written in other ways

What a typed reader may not see, and what it must. `Rewritten extra true v w` says that `w` is `v`
with the members of each object in any order, with others beside them that `extra` allows, and
without the key `otherwise` where that is null. `Rewritten extra false v w` says that besides at
least one object has lost another member, or has one of its own keys once more. The flag is a
conjunction over everything in the value.

Of a record without damage the readers find the tag and each field (`tagged?_rewritten`,
`fields?_rewritten`). Where the damage is to the record itself, either nothing is found or the field
is absent.
-/

namespace Quill

namespace Json

/-- No array and no object. -/
def IsScalar : Json → Prop
  | .array _ | .object _ => False
  | _ => True

/-- Null has no parts. -/
lemma isScalar_null : null.IsScalar := trivial

/-- A text has no parts. -/
lemma isScalar_text (s : String) : (text s).IsScalar := trivial

/-- A truth value has no parts. -/
lemma isScalar_bool (b : Bool) : (bool b).IsScalar := trivial

/-- The members that are left, when it is said for each what has become of its value. -/
def kept (members : List (Option String × Json)) (left : List (Option Json)) :
    List (Option String × Json) :=
  (members.zip left).filterMap fun m => m.2.map (m.1.1, ·)

mutual

/-- The second value is the first one written in another way, if the flag is set, and a damaged one
if it is not. -/
inductive Rewritten (extra : Option String → Json → Prop) : Bool → Json → Json → Prop where
  | scalar {v} :
    v.IsScalar →
    Rewritten extra true v v
  | items {intact vs ws} :
    RewrittenItems extra intact vs ws →
    Rewritten extra intact (.array vs) (.array ws)
  | members {intact ms left again others ns} :
    RewrittenMembers extra intact ms left →
    (∀ m ∈ again, m.1 ∈ (kept ms left).map Prod.fst) →
    (∀ m ∈ others, extra m.1 m.2 ∧ m.1 ∉ ms.map Prod.fst) →
    (again ++ (kept ms left ++ others)).Perm ns →
    Rewritten extra (intact && again.isEmpty) (.object ms) (.object ns)

/-- Each item is rewritten. -/
inductive RewrittenItems (extra : Option String → Json → Prop) :
    Bool → List Json → List Json → Prop where
  | nil : RewrittenItems extra true [] []
  | cons {intact intact' v w vs ws} :
    Rewritten extra intact v w →
    RewrittenItems extra intact' vs ws →
    RewrittenItems extra (intact && intact') (v :: vs) (w :: ws)

/-- Each member is rewritten or left out. To leave one out is damage, unless it says that there is
no last arm. -/
inductive RewrittenMembers (extra : Option String → Json → Prop) :
    Bool → List (Option String × Json) → List (Option Json) → Prop where
  | nil : RewrittenMembers extra true [] []
  | keep {intact intact' k v w ms left} :
    Rewritten extra intact v w →
    RewrittenMembers extra intact' ms left →
    RewrittenMembers extra (intact && intact') ((k, v) :: ms) (some w :: left)
  | leave {intact ms left} :
    RewrittenMembers extra intact ms left →
    RewrittenMembers extra intact ((some "otherwise", .null) :: ms) (none :: left)
  | drop {intact k v ms left} :
    k ≠ some "otherwise" →
    RewrittenMembers extra intact ms left →
    RewrittenMembers extra false ((k, v) :: ms) (none :: left)

end

variable {extra : Option String → Json → Prop} {intact : Bool} {v w : Json}

/-! ## Members -/

section

variable {k : Option String} {name : String} {ms ns others : List (Option String × Json)}
  {left : List (Option Json)} {o : Option Json}

/-- The members that are left are the first one, if it is, and those of the others. -/
lemma kept_cons : kept ((k, v) :: ms) (o :: left) = (o.map (k, ·)).toList ++ kept ms left := by
  cases o <;> rfl

/-- What is left stands under keys of the whole. -/
lemma kept_subset (ms : List (Option String × Json)) (left : List (Option Json)) :
    (kept ms left).map Prod.fst ⊆ ms.map Prod.fst := by
  induction ms generalizing left with
  | nil => exact List.Subset.refl _
  | cons m ms ih =>
    cases left with
    | nil => exact List.nil_subset _
    | cons o left =>
      rw [kept_cons, List.map_append, List.map_cons]
      refine List.append_subset.2 ⟨?_, List.subset_cons_of_subset _ (ih left)⟩
      cases o with
      | none => exact List.nil_subset _
      | some w => exact List.cons_subset.2 ⟨List.mem_cons_self, List.nil_subset _⟩

/-- The values under a name are those of the front and those of the rest. -/
lemma valuesAt_append : valuesAt name (ms ++ ns) = valuesAt name ms ++ valuesAt name ns :=
  List.filterMap_append

/-- There is no value under a name that no member has. -/
lemma valuesAt_eq_nil (h : some name ∉ ms.map Prod.fst) : valuesAt name ms = [] := by
  rw [valuesAt, List.filterMap_eq_nil_iff]
  intro m hm
  apply if_neg
  intro same
  exact h (List.mem_map.2 ⟨m, hm, same⟩)

/-- In another order of the members the same values are under a name. -/
lemma valuesAt_perm (h : ms.Perm ns) : (valuesAt name ms).Perm (valuesAt name ns) :=
  h.filterMap _

/-- There is a value under a name that a member has. -/
lemma valuesAt_ne_nil (h : some name ∈ ms.map Prod.fst) : valuesAt name ms ≠ [] := by
  obtain ⟨m, hm, same⟩ := List.mem_map.1 h
  apply List.ne_nil_of_mem
  exact List.mem_filterMap.2 ⟨m, hm, if_pos same⟩

/-- The values under a name among the members that are left, member by member. -/
lemma valuesAt_kept_cons :
    valuesAt name (kept ((k, v) :: ms) (o :: left)) =
      (if k = some name then o.toList else []) ++ valuesAt name (kept ms left) := by
  rw [kept_cons, valuesAt_append]
  congr 1
  cases o with
  | none => exact (ite_self _).symm
  | some w =>
    by_cases same : k = some name <;> simp [valuesAt, same]

/-- What has become of a member. -/
lemma rewrittenMembers_cons (h : RewrittenMembers extra intact ((k, v) :: ms) left) :
    ∃ o left' intact', left = o :: left' ∧ RewrittenMembers extra intact' ms left' ∧
      ((∃ i w, o = some w ∧ Rewritten extra i v w ∧ intact = (i && intact')) ∨
        (o = none ∧ k = some "otherwise" ∧ v = .null ∧ intact = intact') ∨
        (o = none ∧ k ≠ some "otherwise" ∧ intact = false)) := by
  cases h with
  | keep hv hms => exact ⟨_, _, _, rfl, hms, .inl ⟨_, _, rfl, hv, rfl⟩⟩
  | leave hms => exact ⟨_, _, _, rfl, hms, .inr (.inl ⟨rfl, rfl, rfl, rfl⟩)⟩
  | drop hk hms => exact ⟨_, _, _, rfl, hms, .inr (.inr ⟨rfl, hk, rfl⟩)⟩

/-- It is said for each member what has become of it. -/
lemma RewrittenMembers.length_eq (h : RewrittenMembers extra intact ms left) :
    ms.length = left.length := by
  induction ms generalizing intact left with
  | nil =>
    cases h
    rfl
  | cons m ms ih =>
    obtain ⟨o, left, _, rfl, hms, _⟩ := rewrittenMembers_cons h
    exact congrArg Nat.succ (ih hms)

/-- Only a scalar is written as it is. -/
lemma Rewritten.eq_of_isScalar (hv : v.IsScalar) (h : Rewritten extra intact v w) :
    w = v ∧ intact = true := by
  cases h with
  | scalar _ => exact ⟨rfl, rfl⟩
  | items _ => cases hv
  | members _ _ _ _ => cases hv

/-- A rewritten array is an array of rewritten items. -/
lemma Rewritten.array {vs : List Json} (h : Rewritten extra intact (.array vs) w) :
    ∃ ws, w = .array ws ∧ RewrittenItems extra intact vs ws := by
  cases h with
  | scalar hv => cases hv
  | items items => exact ⟨_, rfl, items⟩

/-- A rewritten object is an object. -/
lemma Rewritten.object (h : Rewritten extra intact (.object ms) w) : ∃ ns, w = .object ns := by
  cases h with
  | scalar hv => cases hv
  | members _ _ _ _ => exact ⟨_, rfl⟩

end

/-! ## What the readers find -/

section

variable {name : String} {names : List String} {fields : List (String × Json)}
  {ns : List (Option String × Json)} {left : List (Option Json)} {o : Option Json}

/-- A field is looked up by the only value under its name, in any order of the members. -/
lemma fieldAt?_of_perm (h : (valuesAt name ns).Perm o.toList) : fieldAt? ns name = some o := by
  cases o with
  | none => rw [fieldAt?, List.perm_nil.1 h]
  | some v => rw [fieldAt?, List.perm_singleton.1 h]

/-- A field that stands twice is refused. -/
lemma fieldAt?_eq_none (h : 2 ≤ (valuesAt name ns).length) : fieldAt? ns name = none := by
  unfold fieldAt?
  split
  · rename_i hv
    simp [hv] at h
  · rename_i hv
    simp [hv] at h
  · rfl

/-- The fields of an object are found if each of them is. -/
lemma fields?_of_each (length : fields.length = left.length)
    (h : ∀ x ∈ fields.zip left, fieldAt? ns x.1.1 = some x.2) :
    (object ns).fields? (fields.map Prod.fst) = some left := by
  rw [fields?]
  induction fields generalizing left with
  | nil =>
    cases left with
    | nil => rfl
    | cons _ _ => cases length
  | cons f fields ih =>
    cases left with
    | nil => cases length
    | cons o left =>
      obtain ⟨found, others⟩ := List.forall_mem_cons.1 h
      rw [List.map_cons, List.mapM_cons, found, ih (Nat.succ.inj length) others]
      rfl

/-- The fields of an object are not found if one of them is not. -/
lemma fields?_eq_none (mem : name ∈ names) (h : fieldAt? ns name = none) :
    (object ns).fields? names = none := by
  rw [fields?]
  induction names with
  | nil => cases mem
  | cons other names ih =>
    rw [List.mapM_cons]
    obtain rfl | mem := List.mem_cons.1 mem
    · rw [h]
      rfl
    · rw [ih mem]
      cases fieldAt? ns other <;> rfl

/-- The keys of a record are text. -/
lemma mem_keys_membersOf {k : Option String} :
    k ∈ (membersOf fields).map Prod.fst ↔ ∃ name ∈ fields.map Prod.fst, k = some name := by
  simp [membersOf, eq_comm]

/-- Where the keys differ, what is left under each is what has become of its member. -/
lemma valuesAt_kept (distinct : (fields.map Prod.fst).Nodup) (left : List (Option Json)) :
    ∀ x ∈ fields.zip left, valuesAt x.1.1 (kept (membersOf fields) left) = x.2.toList := by
  induction fields generalizing left with
  | nil => exact nofun
  | cons f fields ih =>
    cases left with
    | nil => exact nofun
    | cons o left =>
      obtain ⟨other, distinct⟩ := List.nodup_cons.1 distinct
      have members : membersOf (f :: fields) = (some f.1, f.2) :: membersOf fields := rfl
      rw [List.zip_cons_cons, List.forall_mem_cons]
      refine ⟨?_, fun x hx => ?_⟩
      · have absent : some f.1 ∉ (kept (membersOf fields) left).map Prod.fst := by
          intro mem
          obtain ⟨name, hname, same⟩ := mem_keys_membersOf.1 (kept_subset _ _ mem)
          cases same
          exact other hname
        rw [members, valuesAt_kept_cons, if_pos rfl, valuesAt_eq_nil absent, List.append_nil]
      · have apart : some f.1 ≠ some x.1.1 := by
          intro same
          rw [Option.some.inj same] at other
          exact other (List.mem_map_of_mem (List.of_mem_zip hx).1)
        rw [members, valuesAt_kept_cons, if_neg apart, List.nil_append]
        exact ih distinct left x hx

/-- Under an own key stand what repeats it and what has become of it. -/
lemma valuesAt_rewritten {ms again others : List (Option String × Json)}
    (beside : ∀ m ∈ others, extra m.1 m.2 ∧ m.1 ∉ ms.map Prod.fst)
    (perm : (again ++ (kept ms left ++ others)).Perm ns) (own : some name ∈ ms.map Prod.fst) :
    (valuesAt name ns).Perm (valuesAt name again ++ valuesAt name (kept ms left)) := by
  have foreign : some name ∉ others.map Prod.fst := by
    intro mem
    obtain ⟨m, hm, same⟩ := List.mem_map.1 mem
    exact (beside m hm).2 (same ▸ own)
  have all := @valuesAt_perm name _ _ perm.symm
  rwa [valuesAt_append, valuesAt_append, valuesAt_eq_nil foreign, List.append_nil] at all

/-- A rewritten record has what has become of each of its fields. If one of them stands twice, it
has none. -/
theorem fields?_rewritten (distinct : (fields.map Prod.fst).Nodup)
    (h : Rewritten extra intact (record fields) w) :
    (intact = false ∧ w.fields? (fields.map Prod.fst) = none) ∨
      ∃ left, w.fields? (fields.map Prod.fst) = some left ∧
        RewrittenMembers extra intact (membersOf fields) left := by
  rw [record, ← membersOf] at h
  cases h with
  | scalar hv => cases hv
  | @members intact _ left again others ns members repeats beside perm =>
    have length : fields.length = left.length := by
      have := members.length_eq
      rwa [membersOf, List.length_map] at this
    cases again with
    | nil =>
      -- What stands under a name is what has become of its field, if anything is left of it.
      refine .inr ⟨left, fields?_of_each length fun x hx => ?_, by simpa using members⟩
      have own : some x.1.1 ∈ (membersOf fields).map Prod.fst :=
        mem_keys_membersOf.2 ⟨_, List.mem_map_of_mem (List.of_mem_zip hx).1, rfl⟩
      apply fieldAt?_of_perm
      have values := valuesAt_rewritten beside perm own
      rwa [valuesAt_kept distinct left x hx] at values
    | cons m again =>
      -- One name has a value that is left and another one that repeats its key.
      have stands := repeats m List.mem_cons_self
      obtain ⟨name, hname, same⟩ := mem_keys_membersOf.1 (kept_subset _ _ stands)
      have own : some name ∈ (membersOf fields).map Prod.fst := mem_keys_membersOf.2 ⟨_, hname, rfl⟩
      rw [same] at stands
      have repeated : some name ∈ (m :: again).map Prod.fst :=
        List.mem_map.2 ⟨m, List.mem_cons_self, same⟩
      have twice : 2 ≤ (valuesAt name ns).length := by
        have := List.length_pos_iff.2 (valuesAt_ne_nil repeated)
        have := List.length_pos_iff.2 (valuesAt_ne_nil stands)
        rw [(valuesAt_rewritten beside perm own).length_eq, List.length_append]
        omega
      exact .inl ⟨Bool.and_false _, fields?_eq_none hname (fieldAt?_eq_none twice)⟩

/-- The tag is the only value under the key of the tag, and the other members are the body. -/
lemma tagged?_of_values {tag : Json} (h : valuesAt "kind" ns = [tag]) :
    (object ns).tagged? = some (tag, .object (ns.filter (·.1 ≠ some "kind"))) := by
  rw [tagged?, h]

/-- Members without the key of the tag are all of the body. -/
lemma filter_untagged {ms : List (Option String × Json)} (h : some "kind" ∉ ms.map Prod.fst) :
    ms.filter (·.1 ≠ some "kind") = ms := by
  rw [List.filter_eq_self]
  intro m hm
  apply decide_eq_true
  intro same
  exact h (List.mem_map.2 ⟨m, hm, same⟩)

/-- An object without a tag, or with two of them, is refused. -/
lemma tagged?_eq_none (h : (valuesAt "kind" ns).length ≠ 1) : (object ns).tagged? = none := by
  unfold tagged?
  dsimp only
  split
  · rename_i hv
    exact absurd (congrArg List.length hv) h
  · rfl

/-- A rewritten tagged record has its tag, and behind that the fields as they were rewritten. If the
tag is left out or stands twice, it has none. -/
theorem tagged?_rewritten {tag : Json} (scalar : tag.IsScalar)
    (untagged : "kind" ∉ fields.map Prod.fst)
    (h : Rewritten extra intact (record (("kind", tag) :: fields)) w) :
    (intact = false ∧ w.tagged? = none) ∨
      ∃ body, w.tagged? = some (tag, body) ∧ Rewritten extra intact (record fields) body := by
  have whole : record (("kind", tag) :: fields) =
      .object ((some "kind", tag) :: membersOf fields) := rfl
  rw [whole] at h
  cases h with
  | scalar hv => cases hv
  | @members _ _ left again others ns all repeats beside perm =>
    have tags := valuesAt_rewritten beside perm List.mem_cons_self
    obtain ⟨o, left, intact, rfl, members, fate⟩ := rewrittenMembers_cons all
    have bare : some "kind" ∉ (kept (membersOf fields) left).map Prod.fst := by
      intro mem
      obtain ⟨name, hname, same⟩ := mem_keys_membersOf.1 (kept_subset _ _ mem)
      exact untagged (Option.some.inj same ▸ hname)
    rw [valuesAt_kept_cons, if_pos rfl, valuesAt_eq_nil bare, List.append_nil] at tags
    rw [kept_cons] at perm repeats
    obtain ⟨_, _, rfl, htag, rfl⟩ | ⟨_, same, _⟩ | ⟨rfl, _, rfl⟩ := fate
    · obtain ⟨rfl, rfl⟩ := htag.eq_of_isScalar scalar
      -- A second tag is damage to the tag, any other repetition is left to the fields behind it.
      by_cases repeated : some "kind" ∈ again.map Prod.fst
      · have twice := List.length_pos_iff.2 (valuesAt_ne_nil repeated)
        have full : again.isEmpty = false := by
          cases again with
          | nil => cases repeated
          | cons _ _ => rfl
        refine .inl ⟨by rw [full, Bool.and_false], tagged?_eq_none ?_⟩
        rw [tags.length_eq, List.length_append, Option.toList_some, List.length_singleton]
        omega
      · rw [valuesAt_eq_nil repeated, List.nil_append] at tags
        refine .inr ⟨_, tagged?_of_values (List.perm_singleton.1 tags), ?_⟩
        rw [Bool.true_and, record, ← membersOf]
        refine @Rewritten.members _ _ _ _ again others _ members (fun m hm => ?_) (fun m hm => ?_) ?_
        · obtain same | mem := List.mem_cons.1 (repeats m hm)
          · exact absurd (List.mem_map.2 ⟨m, hm, same⟩) repeated
          · exact mem
        · obtain ⟨allowed, foreign⟩ := beside m hm
          exact ⟨allowed, fun mem => foreign (List.mem_cons_of_mem _ mem)⟩
        · have foreign : some "kind" ∉ others.map Prod.fst := by
            intro mem
            obtain ⟨m, hm, same⟩ := List.mem_map.1 mem
            exact (beside m hm).2 (same ▸ List.mem_cons_self)
          have fields := perm.filter (·.1 ≠ some "kind")
          rw [List.filter_append, List.filter_append, List.filter_append, filter_untagged repeated,
            filter_untagged bare, filter_untagged foreign] at fields
          simpa using fields
    · exact absurd same (by decide)
    · refine .inl ⟨rfl, tagged?_eq_none ?_⟩
      have unrepeated : some "kind" ∉ again.map Prod.fst := by
        intro mem
        obtain ⟨m, hm, same⟩ := List.mem_map.1 mem
        exact bare (same ▸ repeats m hm)
      rw [tags.length_eq, valuesAt_eq_nil unrepeated]
      decide

end

/-- Where each member is needed, one of them is missing, or all are there and rewritten. -/
lemma RewrittenMembers.complete {fields : List (String × Json)} {left : List (Option Json)}
    (needed : "otherwise" ∉ fields.map Prod.fst)
    (h : RewrittenMembers extra intact (membersOf fields) left) :
    (intact = false ∧ none ∈ left) ∨
      ∃ ws, left = ws.map some ∧ RewrittenItems extra intact (fields.map Prod.snd) ws := by
  induction fields generalizing intact left with
  | nil =>
    cases h
    exact .inr ⟨[], rfl, .nil⟩
  | cons f fields ih =>
    rw [List.map_cons, List.mem_cons, not_or] at needed
    obtain ⟨o, left, _, rfl, members, fate⟩ := rewrittenMembers_cons h
    obtain ⟨_, w, rfl, member, rfl⟩ | ⟨_, same, _⟩ | ⟨rfl, _, rfl⟩ := fate
    · obtain ⟨rfl, missing⟩ | ⟨ws, rfl, items⟩ := ih needed.2 members
      · exact .inl ⟨Bool.and_false _, List.mem_cons_of_mem _ missing⟩
      · exact .inr ⟨w :: ws, rfl, .cons member items⟩
    · exact absurd (Option.some.inj same).symm needed.1
    · exact .inl ⟨rfl, List.mem_cons_self⟩

/-! ## Values that are not rewritten -/

/-- If nothing has become of the members, all of them are left. -/
lemma kept_self (ms : List (Option String × Json)) :
    kept ms (ms.map fun m => some m.2) = ms := by
  induction ms with
  | nil => rfl
  | cons m ms ih =>
    rw [List.map_cons, kept_cons, ih]
    rfl

/-- The members by themselves are a rewriting of them, with none in front and none behind. -/
lemma perm_kept_self (ms : List (Option String × Json)) :
    List.Perm ([] ++ (kept ms (ms.map fun m => some m.2) ++ [])) ms := by
  rw [kept_self, List.append_nil, List.nil_append]

mutual

/-- Every value writes itself. -/
theorem Rewritten.refl : ∀ v : Json, Rewritten extra true v v
  | .null | .bool _ | .number _ | .string _ => .scalar trivial
  | .array vs => .items (.refl vs)
  | .object ms =>
    .members (.refl ms) (List.forall_mem_nil _) (List.forall_mem_nil _) (perm_kept_self ms)

/-- Items are rewritten as they are, which is no damage. -/
theorem RewrittenItems.refl : ∀ vs : List Json, RewrittenItems extra true vs vs
  | [] => .nil
  | v :: vs => .cons (.refl v) (.refl vs)

/-- Members are rewritten as they are, which is no damage. -/
theorem RewrittenMembers.refl :
    ∀ ms : List (Option String × Json), RewrittenMembers extra true ms (ms.map fun m => some m.2)
  | [] => .nil
  | (_, v) :: ms => .keep (.refl v) (.refl ms)

end

/-! ## What rewriting keeps -/

/-- Nothing in the value is refused on sight, and it nests within the limit. -/
structure Fits (limit : Nat) (v : Json) : Prop where
  readable : v.readable = true
  nesting : v.nesting ≤ limit

section

variable {limit : Nat} {vs ws : List Json} {ms : List (Option String × Json)}
  {left : List (Option Json)}

/-- Items are readable exactly if each of them is. -/
lemma readableItems_iff : readableItems vs = true ↔ ∀ v ∈ vs, v.readable = true := by
  induction vs with
  | nil => simp [readableItems]
  | cons v vs ih => rw [readableItems, Bool.and_eq_true, ih, List.forall_mem_cons]

/-- Members are readable exactly if each of their keys is text and each of their values is
readable. -/
lemma readableMembers_iff :
    readableMembers ms = true ↔ ∀ m ∈ ms, m.1.isSome = true ∧ m.2.readable = true := by
  induction ms with
  | nil => simp [readableMembers]
  | cons m ms ih =>
    rw [readableMembers, Bool.and_eq_true, Bool.and_eq_true, ih, List.forall_mem_cons]

/-- An array fits if its items fit into one level less. -/
lemma fits_array : (array vs).Fits limit ↔ 0 < limit ∧ ∀ v ∈ vs, v.Fits (limit - 1) := by
  constructor
  · rintro ⟨readable, nesting⟩
    rw [Json.readable, readableItems_iff] at readable
    rw [Json.nesting] at nesting
    have inner := nestingOfItems_le.1 (Nat.le_sub_one_of_lt nesting)
    exact ⟨Nat.zero_lt_of_lt nesting, fun v hv => ⟨readable v hv, inner v hv⟩⟩
  · rintro ⟨room, inner⟩
    have nested := nestingOfItems_le.2 fun v hv => (inner v hv).nesting
    constructor
    · rw [Json.readable, readableItems_iff]
      exact fun v hv => (inner v hv).readable
    · rw [Json.nesting]
      omega

/-- So does an object, if its keys are text. -/
lemma fits_object :
    (object ms).Fits limit ↔ 0 < limit ∧ ∀ m ∈ ms, m.1.isSome = true ∧ m.2.Fits (limit - 1) := by
  constructor
  · rintro ⟨readable, nesting⟩
    rw [Json.readable, readableMembers_iff] at readable
    rw [Json.nesting] at nesting
    have inner := nestingOfMembers_le.1 (Nat.le_sub_one_of_lt nesting)
    exact ⟨Nat.zero_lt_of_lt nesting,
      fun m hm => ⟨(readable m hm).1, (readable m hm).2, inner m hm⟩⟩
  · rintro ⟨room, inner⟩
    have nested := nestingOfMembers_le.2 fun m hm => (inner m hm).2.nesting
    constructor
    · rw [Json.readable, readableMembers_iff]
      exact fun m hm => ⟨(inner m hm).1, (inner m hm).2.readable⟩
    · rw [Json.nesting]
      omega

/-- What may stand beside the members without being refused: a scalar that is read, under a key that
is text. -/
def Harmless (k : Option String) (v : Json) : Prop :=
  k.isSome = true ∧ v.IsScalar ∧ v.readable = true

/-- A readable value without parts fits every limit. -/
lemma fits_of_isScalar (scalar : v.IsScalar) (readable : v.readable = true) : v.Fits limit := by
  refine ⟨readable, ?_⟩
  cases v with
  | array _ | object _ => cases scalar
  | _ => exact Nat.zero_le _

mutual

/-- A value that fits still fits when it is rewritten with nothing but harmless members beside its
own. -/
theorem Rewritten.fits {limit : Nat} :
    ∀ {v w : Json} {intact : Bool}, Rewritten Harmless intact v w → intact = true →
      v.Fits limit → w.Fits limit
  | _, _, _, .scalar _, _, h => h
  | _, _, _, .items items, sound, h => by
    rw [fits_array] at h ⊢
    exact ⟨h.1, items.fits sound h.2⟩
  | _, _, _, @Rewritten.members _ _ ms left again others ns members _ beside perm, sound, h => by
    rw [Bool.and_eq_true, List.isEmpty_iff] at sound
    obtain ⟨sound, rfl⟩ := sound
    rw [fits_object] at h ⊢
    have own := members.fits sound h.2
    refine ⟨h.1, fun m hm => ?_⟩
    rw [← perm.mem_iff, List.nil_append, List.mem_append] at hm
    obtain hm | hm := hm
    · exact own m hm
    · obtain ⟨⟨text, scalar, readable⟩, _⟩ := beside m hm
      exact ⟨text, fits_of_isScalar scalar readable⟩

/-- Items that are rewritten without damage fit the limit that they did. -/
theorem RewrittenItems.fits {limit : Nat} :
    ∀ {vs ws : List Json} {intact : Bool}, RewrittenItems Harmless intact vs ws → intact = true →
      (∀ v ∈ vs, v.Fits limit) → ∀ w ∈ ws, w.Fits limit
  | _, _, _, .nil, _, _ => List.forall_mem_nil _
  | _, _, _, .cons item items, sound, h => by
    rw [Bool.and_eq_true] at sound
    rw [List.forall_mem_cons] at h ⊢
    exact ⟨item.fits sound.1 h.1, items.fits sound.2 h.2⟩

/-- Members that are rewritten without damage fit the limit that they did. -/
theorem RewrittenMembers.fits {limit : Nat} :
    ∀ {ms : List (Option String × Json)} {left : List (Option Json)} {intact : Bool},
      RewrittenMembers Harmless intact ms left → intact = true →
      (∀ m ∈ ms, m.1.isSome = true ∧ m.2.Fits limit) →
      ∀ m ∈ kept ms left, m.1.isSome = true ∧ m.2.Fits limit
  | _, _, _, .nil, _, _ => List.forall_mem_nil _
  | _, _, _, .keep member members, sound, h => by
    rw [Bool.and_eq_true] at sound
    rw [List.forall_mem_cons] at h
    rw [kept_cons]
    exact List.forall_mem_cons.2 ⟨⟨h.1.1, member.fits sound.1 h.1.2⟩, members.fits sound.2 h.2⟩
  | _, _, _, .leave members, sound, h => members.fits sound (List.forall_mem_cons.1 h).2
  | _, _, _, .drop _ _, sound, _ => by cases sound

end

end

end Json

end Quill
