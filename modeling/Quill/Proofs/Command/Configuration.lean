import Quill.Proofs.Command.Flags
import Quill.Proofs.Command.Outcome
import Quill.Proofs.Command.Settings
import Quill.Proofs.Number.Written

/-!
# Configuration

Which settings a script is parsed with (`configuration_resolved`): those of the settings file, which
is taken exactly if it writes settings, with the mode replaced if that flag is given and the depth
replaced by the last that is given. Neither replaces the other.

The keys of the file's object have to be text. A key that is half of a surrogate pair is refused,
although it names no field, and although the same string is passed over where it is a value
(`half_pair_key_refused`).
-/

namespace Quill

namespace Command

/-- Whether an argument asks for the legacy division can be computed. -/
instance : DecidablePred LegacyGiven :=
  fun args => inferInstanceAs (Decidable ("--legacy-division" ∈ args.takeWhile (· ≠ "--")))

section

variable {read : ReadFile} {args : List String} {job : Job} {path text source : String}
  {settings : Settings}

/-- The settings of a file are there once it is read. -/
lemma fileSettings_eq_ok (content : read path = .ok text)
    (found : Settings.ofText? text = some settings) :
    fileSettings read (some path) = .ok settings := by
  simp only [fileSettings, readText, content, Except.mapError, Except.bind, found]

/-- The flags of a command line replace the settings that they name. -/
lemma settings_of_arguments (accepted : Request.ofArguments args = .run job)
    (config : job.options.config = some path) (content : read path = .ok text)
    (found : Settings.ofText? text = some settings) :
    ∃ ns, (depthsGiven args).mapM number64? = some ns ∧
      job.options.settings read =
        .ok ⟨if LegacyGiven args then .legacySubtraction else settings.division,
          ns.getLast?.getD settings.maxDepth⟩ := by
  obtain ⟨legacy, ns, given, depth⟩ := options_of_arguments accepted
  refine ⟨ns, given, ?_⟩
  rw [Options.settings, config, fileSettings_eq_ok content found]
  simp only [Except.map, Options.apply, depth, legacy]

end

/-- A text is taken as settings exactly if it spells a JSON value that writes them, whatever the
white space. Two objects with the same fields are the same settings, in whatever order and among
whatever other members they stand. A script is parsed with the settings of the file, where the mode
is replaced exactly if its flag is given, and the depth exactly if depths are given, by the last of
them. -/
theorem configuration_resolved :
    (∀ (text : String) (s : Settings),
      Settings.ofText? text = some s ↔ ∃ v : Json, v.SpelledBy text ∧ s.WrittenAs v) ∧
    (∀ (text text' : String) (ms ms' : List (Option String × Json)),
      (Json.object ms).SpelledBy text → (Json.object ms').SpelledBy text' →
      (∀ m ∈ ms ++ ms', m.1.isSome = true) →
      (ms.filter Settings.isField).Perm (ms'.filter Settings.isField) →
      Settings.ofText? text = Settings.ofText? text') ∧
    ∀ (read : ReadFile) (colour : Bool) (args : List String) (job : Job) (path text : String)
      (s : Settings) (source : String),
      Request.ofArguments args = .run job → job.options.config = some path →
      read path = .ok text → Settings.ofText? text = some s → read job.file = .ok source →
      ∃ ns, (depthsGiven args).mapM number64? = some ns ∧
        run read colour args = job.perform (colour && !job.options.noColor)
          ⟨if LegacyGiven args then .legacySubtraction else s.division,
            ns.getLast?.getD s.maxDepth⟩ source := by
  refine ⟨fun _ _ => Settings.ofText?_eq_some_iff, ?_, ?_⟩
  · intro text text' ms ms' spelled spelled' keys perm
    obtain ⟨keys, keys'⟩ := List.forall_mem_append.1 keys
    exact Settings.ofText?_members spelled spelled' keys keys' perm
  · intro read colour args job path text s source accepted config content found script
    obtain ⟨ns, given, resolved⟩ := settings_of_arguments accepted config content found
    refine ⟨ns, given, ?_⟩
    rw [run, accepted]
    exact run_readable colour resolved script

/-- An object with a field among other members. -/
def sampleObject : Json :=
  .record [("x", .array [.null]), ("max_depth", .nat 64)]

/-- The settings stand in one file, and every other one is a script. -/
def sampleFiles : ReadFile :=
  fun path => .ok (if path = "settings" then sampleObject.render .pretty else "\x7b print 1 / 2; \x7d")

/-- A command line with both flags, and another depth in front of the subcommand. -/
def sampleArguments : List String :=
  ["--config", "settings", "--max-depth", "3", "check", "script", "--max-depth=9",
    "--legacy-division"]

/-- The sample command line is configured by its file, but for the depth that it gives itself. -/
theorem sampleArguments_configured :
    run sampleFiles false sampleArguments =
      Job.perform ⟨.check, "script", false, ⟨some "settings", true, some 9, false⟩⟩ false
        ⟨.legacySubtraction, 9⟩ "\x7b print 1 / 2; \x7d" := by
  have accepted : Request.ofArguments sampleArguments =
      .run ⟨.check, "script", false, ⟨some "settings", true, some 9, false⟩⟩ := by decide +kernel
  have numbers : ∀ d ∈ sampleObject.numbers, d.IsJson := by
    simp [sampleObject, Json.record, Json.numbers, Json.numbersOfMembers, Json.numbersOfItems,
      Json.nat, isJson_ofNat]
  have found : Settings.ofText? (sampleObject.render .pretty) = some ⟨.distinct, 64⟩ := by
    rw [Settings.ofText?, Json.parse?_render Json.Style.blank_pretty numbers]
    rfl
  obtain ⟨ns, given, answer⟩ := configuration_resolved.2.2 sampleFiles false sampleArguments _
    "settings" _ _ _ accepted rfl rfl found rfl
  have depths : (depthsGiven sampleArguments).mapM number64? = some [3, 9] := by decide +kernel
  cases given.symm.trans depths
  exact answer

/-- An object with neither field, whose key is half of a surrogate pair. -/
def halfKey : Json :=
  .object [(none, .nat 1)]

/-- An object with neither field, whose value is that half. -/
def halfValue : Json :=
  .object [(some "x", .string none)]

/-- An object without the two fields is not always taken as the defaults: half of a surrogate pair
is refused where it is a key. Where it is a value it is passed over. -/
theorem half_pair_key_refused :
    (¬ ∀ (text : String) (ms : List (Option String × Json)), (Json.object ms).SpelledBy text →
      Json.Field "division" ms none → Json.Field "max_depth" ms none →
      Settings.ofText? text = some {}) ∧
    halfKey.SpelledBy "\x7b\"\\ud800\":1\x7d" ∧
    Settings.ofText? "\x7b\"\\ud800\":1\x7d" = none ∧
    halfValue.SpelledBy "\x7b\"x\":\"\\ud800\"\x7d" ∧
    Settings.ofText? "\x7b\"x\":\"\\ud800\"\x7d" = some {} := by
  have key : halfKey.SpelledBy "\x7b\"\\ud800\":1\x7d" :=
    Json.spelledBy_render Json.Style.blank_compact (by
      simp [halfKey, Json.numbers, Json.numbersOfMembers, Json.nat, isJson_ofNat])
  have value : halfValue.SpelledBy "\x7b\"x\":\"\\ud800\"\x7d" :=
    Json.spelledBy_render Json.Style.blank_compact (by
      simp [halfValue, Json.numbers, Json.numbersOfMembers])
  have refused : Settings.ofText? "\x7b\"\\ud800\":1\x7d" = none := by
    rw [Settings.ofText?, Json.parse?_of_spelledBy key]
    rfl
  have taken : Settings.ofText? "\x7b\"x\":\"\\ud800\"\x7d" = some {} := by
    rw [Settings.ofText?, Json.parse?_of_spelledBy value]
    rfl
  refine ⟨fun every => ?_, key, refused, value, taken⟩
  have same := every _ _ key (.absent (by simp)) (.absent (by simp))
  rw [refused] at same
  cases same

end Command

end Quill
