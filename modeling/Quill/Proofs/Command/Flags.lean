import Mathlib.Tactic.Common
import Quill.Command.Arguments

/-!
# Flags of a job

What the flags on a command line make of a job: it has the mode of the first grammar exactly if that
flag stands in front of two dashes, and its depth is the last that is given there
(`options_of_arguments`). A command line is read argument by argument, so each argument adds its
flag or its depth to what was given before it; a depth may still be open when the next argument is
read.
-/

namespace Quill

namespace Command

/-- The flag for the mode of the first grammar stands in front of two dashes. -/
def LegacyGiven (args : List String) : Prop :=
  "--legacy-division" ∈ args.takeWhile (· ≠ "--")

/-- The texts that are given as depths, each behind its option or behind an equals sign. Behind two
dashes there are none. -/
def depthsGiven : List String → List String
  | [] => []
  | arg :: args =>
    if arg = "--" then
      []
    else if arg = "--max-depth" then
      args.head?.toList ++ depthsGiven args
    else if "--max-depth=".toList <+: arg.toList then
      String.ofList (arg.toList.drop 12) :: depthsGiven args
    else
      depthsGiven args

/-! ## Shapes of arguments -/

section

variable {arg name : String} {attached : Option String}

/-- Only `--` on its own ends the options. -/
lemma ofText_eq_escape_iff : Argument.ofText arg = .escape ↔ arg = "--" := by
  constructor
  · intro h
    unfold Argument.ofText at h
    split at h
    · rename_i text
      exact String.toList_inj.1 text
    · dsimp only at h
      split at h <;> cases h
    · cases h
    · cases h
  · rintro rfl
    rfl

/-- The text of a long option. -/
lemma toList_of_ofText (h : Argument.ofText arg = .long name attached) :
    arg.toList = '-' :: '-' :: (name.toList ++ attached.elim [] ('=' :: ·.toList)) := by
  unfold Argument.ofText at h
  split at h
  · cases h
  · rename_i cs _ text
    dsimp only at h
    have whole := List.takeWhile_append_dropWhile (p := fun c => decide (c ≠ '=')) (l := cs)
    have first := List.head?_dropWhile_not (fun c => decide (c ≠ '=')) cs
    split at h
    · rename_i none
      cases h
      rw [none] at whole
      simpa [text] using whole.symm
    · rename_i c v behind
      cases h
      rw [behind] at whole first
      obtain rfl : c = '=' := by simpa using first
      simpa [text] using whole.symm
  · cases h
  · cases h

/-- Only its own spelling asks for the legacy division. -/
lemma ofText_eq_legacy_iff :
    Argument.ofText arg = .long "legacy-division" none ↔ arg = "--legacy-division" := by
  constructor
  · exact fun h => String.toList_inj.1 (toList_of_ofText h)
  · rintro rfl
    rfl

/-- The depths that an argument gives, if need be with the argument behind it. -/
def depthsOf (args : List String) : Argument → List String
  | .long "max-depth" none => args.head?.toList
  | .long "max-depth" (some v) => [v]
  | _ => []

/-- A depth may be attached to its option by an equals sign. -/
lemma ofText_attached {v : List Char} (h : arg.toList = "--max-depth=".toList ++ v) :
    Argument.ofText arg = .long "max-depth" (some (String.ofList v)) := by
  unfold Argument.ofText
  rw [h]
  rfl

/-- The depths of a command line are those of its first argument and those of the others. -/
lemma depthsGiven_cons (h : Argument.ofText arg ≠ .escape) (args : List String) :
    depthsGiven (arg :: args) = depthsOf args (.ofText arg) ++ depthsGiven args := by
  rw [depthsGiven, if_neg fun escape => h (ofText_eq_escape_iff.2 escape)]
  by_cases apart : arg = "--max-depth"
  · subst apart
    rfl
  rw [if_neg apart]
  by_cases attached : "--max-depth=".toList <+: arg.toList
  · obtain ⟨v, text⟩ := attached
    rw [if_pos ⟨v, text⟩, ofText_attached text.symm, ← text]
    rfl
  · have others : depthsOf args (.ofText arg) = [] := by
      unfold depthsOf
      split
      · rename_i shape
        exact absurd (String.toList_inj.1 (toList_of_ofText shape)) apart
      · rename_i v shape
        exact absurd ⟨v.toList, (toList_of_ofText shape).symm⟩ attached
      · rfl
    rw [if_neg attached, others]
    rfl

/-! ## What is given -/

/-- The options are those before, with one more flag if it is given, and the last of some depths if
there are any. -/
structure Options.Extends (after before : Options) (legacy : Prop) (depths : List String) :
    Prop where
  legacy : after.legacyDivision = true ↔ before.legacyDivision = true ∨ legacy
  maxDepth : ∃ ns, depths.mapM number64? = some ns ∧
    after.maxDepth = (ns.getLast? <|> before.maxDepth)

end

namespace Options.Extends

variable {o o' o'' : Options} {p q : Prop} {ts us : List String}

/-- What is no flag and no depth does not matter. -/
lemma same (legacy : o'.legacyDivision = o.legacyDivision) (depth : o'.maxDepth = o.maxDepth) :
    o'.Extends o False [] where
  legacy := by simp [legacy]
  maxDepth := ⟨[], rfl, depth⟩

/-- Whether a flag is given may be said in another way that is equivalent. -/
lemma congr (h : o'.Extends o p ts) (same : q ↔ p) : o'.Extends o q ts where
  legacy := by rw [h.legacy, same]
  maxDepth := h.maxDepth

/-- One after the other. -/
lemma trans (h : o'.Extends o p ts) (h' : o''.Extends o' q us) :
    o''.Extends o (p ∨ q) (ts ++ us) where
  legacy := by rw [h'.legacy, h.legacy, or_assoc]
  maxDepth := by
    obtain ⟨ns, read, depth⟩ := h.maxDepth
    obtain ⟨ms, read', depth'⟩ := h'.maxDepth
    refine ⟨ns ++ ms, ?_, ?_⟩
    · rw [List.mapM_append, read, read']
      rfl
    · rw [depth', depth, List.getLast?_append]
      cases ms.getLast? <;> rfl

/-- What extends nothing extends what is put behind it. -/
lemma orElse (h : o'.Extends {} p ts) (o : Options) : (o'.orElse o).Extends o p ts where
  legacy := by
    rw [Options.orElse, Bool.or_eq_true, h.legacy]
    simp [or_comm]
  maxDepth := by
    obtain ⟨ns, read, depth⟩ := h.maxDepth
    refine ⟨ns, read, ?_⟩
    rw [Options.orElse, depth]
    cases ns.getLast? <;> rfl

end Options.Extends

/-- The depths that are still open. -/
def openDepths (args : List String) : Pending → List String
  | .value .maxDepth v => [v]
  | .waiting .maxDepth => args.head?.toList
  | _ => []

section

variable {task : Option Task} {g g' : Given} {p : Pending} {a : Argument} {job : Job}
  {arg : String} {args : List String}

/-- A value in its slot is a depth, or neither flag nor depth. -/
lemma extends_of_fill? {slot : Slot} {v : String} (args : List String)
    (h : g.fill? slot v = some g') :
    g'.options.Extends g.options False (openDepths args (.value slot v)) := by
  cases slot with
  | config =>
    rw [Given.fill?] at h
    split at h <;> cases h
    exact .same rfl rfl
  | maxDepth =>
    rw [Given.fill?] at h
    split at h
    · cases h
    · obtain ⟨n, read, rfl⟩ := Option.map_eq_some_iff.1 h
      refine ⟨by simp, [n], ?_, rfl⟩
      rw [openDepths, List.mapM_cons, read]
      rfl
  | file =>
    rw [Given.fill?] at h
    split at h <;> cases h
    exact .same rfl rfl

/-- Settling what is open adds no flag, and of the depths the one that was open. -/
lemma extends_of_settle? (args : List String) (h : g.settle? p = some g') :
    g'.options.Extends g.options False (openDepths args p) := by
  cases p with
  | nothing =>
    cases h
    exact .same rfl rfl
  | waiting slot => cases h
  | value slot v => exact extends_of_fill? args h

/-- What an option does to what was given: it adds its flag or its depth, it leaves its depth open,
or it ends the reading without a job. -/
def Effect.Adds (args : List String) (before : Options) (legacy : Prop) (depths : List String) :
    Effect → Prop
  | .given g => g.options.Extends before legacy depths
  | .wait slot => ¬ legacy ∧ depths = openDepths args (.waiting slot)
  | .answer r => ∀ job, r ≠ .run job

/-- An option with a value adds the depths that its value gives, and no flag. -/
lemma adds_valued (args : List String) (g : Given) (slot : Slot) (attached : Option String) :
    (valued g slot attached).Adds args g.options False
      (attached.elim (openDepths args (.waiting slot)) fun v => openDepths args (.value slot v)) := by
  cases attached with
  | none => exact ⟨not_false, rfl⟩
  | some v =>
    rw [valued]
    cases filled : g.fill? slot v with
    | none => nofun
    | some g' => exact extends_of_fill? args filled

/-- A flag adds what it stands for, wherever it is read. -/
lemma adds_flag (args : List String) (before : Bool) {o : Options} {legacy : Prop}
    (h : g.options.Extends o legacy []) :
    (flag before g).Adds args o legacy [] := by
  unfold flag
  split
  · nofun
  · exact h

/-- Each option adds what it stands for. -/
lemma adds_optionEffect (task : Option Task) (g : Given) (args : List String) (a : Argument) :
    (optionEffect task g a).Adds args g.options (a = .long "legacy-division" none)
      (depthsOf args a) := by
  have same {o' : Options} (legacy : o'.legacyDivision = g.options.legacyDivision)
      (depth : o'.maxDepth = g.options.maxDepth) : o'.Extends g.options False [] :=
    .same legacy depth
  unfold optionEffect
  split
  case h_1 attached =>
    have depths : depthsOf args (.long "config" attached) = [] := by simp [depthsOf]
    have adds := adds_valued args g .config attached
    cases attached <;> simpa [depths, openDepths] using adds
  case h_2 attached =>
    have adds := adds_valued args g .maxDepth attached
    cases attached <;> simpa [depthsOf, openDepths] using adds
  case h_3 => exact adds_flag args _ ⟨by simp, [], rfl, rfl⟩
  case h_4 =>
    have adds := adds_flag (g := { g with options.noColor := true }) args g.options.noColor
      (same rfl rfl)
    simpa [depthsOf] using adds
  case h_5 =>
    split
    · have adds := adds_flag (g := { g with compact := true }) args g.compact (same rfl rfl)
      simpa [depthsOf] using adds
    · nofun
  case h_8 | h_9 => split <;> nofun
  all_goals nofun

/-! ## Command lines -/

/-- The job of a whole side has what was given there. -/
lemma options_of_finish {g? : Option Given} (h : finish task g? = .run job) :
    ∃ g, g? = some g ∧ job.options = g.options := by
  unfold finish at h
  split at h
  · cases h
    exact ⟨_, rfl, rfl⟩
  · cases h

/-- A plain word that is taken is the script, and what was given in front of it stays. -/
lemma eq_of_readWord {g? : Option Given} {w : String} (h : readWord task g? w = some (g', p)) :
    g? = some g' ∧ p = .value .file w := by
  unfold readWord at h
  split at h
  · split at h <;> cases h
    exact ⟨rfl, rfl⟩
  · cases h

/-- Behind two dashes nothing is given but the script. -/
lemma extends_of_trailing {ws : List String} (h : readTrailing task g p ws = .run job) :
    job.options.Extends g.options False (openDepths args p) := by
  unfold readTrailing at h
  split at h
  · obtain ⟨g', settled, options⟩ := options_of_finish h
    rw [options]
    exact extends_of_settle? _ settled
  · split at h
    · cases h
    · rename_i word
      obtain ⟨settled, rfl⟩ := eq_of_readWord word
      obtain ⟨g'', filled, options⟩ := options_of_finish h
      rw [options]
      simpa [openDepths] using
        (extends_of_settle? args settled).trans (extends_of_settle? args filled)
  · cases h

/-- The flag stands first or further on, if it is not two dashes that come first. -/
lemma legacyGiven_cons (h : Argument.ofText arg ≠ .escape) :
    LegacyGiven (arg :: args) ↔
      Argument.ofText arg = .long "legacy-division" none ∨ LegacyGiven args := by
  have inner : arg ≠ "--" := fun escape => h (ofText_eq_escape_iff.2 escape)
  rw [LegacyGiven, List.takeWhile_cons_of_pos (by simpa using inner), List.mem_cons,
    ofText_eq_legacy_iff, eq_comm]
  rfl

/-- An argument that is a word is the word itself. -/
lemma eq_of_ofText_word {w : String} (h : Argument.ofText arg = .word w) : w = arg := by
  unfold Argument.ofText at h
  split at h
  · cases h
  · dsimp only at h
    split at h <;> cases h
  · cases h
  · cases h
    rfl

/-- A word in front of the arguments adds no flag and no depth of its own. -/
lemma extends_of_word {before : Options} {w : String} {ts : List String}
    (word : Argument.ofText arg = .word w)
    (h : job.options.Extends before (LegacyGiven args) (ts ++ depthsGiven args)) :
    job.options.Extends before (LegacyGiven (arg :: args)) (ts ++ depthsGiven (arg :: args)) := by
  have inner : Argument.ofText arg ≠ .escape := by simp [word]
  rw [depthsGiven_cons inner, word]
  exact h.congr (by simp [legacyGiven_cons inner, word])

/-- Neither a request for help nor a complaint runs a job. -/
lemma helpOn_ne_run (w : String) (args : List String) (job : Job) :
    (if w = "help" then helpOn args else .usage) ≠ .run job := by
  unfold helpOn
  split
  · split
    · nofun
    · split <;> nofun
    · nofun
  · nofun

/-- The job of one side of a command line has what was given, what is still open, and what the
arguments that are left give. -/
theorem extends_of_readArguments (h : readArguments task g p args = .run job) :
    job.options.Extends g.options (LegacyGiven args) (openDepths args p ++ depthsGiven args) := by
  induction args generalizing task g p job with
  | nil =>
    obtain ⟨g', settled, options⟩ := options_of_finish h
    rw [options, depthsGiven, List.append_nil]
    exact (extends_of_settle? [] settled).congr (by simp [LegacyGiven])
  | cons arg args ih =>
    unfold readArguments at h
    split at h
    · -- The word is the value that an option waits for.
      rename_i slot w word
      obtain rfl := eq_of_ofText_word word
      refine extends_of_word word ?_
      cases slot <;> exact ih h
    · cases h
    · rename_i escape
      obtain rfl := ofText_eq_escape_iff.1 escape
      have nothing : depthsGiven ("--" :: args) = [] := rfl
      rw [nothing, List.append_nil]
      exact (extends_of_trailing h).congr (by simp [LegacyGiven])
    · rename_i p _ _ w _ word
      refine extends_of_word word ?_
      split at h
      · -- The subcommand: what is behind it comes on top of what is in front of it.
        split at h
        · rename_i sub _
          cases inner : readArguments (some sub) {} .nothing args with
          | run job' =>
            rw [inner] at h
            cases settled : g.settle? p with
            | none =>
              rw [settled] at h
              cases h
            | some g' =>
              rw [settled] at h
              cases h
              have above := (extends_of_settle? (arg :: args) settled).trans
                ((ih inner).orElse g'.options)
              exact above.congr (by simp)
          | _ =>
            rw [inner] at h
            cases h
        · exact absurd h (helpOn_ne_run w args job)
      · split at h
        · cases h
        · rename_i word
          obtain ⟨settled, rfl⟩ := eq_of_readWord word
          have above := (extends_of_settle? (arg :: args) settled).trans (ih h)
          exact above.congr (by simp)
    · rename_i p _ _ _ option _ _
      have inner : Argument.ofText arg ≠ .escape := option
      split at h
      · cases h
      · rename_i g' settled
        have adds := adds_optionEffect task g' args (.ofText arg)
        rw [depthsGiven_cons inner]
        split at h
        · rename_i g'' effect
          rw [effect] at adds
          have above := ((extends_of_settle? (arg :: args) settled).trans adds).trans (ih h)
          rw [List.append_assoc] at above
          exact above.congr (by simp [legacyGiven_cons inner])
        · rename_i slot effect
          rw [effect] at adds
          obtain ⟨no_flag, depths⟩ := adds
          have above := (extends_of_settle? (arg :: args) settled).trans (ih h)
          rw [depths]
          exact above.congr (by simp [legacyGiven_cons inner, no_flag])
        · rename_i r effect
          rw [effect] at adds
          exact absurd h (adds job)

end

/-- The options of a job: the flag is one of them exactly if it is given, and the depth is the last
that is given, or none. -/
theorem options_of_arguments {args : List String} {job : Job}
    (h : Request.ofArguments args = .run job) :
    (job.options.legacyDivision = true ↔ LegacyGiven args) ∧
      ∃ ns, (depthsGiven args).mapM number64? = some ns ∧ job.options.maxDepth = ns.getLast? := by
  obtain ⟨legacy, ns, read, depth⟩ := extends_of_readArguments h
  refine ⟨by simpa using legacy, ns, read, ?_⟩
  rw [depth]
  cases ns.getLast? <;> rfl

end Command

end Quill
