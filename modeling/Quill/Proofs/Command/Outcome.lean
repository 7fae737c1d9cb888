import Quill.Command.Run
import Quill.Proofs.Report.Lines

/-!
# What comes of a command line

The ways in which a job can end, in their order: its settings cannot be had, its script cannot be
read, its script has an error, all is well. Each has its own exit code and its own text on the error
stream. A listing of tokens has written its lines when it meets an error; nothing else has written
anything by then.
-/

namespace Quill

namespace Command

/-! ## How a job ends -/

/-- The settings cannot be had: they have a file, and it cannot be read or holds none. -/
def Options.Unresolved (options : Options) (read : ReadFile) : Prop :=
  ∃ path ∈ options.config, ∀ text, read path = .ok text → Settings.ofText? text = none

/-- The task finds the error in the script: among the characters when it lists tokens, else in the
parse. -/
inductive Task.Finds (settings : Settings) (source : String) : Task → SyntaxError → Prop where
  | tokens {e} :
    tokenizeAll source = .error e →
    Finds settings source .tokens (.lex e)
  | ast {e} :
    parseText settings source = .error e →
    Finds settings source .ast e
  | check {e} :
    parseText settings source = .error e →
    Finds settings source .check e

/-- Exit code two, nothing on the output and one complaint on the error stream. -/
structure Answer.Fails (a : Answer) (explain : String → String) (colour : Bool) (what : String) :
    Prop where
  exit : a.exit = 2
  out : a.out = ""
  err : a.err explain = paint colour .boldRed "error:" ++ " " ++ what ++ "\n"

/-- One line for each of the tokens, which are those in front of the first error or, if there is
none, all up to the end of the script. -/
structure Answer.Lists (a : Answer) (source : String) (ts : List Token) : Prop where
  tokens : (a.exit = 0 ∧ tokenizeAll source = .ok ts ∧ ∃ t ∈ ts.getLast?, t.kind = .endOfInput) ∨
    (a.exit = 1 ∧ ∃ e, tokenize source = ts.map .ok ++ [.error e])
  out : a.out = String.join (ts.map tokenLine)
  lines : (textLines a.out.toList).length = ts.length

/-- How a job ends on a script that it has read: with the error that its task finds in the script,
or well if there is none. The jobs that need the tree have written nothing in front of an error, and
a listing ends with an error exactly if there is one among the characters. -/
structure Job.Ends (job : Job) (explain : String → String) (colour : Bool) (settings : Settings)
    (source : String) (a : Answer) : Prop where
  found : ∀ e, job.task.Finds settings source e →
    a.exit = 1 ∧ a.err explain = Report.render colour job.file source e
  well : (∀ e, ¬ job.task.Finds settings source e) → a.exit = 0 ∧ a.err explain = ""
  silent : job.task ≠ .tokens → a.exit = 1 → a.out = ""
  listed : job.task = .tokens →
    (∃ ts, a.Lists source ts) ∧ (a.exit = 1 ↔ ∃ e, tokenizeAll source = .error e)

/-! ## Settings -/

variable {read : ReadFile} {options : Options}

/-- Settings that cannot be had are the only ones that are refused. -/
lemma unresolved_iff : options.Unresolved read ↔ ∃ why, options.settings read = .error why := by
  rw [Options.Unresolved, Options.settings]
  cases options.config with
  | none =>
    refine iff_of_false (by simp) ?_
    rintro ⟨why, ⟨⟩⟩
  | some path =>
    cases content : read path with
    | error why =>
      refine iff_of_true ⟨path, rfl, by simp [content]⟩ ⟨.cannotRead path why, ?_⟩
      simp only [fileSettings, readText, content, Except.mapError, Except.bind, Except.map]
    | ok text =>
      cases found : Settings.ofText? text with
      | none =>
        refine iff_of_true ⟨path, rfl, by simp [content, found]⟩ ⟨.badSettings path, ?_⟩
        simp only [fileSettings, readText, content, Except.mapError, Except.bind, found, Except.map]
      | some settings =>
        refine iff_of_false (by simp [content, found]) ?_
        simp [fileSettings, readText, content, Except.mapError, Except.bind, found, Except.map]

/-- Settings that can be had are there. -/
lemma exists_settings (h : ¬ options.Unresolved read) :
    ∃ settings, options.settings read = .ok settings := by
  cases resolved : options.settings read with
  | error why => exact absurd (unresolved_iff.2 ⟨why, resolved⟩) h
  | ok settings => exact ⟨settings, rfl⟩

/-! ## The listing -/

/-- The lines of some tokens come first. -/
lemma listTokens_append (ts : List Token) (items : List Item) :
    listTokens (ts.map .ok ++ items) =
      (String.join (ts.map tokenLine) ++ (listTokens items).1, (listTokens items).2) := by
  induction ts with
  | nil => simp
  | cons t ts ih => rw [List.map_cons, List.cons_append, listTokens, ih]; simp [String.append_assoc]

/-- The brace is listed, and then the stray character ends the listing. -/
example : listTokens (tokenize "\x7b @") =
    ("   1:1    PUNCTUATION  \x7b\n", some ⟨⟨2, 1, 3⟩, .unexpectedChar '@'⟩) := by cbv

/-- The line of a token is one line. -/
lemma exists_tokenLine {t : Token} (h : '\n' ∉ t.lexeme.toList) :
    ∃ line, (tokenLine t).toList = line ++ ['\n'] ∧ '\n' ∉ line := by
  have kind : '\n' ∉ t.kind.className.toList := by
    cases t.kind <;> simp [Kind.className]
  refine ⟨_, by rw [tokenLine, String.toList_append]; rfl, ?_⟩
  simp [toList_padLeft, toList_padRight, newline_notMem_toDigits, kind, h]

/-- Tokens are listed one on each line, if no lexeme breaks its line. -/
lemma length_textLines_tokenLines {ts : List Token} (h : ∀ t ∈ ts, '\n' ∉ t.lexeme.toList) :
    (textLines (String.join (ts.map tokenLine)).toList).length = ts.length := by
  induction ts with
  | nil => simp [textLines_last]
  | cons t ts ih =>
    obtain ⟨first, others⟩ := List.forall_mem_cons.1 h
    obtain ⟨line, text, only⟩ := exists_tokenLine first
    rw [List.map_cons, String.join_cons, String.toList_append, text, List.append_assoc,
      List.singleton_append, textLines_newline only, List.length_cons, ih others, List.length_cons]

/-! ## Scripts -/

variable {job : Job} {settings : Settings} {source : String} {explain : String → String}

/-- A script of tokens only is listed to its end. -/
lemma perform_tokens {ts : List Token} (task : job.task = .tokens) (colour : Bool)
    (items : tokenize source = ts.map .ok) :
    job.perform colour settings source = .finished 0 (String.join (ts.map tokenLine)) "" := by
  have listed := listTokens_append ts []
  rw [List.append_nil, ← items] at listed
  simp [Job.perform, task, listed, listTokens]

/-- A script with an error among its characters is listed up to there. -/
lemma perform_tokens_error {ts : List Token} {e : LexError} (task : job.task = .tokens)
    (colour : Bool) (items : tokenize source = ts.map .ok ++ [.error e]) :
    job.perform colour settings source =
      reportError colour job.file source (String.join (ts.map tokenLine)) (.lex e) := by
  have listed := listTokens_append ts [.error e]
  rw [← items] at listed
  simp [Job.perform, task, listed, listTokens]

/-- A task that needs the tree of a script reports that there is none. -/
lemma perform_error {e : SyntaxError} (task : job.task ≠ .tokens) (colour : Bool)
    (failed : parseText settings source = .error e) :
    job.perform colour settings source = reportError colour job.file source "" e := by
  cases h : job.task with
  | tokens => exact absurd h task
  | ast => simp only [Job.perform, h, failed]
  | check => simp only [Job.perform, h, failed]

/-- A task that needs the tree of a script has no complaint when there is one. -/
lemma perform_ok {b : Block} (task : job.task ≠ .tokens) (colour : Bool)
    (parsed : parseText settings source = .ok b) :
    ∃ out, job.perform colour settings source = .finished 0 out "" := by
  cases h : job.task with
  | tokens => exact absurd h task
  | ast => simp only [Job.perform, h, parsed, Answer.finished.injEq, true_and, and_true, exists_eq']
  | check =>
    simp only [Job.perform, h, parsed, Answer.finished.injEq, true_and, and_true, exists_eq']

/-- What is listed of a script. -/
lemma lists_perform (task : job.task = .tokens) (colour : Bool) :
    ∃ ts, (job.perform colour settings source).Lists source ts := by
  have lines : ∀ ts : List Token, (∀ t ∈ ts, .ok t ∈ tokenize source) →
      (textLines (String.join (ts.map tokenLine)).toList).length = ts.length := by
    intro ts mem
    refine length_textLines_tokenLines fun t ht => ?_
    obtain ⟨-, -, -, -, only, -⟩ := (tiles_tokenize source).token_slice (mem t ht)
    exact only
  obtain ⟨ts, last, items, -, rfl | ⟨e, rfl⟩⟩ := (tiles_tokenize source).last
  · let all := ts ++ [Token.endAt (Position.start.after source.toList)]
    have items : tokenize source = all.map .ok := by
      rw [items, List.map_append]
      rfl
    have ends : ∃ t ∈ all.getLast?, t.kind = .endOfInput := by simp [all, Token.endAt]
    refine ⟨all, ?_⟩
    rw [perform_tokens task colour items]
    exact ⟨.inl ⟨rfl, by rw [tokenizeAll, items, mapM_tokens], ends⟩, rfl,
      lines all fun t ht => items ▸ List.mem_map_of_mem ht⟩
  · refine ⟨ts, ?_⟩
    rw [perform_tokens_error task colour items]
    exact ⟨.inr ⟨rfl, e, items⟩, rfl, lines ts fun t ht => by simp [items, ht]⟩

/-- A listing fails exactly if there is an error among the characters. -/
lemma Answer.Lists.exit_iff {a : Answer} {ts : List Token} (h : a.Lists source ts) :
    a.exit = 1 ↔ ∃ e, tokenizeAll source = .error e := by
  obtain ⟨exit, all, -⟩ | ⟨exit, e, items⟩ := h.tokens
  · simp [exit, all]
  · exact iff_of_true exit ⟨e, tokenizeAll_eq_error_iff.2 ⟨ts, items⟩⟩

/-- What a task that needs the tree of a script finds is the error of the parse. -/
lemma finds_iff {task : Task} {e : SyntaxError} (h : task ≠ .tokens) :
    task.Finds settings source e ↔ parseText settings source = .error e := by
  constructor
  · intro found
    cases found with
    | tokens _ => exact absurd rfl h
    | ast failed => exact failed
    | check failed => exact failed
  · intro failed
    cases task with
    | tokens => exact absurd rfl h
    | ast => exact .ast failed
    | check => exact .check failed

/-- An error that a task finds is reported. -/
lemma perform_of_finds {e : SyntaxError} (h : job.task.Finds settings source e) (colour : Bool) :
    ∃ out, job.perform colour settings source = reportError colour job.file source out e ∧
      (job.task ≠ .tokens → out = "") := by
  by_cases task : job.task = .tokens
  · rw [task] at h
    cases h with
    | tokens failed =>
      obtain ⟨ts, items⟩ := tokenizeAll_eq_error_iff.1 failed
      exact ⟨_, perform_tokens_error task colour items, fun other => absurd task other⟩
  · exact ⟨"", perform_error task colour ((finds_iff task).1 h), fun _ => rfl⟩

/-- A script in which a task finds nothing is all well. -/
lemma perform_of_not_finds (h : ∀ e, ¬ job.task.Finds settings source e) (colour : Bool) :
    ∃ out, job.perform colour settings source = .finished 0 out "" := by
  by_cases task : job.task = .tokens
  · rw [task] at h
    obtain ⟨ts, items, -⟩ | ⟨ts, e, -, failed⟩ := tokenize_cases source
    · exact ⟨_, perform_tokens task colour items⟩
    · exact absurd (.tokens failed) (h _)
  · cases parsed : parseText settings source with
    | ok b => exact perform_ok task colour parsed
    | error e => exact absurd ((finds_iff task).2 parsed) (h e)

/-- Every job ends on the script that it has read as `Job.Ends` says. -/
lemma ends_perform (job : Job) (colour : Bool) (settings : Settings) (source : String) :
    job.Ends explain colour settings source (job.perform colour settings source) where
  found := by
    intro e h
    obtain ⟨out, answer, -⟩ := perform_of_finds h colour
    rw [answer]
    exact ⟨rfl, rfl⟩
  well := by
    intro h
    obtain ⟨out, answer⟩ := perform_of_not_finds h colour
    rw [answer]
    exact ⟨rfl, rfl⟩
  silent := by
    intro task failed
    cases parsed : parseText settings source with
    | ok b =>
      obtain ⟨out, answer⟩ := perform_ok task colour parsed
      rw [answer] at failed
      cases failed
    | error e => rw [perform_error task colour parsed, reportError, Answer.out]
  listed := by
    intro task
    obtain ⟨ts, lists⟩ := lists_perform task colour
    exact ⟨⟨ts, lists⟩, lists.exit_iff⟩

/-- Two jobs that need the tree of the same script end alike. -/
lemma perform_alike {job' : Job} (task : job.task ≠ .tokens) (task' : job'.task ≠ .tokens)
    (file : job'.file = job.file) (colour : Bool) (settings : Settings) (source : String) :
    (job'.perform colour settings source).exit = (job.perform colour settings source).exit ∧
      (job'.perform colour settings source).err explain =
        (job.perform colour settings source).err explain := by
  cases parsed : parseText settings source with
  | ok b =>
    obtain ⟨out, answer⟩ := perform_ok task colour parsed
    obtain ⟨out', answer'⟩ := perform_ok task' colour parsed
    rw [answer, answer']
    exact ⟨rfl, rfl⟩
  | error e =>
    rw [perform_error task colour parsed, perform_error task' colour parsed, file]
    exact ⟨rfl, rfl⟩

/-! ## Runs -/

/-- A failure fails with its subject and its reason. -/
lemma fails_failed (colour : Bool) (why : Failure) :
    (Answer.failed colour why).Fails explain colour (why.subject ++ why.reason explain) where
  exit := rfl
  out := rfl
  err := by simp [Answer.err, Failure.head, String.append_assoc]

variable {read : ReadFile}

/-- A job whose settings cannot be found out fails, whatever its script holds. -/
lemma run_unresolved (colour : Bool) (h : job.options.Unresolved read) :
    ∃ what, (job.run read colour).Fails explain (colour && !job.options.noColor) what := by
  obtain ⟨why, refused⟩ := unresolved_iff.1 h
  refine ⟨why.subject ++ why.reason explain, ?_⟩
  rw [Job.run, refused]
  exact fails_failed _ why

/-- A job whose script cannot be read fails and says why. -/
lemma run_unreadable {why : ReadFault} (colour : Bool)
    (resolved : job.options.settings read = .ok settings)
    (unreadable : read job.file = .error why) :
    (job.run read colour).Fails explain (colour && !job.options.noColor)
      ("cannot read " ++ job.file ++ ": " ++ why.message) := by
  rw [Job.run, resolved, readText, unreadable]
  exact fails_failed _ (.cannotRead job.file why)

/-- A job whose settings and script are read is performed on the two. -/
lemma run_readable (colour : Bool) (resolved : job.options.settings read = .ok settings)
    (readable : read job.file = .ok source) :
    job.run read colour = job.perform (colour && !job.options.noColor) settings source := by
  rw [Job.run, resolved, readText, readable]
  rfl

/-- Two jobs that both parse end alike on the same file under the same options, but for what they
print. -/
lemma run_alike {job' : Job} (task : job.task ≠ .tokens) (task' : job'.task ≠ .tokens)
    (file : job'.file = job.file) (options : job'.options = job.options) (read : ReadFile)
    (colour : Bool) :
    (job'.run read colour).exit = (job.run read colour).exit ∧
      (job'.run read colour).err explain = (job.run read colour).err explain := by
  rw [Job.run, Job.run, options, file]
  cases job.options.settings read with
  | error why => exact ⟨rfl, rfl⟩
  | ok settings =>
    cases readText read job.file with
    | error why => exact ⟨rfl, rfl⟩
    | ok source => exact perform_alike task task' file _ settings source

/-- How a job ends, whatever the words in which settings are refused. The settings come first: when
they cannot be had the exit code is two and the complaint stands on the error stream, whatever the
script. The same goes for a script that cannot be read, and on any other the job ends as it finds
the script. The two jobs that need the tree have the same exit code and the same error stream on any
script. -/
theorem outcome_of_run (read : ReadFile) (explain : String → String) (colour : Bool) :
    (∀ args job, Request.ofArguments args = .run job →
      run read colour args = job.run read colour) ∧
    (∀ job : Job, job.options.Unresolved read →
      ∃ what, (job.run read colour).Fails explain (colour && !job.options.noColor) what) ∧
    (∀ job : Job, ¬ job.options.Unresolved read →
      ∃ settings, job.options.settings read = .ok settings ∧
        (∀ why, read job.file = .error why →
          (job.run read colour).Fails explain (colour && !job.options.noColor)
            ("cannot read " ++ job.file ++ ": " ++ why.message)) ∧
        ∀ source, read job.file = .ok source →
          job.Ends explain (colour && !job.options.noColor) settings source
            (job.run read colour)) ∧
    ∀ job job' : Job, job.task ≠ .tokens → job'.task ≠ .tokens → job'.file = job.file →
      job'.options = job.options →
      (job'.run read colour).exit = (job.run read colour).exit ∧
        (job'.run read colour).err explain = (job.run read colour).err explain := by
  refine ⟨?_, fun job => run_unresolved colour, ?_, ?_⟩
  · intro args job accepted
    rw [run, accepted]
  · intro job resolvable
    obtain ⟨settings, resolved⟩ := exists_settings resolvable
    refine ⟨settings, resolved, fun why => run_unreadable colour resolved, ?_⟩
    intro source readable
    rw [run_readable colour resolved readable]
    exact ends_perform job _ settings source
  · intro job job' task task' file options
    exact run_alike task task' file options read colour

end Command

end Quill
