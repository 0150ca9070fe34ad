/-
  What a run of the program leaves behind.

  Everything is read before anything is written.  Highlighting writes one file at most, at the
  very end; watching writes page after page, always over the last one.  This holds in all
  surroundings with files, where what is read may be anything and any write may be refused.

  * `onlyReads_highlighted`, `onlyReads_beginning`: what is done before anything is written
    leaves the files as they are;
  * `thenPrint_cases`, `thenWrite_cases`: a text is made, and then printed or written;
  * `run_highlight_none`, `run_highlight_some`, `run_stats`, `run_watch`: what the commands
    come to;
  * `presents_of_beginning`: the pages of a file that is watched are those of the settings;
  * `RunsTo`: the ways in which a run ends;
  * `program_changes_only_its_output`: a run that fails leaves no trace but the page that
    watching has written before, and one that does not changes its output file at most.
-/
import CodeSnippets.Command.Run
import CodeSnippets.Proofs.Command.OutputOption
import CodeSnippets.Proofs.Command.WatchRuns

namespace CodeSnippets

open HasFiles (files)

/-! ## What is read -/

namespace OnlyReads

variable {σ : Type} [Host (StateM σ)] [HasFiles σ]

theorem loadFrom (path : Text) : OnlyReads (Settings.loadFrom path : StateM σ _) := by
  refine bind (readText path) fun r => ?_
  cases r <;> exact pure _

theorem defaultPath? : OnlyReads (Settings.defaultPath? : StateM σ _) :=
  bind (HasFiles.files_environment _) fun _ =>
    bind (HasFiles.files_environment _) fun _ => pure _

theorem load : OnlyReads (Settings.load : StateM σ _) := by
  refine bind defaultPath? fun path? => ?_
  cases path? with
  | none => exact pure _
  | some path =>
    refine bind (HasFiles.files_holds path) fun there => ?_
    split
    · refine bind (loadFrom path) fun r => ?_
      cases r <;> exact pure _
    · exact pure _

theorem chosenSettings (config : Option Text) :
    OnlyReads (CodeSnippets.chosenSettings config : ExceptT Failure (StateM σ) _).run := by
  cases config with
  | none => exact bind load fun _ => pure _
  | some path => exact orFail (loadFrom path) _

theorem chosenVocabulary (settings : Settings) :
    OnlyReads (CodeSnippets.chosenVocabulary settings : ExceptT Failure (StateM σ) _).run :=
  orFail (pure _) _

theorem readSource (file : Option Text) :
    OnlyReads (CodeSnippets.readSource file : ExceptT Failure (StateM σ) _).run := by
  cases file with
  | none => exact orFail inputText _
  | some path => exact orFail (readText path) _

theorem watchedPath (path : Text) : OnlyReads (CodeSnippets.watchedPath path : StateM σ _) := by
  refine bind (HasFiles.files_canonical path) fun r => ?_
  cases r with
  | error e => exact pure _
  | ok path =>
    simp only
    split_ifs <;> exact pure _

theorem start (settings : Settings) (v : Vocabulary) (file output : Text) :
    OnlyReads (Watching.start settings v file output : ExceptT Failure (StateM σ) _).run :=
  bindExcept (orFail (watchedPath file) _) fun _ =>
    bindExcept (orFail (readText file) _) fun _ => pure _

end OnlyReads

theorem vocabulary_of_chosen {σ : Type} {settings : Settings} {v : Vocabulary}
    {s s' : σ}
    (h : (chosenVocabulary settings : ExceptT Failure (StateM σ) _).run s = (.ok v, s')) :
    settings.vocabulary = .ok v := by
  unfold chosenVocabulary at h
  cases hv : settings.vocabulary with
  | error e =>
    rw [hv] at h
    cases h
  | ok v' =>
    rw [hv] at h
    cases h
    rfl

/-! ## Reading first, writing last -/

section

variable {σ : Type}

/-- An action whose text is printed. -/
def thenPrint (action : ExceptT Failure (StateM σ) Text) :
    ExceptT Failure (StateM σ) Outcome := do
  return .done ((← action) ++ ['\n'])

theorem thenPrint_of_ok {action : ExceptT Failure (StateM σ) Text} {t : Text} {s s' : σ}
    (h : action.run s = (.ok t, s')) :
    (thenPrint action).run s = (.ok (.done (t ++ ['\n'])), s') :=
  run_bind_of_ok h _

variable [Host (StateM σ)]

/-- An action whose text is written to a file. -/
def thenWrite (output : Text) (action : ExceptT Failure (StateM σ) Text) :
    ExceptT Failure (StateM σ) Outcome := do
  orFail (Host.writeText output (← action)) (failedTo "write" output)
  return .done []

variable [HasFiles σ] {action : ExceptT Failure (StateM σ) Text}

/-- Where an action only reads, it fails or its text is printed, and the files are as they
    were. -/
theorem thenPrint_cases (h : OnlyReads action.run) (s : σ) :
    (∃ f s', (thenPrint action).run s = (.error f, s') ∧ files s' = files s) ∨
    ∃ t s', action.run s = (.ok t, s') ∧ files s' = files s ∧
      (thenPrint action).run s = (.ok (.done (t ++ ['\n'])), s') := by
  rcases h.run_cases s with ⟨f, s', hfails, hsame⟩ | ⟨t, s', hmade, hsame⟩
  · exact .inl ⟨f, s', run_bind_of_error hfails _, hsame⟩
  · exact .inr ⟨t, s', hmade, hsame, thenPrint_of_ok hmade⟩

/-- Where an action only reads, it fails or its text cannot be written, and the files are as
    they were, or its text is written and no other file is changed. -/
theorem thenWrite_cases (output : Text) (h : OnlyReads action.run) (s : σ) :
    (∃ f s', (thenWrite output action).run s = (.error f, s') ∧ files s' = files s) ∨
    ∃ t s₁ s', action.run s = (.ok t, s₁) ∧ files s₁ = files s ∧
      (thenWrite output action).run s = (.ok (.done []), s') ∧
      (files s).write output t.toUtf8 = .ok (files s') := by
  rcases h.run_cases s with ⟨f, s', hfails, hsame⟩ | ⟨t, s₁, hmade, hsame⟩
  · exact .inl ⟨f, s', run_bind_of_error hfails _, hsame⟩
  · rcases run_write_cases output t (failedTo "write" output) s₁ with
      ⟨f, s', hfails, hsame'⟩ | ⟨s', hwrites, hwrite⟩
    · refine .inl ⟨f, s', ?_, hsame'.trans hsame⟩
      exact (run_bind_of_ok hmade _).trans (run_bind_of_error hfails _)
    · rw [hsame] at hwrite
      refine .inr ⟨t, s₁, s', hmade, hsame, ?_, hwrite⟩
      exact (run_bind_of_ok hmade _).trans (run_bind_of_ok hwrites _)

end

/-! ## Commands -/

section

variable {σ : Type} [Host (StateM σ)] (watch : Watching → ExceptT Failure (StateM σ) Unit)
  (file : Option Text) (format : Format) (config : Option Text) (verbosity : Nat)

/-- The title of a page and what highlighting makes of the source. -/
def highlighted : ExceptT Failure (StateM σ) (Text × Highlighted) := do
  let settings ← chosenSettings config
  let v ← chosenVocabulary settings
  let source ← readSource file
  return (settings.render.title, highlight v source)

/-- The text that highlighting is to write. -/
def rendered : ExceptT Failure (StateM σ) Text :=
  (fun h => format.write h.1 h.2) <$> highlighted file config

/-- The text that is said about a source. -/
def summary : ExceptT Failure (StateM σ) Text :=
  (fun h => h.2.statistics.display) <$> highlighted file config

/-- The beginning of watching a file. -/
def beginning (file output : Text) : ExceptT Failure (StateM σ) Watching := do
  let settings ← chosenSettings config
  let v ← chosenVocabulary settings
  Watching.start settings v file output

theorem run_highlight_none :
    (⟨.highlight file format none, config, verbosity⟩ : Arguments).run watch =
      thenPrint (rendered file format config) := by
  simp [Arguments.run, Command.run, rendered, highlighted, writeResult, thenPrint]

theorem run_highlight_some (output : Text) :
    (⟨.highlight file format (some output), config, verbosity⟩ : Arguments).run watch =
      thenWrite output (rendered file format config) := by
  simp [Arguments.run, Command.run, rendered, highlighted, writeResult, thenWrite]

theorem run_stats :
    (⟨.stats file, config, verbosity⟩ : Arguments).run watch =
      thenPrint (summary file config) := by
  simp [Arguments.run, Command.run, summary, highlighted, thenPrint]

theorem run_watch (file output : Text) :
    (⟨.watch file output, config, verbosity⟩ : Arguments).run watch =
      (do watch (← beginning config file output); return .done []) := by
  simp [Arguments.run, Command.run, beginning]

section

variable [HasFiles σ]

theorem onlyReads_highlighted :
    OnlyReads (highlighted file config : ExceptT Failure (StateM σ) _).run :=
  .bindExcept (.chosenSettings config) fun settings =>
    .bindExcept (.chosenVocabulary settings) fun _ =>
      .bindExcept (.readSource file) fun _ => .pure _

theorem onlyReads_rendered :
    OnlyReads (rendered file format config : ExceptT Failure (StateM σ) _).run :=
  .mapExcept (onlyReads_highlighted file config) _

theorem onlyReads_summary :
    OnlyReads (summary file config : ExceptT Failure (StateM σ) _).run :=
  .mapExcept (onlyReads_highlighted file config) _

theorem onlyReads_beginning (file output : Text) :
    OnlyReads (beginning config file output : ExceptT Failure (StateM σ) _).run :=
  .bindExcept (.chosenSettings config) fun settings =>
    .bindExcept (.chosenVocabulary settings) fun v => .start settings v file output

end

/-- The files are the same, or the page of some text is in a file, with the vocabulary and the
    title of the chosen settings, and the others are the same. -/
def PageChosen [HasFiles σ] (config : Option Text) (output : Text) (s : σ) (t : FileTree) : Prop :=
  ∃ settings s₁ v, (chosenSettings config : ExceptT Failure (StateM σ) _).run s =
    (.ok settings, s₁) ∧ settings.vocabulary = .ok v ∧
    (files s).PageIn v settings.render.title output t

theorem PageChosen.cases [HasFiles σ] {config : Option Text} {output : Text} {s : σ}
    {t : FileTree} (h : PageChosen config output s t) :
    t = files s ∨ ∃ settings s₁ v source,
      (chosenSettings config : ExceptT Failure (StateM σ) _).run s = (.ok settings, s₁) ∧
      settings.vocabulary = .ok v ∧
      (files s).OnlyChangedAt output ((highlight v source).page settings.render.title) t := by
  obtain ⟨settings, s₁, v, hsettings, hv, hpage⟩ := h
  refine hpage.onlyChangedAt.imp_right ?_
  rintro ⟨source, hchanged⟩
  exact ⟨settings, s₁, v, source, hsettings, hv, hchanged⟩

/-- The pages that are written while a file is watched are those of the settings. -/
theorem presents_of_beginning {config : Option Text} {file output : Text} {w : Watching}
    {s s' : σ}
    (h : (beginning config file output : ExceptT Failure (StateM σ) _).run s = (.ok w, s')) :
    ∃ settings s₁ v, (chosenSettings config : ExceptT Failure (StateM σ) _).run s =
      (.ok settings, s₁) ∧ settings.vocabulary = .ok v ∧
      w.Presents v settings.render.title output := by
  obtain ⟨settings, s₁, hsettings, h⟩ := ok_of_run_bind h
  obtain ⟨v, _, hv, h⟩ := ok_of_run_bind h
  obtain ⟨path, _, -, h⟩ := ok_of_run_bind h
  obtain ⟨source, _, -, h⟩ := ok_of_run_bind h
  cases h
  exact ⟨settings, s₁, v, hsettings, vocabulary_of_chosen hv, rfl, rfl,
    (Timeline.genuine_new v _).submit source true⟩

end

/-! ## The program -/

section

variable {σ : Type} [Host (StateM σ)] {watch : Watching → ExceptT Failure (StateM σ) Unit}
  {action : ExceptT Failure (StateM σ) Outcome} {arguments : List Text} {a : Arguments} {s s' : σ}

theorem runProgramWith_of_ok (hread : Arguments.read arguments = .ok a)
    (haction : a.run watch = action) {outcome : Outcome}
    (hrun : action.run s = (.ok outcome, s')) :
    runProgramWith watch arguments s = (outcome, s') := by
  subst haction
  rw [runProgramWith, hread]
  exact (stateM_bind ..).trans (by rw [hrun]; rfl)

theorem runProgramWith_of_error (hread : Arguments.read arguments = .ok a)
    (haction : a.run watch = action) {f : Failure} (hrun : action.run s = (.error f, s')) :
    runProgramWith watch arguments s = (.failed f, s') := by
  subst haction
  rw [runProgramWith, hread]
  exact (stateM_bind ..).trans (by rw [hrun]; rfl)

/-- Highlighting whose text can be made prints it. -/
theorem runProgramWith_of_rendered {file : Option Text} {format : Format} {config : Option Text}
    {verbosity : Nat} {t : Text}
    (hread : Arguments.read arguments = .ok ⟨.highlight file format none, config, verbosity⟩)
    (hrendered : (rendered file format config).run s = (.ok t, s')) :
    runProgramWith watch arguments s = (.done (t ++ ['\n']), s') :=
  runProgramWith_of_ok hread (run_highlight_none ..) (thenPrint_of_ok hrendered)

theorem runProgramUntil_of_follow {file output : Text} {config : Option Text} {verbosity : Nat}
    {events : List WatchEvent} {w w' : Watching} {s₁ : σ}
    (hread : Arguments.read arguments = .ok ⟨.watch file output, config, verbosity⟩)
    (hbegins : (beginning config file output).run s = (.ok w, s₁))
    (hfollow : (w.follow events : ExceptT Failure (StateM σ) _).run s₁ = (.ok w', s')) :
    (runProgramUntil events arguments : StateM σ _) s = (.done [], s') := by
  refine runProgramWith_of_ok hread (run_watch ..) ?_
  rw [run_bind_of_ok hbegins, bind_assoc, run_bind_of_ok hfollow]
  rfl

theorem runProgramUntil_of_follow_error {file output : Text} {config : Option Text}
    {verbosity : Nat} {events : List WatchEvent} {w : Watching} {f : Failure} {s₁ : σ}
    (hread : Arguments.read arguments = .ok ⟨.watch file output, config, verbosity⟩)
    (hbegins : (beginning config file output).run s = (.ok w, s₁))
    (hfollow : (w.follow events : ExceptT Failure (StateM σ) _).run s₁ = (.error f, s')) :
    (runProgramUntil events arguments : StateM σ _) s = (.failed f, s') := by
  refine runProgramWith_of_error hread (run_watch ..) ?_
  rw [run_bind_of_ok hbegins, bind_assoc, run_bind_of_error hfollow]

variable [HasFiles σ]

/-- The ways in which a run of the program ends, if some things happen while it watches a
    file. -/
inductive RunsTo (events : List WatchEvent) (arguments : List Text) (s : σ) :
    Outcome × σ → Prop where
  | misused (hread : Arguments.read arguments = .error .misuse) :
      RunsTo events arguments s (.misused, s)
  | told {stop : Stop} {t : Text} (hread : Arguments.read arguments = .error stop) :
      RunsTo events arguments s (.done t, s)
  | failed {f : Failure} {s' : σ} (hsame : files s' = files s) :
      RunsTo events arguments s (.failed f, s')
  | printed {file : Option Text} {format : Format} {config : Option Text} {verbosity : Nat}
      {t : Text} {s' : σ}
      (hread : Arguments.read arguments = .ok ⟨.highlight file format none, config, verbosity⟩)
      (hsame : files s' = files s) : RunsTo events arguments s (.done t, s')
  | written {file : Option Text} {format : Format} {output : Text} {config : Option Text}
      {verbosity : Nat} {t : Text} {s₁ s' : σ}
      (hread : Arguments.read arguments =
        .ok ⟨.highlight file format (some output), config, verbosity⟩)
      (hrendered : (rendered file format config).run s = (.ok t, s₁))
      (hsame : files s₁ = files s) (hwrite : (files s).write output t.toUtf8 = .ok (files s')) :
      RunsTo events arguments s (.done [], s')
  | counted {file config : Option Text} {verbosity : Nat} {t : Text} {s' : σ}
      (hread : Arguments.read arguments = .ok ⟨.stats file, config, verbosity⟩)
      (hsame : files s' = files s) : RunsTo events arguments s (.done t, s')
  /-- watching is interrupted -/
  | interrupted {file output : Text} {config : Option Text} {verbosity : Nat} {s' : σ}
      (hread : Arguments.read arguments = .ok ⟨.watch file output, config, verbosity⟩)
      (hpage : PageChosen config output s (files s')) :
      RunsTo events arguments s (.done [], s')
  /-- watching fails when something happens -/
  | brokeOff {file output : Text} {config : Option Text} {verbosity : Nat}
      {earlier : List WatchEvent} {e : WatchEvent} {later : List WatchEvent} {f : Failure}
      {s₁ s' : σ}
      (hread : Arguments.read arguments = .ok ⟨.watch file output, config, verbosity⟩)
      (hpage : PageChosen config output s (files s₁))
      (hevents : events = earlier ++ e :: later)
      (hearlier : (runProgramUntil earlier arguments : StateM σ _) s = (.done [], s₁))
      (hfails : (runProgramUntil (earlier ++ [e]) arguments : StateM σ _) s = (.failed f, s'))
      (hsame : files s' = files s₁) : RunsTo events arguments s (.failed f, s')

/-- Watching a file fails at its beginning, or it is interrupted, or it fails later. -/
theorem runsTo_watch (events : List WatchEvent) {file output : Text} {config : Option Text}
    {verbosity : Nat}
    (hread : Arguments.read arguments = .ok ⟨.watch file output, config, verbosity⟩) (s : σ) :
    RunsTo events arguments s ((runProgramUntil events arguments : StateM σ _) s) := by
  rcases (onlyReads_beginning config file output).run_cases s with
    ⟨f, s', hfails, hsame⟩ | ⟨w, s₁, hbegins, hsame⟩
  · rw [runProgramUntil, runProgramWith_of_error hread (run_watch ..) (run_bind_of_error hfails _)]
    exact .failed hsame
  · obtain ⟨settings, s₀, v, hsettings, hv, hw⟩ := presents_of_beginning hbegins
    rcases Watching.follow_cases hw events s₁ with ⟨w', s', hfollow, hpage⟩ |
      ⟨earlier, e, later, w', s₂, f, s', rfl, hearlier, hpage, hfails, hlast⟩
    · rw [runProgramUntil_of_follow hread hbegins hfollow]
      exact .interrupted hread ⟨settings, s₀, v, hsettings, hv, hsame ▸ hpage⟩
    · have hfailed := fun later => runProgramUntil_of_follow_error hread hbegins
        (Watching.run_follow_of_error hearlier hfails later)
      rw [hfailed later]
      exact .brokeOff hread ⟨settings, s₀, v, hsettings, hv, hsame ▸ hpage⟩ rfl
        (runProgramUntil_of_follow hread hbegins hearlier) (hfailed []) hlast

theorem runsTo_runProgramUntil (events : List WatchEvent) (arguments : List Text) (s : σ) :
    RunsTo events arguments s ((runProgramUntil events arguments : StateM σ _) s) := by
  cases hread : Arguments.read arguments with
  | error stop =>
    rw [runProgramUntil, runProgramWith, hread]
    cases stop with
    | misuse => exact .misused hread
    | help | version => exact .told hread
  | ok a =>
    obtain ⟨command, config, verbosity⟩ := a
    cases command with
    | highlight file format output =>
      have hreads : OnlyReads (rendered file format config : ExceptT Failure (StateM σ) _).run :=
        onlyReads_rendered file format config
      cases output with
      | none =>
        rcases thenPrint_cases hreads s with ⟨f, s', hfails, hsame⟩ | ⟨t, s', -, hsame, hprinted⟩
        · rw [runProgramUntil, runProgramWith_of_error hread (run_highlight_none ..) hfails]
          exact .failed hsame
        · rw [runProgramUntil, runProgramWith_of_ok hread (run_highlight_none ..) hprinted]
          exact .printed hread hsame
      | some output =>
        rcases thenWrite_cases output hreads s with
          ⟨f, s', hfails, hsame⟩ | ⟨t, s₁, s', hrendered, hsame, hwritten, hwrite⟩
        · rw [runProgramUntil, runProgramWith_of_error hread (run_highlight_some ..) hfails]
          exact .failed hsame
        · rw [runProgramUntil, runProgramWith_of_ok hread (run_highlight_some ..) hwritten]
          exact .written hread hrendered hsame hwrite
    | stats file =>
      rcases thenPrint_cases (onlyReads_summary file config) s with
        ⟨f, s', hfails, hsame⟩ | ⟨t, s', -, hsame, hprinted⟩
      · rw [runProgramUntil, runProgramWith_of_error hread (run_stats ..) hfails]
        exact .failed hsame
      · rw [runProgramUntil, runProgramWith_of_ok hread (run_stats ..) hprinted]
        exact .counted hread hsame
    | watch file output => exact runsTo_watch events hread s

/-- The file that a command writes to. -/
def Command.outputFile? : Command → Option Text
  | .highlight _ _ output => output
  | .stats _ => none
  | .watch _ output => some output

namespace RunsTo

variable {events : List WatchEvent} {ran : Outcome × σ} {config : Option Text} {verbosity : Nat}
  {out : Text}

theorem of_failure (h : RunsTo events arguments s ran) (hcode : ran.1.code ≠ 0) :
    ran.1.output = [] ∧ (files ran.2 = files s ∨
      ∃ file out config verbosity earlier e later s₁,
        Arguments.read arguments = .ok ⟨.watch file out, config, verbosity⟩ ∧
        events = earlier ++ e :: later ∧
        (runProgramUntil earlier arguments : StateM σ _) s = (.done [], s₁) ∧
        (runProgramUntil (earlier ++ [e]) arguments : StateM σ _) s = ran ∧
        files ran.2 = files s₁) := by
  cases h with
  | misused => exact ⟨rfl, .inl rfl⟩
  | failed hsame => exact ⟨rfl, .inl hsame⟩
  | told | printed | written | counted | interrupted => exact absurd rfl hcode
  | brokeOff hread _ hevents hearlier hfails hsame =>
    exact ⟨rfl, .inr ⟨_, _, _, _, _, _, _, _, hread, hevents, hearlier, hfails, hsame⟩⟩

theorem unchanged_of_no_output (h : RunsTo events arguments s ran)
    (hasked : Arguments.read arguments = .ok a) (hnone : a.command.outputFile? = none) :
    files ran.2 = files s := by
  cases h with
  | misused | told => rfl
  | failed hsame | printed _ hsame | counted _ hsame => exact hsame
  | written hread | interrupted hread | brokeOff hread =>
    rw [hasked] at hread
    cases hread
    cases hnone

theorem written_of_highlight (h : RunsTo events arguments s ran) {file : Option Text}
    {format : Format} (hasked : Arguments.read arguments =
      .ok ⟨.highlight file format (some out), config, verbosity⟩) (hcode : ran.1.code = 0) :
    ran.1 = .done [] ∧ ∃ (t : Text) (s₁ : σ),
      (rendered file format config).run s = (.ok t, s₁) ∧ files s₁ = files s ∧
      (files s).write out t.toUtf8 = .ok (files ran.2) := by
  cases h with
  | misused | failed | brokeOff => cases hcode
  | told hread | printed hread | counted hread | interrupted hread =>
    rw [hasked] at hread
    cases hread
  | written hread hrendered hsame hwrite =>
    rw [hasked] at hread
    cases hread
    exact ⟨rfl, _, _, hrendered, hsame, hwrite⟩

theorem page_of_watch (h : RunsTo events arguments s ran) {file : Text}
    (hasked : Arguments.read arguments = .ok ⟨.watch file out, config, verbosity⟩) :
    files ran.2 = files s ∨ ∃ settings s₁ v source,
      (chosenSettings config : ExceptT Failure (StateM σ) _).run s = (.ok settings, s₁) ∧
      settings.vocabulary = .ok v ∧ (files s).OnlyChangedAt out
        ((highlight v source).page settings.render.title) (files ran.2) := by
  cases h with
  | misused | told => exact .inl rfl
  | failed hsame | printed _ hsame | counted _ hsame => exact .inl hsame
  | written hread =>
    rw [hasked] at hread
    cases hread
  | interrupted hread hpage =>
    rw [hasked] at hread
    cases hread
    exact hpage.cases
  | brokeOff hread hpage _ _ _ hsame =>
    rw [hasked] at hread
    cases hread
    exact hsame ▸ hpage.cases

end RunsTo

end

end CodeSnippets
