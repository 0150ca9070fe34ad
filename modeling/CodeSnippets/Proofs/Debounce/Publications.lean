/-
  Which texts a debouncer publishes, and when.

  * `Turn.Publishes`: what comes of a text.  One to be highlighted after a quiet
    period is published at the end of the quiet period that begins with it, unless
    a text is submitted before; one to be highlighted at once is published at the
    time of its submission, if the worker runs before the next text is submitted;
  * `Debounced`: only that is published, each text under its own generation, and
    the last of it is the last result;
  * `every_run_debounced`: for any steps there are runs, and each of them is
    `Debounced` and has the replies of the timeline.

  The induction goes over the turns of a run from its front, with any phase at its
  beginning: what is still to come of the phase is published by the turns or cut off
  by the first text among them (`Run.accounts`).
-/
import CodeSnippets.Proofs.Debounce.Phases

namespace CodeSnippets

namespace Timeline

/-! ## What comes of a text -/

/-- The worker runs before a text is submitted.  (Behind a new text no result is of
    the newest edit, so `next` does not come back before the worker has run.) -/
def WorkerFirst (turns : List Turn) : Prop :=
  ∃ before x after, turns = before ++ x :: after ∧ x.step.runsWorker = true ∧
    ∀ y ∈ before, y.step.submits = false

/-- What is published of the text that a turn submits, if anything: `generation` is
    the one of its edit, `after` the turns that follow and `final` the time at the
    end of the run. -/
def Turn.Publishes (x : Turn) (v : Vocabulary) (delay generation : Nat) (after : List Turn)
    (final : Nat) (p : Publication) : Prop :=
  match x.step with
  | .submit text =>
    p = ⟨x.time + delay, generation, highlight v text⟩ ∧ x.time + delay ≤ final ∧
      ∀ y ∈ after, y.step.submits = true → x.time + delay ≤ y.time
  | .submitNow text => p = ⟨x.time, generation, highlight v text⟩ ∧ WorkerFirst after
  | _ => False

/-- What the turns of a run from the beginning show. -/
structure Debounced (v : Vocabulary) (delay : Nat) (turns : List Turn) (final : Nat) : Prop where
  mem_published_iff : ∀ p, p ∈ published turns ↔
    ∃ before x after, turns = before ++ x :: after ∧
      x.Publishes v delay (submissions before + 1) after final p
  ascending : (published turns).Pairwise fun p q => p.rendering.generation < q.rendering.generation
  generation : ∀ before x after, turns = before ++ x :: after → x.step.submits = true →
    x.reply = .generation (submissions before + 1)
  latest : ∀ before x after, turns = before ++ x :: after → x.step = .latest →
    x.reply = .latest ((published before).getLast?.map Publication.rendering)

/-! ## Turn by turn -/

theorem not_workerFirst_nil : ¬ WorkerFirst [] := by
  rintro ⟨before, x, after, h, -⟩
  simp at h

theorem workerFirst_cons {x : Turn} {turns : List Turn} :
    WorkerFirst (x :: turns) ↔
      x.step.runsWorker = true ∨ (x.step.submits = false ∧ WorkerFirst turns) := by
  constructor
  · rintro ⟨before, y, after, h, hruns, hbefore⟩
    cases before with
    | nil =>
      cases h
      exact .inl hruns
    | cons z before =>
      cases h
      refine .inr ⟨hbefore x List.mem_cons_self, before, y, after, rfl, hruns, ?_⟩
      exact fun z hz => hbefore z (List.mem_cons_of_mem _ hz)
  · rintro (hruns | ⟨hx, before, y, after, rfl, hruns, hbefore⟩)
    · exact ⟨[], x, turns, rfl, hruns, by simp⟩
    · refine ⟨x :: before, y, after, rfl, hruns, fun z hz => ?_⟩
      rcases List.mem_cons.1 hz with rfl | hz
      · exact hx
      · exact hbefore z hz

/-- Nothing comes before an edit that is due at a time. -/
def Arrives (e : Edit) (due : Nat) (turns : List Turn) (final : Nat) : Prop :=
  if e.immediate then WorkerFirst turns
  else due ≤ final ∧ ∀ x ∈ turns, x.step.submits = true → due ≤ x.time

theorem arrives_cons_of_instant {e : Edit} {due final : Nat} {x : Turn} {turns : List Turn}
    (hruns : x.step.runsWorker = false) (hx : x.step.submits = false) :
    Arrives e due (x :: turns) final ↔ Arrives e due turns final := by
  simp [Arrives, workerFirst_cons, hruns, hx]

theorem arrives_cons_of_patient {e : Edit} {due final : Nat} {x : Turn} {turns : List Turn}
    (hi : e.immediate = false) (hx : x.step.submits = false) :
    Arrives e due (x :: turns) final ↔ Arrives e due turns final := by
  simp [Arrives, hi, hx]

/-- What the first turn makes of the texts of all. -/
theorem exists_publishes_cons {v : Vocabulary} {delay issued final : Nat} {x : Turn}
    {turns : List Turn} {p : Publication} :
    (∃ before y after, x :: turns = before ++ y :: after ∧
        y.Publishes v delay (issued + submissions before + 1) after final p) ↔
      x.Publishes v delay (issued + 1) turns final p ∨
        ∃ before y after, turns = before ++ y :: after ∧
          y.Publishes v delay (issued + x.step.submits.toNat + submissions before + 1) after
            final p := by
  constructor
  · rintro ⟨before, y, after, h, hy⟩
    cases before with
    | nil =>
      cases h
      exact .inl hy
    | cons z before =>
      cases h
      rw [submissions_cons, ← Nat.add_assoc] at hy
      exact .inr ⟨before, y, after, rfl, hy⟩
  · rintro (hx | ⟨before, y, after, rfl, hy⟩)
    · exact ⟨[], x, turns, rfl, hx⟩
    · rw [Nat.add_assoc issued, ← submissions_cons] at hy
      exact ⟨x :: before, y, after, rfl, hy⟩

theorem not_publishes {x : Turn} {v : Vocabulary} {delay generation final : Nat}
    {after : List Turn} {p : Publication} (hx : x.step.submits = false) :
    ¬ x.Publishes v delay generation after final p := by
  intro h
  unfold Turn.Publishes at h
  split at h
  · rename_i hs
    rw [hs] at hx
    cases hx
  · rename_i hs
    rw [hs] at hx
    cases hx
  · exact h

/-- All that some turns publish is accounted for: it is the edit that is to come at
    their beginning, if nothing comes before, and what comes of the texts in them. -/
def Accounts (t : Timeline) (o : Option (Edit × Nat)) (turns : List Turn) (final : Nat) : Prop :=
  ∀ p, p ∈ published turns ↔
    (∃ e due, o = some (e, due) ∧ p = ⟨due, t.render e⟩ ∧ Arrives e due turns final) ∨
      ∃ before x after, turns = before ++ x :: after ∧
        x.Publishes t.debouncer.vocabulary t.delay (t.debouncer.issued + submissions before + 1)
          after final p

theorem accounts_nil {t : Timeline} {o : Option (Edit × Nat)} (hd : 0 < t.delay)
    (hp : Phase t o) : Accounts t o [] t.now := by
  intro p
  constructor
  · intro hmem
    cases hmem
  · rintro (⟨e, due, rfl, -, harr⟩ | ⟨before, x, after, h, -⟩)
    · unfold Arrives at harr
      split at harr
      · exact absurd harr not_workerFirst_nil
      · rename_i hi
        have hlt := hp.ahead hd (Bool.eq_false_iff.2 hi)
        omega
    · simp at h

/-- A turn in which the worker runs and publishes nothing. -/
theorem Accounts.cons_silent {t u : Timeline} {o : Option (Edit × Nat)} {turns : List Turn}
    {final : Nat} (h : Accounts u o turns final) (hk : Kept t u) {x : Turn}
    (hx : x.step.submits = false) (hl : x.published = [])
    (hpatient : ∀ e due, o = some (e, due) → e.immediate = false ∨ x.step.runsWorker = false) :
    Accounts t o (x :: turns) final := by
  intro p
  have harr : ∀ e due, o = some (e, due) →
      (Arrives e due (x :: turns) final ↔ Arrives e due turns final) := by
    intro e due ho
    rcases hpatient e due ho with hi | hruns
    · exact arrives_cons_of_patient hi hx
    · exact arrives_cons_of_instant hruns hx
  have hp := h p
  rw [hk.vocabulary, hk.delay, hk.issued] at hp
  rw [published_cons, exists_publishes_cons, or_iff_right (not_publishes hx), hl, List.nil_append,
    hp, hx]
  refine or_congr_left ?_
  constructor
  · rintro ⟨e, due, ho, rfl, h⟩
    exact ⟨e, due, ho, by rw [hk.render], (harr e due ho).2 h⟩
  · rintro ⟨e, due, ho, rfl, h⟩
    exact ⟨e, due, ho, by rw [hk.render], (harr e due ho).1 h⟩

/-- A turn in which the edit that is to come is published. -/
theorem Accounts.cons_published {t u : Timeline} {e : Edit} {due : Nat} {turns : List Turn}
    {final : Nat} (h : Accounts u none turns final) (hk : Kept t u) {x : Turn}
    (hx : x.step.runsWorker = true) (hl : x.published = [⟨due, t.render e⟩]) (hle : due ≤ u.now)
    (hfinal : u.now ≤ final) (htimes : ∀ y ∈ turns, u.now ≤ y.time) :
    Accounts t (some (e, due)) (x :: turns) final := by
  intro p
  have hsub : x.step.submits = false := Step.submits_eq_false hx
  have harr : Arrives e due (x :: turns) final := by
    unfold Arrives
    split
    · exact workerFirst_cons.2 (.inl hx)
    · refine ⟨Nat.le_trans hle hfinal, fun y hy hy' => ?_⟩
      rcases List.mem_cons.1 hy with rfl | hy
      · exact absurd hy' (Bool.eq_false_iff.1 hsub)
      · exact Nat.le_trans hle (htimes y hy)
  have hnone : ¬ ∃ e' due', (none : Option (Edit × Nat)) = some (e', due') ∧
      p = ⟨due', u.render e'⟩ ∧ Arrives e' due' turns final := by
    rintro ⟨e', due', ho, -⟩
    cases ho
  have hp := h p
  rw [or_iff_right hnone, hk.vocabulary, hk.delay, hk.issued] at hp
  rw [published_cons, exists_publishes_cons, or_iff_right (not_publishes hsub), hl,
    List.singleton_append, List.mem_cons, hp, hsub]
  refine or_congr_left ?_
  constructor
  · rintro rfl
    exact ⟨e, due, rfl, rfl, harr⟩
  · rintro ⟨e', due', ho, rfl, -⟩
    cases ho
    rfl

/-- A turn that submits a text: the edit that was to come is not published. -/
theorem Accounts.cons_submits {t : Timeline} {o : Option (Edit × Nat)} {turns : List Turn}
    {final : Nat} {text : Text} {immediate : Bool} (hd : 0 < t.delay) (hp : Phase t o)
    (h : Accounts (t.submit text immediate)
      (some (t.debouncer.nextEdit text immediate, if immediate then t.now else t.now + t.delay))
      turns final) {x : Turn} (hx : x.time = t.now) (hl : x.published = [])
    (hs : x.step = if immediate then .submitNow text else .submit text) :
    Accounts t o (x :: turns) final := by
  intro p
  have hsub : x.step.submits = true := by
    rw [hs]
    split <;> rfl
  have hnone : ¬ ∃ e due, o = some (e, due) ∧ p = ⟨due, t.render e⟩ ∧
      Arrives e due (x :: turns) final := by
    rintro ⟨e, due, rfl, -, harr⟩
    unfold Arrives at harr
    split at harr
    · rcases workerFirst_cons.1 harr with hruns | ⟨hx', -⟩
      · rw [Step.submits_eq_false hruns] at hsub
        cases hsub
      · rw [hsub] at hx'
        cases hx'
    · rename_i hi
      have hlt := hp.ahead hd (Bool.eq_false_iff.2 hi)
      have hle := harr.2 x List.mem_cons_self hsub
      omega
  have hpub : x.Publishes t.debouncer.vocabulary t.delay (t.debouncer.issued + 1) turns final p ↔
      p = ⟨if immediate then t.now else t.now + t.delay, t.render (t.debouncer.nextEdit text immediate)⟩ ∧
        Arrives (t.debouncer.nextEdit text immediate)
          (if immediate then t.now else t.now + t.delay) turns final := by
    unfold Turn.Publishes Arrives
    cases immediate with
    | true => simp [hs, hx, Debouncer.nextEdit, Timeline.render]
    | false => simp [hs, hx, Debouncer.nextEdit, Timeline.render]
  have hvoc : (t.submit text immediate).debouncer.vocabulary = t.debouncer.vocabulary := by
    rw [Timeline.submit, Debouncer.submit_eq]
  have hissued : (t.submit text immediate).debouncer.issued = t.debouncer.issued + 1 := by
    rw [Timeline.submit, Debouncer.submit_eq]
  have hrender : ∀ e, (t.submit text immediate).render e = t.render e := by
    intro e
    rw [Timeline.render, Timeline.render, hvoc]
  have hacc := h p
  rw [hvoc, hissued] at hacc
  rw [published_cons, exists_publishes_cons, or_iff_right hnone, hl, List.nil_append, hacc, hpub,
    hsub]
  refine or_congr_left ?_
  constructor
  · rintro ⟨e, due, ho, rfl, harr⟩
    cases ho
    exact ⟨by rw [hrender], harr⟩
  · rintro ⟨rfl, harr⟩
    exact ⟨_, _, rfl, by rw [hrender], harr⟩

/-- What a run publishes: the edit that is to come at its beginning, if nothing
    comes before, and what comes of the texts submitted in it. -/
theorem Run.accounts {t w : Timeline} {turns : List Turn} {o : Option (Edit × Nat)}
    (h : Run t turns w) (hd : 0 < t.delay) (hs : Sound t) (hp : Phase t o) :
    Accounts t o turns w.now := by
  induction h generalizing o with
  | nil => exact accounts_nil hd hp
  | @cons t u w s r l turns h hr ih =>
    cases hruns : s.runsWorker with
    | true =>
      obtain ⟨hs', hcase⟩ := h.runs hruns hd hs hp
      have hk := (h.kept hruns).1
      have hd' : 0 < u.delay := hk.delay ▸ hd
      rcases hcase with ⟨rfl, hp', hpatient⟩ | ⟨e, due, rfl, hle, rfl, hp'⟩
      · have hacc := ih hd' hs' hp'
        exact hacc.cons_silent hk (Step.submits_eq_false hruns) rfl fun e due ho =>
          .inl (hpatient e due ho).1
      · have hacc := ih hd' hs' hp'
        exact hacc.cons_published hk hruns rfl hle hr.le_now hr.le_time
    | false =>
      cases h with
      | instant hi =>
        cases s with
        | submit text =>
          have hacc := ih hd (hs.submit text false) (hp.submit hs text false)
          exact hacc.cons_submits hd hp rfl rfl rfl
        | submitNow text =>
          have hacc := ih hd (hs.submit text true) (hp.submit hs text true)
          exact hacc.cons_submits hd hp rfl rfl rfl
        | latest => exact (ih hd hs hp).cons_silent (Kept.refl t) rfl rfl fun _ _ _ => .inr rfl
        | isCurrent g => exact (ih hd hs hp).cons_silent (Kept.refl t) rfl rfl fun _ _ _ => .inr rfl
        | sleep ms => cases hruns
        | next ms => cases hruns
      | _ => cases hruns

/-! ## Whole runs -/

theorem Turn.Publishes.generation_eq {x : Turn} {v : Vocabulary} {delay generation final : Nat}
    {after : List Turn} {p : Publication} (h : x.Publishes v delay generation after final p) :
    p.rendering.generation = generation := by
  unfold Turn.Publishes at h
  split at h
  · rw [h.1]
  · rw [h.1]
  · exact absurd h id

theorem Accounts.issued_lt {t : Timeline} {turns : List Turn} {final : Nat}
    (h : Accounts t none turns final) :
    ∀ p ∈ published turns, t.debouncer.issued < p.rendering.generation := by
  intro p hp
  rcases (h p).1 hp with ⟨e, due, ho, -⟩ | ⟨before, x, after, -, hx⟩
  · cases ho
  · rw [hx.generation_eq]
    omega

theorem StepsTo.exists_phase {t u : Timeline} {s : Step} {r : Reply} {l : List Publication}
    {o : Option (Edit × Nat)} (h : StepsTo t s r l u) (hd : 0 < t.delay) (hs : Sound t)
    (hp : Phase t o) :
    0 < u.delay ∧ Sound u ∧ ∃ o', Phase u o' ∧
      (l = [] ∨ o' = none ∧ ∃ p, l = [p] ∧ p.rendering.generation = u.debouncer.issued) := by
  cases hruns : s.runsWorker with
  | true =>
    obtain ⟨hs', hcase⟩ := h.runs hruns hd hs hp
    have hk := (h.kept hruns).1
    refine ⟨hk.delay ▸ hd, hs', ?_⟩
    rcases hcase with ⟨hl, hp', -⟩ | ⟨e, due, rfl, -, hl, hp'⟩
    · exact ⟨o, hp', .inl hl⟩
    · exact ⟨none, hp', .inr ⟨rfl, _, hl, hp.newest.trans hk.issued.symm⟩⟩
  | false =>
    cases h with
    | instant hi =>
      cases s with
      | submit text => exact ⟨hd, hs.submit text false, _, hp.submit hs text false, .inl rfl⟩
      | submitNow text => exact ⟨hd, hs.submit text true, _, hp.submit hs text true, .inl rfl⟩
      | latest => exact ⟨hd, hs, o, hp, .inl rfl⟩
      | isCurrent g => exact ⟨hd, hs, o, hp, .inl rfl⟩
      | sleep ms => cases hruns
      | next ms => cases hruns
    | _ => cases hruns

theorem Run.ascending {t w : Timeline} {turns : List Turn} {o : Option (Edit × Nat)}
    (h : Run t turns w) (hd : 0 < t.delay) (hs : Sound t) (hp : Phase t o) :
    (published turns).Pairwise fun p q => p.rendering.generation < q.rendering.generation := by
  induction h generalizing o with
  | nil => exact .nil
  | cons h hr ih =>
    obtain ⟨hd', hs', o', hp', hl⟩ := h.exists_phase hd hs hp
    rw [published_cons]
    rcases hl with hl | ⟨rfl, p, hl, hgen⟩
    · rw [hl]
      exact ih hd' hs' hp'
    · rw [hl]
      refine List.pairwise_cons.2 ⟨fun q hq => ?_, ih hd' hs' hp'⟩
      rw [hgen]
      exact (hr.accounts hd' hs' hp').issued_lt q hq

theorem Run.replies_eq {t w : Timeline} {turns : List Turn} {o : Option (Edit × Nat)}
    (h : Run t turns w) (hd : 0 < t.delay) (hs : Sound t) (hp : Phase t o) :
    turns.map Turn.reply = t.replies (turns.map Turn.step) := by
  induction h generalizing o with
  | nil => rfl
  | cons h hr ih =>
    obtain ⟨hd', hs', o', hp', -⟩ := h.exists_phase hd hs hp
    rw [List.map_cons, List.map_cons, replies, h.eq_step hd hp.keen, ih hd' hs' hp']

theorem Run.reply_of_submits {t w : Timeline} {before after : List Turn} {x : Turn}
    (h : Run t (before ++ x :: after) w) (hx : x.step.submits = true) :
    x.reply = .generation (t.debouncer.issued + submissions before + 1) := by
  obtain ⟨u, hbefore, hafter⟩ := h.exists_of_append
  rw [← hbefore.issued_eq]
  cases hafter with
  | @cons _ u' _ s r l _ hstep hr =>
    cases hstep with
    | instant hi =>
      cases s with
      | submit text =>
        show Reply.generation (u.debouncer.submit text false).issued = _
        rw [Debouncer.submit_eq]
      | submitNow text =>
        show Reply.generation (u.debouncer.submit text true).issued = _
        rw [Debouncer.submit_eq]
      | _ => cases hx
    | _ => cases hx

theorem Run.reply_of_latest {t w : Timeline} {before after : List Turn} {x : Turn}
    (h : Run t (before ++ x :: after) w) (hx : x.step = .latest) :
    x.reply = .latest (lastOf (published before) t.debouncer.latest) := by
  obtain ⟨u, hbefore, hafter⟩ := h.exists_of_append
  rw [← hbefore.latest_eq]
  cases hafter with
  | cons hstep hr =>
    subst hx
    cases hstep with
    | instant hi => rfl

/-- **What is published, and when.**  Whatever is submitted and waited for, and
    whichever the worker takes first when an edit and the end of a quiet period are
    both there: a run of the steps is `Debounced`, and its replies are those of the
    timeline.  If no step ends at the end of a quiet period, then to come to that
    time is to get past it; a quiet period that ends with a step ends in it. -/
theorem every_run_debounced (v : Vocabulary) {delay : Nat} (hd : 0 < delay) (steps : List Step) :
    (∃ turns t, Run (new v delay) turns t ∧ turns.map Turn.step = steps) ∧
      ∀ turns t, Run (new v delay) turns t → turns.map Turn.step = steps →
        turns.map Turn.reply = (new v delay).replies steps ∧ Debounced v delay turns t.now := by
  refine ⟨exists_run _ steps, ?_⟩
  rintro turns t hrun rfl
  have hsound : Sound (new v delay) := ⟨rfl, rfl, by rintro r ⟨⟩⟩
  have hphase : Phase (new v delay) none := .quiet ⟨rfl, rfl⟩
  refine ⟨hrun.replies_eq hd hsound hphase, ?_⟩
  have hissued : ∀ n, (new v delay).debouncer.issued + n = n := Nat.zero_add
  constructor
  · intro p
    have hacc := hrun.accounts hd hsound hphase p
    simp only [hissued] at hacc
    refine hacc.trans (or_iff_right ?_)
    rintro ⟨e, due, ho, -⟩
    cases ho
  · exact hrun.ascending hd hsound hphase
  · rintro before x after rfl hx
    rw [hrun.reply_of_submits hx, hissued]
  · rintro before x after rfl hx
    rw [hrun.reply_of_latest hx]
    exact congrArg Reply.latest Option.or_none

/-- A text overtaken in its quiet period, one overtaken in the queue, and one that
    is not overtaken. -/
def hurriedSteps : List Step :=
  [.submit ['a'], .sleep 5, .submitNow ['b'], .submit ['c'], .latest, .sleep 20, .latest]

/-- Only the last of three texts in a hurry is published. -/
theorem every_run_debounced_of_hurry :
    0 < 10 ∧ ∃ turns t, Run (new Vocabulary.builtin 10) turns t ∧
      turns.map Turn.step = hurriedSteps ∧ Debounced Vocabulary.builtin 10 turns t.now ∧
      turns.map Turn.reply = [.generation 1, .nothing, .generation 2, .generation 3, .latest none,
        .nothing, .latest (some ⟨3, highlight Vocabulary.builtin ['c']⟩)] := by
  have hreplies : ∀ v, (new v 10).replies hurriedSteps =
      [.generation 1, .nothing, .generation 2, .generation 3, .latest none, .nothing,
        .latest (some ⟨3, highlight v ['c']⟩)] := by
    intro v
    cbv
  have hd : 0 < 10 := by decide
  obtain ⟨⟨turns, t, hrun, hsteps⟩, hall⟩ :=
    every_run_debounced Vocabulary.builtin hd hurriedSteps
  obtain ⟨hreply, hdebounced⟩ := hall turns t hrun hsteps
  exact ⟨hd, turns, t, hrun, hsteps, hdebounced, hreply.trans (hreplies _)⟩

end Timeline

end CodeSnippets
