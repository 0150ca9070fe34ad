/-
  What a debouncer has before it between two steps.

  * `Quiet`: no edit is left;
  * `Waits`: the worker lets the quiet period behind the newest edit go by;
  * `Fresh`: the newest edit is the last one in the queue, and it was put there
    at this time.

  In the last two the newest edit is due at a time of which the phase knows
  (`Phase`).  Edits before it in the queue, and one that the worker waits with, are
  never published, since they are not the newest when they are checked
  (`Settles.of_queue`).  A step in which the worker runs publishes the newest edit
  when it is due if the step reaches that time, and leaves it due otherwise
  (`StepsTo.of_pending`).
-/
import CodeSnippets.Proofs.Debounce.Runs

namespace CodeSnippets

namespace Timeline

/-- The result of an edit. -/
def render (t : Timeline) (e : Edit) : Rendering :=
  ⟨e.generation, highlight t.debouncer.vocabulary e.text⟩

theorem Kept.render {t u : Timeline} (h : Kept t u) (e : Edit) : u.render e = t.render e := by
  rw [Timeline.render, Timeline.render, h.vocabulary]

/-! ## Phases -/

/-- No edit is left. -/
structure Quiet (t : Timeline) : Prop where
  worker : t.debouncer.worker = .idle
  queue : t.debouncer.queue = []

/-- The worker waits with the newest edit. -/
structure Waits (t : Timeline) (e : Edit) (due : Nat) : Prop where
  worker : t.debouncer.worker = .waiting e
  queue : t.debouncer.queue = []
  deadline : t.deadline = due
  ahead : t.now < due
  newest : e.generation = t.debouncer.issued
  patient : e.immediate = false

/-- The newest edit has just been put into the queue. -/
structure Fresh (t : Timeline) (e : Edit) (due : Nat) : Prop where
  worker : t.debouncer.worker = .idle ∨
    ∃ f, t.debouncer.worker = .waiting f ∧ t.now < t.deadline
  queue : ∃ queue, t.debouncer.queue = queue ++ [e] ∧ ∀ f ∈ queue, f.generation < t.debouncer.issued
  due : due = if e.immediate then t.now else t.now + t.delay
  newest : e.generation = t.debouncer.issued
  latest : ∀ r, t.debouncer.latest = some r → r.generation < t.debouncer.issued

/-- A phase, with the newest edit and the time at which it is due if it is still
    to be published. -/
inductive Phase (t : Timeline) : Option (Edit × Nat) → Prop where
  | quiet (h : Quiet t) : Phase t none
  | waits {e : Edit} {due : Nat} (h : Waits t e due) : Phase t (some (e, due))
  | fresh {e : Edit} {due : Nat} (h : Fresh t e due) : Phase t (some (e, due))

/-- Every edit is in its place, the receiver holds nothing, and no result is of an
    edit to come. -/
structure Sound (t : Timeline) : Prop where
  unsent : t.debouncer.unsent = []
  held : t.debouncer.held = none
  latest : ∀ r, t.debouncer.latest = some r → r.generation ≤ t.debouncer.issued

theorem Phase.keen {t : Timeline} {o : Option (Edit × Nat)} (h : Phase t o) : t.Keen := by
  cases h with
  | quiet h => exact keen_of_queue_eq_nil h.queue
  | waits h => exact keen_of_queue_eq_nil h.queue
  | fresh h =>
    intro e he _
    rcases h.worker with hw | ⟨f, -, hlt⟩
    · rw [he] at hw
      cases hw
    · exact hlt

theorem Quiet.observe {t : Timeline} (h : Quiet t) : Quiet t.observe.2 := by
  obtain ⟨seen, hseen⟩ := t.exists_observe_eq
  rw [hseen]
  exact ⟨h.worker, h.queue⟩

theorem Waits.observe {t : Timeline} {e : Edit} {due : Nat} (h : Waits t e due) :
    Waits t.observe.2 e due := by
  obtain ⟨seen, hseen⟩ := t.exists_observe_eq
  rw [hseen]
  exact ⟨h.worker, h.queue, h.deadline, h.ahead, h.newest, h.patient⟩

theorem Phase.observe {t : Timeline} {o : Option (Edit × Nat)} (h : Phase t o) :
    Phase t.observe.2 o := by
  cases h with
  | quiet h => exact .quiet h.observe
  | waits h => exact .waits h.observe
  | fresh h =>
    obtain ⟨seen, hseen⟩ := t.exists_observe_eq
    rw [hseen]
    exact .fresh ⟨h.worker, h.queue, h.due, h.newest, h.latest⟩

/-! ## The steps that a state forces -/

theorem WorkerStep.log_eq {t u : Timeline} {l : List Publication} (h : t.WorkerStep l u) :
    l = match t.debouncer.worker with
      | .cleared e => [⟨t.now, t.render e⟩]
      | _ => [] := by
  cases h with
  | receive hq hw =>
    rcases hw with hw | ⟨f, hw⟩
    · rw [hw]
    · rw [hw]
  | elapse hw hd => rw [hw]
  | check hw => rw [hw]
  | publish hw hr =>
    rw [Debouncer.publish_eq hw] at hr
    cases hr
    rw [hw]
    rfl

theorem Settles.after {t u w : Timeline} {l m : List Publication} (hs : Settles t m w)
    (hk : t.Keen)
    (h : t.WorkerStep l u) : ∃ n, m = l ++ n ∧ Settles u n w := by
  cases hs with
  | rest hn => exact absurd h (hn l u)
  | @step _ u' _ l' n h' hs =>
    have hu : u' = u := Option.some.inj ((h'.workerStep?_eq hk).symm.trans (h.workerStep?_eq hk))
    have hl : l' = l := h'.log_eq.trans h.log_eq.symm
    subst hu hl
    exact ⟨n, rfl, hs⟩

theorem Settles.of_listening {t u : Timeline} {l : List Publication} {queue : List Edit} {e : Edit}
    (h : Settles t l u)
    (hq : t.debouncer.queue = e :: queue)
    (hw : t.debouncer.worker = .idle ∨ ∃ f, t.debouncer.worker = .waiting f ∧ t.now < t.deadline) :
    Settles { t with
      debouncer := { t.debouncer with worker := Worker.begin e, queue }
      deadline := t.now + t.delay } l u := by
  have hk : t.Keen := by
    intro f hf _
    rcases hw with hw | ⟨g, -, hlt⟩
    · rw [hf] at hw
      cases hw
    · exact hlt
  have hw' : t.debouncer.worker = .idle ∨ ∃ f, t.debouncer.worker = .waiting f :=
    hw.imp_right fun ⟨f, hf, _⟩ => ⟨f, hf⟩
  obtain ⟨n, rfl, hs⟩ := h.after hk (.receive hq hw')
  rw [Debouncer.receive_eq hq hw'] at hs
  exact hs

theorem Settles.of_due {t u : Timeline} {l : List Publication} {e : Edit}
    (h : Settles t l u)
    (hw : t.debouncer.worker = .due e) :
    Settles { t with
      debouncer := { t.debouncer with
        worker := if t.debouncer.isCurrent e.generation then .cleared e else .idle } } l u := by
  have hk : t.Keen := by
    intro f hf
    rw [hw] at hf
    cases hf
  obtain ⟨n, rfl, hs⟩ := h.after hk (.check hw)
  rw [Debouncer.check_eq hw] at hs
  exact hs

theorem Settles.of_due_stale {t u : Timeline} {l : List Publication} {e : Edit}
    (h : Settles t l u)
    (hw : t.debouncer.worker = .due e) (he : e.generation < t.debouncer.issued) :
    Settles { t with debouncer := { t.debouncer with worker := .idle } } l u := by
  have hcur : t.debouncer.isCurrent e.generation = false := beq_false_of_ne (Nat.ne_of_lt he)
  have hs := h.of_due hw
  rw [hcur] at hs
  exact hs

theorem Settles.of_quiet {t u : Timeline} {l : List Publication} (h : Settles t l u)
    (hq : Quiet t) : l = [] ∧ u = t := by
  cases h with
  | rest hn => exact ⟨rfl, rfl⟩
  | step h hs =>
    have hnone : t.workerStep? = none := by simp [workerStep?, hq.worker, hq.queue]
    exact absurd h (workerStep?_eq_none hnone _ _)

theorem Settles.of_waits {t u : Timeline} {l : List Publication} {e : Edit} {due : Nat}
    (h : Settles t l u)
    (hw : Waits t e due) : l = [] ∧ u = t := by
  cases h with
  | rest hn => exact ⟨rfl, rfl⟩
  | step h hs =>
    have hlt : ¬ t.deadline ≤ t.now := Nat.not_le.2 (hw.deadline ▸ hw.ahead)
    have hnone : t.workerStep? = none := by simp [workerStep?, hw.worker, hw.queue, hlt]
    exact absurd h (workerStep?_eq_none hnone _ _)

theorem Settles.of_due_newest {t u : Timeline} {l : List Publication} {e : Edit}
    (h : Settles t l u)
    (hw : t.debouncer.worker = .due e) (hq : t.debouncer.queue = [])
    (he : e.generation = t.debouncer.issued) :
    l = [⟨t.now, t.render e⟩] ∧ Quiet u := by
  have hcur : t.debouncer.isCurrent e.generation = true := beq_iff_eq.2 he
  have hs := h.of_due hw
  rw [hcur, if_pos rfl] at hs
  obtain ⟨n, rfl, hp⟩ := hs.after (keen_of_queue_eq_nil hq)
    (.publish rfl (congrArg Debouncer.latest (Debouncer.publish_eq rfl)))
  rw [Debouncer.publish_eq rfl] at hp
  have hquiet : Quiet { t with
      debouncer := { t.debouncer with
        worker := .idle
        latest := some (t.render e)
        seen := false } } := ⟨rfl, hq⟩
  obtain ⟨rfl, rfl⟩ := hp.of_quiet hquiet
  exact ⟨rfl, hquiet⟩

theorem Settles.of_elapsed {t u : Timeline} {l : List Publication} {e : Edit}
    (h : Settles t l u)
    (hw : t.debouncer.worker = .waiting e) (hq : t.debouncer.queue = [])
    (hd : t.deadline ≤ t.now) (he : e.generation = t.debouncer.issued) :
    l = [⟨t.now, t.render e⟩] ∧ Quiet u := by
  obtain ⟨n, rfl, hs⟩ := h.after (keen_of_queue_eq_nil hq) (.elapse hw hd)
  rw [Debouncer.elapse_eq hw] at hs
  exact hs.of_due_newest rfl hq he

/-- The worker takes the whole queue and drops all edits but the newest. -/
theorem Settles.of_queue {t u : Timeline} {l : List Publication} {queue : List Edit} {e : Edit}
    (h : Settles t l u)
    (hd : 0 < t.delay) (hq : t.debouncer.queue = queue ++ [e])
    (hstale : ∀ f ∈ queue, f.generation < t.debouncer.issued)
    (hw : t.debouncer.worker = .idle ∨ ∃ f, t.debouncer.worker = .waiting f ∧ t.now < t.deadline)
    (he : e.generation = t.debouncer.issued) :
    (e.immediate = true ∧ l = [⟨t.now, t.render e⟩] ∧ Quiet u) ∨
      (e.immediate = false ∧ l = [] ∧ Waits u e (t.now + t.delay)) := by
  induction queue generalizing t with
  | nil =>
    have hs := h.of_listening hq hw
    cases hi : e.immediate with
    | true =>
      have hbegin : Worker.begin e = .due e := if_pos hi
      exact .inl ⟨rfl, hs.of_due_newest hbegin rfl he⟩
    | false =>
      have hbegin : Worker.begin e = .waiting e := if_neg (Bool.eq_false_iff.1 hi)
      have hwaits : Waits { t with
          debouncer := { t.debouncer with worker := Worker.begin e, queue := [] }
          deadline := t.now + t.delay } e (t.now + t.delay) :=
        ⟨hbegin, rfl, rfl, Nat.lt_add_of_pos_right hd, he, hi⟩
      obtain ⟨rfl, rfl⟩ := hs.of_waits hwaits
      exact .inr ⟨rfl, rfl, hwaits⟩
  | cons f queue ih =>
    have hs := h.of_listening hq hw
    have hqueue : ∀ g ∈ queue, g.generation < t.debouncer.issued :=
      fun g hg => hstale g (List.mem_cons_of_mem _ hg)
    cases hi : f.immediate with
    | true =>
      have hbegin : Worker.begin f = .due f := if_pos hi
      have hidle := hs.of_due_stale hbegin (hstale f List.mem_cons_self)
      have hrest := ih hidle hd rfl hqueue (.inl rfl) he
      exact hrest
    | false =>
      have hbegin : Worker.begin f = .waiting f := if_neg (Bool.eq_false_iff.1 hi)
      have hrest := ih hs hd rfl hqueue (.inr ⟨f, hbegin, Nat.lt_add_of_pos_right hd⟩) he
      exact hrest

/-! ## The steps of the party -/

/-- The newest edit of `t` has been published when it was due, or is waited with. -/
def Served (t : Timeline) (e : Edit) (due : Nat) (l : List Publication) (u : Timeline) : Prop :=
  (l = [⟨due, t.render e⟩] ∧ Quiet u ∧ u.now = due) ∨ (l = [] ∧ Waits u e due)

theorem Served.observe {t u : Timeline} {e : Edit} {due : Nat} {l : List Publication}
    (h : Served t e due l u) : Served t e due l u.observe.2 := by
  rcases h with ⟨hl, hq, hnow⟩ | ⟨hl, hw⟩
  · exact .inl ⟨hl, hq.observe, u.now_observe.trans hnow⟩
  · exact .inr ⟨hl, hw.observe⟩

theorem Settles.served {t u : Timeline} {l : List Publication} {e : Edit} {due : Nat}
    (h : Settles t l u) (hd : 0 < t.delay) (hp : Phase t (some (e, due))) :
    Served t e due l u := by
  cases hp with
  | waits hw =>
    obtain ⟨rfl, rfl⟩ := h.of_waits hw
    exact .inr ⟨rfl, hw⟩
  | fresh hf =>
    obtain ⟨queue, hq, hstale⟩ := hf.queue
    have hdue := hf.due
    rcases h.of_queue hd hq hstale hf.worker hf.newest with ⟨hi, hl, hu⟩ | ⟨hi, hl, hu⟩
    · rw [hi, if_pos rfl] at hdue
      subst hdue
      exact .inl ⟨hl, hu, h.kept.2.1⟩
    · rw [hi, if_neg Bool.false_ne_true] at hdue
      subst hdue
      exact .inr ⟨hl, hu⟩

theorem Passes.of_quiet {t u : Timeline} {limit : Nat} {l : List Publication} (h : Passes t limit l u)
    (hq : Quiet t) : l = [] ∧ u = t := by
  cases h with
  | later hn => exact ⟨rfl, rfl⟩
  | ends hn hs => simp [deadlineBy?, hq.worker] at hn

theorem Passes.of_waits {t u : Timeline} {limit : Nat} {l : List Publication} {e : Edit}
    {due : Nat} (h : Passes t limit l u)
    (hw : Waits t e due) :
    (due ≤ limit ∧ l = [⟨due, t.render e⟩] ∧ Quiet u ∧ u.now = due) ∨
      (limit < due ∧ l = [] ∧ u = t) := by
  have hby : t.deadlineBy? limit = if due ≤ limit then some due else none := by
    simp only [deadlineBy?, hw.worker, hw.deadline]
  cases h with
  | later hn =>
    rw [hby] at hn
    split at hn
    · cases hn
    · exact .inr ⟨by omega, rfl, rfl⟩
  | ends hn hs =>
    rw [hby] at hn
    split at hn
    · rename_i hle
      cases hn
      have hdl : t.deadline ≤ due := Nat.le_of_eq hw.deadline
      obtain ⟨hl, hu⟩ := hs.of_elapsed hw.worker hw.queue hdl hw.newest
      exact .inl ⟨hle, hl, hu, hs.kept.2.1⟩
    · cases hn

/-- At the end of a quiet period that comes by a time, the edit that is waited with is
    published. -/
theorem Served.pass {t u w : Timeline} {e : Edit} {due limit : Nat} {l m : List Publication}
    (h : Served t e due l u) (hk : Kept t u) (hnow : u.now ≤ limit) (hp : Passes u limit m w) :
    (due ≤ limit ∧ l ++ m = [⟨due, t.render e⟩] ∧ Quiet w ∧ w.now = due) ∨
      (limit < due ∧ l ++ m = [] ∧ Waits w e due) := by
  rcases h with ⟨rfl, hq, rfl⟩ | ⟨rfl, hw⟩
  · obtain ⟨rfl, rfl⟩ := hp.of_quiet hq
    exact .inl ⟨hnow, rfl, hq, rfl⟩
  · rcases hp.of_waits hw with ⟨hle, rfl, hq, hdue⟩ | ⟨hlt, rfl, rfl⟩
    · rw [hk.render]
      exact .inl ⟨hle, rfl, hq, hdue⟩
    · exact .inr ⟨hlt, rfl, hw⟩

/-- A look gives the last result only if it is of the newest edit. -/
theorem exists_latest_of_observe {t : Timeline} (hh : t.debouncer.held = none) {r : Rendering}
    (h : t.observe.1 = some r) :
    t.debouncer.latest = some r ∧ r.generation = t.debouncer.issued := by
  simp only [observe, Debouncer.judge, Debouncer.take, hh] at h
  split at h
  · rw [hh] at h
    cases h
  · obtain ⟨hr, hcur⟩ := Option.filter_eq_some_iff.1 h
    exact ⟨hr, beq_iff_eq.1 hcur⟩

/-- Without an edit to come, nothing is published. -/
theorem StepsTo.of_quiet {t u : Timeline} {s : Step} {r : Reply} {l : List Publication}
    (h : StepsTo t s r l u) (hs : s.runsWorker = true) (hq : Quiet t) : l = [] ∧ Quiet u := by
  cases h with
  | instant hi => exact absurd hs (Bool.eq_false_iff.1 hi)
  | sleep hw hp =>
    obtain ⟨rfl, rfl⟩ := hw.of_quiet hq
    obtain ⟨rfl, rfl⟩ := hp.of_quiet hq
    exact ⟨rfl, hq.worker, hq.queue⟩
  | nextSeen ho => exact ⟨rfl, hq.observe⟩
  | nextSettled ho hw hu =>
    obtain ⟨rfl, rfl⟩ := hw.of_quiet hq.observe
    exact ⟨rfl, hq.observe.observe⟩
  | nextPassed ho hw hu hp hr =>
    obtain ⟨rfl, rfl⟩ := hw.of_quiet hq.observe
    obtain ⟨rfl, rfl⟩ := hp.of_quiet hq.observe.observe
    exact ⟨rfl, hq.observe.observe.observe⟩
  | nextMissed ho hw hu hp hr =>
    obtain ⟨rfl, rfl⟩ := hw.of_quiet hq.observe
    obtain ⟨rfl, rfl⟩ := hp.of_quiet hq.observe.observe
    exact ⟨rfl, hq.observe.observe.observe.worker, hq.observe.observe.observe.queue⟩

/-- The newest edit is published when it is due, if the step comes to that time. -/
theorem StepsTo.of_pending {t u : Timeline} {s : Step} {r : Reply} {l : List Publication}
    {e : Edit} {due : Nat} (h : StepsTo t s r l u) (hs : s.runsWorker = true)
    (hh : t.debouncer.held = none) (hd : 0 < t.delay) (hp : Phase t (some (e, due))) :
    (due ≤ u.now ∧ l = [⟨due, t.render e⟩] ∧ Quiet u) ∨ (l = [] ∧ Waits u e due) := by
  -- `next` looks at the last result before the worker runs, and again behind each
  -- of its turns.
  have hlooked : ∀ {u l}, Settles t.observe.2 l u → Served t e due l u.observe.2 ∧
      Kept t u.observe.2 ∧ u.observe.2.now = t.now := by
    intro u l hw
    have hserved := hw.served (by rw [t.kept_observe.delay]; exact hd) hp.observe
    rw [Served, t.kept_observe.render] at hserved
    refine ⟨Served.observe hserved, (t.kept_observe.trans hw.kept.1).trans u.kept_observe, ?_⟩
    rw [now_observe, hw.kept.2.1, now_observe]
  cases h with
  | instant hi => exact absurd hs (Bool.eq_false_iff.1 hi)
  | @sleep ms l m u w hw hps =>
    have hnow : u.now ≤ t.now + ms := by
      rw [hw.kept.2.1]
      exact Nat.le_add_right _ _
    rcases (hw.served hd hp).pass hw.kept.1 hnow hps with ⟨hle, hl, hq, -⟩ | ⟨hlt, hl, hu⟩
    · exact .inl ⟨hle, hl, hq.worker, hq.queue⟩
    · exact .inr ⟨hl, hu.worker, hu.queue, hu.deadline, hlt, hu.newest, hu.patient⟩
  | nextSeen ho =>
    obtain ⟨hlatest, hcur⟩ := exists_latest_of_observe hh ho
    cases hp with
    | waits hw => exact .inr ⟨rfl, hw.observe⟩
    | fresh hf => exact absurd hcur (Nat.ne_of_lt (hf.latest _ hlatest))
  | nextSettled ho hw hu =>
    obtain ⟨hserved, -, -⟩ := hlooked hw
    rcases hserved with ⟨hl, hq, hnow⟩ | ⟨hl, hwt⟩
    · exact .inl ⟨Nat.le_of_eq hnow.symm, hl, hq⟩
    · exact .inr ⟨hl, hwt⟩
  | @nextPassed ms r l m u w ho hw hu hps hr =>
    obtain ⟨hserved, hk, hnow⟩ := hlooked hw
    rcases hserved.pass hk (hnow ▸ Nat.le_add_right _ _) hps with ⟨-, hl, hq, hdue⟩ | ⟨-, hl, hwt⟩
    · exact .inl ⟨Nat.le_of_eq (w.now_observe.trans hdue).symm, hl, hq.observe⟩
    · exact .inr ⟨hl, hwt.observe⟩
  | @nextMissed ms l m u w ho hw hu hps hr =>
    obtain ⟨hserved, hk, hnow⟩ := hlooked hw
    rcases hserved.pass hk (hnow ▸ Nat.le_add_right _ _) hps with ⟨hle, hl, hq, -⟩ | ⟨hlt, hl, hwt⟩
    · exact .inl ⟨hle, hl, hq.observe.worker, hq.observe.queue⟩
    · have hwo := hwt.observe
      exact .inr ⟨hl, hwo.worker, hwo.queue, hwo.deadline, hlt, hwo.newest, hwo.patient⟩

/-! ## From step to step -/

theorem Phase.newest {t : Timeline} {e : Edit} {due : Nat} (h : Phase t (some (e, due))) :
    e.generation = t.debouncer.issued := by
  cases h with
  | waits h => exact h.newest
  | fresh h => exact h.newest

theorem Phase.ahead {t : Timeline} {e : Edit} {due : Nat} (h : Phase t (some (e, due)))
    (hd : 0 < t.delay) (hi : e.immediate = false) : t.now < due := by
  cases h with
  | waits h => exact h.ahead
  | fresh h =>
    rw [h.due, hi, if_neg Bool.false_ne_true]
    exact Nat.lt_add_of_pos_right hd

/-- Whatever was to come before, the text just submitted is to come now. -/
theorem Phase.submit {t : Timeline} {o : Option (Edit × Nat)} (h : Phase t o) (hs : Sound t)
    (text : Text) (immediate : Bool) :
    Phase (t.submit text immediate)
      (some (t.debouncer.nextEdit text immediate, if immediate then t.now else t.now + t.delay)) := by
  rw [Timeline.submit, Debouncer.submit_eq]
  have hlatest : ∀ r, t.debouncer.latest = some r → r.generation < t.debouncer.issued + 1 :=
    fun r hr => Nat.lt_succ_of_le (hs.latest r hr)
  cases h with
  | quiet h =>
    have hq : t.debouncer.queue ++ [t.debouncer.nextEdit text immediate] =
        [] ++ [t.debouncer.nextEdit text immediate] := by rw [h.queue]
    exact .fresh ⟨.inl h.worker, ⟨[], hq, by simp⟩, rfl, rfl, hlatest⟩
  | @waits e due h =>
    have hq : t.debouncer.queue ++ [t.debouncer.nextEdit text immediate] =
        [] ++ [t.debouncer.nextEdit text immediate] := by rw [h.queue]
    have hlt : t.now < t.deadline := h.deadline ▸ h.ahead
    exact .fresh ⟨.inr ⟨e, h.worker, hlt⟩, ⟨[], hq, by simp⟩, rfl, rfl, hlatest⟩
  | @fresh e due h =>
    obtain ⟨queue, hq, hstale⟩ := h.queue
    refine .fresh ⟨h.worker, ⟨t.debouncer.queue, rfl, ?_⟩, rfl, rfl, hlatest⟩
    intro f hf
    rw [hq] at hf
    rcases List.mem_append.1 hf with hf | hf
    · exact Nat.lt_succ_of_lt (hstale f hf)
    · rw [List.mem_singleton.1 hf, h.newest]
      exact Nat.lt_succ_self _

theorem Sound.submit {t : Timeline} (h : Sound t) (text : Text) (immediate : Bool) :
    Sound (t.submit text immediate) := by
  rw [Timeline.submit, Debouncer.submit_eq]
  constructor
  · simp [h.unsent]
  · exact h.held
  · intro r hr
    exact Nat.le_succ_of_le (h.latest r hr)

/-- What a step in which the worker runs makes of a phase. -/
theorem StepsTo.runs {t u : Timeline} {s : Step} {r : Reply} {l : List Publication}
    {o : Option (Edit × Nat)} (h : StepsTo t s r l u) (hs : s.runsWorker = true)
    (hd : 0 < t.delay) (hsound : Sound t) (hp : Phase t o) :
    Sound u ∧
      ((l = [] ∧ Phase u o ∧ ∀ e due, o = some (e, due) → e.immediate = false ∧ u.now < due) ∨
        ∃ e due, o = some (e, due) ∧ due ≤ u.now ∧ l = [⟨due, t.render e⟩] ∧ Phase u none) := by
  obtain ⟨hk, hheld⟩ := h.kept hs
  have hlatest := h.latest_eq
  have hsame : l = [] → Sound u := by
    rintro rfl
    refine ⟨hk.unsent.trans hsound.unsent, hheld hsound.held, fun r hr => ?_⟩
    rw [hk.issued]
    exact hsound.latest r (hlatest.symm.trans hr)
  cases o with
  | none =>
    cases hp with
    | quiet hq =>
      obtain ⟨hl, hu⟩ := h.of_quiet hs hq
      exact ⟨hsame hl, .inl ⟨hl, .quiet hu, by simp⟩⟩
  | some o =>
    obtain ⟨e, due⟩ := o
    rcases h.of_pending hs hsound.held hd hp with ⟨hle, hl, hu⟩ | ⟨hl, hu⟩
    · refine ⟨⟨hk.unsent.trans hsound.unsent, hheld hsound.held, fun r hr => ?_⟩,
        .inr ⟨e, due, rfl, hle, hl, .quiet hu⟩⟩
      rw [hlatest, hl] at hr
      cases hr
      rw [hk.issued]
      exact Nat.le_of_eq hp.newest
    · refine ⟨hsame hl, .inl ⟨hl, .waits hu, ?_⟩⟩
      rintro e' due' heq
      cases heq
      exact ⟨hu.patient, hu.ahead⟩

end Timeline

end CodeSnippets
