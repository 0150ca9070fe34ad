/-
  Runs of a debouncer in time, with all that the worker publishes.

  In a timeline the worker takes a new edit before it looks at the end of a quiet
  period.  Here it is left open which of the two comes first when both are there.

  * `WorkerStep`, `Settles`: one step of the worker, and steps until there are
    none left, each with the results that are published;
  * `Passes`, `StepsTo`: the end of a quiet period, and a step of the party;
  * `Run`: steps one after the other.  Each becomes a `Turn`, which tells when the
    step began, what came of it and what was published meanwhile;
  * `exists_run`: for any steps there is a run;
  * `Settles.eq_settle`, `StepsTo.eq_step`: the choice of the worker makes no
    difference as long as no edit is in the queue at the end of a quiet period
    (`Keen`).
-/
import CodeSnippets.Debounce.Timeline

namespace CodeSnippets

/-- A result in the place of the last one, and when it came there. -/
structure Publication where
  time : Nat
  rendering : Rendering
  deriving DecidableEq, Repr

namespace Debouncer

theorem submit_eq (d : Debouncer) (text : Text) (immediate : Bool) :
    d.submit text immediate =
      { d with
        issued := d.issued + 1
        unsent := (d.unsent ++ [d.nextEdit text immediate]).erase (d.nextEdit text immediate)
        queue := d.queue ++ [d.nextEdit text immediate] } := by
  have hmem : d.nextEdit text immediate ∈ (d.draw text immediate).unsent :=
    List.mem_append_right _ List.mem_cons_self
  rw [submit, send, if_pos hmem]
  rfl

theorem receive_eq {d : Debouncer} {queue : List Edit} {e : Edit} (hq : d.queue = e :: queue)
    (hw : d.worker = .idle ∨ ∃ f, d.worker = .waiting f) :
    d.receive = { d with worker := Worker.begin e, queue } := by
  rcases hw with hw | ⟨f, hw⟩
  · simp only [receive, hq, hw]
  · simp only [receive, hq, hw]

theorem elapse_eq {d : Debouncer} {e : Edit} (hw : d.worker = .waiting e) :
    d.elapse = { d with worker := .due e } := by
  simp only [elapse, hw]

theorem check_eq {d : Debouncer} {e : Edit} (hw : d.worker = .due e) :
    d.check = { d with worker := if d.isCurrent e.generation then .cleared e else .idle } := by
  simp only [check, hw]

theorem publish_eq {d : Debouncer} {e : Edit} (hw : d.worker = .cleared e) :
    d.publish =
      { d with
        worker := .idle
        latest := some ⟨e.generation, highlight d.vocabulary e.text⟩
        seen := false } := by
  simp only [publish, hw]

end Debouncer

namespace Timeline

/-! ## The worker -/

/-- One step of the worker, and what it publishes.  A new edit and the end of a
    quiet period may both be there; then either may come first. -/
inductive WorkerStep (t : Timeline) : List Publication → Timeline → Prop where
  | receive {queue : List Edit} {e : Edit} (hq : t.debouncer.queue = e :: queue)
      (hw : t.debouncer.worker = .idle ∨ ∃ f, t.debouncer.worker = .waiting f) :
      WorkerStep t [] { t with debouncer := t.debouncer.receive, deadline := t.now + t.delay }
  | elapse {e : Edit} (hw : t.debouncer.worker = .waiting e) (hd : t.deadline ≤ t.now) :
      WorkerStep t [] { t with debouncer := t.debouncer.elapse }
  | check {e : Edit} (hw : t.debouncer.worker = .due e) :
      WorkerStep t [] { t with debouncer := t.debouncer.check }
  | publish {e : Edit} {r : Rendering} (hw : t.debouncer.worker = .cleared e)
      (hr : t.debouncer.publish.latest = some r) :
      WorkerStep t [⟨t.now, r⟩] { t with debouncer := t.debouncer.publish }

/-- Steps of the worker until there is none left. -/
inductive Settles : Timeline → List Publication → Timeline → Prop where
  | rest {t : Timeline} (h : ∀ l u, ¬ t.WorkerStep l u) : Settles t [] t
  | step {t u w : Timeline} {l m : List Publication} (h : t.WorkerStep l u)
      (hs : Settles u m w) : Settles t (l ++ m) w

/-- The end of the quiet period, if it comes by a time. -/
inductive Passes (t : Timeline) (limit : Nat) : List Publication → Timeline → Prop where
  | later (h : t.deadlineBy? limit = none) : Passes t limit [] t
  | ends {now : Nat} {l : List Publication} {u : Timeline} (h : t.deadlineBy? limit = some now)
      (hs : Settles { t with now } l u) : Passes t limit l u

/-! ## The party -/

/-- Whether a step submits a text. -/
def Step.submits : Step → Bool
  | .submit _ | .submitNow _ => true
  | _ => false

/-- Whether the worker runs in a step. -/
def Step.runsWorker : Step → Bool
  | .sleep _ | .next _ => true
  | _ => false

/-- A step, what comes of it and what the worker publishes meanwhile. -/
inductive StepsTo (t : Timeline) : Step → Reply → List Publication → Timeline → Prop where
  | instant {s : Step} (hs : s.runsWorker = false) : StepsTo t s (t.step s).1 [] (t.step s).2
  | sleep {ms : Nat} {l m : List Publication} {u w : Timeline} (hs : Settles t l u)
      (hp : Passes u (t.now + ms) m w) :
      StepsTo t (.sleep ms) .nothing (l ++ m) { w with now := t.now + ms }
  | nextSeen {ms : Nat} {r : Rendering} (h : t.observe.1 = some r) :
      StepsTo t (.next ms) (.next (some r)) [] t.observe.2
  | nextSettled {ms : Nat} {r : Rendering} {l : List Publication} {u : Timeline}
      (h : t.observe.1 = none) (hs : Settles t.observe.2 l u) (hu : u.observe.1 = some r) :
      StepsTo t (.next ms) (.next (some r)) l u.observe.2
  | nextPassed {ms : Nat} {r : Rendering} {l m : List Publication} {u w : Timeline}
      (h : t.observe.1 = none) (hs : Settles t.observe.2 l u) (hu : u.observe.1 = none)
      (hp : Passes u.observe.2 (t.now + ms) m w) (hw : w.observe.1 = some r) :
      StepsTo t (.next ms) (.next (some r)) (l ++ m) w.observe.2
  | nextMissed {ms : Nat} {l m : List Publication} {u w : Timeline}
      (h : t.observe.1 = none) (hs : Settles t.observe.2 l u) (hu : u.observe.1 = none)
      (hp : Passes u.observe.2 (t.now + ms) m w) (hw : w.observe.1 = none) :
      StepsTo t (.next ms) (.next none) (l ++ m) { w.observe.2 with now := t.now + ms }

/-- A step in a run. -/
structure Turn where
  /-- when the step began -/
  time : Nat
  step : Step
  reply : Reply
  /-- what the worker published in the step -/
  published : List Publication

/-- Steps made one after the other. -/
inductive Run : Timeline → List Turn → Timeline → Prop where
  | nil {t : Timeline} : Run t [] t
  | cons {t u w : Timeline} {s : Step} {r : Reply} {l : List Publication} {turns : List Turn}
      (h : StepsTo t s r l u) (hr : Run u turns w) : Run t (⟨t.now, s, r, l⟩ :: turns) w

/-- How many texts are submitted in some turns. -/
def submissions (turns : List Turn) : Nat := turns.countP fun x => x.step.submits

/-- All that is published in some turns, in order. -/
def published (turns : List Turn) : List Publication := turns.flatMap Turn.published

/-! ## The worker of a timeline -/

theorem workerStep?_eq_none {t : Timeline} (h : t.workerStep? = none) (l : List Publication)
    (u : Timeline) : ¬ t.WorkerStep l u := by
  intro hs
  cases hs with
  | receive hq hw =>
    rcases hw with hw | ⟨f, hw⟩
    · simp [workerStep?, hq, hw] at h
    · simp [workerStep?, hq, hw] at h
  | elapse hw hd =>
    cases hq : t.debouncer.queue with
    | nil => simp [workerStep?, hq, hw, hd] at h
    | cons e queue => simp [workerStep?, hq, hw] at h
  | check hw => simp [workerStep?, hw] at h
  | publish hw hr => simp [workerStep?, hw] at h

theorem exists_workerStep {t u : Timeline} (h : t.workerStep? = some u) :
    ∃ l, t.WorkerStep l u := by
  cases hw : t.debouncer.worker with
  | idle =>
    cases hq : t.debouncer.queue with
    | nil => simp [workerStep?, hq, hw] at h
    | cons e queue =>
      simp only [workerStep?, hq, hw, Option.some.injEq] at h
      subst h
      exact ⟨_, .receive hq (.inl hw)⟩
  | waiting f =>
    cases hq : t.debouncer.queue with
    | nil =>
      simp only [workerStep?, hq, hw, Option.ite_none_right_eq_some, Option.some.injEq] at h
      obtain ⟨hd, rfl⟩ := h
      exact ⟨_, .elapse hw hd⟩
    | cons e queue =>
      simp only [workerStep?, hq, hw, Option.some.injEq] at h
      subst h
      exact ⟨_, .receive hq (.inr ⟨f, hw⟩)⟩
  | due e =>
    simp only [workerStep?, hw, Option.some.injEq] at h
    subst h
    exact ⟨_, .check hw⟩
  | cleared e =>
    simp only [workerStep?, hw, Option.some.injEq] at h
    subst h
    exact ⟨_, .publish hw (congrArg Debouncer.latest (Debouncer.publish_eq hw))⟩

theorem exists_settles (t : Timeline) : ∃ l u, Settles t l u := by
  induction hn : t.work using Nat.strongRecOn generalizing t with
  | _ n ih =>
    cases h : t.workerStep? with
    | none => exact ⟨[], t, .rest (workerStep?_eq_none h)⟩
    | some u =>
      obtain ⟨l, hl⟩ := exists_workerStep h
      obtain ⟨m, w, hm⟩ := ih u.work (hn ▸ work_workerStep? h) u rfl
      exact ⟨l ++ m, w, .step hl hm⟩

theorem exists_passes (t : Timeline) (limit : Nat) : ∃ l u, Passes t limit l u := by
  cases h : t.deadlineBy? limit with
  | none => exact ⟨[], t, .later h⟩
  | some now =>
    obtain ⟨l, u, hs⟩ := exists_settles { t with now }
    exact ⟨l, u, .ends h hs⟩

theorem exists_stepsTo (t : Timeline) (s : Step) : ∃ r l u, StepsTo t s r l u := by
  cases s with
  | sleep ms =>
    obtain ⟨l, u, hs⟩ := exists_settles t
    obtain ⟨m, w, hp⟩ := exists_passes u (t.now + ms)
    exact ⟨_, _, _, .sleep hs hp⟩
  | next ms =>
    cases h : t.observe.1 with
    | some r => exact ⟨_, _, _, .nextSeen h⟩
    | none =>
      obtain ⟨l, u, hs⟩ := exists_settles t.observe.2
      cases hu : u.observe.1 with
      | some r => exact ⟨_, _, _, .nextSettled h hs hu⟩
      | none =>
        obtain ⟨m, w, hp⟩ := exists_passes u.observe.2 (t.now + ms)
        cases hw : w.observe.1 with
        | some r => exact ⟨_, _, _, .nextPassed h hs hu hp hw⟩
        | none => exact ⟨_, _, _, .nextMissed h hs hu hp hw⟩
  | submit text => exact ⟨_, _, _, .instant rfl⟩
  | submitNow text => exact ⟨_, _, _, .instant rfl⟩
  | latest => exact ⟨_, _, _, .instant rfl⟩
  | isCurrent generation => exact ⟨_, _, _, .instant rfl⟩

theorem exists_run (t : Timeline) (steps : List Step) :
    ∃ turns u, Run t turns u ∧ turns.map Turn.step = steps := by
  induction steps generalizing t with
  | nil => exact ⟨[], t, .nil, rfl⟩
  | cons s steps ih =>
    obtain ⟨r, l, u, h⟩ := exists_stepsTo t s
    obtain ⟨turns, w, hr, hmap⟩ := ih u
    exact ⟨_, w, .cons h hr, congrArg (s :: ·) hmap⟩

/-! ## What the worker leaves alone -/

/-- The parts of a timeline that only the party changes. -/
structure Kept (t u : Timeline) : Prop where
  vocabulary : u.debouncer.vocabulary = t.debouncer.vocabulary
  issued : u.debouncer.issued = t.debouncer.issued
  unsent : u.debouncer.unsent = t.debouncer.unsent
  delay : u.delay = t.delay

theorem Kept.refl (t : Timeline) : Kept t t := ⟨rfl, rfl, rfl, rfl⟩

theorem Kept.trans {t u w : Timeline} (h : Kept t u) (h' : Kept u w) : Kept t w :=
  ⟨h'.vocabulary.trans h.vocabulary, h'.issued.trans h.issued, h'.unsent.trans h.unsent,
    h'.delay.trans h.delay⟩

theorem WorkerStep.kept {t u : Timeline} {l : List Publication} (h : t.WorkerStep l u) :
    Kept t u ∧ u.now = t.now ∧ u.debouncer.held = t.debouncer.held := by
  cases h with
  | receive hq hw =>
    rw [Debouncer.receive_eq hq hw]
    exact ⟨⟨rfl, rfl, rfl, rfl⟩, rfl, rfl⟩
  | elapse hw hd =>
    rw [Debouncer.elapse_eq hw]
    exact ⟨⟨rfl, rfl, rfl, rfl⟩, rfl, rfl⟩
  | check hw =>
    rw [Debouncer.check_eq hw]
    exact ⟨⟨rfl, rfl, rfl, rfl⟩, rfl, rfl⟩
  | publish hw hr =>
    rw [Debouncer.publish_eq hw]
    exact ⟨⟨rfl, rfl, rfl, rfl⟩, rfl, rfl⟩

theorem Settles.kept {t u : Timeline} {l : List Publication} (h : Settles t l u) :
    Kept t u ∧ u.now = t.now ∧ u.debouncer.held = t.debouncer.held := by
  induction h with
  | rest h => exact ⟨Kept.refl _, rfl, rfl⟩
  | step h hs ih =>
    obtain ⟨hk, hnow, hheld⟩ := h.kept
    exact ⟨hk.trans ih.1, ih.2.1.trans hnow, ih.2.2.trans hheld⟩

theorem Settles.not_workerStep {t u : Timeline} {l : List Publication} (h : Settles t l u)
    (m : List Publication) (w : Timeline) : ¬ u.WorkerStep m w := by
  induction h with
  | rest h => exact h m w
  | step h hs ih => exact ih

/-- What a look at the last result changes. -/
theorem exists_observe_eq (t : Timeline) :
    ∃ seen, t.observe.2 = { t with debouncer := { t.debouncer with seen, held := none } } := by
  simp only [observe, Debouncer.judge, Debouncer.take]
  split
  · exact ⟨_, rfl⟩
  · exact ⟨_, rfl⟩

theorem kept_observe (t : Timeline) : Kept t t.observe.2 := by
  obtain ⟨seen, hseen⟩ := t.exists_observe_eq
  rw [hseen]
  exact ⟨rfl, rfl, rfl, rfl⟩

theorem now_observe (t : Timeline) : t.observe.2.now = t.now := by
  obtain ⟨seen, hseen⟩ := t.exists_observe_eq
  rw [hseen]

theorem queue_observe (t : Timeline) : t.observe.2.debouncer.queue = t.debouncer.queue := by
  obtain ⟨seen, hseen⟩ := t.exists_observe_eq
  rw [hseen]

theorem latest_observe (t : Timeline) : t.observe.2.debouncer.latest = t.debouncer.latest := by
  obtain ⟨seen, hseen⟩ := t.exists_observe_eq
  rw [hseen]

theorem Passes.kept {t u : Timeline} {limit : Nat} {l : List Publication}
    (h : Passes t limit l u) : Kept t u ∧ u.debouncer.held = t.debouncer.held := by
  cases h with
  | later hn => exact ⟨Kept.refl t, rfl⟩
  | ends hn hs =>
    obtain ⟨hk, -, hheld⟩ := hs.kept
    exact ⟨⟨hk.vocabulary, hk.issued, hk.unsent, hk.delay⟩, hheld⟩

/-- A step in which the worker runs leaves the party's part alone, and nothing in
    the hands of the receiver. -/
theorem StepsTo.kept {t u : Timeline} {s : Step} {r : Reply} {l : List Publication}
    (h : StepsTo t s r l u) (hs : s.runsWorker = true) :
    Kept t u ∧ (t.debouncer.held = none → u.debouncer.held = none) := by
  cases h with
  | instant hi => exact absurd hs (Bool.eq_false_iff.1 hi)
  | sleep hw hp =>
    obtain ⟨hk, -, hheld⟩ := hw.kept
    obtain ⟨hk', hheld'⟩ := hp.kept
    have hkept := hk.trans hk'
    refine ⟨⟨hkept.vocabulary, hkept.issued, hkept.unsent, hkept.delay⟩, fun hh => ?_⟩
    rw [← hh, ← hheld, ← hheld']
  | nextSeen ho => exact ⟨t.kept_observe, fun _ => rfl⟩
  | @nextSettled ms r l u ho hw hu =>
    exact ⟨(t.kept_observe.trans hw.kept.1).trans u.kept_observe, fun _ => rfl⟩
  | @nextPassed ms r l m u w ho hw hu hp hr =>
    have hsettled := (t.kept_observe.trans hw.kept.1).trans u.kept_observe
    exact ⟨(hsettled.trans hp.kept.1).trans w.kept_observe, fun _ => rfl⟩
  | @nextMissed ms l m u w ho hw hu hp hr =>
    have hsettled := (t.kept_observe.trans hw.kept.1).trans u.kept_observe
    have hkept := (hsettled.trans hp.kept.1).trans w.kept_observe
    exact ⟨⟨hkept.vocabulary, hkept.issued, hkept.unsent, hkept.delay⟩, fun _ => rfl⟩

theorem Passes.le_now {t u : Timeline} {limit : Nat} {l : List Publication}
    (h : Passes t limit l u) (ha : ∀ e, t.debouncer.worker = .waiting e → t.now < t.deadline) :
    t.now ≤ u.now := by
  cases h with
  | later hn => exact Nat.le_refl _
  | ends hn hs =>
    rw [hs.kept.2.1]
    unfold deadlineBy? at hn
    split at hn
    · rename_i e he
      split at hn
      · cases hn
        exact Nat.le_of_lt (ha e he)
      · cases hn
    · cases hn

theorem Settles.now_lt_deadline {t u : Timeline} {l : List Publication} (h : Settles t l u)
    (e : Edit) (he : u.observe.2.debouncer.worker = .waiting e) :
    u.observe.2.now < u.observe.2.deadline := by
  obtain ⟨seen, hseen⟩ := u.exists_observe_eq
  rw [hseen] at he ⊢
  refine Nat.not_le.1 fun hle => ?_
  exact h.not_workerStep _ _ (.elapse he hle)

theorem StepsTo.le_now {t u : Timeline} {s : Step} {r : Reply} {l : List Publication}
    (h : StepsTo t s r l u) : t.now ≤ u.now := by
  cases h with
  | instant hi =>
    cases s with
    | sleep ms => cases hi
    | next ms => cases hi
    | _ => exact Nat.le_refl t.now
  | sleep hw hp => exact Nat.le_add_right _ _
  | nextSeen ho => exact Nat.le_of_eq t.now_observe.symm
  | nextSettled ho hw hu =>
    exact Nat.le_of_eq (by rw [now_observe, hw.kept.2.1, now_observe])
  | nextPassed ho hw hu hp hr =>
    have hle := hp.le_now hw.now_lt_deadline
    rw [now_observe, hw.kept.2.1, now_observe] at hle
    rw [now_observe]
    exact hle
  | nextMissed ho hw hu hp hr => exact Nat.le_add_right _ _

/-! ## The last result -/

/-- The last result of some publications, or the one before them. -/
def lastOf (l : List Publication) (before : Option Rendering) : Option Rendering :=
  (l.getLast?.map Publication.rendering).or before

theorem lastOf_append (l m : List Publication) (before : Option Rendering) :
    lastOf (l ++ m) before = lastOf m (lastOf l before) := by
  rw [lastOf, lastOf, lastOf, List.getLast?_append, Option.map_or, Option.or_assoc]

theorem WorkerStep.latest_eq {t u : Timeline} {l : List Publication} (h : t.WorkerStep l u) :
    u.debouncer.latest = lastOf l t.debouncer.latest := by
  cases h with
  | receive hq hw =>
    rw [Debouncer.receive_eq hq hw]
    rfl
  | elapse hw hd =>
    rw [Debouncer.elapse_eq hw]
    rfl
  | check hw =>
    rw [Debouncer.check_eq hw]
    rfl
  | publish hw hr => exact hr

theorem Settles.latest_eq {t u : Timeline} {l : List Publication} (h : Settles t l u) :
    u.debouncer.latest = lastOf l t.debouncer.latest := by
  induction h with
  | rest h => rfl
  | step h hs ih => rw [lastOf_append, ← h.latest_eq, ih]

theorem Passes.latest_eq {t u : Timeline} {limit : Nat} {l : List Publication}
    (h : Passes t limit l u) : u.debouncer.latest = lastOf l t.debouncer.latest := by
  cases h with
  | later hn => rfl
  | ends hn hs => exact hs.latest_eq

theorem StepsTo.latest_eq {t u : Timeline} {s : Step} {r : Reply} {l : List Publication}
    (h : StepsTo t s r l u) : u.debouncer.latest = lastOf l t.debouncer.latest := by
  cases h with
  | instant hi =>
    cases s with
    | sleep ms => cases hi
    | next ms => cases hi
    | submit text =>
      show (t.debouncer.submit text false).latest = _
      rw [Debouncer.submit_eq]
      rfl
    | submitNow text =>
      show (t.debouncer.submit text true).latest = _
      rw [Debouncer.submit_eq]
      rfl
    | _ => rfl
  | sleep hw hp =>
    rw [lastOf_append, ← hw.latest_eq]
    exact hp.latest_eq
  | nextSeen ho => exact t.latest_observe
  | nextSettled ho hw hu => rw [latest_observe, hw.latest_eq, latest_observe]
  | nextPassed ho hw hu hp hr =>
    rw [latest_observe, hp.latest_eq, latest_observe, hw.latest_eq, latest_observe, lastOf_append]
  | @nextMissed ms l m u w ho hw hu hp hr =>
    have hlatest : w.observe.2.debouncer.latest = lastOf (l ++ m) t.debouncer.latest := by
      rw [latest_observe, hp.latest_eq, latest_observe, hw.latest_eq, latest_observe,
        lastOf_append]
    exact hlatest

/-! ## Turns of a run -/

theorem Step.submits_eq_false {s : Step} (h : s.runsWorker = true) : s.submits = false := by
  cases s with
  | sleep ms => rfl
  | next ms => rfl
  | _ => cases h

theorem StepsTo.issued_eq {t u : Timeline} {s : Step} {r : Reply} {l : List Publication}
    (h : StepsTo t s r l u) : u.debouncer.issued = t.debouncer.issued + s.submits.toNat := by
  cases hs : s.runsWorker with
  | true =>
    rw [(h.kept hs).1.issued, Step.submits_eq_false hs]
    rfl
  | false =>
    cases h with
    | instant hi =>
      cases s with
      | submit text => exact congrArg Debouncer.issued (t.debouncer.submit_eq text false)
      | submitNow text => exact congrArg Debouncer.issued (t.debouncer.submit_eq text true)
      | sleep ms => cases hs
      | next ms => cases hs
      | _ => rfl
    | _ => cases hs

theorem submissions_cons (x : Turn) (turns : List Turn) :
    submissions (x :: turns) = x.step.submits.toNat + submissions turns := by
  rw [submissions, submissions, List.countP_cons, Nat.add_comm]
  cases x.step.submits <;> rfl

theorem published_cons (x : Turn) (turns : List Turn) :
    published (x :: turns) = x.published ++ published turns := List.flatMap_cons

theorem Run.issued_eq {t u : Timeline} {turns : List Turn} (h : Run t turns u) :
    u.debouncer.issued = t.debouncer.issued + submissions turns := by
  induction h with
  | nil => rfl
  | cons h hr ih => rw [ih, h.issued_eq, submissions_cons, Nat.add_assoc]

theorem Run.latest_eq {t u : Timeline} {turns : List Turn} (h : Run t turns u) :
    u.debouncer.latest = lastOf (published turns) t.debouncer.latest := by
  induction h with
  | nil => rfl
  | cons h hr ih => rw [ih, h.latest_eq, published_cons, lastOf_append]

theorem Run.le_now {t u : Timeline} {turns : List Turn} (h : Run t turns u) : t.now ≤ u.now := by
  induction h with
  | nil => exact Nat.le_refl _
  | cons h hr ih => exact Nat.le_trans h.le_now ih

theorem Run.le_time {t u : Timeline} {turns : List Turn} (h : Run t turns u) :
    ∀ x ∈ turns, t.now ≤ x.time := by
  induction h with
  | nil => simp
  | cons h hr ih =>
    intro x hx
    rcases List.mem_cons.1 hx with rfl | hx
    · exact Nat.le_refl _
    · exact Nat.le_trans h.le_now (ih x hx)

theorem Run.exists_of_append {t w : Timeline} {before after : List Turn}
    (h : Run t (before ++ after) w) : ∃ u, Run t before u ∧ Run u after w := by
  induction before generalizing t with
  | nil => exact ⟨t, .nil, h⟩
  | cons x before ih =>
    cases h with
    | cons h hr =>
      obtain ⟨u, hbefore, hafter⟩ := ih hr
      exact ⟨u, .cons h hbefore, hafter⟩

/-! ## The choice of the worker -/

/-- No quiet period is over while an edit is in the queue. -/
def Keen (t : Timeline) : Prop :=
  ∀ e, t.debouncer.worker = .waiting e → t.debouncer.queue ≠ [] → t.now < t.deadline

theorem keen_of_queue_eq_nil {t : Timeline} (h : t.debouncer.queue = []) : t.Keen :=
  fun _ _ hq => absurd h hq

theorem WorkerStep.workerStep?_eq {t u : Timeline} {l : List Publication} (hk : t.Keen)
    (h : t.WorkerStep l u) : t.workerStep? = some u := by
  cases h with
  | receive hq hw =>
    rcases hw with hw | ⟨f, hw⟩
    · simp [workerStep?, hq, hw]
    · simp [workerStep?, hq, hw]
  | @elapse e hw hd =>
    cases hq : t.debouncer.queue with
    | nil => simp [workerStep?, hq, hw, hd]
    | cons f queue => exact absurd hd (Nat.not_le.2 (hk e hw (by simp [hq])))
  | check hw => simp [workerStep?, hw]
  | publish hw hr => simp [workerStep?, hw]

theorem WorkerStep.keen {t u : Timeline} {l : List Publication} (hd : 0 < t.delay)
    (h : t.WorkerStep l u) : u.Keen := by
  intro e he _
  cases h with
  | receive hq hw => exact Nat.lt_add_of_pos_right hd
  | elapse hw hd => simp [Debouncer.elapse, hw] at he
  | check hw =>
    simp only [Debouncer.check, hw] at he
    split at he <;> cases he
  | publish hw hr => simp [Debouncer.publish, hw] at he

theorem Settles.eq_settle {t u : Timeline} {l : List Publication} (hd : 0 < t.delay) (hk : t.Keen)
    (h : Settles t l u) : u = t.settle := by
  induction h with
  | @rest t h =>
    rw [settle]
    split
    · rfl
    · rename_i u hu
      obtain ⟨l, hl⟩ := exists_workerStep hu
      exact absurd hl (h l u)
  | @step t u w l m h hs ih =>
    rw [settle]
    split
    · rename_i hn
      exact absurd h (workerStep?_eq_none hn l u)
    · rename_i u' hu
      have heq : u = u' := by simpa [h.workerStep?_eq hk] using hu
      subst heq
      exact ih (h.kept.1.delay ▸ hd) (h.keen hd)

theorem Settles.queue_eq_nil {t u : Timeline} {l : List Publication} (h : Settles t l u) :
    u.debouncer.queue = [] := by
  cases hq : u.debouncer.queue with
  | nil => rfl
  | cons e queue =>
    exfalso
    cases hw : u.debouncer.worker with
    | idle => exact h.not_workerStep _ _ (.receive hq (.inl hw))
    | waiting f => exact h.not_workerStep _ _ (.receive hq (.inr ⟨f, hw⟩))
    | due f => exact h.not_workerStep _ _ (.check hw)
    | cleared f =>
      have hr := congrArg Debouncer.latest (Debouncer.publish_eq hw)
      exact h.not_workerStep _ _ (.publish hw hr)

theorem Passes.eq_pass {t u : Timeline} {limit : Nat} {l : List Publication} (hd : 0 < t.delay)
    (hq : t.debouncer.queue = []) (h : Passes t limit l u) : u = t.pass limit := by
  cases h with
  | later hn => simp [pass, hn]
  | ends hn hs =>
    simp only [pass, hn]
    exact hs.eq_settle hd (keen_of_queue_eq_nil hq)

theorem Keen.observe {t : Timeline} (h : t.Keen) : t.observe.2.Keen := by
  obtain ⟨seen, hseen⟩ := t.exists_observe_eq
  rw [hseen]
  exact h

theorem next_eq (t : Timeline) (ms : Nat) :
    t.next ms =
      match t.observe.1 with
      | some r => (some r, t.observe.2)
      | none =>
        match t.observe.2.settle.observe.1 with
        | some r => (some r, t.observe.2.settle.observe.2)
        | none =>
          match (t.observe.2.settle.observe.2.pass (t.now + ms)).observe.1 with
          | some r => (some r, (t.observe.2.settle.observe.2.pass (t.now + ms)).observe.2)
          | none =>
            (none, { (t.observe.2.settle.observe.2.pass (t.now + ms)).observe.2 with
              now := t.now + ms }) := by
  unfold next
  rcases t.observe with ⟨_ | r, u⟩
  · dsimp only
    rcases u.settle.observe with ⟨_ | r, w⟩
    · dsimp only
      rcases (w.pass (t.now + ms)).observe with ⟨_ | r, x⟩
      · rfl
      · rfl
    · rfl
  · rfl

/-- Whichever the worker chooses, the step comes to the same. -/
theorem StepsTo.eq_step {t u : Timeline} {s : Step} {r : Reply} {l : List Publication}
    (hd : 0 < t.delay) (hk : t.Keen) (h : StepsTo t s r l u) : t.step s = (r, u) := by
  have hdo : 0 < t.observe.2.delay := by rw [t.kept_observe.delay]; exact hd
  cases h with
  | instant hs => rfl
  | @sleep ms l m u w hs hp =>
    have hp' := hp.eq_pass (hs.kept.1.delay ▸ hd) hs.queue_eq_nil
    have hs' := hs.eq_settle hd hk
    simp only [step, Timeline.sleep, ← hs', ← hp']
  | nextSeen h => simp only [step, next_eq, h]
  | nextSettled h hs hu =>
    have hs' := hs.eq_settle hdo hk.observe
    simp only [step, next_eq, h, ← hs', hu]
  | nextPassed h hs hu hp hw =>
    have hs' := hs.eq_settle hdo hk.observe
    have hp' := hp.eq_pass (by rw [(kept_observe _).delay, hs.kept.1.delay]; exact hdo)
      (by rw [queue_observe]; exact hs.queue_eq_nil)
    simp only [step, next_eq, h, ← hs', hu, ← hp', hw]
  | nextMissed h hs hu hp hw =>
    have hs' := hs.eq_settle hdo hk.observe
    have hp' := hp.eq_pass (by rw [(kept_observe _).delay, hs.kept.1.delay]; exact hdo)
      (by rw [queue_observe]; exact hs.queue_eq_nil)
    simp only [step, next_eq, h, ← hs', hu, ← hp', hw]

end Timeline

end CodeSnippets
