/-
  Debounced highlighting in time.

  One party submits texts, lets time go by and asks for results.  Time goes by only
  in the steps `sleep` and `next`, and the worker runs only in these.

  * When it runs, the worker does all that it can at that time (`settle`): the quiet
    period begins when an edit is taken out of the queue, and an edit in the queue
    goes before the end of a quiet period.
  * Afterwards the queue is empty, so in a step at most one quiet period ends, and
    one that ends with the step ends in it.
  * `next` gives the result of the newest edit as soon as there is one that has not
    been given before; the time is then the time at which it appeared.
-/
import CodeSnippets.Debounce.State

namespace CodeSnippets

/-- How many steps a worker takes at most with the edit that it has. -/
def Worker.rank : Worker → Nat
  | .idle => 0
  | .cleared _ => 1
  | .due _ => 2
  | .waiting _ => 3

theorem Worker.rank_begin_le (e : Edit) : (Worker.begin e).rank ≤ 3 := by
  unfold Worker.begin
  split <;> simp [Worker.rank]

/-- A debouncer at a time, in milliseconds. -/
structure Timeline where
  debouncer : Debouncer
  /-- how long the quiet period is -/
  delay : Nat
  now : Nat
  /-- when the quiet period of the edit that the worker waits with ends -/
  deadline : Nat

namespace Timeline

/-- Nothing has been submitted, and no time has gone by. -/
def new (v : Vocabulary) (delay : Nat) : Timeline := ⟨.new v, delay, 0, 0⟩

/-! ## The worker -/

/-- The next step of the worker at this time, if there is one. -/
def workerStep? (t : Timeline) : Option Timeline :=
  let d := t.debouncer
  match d.worker, d.queue with
  | .due _, _ => some { t with debouncer := d.check }
  | .cleared _, _ => some { t with debouncer := d.publish }
  | _, _ :: _ => some { t with debouncer := d.receive, deadline := t.now + t.delay }
  | .waiting _, [] => if t.deadline ≤ t.now then some { t with debouncer := d.elapse } else none
  | .idle, [] => none

/-- How many steps the worker takes at most without a new edit. -/
def work (t : Timeline) : Nat := 4 * t.debouncer.queue.length + t.debouncer.worker.rank

/-- Each step leaves less work behind, so the worker comes to a rest. -/
theorem work_workerStep? {t u : Timeline} (h : t.workerStep? = some u) : u.work < t.work := by
  obtain ⟨d, delay, now, deadline⟩ := t
  obtain ⟨v, issued, unsent, queue, worker, latest, seen, held⟩ := d
  cases worker with
  | idle =>
    cases queue with
    | nil => simp [workerStep?] at h
    | cons e queue =>
      cases h
      have := Worker.rank_begin_le e
      simp only [work, Debouncer.receive, List.length_cons]
      omega
  | waiting e =>
    cases queue with
    | nil =>
      simp only [workerStep?, Option.ite_none_right_eq_some, Option.some.injEq] at h
      obtain ⟨-, rfl⟩ := h
      simp [work, Debouncer.elapse, Worker.rank]
    | cons e queue =>
      cases h
      have := Worker.rank_begin_le e
      simp only [work, Debouncer.receive, List.length_cons]
      omega
  | due e =>
    cases h
    simp only [work, Debouncer.check]
    split <;> simp [Worker.rank]
  | cleared e =>
    cases h
    simp [work, Debouncer.publish, Worker.rank]

/-- All that the worker does at this time. -/
def settle (t : Timeline) : Timeline :=
  match _step : t.workerStep? with
  | none => t
  | some u => u.settle
termination_by t.work
decreasing_by exact work_workerStep? _step

/-- The end of the quiet period that the worker lets go by, if it comes by a
    time. -/
def deadlineBy? (t : Timeline) (limit : Nat) : Option Nat :=
  match t.debouncer.worker with
  | .waiting _ => if t.deadline ≤ limit then some t.deadline else none
  | _ => none

/-- All that the worker does at the end of the quiet period, if it comes by a
    time. -/
def pass (t : Timeline) (limit : Nat) : Timeline :=
  match t.deadlineBy? limit with
  | none => t
  | some now => { t with now }.settle

/-! ## Steps -/

/-- Submits a text. -/
def submit (t : Timeline) (text : Text) (immediate : Bool) : Timeline :=
  { t with debouncer := t.debouncer.submit text immediate }

/-- Lets time go by. -/
def sleep (t : Timeline) (ms : Nat) : Timeline :=
  { t.settle.pass (t.now + ms) with now := t.now + ms }

/-- The result of the newest edit, if there is one that has not been seen. -/
def observe (t : Timeline) : Option Rendering × Timeline :=
  let (r, debouncer) := t.debouncer.take.judge
  (r, { t with debouncer })

/-- Waits for the result of the newest edit, at most for a time. -/
def next (t : Timeline) (ms : Nat) : Option Rendering × Timeline :=
  let limit := t.now + ms
  match t.observe with
  | (some r, t) => (some r, t)
  | (none, t) =>
    match t.settle.observe with
    | (some r, t) => (some r, t)
    | (none, t) =>
      match (t.pass limit).observe with
      | (some r, t) => (some r, t)
      | (none, t) => (none, { t with now := limit })

/-- What the party does. -/
inductive Step where
  | submit (text : Text)
  | submitNow (text : Text)
  | sleep (ms : Nat)
  | latest
  | isCurrent (generation : Nat)
  | next (ms : Nat)

/-- What comes of a step. -/
inductive Reply where
  | nothing
  | generation (n : Nat)
  | current (b : Bool)
  | latest (r : Option Rendering)
  /-- the awaited result, if it came in time -/
  | next (r : Option Rendering)

/-- A step with its reply. -/
def step (t : Timeline) : Step → Reply × Timeline
  | .submit text => let t := t.submit text false; (.generation t.debouncer.issued, t)
  | .submitNow text => let t := t.submit text true; (.generation t.debouncer.issued, t)
  | .sleep ms => (.nothing, t.sleep ms)
  | .latest => (.latest t.debouncer.latest, t)
  | .isCurrent generation => (.current (t.debouncer.isCurrent generation), t)
  | .next ms => let (r, t) := t.next ms; (.next r, t)

/-- The replies to some steps. -/
def replies (t : Timeline) : List Step → List Reply
  | [] => []
  | s :: rest => let (r, t) := t.step s; r :: t.replies rest

end Timeline

end CodeSnippets
