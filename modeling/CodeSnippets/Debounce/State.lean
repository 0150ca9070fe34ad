/-
  Highlighting of a text that is being edited.

  Every edit gets a number, its generation, and then goes into a queue.  A worker
  takes edits out of the queue; an edit with nothing newer behind it is highlighted
  after a quiet period, or at once if it is marked so.  Each function below is one
  indivisible step:

  * `draw` hands out the next generation, and `send` puts the edit into the queue;
  * `receive` takes the next edit, in place of one that the worker waits with, and
    `elapse` ends the quiet period;
  * `check` drops an edit that is not the newest, and `publish` puts the result of
    another into the place of the last one;
  * `take` looks at a result not seen before, and `judge` returns it if it is of the
    newest edit.

  Steps of several parties may come in any order; a step that is out of place
  changes nothing.
-/
import CodeSnippets.Highlight.Highlighter

namespace CodeSnippets

/-- A text that was submitted. -/
structure Edit where
  generation : Nat
  text : Text
  /-- whether no quiet period is needed -/
  immediate : Bool
  deriving DecidableEq, Repr

/-- A highlighted edit. -/
structure Rendering where
  generation : Nat
  result : Highlighted
  deriving DecidableEq, Repr

/-- What the worker is doing. -/
inductive Worker where
  | idle
  /-- letting the quiet period behind an edit go by -/
  | waiting (e : Edit)
  /-- about to check whether an edit is the newest -/
  | due (e : Edit)
  /-- about to publish the result of an edit -/
  | cleared (e : Edit)
  deriving DecidableEq, Repr

/-- What the worker does with an edit from the queue. -/
def Worker.begin (e : Edit) : Worker := if e.immediate then .due e else .waiting e

/-- The edits on their way, the last result, and what the receiver holds. -/
structure Debouncer where
  vocabulary : Vocabulary
  /-- the newest generation -/
  issued : Nat
  /-- edits with a generation that are not in the queue yet -/
  unsent : List Edit
  queue : List Edit
  worker : Worker
  latest : Option Rendering
  /-- whether the receiver has looked at the last result -/
  seen : Bool
  /-- a result that the receiver has yet to judge -/
  held : Option Rendering

namespace Debouncer

/-- Nothing has been submitted. -/
def new (v : Vocabulary) : Debouncer := ⟨v, 0, [], [], .idle, none, true, none⟩

/-- Whether a generation is the newest. -/
def isCurrent (d : Debouncer) (generation : Nat) : Bool := generation == d.issued

/-! ## Submitters -/

/-- The edit that the next text becomes. -/
def nextEdit (d : Debouncer) (text : Text) (immediate : Bool) : Edit :=
  ⟨d.issued + 1, text, immediate⟩

/-- Hands out a generation for a text. -/
def draw (d : Debouncer) (text : Text) (immediate : Bool) : Debouncer :=
  { d with issued := d.issued + 1, unsent := d.unsent ++ [d.nextEdit text immediate] }

/-- Puts an edit with a generation into the queue. -/
def send (d : Debouncer) (e : Edit) : Debouncer :=
  if e ∈ d.unsent then { d with unsent := d.unsent.erase e, queue := d.queue ++ [e] } else d

/-- Submits a text in one go. -/
def submit (d : Debouncer) (text : Text) (immediate : Bool) : Debouncer :=
  (d.draw text immediate).send (d.nextEdit text immediate)

/-! ## The worker -/

/-- Takes the next edit out of the queue. -/
def receive (d : Debouncer) : Debouncer :=
  match d.worker, d.queue with
  | .idle, e :: queue | .waiting _, e :: queue => { d with worker := Worker.begin e, queue }
  | _, _ => d

/-- Ends the quiet period. -/
def elapse (d : Debouncer) : Debouncer :=
  match d.worker with
  | .waiting e => { d with worker := .due e }
  | _ => d

/-- Drops an edit that is not the newest. -/
def check (d : Debouncer) : Debouncer :=
  match d.worker with
  | .due e => { d with worker := if d.isCurrent e.generation then .cleared e else .idle }
  | _ => d

/-- Highlights an edit and publishes the result. -/
def publish (d : Debouncer) : Debouncer :=
  match d.worker with
  | .cleared e =>
    { d with
      worker := .idle
      latest := some ⟨e.generation, highlight d.vocabulary e.text⟩
      seen := false }
  | _ => d

/-! ## The receiver -/

/-- Looks at the last result, if it has not been seen. -/
def take (d : Debouncer) : Debouncer :=
  if d.seen || d.held.isSome then d else { d with seen := true, held := d.latest }

/-- Gives back the result at hand if it is of the newest edit, and drops it
    otherwise. -/
def judge (d : Debouncer) : Option Rendering × Debouncer :=
  (d.held.filter fun r => d.isCurrent r.generation, { d with held := none })

end Debouncer

end CodeSnippets
