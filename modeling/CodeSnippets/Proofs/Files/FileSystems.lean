/-
  Surroundings with files.

  Nothing is assumed of what is read, and any write may be refused.

  * `HasFiles`: surroundings with a tree of files that only writing changes, and only where it
    succeeds; `Machine` is one, and so is `RefusingMachine`, which refuses the writes that a
    list says;
  * `OnlyReads`: an action that leaves the files as they are;
  * `run_write_cases`: a text is written, or the files are as they were.
-/
import CodeSnippets.Command.Failure
import CodeSnippets.Proofs.Files.WrittenFiles

namespace CodeSnippets

/-- Surroundings with a tree of files, which changes where a write succeeds and stays as it is
    otherwise. -/
class HasFiles (σ : Type) [Host (StateM σ)] where
  files : σ → FileTree
  files_read (path : Text) (s : σ) : files ((Host.read path : StateM σ _) s).2 = files s
  files_holds (path : Text) (s : σ) : files ((Host.holds path : StateM σ _) s).2 = files s
  files_canonical (path : Text) (s : σ) : files ((Host.canonical path : StateM σ _) s).2 = files s
  files_input (s : σ) : files ((Host.input : StateM σ _) s).2 = files s
  files_environment (name : Text) (s : σ) :
    files ((Host.environment name : StateM σ _) s).2 = files s
  write_cases (path : Text) (content : ByteArray) (s : σ) :
    (∃ e s', (Host.write path content : StateM σ _) s = (.error e, s') ∧ files s' = files s) ∨
    ∃ s', (Host.write path content : StateM σ _) s = (.ok (), s') ∧
      (files s).write path content = .ok (files s')

open HasFiles (files)

theorem Machine.write_cases (path : Text) (content : ByteArray) (w : Machine) :
    (∃ e w', w.write path content = (.error e, w') ∧ w'.files = w.files) ∨
    ∃ w', w.write path content = (.ok (), w') ∧ w.files.write path content = .ok w'.files := by
  cases hwrite : w.files.write path content with
  | error e => exact .inl ⟨e, w, write_of_error hwrite, rfl⟩
  | ok files => exact .inr ⟨{ w with files }, write_of_ok hwrite, rfl⟩

instance : HasFiles Machine where
  files := Machine.files
  files_read _ _ := rfl
  files_holds _ _ := rfl
  files_canonical _ _ := rfl
  files_input _ := rfl
  files_environment _ _ := rfl
  write_cases path content w := w.write_cases path content

/-! ## Writes that are refused -/

/-- A machine with what the next writes come to: an error, whatever is written, or nothing out
    of the ordinary. -/
structure RefusingMachine where
  machine : Machine
  refusals : List (Option FileError)

namespace RefusingMachine

/-- Writes a file, unless that is refused. -/
def write (path : Text) (content : ByteArray) (r : RefusingMachine) :
    Except FileError Unit × RefusingMachine :=
  match r.refusals.head?.join with
  | some e => (.error e, { r with refusals := r.refusals.tail })
  | none =>
    let (result, machine) := r.machine.write path content
    (result, ⟨machine, r.refusals.tail⟩)

/-- What an action on the machine does. -/
def lift {α : Type} (action : StateM Machine α) : StateM RefusingMachine α := fun r =>
  let (a, machine) := action r.machine
  (a, { r with machine })

instance : Host (StateM RefusingMachine) where
  read path := lift (Host.read path)
  write := write
  makeDirectories path := lift (Host.makeDirectories path)
  holds path := lift (Host.holds path)
  canonical path := lift (Host.canonical path)
  input := lift Host.input
  environment name := lift (Host.environment name)

theorem write_cases (path : Text) (content : ByteArray) (r : RefusingMachine) :
    (∃ e r', r.write path content = (.error e, r') ∧ r'.machine.files = r.machine.files) ∨
    ∃ r', r.write path content = (.ok (), r') ∧
      r.machine.files.write path content = .ok r'.machine.files := by
  unfold write
  cases r.refusals.head?.join with
  | some e => exact .inl ⟨e, _, rfl, rfl⟩
  | none =>
    rcases r.machine.write_cases path content with ⟨e, w, hwrite, hfiles⟩ | ⟨w, hwrite, hfiles⟩
    · exact .inl ⟨e, ⟨w, r.refusals.tail⟩, by rw [hwrite], hfiles⟩
    · exact .inr ⟨⟨w, r.refusals.tail⟩, by rw [hwrite], hfiles⟩

instance : HasFiles RefusingMachine where
  files r := r.machine.files
  files_read _ _ := rfl
  files_holds _ _ := rfl
  files_canonical _ _ := rfl
  files_input _ := rfl
  files_environment _ _ := rfl
  write_cases path content r := r.write_cases path content

end RefusingMachine

/-! ## Actions that may fail -/

section

variable {σ α β : Type} {s s' : σ}

theorem run_bind_of_ok {x : ExceptT Failure (StateM σ) α} {a : α} (h : x.run s = (.ok a, s'))
    (f : α → ExceptT Failure (StateM σ) β) : (x >>= f).run s = (f a).run s' := by
  rw [ExceptT.run_bind, stateM_bind, h]

theorem run_bind_of_error {x : ExceptT Failure (StateM σ) α} {e : Failure}
    (h : x.run s = (.error e, s')) (f : α → ExceptT Failure (StateM σ) β) :
    (x >>= f).run s = (.error e, s') := by
  rw [ExceptT.run_bind, stateM_bind, h]
  rfl

theorem ok_of_run_bind {x : ExceptT Failure (StateM σ) α} {f : α → ExceptT Failure (StateM σ) β}
    {b : β} (h : (x >>= f).run s = (.ok b, s')) :
    ∃ a s₁, x.run s = (.ok a, s₁) ∧ (f a).run s₁ = (.ok b, s') := by
  rw [ExceptT.run_bind, stateM_bind] at h
  cases hx : x.run s with
  | mk r s₁ =>
    rw [hx] at h
    cases r with
    | error e => cases h
    | ok a => exact ⟨a, s₁, rfl, h⟩

theorem run_orFail {ε : Type} {action : StateM σ (Except ε α)} {r : Except ε α}
    (h : action s = (r, s')) (failure : ε → Failure) :
    (orFail action failure).run s = (r.mapError failure, s') := by
  rw [orFail, ExceptT.run_mk, stateM_bind, h]
  rfl

end

section

variable {σ : Type} [Host (StateM σ)] [HasFiles σ]

/-- A text is written, or that fails and leaves the files as they were. -/
theorem run_write_cases (path t : Text) (failure : FileError → Failure) (s : σ) :
    (∃ f s', (orFail (Host.writeText path t : StateM σ _) failure).run s = (.error f, s') ∧
      files s' = files s) ∨
    ∃ s', (orFail (Host.writeText path t : StateM σ _) failure).run s = (.ok (), s') ∧
      (files s).write path t.toUtf8 = .ok (files s') := by
  rcases HasFiles.write_cases path t.toUtf8 s with ⟨e, s', hwrite, hfiles⟩ | ⟨s', hwrite, hfiles⟩
  · exact .inl ⟨failure e, s', run_orFail hwrite failure, hfiles⟩
  · exact .inr ⟨s', run_orFail hwrite failure, hfiles⟩

/-! ## Actions that only read -/

/-- An action that leaves the files as they are. -/
def OnlyReads {α : Type} (action : StateM σ α) : Prop := ∀ s, files (action s).2 = files s

namespace OnlyReads

variable {α β ε : Type}

theorem pure (a : α) : OnlyReads (Pure.pure a : StateM σ α) := fun _ => rfl

theorem bind {x : StateM σ α} {f : α → StateM σ β} (hx : OnlyReads x)
    (hf : ∀ a, OnlyReads (f a)) : OnlyReads (x >>= f) :=
  fun s => (hf _ _).trans (hx s)

theorem bindExcept {x : ExceptT Failure (StateM σ) α} {f : α → ExceptT Failure (StateM σ) β}
    (hx : OnlyReads x.run) (hf : ∀ a, OnlyReads (f a).run) : OnlyReads (x >>= f).run := by
  rw [ExceptT.run_bind]
  refine bind hx fun r => ?_
  cases r with
  | error e => exact pure _
  | ok a => exact hf a

theorem mapExcept {x : ExceptT Failure (StateM σ) α} (hx : OnlyReads x.run) (f : α → β) :
    OnlyReads (f <$> x).run := by
  rw [map_eq_pure_bind]
  exact bindExcept hx fun _ => pure _

theorem orFail {action : StateM σ (Except ε α)} (h : OnlyReads action) (failure : ε → Failure) :
    OnlyReads (CodeSnippets.orFail action failure).run :=
  bind h fun _ => pure _

theorem readText (path : Text) : OnlyReads (Host.readText path : StateM σ _) :=
  bind (HasFiles.files_read path) fun _ => pure _

theorem inputText : OnlyReads (Host.inputText : StateM σ _) :=
  bind HasFiles.files_input fun _ => pure _

/-- An action that only reads fails or gives a result, and the files are as they were. -/
theorem run_cases {x : ExceptT Failure (StateM σ) α} (hx : OnlyReads x.run) (s : σ) :
    (∃ f s', x.run s = (.error f, s') ∧ files s' = files s) ∨
    ∃ a s', x.run s = (.ok a, s') ∧ files s' = files s := by
  cases hresult : (x.run s).1 with
  | error f => exact .inl ⟨f, (x.run s).2, Prod.ext hresult rfl, hx s⟩
  | ok a => exact .inr ⟨a, (x.run s).2, Prod.ext hresult rfl, hx s⟩

end OnlyReads

end

end CodeSnippets
