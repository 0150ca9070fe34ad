/-
  What watching a file leaves behind.

  * `FileTree.PageIn`: at most one file has changed, and then the page of a text is in it;
  * `Watching.Presents`: what stays the same while a file is watched;
  * `Watching.step_cases`: what happens leads to a page at most, or to a failure that leaves
    the files as they were;
  * `Watching.follow_cases`: a file is watched to the end, or something that happens leads to
    a failure, and what is there by then stays.
-/
import CodeSnippets.Command.Watch
import CodeSnippets.Proofs.Debounce.GenuineResults
import CodeSnippets.Proofs.Files.FileSystems

namespace CodeSnippets

open HasFiles (files)

variable {v : Vocabulary} {title output : Text}

/-! ## Pages in a file -/

namespace FileTree

variable {t t' t'' : FileTree}

/-- The files are the same, or the page of some text is in a file and the others are the
    same. -/
def PageIn (v : Vocabulary) (title output : Text) (t t' : FileTree) : Prop :=
  t' = t ∨ ∃ source, t.write output ((highlight v source).page title).toUtf8 = .ok t'

theorem PageIn.refl (t : FileTree) : t.PageIn v title output t := .inl rfl

theorem PageIn.trans (h : t.PageIn v title output t') (h' : t'.PageIn v title output t'') :
    t.PageIn v title output t'' := by
  rcases h' with rfl | ⟨source', hwrite'⟩
  · exact h
  · rcases h with rfl | ⟨source, hwrite⟩
    · exact .inr ⟨source', hwrite'⟩
    · exact .inr ⟨source', write_write hwrite hwrite'⟩

theorem PageIn.onlyChangedAt (h : t.PageIn v title output t') :
    t' = t ∨ ∃ source, t.OnlyChangedAt output ((highlight v source).page title) t' := by
  refine h.imp_right ?_
  rintro ⟨source, hwrite⟩
  exact ⟨source, onlyChangedAt_of_write hwrite⟩

end FileTree

/-! ## Steps -/

namespace Watching

variable {w w' w₁ : Watching}

/-- The pages that are written while a file is watched: those of texts, under a vocabulary,
    with a title and in a file. -/
structure Presents (v : Vocabulary) (title output : Text) (w : Watching) : Prop where
  title : w.title = title
  output : w.output = output
  genuine : w.timeline.Genuine v

section

variable {σ : Type} [Host (StateM σ)] [HasFiles σ] {s s' s₁ : σ}

theorem run_reread (hw : w.Presents v title output) (s : σ) :
    ∃ w' s', (w.reread : StateM σ _) s = (w', s') ∧ w'.Presents v title output ∧
      files s' = files s := by
  have hsame : files ((Host.readText w.file : StateM σ _) s).2 = files s :=
    OnlyReads.readText w.file s
  unfold reread
  rw [stateM_bind]
  cases ((Host.readText w.file : StateM σ _) s).1 with
  | error e => exact ⟨w, _, rfl, hw, hsame⟩
  | ok source =>
    exact ⟨_, _, rfl, ⟨hw.title, hw.output, hw.genuine.submit source false⟩, hsame⟩

theorem present_cases (hw : w.Presents v title output) {result : Option Rendering}
    (hresult : ∀ r ∈ result, r.IsGenuine v) (s : σ) :
    (∃ f s', (w.present result : ExceptT Failure (StateM σ) _).run s = (.error f, s') ∧
      files s' = files s) ∨
    ∃ s', (w.present result : ExceptT Failure (StateM σ) _).run s = (.ok (), s') ∧
      (files s).PageIn v title output (files s') := by
  cases result with
  | none => exact .inr ⟨s, rfl, .refl _⟩
  | some r =>
    obtain ⟨source, hsource⟩ := hresult r rfl
    rcases run_write_cases w.output (r.result.page w.title) .ofFileError s with
      ⟨f, s', hfails, hsame⟩ | ⟨s', hwrites, hwrite⟩
    · exact .inl ⟨f, s', hfails, hsame⟩
    · rw [hsource, hw.title, hw.output] at hwrite
      exact .inr ⟨s', hwrites, .inr ⟨source, hwrite⟩⟩

/-- **What happens leads to a page at most**, or to a failure that leaves the files as they
    were. -/
theorem step_cases (hw : w.Presents v title output) (e : WatchEvent) (s : σ) :
    (∃ f s', (w.step e : ExceptT Failure (StateM σ) _).run s = (.error f, s') ∧
      files s' = files s) ∨
    ∃ w' s', (w.step e : ExceptT Failure (StateM σ) _).run s = (.ok w', s') ∧
      w'.Presents v title output ∧ (files s).PageIn v title output (files s') := by
  cases e with
  | changed =>
    obtain ⟨w', s', hreread, hw', hsame⟩ := run_reread hw s
    refine .inr ⟨w', s', ?_, hw', .inl hsame⟩
    rw [step, ExceptT.run_lift]
    exact congrArg (fun p => (Except.ok p.1, p.2)) hreread
  | wait ms =>
    obtain ⟨hresult, hgenuine⟩ := hw.genuine.next ms
    rcases present_cases hw hresult s with ⟨f, s', hfails, hsame⟩ | ⟨s', hok, hpage⟩
    · exact .inl ⟨f, s', run_bind_of_error hfails _, hsame⟩
    · exact .inr ⟨_, s', run_bind_of_ok hok _, ⟨hw.title, hw.output, hgenuine⟩, hpage⟩

end

/-! ## One thing after the other -/

section

variable {σ : Type} [Host (StateM σ)] {s s' s₁ : σ}

theorem follow_append (w : Watching) (earlier later : List WatchEvent) :
    (w.follow (earlier ++ later) : ExceptT Failure (StateM σ) _) =
      w.follow earlier >>= fun w' => w'.follow later := List.foldlM_append ..

theorem follow_cons (w : Watching) (e : WatchEvent) (later : List WatchEvent) :
    (w.follow (e :: later) : ExceptT Failure (StateM σ) _) =
      w.step e >>= fun w' => w'.follow later := List.foldlM_cons ..

/-- Where something that happens leads to a failure, what would happen later does not matter. -/
theorem run_follow_of_error {earlier : List WatchEvent} {e : WatchEvent} {f : Failure}
    (hearlier : (w.follow earlier : ExceptT Failure (StateM σ) _).run s = (.ok w₁, s₁))
    (hstep : (w₁.step e : ExceptT Failure (StateM σ) _).run s₁ = (.error f, s'))
    (later : List WatchEvent) :
    (w.follow (earlier ++ e :: later) : ExceptT Failure (StateM σ) _).run s = (.error f, s') := by
  rw [follow_append, run_bind_of_ok hearlier, follow_cons, run_bind_of_error hstep]

/-- **A file is watched to the end, or something that happens leads to a failure**, which leaves
    the files as they were just before. -/
theorem follow_cases [HasFiles σ] (hw : w.Presents v title output) (events : List WatchEvent)
    (s : σ) :
    (∃ w' s', (w.follow events : ExceptT Failure (StateM σ) _).run s = (.ok w', s') ∧
      (files s).PageIn v title output (files s')) ∨
    ∃ earlier e later w₁ s₁ f s', events = earlier ++ e :: later ∧
      (w.follow earlier : ExceptT Failure (StateM σ) _).run s = (.ok w₁, s₁) ∧
      (files s).PageIn v title output (files s₁) ∧
      (w₁.step e : ExceptT Failure (StateM σ) _).run s₁ = (.error f, s') ∧
      files s' = files s₁ := by
  induction events generalizing w s with
  | nil => exact .inl ⟨w, s, rfl, .refl _⟩
  | cons e events ih =>
    rcases step_cases hw e s with ⟨f, s', hfails, hsame⟩ | ⟨w', s', hstep, hw', hpage⟩
    · exact .inr ⟨[], e, events, w, s, f, s', rfl, rfl, .refl _, hfails, hsame⟩
    · rcases ih hw' s' with ⟨w'', s'', hrest, hpage'⟩ |
        ⟨earlier, e', later, w₁, s₁, f, s'', rfl, hearlier, hpage', hfails, hsame⟩
      · refine .inl ⟨w'', s'', ?_, hpage.trans hpage'⟩
        rw [follow_cons, run_bind_of_ok hstep, hrest]
      · refine .inr ⟨e :: earlier, e', later, w₁, s₁, f, s'', rfl, ?_, hpage.trans hpage',
          hfails, hsame⟩
        rw [follow_cons, run_bind_of_ok hstep, hearlier]

end

end Watching

end CodeSnippets
