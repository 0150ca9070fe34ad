/-
  The results of a timeline are those of texts.

  * `Timeline.Genuine`: every result at hand is what highlighting makes of some text;
  * `Genuine.submit`, `Genuine.next`: this stays so, and what `next` gives is such a result.
-/
import CodeSnippets.Proofs.Debounce.Runs

namespace CodeSnippets

/-- A result is what highlighting makes of some text. -/
def Rendering.IsGenuine (v : Vocabulary) (r : Rendering) : Prop :=
  ∃ text, r.result = highlight v text

namespace Timeline

/-- The result that is shown and the one that the receiver holds are those of texts. -/
structure Genuine (v : Vocabulary) (t : Timeline) : Prop where
  vocabulary : t.debouncer.vocabulary = v
  latest : ∀ r ∈ t.debouncer.latest, r.IsGenuine v
  held : ∀ r ∈ t.debouncer.held, r.IsGenuine v

theorem genuine_new (v : Vocabulary) (delay : Nat) : (new v delay).Genuine v := by
  refine ⟨rfl, ?_, ?_⟩
  · rintro r ⟨⟩
  · rintro r ⟨⟩

namespace Genuine

variable {v : Vocabulary} {t u : Timeline}

theorem submit (h : t.Genuine v) (text : Text) (immediate : Bool) :
    (t.submit text immediate).Genuine v := by
  rw [Timeline.submit, Debouncer.submit_eq]
  exact ⟨h.vocabulary, h.latest, h.held⟩

theorem workerStep {l : List Publication} (h : t.Genuine v) (hs : t.WorkerStep l u) :
    u.Genuine v := by
  obtain ⟨hkept, -, hheld⟩ := hs.kept
  refine ⟨hkept.vocabulary.trans h.vocabulary, ?_, hheld ▸ h.held⟩
  cases hs with
  | receive hq hw =>
    rw [Debouncer.receive_eq hq hw]
    exact h.latest
  | elapse hw hd =>
    rw [Debouncer.elapse_eq hw]
    exact h.latest
  | check hw =>
    rw [Debouncer.check_eq hw]
    exact h.latest
  | @publish e r hw hr =>
    rw [Debouncer.publish_eq hw]
    rintro r ⟨⟩
    exact ⟨e.text, by rw [h.vocabulary]⟩

theorem settle (h : t.Genuine v) : t.settle.Genuine v := by
  fun_induction Timeline.settle t with
  | case1 t hrest => exact h
  | case2 t u hstep ih =>
    obtain ⟨l, hl⟩ := exists_workerStep hstep
    exact ih (h.workerStep hl)

theorem pass (h : t.Genuine v) (limit : Nat) : (t.pass limit).Genuine v := by
  unfold Timeline.pass
  split
  · exact h
  · exact settle ⟨h.vocabulary, h.latest, h.held⟩

theorem observe (h : t.Genuine v) : t.observe.2.Genuine v := by
  obtain ⟨seen, hseen⟩ := t.exists_observe_eq
  rw [hseen]
  refine ⟨h.vocabulary, h.latest, ?_⟩
  rintro r ⟨⟩

theorem observed (h : t.Genuine v) {r : Rendering} (hr : t.observe.1 = some r) :
    (∀ q ∈ some r, q.IsGenuine v) ∧ t.observe.2.Genuine v := by
  refine ⟨?_, h.observe⟩
  rintro _ ⟨⟩
  obtain ⟨htaken, -⟩ := Option.filter_eq_some_iff.1 hr
  unfold Debouncer.take at htaken
  split at htaken
  · exact h.held r htaken
  · exact h.latest r htaken

/-- What is given in time is the result of a text, and so are those at hand afterwards. -/
theorem next (h : t.Genuine v) (ms : Nat) :
    (∀ r ∈ (t.next ms).1, r.IsGenuine v) ∧ (t.next ms).2.Genuine v := by
  have hsettled := h.observe.settle
  have hpassed := hsettled.observe.pass (t.now + ms)
  rw [next_eq]
  split
  · rename_i r hr
    exact h.observed hr
  split
  · rename_i r hr
    exact hsettled.observed hr
  split
  · rename_i r hr
    exact hpassed.observed hr
  · have hlast := hpassed.observe
    exact ⟨nofun, hlast.vocabulary, hlast.latest, hlast.held⟩

end Genuine

end Timeline

end CodeSnippets
