/-
  Results on their way from the worker to the receiver.

  The worker checks that an edit is the newest before it publishes its result, and the
  receiver checks once more before it gives the result back, but between any two of these
  steps other parties may submit texts.  Still no result comes late or twice:

  * `Action.text?`, `submitted`: the texts of the steps that hand out a generation; the
    first of them has generation 1 and so on (`Attributed`);
  * `Debouncer.published`, `Debouncer.returned`: the results that steps publish, and those
    that they give back;
  * `pairwise_published`: results are published in the order of their generations;
  * `returned_sublist`: the results that are given back are among those published, each
    at most once and in the same order;
  * `results_in_order`: all this for every run, with the text of each result.
-/
import CodeSnippets.Proofs.Debounce.Interleavings

namespace CodeSnippets

/-- The text for which a step hands out a generation. -/
def Action.text? : Action → Option Text
  | .draw text _ => some text
  | _ => none

/-- The texts for which steps hand out generations. -/
def submitted (as : List Action) : List Text := as.filterMap Action.text?

theorem submitted_cons (a : Action) (as : List Action) :
    submitted (a :: as) = a.text?.toList ++ submitted as := by
  cases a <;> rfl

theorem text?_eq_none {a : Action} (h : a.draws = false) : a.text? = none := by
  cases a with
  | draw text immediate => cases h
  | _ => rfl

namespace Debouncer

/-! ## Results of steps -/

/-- The result that a step publishes. -/
def publishes? (d : Debouncer) : Action → Option Rendering
  | .publish =>
    match d.worker with
    | .cleared _ => d.publish.latest
    | _ => none
  | _ => none

/-- The results that steps publish. -/
def published (d : Debouncer) : List Action → List Rendering
  | [] => []
  | a :: as => (d.publishes? a).toList ++ (d.act a).published as

/-- The result that a step gives back. -/
def returns? (d : Debouncer) : Action → Option Rendering
  | .judge => d.judge.1
  | _ => none

/-- The results that steps give back. -/
def returned (d : Debouncer) : List Action → List Rendering
  | [] => []
  | a :: as => (d.returns? a).toList ++ (d.act a).returned as

/-- A result is published by the worker, for the edit that it has cleared. -/
theorem publishes?_eq_some {d : Debouncer} {a : Action} {r : Rendering}
    (h : d.publishes? a = some r) :
    (d.act a).latest = some r ∧ ∃ e, d.worker = .cleared e ∧ r = d.render e := by
  cases a with
  | publish =>
    cases hw : d.worker with
    | cleared e =>
      simp only [publishes?, hw] at h
      refine ⟨h, e, rfl, ?_⟩
      rw [publish_eq hw] at h
      exact (Option.some.inj h).symm
    | _ => simp [publishes?, hw] at h
  | _ => cases h

/-- The last result changes only when one is published. -/
theorem latest_act_of_not_publishes {d : Debouncer} {a : Action} (h : d.publishes? a = none) :
    (d.act a).latest = d.latest := by
  cases d.effect_act a with
  | drawn _ hu => rw [hu, draw]
  | moved _ hs _ _ => exact hs.latest
  | dropped _ hs _ _ => exact hs.latest
  | shown ha _ _ hl hc _ _ =>
    subst ha
    have hpublishes : d.publishes? .publish = d.publish.latest := by simp [publishes?, hc]
    rw [hpublishes] at h
    exact absurd (h.symm.trans hl) (by simp)

/-! ## The order of results -/

/-- **Results are published in the order of their generations**, all of them behind the
    last result that there is. -/
theorem pairwise_published {d : Debouncer} (h : d.Orderly) (as : List Action) :
    (d.latest.toList ++ d.published as).Pairwise fun q r => q.generation < r.generation := by
  induction as generalizing d with
  | nil => cases hl : d.latest <;> simp [published]
  | cons a as ih =>
    have hrest := ih (h.act a)
    rw [published]
    cases hp : d.publishes? a with
    | none =>
      rw [latest_act_of_not_publishes hp] at hrest
      exact hrest
    | some r =>
      obtain ⟨hlatest, e, hw, rfl⟩ := publishes?_eq_some hp
      rw [hlatest] at hrest
      cases hl : d.latest with
      | none => exact hrest
      | some q =>
        have hlt : q.generation < e.generation := h.cleared e hw q hl
        refine List.pairwise_cons.2 ⟨?_, hrest⟩
        intro r hr
        rcases List.mem_cons.1 hr with rfl | hr
        · exact hlt
        · exact Nat.lt_trans hlt ((List.pairwise_cons.1 hrest).1 r hr)

/-- The results that the receiver has yet to judge: one at hand, and the last one if it
    has not been looked at. -/
def pending (d : Debouncer) : List Rendering :=
  d.held.toList ++ if d.seen then [] else d.latest.toList

/-- A step that neither publishes nor concerns the receiver changes nothing for it. -/
theorem pending_act {d : Debouncer} {a : Action} (hp : a ≠ .publish) (ht : a ≠ .take)
    (hj : a ≠ .judge) : (d.act a).pending = d.pending := by
  cases a with
  | publish => exact absurd rfl hp
  | take => exact absurd rfl ht
  | judge => exact absurd rfl hj
  | draw text immediate => rfl
  | send e =>
    simp only [act, send]
    split <;> rfl
  | receive =>
    simp only [act, receive]
    split <;> rfl
  | elapse =>
    simp only [act, elapse]
    split <;> rfl
  | check =>
    simp only [act, check]
    split <;> rfl

theorem pending_publish (d : Debouncer) :
    d.publish.pending.Sublist (d.pending ++ (d.publishes? .publish).toList) := by
  cases hw : d.worker with
  | cleared e =>
    have hpublishes : d.publishes? .publish = d.publish.latest := by simp [publishes?, hw]
    rw [hpublishes, publish_eq hw]
    simp only [pending, Bool.false_eq_true, if_false, Option.toList_some, List.append_assoc]
    exact (List.sublist_append_right _ _).append_left _
  | _ =>
    have hsame : d.publish = d := by simp [publish, hw]
    rw [hsame]
    exact List.sublist_append_left _ _

theorem pending_take (d : Debouncer) : d.take.pending = d.pending := by
  unfold take
  split
  · rfl
  · next h =>
    rw [Bool.or_eq_true, not_or, Bool.not_eq_true, Bool.not_eq_true] at h
    have hheld : d.held = none := by simpa using h.2
    simp [pending, h.1, hheld]

/-- What the receiver judges leaves its hands, given back or not. -/
theorem pending_judge (d : Debouncer) :
    (d.judge.1.toList ++ d.judge.2.pending).Sublist d.pending := by
  refine List.Sublist.append ?_ (.refl _)
  rw [judge, Option.toList_filter]
  exact List.filter_sublist

/-- A step gives back a result that is pending, and adds one that it publishes. -/
theorem pending_step (d : Debouncer) (a : Action) :
    ((d.returns? a).toList ++ (d.act a).pending).Sublist
      (d.pending ++ (d.publishes? a).toList) := by
  cases a with
  | publish => exact d.pending_publish
  | take =>
    rw [act, pending_take]
    exact List.sublist_append_left _ _
  | judge => exact d.pending_judge.trans (List.sublist_append_left _ _)
  | _ =>
    rw [pending_act (by simp) (by simp) (by simp)]
    exact List.sublist_append_left _ _

/-- **Results that are given back were pending or are published**, in this order. -/
theorem returned_sublist (d : Debouncer) (as : List Action) :
    (d.returned as).Sublist (d.pending ++ d.published as) := by
  induction as generalizing d with
  | nil => exact List.nil_sublist _
  | cons a as ih =>
    rw [returned, published, ← List.append_assoc]
    refine (((ih (d.act a)).append_left _).trans ?_)
    rw [← List.append_assoc]
    exact (d.pending_step a).append_right _

/-! ## The texts of results -/

/-- A step hands out a generation, or no edit is new. -/
theorem draws_or_flight_subset (d : Debouncer) (a : Action) :
    (∃ text immediate, a = .draw text immediate) ∨
      a.draws = false ∧ ∀ e ∈ (d.act a).flight, e ∈ d.flight := by
  cases d.effect_act a with
  | drawn ha _ => exact .inl ⟨_, _, ha⟩
  | moved ha _ hf _ => exact .inr ⟨ha, fun e he => hf.mem_iff.1 he⟩
  | dropped hr _ hf _ =>
    refine .inr ⟨?_, fun e he => hf.mem_iff.2 (List.mem_cons_of_mem _ he)⟩
    rcases hr with ⟨rfl, -⟩ | ⟨rfl, -⟩ <;> rfl
  | shown ha _ _ _ _ hf _ =>
    refine .inr ⟨?_, fun e he => hf.mem_iff.2 (List.mem_cons_of_mem _ he)⟩
    rw [ha]
    rfl

/-- Generations have been handed out for some texts, one after the other, and every edit
    in flight has the text of its generation. -/
structure Attributed (d : Debouncer) (texts : List Text) : Prop where
  issued : d.issued = texts.length
  texts : ∀ e ∈ d.flight, ∃ n, e.generation = n + 1 ∧ texts[n]? = some e.text

theorem attributed_new (v : Vocabulary) : (new v).Attributed [] where
  issued := rfl
  texts := by simp [flight, new]

theorem getElem?_append_of_some {texts more : List Text} {n : Nat} {text : Text}
    (h : texts[n]? = some text) : (texts ++ more)[n]? = some text := by
  obtain ⟨hn, -⟩ := List.getElem?_eq_some_iff.1 h
  rw [List.getElem?_append_left hn, h]

theorem Attributed.act {d : Debouncer} {texts : List Text} (h : d.Attributed texts) (a : Action) :
    (d.act a).Attributed (texts ++ a.text?.toList) := by
  rcases d.draws_or_flight_subset a with ⟨text, immediate, rfl⟩ | ⟨ha, hf⟩
  · refine ⟨?_, fun e he => ?_⟩
    · rw [Debouncer.act, draw, h.issued, List.length_append]
      rfl
    · rcases List.mem_cons.1 ((d.flight_draw text immediate).mem_iff.1 he) with rfl | he
      · refine ⟨texts.length, ?_, by simp [Action.text?, nextEdit]⟩
        rw [nextEdit, h.issued]
      · obtain ⟨n, hn, htext⟩ := h.texts e he
        exact ⟨n, hn, getElem?_append_of_some htext⟩
  · rw [text?_eq_none ha, Option.toList_none, List.append_nil]
    exact ⟨(issued_act ha).trans h.issued, fun e he => h.texts e (hf e he)⟩

theorem Attributed.acts {d : Debouncer} {texts : List Text} (h : d.Attributed texts)
    (as : List Action) : (d.acts as).Attributed (texts ++ submitted as) := by
  induction as generalizing d texts with
  | nil => simpa [submitted, Debouncer.acts] using h
  | cons a as ih =>
    rw [submitted_cons, ← List.append_assoc]
    exact ih (h.act a)

/-- **A published result is that of the text of its generation.** -/
theorem Attributed.published {d : Debouncer} {texts : List Text} (h : d.Attributed texts)
    (as : List Action) : ∀ r ∈ d.published as, ∃ n text, r.generation = n + 1 ∧
      (texts ++ submitted as)[n]? = some text ∧ r.result = highlight d.vocabulary text := by
  induction as generalizing d texts with
  | nil => simp [Debouncer.published]
  | cons a as ih =>
    intro r hr
    rw [Debouncer.published] at hr
    rcases List.mem_append.1 hr with hr | hr
    · obtain ⟨-, e, hw, rfl⟩ := publishes?_eq_some (Option.mem_toList.1 hr)
      obtain ⟨n, hn, htext⟩ := h.texts e (mem_flight_of_cleared hw)
      exact ⟨n, e.text, hn, getElem?_append_of_some htext, rfl⟩
    · have hrest := ih (h.act a) r hr
      rwa [vocabulary_act, List.append_assoc, ← submitted_cons] at hrest

/-! ## The main statement -/

/-- **No result is stale, and none comes twice.**  Any number of parties draw and send
    edits, in any order with each other, with the worker and with the receiver.  Results
    are published with rising generations, and each is that of the text for which its
    generation was handed out.  The results that are given back are some of these, in the
    same order, so their generations rise too; and whenever one is given back, its
    generation is the newest, that is, as many have been handed out by then. -/
theorem results_in_order (v : Vocabulary) (as : List Action) :
    ((new v).published as).Pairwise (fun q r => q.generation < r.generation) ∧
    (∀ r ∈ (new v).published as, ∃ n text, r.generation = n + 1 ∧
      (submitted as)[n]? = some text ∧ r.result = highlight v text) ∧
    ((new v).returned as).Sublist ((new v).published as) ∧
    ((new v).returned as).Pairwise (fun q r => q.generation < r.generation) ∧
    ∀ before after r, as = before ++ .judge :: after →
      ((new v).acts before).judge.1 = some r → r.generation = (submitted before).length := by
  have hpublished := pairwise_published (orderly_new v) as
  have hreturned := (new v).returned_sublist as
  refine ⟨hpublished, (attributed_new v).published as, hreturned, hpublished.sublist hreturned, ?_⟩
  rintro before after r - hr
  have hissued := ((attributed_new v).acts before).issued
  obtain ⟨-, hcurrent⟩ := Option.filter_eq_some_iff.1 hr
  rw [isCurrent, beq_iff_eq, hissued] at hcurrent
  exact hcurrent

/-- A second text is submitted after the first one has been cleared and before its result
    is published: the receiver drops that result and then looks at the second one. -/
def lateSubmission : List Action :=
  [.draw ['a'] false, .send ⟨1, ['a'], false⟩, .receive, .elapse, .check, .draw ['b'] true,
    .publish, .take, .judge, .send ⟨2, ['b'], true⟩, .receive, .check, .publish, .take]

/-- Both results are published, and the second one is given back. -/
theorem results_in_order_of_late_submission :
    (new Vocabulary.builtin).published (lateSubmission ++ [.judge]) =
      [⟨1, highlight .builtin ['a']⟩, ⟨2, highlight .builtin ['b']⟩] ∧
    (∃ n text, 1 = n + 1 ∧ (submitted (lateSubmission ++ [.judge]))[n]? = some text ∧
      highlight .builtin ['a'] = highlight .builtin text) ∧
    (new Vocabulary.builtin).returned (lateSubmission ++ [.judge]) =
      [⟨2, highlight .builtin ['b']⟩] ∧
    ((new Vocabulary.builtin).acts lateSubmission).judge.1 =
      some ⟨2, highlight .builtin ['b']⟩ ∧
    2 = (submitted lateSubmission).length := by
  have hpublished : (new Vocabulary.builtin).published (lateSubmission ++ [.judge]) =
      [⟨1, highlight .builtin ['a']⟩, ⟨2, highlight .builtin ['b']⟩] := rfl
  have hjudge : ((new Vocabulary.builtin).acts lateSubmission).judge.1 =
      some ⟨2, highlight .builtin ['b']⟩ := rfl
  obtain ⟨-, htexts, -, -, hnewest⟩ :=
    results_in_order Vocabulary.builtin (lateSubmission ++ [.judge])
  exact ⟨hpublished, htexts _ (hpublished ▸ List.mem_cons_self), rfl, hjudge,
    hnewest lateSubmission [] _ rfl hjudge⟩

end Debouncer

end CodeSnippets
