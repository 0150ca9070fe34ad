/-
  What becomes of the newest edit when several parties submit texts.

  An edit that is drawn later may be sent earlier.  So an old edit can be in the queue
  behind the newest one, and when the worker takes it during the quiet period of the
  newest one, neither is ever shown: the newest one is no longer at hand, and the old
  one is stale.

  * `Debouncer.newest?`: the edit that was drawn last;
  * `Debouncer.Overtaken`: the worker takes another edit while it waits with an edit;
  * `newest_shown_iff_not_overtaken`: once all edits are sent and the worker is done,
    the last result is that of the newest edit if and only if it was not overtaken;
  * `shown_of_sent_last`: it is shown if it was the last one to be sent.
-/
import CodeSnippets.Proofs.Debounce.Interleavings

namespace CodeSnippets.Debouncer

/-! ## The newest edit -/

/-- The edit that a step draws. -/
def drawn? (d : Debouncer) : Action → Option Edit
  | .draw text immediate => some (d.nextEdit text immediate)
  | _ => none

/-- The edit that was drawn last. -/
def newest? (d : Debouncer) : List Action → Option Edit
  | [] => none
  | a :: as => ((d.act a).newest? as).or (d.drawn? a)

/-- The worker takes another edit in place of one whose quiet period is going by. -/
def Overtaken (d : Debouncer) (e : Edit) : List Action → Prop
  | [] => False
  | a :: as => d.Overtakes a e ∨ (d.act a).Overtaken e as

instance (d : Debouncer) (a : Action) (e : Edit) : Decidable (d.Overtakes a e) :=
  inferInstanceAs (Decidable (_ ∧ _ ∧ _))

instance decidableOvertaken (d : Debouncer) (e : Edit) :
    (as : List Action) → Decidable (d.Overtaken e as)
  | [] => isFalse id
  | a :: as =>
    have := (d.act a).decidableOvertaken e as
    inferInstanceAs (Decidable (_ ∨ _))

theorem of_drawn? {d : Debouncer} {a : Action} {e : Edit} (h : d.drawn? a = some e) :
    ∃ text immediate, a = .draw text immediate ∧ e = d.nextEdit text immediate := by
  cases a with
  | draw text immediate =>
    cases h
    exact ⟨text, immediate, rfl, rfl⟩
  | _ => cases h

/-! ## Edits that are lost -/

/-- Nothing is left of an edit. -/
structure Lost (d : Debouncer) (e : Edit) : Prop where
  le_issued : e.generation ≤ d.issued
  flight : ∀ f ∈ d.flight, f.generation ≠ e.generation
  latest : ∀ r, d.latest = some r → r.generation ≠ e.generation

section

variable {d : Debouncer} {e : Edit} {a : Action} {as : List Action}

theorem Lost.act (h : d.Lost e) (a : Action) : (d.act a).Lost e := by
  refine ⟨Nat.le_trans h.le_issued (d.issued_le_act a), ?_, ?_⟩
  · intro f hm
    cases d.effect_act a with
    | @drawn text immediate _ hu =>
      rw [hu] at hm
      rcases List.mem_cons.1 ((d.flight_draw text immediate).mem_iff.1 hm) with rfl | hm
      · have hle := h.le_issued
        simp only [nextEdit]
        omega
      · exact h.flight f hm
    | moved _ _ hf _ => exact h.flight f (hf.mem_iff.1 hm)
    | dropped _ _ hf _ => exact h.flight f (hf.mem_iff.2 (List.mem_cons_of_mem _ hm))
    | shown _ _ _ _ _ hf _ => exact h.flight f (hf.mem_iff.2 (List.mem_cons_of_mem _ hm))
  · intro r hr
    cases d.effect_act a with
    | drawn _ hu =>
      rw [hu] at hr
      exact h.latest r hr
    | moved _ hu _ _ => exact h.latest r (hu.latest ▸ hr)
    | dropped _ hu _ _ => exact h.latest r (hu.latest ▸ hr)
    | shown _ _ _ hl hc _ _ =>
      rw [hl] at hr
      cases hr
      exact h.flight _ (mem_flight_of_cleared hc)

theorem Lost.acts (h : d.Lost e) (as : List Action) : (d.acts as).Lost e := by
  induction as generalizing d with
  | nil => exact h
  | cons a as ih => exact ih (h.act a)

/-- Taking another edit does not change the last result. -/
theorem Overtakes.latest (h : d.Overtakes a e) : (d.act a).latest = d.latest := by
  obtain ⟨rfl, -, -⟩ := h
  cases d.effect_act .receive with
  | drawn ha _ => cases ha
  | moved _ hu _ _ => exact hu.latest
  | dropped _ hu _ _ => exact hu.latest
  | shown ha _ _ _ _ _ _ => cases ha

theorem Overtakes.lost (h : d.Orderly) (ho : d.Overtakes a e) : (d.act a).Lost e := by
  obtain ⟨hle, -, -, hne⟩ := h.of_leave ho.flight
  refine ⟨Nat.le_trans hle (d.issued_le_act a), hne, fun r hr heq => ?_⟩
  rw [ho.latest] at hr
  exact h.latest_fresh r hr e (ho.flight.mem_iff.2 List.mem_cons_self) heq.symm

theorem overtaken_append (bs : List Action) :
    d.Overtaken e (as ++ bs) ↔ d.Overtaken e as ∨ (d.acts as).Overtaken e bs := by
  induction as generalizing d with
  | nil => exact (or_iff_right id).symm
  | cons a as ih => exact (or_congr_right ih).trans or_assoc.symm

theorem Overtaken.lost (h : d.Orderly) (ho : d.Overtaken e as) : (d.acts as).Lost e := by
  induction as generalizing d with
  | nil => exact ho.elim
  | cons a as ih =>
    rcases ho with ho | ho
    · exact (ho.lost h).acts as
    · exact ih (h.act a) ho

/-! ## Edits that are shown -/

theorem render_act (a : Action) : (d.act a).render e = d.render e := by
  simp [render, vocabulary_act]

theorem render_acts (as : List Action) : (d.acts as).render e = d.render e := by
  induction as generalizing d with
  | nil => rfl
  | cons a as ih => exact (ih (d := d.act a)).trans (render_act a)

/-- The result of the newest edit is not replaced. -/
theorem shown_act (h : d.Orderly) (he : e.generation = d.issued) (ha : a.draws = false)
    (hs : d.latest = some (d.render e)) : (d.act a).latest = some (d.render e) := by
  cases d.effect_act a with
  | drawn ha' hu =>
    rw [ha'] at ha
    cases ha
  | moved _ hu _ _ => rw [hu.latest, hs]
  | dropped _ hu _ _ => rw [hu.latest, hs]
  | @shown f _ _ _ _ hc _ _ =>
    have hlt : e.generation < f.generation := h.cleared f hc _ hs
    have hle := h.le_issued f (mem_flight_of_cleared hc)
    omega

/-- The newest edit stays in flight until it is overtaken or shown. -/
theorem mem_flight_act (he : e.generation = d.issued) (ha : a.draws = false)
    (hm : e ∈ d.flight) (hno : ¬ d.Overtakes a e) :
    e ∈ (d.act a).flight ∨ (d.act a).latest = some (d.render e) := by
  cases d.effect_act a with
  | drawn ha' hu =>
    rw [ha'] at ha
    cases ha
  | moved _ _ hf _ => exact .inl (hf.mem_iff.2 hm)
  | @dropped f hr _ hf _ =>
    rcases List.mem_cons.1 (hf.mem_iff.1 hm) with rfl | hm'
    · rcases hr with ho | ⟨-, hg⟩
      · exact absurd ho hno
      · exact absurd he hg
    · exact .inl hm'
  | @shown f _ _ _ hl _ hf _ =>
    rcases List.mem_cons.1 (hf.mem_iff.1 hm) with rfl | hm'
    · exact .inr hl
    · exact .inl hm'

/-- Until it is overtaken, the newest edit is in flight or shown. -/
theorem mem_flight_or_shown (h : d.Orderly) (he : e.generation = d.issued)
    (has : ∀ a ∈ as, a.draws = false) (hno : ¬ d.Overtaken e as)
    (hm : e ∈ d.flight ∨ d.latest = some (d.render e)) :
    e ∈ (d.acts as).flight ∨ (d.acts as).latest = some (d.render e) := by
  induction as generalizing d with
  | nil => exact hm
  | cons a as ih =>
    obtain ⟨ha, has⟩ := List.forall_mem_cons.1 has
    obtain ⟨hnow, hlater⟩ := not_or.1 hno
    have hstep : e ∈ (d.act a).flight ∨ (d.act a).latest = some ((d.act a).render e) := by
      rw [render_act]
      rcases hm with hm | hs
      · exact mem_flight_act he ha hm hnow
      · exact .inr (shown_act h he ha hs)
    have hrun := ih (h.act a) (he.trans (issued_act ha).symm) has hlater hstep
    rwa [render_act] at hrun

/-! ## Runs that draw the newest edit -/

theorem newest?_eq_none (h : d.newest? as = none) : ∀ a ∈ as, a.draws = false := by
  induction as generalizing d with
  | nil => simp
  | cons a as ih =>
    obtain ⟨hrest, ha⟩ := Option.or_eq_none_iff.1 h
    refine List.forall_mem_cons.2 ⟨?_, ih hrest⟩
    cases a with
    | draw text immediate => cases ha
    | _ => rfl

/-- A run up to the step that draws its newest edit, and from there on. -/
theorem newest?_eq_some (h : d.newest? as = some e) :
    ∃ before text immediate after,
      as = before ++ .draw text immediate :: after ∧ (∀ a ∈ after, a.draws = false) ∧
        e = (d.acts before).nextEdit text immediate := by
  induction as generalizing d with
  | nil => cases h
  | cons a as ih =>
    rcases Option.or_eq_some_iff.1 h with hrest | ⟨hrest, ha⟩
    · obtain ⟨before, text, immediate, after, rfl, hafter, rfl⟩ := ih hrest
      exact ⟨a :: before, text, immediate, after, rfl, hafter, rfl⟩
    · obtain ⟨text, immediate, rfl, rfl⟩ := of_drawn? ha
      exact ⟨[], text, immediate, as, rfl, newest?_eq_none hrest, rfl⟩

theorem newest_shown_iff (h : d.Orderly) (hn : d.newest? as = some e)
    (hdone : (d.acts as).flight = []) :
    (d.acts as).issued = e.generation ∧
      ((d.acts as).latest = some (d.render e) ↔ ¬ d.Overtaken e as) := by
  obtain ⟨before, text, immediate, after, rfl, hafter, rfl⟩ := newest?_eq_some hn
  rw [acts_append] at hdone ⊢
  refine ⟨issued_acts hafter, fun hs ho => ?_, fun hno => ?_⟩
  · have hlost := ho.lost h
    rw [acts_append] at hlost
    exact hlost.latest _ hs rfl
  · have hlater := fun ho => hno ((overtaken_append _).2 (.inr (.inr ho)))
    have hm := ((d.acts before).flight_draw text immediate).mem_iff.2 List.mem_cons_self
    have hrender : ((d.acts before).act (.draw text immediate)).render
        ((d.acts before).nextEdit text immediate) =
        d.render ((d.acts before).nextEdit text immediate) := by
      rw [render_act, render_acts]
    rw [← hrender]
    refine (mem_flight_or_shown ((orderly_acts h before).act _) rfl hafter hlater
      (.inl hm)).resolve_left fun hm => ?_
    have hnil : ((d.acts before).act (.draw text immediate) |>.acts after).flight = [] := hdone
    rw [hnil] at hm
    cases hm

/-! ## Edits that are sent last -/

/-- No other edit is queued behind this one. -/
def Rearmost (d : Debouncer) (e : Edit) : Prop := ∀ q f, d.queue = q ++ [f] → f = e

/-- Without sending, the queue only gets shorter at the front. -/
theorem queue_suffix_act (d : Debouncer) (ha : a.sends = false) :
    (d.act a).queue <:+ d.queue := by
  cases a with
  | send f => cases ha
  | receive =>
    simp only [act, receive]
    split
    · next hq => exact hq ▸ List.suffix_cons _ _
    · next hq => exact hq ▸ List.suffix_cons _ _
    · exact List.suffix_refl _
  | elapse | check | publish | take =>
    simp only [act, elapse, check, publish, take]
    split <;> exact List.suffix_refl _
  | _ => exact List.suffix_refl _

theorem Rearmost.act (h : d.Rearmost e) (ha : a.sends = false) : (d.act a).Rearmost e := by
  intro q f hq
  obtain ⟨p, hp⟩ := d.queue_suffix_act ha
  rw [hq, ← List.append_assoc] at hp
  exact h _ f hp.symm

/-- An edit that is at the rear of the queue is not with the worker. -/
theorem Rearmost.not_overtakes (hr : d.Rearmost e) (h : d.Orderly) : ¬ d.Overtakes a e := by
  rintro ⟨-, hw, hq⟩
  have heq := hr _ _ (List.dropLast_concat_getLast hq).symm
  have hm : e ∈ d.queue := heq ▸ List.getLast_mem hq
  have hflight : d.flight = e :: (d.queue ++ d.unsent) := by simp [flight, hw]
  have hnodup := h.nodup
  rw [hflight, List.map_cons, List.nodup_cons] at hnodup
  exact hnodup.1 (List.mem_map_of_mem (List.mem_append_left _ hm))

theorem Rearmost.not_overtaken (hr : d.Rearmost e) (h : d.Orderly)
    (has : ∀ a ∈ as, a.sends = false) : ¬ d.Overtaken e as := by
  induction as generalizing d with
  | nil => exact id
  | cons a as ih =>
    obtain ⟨ha, has⟩ := List.forall_mem_cons.1 has
    exact fun ho => ho.elim (hr.not_overtakes h) (ih (hr.act ha) (h.act a) has)

/-- **The newest edit is shown if it is sent last.** -/
theorem shown_of_sent_last (v : Vocabulary) (before after : List Action) (e : Edit)
    (hnewest : (new v).newest? (before ++ .send e :: after) = some e)
    (hsent : e ∈ ((new v).acts before).unsent) (hafter : ∀ a ∈ after, a.sends = false)
    (hdone : ((new v).acts (before ++ .send e :: after)).flight = []) :
    ((new v).acts (before ++ .send e :: after)).latest = some ((new v).render e) := by
  have h := orderly_acts (orderly_new v) before
  refine (newest_shown_iff (orderly_new v) hnewest hdone).2.2 fun ho => ?_
  rcases (overtaken_append _).1 ho with ho | ⟨hr, -⟩ | ho
  · have hm : e ∈ ((new v).acts before).flight := List.mem_append_right _ hsent
    exact (ho.lost (orderly_new v)).flight e hm rfl
  · cases hr
  · refine Rearmost.not_overtaken (fun q f hq => ?_) (h.act (.send e)) hafter ho
    have hqueue : (((new v).acts before).act (.send e)).queue =
        ((new v).acts before).queue ++ [e] := by simp [act, send, hsent]
    rw [hqueue] at hq
    exact (List.singleton_inj.1 (List.append_inj' hq rfl).2).symm

end

/-! ## The main statement -/

/-- **A newest edit that is overtaken is not shown.**  Any number of parties draw and
    send edits from the start, in any order with each other, with the worker and with
    the receiver, and in the end all that was drawn is sent, the queue is empty and the
    worker is idle.  Then the newest edit has the newest generation, and the last result
    is that of this edit if and only if the worker did not take another edit while it
    waited with it. -/
theorem newest_shown_iff_not_overtaken (v : Vocabulary) (as : List Action) (e : Edit)
    (hnewest : (new v).newest? as = some e) (hunsent : ((new v).acts as).unsent = [])
    (hqueue : ((new v).acts as).queue = []) (hworker : ((new v).acts as).worker = .idle) :
    ((new v).acts as).issued = e.generation ∧
      (((new v).acts as).latest = some ⟨e.generation, highlight v e.text⟩ ↔
        ¬ (new v).Overtaken e as) :=
  newest_shown_iff (orderly_new v) hnewest (by simp [flight, hunsent, hqueue, hworker])

/-- Two parties that send in the order of their edits. -/
theorem newest_shown_of_sent_in_order :
    ¬ (new Vocabulary.builtin).Overtaken ⟨2, ['b'], false⟩ [.draw ['a'] false, .draw ['b'] false,
        .send ⟨1, ['a'], false⟩, .send ⟨2, ['b'], false⟩, .receive, .receive, .elapse, .check,
        .publish] ∧
      ((new Vocabulary.builtin).acts [.draw ['a'] false, .draw ['b'] false,
        .send ⟨1, ['a'], false⟩, .send ⟨2, ['b'], false⟩, .receive, .receive, .elapse, .check,
        .publish]).latest = some ⟨2, highlight Vocabulary.builtin ['b']⟩ := by
  have hno : ¬ (new Vocabulary.builtin).Overtaken ⟨2, ['b'], false⟩
      [.draw ['a'] false, .draw ['b'] false, .send ⟨1, ['a'], false⟩, .send ⟨2, ['b'], false⟩,
        .receive, .receive, .elapse, .check, .publish] := by decide
  exact ⟨hno, (newest_shown_iff_not_overtaken _ _ _ rfl rfl rfl rfl).2.2 hno⟩

/-- Two parties that send in the other order: the worker waits with the newest edit,
    takes the old one in its place, and drops that one, so that nothing is shown. -/
theorem newest_lost_when_sent_first :
    let d := (new Vocabulary.builtin).acts [.draw ['a'] false, .draw ['b'] false,
      .send ⟨2, ['b'], false⟩, .send ⟨1, ['a'], false⟩, .receive, .receive, .elapse, .check]
    d.unsent = [] ∧ d.queue = [] ∧ d.worker = .idle ∧ d.issued = 2 ∧ d.latest = none :=
  ⟨rfl, rfl, rfl, rfl, rfl⟩

end CodeSnippets.Debouncer
