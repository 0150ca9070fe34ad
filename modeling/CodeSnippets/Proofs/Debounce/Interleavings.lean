/-
  Steps of several submitters, the worker and the receiver in any order.

  * `Action`, `Debouncer.act`, `Debouncer.acts`: a step of some party, and steps one
    after the other;
  * `Debouncer.flight`: the edits that have a generation and are neither published
    nor dropped;
  * `effect_act`: what a step does to the edits in flight.  It draws one, leaves them
    as they are, drops one that is overtaken or stale, or publishes one;
  * `Orderly`: no generation is in two places, and none is older than the result that
    it would replace.  This holds in every run (`orderly_acts`).
-/
import CodeSnippets.Proofs.Debounce.Runs

namespace CodeSnippets

/-- A step of some party. -/
inductive Action where
  | draw (text : Text) (immediate : Bool)
  | send (e : Edit)
  | receive
  | elapse
  | check
  | publish
  | take
  | judge
  deriving DecidableEq, Repr

/-- Whether a step hands out a generation. -/
def Action.draws : Action → Bool
  | .draw _ _ => true
  | _ => false

/-- Whether a step puts an edit into the queue. -/
def Action.sends : Action → Bool
  | .send _ => true
  | _ => false

/-- The edit that the worker has. -/
def Worker.edits : Worker → List Edit
  | .idle => []
  | .waiting e | .due e | .cleared e => [e]

@[simp] theorem Worker.edits_idle : Worker.idle.edits = [] := rfl

@[simp] theorem Worker.edits_waiting (e : Edit) : (Worker.waiting e).edits = [e] := rfl

@[simp] theorem Worker.edits_due (e : Edit) : (Worker.due e).edits = [e] := rfl

@[simp] theorem Worker.edits_cleared (e : Edit) : (Worker.cleared e).edits = [e] := rfl

@[simp] theorem Worker.edits_begin (e : Edit) : (Worker.begin e).edits = [e] := by
  unfold Worker.begin
  split <;> rfl

namespace Debouncer

/-- A step. -/
def act (d : Debouncer) : Action → Debouncer
  | .draw text immediate => d.draw text immediate
  | .send e => d.send e
  | .receive => d.receive
  | .elapse => d.elapse
  | .check => d.check
  | .publish => d.publish
  | .take => d.take
  | .judge => d.judge.2

/-- Steps one after the other. -/
def acts (d : Debouncer) (as : List Action) : Debouncer := as.foldl act d

theorem acts_append (d : Debouncer) (as bs : List Action) :
    d.acts (as ++ bs) = (d.acts as).acts bs := List.foldl_append

/-- The edits that have a generation and are neither published nor dropped. -/
def flight (d : Debouncer) : List Edit := d.worker.edits ++ d.queue ++ d.unsent

/-- The result of an edit. -/
def render (d : Debouncer) (e : Edit) : Rendering :=
  ⟨e.generation, highlight d.vocabulary e.text⟩

/-! ## What a step does -/

/-- The parts of a debouncer that only drawing and publishing change. -/
structure Still (d u : Debouncer) : Prop where
  vocabulary : u.vocabulary = d.vocabulary
  issued : u.issued = d.issued
  latest : u.latest = d.latest

/-- The edit of the worker gives way to the next one in the queue. -/
def Overtakes (d : Debouncer) (a : Action) (f : Edit) : Prop :=
  a = .receive ∧ d.worker = .waiting f ∧ d.queue ≠ []

/-- What a step does to the edits in flight. -/
inductive Effect (d : Debouncer) (a : Action) (u : Debouncer) : Prop where
  | drawn {text : Text} {immediate : Bool} (ha : a = .draw text immediate)
      (h : u = d.draw text immediate)
  | moved (ha : a.draws = false) (h : d.Still u) (hf : u.flight.Perm d.flight)
      (hw : ∀ f, u.worker = .cleared f → d.worker = .cleared f ∨ f.generation = d.issued)
  | dropped {f : Edit} (hr : d.Overtakes a f ∨ (a = .check ∧ f.generation ≠ d.issued))
      (h : d.Still u) (hf : d.flight.Perm (f :: u.flight)) (hw : ∀ f, u.worker ≠ .cleared f)
  | shown {f : Edit} (ha : a = .publish) (hv : u.vocabulary = d.vocabulary)
      (hi : u.issued = d.issued) (hl : u.latest = some (d.render f))
      (hc : d.worker = .cleared f) (hf : d.flight.Perm (f :: u.flight))
      (hw : ∀ f, u.worker ≠ .cleared f)

theorem not_cleared_begin (e f : Edit) : Worker.begin e ≠ .cleared f := by
  unfold Worker.begin
  split <;> simp

theorem effect_send (d : Debouncer) (e : Edit) : d.Effect (.send e) (d.send e) := by
  by_cases he : e ∈ d.unsent
  · refine .moved rfl ?_ ?_ fun f hf => .inl ?_
    · rw [send, if_pos he]
      exact ⟨rfl, rfl, rfl⟩
    · rw [send, if_pos he]
      have hperm : (e :: d.unsent.erase e).Perm d.unsent := (List.perm_cons_erase he).symm
      simp only [flight, List.append_assoc, List.singleton_append]
      exact (hperm.append_left _).append_left _
    · rw [send, if_pos he] at hf
      exact hf
  · rw [send, if_neg he]
    exact .moved rfl ⟨rfl, rfl, rfl⟩ (.refl _) fun f hf => .inl hf

/-- An edit that is overtaken leaves, and all others stay. -/
theorem Overtakes.flight {d : Debouncer} {a : Action} {f : Edit} (h : d.Overtakes a f) :
    d.flight.Perm (f :: (d.act a).flight) := by
  obtain ⟨rfl, hw, hq⟩ := h
  obtain ⟨e, queue, hq⟩ := List.exists_cons_of_ne_nil hq
  rw [act, receive_eq hq (.inr ⟨f, hw⟩)]
  simp [Debouncer.flight, hq, hw]

theorem effect_receive (d : Debouncer) : d.Effect .receive d.receive := by
  cases hq : d.queue with
  | nil =>
    have heq : d.receive = d := by simp [receive, hq]
    rw [heq]
    exact .moved rfl ⟨rfl, rfl, rfl⟩ (.refl _) fun f hf => .inl hf
  | cons e queue =>
    cases hw : d.worker with
    | idle =>
      rw [receive_eq hq (.inl hw)]
      refine .moved rfl ⟨rfl, rfl, rfl⟩ ?_ fun f hf => absurd hf (not_cleared_begin e f)
      simp [flight, hq, hw]
    | waiting f =>
      have ho : d.Overtakes .receive f := ⟨rfl, hw, by simp [hq]⟩
      have hf := ho.flight
      rw [act] at hf
      rw [receive_eq hq (.inr ⟨f, hw⟩)] at hf ⊢
      exact .dropped (.inl ho) ⟨rfl, rfl, rfl⟩ hf (not_cleared_begin e)
    | due f =>
      have heq : d.receive = d := by simp [receive, hw]
      rw [heq]
      exact .moved rfl ⟨rfl, rfl, rfl⟩ (.refl _) fun f hf => .inl hf
    | cleared f =>
      have heq : d.receive = d := by simp [receive, hw]
      rw [heq]
      exact .moved rfl ⟨rfl, rfl, rfl⟩ (.refl _) fun f hf => .inl hf

theorem effect_elapse (d : Debouncer) : d.Effect .elapse d.elapse := by
  cases hw : d.worker with
  | waiting e =>
    rw [elapse_eq hw]
    exact .moved rfl ⟨rfl, rfl, rfl⟩ (by simp [flight, hw]) fun f hf => by cases hf
  | _ =>
    have heq : d.elapse = d := by simp [elapse, hw]
    rw [heq]
    exact .moved rfl ⟨rfl, rfl, rfl⟩ (.refl _) fun f hf => .inl hf

theorem effect_check (d : Debouncer) : d.Effect .check d.check := by
  cases hw : d.worker with
  | due e =>
    rw [check_eq hw]
    by_cases hg : e.generation = d.issued
    · have hcurrent : d.isCurrent e.generation = true := by simp [isCurrent, hg]
      rw [if_pos hcurrent]
      refine .moved rfl ⟨rfl, rfl, rfl⟩ (by simp [flight, hw]) fun f hf => .inr ?_
      cases hf
      exact hg
    · have hcurrent : ¬ d.isCurrent e.generation = true := by simp [isCurrent, hg]
      rw [if_neg hcurrent]
      exact .dropped (.inr ⟨rfl, hg⟩) ⟨rfl, rfl, rfl⟩ (by simp [flight, hw]) fun f hf => by cases hf
  | _ =>
    have heq : d.check = d := by simp [check, hw]
    rw [heq]
    exact .moved rfl ⟨rfl, rfl, rfl⟩ (.refl _) fun f hf => .inl hf

theorem effect_publish (d : Debouncer) : d.Effect .publish d.publish := by
  cases hw : d.worker with
  | cleared e =>
    rw [publish_eq hw]
    exact .shown rfl rfl rfl rfl hw (by simp [flight, hw]) fun f hf => by cases hf
  | _ =>
    have heq : d.publish = d := by simp [publish, hw]
    rw [heq]
    exact .moved rfl ⟨rfl, rfl, rfl⟩ (.refl _) fun f hf => .inl hf

theorem effect_take (d : Debouncer) : d.Effect .take d.take := by
  unfold take
  split
  · exact .moved rfl ⟨rfl, rfl, rfl⟩ (.refl _) fun f hf => .inl hf
  · exact .moved rfl ⟨rfl, rfl, rfl⟩ (.refl _) fun f hf => .inl hf

/-- Every step draws an edit, leaves those in flight as they are, drops one that is
    overtaken or stale, or publishes one. -/
theorem effect_act (d : Debouncer) (a : Action) : d.Effect a (d.act a) := by
  cases a with
  | draw text immediate => exact .drawn rfl rfl
  | send e => exact d.effect_send e
  | receive => exact d.effect_receive
  | elapse => exact d.effect_elapse
  | check => exact d.effect_check
  | publish => exact d.effect_publish
  | take => exact d.effect_take
  | judge => exact .moved rfl ⟨rfl, rfl, rfl⟩ (.refl _) fun f hf => .inl hf

/-! ## Generations -/

/-- Every edit in flight has a generation of its own, and none is older than the
    result that it would replace. -/
structure Orderly (d : Debouncer) : Prop where
  le_issued : ∀ f ∈ d.flight, f.generation ≤ d.issued
  nodup : (d.flight.map Edit.generation).Nodup
  latest_le : ∀ r, d.latest = some r → r.generation ≤ d.issued
  latest_fresh : ∀ r, d.latest = some r → ∀ f ∈ d.flight, f.generation ≠ r.generation
  cleared : ∀ f, d.worker = .cleared f → ∀ r, d.latest = some r → r.generation < f.generation

theorem orderly_new (v : Vocabulary) : (new v).Orderly where
  le_issued := by simp [flight, new]
  nodup := by simp [flight, new]
  latest_le := by simp [new]
  latest_fresh := by simp [new]
  cleared := by simp [new]

theorem flight_draw (d : Debouncer) (text : Text) (immediate : Bool) :
    (d.draw text immediate).flight.Perm (d.nextEdit text immediate :: d.flight) := by
  simp only [flight, draw]
  rw [← List.append_assoc]
  exact List.perm_append_singleton _ _

theorem mem_flight_of_cleared {d : Debouncer} {f : Edit} (h : d.worker = .cleared f) :
    f ∈ d.flight := by
  simp [flight, h]

/-- The edits that stay when one leaves: each still has its own generation, and none
    has that of the one that left. -/
theorem Orderly.of_leave {d u : Debouncer} {f : Edit} (h : d.Orderly)
    (hf : d.flight.Perm (f :: u.flight)) :
    f.generation ≤ d.issued ∧ (∀ g ∈ u.flight, g.generation ≤ d.issued) ∧
      (u.flight.map Edit.generation).Nodup ∧ ∀ g ∈ u.flight, g.generation ≠ f.generation := by
  have hnodup : ((f :: u.flight).map Edit.generation).Nodup := (hf.map _).nodup_iff.1 h.nodup
  obtain ⟨hfresh, hrest⟩ := List.nodup_cons.1 hnodup
  refine ⟨h.le_issued f (hf.mem_iff.2 List.mem_cons_self), ?_, hrest, ?_⟩
  · intro g hg
    exact h.le_issued g (hf.mem_iff.2 (List.mem_cons_of_mem _ hg))
  · intro g hg heq
    exact hfresh (heq ▸ List.mem_map_of_mem hg)

theorem Orderly.draw {d : Debouncer} (h : d.Orderly) (text : Text) (immediate : Bool) :
    (d.draw text immediate).Orderly := by
  have hperm := d.flight_draw text immediate
  have hmem : ∀ f ∈ (d.draw text immediate).flight,
      f.generation = d.issued + 1 ∨ f ∈ d.flight := by
    intro f hf
    rcases List.mem_cons.1 (hperm.mem_iff.1 hf) with rfl | hf
    · exact .inl rfl
    · exact .inr hf
  refine ⟨fun f hf => ?_, ?_, fun r hr => ?_, fun r hr f hf => ?_, h.cleared⟩
  · rcases hmem f hf with heq | hf
    · exact Nat.le_of_eq heq
    · exact Nat.le_succ_of_le (h.le_issued f hf)
  · rw [(hperm.map _).nodup_iff, List.map_cons, List.nodup_cons]
    refine ⟨fun hm => ?_, h.nodup⟩
    obtain ⟨f, hf, heq⟩ := List.mem_map.1 hm
    have hle := h.le_issued f hf
    rw [heq] at hle
    exact Nat.not_succ_le_self _ hle
  · exact Nat.le_succ_of_le (h.latest_le r hr)
  · rcases hmem f hf with heq | hf
    · have hle := h.latest_le r hr
      omega
    · exact h.latest_fresh r hr f hf

theorem Orderly.act {d : Debouncer} (h : d.Orderly) (a : Action) : (d.act a).Orderly := by
  cases d.effect_act a with
  | @drawn text immediate ha hu =>
    rw [hu]
    exact h.draw text immediate
  | moved ha hs hf hw =>
    have hfresh : ∀ r, d.latest = some r → ∀ f ∈ (d.act a).flight, f.generation ≠ r.generation :=
      fun r hr f hm => h.latest_fresh r hr f (hf.mem_iff.1 hm)
    refine ⟨fun f hm => ?_, (hf.map _).nodup_iff.2 h.nodup, ?_, ?_, fun f hc r hr => ?_⟩
    · rw [hs.issued]
      exact h.le_issued f (hf.mem_iff.1 hm)
    · rw [hs.issued, hs.latest]
      exact h.latest_le
    · rw [hs.latest]
      exact hfresh
    · rw [hs.latest] at hr
      rcases hw f hc with hc' | hg
      · exact h.cleared f hc' r hr
      · -- an edit is cleared when it is the newest, and the last result is of another
        have hne := hfresh r hr f (mem_flight_of_cleared hc)
        have hle := h.latest_le r hr
        omega
  | dropped hr hs hf hw =>
    obtain ⟨-, hle, hnodup, -⟩ := h.of_leave hf
    refine ⟨fun f hm => ?_, hnodup, ?_, ?_, fun f hc => absurd hc (hw f)⟩
    · rw [hs.issued]
      exact hle f hm
    · rw [hs.issued, hs.latest]
      exact h.latest_le
    · rw [hs.latest]
      exact fun r hr f hm => h.latest_fresh r hr f (hf.mem_iff.2 (List.mem_cons_of_mem _ hm))
  | shown ha hv hi hl hc hf hw =>
    obtain ⟨hfle, hle, hnodup, hne⟩ := h.of_leave hf
    refine ⟨fun f hm => ?_, hnodup, fun r hr => ?_, fun r hr => ?_, fun f hc => absurd hc (hw f)⟩
    · rw [hi]
      exact hle f hm
    · rw [hl] at hr
      cases hr
      rw [hi]
      exact hfle
    · rw [hl] at hr
      cases hr
      exact hne

theorem orderly_acts {d : Debouncer} (h : d.Orderly) (as : List Action) : (d.acts as).Orderly := by
  induction as generalizing d with
  | nil => exact h
  | cons a as ih => exact ih (h.act a)

theorem vocabulary_act (d : Debouncer) (a : Action) : (d.act a).vocabulary = d.vocabulary := by
  cases d.effect_act a with
  | drawn _ h => rw [h, draw]
  | moved _ h _ _ => exact h.vocabulary
  | dropped _ h _ _ => exact h.vocabulary
  | shown _ hv _ _ _ _ _ => exact hv

theorem issued_le_act (d : Debouncer) (a : Action) : d.issued ≤ (d.act a).issued := by
  cases d.effect_act a with
  | drawn _ h =>
    rw [h, draw]
    exact Nat.le_succ _
  | moved _ h _ _ => exact Nat.le_of_eq h.issued.symm
  | dropped _ h _ _ => exact Nat.le_of_eq h.issued.symm
  | shown _ _ hi _ _ _ _ => exact Nat.le_of_eq hi.symm

theorem issued_act {d : Debouncer} {a : Action} (ha : a.draws = false) :
    (d.act a).issued = d.issued := by
  cases d.effect_act a with
  | drawn ha' _ =>
    rw [ha'] at ha
    cases ha
  | moved _ h _ _ => exact h.issued
  | dropped _ h _ _ => exact h.issued
  | shown _ _ hi _ _ _ _ => exact hi

theorem issued_acts {d : Debouncer} {as : List Action} (has : ∀ a ∈ as, a.draws = false) :
    (d.acts as).issued = d.issued := by
  induction as generalizing d with
  | nil => rfl
  | cons a as ih =>
    obtain ⟨ha, has⟩ := List.forall_mem_cons.1 has
    exact (ih has).trans (issued_act ha)

end Debouncer

end CodeSnippets
