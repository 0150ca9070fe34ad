/-
  What a request does to the snippets of a store.

  Requests that only ask do change the shelf, since they drop what has expired, and so
  does a save that fails.  Still nobody can tell that they were made:

  * `Service.responses`: the responses to requests while time goes by;
  * `Service.Alike`: services whose stores differ only in what has expired respond in
    the same way to whatever comes (`Alike.responses`);
  * `Store.Unnoticed`: a store has changed, but what is live has not, nor any response
    to come, as long as the same ids are drawn;
  * `Store.Adds`, `Store.Removes`: a store with one entry more, or without an id;
  * `Store.Outcome`: the ways in which a request ends (`outcome_of_handle`);
  * `request_effects`: which of these a request does, told from its response.
-/
import CodeSnippets.Proofs.Snippets.FailedSaves
import CodeSnippets.Proofs.Snippets.SavedTexts

namespace CodeSnippets

/-! ## Services that respond alike -/

namespace Service

/-- The responses to the requests among some events. -/
def responses (s : Service) : List ApiEvent → List (Except Abort (Option Response))
  | [] => []
  | .advance ms :: es => (s.advance ms).responses es
  | .request r :: es => (handle s r).1 :: (handle s r).2.responses es

/-- Two services whose stores differ only in entries that have expired. -/
def Alike (a b : Service) : Prop := ∃ s t : Store, s.Alike t ∧ a = ⟨some s⟩ ∧ b = ⟨some t⟩

/-- Two calls that have the same answer and leave services that are alike. -/
def Agree {α : Type} (x y : α × Service) : Prop := y.1 = x.1 ∧ x.2.Alike y.2

section

variable {a b : Service} (h : a.Alike b)

include h

theorem Alike.advance (ms : Nat) : (a.advance ms).Alike (b.advance ms) := by
  obtain ⟨s, t, hst, rfl, rfl⟩ := h
  exact ⟨_, _, hst.advance ms, rfl, rfl⟩

theorem Alike.withStore {α : Type} {f : Store → Answer StoreError α × Store}
    (hf : ∀ {s t : Store}, s.Alike t → (f t).1 = (f s).1 ∧ (f s).2.Alike (f t).2) :
    Agree (a.withStore f) (b.withStore f) := by
  obtain ⟨s, t, hst, rfl, rfl⟩ := h
  obtain ⟨hanswer, hstore⟩ := hf hst
  exact ⟨hanswer, _, _, hstore, rfl, rfl⟩

theorem Alike.isConfigured : a.isConfigured = true ∧ b.isConfigured = true := by
  obtain ⟨s, t, -, rfl, rfl⟩ := h
  exact ⟨rfl, rfl⟩

theorem Alike.save (text : Text) : Agree (a.save text) (b.save text) := by
  refine h.withStore fun hst => ?_
  split
  · exact ⟨rfl, hst⟩
  · exact hst.save text

theorem Alike.get (text : Text) : Agree (a.get text) (b.get text) := by
  unfold Service.get
  cases SnippetId.ofText? text with
  | none => exact ⟨rfl, h⟩
  | some id =>
    simp only [h.isConfigured, if_true]
    exact h.withStore fun hst => hst.get id

theorem Alike.delete (text : Text) : Agree (a.delete text) (b.delete text) := by
  unfold Service.delete
  cases SnippetId.ofText? text with
  | none => exact ⟨rfl, h⟩
  | some id =>
    obtain ⟨hanswer, hservice⟩ := h.withStore fun hst => hst.delete id
    exact ⟨congrArg (fun answer => answer.map fun _ => id) hanswer, hservice⟩

theorem Alike.list : Agree a.list b.list := h.withStore fun hst => hst.list

end

theorem Agree.respond {α : Type} {x y : Answer StoreError α × Service} (h : Agree x y)
    (f : α → Response) : Agree (CodeSnippets.respond f x) (CodeSnippets.respond f y) :=
  ⟨congrArg (fun answer => (Response.ofAnswer f answer).map some) h.1, h.2⟩

/-- Services that are alike respond in the same way, and stay alike. -/
theorem Alike.handle {a b : Service} (h : a.Alike b) (r : Request) :
    Agree (CodeSnippets.handle a r) (CodeSnippets.handle b r) := by
  unfold CodeSnippets.handle
  cases r.route? with
  | none => exact ⟨rfl, h⟩
  | some route =>
    cases route with
    | preflight => exact ⟨rfl, h⟩
    | save => exact (h.save r.body).respond _
    | get => exact (h.get _).respond _
    | delete => exact (h.delete _).respond _
    | list => exact h.list.respond _

/-- No requests tell two services apart that are alike, however time goes by. -/
theorem Alike.responses {a b : Service} (h : a.Alike b) (es : List ApiEvent) :
    b.responses es = a.responses es := by
  induction es generalizing a b with
  | nil => rfl
  | cons e es ih =>
    cases e with
    | advance ms => exact ih (h.advance ms)
    | request r =>
      obtain ⟨hresponse, hservice⟩ := h.handle r
      rw [Service.responses, Service.responses, hresponse, ih hservice]

end Service

/-! ## Changes of a store -/

namespace Store

/-- Nobody notices that a store has changed: the same entries are live from now on, and
    requests to come have the same responses if the same ids are drawn. -/
structure Unnoticed (s t : Store) : Prop where
  live : ∀ now, s.now ≤ now → t.shelf.liveEntries now = s.shelf.liveEntries now
  later : ∀ source drawn es, (⟨some { t with source, drawn }⟩ : Service).responses es =
    (⟨some { s with source, drawn }⟩ : Service).responses es

/-- A store has one entry more, under an id that was not live, and keeps the entries that
    are live. -/
structure Adds (s t : Store) (e : Entry) : Prop where
  fresh : ∀ x ∈ s.shelf.liveEntries s.now, x.id ≠ e.id
  entries : ∀ x, x ∈ t.shelf.entries ↔ x = e ∨ x ∈ s.shelf.liveEntries s.now

/-- A store lacks the entry of an id, if there was one, and keeps all others. -/
def Removes (s t : Store) (id : SnippetId) : Prop :=
  ∀ x, x ∈ t.shelf.entries ↔ x ∈ s.shelf.entries ∧ x.id ≠ id

theorem Alike.redrawn {s t : Store} (h : s.Alike t) (source : Nat → Nat) (drawn : Nat) :
    { s with source, drawn }.Alike { t with source, drawn } := by
  obtain ⟨shelf, hlive, rfl⟩ := h
  exact ⟨shelf, hlive, rfl⟩

/-- Nobody notices which numbers have been used and what has been dropped after it had
    expired. -/
theorem unnoticed_of_alike {s t : Store} (drawn : Nat) (h : { s with drawn }.Alike t) :
    s.Unnoticed t := by
  refine ⟨fun now hnow => ?_, fun source drawn' es =>
    Service.Alike.responses ⟨_, _, h.redrawn source drawn', rfl, rfl⟩ es⟩
  obtain ⟨shelf, hlive, rfl⟩ := h
  have hpurge : shelf.purge now = s.shelf.purge now := by
    rw [← shelf.purge_purge hnow, ← s.shelf.purge_purge hnow, hlive]
  exact congrArg Shelf.entries hpurge

theorem Alike.unnoticed {s t : Store} (h : s.Alike t) : s.Unnoticed t :=
  unnoticed_of_alike s.drawn h

theorem Unnoticed.refl (s : Store) : s.Unnoticed s := (Alike.refl s).unnoticed

theorem adds_insert {s : Store} {e : Entry} (hfree : (s.shelf.purge s.now).holds e.id = false)
    (drawn : Nat) : s.Adds { s with shelf := (s.shelf.purge s.now).insert e, drawn } e := by
  have hfresh : ∀ x ∈ s.shelf.liveEntries s.now, x.id ≠ e.id := by
    intro x hx hid
    have hholds : (s.shelf.purge s.now).holds e.id = true := Shelf.holds_iff.2 ⟨x, hx, hid⟩
    rw [hfree] at hholds
    cases hholds
  refine ⟨hfresh, fun x => ?_⟩
  rw [Shelf.mem_insert, Shelf.purge_entries]
  exact or_congr_right (and_iff_left_of_imp (hfresh x))

/-- A delete is refused, or takes the id out. -/
theorem delete_cases (s : Store) (id : SnippetId) :
    (s.poisoned = true ∧ s.delete id = (.error (.error .lockPoisoned), s)) ∨
    (s.poisoned = false ∧ s.delete id = (.ok (), { s with shelf := s.shelf.erase id })) := by
  cases hp : s.poisoned with
  | true => exact .inl ⟨rfl, by simp [delete, hp]⟩
  | false => exact .inr ⟨rfl, by simp [delete, hp]⟩

end Store

/-! ## Requests -/

/-- The method of the requests for a route. -/
def Route.method : Route → Method
  | preflight => .options
  | save => .post
  | get | list => .get
  | delete => .delete

theorem method_of_route? {r : Request} {route : Route} (h : r.route? = some route) :
    r.method = route.method := by
  unfold Request.route? at h
  cases hm : r.method with
  | options =>
    rw [hm] at h
    cases h
    rfl
  | put =>
    rw [hm] at h
    cases h
  | post =>
    simp only [hm] at h
    split at h <;> cases h
    rfl
  | delete =>
    simp only [hm] at h
    split at h <;> cases h
    rfl
  | get =>
    simp only [hm] at h
    split at h
    · cases h
      rfl
    · split at h <;> cases h
      rfl

theorem StoreError.status_ne_200 (e : StoreError) : e.status ≠ 200 := by
  cases e <;> simp [StoreError.status]

theorem respond_snd {α : Type} {f : α → Response} {call : Answer StoreError α × Service}
    {result : Except Abort (Option Response)} {t : Store}
    (h : respond f call = (result, ⟨some t⟩)) : call.2 = ⟨some t⟩ :=
  congrArg Prod.snd h

namespace Store

/-- The ways in which a request for a store ends that does not break off. -/
inductive Outcome (s : Store) (r : Request) : Option Response → Store → Prop
  | unrouted : Outcome s r none s
  /-- a request that asks -/
  | asked {answer : Option Response} {t : Store} (hr : r.method = .options ∨ r.method = .get)
    (ht : s.Unnoticed t) : Outcome s r answer t
  /-- an error -/
  | refused {e : StoreError} {t : Store} (ht : s.Unnoticed t) : Outcome s r (some (.ofError e)) t
  | saved {id : SnippetId} {t : Store} (hr : r.method = .post)
    (ht : s.Adds t ⟨id, r.body, s.now + s.settings.ttl⟩) : Outcome s r (some (.ofId id)) t
  | deleted {id : SnippetId} {t : Store} (hr : r.method = .delete)
    (hid : SnippetId.ofText? (r.id.getD []) = some id) (ht : s.Removes t id) :
    Outcome s r (some (.ofId id)) t

variable {s t : Store} {r : Request} {answer : Option Response}

theorem outcome_of_save (hr : r.method = .post)
    (h : respond .ofId ((⟨some s⟩ : Service).save r.body) = (.ok answer, ⟨some t⟩)) :
    s.Outcome r answer t := by
  cases hblank : (Text.trim r.body).isEmpty with
  | true =>
    rw [Service.save_of_blank hblank] at h
    cases h
    exact .refused (.refl s)
  | false =>
    rw [Service.save_of_store hblank] at h
    rcases s.save_cases r.body with ⟨-, hs⟩ | ⟨-, -, drawn, hs⟩ | ⟨-, -, id, -, hfree, drawn, hs⟩ |
      ⟨-, -, -, drawn, hs⟩
    all_goals
      rw [hs] at h
      cases h
    · exact .refused (.refl s)
    · exact .refused (unnoticed_of_alike drawn ({ s with drawn }).alike_purge)
    · exact .saved hr (adds_insert hfree drawn)

theorem outcome_of_get (hr : r.method = .get)
    (h : respond .ofText ((⟨some s⟩ : Service).get (r.id.getD [])) = (.ok answer, ⟨some t⟩)) :
    s.Outcome r answer t := by
  have hstore := respond_snd h
  cases hid : SnippetId.ofText? (r.id.getD []) with
  | none =>
    rw [Service.get_of_none hid] at hstore
    cases hstore
    exact .asked (.inr hr) (.refl s)
  | some id =>
    rw [Service.get_of_store hid] at hstore
    cases hstore
    exact .asked (.inr hr) (alike_get s id).unnoticed

theorem outcome_of_delete (hr : r.method = .delete)
    (h : respond .ofId ((⟨some s⟩ : Service).delete (r.id.getD [])) = (.ok answer, ⟨some t⟩)) :
    s.Outcome r answer t := by
  cases hid : SnippetId.ofText? (r.id.getD []) with
  | none =>
    rw [Service.delete_of_none hid] at h
    cases h
    exact .refused (.refl s)
  | some id =>
    rw [Service.delete_of_store hid] at h
    rcases s.delete_cases id with ⟨-, hs⟩ | ⟨-, hs⟩
    all_goals
      rw [hs] at h
      cases h
    · exact .refused (.refl s)
    · exact .deleted hr hid fun x => Shelf.mem_erase

theorem outcome_of_list (hr : r.method = .get)
    (h : respond .ofListing (⟨some s⟩ : Service).list = (.ok answer, ⟨some t⟩)) :
    s.Outcome r answer t := by
  cases respond_snd h
  exact .asked (.inr hr) (alike_list s).unnoticed

/-- **How a request ends.** -/
theorem outcome_of_handle (h : handle ⟨some s⟩ r = (.ok answer, ⟨some t⟩)) :
    s.Outcome r answer t := by
  unfold handle at h
  cases hr : r.route? with
  | none =>
    rw [hr] at h
    cases h
    exact .unrouted
  | some route =>
    rw [hr] at h
    cases route with
    | preflight =>
      cases h
      exact .asked (.inl (method_of_route? hr)) (.refl s)
    | save => exact outcome_of_save (method_of_route? hr) h
    | get => exact outcome_of_get (method_of_route? hr) h
    | delete => exact outcome_of_delete (method_of_route? hr) h
    | list => exact outcome_of_list (method_of_route? hr) h

/-- While a text that is saved now expires on the clock, no request breaks off. -/
theorem exists_handle_eq (s : Store) (r : Request)
    (hfit : s.now + s.settings.ttl ≤ lastInstant) :
    ∃ answer t, handle ⟨some s⟩ r = (.ok answer, ⟨some t⟩) := by
  obtain ⟨t, ht, hleaves⟩ := leaves_handle s r
  cases hanswer : (handle ⟨some s⟩ r).1 with
  | ok answer => exact ⟨answer, t, Prod.ext hanswer ht⟩
  | error a => exact absurd (hleaves.late ⟨a, hanswer⟩) (Nat.not_lt.2 hfit)

end Store

/-- **What a request does can be told from its response.**  In any state of any store,
    while a text that is saved now expires on the clock, a request has a response or no
    route.  If it has no route, if the response is that of a preflight or to a `GET`, or
    if its status is not 200, nobody notices that the request was made.  A `POST` with
    status 200 adds its body as it is, under the id of the response, and a `DELETE` with
    status 200 removes what is under the id that it names. -/
theorem request_effects (s : Store) (r : Request)
    (hfit : s.now + s.settings.ttl ≤ Store.lastInstant) :
    ∃ answer t, handle ⟨some s⟩ r = (.ok answer, ⟨some t⟩) ∧
      (answer = none ∨ answer = some .preflight ∨ r.method = .get ∨
        (∃ p, answer = some p ∧ p.status ≠ 200) → s.Unnoticed t) ∧
      (r.method = .post → ∀ p, answer = some p → p.status = 200 →
        ∃ id, p = .ofId id ∧ s.Adds t ⟨id, r.body, s.now + s.settings.ttl⟩) ∧
      (r.method = .delete → ∀ p, answer = some p → p.status = 200 →
        ∃ id, p = .ofId id ∧ SnippetId.ofText? (r.id.getD []) = some id ∧ s.Removes t id) := by
  obtain ⟨answer, t, h⟩ := s.exists_handle_eq r hfit
  refine ⟨answer, t, h, ?_⟩
  cases Store.outcome_of_handle h with
  | unrouted => exact ⟨fun _ => .refl s, by simp, by simp⟩
  | asked hr ht =>
    refine ⟨fun _ => ht, fun hpost => ?_, fun hdelete => ?_⟩
    · rw [hpost] at hr
      simp at hr
    · rw [hdelete] at hr
      simp at hr
  | refused ht =>
    refine ⟨fun _ => ht, fun _ p hp hstatus => ?_, fun _ p hp hstatus => ?_⟩
    all_goals
      cases hp
      exact absurd hstatus (StoreError.status_ne_200 _)
  | saved hr ht =>
    refine ⟨?_, fun _ p hp _ => ⟨_, (Option.some.inj hp).symm, ht⟩, ?_⟩
    · simp [hr, Response.ofId, Response.success, Response.preflight]
    · simp [hr]
  | deleted hr hid ht =>
    refine ⟨?_, ?_, fun _ p hp _ => ⟨_, (Option.some.inj hp).symm, hid, ht⟩⟩
    · simp [hr, Response.ofId, Response.success, Response.preflight]
    · simp [hr]

/-- A store with one text. -/
def oneSaved : Store := (lastingStore.save ['a']).2

/-- Nobody notices a blank text; another text is added, and the first one is removed
    under its id with blanks around it. -/
theorem request_effects_of_one_saved :
    oneSaved.now + oneSaved.settings.ttl ≤ Store.lastInstant ∧
      (∃ t, handle ⟨some oneSaved⟩ (saveRequest [' ']) =
        (.ok (some (.ofError .emptyInput)), ⟨some t⟩) ∧ oneSaved.Unnoticed t) ∧
      (∃ id t, handle ⟨some oneSaved⟩ (saveRequest ['b', ' ']) =
        (.ok (some (.ofId id)), ⟨some t⟩) ∧
          oneSaved.Adds t ⟨id, ['b', ' '], 9223372026854862207000⟩) ∧
      ∃ t, handle ⟨some oneSaved⟩
        ⟨.delete, "/api/delete".toList, some (' ' :: firstId.text ++ [' ']), []⟩ =
          (.ok (some (.ofId firstId)), ⟨some t⟩) ∧ oneSaved.Removes t firstId := by
  have hfit : oneSaved.now + oneSaved.settings.ttl ≤ Store.lastInstant := by decide +kernel
  refine ⟨hfit, ?_, ?_, ?_⟩
  · obtain ⟨answer, t, h, hunnoticed, -⟩ := request_effects oneSaved (saveRequest [' ']) hfit
    have hanswer : some (.ofError .emptyInput) = answer := Except.ok.inj (congrArg Prod.fst h)
    subst hanswer
    exact ⟨t, h, hunnoticed (.inr (.inr (.inr ⟨_, rfl, by decide⟩)))⟩
  · obtain ⟨answer, t, h, -, hadds, -⟩ := request_effects oneSaved (saveRequest ['b', ' ']) hfit
    have hanswer : some (.ofId ⟨"00000002".toList⟩) = answer :=
      Except.ok.inj (congrArg Prod.fst h)
    subst hanswer
    obtain ⟨id, hid, hadds⟩ := hadds rfl _ rfl rfl
    exact ⟨id, t, hid ▸ h, hadds⟩
  · obtain ⟨answer, t, h, -, -, hremoves⟩ := request_effects oneSaved
      ⟨.delete, "/api/delete".toList, some (' ' :: firstId.text ++ [' ']), []⟩ hfit
    have hanswer : some (.ofId firstId) = answer := Except.ok.inj (congrArg Prod.fst h)
    subst hanswer
    obtain ⟨id, hid, -, hremoves⟩ := hremoves rfl _ rfl rfl
    rw [← ofId_inj hid] at hremoves
    exact ⟨t, h, hremoves⟩

end CodeSnippets
