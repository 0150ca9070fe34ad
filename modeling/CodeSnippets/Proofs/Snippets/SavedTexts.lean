/-
  A text that is saved over the routes, and got back later.

  * `Store.Leaves`: what a request, or time going by, leaves of a store: its clock, the
    entries that are live, and whether it has broken off (`leaves_handle`);
  * `ApiEvent`, `Service.events`: requests and time going by, one after the other;
  * `Service.breaksOff`: one of the requests has no response, not even an error, which
    does not happen while texts expire on the clock (`Store.breaksOff_eq_false`);
  * `Shows`: a response whose body is an object with a text as its only member;
  * `saved_text_got_back_iff`: the text of a save is shown to a request for its id, as
    long as it lives and is not deleted, if and only if no request in between breaks
    off.
-/
import CodeSnippets.Proofs.Snippets.LiveEntries
import CodeSnippets.Proofs.Snippets.RandomIds
import CodeSnippets.Proofs.Web.FormFields
import CodeSnippets.Proofs.Web.JsonReading
import CodeSnippets.Snippets.Api

namespace CodeSnippets

/-! ## What a request does to a store -/

namespace Store

/-- A store, some milliseconds later, after a request that may have broken off and may
    have deleted an id. -/
structure Leaves (s t : Store) (ms : Nat) (broken : Prop) (deleted : Option SnippetId) :
    Prop where
  settings : t.settings = s.settings
  now : t.now = s.now + ms
  poisoned : t.poisoned = true ↔ s.poisoned = true ∨ broken
  late : broken → lastInstant < s.now + s.settings.ttl
  entries : ∀ e ∈ s.shelf.entries, s.now < e.expiry → deleted ≠ some e.id →
    e ∈ t.shelf.entries

section

variable {s : Store}

theorem Leaves.advance (ms : Nat) {broken : Prop} {deleted : Option SnippetId} (h : ¬ broken) :
    Leaves s (s.advance ms) ms broken deleted :=
  ⟨rfl, rfl, (or_iff_left h).symm, fun hb => absurd hb h, fun _ he _ _ => he⟩

theorem Leaves.refl {broken : Prop} {deleted : Option SnippetId} (h : ¬ broken) :
    Leaves s s 0 broken deleted :=
  Leaves.advance 0 h

theorem leaves_save (text : Text) (deleted : Option SnippetId) :
    Leaves s (s.save text).2 0 (∃ a, (s.save text).1 = .error (.abort a)) deleted := by
  have hentries : ∀ e ∈ s.shelf.entries, s.now < e.expiry → deleted ≠ some e.id →
      e ∈ (s.save text).2.shelf.entries := fun e he hlive _ => mem_save text he hlive
  rcases s.save_cases text with ⟨-, hs⟩ | ⟨-, -, drawn, hs⟩ | ⟨-, -, id, -, -, drawn, hs⟩ |
    ⟨-, hlate, -, drawn, hs⟩
  · exact ⟨by rw [hs], by simp [hs], by simp [hs], by simp [hs], hentries⟩
  · exact ⟨by rw [hs], by simp [hs], by simp [hs], by simp [hs], hentries⟩
  · exact ⟨by rw [hs], by simp [hs], by simp [hs], by simp [hs], hentries⟩
  · refine ⟨by rw [hs], by simp [hs], ?_, fun _ => hlate, hentries⟩
    rw [hs]
    exact iff_of_true rfl (.inr ⟨_, rfl⟩)

theorem leaves_get (id : SnippetId) (deleted : Option SnippetId) :
    Leaves s (s.get id).2 0 (∃ a, (s.get id).1 = .error (.abort a)) deleted := by
  refine ⟨?_, ?_, ?_, ?_, fun e he hlive _ => mem_get id he hlive⟩
  all_goals
    unfold get
    split
    · simp
    · split <;> simp

theorem leaves_delete (id : SnippetId) :
    Leaves s (s.delete id).2 0 (∃ a, (s.delete id).1 = .error (.abort a)) (some id) := by
  refine ⟨?_, ?_, ?_, ?_, fun e he _ hid => mem_delete he fun heq => hid (heq ▸ rfl)⟩
  all_goals
    unfold delete
    split <;> simp

theorem leaves_list (deleted : Option SnippetId) :
    Leaves s s.list.2 0 (∃ a, s.list.1 = .error (.abort a)) deleted := by
  refine ⟨?_, ?_, ?_, ?_, fun e he hlive _ => mem_list he hlive⟩
  all_goals
    unfold list
    split <;> simp

end

end Store

/-! ## A service with a store -/

namespace Service

variable {s : Store}

theorem save_of_store {text : Text} (h : (Text.trim text).isEmpty = false) :
    (⟨some s⟩ : Service).save text = ((s.save text).1, ⟨some (s.save text).2⟩) := by
  simp [save, withStore, h]

theorem save_of_blank {text : Text} (h : (Text.trim text).isEmpty = true) :
    (⟨some s⟩ : Service).save text = (.error (.error .emptyInput), ⟨some s⟩) := by
  simp [save, withStore, h]

theorem get_of_store {text : Text} {id : SnippetId} (h : SnippetId.ofText? text = some id) :
    (⟨some s⟩ : Service).get text = ((s.get id).1, ⟨some (s.get id).2⟩) := by
  simp [get, withStore, isConfigured, h]

theorem get_of_none {text : Text} (h : SnippetId.ofText? text = none) :
    (⟨some s⟩ : Service).get text = (.error (.error .notFound), ⟨some s⟩) := by
  simp [get, h]

theorem delete_of_store {text : Text} {id : SnippetId} (h : SnippetId.ofText? text = some id) :
    (⟨some s⟩ : Service).delete text =
      ((s.delete id).1.map fun _ => id, ⟨some (s.delete id).2⟩) := by
  simp [delete, withStore, h]

theorem delete_of_none {text : Text} (h : SnippetId.ofText? text = none) :
    (⟨some s⟩ : Service).delete text = (.error (.error .missingId), ⟨some s⟩) := by
  simp [delete, h]

end Service

/-- The id that a request asks to delete. -/
def Request.deletes? (r : Request) : Option SnippetId :=
  if r.route? = some .delete then SnippetId.ofText? (r.id.getD []) else none

theorem respond_fst_eq_error {α : Type} {f : α → Response} {answer : Answer StoreError α}
    {s : Service} :
    (∃ a, (respond f (answer, s)).1 = .error a) ↔ ∃ a, answer = .error (.abort a) := by
  cases answer with
  | ok a => simp [respond, Response.ofAnswer, Except.map]
  | error fault => cases fault <;> simp [respond, Response.ofAnswer, Except.map]

theorem Store.Leaves.respond {α : Type} {s t : Store} {f : α → Response}
    {answer : Answer StoreError α} {deleted : Option SnippetId}
    (h : s.Leaves t 0 (∃ a, answer = .error (.abort a)) deleted) :
    s.Leaves t 0 (∃ a, (CodeSnippets.respond f (answer, ⟨some t⟩)).1 = .error a) deleted := by
  rw [respond_fst_eq_error]
  exact h

/-- A request leaves the entries that are live, but for one that it deletes. -/
theorem leaves_handle (s : Store) (r : Request) :
    ∃ t, (handle ⟨some s⟩ r).2 = ⟨some t⟩ ∧
      s.Leaves t 0 (∃ a, (handle ⟨some s⟩ r).1 = .error a) r.deletes? := by
  cases hr : r.route? with
  | none =>
    simp only [handle, hr]
    exact ⟨s, rfl, .refl (by simp)⟩
  | some route =>
    cases route with
    | preflight =>
      simp only [handle, hr]
      exact ⟨s, rfl, .refl (by simp)⟩
    | save =>
      simp only [handle, hr]
      cases hblank : (Text.trim r.body).isEmpty with
      | true =>
        rw [Service.save_of_blank hblank]
        exact ⟨s, rfl, Store.Leaves.respond (.refl (by simp))⟩
      | false =>
        rw [Service.save_of_store hblank]
        exact ⟨_, rfl, (Store.leaves_save r.body _).respond⟩
    | get =>
      simp only [handle, hr]
      cases hid : SnippetId.ofText? (r.id.getD []) with
      | none =>
        rw [Service.get_of_none hid]
        exact ⟨s, rfl, Store.Leaves.respond (.refl (by simp))⟩
      | some id =>
        rw [Service.get_of_store hid]
        exact ⟨_, rfl, (Store.leaves_get id _).respond⟩
    | delete =>
      simp only [handle, hr, Request.deletes?, if_true]
      cases hid : SnippetId.ofText? (r.id.getD []) with
      | none =>
        rw [Service.delete_of_none hid]
        exact ⟨s, rfl, Store.Leaves.respond (.refl (by simp))⟩
      | some id =>
        rw [Service.delete_of_store hid]
        refine ⟨_, rfl, Store.Leaves.respond ?_⟩
        have hmap : (∃ a, (s.delete id).1.map (fun _ => id) = .error (.abort a)) ↔
            ∃ a, (s.delete id).1 = .error (.abort a) := by
          cases (s.delete id).1 <;> simp [Except.map]
        rw [hmap]
        exact Store.leaves_delete id
    | list =>
      simp only [handle, hr]
      exact ⟨_, rfl, (Store.leaves_list _).respond⟩

/-! ## Requests and time going by -/

/-- What happens to a service. -/
inductive ApiEvent where
  /-- some milliseconds go by -/
  | advance (ms : Nat)
  | request (r : Request)
  deriving DecidableEq, Repr

/-- How long an event lasts. -/
def ApiEvent.duration : ApiEvent → Nat
  | advance ms => ms
  | request _ => 0

/-- The id that an event asks to delete. -/
def ApiEvent.deletes? : ApiEvent → Option SnippetId
  | advance _ => none
  | request r => r.deletes?

/-- How long events last, one after the other. -/
def elapsed : List ApiEvent → Nat
  | [] => 0
  | a :: es => a.duration + elapsed es

namespace Service

/-- A service at a later time. -/
def advance (s : Service) (ms : Nat) : Service := ⟨s.store?.map fun store => store.advance ms⟩

/-- A service after an event. -/
def event (s : Service) : ApiEvent → Service
  | .advance ms => s.advance ms
  | .request r => (handle s r).2

/-- A service after events. -/
def events (s : Service) (es : List ApiEvent) : Service := es.foldl event s

/-- Whether an event is a request that breaks off: it has no response, not even an
    error. -/
def breaks (s : Service) : ApiEvent → Bool
  | .advance _ => false
  | .request r => !(handle s r).1.isOk

/-- Whether one of the events is a request that breaks off. -/
def breaksOff (s : Service) : List ApiEvent → Bool
  | [] => false
  | e :: es => s.breaks e || (s.event e).breaksOff es

theorem breaks_request {s : Service} {r : Request} :
    s.breaks (.request r) = true ↔ ∃ a, (handle s r).1 = .error a := by
  rw [breaks]
  cases (handle s r).1 with
  | ok response => exact iff_of_false Bool.false_ne_true (by rintro ⟨a, ⟨⟩⟩)
  | error a => exact iff_of_true rfl ⟨a, rfl⟩

end Service

namespace Store

/-- An event takes its time, keeps the entries that are live, but for one that it
    deletes, and may break off. -/
theorem leaves_event (s : Store) (a : ApiEvent) :
    ∃ t, (⟨some s⟩ : Service).event a = ⟨some t⟩ ∧
      s.Leaves t a.duration ((⟨some s⟩ : Service).breaks a = true) a.deletes? := by
  cases a with
  | advance ms => exact ⟨s.advance ms, rfl, .advance ms Bool.false_ne_true⟩
  | request r =>
    rw [Service.breaks_request]
    exact leaves_handle s r

/-- An entry stays as long as it lives and is not deleted, and the store refuses all
    calls once a request has broken off. -/
theorem exists_events (s : Store) (es : List ApiEvent) {e : Entry} (he : e ∈ s.shelf.entries)
    (hlive : s.now + elapsed es < e.expiry) (hkept : ∀ a ∈ es, a.deletes? ≠ some e.id) :
    ∃ t, (⟨some s⟩ : Service).events es = ⟨some t⟩ ∧ t.now = s.now + elapsed es ∧
      (t.poisoned = true ↔ s.poisoned = true ∨ (⟨some s⟩ : Service).breaksOff es = true) ∧
      e ∈ t.shelf.entries := by
  induction es generalizing s with
  | nil => exact ⟨s, rfl, rfl, (or_iff_left Bool.false_ne_true).symm, he⟩
  | cons a es ih =>
    obtain ⟨t, ht, h⟩ := s.leaves_event a
    obtain ⟨hkept, hrest⟩ := List.forall_mem_cons.1 hkept
    have helapsed : elapsed (a :: es) = a.duration + elapsed es := rfl
    have hnow := h.now
    have he' := h.entries e he (by omega) hkept
    obtain ⟨u, hu, hnow', hpoisoned, he''⟩ := ih t he' (by omega) hrest
    refine ⟨u, ?_, by omega, ?_, he''⟩
    · rw [Service.events, List.foldl_cons, ht]
      exact hu
    · rw [hpoisoned, h.poisoned, Service.breaksOff, ht, Bool.or_eq_true, or_assoc]

/-- No request breaks off while every text that it saved would expire at an instant of
    the clock. -/
theorem breaksOff_eq_false (s : Store) (es : List ApiEvent)
    (hfit : s.now + elapsed es + s.settings.ttl ≤ lastInstant) :
    (⟨some s⟩ : Service).breaksOff es = false := by
  induction es generalizing s with
  | nil => rfl
  | cons a es ih =>
    obtain ⟨t, ht, h⟩ := s.leaves_event a
    have helapsed : elapsed (a :: es) = a.duration + elapsed es := rfl
    have hnow := h.now
    have hfit' : t.now + elapsed es + t.settings.ttl ≤ lastInstant := by
      rw [h.settings]
      omega
    have hbreaks : (⟨some s⟩ : Service).breaks a = false := by
      refine Bool.eq_false_iff.2 fun hb => ?_
      have hlate := h.late hb
      omega
    rw [Service.breaksOff, hbreaks, ht, ih t hfit']
    rfl

end Store

/-! ## Saving a text and getting it back -/

theorem ofId_inj {a b : SnippetId} (h : Response.ofId a = .ofId b) : a = b := by
  cases a
  cases b
  cases h
  rfl

theorem ofError_ne_ofId (e : StoreError) (id : SnippetId) : Response.ofError e ≠ .ofId id := by
  simp [Response.ofError, Response.ofId, Response.success]

/-- What a save that is answered with an id does to the store. -/
theorem save_of_handle_eq_ofId {s : Store} {r : Request} {id : SnippetId}
    (hr : r.route? = some .save) (h : (handle ⟨some s⟩ r).1 = .ok (some (.ofId id))) :
    (s.save r.body).1 = .ok id ∧ (handle ⟨some s⟩ r).2 = ⟨some (s.save r.body).2⟩ := by
  simp only [handle, hr] at h ⊢
  cases hblank : (Text.trim r.body).isEmpty with
  | true =>
    rw [Service.save_of_blank hblank] at h
    cases h
  | false =>
    rw [Service.save_of_store hblank] at h ⊢
    refine ⟨?_, rfl⟩
    cases hanswer : (s.save r.body).1 with
    | ok id' =>
      rw [hanswer] at h
      have hid : Response.ofId id' = .ofId id := Option.some.inj (Except.ok.inj h)
      rw [ofId_inj hid]
    | error fault =>
      rw [hanswer] at h
      cases fault with
      | error e => exact absurd (Option.some.inj (Except.ok.inj h)) (ofError_ne_ofId e id)
      | abort a => cases h

/-- The target under which the text of an id is asked for: parts of a query, among them
    a field for the id. -/
def getTarget (before : List Text) (field : Text) (after : List Text) : Text :=
  "/api/get?".toList ++ Text.join ['&'] (before ++ ("id".toList ++ '=' :: field) :: after)

/-- A response of success whose body is an object with a text as its only member. -/
def Shows (answer : Except Abort (Option Response)) (text : Text) : Prop :=
  ∃ response, answer = .ok (some response) ∧ response.status = 200 ∧
    Json.stringMembers? response.bodyText = some [("code".toList, text)]

theorem shows_ofText (text : Text) : Shows (.ok (some (.ofText text))) text :=
  ⟨_, rfl, rfl, Json.stringMembers?_compact [("code".toList, text)]⟩

theorem not_shows_ofError {e : StoreError} {text : Text} (he : e.status ≠ 200) :
    ¬ Shows (.ok (some (.ofError e))) text := by
  rintro ⟨response, h, hstatus, -⟩
  cases h
  exact he hstatus

theorem ofTarget_get (query body : Text) :
    Request.ofTarget .get ("/api/get?".toList ++ query) body =
      ⟨.get, "/api/get".toList, queryValue? "id".toList query, body⟩ := by
  have hsplit : Text.splitAtFirst '?' ("/api/get?".toList ++ query) =
      some ("/api/get".toList, query) :=
    Text.splitAtFirst_append (l := "/api/get".toList) (by decide) query
  rw [Request.ofTarget, hsplit]
  rfl

/-- Any spelling of an id that was drawn reaches the store as this id. -/
theorem ofTarget_getTarget {before after : List Text} {field : Text} {length n : Nat}
    (hbefore : ∀ p ∈ before, '&' ∉ p ∧ (decodePair p).1 ≠ "id".toList)
    (hafter : ∀ p ∈ after, '&' ∉ p) (hfield : Spells (SnippetId.ofDraw length n).text field)
    (body : Text) :
    Request.ofTarget .get (getTarget before field after) body =
      ⟨.get, "/api/get".toList, some (SnippetId.ofDraw length n).text, body⟩ := by
  have hascii : ∀ c ∈ lowerHexDigits, c.toNat < 0x80 := ascii_of_all (by decide)
  have hkey : Spells ['i', 'd'] ['i', 'd'] := .plain (by decide) (.plain (by decide) .nil)
  have hvalue : queryValue? "id".toList (Text.join ['&']
      (before ++ ("id".toList ++ '=' :: field) :: after)) = some (SnippetId.ofDraw length n).text :=
    queryValue?_of_spells hbefore hafter hkey (by decide) (ascii_of_all (by decide)) hfield
      fun c hc => hascii c (SnippetId.mem_digits_ofDraw hc)
  unfold getTarget
  refine (ofTarget_get _ body).trans ?_
  rw [hvalue]

/-- The answer to a request for a live entry: its text, unless the store has broken off. -/
theorem shows_get_iff {s : Store} {e : Entry} (he : e ∈ s.shelf.entries)
    (hlive : s.now < e.expiry) {r : Request} (hr : r.route? = some .get)
    (hid : SnippetId.ofText? (r.id.getD []) = some e.id) :
    Shows (handle ⟨some s⟩ r).1 e.text ↔ s.poisoned = false := by
  simp only [handle, hr]
  rw [Service.get_of_store hid, Store.get, Store.lookup_of_live he hlive]
  cases s.poisoned with
  | true => exact iff_of_false (not_shows_ofError (by decide)) (by decide)
  | false => exact iff_of_true (shows_ofText e.text) rfl

/-- **A text that is saved is given back unless a request breaks off.**  A request
    saves a text in any state of a store and is answered with an id.  Then other
    requests come and time goes by, but less than a text lives, and none of them
    deletes the id.  After that, a request for the id, in any spelling and among other
    parameters, has a response of success with the text as the only member of its
    body, if and only if no request in between broke off. -/
theorem saved_text_got_back_iff (store : Store) (r : Request) (id : SnippetId)
    (es : List ApiEvent) (before after : List Text) (field body : Text)
    (hr : r.route? = some .save) (hsaved : (handle ⟨some store⟩ r).1 = .ok (some (.ofId id)))
    (hlive : elapsed es < store.settings.ttl) (hkept : ∀ a ∈ es, a.deletes? ≠ some id)
    (hbefore : ∀ p ∈ before, '&' ∉ p ∧ (decodePair p).1 ≠ "id".toList)
    (hafter : ∀ p ∈ after, '&' ∉ p) (hfield : Spells id.text field) :
    Shows (handle ((handle ⟨some store⟩ r).2.events es)
      (.ofTarget .get (getTarget before field after) body)).1 r.body ↔
    (handle ⟨some store⟩ r).2.breaksOff es = false := by
  obtain ⟨hsave, hstate⟩ := save_of_handle_eq_ofId hr hsaved
  obtain ⟨hsound, -, hdrawn, -, drawn, hs⟩ := Store.save_of_ok hsave
  obtain ⟨k, -, rfl⟩ := List.mem_map.1 hdrawn
  have hnow : (store.save r.body).2.now = store.now := by rw [hs]
  have hpoisoned : (store.save r.body).2.poisoned = false := by rw [hs]; exact hsound
  obtain ⟨t, ht, hnow', hbroken, he⟩ := (store.save r.body).2.exists_events es
    (Store.mem_save_of_ok hsave) (by rw [hnow]; exact Nat.add_lt_add_left hlive _) hkept
  rw [hstate, ht, ofTarget_getTarget hbefore hafter hfield]
  have hshows := shows_get_iff
    (r := ⟨.get, "/api/get".toList, some (SnippetId.ofDraw _ _).text, body⟩) he
    (by rw [hnow', hnow]; exact Nat.add_lt_add_left hlive _) rfl (SnippetId.ofText?_ofDraw _ _)
  rw [hpoisoned, or_iff_right Bool.false_ne_true] at hbroken
  rw [hshows, ← Bool.not_eq_true, ← Bool.not_eq_true, hbroken]

/-- A store in which a text lives almost as long as the clock runs. -/
def lastingStore : Store :=
  .new ⟨9223372026854775807000, 1000, 8⟩ 86400000 fun k => (k + 1) * Nat.pow 2 96

/-- A request that saves a text. -/
def saveRequest (body : Text) : Request := .ofTarget .post "/api/save".toList body

/-- The first id of this store. -/
def firstId : SnippetId := ⟨['0', '0', '0', '0', '0', '0', '0', '1']⟩

/-- A text is given back after another has been saved. -/
theorem saved_text_got_back_soon :
    (saveRequest ['a', '"']).route? = some .save ∧
      (handle ⟨some lastingStore⟩ (saveRequest ['a', '"'])).1 = .ok (some (.ofId firstId)) ∧
      Shows (handle ((handle ⟨some lastingStore⟩ (saveRequest ['a', '"'])).2.events
        [.advance 1000, .request (saveRequest ['b'])])
        (.ofTarget .get (getTarget [['x', '=', '1']]
          ['%', '3', '0', '0', '0', '0', '0', '0', '%', '3', '0', '1'] []) [])).1 ['a', '"'] := by
  have hsaved : (handle ⟨some lastingStore⟩ (saveRequest ['a', '"'])).1 =
      .ok (some (.ofId firstId)) := rfl
  have hother : decodePair ['x', '=', '1'] = (['x'], ['1']) :=
    decodePair_of_spells (.plain (by decide) .nil) (by decide) (ascii_of_all (by decide))
      (.plain (by decide) .nil) (ascii_of_all (by decide))
  have hbefore : ∀ p ∈ [['x', '=', '1']], '&' ∉ p ∧ (decodePair p).1 ≠ "id".toList := by
    intro p hp
    rw [List.mem_singleton.1 hp, hother]
    decide
  have hfield : Spells firstId.text
      ['%', '3', '0', '0', '0', '0', '0', '0', '%', '3', '0', '1'] := by
    refine .escaped rfl rfl rfl ?_
    iterate 5 refine .plain (by decide) ?_
    exact .escaped rfl rfl rfl (.plain (by decide) .nil)
  refine ⟨rfl, hsaved, ?_⟩
  exact (saved_text_got_back_iff lastingStore (saveRequest ['a', '"']) firstId
    [.advance 1000, .request (saveRequest ['b'])] [['x', '=', '1']] [] _ [] rfl hsaved
    (by decide) (by decide) hbefore (by decide) hfield).2 (by decide +kernel)

/-- A text is not given back, though it is live and nobody deletes it, after another
    has been saved so late that it would live longer than the clock runs. -/
theorem saved_text_not_got_back :
    (handle ⟨some lastingStore⟩ (saveRequest ['a'])).1 = .ok (some (.ofId firstId)) ∧
      elapsed [.advance 20000000000000, .request (saveRequest ['b'])] < lastingStore.settings.ttl ∧
      (handle ((handle ⟨some lastingStore⟩ (saveRequest ['a'])).2.events
        [.advance 20000000000000, .request (saveRequest ['b'])])
        (.ofTarget .get "/api/get?id=00000001".toList [])).1 =
        .ok (some (.ofError .lockPoisoned)) := by
  have htarget : Request.ofTarget .get "/api/get?id=00000001".toList [] =
      ⟨.get, "/api/get".toList, some firstId.text, []⟩ := by
    decide +kernel
  refine ⟨rfl, by decide, ?_⟩
  rw [htarget]
  rfl

end CodeSnippets
