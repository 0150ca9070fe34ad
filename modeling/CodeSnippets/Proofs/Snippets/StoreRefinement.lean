/-
  A store replies as its reference store does.

  The shelf of a store loses its expired entries at some calls and keeps them at
  others, so it is not determined by what the reference store has.  The two are
  tied by the entries whose expiry is to come (`Shelf.Shows`):

  * every change of a shelf has its counterpart on the map, and dropping expired
    entries has none (`Shows.insert`, `Shows.erase`, `Shows.purge`,
    `Shows.erase_expired`, `Shows.later`);
  * what is seen of a shelf at a time is seen of the map (`Shows.lookup_eq_live`,
    `Shows.holds_purge`, `Shows.ids_purge`);
  * hence a call gives the same reply on both sides and keeps them tied
    (`Agrees.call`), and so do all calls of a run
    (`replies_eq_reference_replies`).
-/
import CodeSnippets.Proofs.Snippets.ReferenceStore

namespace CodeSnippets

/-! ## Looking something up on a shelf -/

namespace Shelf

theorem nodup_ids (s : Shelf) : (s.entries.map Entry.id).Nodup := by
  refine List.pairwise_map.2 (s.ascending.imp ?_)
  intro a b hab heq
  exact SnippetId.lt_irrefl _ (heq ▸ hab)

theorem find?_eq_some {s : Shelf} {id : SnippetId} {e : Entry} :
    s.find? id = some e ↔ e ∈ s.entries ∧ e.id = id := by
  constructor
  · intro h
    exact ⟨List.mem_of_find?_eq_some h, by simpa using List.find?_some h⟩
  · rintro ⟨he, rfl⟩
    obtain ⟨y, hy⟩ : ∃ y, s.find? e.id = some y :=
      Option.isSome_iff_exists.1 (List.find?_isSome.2 ⟨e, he, by simp⟩)
    have hid : y.id = e.id := by simpa using List.find?_some hy
    rw [hy, List.inj_on_of_nodup_map s.nodup_ids (List.mem_of_find?_eq_some hy) he hid]

theorem holds_iff {s : Shelf} {id : SnippetId} :
    s.holds id = true ↔ ∃ e ∈ s.entries, e.id = id := by
  simp [holds, Option.isSome_iff_exists, find?_eq_some]

theorem lookup_eq_live {s : Shelf} {now : Nat} {id : SnippetId} {text : Text} :
    s.lookup now id = .live text ↔
      ∃ expiry, now < expiry ∧ ⟨id, text, expiry⟩ ∈ s.entries := by
  unfold lookup
  constructor
  · intro h
    split at h
    · cases h
    · rename_i e he
      obtain ⟨hmem, rfl⟩ := find?_eq_some.1 he
      split at h
      · rename_i hlive
        cases h
        exact ⟨e.expiry, by simpa [Entry.isLive] using hlive, hmem⟩
      · cases h
  · rintro ⟨expiry, hlive, hmem⟩
    rw [find?_eq_some.2 ⟨hmem, rfl⟩]
    simp [Entry.isLive, hlive]

theorem le_now_of_lookup_eq_expired {s : Shelf} {now : Nat} {e : Entry}
    (h : s.lookup now e.id = .expired) (he : e ∈ s.entries) : e.expiry ≤ now := by
  rw [lookup, find?_eq_some.2 ⟨he, rfl⟩] at h
  by_contra hlt
  simp [Entry.isLive, Nat.lt_of_not_le hlt] at h

end Shelf

/-! ## The ids drawn by a save -/

theorem Store.pickId_eq (shelf : Shelf) (length : Nat) (source : Nat → Nat) (attempts drawn : Nat) :
    Store.pickId shelf length source attempts drawn =
      let ids := (List.range' drawn attempts).map fun k => SnippetId.ofDraw length (source k)
      (ids.find? fun id => !shelf.holds id,
        drawn + min attempts ((ids.findIdx fun id => !shelf.holds id) + 1)) := by
  induction attempts generalizing drawn with
  | zero => simp [pickId]
  | succ n ih =>
    simp only [pickId, List.range'_succ, List.map_cons]
    by_cases h : shelf.holds (SnippetId.ofDraw length (source drawn))
    · simp only [h, if_true, ih, List.find?_cons, List.findIdx_cons, Bool.not_true, cond_false]
      congr 1
      omega
    · simp [h, List.findIdx_cons]

/-! ## Shelves and maps -/

/-- On the entries that expire after `now`, the shelf and the map are one. -/
def Shelf.Shows (s : Shelf) (now : Nat) (m : Finmap fun _ : SnippetId => Text × Nat) : Prop :=
  ∀ id text expiry, now < expiry →
    (⟨id, text, expiry⟩ ∈ s.entries ↔ m.lookup id = some (text, expiry))

namespace Shelf.Shows

variable {s : Shelf} {now : Nat} {m : Finmap fun _ : SnippetId => Text × Nat}

theorem empty (now : Nat) : Shelf.empty.Shows now ∅ := by
  intro id text expiry _
  simp [Shelf.empty]

theorem later (h : s.Shows now m) {now' : Nat} (hle : now ≤ now') : s.Shows now' m := by
  intro id text expiry hlt
  exact h id text expiry (Nat.lt_of_le_of_lt hle hlt)

theorem purge (h : s.Shows now m) : (s.purge now).Shows now m := by
  intro id text expiry hlt
  rw [mem_purge, and_iff_left hlt]
  exact h id text expiry hlt

theorem insert (h : s.Shows now m) (e : Entry) :
    (s.insert e).Shows now (m.insert e.id (e.text, e.expiry)) := by
  intro id text expiry hlt
  rw [mem_insert]
  by_cases hid : id = e.id
  · subst hid
    rw [Finmap.lookup_insert]
    cases e
    simp [eq_comm]
  · rw [Finmap.lookup_insert_of_ne m hid, ← h id text expiry hlt]
    constructor
    · rintro (rfl | ⟨hmem, -⟩)
      · exact absurd rfl hid
      · exact hmem
    · intro hmem
      exact .inr ⟨hmem, hid⟩

theorem erase (h : s.Shows now m) (id : SnippetId) : (s.erase id).Shows now (m.erase id) := by
  intro id' text expiry hlt
  rw [mem_erase]
  by_cases hid : id' = id
  · subst hid
    simp
  · rw [Finmap.lookup_erase_ne hid, ← h id' text expiry hlt]
    exact and_iff_left hid

/-- An expired entry that is dropped is not missed. -/
theorem erase_expired (h : s.Shows now m) {id : SnippetId}
    (hexp : s.lookup now id = .expired) : (s.erase id).Shows now m := by
  intro id' text expiry hlt
  rw [mem_erase, ← h id' text expiry hlt]
  refine and_iff_left_of_imp fun hmem hid => ?_
  have hle := le_now_of_lookup_eq_expired (e := ⟨id', text, expiry⟩) (hid ▸ hexp) hmem
  exact absurd hlt (Nat.not_lt.2 hle)

end Shelf.Shows

/-! ## A store and its reference store -/

/-- A store that no call has broken off, and a reference store that has the same
    surroundings and all of the entries to come. -/
structure Agrees (s : Store) (r : ReferenceStore) : Prop where
  settings : r.settings = s.settings
  now : r.now = s.now
  source : r.source = s.source
  drawn : r.drawn = s.drawn
  sound : s.poisoned = false
  shows : s.shelf.Shows s.now r.bindings

namespace ReferenceStore

theorem text?_eq_some {r : ReferenceStore} {id : SnippetId} {text : Text} :
    r.text? id = some text ↔
      ∃ expiry, r.now < expiry ∧ r.bindings.lookup id = some (text, expiry) := by
  unfold text?
  constructor
  · intro h
    split at h
    · cases h
    · rename_i text' expiry hm
      split at h
      · rename_i hlt
        cases h
        exact ⟨expiry, hlt, hm⟩
      · cases h
  · rintro ⟨expiry, hlt, hm⟩
    rw [hm]
    simp [hlt]

theorem mem_present {r : ReferenceStore} {id : SnippetId} :
    id ∈ r.present ↔ ∃ text, r.text? id = some text := by
  rw [present, Finset.mem_filter, Option.isSome_iff_exists]
  refine and_iff_right_of_imp ?_
  rintro ⟨text, h⟩
  obtain ⟨expiry, -, hm⟩ := text?_eq_some.1 h
  exact Finmap.mem_keys.2 (Finmap.mem_iff.2 ⟨_, hm⟩)

end ReferenceStore

namespace Agrees

variable {s : Store} {r : ReferenceStore}

theorem new (settings : StoreSettings) (now : Nat) (source : Nat → Nat) :
    Agrees (Store.new settings now source) (ReferenceStore.new settings now source) :=
  ⟨rfl, rfl, rfl, rfl, rfl, Shelf.Shows.empty now⟩

theorem text?_eq_some (h : Agrees s r) {id : SnippetId} {text : Text} :
    r.text? id = some text ↔ s.shelf.lookup s.now id = .live text := by
  rw [ReferenceStore.text?_eq_some, Shelf.lookup_eq_live, h.now]
  constructor
  · rintro ⟨expiry, hlt, hm⟩
    exact ⟨expiry, hlt, (h.shows id text expiry hlt).2 hm⟩
  · rintro ⟨expiry, hlt, hmem⟩
    exact ⟨expiry, hlt, (h.shows id text expiry hlt).1 hmem⟩

theorem mem_present (h : Agrees s r) {id : SnippetId} :
    id ∈ r.present ↔ id ∈ (s.shelf.purge s.now).entries.map Entry.id := by
  rw [ReferenceStore.mem_present, List.mem_map]
  constructor
  · rintro ⟨text, ht⟩
    obtain ⟨expiry, hlt, hmem⟩ := Shelf.lookup_eq_live.1 (h.text?_eq_some.1 ht)
    exact ⟨⟨id, text, expiry⟩, Shelf.mem_purge.2 ⟨hmem, hlt⟩, rfl⟩
  · rintro ⟨e, he, rfl⟩
    obtain ⟨hmem, hlt⟩ := Shelf.mem_purge.1 he
    exact ⟨e.text, h.text?_eq_some.2 (Shelf.lookup_eq_live.2 ⟨e.expiry, hlt, hmem⟩)⟩

theorem holds_purge (h : Agrees s r) (id : SnippetId) :
    (s.shelf.purge s.now).holds id = decide (id ∈ r.present) := by
  rw [Bool.eq_iff_iff, Shelf.holds_iff, decide_eq_true_iff, h.mem_present, List.mem_map]

theorem ids_purge (h : Agrees s r) :
    (s.shelf.purge s.now).entries.map Entry.id = r.present.sort := by
  have hset : r.present = ((s.shelf.purge s.now).entries.map Entry.id).toFinset := by
    ext id
    rw [List.mem_toFinset]
    exact h.mem_present
  rw [hset]
  refine ((List.toFinset_sort _ (Shelf.nodup_ids _)).2 ?_).symm
  refine List.pairwise_map.2 ((s.shelf.purge s.now).ascending.imp ?_)
  intro a b hab
  exact le_of_lt hab

theorem length_purge (h : Agrees s r) :
    (s.shelf.purge s.now).entries.length = r.present.card := by
  rw [← Finset.length_sort (· ≤ ·), ← h.ids_purge, List.length_map]

theorem pickId_eq (h : Agrees s r) :
    Store.pickId (s.shelf.purge s.now) s.settings.idLength s.source Store.maxAttempts s.drawn =
      (r.draws.find? (· ∉ r.present), r.drawn + min 16 (r.draws.findIdx (· ∉ r.present) + 1)) := by
  rw [Store.pickId_eq, ReferenceStore.draws, h.settings, h.source, h.drawn]
  simp only [h.holds_purge, decide_not, Store.maxAttempts]

/-! ## Calls on both sides -/

theorem save (h : Agrees s r) (text : Text) (hfit : s.now + s.settings.ttl ≤ Store.lastInstant) :
    (s.save text).1 = (r.save text).1 ∧ Agrees (s.save text).2 (r.save text).2 := by
  have hshows := h.shows.purge
  simp only [Store.save, ReferenceStore.save, h.sound, h.pickId_eq, Bool.false_eq_true, if_false]
  cases r.draws.find? (· ∉ r.present) with
  | none => exact ⟨rfl, h.settings, h.now, h.source, rfl, rfl, hshows⟩
  | some id =>
    simp only [if_pos hfit]
    refine ⟨trivial, h.settings, h.now, h.source, rfl, rfl, ?_⟩
    have hins := hshows.insert ⟨id, text, s.now + s.settings.ttl⟩
    rw [h.now, h.settings]
    exact hins

theorem get (h : Agrees s r) (id : SnippetId) :
    (s.get id).1 = r.get id ∧ Agrees (s.get id).2 r := by
  have htext : r.text? id = none ↔ ∀ text, s.shelf.lookup s.now id ≠ .live text := by
    simp only [Option.eq_none_iff_forall_ne_some, ne_eq, h.text?_eq_some]
  simp only [Store.get, ReferenceStore.get, h.sound, Bool.false_eq_true, if_false]
  cases hl : s.shelf.lookup s.now id with
  | live text =>
    rw [h.text?_eq_some.2 hl]
    exact ⟨rfl, h⟩
  | absent =>
    rw [htext.2 (by simp [hl])]
    exact ⟨rfl, h⟩
  | expired =>
    rw [htext.2 (by simp [hl])]
    exact ⟨rfl, h.settings, h.now, h.source, h.drawn, rfl, h.shows.erase_expired hl⟩

theorem delete (h : Agrees s r) (id : SnippetId) :
    (s.delete id).1 = .ok () ∧
      Agrees (s.delete id).2 { r with bindings := r.bindings.erase id } := by
  simp only [Store.delete, h.sound, Bool.false_eq_true, if_false]
  exact ⟨trivial, h.settings, h.now, h.source, h.drawn, rfl, h.shows.erase id⟩

theorem list (h : Agrees s r) : s.list.1 = .ok r.list ∧ Agrees s.list.2 r := by
  simp only [Store.list, ReferenceStore.list, h.sound, Bool.false_eq_true, if_false,
    h.ids_purge, Finset.length_sort, h.settings]
  exact ⟨trivial, h.settings, h.now, h.source, h.drawn, rfl, h.shows.purge⟩

theorem size (h : Agrees s r) : s.size = .ok r.present.card := by
  simp only [Store.size, h.sound, Bool.false_eq_true, if_false]
  exact congrArg Except.ok h.length_purge

theorem isEmpty (h : Agrees s r) : s.isEmpty = .ok (decide (r.present = ∅)) := by
  rw [Store.isEmpty, h.size]
  refine congrArg Except.ok ?_
  rw [Bool.eq_iff_iff, beq_iff_eq, decide_eq_true_iff, Finset.card_eq_zero]

theorem call (h : Agrees s r) (c : StoreCall) (hfit : c.Fits s.settings.ttl s.now) :
    (s.call c).1 = (r.call c).1 ∧ Agrees (s.call c).2 (r.call c).2 := by
  cases c with
  | advance ms =>
    refine ⟨rfl, h.settings, ?_, h.source, h.drawn, h.sound, h.shows.later (Nat.le_add_right _ ms)⟩
    exact congrArg (· + ms) h.now
  | save text =>
    obtain ⟨hreply, hagrees⟩ := h.save text hfit
    exact ⟨congrArg StoreReply.saved hreply, hagrees⟩
  | get id =>
    obtain ⟨hreply, hagrees⟩ := h.get id
    exact ⟨congrArg StoreReply.got hreply, hagrees⟩
  | delete id =>
    obtain ⟨hreply, hagrees⟩ := h.delete id
    exact ⟨congrArg StoreReply.deleted hreply, hagrees⟩
  | list =>
    obtain ⟨hreply, hagrees⟩ := h.list
    exact ⟨congrArg StoreReply.listed hreply, hagrees⟩
  | len => exact ⟨congrArg StoreReply.counted h.size, h⟩
  | isEmpty => exact ⟨congrArg StoreReply.tested h.isEmpty, h⟩

end Agrees

theorem ReferenceStore.call_settings (r : ReferenceStore) (c : StoreCall) :
    (r.call c).2.settings = r.settings := by
  cases c with
  | save text =>
    simp only [ReferenceStore.call, ReferenceStore.save]
    split <;> rfl
  | _ => rfl

theorem ReferenceStore.call_now (r : ReferenceStore) (c : StoreCall) :
    (r.call c).2.now = c.clock r.now := by
  cases c with
  | save text =>
    simp only [ReferenceStore.call, ReferenceStore.save]
    split <;> rfl
  | _ => rfl

theorem Agrees.replies {s : Store} {r : ReferenceStore} (h : Agrees s r) (cs : List StoreCall)
    (hfit : AllFit s.settings.ttl s.now cs) : s.replies cs = r.replies cs := by
  induction cs generalizing s r with
  | nil => rfl
  | cons c cs ih =>
    obtain ⟨hc, hcs⟩ := hfit
    obtain ⟨hreply, hagrees⟩ := h.call c hc
    have hsettings : (s.call c).2.settings = s.settings := by
      rw [← hagrees.settings, r.call_settings, h.settings]
    have hnow : (s.call c).2.now = c.clock s.now := by
      rw [← hagrees.now, r.call_now, h.now]
    rw [Store.replies, ReferenceStore.replies, hreply]
    refine congrArg _ (ih hagrees ?_)
    rw [hsettings, hnow]
    exact hcs

/-- **A store replies as its reference store.**  Whatever is drawn and whatever
    is called in whatever order, time going by in between: as long as the clock
    can tell the expiry of what is saved, which expired entries have been dropped
    from the shelf makes no difference to any reply. -/
theorem replies_eq_reference_replies (settings : StoreSettings) (now : Nat) (source : Nat → Nat)
    (cs : List StoreCall) (hfit : AllFit settings.ttl now cs) :
    (Store.new settings now source).replies cs =
      (ReferenceStore.new settings now source).replies cs :=
  (Agrees.new settings now source).replies cs hfit

/-- A store of short lives, short listings and ids of one digit. -/
def hastySettings : StoreSettings := ⟨10, 1, 1⟩

/-- Random numbers that give every id of one digit twice. -/
def doubledSource (k : Nat) : Nat := k / 2 * 16 ^ 31

/-- Two texts saved under colliding ids, and a third when both have expired. -/
def reuseCalls : List StoreCall :=
  [.save ['a'], .save ['b'], .list, .advance 10, .get ⟨['0']⟩, .len, .save ['c'], .get ⟨['1']⟩]

/-- An id that is drawn twice is passed over as long as its text lives, and used
    again from the instant on at which the text expires. -/
theorem replies_eq_reference_replies_of_reuse :
    AllFit hastySettings.ttl 0 reuseCalls ∧
      (ReferenceStore.new hastySettings 0 doubledSource).replies reuseCalls =
        [.saved (.ok ⟨['0']⟩), .saved (.ok ⟨['1']⟩), .listed (.ok ⟨[⟨['0']⟩], false⟩), .advanced,
          .got (.error (.error .notFound)), .counted (.ok 0), .saved (.ok ⟨['1']⟩),
          .got (.ok ['c'])] := by
  have hfit : AllFit hastySettings.ttl 0 reuseCalls := by
    simp [hastySettings, reuseCalls, AllFit, StoreCall.Fits, StoreCall.clock, Store.lastInstant]
  refine ⟨hfit, ?_⟩
  rw [← replies_eq_reference_replies hastySettings 0 doubledSource reuseCalls hfit]
  decide +kernel

end CodeSnippets
