/-
  Saves that give no id.

  * `Store.Alike`: two stores that differ only in entries that have expired.  No row
    of calls tells them apart (`Alike.replies`);
  * `Store.SaveHarmless`: a save ends, and without an id it leaves no trace but the
    random numbers it has used;
  * `saveHarmless_iff`: that is so unless a save finds an id that is free and the
    expiry of the text lies beyond the last instant of the clock.  Such a save breaks
    off, and the store answers no call any more.
-/
import CodeSnippets.Proofs.Snippets.LiveEntries
import CodeSnippets.Settings.Document

namespace CodeSnippets

/-! ## Shelves without their expired entries -/

namespace Shelf

theorem eq_of_entries {s t : Shelf} (h : s.entries = t.entries) : s = t := by
  cases s
  cases t
  cases h
  rfl

theorem purge_entries (s : Shelf) (now : Nat) : (s.purge now).entries = s.liveEntries now := rfl

theorem purge_purge (s : Shelf) {now now' : Nat} (h : now ≤ now') :
    (s.purge now).purge now' = s.purge now' := by
  refine eq_of_entries ?_
  simp only [purge, liveEntries, List.filter_filter]
  refine List.filter_congr fun e _ => ?_
  rw [Bool.eq_iff_iff]
  simp only [Entry.isLive, Bool.and_eq_true, decide_eq_true_iff]
  omega

theorem purge_erase (s : Shelf) (now : Nat) (id : SnippetId) :
    (s.erase id).purge now = (s.purge now).erase id := by
  refine eq_of_entries ?_
  simp only [purge, liveEntries, erase, List.filter_filter]
  exact List.filter_congr fun e _ => Bool.and_comm _ _

theorem purge_erase_of_expired {s : Shelf} {now : Nat} {id : SnippetId}
    (h : s.lookup now id = .expired) : (s.erase id).purge now = s.purge now := by
  refine eq_of_entries ?_
  simp only [purge, liveEntries, erase, List.filter_filter]
  refine List.filter_congr fun e he => ?_
  rw [Bool.eq_iff_iff, Bool.and_eq_true]
  refine and_iff_left_of_imp fun hlive => ?_
  rw [bne_iff_ne]
  rintro rfl
  have hle := le_now_of_lookup_eq_expired h he
  simp only [Entry.isLive, decide_eq_true_iff] at hlive
  omega

theorem lookup_purge_eq_live {s : Shelf} {now : Nat} {id : SnippetId} {text : Text} :
    (s.purge now).lookup now id = .live text ↔ s.lookup now id = .live text := by
  simp only [lookup_eq_live, mem_purge]
  constructor
  · rintro ⟨expiry, hlt, hmem, -⟩
    exact ⟨expiry, hlt, hmem⟩
  · rintro ⟨expiry, hlt, hmem⟩
    exact ⟨expiry, hlt, hmem, hlt⟩

end Shelf

/-! ## Stores that differ only in what has expired -/

namespace Store

/-- A store that is the same but for entries that have expired. -/
def Alike (s t : Store) : Prop :=
  ∃ shelf : Shelf, shelf.purge s.now = s.shelf.purge s.now ∧ t = { s with shelf }

theorem Alike.refl (s : Store) : Alike s s := ⟨s.shelf, rfl, rfl⟩

theorem Alike.symm {s t : Store} : Alike s t → Alike t s := by
  rintro ⟨shelf, hlive, rfl⟩
  exact ⟨s.shelf, hlive.symm, rfl⟩

theorem Alike.trans {s t u : Store} : Alike s t → Alike t u → Alike s u := by
  rintro ⟨shelf, hlive, rfl⟩ ⟨shelf', hlive', rfl⟩
  exact ⟨shelf', hlive'.trans hlive, rfl⟩

theorem alike_purge (s : Store) : Alike s { s with shelf := s.shelf.purge s.now } :=
  ⟨s.shelf.purge s.now, s.shelf.purge_purge (Nat.le_refl _), rfl⟩

/-! ## Calls of stores that are alike -/

/-- A get answers from the entries that have not expired. -/
theorem get_fst (s : Store) (id : SnippetId) :
    (s.get id).1 =
      if s.poisoned then .error (.error .lockPoisoned)
      else
        match (s.shelf.purge s.now).lookup s.now id with
        | .live text => .ok text
        | _ => .error (.error .notFound) := by
  have hlive := fun text => @Shelf.lookup_purge_eq_live s.shelf s.now id text
  unfold get
  cases s.poisoned with
  | true => rfl
  | false =>
    simp only [Bool.false_eq_true, if_false]
    cases hl : s.shelf.lookup s.now id with
    | live text => rw [(hlive text).2 hl]
    | absent =>
      cases hp : (s.shelf.purge s.now).lookup s.now id with
      | live text => rw [(hlive text).1 hp] at hl; cases hl
      | absent => rfl
      | expired => rfl
    | expired =>
      cases hp : (s.shelf.purge s.now).lookup s.now id with
      | live text => rw [(hlive text).1 hp] at hl; cases hl
      | absent => rfl
      | expired => rfl

theorem alike_get (s : Store) (id : SnippetId) : Alike s (s.get id).2 := by
  unfold get
  split
  · exact Alike.refl s
  · split
    · exact Alike.refl s
    · exact Alike.refl s
    · rename_i hexp
      exact ⟨s.shelf.erase id, Shelf.purge_erase_of_expired hexp, rfl⟩

theorem alike_list (s : Store) : Alike s s.list.2 := by
  unfold list
  split
  · exact Alike.refl s
  · exact s.alike_purge

theorem Alike.advance {s t : Store} (ms : Nat) : Alike s t → Alike (s.advance ms) (t.advance ms) := by
  rintro ⟨shelf, hlive, rfl⟩
  refine ⟨shelf, ?_, rfl⟩
  have hle := Nat.le_add_right s.now ms
  calc shelf.purge (s.now + ms)
    _ = (shelf.purge s.now).purge (s.now + ms) := (shelf.purge_purge hle).symm
    _ = (s.shelf.purge s.now).purge (s.now + ms) := by rw [hlive]
    _ = s.shelf.purge (s.now + ms) := s.shelf.purge_purge hle

theorem Alike.save {s t : Store} (text : Text) :
    Alike s t → (t.save text).1 = (s.save text).1 ∧ Alike (s.save text).2 (t.save text).2 := by
  rintro ⟨shelf, hlive, rfl⟩
  simp only [Store.save, hlive]
  by_cases hp : s.poisoned = true
  · simp only [if_pos hp]
    exact ⟨trivial, shelf, hlive, rfl⟩
  · simp only [if_neg hp]
    exact ⟨trivial, Alike.refl _⟩

theorem Alike.delete {s t : Store} (id : SnippetId) :
    Alike s t → (t.delete id).1 = (s.delete id).1 ∧ Alike (s.delete id).2 (t.delete id).2 := by
  rintro ⟨shelf, hlive, rfl⟩
  simp only [Store.delete]
  by_cases hp : s.poisoned = true
  · simp only [if_pos hp]
    exact ⟨trivial, shelf, hlive, rfl⟩
  · simp only [if_neg hp]
    refine ⟨trivial, shelf.erase id, ?_, rfl⟩
    rw [Shelf.purge_erase, Shelf.purge_erase, hlive]

theorem Alike.get {s t : Store} (h : Alike s t) (id : SnippetId) :
    (t.get id).1 = (s.get id).1 ∧ Alike (s.get id).2 (t.get id).2 := by
  refine ⟨?_, (alike_get s id).symm.trans (h.trans (alike_get t id))⟩
  obtain ⟨shelf, hlive, rfl⟩ := h
  simp only [get_fst, hlive]

theorem Alike.list {s t : Store} (h : Alike s t) :
    t.list.1 = s.list.1 ∧ Alike s.list.2 t.list.2 := by
  refine ⟨?_, (alike_list s).symm.trans (h.trans (alike_list t))⟩
  obtain ⟨shelf, hlive, rfl⟩ := h
  simp only [Store.list, hlive]
  split <;> rfl

theorem Alike.size {s t : Store} : Alike s t → t.size = s.size := by
  rintro ⟨shelf, hlive, rfl⟩
  simp only [Store.size, ← Shelf.purge_entries, hlive]

theorem Alike.isEmpty {s t : Store} (h : Alike s t) : t.isEmpty = s.isEmpty := by
  rw [Store.isEmpty, Store.isEmpty, h.size]

/-- A call of two stores that are alike has the same reply and leaves them alike. -/
theorem Alike.call {s t : Store} (h : Alike s t) (c : StoreCall) :
    (t.call c).1 = (s.call c).1 ∧ Alike (s.call c).2 (t.call c).2 := by
  cases c with
  | advance ms => exact ⟨rfl, h.advance ms⟩
  | save text => exact (h.save text).imp_left (congrArg StoreReply.saved)
  | get id => exact (h.get id).imp_left (congrArg StoreReply.got)
  | delete id => exact (h.delete id).imp_left (congrArg StoreReply.deleted)
  | list => exact h.list.imp_left (congrArg StoreReply.listed)
  | len => exact ⟨congrArg StoreReply.counted h.size, h⟩
  | isEmpty => exact ⟨congrArg StoreReply.tested h.isEmpty, h⟩

/-- No row of calls tells two stores apart that are alike. -/
theorem Alike.replies {s t : Store} (h : Alike s t) (cs : List StoreCall) :
    t.replies cs = s.replies cs := by
  induction cs generalizing s t with
  | nil => rfl
  | cons c cs ih =>
    obtain ⟨hreply, hstate⟩ := h.call c
    rw [Store.replies, Store.replies, hreply, ih hstate]

/-! ## Saves -/

/-- A save that ends with an id or an error, and with an error leaves no trace but the
    random numbers it has used. -/
def SaveHarmless (s : Store) (text : Text) : Prop :=
  (∃ id, (s.save text).1 = .ok id) ∨
    (∃ e, (s.save text).1 = .error (.error e)) ∧
      (s.save text).2.shelf.liveEntries s.now = s.shelf.liveEntries s.now ∧
      ∀ cs, (s.save text).2.replies cs = { s with drawn := (s.save text).2.drawn }.replies cs

/-- **A failed save leaves no trace unless it breaks off.**  In any state of any
    store, a save ends with an id, or with an error after which every entry that is
    live and every reply to come is as if nothing had been saved, if and only if the
    store refuses all calls, the expiry of the text is an instant of the clock, or
    every id drawn is in use. -/
theorem saveHarmless_iff (s : Store) (text : Text) :
    s.SaveHarmless text ↔
      s.poisoned = true ∨ s.now + s.settings.ttl ≤ lastInstant ∨
        ∀ id ∈ s.draws, (s.shelf.purge s.now).holds id = true := by
  rcases s.save_cases text with ⟨hp, hs⟩ | ⟨hp, hfull, drawn, hs⟩ |
    ⟨hp, hfit, id, -, -, drawn, hs⟩ | ⟨hp, hover, ⟨id, hmem, hfree⟩, drawn, hs⟩
  · refine iff_of_true (.inr ⟨⟨_, congrArg Prod.fst hs⟩, ?_⟩) (.inl hp)
    rw [hs]
    exact ⟨rfl, fun cs => rfl⟩
  · refine iff_of_true (.inr ⟨⟨_, congrArg Prod.fst hs⟩, ?_⟩) (.inr (.inr hfull))
    rw [hs]
    refine ⟨congrArg Shelf.entries (s.shelf.purge_purge (Nat.le_refl s.now)), ?_⟩
    exact ({ s with drawn }).alike_purge.replies
  · exact iff_of_true (.inl ⟨id, congrArg Prod.fst hs⟩) (.inr (.inl hfit))
  · refine iff_of_false ?_ ?_
    · rintro (⟨id', h⟩ | ⟨⟨e, h⟩, -⟩)
      · rw [hs] at h
        cases h
      · rw [hs] at h
        cases h
    · rintro (h | h | h)
      · rw [hp] at h
        cases h
      · exact absurd h (Nat.not_le.2 hover)
      · rw [h id hmem] at hfree
        cases hfree

/-- Settings under which a text is to live as long as a document can say. -/
def longLived : Settings := { Settings.default with store := ⟨9223372036854775807, 1000, 8⟩ }

/-- Under settings that a document may well have, the first save breaks off, and a
    store that answered before answers no more. -/
theorem first_save_breaks_off :
    Settings.parse "[store]\nttl_secs = 9223372036854775807\n".toList = .ok longLived ∧
      ((new longLived.storeSettings 1000 id).save ['x']).1 = .error (.abort .expiryOverflow) ∧
      (new longLived.storeSettings 1000 id).list.1 = .ok ⟨[], true⟩ ∧
      ((new longLived.storeSettings 1000 id).save ['x']).2.list.1 =
        .error (.error .lockPoisoned) := by
  refine ⟨?_, ?_, ?_, ?_⟩
  · decide +kernel
  · decide +kernel
  · decide +kernel
  · decide +kernel

end Store

end CodeSnippets
