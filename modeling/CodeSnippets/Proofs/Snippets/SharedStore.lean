/-
  A store that any number of clients use at the same time.

  A call is made of sections in which nothing else can happen.  `get` has two, one
  that looks the id up and one that drops it if it has expired; every other call has
  one.

  * `Store.look`, `Store.drop`: the two sections of a get, which make a get when
    nothing comes between them (`Store.get_eq_sections`);
  * `SharedStore`: a store with the gets that are between their sections;
  * `SharedStore.step`, `SharedStore.run`: a section of some client, and the sections
    of all clients in any order;
  * `saved_entry_stays_iff`: a text that was just saved stays on the shelf until it
    expires or is deleted, whatever the clients do, if and only if no get of its id
    is between its sections.
-/
import CodeSnippets.Proofs.Snippets.LiveEntries

namespace CodeSnippets

/-! ## Sections -/

namespace Store

/-- The section of a get that looks the id up: its answer, or none if the get goes
    on to drop the id. -/
def look (s : Store) (id : SnippetId) : Option (Answer StoreError Text) :=
  if s.poisoned then some (.error (.error .lockPoisoned))
  else
    match s.shelf.lookup s.now id with
    | .live text => some (.ok text)
    | .absent => some (.error (.error .notFound))
    | .expired => none

/-- The section of a get that drops the id. -/
def drop (s : Store) (id : SnippetId) : Answer StoreError Text × Store :=
  if s.poisoned then (.error (.error .lockPoisoned), s)
  else (.error (.error .notFound), { s with shelf := s.shelf.erase id })

theorem get_eq_sections (s : Store) (id : SnippetId) :
    s.get id =
      match s.look id with
      | some answer => (answer, s)
      | none => s.drop id := by
  unfold get look drop
  cases s.poisoned with
  | true => rfl
  | false =>
    simp only [Bool.false_eq_true, if_false]
    cases s.shelf.lookup s.now id <;> rfl

theorem mem_drop {s : Store} {e : Entry} {id : SnippetId} (he : e ∈ s.shelf.entries)
    (hid : e.id ≠ id) : e ∈ (s.drop id).2.shelf.entries := by
  unfold drop
  split
  · exact he
  · exact Shelf.mem_erase.2 ⟨he, hid⟩

theorem drop_of_not_poisoned {s : Store} (h : s.poisoned = false) (id : SnippetId) :
    s.drop id = (.error (.error .notFound), { s with shelf := s.shelf.erase id }) := by
  simp [drop, h]

end Store

/-- What a client does without another coming between. -/
inductive Section where
  /-- a call of one section, or a get whose sections follow on each other -/
  | call (c : StoreCall)
  /-- the first section of a get -/
  | look (id : SnippetId)
  /-- the second section of a get -/
  | drop (id : SnippetId)
  deriving DecidableEq, Repr

/-- A store, and the ids of the gets that have found an entry expired and are still
    to drop it. -/
structure SharedStore where
  store : Store
  overdue : List SnippetId

namespace SharedStore

/-- A store that nobody has used. -/
def new (settings : StoreSettings) (now : Nat) (source : Nat → Nat) : SharedStore :=
  ⟨.new settings now source, []⟩

/-- A section of some client.  Only a get that is between its sections drops. -/
def step (x : SharedStore) : Section → SharedStore
  | .call c => { x with store := (x.store.call c).2 }
  | .look id => if x.store.look id = none then { x with overdue := id :: x.overdue } else x
  | .drop id =>
    if id ∈ x.overdue then ⟨(x.store.drop id).2, x.overdue.erase id⟩ else x

/-- Sections one after the other. -/
def run (x : SharedStore) (sections : List Section) : SharedStore := sections.foldl step x

/-! ## Live entries -/

theorem now_step (x : SharedStore) (a : Section) : x.store.now ≤ (x.step a).store.now := by
  cases a with
  | call c => exact Store.le_now_call x.store c
  | look id =>
    simp only [step]
    split <;> exact Nat.le_refl _
  | drop id =>
    simp only [step, Store.drop]
    split
    · split <;> exact Nat.le_refl _
    · exact Nat.le_refl _

theorem now_run (x : SharedStore) (sections : List Section) :
    x.store.now ≤ (x.run sections).store.now := by
  induction sections generalizing x with
  | nil => exact Nat.le_refl _
  | cons a sections ih => exact Nat.le_trans (x.now_step a) (ih (x.step a))

/-- An entry that no get is about to drop. -/
structure Safe (x : SharedStore) (e : Entry) : Prop where
  mem : e ∈ x.store.shelf.entries
  not_overdue : e.id ∉ x.overdue

/-- A live entry that is safe stays so in any section but a delete of its id. -/
theorem Safe.step {x : SharedStore} {e : Entry} (h : x.Safe e) (hlive : x.store.now < e.expiry)
    {a : Section} (ha : a ≠ .call (.delete e.id)) : (x.step a).Safe e := by
  cases a with
  | call c =>
    exact ⟨Store.mem_call h.mem hlive fun hc => ha (congrArg Section.call hc), h.not_overdue⟩
  | look id =>
    simp only [SharedStore.step]
    split
    · rename_i hnone
      refine ⟨h.mem, fun hmem => ?_⟩
      rcases List.mem_cons.1 hmem with hid | hmem
      · -- the first section of a get answers when it finds a live entry
        rw [← hid, Store.look, Store.lookup_of_live h.mem hlive] at hnone
        split at hnone <;> cases hnone
      · exact h.not_overdue hmem
    · exact h
  | drop id =>
    simp only [SharedStore.step]
    split
    · rename_i hid
      have hne : e.id ≠ id := fun he => h.not_overdue (he ▸ hid)
      exact ⟨Store.mem_drop h.mem hne, fun hmem => h.not_overdue (List.mem_of_mem_erase hmem)⟩
    · exact h

theorem Safe.run {x : SharedStore} {e : Entry} (h : x.Safe e) (sections : List Section)
    (hdel : .call (.delete e.id) ∉ sections) (hlive : (x.run sections).store.now < e.expiry) :
    (x.run sections).Safe e := by
  induction sections generalizing x with
  | nil => exact h
  | cons a sections ih =>
    have hlive' : x.store.now < e.expiry := Nat.lt_of_le_of_lt (x.now_run (a :: sections)) hlive
    refine ih (h.step hlive' fun ha => hdel (ha ▸ List.mem_cons_self)) ?_ hlive
    exact fun hmem => hdel (List.mem_cons_of_mem _ hmem)

/-- **A saved text stays as long as it lives, but for a late get.**  Whatever the
    clients do in whatever order after a save, its entry is on the shelf until the
    clock reaches its expiry or its id is deleted, if and only if no get that found
    an earlier entry of the id expired is still to drop it. -/
theorem saved_entry_stays_iff (x : SharedStore) {text : Text} {id : SnippetId}
    (hsave : (x.store.save text).1 = .ok id) (httl : 0 < x.store.settings.ttl) :
    (∀ sections : List Section, .call (.delete id) ∉ sections →
      ((x.step (.call (.save text))).run sections).store.now <
        x.store.now + x.store.settings.ttl →
      ⟨id, text, x.store.now + x.store.settings.ttl⟩ ∈
        ((x.step (.call (.save text))).run sections).store.shelf.entries) ↔
    id ∉ x.overdue := by
  have hmem := Store.mem_save_of_ok hsave
  constructor
  · intro h hid
    obtain ⟨hp, -, -, -, drawn, hs⟩ := Store.save_of_ok hsave
    have hdrop : ((x.step (.call (.save text))).run [.drop id]).store =
        { (x.store.save text).2 with shelf := (x.store.save text).2.shelf.erase id } := by
      have hsound : (x.store.save text).2.poisoned = false := by rw [hs]; exact hp
      simp only [run, SharedStore.step, Store.call, List.foldl_cons, List.foldl_nil, if_pos hid,
        Store.drop_of_not_poisoned hsound]
    have hstays := h [.drop id] (by simp) (by rw [hdrop, hs]; exact Nat.lt_add_of_pos_right httl)
    rw [hdrop] at hstays
    exact (Shelf.mem_erase.1 hstays).2 rfl
  · intro hid sections hdel hlive
    exact (Safe.run ⟨hmem, hid⟩ sections hdel hlive).mem

/-- A store of one id, in which a text has expired and one client has looked for it. -/
def lookedUp : SharedStore :=
  (new hastySettings 0 fun _ => 0).run
    [.call (.save ['a']), .call (.advance 10), .look ⟨['0']⟩]

/-- Once the client has finished, another can save under the same id. -/
theorem saved_entry_stays_after_get :
    ((lookedUp.run [.drop ⟨['0']⟩]).store.save ['b']).1 = .ok ⟨['0']⟩ ∧
      0 < (lookedUp.run [.drop ⟨['0']⟩]).store.settings.ttl ∧
      ∀ sections : List Section, .call (.delete ⟨['0']⟩) ∉ sections →
        (((lookedUp.run [.drop ⟨['0']⟩]).step (.call (.save ['b']))).run sections).store.now < 20 →
        ⟨⟨['0']⟩, ['b'], 20⟩ ∈
          (((lookedUp.run [.drop ⟨['0']⟩]).step (.call (.save ['b']))).run
            sections).store.shelf.entries := by
  have hsave : ((lookedUp.run [.drop ⟨['0']⟩]).store.save ['b']).1 = .ok ⟨['0']⟩ := by
    decide +kernel
  have httl : 0 < (lookedUp.run [.drop ⟨['0']⟩]).store.settings.ttl := by decide +kernel
  have hnow : (lookedUp.run [.drop ⟨['0']⟩]).store.now +
      (lookedUp.run [.drop ⟨['0']⟩]).store.settings.ttl = 20 := by decide +kernel
  refine ⟨hsave, httl, ?_⟩
  have hstays := (saved_entry_stays_iff _ hsave httl).2 (by decide +kernel)
  rw [hnow] at hstays
  exact hstays

/-- Before that, the client takes the new text off the shelf in the middle of its
    life, though nobody deletes it. -/
theorem live_entry_lost_between_sections :
    (lookedUp.store.save ['b']).1 = .ok ⟨['0']⟩ ∧
      (lookedUp.run [.call (.save ['b'])]).store.shelf.entries = [⟨⟨['0']⟩, ['b'], 20⟩] ∧
      (lookedUp.run [.call (.save ['b']), .drop ⟨['0']⟩]).store.now = 10 ∧
      (lookedUp.run [.call (.save ['b']), .drop ⟨['0']⟩]).store.shelf.entries = [] := by
  decide +kernel

end SharedStore

end CodeSnippets
