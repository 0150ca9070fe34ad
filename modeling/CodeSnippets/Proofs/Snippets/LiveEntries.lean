/-
  What the calls of a store do to an entry that is live.

  * `Store.save_cases`: the four ways in which a save ends;
  * `Store.save_of_ok`: what a save that gives an id has done;
  * `Store.mem_call`: an entry stays on the shelf while it is live, unless its id is
    deleted.  A save never takes its id for another text, since the ids on the shelf
    are passed over.
-/
import CodeSnippets.Proofs.Snippets.StoreRefinement

namespace CodeSnippets.Store

/-! ## The ways in which a save ends -/

/-- The ids that a save may try, in the order in which they are drawn. -/
def draws (s : Store) : List SnippetId :=
  (List.range' s.drawn maxAttempts).map fun k => SnippetId.ofDraw s.settings.idLength (s.source k)

theorem pickId_draws {s : Store} {id? : Option SnippetId} {drawn : Nat}
    (h : pickId (s.shelf.purge s.now) s.settings.idLength s.source maxAttempts s.drawn =
      (id?, drawn)) :
    s.draws.find? (fun id => !(s.shelf.purge s.now).holds id) = id? := by
  rw [pickId_eq] at h
  exact congrArg Prod.fst h

/-- A save is refused, finds no id that is free, gives one that is, or breaks off. -/
theorem save_cases (s : Store) (text : Text) :
    (s.poisoned = true ∧ s.save text = (.error (.error .lockPoisoned), s)) ∨
    (s.poisoned = false ∧ (∀ id ∈ s.draws, (s.shelf.purge s.now).holds id = true) ∧
      ∃ drawn, s.save text =
        (.error (.error .noUnusedId), { s with shelf := s.shelf.purge s.now, drawn })) ∨
    (s.poisoned = false ∧ s.now + s.settings.ttl ≤ lastInstant ∧
      ∃ id ∈ s.draws, (s.shelf.purge s.now).holds id = false ∧
        ∃ drawn, s.save text = (.ok id, { s with
          shelf := (s.shelf.purge s.now).insert ⟨id, text, s.now + s.settings.ttl⟩, drawn })) ∨
    (s.poisoned = false ∧ lastInstant < s.now + s.settings.ttl ∧
      (∃ id ∈ s.draws, (s.shelf.purge s.now).holds id = false) ∧
      ∃ drawn, s.save text = (.error (.abort .expiryOverflow), { s with
        shelf := s.shelf.purge s.now, drawn, poisoned := true })) := by
  cases hp : s.poisoned with
  | true => exact .inl ⟨rfl, by simp [save, hp]⟩
  | false =>
    cases hpick : pickId (s.shelf.purge s.now) s.settings.idLength s.source maxAttempts s.drawn with
    | mk id? drawn =>
      have hfind := pickId_draws hpick
      cases id? with
      | none =>
        refine .inr (.inl ⟨rfl, fun id hid => ?_, drawn, by simp [save, hp, hpick]⟩)
        simpa using List.find?_eq_none.1 hfind id hid
      | some id =>
        have hmem : id ∈ s.draws := List.mem_of_find?_eq_some hfind
        have hfree : (s.shelf.purge s.now).holds id = false := by
          simpa using List.find?_some hfind
        by_cases hfit : s.now + s.settings.ttl ≤ lastInstant
        · refine .inr (.inr (.inl ⟨rfl, hfit, id, hmem, hfree, drawn, ?_⟩))
          simp [save, hp, hpick, hfit]
        · refine .inr (.inr (.inr ⟨rfl, Nat.lt_of_not_le hfit, ⟨id, hmem, hfree⟩, drawn, ?_⟩))
          simp [save, hp, hpick, hfit]

/-- What a save that gives an id has done. -/
theorem save_of_ok {s : Store} {text : Text} {id : SnippetId} (h : (s.save text).1 = .ok id) :
    s.poisoned = false ∧ s.now + s.settings.ttl ≤ lastInstant ∧
      id ∈ s.draws ∧ (s.shelf.purge s.now).holds id = false ∧
      ∃ drawn, (s.save text).2 = { s with
        shelf := (s.shelf.purge s.now).insert ⟨id, text, s.now + s.settings.ttl⟩, drawn } := by
  rcases s.save_cases text with ⟨-, hs⟩ | ⟨-, -, drawn, hs⟩ |
    ⟨hp, hfit, id', hmem, hfree, drawn, hs⟩ | ⟨-, -, -, drawn, hs⟩
  · simp [hs] at h
  · simp [hs] at h
  · rw [hs] at h ⊢
    cases h
    exact ⟨hp, hfit, hmem, hfree, drawn, rfl⟩
  · simp [hs] at h

theorem mem_save_of_ok {s : Store} {text : Text} {id : SnippetId} (h : (s.save text).1 = .ok id) :
    ⟨id, text, s.now + s.settings.ttl⟩ ∈ (s.save text).2.shelf.entries := by
  obtain ⟨-, -, -, -, drawn, hs⟩ := save_of_ok h
  rw [hs]
  exact Shelf.mem_insert.2 (.inl rfl)

/-! ## Live entries -/

section

variable {s : Store} {e : Entry}

theorem mem_save (text : Text) (he : e ∈ s.shelf.entries) (hlive : s.now < e.expiry) :
    e ∈ (s.save text).2.shelf.entries := by
  have hpurge : e ∈ (s.shelf.purge s.now).entries := Shelf.mem_purge.2 ⟨he, hlive⟩
  rcases s.save_cases text with ⟨-, hs⟩ | ⟨-, -, drawn, hs⟩ | ⟨-, -, id, -, hfree, drawn, hs⟩ |
    ⟨-, -, -, drawn, hs⟩
  · rw [hs]
    exact he
  · rw [hs]
    exact hpurge
  · rw [hs]
    refine Shelf.mem_insert.2 (.inr ⟨hpurge, fun hid => ?_⟩)
    have hholds : (s.shelf.purge s.now).holds id = true := Shelf.holds_iff.2 ⟨e, hpurge, hid⟩
    rw [hholds] at hfree
    cases hfree
  · rw [hs]
    exact hpurge

theorem lookup_of_live (he : e ∈ s.shelf.entries) (hlive : s.now < e.expiry) :
    s.shelf.lookup s.now e.id = .live e.text :=
  Shelf.lookup_eq_live.2 ⟨e.expiry, hlive, he⟩

theorem mem_get (id : SnippetId) (he : e ∈ s.shelf.entries) (hlive : s.now < e.expiry) :
    e ∈ (s.get id).2.shelf.entries := by
  unfold get
  split
  · exact he
  · split
    · exact he
    · exact he
    · rename_i hexp
      refine Shelf.mem_erase.2 ⟨he, fun hid => ?_⟩
      rw [← hid, lookup_of_live he hlive] at hexp
      cases hexp

theorem mem_delete {id : SnippetId} (he : e ∈ s.shelf.entries) (hid : e.id ≠ id) :
    e ∈ (s.delete id).2.shelf.entries := by
  unfold delete
  split
  · exact he
  · exact Shelf.mem_erase.2 ⟨he, hid⟩

theorem mem_list (he : e ∈ s.shelf.entries) (hlive : s.now < e.expiry) :
    e ∈ s.list.2.shelf.entries := by
  unfold list
  split
  · exact he
  · exact Shelf.mem_purge.2 ⟨he, hlive⟩

/-- No call takes a live entry off the shelf but a delete of its id. -/
theorem mem_call {c : StoreCall} (he : e ∈ s.shelf.entries) (hlive : s.now < e.expiry)
    (hc : c ≠ .delete e.id) : e ∈ (s.call c).2.shelf.entries := by
  cases c with
  | save text => exact mem_save text he hlive
  | get id => exact mem_get id he hlive
  | delete id => exact mem_delete he fun hid => hc (hid ▸ rfl)
  | list => exact mem_list he hlive
  | _ => exact he

end

theorem le_now_call (s : Store) (c : StoreCall) : s.now ≤ (s.call c).2.now := by
  cases c with
  | advance ms => exact Nat.le_add_right _ _
  | save text =>
    simp only [call]
    rcases s.save_cases text with ⟨-, hs⟩ | ⟨-, -, drawn, hs⟩ | ⟨-, -, id, -, -, drawn, hs⟩ |
      ⟨-, -, -, drawn, hs⟩ <;> rw [hs]
  | get id =>
    simp only [call, get]
    split
    · exact Nat.le_refl _
    · split <;> exact Nat.le_refl _
  | delete id =>
    simp only [call, delete]
    split <;> exact Nat.le_refl _
  | list =>
    simp only [call, list]
    split <;> exact Nat.le_refl _
  | _ => exact Nat.le_refl _

end CodeSnippets.Store
