/-
  Saved texts in the order of their ids.

  An entry is a text under an id, with the time at which it expires; it is live
  before that time, and from then on as good as gone.  A shelf holds at most one
  entry for an id.

  * `Shelf.find?`, `Shelf.lookup`: the entry of an id, and what it is worth at a
    time;
  * `Shelf.insert`, `Shelf.erase`: with an entry put in, with an id taken out;
  * `Shelf.purge`: without the entries that have expired;
  * `mem_insert`, `mem_erase`, `mem_purge`: which entries are on the shelf after
    each.

  Times are milliseconds on a clock that never goes back.
-/
import CodeSnippets.Snippets.Id

namespace CodeSnippets

/-- A saved text. -/
structure Entry where
  id : SnippetId
  text : Text
  /-- when it stops being live -/
  expiry : Nat
  deriving DecidableEq, Repr

/-- Whether an entry is live at a time. -/
def Entry.isLive (now : Nat) (e : Entry) : Bool := now < e.expiry

/-- Entries in the order of their ids, with no id twice. -/
structure Shelf where
  entries : List Entry
  ascending : entries.Pairwise fun a b => a.id < b.id

/-- What is under an id at a time. -/
inductive Lookup where
  | absent
  | expired
  | live (text : Text)
  deriving DecidableEq, Repr

namespace Shelf

/-- The shelf without entries. -/
def empty : Shelf := ⟨[], .nil⟩

/-- The entry of an id. -/
def find? (s : Shelf) (id : SnippetId) : Option Entry := s.entries.find? fun e => e.id == id

/-- Whether there is an entry of an id, live or not. -/
def holds (s : Shelf) (id : SnippetId) : Bool := (s.find? id).isSome

/-- What is under an id at a time. -/
def lookup (s : Shelf) (now : Nat) (id : SnippetId) : Lookup :=
  match s.find? id with
  | none => .absent
  | some e => if e.isLive now then .live e.text else .expired

/-- The entries that are live at a time, in the order of their ids. -/
def liveEntries (s : Shelf) (now : Nat) : List Entry := s.entries.filter (Entry.isLive now)

/-- The shelf without the entries that have expired. -/
def purge (s : Shelf) (now : Nat) : Shelf := ⟨s.liveEntries now, s.ascending.filter _⟩

/-- The shelf without an id. -/
def erase (s : Shelf) (id : SnippetId) : Shelf :=
  ⟨s.entries.filter fun e => e.id != id, s.ascending.filter _⟩

/-- Ascending entries with one more among them, in place of one of the same id. -/
def insertEntry (e : Entry) : List Entry → List Entry
  | [] => [e]
  | x :: rest =>
    if e.id < x.id then e :: x :: rest
    else if e.id = x.id then e :: rest
    else x :: insertEntry e rest

theorem mem_insertEntry_of {e y : Entry} {l : List Entry} (h : y ∈ insertEntry e l) :
    y = e ∨ y ∈ l := by
  induction l with
  | nil => simpa [insertEntry] using h
  | cons x rest ih =>
    simp only [insertEntry] at h
    split at h
    · simpa using h
    · split at h
      · rcases List.mem_cons.1 h with h | h
        · exact .inl h
        · exact .inr (List.mem_cons_of_mem _ h)
      · rcases List.mem_cons.1 h with h | h
        · exact .inr (h ▸ List.mem_cons_self)
        · rcases ih h with h | h
          · exact .inl h
          · exact .inr (List.mem_cons_of_mem _ h)

theorem pairwise_insertEntry (e : Entry) {l : List Entry}
    (h : l.Pairwise fun a b => a.id < b.id) :
    (insertEntry e l).Pairwise fun a b => a.id < b.id := by
  induction l with
  | nil => simp [insertEntry]
  | cons x rest ih =>
    obtain ⟨hx, hrest⟩ := List.pairwise_cons.1 h
    simp only [insertEntry]
    split
    · rename_i hlt
      refine List.pairwise_cons.2 ⟨fun y hy => ?_, h⟩
      rcases List.mem_cons.1 hy with rfl | hy
      · exact hlt
      · exact SnippetId.lt_trans hlt (hx y hy)
    · split
      · rename_i heq
        exact List.pairwise_cons.2 ⟨fun y hy => heq ▸ hx y hy, hrest⟩
      · rename_i hlt hne
        refine List.pairwise_cons.2 ⟨fun y hy => ?_, ih hrest⟩
        rcases mem_insertEntry_of hy with rfl | hy
        · exact SnippetId.lt_of_not_lt_of_ne hlt hne
        · exact hx y hy

/-- The shelf with an entry put in, in place of one of the same id. -/
def insert (s : Shelf) (e : Entry) : Shelf :=
  ⟨insertEntry e s.entries, pairwise_insertEntry e s.ascending⟩

/-! ## The entries after a change -/

theorem mem_purge {s : Shelf} {now : Nat} {x : Entry} :
    x ∈ (s.purge now).entries ↔ x ∈ s.entries ∧ now < x.expiry := by
  simp [purge, liveEntries, Entry.isLive]

theorem mem_erase {s : Shelf} {id : SnippetId} {x : Entry} :
    x ∈ (s.erase id).entries ↔ x ∈ s.entries ∧ x.id ≠ id := by
  simp [erase]

theorem mem_insertEntry {e x : Entry} {l : List Entry} (h : l.Pairwise fun a b => a.id < b.id) :
    x ∈ insertEntry e l ↔ x = e ∨ (x ∈ l ∧ x.id ≠ e.id) := by
  induction l with
  | nil => simp [insertEntry]
  | cons y rest ih =>
    obtain ⟨hy, hrest⟩ := List.pairwise_cons.1 h
    have away : ∀ z ∈ rest, e.id < y.id ∨ e.id = y.id → z.id ≠ e.id := by
      rintro z hz (hlt | heq) hze
      · exact SnippetId.lt_irrefl _ (hze ▸ SnippetId.lt_trans hlt (hy z hz))
      · exact SnippetId.lt_irrefl z.id (hze.trans heq ▸ hy z hz)
    simp only [insertEntry]
    split
    · rename_i hlt
      have hne : y.id ≠ e.id := fun he => SnippetId.lt_irrefl _ (he ▸ hlt)
      simp only [List.mem_cons]
      constructor
      · rintro (hx | hx | hx)
        · exact .inl hx
        · exact .inr ⟨.inl hx, hx ▸ hne⟩
        · exact .inr ⟨.inr hx, away x hx (.inl hlt)⟩
      · rintro (hx | ⟨hx, -⟩)
        · exact .inl hx
        · exact .inr hx
    · split
      · rename_i heq
        simp only [List.mem_cons]
        constructor
        · rintro (hx | hx)
          · exact .inl hx
          · exact .inr ⟨.inr hx, away x hx (.inr heq)⟩
        · rintro (hx | ⟨hx | hx, hne⟩)
          · exact .inl hx
          · exact absurd (hx ▸ heq.symm) hne
          · exact .inr hx
      · rename_i hne
        simp only [List.mem_cons, ih hrest]
        constructor
        · rintro (hx | hx | ⟨hx, hxe⟩)
          · exact .inr ⟨.inl hx, fun he => hne (hx ▸ he).symm⟩
          · exact .inl hx
          · exact .inr ⟨.inr hx, hxe⟩
        · rintro (hx | ⟨hx | hx, hxe⟩)
          · exact .inr (.inl hx)
          · exact .inl hx
          · exact .inr (.inr ⟨hx, hxe⟩)

theorem mem_insert {s : Shelf} {e x : Entry} :
    x ∈ (s.insert e).entries ↔ x = e ∨ (x ∈ s.entries ∧ x.id ≠ e.id) :=
  mem_insertEntry s.ascending

end Shelf

end CodeSnippets
