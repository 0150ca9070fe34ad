/-
  What a store shows, told without its shelf.

  * `StoreCall`, `StoreReply`: what is done with a store, time going by
    included, and what comes back;
  * `Store.call`, `Store.replies`: one call of a store, and the replies to a
    row of calls;
  * `ReferenceStore`: a finite map from ids to a text and an expiry.  An entry
    is present as long as its expiry is to come, and only a save under its id or
    a delete takes it out of the map;
  * `AllFit`: the expiry of every text saved in a row of calls is an instant of
    the clock.

  Ids are ordered by their characters (`SnippetId.linearOrder`), so the present
  ids can be listed with `Finset.sort`.
-/
import CodeSnippets.Snippets.Store
import Mathlib.Data.Finmap
import Mathlib.Data.Finset.Sort

namespace CodeSnippets

instance SnippetId.linearOrder : LinearOrder SnippetId where
  le a b := ¬ b < a
  lt := (· < ·)
  le_refl := SnippetId.lt_irrefl
  le_trans a b c hab hbc := by
    intro hca
    by_cases h : a = b
    · exact hbc (h ▸ hca)
    · exact hbc (SnippetId.lt_trans hca (SnippetId.lt_of_not_lt_of_ne hab (Ne.symm h)))
  lt_iff_le_not_ge a b := by
    constructor
    · intro h
      exact ⟨fun hba => SnippetId.lt_irrefl a (SnippetId.lt_trans h hba), fun hn => hn h⟩
    · rintro ⟨-, h⟩
      exact Decidable.of_not_not h
  le_antisymm a b hab hba := by
    by_contra hne
    exact hba (SnippetId.lt_of_not_lt_of_ne hab (Ne.symm hne))
  le_total a b := by
    by_cases h : b < a
    · exact .inr fun hab => SnippetId.lt_irrefl _ (SnippetId.lt_trans h hab)
    · exact .inl h
  toDecidableLE a b := inferInstanceAs (Decidable (¬ b < a))
  toDecidableLT := inferInstance
  toDecidableEq := inferInstance

/-! ## Calls -/

/-- What is done with a store. -/
inductive StoreCall where
  /-- some milliseconds go by -/
  | advance (ms : Nat)
  | save (text : Text)
  | get (id : SnippetId)
  | delete (id : SnippetId)
  | list
  | len
  | isEmpty
  deriving DecidableEq, Repr

/-- What comes back from a call. -/
inductive StoreReply where
  | advanced
  | saved (answer : Answer StoreError SnippetId)
  | got (answer : Answer StoreError Text)
  | deleted (answer : Answer StoreError Unit)
  | listed (answer : Answer StoreError Listing)
  | counted (answer : Answer StoreError Nat)
  | tested (answer : Answer StoreError Bool)
  deriving DecidableEq

namespace Store

/-- A call of a store. -/
def call (s : Store) : StoreCall → StoreReply × Store
  | .advance ms => (.advanced, s.advance ms)
  | .save text => (.saved (s.save text).1, (s.save text).2)
  | .get id => (.got (s.get id).1, (s.get id).2)
  | .delete id => (.deleted (s.delete id).1, (s.delete id).2)
  | .list => (.listed s.list.1, s.list.2)
  | .len => (.counted s.size, s)
  | .isEmpty => (.tested s.isEmpty, s)

/-- The replies to calls made one after the other. -/
def replies (s : Store) : List StoreCall → List StoreReply
  | [] => []
  | c :: cs => (s.call c).1 :: (s.call c).2.replies cs

end Store

/-- The reading of the clock after a call made at `now`. -/
def StoreCall.clock (now : Nat) : StoreCall → Nat
  | .advance ms => now + ms
  | _ => now

/-- The expiry of a text saved at `now` is an instant of the clock. -/
def StoreCall.Fits (ttl now : Nat) : StoreCall → Prop
  | .save _ => now + ttl ≤ Store.lastInstant
  | _ => True

/-- Of all calls made from `now` on, those that save fit on the clock. -/
def AllFit (ttl : Nat) : Nat → List StoreCall → Prop
  | _, [] => True
  | now, c :: cs => c.Fits ttl now ∧ AllFit ttl (c.clock now) cs

/-! ## The reference store -/

/-- A text and an expiry for some ids, with the surroundings of a store. -/
structure ReferenceStore where
  settings : StoreSettings
  now : Nat
  source : Nat → Nat
  drawn : Nat
  bindings : Finmap fun _ : SnippetId => Text × Nat

namespace ReferenceStore

/-- A reference store without bindings. -/
def new (settings : StoreSettings) (now : Nat) (source : Nat → Nat) : ReferenceStore :=
  ⟨settings, now, source, 0, ∅⟩

/-- The text of an entry whose expiry is to come. -/
def text? (r : ReferenceStore) (id : SnippetId) : Option Text :=
  match r.bindings.lookup id with
  | none => none
  | some (text, expiry) => if r.now < expiry then some text else none

/-- The ids whose entries are present. -/
def present (r : ReferenceStore) : Finset SnippetId :=
  r.bindings.keys.filter fun id => (r.text? id).isSome

/-- The ids that a save may try, in the order in which they are drawn. -/
def draws (r : ReferenceStore) : List SnippetId :=
  (List.range' r.drawn 16).map fun k => SnippetId.ofDraw r.settings.idLength (r.source k)

/-- Binds a text to the first of the ids drawn that is not present. -/
def save (r : ReferenceStore) (text : Text) : Answer StoreError SnippetId × ReferenceStore :=
  -- no id is drawn behind the one that is taken
  let drawn := r.drawn + min 16 (r.draws.findIdx (· ∉ r.present) + 1)
  match r.draws.find? (· ∉ r.present) with
  | none => (.error (.error .noUnusedId), { r with drawn })
  | some id =>
    (.ok id, { r with drawn, bindings := r.bindings.insert id (text, r.now + r.settings.ttl) })

/-- The text of a present id. -/
def get (r : ReferenceStore) (id : SnippetId) : Answer StoreError Text :=
  match r.text? id with
  | none => .error (.error .notFound)
  | some text => .ok text

/-- The first present ids in ascending order. -/
def list (r : ReferenceStore) : Listing :=
  ⟨r.present.sort.take r.settings.listLimit, r.present.card ≤ r.settings.listLimit⟩

/-- A call of a reference store. -/
def call (r : ReferenceStore) : StoreCall → StoreReply × ReferenceStore
  | .advance ms => (.advanced, { r with now := r.now + ms })
  | .save text => (.saved (r.save text).1, (r.save text).2)
  | .get id => (.got (r.get id), r)
  | .delete id => (.deleted (.ok ()), { r with bindings := r.bindings.erase id })
  | .list => (.listed (.ok r.list), r)
  | .len => (.counted (.ok r.present.card), r)
  | .isEmpty => (.tested (.ok (r.present = ∅)), r)

/-- The replies to calls made one after the other. -/
def replies (r : ReferenceStore) : List StoreCall → List StoreReply
  | [] => []
  | c :: cs => (r.call c).1 :: (r.call c).2.replies cs

end ReferenceStore

end CodeSnippets
