/-
  Links to loaded snippets.

  A link holds an id as it is, without an escape.  It can be read back because of what ids
  look like, and they look so in every state: a store puts only ids on its shelf that it has
  drawn, and a session loads only ids that are on the shelf.

  * `SnippetId.IsHex`: 1 to 32 lower-case hexadecimal digits;
  * `Workspace.HexIds`: the ids on the shelf and the loaded one look so, which every call
    keeps (`HexIds.step`, `HexIds.run`);
  * `id_of_shareUrl`: an id that looks so is read back from a link;
  * `share_links_lead_back`: so is the loaded id after any run.
-/
import CodeSnippets.Proofs.Session.Workspace
import CodeSnippets.Proofs.Snippets.LiveEntries
import CodeSnippets.Proofs.Snippets.RandomIds
import CodeSnippets.Proofs.Web.FormFields

namespace CodeSnippets

/-! ## Ids on the shelf -/

/-- From 1 to 32 lower-case hexadecimal digits. -/
def SnippetId.IsHex (id : SnippetId) : Prop :=
  1 ≤ id.text.length ∧ id.text.length ≤ 32 ∧ ∀ c ∈ id.text, c ∈ lowerHexDigits

theorem SnippetId.isHex_ofDraw (length n : Nat) : (ofDraw length n).IsHex := by
  have hlength := length_ofDraw length n
  exact ⟨by omega, by omega, fun c hc => mem_digits_ofDraw hc⟩

namespace Store

/-- All ids on the shelf are hexadecimal digits. -/
def HexIds (s : Store) : Prop := ∀ e ∈ s.shelf.entries, e.id.IsHex

theorem hexIds_new (settings : StoreSettings) (now : Nat) (source : Nat → Nat) :
    (new settings now source).HexIds := nofun

theorem isHex_of_mem_draws {s : Store} {id : SnippetId} (h : id ∈ s.draws) : id.IsHex := by
  obtain ⟨k, -, rfl⟩ := List.mem_map.1 h
  exact SnippetId.isHex_ofDraw _ _

section

variable {s : Store} (h : s.HexIds)

include h

theorem HexIds.of_subset {t : Store} (hsub : ∀ e ∈ t.shelf.entries, e ∈ s.shelf.entries) :
    t.HexIds :=
  fun e he => h e (hsub e he)

theorem HexIds.save (text : Text) : (s.save text).2.HexIds := by
  have hpurge : ∀ e ∈ (s.shelf.purge s.now).entries, e.id.IsHex :=
    fun e he => h e (Shelf.mem_purge.1 he).1
  rcases s.save_cases text with ⟨-, hs⟩ | ⟨-, -, drawn, hs⟩ | ⟨-, -, id, hid, -, drawn, hs⟩ |
    ⟨-, -, -, drawn, hs⟩
  · rwa [hs]
  · rw [hs]
    exact hpurge
  · rw [hs]
    intro e he
    rcases Shelf.mem_insert.1 he with rfl | ⟨he, -⟩
    · exact isHex_of_mem_draws hid
    · exact hpurge e he
  · rw [hs]
    exact hpurge

theorem HexIds.get (id : SnippetId) : (s.get id).2.HexIds := by
  refine h.of_subset fun e he => ?_
  unfold Store.get at he
  split at he
  · exact he
  · split at he
    · exact he
    · exact he
    · exact (Shelf.mem_erase.1 he).1

theorem HexIds.delete (id : SnippetId) : (s.delete id).2.HexIds := by
  refine h.of_subset fun e he => ?_
  unfold Store.delete at he
  split at he
  · exact he
  · exact (Shelf.mem_erase.1 he).1

theorem HexIds.list : s.list.2.HexIds := by
  refine h.of_subset fun e he => ?_
  unfold Store.list at he
  split at he
  · exact he
  · exact (Shelf.mem_purge.1 he).1

/-- An id that is got is on the shelf. -/
theorem HexIds.isHex_of_get {id : SnippetId} {text : Text} (hgot : (s.get id).1 = .ok text) :
    id.IsHex := by
  unfold Store.get at hgot
  split at hgot
  · cases hgot
  · split at hgot
    · rename_i hlookup
      obtain ⟨expiry, -, he⟩ := Shelf.lookup_eq_live.1 hlookup
      exact h _ he
    · cases hgot
    · cases hgot

/-- No call of a store puts an id on the shelf that it has not drawn. -/
theorem HexIds.call (c : StoreCall) : (s.call c).2.HexIds := by
  cases c with
  | advance | len | isEmpty => exact h
  | save text => exact h.save text
  | get id => exact h.get id
  | delete id => exact h.delete id
  | list => exact h.list

end

end Store

namespace Service

/-- All ids on the shelf of the store, if there is one, are hexadecimal digits. -/
def HexIds (s : Service) : Prop := ∀ store ∈ s.store?, store.HexIds

section

variable {s : Service} (h : s.HexIds)

include h

theorem HexIds.withStore {α : Type} {f : Store → Answer StoreError α × Store}
    (hf : ∀ store, store.HexIds → (f store).2.HexIds) : (s.withStore f).2.HexIds := by
  unfold Service.withStore
  cases hs : s.store? with
  | none => exact h
  | some store =>
    rintro after ⟨⟩
    exact hf store (h store hs)

theorem HexIds.save (text : Text) : (s.save text).2.HexIds := by
  refine h.withStore fun store hstore => ?_
  split
  · exact hstore
  · exact hstore.save text

theorem HexIds.get (id : Text) : (s.get id).2.HexIds := by
  unfold Service.get
  split
  · exact h
  · split
    · exact h.withStore fun store hstore => hstore.get _
    · exact h

theorem HexIds.delete (id : Text) : (s.delete id).2.HexIds := by
  unfold Service.delete
  split
  · exact h
  · exact h.withStore fun store hstore => hstore.delete _

theorem HexIds.list : s.list.2.HexIds := h.withStore fun _ hstore => hstore.list

theorem HexIds.handle (r : Request) : (handle s r).2.HexIds := by
  unfold CodeSnippets.handle
  split
  · exact h
  · exact h
  · exact h.save r.body
  · exact h.get _
  · exact h.delete _
  · exact h.list

theorem HexIds.after (c : ServiceCall) : (s.after c).HexIds := by
  cases c with
  | store c =>
    rintro after hafter
    obtain ⟨store, hstore, rfl⟩ := Option.map_eq_some_iff.1 hafter
    exact (h store hstore).call c
  | save text => exact h.save text
  | get id => exact h.get id
  | delete id => exact h.delete id
  | list => exact h.list
  | request r => exact h.handle r

/-- An id that is got, without white space around it, is on the shelf. -/
theorem HexIds.isHex_of_get {id text : Text} (hgot : (s.get id).1 = .ok text) :
    (SnippetId.mk (Text.trim id)).IsHex := by
  have hid := ofText?_of_get hgot
  obtain ⟨_ | store⟩ := s
  · rw [Service.get, hid] at hgot
    cases hgot
  · rw [Service.get, hid] at hgot
    exact (h store rfl).isHex_of_get hgot

end

theorem isHex_of_save {s : Service} {text : Text} {id : SnippetId}
    (hsaved : (s.save text).1 = .ok id) : id.IsHex := by
  obtain ⟨_ | store⟩ := s
  · cases hsaved
  · simp only [Service.save, withStore] at hsaved
    split at hsaved
    · cases hsaved
    · exact Store.isHex_of_mem_draws (Store.save_of_ok hsaved).2.2.1

end Service

/-! ## The loaded id -/

namespace Workspace

/-- The ids on the shelf and the loaded id are hexadecimal digits. -/
structure HexIds (w : Workspace) : Prop where
  service : w.service.HexIds
  loaded : ∀ id ∈ w.session.loaded, id.IsHex

section

variable {w : Workspace} (h : w.HexIds)

include h

theorem HexIds.service_step (c : Call) : (w.step c).service.HexIds := by
  cases c with
  | others c => exact h.service.after c
  | session c =>
    cases c with
    | setText | highlight | clear => exact h.service
    | save =>
      have hservice := h.service.save w.session.text
      change (w.session.save w.service).2.2.HexIds
      unfold Session.save
      split
      · rename_i hs
        rwa [hs] at hservice
      · rename_i hs
        rwa [hs] at hservice
    | load id =>
      have hservice := h.service.get id
      change (w.session.load w.service id).2.2.HexIds
      unfold Session.load
      split
      · rename_i hs
        rwa [hs] at hservice
      · rename_i hs
        rwa [hs] at hservice
    | deleteLoaded =>
      change (w.session.deleteLoaded w.service).2.2.HexIds
      unfold Session.deleteLoaded
      split
      · exact h.service
      · rename_i id _
        have hservice := h.service.delete id.text
        split
        · rename_i hs
          rwa [hs] at hservice
        · rename_i hs
          rwa [hs] at hservice

theorem HexIds.loaded_step (c : Call) : ∀ id ∈ (w.step c).session.loaded, id.IsHex := by
  have heffect := w.effect_step c
  generalize (w.step c).session = session at heffect
  cases heffect with
  | others | setText | highlight | notSaved | notDeleted => exact h.loaded
  | clear | notLoaded | deleted => nofun
  | saved hsaved =>
    rintro id ⟨⟩
    exact Service.isHex_of_save (Session.service_save_of_ok hsaved)
  | loaded hgot =>
    rintro id ⟨⟩
    exact h.service.isHex_of_get hgot

/-- **Every call keeps the ids as they should look.** -/
theorem HexIds.step (c : Call) : (w.step c).HexIds := ⟨h.service_step c, h.loaded_step c⟩

theorem HexIds.run (calls : List Call) : (w.run calls).HexIds := by
  induction calls generalizing w with
  | nil => exact h
  | cons c calls ih => exact ih (h.step c)

end

end Workspace

/-! ## Links -/

/-- A text of characters that have no meaning in a field spells itself. -/
theorem spells_of_plain {t : Text} (h : ∀ c ∈ t, c ∉ ['%', '+', '&']) : Spells t t := by
  induction t with
  | nil => exact .nil
  | cons c t ih => exact .plain (h c (.head _)) (ih fun d hd => h d (.tail _ hd))

theorem plain_of_all {t : Text} (h : t.all (fun c => decide (c ∉ ['%', '+', '&'])) = true) :
    ∀ c ∈ t, c ∉ ['%', '+', '&'] :=
  fun c hc => of_decide_eq_true (List.all_eq_true.1 h c hc)

theorem SnippetId.IsHex.spells {id : SnippetId} (h : id.IsHex) : Spells id.text id.text := by
  have hall : ∀ c ∈ lowerHexDigits, c ∉ ['%', '+', '&'] := plain_of_all (by decide)
  exact spells_of_plain fun c hc => hall c (h.2.2 c hc)

theorem SnippetId.IsHex.ascii {id : SnippetId} (h : id.IsHex) : ∀ c ∈ id.text, c.toNat < 0x80 := by
  have hall : ∀ c ∈ lowerHexDigits, c.toNat < 0x80 := ascii_of_all (by decide)
  exact fun c hc => hall c (h.2.2 c hc)

/-- **An id of hexadecimal digits is read back from a link**, whatever the address in front
    of it, if that has no question mark. -/
theorem id_of_link {base : Text} (hbase : '?' ∉ base) {id : SnippetId} (hid : id.IsHex)
    (method : Method) (body : Text) :
    (Request.ofTarget method (Text.dropEndWhile (· == '/') base ++ "/?id=".toList ++ id.text)
      body).id = some id.text := by
  have hfront : '?' ∉ Text.dropEndWhile (· == '/') base ++ ['/'] := by
    obtain ⟨slashes, hall, -⟩ := Text.exists_dropEndWhile (· == '/') base
    rw [hall] at hbase
    simp only [List.mem_append, not_or] at hbase ⊢
    exact ⟨hbase.1, by decide⟩
  have hlink : Text.dropEndWhile (· == '/') base ++ "/?id=".toList ++ id.text =
      Text.dropEndWhile (· == '/') base ++ ['/'] ++ '?' :: ("id".toList ++ '=' :: id.text) := by
    simp
  have hkey : Spells "id".toList "id".toList := spells_of_plain (plain_of_all (by decide))
  have hvalue : queryValue? "id".toList
      (Text.join ['&'] ([] ++ ("id".toList ++ '=' :: id.text) :: [])) = some id.text :=
    queryValue?_of_spells nofun nofun hkey (by decide) (ascii_of_all (by decide)) hid.spells
      hid.ascii
  rw [hlink, Request.ofTarget, Text.splitAtFirst_append hfront]
  exact hvalue

/-- **A link to the loaded snippet leads back to it.**  After any calls of a session and of
    others, over a store that was empty at first, all ids on the shelf and the loaded one
    are 1 to 32 lower-case hexadecimal digits; a request for a link has the loaded id, so
    that the service answers to it as to that id. -/
theorem share_links_lead_back (v : Vocabulary) (settings : StoreSettings) (now : Nat)
    (source : Nat → Nat) (calls : List Workspace.Call) :
    let w := (Workspace.new v ⟨some (.new settings now source)⟩).run calls
    (∀ store ∈ w.service.store?, ∀ e ∈ store.shelf.entries, e.id.IsHex) ∧
    (∀ id ∈ w.session.loaded, id.IsHex) ∧
    ∀ base link, '?' ∉ base → w.session.shareUrl? base = some link →
      ∃ id, w.session.loaded = some id ∧ (Request.ofTarget .get link []).id = some id.text ∧
        ∀ field ∈ (Request.ofTarget .get link []).id,
          w.service.get field = w.service.get id.text := by
  intro w
  have hstart : (Workspace.new v ⟨some (.new settings now source)⟩).HexIds := by
    refine ⟨?_, nofun⟩
    rintro store ⟨⟩
    exact Store.hexIds_new settings now source
  have hids : w.HexIds := hstart.run calls
  refine ⟨hids.service, hids.loaded, fun base link hbase hlink => ?_⟩
  obtain ⟨id, hid, rfl⟩ := Option.map_eq_some_iff.1 hlink
  have hlinked := id_of_link hbase (hids.loaded id hid) .get []
  refine ⟨id, hid, hlinked, fun field hfield => ?_⟩
  rw [hlinked] at hfield
  cases hfield
  rfl

/-- A text is saved, and its id loaded with white space around it. -/
def saveAndLoad : List Workspace.Call :=
  [.session (.setText ['a']), .session .save, .session .clear,
    .session (.load " 00000001\n".toList)]

theorem share_links_lead_back_of_loaded :
    ((Workspace.new bareVocabulary briefService).run saveAndLoad).session.shareUrl?
      "https://host/x//".toList = some "https://host/x/?id=00000001".toList ∧
    (Request.ofTarget .get "https://host/x/?id=00000001".toList []).id =
      some idOfFirstSave.text := by
  have hlink : ((Workspace.new bareVocabulary briefService).run saveAndLoad).session.shareUrl?
      "https://host/x//".toList = some "https://host/x/?id=00000001".toList := by decide +kernel
  have hloaded : ((Workspace.new bareVocabulary briefService).run saveAndLoad).session.loaded =
      some idOfFirstSave := by decide +kernel
  obtain ⟨-, -, hback⟩ := share_links_lead_back bareVocabulary ⟨10, 1000, 8⟩ 0
    (fun k => (k + 1) * Nat.pow 2 96) saveAndLoad
  obtain ⟨id, hid, hlinked, -⟩ := hback _ _ (by decide) hlink
  have heq : id = idOfFirstSave := Option.some.inj (hid.symm.trans hloaded)
  exact ⟨hlink, heq ▸ hlinked⟩

end CodeSnippets
