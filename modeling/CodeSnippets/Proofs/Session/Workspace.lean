/-
  A session whose service others use as well.

  Others may save, get and delete through the same service, send requests to its routes,
  call its store, and let time go by.  None of this touches the session: it changes by
  its own calls only, and what they do to it hangs on the answer of the service alone.

  * `ServiceCall`, `SessionCall`: what others do with the service, and what is done with
    the session;
  * `Workspace.run`: calls of both kinds, in any order;
  * `Effect`, `effect_step`: all that a call can do to the session;
  * `Session.UpToDate`: the result is that of the text, which only another text can
    change (`UpToDate.run`);
  * `FollowsService`: what the calls of a session do, by the answers of the service;
  * `session_follows_service`: every session does so, after any run.
-/
import CodeSnippets.Proofs.Snippets.ReferenceStore
import CodeSnippets.Session
import CodeSnippets.Snippets.Api

namespace CodeSnippets

/-! ## Calls -/

/-- What others do with a service. -/
inductive ServiceCall where
  /-- a call of the store itself, time going by included -/
  | store (c : StoreCall)
  | save (text : Text)
  | get (id : Text)
  | delete (id : Text)
  | list
  | request (r : Request)

/-- The service after a call. -/
def Service.after (s : Service) : ServiceCall → Service
  | .store c => ⟨s.store?.map fun store => (store.call c).2⟩
  | .save text => (s.save text).2
  | .get id => (s.get id).2
  | .delete id => (s.delete id).2
  | .list => s.list.2
  | .request r => (handle s r).2

/-- What is done with a session. -/
inductive SessionCall where
  | setText (text : Text)
  | highlight
  | save
  | load (id : Text)
  | deleteLoaded
  | clear

/-- A session and the service that it shares with others. -/
structure Workspace where
  session : Session
  service : Service

namespace Workspace

/-- A call of the session, or of others. -/
inductive Call where
  | session (c : SessionCall)
  | others (c : ServiceCall)

/-- A session without text over a service that may have been used before. -/
def new (v : Vocabulary) (service : Service) : Workspace := ⟨.new v, service⟩

/-- A workspace after a call. -/
def step (w : Workspace) : Call → Workspace
  | .session (.setText text) => { w with session := w.session.setText text }
  | .session .highlight => { w with session := w.session.highlight }
  | .session .save =>
    ⟨(w.session.save w.service).2.1, (w.session.save w.service).2.2⟩
  | .session (.load id) =>
    ⟨(w.session.load w.service id).2.1, (w.session.load w.service id).2.2⟩
  | .session .deleteLoaded =>
    ⟨(w.session.deleteLoaded w.service).2.1, (w.session.deleteLoaded w.service).2.2⟩
  | .session .clear => { w with session := w.session.clear }
  | .others c => { w with service := w.service.after c }

/-- Calls one after the other. -/
def run (w : Workspace) (calls : List Call) : Workspace := calls.foldl step w

end Workspace

/-! ## What a call does to the session -/

/-- Only an id that is not blank can be got. -/
theorem Service.ofText?_of_get {s : Service} {id text : Text} (h : (s.get id).1 = .ok text) :
    SnippetId.ofText? id = some ⟨Text.trim id⟩ := by
  unfold get at h
  split at h
  · cases h
  · rename_i id' hid
    unfold SnippetId.ofText? at hid ⊢
    simp only at hid ⊢
    split at hid
    · cases hid
    · rename_i hblank
      rw [if_neg hblank]

namespace Workspace

/-- The session after a call, by the call and its answer. -/
inductive Effect (w : Workspace) : Call → Session → Prop
  | others (c : ServiceCall) : Effect w (.others c) w.session
  | setText (text : Text) : Effect w (.session (.setText text)) (w.session.setText text)
  | highlight : Effect w (.session .highlight) w.session.highlight
  | clear : Effect w (.session .clear) w.session.clear
  | saved {id : SnippetId} : (w.session.save w.service).1 = .ok id →
      Effect w (.session .save) { w.session with loaded := some id }
  | notSaved {e : Fault AppError} : (w.session.save w.service).1 = .error e →
      Effect w (.session .save) w.session
  | loaded {id text : Text} : (w.service.get id).1 = .ok text →
      (w.session.load w.service id).1 = .ok (CodeSnippets.highlight w.session.vocabulary text) →
      Effect w (.session (.load id)) ⟨w.session.vocabulary, text, some ⟨Text.trim id⟩,
        CodeSnippets.highlight w.session.vocabulary text⟩
  | notLoaded {id : Text} {e : Fault AppError} : (w.session.load w.service id).1 = .error e →
      Effect w (.session (.load id)) w.session.clear
  | deleted {id : SnippetId} : (w.session.deleteLoaded w.service).1 = .ok id →
      Effect w (.session .deleteLoaded) w.session.clear
  | notDeleted {e : Fault AppError} : (w.session.deleteLoaded w.service).1 = .error e →
      Effect w (.session .deleteLoaded) w.session

theorem effect_save (w : Workspace) :
    Effect w (.session .save) (w.session.save w.service).2.1 := by
  have hsaved := @Effect.saved w
  have hnot := @Effect.notSaved w
  unfold Session.save at hsaved hnot ⊢
  generalize w.service.save w.session.text = reply at hsaved hnot ⊢
  obtain ⟨e | id, service⟩ := reply
  · exact hnot rfl
  · exact hsaved rfl

theorem effect_load (w : Workspace) (id : Text) :
    Effect w (.session (.load id)) (w.session.load w.service id).2.1 := by
  have hid := fun text => @Service.ofText?_of_get w.service id text
  have hloaded := @Effect.loaded w id
  have hnot := @Effect.notLoaded w id
  unfold Session.load at hloaded hnot ⊢
  generalize w.service.get id = reply at hid hloaded hnot ⊢
  obtain ⟨e | text, service⟩ := reply
  · exact hnot rfl
  · simp only [hid text rfl] at hloaded ⊢
    exact hloaded rfl rfl

theorem effect_deleteLoaded (w : Workspace) :
    Effect w (.session .deleteLoaded) (w.session.deleteLoaded w.service).2.1 := by
  have hdeleted := @Effect.deleted w
  have hnot := @Effect.notDeleted w
  unfold Session.deleteLoaded at hdeleted hnot ⊢
  cases hid : w.session.loaded with
  | none =>
    simp only [hid] at hnot ⊢
    exact hnot rfl
  | some id =>
    simp only [hid] at hdeleted hnot ⊢
    generalize w.service.delete id.text = reply at hdeleted hnot ⊢
    obtain ⟨e | id, service⟩ := reply
    · exact hnot rfl
    · exact hdeleted rfl

/-- **The answer to a call decides what it does to the session.** -/
theorem effect_step (w : Workspace) (c : Call) : Effect w c (w.step c).session := by
  cases c with
  | others c => exact .others c
  | session c =>
    cases c with
    | setText text => exact .setText text
    | highlight => exact .highlight
    | clear => exact .clear
    | save => exact w.effect_save
    | load id => exact w.effect_load id
    | deleteLoaded => exact w.effect_deleteLoaded

section

variable {w : Workspace} {s : Session} {e : Fault AppError} {id : SnippetId}

theorem Effect.eq_of_not_saved (h : Effect w (.session .save) s)
    (he : (w.session.save w.service).1 = .error e) : s = w.session := by
  cases h with
  | saved hid =>
    rw [hid] at he
    cases he
  | notSaved => rfl

theorem Effect.eq_of_saved (h : Effect w (.session .save) s)
    (hid : (w.session.save w.service).1 = .ok id) : s = { w.session with loaded := some id } := by
  cases h with
  | saved hid' =>
    rw [hid'] at hid
    cases hid
    rfl
  | notSaved he =>
    rw [he] at hid
    cases hid

theorem Effect.eq_of_not_deleted (h : Effect w (.session .deleteLoaded) s)
    (he : (w.session.deleteLoaded w.service).1 = .error e) : s = w.session := by
  cases h with
  | deleted hid =>
    rw [hid] at he
    cases he
  | notDeleted => rfl

theorem Effect.eq_of_deleted (h : Effect w (.session .deleteLoaded) s)
    (hid : (w.session.deleteLoaded w.service).1 = .ok id) : s = w.session.clear := by
  cases h with
  | deleted => rfl
  | notDeleted he =>
    rw [he] at hid
    cases hid

theorem Effect.eq_of_not_loaded {t : Text} (h : Effect w (.session (.load t)) s)
    (he : (w.session.load w.service t).1 = .error e) : s = w.session.clear := by
  cases h with
  | loaded _ hanswer =>
    rw [hanswer] at he
    cases he
  | notLoaded => rfl

theorem Effect.eq_of_loaded {t : Text} {shown : Highlighted} (h : Effect w (.session (.load t)) s)
    (hanswer : (w.session.load w.service t).1 = .ok shown) :
    ∃ text, (w.service.get t).1 = .ok text ∧
      s = ⟨w.session.vocabulary, text, some ⟨Text.trim t⟩, shown⟩ := by
  cases h with
  | loaded hgot hanswer' =>
    rw [hanswer'] at hanswer
    cases hanswer
    exact ⟨_, hgot, rfl⟩
  | notLoaded he =>
    rw [he] at hanswer
    cases hanswer

end

end Workspace

/-! ## Results -/

/-- The result of a session is that of its text. -/
def Session.UpToDate (s : Session) : Prop := s.last = CodeSnippets.highlight s.vocabulary s.text

/-- There is nothing to highlight without text. -/
theorem Session.upToDate_new (v : Vocabulary) : (new v).UpToDate := rfl

namespace Workspace

/-- A call that brings the result up to the text, whatever both were before. -/
def Refreshes (w : Workspace) : Call → Prop
  | .session .highlight | .session (.load _) | .session .clear => True
  | .session .deleteLoaded => ∃ id, (w.session.deleteLoaded w.service).1 = .ok id
  | _ => False

/-- A call that may leave the result behind the text. -/
def Call.Edits : Call → Prop
  | .session (.setText _) => True
  | _ => False

section

variable {w : Workspace} {c : Call} {s : Session}

theorem Effect.vocabulary_eq (h : Effect w c s) : s.vocabulary = w.session.vocabulary := by
  cases h <;> rfl

theorem Effect.upToDate_of_refreshes (h : Effect w c s) (hc : w.Refreshes c) : s.UpToDate := by
  cases h with
  | others | setText | saved | notSaved => exact hc.elim
  | highlight | loaded => rfl
  | clear | notLoaded | deleted => exact Session.upToDate_new w.session.vocabulary
  | notDeleted h =>
    obtain ⟨id, hid⟩ := hc
    rw [hid] at h
    cases h

/-- **Only another text leaves a result behind.** -/
theorem Effect.upToDate (h : Effect w c s) (hc : ¬ c.Edits) (hw : w.session.UpToDate) :
    s.UpToDate := by
  cases h with
  | setText => exact absurd trivial hc
  | highlight | loaded => rfl
  | clear | notLoaded | deleted => exact Session.upToDate_new w.session.vocabulary
  | others | saved | notSaved | notDeleted => exact hw

end

theorem upToDate_run {w : Workspace} (hw : w.session.UpToDate) {calls : List Call}
    (hc : ∀ c ∈ calls, ¬ c.Edits) : (w.run calls).session.UpToDate := by
  induction calls generalizing w with
  | nil => exact hw
  | cons c calls ih =>
    simp only [List.forall_mem_cons] at hc
    exact ih ((w.effect_step c).upToDate hc.1 hw) hc.2

theorem vocabulary_run (w : Workspace) (calls : List Call) :
    (w.run calls).session.vocabulary = w.session.vocabulary := by
  induction calls generalizing w with
  | nil => rfl
  | cons c calls ih => exact (ih (w.step c)).trans (w.effect_step c).vocabulary_eq

end Workspace

/-! ## Every state of a workspace -/

theorem Session.save_fst (s : Session) (service : Service) :
    (s.save service).1 = (service.save s.text).1.mapError (Fault.mapError .store) := by
  unfold save
  generalize service.save s.text = reply
  obtain ⟨e | id, after⟩ := reply <;> rfl

/-- A session saves what its service saves. -/
theorem Session.service_save_of_ok {s : Session} {service : Service} {id : SnippetId}
    (h : (s.save service).1 = .ok id) : (service.save s.text).1 = .ok id := by
  rw [save_fst] at h
  generalize (service.save s.text).1 = answer at h ⊢
  cases answer with
  | error e => cases h
  | ok id => exact congrArg Except.ok (Except.ok.inj h)

theorem Session.load_fst (s : Session) (service : Service) (t : Text) :
    (s.load service t).1 = ((service.get t).1.map (CodeSnippets.highlight s.vocabulary)).mapError
      (Fault.mapError .store) := by
  unfold load
  generalize service.get t = reply
  obtain ⟨e | text, after⟩ := reply <;> rfl

/-- What the calls of a session with a vocabulary do, by the answers that they get. -/
structure Workspace.FollowsService (v : Vocabulary) (w : Workspace) : Prop where
  /-- the service decides whether a text is saved -/
  saves : (w.session.save w.service).1 =
    (w.service.save w.session.text).1.mapError (Fault.mapError .store)
  /-- the service decides whether there is a text to load -/
  loads : ∀ t, (w.session.load w.service t).1 =
    ((w.service.get t).1.map (highlight v)).mapError (Fault.mapError .store)
  /-- a save that fails leaves the session as it was -/
  not_saved : ∀ e, (w.session.save w.service).1 = .error e →
    (w.step (.session .save)).session = w.session
  /-- a save changes the id that is loaded, and nothing else -/
  saved : ∀ id, (w.session.save w.service).1 = .ok id →
    (w.step (.session .save)).session = { w.session with loaded := some id }
  /-- a delete that fails leaves the session as it was -/
  not_deleted : ∀ e, (w.session.deleteLoaded w.service).1 = .error e →
    (w.step (.session .deleteLoaded)).session = w.session
  /-- a delete clears the session -/
  deleted : ∀ id, (w.session.deleteLoaded w.service).1 = .ok id →
    (w.step (.session .deleteLoaded)).session = ⟨v, [], none, .blank⟩
  /-- a load that fails clears the session -/
  not_loaded : ∀ t e, (w.session.load w.service t).1 = .error e →
    (w.step (.session (.load t))).session = ⟨v, [], none, .blank⟩
  /-- a load takes the text that the service gives, under the id without white space
      around it -/
  loaded : ∀ t shown, (w.session.load w.service t).1 = .ok shown →
    ∃ text, (w.service.get t).1 = .ok text ∧
      (w.step (.session (.load t))).session = ⟨v, text, some ⟨Text.trim t⟩, shown⟩

theorem Workspace.followsService {v : Vocabulary} {w : Workspace}
    (hv : w.session.vocabulary = v) : w.FollowsService v := by
  subst hv
  exact {
    saves := w.session.save_fst w.service
    loads := w.session.load_fst w.service
    not_saved := fun e => (w.effect_step _).eq_of_not_saved
    saved := fun id => (w.effect_step _).eq_of_saved
    not_deleted := fun e => (w.effect_step _).eq_of_not_deleted
    deleted := fun id => (w.effect_step _).eq_of_deleted
    not_loaded := fun t e => (w.effect_step _).eq_of_not_loaded
    loaded := fun t shown => (w.effect_step _).eq_of_loaded }

/-- **A session follows its service.**  After any calls of a session and of others, the
    answer of the service decides what a call does to the session, and a call that fails
    changes nothing or, if it is a load, clears the session.  The result is that of the
    text at the start and behind every call that brings it up, and stays so until there
    is another text. -/
theorem session_follows_service (v : Vocabulary) (service : Service)
    (calls : List Workspace.Call) :
    let w := (Workspace.new v service).run calls
    w.FollowsService v ∧
    ((∀ c ∈ calls, ¬ c.Edits) → w.session.last = highlight v w.session.text) ∧
    ∀ c, w.Refreshes c → ∀ later, (∀ d ∈ later, ¬ d.Edits) →
      ((w.step c).run later).session.last = highlight v ((w.step c).run later).session.text := by
  intro w
  have hv : w.session.vocabulary = v := (Workspace.new v service).vocabulary_run calls
  refine ⟨Workspace.followsService hv, ?_, ?_⟩
  · intro hcalls
    have hfresh := Workspace.upToDate_run (w := .new v service) (Session.upToDate_new v) hcalls
    rw [← hv]
    exact hfresh
  · intro c hc later hlater
    have hfresh := Workspace.upToDate_run ((w.effect_step c).upToDate_of_refreshes hc) hlater
    have hlast := ((w.step c).vocabulary_run later).trans
      ((w.effect_step c).vocabulary_eq.trans hv)
    rw [← hlast]
    exact hfresh

/-- A vocabulary without entries. -/
def bareVocabulary : Vocabulary := ⟨[], [], [], .nil⟩

/-- A service over a store in which a text lives for ten milliseconds. -/
def briefService : Service := ⟨some (.new ⟨10, 1000, 8⟩ 0 fun k => (k + 1) * Nat.pow 2 96)⟩

/-- The text `a`, not saved. -/
def unsaved (service : Service) : Workspace :=
  (Workspace.new bareVocabulary service).run [.session (.setText ['a'])]

/-- The text `a`, saved and changed to `b`, five milliseconds later. -/
def savedAndChanged : Workspace :=
  (Workspace.new bareVocabulary briefService).run
    [.session (.setText ['a']), .session .save, .session (.setText ['b']),
      .others (.store (.advance 5))]

/-- The first id of the store. -/
def idOfFirstSave : SnippetId := ⟨"00000001".toList⟩

/-- Without a store nothing is saved, and a text saved is loaded as long as it lives. -/
theorem session_follows_service_of_short_life :
    (((unsaved ⟨none⟩).session.save ⟨none⟩).1 = .error (.error (.store .storeUnavailable)) ∧
      ((unsaved ⟨none⟩).step (.session .save)).session.text = ['a']) ∧
    (((unsaved briefService).session.deleteLoaded briefService).1 =
        .error (.error .nothingLoaded) ∧
      ((unsaved briefService).step (.session .deleteLoaded)).session.text = ['a']) ∧
    (((unsaved briefService).session.save briefService).1 = .ok idOfFirstSave ∧
      ((unsaved briefService).step (.session .save)).session.loaded = some idOfFirstSave) ∧
    ((savedAndChanged.session.load savedAndChanged.service " 00000001 ".toList).1 =
        .ok ⟨['a'], ⟨1, 1, 0, 0⟩⟩ ∧
      (savedAndChanged.step (.session (.load " 00000001 ".toList))).session.loaded =
        some ⟨Text.trim " 00000001 ".toList⟩) ∧
    ((savedAndChanged.session.load savedAndChanged.service "1".toList).1 =
        .error (.error (.store .notFound)) ∧
      (savedAndChanged.step (.session (.load "1".toList))).session.text = []) ∧
    (savedAndChanged.session.deleteLoaded savedAndChanged.service).1 = .ok idOfFirstSave ∧
      ((savedAndChanged.step (.session .deleteLoaded)).run
          [.others (.store (.advance 5))]).session.last =
        highlight bareVocabulary ((savedAndChanged.step (.session .deleteLoaded)).run
          [.others (.store (.advance 5))]).session.text := by
  have hnone : ((unsaved ⟨none⟩).session.save ⟨none⟩).1 =
      .error (.error (.store .storeUnavailable)) := rfl
  have hnothing : ((unsaved briefService).session.deleteLoaded briefService).1 =
      .error (.error .nothingLoaded) := rfl
  have hsaved : ((unsaved briefService).session.save briefService).1 = .ok idOfFirstSave := rfl
  have hload : (savedAndChanged.session.load savedAndChanged.service " 00000001 ".toList).1 =
      .ok ⟨['a'], ⟨1, 1, 0, 0⟩⟩ := by decide +kernel
  have hmissing : (savedAndChanged.session.load savedAndChanged.service "1".toList).1 =
      .error (.error (.store .notFound)) := rfl
  have hdeleted : (savedAndChanged.session.deleteLoaded savedAndChanged.service).1 =
      .ok idOfFirstSave := rfl
  obtain ⟨hunconfigured, -⟩ :=
    session_follows_service bareVocabulary ⟨none⟩ [.session (.setText ['a'])]
  obtain ⟨hconfigured, -⟩ :=
    session_follows_service bareVocabulary briefService [.session (.setText ['a'])]
  obtain ⟨hlater, -, hfresh⟩ := session_follows_service bareVocabulary briefService
    [.session (.setText ['a']), .session .save, .session (.setText ['b']),
      .others (.store (.advance 5))]
  obtain ⟨text, -, hshown⟩ := hlater.loaded _ _ hload
  refine ⟨⟨hnone, ?_⟩, ⟨hnothing, ?_⟩, ⟨hsaved, ?_⟩, ⟨hload, ?_⟩, ⟨hmissing, ?_⟩, hdeleted, ?_⟩
  · exact congrArg Session.text (hunconfigured.not_saved _ hnone)
  · exact congrArg Session.text (hconfigured.not_deleted _ hnothing)
  · exact congrArg Session.loaded (hconfigured.saved _ hsaved)
  · exact congrArg Session.loaded hshown
  · exact congrArg Session.text (hlater.not_loaded _ _ hmissing)
  · exact hfresh (.session .deleteLoaded) ⟨_, hdeleted⟩ _ (by simp [Workspace.Call.Edits])

end CodeSnippets
