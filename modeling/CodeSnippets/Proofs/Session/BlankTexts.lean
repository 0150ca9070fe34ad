/-
  Which texts are blank.

  * `emptyInput_iff`: a service with a store refuses a text as empty if and only if it is
    white space, in whatever state the store is;
  * `isMarkedBlank`: white space and byte order marks, with at least one of the latter;
  * `blank_alike_iff`: these are the texts about which the service and the highlighting
    disagree.  A service saves them, and they have no markup and no lines.
-/
import CodeSnippets.Proofs.Highlight.SpanCounts
import CodeSnippets.Proofs.Session.Workspace
import CodeSnippets.Proofs.Snippets.LiveEntries

namespace CodeSnippets

/-! ## Texts of white space -/

theorem Text.trim_eq_nil_iff {t : Text} : Text.trim t = [] ↔ ∀ c ∈ t, isWhitespace c = true := by
  rw [Text.trim, Text.dropEndWhile, List.reverse_eq_nil_iff, List.dropWhile_eq_nil_iff]
  constructor
  · intro h c hc
    rw [← List.takeWhile_append_dropWhile (p := isWhitespace) (l := t)] at hc
    rcases List.mem_append.1 hc with hc | hc
    · exact List.mem_takeWhile_imp hc
    · exact h c (List.mem_reverse.2 hc)
  · intro h c hc
    exact h c ((List.dropWhile_sublist _).subset (List.mem_reverse.1 hc))

/-- White space and byte order marks, with at least one of the latter. -/
def isMarkedBlank (t : Text) : Bool := isBlank t && t.contains '\uFEFF'

theorem isMarkedBlank_eq_true_iff {t : Text} :
    isMarkedBlank t = true ↔ isBlank t = true ∧ ¬ ∀ c ∈ t, isWhitespace c = true := by
  have hmark : isWhitespace '\uFEFF' = false := by decide
  rw [isMarkedBlank, Bool.and_eq_true, List.contains_iff_mem]
  refine and_congr_right fun hblank => ⟨?_, ?_⟩
  · intro hmem hall
    rw [hall _ hmem] at hmark
    cases hmark
  · intro hall
    obtain ⟨c, hc, hspace⟩ : ∃ c ∈ t, ¬ isWhitespace c = true := by simpa using hall
    rcases isBlank_eq_true_iff.1 hblank c hc with h | rfl
    · exact absurd h hspace
    · exact hc

theorem isBlank_of_all_space {t : Text} (h : ∀ c ∈ t, isWhitespace c = true) : isBlank t = true :=
  isBlank_eq_true_iff.2 fun c hc => .inl (h c hc)

/-! ## Saving -/

theorem Store.save_ne_emptyInput (s : Store) (text : Text) :
    (s.save text).1 ≠ .error (.error .emptyInput) := by
  rcases s.save_cases text with ⟨-, hs⟩ | ⟨-, -, drawn, hs⟩ | ⟨-, -, id, -, -, drawn, hs⟩ |
    ⟨-, -, -, drawn, hs⟩
  all_goals
    rw [hs]
    rintro ⟨⟩

/-- **A service refuses a text as empty if it is white space, and no other.** -/
theorem emptyInput_iff (store : Store) (text : Text) :
    ((⟨some store⟩ : Service).save text).1 = .error (.error .emptyInput) ↔
      ∀ c ∈ text, isWhitespace c = true := by
  rw [← Text.trim_eq_nil_iff]
  simp only [Service.save, Service.withStore, List.isEmpty_iff]
  split_ifs with htrim
  · exact iff_of_true rfl htrim
  · exact iff_of_false (store.save_ne_emptyInput text) htrim

/-! ## Highlighting -/

/-- The result for the text of a session shows this text: it has markup, and as many lines
    and characters as the text. -/
def Session.ShowsText (s : Session) : Prop :=
  s.highlight.last.markup ≠ [] ∧ s.highlight.last.statistics.lines = s.size.lines ∧
    s.highlight.last.statistics.chars = s.size.chars

theorem Session.showsText_iff (s : Session) : s.ShowsText ↔ isBlank s.text = false := by
  have hlast : s.highlight.last = CodeSnippets.highlight s.vocabulary s.text := rfl
  rw [ShowsText, hlast, CodeSnippets.highlight]
  cases hblank : isBlank s.text with
  | true => exact iff_of_false (fun h => h.1 rfl) (by decide)
  | false =>
    refine iff_of_true ⟨?_, rfl, rfl⟩ rfl
    exact render_runPasses_ne_nil (withoutSpace_ne_nil hblank) s.vocabulary

/-- **Where the service and the highlighting agree on what is blank.**  They do on every
    text but those of white space and byte order marks that have such a mark; and a text
    that a session has saved is shown if and only if it is none of these. -/
theorem blank_alike_iff (session : Session) (store : Store) :
    ((((⟨some store⟩ : Service).save session.text).1 = .error (.error .emptyInput) ↔
        isBlank session.text = true) ↔ isMarkedBlank session.text = false) ∧
    ∀ id, (session.save ⟨some store⟩).1 = .ok id →
      (session.ShowsText ↔ isMarkedBlank session.text = false) := by
  rw [← Bool.not_eq_true, isMarkedBlank_eq_true_iff, emptyInput_iff]
  constructor
  · constructor
    · intro hagree hmarked
      exact hmarked.2 (hagree.2 hmarked.1)
    · intro hmarked
      refine ⟨isBlank_of_all_space, fun hblank => ?_⟩
      by_contra hspace
      exact hmarked ⟨hblank, hspace⟩
  · intro id hsaved
    have hspace : ¬ ∀ c ∈ session.text, isWhitespace c = true := by
      intro hspace
      have hok := Session.service_save_of_ok hsaved
      rw [(emptyInput_iff store session.text).2 hspace] at hok
      cases hok
    rw [Session.showsText_iff, ← Bool.not_eq_true]
    exact not_congr (and_iff_left hspace).symm

/-- A session with a text of its own, and nothing loaded. -/
def Session.ofText (text : Text) : Session := (Session.new .builtin).setText text

/-- A store in which nothing is saved yet. -/
def Store.fresh : Store := Store.new .default 0 id

theorem blank_alike_of_letter :
    ((Session.ofText ['x']).save ⟨some .fresh⟩).1 = .ok ⟨"00000000".toList⟩ ∧
      (Session.ofText ['x']).ShowsText :=
  ⟨by decide, ((blank_alike_iff (.ofText ['x']) .fresh).2 ⟨"00000000".toList⟩ (by decide)).2
    (by decide)⟩

/-- **A byte order mark is saved**, though it is blank, and then nothing of it is shown. -/
theorem byte_order_mark_saved :
    isBlank ['\uFEFF'] = true ∧
    ((⟨some .fresh⟩ : Service).save ['\uFEFF']).1 ≠ .error (.error .emptyInput) ∧
    ((Session.ofText ['\uFEFF']).save ⟨some .fresh⟩).1 = .ok ⟨"00000000".toList⟩ ∧
    (Session.ofText ['\uFEFF']).highlight.last.markup = [] ∧
    (Session.ofText ['\uFEFF']).highlight.last.statistics.lines = 0 ∧
    (Session.ofText ['\uFEFF']).size.lines = 1 := by
  decide

end CodeSnippets
