/-
  Arguments without the option for the output file.

  The option and its value stand in one argument or in two, and letters of flags may
  stand in front of it.

  * `outputOption?`: what an argument with the option in it says besides;
    `Arguments.withoutOutput`: the arguments without the option and its value;
  * `Reading.step_cases`: an argument either says something else or is a part of the option;
  * `Arguments.read_withoutOutput`: without the option, the arguments ask for the same
    highlighting on the standard output.
-/
import CodeSnippets.Command.Arguments
import CodeSnippets.Proofs.Files.WrittenFiles

namespace CodeSnippets

open FileTree (ok_of_bind bind_of_ok)

/-! ## The option -/

/-- Whether an argument with letters has the option for the output file in it, and then
    whether the value is in it, too. -/
def outputLetters? (letters : Text) : Option Bool :=
  match letters.dropWhile (· == 'v') with
  | 'o' :: value => some !value.isEmpty
  | _ => none

/-- The name in an argument with a long one, and the value if it is in it, too. -/
def nameAndValue (body : Text) : Text × Option Text :=
  match Text.splitAtFirst '=' body with
  | some (name, value) => (name, some value)
  | none => (body, none)

/-- Whether an argument with a long name has the option for the output file in it, and then
    whether the value is in it, too. -/
def outputName? (body : Text) : Option Bool :=
  if (nameAndValue body).1 = "output".toList then some (nameAndValue body).2.isSome else none

/-- The argument with some letters, if there are any. -/
def dashed (letters : Text) : List Text := if letters = [] then [] else ['-' :: letters]

/-- What an argument with the option for the output file in it says besides, and whether the
    value is in it, too. -/
def outputOption? : Text → Option (List Text × Bool)
  | '-' :: '-' :: body => (outputName? body).map fun inside => ([], inside)
  | '-' :: letters =>
    (outputLetters? letters).map fun inside => (dashed (letters.takeWhile (· == 'v')), inside)
  | _ => none

/-- Arguments without the option for the output file and its value. -/
def Arguments.withoutOutput : List Text → List Text
  | [] => []
  | t :: rest =>
    if t = ['-', '-'] then t :: rest
    else match outputOption? t with
      | some (others, inside) => others ++ if inside then rest else rest.tail
      | none => t :: withoutOutput rest

/-! ## Readings -/

namespace Reading

variable {r s : Reading} {t : Text} {rest : List Text}

/-- A reading as if there were no output file. -/
def forgetOutput (r : Reading) : Reading := { r with output := none }

/-- A reading with another verbosity. -/
def withVerbosity (r : Reading) (n : Nat) : Reading := { r with verbosity := n }

/-- What is read next leaves the output file alone, and would be read in the same way if
    there were none. -/
structure SparesOutput (read : Reading → Except Stop Reading) (r s : Reading) : Prop where
  output : s.output = r.output
  awaiting : r.awaiting ≠ some .output → s.awaiting ≠ some .output
  operandsOnly : s.operandsOnly = r.operandsOnly
  forget : read r.forgetOutput = .ok s.forgetOutput

theorem map_once_eq_ok_iff {α : Type} {old new : Option α} {f : Option α → Reading} :
    (once old new).map f = .ok s ↔ old = none ∧ new.isSome ∧ s = f new := by
  unfold once
  cases old <;> cases new <;> simp [Except.map, eq_comm]

theorem filled?_eq_some {value : Text} (h : (filled? value).isSome) :
    filled? value = some value := by
  unfold filled? at h ⊢
  split_ifs at h ⊢
  · cases h
  · rfl

theorem setFlag_cases {f : Flag} (h : r.setFlag f = .ok s) :
    f = .verbose ∧ s = r.withVerbosity (r.verbosity + 1) := by
  cases f with
  | verbose => exact ⟨rfl, (Except.ok.inj h).symm⟩
  | help | version =>
    unfold setFlag at h
    split at h <;> cases h

theorem setOption_output {value : Text} (h : r.setOption .output value = .ok s) :
    r.output = none ∧ s = { r with output := some value } := by
  obtain ⟨hnone, hsome, rfl⟩ := map_once_eq_ok_iff.1 h
  exact ⟨hnone, by rw [filled?_eq_some hsome]⟩

theorem sparesOutput_setOption {o : ValueOption} {value : Text} (ho : o ≠ .output)
    (h : r.setOption o value = .ok s) :
    SparesOutput (setOption · o value) r s := by
  cases o with
  | config | format =>
    obtain ⟨hnone, hsome, rfl⟩ := map_once_eq_ok_iff.1 h
    exact ⟨rfl, id, rfl, map_once_eq_ok_iff.2 ⟨hnone, hsome, rfl⟩⟩
  | output => exact absurd rfl ho

theorem sparesOutput_operand (h : r.operand t = .ok s) :
    SparesOutput (operand · t) r s := by
  cases hverb : r.verb with
  | none =>
    simp only [operand, hverb] at h
    split at h
    · cases h
    · rename_i verb hname
      cases h
      exact ⟨rfl, id, rfl, by simp [operand, forgetOutput, hverb, hname]⟩
  | some verb =>
    cases verb with
    | help =>
      simp only [operand, hverb] at h
      split_ifs at h with hname
      obtain ⟨hnone, hsome, rfl⟩ := map_once_eq_ok_iff.1 h
      refine ⟨rfl, id, rfl, ?_⟩
      simp only [operand, forgetOutput, hverb, hname, if_true]
      exact map_once_eq_ok_iff.2 ⟨hnone, hsome, rfl⟩
    | highlight | stats | watch =>
      simp only [operand, hverb] at h
      obtain ⟨hnone, hsome, rfl⟩ := map_once_eq_ok_iff.1 h
      refine ⟨rfl, id, rfl, ?_⟩
      simp only [operand, forgetOutput, hverb]
      exact map_once_eq_ok_iff.2 ⟨hnone, hsome, rfl⟩

/-! ## Flags and options -/

theorem switchOfName?_eq_output {name : Text} :
    switchOfName? name = some (.inr .output) ↔ name = "output".toList := by
  constructor
  · intro h
    unfold switchOfName? at h
    split_ifs at h with _ _ _ _ _ houtput
    all_goals cases h
    exact houtput
  · rintro rfl
    decide

theorem sparesOutput_setFlag {f : Flag} (h : r.setFlag f = .ok s) :
    SparesOutput (setFlag · f) r s := by
  obtain ⟨rfl, rfl⟩ := setFlag_cases h
  exact ⟨rfl, id, rfl, rfl⟩

theorem sparesOutput_await {o : ValueOption} (ho : o ≠ .output) :
    SparesOutput (fun r => .ok (r.await o)) r (r.await o) :=
  ⟨rfl, fun _ h => ho (Option.some.inj h), rfl, rfl⟩

theorem SparesOutput.congr {f g : Reading → Except Stop Reading} (h : SparesOutput f r s)
    (hfg : g r.forgetOutput = f r.forgetOutput) : SparesOutput g r s :=
  ⟨h.output, h.awaiting, h.operandsOnly, hfg.trans h.forget⟩

/-- What a flag or an option does that has been named, perhaps with a value. -/
def turn (switch : Option (Flag ⊕ ValueOption)) (value? : Option Text) (r : Reading) :
    Except Stop Reading :=
  match switch, value? with
  | some (.inl f), none => r.setFlag f
  | some (.inr o), value? =>
    if o.fits r.verb then
      match value? with
      | some value => r.setOption o value
      | none => .ok (r.await o)
    else .error .misuse
  | _, _ => .error .misuse

theorem long_eq (r : Reading) (body : Text) :
    r.long body = r.turn (switchOfName? (nameAndValue body).1) (nameAndValue body).2 := rfl

theorem turn_output {value? : Option Text} (h : r.turn (some (.inr .output)) value? = .ok s) :
    (value? = none ∧ s = r.await .output) ∨
    (value?.isSome ∧ r.output = none ∧ ∃ value, s = { r with output := some value }) := by
  unfold turn at h
  simp only at h
  split_ifs at h
  cases value? with
  | none => exact .inl ⟨rfl, (Except.ok.inj h).symm⟩
  | some value =>
    obtain ⟨hnone, hs⟩ := setOption_output h
    exact .inr ⟨rfl, hnone, value, hs⟩

theorem sparesOutput_turn {switch : Option (Flag ⊕ ValueOption)} {value? : Option Text}
    (hswitch : switch ≠ some (.inr .output))
    (h : r.turn switch value? = .ok s) : SparesOutput (turn switch value?) r s := by
  match switch, value? with
  | none, _ => cases h
  | some (.inl f), none => exact sparesOutput_setFlag h
  | some (.inl f), some value => cases h
  | some (.inr o), value? =>
    have ho : o ≠ .output := by
      rintro rfl
      exact hswitch rfl
    unfold turn at h
    simp only at h
    split_ifs at h with hfits
    have hturn : ∀ value?, (forgetOutput r).turn (some (.inr o)) value? = match value? with
        | some value => r.forgetOutput.setOption o value
        | none => .ok (r.forgetOutput.await o) := fun _ => if_pos hfits
    cases value? with
    | none =>
      cases h
      exact (sparesOutput_await ho).congr (hturn none)
    | some value => exact (sparesOutput_setOption ho h).congr (hturn (some value))

/-- An argument with a long name says something else, or that the output file comes next, or
    it names that file. -/
theorem long_cases {body : Text} (h : r.long body = .ok s) :
    (SparesOutput (long · body) r s ∧ outputName? body = none) ∨
    (outputName? body = some false ∧ s = r.await .output) ∨
    (outputName? body = some true ∧ r.output = none ∧
      ∃ value, s = { r with output := some value }) := by
  rw [long_eq] at h
  by_cases hname : (nameAndValue body).1 = "output".toList
  · rw [switchOfName?_eq_output.2 hname] at h
    rw [outputName?, if_pos hname]
    rcases turn_output h with ⟨hnone, hs⟩ | ⟨hsome, hgiven⟩
    · exact .inr (.inl ⟨by rw [hnone]; rfl, hs⟩)
    · exact .inr (.inr ⟨by rw [hsome], hgiven⟩)
  · have hswitch := mt switchOfName?_eq_output.1 hname
    exact .inl ⟨sparesOutput_turn hswitch h, if_neg hname⟩

theorem switchOfLetter?_eq_verbose {c : Char} :
    switchOfLetter? c = some (.inl .verbose) ↔ c = 'v' := by
  unfold switchOfLetter?
  split <;> simp_all

theorem switchOfLetter?_eq_output {c : Char} :
    switchOfLetter? c = some (.inr .output) ↔ c = 'o' := by
  unfold switchOfLetter?
  split <;> simp_all

/-- The value of an option behind its letter, if there is one. -/
def valueBehind : Text → Option Text
  | [] => none
  | '=' :: value => some value
  | value => some value

theorem valueBehind_eq_none {letters : Text} : valueBehind letters = none ↔ letters = [] := by
  unfold valueBehind
  split <;> simp_all

theorem letters_cons_of_option {c : Char} {o : ValueOption} (hc : switchOfLetter? c = some (.inr o))
    (r : Reading) (letters : Text) :
    r.letters (c :: letters) = r.turn (some (.inr o)) (valueBehind letters) := by
  simp only [Reading.letters, hc, turn]
  split_ifs
  · split
    · rfl
    · rfl
    · rw [valueBehind] <;> assumption
  · rfl

theorem letters_cons_of_verbose (r : Reading) (letters : Text) :
    r.letters ('v' :: letters) = (r.withVerbosity (r.verbosity + 1)).letters letters := rfl

theorem outputLetters?_cons_verbose (letters : Text) :
    outputLetters? ('v' :: letters) = outputLetters? letters := rfl

theorem outputLetters?_cons_of_ne {c : Char} (hv : c ≠ 'v') (ho : c ≠ 'o') (letters : Text) :
    outputLetters? (c :: letters) = none := by
  have hdrop : (c :: letters).dropWhile (· == 'v') = c :: letters := by simp [hv]
  rw [outputLetters?, hdrop]
  split
  · rename_i h
    exact absurd (List.cons.inj h).1 ho
  · rfl

/-- Letters say something else, or behind flags that the output file comes next, or they name
    that file. -/
theorem letters_cases {letters : Text} (h : r.letters letters = .ok s) :
    (SparesOutput (Reading.letters · letters) r s ∧ outputLetters? letters = none) ∨
    ∃ n, r.letters (letters.takeWhile (· == 'v')) = .ok (r.withVerbosity n) ∧
      ((outputLetters? letters = some false ∧ s = (r.withVerbosity n).await .output) ∨
      (outputLetters? letters = some true ∧ r.output = none ∧
        ∃ value, s = { r.withVerbosity n with output := some value })) := by
  induction letters generalizing r with
  | nil =>
    cases h
    exact .inl ⟨⟨rfl, id, rfl, rfl⟩, rfl⟩
  | cons c letters ih =>
    cases hc : switchOfLetter? c with
    | none => simp [Reading.letters, hc] at h
    | some switch =>
      cases switch with
      | inl f =>
        simp only [Reading.letters, hc] at h
        obtain ⟨q, hq, hrest⟩ := ok_of_bind h
        obtain ⟨rfl, rfl⟩ := setFlag_cases hq
        obtain rfl := switchOfLetter?_eq_verbose.1 hc
        rw [outputLetters?_cons_verbose, List.takeWhile_cons_of_pos rfl, letters_cons_of_verbose]
        refine (ih hrest).imp (fun ⟨hspares, hnone⟩ => ⟨?_, hnone⟩) id
        exact ⟨hspares.output, hspares.awaiting, hspares.operandsOnly, hspares.forget⟩
      | inr o =>
        rw [letters_cons_of_option hc] at h
        by_cases ho : o = .output
        · subst ho
          obtain rfl := switchOfLetter?_eq_output.1 hc
          have hinside : outputLetters? ('o' :: letters) = some !letters.isEmpty := rfl
          refine .inr ⟨r.verbosity, rfl, ?_⟩
          rw [hinside]
          rcases turn_output h with ⟨hnone, hs⟩ | ⟨hsome, hgiven⟩
          · rw [valueBehind_eq_none.1 hnone]
            exact .inl ⟨rfl, hs⟩
          · have hne : letters ≠ [] := by
              rintro rfl
              cases hsome
            exact .inr ⟨by simp [hne], hgiven⟩
        · have hv : c ≠ 'v' := by
            rintro rfl
            cases hc
          have hne : c ≠ 'o' := by
            rw [ne_eq, ← switchOfLetter?_eq_output, hc]
            simpa using ho
          refine .inl ⟨(sparesOutput_turn (by simpa using ho) h).congr ?_,
            outputLetters?_cons_of_ne hv hne letters⟩
          exact letters_cons_of_option hc r.forgetOutput letters

/-! ## Steps -/

/-- What the next argument is to the option for the output file. -/
inductive OutputStep (r : Reading) (t : Text) (s : Reading) : Prop where
  /-- from here on there are operands only -/
  | dashes (ht : t = ['-', '-']) (hopen : r.operandsOnly = false) (hidle : r.awaiting = none)
      (hs : s = { r with operandsOnly := true })
  /-- it has nothing to do with it -/
  | elsewhere (hspares : SparesOutput (step · t) r s)
      (hno : r.operandsOnly = false → t ≠ ['-', '-'] ∧ outputOption? t = none)
  /-- it is its value -/
  | value (hopen : r.operandsOnly = false) (hawaits : r.awaiting = some .output)
      (hnone : r.output = none) (hs : s = { r with awaiting := none, output := some t })
  /-- it has the option without its value in it, behind flags -/
  | option {others : List Text} {n : Nat} (hopen : r.operandsOnly = false)
      (hidle : r.awaiting = none) (hoption : outputOption? t = some (others, false))
      (hothers : others.foldlM step r = .ok (r.withVerbosity n))
      (hs : s = (r.withVerbosity n).await .output)
  /-- it has the option with its value in it, behind flags -/
  | optionWithValue {others : List Text} {n : Nat} {value : Text} (hopen : r.operandsOnly = false)
      (hidle : r.awaiting = none) (hoption : outputOption? t = some (others, true))
      (hothers : others.foldlM step r = .ok (r.withVerbosity n)) (hnone : r.output = none)
      (hs : s = { r.withVerbosity n with output := some value })

/-- The shapes of arguments. -/
theorem shape_cases (t : Text) :
    t = ['-', '-'] ∨ (∃ c body, t = '-' :: '-' :: c :: body) ∨
      (∃ c letters, c ≠ '-' ∧ t = '-' :: c :: letters) ∨ looksLikeOption t = false := by
  cases t with
  | nil => exact .inr (.inr (.inr rfl))
  | cons d t =>
    by_cases hd : d = '-'
    · subst hd
      cases t with
      | nil => exact .inr (.inr (.inr rfl))
      | cons c t =>
        by_cases hc : c = '-'
        · subst hc
          cases t with
          | nil => exact .inl rfl
          | cons c body => exact .inr (.inl ⟨c, body, rfl⟩)
        · exact .inr (.inr (.inl ⟨c, t, hc, rfl⟩))
    · exact .inr (.inr (.inr (by simp [looksLikeOption, hd])))

theorem not_looksLikeOption_cases (h : looksLikeOption t = false) :
    t = [] ∨ t = ['-'] ∨ ∃ c rest, c ≠ '-' ∧ t = c :: rest := by
  cases t with
  | nil => exact .inl rfl
  | cons c t =>
    by_cases hc : c = '-'
    · subst hc
      exact .inr (.inl (by simpa [looksLikeOption] using h))
    · exact .inr (.inr ⟨c, t, hc, rfl⟩)

theorem outputOption?_of_not_looksLikeOption (h : looksLikeOption t = false) :
    t ≠ ['-', '-'] ∧ outputOption? t = none := by
  rcases not_looksLikeOption_cases h with rfl | rfl | ⟨c, rest, hc, rfl⟩
  · exact ⟨by decide, rfl⟩
  · exact ⟨by decide, rfl⟩
  · exact ⟨by simp [hc], by simp [outputOption?, hc]⟩

theorem outputOption?_letters {c : Char} (hc : c ≠ '-') (letters : Text) :
    outputOption? ('-' :: c :: letters) =
      (outputLetters? (c :: letters)).map fun inside =>
        (dashed ((c :: letters).takeWhile (· == 'v')), inside) := by
  simp [outputOption?, hc]

section

variable (hopen : r.operandsOnly = false) (hidle : r.awaiting = none)
include hopen hidle

theorem step_dashes : r.step ['-', '-'] = .ok { r with operandsOnly := true } := by
  simp [step, hopen, hidle]

theorem step_long (c : Char) (body : Text) :
    r.step ('-' :: '-' :: c :: body) = r.long (c :: body) := by
  simp [step, hopen, hidle]

theorem step_letters {c : Char} (hc : c ≠ '-') (letters : Text) :
    r.step ('-' :: c :: letters) = r.letters (c :: letters) := by
  simp [step, hopen, hidle, hc]

theorem step_operand (h : looksLikeOption t = false) : r.step t = r.operand t := by
  rcases not_looksLikeOption_cases h with rfl | rfl | ⟨c, rest, hc, rfl⟩
  · simp [step, hopen, hidle]
  · simp [step, hopen, hidle]
  · simp [step, hopen, hidle, hc]

/-- Flags in an argument of their own are read as in front of an option. -/
theorem foldlM_dashed (letters : Text) :
    (dashed (letters.takeWhile (· == 'v'))).foldlM step r =
      r.letters (letters.takeWhile (· == 'v')) := by
  unfold dashed
  split_ifs with hnil
  · rw [hnil]
    rfl
  · obtain ⟨c, flags, hflags⟩ := List.exists_cons_of_ne_nil hnil
    have hmem : c ∈ letters.takeWhile (· == 'v') := hflags ▸ List.mem_cons_self
    have hc : c = 'v' := by
      have hv := List.mem_takeWhile_imp hmem
      exact beq_iff_eq.1 hv
    rw [hflags, List.foldlM_cons, step_letters hopen hidle (hc ▸ by decide)]
    exact bind_pure _

/-- An argument with letters has the option in it if the letters have. -/
theorem outputStep_letters {c : Char} (hc : c ≠ '-') {letters : Text}
    (h : r.letters (c :: letters) = .ok s) : OutputStep r ('-' :: c :: letters) s := by
  have hoption := outputOption?_letters hc letters
  rcases letters_cases h with ⟨hspares, hno⟩ | ⟨n, hflags, hcases⟩
  · rw [hno] at hoption
    exact .elsewhere (hspares.congr (step_letters (r := r.forgetOutput) hopen hidle hc letters))
      fun _ => ⟨by simp [hc], hoption⟩
  · have hothers := (foldlM_dashed hopen hidle (c :: letters)).trans hflags
    rcases hcases with ⟨hinside, hs⟩ | ⟨hinside, hnone, value, hs⟩
    · rw [hinside] at hoption
      exact .option hopen hidle hoption hothers hs
    · rw [hinside] at hoption
      exact .optionWithValue hopen hidle hoption hothers hnone hs

/-- An argument with a long name has the option in it if it has that name. -/
theorem outputStep_long {c : Char} {body : Text} (h : r.long (c :: body) = .ok s) :
    OutputStep r ('-' :: '-' :: c :: body) s := by
  have hoption : outputOption? ('-' :: '-' :: c :: body) =
      (outputName? (c :: body)).map fun inside => ([], inside) := rfl
  rcases long_cases h with ⟨hspares, hno⟩ | ⟨hinside, hs⟩ | ⟨hinside, hnone, value, hs⟩
  · rw [hno] at hoption
    exact .elsewhere (hspares.congr (step_long (r := r.forgetOutput) hopen hidle c body))
      fun _ => ⟨by simp, hoption⟩
  · rw [hinside] at hoption
    exact .option (n := r.verbosity) hopen hidle hoption rfl hs
  · rw [hinside] at hoption
    exact .optionWithValue (n := r.verbosity) hopen hidle hoption rfl hnone hs

end

/-- **An argument says something else, or is a part of the option for the output file.** -/
theorem step_cases (h : r.step t = .ok s) : OutputStep r t s := by
  cases hopen : r.operandsOnly with
  | true =>
    have hstep : ∀ q : Reading, q.operandsOnly = true → q.step t = q.operand t :=
      fun q hq => if_pos hq
    rw [hstep r hopen] at h
    have hspares := sparesOutput_operand h
    refine .elsewhere (hspares.congr (hstep r.forgetOutput hopen)) fun hclosed => ?_
    rw [hopen] at hclosed
    cases hclosed
  | false =>
    cases hidle : r.awaiting with
    | some o =>
      have hstep : ∀ q : Reading, q.operandsOnly = false → q.awaiting = some o → q.step t =
          if looksLikeOption t then .error .misuse
          else { q with awaiting := none }.setOption o t := by
        intro q hq hawaits
        simp [step, hq, hawaits]
      rw [hstep r hopen hidle] at h
      split_ifs at h with hlooks
      by_cases ho : o = .output
      · subst ho
        obtain ⟨hnone, hs⟩ := setOption_output h
        exact .value hopen hidle hnone hs
      · have hspares := sparesOutput_setOption ho h
        have hno := outputOption?_of_not_looksLikeOption (by simpa using hlooks)
        refine .elsewhere ⟨hspares.output, fun _ => hspares.awaiting (by simp),
          hspares.operandsOnly, ?_⟩ fun _ => hno
        rw [hstep r.forgetOutput hopen hidle, if_neg hlooks]
        exact hspares.forget
    | none =>
      rcases shape_cases t with rfl | ⟨c, body, rfl⟩ | ⟨c, letters, hc, rfl⟩ | hlooks
      · rw [step_dashes hopen hidle] at h
        exact .dashes rfl hopen hidle (Except.ok.inj h).symm
      · rw [step_long hopen hidle] at h
        exact outputStep_long hopen hidle h
      · rw [step_letters hopen hidle hc] at h
        exact outputStep_letters hopen hidle hc h
      · rw [step_operand hopen hidle hlooks] at h
        refine .elsewhere ((sparesOutput_operand h).congr ?_)
          fun _ => outputOption?_of_not_looksLikeOption hlooks
        exact step_operand hopen hidle hlooks

/-! ## Whole command lines -/

/-- What arguments say in the end, read on from some reading. -/
def ends (r : Reading) (rest : List Text) : Except Stop Arguments := do
  (← rest.foldlM step r).finish

theorem ends_nil (r : Reading) : r.ends [] = r.finish := rfl

theorem ends_cons (r : Reading) (t : Text) (rest : List Text) :
    r.ends (t :: rest) = r.step t >>= fun s => s.ends rest := by
  rw [ends, List.foldlM_cons, bind_assoc]
  rfl

theorem ends_append {others : List Text} {q : Reading} (h : others.foldlM step r = .ok q)
    (rest : List Text) : r.ends (others ++ rest) = q.ends rest := by
  rw [ends, List.foldlM_append, h]
  rfl

variable {file : Option Text} {format : Format} {config : Option Text} {verbosity : Nat}
  {output : Option Text} {value : Text}

theorem finish_of_awaiting {o : ValueOption} (h : r.awaiting = some o) :
    r.finish = .error .misuse := by
  simp only [finish, h]
  rfl

/-- In the end, highlighting is what the verb asks for and the output file is the one that
    has been read. -/
theorem finish_of_highlighting
    (h : r.finish = .ok ⟨.highlight file format output, config, verbosity⟩) :
    r.output = output ∧
      r.forgetOutput.finish = .ok ⟨.highlight file format none, config, verbosity⟩ := by
  cases hidle : r.awaiting with
  | some o =>
    rw [finish_of_awaiting hidle] at h
    cases h
  | none =>
    have hverb : r.verb = some .highlight := by
      simp only [finish, hidle, Option.isSome_none, Bool.false_eq_true, if_false] at h
      split at h
      · assumption
      all_goals cases h
    simp only [finish, forgetOutput, hidle, hverb] at h ⊢
    cases h
    exact ⟨rfl, rfl⟩

/-! ### The output file once it has been read -/

/-- An output file that has been read stays. -/
theorem output_of_ends (hvalue : r.output = some value)
    (h : r.ends rest = .ok ⟨.highlight file format output, config, verbosity⟩) :
    output = some value := by
  induction rest generalizing r with
  | nil => exact (finish_of_highlighting h).1.symm.trans hvalue
  | cons t rest ih =>
    rw [ends_cons] at h
    obtain ⟨s, hs, hrest⟩ := ok_of_bind h
    cases step_cases hs with
    | dashes _ _ _ hs => exact ih (hs ▸ hvalue) hrest
    | elsewhere hspares => exact ih (hspares.output.trans hvalue) hrest
    | option _ _ _ _ hs => exact ih (hs ▸ hvalue) hrest
    | value _ _ hnone | optionWithValue _ _ _ _ hnone =>
      rw [hvalue] at hnone
      cases hnone

/-- An output file that is awaited comes next. -/
theorem ends_of_awaiting (hopen : r.operandsOnly = false) (hawaits : r.awaiting = some .output)
    (h : r.ends rest = .ok ⟨.highlight file format output, config, verbosity⟩) :
    ∃ value more, rest = value :: more ∧ r.output = none ∧
      ({ r with awaiting := none, output := some value } : Reading).ends more =
        .ok ⟨.highlight file format output, config, verbosity⟩ := by
  cases rest with
  | nil =>
    rw [ends_nil, finish_of_awaiting hawaits] at h
    cases h
  | cons value more =>
    rw [ends_cons] at h
    obtain ⟨s, hs, hrest⟩ := ok_of_bind h
    have hstep : r.step value = if looksLikeOption value then .error .misuse
        else { r with awaiting := none }.setOption .output value := by
      simp [step, hopen, hawaits]
    rw [hstep] at hs
    split_ifs at hs
    obtain ⟨hnone, rfl⟩ := setOption_output hs
    exact ⟨value, more, rfl, hnone, hrest⟩

/-- Where the output file is not read any more, the rest is read in the same way without
    it. -/
theorem ends_forgetOutput (hr : r.awaiting ≠ some .output) (houtput : r.output = output)
    (h : r.ends rest = .ok ⟨.highlight file format output, config, verbosity⟩) :
    r.forgetOutput.ends rest = .ok ⟨.highlight file format none, config, verbosity⟩ := by
  induction rest generalizing r with
  | nil => exact (finish_of_highlighting h).2
  | cons t rest ih =>
    rw [ends_cons] at h ⊢
    obtain ⟨s, hs, hrest⟩ := ok_of_bind h
    cases step_cases hs with
    | dashes ht hopen hidle hs' =>
      subst ht hs'
      rw [step_dashes (r := r.forgetOutput) hopen hidle]
      exact ih (r := { r with operandsOnly := true }) hr houtput hrest
    | elsewhere hspares =>
      rw [hspares.forget]
      exact ih (hspares.awaiting hr) (hspares.output.trans houtput) hrest
    | value _ hawaits => exact absurd hawaits hr
    -- the option may not be given again once its value has been read
    | option hopen _ _ _ hs' =>
      obtain ⟨value, more, rfl, hnone, hmore⟩ :=
        ends_of_awaiting (r := s) (by rw [hs']; exact hopen) (by rw [hs']; rfl) hrest
      have hvalue := output_of_ends rfl hmore
      rw [← houtput] at hvalue
      rw [hs'] at hnone
      cases hvalue.symm.trans hnone
    | optionWithValue _ _ _ _ hnone hs' =>
      have hvalue := output_of_ends (by rw [hs']) hrest
      rw [← houtput, hnone] at hvalue
      cases hvalue

/-- Operands alone name no output file. -/
theorem output_of_operandsOnly (hclosed : r.operandsOnly = true)
    (h : r.ends rest = .ok ⟨.highlight file format output, config, verbosity⟩) :
    r.output = output := by
  induction rest generalizing r with
  | nil => exact (finish_of_highlighting h).1
  | cons t rest ih =>
    rw [ends_cons] at h
    obtain ⟨s, hs, hrest⟩ := ok_of_bind h
    cases step_cases hs with
    | elsewhere hspares =>
      exact hspares.output.symm.trans (ih (hspares.operandsOnly.trans hclosed) hrest)
    | dashes _ hopen | value hopen | option hopen | optionWithValue hopen =>
      rw [hclosed] at hopen
      cases hopen

/-! ### The option taken out -/

theorem withoutOutput_of_some {others : List Text} {inside : Bool}
    (h : outputOption? t = some (others, inside)) (rest : List Text) :
    Arguments.withoutOutput (t :: rest) = others ++ if inside then rest else rest.tail := by
  have hdashes : t ≠ ['-', '-'] := by
    rintro rfl
    cases h
  rw [Arguments.withoutOutput, if_neg hdashes, h]

theorem withoutOutput_of_none (hdashes : t ≠ ['-', '-']) (h : outputOption? t = none)
    (rest : List Text) :
    Arguments.withoutOutput (t :: rest) = t :: Arguments.withoutOutput rest := by
  rw [Arguments.withoutOutput, if_neg hdashes, h]

theorem forgetOutput_of_none (h : r.output = none) : r.forgetOutput = r := by
  rw [forgetOutput, ← h]

theorem forgetOutput_given (h : r.output = none) (value : Text) :
    ({ r with output := some value } : Reading).forgetOutput = r := forgetOutput_of_none h

theorem await_given (h : r.awaiting = none) (value : Text) :
    ({ r.await .output with awaiting := none, output := some value } : Reading) =
      { r with output := some value } := by
  rw [← h]
  rfl

/-- Without the option the arguments ask for the same highlighting, but for the output file. -/
theorem ends_withoutOutput (hopen : r.operandsOnly = false) (hr : r.awaiting ≠ some .output)
    (hnone : r.output = none)
    (h : r.ends rest = .ok ⟨.highlight file format output, config, verbosity⟩) :
    r.ends (Arguments.withoutOutput rest) =
      .ok ⟨.highlight file format none, config, verbosity⟩ := by
  induction rest generalizing r with
  | nil =>
    have hend := (finish_of_highlighting h).2
    rwa [forgetOutput_of_none hnone] at hend
  | cons t rest ih =>
    have hread := h
    rw [ends_cons] at h
    obtain ⟨s, hs, hrest⟩ := ok_of_bind h
    cases step_cases hs with
    | dashes ht _ _ hs' =>
      -- what looks like the option is an operand from here on, so there is no output file
      have houtput : r.output = output := by
        rw [← output_of_operandsOnly (by rw [hs']) hrest, hs']
      rw [Arguments.withoutOutput, if_pos ht, hread, ← houtput, hnone]
    | elsewhere hspares hno =>
      obtain ⟨hdashes, hoption⟩ := hno hopen
      rw [withoutOutput_of_none hdashes hoption, ends_cons, hs]
      exact ih (hspares.operandsOnly.trans hopen) (hspares.awaiting hr)
        (hspares.output.trans hnone) hrest
    | value _ hawaits => exact absurd hawaits hr
    | @option others n _ hidle hoption hothers hs' =>
      obtain ⟨value, more, rfl, -, hmore⟩ :=
        ends_of_awaiting (r := s) (by rw [hs']; exact hopen) (by rw [hs']; rfl) hrest
      rw [hs', await_given (r := r.withVerbosity n) hidle] at hmore
      have hbare := ends_forgetOutput (r := { r.withVerbosity n with output := some value }) hr
        (output_of_ends rfl hmore).symm hmore
      rw [forgetOutput_given (r := r.withVerbosity n) hnone] at hbare
      rw [withoutOutput_of_some hoption, ends_append hothers]
      exact hbare
    | @optionWithValue others n value _ _ hoption hothers _ hs' =>
      rw [hs'] at hrest
      have hbare := ends_forgetOutput (r := { r.withVerbosity n with output := some value }) hr
        (output_of_ends rfl hrest).symm hrest
      rw [forgetOutput_given (r := r.withVerbosity n) hnone] at hbare
      rw [withoutOutput_of_some hoption, ends_append hothers]
      exact hbare

end Reading

/-- **Without the option for the output file, arguments ask for the same highlighting on the
    standard output.** -/
theorem Arguments.read_withoutOutput {arguments : List Text} {file : Option Text}
    {format : Format} {output config : Option Text} {verbosity : Nat}
    (h : Arguments.read arguments = .ok ⟨.highlight file format output, config, verbosity⟩) :
    Arguments.read (withoutOutput arguments) =
      .ok ⟨.highlight file format none, config, verbosity⟩ :=
  Reading.ends_withoutOutput rfl (by decide) rfl h

example : Arguments.withoutOutput (["highlight", "-vo", "out", "--", "-o"].map String.toList) =
    ["highlight", "-v", "--", "-o"].map String.toList := by decide

end CodeSnippets
