/-
  Files are read as they were written.

  * `FileTree.enter_eq_ok_iff`, `FileTree.write_eq_ok_iff`: where a part of a path leads to,
    and where a file is written;
  * `FileTree.read_of_write`: what was written under a path is read under it;
  * `FileTree.write_write`: what is written over a file could have been written at once;
  * `FileTree.OnlyChangedAt`: a file that is written is the only one that changes;
  * `FileTree.makeDirectories_parentPath_of_read`: the directories that lead to a file need
    not be made.
-/
import CodeSnippets.Files.Host
import CodeSnippets.Files.Path
import CodeSnippets.Proofs.Text.Pieces

namespace CodeSnippets

theorem stateM_bind {σ α β : Type} (x : StateM σ α) (f : α → StateM σ β) (s : σ) :
    (x >>= f) s = f (x s).1 (x s).2 := rfl

namespace FileTree

variable {t t' : FileTree} {path : Text} {place : Place} {content : ByteArray}

theorem ok_of_bind {ε α β : Type} {x : Except ε α} {f : α → Except ε β} {b : β}
    (h : (x >>= f) = .ok b) : ∃ a, x = .ok a ∧ f a = .ok b := by
  cases x with
  | error e => cases h
  | ok a => exact ⟨a, rfl, h⟩

theorem bind_of_ok {ε α β : Type} {x : Except ε α} {f : α → Except ε β} {a : α} (h : x = .ok a) :
    (x >>= f) = f a := by
  rw [h]
  rfl

theorem partsOf_eq_ok {parts : List Text} (h : partsOf path = .ok parts) :
    parts = path.splitOn '/' := by
  unfold partsOf at h
  split_ifs at h
  exact (Except.ok.inj h).symm

theorem directoryAt_eq_ok_iff {q : Place} :
    t.directoryAt place = .ok q ↔ q = place ∧ t.node place = some .directory := by
  unfold directoryAt
  split
  · rename_i h
    simp [h, eq_comm]
  · rename_i h
    simp [h]
  · rename_i h
    simp [h]

/-- The ways in which a part of a path leads on from a directory. -/
inductive Enters (t : FileTree) (p : Place) : Text → Place → Prop where
  | stay {part : Text} (hpart : part = [] ∨ part = ['.']) : Enters t p part p
  | up : Enters t p ['.', '.'] p.dropLast
  | name {part : Text} {q : Place} (hname : part ≠ []) (hdots : isDots part = false)
      (hinside : inside p part = .ok q) (hthere : (t.node q).isSome) : Enters t p part q

theorem enter_eq_ok_iff {p q : Place} {part : Text} :
    t.enter p part = .ok q ↔ t.node p = some .directory ∧ t.Enters p part q := by
  constructor
  · intro h
    obtain ⟨d, hd, hleads⟩ := ok_of_bind h
    obtain ⟨rfl, hnode⟩ := directoryAt_eq_ok_iff.1 hd
    refine ⟨hnode, ?_⟩
    split_ifs at hleads with hstay hup
    · cases hleads
      exact .stay (by simpa using hstay)
    · cases hleads
      exact hup ▸ .up
    · obtain ⟨e, hinside, hleads⟩ := ok_of_bind hleads
      split_ifs at hleads with hthere
      · cases hleads
        simp only [Bool.or_eq_true, List.isEmpty_iff, decide_eq_true_eq, not_or] at hstay
        exact .name hstay.1 (by simp [isDots, hstay.2, hup]) hinside hthere
  · rintro ⟨hnode, h⟩
    refine (bind_of_ok (directoryAt_eq_ok_iff.2 ⟨rfl, hnode⟩)).trans ?_
    cases h with
    | stay hpart => exact if_pos (by simpa using hpart)
    | up => rfl
    | name hname hdots hinside hthere =>
      simp only [isDots, Bool.or_eq_false_iff, beq_eq_false_iff_ne] at hdots
      rw [if_neg (by simp [hname, hdots.1]), if_neg hdots.2, bind_of_ok hinside, if_pos hthere]
      rfl

/-! ## Writing -/

/-- A path leads to a place for a file: through directories to a name that is not the
    name of a directory. -/
inductive FilePlace (t : FileTree) (path : Text) : Place → Prop where
  | intro {parents : List Text} {name : Text} {directory place : Place}
      (hparts : partsOf path = .ok (parents ++ [name]))
      (hwalk : parents.foldlM t.enter (t.start path) = .ok directory)
      (hdirectory : t.node directory = some .directory) (hname : name ≠ [])
      (hdots : isDots name = false) (hinside : inside directory name = .ok place)
      (hfree : t.node place ≠ some .directory) : FilePlace t path place

/-- The last part of a path is its name if it is not empty. -/
theorem splitOn_named {parents : List Text} {name : Text} (h : path.splitOn '/' = parents ++ [name])
    (hname : name ≠ []) :
    (Text.dropEndWhile (· == '/') path).splitOn '/' = parents ++ [name] := by
  obtain ⟨k, hk⟩ := Text.exists_dropEndWhile_beq '/' path
  generalize Text.dropEndWhile (· == '/') path = named at hk ⊢
  rw [hk, Text.splitOn_append_replicate] at h
  cases k with
  | zero => simpa using h
  | succ k =>
    rw [List.replicate_succ', ← List.append_assoc] at h
    exact absurd (List.append_inj_right' h rfl).symm (by simpa using hname)

/-- Without slashes at its end a path has as many parts as before only if it had none. -/
theorem eq_of_length_splitOn_named
    (h : (path.splitOn '/').length = ((Text.dropEndWhile (· == '/') path).splitOn '/').length) :
    path.splitOn '/' = (Text.dropEndWhile (· == '/') path).splitOn '/' := by
  obtain ⟨k, hk⟩ := Text.exists_dropEndWhile_beq '/' path
  generalize Text.dropEndWhile (· == '/') path = named at hk h ⊢
  rw [hk, Text.splitOn_append_replicate] at h ⊢
  have hzero : k = 0 := by simpa using h
  simp [hzero]

/-- Writing goes to the directory of the parts in front of the name and then to the name. -/
theorem write_eq {parts parents : List Text} {name : Text} (hparts : partsOf path = .ok parts)
    (hnamed : (Text.dropEndWhile (· == '/') path).splitOn '/' = parents ++ [name]) :
    t.write path content = (do
      let directory ← t.directoryAt (← parents.foldlM t.enter (t.start path))
      if parts.length != parents.length + 1 || name.isEmpty || isDots name then throw .isADirectory
      else t.putFile (← inside directory name) content) := by
  have hrev : ((Text.dropEndWhile (· == '/') path).splitOn '/').reverse =
      name :: parents.reverse := by
    rw [hnamed, List.reverse_append]
    rfl
  rw [write, bind_of_ok hparts]
  simp only [hrev, List.reverse_reverse, List.length_reverse]

theorem putFile_eq_ok_iff : t.putFile place content = .ok t' ↔
    t.node place ≠ some .directory ∧ t' = t.put place (.file content) := by
  unfold putFile
  split
  · rename_i h
    simp [h]
  · rename_i h
    exact ⟨fun ht => ⟨h, (Except.ok.inj ht).symm⟩, fun ht => congrArg Except.ok ht.2.symm⟩

/-- **A file is written where the path leads to a place for one**, and nowhere else. -/
theorem write_eq_ok_iff : t.write path content = .ok t' ↔
    ∃ place, t.FilePlace path place ∧ t' = t.put place (.file content) := by
  constructor
  · intro h
    obtain ⟨parts, hparts, -⟩ := ok_of_bind h
    have hsplit := partsOf_eq_ok hparts
    obtain ⟨parents, name, hnamed⟩ : ∃ parents name,
        (Text.dropEndWhile (· == '/') path).splitOn '/' = parents ++ [name] :=
      ⟨_, _, (List.dropLast_concat_getLast (Text.splitOn_ne_nil _ _)).symm⟩
    rw [write_eq hparts hnamed] at h
    obtain ⟨d, hwalk, hfound⟩ := ok_of_bind h
    obtain ⟨directory, hdirectory, hnames⟩ := ok_of_bind hfound
    obtain ⟨rfl, hnode⟩ := directoryAt_eq_ok_iff.1 hdirectory
    split_ifs at hnames with hname
    obtain ⟨place, hinside, hput⟩ := ok_of_bind hnames
    obtain ⟨hfree, rfl⟩ := putFile_eq_ok_iff.1 hput
    simp only [Bool.or_eq_true, not_or, bne_iff_ne, ne_eq, Decidable.not_not, List.isEmpty_iff,
      Bool.not_eq_true] at hname
    obtain ⟨⟨hlength, hne⟩, hdots⟩ := hname
    have hall : parts = parents ++ [name] := by
      rw [hsplit, ← hnamed]
      apply eq_of_length_splitOn_named
      rw [hnamed, ← hsplit, hlength, List.length_append]
      rfl
    exact ⟨place, ⟨hall ▸ hparts, hwalk, hnode, hne, hdots, hinside, hfree⟩, rfl⟩
  · rintro ⟨place, ⟨hparts, hwalk, hnode, hname, hdots, hinside, hfree⟩, rfl⟩
    have hnamed := splitOn_named (partsOf_eq_ok hparts).symm hname
    rw [write_eq hparts hnamed, bind_of_ok hwalk,
      bind_of_ok (directoryAt_eq_ok_iff.2 ⟨rfl, hnode⟩), if_neg (by simp [hname, hdots]),
      bind_of_ok hinside]
    exact putFile_eq_ok_iff.2 ⟨hfree, rfl⟩

/-! ## Reading what was written -/

theorem node_put (t : FileTree) (place : Place) (n : FileNode) (p : Place) :
    (t.put place n).node p = if p = place then some n else t.node p := rfl

/-- A file takes the place of a file or of nothing, so all directories stay. -/
theorem enter_put_file (hfree : t.node place ≠ some .directory) {p q : Place} {part : Text}
    (h : t.enter p part = .ok q) : (t.put place (.file content)).enter p part = .ok q := by
  obtain ⟨hnode, h⟩ := enter_eq_ok_iff.1 h
  refine enter_eq_ok_iff.2 ⟨?_, ?_⟩
  · have hne : p ≠ place := by
      rintro rfl
      exact hfree hnode
    rw [node_put, if_neg hne, hnode]
  · cases h with
    | stay hpart => exact .stay hpart
    | up => exact .up
    | name hname hdots hinside hthere =>
      refine .name hname hdots hinside ?_
      rw [node_put]
      split_ifs
      · rfl
      · exact hthere

theorem foldlM_enter_put_file (hfree : t.node place ≠ some .directory) {parts : List Text}
    {p q : Place} (h : parts.foldlM t.enter p = .ok q) :
    parts.foldlM (t.put place (.file content)).enter p = .ok q := by
  induction parts generalizing p with
  | nil => exact h
  | cons part parts ih =>
    rw [List.foldlM_cons] at h ⊢
    obtain ⟨d, hd, h⟩ := ok_of_bind h
    rw [bind_of_ok (enter_put_file hfree hd)]
    exact ih h

theorem canonical_of_parts {parts : List Text} {name : Text} {p q : Place}
    (hparts : partsOf path = .ok (parts ++ [name]))
    (hwalk : parts.foldlM t.enter (t.start path) = .ok p) (hlast : t.enter p name = .ok q) :
    t.canonical path = .ok q := by
  rw [canonical, bind_of_ok hparts, List.foldlM_append, bind_of_ok hwalk, List.foldlM_cons,
    bind_of_ok hlast]
  rfl

/-- The path leads to the file that is put at its place. -/
theorem FilePlace.canonical_put (h : t.FilePlace path place) :
    (t.put place (.file content)).canonical path = .ok place := by
  obtain ⟨hparts, hwalk, hnode, hname, hdots, hinside, hfree⟩ := h
  rename_i parents name directory
  have hlast : (t.put place (.file content)).enter directory name = .ok place := by
    refine enter_eq_ok_iff.2 ⟨?_, .name hname hdots hinside (by rw [node_put, if_pos rfl]; rfl)⟩
    have hne : directory ≠ place := by
      rintro rfl
      exact hfree hnode
    rw [node_put, if_neg hne, hnode]
  exact canonical_of_parts hparts (foldlM_enter_put_file hfree hwalk) hlast

/-- The place of a file stays a place for one. -/
theorem FilePlace.put (h : t.FilePlace path place) :
    (t.put place (.file content)).FilePlace path place := by
  obtain ⟨hparts, hwalk, hnode, hname, hdots, hinside, hfree⟩ := h
  rename_i parents name directory
  refine ⟨hparts, foldlM_enter_put_file hfree hwalk, ?_, hname, hdots, hinside, ?_⟩
  · have hne : directory ≠ place := by
      rintro rfl
      exact hfree hnode
    rw [node_put, if_neg hne, hnode]
  · rw [node_put, if_pos rfl]
    rintro ⟨⟩

theorem FilePlace.write (h : t.FilePlace path place) (content : ByteArray) :
    t.write path content = .ok (t.put place (.file content)) :=
  write_eq_ok_iff.2 ⟨place, h, rfl⟩

theorem put_put (t : FileTree) (place : Place) (m n : FileNode) :
    (t.put place m).put place n = t.put place n := by
  have hnode : ((t.put place m).put place n).node = (t.put place n).node := by
    funext p
    simp only [node_put]
    split_ifs <;> rfl
  exact congrArg (fun node => (⟨node, t.here⟩ : FileTree)) hnode

/-- **What was written under a path is read under it.** -/
theorem read_of_write (h : t.write path content = .ok t') : t'.read path = .ok content := by
  obtain ⟨place, hplace, rfl⟩ := write_eq_ok_iff.1 h
  rw [read, bind_of_ok hplace.canonical_put, node_put, if_pos rfl]
  rfl

/-- What is written over a file could have been written at once. -/
theorem write_write {t'' : FileTree} {other : ByteArray} (h : t.write path content = .ok t')
    (h' : t'.write path other = .ok t'') : t.write path other = .ok t'' := by
  obtain ⟨place, hplace, rfl⟩ := write_eq_ok_iff.1 h
  rw [hplace.put.write other, put_put] at h'
  rw [hplace.write other, h']

/-- Whether a file can be written does not depend on its content. -/
theorem exists_write_of_write (h : t.write path content = .ok t') (other : ByteArray) :
    ∃ t'', t.write path other = .ok t'' := by
  obtain ⟨place, hplace, -⟩ := write_eq_ok_iff.1 h
  exact ⟨_, hplace.write other⟩

/-- A text stands under a path, and all other files are as they were. -/
structure OnlyChangedAt (t : FileTree) (path text : Text) (t' : FileTree) : Prop where
  content : t'.read path = .ok text.toUtf8
  elsewhere : ∀ place, t'.canonical path ≠ .ok place → t'.node place = t.node place
  here : t'.here = t.here

theorem onlyChangedAt_of_write {text : Text} (h : t.write path text.toUtf8 = .ok t') :
    t.OnlyChangedAt path text t' := by
  have hread := read_of_write h
  obtain ⟨place, hplace, rfl⟩ := write_eq_ok_iff.1 h
  refine ⟨hread, ?_, rfl⟩
  intro other hother
  have hne : other ≠ place := by
    rintro rfl
    exact hother hplace.canonical_put
  exact if_neg hne

/-! ## Directories that are there -/

/-- Where a path leads to a directory, there is nothing to make. -/
theorem makeDirectories_go_of_walk {parts : List Text} {p q : Place}
    (hwalk : parts.foldlM t.enter p = .ok q) (hnode : t.node q = some .directory) :
    makeDirectories.go t p parts = (.ok (), t) := by
  induction parts generalizing p with
  | nil =>
    cases hwalk
    rw [makeDirectories.go, hnode]
  | cons part parts ih =>
    rw [List.foldlM_cons] at hwalk
    obtain ⟨d, hd, hrest⟩ := ok_of_bind hwalk
    have hstep : t.enterOrMake p part = .ok (t, d) := by
      rw [enterOrMake, hd]
      rfl
    rw [makeDirectories.go, hstep]
    exact ih hrest

theorem makeDirectories_of_walk {parts : List Text} (hparts : partsOf path = .ok parts)
    (hwalk : parts.foldlM t.enter (t.start path) = .ok place)
    (hnode : t.node place = some .directory) :
    t.makeDirectories path = (.ok (), t) := by
  rw [makeDirectories, hparts]
  exact makeDirectories_go_of_walk hwalk hnode

/-- The last part of a path that leads to a file is not empty. -/
theorem last_ne_nil_of_read (h : t.read path = .ok content) : path.getLast? ≠ some '/' := by
  intro hslash
  obtain ⟨place, hcanonical, hnode⟩ := ok_of_bind h
  obtain ⟨parts, hparts, hwalk⟩ := ok_of_bind hcanonical
  obtain ⟨front, rfl⟩ : ∃ front, path = front ++ ['/'] := by
    obtain ⟨ys, hys⟩ := List.getLast?_eq_some_iff.1 hslash
    exact ⟨ys, hys⟩
  rw [partsOf_eq_ok hparts, Text.splitOn_append_cons, List.foldlM_append] at hwalk
  obtain ⟨d, -, hlast⟩ := ok_of_bind hwalk
  obtain ⟨e, he, hend⟩ := ok_of_bind hlast
  cases hend
  obtain ⟨hd, hstay⟩ := enter_eq_ok_iff.1 he
  cases hstay with
  | stay =>
    rw [hd] at hnode
    cases hnode
  | name hname => exact hname rfl

/-- A path without a slash at its end is its parent, slashes and a name; there is no
    parent if there is no slash. -/
theorem parentPath_cases (hslash : path.getLast? ≠ some '/') :
    parentPath path = [] ∨ ∃ parent k name, path = parent ++ '/' :: (List.replicate k '/' ++ name) ∧
      '/' ∉ name ∧ parentPath path = if parent = [] then ['/'] else parent := by
  have hbare : Text.dropEndWhile (· == '/') path = path := by
    refine Text.dropEndWhile_of_getLast? fun c hc => ?_
    exact beq_false_of_ne fun hslash' => hslash (hslash' ▸ hc)
  obtain ⟨name, hpath, hname⟩ := Text.exists_dropEndWhile (· != '/') path
  have hlast : ∀ c ∈ (Text.dropEndWhile (· != '/') path).getLast?, (c != '/') = false :=
    fun c => Text.getLast?_dropEndWhile
  obtain ⟨k, hk⟩ := Text.exists_dropEndWhile_beq '/' (Text.dropEndWhile (· != '/') path)
  have hparent : ∀ c ∈ (Text.dropEndWhile (· == '/') (Text.dropEndWhile (· != '/') path)).getLast?,
      (c == '/') = false := fun c => Text.getLast?_dropEndWhile
  rw [parentPath, hbare]
  generalize Text.dropEndWhile (· != '/') path = directory at *
  generalize Text.dropEndWhile (· == '/') directory = parent at *
  cases k with
  | zero =>
    rw [List.replicate_zero, List.append_nil] at hk
    subst hk
    left
    cases h : directory.getLast? with
    | none =>
      rw [List.getLast?_eq_none_iff.1 h]
      rfl
    | some c =>
      exact absurd (by simpa using hlast c h) (ne_of_beq_false (hparent c h))
  | succ k =>
    right
    refine ⟨parent, k, name, ?_, fun h => by simpa using hname _ h, ?_⟩
    · rw [hpath, hk, List.replicate_succ]
      simp
    · cases parent with
      | nil =>
        rw [hk]
        rfl
      | cons c parent => rfl

theorem partsOf_of_append {more : Text} {parts : List Text} (hne : path ≠ [])
    (h : partsOf (path ++ more) = .ok parts) : partsOf path = .ok (path.splitOn '/') := by
  have hsize : path.toUtf8.size ≤ (path ++ more).toUtf8.size := by
    rw [Text.toUtf8, Text.toUtf8, String.ofList_append]
    simp
  unfold partsOf at h ⊢
  split_ifs at h with hnul hempty hlong
  rw [if_neg, if_neg, if_neg]
  · omega
  · simpa using hne
  · intro h
    simp [List.contains_iff_mem.1 h] at hnul

/-- **The directories that lead to a file are there.** -/
theorem makeDirectories_parentPath_of_read (h : t.read path = .ok content) :
    parentPath path = [] ∨ t.makeDirectories (parentPath path) = (.ok (), t) := by
  refine (parentPath_cases (last_ne_nil_of_read h)).imp_right ?_
  rintro ⟨parent, k, name, rfl, -, hparent⟩
  obtain ⟨place, hcanonical, -⟩ := ok_of_bind h
  obtain ⟨parts, hparts, hwalk⟩ := ok_of_bind hcanonical
  rw [partsOf_eq_ok hparts, Text.splitOn_append_cons, List.foldlM_append] at hwalk
  obtain ⟨d, hd, hrest⟩ := ok_of_bind hwalk
  have hnode : t.node d = some .directory := by
    obtain ⟨part, more, hmore⟩ :=
      List.exists_cons_of_ne_nil (Text.splitOn_ne_nil '/' (List.replicate k '/' ++ name))
    rw [hmore, List.foldlM_cons] at hrest
    obtain ⟨e, he, -⟩ := ok_of_bind hrest
    exact (enter_eq_ok_iff.1 he).1
  rw [hparent]
  cases parent with
  | nil =>
    have hroot : t.enter [] [] = .ok d := by
      obtain ⟨e, he, hend⟩ := ok_of_bind hd
      exact hend ▸ he
    have hstay : t.enter d [] = .ok d := enter_eq_ok_iff.2 ⟨hnode, .stay (.inl rfl)⟩
    have hslash : partsOf ['/'] = .ok [[], []] := rfl
    refine makeDirectories_of_walk hslash ?_ hnode
    rw [List.foldlM_cons]
    exact (bind_of_ok hroot).trans (bind_of_ok hstay)
  | cons c parent =>
    exact makeDirectories_of_walk (partsOf_of_append (List.cons_ne_nil c parent) hparts) hd hnode

theorem node_enterOrMake {p q : Place} {part : Text} (h : t.enterOrMake p part = .ok (t', q))
    (hfile : t'.node place = some (.file content)) : t.node place = some (.file content) := by
  unfold enterOrMake at h
  split at h
  · cases h
    exact hfile
  · obtain ⟨e, -, hmade⟩ := ok_of_bind h
    cases hmade
    rw [node_put] at hfile
    split_ifs at hfile
    · cases hfile
    · exact hfile
  · cases h

/-- **Where directories are made no file comes about.** -/
theorem node_makeDirectories (h : (t.makeDirectories path).2.node place = some (.file content)) :
    t.node place = some (.file content) := by
  rw [makeDirectories] at h
  split at h
  · exact h
  · rename_i parts hparts
    generalize t.start path = p at h
    clear hparts
    induction parts generalizing t p with
    | nil =>
      rw [makeDirectories.go] at h
      split at h <;> exact h
    | cons part parts ih =>
      rw [makeDirectories.go] at h
      split at h
      · exact h
      · rename_i t' q hstep
        exact node_enterOrMake hstep (ih q h)

end FileTree

namespace Machine

theorem write_of_ok {path : Text} {content : ByteArray} {w : Machine} {files : FileTree}
    (h : w.files.write path content = .ok files) :
    w.write path content = (.ok (), { w with files }) := by
  rw [write, h]

theorem write_of_error {path : Text} {content : ByteArray} {w : Machine} {e : FileError}
    (h : w.files.write path content = .error e) : w.write path content = (.error e, w) := by
  rw [write, h]

end Machine

end CodeSnippets
