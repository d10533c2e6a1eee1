import Yunetas.Timeranger2.TopicFiles

/-!
# Opening the files of a topic

A key that the topic accepts names one directory. Opening a file to write makes directories and
one empty file at most, and what it returns opens from then on by the same names. A file of rows
ends in `.md2` and one of payloads in `.json`, so neither is ever taken for the other.
-/

namespace Yunetas.Timeranger2.OpenTopic

open List Bool Option FileTree String

variable {home : OpenTopic}

/-! ## Names of files -/

/-- A file of rows, by the end of its name. -/
def RowFile (path : Path) : Prop :=
  ∃ name, path.getLast? = some name ∧ name.toList.getLast? = some '2'

theorem rowFile_md2 (dir : Path) (t : UInt64) : RowFile (dir ++ [home.fileName false t]) := by
  refine ⟨home.fileName false t, by simp, ?_⟩
  have text : (home.fileName false t).toList = (home.topic.fileOf t).toList ++ ".md2".toList := by
    simp [fileName]
  rw [text, getLast?_append]
  rfl

theorem not_rowFile_json (dir : Path) (t : UInt64) : ¬ RowFile (dir ++ [home.fileName true t]) := by
  rintro ⟨name, last, two⟩
  have same : home.fileName true t = name := by simpa using last
  have text : (home.fileName true t).toList = (home.topic.fileOf t).toList ++ ".json".toList := by
    simp [fileName]
  have json : ".json".toList.getLast? = some 'n' := rfl
  rw [← same, text, getLast?_append, json] at two
  exact absurd two (by simp)

theorem json_ne_md2 (dir other : Path) (t u : UInt64) :
    dir ++ [home.fileName true t] ≠ other ++ [home.fileName false u] := by
  intro same
  have rows := @rowFile_md2 home other u
  rw [← same] at rows
  exact not_rowFile_json dir t rows

/-! ## Keys -/

/-- A key that names one directory. -/
def PlainKey (key : String) : Prop := EntryName key ∧ '/' ∉ key.toList

variable {key : String} {tree : FileTree (List UInt8)}

theorem keyParts_plain (plain : PlainKey key) :
    home.keyParts key = home.directory ++ ["keys", key] := by
  rw [keyParts, pathParts_plain plain.2]

theorem entryName_keyParts (plain : PlainKey key) : ∀ name ∈ home.keyParts key, EntryName name := by
  rw [keyParts_plain plain]
  intro name among
  rcases mem_append.1 among with onWay | last
  · exact home.spelled name onWay
  · rcases mem_cons.1 last with same | last
    · rw [same]
      decide
    · rw [mem_singleton.1 last]
      exact plain.1

theorem resolve_plain (plain : PlainKey key)
    {dir : Path} (leads : tree.resolve [] (home.keyParts key) = some dir) :
    dir = home.directory ++ ["keys", key] := by
  have spelled := resolve_spells (entryName_keyParts plain) leads
  rw [spelled, keyParts_plain plain, nil_append]

theorem plainKey_of_head {first : Char} {rest : List Char}
    (text : key.toList = first :: rest) (dot : first ≠ '.') (plain : '/' ∉ key.toList) :
    PlainKey key := by
  refine ⟨⟨?_, ?_, ?_⟩, plain⟩
  · rintro rfl
    cases text
  · rintro rfl
    have same : first = '.' := (cons.inj (show ['.'] = first :: rest from text)).1.symm
    exact dot same
  · rintro rfl
    have same : first = '.' := (cons.inj (show ['.', '.'] = first :: rest from text)).1.symm
    exact dot same

theorem plainKey_of_not_refused (accepted : deleteRefuses key = false) : PlainKey key := by
  unfold deleteRefuses at accepted
  rw [or_eq_false_iff, or_eq_false_iff] at accepted
  have ⟨⟨nonempty, slashes⟩, dots⟩ := accepted
  have plain : '/' ∉ key.toList := by
    intro among
    rw [contains_iff_mem.2 among] at slashes
    cases slashes
  cases text : key.toList with
  | nil =>
    have empty : key = "" := toList_inj.1 (text.trans rfl)
    rw [empty] at nonempty
    exact absurd nonempty (by decide)
  | cons first rest =>
    apply plainKey_of_head text _ plain
    intro dot
    rw [text, dot] at dots
    exact absurd dots (by simp)

/-- A key that begins with another character than a dot, and has no slash, is accepted by a
delete. -/
theorem not_refused_of_head {first : Char} {rest : List Char}
    (text : key.toList = first :: rest) (dot : first ≠ '.') (plain : '/' ∉ key.toList) :
    deleteRefuses key = false := by
  have nonempty : key.isEmpty = false := by
    rw [eq_false_iff]
    intro empty
    rw [isEmpty_iff.1 empty] at text
    cases text
  have slashes : key.toList.contains '/' = false := by
    rw [eq_false_iff]
    intro among
    exact plain (contains_iff_mem.1 among)
  unfold deleteRefuses
  rw [nonempty, slashes, text]
  simpa using dot

theorem not_refused_intKey (value : Int) : deleteRefuses (intKey value) = false := by
  have digits : ∀ c ∈ (intKey value).toList, c.isDigit = true := by
    intro c among
    unfold intKey at among
    rw [toList_append, toList_ofList] at among
    rcases mem_append.1 among with zero | digit
    · rw [eq_of_mem_replicate zero]
      decide
    · have text : (toString (value % 2 ^ 64).toNat).toList =
          Nat.toDigits 10 (value % 2 ^ 64).toNat := Nat.toList_repr
      rw [text] at digit
      exact Nat.isDigit_of_mem_toDigits (by decide) (by decide) digit
  have plain : '/' ∉ (intKey value).toList := by
    intro among
    exact absurd (digits _ among) (by decide)
  cases text : (intKey value).toList with
  | nil =>
    have whole : Nat.toDigits 10 (value % 2 ^ 64).toNat = [] := by
      unfold intKey at text
      rw [toList_append] at text
      exact Nat.toList_repr.symm.trans (append_eq_nil_iff.1 text).2
    exact absurd whole Nat.toDigits_ne_nil
  | cons first rest =>
    apply not_refused_of_head text _ plain
    intro dot
    have digit := digits first (text ▸ mem_cons_self)
    rw [dot] at digit
    exact absurd digit (by decide)

theorem not_refused_of_keyOf {topic : Topic} {value : PkeyValue}
    (named : keyOf topic value = some key) : deleteRefuses key = false := by
  unfold keyOf at named
  dsimp only at named
  split at named
  · cases value with
    | string text =>
      dsimp only at named
      by_cases valid : validStringKey text = true
      · rw [if_pos valid] at named
        rw [← some.inj named]
        unfold validStringKey at valid
        unfold deleteRefuses
        rw [not_eq_true', or_eq_false_iff, or_eq_false_iff, or_eq_false_iff] at valid
        have ⟨⟨⟨nonempty, _⟩, slashes⟩, dots⟩ := valid
        rw [nonempty, slashes, dots]
        rfl
      · rw [if_neg valid] at named
        cases named
    | integer number => cases named
    | other => cases named
  · split at named
    · cases value with
      | integer number =>
        rw [← some.inj named]
        exact not_refused_intKey number
      | string text =>
        rw [← some.inj named]
        exact not_refused_intKey 0
      | other =>
        rw [← some.inj named]
        exact not_refused_intKey 0
    · split at named
      · rw [← some.inj named]
        decide
      · cases named

theorem keyUsed_of_keyOf {value : PkeyValue}
    (named : keyOf home.topic value = some key) : home.keyUsed key = key := by
  unfold keyUsed Timeranger2.deleteKey
  by_cases byRowid : home.topic.systemFlag &&& sfRowidKey ≠ 0
  · rw [if_pos byRowid]
    unfold keyOf at named
    dsimp only at named
    have rowid : (home.topic.systemFlag &&& keyTypeMask2) &&& sfRowidKey ≠ 0 := by
      rw [UInt16.and_assoc]
      exact byRowid
    split at named
    · rename_i type
      rw [type] at rowid
      exact absurd rowid (by decide)
    · split at named
      · rename_i type
        rw [type] at rowid
        exact absurd rowid (by decide)
      · split at named
        · exact some.inj named
        · cases named
  · rw [if_neg byRowid]

/-! ## Opening -/

/-- Nothing is lost and every new file is empty. -/
structure Kept (old new : FileTree (List UInt8)) : Prop where
  dirs : ∀ path, old.isDir path = true → new.isDir path = true
  files : ∀ path bytes, old.fileAt path = some bytes → new.fileAt path = some bytes
  fresh : ∀ path bytes, new.fileAt path = some bytes → old.fileAt path = some bytes ∨ bytes = []

theorem Kept.refl (tree : FileTree (List UInt8)) : Kept tree tree :=
  ⟨fun _ dir => dir, fun _ _ file => file, fun _ _ file => .inl file⟩

theorem Kept.trans {first second third : FileTree (List UInt8)} (left : Kept first second)
    (right : Kept second third) : Kept first third where
  dirs path dir := right.dirs path (left.dirs path dir)
  files path bytes file := right.files path bytes (left.files path bytes file)
  fresh path bytes file := by
    rcases right.fresh path bytes file with before | empty
    · exact left.fresh path bytes before
    · exact .inr empty

theorem openFile_eq_some {parts : List String} {name : String}
    {file : Path} : openFile tree parts name = some file ↔
      ∃ dir, tree.resolve [] parts = some dir ∧ file = dir ++ [name] ∧
        (tree.fileAt file).isSome = true := by
  unfold openFile
  cases resolved : tree.resolve [] parts with
  | none => simp
  | some dir =>
    by_cases there : (tree.fileAt (dir ++ [name])).isSome = true
    · simp only [there, ↓reduceIte, some.injEq]
      constructor
      · intro same
        rw [← same]
        exact ⟨dir, rfl, rfl, there⟩
      · rintro ⟨other, same, spelled, _⟩
        rw [same, spelled]
    · simp only [there, false_eq_true, ↓reduceIte, reduceCtorEq, some.injEq, false_iff]
      rintro ⟨other, same, spelled, opens⟩
      rw [spelled, ← same] at opens
      exact there opens

theorem kept_createFile (tree : FileTree (List UInt8)) (key name : String) :
    Kept tree (home.createFile tree key name).1 := by
  have made (parts : List String) : Kept tree (tree.makePath [] parts) := by
    refine ⟨fun path dir => isDir_makePath dir [] parts, ?_, ?_⟩
    · intro path bytes file
      rw [fileAt_makePath]
      exact file
    · intro path bytes file
      rw [fileAt_makePath] at file
      exact .inl file
  have paths : Kept tree (if (tree.resolve [] (home.keyParts key)).isSome then tree
      else tree.makePath [] (home.keyParts key)) := by
    by_cases there : (tree.resolve [] (home.keyParts key)).isSome = true
    · rw [if_pos there]
      exact .refl tree
    · rw [if_neg there]
      exact made _
  unfold createFile
  dsimp only
  generalize (if (tree.resolve [] (home.keyParts key)).isSome then tree
      else tree.makePath [] (home.keyParts key)) = ready at paths ⊢
  cases ready.resolve [] (home.keyParts key) with
  | none => exact paths
  | some dir =>
    dsimp only
    cases new : ready.newFile dir name [] with
    | none => exact paths
    | some tree' =>
      have ⟨free, written⟩ := newFile_eq_some new
      refine paths.trans ⟨?_, ?_, ?_⟩
      · intro path there
        rw [written]
        refine isDir_write ?_ there
        rw [free]
        nofun
      · intro path bytes file
        have ne : path ≠ dir ++ [name] := by
          intro same
          rw [same, fileAt_eq_some, free] at file
          cases file
        rw [written, fileAt_write_ne _ _ ne]
        exact file
      · intro path bytes file
        rw [written] at file
        by_cases same : path = dir ++ [name]
        · rw [same, fileAt_write] at file
          exact .inr (some.inj file).symm
        · rw [fileAt_write_ne _ _ same] at file
          exact .inl file

theorem createFile_opens {key name : String} {file : Path}
    (made : (home.createFile tree key name).2 = some file) :
    openFile (home.createFile tree key name).1 (home.keyParts key) name = some file ∧
      bytesAt (home.createFile tree key name).1 file = [] := by
  unfold createFile at made ⊢
  dsimp only at made ⊢
  generalize (if (tree.resolve [] (home.keyParts key)).isSome then tree
      else tree.makePath [] (home.keyParts key)) = ready at made ⊢
  cases resolved : ready.resolve [] (home.keyParts key) with
  | none =>
    rw [resolved] at made
    cases made
  | some dir =>
    rw [resolved] at made
    dsimp only at made ⊢
    cases new : ready.newFile dir name [] with
    | none =>
      rw [new] at made
      cases made
    | some tree' =>
      rw [new] at made
      have ⟨free, written⟩ := newFile_eq_some new
      have here : file = dir ++ [name] := (some.inj made).symm
      have dirs : ∀ path, ready.isDir path = true → tree'.isDir path = true := by
        intro path there
        rw [written]
        refine isDir_write ?_ there
        rw [free]
        nofun
      have empty : tree'.fileAt file = some [] := by rw [here, written, fileAt_write]
      rw [openFile_eq_some]
      exact ⟨⟨dir, resolve_mono dirs _ _ _ resolved, here, isSome_of_eq_some empty⟩,
        congrArg (Option.getD · []) empty⟩

theorem kept_getTopicWrFd (tree : FileTree (List UInt8)) (key : String) (forData : Bool)
    (t : UInt64) : Kept tree (home.getTopicWrFd tree key forData t).1 := by
  unfold getTopicWrFd
  cases openFile tree (home.keyParts key) (home.fileName forData t) with
  | some file => exact .refl tree
  | none =>
    by_cases master : home.master = true
    · simp only [master, ↓reduceIte]
      exact kept_createFile tree key _
    · simp only [master, false_eq_true, ↓reduceIte]
      exact .refl tree

theorem getTopicWrFd_opens {tree : FileTree (List UInt8)} {key : String} {forData : Bool}
    {t : UInt64} {file : Path} (got : (home.getTopicWrFd tree key forData t).2 = some file) :
    openFile (home.getTopicWrFd tree key forData t).1 (home.keyParts key)
      (home.fileName forData t) = some file := by
  unfold getTopicWrFd at got ⊢
  cases opened : openFile tree (home.keyParts key) (home.fileName forData t) with
  | some other =>
    rw [opened] at got
    rw [opened, some.inj got]
  | none =>
    rw [opened] at got
    by_cases master : home.master = true
    · rw [if_pos master] at got ⊢
      exact (createFile_opens got).1
    · rw [if_neg master] at got
      cases got

theorem getTopicWrFd_of_open {forData : Bool} {t : UInt64} {file : Path}
    (opened : openFile tree (home.keyParts key) (home.fileName forData t) = some file) :
    home.getTopicWrFd tree key forData t = (tree, some file) := by
  unfold getTopicWrFd
  rw [opened]

theorem getTopicWrFd_get? {tree : FileTree (List UInt8)} {key : String} {dir path : Path}
    {forData : Bool} {t : UInt64} (leads : tree.resolve [] (home.keyParts key) = some dir)
    (other : path ≠ dir ++ [home.fileName forData t]) :
    (home.getTopicWrFd tree key forData t).1.get? path = tree.get? path := by
  unfold getTopicWrFd
  cases openFile tree (home.keyParts key) (home.fileName forData t) with
  | some file => rfl
  | none =>
    by_cases master : home.master = true
    · simp only [master, ↓reduceIte]
      unfold createFile
      simp only [leads, isSome_some, ↓reduceIte]
      cases new : tree.newFile dir (home.fileName forData t) [] with
      | none => rfl
      | some made =>
        obtain ⟨_, written⟩ := newFile_eq_some new
        rw [written, get?_write_ne _ _ other]
    · simp [master, ↓reduceIte]

end Yunetas.Timeranger2.OpenTopic
