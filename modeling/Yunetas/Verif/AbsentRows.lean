import Yunetas.Timeranger2.TopicRuns

/-!
# Writers of flags on a row that is not there

A writer of flags that is given a key, a time or a rowid without a row reports an error, but it
opens the file of the key and the time as an append does: in the master the directory of the key
and an empty file are made on the way, and the key is listed once the topic is opened again. A
rowid past `2^59` is multiplied by the size of a row in 64 bits and comes back to a row of the
file. Without these two nothing changes.
-/

namespace Yunetas.Timeranger2.OpenTopic

open Option

variable {home : OpenTopic}

/-! ## Property -/

/-- A call that is given a row by its key, its time and its rowid. -/
inductive FlagCall where
  /-- `tranger2_write_user_flag`. -/
  | writeUserFlag (key : String) (t rowid : UInt64) (userFlag : UInt16)
  /-- `tranger2_set_user_flag`. -/
  | setUserFlag (key : String) (t rowid : UInt64) (mask : UInt16) (set : Bool)
  /-- `tranger2_delete_instance`. -/
  | deleteInstance (key : String) (t rowid : UInt64) (zeroPayload : Bool)
  /-- `tranger2_read_user_flag`. -/
  | readUserFlag (key : String) (t rowid : UInt64)

namespace FlagCall

/-- The key of a call. -/
def key : FlagCall → String
  | writeUserFlag key _ _ _ | setUserFlag key _ _ _ _ | deleteInstance key _ _ _
  | readUserFlag key _ _ => key

/-- The time of a call. -/
def t : FlagCall → UInt64
  | writeUserFlag _ t _ _ | setUserFlag _ t _ _ _ | deleteInstance _ t _ _
  | readUserFlag _ t _ => t

/-- The rowid of a call. -/
def rowid : FlagCall → UInt64
  | writeUserFlag _ _ rowid _ | setUserFlag _ _ rowid _ _ | deleteInstance _ _ rowid _
  | readUserFlag _ _ rowid => rowid

/-- The files after a call, and that it returned an error: -1, which `tranger2_read_user_flag`
returns as a `uint16_t`. -/
def answer (home : OpenTopic) (files : TopicFiles) : FlagCall → TopicFiles × Bool
  | writeUserFlag key t rowid userFlag =>
    ((home.writeUserFlag files key t rowid userFlag).1,
      (home.writeUserFlag files key t rowid userFlag).2 = -1)
  | setUserFlag key t rowid mask set =>
    ((home.setUserFlag files key t rowid mask set).1,
      (home.setUserFlag files key t rowid mask set).2 = -1)
  | deleteInstance key t rowid zeroPayload =>
    ((home.deleteInstance files key t rowid zeroPayload).1,
      (home.deleteInstance files key t rowid zeroPayload).2 = -1)
  | readUserFlag key t rowid =>
    ((home.readUserFlag files key t rowid).1, (home.readUserFlag files key t rowid).2 = 0xFFFF)

/-- The refusals of `tranger2_delete_instance` before it looks at any file. -/
def refused (home : OpenTopic) : FlagCall → Bool
  | deleteInstance key _ _ _ => !home.master || deleteRefuses (home.keyUsed key)
  | _ => false

/-- The call does nothing with a row it finds: a process that is not the master cannot write it,
an immutable record is not deleted, and a flag may read as the error does. -/
def spares (home : OpenTopic) (row : Md2Record) : FlagCall → Bool
  | writeUserFlag _ _ _ _ | setUserFlag _ _ _ _ _ => !home.master
  | deleteInstance _ _ _ _ => row.getSystemFlag &&& sfImmutableRecord ≠ 0
  | readUserFlag _ _ _ => row.getUserFlag = 0xFFFF

end FlagCall

/-- A call addresses a row: the file of its key and its time has the row of its rowid, with its
time. -/
def Addressed (home : OpenTopic) (tree : FileTree (List UInt8)) (call : FlagCall) : Prop :=
  ∃ file, openFile tree (home.keyParts (home.keyUsed call.key)) (home.fileName false call.t) =
      some file ∧ call.rowid ≠ 0 ∧
    call.rowid.toNat * md2RecordSize ≤ (bytesAt tree file).length ∧
      (rowAt (bytesAt tree file) (call.rowid.toNat - 1)).getTimeT = call.t

/-- A call failed and left every file, key and cache, and what an opening lists. -/
structure LeftAsItWas (home : OpenTopic) (before : TopicFiles) (answer : TopicFiles × Bool) :
    Prop where
  failed : answer.2 = true
  tree : answer.1.tree = before.tree
  cache : answer.1.cache = before.cache
  keys : listKeys (home.reopen answer.1) = listKeys (home.reopen before)

/-- The file system makes neither the directories of a key nor a file in them. -/
def NotMade (tree : FileTree (List UInt8)) (parts : List String) (name : String) : Prop :=
  match tree.resolve [] parts with
  | some dir => tree.free dir name = false
  | none => tree.makes [] parts = false

/-- The call makes no file, and does nothing with the row that the 64 bits of its offset lead to, if
there is one. -/
def Harmless (home : OpenTopic) (tree : FileTree (List UInt8)) (call : FlagCall) : Prop :=
  call.rowid = 0 ∨ call.refused home = true ∨
    match openFile tree (home.keyParts (home.keyUsed call.key)) (home.fileName false call.t) with
    | some file =>
      ∀ located, readRow tree file call.t call.rowid = some located →
        call.spares home located.row = true
    | none =>
      home.master = true →
        NotMade tree (home.keyParts (home.keyUsed call.key)) (home.fileName false call.t)

/-! ## Making a file -/

open FileTree

theorem createFile_same_iff (tree : FileTree (List UInt8)) (key name : String) :
    (home.createFile tree key name).1 = tree ↔ NotMade tree (home.keyParts key) name := by
  unfold createFile NotMade
  dsimp only
  cases resolved : tree.resolve [] (home.keyParts key) with
  | some dir =>
    simp only [isSome_some, ↓reduceIte, resolved]
    cases new : tree.newFile dir name [] with
    | none =>
      unfold FileTree.newFile at new
      have taken : tree.free dir name = false := by
        by_contra room
        rw [Bool.not_eq_false] at room
        rw [if_pos room] at new
        cases new
      exact ⟨fun _ => taken, fun _ => rfl⟩
    | some made =>
      obtain ⟨nothing, written⟩ := newFile_eq_some new
      have room : tree.free dir name = true := by
        by_contra taken
        unfold FileTree.newFile at new
        rw [if_neg taken] at new
        cases new
      constructor
      · intro same
        have there : made.get? (dir ++ [name]) = some (.file []) := by
          rw [written, FileTree.write, Dict.get?_set_self]
        dsimp only at same
        rw [same, nothing] at there
        cases there
      · intro taken
        rw [room] at taken
        cases taken
  | none =>
    simp only [isSome_none, Bool.false_eq_true, ↓reduceIte]
    cases makes : tree.makes [] (home.keyParts key) with
    | false =>
      rw [makePath_of_not_makes _ _ makes, resolved]
      exact ⟨fun _ => rfl, fun _ => rfl⟩
    | true =>
      obtain ⟨path, nothing, dir⟩ := makePath_of_makes _ _ makes
      constructor
      · intro same
        have stays : ∀ made : FileTree (List UInt8), made.get? path = some .dir → made ≠ tree := by
          intro made there whole
          rw [whole, nothing] at there
          cases there
        cases later : (tree.makePath [] (home.keyParts key)).resolve [] (home.keyParts key) with
        | none =>
          rw [later] at same
          exact absurd same (stays _ dir)
        | some place =>
          rw [later] at same
          dsimp only at same
          cases new : (tree.makePath [] (home.keyParts key)).newFile place name [] with
          | none =>
            rw [new] at same
            exact absurd same (stays _ dir)
          | some made =>
            rw [new] at same
            obtain ⟨free, written⟩ := newFile_eq_some new
            refine absurd same (stays _ ?_)
            have ne : path ≠ place ++ [name] := by
              intro here
              rw [here, free] at dir
              cases dir
            rw [written, get?_write_ne _ _ ne]
            exact dir
      · intro refused
        cases refused

/-! ## Rows found by a call -/

variable {tree : FileTree (List UInt8)} {files : TopicFiles}

theorem getMdRecordForWr_open {key : String} {t rowid : UInt64} {file : Path} (positive : rowid ≠ 0)
    (opened : openFile tree (home.keyParts key) (home.fileName false t) = some file) :
    home.getMdRecordForWr tree key t rowid = (tree, readRow tree file t rowid) := by
  unfold getMdRecordForWr
  rw [if_neg positive, getTopicWrFd_of_open opened]

theorem readRow_empty {file : Path} (empty : bytesAt tree file = [])
    (t rowid : UInt64) : readRow tree file t rowid = none := by
  cases read : readRow tree file t rowid with
  | none => rfl
  | some located =>
    have ⟨_, _, _, inside, _⟩ := readRow_eq_some.1 read
    rw [empty, List.length_nil, Nat.succ_mul] at inside
    have size : md2RecordSize = 32 := rfl
    omega

theorem getMdRecordForWr_missing {key : String} {t rowid : UInt64} (positive : rowid ≠ 0)
    (missing : openFile tree (home.keyParts key) (home.fileName false t) = none) :
    (home.getMdRecordForWr tree key t rowid).2 = none ∧
      ((home.getMdRecordForWr tree key t rowid).1 = tree ↔
        (home.master = true → NotMade tree (home.keyParts key) (home.fileName false t))) := by
  have same := @createFile_same_iff home tree key (home.fileName false t)
  have empty := @createFile_opens home tree key (home.fileName false t)
  unfold getMdRecordForWr getTopicWrFd
  rw [if_neg positive, missing]
  by_cases master : home.master = true
  · rw [if_pos master]
    cases made : home.createFile tree key (home.fileName false t) with
    | mk new opened =>
      rw [made] at same empty
      have iff : (new = tree ↔ (home.master = true →
          NotMade tree (home.keyParts key) (home.fileName false t))) :=
        same.trans ⟨fun notMade _ => notMade, fun implies => implies master⟩
      cases opened with
      | none => exact ⟨rfl, iff⟩
      | some file => exact ⟨readRow_empty (empty rfl).2 t rowid, iff⟩
  · rw [if_neg master]
    exact ⟨rfl, fun _ yes => absurd yes master, fun _ => rfl⟩

/-! ## Calls -/

theorem leftAsItWas_iff (tree : FileTree (List UInt8)) :
    LeftAsItWas home files ({ files with tree := tree }, true) ↔ tree = files.tree := by
  constructor
  · intro left
    exact left.tree
  · intro same
    rw [same]
    exact ⟨rfl, rfl, rfl, rfl⟩

theorem not_leftAsItWas {answer : TopicFiles × Bool}
    (done : answer.2 = false) : ¬ LeftAsItWas home files answer := by
  intro left
  rw [left.failed] at done
  cases done

theorem answer_none {call : FlagCall} (here : call.refused home = false)
    (none_found : home.getMdRecordForWr files.tree (home.keyUsed call.key) call.t call.rowid =
      (tree, none)) : call.answer home files = ({ files with tree := tree }, true) := by
  cases call with
  | writeUserFlag key t rowid userFlag =>
    dsimp only [FlagCall.key, FlagCall.t, FlagCall.rowid] at none_found
    simp [FlagCall.answer, writeUserFlag, rewriteRow, none_found, decide_true]
  | setUserFlag key t rowid mask set =>
    dsimp only [FlagCall.key, FlagCall.t, FlagCall.rowid] at none_found
    simp [FlagCall.answer, setUserFlag, rewriteRow, none_found, decide_true]
  | deleteInstance key t rowid zeroPayload =>
    dsimp only [FlagCall.key, FlagCall.t, FlagCall.rowid] at none_found
    unfold FlagCall.refused at here
    rw [Bool.or_eq_false_iff] at here
    simp [FlagCall.answer, deleteInstance, here.1, here.2, none_found, Bool.false_eq_true,
      ↓reduceIte, decide_true]
  | readUserFlag key t rowid =>
    dsimp only [FlagCall.key, FlagCall.t, FlagCall.rowid] at none_found
    simp [FlagCall.answer, readUserFlag, none_found, decide_true]

theorem answer_refused {call : FlagCall} (refused : call.refused home = true) :
    call.answer home files = (files, true) := by
  cases call with
  | writeUserFlag key t rowid userFlag => cases refused
  | setUserFlag key t rowid mask set => cases refused
  | readUserFlag key t rowid => cases refused
  | deleteInstance key t rowid zeroPayload =>
    have either : (!home.master) = true ∨ deleteRefuses (home.keyUsed key) = true :=
      Bool.or_eq_true_iff.1 refused
    have done : home.deleteInstance files key t rowid zeroPayload = (files, -1) := by
      unfold deleteInstance
      by_cases master : (!home.master) = true
      · rw [if_pos master]
      · rw [if_neg master, if_pos (either.resolve_left master)]
    unfold FlagCall.answer
    dsimp only
    rw [done]
    rfl

theorem rewriteRow_left_iff {key : String} {t rowid : UInt64}
    {located : Located} (change : Md2Record → Md2Record)
    (found : home.getMdRecordForWr files.tree (home.keyUsed key) t rowid =
      (files.tree, some located)) :
    LeftAsItWas home files ((home.rewriteRow files key t rowid change).1,
        (home.rewriteRow files key t rowid change).2 = -1) ↔ (!home.master) = true := by
  unfold rewriteRow rewriteMdToFile
  rw [found]
  by_cases master : home.master = true
  · simp only [master, ↓reduceIte, Bool.not_true, Bool.false_eq_true, iff_false]
    have done : decide ((0 : Int) = -1) = false := rfl
    exact not_leftAsItWas done
  · rw [Bool.not_eq_true] at master
    simp only [master, Bool.false_eq_true, ↓reduceIte, Bool.not_false, iff_true, decide_true]
    exact (leftAsItWas_iff files.tree).2 rfl

theorem dead_ne {row : Md2Record} (alive : ¬ (row.getSystemFlag &&& sfDeletedInstance ≠ 0)) :
    row.setSystemFlag (row.getSystemFlag ||| sfDeletedInstance) ≠ row := by
  intro same
  have flag := congrArg Md2Record.getSystemFlag same
  rw [Md2Record.getSystemFlag_setSystemFlag] at flag
  apply alive
  rw [deleted_iff_bit, ← flag, UInt16.toNat_or, Nat.testBit_or,
    show sfDeletedInstance.toNat.testBit 10 = true by decide, Bool.or_true]

theorem fileAt_wipePayload {tree : FileTree (List UInt8)} {path : Path} {bytes : List UInt8}
    (rows : RowFile path) (there : tree.fileAt path = some bytes) (key : String) (t : UInt64)
    (row : Md2Record) : (home.wipePayload tree key t row).1.fileAt path = some bytes := by
  have kept := @kept_getTopicWrFd home tree key true t
  have opens := @getTopicWrFd_opens home tree key true t
  unfold wipePayload
  cases got : home.getTopicWrFd tree key true t with
  | mk new opened =>
    rw [got] at kept opens
    have stays := kept.files path bytes there
    cases opened with
    | none => exact stays
    | some file =>
      have ⟨dir, _, spelled, _⟩ := openFile_eq_some.1 (opens rfl)
      have ne : path ≠ file := by
        intro same
        rw [same, spelled] at rows
        exact not_rowFile_json dir t rows
      dsimp only
      split
      · exact stays
      · rw [fileAt_write_ne _ _ ne]
        exact stays

/-- A delete that finds a row leaves all as it was exactly when the record is immutable. -/
theorem deleteInstance_left_iff {files : TopicFiles} {key : String} {t rowid : UInt64}
    {located : Located} {zeroPayload : Bool} (master : home.master = true)
    (accepted : deleteRefuses (home.keyUsed key) = false)
    (found : Found home files.tree (home.keyUsed key) t rowid located)
    (got : home.getMdRecordForWr files.tree (home.keyUsed key) t rowid =
      (files.tree, some located)) :
    LeftAsItWas home files ((home.deleteInstance files key t rowid zeroPayload).1,
        (home.deleteInstance files key t rowid zeroPayload).2 = -1) ↔
      located.row.getSystemFlag &&& sfImmutableRecord ≠ 0 := by
  have zero : decide ((0 : Int) = -1) = false := rfl
  unfold deleteInstance
  simp only [master, accepted, got, Bool.not_true, Bool.false_eq_true, ↓reduceIte]
  by_cases immutable : located.row.getSystemFlag &&& sfImmutableRecord ≠ 0
  · rw [if_pos immutable]
    exact ⟨fun _ => immutable, fun _ => (leftAsItWas_iff files.tree).2 rfl⟩
  rw [if_neg immutable]
  refine ⟨fun left => ?_, fun yes => absurd yes immutable⟩
  by_cases dead : located.row.getSystemFlag &&& sfDeletedInstance ≠ 0
  · rw [if_pos dead] at left
    exact absurd left (not_leftAsItWas zero)
  rw [if_neg dead] at left
  by_cases wipe : zeroPayload = true ∧ 0 < located.row.size
  · rw [if_pos wipe] at left
    have same := left.tree
    unfold rewriteMdToFile at same
    simp only [master, ↓reduceIte] at same
    have rows := rowFile_of_open found.opens
    have there := @fileAt_wipePayload home _ _ _ rows (fileAt_write files.tree located.file
      (overwrite (bytesAt files.tree located.file) (located.index * md2RecordSize)
        (encodeRow (located.row.setSystemFlag
          (located.row.getSystemFlag ||| sfDeletedInstance))))) (home.keyUsed key) t located.row
    rw [same, fileAt_of_open found.opens] at there
    have fits : (located.row.setSystemFlag
        (located.row.getSystemFlag ||| sfDeletedInstance)).Fits := by
      rw [found.row]
      exact fits_rowAt _ _
    have row : rowAt (overwrite (bytesAt files.tree located.file) (located.index * md2RecordSize)
        (encodeRow (located.row.setSystemFlag
          (located.row.getSystemFlag ||| sfDeletedInstance)))) located.index =
        located.row.setSystemFlag (located.row.getSystemFlag ||| sfDeletedInstance) := by
      rw [rowAt, rowBytes_overwrite found.inside, if_pos rfl, decodeRow_encodeRow fits]
    rw [← some.inj there, ← found.row] at row
    exact absurd row.symm (dead_ne dead)
  · rw [if_neg wipe] at left
    exact absurd left (not_leftAsItWas zero)

theorem answer_found {call : FlagCall} {located : Located} (here : call.refused home = false)
    (found : Found home files.tree (home.keyUsed call.key) call.t call.rowid located)
    (got : home.getMdRecordForWr files.tree (home.keyUsed call.key) call.t call.rowid =
      (files.tree, some located)) :
    LeftAsItWas home files (call.answer home files) ↔ call.spares home located.row = true := by
  cases call with
  | writeUserFlag key t rowid userFlag => exact rewriteRow_left_iff _ got
  | setUserFlag key t rowid mask set => exact rewriteRow_left_iff _ got
  | deleteInstance key t rowid zeroPayload =>
    have both := Bool.or_eq_false_iff.1 here
    have master : home.master = true := by simpa using both.1
    have iff := @deleteInstance_left_iff home files key t rowid located zeroPayload master both.2
      found got
    rw [FlagCall.answer, iff, FlagCall.spares, decide_eq_true_iff]
  | readUserFlag key t rowid =>
    dsimp only [FlagCall.key, FlagCall.t, FlagCall.rowid] at got
    simp only [FlagCall.answer, readUserFlag, got, FlagCall.spares, decide_eq_true_eq]
    constructor
    · intro left
      exact of_decide_eq_true left.failed
    · intro flag
      rw [flag]
      exact (leftAsItWas_iff files.tree).2 rfl

/-! ## Main result -/

/-- A call, on a row that is not there or on any other, fails and leaves all as it was exactly when
it makes no file and does nothing with the row that its offset leads to. -/
theorem absent_row_left_iff (home : OpenTopic) (files : TopicFiles) (call : FlagCall) :
    LeftAsItWas home files (call.answer home files) ↔ Harmless home files.tree call := by
  unfold Harmless
  by_cases zero : call.rowid = 0
  · have none_found : home.getMdRecordForWr files.tree (home.keyUsed call.key) call.t call.rowid =
        (files.tree, none) := by
      unfold getMdRecordForWr
      rw [if_pos zero]
    refine ⟨fun _ => .inl zero, fun _ => ?_⟩
    cases refused : call.refused home with
    | true =>
      rw [answer_refused refused]
      exact (leftAsItWas_iff files.tree).2 rfl
    | false =>
      rw [answer_none refused none_found]
      exact (leftAsItWas_iff files.tree).2 rfl
  cases refused : call.refused home with
  | true =>
    rw [answer_refused refused]
    exact ⟨fun _ => .inr (.inl rfl), fun _ => (leftAsItWas_iff files.tree).2 rfl⟩
  | false =>
    simp only [zero, Bool.false_eq_true, false_or]
    cases opened : openFile files.tree (home.keyParts (home.keyUsed call.key))
        (home.fileName false call.t) with
    | some file =>
      have got := getMdRecordForWr_open zero opened
      cases read : readRow files.tree file call.t call.rowid with
      | none =>
        rw [read] at got
        rw [answer_none refused got]
        refine ⟨fun _ located there => ?_, fun _ => (leftAsItWas_iff files.tree).2 rfl⟩
        rw [read] at there
        cases there
      | some located =>
        rw [read] at got
        have found := getMdRecordForWr_found (congrArg Prod.snd got)
        rw [got] at found
        rw [answer_found refused found got]
        constructor
        · intro spares other there
          rw [read] at there
          rw [← Option.some.inj there]
          exact spares
        · intro all
          exact all located read
    | none =>
      have missing := getMdRecordForWr_missing zero opened
      cases got : home.getMdRecordForWr files.tree (home.keyUsed call.key) call.t call.rowid with
      | mk tree found =>
        rw [got] at missing
        have none_found : found = none := missing.1
        rw [none_found] at got
        rw [answer_none refused got, leftAsItWas_iff]
        exact missing.2

/-- A mark on a key that the topic does not have returns an error, and the topic has it from the
next opening on. -/
theorem ghost_key_listed :
    ¬ Addressed sample sample.created.tree (.writeUserFlag "ghost" 7 1 9) ∧
      (FlagCall.answer sample sample.created (.writeUserFlag "ghost" 7 1 9)).2 = true ∧
      listKeys (sample.reopen sample.created) = [] ∧
      listKeys (sample.reopen
        (FlagCall.answer sample sample.created (.writeUserFlag "ghost" 7 1 9)).1) = ["ghost"] ∧
      ¬ LeftAsItWas sample sample.created
        (FlagCall.answer sample sample.created (.writeUserFlag "ghost" 7 1 9)) := by
  have before : listKeys (sample.reopen sample.created) = [] := by decide
  have after : listKeys (sample.reopen
      (FlagCall.answer sample sample.created (.writeUserFlag "ghost" 7 1 9)).1) = ["ghost"] := by
    decide
  refine ⟨?_, by decide, before, after, ?_⟩
  · rintro ⟨file, opens, -⟩
    have missing : openFile sample.created.tree
        (sample.keyParts (sample.keyUsed (FlagCall.writeUserFlag "ghost" 7 1 9).key))
        (sample.fileName false (FlagCall.writeUserFlag "ghost" 7 1 9).t) = none := by
      decide
    rw [missing] at opens
    cases opens
  · intro left
    have same := left.keys
    rw [before, after] at same
    cases same

end Yunetas.Timeranger2.OpenTopic
