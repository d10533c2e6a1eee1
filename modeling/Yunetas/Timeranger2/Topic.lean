import Yunetas.Timeranger2.Sound

/-!
# The keys of a topic

The key of a record becomes the name of a directory, so a key of type string is refused when it
is empty, longer than a file name, starts with a dot or holds a slash; an integer key is written
with 19 digits at least and a topic keyed by rowid has one key. A topic is the dictionary of its
keys, and an append works on the one of its record alone.
-/

namespace Yunetas.Timeranger2

open Dict

/-- The value of a record under the primary key of its topic. -/
inductive PkeyValue where
  | string (value : String)
  | integer (value : Int)
  | other
deriving DecidableEq, Repr

/-- `NAME_MAX`. -/
def nameMax : Nat := 255

/-- A key that may name a directory. -/
def validStringKey (key : String) : Bool :=
  !(key.isEmpty || key.utf8ByteSize > nameMax || key.toList.contains '/' || key.toList.head? = some '.')

/-- `%0*PRIu64` with a width of 19. -/
def intKey (value : Int) : String :=
  let digits := toString (value % 2 ^ 64).toNat
  String.ofList (List.replicate (19 - digits.length) '0') ++ digits

/-- The primary key part of `tranger2_append_record`: the key of a record, `none` when it is
refused. -/
def keyOf (topic : Topic) (value : PkeyValue) : Option String :=
  let keyType := topic.systemFlag &&& keyTypeMask2
  if keyType = sfStringKey then
    match value with
    | .string key => if validStringKey key then some key else none
    | _ => none
  else if keyType = sfIntKey then
    match value with
    | .integer number => some (intKey number)
    | _ => some (intKey 0)
  else if keyType = sfRowidKey then some "__rowid__"
  else none

/-- The keys of a topic in the master. -/
abbrev Store := Dict String KeyState

/-- A key of a topic, an unwritten one when the topic does not have it. -/
def Store.key (store : Store) (key : String) : KeyState := (store.get? key).getD .empty

/-- `tranger2_append_record` on a topic. -/
def Store.append (topic : Topic) (store : Store) (value : PkeyValue) (record : Append) : Store :=
  match keyOf topic value with
  | none => store
  | some key => store.set key (appendRecord topic (store.key key) record).1

/-- The store after some appends. -/
def Store.appendAll (topic : Topic) (store : Store) (records : List (PkeyValue × Append)) : Store :=
  records.foldl (fun store (value, record) => store.append topic value record) store

/-- The records of a key among those appended to its topic. -/
def recordsOfKey (topic : Topic) (records : List (PkeyValue × Append)) (key : String) :
    List Append :=
  (records.filter fun (value, _) => keyOf topic value = some key).map Prod.snd

/-- A key after some appends. -/
def KeyState.appendAll (topic : Topic) (state : KeyState) (records : List Append) : KeyState :=
  records.foldl (fun state record => (appendRecord topic state record).1) state

theorem Store.key_appendAll (topic : Topic) (records : List (PkeyValue × Append)) (store : Store)
    (key : String) :
    (store.appendAll topic records).key key =
      (store.key key).appendAll topic (recordsOfKey topic records key) := by
  induction records generalizing store with
  | nil => rfl
  | cons entry rest ih =>
    have ⟨value, record⟩ := entry
    have unfolded : store.appendAll topic ((value, record) :: rest) =
        (store.append topic value record).appendAll topic rest := rfl
    rw [unfolded, ih]
    cases named : keyOf topic value with
    | none =>
      have same : recordsOfKey topic ((value, record) :: rest) key =
          recordsOfKey topic rest key := by
        simp [recordsOfKey, named]
      rw [same, Store.append, named]
    | some other =>
      rw [Store.append, named]
      by_cases here : other = key
      · subst here
        have same : recordsOfKey topic ((value, record) :: rest) other =
            record :: recordsOfKey topic rest other := by
          simp [recordsOfKey, named]
        rw [same]
        simp only [Store.key, get?_set_self, Option.getD_some]
        rfl
      · have same : recordsOfKey topic ((value, record) :: rest) key =
            recordsOfKey topic rest key := by
          simp [recordsOfKey, named, here]
        rw [same]
        simp [Store.key, get?_set_ne _ _ (Ne.symm here)]

theorem Store.get?_appendAll (topic : Topic) (records : List (PkeyValue × Append)) (key : String) :
    ((Store.appendAll topic Dict.empty records).get? key).isSome ↔
      recordsOfKey topic records key ≠ [] := by
  have general : ∀ store : Store, ((store.appendAll topic records).get? key).isSome ↔
      (store.get? key).isSome ∨ recordsOfKey topic records key ≠ [] := by
    induction records with
    | nil => intro store; simp [Store.appendAll, recordsOfKey]
    | cons entry rest ih =>
      intro store
      obtain ⟨value, record⟩ := entry
      have unfolded : store.appendAll topic ((value, record) :: rest) =
          (store.append topic value record).appendAll topic rest := rfl
      rw [unfolded, ih]
      cases named : keyOf topic value with
      | none => simp [Store.append, named, recordsOfKey]
      | some other =>
        by_cases here : other = key
        · subst here
          simp [Store.append, named, recordsOfKey]
        · simp [Store.append, named, recordsOfKey, here, get?_set_ne _ _ (Ne.symm here)]
  simpa using general Dict.empty

/-! ## Runs of a topic -/

/-- An operation of the master on one of its keys. -/
def Store.step (topic : Topic) (store : Store) (op : String × KeyOp) : Store :=
  store.set op.1 ((store.key op.1).step topic op.2)

theorem Store.key_run (topic : Topic) (ops : List (String × KeyOp)) (store : Store) (key : String) :
    (run (Store.step topic) store ops).key key = run (KeyState.step topic) (store.key key)
      ((ops.filter fun op => op.1 = key).map Prod.snd) := by
  induction ops generalizing store with
  | nil => rfl
  | cons op rest ih =>
    rw [run_cons, ih]
    by_cases here : op.1 = key
    · subst here
      simp [Store.step, Store.key]
    · simp [Store.step, Store.key, here, get?_set_ne _ _ (Ne.symm here)]

theorem KeyState.appendAll_eq_run (topic : Topic) (state : KeyState) (records : List Append) :
    state.appendAll topic records = run (KeyState.step topic) state (records.map KeyOp.append) := by
  induction records generalizing state with
  | nil => rfl
  | cons record rest ih => exact ih _

end Yunetas.Timeranger2
