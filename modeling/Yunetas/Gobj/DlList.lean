import Mathlib.Logic.Function.Basic
/-!
# Double link lists

The lists of dl_list.c as the memory they live in: every item carries its two links and the list
that owns it, every list its two ends and its counter. Freeing an item that was taken out does
not touch any list, so the `fnfree` callback leaves no trace here.
-/

namespace Yunetas.Gobj.Dl

/-- `dl_item_t`: the fields that `DL_ITEM_FIELDS` puts in front of every item. -/
structure DlItem (ι κ : Type) where
  dl : Option κ := none
  next : Option ι := none
  prev : Option ι := none
  id : Nat := 0

/-- `dl_list_t`. -/
structure DlList (ι : Type) where
  head : Option ι := none
  tail : Option ι := none
  itemsInContainer : Nat := 0
  lastId : Nat := 0

/-- The items at the addresses `ι` and the lists at the addresses `κ`. -/
structure DlMemory (ι κ : Type) where
  items : ι → DlItem ι κ := fun _ => {}
  lists : κ → DlList ι := fun _ => {}

namespace DlMemory

variable {ι κ : Type} [DecidableEq ι] [DecidableEq κ]

def setItem (memory : DlMemory ι κ) (item : ι) (fields : DlItem ι κ → DlItem ι κ) :
    DlMemory ι κ :=
  { memory with items := Function.update memory.items item (fields (memory.items item)) }

def setList (memory : DlMemory ι κ) (dl : κ) (fields : DlList ι → DlList ι) : DlMemory ι κ :=
  { memory with lists := Function.update memory.lists dl (fields (memory.lists dl)) }

end DlMemory

variable {ι κ : Type} [DecidableEq ι] [DecidableEq κ]

/-- `check_links`: a new item must have no links. -/
def checkLinks (item : DlItem ι κ) : Bool :=
  item.prev.isSome || item.next.isSome || item.dl.isSome

/-- `check_no_links`: an item to delete must have an owner. -/
def checkNoLinks (item : DlItem ι κ) : Bool :=
  item.dl.isNone

/-- The end both insertions share: the counters, the identifier and the owner. -/
def dlOwn (memory : DlMemory ι κ) (dl : κ) (item : ι) : DlMemory ι κ :=
  let counted := memory.setList dl fun list =>
    { list with itemsInContainer := list.itemsInContainer + 1, lastId := list.lastId + 1 }
  counted.setItem item fun fields =>
    { fields with id := (counted.lists dl).lastId, dl := some dl }

/-- `dl_insert`: at the head. -/
def dlInsert (memory : DlMemory ι κ) (dl : κ) (item : ι) : DlMemory ι κ × Int :=
  if checkLinks (memory.items item) then (memory, -1)
  else match (memory.lists dl).head with
    | none => -- empty list
      let linked := memory.setItem item fun fields => { fields with prev := none, next := none }
      (dlOwn (linked.setList dl fun list => { list with head := some item, tail := some item })
        dl item, 0)
    | some head => -- first item
      let linked := memory.setItem item fun fields =>
        { fields with prev := none, next := some head }
      let linked := linked.setItem head fun fields => { fields with prev := some item }
      (dlOwn (linked.setList dl fun list => { list with head := some item }) dl item, 0)

/-- `dl_add`: at the end. -/
def dlAdd (memory : DlMemory ι κ) (dl : κ) (item : ι) : DlMemory ι κ × Int :=
  if checkLinks (memory.items item) then (memory, -1)
  else match (memory.lists dl).tail with
    | none => -- empty list
      let linked := memory.setItem item fun fields => { fields with prev := none, next := none }
      (dlOwn (linked.setList dl fun list => { list with head := some item, tail := some item })
        dl item, 0)
    | some tail => -- last item
      let linked := memory.setItem item fun fields =>
        { fields with prev := some tail, next := none }
      let linked := linked.setItem tail fun fields => { fields with next := some item }
      (dlOwn (linked.setList dl fun list => { list with tail := some item }) dl item, 0)

/-- The links around an item taken out of a list, as `dl_delete` mends them. -/
def dlUnlink (memory : DlMemory ι κ) (dl : κ) (curr : ι) : DlMemory ι κ :=
  match (memory.items curr).prev with
  | none => -- first item
      let following := (memory.lists dl).head.bind fun head => (memory.items head).next
      let moved := memory.setList dl fun list => { list with head := following }
      match following with
      | some head => moved.setItem head fun fields => { fields with prev := none }
      | none => moved.setList dl fun list => { list with tail := none }
  | some before => -- middle or last item
      let moved := memory.setItem before fun fields =>
        { fields with next := (memory.items curr).next }
      match (moved.items curr).next with
      | some after => moved.setItem after fun fields =>
          { fields with prev := (moved.items curr).prev }
      | none => moved.setList dl fun list => { list with tail := (moved.items curr).prev }

/-- `dl_delete`. -/
def dlDelete (memory : DlMemory ι κ) (dl : κ) : Option ι → DlMemory ι κ × Int
  | none => (memory, -1)
  | some curr =>
    if checkNoLinks (memory.items curr) then (memory, -1)
    else if (memory.items curr).dl ≠ some dl then (memory, -1)
    else if (memory.lists dl).head.isNone || (memory.lists dl).tail.isNone ||
        (memory.lists dl).itemsInContainer == 0 then (memory, -1)
    else
      let mended := (dlUnlink memory dl curr).setList dl fun list =>
        { list with itemsInContainer := list.itemsInContainer - 1 }
      (mended.setItem curr fun fields =>
        { fields with prev := none, next := none, dl := none }, 0)

/-- The loop of `dl_flush`: the first item is deleted while there is one. The loop has no bound
of its own, `none` stands for one that has not ended after `fuel` turns. -/
def dlFlushLoop (dl : κ) : Nat → DlMemory ι κ → Option (DlMemory ι κ)
  | 0, _ => none
  | fuel + 1, memory =>
    match (memory.lists dl).head with
    | none => some memory
    | some first => dlFlushLoop dl fuel (dlDelete memory dl (some first)).1

/-- `dl_flush`, with a turn for each item counted and one for the last test. -/
def dlFlush (memory : DlMemory ι κ) (dl : κ) : Option (DlMemory ι κ) :=
  dlFlushLoop dl ((memory.lists dl).itemsInContainer + 1) memory

/-- A call on the lists. -/
inductive DlCall (ι κ : Type) where
  | add (dl : κ) (item : ι)
  | insert (dl : κ) (item : ι)
  | delete (dl : κ) (item : Option ι)
  | flush (dl : κ)

/-- What a call leaves and returns. -/
def dlCall (memory : DlMemory ι κ) : DlCall ι κ → Option (DlMemory ι κ × Int)
  | .add dl item => some (dlAdd memory dl item)
  | .insert dl item => some (dlInsert memory dl item)
  | .delete dl item => some (dlDelete memory dl item)
  | .flush dl => (dlFlush memory dl).map fun flushed => (flushed, 0)

/-- The calls one after the other, with what each returned. -/
def dlCalls (memory : DlMemory ι κ) : List (DlCall ι κ) → Option (DlMemory ι κ × List Int)
  | [] => some (memory, [])
  | call :: rest => do
      let (left, result) ← dlCall memory call
      let (final, results) ← dlCalls left rest
      some (final, result :: results)

end Yunetas.Gobj.Dl
