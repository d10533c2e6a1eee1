import Mathlib.Data.List.Basic
import Mathlib.Logic.Function.Basic

/-!
# Posted events

The queue of events that are delivered in a later cycle of the event loop, and the destruction of gobjs,
which takes them out of it. The actions and the methods of the gclasses run inside these functions and
may call them again, so a function that calls one of them is suspended in a frame until it returns. A
method that is missing is one that does nothing. What `gobj_unsubscribe_list` calls comes right behind
`mt_child_removed` and is taken as part of it.
-/

namespace Yunetas.Gobj

/-- `posted_event_t`, with the `__id__` of the list. -/
structure PostedEvent (γ κ : Type) where
  id : Nat
  dst : γ
  src : Option γ
  event : String
  kw : κ
  deriving DecidableEq

/-- `MAX_POSTED_EVENTS`. -/
def maxPostedEvents : Nat := 10000

/-- Where a function waits for an action or a method. -/
inductive Frame (γ : Type)
  /-- `gobj_deliver_posted_events` up to this id, in the action of an event. -/
  | delivering (lastId : Nat)
  /-- `gobj_destroy` in `mt_pause`. -/
  | pausing (gobj : γ)
  /-- `gobj_destroy` in `mt_stop`. -/
  | stopping (gobj : γ)
  /-- `gobj_destroy` in the `mt_child_removed` of the parent. -/
  | removing (gobj : γ)
  /-- `gobj_destroy_children` in the destruction of a child, and the next child. -/
  | children (gobj : γ) (next : Option γ)
  /-- `gobj_destroy` in `mt_destroy`. -/
  | destroying (gobj : γ)
  deriving DecidableEq

/-- What happens to posted events and gobjs. -/
inductive Happening (γ κ : Type)
  /-- `gobj_post_event` accepted an event. -/
  | posted (msg : PostedEvent γ κ)
  /-- A cycle of `gobj_deliver_posted_events` begins. -/
  | begun
  | ended
  /-- `gobj_send_event` gets an event. -/
  | delivered (msg : PostedEvent γ κ)
  | destroyed (gobj : γ)
  deriving DecidableEq

/-- The gobjs of a yuno and their posted events. -/
structure Gobjs (γ κ : Type) where
  /-- `obflag_destroying`. -/
  destroying : γ → Bool
  /-- `obflag_destroyed`. -/
  destroyed : γ → Bool
  playing : γ → Bool
  running : γ → Bool
  parent : γ → Option γ
  /-- `dl_children`. -/
  children : γ → List γ
  /-- `dl_posted_events`. -/
  queue : List (PostedEvent γ κ)
  /-- `__last_id__` of the list. -/
  lastId : Nat
  stack : List (Frame γ)
  log : List (Happening γ κ)

section

variable {γ κ : Type} [DecidableEq γ]

/-- A function waits for an action or a method. -/
def Gobjs.push (gobjs : Gobjs γ κ) (frame : Frame γ) : Gobjs γ κ :=
  { gobjs with stack := frame :: gobjs.stack }

/-- The flags that refuse events. -/
def Gobjs.gone (gobjs : Gobjs γ κ) (gobj : γ) : Bool := gobjs.destroyed gobj || gobjs.destroying gobj

/-- `dl_add` of a new event. -/
def dlAdd (gobjs : Gobjs γ κ) (dst : γ) (event : String) (kw : κ) (src : Option γ) : Gobjs γ κ :=
  let msg := ⟨gobjs.lastId + 1, dst, src, event, kw⟩
  { gobjs with
    queue := gobjs.queue ++ [msg]
    lastId := gobjs.lastId + 1
    log := gobjs.log ++ [.posted msg] }

/-- `gobj_post_event`. `memory` is whether `gbmem_malloc` gives the message. -/
def gobjPostEvent (hasEvent : γ → String → Bool) (memory : Bool) (gobjs : Gobjs γ κ) (dst : Option γ)
    (event : String) (kw : κ) (src : Option γ) : Gobjs γ κ × Int :=
  match dst with
  | none => (gobjs, -1)
  | some gobj =>
    if gobjs.gone gobj then (gobjs, -1)
    else if event = "" then (gobjs, -1)
    else if !hasEvent gobj event then (gobjs, -1)
    else if gobjs.queue.length ≥ maxPostedEvents then (gobjs, -1)
    else if !memory then (gobjs, -1)
    else (dlAdd gobjs gobj event kw src, 0)

/-- `purge_posted_events`. -/
def purgePostedEvents (queue : List (PostedEvent γ κ)) (gobj : γ) : List (PostedEvent γ κ) :=
  (queue.map fun msg => if msg.src = some gobj then { msg with src := none } else msg).filter
    (·.dst ≠ gobj)

/-- The loop of `gobj_deliver_posted_events` up to the next action, over the queue. An event that
`gobj_send_event` refuses runs none. -/
def deliverNext (lastId : Nat) (gobjs : Gobjs γ κ) : List (PostedEvent γ κ) → Gobjs γ κ
  | [] => { gobjs with queue := [], log := gobjs.log ++ [.ended] }
  | msg :: rest =>
    if msg.id > lastId then { gobjs with queue := msg :: rest, log := gobjs.log ++ [.ended] }
    else if gobjs.gone msg.dst then deliverNext lastId gobjs rest
    else
      { gobjs with
        queue := rest
        log := gobjs.log ++ [.delivered msg]
        stack := .delivering lastId :: gobjs.stack }

/-- `gobj_deliver_posted_events`. -/
def gobjDeliverPostedEvents (gobjs : Gobjs γ κ) : Gobjs γ κ :=
  let gobjs : Gobjs γ κ := { gobjs with log := gobjs.log ++ [.begun] }
  match gobjs.queue.getLast? with
  | none => { gobjs with log := gobjs.log ++ [.ended] }
  | some last => deliverNext last.id gobjs gobjs.queue

/-- `gobj_destroy` after `gobj_stop`: from here on events to the gobj are refused, and the method of the
parent is called. -/
def destroyStopped (gobjs : Gobjs γ κ) (gobj : γ) : Gobjs γ κ :=
  Gobjs.push
    { gobjs with
      destroying := Function.update gobjs.destroying gobj true
      queue := purgePostedEvents gobjs.queue gobj
      log := gobjs.log ++ [.destroyed gobj] }
    (.removing gobj)

/-- `gobj_destroy` after `gobj_pause`. `gobj_stop` refuses a gobj that is being destroyed. -/
def destroyPaused (gobjs : Gobjs γ κ) (gobj : γ) : Gobjs γ κ :=
  if gobjs.running gobj && !gobjs.destroying gobj then
    Gobjs.push { gobjs with running := Function.update gobjs.running gobj false } (.stopping gobj)
  else destroyStopped gobjs gobj

/-- `gobj_destroy` up to its first method. -/
def gobjDestroy (gobjs : Gobjs γ κ) (gobj : γ) : Gobjs γ κ :=
  if gobjs.destroying gobj then gobjs
  else if gobjs.playing gobj then
    Gobjs.push { gobjs with playing := Function.update gobjs.playing gobj false } (.pausing gobj)
  else destroyPaused gobjs gobj

/-- The loop of `gobj_destroy_children` over some children, and `mt_destroy` behind it. -/
def gobjDestroyChildren (gobjs : Gobjs γ κ) (gobj : γ) : List γ → Gobjs γ κ
  | [] => gobjs.push (.destroying gobj)
  | child :: rest =>
    if gobjs.gone child then gobjDestroyChildren gobjs gobj rest
    else gobjDestroy (gobjs.push (.children gobj rest.head?)) child

/-- `gobj_destroy` after `mt_child_removed`: the gobj leaves its parent. -/
def destroyRemoved (gobjs : Gobjs γ κ) (gobj : γ) : Gobjs γ κ :=
  let gobjs :=
    match gobjs.parent gobj with
    | none => gobjs
    | some parent =>
      { gobjs with
        children := Function.update gobjs.children parent ((gobjs.children parent).erase gobj) }
  gobjDestroyChildren gobjs gobj (gobjs.children gobj)

/-- The next child and those behind it, as long as it is in the list. -/
def siblings (gobjs : Gobjs γ κ) (gobj : γ) (next : Option γ) : List γ :=
  match next with
  | none => []
  | some child => (gobjs.children gobj).dropWhile (· ≠ child)

/-- `gobj_destroy` after `mt_destroy`: the gobj is freed, and `gobj_destroy_children` goes on where it
called. -/
def destroyDone (gobjs : Gobjs γ κ) (gobj : γ) : Gobjs γ κ :=
  let gobjs := { gobjs with destroyed := Function.update gobjs.destroyed gobj true }
  match gobjs.stack with
  | .children parent next :: rest =>
    gobjDestroyChildren { gobjs with stack := rest } parent (siblings gobjs parent next)
  | _ => gobjs

/-- The action or the method that runs returns. -/
def Gobjs.ret (gobjs : Gobjs γ κ) : Gobjs γ κ :=
  match gobjs.stack with
  | [] => gobjs
  | frame :: rest =>
    let caller := { gobjs with stack := rest }
    match frame with
    | .delivering lastId => deliverNext lastId caller caller.queue
    | .pausing gobj => destroyPaused caller gobj
    | .stopping gobj => destroyStopped caller gobj
    | .removing gobj => destroyRemoved caller gobj
    | .children _ _ => gobjs
    | .destroying gobj => destroyDone caller gobj

/-- What the code that runs does next. -/
inductive PostOp (γ κ : Type)
  | post (dst : Option γ) (event : String) (kw : κ) (src : Option γ) (memory : Bool)
  | destroy (gobj : Option γ)
  | ret
  | deliver

/-- A step of the code that runs. Only the event loop delivers: nothing else waits then. -/
def Gobjs.step (hasEvent : γ → String → Bool) (gobjs : Gobjs γ κ) : PostOp γ κ → Gobjs γ κ
  | .post dst event kw src memory => (gobjPostEvent hasEvent memory gobjs dst event kw src).1
  | .destroy none => gobjs
  | .destroy (some gobj) => gobjDestroy gobjs gobj
  | .ret => gobjs.ret
  | .deliver => if gobjs.stack = [] then gobjDeliverPostedEvents gobjs else gobjs

/-- A yuno whose gobjs are created and that posted nothing. -/
def Gobjs.start (playing running : γ → Bool) (parent : γ → Option γ) (children : γ → List γ) :
    Gobjs γ κ where
  destroying := fun _ => false
  destroyed := fun _ => false
  playing := playing
  running := running
  parent := parent
  children := children
  queue := []
  lastId := 0
  stack := []
  log := []

end

end Yunetas.Gobj
