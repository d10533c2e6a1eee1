import Yunetas.TrTreedb.Lifetimes

/-!
# Ids made of row numbers

In a topic whose ids are row numbers, a node created without an id gets the number of the rows of
the topic and one more. An id given as a higher number is met later, and so is a number that a
deletion leaves above the rows that are left: the id is then taken, and the creation refused.
Without either, the id that is made belongs to no node and no key.
-/

namespace Yunetas.TrTreedb

variable (ctx : Context)

/-- An operation that creates or deletes nodes, or opens the treedb again. -/
def Op.isLifetime : Op → Bool
  | .create _ _ _ _ => true
  | .delete _ _ => true
  | .deleteInstance _ _ _ => true
  | .reopen => true
  | _ => false

/-- In a topic with row ids, an id that is given is no number beyond the next row, and a deletion
leaves no number beyond the rows left. -/
def LeavesRoom (state : State) : Op → Prop
  | .create topic kw _ _ => ctx.schema.countsRows topic = true →
    ∀ number : Nat, toString number = kwStr kw "id" → number ≤ state.store.size topic + 1
  | .delete ref _ => ∀ addr, state.graph.resolve ref = some addr →
    ctx.schema.countsRows (state.node addr).topic = true →
      state.store.Spares (state.node addr).topic (state.node addr).id
  | _ => True

/-- An id of no node of a topic, of no instance and of no rows. -/
structure State.Fresh (state : State) (topic id : String) : Prop where
  node : state.graph.getNode topic id = none
  version : ∀ pkey2 key2, state.graph.slot? topic pkey2 id key2 = none
  rows : (state.store topic).get? id = none

/-- A node created without an id in a topic with row ids gets one, and it is fresh. -/
def FreshIds (state : State) : Prop :=
  ∀ name topic, ctx.schema.topic? name = some topic → topic.idFlag = .rowid →
    ∀ kw uuid, kwStr kw "id" = "" →
      ∃ id, newId state topic kw uuid = some id ∧ state.Fresh name id

variable {ctx}

theorem Graph.Stored.resolve {schema : Schema} {store : Store} {graph : Graph}
    (stored : graph.Stored schema store) {ref : Graph.Ref} {addr : Addr}
    (found : graph.resolve ref = some addr) :
    ∃ topic id, graph.Stores schema store topic id addr := by
  cases ref with
  | node topic id => exact ⟨topic, id, stored.primary topic id addr found⟩
  | version topic pkey2 id key2 =>
    unfold Graph.resolve Graph.getInstance at found
    dsimp only at found
    split at found
    · cases found
    · exact ⟨topic, id, (stored.secondary topic pkey2 id key2 addr found).2⟩

section

variable {state : State} (numbered : Numbered ctx state)
include numbered

theorem Numbered.withNode {ref : Graph.Ref} {action : Addr → Bool × State}
    (keeps : ∀ addr, state.graph.resolve ref = some addr → Numbered ctx (action addr).2) :
    Numbered ctx (withNode state ref action).2 := by
  unfold TrTreedb.withNode
  split
  · rename_i addr found
    exact keeps addr found
  · exact numbered

theorem Numbered.step {op : Op} (lifetime : op.isLifetime = true) (room : LeavesRoom ctx state op) :
    Numbered ctx (step ctx state op) := by
  cases op with
  | create topic kw uuid now => exact numbered.createNode room
  | delete ref force =>
    apply numbered.withNode
    intro addr found
    have held := numbered.nodes.resolve found
    have ⟨topic, id, stores⟩ := held
    have isTopic : (state.node addr).topic = topic := stores.ofTopic
    apply numbered.deleteNode stores
    rw [← isTopic]
    exact room addr found
  | deleteInstance ref pkey2 force =>
    exact numbered.withNode fun addr _ => numbered.deleteInstance addr pkey2 force
  | reopen => exact openDb_numbered numbered.keyed numbered.fits state.tick
  | update | save | setImmutable | link | unlink | shoot | activate => cases lifetime

theorem Numbered.fresh : FreshIds ctx state := by
  intro name topic isTopic rowid kw uuid without
  have counts : ctx.schema.countsRows name = true := by
    unfold Schema.countsRows
    rw [isTopic, Option.any_some, rowid]
    rfl
  have named : topic.name = name := (Schema.topic?_mem isTopic).2
  have absent := (numbered.fits name counts).next
  refine ⟨toString (state.store.size name + 1), ?_, ?_, ?_, absent⟩
  · unfold newId
    rw [if_neg (fun given => given without), rowid, named]
  · cases found : state.graph.getNode name (toString (state.store.size name + 1)) with
    | none => rfl
    | some addr =>
      have key := (numbered.nodes.primary name _ addr found).key
      rw [absent] at key
      cases key
  · intro pkey2 key2
    cases found : state.graph.slot? name pkey2 (toString (state.store.size name + 1)) key2 with
    | none => rfl
    | some addr =>
      have key := (numbered.nodes.secondary name pkey2 _ key2 addr found).2.key
      rw [absent] at key
      cases key

end

theorem numbered_start (ctx : Context) : Numbered ctx (start ctx) := by
  apply openDb_numbered
  · intro topic key row among
    exact absurd among List.not_mem_nil
  · intro name _ number there
    cases there

/-- Along creations, deletions and reopenings that leave room, an id that is made is fresh. -/
theorem generated_ids_fresh (ctx : Context) (ops : List Op)
    (lifetimes : ∀ op ∈ ops, op.isLifetime = true)
    (room : AllSteps (step ctx) (LeavesRoom ctx) (start ctx) ops) :
    AllStates (step ctx) (FreshIds ctx) (start ctx) ops := by
  have both := (AllSteps.of_mem (step ctx) lifetimes (start ctx)).and (step ctx) room
  have numbered : AllStates (step ctx) (Numbered ctx) (start ctx) ops :=
    both.invariant (step ctx) (fun _ _ numbered ok => numbered.step ok.1 ok.2) (numbered_start ctx)
  rw [allStates_iff] at numbered ⊢
  exact fun before after split => (numbered before after split).fresh

/-- A topic of tickets, numbered by their rows. -/
def ticketsTopic : Topic where
  name := "tickets"
  idFlag := .rowid
  cols := [{ id := "id", type := .string, persistent := true, required := true }]

/-- A treedb of tickets, with a file for each hundred times. -/
def ticketsCtx : Context where
  schema := { userTopics := [ticketsTopic] }
  conv := ⟨fun _ => "", fun _ => 0, fun _ => 0, fun _ => none⟩
  fileOf := fun t => t / 100
  disk := fun tick => { t := tick }

/-- A ticket is created without an id. -/
def newTicket : Op := .create "tickets" [] "" 0

/-- Two tickets, and the treedb opened again. -/
theorem generated_ids_fresh_tickets :
    AllStates (step ticketsCtx) (FreshIds ticketsCtx) (start ticketsCtx)
      [newTicket, newTicket, .reopen, newTicket] := by
  have room : ∀ state, LeavesRoom ticketsCtx state newTicket := by
    intro state _ number given
    exact absurd given (toString_nat_ne_empty number)
  exact generated_ids_fresh ticketsCtx _ (by decide) ⟨room _, room _, trivial, room _, trivial⟩

/-- Of two tickets the first is deleted: the id made for the next one is that of the second. -/
theorem generated_id_taken :
    let ops : List Op := [newTicket, newTicket, .delete (.node "tickets" "1") false]
    let state := run (step ticketsCtx) (start ticketsCtx) ops
    (∀ op ∈ ops, op.isLifetime = true) ∧
      newId state ticketsTopic [] "" = some "2" ∧
      (state.graph.getNode "tickets" "2").isSome = true ∧
      (createNode ticketsCtx state "tickets" [] "" 0).1 = none ∧
      ¬ AllStates (step ticketsCtx) (FreshIds ticketsCtx) (start ticketsCtx) ops := by
  refine ⟨by decide, by decide, by decide, by decide, ?_⟩
  intro all
  have fresh := all.last (step ticketsCtx) "tickets" ticketsTopic rfl rfl [] "" rfl
  have ⟨id, made, isFresh⟩ := fresh
  have isTwo : id = "2" := by
    have two : newId (run (step ticketsCtx) (start ticketsCtx)
        [newTicket, newTicket, .delete (.node "tickets" "1") false]) ticketsTopic [] "" =
        some "2" := by decide
    rw [made] at two
    exact Option.some.inj two
  have there : ((run (step ticketsCtx) (start ticketsCtx)
      [newTicket, newTicket, .delete (.node "tickets" "1") false]).graph.getNode "tickets"
        "2").isSome = true := by decide
  rw [isTwo] at isFresh
  rw [isFresh.node] at there
  cases there

end Yunetas.TrTreedb
