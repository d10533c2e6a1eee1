import Yunetas.TrTreedb.Loaded

/-!
# Indexes that hold nodes under their own keys

In every state of a run whose operations keep the keys of the nodes, every node is in the indexes
under the keys it has. An update that gives a node another secondary key does not: the node stays in
the slot of the old value.
-/

namespace Yunetas.TrTreedb

open List Option

variable {ctx : Context} {state : State}

/-- Every index holds nodes under the keys they have, and an id of a secondary index is in the
primary one. -/
structure IndexesAgree (graph : Graph) : Prop where
  primary : ∀ topic id addr, graph.getNode topic id = some addr →
    (graph.heap addr).str? "id" = some id
  secondary : ∀ topic pkey2 id key2 addr, graph.slot? topic pkey2 id key2 = some addr →
    (graph.heap addr).str? "id" = some id ∧ (graph.heap addr).str pkey2 = key2
  reachable : ∀ topic pkey2 id key2 addr, graph.slot? topic pkey2 id key2 = some addr →
    (graph.getNode topic id).isSome

theorem Graph.Coherent.agree {schema : Schema} {graph : Graph} (coherent : graph.Coherent schema) :
    IndexesAgree graph where
  primary topic id addr found := (coherent.primary topic id addr found).id
  secondary topic pkey2 id key2 addr found :=
    have held := coherent.secondary topic pkey2 id key2 addr found
    ⟨held.node.id, held.key2⟩
  reachable topic pkey2 id key2 addr found :=
    (coherent.secondary topic pkey2 id key2 addr found).primary

/-- The children that a node holds may be put into their slots. -/
def holdsIndexed (schema : Schema) (graph : Graph) (addr : Addr) : Bool :=
  (graph.heap addr).fields.all fun entry => (hookList entry.2).all fun item => match item with
    | .node child => graph.Indexed schema child
    | _ => true

theorem childrenIndexed_of_holdsIndexed {schema : Schema} {graph : Graph} {addr : Addr}
    (holds : holdsIndexed schema graph addr = true) : graph.ChildrenIndexed schema addr := by
  unfold holdsIndexed at holds
  simp only [List.all_eq_true] at holds
  intro field cell stored child among
  have entry : (field, cell) ∈ (graph.heap addr).fields := Dict.mem_of_lookupEntries stored
  exact of_decide_eq_true (holds (field, cell) entry (.node child) among)

/-- An operation keeps the nodes under the keys they have: a creation files its node under what the
node gets, an update leaves the keys as they are, a forced deletion unlinks children that are still
in the indexes, and an opening reads back the rows under the keys they are filed under. -/
def keepsKeys (ctx : Context) (state : State) : Op → Bool
  | .create topic kw uuid now => createFiles ctx state topic kw uuid now
  | .update node kw now _ =>
    (state.graph.resolve node).all fun addr => updateKeeps ctx state addr kw now
  | .delete node force =>
    !force || (state.graph.resolve node).all (holdsIndexed ctx.schema state.graph)
  | .reopen => opensFiled ctx state.store state.tick
  | _ => true

theorem withNode_coherent {ref : Graph.Ref} {action : Addr → Bool × State}
    (coherent : state.graph.Coherent ctx.schema)
    (keeps : ∀ addr, state.graph.resolve ref = some addr →
      (action addr).2.graph.Coherent ctx.schema) :
    (withNode state ref action).2.graph.Coherent ctx.schema := by
  unfold withNode
  split
  · rename_i addr found
    exact keeps addr found
  · exact coherent

theorem createFiles_snaps (fields : Json.Fields) (uuid : String) (now : Int) :
    createFiles ctx state snapsTopic.name fields uuid now = true := by
  unfold createFiles
  rw [Schema.topic?_snaps]
  dsimp only
  cases newId state snapsTopic fields uuid with
  | none => rfl
  | some id => rfl

section

variable (plainKeys : ctx.schema.PlainKeys) (coherent : state.graph.Coherent ctx.schema)
include plainKeys coherent

theorem shootSnap_coherent (name date description : String) (now : Int) :
    (shootSnap ctx state name date description now).2.graph.Coherent ctx.schema := by
  have created := createNode_coherent plainKeys coherent
    (createFiles_snaps (snapFields name date description) "" now)
  unfold shootSnap
  split
  · exact coherent
  split
  · rename_i asked failed
    rw [failed] at created
    exact created
  · rename_i snap after done
    rw [done] at created
    dsimp only
    split
    · exact created
    · rw [shootTopics_graph]
      exact created

theorem activateSnap_coherent (name : String) :
    (activateSnap ctx state name).2.graph.Coherent ctx.schema := by
  have active := snapsWith_at coherent fun node => node.isTrue "active"
  have named := snapsWith_at coherent fun node => node.str? "name" = some name
  let snaps := (snapsWith state fun node => node.isTrue "active") ++
    snapsWith state fun node => node.str? "name" = some name
  have start : Marking ctx snaps state :=
    ⟨coherent, fun snap among => (mem_append.1 among).elim (active snap) (named snap)⟩
  have marking := start.activatedSnap plainKeys fun _ among => mem_append_left _ among
  have isActive : ∀ {old found}, activatedSnap ctx state = (some old, found) → old ∈ snaps := by
    intro old found done
    exact mem_append_left _ (mem_of_getLast? (congrArg Prod.fst done))
  unfold activateSnap
  split
  · split
    · rename_i old found done
      rw [done] at marking
      exact (marking.saveActive plainKeys (isActive done) false).coherent
    · rename_i found done
      rw [done] at marking
      exact marking.coherent
  split
  · exact coherent
  rename_i snap first
  have isNamed : snap ∈ snaps := mem_append_right _ (mem_of_head? first)
  split
  · rename_i old found done
    rw [done] at marking
    split
    · exact marking.coherent
    · exact ((marking.saveActive plainKeys (isActive done) false).saveActive plainKeys isNamed
        true).coherent
  · rename_i found done
    rw [done] at marking
    exact (marking.saveActive plainKeys isNamed true).coherent

end

theorem step_coherent (plainKeys : ctx.schema.PlainKeys) (state : State) (op : Op)
    (coherent : state.graph.Coherent ctx.schema) (keeps : keepsKeys ctx state op = true) :
    (step ctx state op).graph.Coherent ctx.schema := by
  cases op with
  | create topic kw uuid now => exact createNode_coherent plainKeys coherent keeps
  | update node kw now save =>
    apply withNode_coherent coherent
    intro addr found
    unfold keepsKeys at keeps
    dsimp only at keeps
    rw [found, all_some] at keeps
    exact updateNode_coherent plainKeys coherent found keeps save
  | save node =>
    exact withNode_coherent coherent fun addr found =>
      saveNode_coherent plainKeys coherent (coherent.indexed found)
  | setImmutable node set =>
    apply withNode_coherent coherent
    intro addr _
    rw [setNodeImmutable_graph]
    exact coherent
  | link hook parent child =>
    exact withNode_coherent coherent fun _ _ => withNode_coherent coherent fun _ found =>
      linkAndSave_coherent plainKeys coherent (coherent.indexed found)
  | unlink hook parent child =>
    exact withNode_coherent coherent fun _ _ => withNode_coherent coherent fun _ found =>
      unlinkAndSave_coherent plainKeys coherent (coherent.indexed found)
  | delete node force =>
    apply withNode_coherent coherent
    intro addr found
    apply deleteNode_coherent plainKeys coherent force
    intro forced
    unfold keepsKeys at keeps
    dsimp only at keeps
    rw [forced, found, all_some, Bool.not_true, Bool.false_or] at keeps
    exact childrenIndexed_of_holdsIndexed keeps
  | deleteInstance node pkey2 force =>
    exact withNode_coherent coherent fun _ _ => deleteInstance_coherent coherent pkey2 force
  | shoot name date description now => exact shootSnap_coherent plainKeys coherent name date description now
  | activate name => exact activateSnap_coherent plainKeys coherent name
  | reopen => exact openDb_coherent plainKeys keeps

/-- In a treedb opened on rows that read back under the keys they are filed under, every state of a
run whose operations keep the keys has agreeing indexes. -/
theorem indexes_agree_along (plainKeys : ctx.schema.PlainKeys) {store : Store} {tick : Nat}
    (opens : opensFiled ctx store tick = true) {ops : List Op}
    (keeping : AllSteps (step ctx) (fun state op => keepsKeys ctx state op = true)
      (openDb ctx store tick) ops) :
    AllStates (step ctx) (fun state => IndexesAgree state.graph) (openDb ctx store tick) ops := by
  have all : AllStates (step ctx) (fun state => state.graph.Coherent ctx.schema)
      (openDb ctx store tick) ops :=
    keeping.invariant (step ctx) (step_coherent plainKeys) (openDb_coherent plainKeys opens)
  exact all.mono (step ctx) fun _ coherent => coherent.agree

/-- Two releases of a yuno, one of them deleted, and the treedb opened again. -/
def releaseOps : List Op := [
  .create "yunos" (yunoFields "a" "v1") "" 0,
  .create "yunos" (yunoFields "a" "v2") "" 0,
  .deleteInstance (.version "yunos" "release" "a" "v1") "release" false,
  .reopen]

/-- The indexes agree along it. -/
theorem indexes_agree_along_releases :
    AllStates (step yunosCtx) (fun state => IndexesAgree state.graph)
      (openDb yunosCtx (fun _ => Dict.empty) 0) releaseOps :=
  indexes_agree_along (by decide) (by decide) ⟨by decide, by decide, by decide, by decide, trivial⟩

/-- A yuno whose release is updated: it stays in the slot of the old one. -/
theorem indexes_disagree_after_update :
    ¬ AllStates (step yunosCtx) (fun state => IndexesAgree state.graph)
      (openDb yunosCtx (fun _ => Dict.empty) 0)
      [.create "yunos" (yunoFields "a" "v1") "" 0,
        .update (.node "yunos" "a") [("release", .string "v2")] 0 true] := by
  intro all
  have agree := all.last
  have held := agree.secondary "yunos" "release" "a" "v1" 0 (by decide)
  exact absurd held.2 (by decide)

end Yunetas.TrTreedb
