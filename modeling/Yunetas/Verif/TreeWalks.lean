import Yunetas.TrTreedb.Acyclic

/-!
# Tree walks end

A walk follows the hook of a node, and that of every child, as deep as it goes, so it ends exactly
when no path of children goes on without end. Linking only refuses to put a node under itself; a
node may be put under one that is already below it, and then the walks from either never end. They
do end after any creations, links and unlinks where no link is of that kind.
-/

namespace Yunetas.TrTreedb

open List Option

namespace Walk

variable {walk : Walk}

/-- The recursive list of children returns exactly when no path of children that pass the filter
goes on without end. -/
theorem nodeChildren_ends_iff {addr : Addr} {cell : Cell}
    (hooked : (walk.graph.heap addr).get? walk.hook = some cell) :
    (∃ fuel, (walk.nodeChildren true fuel addr).isSome) ↔
      Acc (Descent.IsChild walk.children) (.node addr) := by
  rw [← Descent.descend_ends_iff walk.children Descent.preorder]
  unfold nodeChildren
  simp [hooked, addTreeChildren_eq]

theorem under_of_children {addr : Addr} {item : Item}
    (path : Relation.ReflTransGen (Descent.IsChild walk.children) item (.node addr)) :
    ∀ child, item = .node child →
      Relation.ReflTransGen (Under walk.schema walk.graph walk.hook) child addr := by
  induction path using Relation.ReflTransGen.head_induction_on with
  | refl =>
    intro child same
    cases same
    exact Relation.ReflTransGen.refl
  | head edge _ ih =>
    intro child same
    rw [same] at edge
    have ⟨parent, isParent, under⟩ := children_under edge
    exact Relation.ReflTransGen.head under (ih parent isParent)

theorem ends_of_wellFounded (ends : WellFounded (Under walk.schema walk.graph walk.hook))
    (addr : Addr) : walk.Ends addr := by
  constructor
  · have ⟨fuel, done⟩ := (Descent.descend_ends_iff walk.children Descent.preorder
      (.node addr)).2 (acc_children ends _)
    have ⟨listed, isListed⟩ := isSome_iff_exists.1 done
    refine ⟨fuel, ((walk.graph.heap addr).get? walk.hook).map fun _ => listed, ?_, ?_⟩
    · unfold nodeChildren
      rw [addTreeChildren_eq, isListed]
      cases (walk.graph.heap addr).get? walk.hook <;> rfl
    · intro items isItems item among
      have ⟨_, _, same⟩ := map_eq_some_iff.1 isItems
      rw [← same, Descent.mem_preorder_iff walk.children isListed] at among
      have ⟨parent, edge, path⟩ := Relation.TransGen.head'_iff.1 among
      have ⟨holder, isHolder, held⟩ := children_listed edge
      have below := under_of_children path holder isHolder
      refine ⟨⟨holder, below, held⟩, fun child isChild => ?_⟩
      rw [isChild] at held
      exact Relation.TransGen.head' held below
  · have ⟨fuel, done⟩ := (Descent.descend_ends_iff walk.pathChildren walk.joinTrees
      (addr, kwStr (walk.view addr) "id")).2 (acc_pathChildren ends _)
    refine ⟨fuel, ?_⟩
    unfold nodeJtree
    simp only [addJtreeChildren_eq]
    cases (walk.graph.heap addr).get? walk.hook with
    | none => rfl
    | some cell =>
      rw [isSome_map]
      exact done

end Walk

/-- Every walk through a graph ends, from every node, through every hook and with every filter. -/
def WalksEnd (schema : Schema) (graph : Graph) : Prop :=
  ∀ walk : Walk, walk.schema = schema → walk.graph = graph → ∀ addr, walk.Ends addr

/-- In a treedb made by creations, links and unlinks that close no cycle every walk ends, in every
state. -/
theorem walks_end_along (ctx : Context) {ops : List Op}
    (makes : ∀ op ∈ ops, op.makesTrees = true)
    (closes : AllSteps (step ctx) (ClosesNoCycle ctx) (start ctx) ops) :
    AllStates (step ctx) (fun state => WalksEnd ctx.schema state.graph) (start ctx) ops := by
  have all : AllStates (step ctx)
      (fun state => state.graph.InUse ∧ state.graph.PathsEnd ctx.schema) (start ctx) ops := by
    have steps := (AllSteps.of_mem (step ctx) makes (start ctx)).and (step ctx) closes
    apply steps.invariant (step ctx) _ (start_pathsEnd ctx)
    exact fun state op good ok => step_pathsEnd ok.1 ok.2 good
  apply all.mono (step ctx)
  rintro state ⟨-, ends⟩ walk sameSchema sameGraph addr
  apply Walk.ends_of_wellFounded
  rw [sameSchema, sameGraph]
  exact ends walk.hook

/-- A department, another under it, and a third under that. -/
def departmentsTree : List Op :=
  [newDepartment "a", newDepartment "b", newDepartment "c", underDepartment "a" "b",
    underDepartment "b" "c"]

theorem closes_create {topicName : String} {kw : Json.Fields} {uuid : String} {now : Int}
    (stay : ∀ topic ∈ departmentsCtx.schema.topics, topic.hooksStay = true) (state : State) :
    ClosesNoCycle departmentsCtx state (.create topicName kw uuid now) :=
  fun _ found _ _ _ => stay _ (Schema.topic?_mem found).1

theorem closes_link {state : State} {parent child : String} {above below : Addr}
    (isParent : state.graph.resolve (.node "departments" parent) = some above)
    (isChild : state.graph.resolve (.node "departments" child) = some below)
    (apart : above ≠ below)
    (leaf : (state.graph.heap below).get? "departments" = some (.dict [])) :
    ClosesNoCycle departmentsCtx state (underDepartment parent child) := by
  intro other isOther last isLast link _ _ path
  rw [isParent] at isOther
  rw [isChild] at isLast
  cases isOther
  cases isLast
  rcases Relation.ReflTransGen.cases_tail path with same | ⟨between, -, edge⟩
  · exact apart same.symm
  · have ⟨_, cell, stored, among⟩ := under_iff.1 edge
    rw [leaf] at stored
    cases stored
    exact absurd among not_mem_nil

/-- Its walks end. -/
theorem walks_end_along_departments :
    AllStates (step departmentsCtx) (fun state => WalksEnd departmentsCtx.schema state.graph)
      (start departmentsCtx) departmentsTree :=
  walks_end_along departmentsCtx (by decide)
    ⟨closes_create (by decide) _, closes_create (by decide) _, closes_create (by decide) _,
      closes_link rfl rfl (by decide) rfl, closes_link rfl rfl (by decide) rfl, trivial⟩

/-- Two departments, each under the other. -/
def departmentsCycle : State :=
  run (step departmentsCtx) (start departmentsCtx)
    [newDepartment "a", newDepartment "b", underDepartment "a" "b", underDepartment "b" "a"]

/-- The walk through the departments, without a filter. -/
def departmentsWalk : Walk :=
  ⟨departmentsCtx.schema, departmentsCycle.graph, "departments", fun _ _ _ => true, .null, fun _ => []⟩

theorem departmentsCycle_children :
    departmentsWalk.children (.node 0) = [.node 1] ∧
      departmentsWalk.children (.node 1) = [.node 0] ∧
      departmentsWalk.treeChildren 0 = [1] ∧ departmentsWalk.treeChildren 1 = [0] :=
  ⟨rfl, rfl, rfl, rfl⟩

theorem departmentsCycle_addJtreeChildren (fuel : Nat) (path : String) :
    departmentsWalk.addJtreeChildren fuel path 0 = none ∧
      departmentsWalk.addJtreeChildren fuel path 1 = none := by
  have ⟨_, _, first, second⟩ := departmentsCycle_children
  induction fuel generalizing path with
  | zero => exact ⟨rfl, rfl⟩
  | succ fuel ih =>
    constructor
    · unfold Walk.addJtreeChildren
      rw [first, mapM_cons]
      dsimp only
      rw [(ih _).2]
      rfl
    · unfold Walk.addJtreeChildren
      rw [second, mapM_cons]
      dsimp only
      rw [(ih _).1]
      rfl

/-- Of two departments each under the other, the recursive children and the tree are never made:
no fuel is enough. -/
theorem walks_never_end :
    (∀ fuel, departmentsWalk.nodeChildren true fuel 0 = none) ∧
      ∀ fuel, departmentsWalk.nodeJtree fuel 0 = none := by
  constructor
  · intro fuel
    have cell : (departmentsWalk.graph.heap 0).get? departmentsWalk.hook =
        some (.dict [("b", .node 1)]) := rfl
    have never : ¬ ∃ fuel, (departmentsWalk.nodeChildren true fuel 0).isSome := by
      rw [Walk.nodeChildren_ends_iff cell]
      apply Descent.not_acc_of_cycle
      have down : Descent.IsChild departmentsWalk.children (.node 1) (.node 0) := by
        unfold Descent.IsChild
        rw [departmentsCycle_children.1]
        exact List.mem_cons_self
      have back : Descent.IsChild departmentsWalk.children (.node 0) (.node 1) := by
        unfold Descent.IsChild
        rw [departmentsCycle_children.2.1]
        exact List.mem_cons_self
      exact (Relation.TransGen.single back).tail down
    cases found : departmentsWalk.nodeChildren true fuel 0 with
    | none => rfl
    | some listed => exact absurd ⟨fuel, by rw [found]; rfl⟩ never
  · intro fuel
    have cell : (departmentsWalk.graph.heap 0).get? departmentsWalk.hook =
        some (.dict [("b", .node 1)]) := rfl
    unfold Walk.nodeJtree
    rw [cell]
    dsimp only
    rw [(departmentsCycle_addJtreeChildren fuel _).1]
    rfl

end Yunetas.TrTreedb
