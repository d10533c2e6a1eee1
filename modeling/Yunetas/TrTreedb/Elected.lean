import Yunetas.TrTreedb.Open

/-!
# The rows that become nodes

Each index of a topic is loaded from the rows of its keys backward, and keeps the first row it is
given of each kind: the primary index the first row of a key, the index of a secondary key the first
one with each value. So what it holds after an opening is the newest row of the kind, and nothing
that is loaded later changes it.
-/

namespace Yunetas.TrTreedb

open List Option Function TrTreedb.Graph Dict

variable {ctx : Context}

/-- What loading keeps: the nodes in memory and where the indexes find them. -/
structure Grows (before after : Loading) : Prop where
  next : before.graph.next ≤ after.graph.next
  heap : ∀ addr, addr < before.graph.next → after.graph.heap addr = before.graph.heap addr
  md : ∀ addr, addr < before.graph.next → after.md addr = before.md addr
  node : ∀ topic id addr, before.graph.getNode topic id = some addr →
    after.graph.getNode topic id = some addr
  version : ∀ topic pkey2 id key2 addr, before.graph.getInstance topic pkey2 id key2 = some addr →
    after.graph.getInstance topic pkey2 id key2 = some addr

namespace Grows

theorem refl (loading : Loading) : Grows loading loading :=
  ⟨Nat.le_refl _, fun _ _ => rfl, fun _ _ => rfl, fun _ _ _ found => found,
    fun _ _ _ _ _ found => found⟩

theorem trans {first second third : Loading} (left : Grows first second)
    (right : Grows second third) : Grows first third where
  next := Nat.le_trans left.next right.next
  heap addr used := (right.heap addr (Nat.lt_of_lt_of_le used left.next)).trans (left.heap addr used)
  md addr used := (right.md addr (Nat.lt_of_lt_of_le used left.next)).trans (left.md addr used)
  node topic id addr found := right.node topic id addr (left.node topic id addr found)
  version topic pkey2 id key2 addr found :=
    right.version topic pkey2 id key2 addr (left.version topic pkey2 id key2 addr found)

theorem isSome {before after : Loading} (grows : Grows before after) {topic id : String}
    (found : (before.graph.getNode topic id).isSome) :
    (after.graph.getNode topic id).isSome := by
  have ⟨addr, there⟩ := isSome_iff_exists.1 found
  rw [grows.node topic id addr there]
  rfl

theorem foldl {α : Type} (items : List α) (load : Loading → α → Loading)
    (grows : ∀ loading item, Grows loading (load loading item)) (loading : Loading) :
    Grows loading (items.foldl load loading) := by
  apply foldlRecOn (motive := fun after => Grows loading after)
  · exact refl loading
  · intro sofar kept item _
    exact kept.trans (grows sofar item)

end Grows

/-- A node is read from a row. -/
structure Loading.Reads (ctx : Context) (loading : Loading) (topic : Topic) (row : Row)
    (addr : Addr) : Prop where
  used : addr < loading.graph.next
  node : loading.graph.heap addr = readNode ctx topic row
  md : loading.md addr = row.md

variable {topic : Topic} {loading : Loading}

theorem Loading.Reads.grows {before after : Loading} {row : Row} {addr : Addr}
    (reads : before.Reads ctx topic row addr) (grows : Grows before after) :
    after.Reads ctx topic row addr where
  used := Nat.lt_of_lt_of_le reads.used grows.next
  node := (grows.heap addr reads.used).trans reads.node
  md := (grows.md addr reads.used).trans reads.md

/-- What an index found is read from a row, or it found nothing and there is no row. -/
def Loading.Holds (ctx : Context) (loading : Loading) (topic : Topic) (found : Option Addr) :
    Option Row → Prop
  | some row => ∃ addr, found = some addr ∧ loading.Reads ctx topic row addr
  | none => found = none

theorem loadNode_reads (ctx : Context) (topic : Topic) (loading : Loading) (row : Row) :
    (loadNode ctx topic loading row).Reads ctx topic row loading.graph.next := by
  unfold loadNode
  refine ⟨Nat.lt_succ_self _, ?_, ?_⟩
  · rw [heap_alloc, update_self]
  · exact update_self ..

theorem loadNode_grows (ctx : Context) (topic : Topic) (loading : Loading) (row : Row) :
    Grows loading (loadNode ctx topic loading row) := by
  unfold loadNode
  refine ⟨Nat.le_succ _, ?_, ?_, fun _ _ _ found => found, fun _ _ _ _ _ found => found⟩
  · intro addr used
    rw [heap_alloc, update_of_ne (Nat.ne_of_lt used)]
  · intro addr used
    exact update_of_ne (Nat.ne_of_lt used) ..

theorem loadIdCallback_grows (topic : Topic) (key : String) (loading : Loading) (row : Row) :
    Grows loading (loadIdCallback ctx topic key loading row) := by
  unfold loadIdCallback
  split
  · exact Grows.refl loading
  · rename_i absent
    have grows := loadNode_grows ctx topic loading row
    refine ⟨grows.next, grows.heap, grows.md, ?_, grows.version⟩
    intro other name addr found
    rw [getNode_addPrimary]
    split
    · rename_i same
      rw [same.1, same.2] at found
      rw [found] at absent
      exact absurd rfl absent
    · exact found

theorem loadPkey2Callback_grows (ctx : Context) (topic : Topic) (pkey2 key : String) (loading : Loading)
    (row : Row) : Grows loading (loadPkey2Callback ctx topic pkey2 key loading row) := by
  unfold loadPkey2Callback
  dsimp only
  split
  · exact Grows.refl loading
  · rename_i absent
    have grows := loadNode_grows ctx topic loading row
    refine ⟨grows.next, grows.heap, grows.md, grows.node, ?_⟩
    intro other otherKey name value addr found
    have before := found
    unfold Graph.getInstance at found ⊢
    split at found
    · cases found
    · rename_i some
      rw [if_neg some]
      rw [slot?_addSecondary]
      split
      · rename_i same
        rw [same.1, same.2.1, same.2.2.1, same.2.2.2] at before
        rw [before] at absent
        exact absurd rfl absent
      · exact found

theorem openList_grows (store : Store) (topic : String) (snapTag : Nat)
    (callback : String → Loading → Row → Loading)
    (grows : ∀ key loading row, Grows loading (callback key loading row)) (loading : Loading) :
    Grows loading (openList store topic snapTag callback loading) := by
  apply Grows.foldl
  intro other entry
  exact Grows.foldl _ _ (grows entry.1) other

theorem openTopic_grows (ctx : Context) (store : Store) (snapTag : Nat) (loading : Loading) (topic : Topic) :
    Grows loading (openTopic ctx store snapTag loading topic) := by
  apply (openList_grows store topic.name snapTag _ (loadIdCallback_grows topic) loading).trans
  apply Grows.foldl
  intro other pkey2
  exact openList_grows store topic.name 0 _ (loadPkey2Callback_grows ctx topic pkey2) other

theorem openTopics_grows (store : Store) (snapTag : Nat) (topics : List Topic)
    (loading : Loading) : Grows loading (openTopics ctx store snapTag topics loading) := by
  exact Grows.foldl _ _ (openTopic_grows ctx store snapTag) loading

theorem newest_loads (snapTag : Nat) (test : Row → Bool) (rows : List Row) :
    newest (fun row => row.loads snapTag && test row) rows =
      (rows.reverse.filter (Row.loads snapTag)).find? test := by
  rw [find?_filter]
  congr 1
  funext row
  simp

/-- An index that keeps the first row it is given of each kind, of the kinds that count. -/
structure KeepsFirst {κ : Type} (ctx : Context) (topic : Topic)
    (find : Loading → String → κ → Option Addr) (kind : Row → κ) (counts : κ → Prop)
    (callback : String → Loading → Row → Loading) : Prop where
  grows : ∀ key loading row, Grows loading (callback key loading row)
  finds : ∀ {before after : Loading} {key : String} {of : κ} {addr : Addr}, Grows before after →
    find before key of = some addr → find after key of = some addr
  first : ∀ key loading row, counts (kind row) → find loading key (kind row) = none →
    find (callback key loading row) key (kind row) = some loading.graph.next ∧
      (callback key loading row).Reads ctx topic row loading.graph.next
  others : ∀ key loading row other of, counts of → ¬ (other = key ∧ kind row = of) →
    find (callback key loading row) other of = find loading other of

namespace KeepsFirst

variable {κ : Type} [DecidableEq κ] {topic : Topic} {find : Loading → String → κ → Option Addr}
  {kind : Row → κ} {counts : κ → Prop} {callback : String → Loading → Row → Loading}
  (keeps : KeepsFirst ctx topic find kind counts callback)

include keeps

omit [DecidableEq κ] in
theorem holds_grows {before after : Loading} {key : String} {of : κ} {row : Row}
    (grows : Grows before after) (holds : before.Holds ctx topic (find before key of) (some row)) :
    after.Holds ctx topic (find after key of) (some row) := by
  have ⟨addr, found, reads⟩ := holds
  exact ⟨addr, keeps.finds grows found, reads.grows grows⟩

theorem rows (key : String) {of : κ} (real : counts of) (rows : List Row) {loading : Loading}
    (start : find loading key of = none ∨
      loading.Holds ctx topic (find loading key of) (rows.find? fun row => kind row = of)) :
    (rows.foldl (callback key) loading).Holds ctx topic
      (find (rows.foldl (callback key) loading) key of) (rows.find? fun row => kind row = of) := by
  rcases start with absent | held
  · induction rows generalizing loading with
    | nil => exact absent
    | cons row rest ih =>
      rw [foldl_cons, find?_cons]
      by_cases here : kind row = of
      · simp only [here, decide_true]
        subst here
        have held := keeps.first key loading row real absent
        exact keeps.holds_grows (Grows.foldl rest (callback key) (keeps.grows key) _)
          ⟨loading.graph.next, held⟩
      · simp only [here, decide_false]
        apply ih
        rw [keeps.others key loading row key of real fun same => here same.2]
        exact absent
  · revert held
    cases first : rows.find? fun row => kind row = of with
    | some row =>
      intro held
      exact keeps.holds_grows (Grows.foldl rows (callback key) (keeps.grows key) _) held
    | none =>
      -- No row is of this kind, so none gets in.
      intro absent
      have none_of : ∀ row ∈ rows, kind row ≠ of := by simpa using first
      clear first
      induction rows generalizing loading with
      | nil => exact absent
      | cons row rest ih =>
        rw [foldl_cons]
        apply ih
        · rw [keeps.others key loading row key of real fun same =>
            none_of row mem_cons_self same.2]
          exact absent
        · exact fun other further => none_of other (mem_cons_of_mem _ further)

omit [DecidableEq κ] in
theorem rows_others (key : String) {of : κ} (real : counts of) (rows : List Row)
    (loading : Loading) {other : String} (ne : other ≠ key) :
    find (rows.foldl (callback key) loading) other of = find loading other of := by
  induction rows generalizing loading with
  | nil => rfl
  | cons row rest ih =>
    rw [foldl_cons, ih, keeps.others key loading row other of real fun same => ne same.1]

/-- The rows of a list of keys: each key holds its newest row, the other keys are left. -/
theorem entries (snapTag : Nat) {of : κ} (real : counts of) (entries : List (String × List Row))
    (distinct : (entries.map Prod.fst).Nodup) {loading : Loading}
    (start : ∀ entry ∈ entries, find loading entry.1 of = none ∨
      loading.Holds ctx topic (find loading entry.1 of)
        (newest (fun row => row.loads snapTag && kind row = of) entry.2)) :
    let after := entries.foldl (fun loading entry =>
      (entry.2.reverse.filter (Row.loads snapTag)).foldl (callback entry.1) loading) loading
    (∀ entry ∈ entries, after.Holds ctx topic (find after entry.1 of)
      (newest (fun row => row.loads snapTag && kind row = of) entry.2)) ∧
    ∀ key, key ∉ entries.map Prod.fst → find after key of = find loading key of := by
  induction entries generalizing loading with
  | nil => exact ⟨fun entry none => absurd none not_mem_nil, fun _ _ => rfl⟩
  | cons entry rest ih =>
    rw [map_cons, nodup_cons] at distinct
    rw [foldl_cons]
    let loaded := (entry.2.reverse.filter (Row.loads snapTag)).foldl (callback entry.1) loading
    have others : ∀ key, key ≠ entry.1 → find loaded key of = find loading key of :=
      fun key ne => keeps.rows_others entry.1 real _ loading ne
    have grown : Grows loading loaded := Grows.foldl _ _ (keeps.grows entry.1) loading
    have started : ∀ entry ∈ rest, find loaded entry.1 of = none ∨
        loaded.Holds ctx topic (find loaded entry.1 of)
          (newest (fun row => row.loads snapTag && kind row = of) entry.2) := by
      intro other further
      have ne : other.1 ≠ entry.1 := fun same =>
        distinct.1 (same ▸ mem_map_of_mem further)
      have before := start other (mem_cons_of_mem _ further)
      cases row : newest (fun row => row.loads snapTag && kind row = of) other.2 with
      | some first =>
        rw [row] at before
        rcases before with absent | held
        · exact Or.inl ((others other.1 ne).trans absent)
        · exact Or.inr (keeps.holds_grows grown held)
      | none =>
        rw [row] at before
        exact Or.inl ((others other.1 ne).trans (before.elim id id))
    have later := ih distinct.2 started
    constructor
    · intro other listed
      rcases mem_cons.1 listed with rfl | further
      · have here : loaded.Holds ctx topic (find loaded other.1 of)
            (newest (fun row => row.loads snapTag && kind row = of) other.2) := by
          have before := start other mem_cons_self
          rw [newest_loads] at before ⊢
          exact keeps.rows other.1 real _ before
        cases row : newest (fun row => row.loads snapTag && kind row = of) other.2 with
        | some first =>
          rw [row] at here
          apply keeps.holds_grows _ here
          apply Grows.foldl
          intro sofar entry
          exact Grows.foldl _ _ (keeps.grows entry.1) sofar
        | none =>
          rw [row] at here
          exact (later.2 other.1 distinct.1).trans here
      · exact later.1 other further
    · intro key outside
      rw [map_cons, mem_cons, not_or] at outside
      rw [later.2 key outside.2, others key outside.1]

theorem openList (store : Store) (snapTag : Nat) {of : κ} (real : counts of) {loading : Loading}
    (start : ∀ key, find loading key of = none ∨ loading.Holds ctx topic (find loading key of)
      (newest (fun row => row.loads snapTag && kind row = of) (store.rows topic.name key)))
    (key : String) :
    let after := openList store topic.name snapTag callback loading
    after.Holds ctx topic (find after key of)
      (newest (fun row => row.loads snapTag && kind row = of) (store.rows topic.name key)) := by
  have started : ∀ entry ∈ (store topic.name).entries, find loading entry.1 of = none ∨
      loading.Holds ctx topic (find loading entry.1 of)
        (newest (fun row => row.loads snapTag && kind row = of) entry.2) := by
    intro entry among
    have before := start entry.1
    unfold Store.rows at before
    rw [get?_of_mem _ among, getD_some] at before
    exact before
  have loaded := keeps.entries snapTag real (store topic.name).entries (store topic.name).nodup
    started
  have before := start key
  unfold Store.rows at before ⊢
  cases found : (store topic.name).get? key with
  | some rows =>
    have among : (key, rows) ∈ (store topic.name).entries := mem_of_lookupEntries found
    exact loaded.1 (key, rows) among
  | none =>
    have outside : key ∉ (store topic.name).entries.map Prod.fst := by
      show key ∉ (store topic.name).keys
      rw [Dict.mem_keys, found]
      exact Bool.false_ne_true
    rw [found] at before
    exact (loaded.2 key outside).trans (before.elim id id)

end KeepsFirst

theorem keepsFirst_id (topic : Topic) :
    KeepsFirst ctx topic (fun loading key (_ : Unit) => loading.graph.getNode topic.name key)
      (fun _ => ()) (fun _ => True) (loadIdCallback ctx topic) where
  grows := loadIdCallback_grows topic
  finds grows found := grows.node _ _ _ found
  first key loading row _ absent := by
    unfold loadIdCallback
    rw [absent, isSome_none, if_neg Bool.false_ne_true]
    have reads := loadNode_reads ctx topic loading row
    refine ⟨?_, reads.used, reads.node, reads.md⟩
    rw [getNode_addPrimary, if_pos ⟨rfl, rfl⟩]
  others key loading row other of _ apart := by
    unfold loadIdCallback
    split
    · rfl
    · rw [getNode_addPrimary, if_neg fun same => apart ⟨same.2, rfl⟩]
      rfl

theorem keepsFirst_pkey2 (topic : Topic) (pkey2 : String) :
    KeepsFirst ctx topic (fun loading key key2 => loading.graph.getInstance topic.name pkey2 key key2)
      (fun row => kwStr row.record pkey2) (fun key2 => key2 ≠ "")
      (loadPkey2Callback ctx topic pkey2) where
  grows := loadPkey2Callback_grows ctx topic pkey2
  finds grows found := grows.version _ _ _ _ _ found
  first key loading row real absent := by
    unfold loadPkey2Callback
    dsimp only at absent ⊢
    rw [absent, isSome_none, if_neg Bool.false_ne_true]
    have reads := loadNode_reads ctx topic loading row
    refine ⟨?_, reads.used, reads.node, reads.md⟩
    unfold Graph.getInstance
    rw [if_neg real, slot?_addSecondary, if_pos ⟨rfl, rfl, rfl, rfl⟩]
  others key loading row other of real apart := by
    unfold loadPkey2Callback
    dsimp only
    split
    · rfl
    · unfold Graph.getInstance
      rw [if_neg real, if_neg real, slot?_addSecondary,
        if_neg fun same => apart ⟨same.2.2.1, same.2.2.2.symm⟩]
      rfl

theorem openList_keeps {α : Type} (f : Loading → α) (store : Store) (topic : String)
    (snapTag : Nat) (callback : String → Loading → Row → Loading)
    (keeps : ∀ key loading row, f (callback key loading row) = f loading) (loading : Loading) :
    f (openList store topic snapTag callback loading) = f loading := by
  apply foldlRecOn (motive := fun after => f after = f loading)
  · rfl
  · intro sofar kept entry _
    apply foldlRecOn (motive := fun after => f after = f loading)
    · exact kept
    · intro other still row _
      rw [keeps, still]

theorem loadIdCallback_getInstance (topic : Topic) (other pkey2 id key2 : String) (key : String)
    (loading : Loading) (row : Row) :
    (loadIdCallback ctx topic key loading row).graph.getInstance other pkey2 id key2 =
      loading.graph.getInstance other pkey2 id key2 := by
  unfold loadIdCallback
  split <;> rfl

theorem loadIdCallback_getNode (topic : Topic) {other : String} (name : String)
    (ne : other ≠ topic.name) (key : String) (loading : Loading) (row : Row) :
    (loadIdCallback ctx topic key loading row).graph.getNode other name =
      loading.graph.getNode other name := by
  unfold loadIdCallback
  split
  · rfl
  · rw [getNode_addPrimary, if_neg fun same => ne same.1]
    rfl

theorem loadPkey2Callback_getNode (topic : Topic) (pkey2 other name : String) (key : String)
    (loading : Loading) (row : Row) :
    (loadPkey2Callback ctx topic pkey2 key loading row).graph.getNode other name =
      loading.graph.getNode other name := by
  unfold loadPkey2Callback
  dsimp only
  split <;> rfl

theorem loadPkey2Callback_getInstance (topic : Topic) {pkey2 other otherKey : String}
    (id key2 : String) (apart : ¬ (other = topic.name ∧ otherKey = pkey2)) (key : String)
    (loading : Loading) (row : Row) :
    (loadPkey2Callback ctx topic pkey2 key loading row).graph.getInstance other otherKey id key2 =
      loading.graph.getInstance other otherKey id key2 := by
  unfold loadPkey2Callback
  dsimp only
  split
  · rfl
  · unfold Graph.getInstance
    rw [slot?_addSecondary, if_neg fun same : other = topic.name ∧ _ => apart ⟨same.1, same.2.1⟩]
    rfl

/-- Nothing of a topic is in the indexes. -/
structure Loading.Lacks (loading : Loading) (topic : String) : Prop where
  node : ∀ key, loading.graph.getNode topic key = none
  version : ∀ pkey2 key key2, loading.graph.getInstance topic pkey2 key key2 = none

/-- The indexes of a topic hold the newest rows: the primary one of those that have the tag, the
others of all. -/
structure Loading.HasTopic (ctx : Context) (store : Store) (snapTag : Nat) (topic : Topic)
    (loading : Loading) : Prop where
  node : ∀ key, loading.Holds ctx topic (loading.graph.getNode topic.name key)
    (newest (Row.loads snapTag) (store.rows topic.name key))
  version : ∀ pkey2 ∈ topic.pkey2s.filter (· ≠ ""), ∀ key key2, key2 ≠ "" →
    loading.Holds ctx topic (loading.graph.getInstance topic.name pkey2 key key2)
      (newest (fun row => row.loads 0 && kwStr row.record pkey2 = key2)
        (store.rows topic.name key))

theorem openPkey2s_holds (ctx : Context) (store : Store) (topic : Topic) (pkey2s : List String)
    (lacks : ∀ pkey2 key key2, loading.graph.getInstance topic.name pkey2 key key2 = none) :
    let after := pkey2s.foldl (fun loading pkey2 =>
      openList store topic.name 0 (loadPkey2Callback ctx topic pkey2) loading) loading
    ∀ pkey2 key key2, key2 ≠ "" →
      if pkey2 ∈ pkey2s then
        after.Holds ctx topic (after.graph.getInstance topic.name pkey2 key key2)
          (newest (fun row => row.loads 0 && kwStr row.record pkey2 = key2)
            (store.rows topic.name key))
      else after.graph.getInstance topic.name pkey2 key key2 = none := by
  dsimp only
  induction pkey2s using List.reverseRecOn with
  | nil =>
    intro pkey2 key key2 _
    exact lacks pkey2 key key2
  | append_singleton before pkey2 ih =>
    intro other key key2 real
    rw [foldl_append, foldl_cons, foldl_nil]
    revert ih
    generalize before.foldl _ loading = middle
    intro ih
    by_cases here : other = pkey2
    · subst here
      rw [if_pos (mem_append_right _ (mem_singleton.2 rfl))]
      apply (keepsFirst_pkey2 topic other).openList store 0 real
      intro name
      have sofar := ih other name key2 real
      split at sofar
      · exact Or.inr sofar
      · exact Or.inl sofar
    · have kept : (openList store topic.name 0 (loadPkey2Callback ctx topic pkey2)
          middle).graph.getInstance topic.name other key key2 =
          middle.graph.getInstance topic.name other key key2 :=
        openList_keeps (fun loading => loading.graph.getInstance topic.name other key key2) store
          topic.name 0 _ (loadPkey2Callback_getInstance topic key key2 fun same => here same.2)
          middle
      have grows := openList_grows store topic.name 0 _
        (loadPkey2Callback_grows ctx topic pkey2) middle
      have sofar := ih other key key2 real
      simp only [mem_append, mem_singleton, here, or_false]
      split
      · rename_i among
        rw [if_pos among] at sofar
        rw [kept]
        revert sofar
        cases newest (fun row => row.loads 0 && kwStr row.record other = key2)
          (store.rows topic.name key) with
        | some row => exact fun ⟨addr, found, reads⟩ => ⟨addr, found, reads.grows grows⟩
        | none => exact id
      · rename_i outside
        rw [if_neg outside] at sofar
        exact kept.trans sofar

theorem Loading.Holds.grows {before after : Loading} {found : Option Addr}
    {row : Option Row} (holds : before.Holds ctx topic found row) (grows : Grows before after) :
    after.Holds ctx topic found row := by
  cases row with
  | some row =>
    have ⟨addr, isFound, reads⟩ := holds
    exact ⟨addr, isFound, reads.grows grows⟩
  | none => exact holds

theorem openTopic_hasTopic (ctx : Context) (store : Store) (snapTag : Nat)
    (lacks : loading.Lacks topic.name) :
    (openTopic ctx store snapTag loading topic).HasTopic ctx store snapTag topic := by
  let named := openList store topic.name snapTag (loadIdCallback ctx topic) loading
  have versions : ∀ pkey2 key key2, named.graph.getInstance topic.name pkey2 key key2 = none := by
    intro pkey2 key key2
    have kept : named.graph.getInstance topic.name pkey2 key key2 =
        loading.graph.getInstance topic.name pkey2 key key2 :=
      openList_keeps (fun loading => loading.graph.getInstance topic.name pkey2 key key2) store
        topic.name snapTag _ (loadIdCallback_getInstance topic topic.name pkey2 key key2) loading
    rw [kept]
    exact lacks.version pkey2 key key2
  constructor
  · intro key
    have held : named.Holds ctx topic (named.graph.getNode topic.name key)
        (newest (Row.loads snapTag) (store.rows topic.name key)) := by
      have keeps : KeepsFirst ctx topic _ _ _ _ := keepsFirst_id topic
      have first := @KeepsFirst.openList _ _ _ _ _ _ _ _ keeps store snapTag () trivial loading
        (fun key => Or.inl (lacks.node key)) key
      simp only [decide_true, Bool.and_true] at first
      exact first
    have grows : Grows named (openTopic ctx store snapTag loading topic) :=
      Grows.foldl _ _ (fun other pkey2 =>
        openList_grows store topic.name 0 _ (loadPkey2Callback_grows ctx topic pkey2) other) named
    have kept : (openTopic ctx store snapTag loading topic).graph.getNode topic.name key =
        named.graph.getNode topic.name key := by
      apply foldlRecOn (motive := fun after : Loading =>
        after.graph.getNode topic.name key = named.graph.getNode topic.name key)
      · rfl
      · intro sofar same pkey2 _
        exact (openList_keeps (fun loading => loading.graph.getNode topic.name key) store topic.name
          0 _ (loadPkey2Callback_getNode topic pkey2 topic.name key) sofar).trans same
    rw [kept]
    exact held.grows grows
  · intro pkey2 listed key key2 real
    have held := openPkey2s_holds ctx store topic (topic.pkey2s.filter (· ≠ "")) versions
      pkey2 key key2 real
    rw [if_pos listed] at held
    exact held

theorem openTopic_others (ctx : Context) (store : Store) (snapTag : Nat) (topic : Topic) (loading : Loading)
    {other : String} (ne : other ≠ topic.name) :
    (∀ name, (openTopic ctx store snapTag loading topic).graph.getNode other name =
      loading.graph.getNode other name) ∧
    ∀ pkey2 name key2,
      (openTopic ctx store snapTag loading topic).graph.getInstance other pkey2 name key2 =
        loading.graph.getInstance other pkey2 name key2 := by
  constructor
  · intro name
    apply foldlRecOn (motive := fun after : Loading =>
      after.graph.getNode other name = loading.graph.getNode other name)
    · exact openList_keeps (fun loading => loading.graph.getNode other name) store topic.name
        snapTag _ (loadIdCallback_getNode topic name ne) loading
    · intro sofar same pkey2 _
      exact (openList_keeps (fun loading => loading.graph.getNode other name) store topic.name
        0 _ (loadPkey2Callback_getNode topic pkey2 other name) sofar).trans same
  · intro pkey2 name key2
    apply foldlRecOn (motive := fun after : Loading =>
      after.graph.getInstance other pkey2 name key2 =
        loading.graph.getInstance other pkey2 name key2)
    · exact openList_keeps (fun loading => loading.graph.getInstance other pkey2 name key2) store
        topic.name snapTag _ (loadIdCallback_getInstance topic other pkey2 name key2) loading
    · intro sofar same otherKey _
      exact (openList_keeps (fun loading => loading.graph.getInstance other pkey2 name key2) store
        topic.name 0 _ (loadPkey2Callback_getInstance topic name key2 fun both => ne both.1)
        sofar).trans same

theorem Loading.HasTopic.openTopic {store : Store} {snapTag : Nat}
    (has : loading.HasTopic ctx store snapTag topic) (otherStore : Store)
    (otherTag : Nat) {other : Topic} (ne : topic.name ≠ other.name) :
    (openTopic ctx otherStore otherTag loading other).HasTopic ctx store snapTag topic := by
  have others := openTopic_others ctx otherStore otherTag other loading ne
  have grows := openTopic_grows ctx otherStore otherTag loading other
  constructor
  · intro key
    rw [others.1]
    exact (has.node key).grows grows
  · intro pkey2 listed key key2 real
    rw [others.2]
    exact (has.version pkey2 listed key key2 real).grows grows

theorem openTopics_hasTopic (ctx : Context) (store : Store) (snapTag : Nat) (topics : List Topic)
    (distinct : (topics.map Topic.name).Nodup)
    (lacks : ∀ topic ∈ topics, loading.Lacks topic.name) (among : topic ∈ topics) :
    (openTopics ctx store snapTag topics loading).HasTopic ctx store snapTag topic := by
  unfold openTopics
  induction topics generalizing loading with
  | nil => exact absurd among not_mem_nil
  | cons first rest ih =>
    rw [map_cons, nodup_cons] at distinct
    have apart : ∀ other ∈ rest, other.name ≠ first.name := fun other later same =>
      distinct.1 (same ▸ mem_map_of_mem later)
    rw [foldl_cons]
    rcases mem_cons.1 among with rfl | later
    · have here := openTopic_hasTopic ctx store snapTag (lacks topic mem_cons_self)
      apply foldlRecOn (motive := fun after : Loading =>
        after.HasTopic ctx store snapTag topic)
      · exact here
      · intro sofar kept other listed
        exact kept.openTopic store snapTag (apart other listed).symm
    · apply ih distinct.2 _ later
      intro other listed
      have others := openTopic_others ctx store snapTag first loading (apart other listed)
      have before := lacks other (mem_cons_of_mem _ listed)
      exact ⟨fun key => (others.1 key).trans (before.node key),
        fun pkey2 key key2 => (others.2 pkey2 key key2).trans (before.version pkey2 key key2)⟩

theorem openTopics_others (ctx : Context) (store : Store) (snapTag : Nat) (topics : List Topic) (loading : Loading)
    {other : String} (apart : ∀ topic ∈ topics, other ≠ topic.name) :
    (∀ name, (openTopics ctx store snapTag topics loading).graph.getNode other name =
      loading.graph.getNode other name) ∧
    ∀ pkey2 name key2,
      (openTopics ctx store snapTag topics loading).graph.getInstance other pkey2 name key2 =
        loading.graph.getInstance other pkey2 name key2 := by
  apply foldlRecOn (motive := fun after : Loading =>
    (∀ name, after.graph.getNode other name = loading.graph.getNode other name) ∧
    ∀ pkey2 name key2, after.graph.getInstance other pkey2 name key2 =
      loading.graph.getInstance other pkey2 name key2)
  · exact ⟨fun _ => rfl, fun _ _ _ => rfl⟩
  · intro sofar kept topic listed
    have others := openTopic_others ctx store snapTag topic sofar (apart topic listed)
    exact ⟨fun name => (others.1 name).trans (kept.1 name),
      fun pkey2 name key2 => (others.2 pkey2 name key2).trans (kept.2 pkey2 name key2)⟩

end Yunetas.TrTreedb
