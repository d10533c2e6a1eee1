import Yunetas.Mqtt.SubsTree

/-!
# What a subscription tree holds

A shaped tree has a subscriber dict under `SUBS_KEY` of its nodes and nodes under every other key. A
subscription is read from it by the path of its filter and the client. On paths without the level
`SUBS_KEY` each operation of the tree changes what is held as its name tells and nothing else.
-/

namespace Yunetas.Mqtt

open List Option Dict

open Json

/-- The dict of the subscribers of a node. -/
def IsSubscribers (json : Json) : Prop :=
  ∃ fields : Fields, json = .object fields ∧ (fields.map Prod.fst).Nodup ∧
    ∀ entry ∈ fields, ∃ info : SubInfo, entry.2 = info.toJson

theorem isSubscribers_object (fields : Fields) :
    IsSubscribers (.object fields) ↔ (fields.map Prod.fst).Nodup ∧
      ∀ entry ∈ fields, ∃ info : SubInfo, entry.2 = info.toJson := by
  constructor
  · rintro ⟨_, same, dict⟩
    cases same
    exact dict
  · exact fun dict => ⟨fields, rfl, dict⟩

mutual

/-- A node of a tree: subscribers under `SUBS_KEY`, nodes under the other keys. -/
def Shaped : Json → Prop
  | .object entries => (entries.map Prod.fst).Nodup ∧ ShapedEntries entries
  | _ => False

/-- The entries of a node. -/
def ShapedEntries : List (String × Json) → Prop
  | [] => True
  | (key, child) :: rest =>
    (if key = subsKey then IsSubscribers child else Shaped child) ∧ ShapedEntries rest

end

/-- The value of an entry is what its key promises. -/
def ShapedEntry (key : String) (child : Json) : Prop :=
  if key = subsKey then IsSubscribers child else Shaped child

theorem shapedEntries_iff (entries : List (String × Json)) :
    ShapedEntries entries ↔ ∀ entry ∈ entries, ShapedEntry entry.1 entry.2 := by
  induction entries with
  | nil => simp [ShapedEntries]
  | cons entry rest ih =>
    rw [ShapedEntries, ih, forall_mem_cons]
    exact Iff.rfl

theorem shaped_object (fields : Fields) :
    Shaped (.object fields) ↔ (fields.map Prod.fst).Nodup ∧
      ∀ entry ∈ fields, ShapedEntry entry.1 entry.2 := by
  rw [Shaped, shapedEntries_iff]

variable {node : Json} {fields : Fields} {root : Json}

theorem Shaped.object (shaped : Shaped node) : ∃ fields, node = .object fields := by
  cases node with
  | object fields => exact ⟨fields, rfl⟩
  | _ => exact absurd shaped (by simp [Shaped])

theorem shaped_empty : Shaped (.object []) := by
  rw [shaped_object]
  exact ⟨nodup_nil, fun _ among => absurd among not_mem_nil⟩

theorem isSubscribers_empty : IsSubscribers (.object []) :=
  ⟨[], rfl, nodup_nil, fun _ among => absurd among not_mem_nil⟩

theorem Shaped.entry (shaped : Shaped node) {key : String} {child : Json}
    (found : objectGet node key = some child) : ShapedEntry key child := by
  obtain ⟨fields, rfl⟩ := shaped.object
  exact ((shaped_object fields).1 shaped).2 _ (mem_of_lookupEntries found)

theorem Shaped.child (shaped : Shaped node) {key : String} {child : Json}
    (found : objectGet node key = some child) (level : key ≠ subsKey) : Shaped child := by
  have entry := shaped.entry found
  rwa [ShapedEntry, if_neg level] at entry

theorem Shaped.subscribers (shaped : Shaped node) {subs : Json}
    (found : objectGet node subsKey = some subs) : IsSubscribers subs := by
  have entry := shaped.entry found
  rwa [ShapedEntry, if_pos rfl] at entry

theorem nodup_set (distinct : (fields.map Prod.fst).Nodup) (key : String)
    (value : Json) : ((fields.set key value).map Prod.fst).Nodup := by
  unfold Fields.set
  rw [setEntries_keys]
  split
  · exact distinct
  · rename_i absent
    exact nodup_append.2 ⟨distinct, nodup_singleton key, by
      intro a left b right
      rw [mem_singleton.1 right]
      rintro rfl
      exact absent left⟩

theorem mem_set {key : String} {value : Json} {entry : String × Json}
    (among : entry ∈ fields.set key value) : entry = (key, value) ∨ entry ∈ fields := by
  unfold Fields.set at among
  induction fields with
  | nil => exact .inl (mem_singleton.1 among)
  | cons first rest ih =>
    unfold Dict.setEntries at among
    split at among
    · rcases mem_cons.1 among with here | later
      · exact .inl here
      · exact .inr (mem_cons_of_mem _ later)
    · rcases mem_cons.1 among with here | later
      · exact .inr (here ▸ mem_cons_self)
      · exact (ih later).imp_right (mem_cons_of_mem _)

theorem shaped_set (shaped : Shaped (.object fields)) {key : String}
    {value : Json} (entry : ShapedEntry key value) : Shaped (.object (fields.set key value)) := by
  rw [shaped_object] at shaped ⊢
  refine ⟨nodup_set shaped.1 key value, fun other among => ?_⟩
  rcases mem_set among with rfl | old
  · exact entry
  · exact shaped.2 other old

theorem shaped_del (shaped : Shaped (.object fields)) (key : String) :
    Shaped (.object (fields.del key)) := by
  rw [shaped_object] at shaped ⊢
  exact ⟨shaped.1.sublist (filter_sublist.map Prod.fst),
    fun other among => shaped.2 other (mem_of_mem_filter among)⟩

/-- The subscription of a client at the node of a path. -/
def held (root : Json) (path : List String) (clientId : String) : Option Json :=
  ((getNode root path).bind (objectGet · subsKey)).bind (objectGet · clientId)

@[simp] theorem held_nil (root : Json) (clientId : String) :
    held root [] clientId = (objectGet root subsKey).bind (objectGet · clientId) := rfl

@[simp] theorem held_cons (root : Json) (level : String) (path : List String)
    (clientId : String) :
    held root (level :: path) clientId = (objectGet root level).bind (held · path clientId) := by
  unfold held
  rw [getNode]
  cases objectGet root level <;> rfl

theorem held_empty (path : List String) (clientId : String) :
    held (.object []) path clientId = none := by
  cases path <;> rfl

theorem objectGet_of_size {json : Json} (small : objectSize json = 0) (key : String) :
    objectGet json key = none := by
  cases json with
  | object fields =>
    have none : fields = [] := eq_nil_of_length_eq_zero small
    rw [none]
    rfl
  | _ => rfl

theorem held_emptyNode (shaped : Shaped node) (empty : emptyNode node = true)
    (path : List String) (clean : subsKey ∉ path) (clientId : String) :
    held node path clientId = none := by
  unfold emptyNode at empty
  cases present : objectGet node subsKey with
  | none =>
    rw [present] at empty
    have small : objectSize node = 0 := by simpa using empty
    cases path with
    | nil => rw [held_nil, present, bind_none]
    | cons level rest => rw [held_cons, objectGet_of_size small, bind_none]
  | some subs =>
    rw [present] at empty
    have sizes : objectSize node - 1 = 0 ∧ objectSize subs = 0 := by simpa using empty
    cases path with
    | nil => rw [held_nil, present, bind_some, objectGet_of_size sizes.2]
    | cons level rest =>
      have alone : objectGet node level = none := by
        obtain ⟨fields, rfl⟩ := shaped.object
        have member := mem_of_lookupEntries present
        match fields, sizes.1, member with
        | [entry], _, member =>
          rw [mem_singleton] at member
          have other : entry.1 ≠ level := by
            rw [← member]
            exact fun same => clean (same ▸ mem_cons_self)
          rw [objectGet, Fields.get?, Dict.lookupEntries, if_neg other, Dict.lookupEntries]
        | _ :: _ :: _, few, _ =>
          simp only [objectSize, objectEntries, length_cons] at few
          omega
      rw [held_cons, alone, bind_none]

theorem isSubscribers_set (dict : IsSubscribers (.object fields))
    (clientId : String) (info : SubInfo) :
    IsSubscribers (.object (fields.set clientId info.toJson)) := by
  rw [isSubscribers_object] at dict ⊢
  refine ⟨nodup_set dict.1 clientId _, fun entry among => ?_⟩
  rcases mem_set among with rfl | old
  · exact ⟨info, rfl⟩
  · exact dict.2 entry old

theorem isSubscribers_del (dict : IsSubscribers (.object fields))
    (clientId : String) : IsSubscribers (.object (fields.del clientId)) := by
  rw [isSubscribers_object] at dict ⊢
  exact ⟨dict.1.sublist (filter_sublist.map Prod.fst),
    fun entry among => dict.2 entry (mem_of_mem_filter among)⟩

theorem subscribers_getD (shaped : Shaped (.object fields)) :
    ∃ subs : Fields, (Fields.get? fields subsKey).getD (.object []) = .object subs ∧
      IsSubscribers (.object subs) ∧
      ∀ clientId, held (.object fields) [] clientId = subs.get? clientId := by
  cases found : Fields.get? fields subsKey with
  | none =>
    refine ⟨[], rfl, isSubscribers_empty, fun clientId => ?_⟩
    rw [held_nil, objectGet, found]
    rfl
  | some dict =>
    have known : IsSubscribers dict := shaped.subscribers found
    obtain ⟨subs, rfl, distinct, infos⟩ := known
    refine ⟨subs, rfl, ⟨subs, rfl, distinct, infos⟩, fun clientId => ?_⟩
    rw [held_nil, objectGet, found]
    rfl

theorem child_getD (shaped : Shaped (.object fields)) {level : String}
    (plain : level ≠ subsKey) : Shaped ((Fields.get? fields level).getD (.object [])) ∧
      ∀ path clientId, held ((Fields.get? fields level).getD (.object [])) path clientId =
        held (.object fields) (level :: path) clientId := by
  cases found : Fields.get? fields level with
  | none =>
    refine ⟨shaped_empty, fun path clientId => ?_⟩
    rw [held_cons, objectGet, found]
    exact held_empty path clientId
  | some child =>
    refine ⟨shaped.child found plain, fun path clientId => ?_⟩
    rw [held_cons, objectGet, found]
    rfl

theorem held_set_cons (fields : Fields) (level : String) (child : Json) (other : String)
    (path : List String) (clientId : String) :
    held (.object (fields.set level child)) (other :: path) clientId =
      if other = level then held child path clientId
      else held (.object fields) (other :: path) clientId := by
  rw [held_cons, objectGet, Fields.get?_set]
  by_cases same : other = level
  · rw [if_pos same, if_pos same, bind_some]
  · rw [if_neg same, if_neg same, held_cons, objectGet]

theorem held_set_nil (fields : Fields) {level : String} (child : Json) (plain : level ≠ subsKey)
    (clientId : String) :
    held (.object (fields.set level child)) [] clientId = held (.object fields) [] clientId := by
  rw [held_nil, held_nil, objectGet, objectGet, Fields.get?_set_ne _ _ plain.symm]

section

variable (shaped : Shaped root) (path : List String) (clean : subsKey ∉ path) (clientId : String)
  (info : SubInfo)
include shaped path clean clientId info

/-- `sub__add` at the path of a filter: the tree stays shaped, and the client holds there what was
added. -/
theorem getOrCreateNode_add :
    ∃ left, getOrCreateNode (addSubscriber clientId info) root path =
        some (if (held root path clientId).isSome then 1 else 0, left) ∧
      Shaped left ∧ ∀ other, subsKey ∉ other → ∀ client, held left other client =
          if other = path ∧ client = clientId then some info.toJson
          else held root other client := by
  induction path generalizing root with
  | nil =>
    obtain ⟨fields, rfl⟩ := shaped.object
    have ⟨subs, dict, known, reads⟩ := subscribers_getD shaped
    refine ⟨.object (Fields.set fields subsKey (.object (Fields.set subs clientId info.toJson))),
      ?_, ?_, ?_⟩
    · rw [getOrCreateNode, addSubscriber, dict, reads]
    · refine shaped_set shaped ?_
      rw [ShapedEntry, if_pos rfl]
      exact isSubscribers_set known clientId info
    · intro other below client
      cases other with
      | nil =>
        rw [held_nil, objectGet, Fields.get?_set_self, bind_some, objectGet, Fields.get?_set, reads]
        by_cases same : client = clientId
        · rw [if_pos same, if_pos ⟨rfl, same⟩]
        · rw [if_neg same, if_neg fun both => same both.2]
      | cons level rest =>
        have apart : level ≠ subsKey := fun same => below (same ▸ mem_cons_self)
        rw [held_set_cons, if_neg apart, if_neg fun both => cons_ne_nil _ _ both.1]
  | cons level rest ih =>
    obtain ⟨fields, rfl⟩ := shaped.object
    rw [mem_cons, not_or] at clean
    have plain : level ≠ subsKey := Ne.symm clean.1
    have ⟨childShaped, childHeld⟩ := child_getD shaped plain
    have ⟨child, made, kept, reads⟩ := ih childShaped clean.2
    refine ⟨.object (Fields.set fields level child), ?_, ?_, ?_⟩
    · rw [getOrCreateNode, made, childHeld]
    · refine shaped_set shaped ?_
      rwa [ShapedEntry, if_neg plain]
    · intro other below client
      cases other with
      | nil =>
        rw [held_set_nil fields child plain, if_neg fun both => cons_ne_nil _ _ both.1.symm]
      | cons first others =>
        rw [mem_cons, not_or] at below
        rw [held_set_cons]
        by_cases same : first = level
        · rw [if_pos same, reads others below.2, childHeld, same]
          by_cases here : others = rest ∧ client = clientId
          · rw [if_pos here, if_pos ⟨by rw [here.1], here.2⟩]
          · rw [if_neg here, if_neg fun both => here ⟨(cons.inj both.1).2, both.2⟩]
        · rw [if_neg same, if_neg fun both => same (cons.inj both.1).1]

theorem treeAdd_held :
    (treeAdd root path clientId info).1 = (if (held root path clientId).isSome then 1 else 0) ∧
      Shaped (treeAdd root path clientId info).2 ∧ ∀ other, subsKey ∉ other → ∀ client,
      held (treeAdd root path clientId info).2 other client =
        if other = path ∧ client = clientId then some info.toJson
        else held root other client := by
  have ⟨left, made, kept, reads⟩ := getOrCreateNode_add shaped path clean clientId info
  unfold treeAdd
  rw [made, getD_some]
  exact ⟨rfl, kept, reads⟩

end

theorem objectGet_del (fields : Fields) (key other : String) :
    objectGet (.object (fields.del key)) other =
      if other = key then none else objectGet (.object fields) other :=
  Fields.get?_del fields key other

/-- A client that left the dict of a node holds nothing there, and nothing else changes. -/
theorem dropSubscriber_held (shaped : Shaped node) (clientId : String) :
    Shaped (dropSubscriber clientId node) ∧ ∀ other, subsKey ∉ other → ∀ client,
      held (dropSubscriber clientId node) other client =
        if other = [] ∧ client = clientId then none else held node other client := by
  obtain ⟨fields, rfl⟩ := shaped.object
  cases found : Fields.get? fields subsKey with
  | none =>
    have left : dropSubscriber clientId (.object fields) = .object fields := by
      simp [dropSubscriber, found]
    rw [left]
    refine ⟨shaped, fun other below client => ?_⟩
    by_cases here : other = [] ∧ client = clientId
    · rw [if_pos here, here.1, held_nil, objectGet, found, bind_none]
    · rw [if_neg here]
  | some dict =>
    have known : IsSubscribers dict := shaped.subscribers found
    obtain ⟨subs, rfl, distinct, infos⟩ := known
    have reads (client : String) : held (.object fields) [] client = subs.get? client := by
      rw [held_nil, objectGet, found]
      rfl
    -- below a level nothing is touched, whatever becomes of the dict
    have below_level (left : Json) (same : ∀ level, level ≠ subsKey →
        objectGet left level = objectGet (.object fields) level) (level : String)
        (rest : List String) (below : subsKey ∉ level :: rest) (client : String) :
        held left (level :: rest) client = held (.object fields) (level :: rest) client := by
      rw [held_cons, held_cons, same level fun is => below (is ▸ mem_cons_self)]
    have dropped : dropSubscriber clientId (.object fields) =
        if objectSize (.object (Fields.del subs clientId)) = 0 then .object (Fields.del fields subsKey)
        else .object (Fields.set fields subsKey (.object (Fields.del subs clientId))) := by
      simp only [dropSubscriber, found, objectDel]
      rfl
    rw [dropped]
    by_cases small : objectSize (.object (subs.del clientId)) = 0
    · rw [if_pos small]
      refine ⟨shaped_del shaped subsKey, fun other below client => ?_⟩
      cases other with
      | nil =>
        rw [held_nil, objectGet_del, if_pos rfl, bind_none]
        by_cases same : client = clientId
        · rw [if_pos ⟨rfl, same⟩]
        · have gone := objectGet_of_size small client
          rw [objectGet_del, if_neg same] at gone
          rw [if_neg fun both => same both.2, reads]
          exact gone.symm
      | cons level rest =>
        rw [if_neg fun both => cons_ne_nil _ _ both.1]
        refine below_level _ (fun level plain => ?_) level rest below client
        rw [objectGet_del, if_neg plain]
    · rw [if_neg small]
      refine ⟨shaped_set shaped ?_, fun other below client => ?_⟩
      · rw [ShapedEntry, if_pos rfl]
        exact isSubscribers_del ⟨subs, rfl, distinct, infos⟩ clientId
      · cases other with
        | nil =>
          rw [held_nil, objectGet, Fields.get?_set_self, bind_some, objectGet_del, reads]
          by_cases same : client = clientId
          · rw [if_pos same, if_pos ⟨rfl, same⟩]
          · rw [if_neg same, if_neg fun both => same both.2]
            rfl
        | cons level rest =>
          rw [if_neg fun both => cons_ne_nil _ _ both.1]
          refine below_level _ (fun level plain => ?_) level rest below client
          rw [objectGet, Fields.get?_set_ne _ _ plain]
          rfl

section

variable (shaped : Shaped root) (path : List String) (clean : subsKey ∉ path)
include shaped path clean

theorem changeNode_drop (clientId : String) :
    Shaped (changeNode (dropSubscriber clientId) root path) ∧ ∀ other, subsKey ∉ other → ∀ client,
      held (changeNode (dropSubscriber clientId) root path) other client =
        if other = path ∧ client = clientId then none else held root other client := by
  induction path generalizing root with
  | nil => exact dropSubscriber_held shaped clientId
  | cons level rest ih =>
    obtain ⟨fields, rfl⟩ := shaped.object
    rw [mem_cons, not_or] at clean
    have plain : level ≠ subsKey := Ne.symm clean.1
    unfold changeNode
    cases found : Fields.get? fields level with
    | none =>
      refine ⟨shaped, fun other below client => ?_⟩
      by_cases here : other = level :: rest ∧ client = clientId
      · rw [if_pos here, here.1, held_cons, objectGet, found]
        rfl
      · rw [if_neg here]
    | some child =>
      have ⟨kept, reads⟩ := ih (shaped.child found plain) clean.2
      refine ⟨shaped_set shaped (by rwa [ShapedEntry, if_neg plain]), fun other below client => ?_⟩
      cases other with
      | nil =>
        rw [held_set_nil fields _ plain, if_neg fun both => cons_ne_nil _ _ both.1.symm]
      | cons first others =>
        rw [mem_cons, not_or] at below
        rw [held_set_cons]
        by_cases same : first = level
        · have old : held (.object fields) (first :: others) client = held child others client := by
            rw [same, held_cons, objectGet, found]
            rfl
          rw [if_pos same, reads others below.2, old]
          by_cases here : others = rest ∧ client = clientId
          · rw [if_pos here, if_pos ⟨by rw [same, here.1], here.2⟩]
          · rw [if_neg here, if_neg fun both => here ⟨(cons.inj both.1).2, both.2⟩]
        · rw [if_neg same, if_neg fun both => same (cons.inj both.1).1]

theorem pruneEmptyBranches_held :
    Shaped (pruneEmptyBranches root path).1 ∧ ∀ other, subsKey ∉ other → ∀ client,
      held (pruneEmptyBranches root path).1 other client = held root other client := by
  induction path generalizing root with
  | nil =>
    exact ⟨shaped, fun _ _ _ => rfl⟩
  | cons level rest ih =>
    obtain ⟨fields, rfl⟩ := shaped.object
    rw [mem_cons, not_or] at clean
    have plain : level ≠ subsKey := Ne.symm clean.1
    unfold pruneEmptyBranches
    cases found : Fields.get? fields level with
    | none => exact ⟨shaped, fun _ _ _ => rfl⟩
    | some child =>
      have ⟨kept, reads⟩ := ih (shaped.child found plain) clean.2
      have old (others : List String) (client : String) :
          held (.object fields) (level :: others) client = held child others client := by
        rw [held_cons, objectGet, found]
        rfl
      dsimp only
      have stays : Shaped (.object (Fields.set fields level (pruneEmptyBranches child rest).1)) ∧
          ∀ other, subsKey ∉ other → ∀ client,
            held (.object (Fields.set fields level (pruneEmptyBranches child rest).1)) other client =
              held (.object fields) other client := by
        refine ⟨shaped_set shaped (by rwa [ShapedEntry, if_neg plain]), fun other below client => ?_⟩
        cases other with
        | nil => exact held_set_nil fields _ plain client
        | cons first others =>
          rw [mem_cons, not_or] at below
          rw [held_set_cons]
          by_cases same : first = level
          · rw [if_pos same, reads others below.2, same, old]
          · rw [if_neg same]
      cases pruned : pruneEmptyBranches child rest with
      | mk left more =>
        rw [pruned] at kept reads stays
        cases more with
        | false => exact stays
        | true =>
          dsimp only
          by_cases empty : emptyNode left = true
          · rw [if_pos empty]
            refine ⟨shaped_del shaped level, fun other below client => ?_⟩
            cases other with
            | nil =>
              rw [held_nil, held_nil, objectGet_del, if_neg plain.symm]
            | cons first others =>
              rw [mem_cons, not_or] at below
              rw [held_cons, objectGet_del]
              by_cases same : first = level
              · rw [if_pos same, bind_none, same, old, ← reads others below.2]
                exact (held_emptyNode kept empty others below.2 client).symm
              · rw [if_neg same, held_cons]
          · rw [if_neg empty]
            exact stays

theorem treeRemove_held (clientId : String) :
    (treeRemove root path clientId).1 = (held root path clientId).isSome ∧
      Shaped (treeRemove root path clientId).2 ∧ ∀ other, subsKey ∉ other → ∀ client,
      held (treeRemove root path clientId).2 other client =
        if other = path ∧ client = clientId then none else held root other client := by
  have removed : treeRemove root path clientId =
      (held root path clientId).elim (false, root) fun _ =>
        (true, (pruneEmptyBranches (changeNode (dropSubscriber clientId) root path) path).1) := by
    unfold treeRemove held
    split
    · rename_i absent
      rw [absent, elim_none]
    · rename_i present
      rw [present, elim_some]
  rw [removed]
  cases found : held root path clientId with
  | none =>
    refine ⟨rfl, shaped, fun other below client => ?_⟩
    by_cases here : other = path ∧ client = clientId
    · rw [if_pos here, here.1, here.2]
      exact found
    · rw [if_neg here, elim_none]
  | some info =>
    have ⟨changed, reads⟩ := changeNode_drop shaped path clean clientId
    have ⟨pruned, same⟩ := pruneEmptyBranches_held changed path clean
    refine ⟨rfl, pruned, fun other below client => ?_⟩
    exact (same other below client).trans (reads other below client)

end

/-- What becomes of an entry when a client is removed; nothing when it goes. -/
def cleanedEntry (clientId key : String) (value : Json) : Option Json :=
  if key = subsKey then
    match objectGet value clientId with
    | none => some value
    | some _ =>
      if objectSize (objectDel value clientId) = 0 then none else some (objectDel value clientId)
  else if emptyNode (removeClientRecursive clientId value).1 then none
  else some (removeClientRecursive clientId value).1

theorem removeClientEntries_cons (clientId key : String) (value : Json)
    (rest : List (String × Json)) :
    (removeClientEntries clientId ((key, value) :: rest)).1 =
      ((cleanedEntry clientId key value).map (key, ·)).toList ++
        (removeClientEntries clientId rest).1 := by
  unfold cleanedEntry
  rw [removeClientEntries]
  by_cases subs : key = subsKey
  · simp only [if_pos subs]
    cases objectGet value clientId with
    | none => rfl
    | some info =>
      dsimp only
      split <;> rfl
  · simp only [if_neg subs]
    split <;> rfl

theorem removeClientEntries_keys (clientId : String) (entries : List (String × Json)) :
    ((removeClientEntries clientId entries).1.map Prod.fst).Sublist (entries.map Prod.fst) := by
  induction entries with
  | nil => exact List.Sublist.slnil
  | cons entry rest ih =>
    rw [removeClientEntries_cons, map_append, map_cons]
    cases cleanedEntry clientId entry.1 entry.2 with
    | none => exact ih.trans (sublist_cons_self _ _)
    | some value => exact ih.cons_cons entry.1

theorem get?_removeClientEntries (clientId : String) {entries : List (String × Json)}
    (distinct : (entries.map Prod.fst).Nodup) (key : String) :
    Fields.get? (removeClientEntries clientId entries).1 key =
      (Fields.get? entries key).bind (cleanedEntry clientId key) := by
  induction entries with
  | nil => rfl
  | cons entry rest ih =>
    rw [map_cons, nodup_cons] at distinct
    rw [removeClientEntries_cons]
    unfold Fields.get? at ih ⊢
    by_cases here : entry.1 = key
    · have later : Dict.lookupEntries key (removeClientEntries clientId rest).1 = none := by
        rw [ih distinct.2]
        cases found : Dict.lookupEntries key rest with
        | none => rfl
        | some value =>
          have among := mem_map_of_mem (f := Prod.fst) (mem_of_lookupEntries found)
          exact absurd (here ▸ among) distinct.1
      rw [Dict.lookupEntries, if_pos here, bind_some, ← here] at *
      cases cleanedEntry clientId entry.1 entry.2 with
      | none => exact later
      | some value =>
        rw [map_some, toList_some, singleton_append, Dict.lookupEntries, if_pos rfl]
    · rw [Dict.lookupEntries, if_neg here, ← ih distinct.2]
      cases cleanedEntry clientId entry.1 entry.2 with
      | none => rfl
      | some value =>
        rw [map_some, toList_some, singleton_append, Dict.lookupEntries, if_neg here]

mutual

theorem removeClientRecursive_shaped (clientId : String) :
    ∀ node : Json, Shaped node → Shaped (removeClientRecursive clientId node).1
  | .object entries, shaped => by
    rw [removeClientRecursive, Shaped]
    rw [Shaped] at shaped
    exact ⟨shaped.1.sublist (removeClientEntries_keys clientId entries),
      removeClientEntries_shaped clientId entries shaped.2⟩
  | .null, shaped => absurd shaped (by simp [Shaped])
  | .boolean _, shaped => absurd shaped (by simp [Shaped])
  | .integer _, shaped => absurd shaped (by simp [Shaped])
  | .real _, shaped => absurd shaped (by simp [Shaped])
  | .string _, shaped => absurd shaped (by simp [Shaped])
  | .array _, shaped => absurd shaped (by simp [Shaped])

theorem removeClientEntries_shaped (clientId : String) :
    ∀ entries : List (String × Json), ShapedEntries entries →
      ShapedEntries (removeClientEntries clientId entries).1
  | [], _ => by
    rw [removeClientEntries]
    trivial
  | (key, value) :: rest, shaped => by
    rw [ShapedEntries] at shaped
    have later := removeClientEntries_shaped clientId rest shaped.2
    rw [removeClientEntries_cons]
    unfold cleanedEntry
    by_cases subs : key = subsKey
    · have dict : IsSubscribers value := by
        have known := shaped.1
        rwa [if_pos subs] at known
      rw [if_pos subs]
      obtain ⟨fields, rfl, known⟩ := dict
      have fewer : IsSubscribers (objectDel (.object fields) clientId) :=
        isSubscribers_del ⟨fields, rfl, known⟩ clientId
      cases objectGet (.object fields) clientId with
      | none =>
        exact ⟨shaped.1, later⟩
      | some info =>
        by_cases small : objectSize (objectDel (.object fields) clientId) = 0
        · rw [if_pos small]
          exact later
        · rw [if_neg small]
          refine ⟨?_, later⟩
          rw [if_pos subs]
          exact fewer
    · have child : Shaped value := by
        have known := shaped.1
        rwa [if_neg subs] at known
      have cleaned := removeClientRecursive_shaped clientId value child
      rw [if_neg subs]
      by_cases empty : emptyNode (removeClientRecursive clientId value).1 = true
      · rw [if_pos empty]
        exact later
      · rw [if_neg empty]
        refine ⟨?_, later⟩
        rw [if_neg subs]
        exact cleaned

end

theorem removeClientRecursive_held (clientId : String) (shaped : Shaped node)
    (path : List String) (clean : subsKey ∉ path) (client : String) :
    held (removeClientRecursive clientId node).1 path client =
      if client = clientId then none else held node path client := by
  induction path generalizing node with
  | nil =>
    obtain ⟨entries, rfl⟩ := shaped.object
    have distinct := ((shaped_object entries).1 shaped).1
    rw [removeClientRecursive, held_nil, held_nil, objectGet, objectGet,
      get?_removeClientEntries clientId distinct]
    cases found : Fields.get? entries subsKey with
    | none => simp
    | some dict =>
      have known : IsSubscribers dict := shaped.subscribers found
      obtain ⟨subs, rfl, -⟩ := known
      rw [bind_some, bind_some, cleanedEntry, if_pos rfl]
      cases present : objectGet (.object subs) clientId with
      | none =>
        rw [bind_some]
        by_cases same : client = clientId
        · rw [if_pos same, same, present]
        · rw [if_neg same]
      | some info =>
        have left : objectGet (objectDel (.object subs) clientId) client =
            if client = clientId then none else objectGet (.object subs) client := by
          rw [objectDel, objectGet_del]
        by_cases small : objectSize (objectDel (.object subs) clientId) = 0
        · rw [if_pos small, bind_none, ← left, objectGet_of_size small]
        · rw [if_neg small, bind_some, left]
  | cons level rest ih =>
    obtain ⟨entries, rfl⟩ := shaped.object
    have distinct := ((shaped_object entries).1 shaped).1
    rw [mem_cons, not_or] at clean
    have plain : level ≠ subsKey := Ne.symm clean.1
    rw [removeClientRecursive, held_cons, held_cons, objectGet, objectGet,
      get?_removeClientEntries clientId distinct]
    cases found : Fields.get? entries level with
    | none => simp
    | some child =>
      have childShaped : Shaped child := shaped.child found plain
      have below := ih childShaped clean.2
      rw [bind_some, bind_some, cleanedEntry, if_neg plain, ← below]
      by_cases empty : emptyNode (removeClientRecursive clientId child).1 = true
      · rw [if_pos empty, bind_none]
        exact (held_emptyNode (removeClientRecursive_shaped clientId child childShaped) empty rest
          clean.2 client).symm
      · rw [if_neg empty, bind_some]

end Yunetas.Mqtt
