import Yunetas.Mqtt.Held
import Yunetas.Mqtt.Publish
import Yunetas.Lib.Run

/-!
# No dead branches

A tree is trimmed when no node below its root is empty and no subscriber dict is: then every leaf has
subscribers. Adding, removing and the removal of a client keep the two trees trimmed, and on trimmed
trees a removal undoes the addition of a subscription that was not there.
-/

namespace Yunetas.Mqtt

open List Option Dict

open Json

/-- Below the root no node is empty, and no subscriber dict is. -/
def Trimmed (root : Json) : Prop :=
  ∀ path, subsKey ∉ path → ∀ node, getNode root path = some node →
    (path ≠ [] → emptyNode node = false) ∧
      ∀ subs, objectGet node subsKey = some subs → objectSize subs ≠ 0

/-- What an entry of a trimmed node is. -/
def TrimmedEntry (key : String) (value : Json) : Prop :=
  if key = subsKey then objectSize value ≠ 0 else emptyNode value = false ∧ Trimmed value

/-- Every leaf below the root has a subscriber. -/
def LeavesSubscribed (root : Json) : Prop :=
  ∀ path, path ≠ [] → subsKey ∉ path → ∀ node, getNode root path = some node →
    (∀ level, level ≠ subsKey → objectGet node level = none) →
    ∃ subs, objectGet node subsKey = some subs ∧ objectSize subs ≠ 0

variable {node value root left : Json} {fields : Fields} {key clientId : String}
  {path : List String} {info : SubInfo}

theorem del_set (fields : Fields) (key : String) (value : Json) :
    (fields.set key value).del key = fields.del key := by
  induction fields with
  | nil => simp [Fields.set, Fields.del, Dict.setEntries]
  | cons entry rest ih =>
    unfold Fields.set Fields.del at ih ⊢
    by_cases here : entry.1 = key
    · simp [Dict.setEntries, here]
    · simp only [Dict.setEntries, if_neg here, filter_cons, ih]

theorem del_absent (absent : fields.get? key = none) : fields.del key = fields := by
  refine filter_eq_self.2 fun entry among => decide_eq_true fun same => ?_
  have there := (lookupEntries_isSome key fields).2 (same ▸ mem_map_of_mem among)
  rw [Fields.get?] at absent
  simp [absent] at there

theorem set_back (found : fields.get? key = some value) (other : Json) :
    (fields.set key other).set key value = fields := by
  unfold Fields.set
  rw [setEntries_twice, setEntries_same key value fields found]

theorem trimmed_iff : Trimmed node ↔
    ∀ key value, objectGet node key = some value → TrimmedEntry key value := by
  constructor
  · intro trimmed key value found
    unfold TrimmedEntry
    split
    · rename_i same
      exact (trimmed [] not_mem_nil node rfl).2 value (same ▸ found)
    · rename_i plain
      have walk (rest : List String) : getNode node (key :: rest) = getNode value rest := by
        rw [getNode, found, bind_some]
      have clean {rest : List String} (below : subsKey ∉ rest) : subsKey ∉ key :: rest := by
        simp [below, Ne.symm plain]
      constructor
      · exact (trimmed [key] (clean not_mem_nil) value (walk [])).1 (cons_ne_nil _ _)
      · intro rest below other reached
        have here := trimmed (key :: rest) (clean below) other ((walk rest).trans reached)
        exact ⟨fun _ => here.1 (cons_ne_nil _ _), here.2⟩
  · intro entries path clean other reached
    cases path with
    | nil =>
      cases reached
      refine ⟨fun long => absurd rfl long, fun subs found => ?_⟩
      have entry := entries subsKey subs found
      rwa [TrimmedEntry, if_pos rfl] at entry
    | cons level rest =>
      rw [mem_cons, not_or] at clean
      rw [getNode] at reached
      cases found : objectGet node level with
      | none => simp [found] at reached
      | some child =>
        rw [found, bind_some] at reached
        have entry := entries level child found
        rw [TrimmedEntry, if_neg (Ne.symm clean.1)] at entry
        have below := entry.2 rest clean.2 other reached
        refine ⟨fun _ => ?_, below.2⟩
        cases rest with
        | nil =>
          cases reached
          exact entry.1
        | cons => exact below.1 (cons_ne_nil _ _)

theorem trimmed_empty : Trimmed (.object []) :=
  trimmed_iff.2 fun _ _ found => nomatch found

theorem trimmed_set (trimmed : Trimmed (.object fields)) (entry : TrimmedEntry key value) :
    Trimmed (.object (fields.set key value)) := by
  rw [trimmed_iff] at trimmed ⊢
  intro other old found
  rw [objectGet, Fields.get?_set] at found
  split at found
  · rename_i same
    rwa [same, ← some.inj found]
  · exact trimmed other old found

theorem trimmed_del (trimmed : Trimmed (.object fields)) (key : String) :
    Trimmed (.object (fields.del key)) := by
  rw [trimmed_iff] at trimmed ⊢
  intro other value found
  rw [objectGet_del] at found
  split at found
  · cases found
  · exact trimmed other value found

theorem Trimmed.child (trimmed : Trimmed node) (found : objectGet node key = some value)
    (plain : key ≠ subsKey) : emptyNode value = false ∧ Trimmed value := by
  have entry := trimmed_iff.1 trimmed key value found
  rwa [TrimmedEntry, if_neg plain] at entry

theorem objectSize_set (fields : Fields) (key : String) (value : Json) :
    objectSize (.object (fields.set key value)) ≠ 0 := by
  intro small
  have gone := objectGet_of_size small key
  rw [objectGet, Fields.get?_set_self] at gone
  cases gone

theorem emptyNode_parent (found : objectGet node key = some value) (plain : key ≠ subsKey) :
    emptyNode node = false := by
  cases node with
  | object fields =>
    have first := mem_of_lookupEntries found
    cases present : objectGet (.object fields) subsKey with
    | none =>
      simp [emptyNode, present, objectSize, objectEntries]
      exact ne_nil_of_mem first
    | some subs =>
      have second := mem_of_lookupEntries present
      -- two keys, so two entries
      have two : 2 ≤ fields.length := by
        rcases fields with _ | ⟨entry, _ | ⟨other, more⟩⟩
        · cases first
        · rw [mem_singleton] at first second
          exact absurd (congrArg Prod.fst (first.trans second.symm)) plain
        · simp
      simp [emptyNode, present, objectSize, objectEntries]
      omega
  | _ => cases found

theorem emptyNode_subscribed (found : objectGet node subsKey = some value)
    (full : objectSize value ≠ 0) : emptyNode node = false := by
  simp [emptyNode, found, full]

theorem Trimmed.leaves (trimmed : Trimmed root) : LeavesSubscribed root := by
  intro path long clean node reached leaf
  have ⟨full, dict⟩ := trimmed path clean node reached
  cases found : objectGet node subsKey with
  | some subs => exact ⟨subs, rfl, dict subs found⟩
  | none =>
    have large : objectSize node ≠ 0 := by simpa [emptyNode, found] using full long
    -- an object with an entry has a key, and a leaf has none
    match node, large with
    | .object (entry :: rest), _ =>
      have there : objectGet (.object (entry :: rest)) entry.1 = some entry.2 := by
        simp [objectGet, Fields.get?, Dict.lookupEntries]
      by_cases same : entry.1 = subsKey
      · rw [same, found] at there
        cases there
      · rw [leaf entry.1 same] at there
        cases there

theorem addSubscriber_some {answer : Int}
    (added : addSubscriber clientId info node = some (answer, left)) :
    ∃ fields subs : Fields, node = .object fields ∧
      (Fields.get? fields subsKey).getD (.object []) = .object subs ∧
      left = .object (fields.set subsKey (.object (Fields.set subs clientId info.toJson))) := by
  unfold addSubscriber at added
  split at added
  · split at added
    · rename_i fields _ subs dict
      cases added
      exact ⟨fields, subs, rfl, dict, rfl⟩
    · cases added
  · cases added

theorem getOrCreateNode_cons {α : Type} {change : Json → Option (α × Json)} {answer : α}
    {level : String} (made : getOrCreateNode change root (level :: path) = some (answer, left)) :
    ∃ (fields : Fields) (child : Json), root = .object fields ∧
      left = .object (fields.set level child) ∧
      getOrCreateNode change ((Fields.get? fields level).getD (.object [])) path =
        some (answer, child) := by
  cases root with
  | object fields =>
    unfold getOrCreateNode at made
    split at made
    · cases made
    · rename_i _ child below
      cases made
      exact ⟨fields, child, rfl, rfl, below⟩
  | _ => cases made

theorem getOrCreateNode_trimmed (trimmed : Trimmed root) (clean : subsKey ∉ path) {answer : Int}
    (made : getOrCreateNode (addSubscriber clientId info) root path = some (answer, left)) :
    Trimmed left ∧ emptyNode left = false := by
  induction path generalizing root left with
  | nil =>
    have ⟨fields, subs, same, _, added⟩ := addSubscriber_some made
    subst same added
    have full := objectSize_set subs clientId info.toJson
    exact ⟨trimmed_set trimmed (by rwa [TrimmedEntry, if_pos rfl]),
      emptyNode_subscribed (Fields.get?_set_self fields subsKey _) full⟩
  | cons level rest ih =>
    rw [mem_cons, not_or] at clean
    have plain : level ≠ subsKey := Ne.symm clean.1
    have ⟨fields, child, same, added, below⟩ := getOrCreateNode_cons made
    subst same added
    have old : Trimmed ((Fields.get? fields level).getD (.object [])) := by
      cases found : Fields.get? fields level with
      | none => exact trimmed_empty
      | some child => exact (trimmed.child found plain).2
    have ⟨deep, full⟩ := ih old clean.2 below
    exact ⟨trimmed_set trimmed (by rw [TrimmedEntry, if_neg plain]; exact ⟨full, deep⟩),
      emptyNode_parent (Fields.get?_set_self fields level child) plain⟩

theorem dropSubscriber_trimmed (trimmed : Trimmed node) (clientId : String) :
    Trimmed (dropSubscriber clientId node) := by
  unfold dropSubscriber
  split
  · split
    · exact trimmed
    · dsimp only
      split
      · exact trimmed_del trimmed subsKey
      · exact trimmed_set trimmed (by rwa [TrimmedEntry, if_pos rfl])
  · exact trimmed

theorem changeNode_cons {change : Json → Json} {level : String}
    (found : fields.get? level = some value) :
    changeNode change (.object fields) (level :: path) =
      .object (fields.set level (changeNode change value path)) := by
  simp [changeNode, found]

theorem pruneEmptyBranches_set (fields : Fields) (level : String) (value : Json)
    (rest : List String) :
    pruneEmptyBranches (.object (fields.set level value)) (level :: rest) =
      if (pruneEmptyBranches value rest).2 ∧ emptyNode (pruneEmptyBranches value rest).1 then
        (.object (fields.del level), true)
      else (.object (fields.set level (pruneEmptyBranches value rest).1), false) := by
  have twice (other : Json) : Fields.set (Fields.set fields level value) level other =
      Fields.set fields level other := setEntries_twice _ _ _ _
  conv_lhs => unfold pruneEmptyBranches
  simp only [Fields.get?_set_self]
  cases pruneEmptyBranches value rest with
  | mk below more =>
    cases more with
    | false => simp [twice]
    | true => simp [twice, del_set]

/-- Pruning behind a subscriber that left keeps the tree trimmed: the nodes that the subscriber may
have left empty are all on its path. -/
theorem prune_trimmed (trimmed : Trimmed root) (clean : subsKey ∉ path)
    (present : (getNode root path).isSome) :
    let pruned := pruneEmptyBranches (changeNode (dropSubscriber clientId) root path) path
    Trimmed pruned.1 ∧ (pruned.2 = false → emptyNode pruned.1 = false) := by
  induction path generalizing root with
  | nil => exact ⟨dropSubscriber_trimmed trimmed clientId, fun more => by cases more⟩
  | cons level rest ih =>
    rw [mem_cons, not_or] at clean
    have plain : level ≠ subsKey := Ne.symm clean.1
    cases root with
    | object fields =>
      cases found : Fields.get? fields level with
      | none => simp [getNode, objectGet, found] at present
      | some child =>
        have reached : (getNode child rest).isSome := by
          simpa [getNode, objectGet, found] using present
        obtain ⟨below, full⟩ := ih (trimmed.child found plain).2 clean.2 reached
        rw [changeNode_cons found, pruneEmptyBranches_set]
        split
        · exact ⟨trimmed_del trimmed level, fun more => by cases more⟩
        · rename_i stays
          have nonempty : emptyNode (pruneEmptyBranches
              (changeNode (dropSubscriber clientId) child rest) rest).1 = false := by
            rw [not_and, Bool.not_eq_true] at stays
            cases more : (pruneEmptyBranches
                (changeNode (dropSubscriber clientId) child rest) rest).2 with
            | false => exact full more
            | true => exact stays more
          exact ⟨trimmed_set trimmed (by rw [TrimmedEntry, if_neg plain]; exact ⟨nonempty, below⟩),
            fun _ => emptyNode_parent (Fields.get?_set_self fields level _) plain⟩
    | _ => cases present

theorem prune_added (trimmed : Trimmed root) (clean : subsKey ∉ path)
    (absent : held root path clientId = none) {answer : Int}
    (made : getOrCreateNode (addSubscriber clientId info) root path = some (answer, left)) :
    (pruneEmptyBranches (changeNode (dropSubscriber clientId) left path) path).1 = root ∧
      (root = .object [] →
        (pruneEmptyBranches (changeNode (dropSubscriber clientId) left path) path).2) := by
  induction path generalizing root left with
  | nil =>
    refine ⟨?_, fun _ => by simp [pruneEmptyBranches]⟩
    obtain ⟨fields, subs, same, dict, added⟩ := addSubscriber_some made
    subst same added
    simp only [changeNode, pruneEmptyBranches, dropSubscriber, Fields.get?_set_self, objectDel,
      del_set]
    cases found : Fields.get? fields subsKey with
    | none =>
      rw [found] at dict
      cases dict
      rw [del_absent found]
      rfl
    | some old =>
      rw [found] at dict
      cases dict
      have gone : Fields.get? subs clientId = none := by
        simpa [objectGet, found] using absent
      have entry := trimmed_iff.1 trimmed subsKey (.object subs) found
      rw [TrimmedEntry, if_pos rfl] at entry
      rw [del_absent gone, if_neg entry, set_back found]
  | cons level rest ih =>
    rw [mem_cons, not_or] at clean
    have plain : level ≠ subsKey := Ne.symm clean.1
    obtain ⟨fields, child, same, added, below⟩ := getOrCreateNode_cons made
    subst same added
    have twice (other : Json) : Fields.set (Fields.set fields level child) level other =
        Fields.set fields level other := setEntries_twice _ _ _ _
    rw [changeNode_cons (Fields.get?_set_self fields level child), twice, pruneEmptyBranches_set]
    cases found : Fields.get? fields level with
    | none =>
      rw [found] at below
      obtain ⟨back, more⟩ := ih trimmed_empty clean.2 (held_empty rest clientId) below
      rw [if_pos ⟨more rfl, by rw [back]; rfl⟩, del_absent found]
      exact ⟨rfl, fun _ => rfl⟩
    | some old =>
      rw [found] at below
      rw [held_cons, objectGet, found, bind_some] at absent
      obtain ⟨full, deep⟩ := trimmed.child found plain
      obtain ⟨back, _⟩ := ih deep clean.2 absent below
      have stays : Fields.set fields level old = fields := setEntries_same _ _ _ found
      rw [back, full, if_neg (by simp), stays]
      refine ⟨rfl, fun nothing => ?_⟩
      cases nothing
      cases found

theorem cleanedEntry_trimmed {cleaned : Json} (entry : TrimmedEntry key value)
    (stays : cleanedEntry clientId key value = some cleaned) :
    if key = subsKey then objectSize cleaned ≠ 0
    else emptyNode cleaned = false ∧ cleaned = (removeClientRecursive clientId value).1 := by
  unfold TrimmedEntry at entry
  unfold cleanedEntry at stays
  split
  · rename_i same
    rw [if_pos same] at entry stays
    split at stays
    · cases stays
      exact entry
    · split at stays
      · cases stays
      · rename_i full
        cases stays
        exact full
  · rename_i plain
    rw [if_neg plain] at stays
    split at stays
    · cases stays
    · rename_i full
      cases stays
      exact ⟨by simpa using full, rfl⟩

theorem cleaned_of_get (shaped : Shaped root) {cleaned : Json}
    (found : objectGet (removeClientRecursive clientId root).1 key = some cleaned) :
    ∃ value, objectGet root key = some value ∧ cleanedEntry clientId key value = some cleaned := by
  have ⟨entries, same⟩ := shaped.object
  subst same
  have distinct := ((shaped_object entries).1 shaped).1
  rw [removeClientRecursive, objectGet, get?_removeClientEntries clientId distinct] at found
  exact bind_eq_some_iff.1 found

theorem removeClientRecursive_trimmed (clientId : String) (shaped : Shaped root)
    (trimmed : Trimmed root) : Trimmed (removeClientRecursive clientId root).1 := by
  intro path
  induction path generalizing root with
  | nil =>
    intro _ node reached
    refine ⟨fun long => absurd rfl long, fun subs found => ?_⟩
    cases reached
    obtain ⟨value, old, stays⟩ := cleaned_of_get shaped found
    have kept := cleanedEntry_trimmed (trimmed_iff.1 trimmed _ _ old) stays
    rwa [if_pos rfl] at kept
  | cons level rest ih =>
    intro clean node reached
    rw [mem_cons, not_or] at clean
    have plain : level ≠ subsKey := Ne.symm clean.1
    rw [getNode] at reached
    obtain ⟨cleaned, found, below⟩ := bind_eq_some_iff.1 reached
    obtain ⟨value, old, stays⟩ := cleaned_of_get shaped found
    have kept := cleanedEntry_trimmed (trimmed_iff.1 trimmed _ _ old) stays
    rw [if_neg plain] at kept
    have deep := ih (shaped.child old plain) (trimmed.child old plain).2 clean.2 node
      (kept.2 ▸ below)
    refine ⟨fun _ => ?_, deep.2⟩
    cases rest with
    | nil =>
      cases below
      exact kept.1
    | cons => exact deep.1 (cons_ne_nil _ _)

/-- A tree of the broker: shaped and trimmed. -/
structure Tended (root : Json) : Prop where
  shaped : Shaped root
  trimmed : Trimmed root

theorem tended_empty : Tended (.object []) := ⟨shaped_empty, trimmed_empty⟩

theorem Tended.add (tended : Tended root) (clean : subsKey ∉ path) (clientId : String)
    (info : SubInfo) : Tended (treeAdd root path clientId info).2 := by
  have ⟨left, made, shaped, _⟩ := getOrCreateNode_add tended.shaped path clean clientId info
  have kept := getOrCreateNode_trimmed tended.trimmed clean made
  rw [treeAdd, made]
  exact ⟨shaped, kept.1⟩

theorem Tended.remove (tended : Tended root) (clean : subsKey ∉ path) (clientId : String) :
    Tended (treeRemove root path clientId).2 := by
  refine ⟨(treeRemove_held tended.shaped path clean clientId).2.1, ?_⟩
  unfold treeRemove
  split
  · exact tended.trimmed
  · rename_i present
    have reached : (getNode root path).isSome := by
      cases walked : getNode root path with
      | none => simp [walked] at present
      | some => rfl
    exact (prune_trimmed tended.trimmed clean reached).1

theorem Tended.removeClient (tended : Tended root) (clientId : String) :
    Tended (removeClientRecursive clientId root).1 :=
  ⟨removeClientRecursive_shaped clientId root tended.shaped,
    removeClientRecursive_trimmed clientId tended.shaped tended.trimmed⟩

theorem treeRemove_absent (absent : held root path clientId = none) :
    treeRemove root path clientId = (false, root) := by
  unfold held at absent
  simp [treeRemove, absent]

theorem Tended.undone (tended : Tended root) (clean : subsKey ∉ path)
    (absent : held root path clientId = none) (info : SubInfo) :
    (treeRemove (treeAdd root path clientId info).2 path clientId).2 = root := by
  have ⟨left, made, _, reads⟩ := getOrCreateNode_add tended.shaped path clean clientId info
  have present : held left path clientId = some info.toJson := by
    rw [reads path clean, if_pos ⟨rfl, rfl⟩]
  unfold held at present
  simp only [treeAdd, made, getD_some, treeRemove, present]
  exact (prune_added tended.trimmed clean absent made).1

/-- The tree of a topic filter, by whether it names a share group. -/
def Subs.tree (subs : Subs) : Option String → Json
  | none => subs.normalSubs
  | some _ => subs.sharedSubs

/-- The subscription of a client at the node that the levels of a filter lead to. -/
def Subs.subscription (subs : Subs) (topic clientId : String) : Option Json :=
  (topicTokenize topic).bind fun read => held (subs.tree read.2) (nodePath read.1) clientId

/-- No level of the filter is `SUBS_KEY`. -/
def KeyFree (topic : String) : Prop :=
  ∀ read, topicTokenize topic = some read → subsKey ∉ nodePath read.1

instance (topic : String) : Decidable (KeyFree topic) :=
  inferInstanceAs (Decidable (∀ read ∈ topicTokenize topic, subsKey ∉ nodePath read.1))

/-- The calls that change the trees. -/
inductive SubsCall
  | add (topic clientId : String) (info : SubInfo)
  | remove (topic clientId : String)
  | removeClient (clientId : String)

/-- The filter of the call is free of the reserved key. -/
def SubsCall.KeyFree : SubsCall → Prop
  | .add topic _ _ => Mqtt.KeyFree topic
  | .remove topic _ => Mqtt.KeyFree topic
  | .removeClient _ => True

/-- The trees behind a call. -/
def Subs.step (subs : Subs) : SubsCall → Subs
  | .add topic clientId info => (subAdd subs topic clientId info).2
  | .remove topic clientId => (subRemove subs topic clientId).2.2
  | .removeClient clientId => (subRemoveClient subs clientId).2

/-- No dead branch, and removal undoes addition. -/
structure Pruned (subs : Subs) : Prop where
  leaves : ∀ share, LeavesSubscribed (subs.tree share)
  undone : ∀ topic clientId info, KeyFree topic → subs.subscription topic clientId = none →
    (subRemove (subAdd subs topic clientId info).2 topic clientId).2.2 = subs
  absent : ∀ topic clientId, subs.subscription topic clientId = none →
    subRemove subs topic clientId =
      if (topicTokenize topic).isSome then (0, mqttRcNoSubscriptionExisted, subs) else (-1, 0, subs)
  left : ∀ gone share path clientId, subsKey ∉ path →
    held ((subRemoveClient subs gone).2.tree share) path clientId =
      if clientId = gone then none else held (subs.tree share) path clientId

/-- Both trees are tended. -/
def TendedSubs (subs : Subs) : Prop := ∀ share, Tended (subs.tree share)

variable {subs : Subs}

theorem TendedSubs.step (tended : TendedSubs subs) (call : SubsCall) (free : call.KeyFree) :
    TendedSubs (subs.step call) := by
  cases call with
  | add topic clientId info =>
    show TendedSubs (subAdd subs topic clientId info).2
    unfold subAdd
    split
    · exact tended
    · rename_i levels read
      intro share
      cases share with
      | none => exact (tended none).add (free _ read) clientId info
      | some group => exact tended (some group)
    · rename_i levels group read
      intro share
      cases share with
      | none => exact tended none
      | some => exact (tended (some group)).add (free _ read) clientId info
  | remove topic clientId =>
    show TendedSubs (subRemove subs topic clientId).2.2
    unfold subRemove
    split
    · exact tended
    · rename_i levels read
      intro share
      cases share with
      | none => exact (tended none).remove (free _ read) clientId
      | some group => exact tended (some group)
    · rename_i levels group read
      intro share
      cases share with
      | none => exact tended none
      | some => exact (tended (some group)).remove (free _ read) clientId
  | removeClient clientId =>
    intro share
    cases share with
    | none => exact (tended none).removeClient clientId
    | some group => exact (tended (some group)).removeClient clientId

theorem TendedSubs.pruned (tended : TendedSubs subs) : Pruned subs where
  leaves share := (tended share).trimmed.leaves
  undone topic clientId info free absent := by
    unfold Subs.subscription at absent
    unfold subRemove subAdd
    cases read : topicTokenize topic with
    | none => rfl
    | some parts =>
      rw [read, bind_some] at absent
      have back := (tended parts.2).undone (free parts read) absent info
      match parts, back with
      | (levels, none), back => exact congrArg (fun tree => { subs with normalSubs := tree }) back
      | (levels, some _), back => exact congrArg (fun tree => { subs with sharedSubs := tree }) back
  absent topic clientId absent := by
    unfold Subs.subscription at absent
    unfold subRemove
    cases read : topicTokenize topic with
    | none => rfl
    | some parts =>
      rw [read, bind_some] at absent
      have same := treeRemove_absent absent
      match parts, same with
      | (levels, none), same =>
        rw [Subs.tree] at same
        simp [same]
      | (levels, some _), same =>
        rw [Subs.tree] at same
        simp [same]
  left gone share path clientId clean := by
    have removed := removeClientRecursive_held gone (tended share).shaped path clean clientId
    cases share <;> exact removed

/-- In every state of a run from the empty trees, every leaf has a subscriber, a removal undoes the
addition of what was not there and reports what it does not find, and the removal of a client takes
away what the client held and nothing else. -/
theorem subs_pruned_along (calls : List SubsCall) (free : ∀ call ∈ calls, call.KeyFree) :
    AllStates Subs.step Pruned noSubs calls := by
  have tended : AllStates Subs.step TendedSubs noSubs calls :=
    (AllSteps.of_mem Subs.step free noSubs).invariant Subs.step
      (fun subs call tended free => tended.step call free)
      (fun share => by cases share <;> exact tended_empty)
  exact AllStates.mono Subs.step (fun _ tended => tended.pruned) tended

/-- A filter that leads through the node of another, and a client that leaves. -/
theorem subs_pruned_along_two : AllStates Subs.step Pruned noSubs
    [.add "a/b" "one" ⟨1, 0, 0⟩, .add "a" "two" ⟨2, 0, 0⟩, .remove "a/b" "one",
      .removeClient "two"] :=
  subs_pruned_along _ (by
    intro call among
    simp only [List.mem_cons, List.not_mem_nil, or_false] at among
    rcases among with rfl | rfl | rfl | rfl
    · show KeyFree "a/b"
      decide
    · show KeyFree "a"
      decide
    · show KeyFree "a/b"
      decide
    · trivial)

end Yunetas.Mqtt
