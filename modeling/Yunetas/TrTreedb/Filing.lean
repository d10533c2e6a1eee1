import Yunetas.TrTreedb.Open
import Yunetas.TrTreedb.Upkeep

/-!
# Filing nodes under their keys

A creation files a node under the texts that were given for its secondary keys, an update changes a
filed node, and an opening files a node under the texts of its record. Each keeps the indexes
coherent when the node has these very texts.
-/

namespace Yunetas.TrTreedb

open Option Function Bool List TrTreedb.Graph

variable (ctx : Context)

/-- A key without a grave accent, which the indexes read as it is. -/
def isPlainKey (key : String) : Bool := !key.toList.contains (Char.ofNat 96)

/-- What a new node is filed under for a secondary key is what it gets in that field. -/
def filesKey (state : State) (topic : Topic) (id : String) (kw : Json.Fields) (now : Int)
    (pkey2 : String) : Bool :=
  isPlainKey id && isPlainKey (kwStr kw pkey2) &&
    match colOf topic.cols pkey2 with
    | none => kwStr kw pkey2 = ""
    | some col =>
      ((normalizeNodeFieldValue ctx.conv now col ((kw.get? pkey2).or col.default)).all fun value =>
        value.stringValue.getD "" = kwStr kw pkey2) &&
      (!col.inherit || (state.graph.getNode topic.name id).isNone)

/-- A node is created under what it gets in its new secondary keys. -/
def createFiles (state : State) (topicName : String) (kw : Json.Fields) (uuid : String)
    (now : Int) : Bool :=
  match ctx.schema.topic? topicName with
  | none => true
  | some topic => (newId state topic kw uuid).all fun id =>
    let given := kw.set "id" (.string id)
    (newPkey2s state.graph topic id given).all (filesKey ctx state topic id given now)

/-- An update that is accepted leaves the id and the secondary keys as they are. -/
def updateKeeps (state : State) (addr : Addr) (kw : Json.Fields) (now : Int) : Bool :=
  let node := state.node addr
  (normalizeUpdates ctx.conv now kw (ctx.schema.cols node.topic)).all fun updates =>
    let updated := node.update updates
    ctx.refuses updated (some node) || (updated.str? "id" = node.str? "id" &&
      (ctx.schema.pkey2s node.topic).all fun pkey2 => updated.str pkey2 = node.str pkey2)

/-- A row is read back as a node with the keys it is filed under. -/
def Row.filed (topic : Topic) (key : String) (row : Row) : Bool :=
  row.deleted || ((readNode ctx topic row).str? "id" = some key &&
    (ctx.schema.pkey2s topic.name).all fun pkey2 =>
      (readNode ctx topic row).str pkey2 = kwStr row.record pkey2)

/-- The rows of a topic are read back as they are filed, and a key with instances has its node. -/
def loadsFiled (store : Store) (snapTag : Nat) (topic : Topic) : Bool :=
  (store topic.name).entries.all fun entry =>
    entry.2.all (Row.filed ctx topic entry.1) &&
      ((ctx.schema.pkey2s topic.name).isEmpty || !entry.2.any (Row.loads 0) ||
        entry.2.any (Row.loads snapTag))

/-- Every topic is, with the tag that the treedb is opened with. -/
def opensFiled (store : Store) (tick : Nat) : Bool :=
  let snapTag := openedTag (activatedSnap ctx (openSystem ctx store tick))
  ctx.schema.topics.all (loadsFiled ctx store snapTag)

variable {ctx}

namespace Created

variable {state : State} {topicName : String} {kw : Json.Fields} {uuid : String} {now : Int}
  (created : Created ctx state topicName kw uuid now)

theorem topic_name : created.topic.name = topicName :=
  (Schema.topic?_mem created.isTopic).2

theorem topic_cols : ctx.schema.cols topicName = created.topic.cols := by
  unfold Schema.cols
  rw [created.isTopic]

theorem plain {field : String} (notLink : ctx.schema.isLinkField topicName field = false) :
    ∀ col ∈ created.topic.cols, (col.hook.isSome || col.fkey) = true → col.id ≠ field := by
  rintro col among link rfl
  rw [← created.topic_cols] at among
  rw [Schema.isLinkField_of_col among link] at notLink
  cases notLink

theorem pkey2s_subset {pkey2 : String} (among : pkey2 ∈ created.pkey2s) :
    pkey2 ∈ ctx.schema.pkey2s topicName := by
  rw [Schema.pkey2s_of_topic? created.isTopic]
  exact (mem_filter.1 among).1

theorem previous_of_inherits {old : Node}
    (inherits : (if created.pkey2s.isEmpty then none else created.previous).map state.node =
      some old) : ∃ addr, created.previous = some addr ∧ state.node addr = old := by
  rw [map_eq_some_iff] at inherits
  have ⟨addr, found, isOld⟩ := inherits
  split at found
  · cases found
  · exact ⟨addr, found, isOld⟩

theorem node_get?_of_plain {field : String}
    (plain : ∀ col ∈ created.topic.cols, (col.hook.isSome || col.fkey) = true → col.id ≠ field) :
    created.node.get? field = Dict.lookupEntries field created.fields ∨
      (∃ col ∈ created.topic.cols, col.inherit = true ∧ col.id = field) ∧
        ∃ addr, created.previous = some addr ∧
          created.node.get? field = (state.node addr).get? field := by
  have notFkey : ∀ col ∈ created.topic.cols, col.fkey = true → col.id ≠ field :=
    fun col among flagged => plain col among (by simp [flagged])
  rcases inheritFrom_get? created.topic _ ⟨topicName, created.fields⟩ field notFkey
    with same | ⟨flagged, old, inherits, taken⟩
  · exact Or.inl same
  · have ⟨addr, found, isOld⟩ := created.previous_of_inherits inherits
    exact Or.inr ⟨flagged, addr, found, isOld ▸ taken⟩

theorem node_get? {field : String} (notLink : ctx.schema.isLinkField topicName field = false) :
    created.node.get? field = Dict.lookupEntries field created.fields ∨
      (∃ col ∈ created.topic.cols, col.inherit = true ∧ col.id = field) ∧
        ∃ addr, created.previous = some addr ∧
          created.node.get? field = (state.node addr).get? field :=
  created.node_get?_of_plain (created.plain notLink)

theorem node_topic : created.node.topic = topicName := inheritFrom_topic ..

include created in
theorem known : (ctx.schema.topic? topicName).isSome := by
  rw [created.isTopic]
  rfl

theorem id_of_named {key : String} (named : created.node.str? "id" = some key)
    (plain : ∀ col ∈ created.topic.cols, (col.hook.isSome || col.fkey) = true → col.id ≠ "id")
    (inherits : (∃ col ∈ created.topic.cols, col.inherit = true ∧ col.id = "id") →
      ∀ addr, created.previous = some addr →
        ∀ text, (state.node addr).str? "id" = some text → text = created.id) :
    key = created.id := by
  rcases created.node_get?_of_plain plain with same | ⟨flagged, addr, found, taken⟩
  · rw [pureRecord_get? created.topic.distinct created.pure] at same
    cases isCol : colOf created.topic.cols "id" with
    | none =>
      rw [isCol] at same
      unfold Node.str? at named
      rw [same] at named
      cases named
    | some col =>
      have col_eq := colOf_some isCol
      have ⟨value, normal⟩ := pureRecord_taken created.pure col_eq.1
      rw [isCol, bind_some, normal, map_some] at same
      rw [str?_ofJson same] at named
      rw [col_eq.2, Json.Fields.get?_set_self] at normal
      have plainCol : (col.hook.isSome || col.fkey) = false := by
        rw [← not_eq_true]
        exact fun link => plain col col_eq.1 link col_eq.2
      exact normalize_text plainCol normal (Json.stringValue_eq_some named)
  · have taken' : created.node.str? "id" = (state.node addr).str? "id" := by
      unfold Node.str?
      rw [taken]
    rw [named] at taken'
    exact inherits flagged addr found key taken'.symm

theorem node_id (plainIds : ctx.schema.PlainIds)
    (inherits : (∃ col ∈ created.topic.cols, col.inherit = true ∧ col.id = "id") →
      ∀ addr, created.previous = some addr → (state.node addr).str? "id" = some created.id) :
    created.node.str? "id" = some created.id ∧
      (created.record.get? "id").bind Json.stringValue = some created.id := by
  have ⟨key, keyed, _, _, _⟩ := created.written.key
  have notLink := plainIds.plain created.known
  have named : created.node.str? "id" = some key := by
    apply @str?_of_record _ created.node _ created.converted _ _ _ keyed
    rw [created.node_topic]
    exact notLink
  have isId : key = created.id := by
    apply created.id_of_named named (created.plain notLink)
    intro flagged addr found text old
    have same := inherits flagged addr found
    rw [old] at same
    exact some.inj same
  rw [← isId]
  exact ⟨named, keyed⟩

theorem node_key2 (plainKeys : ctx.schema.PlainKeys)
    (files : createFiles ctx state topicName kw uuid now = true) {pkey2 : String}
    (among : pkey2 ∈ created.pkey2s) : created.node.str pkey2 = kwStr created.given pkey2 := by
  have keeps : filesKey ctx state created.topic created.id created.given now pkey2 = true := by
    unfold createFiles at files
    rw [created.isTopic] at files
    dsimp only at files
    rw [created.isId, all_some, List.all_eq_true] at files
    exact files pkey2 among
  unfold filesKey at keeps
  rw [and_eq_true] at keeps
  have text := keeps.2
  have key : pkey2 ∈ "id" :: ctx.schema.pkey2s topicName :=
    mem_cons_of_mem _ (created.pkey2s_subset among)
  rcases created.node_get? (plainKeys.plain created.known key) with same | ⟨⟨col, colIn, inherit, isKey⟩, addr, found, -⟩
  · rw [pureRecord_get? created.topic.distinct created.pure] at same
    cases isCol : colOf created.topic.cols pkey2 with
    | none =>
      rw [isCol] at text same
      unfold Node.str Node.str?
      rw [same]
      simpa using text.symm
    | some col =>
      have col_eq := colOf_some isCol
      have ⟨value, normal⟩ := pureRecord_taken created.pure col_eq.1
      rw [isCol, bind_some] at same
      rw [isCol] at text
      simp only [and_eq_true] at text
      have given := text.1
      rw [col_eq.2] at normal
      rw [col_eq.2] at same
      rw [show (kw.set "id" (.string created.id)) = created.given from rfl] at normal same
      rw [normal, map_some] at same
      rw [normal] at given
      unfold Node.str
      rw [str?_ofJson same]
      simpa using given
  · have isCol := colOf_mem created.topic.distinct colIn
    rw [isKey] at isCol
    rw [isCol] at text
    simp only [inherit, and_eq_true, Bool.not_true, Bool.false_or] at text
    have absent := text.2
    rw [created.topic_name, show state.graph.getNode topicName created.id = some addr from found]
      at absent
    cases absent

theorem linked_same (typed : (state.graph.alloc created.node).Typed) :
    SameButLinks ctx.schema (state.graph.alloc created.node) created.linked := by
  unfold linked
  split
  · exact (loadLinks_same typed state.graph.next).links
  · exact SameBut.refl _

theorem after_getNode (typed : (state.graph.alloc created.node).Typed) (topic id : String) :
    created.after.graph.getNode topic id =
      if created.previous.isNone ∧ topic = topicName ∧ id = created.id then some state.graph.next
      else state.graph.getNode topic id := by
  have before : created.linked.getNode topic id = state.graph.getNode topic id := by
    unfold Graph.getNode
    rw [(created.linked_same typed).primary]
    rfl
  unfold after
  have keeps := indexNode_keeps created.linked created.topic created.id created.given
    created.previous.isNone created.pkey2s state.graph.next
  unfold Graph.getNode at before ⊢
  rw [keeps.2.2]
  by_cases absent : created.previous.isNone = true
  · rw [if_pos absent]
    have added := getNode_addPrimary created.linked created.topic.name created.id topic id
      state.graph.next
    unfold Graph.getNode at added
    rw [added, created.topic_name, before]
    simp [absent]
  · rw [if_neg absent, if_neg fun all => absent all.1]
    exact before

theorem coherent (plainKeys : ctx.schema.PlainKeys) (coherent : state.graph.Coherent ctx.schema)
    (files : createFiles ctx state topicName kw uuid now = true) :
    created.after.graph.Coherent ctx.schema := by
  have known := created.known
  have allocated := coherent.alloc created.node
  have same : SameKeys ctx.schema (state.graph.alloc created.node) created.linked :=
    (created.linked_same allocated.typed).sameKeys plainKeys
  have here : (state.graph.alloc created.node).heap state.graph.next = created.node := by
    rw [heap_alloc, update_self]
  have topic := created.node_topic
  have node : created.linked.IsNode ctx.schema topicName created.id state.graph.next := by
    refine ⟨known, ?_, ?_, ?_⟩
    · rw [same.next, next_alloc]
      exact Nat.lt_succ_self _
    · rw [same.topic, here, topic]
    · rw [same.id _ (by rw [here, topic]; exact known), here]
      exact (created.node_id plainKeys.ids fun _ addr found =>
        (coherent.primary topicName created.id addr found).id).1
  have linkedCoherent := allocated.of_sameKeys same
  unfold after indexNode
  rw [created.topic_name]
  have named : (if created.previous.isNone then
      created.linked.addPrimary topicName created.id state.graph.next
      else created.linked).Coherent ctx.schema := by
    split
    · exact linkedCoherent.addPrimary node
    · exact linkedCoherent
  apply named.addSecondaries created.pkey2s (kwStr created.given)
  intro pkey2 among
  have listed := created.pkey2s_subset among
  have key2 : (created.linked.heap state.graph.next).str pkey2 = kwStr created.given pkey2 := by
    rw [same.key2 _ pkey2 (by rw [here, topic]; exact listed), here]
    exact created.node_key2 plainKeys files among
  split
  · refine ⟨node.of_heap rfl rfl, listed, key2, ?_⟩
    rw [getNode_addPrimary, if_pos ⟨rfl, rfl⟩]
    rfl
  · rename_i there
    refine ⟨node, listed, key2, ?_⟩
    have found : created.linked.getNode topicName created.id = created.previous := by
      unfold Graph.getNode
      rw [same.primary]
      rfl
    rw [found]
    rw [not_eq_true, isNone_eq_false_iff] at there
    exact there

end Created

section Write

variable {state : State}

theorem createNode_coherent (plainKeys : ctx.schema.PlainKeys)
    (coherent : state.graph.Coherent ctx.schema) {topicName : String} {kw : Json.Fields}
    {uuid : String} {now : Int} (files : createFiles ctx state topicName kw uuid now = true) :
    (createNode ctx state topicName kw uuid now).2.graph.Coherent ctx.schema := by
  rcases createNode_cases ctx state topicName kw uuid now with ⟨-, same⟩ | ⟨created, done⟩
  · rw [same.graph]
    exact coherent
  · rw [done]
    exact created.coherent plainKeys coherent files

theorem sameKeys_update {graph : Graph} {addr : Addr} {id : String} (updated : Node)
    (topic : updated.topic = (graph.heap addr).topic)
    (named : (graph.heap addr).str? "id" = some id)
    (sameId : updated.str? "id" = (graph.heap addr).str? "id")
    (sameKey2 : ∀ pkey2 ∈ ctx.schema.pkey2s (graph.heap addr).topic,
      updated.str pkey2 = (graph.heap addr).str pkey2) :
    SameKeys ctx.schema graph { graph with heap := Function.update graph.heap addr updated } := by
  have elsewhere : ∀ other, other ≠ addr →
      Function.update graph.heap addr updated other = graph.heap other :=
    fun other ne => update_of_ne ne _ _
  constructor
  · rfl
  · rfl
  · rfl
  · intro other
    by_cases here : other = addr
    · rw [here]
      dsimp only
      rw [update_self, topic]
    · dsimp only
      rw [elsewhere other here]
  · intro other _
    by_cases here : other = addr
    · rw [here]
      dsimp only
      rw [update_self, sameId]
    · dsimp only
      rw [elsewhere other here]
  · intro other pkey2 among
    by_cases here : other = addr
    · rw [here] at among ⊢
      dsimp only
      rw [update_self, sameKey2 pkey2 among]
    · dsimp only
      rw [elsewhere other here]
  · intro other blank
    by_cases here : other = addr
    · rw [here] at blank
      unfold Node.str? Node.get? at named
      rw [blank] at named
      cases named
    · dsimp only
      rw [elsewhere other here]
      exact blank

@[simp] theorem Node.update_topic (node : Node) (updates : List (String × Cell)) :
    (node.update updates).topic = node.topic := by
  apply foldlRecOn (motive := fun updated : Node => updated.topic = node.topic)
  · rfl
  · intro updated sofar entry _
    exact sofar

theorem updateNode_coherent (plainKeys : ctx.schema.PlainKeys)
    (coherent : state.graph.Coherent ctx.schema) {ref : Graph.Ref} {addr : Addr}
    (found : state.graph.resolve ref = some addr) {kw : Json.Fields} {now : Int}
    (keeps : updateKeeps ctx state addr kw now = true) (save : Bool) :
    (updateNode ctx state addr kw now save).2.graph.Coherent ctx.schema := by
  unfold updateNode
  dsimp only
  split
  · exact coherent
  rename_i updates normal
  split
  · exact coherent
  rename_i accepted
  unfold updateKeeps at keeps
  dsimp only at keeps
  rw [normal, all_some, or_eq_true, or_iff_right accepted, and_eq_true,
    List.all_eq_true] at keeps
  simp only [decide_eq_true_eq] at keeps
  have ⟨id, node⟩ := coherent.named found
  have same : SameKeys ctx.schema state.graph { state.graph with
        heap := Function.update state.graph.heap addr ((state.node addr).update updates) } :=
    sameKeys_update _ (Node.update_topic _ _) node.id keeps.1 keeps.2
  have stored := coherent.of_sameKeys same
  split
  · exact saveNode_coherent plainKeys stored ((coherent.indexed found).of_sameKeys same)
  · exact stored

end Write

end Yunetas.TrTreedb
