import Mathlib.Data.List.Perm.Subperm
import Yunetas.Timeranger2.Messages
/-!
# The instances a message keeps

A ghost list of the records accepted for a key says what its message must hold: as many of them as
the limit allows, the last one active, in order of time or the last ones in order of arrival. The
callback keeps this for every key, and what it drops is the oldest of what it held.
-/

namespace Yunetas.Timeranger2

open List Option Dict

open Json Gobj

variable (realEqual : Json → Json → Bool)

/-- The filters let a record in. -/
def MsgCond.accepts (cond : MsgCond) (delivery : LoadedRecord) : Option Fields :=
  delivery.record.filter fun record =>
    cond.passes realEqual record && (!cond.instanceCallback || decide (0 < delivery.verdict))

/-- The records accepted for a key, in order of arrival. -/
def acceptedOf (cond : MsgCond) (key : MsgKey) (deliveries : List LoadedRecord) : List Fields :=
  (deliveries.filter fun delivery => delivery.key = key).filterMap (cond.accepts realEqual)

/-- The time of a record of the list. -/
def MsgList.tm (list : MsgList) (address : Nat) : Int := mdInt (list.fields address) "tm"

/-- What a message holds of the records accepted for its key. -/
structure Folded (cond : MsgCond) (list : MsgList) (message : Message) (accepted : List Fields) :
    Prop where
  count : message.instances.length =
    if cond.limit = 0 then accepted.length else min cond.limit accepted.length
  active : ∀ last, accepted.getLast? = some last →
    ∃ active ∈ message.instances, message.active = some active ∧ list.fields active = last
  byTm : cond.orderByTm = true → message.instances.Pairwise fun left right =>
    list.tm left ≤ list.tm right
  byArrival : cond.orderByTm = false → message.instances.map list.fields <:+ accepted
  among : (message.instances.map list.fields).Subperm accepted
  once : message.instances.Nodup
  held : (∀ active, message.active = some active → active < list.records.length) ∧
    ∀ address ∈ message.instances, address < list.records.length

/-- The messages of a list hold what was accepted for their keys. -/
def MsgList.Keeps (cond : MsgCond) (list : MsgList) (accepted : MsgKey → List Fields) : Prop :=
  ∀ key : MsgKey, match list.messages.get? key with
    | some message => Folded cond list message (accepted key)
    | none => accepted key = []

theorem acceptedOf_append (cond : MsgCond) (key : MsgKey) (left right : List LoadedRecord) :
    acceptedOf realEqual cond key (left ++ right) =
      acceptedOf realEqual cond key left ++ acceptedOf realEqual cond key right := by
  simp [acceptedOf]

section Alloc

variable {realEqual} {cond : MsgCond} {list list' : MsgList} {message : Message}
  {accepted : List Fields}

theorem fields_grown (grown : list.records <+: list'.records) {address : Nat}
    (inside : address < list.records.length) : list'.fields address = list.fields address := by
  have ⟨others, whole⟩ := grown
  simp [MsgList.fields, ← whole, getElem?_append_left inside]

theorem alloc_grown (list : MsgList) (record : Fields) :
    list.records <+: (list.alloc record).records := ⟨[record], rfl⟩

theorem fields_alloc_self (list : MsgList) (record : Fields) :
    (list.alloc record).fields list.records.length = record := by
  simp [MsgList.fields, MsgList.alloc]

theorem addInstance_grown (cond : MsgCond) (list : MsgList) (key : MsgKey) (message : Message)
    (record : Fields) :
    (list.alloc record).records <+: (addInstance cond list key message record).records := by
  simp only [addInstance, MsgList.setMessage]
  split
  · exact alloc_grown _ _
  · exact prefix_refl _

theorem Folded.grown (kept : Folded cond list message accepted)
    (grown : list.records <+: list'.records) : Folded cond list' message accepted := by
  have longer := grown.length_le
  have same : ∀ address < list.records.length, list'.fields address = list.fields address :=
    fun address => fields_grown grown
  have contents : message.instances.map list'.fields = message.instances.map list.fields :=
    map_congr_left fun address member => same address (kept.held.2 address member)
  have times : ∀ address ∈ message.instances, list'.tm address = list.tm address := by
    intro address member
    rw [MsgList.tm, same address (kept.held.2 address member)]
    rfl
  constructor
  case count => exact kept.count
  case active =>
    intro last final
    have ⟨active, member, isActive, content⟩ := kept.active last final
    exact ⟨active, member, isActive, (same active (kept.held.2 active member)).trans content⟩
  case byTm =>
    intro order
    apply (kept.byTm order).imp_of_mem
    intro left right inLeft inRight before
    rwa [times left inLeft, times right inRight]
  case byArrival => exact fun order => contents ▸ kept.byArrival order
  case among => exact contents ▸ kept.among
  case once => exact kept.once
  case held =>
    refine ⟨fun active isActive => ?_, fun address member => ?_⟩
    · have := kept.held.1 active isActive
      omega
    · have := kept.held.2 address member
      omega

end Alloc

section Places

variable {tm : Int} {tms : List Int}

theorem tmIndex_le (tm : Int) (tms : List Int) : ∀ idx, tmIndex tm tms idx ≤ idx
  | 0 => Nat.le_refl 0
  | idx + 1 => by
      rw [tmIndex]
      split
      · exact Nat.le_refl _
      · exact Nat.le_succ_of_le (tmIndex_le tm tms idx)

theorem tmIndex_place (ordered : tms.Pairwise (· ≤ ·)) : ∀ idx ≤ tms.length,
    (∀ time ∈ tms.drop idx, tm < time) → (∀ time ∈ tms.take (tmIndex tm tms idx), time ≤ tm) ∧
        ∀ time ∈ tms.drop (tmIndex tm tms idx), tm < time
  | 0, _, later => ⟨by simp [tmIndex], later⟩
  | idx + 1, inside, later => by
      have here : idx < tms.length := by omega
      by_cases stops : tm ≥ tms.getD idx 0
      · rw [tmIndex, if_pos stops]
        refine ⟨?_, later⟩
        intro time before
        have last : tms[idx] ≤ tm := by simpa [getD_eq_getElem?_getD, here] using stops
        have ⟨place, bound, same⟩ := mem_take_iff_getElem.1 before
        rw [← same]
        rcases Nat.lt_or_eq_of_le (show place ≤ idx by omega) with inner | equal
        · have := pairwise_iff_getElem.1 ordered place idx (by omega) here inner
          omega
        · simpa [equal] using last
      · rw [tmIndex, if_neg stops]
        apply tmIndex_place ordered idx (by omega)
        intro time after
        rw [drop_eq_getElem_cons here] at after
        rcases mem_cons.1 after with same | after
        · have : ¬ tm ≥ tms[idx] := by simpa [getD_eq_getElem?_getD, here] using stops
          omega
        · exact later time after

end Places

section Step

variable {realEqual} {cond : MsgCond} {list : MsgList} {message : Message} {accepted : List Fields}
  {instances : List Nat}

theorem insertIdx_eq {idx : Nat} {item : Nat} {items : List Nat} (inside : idx ≤ items.length) :
    items.insertIdx idx item = items.take idx ++ item :: items.drop idx := by
  induction idx generalizing items with
  | zero => rfl
  | succ idx ih =>
    cases items with
    | nil => simp at inside
    | cons first rest => simp [ih (by simpa using inside)]

theorem evicted_eq {limit instance_ : Nat} (fresh : ∀ other ∈ instances, other < instance_) :
    evicted limit instance_ instances =
      if 0 < limit ∧ limit ≤ instances.length then (instances.head?, instances.tail)
      else (none, instances) := by
  have notHere : instances[0]? ≠ some instance_ := by
    intro here
    have := fresh instance_ (mem_of_getElem? here)
    omega
  rw [evicted, if_pos notHere]
  simp [head?_eq_getElem?, eraseIdx_zero]

theorem inserted_eq (cond : MsgCond) (list : MsgList) (instance_ : Nat) (instances : List Nat) :
    ∃ before after, instances = before ++ after ∧
      inserted cond list instance_ instances = before ++ instance_ :: after ∧
      (cond.orderByTm = false → after = []) ∧
      (cond.orderByTm = true → (instances.Pairwise fun left right => list.tm left ≤ list.tm right) →
        (∀ other ∈ before, list.tm other ≤ list.tm instance_) ∧
          ∀ other ∈ after, list.tm instance_ < list.tm other) := by
  cases order : cond.orderByTm with
  | false => exact ⟨instances, [], by simp, by simp [inserted, order], by simp, by simp⟩
  | true =>
    let tms := instances.map list.tm
    let idx := tmIndex (list.tm instance_) tms instances.length
    refine ⟨instances.take idx, instances.drop idx, by simp, ?_, by simp, fun _ ordered => ?_⟩
    · have within : idx ≤ instances.length := tmIndex_le _ _ _
      have place : inserted cond list instance_ instances = instances.insertIdx idx instance_ := by
        simp only [inserted, order, if_true]
        rfl
      rw [place, insertIdx_eq within]
    · have size : instances.length = tms.length := (length_map _).symm
      have place := @tmIndex_place (list.tm instance_) tms (pairwise_map.2 ordered)
        instances.length (by omega) (by simp [size])
      refine ⟨fun other before => place.1 _ ?_, fun other after => place.2 _ ?_⟩
      · rw [← map_take]
        exact mem_map_of_mem before
      · rw [← map_drop]
        exact mem_map_of_mem after

/-- An accepted record keeps what the message holds, and drops only the first instance. -/
theorem Folded.added (kept : Folded cond list message accepted) (key : MsgKey) (record : Fields) :
    ∃ after, (addInstance cond list key message record).messages = list.messages.set key after ∧
      Folded cond (addInstance cond list key message record) after (accepted ++ [record]) ∧
      ∀ other ∈ message.instances, other ∈ after.instances ∨ message.instances.head? = some other := by
  let fresh := list.records.length
  let alive := list.alloc record
  let room := evicted cond.limit fresh message.instances
  let later := if room.1.isSome ∧ room.1 = message.active then alive.alloc [] else alive
  let after : Message :=
    { active := some fresh, instances := inserted cond later fresh room.2 }
  have below : ∀ other ∈ message.instances, other < fresh := kept.held.2
  have roomEq : room = if 0 < cond.limit ∧ cond.limit ≤ message.instances.length then
      (message.instances.head?, message.instances.tail) else (none, message.instances) :=
    evicted_eq below
  have messages : later.messages = list.messages := by
    rw [show later = if _ then _ else _ from rfl]
    split <;> rfl
  have grown : alive.records <+: later.records := addInstance_grown cond list key message record
  have size : alive.records.length = fresh + 1 := by simp [alive, MsgList.alloc, fresh]
  have old : ∀ address < fresh, later.fields address = list.fields address := fun address inside =>
    fields_grown ((alloc_grown list record).trans grown) inside
  have new : later.fields fresh = record :=
    (fields_grown grown (by omega)).trans (fields_alloc_self list record)
  have rest : room.2.Sublist message.instances := by
    rw [roomEq]
    split
    · exact tail_sublist _
    · exact List.Sublist.refl _
  have left : room.2.length + 1 =
      if cond.limit = 0 then accepted.length + 1 else min cond.limit (accepted.length + 1) := by
    have count := kept.count
    rw [roomEq]
    split
    · rw [length_tail]
      grind
    · grind
  have contents : (room.2.map later.fields) = room.2.map list.fields :=
    map_congr_left fun address member => old address (below address (rest.subset member))
  have ⟨before, behind, split, place, atEnd, sorted⟩ := inserted_eq cond later fresh room.2
  have perm : (before ++ fresh :: behind).Perm (fresh :: room.2) := split ▸ perm_middle
  have sizeAfter : after.instances.length = room.2.length + 1 := by
    rw [show after.instances = _ from place, perm.length_eq]
    rfl
  refine ⟨after, congrArg (·.set key after) messages, ?_, ?_⟩
  · constructor
    case count =>
      rw [sizeAfter, left, length_append]
      rfl
    case active =>
      intro last final
      have same : record = last := by simpa using final
      refine ⟨fresh, ?_, rfl, new.trans same⟩
      rw [show after.instances = _ from place]
      exact mem_append_right _ mem_cons_self
    case byTm =>
      intro order
      have times : ∀ other ∈ room.2, later.tm other = list.tm other := fun other member =>
        congrArg (mdInt · "tm") (old other (below other (rest.subset member)))
      have ordered : room.2.Pairwise fun left right => later.tm left ≤ later.tm right := by
        apply (List.Pairwise.sublist rest (kept.byTm order)).imp_of_mem
        intro left right inLeft inRight before
        rwa [times left inLeft, times right inRight]
      have ⟨early, late⟩ := sorted order ordered
      rw [split] at ordered
      have ⟨first, second, across⟩ := pairwise_append.1 ordered
      rw [show after.instances = _ from place, pairwise_append, pairwise_cons]
      refine ⟨first, ⟨fun other member => Int.le_of_lt (late other member), second⟩, ?_⟩
      intro left inLeft right inRight
      rcases mem_cons.1 inRight with rfl | inRight
      · exact early left inLeft
      · exact across left inLeft right inRight
    case byArrival =>
      intro order
      have nothing : behind = [] := atEnd order
      subst nothing
      rw [show after.instances = _ from place, map_append, map_singleton]
      have whole : before = room.2 := by simpa using split.symm
      have suffix : room.2.map list.fields <:+ accepted := by
        refine List.IsSuffix.trans ?_ (kept.byArrival order)
        rw [roomEq]
        split
        · rw [← drop_one, map_drop]
          exact drop_suffix _ _
        · exact suffix_refl _
      have ⟨older, same⟩ := suffix
      change before.map later.fields ++ [later.fields fresh] <:+ accepted ++ [record]
      rw [new, whole, contents]
      exact ⟨older, by rw [← append_assoc, same]⟩
    case among =>
      rw [show after.instances = _ from place]
      have shown : ((before ++ fresh :: behind).map later.fields).Perm
          (record :: room.2.map list.fields) := by
        rw [← contents, ← new]
        exact perm.map later.fields
      have fewer : (room.2.map list.fields).Subperm accepted :=
        (rest.map list.fields).subperm.trans kept.among
      exact shown.subperm.trans (((subperm_cons record).2 fewer).trans
        (perm_append_singleton record accepted).symm.subperm)
    case once =>
      rw [show after.instances = _ from place, perm.nodup_iff, nodup_cons]
      refine ⟨fun member => ?_, kept.once.sublist rest⟩
      have := below fresh (rest.subset member)
      omega
    case held =>
      have inside : fresh < later.records.length := by
        have := grown.length_le
        omega
      refine ⟨fun active isActive => ?_, fun address member => ?_⟩
      · exact some.inj isActive ▸ inside
      · rw [show after.instances = _ from place, perm.mem_iff] at member
        rcases mem_cons.1 member with rfl | member
        · exact inside
        · exact Nat.lt_trans (below address (rest.subset member)) inside
  · intro other member
    have found : other ∈ room.2 ∨ message.instances.head? = some other := by
      rw [roomEq]
      split
      · cases all : message.instances with
        | nil => simp [all] at member
        | cons first others =>
          rw [all] at member
          rcases mem_cons.1 member with rfl | member
          · exact .inr rfl
          · exact .inl member
      · exact .inl member
    refine found.imp_left fun member => ?_
    rw [show after.instances = _ from place, perm.mem_iff]
    exact mem_cons_of_mem fresh member

theorem kept_made (list : MsgList) (key : MsgKey) :
    Folded cond ((list.alloc []).setMessage key ⟨some list.records.length, []⟩)
      ⟨some list.records.length, []⟩ [] where
  count := by simp
  active last final := by simp at final
  byTm _ := List.Pairwise.nil
  byArrival _ := suffix_refl _
  among := List.Subperm.refl _
  once := nodup_nil
  held := ⟨fun active isActive => by
    have same : list.records.length = active := some.inj isActive
    simp [MsgList.setMessage, MsgList.alloc, ← same], fun _ member => by simp at member⟩

variable (realEqual) in
theorem loadRecordCallback_eq (cond : MsgCond) (list : MsgList) (delivery : LoadedRecord) :
    (loadRecordCallback realEqual cond list delivery).1 =
      match cond.accepts realEqual delivery with
      | some record => addInstance cond (list.message delivery.key).1 delivery.key
          (list.message delivery.key).2 record
      | none => (list.message delivery.key).1 := by
  rw [loadRecordCallback, MsgCond.accepts]
  cases delivery.record with
  | none => rfl
  | some record =>
    rw [filter_some]
    cases passes : cond.passes realEqual record with
    | false => simp [passes]
    | true =>
      cases set : cond.instanceCallback with
      | false => simp [passes]
      | true =>
        by_cases refused : delivery.verdict < 0
        · simp [passes, refused, show ¬ 0 < delivery.verdict by omega]
        · by_cases zero : delivery.verdict = 0
          · simp [passes, zero]
          · simp [passes, refused, zero, show 0 < delivery.verdict by omega]

theorem keeps_message {accepted : MsgKey → List Fields} (keeps : list.Keeps cond accepted)
    (key : MsgKey) :
    (list.message key).1.Keeps cond accepted ∧
      (list.message key).1.messages.get? key = some (list.message key).2 := by
  rw [MsgList.message]
  cases found : list.messages.get? key with
  | some message => exact ⟨keeps, found⟩
  | none =>
    refine ⟨fun other => ?_, get?_set_self _ _ _⟩
    have before := keeps other
    by_cases same : other = key
    · subst same
      rw [found] at before
      simp only [MsgList.setMessage, get?_set_self]
      rw [before]
      exact kept_made list other
    · simp only [MsgList.setMessage, MsgList.alloc, get?_set_ne _ _ same]
      split at before
      · exact Folded.grown before (alloc_grown list [])
      · exact before

variable (realEqual) in
theorem keeps_step {accepted : MsgKey → List Fields} (keeps : list.Keeps cond accepted)
    (delivery : LoadedRecord) :
    (loadRecordCallback realEqual cond list delivery).1.Keeps cond fun key =>
      accepted key ++ acceptedOf realEqual cond key [delivery] := by
  have ⟨made, here⟩ := keeps_message keeps delivery.key
  rw [loadRecordCallback_eq]
  cases taken : cond.accepts realEqual delivery with
  | none =>
    have same : (fun key => accepted key ++ acceptedOf realEqual cond key [delivery]) = accepted := by
      funext key
      by_cases same : delivery.key = key <;> simp [acceptedOf, same, taken]
    rw [same]
    exact made
  | some record =>
    have held := made delivery.key
    rw [here] at held
    have ⟨after, messages, kept, _⟩ := Folded.added held delivery.key record
    intro key
    simp only [messages]
    by_cases same : delivery.key = key
    · subst same
      rw [get?_set_self]
      simpa [acceptedOf, taken] using kept
    · have nothing : acceptedOf realEqual cond key [delivery] = [] := by simp [acceptedOf, same]
      have before := made key
      rw [get?_set_ne _ _ (Ne.symm same), nothing, append_nil]
      split at before
      · exact Folded.grown before ((alloc_grown _ record).trans (addInstance_grown ..))
      · exact before

theorem keeps_run : ∀ (deliveries : List LoadedRecord) {list : MsgList} {accepted : MsgKey → List Fields},
    list.Keeps cond accepted → (loadRecords realEqual cond list deliveries).Keeps cond fun key =>
        accepted key ++ acceptedOf realEqual cond key deliveries
  | [], _, accepted, keeps => by
      simpa only [loadRecords, foldl_nil, acceptedOf, filter_nil, filterMap_nil,
        append_nil] using keeps
  | delivery :: rest, _, accepted, keeps => by
      have run := keeps_run rest (keeps_step realEqual keeps delivery)
      simp only [append_assoc, ← acceptedOf_append] at run
      exact run

end Step

theorem loaded_keeps (cond : MsgCond) (deliveries : List LoadedRecord) :
    (loadRecords realEqual cond {} deliveries).Keeps cond fun key =>
      acceptedOf realEqual cond key deliveries := by
  have start : MsgList.Keeps cond {} fun _ => [] := fun _ => rfl
  simpa using keeps_run deliveries start

theorem dropped_first {cond : MsgCond} {list : MsgList} {accepted : MsgKey → List Fields}
    (keeps : list.Keeps cond accepted) (delivery : LoadedRecord) {key : MsgKey}
    {message after : Message} (before : list.messages.get? key = some message)
    (later : (loadRecordCallback realEqual cond list delivery).1.messages.get? key = some after)
    {other : Nat} (member : other ∈ message.instances) :
    other ∈ after.instances ∨ message.instances.head? = some other := by
  rw [loadRecordCallback_eq] at later
  have found : (list.message delivery.key).1.messages.get? key = some message := by
    rw [MsgList.message]
    split
    · exact before
    · by_cases same : (key : MsgKey) = delivery.key
      · simp_all
      · simpa [MsgList.setMessage, MsgList.alloc, get?_set_ne _ _ same] using before
  cases taken : cond.accepts realEqual delivery with
  | none =>
    rw [taken] at later
    rw [found] at later
    exact .inl (some.inj later ▸ member)
  | some record =>
    obtain ⟨made, here⟩ := keeps_message keeps delivery.key
    have held := made delivery.key
    rw [here] at held
    obtain ⟨added, messages, _, drops⟩ := Folded.added held delivery.key record
    simp only [taken, messages] at later
    by_cases same : delivery.key = key
    · subst same
      rw [get?_set_self] at later
      rw [here] at found
      cases later
      cases found
      exact drops other member
    · rw [get?_set_ne _ _ (Ne.symm same), found] at later
      exact .inl (some.inj later ▸ member)

/-- In every list a run of the callback builds, the messages hold what they have to hold of the
records accepted for their keys, and a next record drops only an instance that is, by time when the
instances are ordered by it, the oldest of those held. -/
theorem instances_kept (cond : MsgCond) (deliveries : List LoadedRecord) :
    let list := loadRecords realEqual cond {} deliveries
    (list.Keeps cond fun key => acceptedOf realEqual cond key deliveries) ∧
      ∀ (delivery : LoadedRecord) (key : MsgKey) (message after : Message),
        list.messages.get? key = some message →
          (loadRecordCallback realEqual cond list delivery).1.messages.get? key = some after →
            ∀ dropped ∈ message.instances, dropped ∉ after.instances →
              cond.orderByTm = true → ∀ other ∈ message.instances,
                list.tm dropped ≤ list.tm other := by
  intro list
  have keeps := loaded_keeps realEqual cond deliveries
  refine ⟨keeps, ?_⟩
  intro delivery key message after before later dropped member gone order other among
  have kept := keeps key
  rw [before] at kept
  have first : message.instances.head? = some dropped :=
    (dropped_first realEqual keeps delivery before later member).resolve_left gone
  have ordered := kept.byTm order
  cases all : message.instances with
  | nil => simp [all] at member
  | cons head rest =>
    rw [all] at first ordered among
    have same : head = dropped := Option.some.inj first
    rcases List.mem_cons.1 among with rfl | among
    · exact Int.le_of_eq (congrArg list.tm same.symm)
    · exact same ▸ (List.pairwise_cons.1 ordered).1 other among

/-- A record of a time. -/
def timedRecord (tm : Int) : Fields := [("__md_tranger__", .object [("tm", .integer tm)])]

/-- With room for one instance, a late record displaces the younger one that is there. -/
theorem late_record_displaces :
    let cond : MsgCond := { maxKeyInstances := 1, orderByTm := true }
    let key : MsgKey := ⟨"k", by decide⟩
    let deliveries : List LoadedRecord := [⟨key, some (timedRecord 10), 1⟩, ⟨key, some (timedRecord 5), 1⟩]
    let list := loadRecords (fun _ _ => false) cond {} deliveries
    acceptedOf (fun _ _ => false) cond key deliveries = [timedRecord 10, timedRecord 5] ∧
      (list.messages.get? key).map (fun message => message.instances.map list.fields) =
        some [timedRecord 5] ∧
      mdInt (timedRecord 5) "tm" < mdInt (timedRecord 10) "tm" := by
  refine ⟨rfl, rfl, by decide⟩

end Yunetas.Timeranger2
