import Yunetas.Mqtt.Rewritten

/-!
# Properties survive forwarding

The properties of a PUBLISH are read into a json object; the broker may add the identifiers of the
subscriptions that matched, and writes the object to each subscriber. They survive when no text of
theirs was lost on the way and at most one identifier was added: two identifiers are written as a
property twice, which `property_read` refuses.
-/

namespace Yunetas.Mqtt

/-- The subscription identifiers the broker adds to the properties of a message. -/
inductive AddedIds
  | published (ids : List Nat)
  | retained (id : Nat)

/-- The identifiers that are added. -/
def AddedIds.list : AddedIds → List Nat
  | .published ids => ids
  | .retained id => if id = 0 then [] else [id]

/-- The properties with the identifiers, as the broker sets them. -/
def withIds (props : Props) : AddedIds → Props
  | .published ids =>
    if ids = [] then props
    else props.set (mqttPropertyIdentifierToString .subscriptionIdentifier) (.ids ids)
  | .retained id =>
    if id = 0 then props
    else
      props.set (mqttPropertyIdentifierToString .subscriptionIdentifier) (.plain (.integer id))

/-- The properties are counted and written alike, and what is written is read as the properties. -/
def Forwarded (props : Props) : Prop :=
  ∃ body, propertyWriteEntries props.entries = some body ∧
    propertyGetLengthAll props = body.length ∧
    ∃ written, propertyWriteAll props = some written ∧
      ∀ memory rest, propertyReadAll memory cmdPublish.toNat (written ++ rest) =
        .ok (props.mapValues Property.asRead, rest)

/-- What a section and the identifiers added to it are forwarded as. -/
def forwardedItems (items : List Item) (added : AddedIds) : List Item :=
  if added.list = [] then items.map Item.kept
  else (otherItems items).map Item.kept ++ added.list.map idItem

/-- Nothing of a section is lost when it is forwarded. -/
structure Survives (items : List Item) (added : AddedIds) : Prop where
  whole : ∀ item ∈ items, item.Whole
  single : added.list.length ≤ 1
  short : (encodeItems (forwardedItems items added)).length < 2 ^ 28

/-! ## Properties with identifiers -/

theorem withIds_one {props : Props} {added : AddedIds} {id : Nat} (one : added.list = [id]) :
    ∃ property : Property, (property = .plain (.integer id) ∨ property = .ids [id]) ∧
      withIds props added =
        props.set (mqttPropertyIdentifierToString .subscriptionIdentifier) property := by
  cases added with
  | published ids =>
    obtain rfl : ids = [id] := one
    exact ⟨_, .inr rfl, rfl⟩
  | retained number =>
    change (if number = 0 then [] else [number]) = [id] at one
    split at one
    · cases one
    · rename_i some_id
      obtain rfl : number = id := List.singleton_inj.1 one
      exact ⟨_, .inl rfl, if_neg some_id⟩

theorem withIds_none {props : Props} {added : AddedIds} (none : added.list = []) :
    withIds props added = props := by
  cases added with
  | published ids => exact if_pos none
  | retained number =>
    change (if number = 0 then [] else [number]) = [] at none
    split at none
    · rename_i zero
      exact if_pos zero
    · cases none

theorem accepts_nothing {items : List Item} :
    ∀ entry ∈ (Dict.empty : Props).entries, Stored items entry :=
  fun _ among => absurd among List.not_mem_nil

theorem written_stored {items : List Item} {entry : String × Property}
    (whole : ∀ item ∈ items, item.Whole) (stored : Stored items entry) :
    ∃ its, WrittenAs entry.1 entry.2 entry.2.asRead its := by
  rcases stored with ⟨item, inside, after, single, fits, passes, rfl⟩ | ⟨contents, some_users, good, rfl⟩
  · exact ⟨[item], writtenAs_object single fits passes (whole item inside)⟩
  · exact ⟨keptUsers contents, writtenAs_users some_users good⟩

section Section

variable {after : List UInt8} {items : List Item} {added : AddedIds}

section

variable (accepts : Accepts after items Dict.empty) (whole : ∀ item ∈ items, item.Whole)
  (single : added.list.length ≤ 1) (ids : ∀ id ∈ added.list, id < 2 ^ 28)
include accepts whole single ids

theorem written_withIds :
    ∀ entry ∈ (withIds (addItems Dict.empty items) added).entries,
      ∃ its, WrittenAs entry.1 entry.2 entry.2.asRead its := by
  have stored := stored_addItems accepts (fun _ inside => inside) (@accepts_nothing items)
  intro entry among
  match list : added.list with
  | [] =>
    rw [withIds_none list] at among
    exact written_stored whole (stored entry among)
  | [id] =>
    have ⟨property, one, set⟩ := @withIds_one (addItems Dict.empty items) _ _ list
    rw [set] at among
    rcases Dict.mem_entries_set among with rfl | old
    · exact ⟨_, writtenAs_id (ids id (by rw [list]; exact List.mem_singleton_self id)) one⟩
    · exact written_stored whole (stored entry old)
  | _ :: _ :: _ =>
    rw [list, List.length_cons, List.length_cons] at single
    omega

theorem countedAll_withIds :
    countedAll (withIds (addItems Dict.empty items) added) =
      (encodeItems (forwardedItems items added)).length := by
  have counted := countedAll_addItems accepts (fun _ inside => inside) whole
    (@accepts_nothing items)
  have zero : countedAll (Dict.empty : Props) = 0 := rfl
  rw [zero, Nat.zero_add] at counted
  match list : added.list with
  | [] =>
    rw [withIds_none list, counted, forwardedItems, if_pos list]
    rfl
  | [id] =>
    have fits := ids id (by rw [list]; exact List.mem_singleton_self id)
    have ⟨property, one, set⟩ := @withIds_one (addItems Dict.empty items) _ _ list
    have new := (writtenAs_id fits one).length
    have old := countedId_addItems accepts
    have none : countedId (Dict.empty : Props) = 0 := rfl
    have summed := countedAll_set (addItems Dict.empty items)
      (mqttPropertyIdentifierToString .subscriptionIdentifier) property
    have split := keptLength_split items
    have joined : encodeItems (forwardedItems items added) =
        encodeItems ((otherItems items).map Item.kept) ++ encodeItems [idItem id] := by
      rw [forwardedItems, list, if_neg (List.cons_ne_nil _ _), encodeItems, List.flatMap_append]
      rfl
    rw [set, joined, List.length_append]
    rw [none, Nat.zero_add] at old
    change _ + countedId (addItems Dict.empty items) = _ at summed
    change _ = _ + (encodeItems ((otherItems items).map Item.kept)).length at split
    omega
  | _ :: _ :: _ =>
    rw [list, List.length_cons, List.length_cons] at single
    omega

end

theorem not_stored_ids {entry : String × Property} (stored : Stored items entry) (ids : List Nat) :
    entry.2 ≠ .ids ids := by
  rcases stored with ⟨item, -, _, -, -, -, rfl⟩ | ⟨contents, -, -, rfl⟩
  · exact fun same => by cases same
  · exact fun same => by cases same

theorem writeEntries_lost {entries : List (String × Property)} {entry : String × Property}
    (among : entry ∈ entries) (lost : propertyWrite entry.1 entry.2 = none) :
    propertyWriteEntries entries = none := by
  induction entries with
  | nil => exact absurd among List.not_mem_nil
  | cons first rest ih =>
    rw [propertyWriteEntries]
    rcases List.mem_cons.1 among with rfl | later
    · rw [lost, Option.bind_none]
    · rw [ih later]
      cases propertyWrite first.1 first.2 <;> rfl

theorem mem_withIds {props : Props} {name : String} {property : Property}
    (notId : name ≠ mqttPropertyIdentifierToString .subscriptionIdentifier)
    (found : props.get? name = some property) (added : AddedIds) :
    (withIds props added).get? name = some property := by
  cases added with
  | published ids =>
    rw [withIds]
    split
    · exact found
    · rw [Dict.get?_set_ne _ _ notId, found]
  | retained id =>
    rw [withIds]
    split
    · exact found
    · rw [Dict.get?_set_ne _ _ notId, found]

theorem whole_of_written (accepts : Accepts after items Dict.empty) {body : List UInt8}
    (written : propertyWriteEntries (withIds (addItems Dict.empty items) added).entries =
      some body) : ∀ item ∈ items, item.Whole := by
  intro item among
  by_contra lost
  have type : item.prop.type = .string := by
    by_contra other
    exact lost fun _ is => absurd is other
  have single : item.prop ≠ .userProperty := fun user => by
    rw [user] at type
    cases type
  have notId : item.prop ≠ .subscriptionIdentifier := fun isId => by
    rw [isId] at type
    cases type
  have found := get?_of_item accepts among single
  have kept := mem_withIds (fun same => notId (name_injective same)) found added
  have gone := writeEntries_lost (Dict.mem_of_lookupEntries kept)
    (propertyWrite_lost (fits_of_accepts accepts among) lost)
  rw [gone] at written
  cases written

theorem single_of_read {props : Props} {memory rest written : List UInt8}
    (read : propertyReadAll memory cmdPublish.toNat written =
      .ok ((withIds props added).mapValues Property.asRead, rest)) : added.list.length ≤ 1 := by
  have ⟨items, _, accepts, _, _, _, same, _⟩ := propertyReadAll_items read
  have stored := stored_addItems accepts (fun _ inside => inside) (@accepts_nothing items)
  rw [← same] at stored
  by_contra several
  match added with
  | .retained id =>
    change ¬(if id = 0 then [] else [id]).length ≤ 1 at several
    split at several
    · exact several (Nat.zero_le 1)
    · exact several (Nat.le_refl 1)
  | .published [] => exact several (Nat.zero_le 1)
  | .published [_] => exact several (Nat.le_refl 1)
  | .published (first :: second :: others) =>
    have found : (withIds props (.published (first :: second :: others))).get?
        (mqttPropertyIdentifierToString .subscriptionIdentifier) =
          some (.ids (first :: second :: others)) := by
      rw [withIds, if_neg (List.cons_ne_nil _ _), Dict.get?_set_self]
    have entry := List.mem_map_of_mem (f := fun entry => (entry.1, Property.asRead entry.2))
      (Dict.mem_of_lookupEntries found)
    exact not_stored_ids (stored _ entry) _ rfl

theorem checked_again {props : Props} (single : added.list.length ≤ 1)
    (objects : ∀ entry ∈ props.entries, entry.2.asRead = entry.2)
    (checked : mqttPropertyCheckAll cmdPublish.toNat props = true) :
    mqttPropertyCheckAll cmdPublish.toNat ((withIds props added).mapValues Property.asRead) =
      true := by
  unfold mqttPropertyCheckAll at *
  rw [List.all_eq_true] at *
  intro entry among
  obtain ⟨before, inside, rfl⟩ := List.mem_map.1 among
  match list : added.list with
  | [] =>
    rw [withIds_none list] at inside
    rw [objects before inside]
    exact checked before inside
  | [id] =>
    have ⟨property, one, set⟩ := @withIds_one props _ _ list
    rw [set] at inside
    rcases Dict.mem_entries_set inside with rfl | old
    · have read : property.asRead = MqttProp.subscriptionIdentifier.object (some (.integer id)) := by
        rcases one with rfl | rfl <;> rfl
      rw [read]
      rfl
    · rw [objects before old]
      exact checked before old
  | _ :: _ :: _ =>
    rw [list, List.length_cons, List.length_cons] at single
    omega

end Section

section

variable {after : List UInt8} {items : List Item} {added : AddedIds}
  (accepts : Accepts after items Dict.empty)
include accepts

theorem forwarded_of_survives
    (checked : mqttPropertyCheckAll cmdPublish.toNat (addItems Dict.empty items) = true)
    (ids : ∀ id ∈ added.list, id < 2 ^ 28) (survives : Survives items added) :
    Forwarded (withIds (addItems Dict.empty items) added) := by
  have counted := countedAll_withIds accepts survives.whole survives.single ids
  have ⟨its, writes, length, reads⟩ := writtenAs_entries
    (written_withIds accepts survives.whole survives.single ids) (Dict.nodup _)
  have stored := stored_addItems accepts (fun _ inside => inside) (@accepts_nothing items)
  have objects : ∀ entry ∈ (addItems Dict.empty items).entries, entry.2.asRead = entry.2 := by
    intro entry among
    rcases stored entry among with ⟨item, -, _, -, -, -, rfl⟩ | ⟨contents, -, -, rfl⟩ <;> rfl
  have short : (encodeItems its).length < 2 ^ 28 := by
    rw [← length]
    exact lt_of_eq_of_lt counted survives.short
  have lengthAll : propertyGetLengthAll (withIds (addItems Dict.empty items) added) =
      (encodeItems its).length := by
    rw [propertyGetLengthAll, length]
    exact Nat.mod_eq_of_lt (by omega)
  refine ⟨encodeItems its, writes, lengthAll,
    varint 4 (encodeItems its).length ++ encodeItems its, ?_, fun memory rest => ?_⟩
  · rw [propertyWriteAll, writes, Option.map_some, lengthAll, mqttWriteVarint_eq short]
  · have ⟨acceptsAgain, read⟩ := reads (rest ++ memory) Dict.empty fun _ _ => rfl
    have same : addItems Dict.empty its =
        (withIds (addItems Dict.empty items) added).mapValues Property.asRead :=
      Dict.ext_entries (by rw [read]; rfl)
    rw [← same]
    apply propertyReadAll_complete acceptsAgain short
    rw [same]
    exact checked_again survives.single objects checked

theorem survives_of_forwarded (ids : ∀ id ∈ added.list, id < 2 ^ 28)
    (forwarded : Forwarded (withIds (addItems Dict.empty items) added)) :
    Survives items added := by
  have ⟨body, writes, length, written, all, reads⟩ := forwarded
  have whole := whole_of_written accepts writes
  have read := reads [] []
  have single := single_of_read read
  refine ⟨whole, single, ?_⟩
  have counted := countedAll_withIds accepts whole single ids
  have ⟨its, same, total, _⟩ := writtenAs_entries (written_withIds accepts whole single ids)
    (Dict.nodup _)
  obtain rfl : body = encodeItems its := Option.some.inj (writes.symm.trans same)
  have all_counted : countedAll (withIds (addItems Dict.empty items) added) =
      (encodeItems its).length := total
  rw [← counted, all_counted]
  by_contra large
  have word : (encodeItems its).length < 2 ^ 32 := by
    rw [← length]
    exact Nat.mod_lt _ (by decide)
  rw [propertyWriteAll, writes, Option.map_some, length] at all
  rw [← Option.some.inj all, List.append_assoc,
    propertyReadAll_long (Nat.le_of_not_lt large) word] at read
  cases read

end

/-- The properties of a PUBLISH that are accepted are a section of items, and nothing behind it is
read; with the identifiers that are added, they are forwarded exactly when they survive. -/
theorem properties_forwarded (memory gbuf rest : List UInt8) (props : Props) (added : AddedIds)
    (short : gbuf.length < 2 ^ 28)
    (accepted : propertyReadAll memory cmdPublish.toNat gbuf = .ok (props, rest))
    (ids : ∀ id ∈ added.list, id < 2 ^ 28) :
    ∃ items, gbuf = varint 4 (encodeItems items).length ++ encodeItems items ++ rest ∧
      (Forwarded (withIds props added) ↔ Survives items added) := by
  obtain ⟨items, accepts, bytes, rfl, checked⟩ := propertyReadAll_sound short accepted
  exact ⟨items, bytes, survives_of_forwarded accepts ids,
    forwarded_of_survives accepts checked ids⟩

/-- The object of a section with one property. -/
def onlyProperty (prop : MqttProp) (value : Option Value) : Props :=
  Dict.empty.set (mqttPropertyIdentifierToString prop) (prop.object value)

/-- Empty binary data is forwarded beside an identifier. -/
theorem empty_data_forwarded :
    ∃ items, [3, 9, 0, 0, 7] = varint 4 (encodeItems items).length ++ encodeItems items ++ [7] ∧
      (Forwarded (withIds (onlyProperty .correlationData (some (.string []))) (.retained 5)) ↔
        Survives items (.retained 5)) :=
  properties_forwarded [] [3, 9, 0, 0, 7] [7] _ (.retained 5) (by decide) rfl (by decide)

set_option maxRecDepth 4000 in
/-- An empty content type is accepted, and its object cannot be written; the two identifiers of a
message without properties are written, and refused when they are read. -/
theorem properties_lost :
    (¬ ∀ (memory gbuf rest : List UInt8) (props : Props) (added : AddedIds),
      gbuf.length < 2 ^ 28 →
      propertyReadAll memory cmdPublish.toNat gbuf = .ok (props, rest) →
      (∀ id ∈ added.list, id < 2 ^ 28) → Forwarded (withIds props added)) ∧
    ∃ written, propertyWriteAll (withIds Dict.empty (.published [1, 2])) = some written ∧
      propertyReadAll [] cmdPublish.toNat written = .error .duplicateProperty := by
  constructor
  · intro always
    have accepted : propertyReadAll [] cmdPublish.toNat [3, 3, 0, 0] =
        .ok (onlyProperty .contentType none, []) := rfl
    have forwarded := always [] [3, 3, 0, 0] [] _ (.retained 0) (by decide) accepted (by decide)
    have ⟨body, written, _⟩ := forwarded
    have stops : propertyWriteEntries
        (withIds (onlyProperty .contentType none) (.retained 0)).entries = none := by
      decide +kernel
    rw [stops] at written
    cases written
  · exact ⟨[4, 11, 1, 11, 2], by decide +kernel, rfl⟩

end Yunetas.Mqtt
