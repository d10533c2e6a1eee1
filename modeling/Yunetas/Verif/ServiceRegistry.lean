import Yunetas.Lib.Run
import Yunetas.Gobj.Registry

/-!
# The register names the living services

The register is right along every run in which a destruction leaves no service alive under the name
of one it destroys: the entry is deleted by name, so it is then missing for the one that lives.
-/

namespace Yunetas.Gobj

open List Bool Dict

/-- Each entry is of a living service of that name, and each name of a living service has as entry
the one of that name that was registered last. -/
structure NamesLiving (registry : Registry) : Prop where
  living : ∀ key handle, registry.services.get? key = some handle → ∃ gobj ∈ registry.gobjs,
    gobj.handle = handle ∧ gobj.service = true ∧ gobj.key = key
  latest : ∀ gobj ∈ registry.gobjs, gobj.service = true → ∃ newest ∈ registry.gobjs,
    newest.service = true ∧ newest.key = gobj.key ∧
      registry.services.get? gobj.key = some newest.handle ∧
      ∀ other ∈ registry.gobjs, other.service = true → other.key = gobj.key →
        other.handle ≤ newest.handle

/-- No service stays alive under the name of one that is destroyed. -/
def LeavesNoNamesake (registry : Registry) : GobjEvent → Prop
  | .create _ _ _ => True
  | .destroy root => ∀ gobj ∈ registry.gobjs, gobj.service = true →
      gobj.handle ∈ Registry.tree registry.gobjs root → ∀ other ∈ registry.gobjs,
        other.service = true → other.handle ∉ Registry.tree registry.gobjs root →
          other.key ≠ gobj.key

/-- The register is right, and handles are those of the creations. -/
structure Registered (registry : Registry) : Prop where
  names : NamesLiving registry
  distinct : (registry.gobjs.map LivingGobj.handle).Nodup
  next : ∀ gobj ∈ registry.gobjs, gobj.handle < registry.nextHandle

theorem get?_deregister (gobjs : List LivingGobj) (services : Dict String Nat) (key : String) :
    (gobjs.foldl Registry.deregisterService services).get? key =
      if ∃ gobj ∈ gobjs, gobj.key = key then none else services.get? key := by
  induction gobjs generalizing services with
  | nil => simp
  | cons first rest ih =>
    rw [foldl_cons, ih]
    have erased : (Registry.deregisterService services first).get? key =
        if key = first.key then none else services.get? key := get?_erase ..
    by_cases here : first.key = key
    · have named : ∃ gobj ∈ first :: rest, gobj.key = key := ⟨first, mem_cons_self, here⟩
      rw [erased, if_pos named, if_pos here.symm]
      split <;> rfl
    · have later : (∃ gobj ∈ first :: rest, gobj.key = key) ↔ ∃ gobj ∈ rest, gobj.key = key := by
        constructor
        · rintro ⟨gobj, among, same⟩
          rcases mem_cons.1 among with rfl | below
          · exact absurd same here
          · exact ⟨gobj, below, same⟩
        · rintro ⟨gobj, among, same⟩
          exact ⟨gobj, mem_cons_of_mem _ among, same⟩
      rw [if_congr later rfl rfl, erased, if_neg (Ne.symm here)]

namespace Registered

variable {registry : Registry}

theorem empty : Registered .empty where
  names := {
    living := fun key handle found => by cases found
    latest := fun gobj among => absurd among not_mem_nil }
  distinct := nodup_nil
  next gobj among := absurd among not_mem_nil

theorem add (registered : Registered registry) {gobj : LivingGobj}
    (handle : gobj.handle = registry.nextHandle) (yuno defaultService : Option Nat) :
    Registered ⟨registry.gobjs ++ [gobj], registry.nextHandle + 1,
      if gobj.service then Registry.registerService registry.services gobj else registry.services,
      yuno, defaultService⟩ := by
  have new : ∀ other ∈ registry.gobjs, other.handle < gobj.handle := by
    intro other among
    rw [handle]
    exact registered.next other among
  have distinct : ((registry.gobjs ++ [gobj]).map LivingGobj.handle).Nodup := by
    rw [map_append, map_singleton]
    apply nodup_append.2
    refine ⟨registered.distinct, nodup_singleton _, ?_⟩
    intro one here other there
    obtain ⟨old, among, rfl⟩ := mem_map.1 here
    rw [mem_singleton.1 there]
    exact Nat.ne_of_lt (new old among)
  have next : ∀ other ∈ registry.gobjs ++ [gobj], other.handle < registry.nextHandle + 1 := by
    intro other among
    rcases mem_append.1 among with old | same
    · have below := registered.next other old
      omega
    · rw [mem_singleton.1 same, handle]
      omega
  refine ⟨⟨?_, ?_⟩, distinct, next⟩
  · intro key other found
    by_cases service : gobj.service = true
    · rw [if_pos service, Registry.registerService, get?_set] at found
      by_cases same : key = gobj.key
      · rw [if_pos same] at found
        obtain rfl := Option.some.inj found
        exact ⟨gobj, mem_append_right _ mem_cons_self, rfl, service, same.symm⟩
      · rw [if_neg same] at found
        have ⟨old, among, holds⟩ := registered.names.living key other found
        exact ⟨old, mem_append_left _ among, holds⟩
    · rw [if_neg service] at found
      have ⟨old, among, holds⟩ := registered.names.living key other found
      exact ⟨old, mem_append_left _ among, holds⟩
  · intro one among service
    by_cases named : gobj.service = true ∧ one.key = gobj.key
    · refine ⟨gobj, mem_append_right _ mem_cons_self, named.1, named.2.symm, ?_, ?_⟩
      · rw [if_pos named.1, Registry.registerService, named.2, get?_set_self]
      · intro other there _ _
        rcases mem_append.1 there with old | same
        · exact Nat.le_of_lt (new other old)
        · exact Nat.le_of_eq (congrArg LivingGobj.handle (mem_singleton.1 same))
    · have before : one ∈ registry.gobjs := by
        rcases mem_append.1 among with old | same
        · exact old
        · rw [mem_singleton.1 same] at service named
          exact absurd ⟨service, rfl⟩ named
      have ⟨newest, there, isService, key, found, last⟩ :=
        registered.names.latest one before service
      refine ⟨newest, mem_append_left _ there, isService, key, ?_, ?_⟩
      · by_cases service : gobj.service = true
        · rw [if_pos service, Registry.registerService, get?_set,
            if_neg fun same => named ⟨service, same⟩]
          exact found
        · rw [if_neg service]
          exact found
      · intro other here serves same
        rcases mem_append.1 here with old | new
        · exact last other old serves same
        · rw [mem_singleton.1 new] at serves same
          exact absurd ⟨serves, same.symm⟩ named

theorem create (registered : Registered registry) (name : String) (flags : GobjFlags)
    (parent : Option Nat) : Registered (registry.create name flags parent) := by
  unfold Registry.create
  split
  · exact registered
  · exact registered.add rfl _ _

theorem get?_destroy (registry : Registry) (root : Nat) (key : String) :
    (registry.destroy root).services.get? key =
      if ∃ gobj ∈ registry.gobjs, gobj.service = true ∧
        gobj.handle ∈ Registry.tree registry.gobjs root ∧ gobj.key = key then none
      else registry.services.get? key := by
  show ((registry.gobjs.filter _).foldl Registry.deregisterService registry.services).get? key = _
  rw [get?_deregister]
  apply if_congr ?_ rfl rfl
  constructor
  · rintro ⟨gobj, among, same⟩
    have ⟨there, doomed⟩ := mem_filter.1 among
    simp only [and_eq_true, decide_eq_true_eq] at doomed
    exact ⟨gobj, there, doomed.2, doomed.1, same⟩
  · rintro ⟨gobj, there, service, doomed, same⟩
    refine ⟨gobj, mem_filter.2 ⟨there, ?_⟩, same⟩
    simp only [and_eq_true, decide_eq_true_eq]
    exact ⟨doomed, service⟩

theorem mem_destroy {root : Nat} {gobj : LivingGobj} :
    gobj ∈ (registry.destroy root).gobjs ↔ gobj ∈ registry.gobjs ∧
      gobj.handle ∉ Registry.tree registry.gobjs root := by
  show gobj ∈ registry.gobjs.filter _ ↔ _
  rw [mem_filter, decide_eq_true_eq]

theorem destroy (registered : Registered registry) {root : Nat}
    (alone : LeavesNoNamesake registry (.destroy root)) : Registered (registry.destroy root) := by
  have names := registered.names
  refine ⟨⟨?_, ?_⟩, ?_, ?_⟩
  · intro key handle found
    rw [get?_destroy] at found
    split at found
    · cases found
    · rename_i untouched
      obtain ⟨gobj, among, same, service, named⟩ := names.living key handle found
      refine ⟨gobj, mem_destroy.2 ⟨among, fun doomed => ?_⟩, same, service, named⟩
      exact untouched ⟨gobj, among, service, doomed, named⟩
  · intro gobj among service
    obtain ⟨here, lives⟩ := mem_destroy.1 among
    have untouched : ¬∃ other ∈ registry.gobjs, other.service = true ∧
        other.handle ∈ Registry.tree registry.gobjs root ∧ other.key = gobj.key := by
      rintro ⟨other, there, serves, doomed, same⟩
      exact alone other there serves doomed gobj here service lives same.symm
    obtain ⟨newest, there, isService, key, found, last⟩ := names.latest gobj here service
    refine ⟨newest, mem_destroy.2 ⟨there, fun doomed => ?_⟩, isService, key, ?_, ?_⟩
    · exact untouched ⟨newest, there, isService, doomed, key⟩
    · rw [get?_destroy, if_neg untouched]
      exact found
    · intro other left serves same
      exact last other (mem_destroy.1 left).1 serves same
  · exact registered.distinct.sublist (filter_sublist.map LivingGobj.handle)
  · intro gobj among
    exact registered.next gobj (mem_destroy.1 among).1

theorem step (registered : Registered registry) (event : GobjEvent)
    (alone : LeavesNoNamesake registry event) : Registered (registry.step event) := by
  cases event with
  | create name flags parent => exact registered.create name flags parent
  | destroy root => exact registered.destroy alone

theorem alone_of_names {event : GobjEvent} (names : NamesLiving (registry.step event)) :
    LeavesNoNamesake registry event := by
  cases event with
  | create => trivial
  | destroy root =>
    intro gobj here service doomed other there serves lives same
    have ⟨newest, _, _, _, found, _⟩ := names.latest other (mem_destroy.2 ⟨there, lives⟩) serves
    change (registry.destroy root).services.get? other.key = _ at found
    rw [get?_destroy, if_pos ⟨gobj, here, service, doomed, same.symm⟩] at found
    cases found

end Registered

/-- In every state of a run the register names only living services, and each name of a living
service has as its entry the one registered last, exactly when no destruction of the run leaves a
service alive under the name of one it destroys. -/
theorem register_names_living (events : List GobjEvent) :
    AllStates Registry.step NamesLiving .empty events ↔
      AllSteps Registry.step LeavesNoNamesake .empty events := by
  apply @allStates_iff_allSteps _ _ Registry.step LeavesNoNamesake Registered NamesLiving
  · exact fun registry event registered alone => registered.step event alone
  · exact fun registry registered => registered.names
  · exact fun registry event _ names => Registered.alone_of_names names
  · exact Registered.empty

/-- A default service with the name of another service, in other letters, is created: its
destruction deletes the entry of that name. -/
theorem namesake_loses_entry :
    ¬AllStates Registry.step NamesLiving .empty
      [.create "yuno" ⟨true, false, false⟩ none, .create "store" ⟨false, true, false⟩ (some 0),
        .create "Store" ⟨false, false, true⟩ (some 0), .destroy 2] := by
  intro all
  have ⟨newest, _, _, _, found, _⟩ := all.last.latest ⟨1, "store", some 0, true⟩
    (by decide) rfl
  have gone : (run Registry.step .empty [.create "yuno" ⟨true, false, false⟩ none,
      .create "store" ⟨false, true, false⟩ (some 0),
      .create "Store" ⟨false, false, true⟩ (some 0), .destroy 2]).services.get? "store" = none := by
    decide
  rw [show LivingGobj.key ⟨1, "store", some 0, true⟩ = "store" by decide, gone] at found
  cases found

end Yunetas.Gobj
