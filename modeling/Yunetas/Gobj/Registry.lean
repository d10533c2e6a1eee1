import Yunetas.Gobj.Kwid

/-!
# The register of services

A name from outside is compared without case, one byte to a character.
`gobj.c` keeps the services of a yuno in a dictionary by lower-case name. A service is registered
when it is created and taken out when it is destroyed, its children after it; the register is
written by name, whoever the entry is of.
-/

namespace Yunetas.Gobj

/-! ## Services and public events of a yuno -/

/-- A service: an object registered under its name. -/
structure Service where
  address : Nat
  /-- `gobj_name`. -/
  name : String
  /-- Output events of its class with `EVF_PUBLIC_EVENT`. -/
  publicOutputEvents : List String
  deriving DecidableEq, Repr

/-- `strntolower`. -/
def strntolower (name : String) : String := String.ofList (name.toList.map Char.toLower)

/-- `strcasecmp` finds no difference. -/
def strcaseEq (left right : String) : Bool :=
  left.toList.map Char.toLower = right.toList.map Char.toLower

/-- The registries of a yuno. -/
structure Yuno where
  /-- `gobj_yuno_role`. -/
  role : String
  /-- `gobj_yuno_name`. -/
  name : String
  /-- `gobj_yuno`. -/
  root : Service
  defaultService : Option Service
  /-- `__jn_services__`, by lower-case name. -/
  services : Dict String Service
  publicEvents : List String
  /-- `gbuffer_deserialize`, as an address. -/
  gbufferDeserialize : Json → Int

/-- Binary fields of `kw_add_binary_type`: `gobj_start_up` registers one. -/
def binaryTypes (yuno : Yuno) : List BinaryType :=
  [⟨"gbuffer", "__gbuffer___", yuno.gbufferDeserialize⟩]

/-- `GOBJ_NAME_MAX`. -/
def gobjNameMax : Nat := 255

/-- `gobj_find_service`. -/
def gobjFindService (yuno : Yuno) (service : String) : Option Service :=
  if service = "" then none
  else if strcaseEq service "__default_service__" then yuno.defaultService
  else if strcaseEq service "__yuno__" || strcaseEq service "__root__" then some yuno.root
  else yuno.services.get? (strntolower (String.ofList (service.toList.take gobjNameMax)))

/-- `gclass_find_public_event`. -/
def gclassFindPublicEvent (yuno : Yuno) (event : String) : Option String :=
  yuno.publicEvents.find? fun name => strcaseEq name event

/-- `gobj_has_output_event` for a public event. -/
def hasPublicOutputEvent (service : Service) (event : String) : Bool :=
  event ∈ service.publicOutputEvents

/-- `iev_create_from_gbuffer`: the event and the key words of a decoded message. Nothing when the
text is bad json, `event` is missing or `kw` is no dict; the event is missing when it is nobody's
public event. -/
def ievCreateFromGbuffer (yuno : Yuno) (wire : Option Json) : Option (Option String × Json.Fields) :=
  let event := kwGetStr wire "event" ""
  match kwGetDict wire "kw" with
  | none => none
  | some kw =>
    if event = "" then none
    else some (gclassFindPublicEvent yuno event, kwDeserialize (binaryTypes yuno) kw)

/-! ## The register -/

/-- The flags of `gobj_create2` that the register reads. -/
structure GobjFlags where
  /-- `gobj_flag_yuno`. -/
  yuno : Bool
  /-- `gobj_flag_service` or `gobj_flag_top_service`. -/
  service : Bool
  /-- `gobj_flag_default_service`. -/
  defaultService : Bool
  deriving DecidableEq, Repr

/-- The gobj becomes a service in `gobj_create2`: of itself, as the yuno, or as the default one. -/
def GobjFlags.becomesService (flags : GobjFlags) : Bool :=
  flags.yuno || flags.service || flags.defaultService

/-- A gobj that is not destroyed; its number is that of its creation. -/
structure LivingGobj where
  handle : Nat
  /-- `gobj_name`. -/
  name : String
  /-- `parent`, none of the yuno. -/
  parent : Option Nat
  /-- `gobj_flag` has `gobj_flag_service` or `gobj_flag_top_service`. -/
  service : Bool
  deriving DecidableEq, Repr

/-- The gobjs of a process and their register. -/
structure Registry where
  gobjs : List LivingGobj
  nextHandle : Nat
  /-- `__jn_services__`. -/
  services : Dict String Nat
  yuno : Option Nat
  /-- `__default_service__`, which a destruction does not reset. -/
  defaultService : Option Nat

/-- The key of a service: its name in lower case. -/
def LivingGobj.key (gobj : LivingGobj) : String := strntolower gobj.name

namespace Registry

/-- Nothing is created. -/
def empty : Registry := ⟨[], 0, .empty, none, none⟩

/-- `gobj_find_service`. -/
def findService (registry : Registry) (service : String) : Option Nat :=
  if service = "" then none
  else if strcaseEq service "__default_service__" then registry.defaultService
  else if strcaseEq service "__yuno__" || strcaseEq service "__root__" then registry.yuno
  else registry.services.get? (strntolower service)

/-- `gobj_create2` refuses: the name is too long, there is a yuno, there is no parent, the service
is registered, or there is a default service. The flags of the default service are added after the
search. -/
def refuses (registry : Registry) (name : String) (flags : GobjFlags) (parent : Option Nat) :
    Bool :=
  gobjNameMax < name.utf8ByteSize ||
    (if flags.yuno then registry.yuno.isSome
      else !(registry.gobjs.any fun gobj => some gobj.handle = parent)) ||
    ((flags.yuno || flags.service) && (registry.findService name).isSome) ||
    (flags.defaultService && registry.defaultService.isSome)

/-- `_register_service`. -/
def registerService (services : Dict String Nat) (gobj : LivingGobj) : Dict String Nat :=
  services.set gobj.key gobj.handle

/-- `_deregister_service`. -/
def deregisterService (services : Dict String Nat) (gobj : LivingGobj) : Dict String Nat :=
  services.erase gobj.key

/-- `gobj_create2`. -/
def create (registry : Registry) (name : String) (flags : GobjFlags) (parent : Option Nat) :
    Registry :=
  if registry.refuses name flags parent then registry
  else
    let gobj : LivingGobj := ⟨registry.nextHandle, name,
      if flags.yuno then none else parent, flags.becomesService⟩
    { gobjs := registry.gobjs ++ [gobj]
      nextHandle := registry.nextHandle + 1
      services := if gobj.service then registerService registry.services gobj
        else registry.services
      yuno := if flags.yuno then some gobj.handle else registry.yuno
      defaultService := if flags.defaultService then some gobj.handle
        else registry.defaultService }

/-- A gobj and those below it: a parent is older than its children. -/
def tree (gobjs : List LivingGobj) (root : Nat) : List Nat :=
  gobjs.foldl (fun below gobj =>
    if gobj.handle = root ∨ ∃ parent ∈ gobj.parent, parent ∈ below then below ++ [gobj.handle]
    else below) []

/-- `gobj_destroy` and `gobj_destroy_children`: every service of the tree is taken out of the
register by its name. -/
def destroy (registry : Registry) (root : Nat) : Registry :=
  let doomed := tree registry.gobjs root
  { registry with
    gobjs := registry.gobjs.filter fun gobj => gobj.handle ∉ doomed
    services := (registry.gobjs.filter fun gobj =>
      gobj.handle ∈ doomed && gobj.service).foldl deregisterService registry.services }

end Registry

/-- A creation or a destruction. -/
inductive GobjEvent where
  /-- `gobj_create2`. -/
  | create (name : String) (flags : GobjFlags) (parent : Option Nat)
  /-- `gobj_destroy` of a gobj. -/
  | destroy (root : Nat)
  deriving DecidableEq, Repr

/-- One event. -/
def Registry.step (registry : Registry) : GobjEvent → Registry
  | .create name flags parent => registry.create name flags parent
  | .destroy root => registry.destroy root

end Yunetas.Gobj
