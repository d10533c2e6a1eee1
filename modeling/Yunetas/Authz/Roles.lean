import Yunetas.Lib.Merged

/-!
# Roles and permissions

`C_AUTHZ` keeps roles and users in the treedb `treedb_authzs`. A role may hang from a parent role,
and a user refers to the roles linked to it. `authz_checker` collects the permissions a user gets
from its roles into one object, keyed by permission, and answers by the first key that names the
authz or `*`.

A user's references are read in the order of its `roles` field, the children of a role in the order
of its `roles` hook. Roles form a forest: no role hangs from itself, directly or not.
-/

namespace Yunetas.Authz

/-- An element of the `permissions` list of a role. -/
structure Permission where
  permission : String
  deny : Bool
  deriving DecidableEq, Repr

/-- Fields of a node of the `roles` topic that a check reads. -/
structure Role where
  id : String
  disabled : Bool := false
  /-- Realm where it applies, or `*`. -/
  realmId : String
  /-- Service where it applies, or `*`. -/
  service : String
  permission : String := ""
  deny : Bool := false
  permissions : List Permission := []
  deriving DecidableEq, Repr

/-- Roles with their hooks `roles`, as first child and next sibling. -/
inductive Forest where
  | nil
  | cons (role : Role) (children siblings : Forest)
  deriving DecidableEq, Repr

/-- The treedb `treedb_authzs`: the `roles` topic, and of each user its `roles` references. -/
structure Treedb where
  roles : Forest
  users : Dict String (List String)

/-- A service name a message may require. The delimiter of json paths, character 96, is not part
of the name of a service. -/
structure ServiceName where
  name : String
  plain : Char.ofNat 96 ∉ name.toList

/-- What a check reads of its `kw`. -/
structure Kw where
  /-- `__username__`, empty when absent. -/
  username : String
  /-- The strings of `required_services`. -/
  requiredServices : List ServiceName := []

/-- What a check reads of the object checked. -/
structure Gobj where
  name : String
  authzTable : Option (List String)

/-- What a check reads of the yuno and its `C_AUTHZ` service. -/
structure Yuno where
  /-- `gobj_yuno_realm_id`. -/
  realmId : String
  globalAuthzTable : List String
  /-- The treedb of `C_AUTHZ`. -/
  treedb : Treedb

/-- A value of the object of permissions. -/
inductive Value where
  | boolean (allow : Bool)
  | list (ids : List String)
  deriving DecidableEq, Repr

/-- `json_boolean_value`: only a true boolean is true. -/
def Value.booleanValue : Value → Bool
  | .boolean allow => allow
  | .list _ => false

/-- The object of permissions under construction. -/
abbrev Permissions := Dict String Value

/-- `gobj_get_node` in the `roles` topic: a role with the roles under it. -/
def getNode (id : String) : Forest → Option (Role × Forest)
  | .nil => none
  | .cons role children siblings =>
    if role.id = id then some (role, children)
    else (getNode id children).or (getNode id siblings)

/-- `add_tree_children`: roles under a node that are not disabled, each before those under it. A
filtered role hides those under it. -/
def addTreeChildren : Forest → List Role
  | .nil => []
  | .cons role children siblings =>
    if role.disabled then addTreeChildren siblings
    else role :: addTreeChildren children ++ addTreeChildren siblings

/-- The test of `append_permission` and `append_role`: the role is enabled and applies to the realm
and the service. -/
def applies (role : Role) (realmId service : String) : Bool :=
  !role.disabled && (role.realmId = realmId ∨ role.realmId = "*") &&
    (role.service = service ∨ role.service = "*")

/-- Store one permission, unless its name is empty. -/
def setPermission (permissions : Permissions) (entry : Permission) : Permissions :=
  if entry.permission = "" then permissions
  else permissions.set entry.permission (.boolean !entry.deny)

/-- `append_permission`: the role's own permission, then its `permissions` list. -/
def appendPermission (permissions : Permissions) (role : Role) (realmId service : String) :
    Permissions :=
  if applies role realmId service then
    role.permissions.foldl setPermission (setPermission permissions ⟨role.permission, role.deny⟩)
  else permissions

/-- `append_role`: the id of the role joins the list under the service, created when absent. A
value that is not a list stays. -/
def appendRole (permissions : Permissions) (role : Role) (realmId : String)
    (service : ServiceName) : Permissions :=
  if applies role realmId service.name then
    match permissions.get? service.name with
    | none => permissions.set service.name (.list [role.id])
    | some (.list ids) => permissions.set service.name (.list (ids ++ [role.id]))
    | some (.boolean _) => permissions
  else permissions

/-- The body of the loop over a linked role: its permissions, then its id under each required
service. -/
def appendLinkedRole (realmId service : String) (required : List ServiceName)
    (permissions : Permissions) (role : Role) : Permissions :=
  required.foldl (fun permissions service => appendRole permissions role realmId service)
    (appendPermission permissions role realmId service)

/-- The body of the loop over the roles under a linked one: its permissions, also for each required
service. -/
def appendChildRole (realmId service : String) (required : List ServiceName)
    (permissions : Permissions) (child : Role) : Permissions :=
  required.foldl
    (fun permissions service => appendPermission permissions child realmId service.name)
    (appendPermission permissions child realmId service)

/-- The body of the loop of `get_user_permissions` for one reference: a role that is missing or
disabled gives nothing. -/
def appendReference (yuno : Yuno) (service : String) (required : List ServiceName)
    (permissions : Permissions) (id : String) : Permissions :=
  match getNode id yuno.treedb.roles with
  | none => permissions
  | some (role, children) =>
    if role.disabled then permissions
    else
      (addTreeChildren children).foldl (appendChildRole yuno.realmId service required)
        (appendLinkedRole yuno.realmId service required permissions role)

/-- `get_user_permissions`: nothing for an unknown user. -/
def getUserPermissions (yuno : Yuno) (service username : String) (kw : Kw) : Permissions :=
  match yuno.treedb.users.get? username with
  | none => Dict.empty
  | some roles => roles.foldl (appendReference yuno service kw.requiredServices) Dict.empty

/-- `gobj_authz` finds a description: in the table of the class, else in the global table. An empty
authz asks for the whole table of the class. -/
def gobjAuthz (yuno : Yuno) (gobj : Gobj) (authz : String) : Bool :=
  match gobj.authzTable with
  | none => authz ≠ "" ∧ authz ∈ yuno.globalAuthzTable
  | some table => authz = "" ∨ authz ∈ table ∨ authz ∈ yuno.globalAuthzTable

/-- A key that decides the check. -/
def names (authz key : String) : Bool := key = "*" ∨ key = authz

/-- The user a check is about: that of the message, else that of the source. -/
def checkedUser (kw : Kw) (srcUsername : String) : String :=
  if kw.username = "" then srcUsername else kw.username

/-- `authz_checker`; the yuno is absent when no `C_AUTHZ` service is found. -/
def authzChecker (found : Option Yuno) (gobjToCheck : Gobj) (authz : String) (kw : Kw)
    (srcUsername : String) : Bool :=
  match found with
  | none => false
  | some yuno =>
    if checkedUser kw srcUsername = "" then false
    else if gobjAuthz yuno gobjToCheck authz then
      let permissions :=
        getUserPermissions yuno gobjToCheck.name (checkedUser kw srcUsername) kw
      match permissions.entries.find? fun entry => names authz entry.1 with
      | none => false
      | some entry => entry.2.booleanValue
    else false

end Yunetas.Authz
