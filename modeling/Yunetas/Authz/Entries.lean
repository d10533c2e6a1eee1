import Mathlib.Data.List.Induction
import Yunetas.Authz.Roles

/-!
# The entries a user gets

The walk of `get_user_permissions` is a list of entries, each naming a key: the permissions of the
user's enabled roles in the order they are linked, each followed by those of the roles under it. The
object of permissions is these entries merged in order.
-/

namespace Yunetas.Authz

open List Dict

/-- What an entry says of its key. -/
inductive Mark where
  | permission (allow : Bool)
  | role (id : String)
  deriving DecidableEq, Repr

/-- The value of a key after one more entry: a permission replaces it, a role joins a list. -/
def Mark.merge (old : Option Value) : Mark → Value
  | .permission allow => .boolean allow
  | .role id =>
    match old with
    | none => .list [id]
    | some (.list ids) => .list (ids ++ [id])
    | some (.boolean allow) => .boolean allow

/-- What a mark permits or denies. -/
def Mark.allows : Mark → Option Bool
  | .permission allow => some allow
  | .role _ => none

/-- A key with what one entry says of it. -/
abbrev Entry := String × Mark

/-- Permissions a role states: its own and those of its list, unless unnamed. -/
def statedPermissions (role : Role) : List Permission :=
  (⟨role.permission, role.deny⟩ :: role.permissions).filter fun entry => entry.permission ≠ ""

/-- Entries of the permissions of a role, where it applies. -/
def permissionEntries (realmId service : String) (role : Role) : List Entry :=
  if applies role realmId service then
    (statedPermissions role).map fun entry => (entry.permission, .permission !entry.deny)
  else []

/-- Entries of a linked role for the required services. -/
def requiredEntries (realmId : String) (required : List ServiceName) (role : Role) : List Entry :=
  required.flatMap fun service =>
    if applies role realmId service.name then [(service.name, .role role.id)] else []

/-- Entries of a role under a linked one. -/
def childEntries (realmId service : String) (required : List ServiceName) (child : Role) :
    List Entry :=
  permissionEntries realmId service child ++
    required.flatMap fun service => permissionEntries realmId service.name child

/-- Entries of one reference of the user. -/
def linkedEntries (yuno : Yuno) (service : String) (required : List ServiceName) (id : String) :
    List Entry :=
  match getNode id yuno.treedb.roles with
  | none => []
  | some (role, children) =>
    if role.disabled then []
    else permissionEntries yuno.realmId service role ++
      requiredEntries yuno.realmId required role ++
      (addTreeChildren children).flatMap (childEntries yuno.realmId service required)

/-- Ids of the roles a user refers to. -/
def linkedRoles (yuno : Yuno) (username : String) : List String :=
  (yuno.treedb.users.get? username).getD []

/-- Entries a user gets, in order. -/
def userEntries (yuno : Yuno) (service username : String) (kw : Kw) : List Entry :=
  (linkedRoles yuno username).flatMap (linkedEntries yuno service kw.requiredServices)

variable (permissions : Permissions)

theorem setPermission_foldl (entries : List Permission) :
    entries.foldl setPermission permissions = permissions.mergeAll Mark.merge
        ((entries.filter fun entry => entry.permission ≠ "").map fun entry =>
          (entry.permission, .permission !entry.deny)) := by
  induction entries generalizing permissions with
  | nil => rfl
  | cons entry rest ih =>
    rw [foldl_cons, ih]
    unfold setPermission
    by_cases unnamed : entry.permission = ""
    · simp [unnamed]
    · rw [if_neg unnamed, filter_cons_of_pos (by simpa using unnamed)]
      rfl

theorem appendPermission_eq (role : Role) (realmId service : String) :
    appendPermission permissions role realmId service =
      permissions.mergeAll Mark.merge (permissionEntries realmId service role) := by
  unfold appendPermission permissionEntries
  split
  · exact setPermission_foldl permissions (⟨role.permission, role.deny⟩ :: role.permissions)
  · rfl

theorem appendRole_eq (role : Role) (realmId : String) (service : ServiceName) :
    appendRole permissions role realmId service = permissions.mergeAll Mark.merge
        (if applies role realmId service.name then [(service.name, .role role.id)] else []) := by
  unfold appendRole
  split
  · show _ = permissions.set service.name _
    cases stored : permissions.get? service.name with
    | none => rfl
    | some value =>
      cases value with
      | list ids => rfl
      | boolean allow => exact (permissions.set_get? stored).symm
  · rfl

theorem appendLinkedRole_eq (realmId service : String) (required : List ServiceName)
    (permissions : Permissions) (role : Role) :
    appendLinkedRole realmId service required permissions role = permissions.mergeAll Mark.merge
        (permissionEntries realmId service role ++ requiredEntries realmId required role) := by
  unfold appendLinkedRole
  rw [appendPermission_eq, mergeAll_append]
  exact foldl_mergeAll Mark.merge _ _
    (fun dict service => appendRole_eq dict role realmId service) required _

theorem appendChildRole_eq (realmId service : String) (required : List ServiceName)
    (permissions : Permissions) (child : Role) :
    appendChildRole realmId service required permissions child =
      permissions.mergeAll Mark.merge (childEntries realmId service required child) := by
  unfold appendChildRole childEntries
  rw [appendPermission_eq, mergeAll_append]
  exact foldl_mergeAll Mark.merge _ _
    (fun dict service => appendPermission_eq dict child realmId service.name) required _

theorem appendReference_eq (yuno : Yuno) (service : String) (required : List ServiceName)
    (permissions : Permissions) (id : String) :
    appendReference yuno service required permissions id =
      permissions.mergeAll Mark.merge (linkedEntries yuno service required id) := by
  unfold appendReference linkedEntries
  cases getNode id yuno.treedb.roles with
  | none => rfl
  | some node =>
    by_cases disabled : node.1.disabled
    · simp only [disabled, if_true]
      rfl
    · simp only [if_neg disabled]
      rw [mergeAll_append, ← appendLinkedRole_eq]
      exact foldl_mergeAll Mark.merge _ _
        (appendChildRole_eq yuno.realmId service required) _ _

theorem getUserPermissions_eq (yuno : Yuno) (service username : String) (kw : Kw) :
    getUserPermissions yuno service username kw =
      Dict.empty.mergeAll Mark.merge (userEntries yuno service username kw) := by
  unfold getUserPermissions userEntries linkedRoles
  cases yuno.treedb.users.get? username with
  | none => rfl
  | some roles =>
    exact foldl_mergeAll Mark.merge _ _
      (appendReference_eq yuno service kw.requiredServices) roles Dict.empty

/-- What the entries of a key say, in order. -/
def said (key : String) (entries : List Entry) : List Bool :=
  entries.filterMap fun entry => if entry.1 = key then entry.2.allows else none

theorem merge_foldl (marks : List Mark) (old : Option Value) :
    (marks.foldl (fun old mark => some (mark.merge old)) old).any Value.booleanValue =
      ((marks.filterMap Mark.allows).getLast?).getD (old.any Value.booleanValue) := by
  induction marks using List.reverseRecOn with
  | nil => rfl
  | append_singleton marks mark ih =>
    rw [foldl_append, filterMap_append]
    cases mark with
    | permission allow => simp [Mark.merge, Mark.allows, Value.booleanValue]
    | role id =>
      have quiet : [Mark.role id].filterMap Mark.allows = [] := rfl
      rw [quiet, append_nil, ← ih]
      cases marks.foldl (fun old mark => some (mark.merge old)) old with
      | none => rfl
      | some value => cases value <;> rfl

theorem merged_boolean (entries : List Entry) (key : String) :
    ((Dict.empty.mergeAll Mark.merge entries).get? key).any Value.booleanValue =
      ((said key entries).getLast?).getD false := by
  rw [get?_mergeAll, merge_foldl, filterMap_filterMap]
  congr 3
  funext entry
  split <;> rfl

end Yunetas.Authz
