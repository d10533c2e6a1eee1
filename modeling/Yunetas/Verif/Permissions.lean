import Yunetas.Authz.Entries

/-!
# What the authorization check answers

A role is effective for a user and a service when it is linked to the user, or hangs below a linked
one through enabled roles only, and it applies to the realm and the service. The check reads the
entries of the effective roles in the order of the links: the first entry that names the authz or
`*` chooses the key, and the last entry of that key is the answer. So the check never answers yes
unless an effective role grants; where no effective role denies it answers yes whenever one grants,
in whatever order the roles are linked. Where some grant and some deny, the order decides.
-/

namespace Yunetas.Authz

open List Option Dict

/-- The role is in the forest, itself and every role above it enabled. -/
inductive Reached : Forest → Role → Prop where
  | root {role : Role} {children siblings : Forest} (enabled : role.disabled = false) :
      Reached (.cons role children siblings) role
  | under {role above : Role} {children siblings : Forest} (enabled : above.disabled = false)
      (reached : Reached children role) : Reached (.cons above children siblings) role
  | beside {role first : Role} {children siblings : Forest} (reached : Reached siblings role) :
      Reached (.cons first children siblings) role

theorem mem_addTreeChildren (forest : Forest) (role : Role) :
    role ∈ addTreeChildren forest ↔ Reached forest role := by
  constructor
  · intro among
    induction forest with
    | nil => cases among
    | cons first children siblings under beside =>
      unfold addTreeChildren at among
      split at among
      · exact .beside (beside among)
      · rename_i enabled
        have enabled : first.disabled = false := by simpa using enabled
        rcases mem_append.1 among with among | among
        · cases among with
          | head => exact .root enabled
          | tail _ among => exact .under enabled (under among)
        · exact .beside (beside among)
  · intro reached
    induction reached with
    | root enabled => simp [addTreeChildren, enabled]
    | under enabled _ ih => simp [addTreeChildren, enabled, ih]
    | beside _ ih =>
      unfold addTreeChildren
      split
      · exact ih
      · exact mem_append_right _ ih

/-- The role gives its permissions to the user on the service. -/
def Effective (yuno : Yuno) (service username : String) (role : Role) : Prop :=
  (∃ id ∈ linkedRoles yuno username, ∃ linked children,
    getNode id yuno.treedb.roles = some (linked, children) ∧ linked.disabled = false ∧
      (role = linked ∨ Reached children role)) ∧
  (role.realmId = yuno.realmId ∨ role.realmId = "*") ∧
  (role.service = service ∨ role.service = "*")

/-- The role allows the authz, by name or by `*`. -/
def Grants (authz : String) (role : Role) : Prop :=
  ∃ entry ∈ statedPermissions role, names authz entry.permission = true ∧ entry.deny = false

/-- The role denies the authz, by name or by `*`. -/
def Denies (authz : String) (role : Role) : Prop :=
  ∃ entry ∈ statedPermissions role, names authz entry.permission = true ∧ entry.deny = true

/-- The check has a user, and its authz is declared. -/
def Asked (yuno : Yuno) (gobj : Gobj) (authz : String) (kw : Kw) (srcUsername : String) : Prop :=
  checkedUser kw srcUsername ≠ "" ∧ gobjAuthz yuno gobj authz = true

/-- Of the first key that names the authz or `*`, the last permission entry allows. -/
def FirstKeyAllows (authz : String) (entries : List Entry) : Prop :=
  ∃ first, entries.find? (fun entry => names authz entry.1) = some first ∧
    (said first.1 entries).getLast? = some true

theorem find_merged (authz : String) (entries : List Entry) :
    (match (Dict.empty.mergeAll Mark.merge entries).entries.find?
        (fun entry => names authz entry.1) with
      | none => false
      | some entry => entry.2.booleanValue) = true ↔ FirstKeyAllows authz entries := by
  unfold FirstKeyAllows
  rw [find_entries, find_keys_mergeAll, keys_empty, find?_nil, none_or,
    find?_map]
  cases found : entries.find? (names authz ∘ Prod.fst) with
  | none =>
    have none_found : entries.find? (fun entry => names authz entry.1) = none := found
    simp [none_found]
  | some first =>
    have first_found : entries.find? (fun entry => names authz entry.1) = some first := found
    have decision := merged_boolean entries first.1
    cases stored : (Dict.empty.mergeAll Mark.merge entries).get? first.1 with
    | none =>
      rw [stored] at decision
      have quiet : (said first.1 entries).getLast? ≠ some true := by
        intro allows
        rw [allows] at decision
        cases decision
      simp [first_found, stored, quiet]
    | some value =>
      rw [stored, any_some] at decision
      simp only [map_some, bind_some, stored, first_found, some.injEq,
        exists_eq_left', decision]
      cases (said first.1 entries).getLast? with
      | none => decide
      | some allow => cases allow <;> decide

variable (yuno : Yuno)

theorem authzChecker_entries (gobj : Gobj) (authz : String) (kw : Kw) (srcUsername : String) :
    authzChecker (some yuno) gobj authz kw srcUsername = true ↔
      Asked yuno gobj authz kw srcUsername ∧
        FirstKeyAllows authz (userEntries yuno gobj.name (checkedUser kw srcUsername) kw) := by
  unfold authzChecker Asked
  by_cases nobody : checkedUser kw srcUsername = ""
  · simp [nobody]
  · cases declared : gobjAuthz yuno gobj authz with
    | false => simp [nobody, declared]
    | true =>
      simp only [nobody, declared, if_false, if_true, getUserPermissions_eq, ne_eq,
        not_false_eq_true, and_self, true_and]
      exact find_merged authz _

theorem mem_permissionEntries (realmId service : String) (role : Role) (entry : Entry) :
    entry ∈ permissionEntries realmId service role ↔ applies role realmId service = true ∧
        ∃ stated ∈ statedPermissions role,
          (stated.permission, Mark.permission !stated.deny) = entry := by
  unfold permissionEntries
  split
  · rename_i applied
    simp [applied]
  · rename_i passed
    simp [passed]

theorem reached_enabled {forest : Forest} {role : Role} (reached : Reached forest role) :
    role.disabled = false := by
  induction reached with
  | root enabled => exact enabled
  | under _ _ ih => exact ih
  | beside _ ih => exact ih

theorem applies_iff {role : Role} (realmId service : String) (enabled : role.disabled = false) :
    applies role realmId service = true ↔ (role.realmId = realmId ∨ role.realmId = "*") ∧
        (role.service = service ∨ role.service = "*") := by
  simp [applies, enabled]

theorem mem_linkedEntries (service id : String) (entry : Entry) :
    entry ∈ linkedEntries yuno service [] id ↔
      ∃ linked children, getNode id yuno.treedb.roles = some (linked, children) ∧
        linked.disabled = false ∧
        ∃ role, (role = linked ∨ Reached children role) ∧
          entry ∈ permissionEntries yuno.realmId service role := by
  unfold linkedEntries
  cases node : getNode id yuno.treedb.roles with
  | none => simp
  | some found =>
    have ⟨linked, children⟩ := found
    by_cases disabled : linked.disabled = true
    · simp only [disabled, if_true, not_mem_nil, false_iff]
      rintro ⟨other, below, same, enabled, -⟩
      cases same
      rw [disabled] at enabled
      cases enabled
    · have enabled : linked.disabled = false := by simpa using disabled
      simp only [if_neg disabled, requiredEntries, childEntries, flatMap_nil, append_nil,
        mem_append, mem_flatMap, mem_addTreeChildren]
      constructor
      · rintro (own | ⟨child, reached, below⟩)
        · exact ⟨linked, children, rfl, enabled, linked, .inl rfl, own⟩
        · exact ⟨linked, children, rfl, enabled, child, .inr reached, below⟩
      · rintro ⟨other, below, same, -, role, reached, among⟩
        cases same
        cases reached with
        | inl itself => exact .inl (itself ▸ among)
        | inr reached => exact .inr ⟨role, reached, among⟩

theorem mem_userEntries (service username : String) (kw : Kw)
    (required : kw.requiredServices = []) (entry : Entry) :
    entry ∈ userEntries yuno service username kw ↔ ∃ role, Effective yuno service username role ∧
        ∃ stated ∈ statedPermissions role,
          (stated.permission, Mark.permission !stated.deny) = entry := by
  unfold userEntries Effective
  simp only [required, mem_flatMap, mem_linkedEntries, mem_permissionEntries]
  constructor
  · rintro ⟨id, linkedTo, linked, children, node, enabled, role, reached, applied, stated⟩
    have on : role.disabled = false := by
      cases reached with
      | inl itself => exact itself ▸ enabled
      | inr reached => exact reached_enabled reached
    exact ⟨role, ⟨⟨id, linkedTo, linked, children, node, enabled, reached⟩,
      (applies_iff _ _ on).1 applied⟩, stated⟩
  · rintro ⟨role, ⟨⟨id, linkedTo, linked, children, node, enabled, reached⟩, applied⟩, stated⟩
    have on : role.disabled = false := by
      cases reached with
      | inl itself => exact itself ▸ enabled
      | inr reached => exact reached_enabled reached
    exact ⟨id, linkedTo, linked, children, node, enabled, role, reached,
      (applies_iff _ _ on).2 applied, stated⟩

theorem mem_said (key : String) (entries : List Entry) (allow : Bool) :
    allow ∈ said key entries ↔ (key, Mark.permission allow) ∈ entries := by
  unfold said
  simp only [mem_filterMap]
  constructor
  · rintro ⟨entry, among, told⟩
    split at told
    · rename_i same
      have ⟨name, mark⟩ := entry
      cases mark with
      | permission stated =>
        cases same
        cases told
        exact among
      | role id => cases told
    · cases told
  · intro among
    exact ⟨_, among, by simp [Mark.allows]⟩

theorem granted_of_firstKeyAllows (service username authz : String) (kw : Kw)
    (required : kw.requiredServices = [])
    (allows : FirstKeyAllows authz (userEntries yuno service username kw)) :
    ∃ role, Effective yuno service username role ∧ Grants authz role := by
  have ⟨first, found, last⟩ := allows
  have named : names authz first.1 = true := by simpa using find?_some found
  have among := (mem_said _ _ _).1 (mem_of_getLast? last)
  have ⟨role, effective, stated, listed, same⟩ :=
    (mem_userEntries yuno service username kw required _).1 among
  cases same_key : stated.deny with
  | true => simp [same_key] at same
  | false =>
    have key : stated.permission = first.1 := congrArg Prod.fst same
    exact ⟨role, effective, stated, listed, key ▸ named, same_key⟩

theorem firstKeyAllows_of_granted (service username authz : String) (kw : Kw)
    (required : kw.requiredServices = [])
    (undenied : ∀ role, Effective yuno service username role → ¬ Denies authz role)
    (granted : ∃ role, Effective yuno service username role ∧ Grants authz role) :
    FirstKeyAllows authz (userEntries yuno service username kw) := by
  have ⟨role, effective, stated, listed, named, allowed⟩ := granted
  have among := (mem_userEntries yuno service username kw required _).2
    ⟨role, effective, stated, listed, rfl⟩
  cases found : (userEntries yuno service username kw).find? (fun entry => names authz entry.1) with
  | none => exact absurd named (find?_eq_none.1 found _ among)
  | some first =>
    have first_named : names authz first.1 = true := by simpa using find?_some found
    have allows : ∀ allow ∈ said first.1 (userEntries yuno service username kw), allow = true := by
      intro allow told
      have ⟨other, effective, stated, listed, same⟩ :=
        (mem_userEntries yuno service username kw required _).1 ((mem_said _ _ _).1 told)
      have key : stated.permission = first.1 := congrArg Prod.fst same
      cases denied : stated.deny with
      | true => exact absurd ⟨stated, listed, key ▸ first_named, denied⟩ (undenied other effective)
      | false => simpa [denied] using (congrArg Prod.snd same).symm
    have ⟨other, _, own, _, same⟩ :=
      (mem_userEntries yuno service username kw required _).1 (mem_of_find?_eq_some found)
    have shape : (first.1, Mark.permission !own.deny) = first := by rw [← same]
    have told : (!own.deny) ∈ said first.1 (userEntries yuno service username kw) := by
      apply (mem_said _ _ _).2
      rw [shape]
      exact mem_of_find?_eq_some found
    cases last : (said first.1 (userEntries yuno service username kw)).getLast? with
    | none => exact absurd told (by simp [getLast?_eq_none_iff.1 last])
    | some allow => exact ⟨first, found, by rw [last, allows allow (mem_of_getLast? last)]⟩

theorem effective_congr (users : Dict String (List String))
    (service username : String) (role : Role)
    (same : ∀ id, id ∈ (users.get? username).getD [] ↔ id ∈ linkedRoles yuno username) :
    Effective { yuno with treedb := { yuno.treedb with users := users } } service username role ↔
      Effective yuno service username role := by
  unfold Effective
  show (∃ id ∈ (users.get? username).getD [], _) ∧ _ ↔ _
  simp [same]

/-- The answers of `authz_checker`: the first key among the user's entries that names the authz or
`*` decides, by its last permission entry. Without required services a yes takes an effective role
that grants, and where no effective role denies such a role is enough, in any order of the links. -/
theorem authz_checker_answers (gobj : Gobj) (authz : String) (kw : Kw)
    (srcUsername : String) :
    (authzChecker (some yuno) gobj authz kw srcUsername = true ↔
      Asked yuno gobj authz kw srcUsername ∧
        FirstKeyAllows authz (userEntries yuno gobj.name (checkedUser kw srcUsername) kw)) ∧
    (kw.requiredServices = [] →
      (authzChecker (some yuno) gobj authz kw srcUsername = true →
        ∃ role, Effective yuno gobj.name (checkedUser kw srcUsername) role ∧ Grants authz role) ∧
      ((∀ role, Effective yuno gobj.name (checkedUser kw srcUsername) role → ¬ Denies authz role) →
        (authzChecker (some yuno) gobj authz kw srcUsername = true ↔
          Asked yuno gobj authz kw srcUsername ∧
            ∃ role, Effective yuno gobj.name (checkedUser kw srcUsername) role ∧
              Grants authz role) ∧
        ∀ users : Dict String (List String),
          (∀ id, id ∈ (users.get? (checkedUser kw srcUsername)).getD [] ↔
            id ∈ linkedRoles yuno (checkedUser kw srcUsername)) →
          authzChecker (some { yuno with treedb := { yuno.treedb with users := users } }) gobj
              authz kw srcUsername =
            authzChecker (some yuno) gobj authz kw srcUsername)) := by
  refine ⟨authzChecker_entries yuno gobj authz kw srcUsername, fun required => ⟨?_, ?_⟩⟩
  · intro allowed
    exact granted_of_firstKeyAllows yuno gobj.name _ authz kw required
      ((authzChecker_entries yuno gobj authz kw srcUsername).1 allowed).2
  · intro undenied
    have answer (other : Yuno)
        (undenied : ∀ role, Effective other gobj.name (checkedUser kw srcUsername) role →
          ¬ Denies authz role) :
        authzChecker (some other) gobj authz kw srcUsername = true ↔
          Asked other gobj authz kw srcUsername ∧
            ∃ role, Effective other gobj.name (checkedUser kw srcUsername) role ∧
              Grants authz role := by
      rw [authzChecker_entries]
      exact and_congr_right fun _ =>
        ⟨granted_of_firstKeyAllows other gobj.name _ authz kw required,
          firstKeyAllows_of_granted other gobj.name _ authz kw required undenied⟩
    refine ⟨answer yuno undenied, fun users same => ?_⟩
    have effective (role : Role) := effective_congr yuno users gobj.name _ role same
    rw [Bool.eq_iff_iff, answer yuno undenied,
      answer _ fun role reached => undenied role ((effective role).1 reached)]
    simp only [effective]
    exact Iff.rfl

/-- A role that grants `*` everywhere. -/
def allRole : Role := { id := "all", realmId := "*", service := "*", permission := "*" }

/-- A role that denies `write` on `db`. -/
def readersRole : Role :=
  { id := "readers", realmId := "*", service := "db", permission := "write", deny := true }

/-- The two roles, without a parent. -/
def grantAndDeny : Forest := .cons allRole .nil (.cons readersRole .nil .nil)

/-- A yuno where `ana` is linked to the given roles, in order. -/
def linkedTo (roles : List String) : Yuno :=
  ⟨"realm", ["write"], ⟨grantAndDeny, Dict.empty.set "ana" roles⟩⟩

/-- A role that denies `write` is effective and the check still answers yes; the roles linked in the
other order, it answers no. -/
theorem deny_loses_by_order :
    (∃ role, Effective (linkedTo ["all", "readers"]) "db" "ana" role ∧ Denies "write" role) ∧
    authzChecker (some (linkedTo ["all", "readers"])) ⟨"db", none⟩ "write" { username := "ana" } "" =
      true ∧
    authzChecker (some (linkedTo ["readers", "all"])) ⟨"db", none⟩ "write" { username := "ana" } "" =
      false := by
  have effective : Effective (linkedTo ["all", "readers"]) "db" "ana" readersRole :=
    ⟨⟨"readers", by decide, _, .nil, rfl, rfl, .inl rfl⟩, .inr rfl, .inl rfl⟩
  have denies : Denies "write" readersRole := ⟨⟨"write", true⟩, by decide, by decide, rfl⟩
  exact ⟨⟨_, effective, denies⟩, by decide, by decide⟩

/-- With the granting role alone the check answers yes. -/
theorem authz_checker_answers_alone :
    authzChecker (some (linkedTo ["all"])) ⟨"db", none⟩ "write" { username := "ana" } "" = true := by
  have undenied : ∀ role, Effective (linkedTo ["all"]) "db" "ana" role → ¬ Denies "write" role := by
    rintro role ⟨⟨id, among, linked, children, node, -, reached⟩, -, -⟩
    have only : id = "all" := by simpa [linkedRoles, linkedTo] using among
    subst only
    have found : getNode "all" grantAndDeny = some (linked, children) := node
    cases found
    cases reached with
    | inl itself =>
      subst itself
      rintro ⟨stated, listed, -, denied⟩
      have own : statedPermissions allRole = [⟨"*", false⟩] := by decide
      rw [own, List.mem_singleton] at listed
      rw [listed] at denied
      cases denied
    | inr reached => cases reached
  have effective : Effective (linkedTo ["all"]) "db" "ana" allRole :=
    ⟨⟨"all", by decide, _, .nil, rfl, rfl, .inl rfl⟩, .inr rfl, .inr rfl⟩
  have granted : ∃ role, Effective (linkedTo ["all"]) "db" "ana" role ∧ Grants "write" role :=
    ⟨allRole, effective, ⟨"*", false⟩, by decide, by decide, rfl⟩
  exact ((((authz_checker_answers (linkedTo ["all"]) ⟨"db", none⟩ "write" { username := "ana" } "").2
    rfl).2 undenied).1).2 ⟨⟨by decide, by decide⟩, granted⟩

end Yunetas.Authz
