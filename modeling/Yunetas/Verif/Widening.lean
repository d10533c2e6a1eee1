import Yunetas.Verif.Permissions

/-!
# What a request can change of its own check

`authz_checker` hands the `kw` of the request to `get_user_permissions`, which adds the permissions
of the required services named there to those of the service checked. So a request that names
another service is checked with permissions of that service. One that names none, or only names
that decide nothing, is checked by the roles of the service checked and of `*` alone.
-/

namespace Yunetas.Authz

open List Option

/-- The role is of another service. -/
def Foreign (service : String) (role : Role) : Prop := role.service ≠ service ∧ role.service ≠ "*"

/-- The same role, or two roles of other services in one place of the tree. -/
def SameFor (service : String) (left right : Role) : Prop :=
  left = right ∨ left.id = right.id ∧ left.disabled = right.disabled ∧
    Foreign service left ∧ Foreign service right

/-- Forests that differ in what roles of other services state only. -/
inductive AlikeFor (service : String) : Forest → Forest → Prop where
  | nil : AlikeFor service .nil .nil
  | cons {left right : Role} {children others siblings rest : Forest}
      (role : SameFor service left right) (under : AlikeFor service children others)
      (beside : AlikeFor service siblings rest) :
      AlikeFor service (.cons left children siblings) (.cons right others rest)

/-- Whatever the treedb, the request is answered like one that names only its user, and what roles
of other services state makes no difference. -/
def Confined (yuno : Yuno) (gobj : Gobj) (authz : String) (kw : Kw) (srcUsername : String) : Prop :=
  let answer (treedb : Treedb) (kw : Kw) : Bool :=
    authzChecker (some { yuno with treedb }) gobj authz kw srcUsername
  ∀ treedb, answer treedb kw = answer treedb { username := kw.username } ∧
    ∀ roles, AlikeFor gobj.name treedb.roles roles →
      answer { treedb with roles } kw = answer treedb kw

/-- A required service that decides nothing: the service checked or `*`, unless its own name is
the authz or `*` and another name could still grant. -/
def harmless (service authz required : String) : Bool :=
  (required = service || required = "*") &&
    (authz = "*" || authz = "" && required = "*" || !names authz required)

section Entries

variable {authz : String}

theorem said_append (key : String) (first second : List Entry) :
    said key (first ++ second) = said key first ++ said key second := filterMap_append

/-- Entries that say the same last of every key that decides. -/
def SayAlike (authz : String) (left right : List Entry) : Prop :=
  ∀ key, names authz key = true → (said key left).getLast? = (said key right).getLast?

theorem SayAlike.append {first second left right : List Entry} (before : SayAlike authz first left)
    (after : SayAlike authz second right) :
    SayAlike authz (first ++ second) (left ++ right) := by
  intro key named
  rw [said_append, said_append, getLast?_append, getLast?_append, before key named,
    after key named]

theorem SayAlike.flatMap {ι : Type} (items : List ι) {left right : ι → List Entry}
    (alike : ∀ item, SayAlike authz (left item) (right item)) :
    SayAlike authz (items.flatMap left) (items.flatMap right) := by
  induction items with
  | nil => exact fun _ _ => rfl
  | cons item rest ih => exact (alike item).append ih

/-- The key of the first entry that decides. -/
def firstKey (authz : String) (entries : List Entry) : Option String :=
  (entries.find? fun entry => names authz entry.1).map Prod.fst

theorem firstKey_append (first second : List Entry) :
    firstKey authz (first ++ second) = (firstKey authz first).or (firstKey authz second) := by
  unfold firstKey
  rw [find?_append]
  cases first.find? fun entry => names authz entry.1 <;> rfl

theorem firstKey_flatMap {ι : Type} (items : List ι) {left right : ι → List Entry}
    (alike : ∀ item, firstKey authz (left item) = firstKey authz (right item)) :
    firstKey authz (items.flatMap left) = firstKey authz (items.flatMap right) := by
  induction items with
  | nil => rfl
  | cons item rest ih =>
    rw [flatMap_cons, flatMap_cons, firstKey_append, firstKey_append, alike, ih]

theorem firstKeyAllows_iff (entries : List Entry) :
    FirstKeyAllows authz entries ↔
      ∃ key, firstKey authz entries = some key ∧ (said key entries).getLast? = some true := by
  unfold FirstKeyAllows firstKey
  constructor
  · rintro ⟨first, found, last⟩
    exact ⟨first.1, by rw [found]; rfl, last⟩
  · rintro ⟨key, found, last⟩
    rw [map_eq_some_iff] at found
    obtain ⟨first, found, rfl⟩ := found
    exact ⟨first, found, last⟩

theorem names_firstKey {entries : List Entry} {key : String}
    (found : firstKey authz entries = some key) : names authz key = true := by
  unfold firstKey at found
  rw [map_eq_some_iff] at found
  obtain ⟨first, found, rfl⟩ := found
  simpa using find?_some found

theorem SayAlike.decides {left right : List Entry} (alike : SayAlike authz left right)
    (first : firstKey authz left = firstKey authz right) :
    FirstKeyAllows authz left ↔ FirstKeyAllows authz right := by
  rw [firstKeyAllows_iff, firstKeyAllows_iff, first]
  constructor
  · rintro ⟨key, found, last⟩
    exact ⟨key, found, by rw [← alike key (names_firstKey found), last]⟩
  · rintro ⟨key, found, last⟩
    exact ⟨key, found, by rw [alike key (names_firstKey found), last]⟩

theorem firstKeyAllows_star {entries : List Entry}
    (only : ∀ entry ∈ entries, names authz entry.1 = true → entry.1 = "*") :
    FirstKeyAllows authz entries ↔ (said "*" entries).getLast? = some true := by
  rw [firstKeyAllows_iff]
  have star : ∀ key, firstKey authz entries = some key → key = "*" := by
    intro key found
    unfold firstKey at found
    rw [map_eq_some_iff] at found
    obtain ⟨first, found, rfl⟩ := found
    exact only first (mem_of_find?_eq_some found) (by simpa using find?_some found)
  constructor
  · rintro ⟨key, found, last⟩
    rw [← star key found]
    exact last
  · intro last
    have among : ("*", Mark.permission true) ∈ entries := (mem_said _ _ _).1 (mem_of_getLast? last)
    cases found : firstKey authz entries with
    | some key => exact ⟨key, rfl, by rw [star key found]; exact last⟩
    | none =>
      unfold firstKey at found
      rw [map_eq_none_iff, find?_eq_none] at found
      exact absurd (show names authz "*" = true by simp [names]) (found _ among)

end Entries

section Confined

variable {authz service realmId : String} {required : List ServiceName}

theorem harmless_service {name : String} (ok : harmless service authz name = true) :
    name = service ∨ name = "*" := by
  unfold harmless at ok
  simp only [Bool.and_eq_true, Bool.or_eq_true, decide_eq_true_eq] at ok
  exact ok.1

theorem applies_foreign {role : Role} (foreign : Foreign service role) {name : String}
    (ok : name = service ∨ name = "*") : applies role realmId name = false := by
  have other : role.service ≠ name := by
    rcases ok with rfl | rfl
    · exact foreign.1
    · exact foreign.2
  simp [applies, other, foreign.2]

theorem permissionEntries_sameFor {left right : Role} (same : SameFor service left right)
    {name : String} (ok : name = service ∨ name = "*") :
    permissionEntries realmId name left = permissionEntries realmId name right := by
  rcases same with rfl | ⟨-, -, foreign, others⟩
  · rfl
  · unfold permissionEntries
    rw [applies_foreign foreign ok, applies_foreign others ok]
    rfl

section

variable {left right : Role} (same : SameFor service left right)
  (ok : ∀ name ∈ required, harmless service authz name.name = true)
include same ok

theorem childEntries_sameFor :
    childEntries realmId service required left = childEntries realmId service required right := by
  unfold childEntries
  rw [permissionEntries_sameFor same (Or.inl rfl)]
  congr 1
  apply flatMap_congr
  intro name listed
  exact permissionEntries_sameFor same (harmless_service (ok name listed))

theorem requiredEntries_sameFor :
    requiredEntries realmId required left = requiredEntries realmId required right := by
  apply flatMap_congr
  intro name listed
  rcases same with rfl | ⟨-, -, foreign, others⟩
  · rfl
  · rw [applies_foreign foreign (harmless_service (ok name listed)),
      applies_foreign others (harmless_service (ok name listed))]
    rfl

end

section

variable {left right : Forest} (alike : AlikeFor service left right)
include alike

theorem addTreeChildren_alikeFor (ok : ∀ name ∈ required, harmless service authz name.name = true) :
    (addTreeChildren left).flatMap (childEntries realmId service required) =
      (addTreeChildren right).flatMap (childEntries realmId service required) := by
  induction alike with
  | nil => rfl
  | @cons left right children others siblings rest role under beside ihUnder ihBeside =>
    have disabled : left.disabled = right.disabled := by
      rcases role with rfl | ⟨-, same, -⟩
      · rfl
      · exact same
    unfold addTreeChildren
    rw [disabled]
    split
    · exact ihBeside
    · rw [cons_append, cons_append, flatMap_cons, flatMap_cons,
        flatMap_append, flatMap_append, ihUnder, ihBeside,
        childEntries_sameFor role ok]

theorem getNode_alikeFor (id : String) :
    Option.Rel (fun first second : Role × Forest => SameFor service first.1 second.1 ∧
      AlikeFor service first.2 second.2) (getNode id left) (getNode id right) := by
  induction alike with
  | nil => exact .none
  | @cons left right children others siblings rest role under beside ihUnder ihBeside =>
    have ids : left.id = right.id := by
      rcases role with rfl | ⟨same, -⟩
      · rfl
      · exact same
    unfold getNode
    rw [ids]
    split
    · exact .some ⟨role, under⟩
    · generalize getNode id children = first, getNode id others = second at ihUnder ⊢
      cases ihUnder with
      | none => exact ihBeside
      | some same => exact .some same

end

theorem userEntries_alikeFor {yuno : Yuno} {roles : Forest}
    (alike : AlikeFor service yuno.treedb.roles roles) (username : String) {kw : Kw}
    (ok : ∀ name ∈ kw.requiredServices, harmless service authz name.name = true) :
    userEntries { yuno with treedb := { yuno.treedb with roles } } service username kw =
      userEntries yuno service username kw := by
  apply flatMap_congr
  intro id _
  unfold linkedEntries
  have nodes := getNode_alikeFor alike id
  generalize getNode id yuno.treedb.roles = left, getNode id roles = right at nodes ⊢
  cases nodes with
  | none => rfl
  | @some left right same =>
    have disabled : left.1.disabled = right.1.disabled := by
      rcases same.1 with same | ⟨-, same, -⟩
      · rw [same]
      · exact same
    dsimp only
    rw [disabled, permissionEntries_sameFor same.1 (Or.inl rfl),
      requiredEntries_sameFor same.1 ok, addTreeChildren_alikeFor same.2 ok]

theorem repeated_alike {ι : Type} (own : List Entry) (copies : List ι) (copy : ι → List Entry)
    (repeats : ∀ item ∈ copies, copy item = own ∨ copy item = []) :
    SayAlike authz (own ++ copies.flatMap copy) own ∧
      firstKey authz (own ++ copies.flatMap copy) = firstKey authz own := by
  induction copies with
  | nil =>
    rw [flatMap_nil, append_nil]
    exact ⟨fun _ _ => rfl, rfl⟩
  | cons item rest ih =>
    have later := ih fun other further => repeats other (mem_cons_of_mem _ further)
    rw [flatMap_cons]
    rcases repeats item mem_cons_self with again | none
    · rw [again]
      constructor
      · intro key named
        rw [said_append, getLast?_append, later.1 key named]
        cases (said key own).getLast? <;> rfl
      · rw [firstKey_append, later.2]
        cases firstKey authz own <;> rfl
    · rw [none, nil_append]
      exact later

theorem permissionEntries_harmless (child : Role) {name : String}
    (ok : name = service ∨ name = "*") :
    permissionEntries realmId name child = permissionEntries realmId service child ∨
      permissionEntries realmId name child = [] := by
  rcases ok with rfl | rfl
  · exact Or.inl rfl
  · unfold permissionEntries
    by_cases everywhere : child.service = "*"
    · left
      simp [applies, everywhere]
    · right
      simp [applies, everywhere]

theorem childEntries_alike (ok : ∀ name ∈ required, harmless service authz name.name = true)
    (child : Role) :
    SayAlike authz (childEntries realmId service required child)
        (childEntries realmId service [] child) ∧
      firstKey authz (childEntries realmId service required child) =
        firstKey authz (childEntries realmId service [] child) := by
  have repeats := @repeated_alike authz _ (permissionEntries realmId service child) required
    (fun name => permissionEntries realmId name.name child) fun name listed =>
      permissionEntries_harmless child (harmless_service (ok name listed))
  unfold childEntries
  rw [flatMap_nil, append_nil]
  exact repeats

theorem said_requiredEntries (key : String) (role : Role) :
    said key (requiredEntries realmId required role) = [] := by
  unfold said requiredEntries
  rw [filterMap_eq_nil_iff]
  intro entry among
  rw [mem_flatMap] at among
  have ⟨name, _, here⟩ := among
  split at here
  · rw [mem_singleton.1 here]
    split <;> rfl
  · cases here

theorem mem_requiredEntries {role : Role} {entry : Entry}
    (among : entry ∈ requiredEntries realmId required role) :
    ∃ name ∈ required, entry.1 = name.name := by
  unfold requiredEntries at among
  rw [mem_flatMap] at among
  have ⟨name, listed, here⟩ := among
  split at here
  · exact ⟨name, listed, by rw [mem_singleton.1 here]⟩
  · cases here

/-- The entries of a reference say the same without harmless services, and in the same order. -/
theorem linkedEntries_alike (yuno : Yuno)
    (ok : ∀ name ∈ required, harmless service authz name.name = true) (id : String) :
    SayAlike authz (linkedEntries yuno service required id) (linkedEntries yuno service [] id) ∧
      ((∀ name ∈ required, names authz name.name = false) →
        firstKey authz (linkedEntries yuno service required id) =
          firstKey authz (linkedEntries yuno service [] id)) := by
  unfold linkedEntries
  split
  · exact ⟨fun _ _ => rfl, fun _ => rfl⟩
  rename_i role children _
  split
  · exact ⟨fun _ _ => rfl, fun _ => rfl⟩
  have under := fun child => @childEntries_alike authz service yuno.realmId required ok child
  constructor
  · have quiet : SayAlike authz (requiredEntries yuno.realmId required role)
        (requiredEntries yuno.realmId [] role) := by
      intro key _
      rw [said_requiredEntries, said_requiredEntries]
    have own : SayAlike authz (permissionEntries yuno.realmId service role)
        (permissionEntries yuno.realmId service role) := fun _ _ => rfl
    exact (own.append quiet).append (SayAlike.flatMap _ fun child => (under child).1)
  · intro unnamed
    have quiet : firstKey authz (requiredEntries yuno.realmId required role) = none := by
      unfold firstKey
      rw [map_eq_none_iff, find?_eq_none]
      intro entry among
      have ⟨name, listed, same⟩ := mem_requiredEntries among
      rw [same, unnamed name listed]
      exact Bool.false_ne_true
    have others := firstKey_flatMap (addTreeChildren children) fun child => (under child).2
    rw [firstKey_append, firstKey_append, firstKey_append, firstKey_append, quiet, others]
    rfl

theorem key_of_mem {yuno : Yuno} {username : String} {kw : Kw} {entry : Entry}
    (among : entry ∈ userEntries yuno service username kw) :
    entry.1 ≠ "" ∨ ∃ name ∈ kw.requiredServices, entry.1 = name.name := by
  have stated : ∀ {name : String} {role : Role},
      entry ∈ permissionEntries yuno.realmId name role → entry.1 ≠ "" := by
    intro name role here
    have ⟨_, permission, listed, same⟩ := (mem_permissionEntries _ _ _ _).1 here
    rw [← same]
    simpa using (mem_filter.1 listed).2
  unfold userEntries at among
  rw [mem_flatMap] at among
  have ⟨id, _, here⟩ := among
  unfold linkedEntries at here
  split at here
  · cases here
  split at here
  · cases here
  rw [mem_append, mem_append, mem_flatMap] at here
  rcases here with (own | marked) | ⟨child, -, below⟩
  · exact Or.inl (stated own)
  · exact Or.inr (mem_requiredEntries marked)
  · unfold childEntries at below
    rw [mem_append, mem_flatMap] at below
    rcases below with own | ⟨name, -, copy⟩
    · exact Or.inl (stated own)
    · exact Or.inl (stated copy)

theorem decides_harmless (yuno : Yuno) (username : String) {kw : Kw}
    (ok : ∀ name ∈ kw.requiredServices, harmless service authz name.name = true) :
    FirstKeyAllows authz (userEntries yuno service username kw) ↔
      FirstKeyAllows authz (userEntries yuno service username { username := kw.username }) := by
  have say : SayAlike authz (userEntries yuno service username kw)
      (userEntries yuno service username { username := kw.username }) :=
    SayAlike.flatMap _ fun id => (linkedEntries_alike yuno ok id).1
  by_cases special : authz = "*" ∨ authz = ""
  · -- Nothing but `*` can decide: no permission has an empty name, and no harmless service has.
    have only : ∀ other : Kw, (∀ name ∈ other.requiredServices,
        harmless service authz name.name = true) →
        ∀ entry ∈ userEntries yuno service username other, names authz entry.1 = true →
          entry.1 = "*" := by
      intro other fine entry among named
      unfold names at named
      rw [decide_eq_true_eq] at named
      rcases named with star | same
      · exact star
      rcases special with rfl | rfl
      · exact same
      · rcases key_of_mem among with some | ⟨name, listed, isName⟩
        · exact absurd same some
        · have bad := fine name listed
          rw [← isName, same] at bad
          simp [harmless, names] at bad
    rw [firstKeyAllows_star (only kw ok), firstKeyAllows_star (only _ (by simp)),
      say "*" (by simp [names])]
  · rw [not_or] at special
    have unnamed : ∀ name ∈ kw.requiredServices, names authz name.name = false := by
      intro name listed
      have fine := ok name listed
      unfold harmless at fine
      rw [Bool.and_eq_true] at fine
      simpa [special.1, special.2] using fine.2
    apply say.decides
    exact firstKey_flatMap _ fun id => (linkedEntries_alike yuno ok id).2 unnamed

theorem confined_of_harmless (yuno : Yuno) (gobj : Gobj) (authz : String) (kw : Kw)
    (srcUsername : String)
    (ok : ∀ name ∈ kw.requiredServices, harmless gobj.name authz name.name = true) :
    Confined yuno gobj authz kw srcUsername := by
  intro treedb
  constructor
  · rw [Bool.eq_iff_iff, authzChecker_entries, authzChecker_entries]
    exact and_congr_right fun _ => decides_harmless _ _ ok
  · intro roles alike
    rw [Bool.eq_iff_iff, authzChecker_entries, authzChecker_entries]
    apply and_congr_right
    intro _
    have same := @userEntries_alikeFor authz gobj.name { yuno with treedb } roles alike
      (checkedUser kw srcUsername) kw ok
    rw [same]

end Confined

section Widened

/-- A role that states nothing, of some service. -/
def marker (service : String) : Role := { id := "marks", realmId := "*", service }

/-- A role that grants one permission on every service. -/
def granter (permission : String) : Role := { id := "grants", realmId := "*", service := "*", permission }

/-- The user is linked to a marker and then to a granter. -/
def markedTreedb (username service permission : String) : Treedb where
  roles := .cons (marker service) .nil (.cons (granter permission) .nil .nil)
  users := Dict.empty.set username ["marks", "grants"]

/-- A realm that is neither the one given nor every realm. -/
def elsewhere (realmId : String) : String := if realmId = "a" then "b" else "a"

/-- The user is linked to a role of another realm, over one that grants `*` on some service. -/
def coveredTreedb (username realmId service : String) : Treedb where
  roles := .cons { id := "covers", realmId := elsewhere realmId, service := "*" }
    (.cons { id := "below", realmId := "*", service, permission := "*" } .nil .nil) .nil
  users := Dict.empty.set username ["covers"]

theorem elsewhere_ne (realmId : String) : elsewhere realmId ≠ realmId ∧ elsewhere realmId ≠ "*" := by
  unfold elsewhere
  split
  · rename_i isA
    rw [isA]
    decide
  · rename_i notA
    exact ⟨fun same => notA same.symm, by decide⟩

theorem userEntries_marked (yuno : Yuno) (username marked permission service : String) (kw : Kw) :
    userEntries { yuno with treedb := markedTreedb username marked permission } service username kw =
      requiredEntries yuno.realmId kw.requiredServices (marker marked) ++
        (permissionEntries yuno.realmId service (granter permission) ++
          requiredEntries yuno.realmId kw.requiredServices (granter permission)) := by
  have quiet : permissionEntries yuno.realmId service (marker marked) = [] := by
    unfold permissionEntries
    split
    · rfl
    · rfl
  have links : linkedRoles { yuno with treedb := markedTreedb username marked permission } username =
      ["marks", "grants"] := by
    simp [linkedRoles, markedTreedb]
  unfold userEntries
  rw [links]
  simp [linkedEntries, markedTreedb, marker, granter, getNode, addTreeChildren] at quiet ⊢
  exact quiet

theorem permissionEntries_granter (realmId service permission : String) (named : permission ≠ "") :
    permissionEntries realmId service (granter permission) = [(permission, .permission true)] := by
  simp [permissionEntries, granter, applies, statedPermissions, named]

theorem marked_allows (yuno : Yuno) (username marked permission service authz : String)
    (named : permission ≠ "") (decides : names authz permission = true) :
    FirstKeyAllows authz
      (userEntries { yuno with treedb := markedTreedb username marked permission } service username
        { username }) := by
  rw [userEntries_marked, permissionEntries_granter _ _ _ named]
  exact ⟨(permission, .permission true), by simp [requiredEntries, decides],
    by simp [requiredEntries, said, Mark.allows]⟩

theorem marked_denies (yuno : Yuno) (username marked permission service authz : String) (kw : Kw)
    (named : permission ≠ "")
    (first : ∃ name ∈ kw.requiredServices, applies (marker marked) yuno.realmId name.name = true ∧
      names authz name.name = true)
    (others : ∀ name ∈ kw.requiredServices,
      applies (marker marked) yuno.realmId name.name = true → names authz name.name = true →
        name.name ≠ permission) :
    ¬ FirstKeyAllows authz
      (userEntries { yuno with treedb := markedTreedb username marked permission } service username
        kw) := by
  rw [userEntries_marked, permissionEntries_granter _ _ _ named, firstKeyAllows_iff]
  rintro ⟨key, found, last⟩
  have kept := names_firstKey found
  have marks : firstKey authz (requiredEntries yuno.realmId kw.requiredServices (marker marked)) =
      some key := by
    rw [firstKey_append] at found
    cases own : firstKey authz
        (requiredEntries yuno.realmId kw.requiredServices (marker marked)) with
    | some mark =>
      rw [own] at found
      exact found
    | none =>
      have ⟨name, listed, applied, decides⟩ := first
      unfold firstKey at own
      rw [map_eq_none_iff, find?_eq_none] at own
      have among : (name.name, Mark.role (marker marked).id) ∈
          requiredEntries yuno.realmId kw.requiredServices (marker marked) := by
        exact mem_flatMap.2 ⟨name, listed, by simp [applied]⟩
      exact absurd decides (own _ among)
  have other : permission ≠ key := by
    unfold firstKey at marks
    rw [map_eq_some_iff] at marks
    have ⟨entry, here, isKey⟩ := marks
    have among := mem_of_find?_eq_some here
    unfold requiredEntries at among
    rw [mem_flatMap] at among
    have ⟨name, listed, single⟩ := among
    split at single
    · rename_i applied
      rw [mem_singleton] at single
      rw [← isKey, single]
      rw [← isKey, single] at kept
      exact (others name listed applied kept).symm
    · cases single
  rw [said_append, said_append, said_requiredEntries, said_requiredEntries] at last
  simp [said, other] at last

theorem firstKeyAllows_of_all {authz : String} {entries : List Entry} (some_entry : entries ≠ [])
    (all : ∀ entry ∈ entries, entry = ("*", .permission true)) : FirstKeyAllows authz entries := by
  rw [firstKeyAllows_star fun entry among _ => by rw [all entry among]]
  cases last : (said "*" entries).getLast? with
  | none =>
    have ⟨entry, among⟩ := exists_mem_of_ne_nil entries some_entry
    have told : true ∈ said "*" entries := (mem_said _ _ _).2 (all entry among ▸ among)
    rw [getLast?_eq_none_iff.1 last] at told
    cases told
  | some allow =>
    have among := (mem_said _ _ _).1 (mem_of_getLast? last)
    cases all _ among
    rfl

theorem userEntries_covered (yuno : Yuno) (username other service : String) (kw : Kw) :
    userEntries { yuno with treedb := coveredTreedb username yuno.realmId other } service username
        kw =
      childEntries yuno.realmId service kw.requiredServices
        { id := "below", realmId := "*", service := other, permission := "*" } := by
  have links : linkedRoles { yuno with treedb := coveredTreedb username yuno.realmId other }
      username = ["covers"] := by
    simp [linkedRoles, coveredTreedb]
  have realm := elsewhere_ne yuno.realmId
  unfold userEntries
  rw [links]
  simp [linkedEntries, coveredTreedb, getNode, addTreeChildren, permissionEntries, requiredEntries,
    applies, realm.1, realm.2]

section

variable (yuno : Yuno) (gobj : Gobj) (authz : String) (kw : Kw) (srcUsername : String)
  (asked : Asked yuno gobj authz kw srcUsername)
include yuno gobj authz kw srcUsername asked

theorem widened_by_other
    {name : ServiceName} (listed : name ∈ kw.requiredServices) (other : name.name ≠ gobj.name)
    (single : name.name ≠ "*") : ¬ Confined yuno gobj authz kw srcUsername := by
  intro confined
  have same := (confined (coveredTreedb (checkedUser kw srcUsername) yuno.realmId name.name)).1
  rw [Bool.eq_iff_iff, authzChecker_entries, authzChecker_entries] at same
  have user : checkedUser { username := kw.username } srcUsername = checkedUser kw srcUsername := rfl
  rw [user, userEntries_covered, userEntries_covered] at same
  have stated (service : String) (applied : service = name.name) :
      permissionEntries yuno.realmId service
        { id := "below", realmId := "*", service := name.name, permission := "*" } =
        [("*", .permission true)] := by
    simp [permissionEntries, applies, statedPermissions, applied]
  have quiet (service : String) (passed : service ≠ name.name) :
      permissionEntries yuno.realmId service
        { id := "below", realmId := "*", service := name.name, permission := "*" } = [] := by
    simp [permissionEntries, applies, single, passed.symm]
  have allows := same.1 ⟨asked, by
    unfold childEntries
    rw [quiet _ other.symm, nil_append]
    apply firstKeyAllows_of_all
    · have among : (("*", .permission true) : Entry) ∈ kw.requiredServices.flatMap fun name' =>
          permissionEntries yuno.realmId name'.name
            { id := "below", realmId := "*", service := name.name, permission := "*" } :=
        mem_flatMap.2 ⟨name, listed, by rw [stated _ rfl]; exact mem_singleton.2 rfl⟩
      exact ne_nil_of_mem among
    · intro entry among
      obtain ⟨name', _, here⟩ := mem_flatMap.1 among
      by_cases applied : name'.name = name.name
      · rw [stated _ applied] at here
        exact mem_singleton.1 here
      · rw [quiet _ applied] at here
        cases here⟩
  obtain ⟨_, first, found, _⟩ := allows
  rw [childEntries, quiet _ other.symm] at found
  cases found

theorem widened_by_marker
    (marked permission : String) (named : permission ≠ "") (decides : names authz permission = true)
    (first : ∃ name ∈ kw.requiredServices, applies (marker marked) yuno.realmId name.name = true ∧
      names authz name.name = true)
    (others : ∀ name ∈ kw.requiredServices,
      applies (marker marked) yuno.realmId name.name = true → names authz name.name = true →
        name.name ≠ permission) :
    ¬ Confined yuno gobj authz kw srcUsername := by
  intro confined
  have same := (confined (markedTreedb (checkedUser kw srcUsername) marked permission)).1
  rw [Bool.eq_iff_iff, authzChecker_entries, authzChecker_entries] at same
  exact marked_denies yuno _ marked permission gobj.name authz kw named first others
    (same.2 ⟨asked, marked_allows yuno _ marked permission gobj.name authz named decides⟩).2

end

/-- A request that is answered cannot widen its permissions exactly when every service it requires
is the one checked or `*`, and none of them is a name that decides. -/
theorem confined_iff (yuno : Yuno) (gobj : Gobj) (authz : String) (kw : Kw) (srcUsername : String) :
    Confined yuno gobj authz kw srcUsername ↔
      (Asked yuno gobj authz kw srcUsername →
        ∀ name ∈ kw.requiredServices, harmless gobj.name authz name.name = true) := by
  constructor
  · intro confined asked name listed
    by_contra bad
    by_cases foreign : ∃ name ∈ kw.requiredServices, name.name ≠ gobj.name ∧ name.name ≠ "*"
    · have ⟨name, listed, other, single⟩ := foreign
      exact widened_by_other yuno gobj authz kw srcUsername asked listed other single confined
    have own : ∀ name ∈ kw.requiredServices, name.name = gobj.name ∨ name.name = "*" := by
      intro name listed
      by_contra neither
      rw [not_or] at neither
      exact foreign ⟨name, listed, neither⟩
    simp only [harmless, Bool.and_eq_true, Bool.or_eq_true, decide_eq_true_eq, Bool.not_eq_true',
      own name listed, true_and, not_or, not_and, Bool.not_eq_false] at bad
    have ⟨⟨notStar, notEmpty⟩, named⟩ := bad
    by_cases authzNamed : ∃ name ∈ kw.requiredServices, name.name = authz
    · have ⟨called, here, isAuthz⟩ := authzNamed
      apply widened_by_marker yuno gobj authz kw srcUsername asked authz "*" (by decide)
        (by simp [names])
      · exact ⟨called, here, by simp [marker, applies, isAuthz], by simp [names, isAuthz]⟩
      · intro other _ applied _
        simp [marker, applies, notStar] at applied
        rw [← applied]
        exact notStar
      · exact confined
    · have isStar : name.name = "*" := by
        simp only [names, decide_eq_true_eq] at named
        exact named.resolve_right fun same => authzNamed ⟨name, listed, same⟩
      have someAuthz : authz ≠ "" := fun isEmpty => notEmpty isEmpty isStar
      apply widened_by_marker yuno gobj authz kw srcUsername asked "*" authz someAuthz
        (by simp [names])
      · exact ⟨name, listed, by simp [marker, applies], by simp [names, isStar]⟩
      · intro other here _ _ same
        exact authzNamed ⟨other, here, same⟩
      · exact confined
  · intro ok
    by_cases asked : Asked yuno gobj authz kw srcUsername
    · exact confined_of_harmless yuno gobj authz kw srcUsername (ok asked)
    · have refused (treedb : Treedb) (other : Kw) (sameUser : other.username = kw.username) :
          authzChecker (some { yuno with treedb }) gobj authz other srcUsername = false := by
        rw [Bool.eq_false_iff, ne_eq, authzChecker_entries]
        intro answered
        apply asked
        have user : checkedUser other srcUsername = checkedUser kw srcUsername := by
          unfold checkedUser
          rw [sameUser]
        exact ⟨user ▸ answered.1.1, answered.1.2⟩
      intro treedb
      constructor
      · exact (refused treedb kw rfl).trans (refused treedb { username := kw.username } rfl).symm
      · intro roles _
        exact (refused { treedb with roles } kw rfl).trans (refused treedb kw rfl).symm

end Widened

/-- `ana` is an operator of the printers, and operators have everything there. -/
def printersYuno : Yuno where
  realmId := "realm"
  globalAuthzTable := ["write"]
  treedb := {
    roles := .cons { id := "operators", realmId := "*", service := "printers" }
      (.cons { id := "printing", realmId := "*", service := "printers", permission := "*" } .nil
        .nil) .nil
    users := Dict.empty.set "ana" ["operators"] }

/-- The same roles, where operators have nothing. -/
def withoutPrinting : Forest :=
  .cons { id := "operators", realmId := "*", service := "printers" }
    (.cons { id := "printing", realmId := "*", service := "printers" } .nil .nil) .nil

/-- A request of `ana` that requires the service `printers`. -/
def printersKw : Kw := { username := "ana", requiredServices := [⟨"printers", by decide⟩] }

/-- A request to write in `db` is refused, and granted when it names the printers, by a role of the
printers alone. -/
theorem request_widens_itself :
    authzChecker (some printersYuno) ⟨"db", none⟩ "write" { username := "ana" } "" = false ∧
    authzChecker (some printersYuno) ⟨"db", none⟩ "write" printersKw "" = true ∧
    AlikeFor "db" printersYuno.treedb.roles withoutPrinting ∧
    authzChecker (some { printersYuno with treedb := { printersYuno.treedb with
      roles := withoutPrinting } }) ⟨"db", none⟩ "write" printersKw "" = false := by
  have foreign (permission : String) :
      Foreign "db" { id := "printing", realmId := "*", service := "printers", permission } := by
    constructor <;> simp
  have alike : AlikeFor "db" printersYuno.treedb.roles withoutPrinting :=
    .cons (.inl rfl) (.cons (.inr ⟨rfl, rfl, foreign "*", foreign ""⟩) .nil .nil) .nil
  exact ⟨by decide, by decide, alike, by decide⟩

end Yunetas.Authz
