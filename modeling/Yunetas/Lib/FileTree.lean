import Yunetas.Lib.Dict

/-!
# A tree of files

Directories and files by their path, as a process that may write everywhere sees them: no links
and no permissions. A path is a list of names and is resolved name by name, so that an empty name
and a dot stay where they are and two dots go up. Making a path makes the directories that are
missing, one by one, and stops at the first that cannot be made; a file is made only where nothing
stands. Nothing here takes an entry away but the removal of a whole directory.
-/

namespace Yunetas

open List Bool Option Dict

/-! ## Names -/

/-- The pieces of a text between its slashes. -/
def splitSlashes : List Char → List (List Char)
  | [] => [[]]
  | c :: rest =>
    if c = '/' then [] :: splitSlashes rest
    else match splitSlashes rest with
      | [] => [[c]]
      | piece :: others => (c :: piece) :: others

/-- The names of a path written as a text. -/
def pathParts (text : String) : List String := (splitSlashes text.toList).map String.ofList

theorem splitSlashes_plain {text : List Char} (plain : '/' ∉ text) : splitSlashes text = [text] := by
  induction text with
  | nil => rfl
  | cons c rest ih =>
    have other : c ≠ '/' := fun same => plain (same ▸ mem_cons_self)
    have later := ih fun among => plain (mem_cons_of_mem c among)
    rw [splitSlashes, if_neg other, later]

theorem pathParts_plain {text : String} (plain : '/' ∉ text.toList) : pathParts text = [text] := by
  have whole := splitSlashes_plain plain
  rw [pathParts, whole, map_singleton, String.ofList_toList]

/-- The longest name of an entry, in bytes. -/
def nameLimit : Nat := 255

/-- A name that an entry may have. -/
def fitsName (name : String) : Bool := name.utf8ByteSize ≤ nameLimit

/-- A name that stands for an entry of its directory, not for the directory or the one above. -/
def EntryName (name : String) : Prop := name ≠ "" ∧ name ≠ "." ∧ name ≠ ".."

instance (name : String) : Decidable (EntryName name) := inferInstanceAs (Decidable (_ ∧ _ ∧ _))

/-! ## Trees -/

/-- What stands at a path. -/
inductive Node (β : Type) where
  | dir
  | file (content : β)
deriving DecidableEq, Repr

/-- The place of an entry: the names from the root to it. -/
abbrev Path := List String

/-- The entries of a file system. The root is a directory and is not an entry. -/
abbrev FileTree (β : Type) := Dict Path (Node β)

variable {β : Type}

namespace FileTree

/-- A directory stands at a path. -/
def isDir (tree : FileTree β) (place : Path) : Bool :=
  match place, tree.get? place with
  | [], _ => true
  | _, some .dir => true
  | _, _ => false

/-- The content of the file at a path. -/
def fileAt (tree : FileTree β) (path : Path) : Option β :=
  match tree.get? path with
  | some (.file content) => some content
  | _ => none

/-- The directory that names lead to from a place. -/
def resolve (tree : FileTree β) : Path → List String → Option Path
  | place, [] => some place
  | place, name :: rest =>
    if name = "" ∨ name = "." then tree.resolve place rest
    else if name = ".." then tree.resolve place.dropLast rest
    else if tree.isDir (place ++ [name]) then tree.resolve (place ++ [name]) rest
    else none

/-- Make a directory. -/
def makeDir (tree : FileTree β) (path : Path) : FileTree β := tree.set path .dir

/-- Make the directories that are missing on the way, until one cannot be made. -/
def makePath (tree : FileTree β) : Path → List String → FileTree β
  | _, [] => tree
  | place, name :: rest =>
    if name = "" ∨ name = "." then tree.makePath place rest
    else if name = ".." then tree.makePath place.dropLast rest
    else match tree.get? (place ++ [name]) with
      | some .dir => tree.makePath (place ++ [name]) rest
      | some (.file _) => tree
      | none =>
        if fitsName name then (tree.makeDir (place ++ [name])).makePath (place ++ [name]) rest
        else tree

/-- Making the path makes a directory: the first that is missing has a name that fits. -/
def makes (tree : FileTree β) : Path → List String → Bool
  | _, [] => false
  | place, name :: rest =>
    if name = "" ∨ name = "." then tree.makes place rest
    else if name = ".." then tree.makes place.dropLast rest
    else match tree.get? (place ++ [name]) with
      | some .dir => tree.makes (place ++ [name]) rest
      | some (.file _) => false
      | none => fitsName name

/-- A file may be made in a directory: nothing has its name. -/
def free (tree : FileTree β) (place : Path) (name : String) : Bool :=
  fitsName name && (tree.get? (place ++ [name])).isNone

/-- Make a file where nothing stands. -/
def newFile (tree : FileTree β) (place : Path) (name : String) (content : β) : Option (FileTree β) :=
  if tree.free place name then some (tree.set (place ++ [name]) (.file content)) else none

/-- Replace the content of a file. -/
def write (tree : FileTree β) (path : Path) (content : β) : FileTree β :=
  tree.set path (.file content)

/-- Remove a directory with all it holds. -/
def removeTree (tree : FileTree β) (place : Path) : FileTree β where
  entries := tree.entries.filter fun entry => !place.isPrefixOf entry.1
  nodup := tree.nodup.sublist (List.filter_sublist.map Prod.fst)

/-- The names of the directories in a directory. -/
def subdirs (tree : FileTree β) (place : Path) : List String :=
  tree.entries.filterMap fun entry =>
    match entry.2, entry.1.getLast? with
    | .dir, some name => if entry.1 = place ++ [name] then some name else none
    | _, _ => none

/-- The files of a directory, by name. -/
def filesIn (tree : FileTree β) (place : Path) : List (String × β) :=
  tree.entries.filterMap fun entry =>
    match entry.2, entry.1.getLast? with
    | .file content, some name => if entry.1 = place ++ [name] then some (name, content) else none
    | _, _ => none

/-! ## What stands where -/

@[simp] theorem isDir_root (tree : FileTree β) : tree.isDir [] = true := rfl

theorem isDir_iff (tree : FileTree β) {place : Path} (below : place ≠ []) :
    tree.isDir place = true ↔ tree.get? place = some .dir := by
  cases place with
  | nil => exact absurd rfl below
  | cons name rest =>
    unfold isDir
    cases tree.get? (name :: rest) with
    | none => simp
    | some node => cases node <;> simp

variable {tree : FileTree β}

theorem fileAt_eq_some {path : Path} {content : β} :
    tree.fileAt path = some content ↔ tree.get? path = some (.file content) := by
  unfold fileAt
  cases tree.get? path with
  | none => simp
  | some node => cases node <;> simp

@[simp] theorem fileAt_write (tree : FileTree β) (path : Path) (content : β) :
    (tree.write path content).fileAt path = some content := by
  rw [fileAt_eq_some, write, get?_set_self]

theorem get?_write_ne (tree : FileTree β) {path other : Path} (content : β) (ne : other ≠ path) :
    (tree.write path content).get? other = tree.get? other := get?_set_ne _ _ ne

theorem fileAt_write_ne (tree : FileTree β) {path other : Path} (content : β)
    (ne : other ≠ path) : (tree.write path content).fileAt other = tree.fileAt other := by
  unfold fileAt
  rw [get?_write_ne tree content ne]

theorem get?_makeDir (tree : FileTree β) (path other : Path) :
    (tree.makeDir path).get? other = if other = path then some .dir else tree.get? other :=
  get?_set tree path other .dir

theorem lookupEntries_filter_keys {α : Type} [DecidableEq α] (keep : α → Bool) (key : α)
    (entries : List (α × β)) :
    Dict.lookupEntries key (entries.filter fun entry => keep entry.1) =
      if keep key then Dict.lookupEntries key entries else none := by
  induction entries with
  | nil => simp [Dict.lookupEntries]
  | cons entry rest ih =>
    by_cases here : entry.1 = key
    · by_cases kept : keep key = true
      · simp [here, kept, Dict.lookupEntries]
      · rw [filter_cons, if_neg (by rw [here]; exact kept), ih, if_neg kept, if_neg kept]
    · by_cases kept : keep entry.1 = true
      · rw [filter_cons, if_pos kept, Dict.lookupEntries, if_neg here, ih, Dict.lookupEntries,
          if_neg here]
      · rw [filter_cons, if_neg kept, ih, Dict.lookupEntries, if_neg here]

theorem get?_removeTree (tree : FileTree β) (place path : Path) :
    (tree.removeTree place).get? path = if place.isPrefixOf path then none else tree.get? path := by
  have filtered := lookupEntries_filter_keys (fun other => !place.isPrefixOf other) path tree.entries
  unfold Dict.get?
  rw [removeTree, filtered]
  cases place.isPrefixOf path <;> rfl

/-! ## Resolution -/

theorem resolve_mono {tree grown : FileTree β}
    (dirs : ∀ path, tree.isDir path = true → grown.isDir path = true) (parts : List String)
    (place target : Path) (found : tree.resolve place parts = some target) :
    grown.resolve place parts = some target := by
  induction parts generalizing place with
  | nil => exact found
  | cons name rest ih =>
    unfold resolve at found ⊢
    by_cases stay : name = "" ∨ name = "."
    · rw [if_pos stay] at found ⊢
      exact ih place found
    · rw [if_neg stay] at found ⊢
      by_cases up : name = ".."
      · rw [if_pos up] at found ⊢
        exact ih place.dropLast found
      · rw [if_neg up] at found ⊢
        by_cases here : tree.isDir (place ++ [name]) = true
        · rw [if_pos here] at found
          rw [if_pos (dirs _ here)]
          exact ih (place ++ [name]) found
        · rw [if_neg here] at found
          cases found

theorem resolve_entry (tree : FileTree β) {name : String} (entry : EntryName name) (place : Path)
    (rest : List String) :
    tree.resolve place (name :: rest) =
      if tree.isDir (place ++ [name]) then tree.resolve (place ++ [name]) rest else none := by
  have stay : ¬ (name = "" ∨ name = ".") := by
    intro either
    rcases either with same | same
    · exact entry.1 same
    · exact entry.2.1 same
  rw [resolve, if_neg stay, if_neg entry.2.2]

theorem resolve_spells {parts : List String}
    (entries : ∀ name ∈ parts, EntryName name) {place target : Path}
    (found : tree.resolve place parts = some target) : target = place ++ parts := by
  induction parts generalizing place with
  | nil =>
    rw [append_nil]
    exact (some.inj found).symm
  | cons name rest ih =>
    rw [resolve_entry tree (entries name mem_cons_self)] at found
    by_cases here : tree.isDir (place ++ [name]) = true
    · rw [if_pos here] at found
      have spelled := ih (fun other among => entries other (mem_cons_of_mem name among)) found
      rw [spelled, append_assoc, singleton_append]
    · rw [if_neg here] at found
      cases found

theorem resolve_kept {tree other : FileTree β} {parts : List String}
    (entries : ∀ name ∈ parts, EntryName name) {place target : Path}
    (dirs : ∀ path, path <+: place ++ parts → tree.isDir path = true → other.isDir path = true)
    (found : tree.resolve place parts = some target) : other.resolve place parts = some target := by
  induction parts generalizing place with
  | nil => exact found
  | cons name rest ih =>
    have entry := entries name mem_cons_self
    have longer : (place ++ [name]) ++ rest = place ++ name :: rest := by
      rw [append_assoc, singleton_append]
    rw [resolve_entry tree entry] at found
    rw [resolve_entry other entry]
    by_cases here : tree.isDir (place ++ [name]) = true
    · rw [if_pos here] at found
      have onWay : place ++ [name] <+: place ++ name :: rest := ⟨rest, longer⟩
      rw [if_pos (dirs _ onWay here)]
      apply ih (fun later among => entries later (mem_cons_of_mem name among)) _ found
      rw [longer]
      exact dirs
    · rw [if_neg here] at found
      cases found

/-! ## Making paths and files -/

theorem get?_makePath {tree : FileTree β} {path : Path} (parts : List String) (place : Path) :
    (tree.makePath place parts).get? path = tree.get? path ∨
      tree.get? path = none ∧ (tree.makePath place parts).get? path = some .dir := by
  induction parts generalizing tree place with
  | nil => exact .inl rfl
  | cons name rest ih =>
    unfold makePath
    by_cases stay : name = "" ∨ name = "."
    · rw [if_pos stay]
      exact ih place
    · rw [if_neg stay]
      by_cases up : name = ".."
      · rw [if_pos up]
        exact ih place.dropLast
      · rw [if_neg up]
        cases here : tree.get? (place ++ [name]) with
        | none =>
          by_cases fits : fitsName name = true
          · simp only [fits, ↓reduceIte]
            by_cases same : path = place ++ [name]
            · have made : (tree.makeDir (place ++ [name])).get? path = some .dir := by
                rw [get?_makeDir, if_pos same]
              rcases @ih (tree.makeDir (place ++ [name])) (place ++ [name]) with kept | ⟨absent, _⟩
              · exact .inr ⟨same ▸ here, kept.trans made⟩
              · rw [made] at absent
                cases absent
            · have kept : (tree.makeDir (place ++ [name])).get? path = tree.get? path := by
                rw [get?_makeDir, if_neg same]
              rw [← kept]
              exact ih (place ++ [name])
          · simp [fits, ↓reduceIte]
        | some node =>
          cases node with
          | dir => exact ih (place ++ [name])
          | file content => exact .inl rfl

theorem get?_makePath_of_some {path : Path} {node : Node β}
    (stands : tree.get? path = some node) (parts : List String) (place : Path) :
    (tree.makePath place parts).get? path = some node := by
  rcases @get?_makePath β tree path parts place with same | ⟨absent, _⟩
  · rw [same, stands]
  · rw [stands] at absent
    cases absent

@[simp] theorem fileAt_makePath (tree : FileTree β) (path place : Path) (parts : List String) :
    (tree.makePath place parts).fileAt path = tree.fileAt path := by
  unfold fileAt
  rcases @get?_makePath β tree path parts place with same | made
  · rw [same]
  · rw [made.1, made.2]

theorem isDir_makePath {path : Path} (dir : tree.isDir path = true)
    (place : Path) (parts : List String) : (tree.makePath place parts).isDir path = true := by
  by_cases root : path = []
  · rw [root, isDir_root]
  · rw [isDir_iff _ root] at dir ⊢
    exact get?_makePath_of_some dir parts place

theorem makePath_of_not_makes (parts : List String) (place : Path)
    (refused : tree.makes place parts = false) : tree.makePath place parts = tree := by
  induction parts generalizing place with
  | nil => rfl
  | cons name rest ih =>
    unfold makes at refused
    unfold makePath
    by_cases stay : name = "" ∨ name = "."
    · rw [if_pos stay] at refused ⊢
      exact ih place refused
    · rw [if_neg stay] at refused ⊢
      by_cases up : name = ".."
      · rw [if_pos up] at refused ⊢
        exact ih place.dropLast refused
      · rw [if_neg up] at refused ⊢
        cases here : tree.get? (place ++ [name]) with
        | none =>
          rw [here] at refused
          simp [refused, ↓reduceIte]
        | some node =>
          rw [here] at refused
          cases node with
          | dir => exact ih (place ++ [name]) refused
          | file content => rfl

theorem makePath_of_makes (parts : List String) (place : Path)
    (made : tree.makes place parts = true) :
    ∃ path, tree.get? path = none ∧ (tree.makePath place parts).get? path = some .dir := by
  induction parts generalizing place with
  | nil => cases made
  | cons name rest ih =>
    unfold makes at made
    unfold makePath
    by_cases stay : name = "" ∨ name = "."
    · rw [if_pos stay] at made ⊢
      exact ih place made
    · rw [if_neg stay] at made ⊢
      by_cases up : name = ".."
      · rw [if_pos up] at made ⊢
        exact ih place.dropLast made
      · rw [if_neg up] at made ⊢
        cases here : tree.get? (place ++ [name]) with
        | none =>
          rw [here] at made
          simp only [made, ↓reduceIte]
          refine ⟨place ++ [name], here, ?_⟩
          apply get?_makePath_of_some
          rw [get?_makeDir, if_pos rfl]
        | some node =>
          rw [here] at made
          cases node with
          | dir => exact ih (place ++ [name]) made
          | file content => cases made

theorem newFile_eq_some {tree made : FileTree β} {place : Path} {name : String} {content : β}
    (new : tree.newFile place name content = some made) :
    tree.get? (place ++ [name]) = none ∧ made = tree.write (place ++ [name]) content := by
  unfold newFile at new
  by_cases room : tree.free place name = true
  · rw [if_pos room] at new
    unfold free at room
    rw [and_eq_true, isNone_iff_eq_none] at room
    exact ⟨room.2, (some.inj new).symm⟩
  · rw [if_neg room] at new
    cases new

theorem isDir_write {path place : Path} {content : β}
    (notDir : tree.get? path ≠ some .dir) (dir : tree.isDir place = true) :
    (tree.write path content).isDir place = true := by
  by_cases root : place = []
  · rw [root, isDir_root]
  · rw [isDir_iff _ root] at dir ⊢
    have ne : place ≠ path := by
      intro same
      rw [same] at dir
      exact notDir dir
    rw [get?_write_ne tree content ne]
    exact dir

end FileTree

end Yunetas
