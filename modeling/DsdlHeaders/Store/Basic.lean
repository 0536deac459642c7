import DsdlHeaders.Store.Fault
import DsdlHeaders.Store.Path

/-!
# Stores

A store is a file system without links: directories and files at places. A **place** is the list of
names that leads to it from the root. Paths are texts; `locate` finds the place that a path means
by walking its steps, and fails where an operating system would: a step below a missing entry or
below a file leads nowhere, and neither does a name or a path that is too long. A path with a NUL
character means nothing at all.

* **View.** `node?` says what is at a place. Every operation is described by what it does to it:
  `node?_insert` and `node?_erase`.
* **Reading.** `read` gives the bytes of a file, `readText` its text when they are valid UTF-8.
* **Directories.** `makeDirectory` makes one directory; `ensureDirectory` also makes the missing
  ones around it and is content with one that is there.
* **Listing.** `listing` gives all places below a directory, each directory before its content and
  the entries of each directory in ascending order.

What is assumed of the system around a store:

* **No permissions.** Modes are kept with files and shown by `mode?`, but no operation consults
  them: whatever path leads to a node may be read, written and removed, and no operation is refused
  for lack of a right.
* **No exhaustion.** Storage is unbounded and the device works: no operation fails for lack of space
  or of entries, or because reading or writing was interrupted. `FileFault` lists what can fail.
* **No one else.** Between two operations nothing changes the store.
-/

namespace DsdlHeaders

/-! ## Places and nodes -/

/-- The names that lead from the root to a directory or file. -/
abbrev Place := List String

/-- What is at a place. -/
inductive Node where
  | directory
  | file (bytes : ByteArray) (mode : Nat)

/-- Is it a directory? -/
def Node.isDirectory : Node → Bool
  | .directory => true
  | .file _ _ => false

/-- A file system, and the directory that relative paths start from. -/
structure Store where
  /-- The nodes other than the root. -/
  nodes : List (Place × Node)
  current : Place

namespace Store

/-- What the nodes of a list say about a place. -/
def find? (place : Place) : List (Place × Node) → Option Node
  | [] => none
  | (p, node) :: rest => if p = place then some node else find? place rest

/-- What is at a place. The root is always a directory. -/
def node? (store : Store) (place : Place) : Option Node :=
  if place = [] then some .directory else find? place store.nodes

/-- Puts a node at a place. -/
def insert (store : Store) (place : Place) (node : Node) : Store :=
  { store with nodes := (place, node) :: store.nodes.filter fun entry => entry.1 ≠ place }

/-- Removes what is at a place. -/
def erase (store : Store) (place : Place) : Store :=
  { store with nodes := store.nodes.filter fun entry => entry.1 ≠ place }

/-- Filtering out another place changes nothing about this one. -/
theorem find?_filter {place other : Place} (nodes : List (Place × Node)) :
    find? place (nodes.filter fun entry => entry.1 ≠ other) =
      if place = other then none else find? place nodes := by
  induction nodes with
  | nil => simp [find?]
  | cons entry rest ih =>
    obtain ⟨p, node⟩ := entry
    by_cases hp : p = other <;> grind [find?]

/-- What is at a place after a node was put somewhere. -/
theorem node?_insert (store : Store) (place other : Place) (node : Node) :
    (store.insert other node).node? place =
      if place = [] then some .directory
      else if place = other then some node else store.node? place := by
  unfold node? insert
  by_cases hroot : place = []
  · simp [hroot]
  · by_cases hplace : other = place
    · subst hplace
      simp [hroot, find?]
    · have : ¬ place = other := fun h => hplace h.symm
      simp only [hroot, this, find?, hplace, if_false]
      rw [find?_filter, if_neg this]

/-- What is at a place after something was removed. -/
theorem node?_erase (store : Store) (place other : Place) :
    (store.erase other).node? place =
      if place = [] then some .directory
      else if place = other then none else store.node? place := by
  unfold node? erase
  by_cases hroot : place = []
  · simp [hroot]
  · simp only [hroot, if_false]
    rw [find?_filter]

/-! ## Finding places -/

/-- The most bytes a name in a directory may have. -/
def maxNameBytes : Nat := 255

/-- The most bytes a path may have. -/
def maxPathBytes : Nat := 4095

/-- The directory that steps lead to from a directory. -/
def walk (store : Store) : Place → List Path.Step → Except FileFault Place
  | place, [] => .ok place
  | _, .root :: rest => store.walk [] rest
  | place, .here :: rest => store.walk place rest
  | place, .up :: rest => store.walk place.dropLast rest
  | place, .entry name :: rest =>
    if maxNameBytes < name.utf8ByteSize then .error .nameTooLong
    else
      match store.node? (place ++ [name]) with
      | none => .error .missing
      | some (.file ..) => .error .notDirectory
      | some .directory => store.walk (place ++ [name]) rest

/-- What a path means. -/
inductive Spot where
  /-- A directory that its last step leads back to. -/
  | directory (place : Place)
  /-- A name in a directory; there need not be anything. A separator at the end of the path asks
  for a directory. -/
  | entry (place : Place) (asDirectory : Bool)
deriving DecidableEq, Repr

/-- Does a path end in a step that says nothing by itself? -/
def endsInDot (path : String) : Bool :=
  let pieces := (Text.splitOn '/' path.toList).filter fun piece => piece ≠ []
  pieces.getLast? = some ['.']

/-- Finds what a path means. -/
def locate (store : Store) (path : String) : Except FileFault Spot :=
  if path.toList.contains '\x00' then .error .containsNul
  else if path = "" then .error .missing
  else if maxPathBytes < path.utf8ByteSize then .error .nameTooLong
  else
    let steps := Path.steps path
    match steps.getLast?, endsInDot path with
    | some (.entry name), false => do
      let folder ← store.walk store.current steps.dropLast
      if maxNameBytes < name.utf8ByteSize then .error .nameTooLong
      else .ok (.entry (folder ++ [name]) (path.toList.getLast? = some '/'))
    | _, _ => do
      let folder ← store.walk store.current steps
      .ok (.directory folder)

/-- The spelling of the current directory. -/
def currentPath (store : Store) : String :=
  "/" ++ String.intercalate "/" store.current

/-! ## Reading -/

/-- Is there a directory at a path? -/
def isDirectory (store : Store) (path : String) : Bool :=
  match store.locate path with
  | .ok (.directory _) => true
  | .ok (.entry place _) => (store.node? place).any Node.isDirectory
  | .error _ => false

/-- The bytes of a file. -/
def read (store : Store) (path : String) : Except FileFault ByteArray :=
  match store.locate path with
  | .error fault => .error fault
  | .ok (.directory _) => .error .isDirectory
  | .ok (.entry place asDirectory) =>
    match store.node? place with
    | none => .error .missing
    | some .directory => .error .isDirectory
    | some (.file bytes _) => if asDirectory then .error .notDirectory else .ok bytes

/-- The text of a file. -/
def readText (store : Store) (path : String) : Except FileFault String :=
  match store.read path with
  | .error fault => .error fault
  | .ok bytes =>
    match String.fromUTF8? bytes with
    | some text => .ok text
    | none => .error .notText

/-- The mode of a file. -/
def mode? (store : Store) (path : String) : Option Nat :=
  match store.locate path with
  | .ok (.entry place _) =>
    match store.node? place with
    | some (.file _ mode) => some mode
    | _ => none
  | _ => none

/-! ## Changing -/

/-- Makes one directory. -/
def makeDirectory (store : Store) (path : String) : Except FileFault Store :=
  match store.locate path with
  | .error fault => .error fault
  | .ok (.directory _) => .error .alreadyExists
  | .ok (.entry place _) =>
    match store.node? place with
    | some _ => .error .alreadyExists
    | none => .ok (store.insert place .directory)

/-- Makes a directory, or is content with one that is there. -/
def makeOrKeep (store : Store) (path : String) : Except FileFault Unit × Store :=
  match store.makeDirectory path with
  | .ok changed => (.ok (), changed)
  | .error fault => if store.isDirectory path then (.ok (), store) else (.error fault, store)

/-- Makes a directory and the missing ones around it, at most `fuel` of them. -/
def ensureFor : (fuel : Nat) → Store → String → Except FileFault Unit × Store
  | 0, store, _ => (.error .missing, store)
  | fuel + 1, store, path =>
    if path = "" then (.ok (), store)
    else
      match store.makeDirectory path with
      | .ok changed => (.ok (), changed)
      | .error .missing =>
        match Path.parent? path with
        | none => (.error .missing, store)
        | some folder =>
          match ensureFor fuel store folder with
          | (.error fault, changed) => (.error fault, changed)
          | (.ok _, changed) => changed.makeOrKeep path
      | .error fault => if store.isDirectory path then (.ok (), store) else (.error fault, store)

/-- Makes a directory and the missing ones around it. -/
def ensureDirectory (store : Store) (path : String) : Except FileFault Unit × Store :=
  ensureFor (path.length + 1) store path

/-- The path of the directory that a file belongs into. -/
def folderOf (path : String) : String :=
  match Path.parent? path with
  | some "" => "."
  | some folder => folder
  | none => "."

/-- The mode of files that are put into a store from outside. -/
def plainMode : Nat := 0o644

/-- Puts a file at a path, with the directories around it. A file that is there keeps its mode. -/
def put (store : Store) (path : String) (bytes : ByteArray) : Except FileFault Unit × Store :=
  match store.ensureDirectory (folderOf path) with
  | (.error fault, changed) => (.error fault, changed)
  | (.ok _, changed) =>
    match changed.locate path with
    | .error fault => (.error fault, changed)
    | .ok (.directory _) => (.error .isDirectory, changed)
    | .ok (.entry place asDirectory) =>
      match changed.node? place with
      | some .directory => (.error .isDirectory, changed)
      | some (.file _ mode) =>
        if asDirectory then (.error .notDirectory, changed)
        else (.ok (), changed.insert place (.file bytes mode))
      | none =>
        if asDirectory then (.error .isDirectory, changed)
        else (.ok (), changed.insert place (.file bytes plainMode))

/-- Removes a file. -/
def remove (store : Store) (path : String) : Except FileFault Store :=
  match store.locate path with
  | .error fault => .error fault
  | .ok (.directory _) => .error .isDirectory
  | .ok (.entry place asDirectory) =>
    match store.node? place with
    | none => .error .missing
    | some .directory => .error .isDirectory
    | some (.file ..) => if asDirectory then .error .notDirectory else .ok (store.erase place)

/-! ## Listing -/

/-- Does a place come no later than another one? Places are compared name by name. -/
def precedes : Place → Place → Bool
  | [], _ => true
  | _ :: _, [] => false
  | a :: p, b :: q => if a = b then precedes p q else a < b

/-- What leads from a directory to a place below it. -/
def below? : Place → Place → Option Place
  | [], [] => none
  | [], rest => some rest
  | _ :: _, [] => none
  | a :: folder, b :: place => if a = b then below? folder place else none

/-- All places below a directory, relative to it, in ascending order. -/
def listing (store : Store) (folder : Place) : List (Place × Node) :=
  let found := store.nodes.filterMap fun entry =>
    (below? folder entry.1).map fun rest => (rest, entry.2)
  found.mergeSort fun a b => precedes a.1 b.1

end Store

end DsdlHeaders
