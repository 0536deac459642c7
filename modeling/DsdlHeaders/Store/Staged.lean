import DsdlHeaders.Store.Written

/-!
# Writing through a temporary file

A file is replaced at once: its new bytes go to a temporary file in the same directory, which is then
moved to its place. Whoever looks at the file meanwhile sees the old bytes or the new ones. A
temporary file that cannot be moved is removed again.

`replaceThrough` takes these steps one by one, for a temporary file of any name, and `writeThrough`
is writing with it. `Store.write` says the same in one step.

The assumptions about stores hold for each of the steps. Making and filling the temporary file is
one of them, which fails if its name is taken or leads nowhere, and never for lack of space or
permission; so there is no temporary file that is filled in part. Moving it, setting its mode and
removing it are not refused for lack of permission either. Nothing else touches the file in the
meantime.
-/

namespace DsdlHeaders.Store

/-- The mode of temporary files. -/
def temporaryMode : Nat := 0o600

/-- The mode of files that nobody should edit. -/
def readOnlyMode : Nat := 0o444

/-- Makes a file where nothing is. -/
def create (store : Store) (path : String) (bytes : ByteArray) : Except FileFault Store :=
  match store.locate path with
  | .error fault => .error fault
  | .ok (.directory _) => .error .alreadyExists
  | .ok (.entry place asDirectory) =>
    match store.node? place with
    | some _ => .error .alreadyExists
    | none =>
      if asDirectory then .error .isDirectory
      else .ok (store.insert place (.file bytes temporaryMode))

/-- Moves a file to the place of whatever file is at another path. -/
def rename (store : Store) (source target : String) : Except FileFault Store :=
  match store.locate source with
  | .error fault => .error fault
  | .ok (.directory _) => .error .isDirectory
  | .ok (.entry origin _) =>
    match store.node? origin with
    | none => .error .missing
    | some .directory => .error .isDirectory
    | some (.file bytes mode) =>
      match store.locate target with
      | .error fault => .error fault
      | .ok (.directory _) => .error .isDirectory
      | .ok (.entry place asDirectory) =>
        if asDirectory then .error .notDirectory
        else if (store.node? place).any Node.isDirectory then .error .isDirectory
        else .ok ((store.erase origin).insert place (.file bytes mode))

/-- Gives a file another mode. -/
def setMode (store : Store) (path : String) (mode : Nat) : Except FileFault Store :=
  match store.locate path with
  | .error fault => .error fault
  | .ok (.directory _) => .error .isDirectory
  | .ok (.entry place asDirectory) =>
    match store.node? place with
    | none => .error .missing
    | some .directory => .error .isDirectory
    | some (.file bytes _) =>
      if asDirectory then .error .notDirectory else .ok (store.insert place (.file bytes mode))

/-- The store after an operation, or the old one if the operation failed. -/
def afterTrying (store : Store) : Except FileFault Store → Store
  | .ok changed => changed
  | .error _ => store

/-- Replaces a file through a temporary one. A mode that cannot be set is no failure. -/
def replaceThrough (store : Store) (temporary path : String) (bytes : ByteArray)
    (readOnly : Bool) : Except FileFault Unit × Store :=
  match store.create temporary bytes with
  | .error fault => (.error fault, store)
  | .ok staged =>
    match staged.rename temporary path with
    | .error fault => (.error fault, staged.afterTrying (staged.remove temporary))
    | .ok moved =>
      (.ok (), if readOnly then moved.afterTrying (moved.setMode path readOnlyMode) else moved)

/-- Replaces a file through a temporary one and reports the given outcome. -/
def replacedThrough (store : Store) (temporary path : String) (bytes : ByteArray)
    (readOnly : Bool) (outcome : Outcome) : Except WriteFault Outcome × Store :=
  match store.replaceThrough temporary path bytes readOnly with
  | (.error fault, changed) => (.error ⟨path, fault⟩, changed)
  | (.ok _, changed) => (.ok outcome, changed)

/-- Writes the normal form of a text to a path, unless the file holds it already, through a temporary
file of the given name in the directory of the path. -/
def writeThrough (store : Store) (name : String) (readOnly : Bool) (path text : String) :
    Except WriteFault Outcome × Store :=
  let bytes := (normalize text).toUTF8
  let temporary := Path.push (folderOf path) name
  match store.ensureDirectory (folderOf path) with
  | (.error fault, changed) => (.error ⟨folderOf path, fault⟩, changed)
  | (.ok _, changed) =>
    match changed.read path with
    | .ok existing =>
      if existing.data = bytes.data then (.ok .upToDate, changed)
      else changed.replacedThrough temporary path bytes readOnly .replaced
    | .error .missing => changed.replacedThrough temporary path bytes readOnly .created
    | .error fault => (.error ⟨path, fault⟩, changed)

end DsdlHeaders.Store
