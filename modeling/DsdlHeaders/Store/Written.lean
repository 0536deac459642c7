import DsdlHeaders.Header.Normal
import DsdlHeaders.Store.Basic

/-!
# Writing headers

A header is written in its normal form, and only when the file does not hold it already, so files
that would not change keep everything about them. Otherwise the file is replaced as a whole: the new
one has a mode of its own, whatever the mode of the old one was. Directories around it are made when
they are missing.

A write that fails changes no file. It may leave directories that it made on the way. Permissions
refuse no write and space does not run out, so a write can fail only at a path: one that cannot be
made or followed, or that leads to a directory.
-/

namespace DsdlHeaders

/-- What happened to a file. -/
inductive Outcome where
  | created
  | replaced
  | upToDate
deriving DecidableEq, Repr

/-- Did the file change? -/
def Outcome.changed : Outcome → Bool
  | .upToDate => false
  | _ => true

/-- A path that could not be made, read or replaced, and why. -/
structure WriteFault where
  path : String
  fault : FileFault
deriving DecidableEq, Repr

/-- The wording of a failed write. -/
def WriteFault.message (fault : WriteFault) : String :=
  "failed to write " ++ fault.path ++ ": " ++ fault.fault.message

namespace Store

/-- The mode of a written file: headers are not meant to be edited. -/
def writtenMode (readOnly : Bool) : Nat :=
  if readOnly then 0o444 else 0o600

/-- Puts a new file in the place of whatever file is at a path. -/
def replace (store : Store) (path : String) (bytes : ByteArray) (mode : Nat) :
    Except FileFault Store :=
  match store.locate path with
  | .error fault => .error fault
  | .ok (.directory _) => .error .isDirectory
  | .ok (.entry place asDirectory) =>
    if asDirectory then .error .notDirectory
    else if (store.node? place).any Node.isDirectory then .error .isDirectory
    else .ok (store.insert place (.file bytes mode))

/-- Replaces a file and reports the given outcome. -/
def replaced (store : Store) (path : String) (bytes : ByteArray) (mode : Nat)
    (outcome : Outcome) : Except WriteFault Outcome × Store :=
  match store.replace path bytes mode with
  | .error fault => (.error ⟨path, fault⟩, store)
  | .ok changed => (.ok outcome, changed)

/-- Writes the normal form of a text to a path, unless the file holds it already. -/
def write (store : Store) (readOnly : Bool) (path text : String) :
    Except WriteFault Outcome × Store :=
  let bytes := (normalize text).toUTF8
  let mode := writtenMode readOnly
  match store.ensureDirectory (folderOf path) with
  | (.error fault, changed) => (.error ⟨folderOf path, fault⟩, changed)
  | (.ok _, changed) =>
    match changed.read path with
    | .ok existing =>
      if existing.data = bytes.data then (.ok .upToDate, changed)
      else changed.replaced path bytes mode .replaced
    | .error .missing => changed.replaced path bytes mode .created
    | .error fault => (.error ⟨path, fault⟩, changed)

end Store

end DsdlHeaders
