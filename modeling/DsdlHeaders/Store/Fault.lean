/-!
# Faults of the file system

What can go wrong with a path or a file, and the words for it.
-/

namespace DsdlHeaders

/-- Why an operation on files fails. -/
inductive FileFault where
  | missing
  | alreadyExists
  | notDirectory
  | isDirectory
  | directoryNotEmpty
  | notText
  | emptyPath
  | nameTooLong
  | containsNul
deriving DecidableEq, Repr

/-- The wording of a file fault. -/
def FileFault.message : FileFault → String
  | .missing => "No such file or directory (os error 2)"
  | .alreadyExists => "File exists (os error 17)"
  | .notDirectory => "Not a directory (os error 20)"
  | .isDirectory => "Is a directory (os error 21)"
  | .directoryNotEmpty => "Directory not empty (os error 39)"
  | .notText => "stream did not contain valid UTF-8"
  | .emptyPath => "cannot make an empty path absolute"
  | .nameTooLong => "File name too long (os error 36)"
  | .containsNul => "file name contained an unexpected NUL byte"

end DsdlHeaders
