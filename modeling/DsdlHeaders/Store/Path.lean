import DsdlHeaders.Text.Search

/-!
# Paths

A path is a text with `/` between its steps. Doubled separators, trailing separators and the step
`.` (unless it comes first) say nothing, so two spellings of a path are *the same place* when their
steps agree; `steps` is that view.

* **Building**: `push` adds a relative path or is replaced by an absolute one; `withExtension`
  replaces what follows the last inner dot of the last step.
* **Taking apart**: `parent?` and `lastStep?` look at the last step that says something.
* **`absolute?`** spells a path from the root, without asking the file system.
-/

namespace DsdlHeaders.Path

/-! ## Steps -/

/-- One step of a path. -/
inductive Step where
  /-- The root, at the start of an absolute path. -/
  | root
  /-- The current directory, at the start of a relative path. -/
  | here
  /-- The enclosing directory. -/
  | up
  /-- An entry of a directory. -/
  | entry (name : String)
deriving DecidableEq, Repr

/-- Is the path spelled from the root? -/
def isAbsolute (path : String) : Bool :=
  match path.toList with
  | '/' :: _ => true
  | _ => false

/-- The step that a piece between separators stands for; nothing for an empty piece or a dot. -/
def stepOf? (piece : List Char) : Option Step :=
  if piece = [] || piece = ['.'] then none
  else if piece = ['.', '.'] then some .up
  else some (.entry (String.ofList piece))

/-- The steps of a path. -/
def steps (path : String) : List Step :=
  let pieces := Text.splitOn '/' path.toList
  let lead : List Step :=
    if isAbsolute path then [.root]
    else if pieces.head? = some ['.'] then [.here]
    else []
  lead ++ pieces.filterMap stepOf?

/-- Do two spellings name the same place? -/
def same (p q : String) : Bool :=
  steps p == steps q

/-! ## Building -/

/-- Adds a path below another one. An absolute path replaces what is there; otherwise a separator
is put in between unless there already is one or the first path is empty. -/
def push (path piece : String) : String :=
  if isAbsolute piece then piece
  else if path = "" || path.toList.getLast? = some '/' then path ++ piece
  else path ++ "/" ++ piece

/-- Adds pieces one by one, from the empty path. -/
def ofPieces (pieces : List String) : String :=
  pieces.foldl push ""

/-- Spells a step as a piece of a path. -/
def Step.text : Step → String
  | .root => "/"
  | .here => "."
  | .up => ".."
  | .entry name => name

/-! ## Taking apart -/

/-- Removes trailing separators and trailing dots that say nothing, on the reversed path. The first
character of the path stays. -/
def trimTail : List Char → List Char
  | [] => []
  | [c] => [c]
  | c :: d :: rest =>
    if c = '/' then trimTail (d :: rest)
    else if c = '.' && d = '/' then
      match rest with
      | [] => ['/']
      | _ :: _ => trimTail rest
    else c :: d :: rest

/-- A path without the tail that says nothing. -/
def trimmed (path : String) : List Char :=
  (trimTail path.toList.reverse).reverse

/-- The text after the last separator of a trimmed path, when it is an entry's name. -/
def lastName? (path : String) : Option (List Char) :=
  let name := ((trimmed path).reverse.takeWhile (· ≠ '/')).reverse
  if name = [] || name = ['.'] || name = ['.', '.'] then none else some name

/-- The name of an entry without its extension: what comes before the last dot, unless nothing
does. -/
def stem (name : List Char) : List Char :=
  match Text.cutLast? '.' name with
  | some (before, _) => if before = [] then name else before
  | none => name

/-- Replaces the extension of the last step. A path whose last step is no entry stays as it is. -/
def withExtension (path : String) (extension : String) : String :=
  match lastName? path with
  | none => path
  | some name =>
    let base := trimmed path
    let kept := base.take (base.length - name.length + (stem name).length)
    let tail := if extension = "" then [] else '.' :: extension.toList
    String.ofList (kept ++ tail)

/-- The path of the enclosing directory; the root and the empty path have none. -/
def parent? (path : String) : Option String :=
  let base := trimmed path
  if base = [] || base = ['/'] then none
  else
    let outer := base.reverse.dropWhile (· ≠ '/')
    some (String.ofList (trimTail outer).reverse)

/-! ## Absolute paths -/

/-- Spells a path from the root, given the directory that relative paths start from. Steps that say
nothing are dropped, `..` is kept, and exactly two leading separators are kept as well. The empty
path has no absolute spelling. -/
def absolute? (current path : String) : Option String :=
  if path = "" then none
  else
    let chars := path.toList
    let later := (steps path).filter fun step => step ≠ .root && step ≠ .here
    let doubled := Text.startsWith ['/', '/'] chars && !Text.startsWith ['/', '/', '/'] chars
    let start := if doubled then "//" else if isAbsolute path then "/" else current
    let body := later.foldl (fun acc step => push acc step.text) start
    some (if chars.getLast? = some '/' then push body "" else body)

end DsdlHeaders.Path
