import DsdlHeaders.Store.Basic
import DsdlHeaders.Template.Compiled

/-!
# Template caches

A cache keeps the templates that were compiled from files. Two spellings of a path with the same
steps find the same template. A template that is in the cache is found there whatever became of its
file; one that cannot be read or compiled is not kept.

Every template that a cache compiles has a **serial** number, so two of them can be told apart even
if they were compiled from equal texts.
-/

namespace DsdlHeaders.Template

/-! ## Errors -/

/-- Why a template cannot be had. -/
inductive TemplateFault where
  | unreadable (fault : FileFault)
  | malformed (error : CompileError)
deriving DecidableEq, Repr

/-- A template that cannot be had. -/
structure TemplateError where
  path : String
  fault : TemplateFault
deriving DecidableEq, Repr

/-- The wording of a template fault. -/
def TemplateFault.message : TemplateFault → String
  | .unreadable fault => "failed to read template: " ++ fault.message
  | .malformed (.marker error) => error.message
  | .malformed .statements => "the statements cannot be read"

/-- The wording of a template error. -/
def TemplateError.message (error : TemplateError) : String :=
  "template error in " ++ error.path ++ ": " ++ error.fault.message

/-! ## Files -/

/-- The text of a template file. -/
def readSource (store : Store) (path : String) : Except TemplateError String :=
  match store.readText path with
  | .error fault => .error ⟨path, .unreadable fault⟩
  | .ok text => .ok text

/-- Compiles the text of a template file. -/
def compileSource (path text : String) : Except TemplateError Compiled :=
  match compile path text.toList with
  | .error error => .error ⟨path, .malformed error⟩
  | .ok template => .ok template

/-- Reads and compiles a template file. -/
def compileFile (store : Store) (path : String) : Except TemplateError Compiled :=
  match readSource store path with
  | .error error => .error error
  | .ok text => compileSource path text

/-! ## Caches -/

/-- A template in a cache. -/
structure Cached where
  serial : Nat
  template : Compiled

/-- The templates compiled so far. -/
structure Cache where
  /-- The templates that can be found, latest first. -/
  templates : List Cached
  /-- The serial number of the next template. -/
  next : Nat

namespace Cache

/-- Nothing was compiled yet. -/
def empty : Cache := ⟨[], 0⟩

/-- The template of a path, if it is in the cache. -/
def find? (cache : Cache) (path : String) : Option Cached :=
  cache.templates.find? fun cached => Path.same cached.template.path path

/-- Adds a template. -/
def insert (cache : Cache) (template : Compiled) : Cached × Cache :=
  let cached : Cached := ⟨cache.next, template⟩
  (cached, ⟨cached :: cache.templates, cache.next + 1⟩)

/-- The template of a path, compiled from its file when it is not in the cache. -/
def get (cache : Cache) (store : Store) (path : String) :
    Except TemplateError Cached × Cache :=
  match cache.find? path with
  | some cached => (.ok cached, cache)
  | none =>
    match compileFile store path with
    | .error error => (.error error, cache)
    | .ok template =>
      let (cached, changed) := cache.insert template
      (.ok cached, changed)

/-- Forgets all templates. -/
def clear (cache : Cache) : Cache :=
  ⟨[], cache.next⟩

/-- How many templates can be found. -/
def size (cache : Cache) : Nat :=
  cache.templates.length

end Cache

end DsdlHeaders.Template
