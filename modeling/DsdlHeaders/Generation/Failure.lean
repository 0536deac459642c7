import DsdlHeaders.Document.Error
import DsdlHeaders.Store.Written
import DsdlHeaders.Template.Cache

/-!
# Failures of a run

A run fails as a whole when there is nothing to do, when the model, the template or the output
directory is unusable, or when one definition fails and the run is not to go on. A definition fails
at one of three **stages**: when its context is built, when the template is expanded for it, or when
its header is written.
-/

namespace DsdlHeaders

/-- The wording of an expansion error. -/
def Template.EvalError.message : EvalError → String
  | .undefinedValue => "undefined value"
  | .invalidOperation => "invalid operation"
  | .noLength kind => "object of kind " ++ kind ++ " has no length"
  | .unknownFunction => "unknown function"
  | .unknownFilter => "unknown filter"
  | .unknownMethod => "unknown method"
  | .unknownBlock => "unknown block"
  | .unknownTest => "unknown test"
  | .missingArgument => "missing argument"
  | .tooManyArguments => "too many arguments"
  | .cannotUnpack => "cannot unpack"

/-- Where the generation of one header fails. -/
inductive Stage where
  | context
  | expand
  | write
deriving DecidableEq, Repr

/-- The word for a stage. -/
def Stage.word : Stage → String
  | .context => "context"
  | .expand => "expand"
  | .write => "write"

/-- Why the generation of one header fails. -/
inductive Cause where
  | context (error : ContextError)
  | expand (error : Template.EvalError)
  | write (fault : WriteFault)
deriving DecidableEq, Repr

/-- The stage that a cause belongs to. -/
def Cause.stage : Cause → Stage
  | .context _ => .context
  | .expand _ => .expand
  | .write _ => .write

/-- The wording of a cause. -/
def Cause.message : Cause → String
  | .context error => error.message
  | .expand error => "template expansion error: " ++ error.message
  | .write fault => fault.message

/-- A definition whose header could not be generated. -/
structure Failure where
  fullName : String
  cause : Cause
deriving DecidableEq, Repr

/-- The wording of a failure. -/
def Failure.message (failure : Failure) : String :=
  "failed to generate '" ++ failure.fullName ++ "' (" ++ failure.cause.stage.word ++ "): " ++
    failure.cause.message

/-- Why a run fails as a whole. -/
inductive RunError where
  | document (error : DocumentError)
  | model (error : ModelError)
  | noTypes
  | template (error : Template.TemplateError)
  | file (fault : FileFault)
  | failed (failure : Failure)
deriving DecidableEq, Repr

/-- The wording of a run error. -/
def RunError.message : RunError → String
  | .document error => "type model parse error: " ++ error.message
  | .model error => "type model error: " ++ error.message
  | .noTypes => "no type definitions were found"
  | .template error => error.message
  | .file fault => "IO error: " ++ fault.message
  | .failed failure => failure.message

end DsdlHeaders
