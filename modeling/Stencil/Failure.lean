import Stencil.Error
import Stencil.Markup.Event.Basic

/-!
# Failures of an evaluation

An evaluation of a path, a condition or a template ends early for one of five reasons. Only the
first is a mistake of the template; the others come from what it works on: a number that cannot be
converted, markup that cannot be read, a function that fails, and a limit of the expansion that is
reached.
-/

namespace Stencil

/-- Why an evaluation ended early. -/
inductive Failure where
  | template (error : TemplateError)
  | number (fault : NumberFault)
  | markup (fault : Markup.Fault)
  /-- A function of the host failed. -/
  | callee (message : String)
  /-- A limit of the expansion was reached. -/
  | unfinished
  deriving DecidableEq, Repr

namespace Failure

/-- What is reported. -/
def message : Failure → String
  | template error => error.message
  | number fault => fault.message
  | markup fault => fault.message
  | callee message => message
  | unfinished => "the expansion does not come to an end"

end Failure

end Stencil
