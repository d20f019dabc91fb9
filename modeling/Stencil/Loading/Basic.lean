import Stencil.Config
import Stencil.Evaluation
import Stencil.Files.Glob
import Stencil.Json.Read
import Stencil.Platform

/-!
# Loading

Templates, data and configurations are loaded from files. A file of templates that cannot be read
is passed over with a warning where a whole directory is loaded; every other fault ends the loading.
-/

namespace Stencil

/-- Why loading, or working with what was loaded, ended early. -/
inductive LoadFault where
  | read (fault : ReadFault)
  | json (fault : Json.Fault)
  | yaml (fault : Yaml.Fault)
  | config (fault : ConfigFault)
  | pattern (fault : PatternFault)
  /-- A file of data holds no mapping. -/
  | dataNotMapping (path : FilePath)
  /-- There are no templates at a path. -/
  | sourceNotFound (path : FilePath)
  | evaluation (failure : Failure)
  /-- What was made of it cannot be printed. -/
  | print (fault : PrintFault)
  /-- Calls nest too deep. -/
  | stack
  deriving DecidableEq, Repr

namespace LoadFault

/-- What is reported. -/
def message : LoadFault → String
  | read fault => fault.message
  | json fault => fault.message
  | yaml fault => fault.message
  | config fault => fault.message
  | pattern fault => fault.message
  | dataNotMapping path =>
    "Invalid data file " ++ path.text ++ ": expected a mapping at the top level"
  | sourceNotFound path => "Template source not found: " ++ path.text
  | evaluation failure => failure.message
  | print fault => fault.message
  | stack => "maximum recursion depth exceeded"

/-- Whether a number is at fault that is written as no number can be. A number that is too large
    to be calculated with is another matter. -/
def isWritingFault : NumberFault → Bool
  | .tooLarge => false
  | _ => true

/-- Whether a fault is one of files or of single values, which a command reports. Documents that are
    malformed as a whole, markup that cannot be read and errors of templates are not, nor is what goes
    wrong while a command prints. -/
def isReported : LoadFault → Bool
  | read _ => true
  | json (.number fault) => isWritingFault fault
  | json (.malformed ..) => true
  | yaml (.number fault) => isWritingFault fault
  | yaml (.calendar _) => true
  | yaml (.noCharacter n) => n < Yaml.escapeLimit
  | yaml _ => false
  | config (.number fault) => isWritingFault fault
  | config _ => true
  | pattern fault => fault == .empty
  | dataNotMapping _ => true
  | sourceNotFound _ => true
  | evaluation (.number fault) => isWritingFault fault
  | evaluation (.markup (.reference fault)) => isWritingFault fault
  | evaluation (.callee _) => true
  | evaluation _ => false
  | print _ => false
  | stack => false

end LoadFault

/-- A file of templates that was passed over. -/
structure LoadWarning where
  path : FilePath
  fault : ReadFault
  deriving DecidableEq, Repr

/-- A warning in one line. -/
def LoadWarning.text (w : LoadWarning) : String :=
  "Warning: failed to load template " ++ w.path.text ++ ": " ++ w.fault.message

/-- A loading: its trace are the warnings. -/
abbrev Loading := Traced LoadFault LoadWarning

namespace Loading

variable {α : Type}

/-- The result of a step without warnings. -/
def ofExcept (x : Except LoadFault α) : Loading α :=
  Traced.ofExcept x

/-- An evaluation of what was loaded. There are no functions in files, so that it makes no calls. -/
def ofEvaluation (x : Evaluation α) : Loading α :=
  ofExcept (x.outcome.mapError LoadFault.evaluation)

/-- A warning. -/
def warn (path : FilePath) (fault : ReadFault) : Loading Unit :=
  Traced.tell ⟨path, fault⟩

end Loading

end Stencil
