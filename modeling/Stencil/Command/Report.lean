import Stencil.Loading.Basic

/-!
# Reports of commands

A command ends with an exit code, with the texts that it prints and with lines of errors. Warnings and
faults are lines of errors. A fault that is no matter of the command's files is not reported: the command
then ends in the fault itself. So it does if one of its texts cannot be printed.
-/

namespace Stencil

/-- What a command leaves behind. -/
structure Report where
  exitCode : Nat
  printed : List String
  errors : String
  deriving DecidableEq, Repr

namespace Report

/-- Lines, each with its end. -/
def lines (texts : List String) : String :=
  String.join (texts.map (· ++ "\n"))

/-- The lines of output. -/
def output (r : Report) : String := lines r.printed

/-- The report, if each of its texts can be printed. -/
def print (halves : Halves) (r : Report) : Except LoadFault Report :=
  match r.printed.findSome? fun text => halves.fault? text.toList with
  | none => .ok r
  | some fault => .error (.print fault)

/-- A command that prints texts and succeeds. -/
def success (texts : List String) : Report := ⟨0, texts, ""⟩

/-- A command that refuses to work. -/
def refusal (text : String) : Report := ⟨1, [], lines [text]⟩

/-- The mark of what went wrong. -/
def crossMark : String := "✗"

/-- The mark of what is in order. -/
def checkMark : String := "✓"

/-- The wording of a fault if it is reported. The errors of templates are worded as a command says,
    if it reports them. -/
def faultText? (templateText : TemplateError → Option String) : LoadFault → Option String
  | .evaluation (.template e) => (templateText e).map fun text => crossMark ++ " " ++ text
  | fault => if fault.isReported then some (crossMark ++ " " ++ fault.message) else none

/-- The report of a loading whose result ends in a report of its own, which the warnings come
    before. -/
def ofLoading {α : Type} (templateText : TemplateError → Option String) (x : Loading α)
    (finish : α → Except LoadFault Report) : Except LoadFault Report :=
  let warnings := lines (x.trace.map LoadWarning.text)
  match x.outcome with
  | .ok a => (finish a).map fun r => { r with errors := warnings ++ r.errors }
  | .error fault =>
    match faultText? templateText fault with
    | some text => .ok ⟨1, [], warnings ++ lines [text]⟩
    | none => .error fault

end Report

end Stencil
