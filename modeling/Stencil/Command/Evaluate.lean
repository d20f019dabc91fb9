import Stencil.Command.Render
import Stencil.Condition

/-!
# Evaluating a condition or a path

A condition or a path is evaluated with the data of a file, the one that is asked for or else the
one of the configuration, and the value is printed as a placeholder would be replaced by it.
-/

namespace Stencil

namespace Command

/-- How the command for conditions is used. -/
def evalUsage : String := "Usage: markfill eval \"<condition>\" [--data FILE]"

/-- How the command for paths is used. -/
def resolveUsage : String := "Usage: markfill resolve <path> [--data FILE]"

/-- The data that an evaluation starts from. -/
def contextOf (platform : Platform) (disk : Disk) (data : Option String) :
    Except LoadFault Context :=
  match chosen? data with
  | some path => disk.loadChosenData platform (some path)
  | none => do
    let config ← disk.loadConfig platform disk.currentPath
    disk.loadChosenData platform config.data

/-- A command that prints what an argument is evaluated to. -/
def printValue (usage : String) (evaluate : (arg : String) → (data : Value) → Evaluation Value)
    (platform : Platform) (disk : Disk) (args : List String) : Except LoadFault Report :=
  match Options.parse args with
  | .error fault => .ok (.refusal fault.message)
  | .ok o =>
    match o.positional with
    | [arg] =>
      let loading : Loading Value := do
        let context ← Loading.ofExcept (contextOf platform disk (o.last? .data))
        Loading.ofEvaluation (evaluate arg (.map context))
      Report.ofLoading (fun e => some (e.kind ++ ": " ++ e.message)) loading fun v => do
        let text ← v.render.mapError (LoadFault.evaluation ∘ Failure.number)
        return .success [text]
    | _ => .ok (.refusal usage)

/-- The command that evaluates a condition. -/
def eval (platform : Platform) (disk : Disk) (args : List String) : Except LoadFault Report :=
  printValue evalUsage (fun arg data => do
    return .bool (← Condition.evaluate .none arg.toList data)) platform disk args

/-- The command that resolves a path. -/
def resolve (platform : Platform) (disk : Disk) (args : List String) : Except LoadFault Report :=
  printValue resolveUsage (fun arg data => Path.resolve .none arg.toList data) platform disk args

end Command

end Stencil
