import Stencil.Command.Check
import Stencil.Command.Evaluate
import Stencil.Command.Render

/-!
# The command line

The first argument names a command, and the others are the command's. Without a command the usage
is printed. Whatever the command would come to, it ends at once where its calls nest too deep, or at the
first text that cannot be printed.
-/

namespace Stencil

namespace Command

/-- How the command line is used. -/
def usage : String :=
  "markfill — fill HTML templates from data\n" ++
    "\n" ++
    "Usage:\n" ++
    "  markfill render <template> [options]   Expand a template file and print the HTML\n" ++
    "  markfill check <template> [options]    " ++
    "Static checks on repeat/if/else/insert directives\n" ++
    "  markfill eval \"<condition>\" [--data F] " ++
    "Evaluate an <if> condition against a data file\n" ++
    "  markfill resolve <path> [--data F]     " ++
    "Resolve a path expression against a data file\n" ++
    "  markfill mcp-server                    Start MCP Server\n" ++
    "\n" ++
    "Options:\n" ++
    "  --data FILE        Data context (.yaml, .yml or .json); default from markfill.yaml\n" ++
    "  --id ID            Render/check the <template id=\"ID\"> instead of the whole file\n" ++
    "  --templates PATH   Extra file or directory of partials for <insert> (repeatable)\n" ++
    "  --tables           Rename <t>/<th>/<tb>/<trow>/<tcell> to real table tags\n"

/-- The command that prints the usage. -/
def help : Report := .success [usage]

/-- What the arguments of the command line lead to, if the stack is deep enough and every text can be
    printed. The server answers requests of its own input, and prints nothing itself. -/
def run (platform : Platform) (disk : Disk) : List String → Except LoadFault Report
  | [] => .ok help
  | command :: args =>
    match command with
    | "render" => render platform disk args
    | "check" => check platform disk args
    | "eval" => eval platform disk args
    | "resolve" => resolve platform disk args
    | "mcp-server" => .ok (.success [])
    | "help" | "--help" | "-h" => .ok help
    | _ => .ok ⟨1, [usage], Report.lines ["Unknown command: " ++ command]⟩

/-- What the command line ends in. -/
def execute (platform : Platform) (disk : Disk) (args : List String) : Except LoadFault Report :=
  if platform.exhausts disk args then .error .stack
  else do (← run platform disk args).print platform.halves

end Command

end Stencil
