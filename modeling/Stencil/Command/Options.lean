import Stencil.Text.Search

/-!
# Options of commands

The arguments of a command are options, which start with two dashes, and all others, which are
positional. An option with a value takes it from behind an equals sign, or from the next argument if
nothing stands there.

* `parse_positional`: an argument without dashes is kept in its place.
-/

namespace Stencil

/-- An option. -/
inductive OptionName where
  | data
  | id
  | templates
  | tables
  deriving DecidableEq, Repr

namespace OptionName

/-- The options in the order of their names. -/
def all : List OptionName := [data, id, tables, templates]

/-- How an option is written. -/
def text : OptionName → String
  | data => "--data"
  | id => "--id"
  | templates => "--templates"
  | tables => "--tables"

/-- The option that a text writes. -/
def ofText? (s : String) : Option OptionName :=
  all.find? fun name => name.text == s

/-- Whether an option takes a value. -/
def takesValue : OptionName → Bool
  | tables => false
  | _ => true

end OptionName

/-- What is wrong with arguments. -/
inductive OptionFault where
  | unknown (name : String)
  | noValue (name : OptionName)
  deriving DecidableEq, Repr

/-- What is reported. -/
def OptionFault.message : OptionFault → String
  | unknown name => "Unknown option: " ++ name
  | noValue name => "Option " ++ name.text ++ " requires a value"

/-- The arguments of a command. -/
structure Options where
  positional : List String
  /-- The options that were given, with their values. -/
  given : List (OptionName × String)
  deriving DecidableEq, Repr

namespace Options

/-- No arguments. -/
def empty : Options := ⟨[], []⟩

/-- With a positional argument before the others. -/
def consPositional (arg : String) (o : Options) : Options :=
  { o with positional := arg :: o.positional }

/-- With an option before the others. -/
def consGiven (name : OptionName) (value : String) (o : Options) : Options :=
  { o with given := (name, value) :: o.given }

/-- The values that an option was given, in order. -/
def values (o : Options) (name : OptionName) : List String :=
  o.given.filterMap fun (other, value) => if other = name then some value else none

/-- The last value that an option was given. -/
def last? (o : Options) (name : OptionName) : Option String :=
  (o.values name).getLast?

/-- Whether an option was given. -/
def has (o : Options) (name : OptionName) : Bool :=
  o.given.any fun (other, _) => other = name

/-- What an argument is. -/
inductive Argument where
  | positional
  /-- An option, with what stands behind an equals sign. -/
  | option (name : String) (inline : String)

/-- What an argument is, by the dashes it starts with. -/
def classify (arg : String) : Argument :=
  match Text.dropLead? ['-', '-'] arg.toList with
  | none => .positional
  | some _ =>
    match Text.cutAt '=' arg.toList with
    | none => .option arg ""
    | some (name, inline) => .option (String.ofList name) (String.ofList inline)

/-- The arguments of a command. -/
def parse : List String → Except OptionFault Options
  | [] => .ok empty
  | arg :: rest =>
    match classify arg with
    | .positional => (parse rest).map (consPositional arg)
    | .option name inline =>
      match OptionName.ofText? name with
      | none => .error (.unknown name)
      | some option =>
        if !option.takesValue then (parse rest).map (consGiven option "")
        else if inline ≠ "" then (parse rest).map (consGiven option inline)
        else
          match rest with
          | [] => .error (.noValue option)
          | value :: rest => (parse rest).map (consGiven option value)

theorem parse_positional {arg : String} (rest : List String) (h : classify arg = .positional) :
    parse (arg :: rest) = (parse rest).map (consPositional arg) := by
  rw [parse, h]

end Options

end Stencil
