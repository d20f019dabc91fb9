import Stencil.Literal
import Stencil.Text.Search

/-!
# Paths

A path leads from the context to a value. It is cut at its dots: every piece but the last names a
mapping in which the path goes on. The last piece is one of four forms, told apart by the first
punctuation that it holds:

1. `name[token]`: a token in quotes is a key of a mapping, any other an index into a text or a
   sequence;
2. `name(args)`: a function is called with arguments, each a literal or a reference `{{ key }}`;
3. `name`: the value of the name.

An *operand* is a reference `{{ path }}` or a literal.

* `resolveMembers_cons`: one step along a path.
-/

namespace Stencil

namespace Path

/-- The value of a name. -/
def lookup (name : List Char) (context : Context) : Evaluation Value :=
  match Context.get? context (String.ofList name) with
  | some v => pure v
  | none => Evaluation.throw (.undefined (String.ofList name))

/-- The element of a text or a sequence, and its length; absent if the value is neither. Bytes are a
    sequence of numbers. -/
def element? (index : Int) : Value → Option (Option Value × Nat)
  | .str s =>
    let chars := s.toList
    some ((get? chars).map fun c => .str (String.singleton c), chars.length)
  | .list items => some (get? items, items.length)
  | .tuple items => some (get? items, items.length)
  | .bytes data => some ((get? data).map fun b => .int b.toNat, data.length)
  | _ => none
where
  /-- The element at the index, which is not negative. -/
  get? {α : Type} (items : List α) : Option α :=
    if index < 0 then none else items[index.toNat]?

/-- The value of `name[token]`, given the parts before and after the opening bracket. -/
def resolveSubscript (path before after : List Char) (context : Context) : Evaluation Value :=
  match Text.cutAt ']' after with
  | none => Evaluation.throw (.unclosedBracket (String.ofList path))
  | some (inside, _) => do
    let name := Text.trim before
    let token := Text.trim inside
    let shown := String.ofList name
    let base ← lookup name context
    match Literal.unquote? token with
    | some key =>
      match base with
      | .map entries =>
        match Context.get? entries (String.ofList key) with
        | some v => return v
        | none => Evaluation.throw (.undefinedProperty (String.ofList key) shown)
      | _ => Evaluation.throw (.propertyOfNonMapping (String.ofList key) shown)
    | none =>
      match Numeral.readInt? token with
      | none => Evaluation.throw (.badSubscript (String.ofList path))
      | some index =>
        match element? index base with
        | none => Evaluation.throw (.indexOfNonSequence index shown)
        | some (none, length) => Evaluation.throw (.indexOutOfRange index shown length)
        | some (some v, _) => return v

/-- What stands in the braces of a reference `{{ path }}`. -/
def reference? (s : List Char) : Option (List Char) :=
  match s with
  | '{' :: '{' :: rest =>
    match rest.reverse with
    | '}' :: '}' :: inside => some inside.reverse
    | _ => none
  | _ => none

/-- The value of an argument. The text of a call holds neither a dot nor a bracket and its
    arguments no closing parenthesis, so a reference can only be a key, or a call that is never
    closed. -/
def resolveArgument (context : Context) (argument : List Char) : Evaluation Value :=
  let token := Text.trim argument
  match reference? token with
  | none => Literal.read token
  | some inside =>
    let path := Text.trim inside
    if '(' ∈ path then Evaluation.throw (.unclosedParenthesis (String.ofList path))
    else lookup path context

/-- The values of the arguments of a call, from left to right. -/
def resolveArguments (context : Context) : List (List Char) → Evaluation (List Value)
  | [] => pure []
  | argument :: rest => do
    let v ← resolveArgument context argument
    let vs ← resolveArguments context rest
    return v :: vs

/-- The value of `name(args)`, given the parts before and after the opening parenthesis. -/
def resolveCall (host : Host) (path before after : List Char) (context : Context) :
    Evaluation Value :=
  match Text.cutAt ')' after with
  | none => Evaluation.throw (.unclosedParenthesis (String.ofList path))
  | some (inside, _) =>
    let name := Text.trim before
    let shown := String.ofList name
    match Context.get? context shown with
    | none => Evaluation.throw (.undefinedFunction shown)
    | some (.fn function) => do
      let args ← if Text.isBlank inside then pure [] else
        resolveArguments context (Text.fields ',' inside)
      Evaluation.call host function args
    | some _ => Evaluation.throw (.notFunction shown)

/-- The value of the last piece of a path, without blanks around it. -/
def resolveLast (host : Host) (path : List Char) (context : Context) : Evaluation Value :=
  match Text.cutAt '[' path with
  | some (before, after) => resolveSubscript path before after context
  | none =>
    match Text.cutAt '(' path with
    | some (before, after) => resolveCall host path before after context
    | none => lookup path context

/-- The value of a path, given its pieces. -/
def resolveMembers (host : Host) : (pieces : List (List Char)) → Context → Evaluation Value
  | [], context => lookup [] context
  | [piece], context => resolveLast host (Text.trim piece) context
  | piece :: next :: rest, context => do
    let name := Text.trimStart piece
    match ← lookup name context with
    | .map entries => resolveMembers host (next :: rest) entries
    | _ =>
      Evaluation.throw
        (.memberOfNonMapping (String.ofList name) (String.ofList (Text.join ['.'] (next :: rest))))

/-- The value of a path in a context, which must be a mapping. -/
def resolve (host : Host) (path : List Char) : (data : Value) → Evaluation Value
  | .map context => resolveMembers host (Text.fields '.' (Text.trim path)) context
  | v => Evaluation.throw (.contextNotMapping v.typeName)

/-- The value of a path that must be a text first. -/
def resolveValue (host : Host) (path data : Value) : Evaluation Value :=
  match path with
  | .str s => resolve host s.toList data
  | v => Evaluation.throw (.pathNotText v.typeName)

/-- The value of an operand. -/
def resolveOperand (host : Host) (operand : List Char) (data : Value) : Evaluation Value :=
  let token := Text.trim operand
  match reference? token with
  | some inside => resolve host inside data
  | none => Literal.read token

theorem resolveMembers_cons (host : Host) (piece next : List Char) (rest : List (List Char))
    (context : Context) :
    resolveMembers host (piece :: next :: rest) context =
      (lookup (Text.trimStart piece) context >>= fun v =>
        match v with
        | .map entries => resolveMembers host (next :: rest) entries
        | _ => Evaluation.throw (.memberOfNonMapping (String.ofList (Text.trimStart piece))
            (String.ofList (Text.join ['.'] (next :: rest))))) := by
  rw [resolveMembers]

end Path

end Stencil
