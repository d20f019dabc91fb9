import Stencil.Condition
import Stencil.Directive
import Stencil.Registry

/-!
# Issues of a template

What can be seen to be wrong with a template without expanding it: directives that lack an
attribute or have a malformed one, conditions with forbidden characters and insertions of unknown
templates are errors; a variable that is bound again inside its own repetition, and an alternative
that follows no conditional and so is never rendered, are warnings.

* `hasErrors_append`: whether there is an error among issues.
-/

namespace Stencil

/-- How bad an issue is. -/
inductive Level where
  | error
  | warning
  deriving DecidableEq, Repr

/-- An issue of a directive. -/
structure Issue where
  level : Level
  tag : String
  message : String
  deriving DecidableEq, Repr

/-- The name of a level. -/
def Level.name : Level → String
  | error => "error"
  | warning => "warning"

/-- The name of a level at the start of a line. -/
def Level.label : Level → String
  | error => "ERROR"
  | warning => "WARNING"

namespace Issue

/-- An issue in one line. -/
def text (i : Issue) : String :=
  i.level.label ++ ": <" ++ i.tag ++ "> " ++ i.message

/-! ### Repetitions -/

mutual

/-- The issues of the repetitions at and below a node, given the variables bound around it. -/
def ofRepeatsAt (bound : List String) : Node → List Issue
  | .element tag attrs children _ =>
    if tag = Directive.repeatTag then
      match Directive.require tag attrs "for" with
      | .error _ =>
        ⟨.error, tag, "Missing \"for\" attribute"⟩ :: ofRepeats bound children
      | .ok value =>
        match Directive.parseRepeat value.toList with
        | .error e => ⟨.error, tag, e.message⟩ :: ofRepeats bound children
        | .ok (binding, _) =>
          (if binding ∈ bound then
            [⟨.warning, tag, s!"Binding \"{binding}\" is already bound by an outer repeat"⟩]
          else []) ++ ofRepeats (bound ++ [binding]) children
    else ofRepeats bound children
  | .fragment children => ofRepeats bound children
  | .text _ _ => []
  | .comment _ => []
termination_by structural n => n

/-- The issues of the repetitions at and below nodes. -/
def ofRepeats (bound : List String) : List Node → List Issue
  | [] => []
  | n :: ns => ofRepeatsAt bound n ++ ofRepeats bound ns
termination_by structural ns => ns

end

/-! ### Conditionals -/

/-- The issues of an element as a conditional. -/
def ofCondition (node : Node) : List Issue :=
  if node.hasTag Directive.ifTag then
    match node.attrNonempty? "cond" with
    | none => [⟨.error, Directive.ifTag, "Missing \"cond\" attribute"⟩]
    | some condition =>
      match Condition.forbiddenIn condition.toList with
      | [] => []
      | cs =>
        let shown := " ".intercalate (cs.map String.singleton)
        [⟨.error, Directive.ifTag,
          s!"Condition \"{condition}\" contains invalid character(s): {shown}"⟩]
  else []

/-- The issues of the alternatives among siblings, given the last node before them that is not a
    blank text. -/
def ofAlternatives : (previous : Option Node) → List Node → List Issue
  | _, [] => []
  | previous, n :: ns =>
    if n.isBlank then ofAlternatives previous ns
    else
      (if n.hasTag Directive.elseTag && !previous.any (Node.hasTag Directive.ifTag) then
        [⟨.warning, Directive.elseTag, "Not preceded by an <if>; it will never render"⟩]
      else []) ++ ofAlternatives (some n) ns

/-! ### Insertions -/

/-- The issues of an element as an insertion. Unknown templates are only found if there is a
    registry. -/
def ofInsertion (registry : Option Registry) (node : Node) : List Issue :=
  if node.hasTag Directive.insertTag then
    match node.attrNonempty? "template" with
    | none => [⟨.error, Directive.insertTag, "Missing \"template\" attribute"⟩]
    | some id =>
      if registry.any fun r => !r.contains id then
        [⟨.error, Directive.insertTag, s!"Template not found: \"{id}\""⟩]
      else []
  else []

/-- The issues of nodes: those of repetitions, of conditions, of alternatives and of insertions. -/
def ofNodes (registry : Option Registry) (nodes : List Node) : List Issue :=
  let elements := Node.elementsOf nodes
  ofRepeats [] nodes ++ elements.flatMap ofCondition ++
    (nodes :: elements.map Node.children).flatMap (ofAlternatives none) ++
    elements.flatMap (ofInsertion registry)

/-- The issues of a template. -/
def ofTemplate (registry : Option Registry) (template : Node) : List Issue :=
  ofNodes registry template.content

/-- Whether there is an error among issues. -/
def hasErrors (issues : List Issue) : Bool :=
  issues.any (·.level == .error)

/-- The lines of the issues of one level, under a heading with their number. -/
def linesOf (level : Level) (heading mark : String) (issues : List Issue) : List String :=
  match issues.filter (·.level == level) with
  | [] => []
  | found =>
    s!"  {found.length} {heading}:" :: found.map fun i => s!"    {mark} {i.text}"

/-- The report on issues: the errors and then the warnings. -/
def report (issues : List Issue) : String :=
  "\n".intercalate
    (linesOf .error "error(s)" "✗" issues ++ linesOf .warning "warning(s)" "⚠" issues)

theorem hasErrors_append (a b : List Issue) : hasErrors (a ++ b) = (hasErrors a || hasErrors b) := by
  simp [hasErrors]

end Issue

end Stencil
