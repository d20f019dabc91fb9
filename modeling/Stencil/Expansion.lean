import Stencil.Condition
import Stencil.Directive
import Stencil.Interpolation
import Stencil.Markup.Node.Write
import Stencil.Registry

/-!
# Expansion of templates

A template is expanded in four passes over its nodes, each over the whole tree before the next one
starts:

1. a repetition is replaced by its body, expanded once for every element of its source;
2. of a conditional and the alternative that follows it one is replaced by its expanded body, the
   other is removed; an alternative that follows no conditional is removed;
3. an insertion is replaced by the expanded template of its name;
4. the markup of the tree is freed of comments, its placeholders are replaced, and it is read
   again.

Bodies are expanded by the same four passes, one level deeper. What replaces a directive is not
visited again by the pass that put it there, but it is by the later ones. As data can bring in new
directives and placeholders, an expansion need not end; its depth and the number of replacements in
a text are bounded.
-/

namespace Stencil

/-- The bounds of an expansion. -/
structure Limits where
  /-- How deep expansions may nest. -/
  depth : Nat
  /-- How many placeholders may be replaced in one text. -/
  replacements : Nat

/-- The bounds that are used. -/
def Limits.standard : Limits := ⟨1000, 1000000⟩

/-- What an expansion works with. -/
structure Surroundings where
  host : Host
  /-- The templates that can be inserted. -/
  registry : Option Registry
  limits : Limits

/-- What is filled in: markup, a tree, or a value that is neither. -/
inductive Template where
  | markup (text : String)
  | tree (node : Node)
  | other (typeName : String)

namespace Expansion

/-- An error of a directive as an evaluation. -/
def ofTemplate {α : Type} : Except TemplateError α → Evaluation α
  | .ok a => pure a
  | .error e => Evaluation.throw e

/-- The nodes that a body expands to. -/
abbrev Expand := Context → List Node → Evaluation (List Node)

/-! ### Repetitions -/

/-- The body of a repetition, expanded once for every element. -/
def expandItems (expand : Expand) (context : Context) (binding : String) (body : List Node) :
    List Value → Evaluation (List Node)
  | [] => pure []
  | item :: items => do
    let nodes ← expand (Context.bind context binding item) body
    return nodes ++ (← expandItems expand context binding body items)

/-- Whether a name has a value other than null. -/
def isTaken (context : Context) (name : String) : Bool :=
  match Context.get? context name with
  | none => false
  | some .null => false
  | some _ => true

/-- What replaces a repetition. -/
def expandRepeat (host : Host) (expand : Expand) (context : Context) (binding source : String)
    (body : List Node) : Evaluation (List Node) := do
  let v ← Path.resolve host source.toList (.map context)
  match v.items? with
  | none => Evaluation.throw (.notIterable source v.typeName)
  | some items =>
    if isTaken context binding then Evaluation.throw (.duplicateVariable binding)
    else expandItems expand context binding body items

mutual

/-- What a node becomes when the repetitions at and below it are replaced. -/
def expandRepeatsAt (host : Host) (expand : Expand) (context : Context) :
    Node → Evaluation (List Node)
  | .element tag attrs children void =>
    if tag = Directive.repeatTag then do
      let value ← ofTemplate (Directive.require tag attrs "for")
      let (binding, source) ← ofTemplate (Directive.parseRepeat value.toList)
      expandRepeat host expand context binding source children
    else do
      return [.element tag attrs (← expandRepeats host expand context children) void]
  | .fragment children => do
    return [.fragment (← expandRepeats host expand context children)]
  | .text data raw => pure [.text data raw]
  | .comment data => pure [.comment data]
termination_by structural n => n

/-- The nodes with their repetitions replaced. -/
def expandRepeats (host : Host) (expand : Expand) (context : Context) :
    List Node → Evaluation (List Node)
  | [] => pure []
  | n :: ns => do
    let nodes ← expandRepeatsAt host expand context n
    return nodes ++ (← expandRepeats host expand context ns)
termination_by structural ns => ns

end

/-! ### Conditionals -/

/-- What the nodes before have left for the next alternative. -/
inductive Pending where
  /-- It is removed: its conditional has been replaced by its body, or it has none. -/
  | nothing
  /-- It is expanded: its conditional has been removed. The blank texts after that are held back,
      as they are removed too if there is an alternative. -/
  | expanded (blanks : List Node)

/-- The nodes that are held back. -/
def Pending.blanks : Pending → List Node
  | expanded blanks => blanks
  | nothing => []

mutual

/-- The nodes with their conditionals and alternatives replaced. -/
def expandBranches (host : Host) (expand : Expand) (context : Context) :
    List Node → Pending → Evaluation (List Node)
  | [], pending => pure pending.blanks
  | .text data raw :: ns, pending =>
    if (Node.text data raw).isBlank then
      match pending with
      | .nothing => do
        return .text data raw :: (← expandBranches host expand context ns .nothing)
      | .expanded blanks =>
        expandBranches host expand context ns (.expanded (blanks ++ [.text data raw]))
    else do
      return pending.blanks ++ .text data raw ::
        (← expandBranches host expand context ns .nothing)
  | .comment data :: ns, pending => do
    return pending.blanks ++ .comment data :: (← expandBranches host expand context ns .nothing)
  | .fragment children :: ns, pending => do
    let node ← expandBranchesBelow host expand context (.fragment children)
    return pending.blanks ++ node :: (← expandBranches host expand context ns .nothing)
  | .element tag attrs children void :: ns, pending =>
    if tag = Directive.ifTag then do
      let condition ← ofTemplate (Directive.require tag attrs "cond")
      -- an alternative that follows a body is removed like one without a conditional
      if ← Condition.evaluate host condition.toList (.map context) then
        let nodes ← expand context children
        return pending.blanks ++ nodes ++ (← expandBranches host expand context ns .nothing)
      else
        return pending.blanks ++ (← expandBranches host expand context ns (.expanded []))
    else if tag = Directive.elseTag then
      match pending with
      -- the blanks that were held back go with the conditional
      | .expanded _ => do
        let nodes ← expand context children
        return nodes ++ (← expandBranches host expand context ns .nothing)
      | .nothing => expandBranches host expand context ns .nothing
    else do
      let node ← expandBranchesBelow host expand context (.element tag attrs children void)
      return pending.blanks ++ node :: (← expandBranches host expand context ns .nothing)
termination_by structural ns => ns

/-- The node with the conditionals and alternatives below it replaced. -/
def expandBranchesBelow (host : Host) (expand : Expand) (context : Context) :
    Node → Evaluation Node
  | .element tag attrs children void => do
    return .element tag attrs (← expandBranches host expand context children .nothing) void
  | .fragment children => do
    return .fragment (← expandBranches host expand context children .nothing)
  | .text data raw => pure (.text data raw)
  | .comment data => pure (.comment data)
termination_by structural n => n

end

/-! ### Insertions -/

/-- What replaces an insertion, given the templates that are being inserted, outermost first. -/
def expandInsert (registry : Option Registry) (expand : List String → List Node →
    Evaluation (List Node)) (inserting : List String) (id : String) : Evaluation (List Node) :=
  if id ∈ inserting then Evaluation.throw (.circularInsert (inserting ++ [id]))
  else
    match registry.bind (·.get? id) with
    | none => Evaluation.throw (.templateNotFound id)
    | some template => expand (inserting ++ [id]) template.content

mutual

/-- What a node becomes when the insertions at and below it are replaced. -/
def expandInsertsAt (insert : String → Evaluation (List Node)) : Node → Evaluation (List Node)
  | .element tag attrs children void =>
    if tag = Directive.insertTag then do
      insert (← ofTemplate (Directive.require tag attrs "template"))
    else do
      return [.element tag attrs (← expandInserts insert children) void]
  | .fragment children => do return [.fragment (← expandInserts insert children)]
  | .text data raw => pure [.text data raw]
  | .comment data => pure [.comment data]
termination_by structural n => n

/-- The nodes with their insertions replaced. -/
def expandInserts (insert : String → Evaluation (List Node)) : List Node → Evaluation (List Node)
  | [] => pure []
  | n :: ns => do
    let nodes ← expandInsertsAt insert n
    return nodes ++ (← expandInserts insert ns)
termination_by structural ns => ns

end

/-! ### The four passes -/

/-- The nodes that nodes expand to, at most `depth` levels deep. -/
def expandNodes (s : Surroundings) : (depth : Nat) → (inserting : List String) → Context →
    List Node → Evaluation (List Node)
  | 0, _, _, _ => Evaluation.fail .unfinished
  | depth + 1, inserting, context, nodes => do
    let expand := expandNodes s depth inserting
    let nodes ← expandRepeats s.host expand context nodes
    let nodes ← expandBranches s.host expand context nodes .nothing
    let nodes ← expandInserts
      (expandInsert s.registry (fun inserting => expandNodes s depth inserting context) inserting)
      nodes
    let text := stripComments (Node.writeAll nodes)
    let text ← interpolate s.host (.map context) s.limits.replacements text
    Evaluation.ofMarkup (Node.parse (String.ofList text))

/-- The tree of a template. -/
def treeOf : Template → Evaluation Node
  | .markup text => do return .fragment (← Evaluation.ofMarkup (Node.parse text))
  | .tree node => pure node
  | .other typeName => Evaluation.throw (.templateNotMarkup typeName)

/-- The nodes that a template expands to in a context. -/
def expand (s : Surroundings) (template : Template) (data : Value) : Evaluation (List Node) := do
  let node ← treeOf template
  match data with
  | .map context => expandNodes s s.limits.depth [] context node.content
  | v => Evaluation.throw (.contextNotMapping v.typeName)

end Expansion

end Stencil
