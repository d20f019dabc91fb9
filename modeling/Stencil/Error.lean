/-!
# Errors of templates

What can be wrong with a template or with the data for it. Every error is a cause with the pieces
of the template that it is about; `kind` is the class it is reported under and `message` its
wording.
-/

namespace Stencil

/-- A mistake of whoever wrote the template or the data. -/
inductive TemplateError where
  /-- A path is no text. -/
  | pathNotText (typeName : String)
  /-- The context is no mapping. -/
  | contextNotMapping (typeName : String)
  /-- A condition is no text. -/
  | conditionNotText (typeName : String)
  /-- A template is neither markup nor a tree. -/
  | templateNotMarkup (typeName : String)
  /-- A directive lacks an attribute. -/
  | missingAttribute (tag attr : String)
  /-- An opening bracket is never closed. -/
  | unclosedBracket (path : String)
  /-- An opening parenthesis is never closed. -/
  | unclosedParenthesis (path : String)
  /-- What stands in brackets is neither an integer nor quoted. -/
  | badSubscript (path : String)
  /-- A condition holds a character that conditions may not hold. -/
  | forbiddenCharacter (condition : String) (character : Char)
  /-- The attribute of a repetition has the wrong form. -/
  | badRepeat (attr : String)
  /-- A template is inserted while it is being inserted. -/
  | circularInsert (chain : List String)
  /-- A name has no value. -/
  | undefined (name : String)
  /-- A mapping has no such key. -/
  | undefinedProperty (key name : String)
  /-- A function has no value. -/
  | undefinedFunction (name : String)
  /-- What a path goes on from is no mapping. -/
  | memberOfNonMapping (name rest : String)
  /-- What a key is looked up in is no mapping. -/
  | propertyOfNonMapping (key name : String)
  /-- What an index is looked up in is neither a text nor a sequence. -/
  | indexOfNonSequence (index : Int) (name : String)
  /-- What a repetition runs over is neither a sequence nor a set. -/
  | notIterable (source typeName : String)
  /-- The variable of a repetition has a value already. -/
  | duplicateVariable (name : String)
  /-- What is called is no function. -/
  | notFunction (name : String)
  /-- An index is outside a text or a sequence. -/
  | indexOutOfRange (index : Int) (name : String) (length : Nat)
  /-- A literal is no text. -/
  | literalNotText (typeName : String)
  /-- A text is no literal; it is given in its quoted form. -/
  | badLiteral (quoted : String)
  /-- There is no template of this name. -/
  | templateNotFound (id : String)
  deriving DecidableEq, Repr

namespace TemplateError

/-- The class under which an error is reported. -/
def kind : TemplateError → String
  | pathNotText _ | contextNotMapping _ | conditionNotText _ | templateNotMarkup _ =>
    "InvalidInputType"
  | missingAttribute _ _ => "MissingAttribute"
  | unclosedBracket _ | unclosedParenthesis _ | badSubscript _ | forbiddenCharacter _ _ =>
    "MalformedAccessor"
  | badRepeat _ | circularInsert _ => "MalformedDirective"
  | undefined _ | undefinedProperty _ _ | undefinedFunction _ => "UndefinedVariable"
  | memberOfNonMapping _ _ | propertyOfNonMapping _ _ | indexOfNonSequence _ _ | notIterable _ _ =>
    "TypeMismatch"
  | duplicateVariable _ => "DuplicateVariable"
  | notFunction _ => "NotAFunction"
  | indexOutOfRange _ _ _ => "IndexOutOfRange"
  | literalNotText _ | badLiteral _ => "InvalidPrimitiveLiteral"
  | templateNotFound _ => "TemplateNotFound"

/-- The wording of an error. -/
def message : TemplateError → String
  | pathNotText t => s!"Path expression must be a string, got {t}"
  | contextNotMapping t => s!"Context must be a mapping, got {t}"
  | conditionNotText t => s!"Condition must be a string, got {t}"
  | templateNotMarkup t => s!"Template must be a markup node or markup text, got {t}"
  | missingAttribute tag attr => s!"<{tag}> tag requires a \"{attr}\" attribute."
  | unclosedBracket path => s!"Missing closing square bracket for \"{path}\"."
  | unclosedParenthesis path => s!"Missing closing parenthesis for \"{path}\"."
  | badSubscript path =>
    s!"Value between square brackets in \"{path}\" must be an integer " ++
      "or a string wrapped in single or double quotes."
  | forbiddenCharacter condition c =>
    s!"Condition \"{condition}\" contains invalid \"{c}\" character."
  | badRepeat attr =>
    "<repeat> \"for\" attribute must have the form \"<variable> of <iterable>\", got " ++
      s!"\"{attr}\"."
  | circularInsert chain => "Circular <insert>: " ++ " -> ".intercalate chain
  | undefined name => s!"\"{name}\" is not defined."
  | undefinedProperty key name => s!"Property \"{key}\" does not exist on \"{name}\"."
  | undefinedFunction name => s!"Function \"{name}\" is not defined."
  | memberOfNonMapping name rest => s!"\"{name}\" is not a mapping, cannot access \"{rest}\"."
  | propertyOfNonMapping key name =>
    s!"Cannot access property \"{key}\" of \"{name}\": \"{name}\" is not a mapping."
  | indexOfNonSequence index name =>
    s!"\"{name}\" is neither a string nor a sequence, cannot get element at index {index}."
  | notIterable source t =>
    s!"Iterable \"{source}\" in the \"for\" attribute of <repeat> " ++
      s!"must be a sequence or set, got {t}."
  | duplicateVariable name =>
    s!"Data already has a non-empty property \"{name}\". " ++
      "Choose another variable name in the \"for\" attribute."
  | notFunction name =>
    s!"\"{name}\" is not a function. Unexpected parenthesis after variable name."
  | indexOutOfRange index name length =>
    s!"Index {index} is out of range for \"{name}\" (length {length})."
  | literalNotText t => s!"Literal must be a string, got {t}"
  | badLiteral quoted =>
    s!"Cannot determine the type of literal {quoted}. " ++
      "String values must be wrapped in single '' or double \"\" quotes."
  | templateNotFound id => s!"Template with id \"{id}\" does not exist."

end TemplateError

end Stencil
