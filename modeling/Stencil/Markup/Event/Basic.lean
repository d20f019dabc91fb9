import Stencil.Number.Numeral

/-!
# Events of markup

Markup is read as a sequence of events, from which the tree is built. A fault ends the reading: a
marked section without a name or with an unknown one, or a reference whose number is too long.
-/

namespace Stencil.Markup

/-- What can stand in markup. The texts are those between the delimiters. -/
inductive Event where
  | startTag (tag : String) (attrs : List (String × String))
  /-- A tag that ends with a slash. -/
  | selfClosing (tag : String) (attrs : List (String × String))
  | endTag (tag : String)
  | text (data : String)
  | comment (data : String)
  /-- `<!data>` -/
  | declaration (data : String)
  /-- `<?data>` -/
  | instruction (data : String)
  /-- `<![data]>` -/
  | marked (data : String)
  deriving DecidableEq, Repr

/-- Why markup cannot be read. The texts are given in their quoted form. -/
inductive Fault where
  /-- A marked section does not start with a name. -/
  | expectedName (quoted : String)
  /-- A marked section starts with an unknown name. -/
  | unknownSection (quoted : String)
  /-- The number of a reference has too many digits. -/
  | reference (fault : NumberFault)
  deriving DecidableEq, Repr

/-- What is reported. -/
def Fault.message : Fault → String
  | expectedName quoted => s!"expected name token at {quoted}"
  | unknownSection quoted => s!"unknown status keyword {quoted} in marked section"
  | reference fault => fault.message

end Stencil.Markup
