import Stencil.Evaluation
import Stencil.Number.Numeral
import Stencil.Text.Quoted
import Stencil.Text.Space

/-!
# Literals

A literal stands for a value by itself: `true` and `false`, a text in quotes of either kind, or a
numeral. Blanks around it do not count. Inside the quotes nothing is escaped, and they may be of
the kind that also occurs in the text.

* `unquote?_quoted`: a text between two equal quotes is read back.
-/

namespace Stencil.Literal

/-- Whether a character is a quote. -/
def isQuote (c : Char) : Bool :=
  c == '\x27' || c == '"'

/-- The text between two equal quotes that make up the ends of a text. -/
def unquote? : List Char → Option (List Char)
  | [] => none
  | q :: s => if isQuote q && s.getLast? == some q then some s.dropLast else none

/-- The value of a literal. -/
def read (s : List Char) : Evaluation Value :=
  let token := Text.trim s
  if token = ['t', 'r', 'u', 'e'] then pure (.bool true)
  else if token = ['f', 'a', 'l', 's', 'e'] then pure (.bool false)
  else
    match unquote? token with
    | some text => pure (.str (String.ofList text))
    | none =>
      match Numeral.read? token with
      | some (.integer negative digits) => do
        return .int (← Evaluation.ofNumber (Numeral.toInt negative digits))
      | some numeral => pure (.float numeral.toBinary64)
      | none => Evaluation.throw (.badLiteral (String.ofList (Text.quote token)))

/-- The value of a literal that must be a text first. -/
def readValue : Value → Evaluation Value
  | .str s => read s.toList
  | v => Evaluation.throw (.literalNotText v.typeName)

theorem unquote?_quoted {q : Char} (h : isQuote q = true) (s : List Char) :
    unquote? (q :: (s ++ [q])) = some s := by
  simp [unquote?, h]

end Stencil.Literal
