import Stencil.Path
import Stencil.Value.Text

/-!
# Interpolation

The last passes over the markup of a template work on its text. Comments are cut out of it, from
the first `<!--` to the first `-->` from there on, until no such pair is left. Then placeholders
`{{ path }}` are replaced by the rendered values of their paths, always the first one, until none
is left. What comes in for a placeholder is searched again, so this need not end: the number of
replacements is bounded.

* `stripComments_of_cutComment`, `stripComments_of_no_opener`: a text without a comment is left as
  it is, and so is one without an opening of comments;
* `interpolate_of_no_placeholder`: a text without a placeholder is left as it is.
-/

namespace Stencil

/-- The mark at the start of a comment. -/
def commentOpener : List Char := ['<', '!', '-', '-']

/-- The mark at the end of a comment. -/
def commentCloser : List Char := ['-', '-', '>']

/-- The text without its first comment; absent if it has none. -/
def cutComment? (s : List Char) : Option (List Char) :=
  (Text.cut commentOpener s).bind fun (before, after) =>
    (Text.cut commentCloser (commentOpener ++ after)).map fun (_, rest) => before ++ rest

/-- The text without its first comments, of which at most `fuel` are cut out. -/
def stripCommentsFrom : (fuel : Nat) → List Char → List Char
  | 0, s => s
  | fuel + 1, s =>
    match cutComment? s with
    | none => s
    | some t => stripCommentsFrom fuel t

/-- The text without comments. -/
def stripComments (s : List Char) : List Char :=
  stripCommentsFrom s.length s

/-- The first placeholder of a text: what stands before, in and after it. -/
def placeholder? (s : List Char) : Option (List Char × List Char × List Char) :=
  (Text.cut ['{', '{'] s).bind fun (before, rest) =>
    (Text.cut ['}', '}'] rest).map fun (inside, after) => (before, inside, after)

/-- The rendered value of the path in a placeholder. -/
def renderPlaceholder (host : Host) (data : Value) (inside : List Char) :
    Evaluation (List Char) := do
  let v ← Path.resolve host (Text.trim inside) data
  return (← Evaluation.ofNumber v.render).toList

/-- The text with its placeholders replaced, in at most `fuel` replacements. -/
def interpolate (host : Host) (data : Value) : (fuel : Nat) → List Char → Evaluation (List Char)
  | fuel, s =>
    match placeholder? s with
    | none => pure s
    | some (before, inside, after) =>
      match fuel with
      | 0 => Evaluation.fail .unfinished
      | fuel + 1 => do
        let text ← renderPlaceholder host data inside
        interpolate host data fuel (before ++ text ++ after)

theorem stripComments_of_cutComment {s : List Char} (h : cutComment? s = none) :
    stripComments s = s := by
  cases hs : s.length with
  | zero => rw [stripComments, hs, stripCommentsFrom]
  | succ n => rw [stripComments, hs, stripCommentsFrom, h]

theorem stripComments_of_no_opener {s : List Char} (h : Text.cut commentOpener s = none) :
    stripComments s = s :=
  stripComments_of_cutComment (by rw [cutComment?, h]; rfl)

theorem interpolate_of_no_placeholder (host : Host) (data : Value) (fuel : Nat) {s : List Char}
    (h : placeholder? s = none) : interpolate host data fuel s = pure s := by
  rw [interpolate, h]

end Stencil
