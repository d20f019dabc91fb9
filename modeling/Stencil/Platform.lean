import Stencil.Files.Disk
import Stencil.Text.Halves
import Stencil.Value.Basic
import Stencil.Yaml.Basic

/-!
# Platforms

What is not decided here but where the library runs: which characters are set aside for halves of
characters, what a text in YAML stands for, and how deep calls may nest.

A document in YAML can name a node inside of itself, but no value contains itself. A reader may unfold
such a node as far as anything looks, or refuse the document.
-/

namespace Stencil

/-- What the library relies on. -/
structure Platform where
  halves : Halves
  /-- The value that a text in YAML stands for. -/
  readYaml : List Char → Except Yaml.Fault Value
  /-- Whether calls nest too deep for the stack when a command line is run. -/
  exhausts : (disk : Disk) → (args : List String) → Bool

end Stencil
