import Stencil.Markup.Node.Basic
import Stencil.Text.Search

/-!
# Markup of a tree

A tree is written depth first. Text is escaped so that it is read as text, an attribute so that it
ends at its quote; raw text and comments are written as they are. An attribute with the empty
value is written as its name alone, and a void element without children as one tag: with a slash,
unless its tag is one that never closes.

* `write_fragment`: a fragment is written as its children.
-/

namespace Stencil

namespace Markup

/-- A character of a text. -/
def escapeChar (c : Char) : List Char :=
  if c = '&' then ['&', 'a', 'm', 'p', ';']
  else if c = '<' then ['&', 'l', 't', ';']
  else if c = '>' then ['&', 'g', 't', ';']
  else [c]

/-- A text as it stands between tags. -/
def escape (s : List Char) : List Char :=
  s.flatMap escapeChar

/-- A character of an attribute. -/
def escapeAttrChar (c : Char) : List Char :=
  if c = '&' then ['&', 'a', 'm', 'p', ';']
  else if c = '"' then ['&', 'q', 'u', 'o', 't', ';']
  else [c]

/-- The value of an attribute as it stands between double quotes. -/
def escapeAttr (s : List Char) : List Char :=
  s.flatMap escapeAttrChar

/-- An attribute as it stands in a tag. -/
def writeAttr (name value : List Char) : List Char :=
  match value with
  | [] => ' ' :: name
  | c :: cs => ' ' :: name ++ '=' :: '"' :: escapeAttr (c :: cs) ++ ['"']

/-- The attributes of a tag. -/
def writeAttrs (attrs : Attributes) : List Char :=
  attrs.entries.flatMap fun (name, value) => writeAttr name.toList value.toList

/-- An opening tag up to its end. -/
def writeTag (tag : String) (attrs : Attributes) (close : List Char) : List Char :=
  '<' :: tag.toList ++ writeAttrs attrs ++ close

end Markup

namespace Node

open Markup

mutual

/-- The markup of a node. -/
def write : Node → List Char
  | text data raw => if raw then data.toList else escape data.toList
  | comment data => ['<', '!', '-', '-'] ++ data.toList ++ ['-', '-', '>']
  | fragment children => writeAll children
  | element tag attrs children void =>
    if void && children.isEmpty then
      writeTag tag attrs (if tag ∈ voidTags then ['>'] else ['/', '>'])
    else
      writeTag tag attrs ['>'] ++ writeAll children ++ ['<', '/'] ++ tag.toList ++ ['>']
termination_by structural n => n

/-- The markup of nodes in a row. -/
def writeAll : List Node → List Char
  | [] => []
  | n :: ns => write n ++ writeAll ns
termination_by structural ns => ns

end

/-- The markup of a node as a text. -/
def markup (node : Node) : String :=
  String.ofList node.write

/-- The markup below a node as a text. -/
def innerMarkup (node : Node) : String :=
  String.ofList (writeAll node.children)

theorem write_fragment (children : List Node) : (fragment children).write = writeAll children := by
  rw [write]

end Node

end Stencil
