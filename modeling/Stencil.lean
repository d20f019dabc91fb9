import Stencil.Command.Check
import Stencil.Command.Evaluate
import Stencil.Command.Options
import Stencil.Command.Render
import Stencil.Command.Report
import Stencil.Command.Run
import Stencil.Condition
import Stencil.Config
import Stencil.Directive
import Stencil.Error
import Stencil.Evaluation
import Stencil.Expansion
import Stencil.Failure
import Stencil.Files.Disk
import Stencil.Files.Glob
import Stencil.Files.Path
import Stencil.Interpolation
import Stencil.Issue
import Stencil.Json.Read
import Stencil.Json.Write
import Stencil.Literal
import Stencil.Loading.Basic
import Stencil.Loading.Data
import Stencil.Loading.Templates
import Stencil.Main
import Stencil.Markup.Event.Basic
import Stencil.Markup.Event.Declaration
import Stencil.Markup.Event.Read
import Stencil.Markup.Event.Tag
import Stencil.Markup.Node.Basic
import Stencil.Markup.Node.Build
import Stencil.Markup.Node.TableTags
import Stencil.Markup.Node.Write
import Stencil.Markup.Reference.Expand
import Stencil.Markup.Reference.Names
import Stencil.Number.Binary64
import Stencil.Number.Numeral
import Stencil.Number.Reading
import Stencil.Number.Shortest
import Stencil.OrderedMap
import Stencil.Path
import Stencil.Platform
import Stencil.Proofs.Command.Contained
import Stencil.Proofs.Command.Options
import Stencil.Proofs.Command.Verdict
import Stencil.Proofs.Comments
import Stencil.Proofs.Condition
import Stencil.Proofs.Condition.Confined
import Stencil.Proofs.Condition.Limits
import Stencil.Proofs.Condition.Row
import Stencil.Proofs.Condition.Split
import Stencil.Proofs.Ending
import Stencil.Proofs.Expansion.Alternatives
import Stencil.Proofs.Expansion.Branches
import Stencil.Proofs.Expansion.Chains
import Stencil.Proofs.Expansion.Checked
import Stencil.Proofs.Expansion.Extension
import Stencil.Proofs.Expansion.Fill
import Stencil.Proofs.Expansion.Guarded
import Stencil.Proofs.Expansion.Inserts
import Stencil.Proofs.Expansion.Lookup
import Stencil.Proofs.Expansion.Nesting
import Stencil.Proofs.Expansion.Pieces
import Stencil.Proofs.Expansion.Placeholder
import Stencil.Proofs.Expansion.Plain
import Stencil.Proofs.Expansion.Refinement
import Stencil.Proofs.Expansion.Refines
import Stencil.Proofs.Expansion.Renamed
import Stencil.Proofs.Expansion.Rendering
import Stencil.Proofs.Expansion.Repeats
import Stencil.Proofs.Expansion.Settled
import Stencil.Proofs.Expansion.Termination
import Stencil.Proofs.Expansion.Untaken
import Stencil.Proofs.Failing
import Stencil.Proofs.Files.Glob
import Stencil.Proofs.Interpolation
import Stencil.Proofs.Issue
import Stencil.Proofs.Literal
import Stencil.Proofs.Loading.Failing
import Stencil.Proofs.Loading.Precedence
import Stencil.Proofs.Markup.Bodies
import Stencil.Proofs.Markup.Building
import Stencil.Proofs.Markup.Built
import Stencil.Proofs.Markup.Comments
import Stencil.Proofs.Markup.Definitions
import Stencil.Proofs.Markup.Delimited
import Stencil.Proofs.Markup.Escape
import Stencil.Proofs.Markup.Events
import Stencil.Proofs.Markup.Forest
import Stencil.Proofs.Markup.Reading
import Stencil.Proofs.Markup.RoundTrip
import Stencil.Proofs.Markup.Spelling
import Stencil.Proofs.Markup.Stable
import Stencil.Proofs.Markup.TableTags
import Stencil.Proofs.Markup.Tag
import Stencil.Proofs.Markup.Walk
import Stencil.Proofs.Number.Numeral
import Stencil.Proofs.Number.Rounding
import Stencil.Proofs.OrderedMap
import Stencil.Proofs.Outcome
import Stencil.Proofs.Path
import Stencil.Proofs.Path.Grammar
import Stencil.Proofs.Path.Revealed
import Stencil.Proofs.Path.Spaced
import Stencil.Proofs.Path.Written
import Stencil.Proofs.Scope
import Stencil.Proofs.Text.LowerCase
import Stencil.Proofs.Text.Place
import Stencil.Proofs.Text.Search
import Stencil.Proofs.Value.Clean
import Stencil.Proofs.Value.Integers
import Stencil.Proofs.Value.ReadBack
import Stencil.Proofs.Value.Symmetry
import Stencil.Registry
import Stencil.Text.Base64
import Stencil.Text.Digit
import Stencil.Text.Halves
import Stencil.Text.LowerCase
import Stencil.Text.Printable
import Stencil.Text.Quoted
import Stencil.Text.Search
import Stencil.Text.Space
import Stencil.Text.Utf8
import Stencil.Tool
import Stencil.Traced
import Stencil.Value.Basic
import Stencil.Value.Calendar
import Stencil.Value.Comparison
import Stencil.Value.Equality
import Stencil.Value.Text
import Stencil.Yaml.Basic
import Stencil.Yaml.Cursor
import Stencil.Yaml.Node.Basic
import Stencil.Yaml.Node.Build
import Stencil.Yaml.Read
import Stencil.Yaml.Scalar.Block
import Stencil.Yaml.Scalar.Form
import Stencil.Yaml.Scalar.Meaning
import Stencil.Yaml.Scalar.Plain
import Stencil.Yaml.Scalar.Quoted
import Stencil.Yaml.Scalar.Time
import Stencil.Yaml.Tag
import Stencil.Yaml.Token.Basic
import Stencil.Yaml.Token.Read
