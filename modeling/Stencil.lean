import Stencil.Text.Trim
import Stencil.Text.Position
import Stencil.Text.Case
import Stencil.Text.Occurrence
import Stencil.Text.Quoted
import Stencil.Decimal.Nearest
import Stencil.Decimal.Reading
import Stencil.Decimal.Shortest
import Stencil.Value.Output
import Stencil.Error
import Stencil.Expression.Scanner
import Stencil.Expression.Basic
import Stencil.Pipeline
import Stencil.Filter.Builtin
import Stencil.Context
import Stencil.Markup.Lexeme
import Stencil.Markup.Tree
import Stencil.Render.Interpreter
import Stencil.Cache.Policy
import Stencil.Source.Shelf
import Stencil.Source.FileTree
import Stencil.Engine
import Stencil.Proofs.Markup.Builtin
import Stencil.Proofs.Render.Coupling
import Stencil.Proofs.Render.Transport
import Stencil.Proofs.Render.Frames
import Stencil.Proofs.Render.Modes
import Stencil.Proofs.Render.Settled
import Stencil.Proofs.Discipline
import Stencil.Proofs.Expression.Literals
import Stencil.Proofs.Expression.Reading
import Stencil.Proofs.Expression.Terminated
import Stencil.Proofs.Markup.Literals
import Stencil.Proofs.Expression.Words
import Stencil.Proofs.Markup.Printing
import Stencil.Proofs.Expression.Tokens
import Stencil.Proofs.Expression.Separated
import Stencil.Proofs.Pipeline.Pieces
import Stencil.Proofs.Expression.Escaping
import Stencil.Proofs.Markup.Appending
import Stencil.Proofs.Markup.Steps
import Stencil.Proofs.Markup.Grammar
import Stencil.Proofs.Markup.Parsing
import Stencil.Proofs.Markup.RawTags
import Stencil.Proofs.Session
import Stencil.Proofs.Cache.Uses
import Stencil.Proofs.Cache.History
import Stencil.Proofs.Engine.Loading
import Stencil.Proofs.Engine.Storing
import Stencil.Proofs.Engine.Reuse
import Stencil.Proofs.Engine.Transparency
import Stencil.Proofs.Engine.Interleaving
import Stencil.Proofs.Source.Paths
import Stencil.Proofs.Source.Directories
import Stencil.Proofs.Markup.Cutting
import Stencil.Proofs.Markup.Verbatim
import Stencil.Proofs.Markup.Joining
import Stencil.Proofs.Markup.Derivations
import Stencil.Proofs.Render.Joined
import Stencil.Proofs.Expression.Agreement
import Stencil.Proofs.Pipeline.Canonical
import Stencil.Proofs.Markup.Accesses
import Stencil.Proofs.Render.Reading
import Stencil.Proofs.Render.Asking
import Stencil.Proofs.Render.Visits
import Stencil.Proofs.Render.Strictness
import Stencil.Proofs.Markup.Calm
import Stencil.Proofs.Render.AtOnce
import Stencil.Proofs.Engine.Forms
import Stencil.Proofs.Render.Sequencing
import Stencil.Proofs.Render.Lookups
import Stencil.Proofs.Render.Endings
import Stencil.Proofs.Render.Chains
import Stencil.Proofs.Render.Captured
import Stencil.Proofs.Render.Looping
import Stencil.Proofs.Render.Branching
import Stencil.Proofs.Filter.Splitting
import Stencil.Proofs.Filter.Arithmetic
import Stencil.Proofs.Render.Ranges
import Stencil.Proofs.Markup.Faults
import Stencil.Proofs.Render.Outcomes
import Stencil.Proofs.Render.Calls
import Stencil.Proofs.Expression.Extending
import Stencil.Proofs.Render.Computed
import Stencil.Proofs.Filter.Indexing
import Stencil.Proofs.Filter.Sizes
import Stencil.Proofs.Source.Resolution
import Stencil.Proofs.Source.Names
import Stencil.Proofs.Render.Dotted
import Stencil.Proofs.Pipeline.Trimmed
import Stencil.Proofs.Markup.Binding
import Stencil.Proofs.Render.Bindings
import Stencil.Proofs.Expression.Splitting
import Stencil.Proofs.Offsets.Slice
import Stencil.Proofs.Offsets.Slicing
import Stencil.Proofs.Offsets.Cursor
import Stencil.Proofs.Offsets.Mirroring
import Stencil.Proofs.Offsets.Values
import Stencil.Proofs.Offsets.Operations
import Stencil.Proofs.Offsets.Expressions
import Stencil.Proofs.Offsets.Pipelines
import Stencil.Proofs.Offsets.Lexing
import Stencil.Proofs.Offsets.Parsing
