import ServerPages.Command.State
import ServerPages.Main
import ServerPages.Page.Highlight
import ServerPages.Page.Script
import ServerPages.Proofs.Path.Names
import ServerPages.Proofs.Path.Tree
import ServerPages.Proofs.Path.Leads
import ServerPages.Proofs.Path.Resolution
import ServerPages.Proofs.Path.Retrace
import ServerPages.Proofs.Path.Located
import ServerPages.Proofs.Path.Guard
import ServerPages.Proofs.Path.Sandbox
import ServerPages.Proofs.Path.Search
import ServerPages.Proofs.Path.Fixed
import ServerPages.Proofs.Json.Source
import ServerPages.Proofs.Json.Strings
import ServerPages.Proofs.Json.Numbers
import ServerPages.Proofs.Json.Reading
import ServerPages.Proofs.Json.Cutting
import ServerPages.Proofs.Text.Utf8
import ServerPages.Proofs.Request.Receiving
import ServerPages.Proofs.Dispatch.Outcome
import ServerPages.Proofs.Dispatch.Threads
import ServerPages.Proofs.Dispatch.Interleaving
import ServerPages.Proofs.Dispatch.Abandonment
import ServerPages.Proofs.Response.Framing
import ServerPages.Proofs.Page.Expansion
import ServerPages.Proofs.Page.Tiling
import ServerPages.Proofs.Page.Printing
import ServerPages.Proofs.Text.Pieces
import ServerPages.Proofs.Code.Scanning
import ServerPages.Proofs.Code.OneLine
import ServerPages.Proofs.Code.Extent
import ServerPages.Proofs.Code.Steps
import ServerPages.Proofs.Code.Levels
import ServerPages.Proofs.Code.Spans
import ServerPages.Proofs.Code.Moved
import ServerPages.Proofs.Code.Alignment
import ServerPages.Proofs.Code.Kept
import ServerPages.Proofs.Module.Nesting
import ServerPages.Proofs.Module.Blocks
import ServerPages.Proofs.Module.Closing
import ServerPages.Proofs.Code.Lexemes
import ServerPages.Proofs.Code.Lines
import ServerPages.Proofs.Number.Digits
import ServerPages.Proofs.Code.Quoted
import ServerPages.Proofs.Code.Parsing
import ServerPages.Proofs.Code.Scalars
import ServerPages.Proofs.Module.Frame
import ServerPages.Proofs.Module.Writes
import ServerPages.Proofs.Module.Hoisting
import ServerPages.Proofs.Module.Dedent
import ServerPages.Proofs.Module.Verbatim
import ServerPages.Proofs.Module.Preceding
import ServerPages.Proofs.Module.Columns
import ServerPages.Proofs.Execution.Writing
import ServerPages.Proofs.Page.Serving
import ServerPages.Proofs.Text.Decoding
import ServerPages.Proofs.Json.Prospect.Basic
import ServerPages.Proofs.Json.Prospect.Strings
import ServerPages.Proofs.Json.Prospect.Numbers
import ServerPages.Proofs.Json.Prospect.Values
import ServerPages.Proofs.Json.Prospect.Objects
import ServerPages.Proofs.Request.Completing
import ServerPages.Proofs.Request.Nulls
import ServerPages.Proofs.Request.Refusing
import ServerPages.Proofs.Request.Pieces
import ServerPages.Proofs.Server.Exit
import ServerPages.Proofs.Server.Accepting
import ServerPages.Proofs.Server.Invariant
import ServerPages.Proofs.Server.Shutdown
import ServerPages.Proofs.Response.Block
import ServerPages.Proofs.Response.Fields
import ServerPages.Proofs.Request.Trailing
import ServerPages.Proofs.Metadata.Delivery
import ServerPages.Proofs.Inclusion.Stack
import ServerPages.Proofs.Inclusion.Depth
import ServerPages.Proofs.Highlight.Pattern
import ServerPages.Proofs.Highlight.Lossless
import ServerPages.Proofs.Highlight.Sites
import ServerPages.Proofs.Inclusion.Targets
import ServerPages.Proofs.Page.Limits
import ServerPages.Proofs.Command.Failing
import ServerPages.Proofs.Imports.Mentions
import ServerPages.Proofs.Server.Turns
import ServerPages.Proofs.Code.Edge.Basic
import ServerPages.Proofs.Code.Edge.Operations
import ServerPages.Proofs.Code.Edge.Brackets
import ServerPages.Proofs.Code.Edge.Reading
import ServerPages.Proofs.Code.Edge.Grammar
import ServerPages.Proofs.Code.Edge.Forms
import ServerPages.Proofs.Code.Edge.Arguments
import ServerPages.Proofs.Code.Edge.Operands
import ServerPages.Proofs.Code.Edge.Handed
import ServerPages.Proofs.Code.Edge.Runs
import ServerPages.Proofs.Code.Edge.Enclosed
import ServerPages.Proofs.Code.Edge.Calls
import ServerPages.Proofs.Code.Edge.Splicing
import ServerPages.Proofs.Module.Calls
import ServerPages.Proofs.Imports.Names
import ServerPages.Proofs.Imports.Specification
import ServerPages.Proofs.Imports.Access
import ServerPages.Proofs.Imports.Printing
import ServerPages.Proofs.Request.Members
import ServerPages.Proofs.Request.Rearranging
import ServerPages.Proofs.Page.Lines
import ServerPages.Proofs.Request.Fitting
import ServerPages.Proofs.Server.Control
import ServerPages.Proofs.Json.Places
import ServerPages.Proofs.Json.Bounds
import ServerPages.Proofs.Request.Exceeding
import ServerPages.Proofs.Code.LastLine
import ServerPages.Proofs.Code.Trailing
