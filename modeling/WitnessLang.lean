import WitnessLang.Build.Summary
import WitnessLang.Build.Directory
import WitnessLang.Build.Emit
import WitnessLang.Build.Failure
import WitnessLang.Build.Pipeline
import WitnessLang.Build.Progress
import WitnessLang.Build.Stage
import WitnessLang.Build.Store
import WitnessLang.Command.Build
import WitnessLang.Command.Check
import WitnessLang.Command.Dispatch
import WitnessLang.Command.Flags
import WitnessLang.Command.Manifest
import WitnessLang.Command.Session
import WitnessLang.Command.Work
import WitnessLang.Diagnostic.Bag
import WitnessLang.Diagnostic.Code
import WitnessLang.Diagnostic.Render
import WitnessLang.Digest.Sha256
import WitnessLang.Explicit.Pass
import WitnessLang.Explicit.Tree
import WitnessLang.Files.Tree
import WitnessLang.Format.Ansi
import WitnessLang.Format.Json
import WitnessLang.Format.Toml.Document
import WitnessLang.Format.Toml.Statement
import WitnessLang.Format.Yaml
import WitnessLang.Format.Yaml.Meaning
import WitnessLang.Ir.Basic
import WitnessLang.Ir.Lower
import WitnessLang.Ir.Printer
import WitnessLang.Ir.Validate
import WitnessLang.Ir.Yaml
import WitnessLang.Layout.Frame
import WitnessLang.Main
import WitnessLang.Number.Binary64
import WitnessLang.Number.Integer
import WitnessLang.Ownership.Count
import WitnessLang.Ownership.Paths
import WitnessLang.Path
import WitnessLang.Resolved.Error
import WitnessLang.Resolved.Tree
import WitnessLang.Resolved.Resolve
import WitnessLang.Scope.Table
import WitnessLang.Scope.Tag
import WitnessLang.Scope.Validate
import WitnessLang.Sized.Error
import WitnessLang.Sized.Measure
import WitnessLang.Sized.Tree
import WitnessLang.Source.File
import WitnessLang.Source.Interner
import WitnessLang.Source.Span
import WitnessLang.Surface.Error
import WitnessLang.Surface.Parser
import WitnessLang.Surface.Tree
import WitnessLang.Surface.Spans
import WitnessLang.Text.Bytes
import WitnessLang.Text.Case
import WitnessLang.Text.CharClass
import WitnessLang.Text.Normal
import WitnessLang.Text.Normal.Table
import WitnessLang.Text.Outline
import WitnessLang.Text.Trim
import WitnessLang.Text.Quoted
import WitnessLang.Text.Utf8
import WitnessLang.Text.Width
import WitnessLang.Text.Width.Table
import WitnessLang.Token.Kind
import WitnessLang.Token.Lexer
import WitnessLang.Trace.Event
import WitnessLang.Trace.Log
import WitnessLang.Trace.Tracer
import WitnessLang.Typed.Infer
import WitnessLang.Typed.Error
import WitnessLang.Typed.Tree
import WitnessLang.Types.Basic
import WitnessLang.Types.Settled
import WitnessLang.Types.Unify
import WitnessLang.Types.Witness
import WitnessLang.Vocabulary
import WitnessLang.Proofs.Build.Bracketed
import WitnessLang.Proofs.Build.Definitions
import WitnessLang.Proofs.Build.Lowered
import WitnessLang.Proofs.Build.Shared
import WitnessLang.Proofs.Explicit.Expressions
import WitnessLang.Proofs.Explicit.Passed
import WitnessLang.Proofs.Explicit.Program
import WitnessLang.Proofs.Explicit.Scoped
import WitnessLang.Proofs.Explicit.Spelled
import WitnessLang.Proofs.Ir.Builder
import WitnessLang.Proofs.Ir.Closures
import WitnessLang.Proofs.Ir.Naming
import WitnessLang.Proofs.Ir.Definitions
import WitnessLang.Proofs.Ir.Draft
import WitnessLang.Proofs.Ir.Program
import WitnessLang.Proofs.Ir.Instance
import WitnessLang.Proofs.Ir.Layouts
import WitnessLang.Proofs.Ir.Operands
import WitnessLang.Proofs.Ir.Table
import WitnessLang.Proofs.Ir.Witness
import WitnessLang.Proofs.Layout.Disjoint
import WitnessLang.Proofs.Layout.Exact
import WitnessLang.Proofs.Lists
import WitnessLang.Proofs.Ownership.Branch
import WitnessLang.Proofs.Ownership.Checked
import WitnessLang.Proofs.Ownership.Counted
import WitnessLang.Proofs.Ownership.Flow
import WitnessLang.Proofs.Ownership.Usage
import WitnessLang.Proofs.Ownership.Scan
import WitnessLang.Proofs.Ownership.Stepwise
import WitnessLang.Proofs.Ownership.Trails
import WitnessLang.Proofs.Ownership.Insertion
import WitnessLang.Proofs.Ownership.Recount
import WitnessLang.Proofs.Ownership.Again
import WitnessLang.Proofs.Resolved.Agreement
import WitnessLang.Proofs.Resolved.Distinct
import WitnessLang.Proofs.Resolved.Lexical
import WitnessLang.Proofs.Resolved.Program
import WitnessLang.Proofs.Resolved.Reference
import WitnessLang.Proofs.Resolved.Scoped
import WitnessLang.Proofs.Resolved.Spelled
import WitnessLang.Proofs.Resolved.Written
import WitnessLang.Proofs.Run
import WitnessLang.Proofs.Scope.Frames
import WitnessLang.Proofs.Scope.Runs
import WitnessLang.Proofs.Types.Key
import WitnessLang.Proofs.Sized.Accepted
import WitnessLang.Proofs.Sized.Endless
import WitnessLang.Proofs.Sized.Finite
import WitnessLang.Proofs.Sized.Layout
import WitnessLang.Proofs.Sized.Measured
import WitnessLang.Proofs.Sized.Program
import WitnessLang.Proofs.Sized.Scoped
import WitnessLang.Proofs.Surface.Parsed
import WitnessLang.Proofs.Source.Lines
import WitnessLang.Proofs.Token.Named
import WitnessLang.Proofs.Typed.Program
import WitnessLang.Proofs.Typed.Arities
import WitnessLang.Proofs.Typed.Binding
import WitnessLang.Proofs.Typed.Patterns
import WitnessLang.Proofs.Typed.Asked
import WitnessLang.Proofs.Typed.Decided
import WitnessLang.Proofs.Typed.Finished
import WitnessLang.Proofs.Typed.Free
import WitnessLang.Proofs.Typed.Names
import WitnessLang.Proofs.Typed.Reads
import WitnessLang.Proofs.Typed.Rewrite
import WitnessLang.Proofs.Typed.Rules
import WitnessLang.Proofs.Typed.Soundness
import WitnessLang.Proofs.Typed.Spelled
import WitnessLang.Proofs.Types.Unification
import WitnessLang.Proofs.Types.Formed
import WitnessLang.Proofs.Types.Spelled
import WitnessLang.Proofs.Types.Structure
import WitnessLang.Proofs.Types.Depth
import WitnessLang.Proofs.Types.General
import WitnessLang.Proofs.Layout.Order
import WitnessLang.Proofs.Ir.Listing
import WitnessLang.Proofs.Text.Utf8
import WitnessLang.Proofs.Token.Partition
import WitnessLang.Proofs.Surface.Grammar
import WitnessLang.Proofs.Surface.Places
import WitnessLang.Proofs.Surface.Derived
import WitnessLang.Proofs.Surface.Accepted
import WitnessLang.Proofs.Surface.Nested
import WitnessLang.Proofs.Build.Stops
import WitnessLang.Proofs.Build.Progress
import WitnessLang.Proofs.Trace.Brackets
import WitnessLang.Proofs.Meaning.Semantics
import WitnessLang.Proofs.Meaning.Passed
import WitnessLang.Proofs.Build.Workers
import WitnessLang.Proofs.Explicit.Calls
import WitnessLang.Proofs.Sized.Kept
import WitnessLang.Proofs.Build.Conventions
import WitnessLang.Proofs.Ir.Codes
import WitnessLang.Proofs.Ir.Conversion
import WitnessLang.Proofs.Ir.Emitted
import WitnessLang.Proofs.Ir.Coded
import WitnessLang.Proofs.Meaning.Lowered
import WitnessLang.Proofs.Build.Coded
import WitnessLang.Proofs.Build.Described
import WitnessLang.Proofs.Build.Frames
import WitnessLang.Proofs.Build.Meaning
import WitnessLang.Proofs.Ir.Descriptions
import WitnessLang.Proofs.Ir.Described
import WitnessLang.Proofs.Sized.Plain
import WitnessLang.Proofs.Sized.Reached
import WitnessLang.Proofs.Sized.Cycles
import WitnessLang.Proofs.Token.Beginnings
import WitnessLang.Proofs.Token.LineEnds
import WitnessLang.Proofs.Surface.Failures
import WitnessLang.Proofs.Ir.Frames
import WitnessLang.Proofs.Types.Substitution
import WitnessLang.Proofs.Types.Settled
import WitnessLang.Proofs.Trace.Ring
