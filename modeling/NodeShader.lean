import NodeShader.Branch.Labelling
import NodeShader.Branch.Labels
import NodeShader.Command.Line
import NodeShader.Command.Run
import NodeShader.Command.Table
import NodeShader.Compile.Basic
import NodeShader.Compile.Plan
import NodeShader.Config.Compare
import NodeShader.Config.Content
import NodeShader.Config.Eval
import NodeShader.Config.Expr
import NodeShader.Config.Read
import NodeShader.Config.Shape
import NodeShader.Config.Token
import NodeShader.Config.Value
import NodeShader.Digest.Sha
import NodeShader.Disk
import NodeShader.Evaluate.Dispatch
import NodeShader.Evaluate.Wedge
import NodeShader.Failure
import NodeShader.Graph.Basic
import NodeShader.Graph.Build
import NodeShader.Graph.Edit
import NodeShader.Graph.Kind
import NodeShader.Graph.Params
import NodeShader.Graph.Validate
import NodeShader.GraphFile.Block
import NodeShader.GraphFile.Build
import NodeShader.Main
import NodeShader.Math.Expr
import NodeShader.Math.Read
import NodeShader.Math.Token
import NodeShader.Metal.Binding
import NodeShader.Metal.Emit
import NodeShader.Metal.Tables
import NodeShader.Metal.Types
import NodeShader.Metrics
import NodeShader.NameSet
import NodeShader.Number.Decimal
import NodeShader.Number.FloatFormat
import NodeShader.Number.Power
import NodeShader.Number.Precise
import NodeShader.Options
import NodeShader.Proofs.Branch.Availability
import NodeShader.Proofs.Branch.Homes
import NodeShader.Proofs.Branch.Labelling
import NodeShader.Proofs.Branch.Partition
import NodeShader.Proofs.Branch.Regions
import NodeShader.Proofs.Bytes
import NodeShader.Proofs.Compile.Accepting
import NodeShader.Proofs.Compile.Covering
import NodeShader.Proofs.Compile.CrossCompiling
import NodeShader.Proofs.Compile.Domains
import NodeShader.Proofs.Compile.Faithful
import NodeShader.Proofs.Compile.Fields
import NodeShader.Proofs.Compile.Folding
import NodeShader.Proofs.Compile.Hashing
import NodeShader.Proofs.Compile.Integers
import NodeShader.Proofs.Compile.Joining
import NodeShader.Proofs.Compile.Names
import NodeShader.Proofs.Compile.Pruning
import NodeShader.Proofs.Compile.SingleAssignment
import NodeShader.Proofs.Compile.Sources
import NodeShader.Proofs.Compile.Staging
import NodeShader.Proofs.Compile.Tabulating
import NodeShader.Proofs.Compile.Typed
import NodeShader.Proofs.Compile.Unsupported
import NodeShader.Proofs.Compile.Vertices
import NodeShader.Proofs.Evaluate.Finishing
import NodeShader.Proofs.Evaluate.Relevance
import NodeShader.Proofs.Evaluate.Safety
import NodeShader.Proofs.Evaluate.Turns
import NodeShader.Proofs.Failure
import NodeShader.Proofs.Graph.Built
import NodeShader.Proofs.Graph.Cycles
import NodeShader.Proofs.Graph.Integrity
import NodeShader.Proofs.Graph.Meaning
import NodeShader.Proofs.Graph.Ordering
import NodeShader.Proofs.Graph.Ports
import NodeShader.Proofs.Graph.Reaching
import NodeShader.Proofs.Graph.Scheduling
import NodeShader.Proofs.Graph.Validation
import NodeShader.Proofs.Graph.Wires
import NodeShader.Proofs.Graph.Wiring
import NodeShader.Proofs.GraphFile.Assembling
import NodeShader.Proofs.GraphFile.Plans
import NodeShader.Proofs.Lists
import NodeShader.Proofs.Metal.Assembling
import NodeShader.Proofs.Metal.Emitting
import NodeShader.Proofs.Metal.Ending
import NodeShader.Proofs.Metal.Heading
import NodeShader.Proofs.Metal.Identifiers
import NodeShader.Proofs.Metal.Indexing
import NodeShader.Proofs.Metal.Lexing
import NodeShader.Proofs.Metal.Limits
import NodeShader.Proofs.Metal.Literals
import NodeShader.Proofs.Metal.Loading
import NodeShader.Proofs.Metal.Naming
import NodeShader.Proofs.Metal.Programs
import NodeShader.Proofs.Metal.Reflecting
import NodeShader.Proofs.Metal.Scripts
import NodeShader.Proofs.Metal.Sharing
import NodeShader.Proofs.Metal.Structuring
import NodeShader.Proofs.Metal.Walking
import NodeShader.Proofs.Number.Integers
import NodeShader.Proofs.Number.Rounding
import NodeShader.Proofs.Number.Whole
import NodeShader.Proofs.Outcome
import NodeShader.Proofs.Shape
import NodeShader.Proofs.Spirv.Blocks
import NodeShader.Proofs.Spirv.Building
import NodeShader.Proofs.Spirv.Calls
import NodeShader.Proofs.Spirv.Code
import NodeShader.Proofs.Spirv.Declarations
import NodeShader.Proofs.Spirv.Framed
import NodeShader.Proofs.Spirv.Framing
import NodeShader.Proofs.Spirv.Literals
import NodeShader.Proofs.Spirv.Machine
import NodeShader.Proofs.Spirv.Readback
import NodeShader.Proofs.Spirv.Semantics
import NodeShader.Proofs.Spirv.Ssa
import NodeShader.Proofs.Spirv.Typing
import NodeShader.Proofs.Spirv.WellTyped
import NodeShader.Proofs.Stage.Arithmetic
import NodeShader.Proofs.Stage.Awaiting
import NodeShader.Proofs.Stage.Bodies
import NodeShader.Proofs.Stage.BuiltIn
import NodeShader.Proofs.Stage.Coding
import NodeShader.Proofs.Stage.Conditions
import NodeShader.Proofs.Stage.Declaring
import NodeShader.Proofs.Stage.Drafting
import NodeShader.Proofs.Stage.Emitting
import NodeShader.Proofs.Stage.Expressions
import NodeShader.Proofs.Stage.Failing
import NodeShader.Proofs.Stage.Folding
import NodeShader.Proofs.Stage.Furnished
import NodeShader.Proofs.Stage.Knowing
import NodeShader.Proofs.Stage.Lockstep
import NodeShader.Proofs.Stage.Planned
import NodeShader.Proofs.Stage.Sampled
import NodeShader.Proofs.Stage.Sampling
import NodeShader.Proofs.Stage.Selecting
import NodeShader.Proofs.Stage.Showing
import NodeShader.Proofs.Stage.Signed
import NodeShader.Proofs.Stage.Steady
import NodeShader.Proofs.Stage.Values
import NodeShader.Proofs.Stage.Variables
import NodeShader.Proofs.Stage.Vectors
import NodeShader.Proofs.Stage.Writing
import NodeShader.Proofs.Steps
import NodeShader.Proofs.Typing.Checking
import NodeShader.Proofs.Typing.Confluence
import NodeShader.Proofs.Typing.Exactness
import NodeShader.Proofs.Typing.Firing
import NodeShader.Proofs.Typing.Independence
import NodeShader.Proofs.Typing.Kinds
import NodeShader.Proofs.Typing.Preference
import NodeShader.Proofs.Typing.Resolution
import NodeShader.Proofs.Typing.Settling
import NodeShader.Proofs.Typing.Solutions
import NodeShader.Proofs.Typing.Support
import NodeShader.Report.Basic
import NodeShader.Report.Command
import NodeShader.Report.Compile
import NodeShader.Report.Evaluate
import NodeShader.Report.Graph
import NodeShader.Report.GraphFile
import NodeShader.Report.Math
import NodeShader.Report.Metal
import NodeShader.Schedule
import NodeShader.Spirv.Builder
import NodeShader.Spirv.Instruction
import NodeShader.Spirv.Module
import NodeShader.Spirv.Vocabulary
import NodeShader.Stage.Basic
import NodeShader.Stage.Declare
import NodeShader.Stage.Draft
import NodeShader.Stage.Field
import NodeShader.Stage.Fold
import NodeShader.Stage.Generate
import NodeShader.Stage.ResourceClass
import NodeShader.Stage.Select
import NodeShader.Stage.Write
import NodeShader.Text.Basic
import NodeShader.Text.Cluster
import NodeShader.Text.Compose
import NodeShader.Text.Composite
import NodeShader.Text.Name
import NodeShader.Text.Printable
import NodeShader.Text.Quoted
import NodeShader.Text.Scalar
import NodeShader.Total
import NodeShader.Typing.Constraint
import NodeShader.Typing.Resolve
import NodeShader.Uuid
import NodeShader.ValueType
