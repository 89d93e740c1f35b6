import TypedQuery.Binary.Basic
import TypedQuery.Binary.Decimal
import TypedQuery.Binary.Reader
import TypedQuery.Binary.Shortest
import TypedQuery.Binary.Text
import TypedQuery.Calendar.Date
import TypedQuery.Calendar.DateTime
import TypedQuery.Calendar.Reader
import TypedQuery.Check
import TypedQuery.Claims
import TypedQuery.CommandLine
import TypedQuery.Compile.Basic
import TypedQuery.Compile.Fault
import TypedQuery.Compile.Session
import TypedQuery.Decimal.Arithmetic
import TypedQuery.Decimal.Basic
import TypedQuery.Decimal.Power
import TypedQuery.Decimal.Reader
import TypedQuery.Document.Basic
import TypedQuery.Document.Compiled
import TypedQuery.Document.Execution
import TypedQuery.Document.Expansion
import TypedQuery.Document.Reader
import TypedQuery.Document.Selecting
import TypedQuery.Document.Variables
import TypedQuery.Entries
import TypedQuery.Expr.Basic
import TypedQuery.Expr.Literal
import TypedQuery.Expr.Operator
import TypedQuery.Expr.Reader
import TypedQuery.Guid
import TypedQuery.Json.Basic
import TypedQuery.Json.Number
import TypedQuery.Json.OfValue
import TypedQuery.Json.Reader
import TypedQuery.Json.ToValue
import TypedQuery.Main
import TypedQuery.Method.Arity
import TypedQuery.Method.Basic
import TypedQuery.Method.Standard
import TypedQuery.Numeral
import TypedQuery.Plan.Basic
import TypedQuery.Plan.Eval
import TypedQuery.Plan.Fault
import TypedQuery.Plan.Graft
import TypedQuery.Plan.Reconcile
import TypedQuery.Plan.Retype
import TypedQuery.Query
import TypedQuery.Register
import TypedQuery.Schema.Accept
import TypedQuery.Schema.Basic
import TypedQuery.Schema.EnumType
import TypedQuery.Schema.Inference
import TypedQuery.Source.Fault
import TypedQuery.Source.Position
import TypedQuery.Text.Blank
import TypedQuery.Text.Camel
import TypedQuery.Text.Case
import TypedQuery.Text.Interval
import TypedQuery.Text.Letter
import TypedQuery.Text.Part
import TypedQuery.Text.Printable
import TypedQuery.Text.Quoted
import TypedQuery.Token.Basic
import TypedQuery.Token.Cursor
import TypedQuery.Token.Scan
import TypedQuery.Ty.Basic
import TypedQuery.Ty.IntKind
import TypedQuery.Value.Arithmetic
import TypedQuery.Value.Basic
import TypedQuery.Value.Convert
import TypedQuery.Value.Order
import TypedQuery.Value.Text
import TypedQuery.Proofs.Computation
import TypedQuery.Proofs.Entries
import TypedQuery.Proofs.Value.Conformance
import TypedQuery.Proofs.Plan.Typing
import TypedQuery.Proofs.Plan.Reconciling
import TypedQuery.Proofs.Plan.Grafting
import TypedQuery.Proofs.Method.Typing
import TypedQuery.Proofs.Compile.Typing
import TypedQuery.Proofs.Document.Typing
import TypedQuery.Proofs.Plan.Closed
import TypedQuery.Proofs.Plan.Sealed
import TypedQuery.Proofs.Query.Binding
import TypedQuery.Proofs.Query.Closed
import TypedQuery.Proofs.Value.Preservation
import TypedQuery.Proofs.Plan.Preservation
import TypedQuery.Proofs.Query.Preservation
import TypedQuery.Proofs.Lockstep.Plans
import TypedQuery.Proofs.Lockstep.Calls
import TypedQuery.Proofs.Lockstep.Compiling
import TypedQuery.Proofs.Lockstep.Renaming
import TypedQuery.Proofs.Capture.Settling
import TypedQuery.Proofs.Capture.Scopes
import TypedQuery.Proofs.Value.Veiling
import TypedQuery.Proofs.Plan.Regrafting
import TypedQuery.Proofs.Plan.Discretion
import TypedQuery.Proofs.Query.Calls
import TypedQuery.Proofs.Query.Discretion
import TypedQuery.Proofs.Authorization.Unguarded
import TypedQuery.Proofs.Authorization.Exact
import TypedQuery.Proofs.Splicing.Links
import TypedQuery.Proofs.Splicing.Bodies
import TypedQuery.Proofs.Splicing.Compiling
import TypedQuery.Proofs.Splicing.Calls
import TypedQuery.Proofs.Query.Fields
import TypedQuery.Proofs.Query.Rejections
import TypedQuery.Proofs.Query.FieldByField
import TypedQuery.Proofs.Plan.Comparing
import TypedQuery.Proofs.Decimal.Writing
import TypedQuery.Proofs.Token.Writing
import TypedQuery.Proofs.Token.Separation
import TypedQuery.Proofs.Token.Tiling
import TypedQuery.Proofs.Expr.Descent
import TypedQuery.Proofs.Expr.Readable
import TypedQuery.Proofs.Document.Readable
import TypedQuery.Proofs.Document.Paths
import TypedQuery.Proofs.Query.Answers
import TypedQuery.Proofs.Query.Independence
import TypedQuery.Proofs.Query.Spreads
import TypedQuery.Proofs.Document.Reading
import TypedQuery.Proofs.Query.Reading
import TypedQuery.Proofs.Document.Equality
import TypedQuery.Proofs.Document.Fragments
import TypedQuery.Proofs.Query.Positions
import TypedQuery.Proofs.Query.Inlining
import TypedQuery.Proofs.Schema.Sightings
import TypedQuery.Proofs.Schema.Describing
import TypedQuery.Proofs.Document.Expansion
import TypedQuery.Proofs.Document.Progress
import TypedQuery.Proofs.Query.Running
import TypedQuery.Proofs.Authorization.Results
import TypedQuery.Proofs.Authorization.Denials
import TypedQuery.Proofs.Compile.Deepening
import TypedQuery.Proofs.Compile.Reentry
import TypedQuery.Proofs.Plan.Adapting
import TypedQuery.Proofs.Plan.Vetting
import TypedQuery.Proofs.Value.Kinds
import TypedQuery.Proofs.Plan.Safety
import TypedQuery.Proofs.Compile.Vetting
import TypedQuery.Proofs.Query.Safety
import TypedQuery.Proofs.Value.Ordering
import TypedQuery.Proofs.Value.Sorting
import TypedQuery.Proofs.Method.Sorting
import TypedQuery.Proofs.Plan.Filtering
import TypedQuery.Proofs.Plan.Relating
import TypedQuery.Proofs.Query.Joining
import TypedQuery.Proofs.Query.Dividing
import TypedQuery.Proofs.Value.Exactness
import TypedQuery.Proofs.Plan.Calculating
import TypedQuery.Proofs.Query.Negating
import TypedQuery.Proofs.Value.Symmetry
import TypedQuery.Proofs.Plan.Mirroring
import TypedQuery.Proofs.Schema.Accepting
import TypedQuery.Proofs.Schema.Binding
import TypedQuery.Proofs.Query.Predicates
import TypedQuery.Proofs.Document.Sequencing
import TypedQuery.Proofs.Register.Numbering
import TypedQuery.Proofs.Splicing.Reducing
import TypedQuery.Proofs.Capture.Once
import TypedQuery.Proofs.Query.Items
import TypedQuery.Proofs.Query.Counting
import TypedQuery.Proofs.Document.Items
import TypedQuery.Proofs.Plan.Unifying
import TypedQuery.Proofs.Query.Branches
import TypedQuery.Proofs.Plan.Literals
import TypedQuery.Proofs.Query.Membership
import TypedQuery.Proofs.Value.Equivalence
import TypedQuery.Proofs.Value.Distinct
import TypedQuery.Proofs.Token.Cutting
import TypedQuery.Proofs.Token.Excerpts
import TypedQuery.Proofs.Expr.Locality
import TypedQuery.Proofs.Expr.TestTexts
import TypedQuery.Proofs.Document.Opening
import TypedQuery.Proofs.Check.Grammars
import TypedQuery.Proofs.Text.PublicNames
import TypedQuery.Proofs.Calendar.Spelling
import TypedQuery.Proofs.Calendar.Reading
import TypedQuery.Proofs.Query.Timestamps
import TypedQuery.Proofs.Query.Integers
import TypedQuery.Proofs.Query.FirstFailures
import TypedQuery.Proofs.Plan.Folding
import TypedQuery.Proofs.Query.Invocations
import TypedQuery.Proofs.Json.Roundtrip
