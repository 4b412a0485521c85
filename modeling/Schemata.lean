import Schemata.Annotation.Apply
import Schemata.Annotation.Constraints
import Schemata.Annotation.Merge
import Schemata.Annotation.Record
import Schemata.CommandLine.Invocation
import Schemata.CommandLine.Run
import Schemata.CommandLine.Selector
import Schemata.CommandLine.Surroundings
import Schemata.Compiler.Basic
import Schemata.Compiler.Setup
import Schemata.Declared.Builtin
import Schemata.Declared.Conversion
import Schemata.Declared.Declaring
import Schemata.Declared.Enumeration
import Schemata.Declared.Evaluation
import Schemata.Declared.Fitting
import Schemata.Declared.Inheritance
import Schemata.Declared.Instance
import Schemata.Declared.Naming
import Schemata.Declared.Program
import Schemata.Declared.Signature
import Schemata.Declared.Token
import Schemata.Declared.TypeExpr
import Schemata.Declared.TypeText
import Schemata.Descriptor.Basic
import Schemata.Descriptor.Reading
import Schemata.Fault.Basic
import Schemata.Fault.Report
import Schemata.Json.Layout
import Schemata.Json.Reader
import Schemata.Main
import Schemata.Manifest.Annotations
import Schemata.Manifest.Declarations
import Schemata.Manifest.Intake
import Schemata.Manifest.Surroundings
import Schemata.Manifest.Types
import Schemata.Manifest.Values
import Schemata.Manifest.Workshop
import Schemata.Number.Binary64
import Schemata.Number.Decimal
import Schemata.Number.Shortest
import Schemata.Registry.Basic
import Schemata.Registry.Script
import Schemata.Schema.Kind
import Schemata.Schema.Node
import Schemata.Schema.Render
import Schemata.Settings
import Schemata.Synthesis.Schema
import Schemata.Synthesis.Session
import Schemata.Temporal.Basic
import Schemata.Temporal.Duration
import Schemata.Temporal.Reader
import Schemata.Text.Blank
import Schemata.Text.Cased
import Schemata.Text.Digit
import Schemata.Text.Lowercase
import Schemata.Text.Printable
import Schemata.Text.Quoted
import Schemata.Text.Range
import Schemata.Text.Utf8
import Schemata.Toml.Document
import Schemata.Toml.Scalar
import Schemata.Value.Basic
import Schemata.Value.Carried
import Schemata.Value.Default
import Schemata.Value.Equality
import Schemata.Value.Literal
import Schemata.Value.Part
import Schemata.Value.Spelling
import Schemata.Value.Whole
import Schemata.Proofs.Outcome
import Schemata.Proofs.Registry.Growth
import Schemata.Proofs.Registry.Routine
import Schemata.Proofs.Registry.Script
import Schemata.Proofs.Synthesis.Knowledge
import Schemata.Proofs.Synthesis.Growth
import Schemata.Proofs.Synthesis.Course
import Schemata.Proofs.Synthesis.Derivation
import Schemata.Proofs.Synthesis.Graph
import Schemata.Proofs.Synthesis.Additions
import Schemata.Proofs.Schema.Mentions
import Schemata.Proofs.Schema.Holding
import Schemata.Proofs.Synthesis.References
import Schemata.Proofs.Compiler.Run
import Schemata.Proofs.Compiler.References
import Schemata.Proofs.Synthesis.Exploration
import Schemata.Proofs.Compiler.Reachability
import Schemata.Proofs.Synthesis.Positions
import Schemata.Proofs.Compiler.Positions
import Schemata.Proofs.Fault.Causes
import Schemata.Proofs.Synthesis.Handmade
import Schemata.Proofs.Synthesis.Depth
import Schemata.Proofs.Compiler.Depth
import Schemata.Proofs.Synthesis.Instances
import Schemata.Proofs.Synthesis.Publication
import Schemata.Proofs.Synthesis.Meaning
import Schemata.Proofs.Synthesis.Confinement
import Schemata.Proofs.Synthesis.Independence
import Schemata.Proofs.Synthesis.Resumption
import Schemata.Proofs.Synthesis.Canonical
import Schemata.Proofs.Compiler.Publication
import Schemata.Proofs.Synthesis.Seclusion
import Schemata.Proofs.Compiler.Order
import Schemata.Proofs.Synthesis.Tenure
import Schemata.Proofs.Synthesis.Unfolding
import Schemata.Proofs.Synthesis.Repetition
import Schemata.Proofs.Compiler.Repetition
import Schemata.Proofs.Synthesis.Chronicle
import Schemata.Proofs.Compiler.Ownership
import Schemata.Proofs.Tally
import Schemata.Proofs.Synthesis.Heeding
import Schemata.Proofs.Compiler.Inference
import Schemata.Proofs.Synthesis.Remnants
import Schemata.Proofs.Compiler.Abandonment
import Schemata.Proofs.Declared.FieldType
import Schemata.Proofs.Value.WireForm
import Schemata.Proofs.Descriptor.FieldType
import Schemata.Proofs.Schema.Acceptance
import Schemata.Proofs.Schema.Showing
import Schemata.Proofs.Synthesis.Provenance
import Schemata.Proofs.Synthesis.Serving
import Schemata.Proofs.Descriptor.Record
import Schemata.Proofs.Compiler.Defaults
import Schemata.Proofs.Synthesis.Headroom
import Schemata.Proofs.Compiler.Headroom
import Schemata.Proofs.Value.Mapping
import Schemata.Proofs.Annotation.Layer
import Schemata.Proofs.Annotation.Merging
import Schemata.Proofs.Schema.Validation
import Schemata.Proofs.Schema.Nullability
import Schemata.Proofs.Annotation.Barriers
import Schemata.Proofs.Schema.Bounds
import Schemata.Proofs.Synthesis.Stems
import Schemata.Proofs.Descriptor.Metadata
import Schemata.Proofs.Compiler.Bounds
import Schemata.Proofs.Value.Choice
import Schemata.Proofs.Compiler.Literals
import Schemata.Proofs.Pairing
import Schemata.Proofs.Registry.Mapped
import Schemata.Proofs.Value.Signaling
import Schemata.Proofs.Schema.Undefaulted
import Schemata.Proofs.Synthesis.Settings
import Schemata.Proofs.Synthesis.Capture
import Schemata.Proofs.Synthesis.Quiet
import Schemata.Proofs.Compiler.Capture
import Schemata.Proofs.Value.Json
import Schemata.Proofs.Annotation.Json
import Schemata.Proofs.Schema.Json
import Schemata.Proofs.Synthesis.Json
import Schemata.Proofs.Descriptor.Json
import Schemata.Proofs.Compiler.Json
import Schemata.Proofs.Annotation.Repetition
import Schemata.Proofs.Annotation.Vendor
import Schemata.Proofs.Annotation.Refusal
import Schemata.Proofs.Synthesis.Required
import Schemata.Proofs.Compiler.Required
import Schemata.Proofs.Fault.Reading
import Schemata.Proofs.Synthesis.Leaves
import Schemata.Proofs.Compiler.Nesting
import Schemata.Proofs.Compiler.Inlining
import Schemata.Proofs.Declared.Lineage
import Schemata.Proofs.Declared.Settling
import Schemata.Proofs.Declared.Hierarchy
import Schemata.Proofs.Descriptor.Hierarchy
import Schemata.Proofs.Synthesis.Bases
import Schemata.Proofs.Compiler.Bases
import Schemata.Proofs.Settings
import Schemata.Proofs.Value.Latest
import Schemata.Proofs.Value.Writing
import Schemata.Proofs.Fault.Telling
import Schemata.Proofs.Synthesis.Flaws
import Schemata.Proofs.CommandLine.Course
import Schemata.Proofs.CommandLine.Display
import Schemata.Proofs.CommandLine.Endings
