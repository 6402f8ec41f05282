import StaticDispatch.Config.Basic
import StaticDispatch.Config.File
import StaticDispatch.Config.Json
import StaticDispatch.Config.Key
import StaticDispatch.Config.Rules
import StaticDispatch.Config.Yaml
import StaticDispatch.Decimal.Basic
import StaticDispatch.Decimal.Layout
import StaticDispatch.Decimal.Parts
import StaticDispatch.Decimal.Remainder
import StaticDispatch.Decimal.Shortest
import StaticDispatch.Diagnostic
import StaticDispatch.Eval.Builtin
import StaticDispatch.Eval.Call
import StaticDispatch.Eval.Heap
import StaticDispatch.Eval.Native
import StaticDispatch.Eval.Number
import StaticDispatch.Eval.Place
import StaticDispatch.Eval.Run
import StaticDispatch.Eval.State
import StaticDispatch.Eval.Tree
import StaticDispatch.Eval.Value
import StaticDispatch.Lowering.Adapters
import StaticDispatch.Lowering.ArrayAccess
import StaticDispatch.Lowering.Batch
import StaticDispatch.Lowering.KeywordConstructor
import StaticDispatch.Lowering.MethodCall
import StaticDispatch.Lowering.Operator
import StaticDispatch.Lowering.Session
import StaticDispatch.Lowering.StaticCall
import StaticDispatch.Lowering.Stats
import StaticDispatch.Lowering.Tree
import StaticDispatch.Lowering.Unit
import StaticDispatch.OrderedMap
import StaticDispatch.Proofs.Eval.Agreement
import StaticDispatch.Proofs.Eval.Comparison
import StaticDispatch.Proofs.Eval.Detour
import StaticDispatch.Proofs.Eval.Equality
import StaticDispatch.Proofs.Eval.Following
import StaticDispatch.Proofs.Eval.Frame
import StaticDispatch.Proofs.Eval.Instantiation
import StaticDispatch.Proofs.Eval.Methods
import StaticDispatch.Proofs.Eval.MirroredCalls
import StaticDispatch.Proofs.Eval.MirroredTrees
import StaticDispatch.Proofs.Eval.Mirroring
import StaticDispatch.Proofs.Eval.Places
import StaticDispatch.Proofs.Eval.Relocation
import StaticDispatch.Proofs.Eval.ScopeAside
import StaticDispatch.Proofs.Eval.Steady
import StaticDispatch.Proofs.Eval.Text
import StaticDispatch.Proofs.Lowering.AssignmentTargets
import StaticDispatch.Proofs.Lowering.Behaviour
import StaticDispatch.Proofs.Lowering.Calls
import StaticDispatch.Proofs.Lowering.Captures
import StaticDispatch.Proofs.Lowering.Carried
import StaticDispatch.Proofs.Lowering.Census
import StaticDispatch.Proofs.Lowering.Changes
import StaticDispatch.Proofs.Lowering.ClosureScopes
import StaticDispatch.Proofs.Lowering.ComparisonRouting
import StaticDispatch.Proofs.Lowering.CompoundAssignment
import StaticDispatch.Proofs.Lowering.ElementAccess
import StaticDispatch.Proofs.Lowering.Equivalence
import StaticDispatch.Proofs.Lowering.Hygiene
import StaticDispatch.Proofs.Lowering.Initializer
import StaticDispatch.Proofs.Lowering.Introductions
import StaticDispatch.Proofs.Lowering.Invariant
import StaticDispatch.Proofs.Lowering.KeywordConstruction
import StaticDispatch.Proofs.Lowering.Names
import StaticDispatch.Proofs.Lowering.Registration
import StaticDispatch.Proofs.Lowering.Renumbering
import StaticDispatch.Proofs.Lowering.Result
import StaticDispatch.Proofs.Lowering.Settled
import StaticDispatch.Proofs.Lowering.StaticType
import StaticDispatch.Proofs.Lowering.Sugar
import StaticDispatch.Proofs.Lowering.Terms
import StaticDispatch.Proofs.Lowering.TypePreservation
import StaticDispatch.Proofs.Lowering.ValuePreservation
import StaticDispatch.Proofs.OrderedMap
import StaticDispatch.Proofs.Tree.LexicalScope
import StaticDispatch.Proofs.Tree.Nodes
import StaticDispatch.Proofs.Tree.OperatorCore
import StaticDispatch.Proofs.Tree.Reading
import StaticDispatch.Proofs.Tree.Renaming
import StaticDispatch.Proofs.Tree.Scan
import StaticDispatch.Proofs.Tree.Token
import StaticDispatch.Proofs.Tree.Variables
import StaticDispatch.Proofs.Types.Consistency
import StaticDispatch.Proofs.Types.Lineage
import StaticDispatch.Proofs.Types.Reachable
import StaticDispatch.Proofs.Types.Subtyping
import StaticDispatch.Text.Blank
import StaticDispatch.Text.Glyph
import StaticDispatch.Text.Hexadecimal
import StaticDispatch.Text.Json
import StaticDispatch.Text.Quoted
import StaticDispatch.Text.UpperCase
import StaticDispatch.Tree.Basic
import StaticDispatch.Tree.Capture
import StaticDispatch.Tree.Metadata
import StaticDispatch.Tree.Operator
import StaticDispatch.Tree.Printer
import StaticDispatch.Tree.Same
import StaticDispatch.Tree.StaticType
import StaticDispatch.Types.Basic
import StaticDispatch.Types.Query
import StaticDispatch.Types.Table
import StaticDispatch.Yaml.Block
import StaticDispatch.Yaml.Flow
import StaticDispatch.Yaml.Implicit
import StaticDispatch.Yaml.Line
import StaticDispatch.Yaml.Name
import StaticDispatch.Yaml.Node
import StaticDispatch.Yaml.Printer
import StaticDispatch.Yaml.Token
