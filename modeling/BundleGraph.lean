import BundleGraph.Main
import BundleGraph.Proofs.Dependency.Search
import BundleGraph.Proofs.Dependency.Exploration
import BundleGraph.Proofs.First
import BundleGraph.Proofs.Dependency.Construction
import BundleGraph.Proofs.Dependency.Rows
import BundleGraph.Proofs.Audit.Inspection
import BundleGraph.Proofs.Audit.FirstViolation
import BundleGraph.Proofs.Audit.Rule
import BundleGraph.Proofs.Audit.Verdict
import BundleGraph.Proofs.Audit.InstallationOrder
import BundleGraph.Proofs.Console.Literal
import BundleGraph.Proofs.Console.Line
import BundleGraph.Proofs.Console.Wrap
import BundleGraph.Proofs.Console.Table
import BundleGraph.Proofs.Console.Output
import BundleGraph.Proofs.Audit.Layout
import BundleGraph.Proofs.Audit.Report
import BundleGraph.Proofs.Command.ExitCode
import BundleGraph.Proofs.Audit.Message
import BundleGraph.Proofs.Command.Message
import BundleGraph.Proofs.Audit.RuleKind
import BundleGraph.Proofs.Audit.Precedence
import BundleGraph.Proofs.Audit.Rearrangement
import BundleGraph.Proofs.Audit.Root
import BundleGraph.Proofs.Audit.SharedContext
import BundleGraph.Proofs.Audit.RuleSet
import BundleGraph.Proofs.Audit.Renaming
import BundleGraph.Proofs.Dependency.NodeId
import BundleGraph.Proofs.Dependency.Diagram
import BundleGraph.Proofs.Dependency.Picture
import BundleGraph.Proofs.Bundle.Descriptor
import BundleGraph.Proofs.Command.Graph
import BundleGraph.Proofs.Command.Loading
import BundleGraph.Proofs.Command.JsonReport
import BundleGraph.Proofs.Audit.Change
import BundleGraph.Proofs.Schema.Field
import BundleGraph.Proofs.Bundle.Grammar
import BundleGraph.Proofs.Bundle.Agreement
import BundleGraph.Proofs.Settings.Search
import BundleGraph.Proofs.Dependency.NodeOrder
import BundleGraph.Proofs.Dependency.Work
