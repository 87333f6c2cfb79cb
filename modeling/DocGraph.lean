import DocGraph.Main
import DocGraph.Proofs.Graph.Edge
import DocGraph.Proofs.Graph.ParentCycle
import DocGraph.Proofs.Graph.ParentCut
import DocGraph.Proofs.Graph.MixinCycle
import DocGraph.Proofs.Graph.MixinCut
import DocGraph.Proofs.Graph.Flaws
import DocGraph.Proofs.Graph.Naming
import DocGraph.Proofs.Graph.Outline
import DocGraph.Proofs.Graph.Spelling
import DocGraph.Proofs.Graph.Ancestors
import DocGraph.Proofs.Graph.SearchOrder
import DocGraph.Proofs.Graph.Export
import DocGraph.Proofs.Inheritance.Dependency
import DocGraph.Proofs.Inheritance.Settling
import DocGraph.Proofs.Inheritance.Resolution
import DocGraph.Proofs.Inheritance.Plain
import DocGraph.Proofs.Inheritance.Completeness
import DocGraph.Proofs.Inheritance.Origin
import DocGraph.Proofs.Inheritance.Target
import DocGraph.Proofs.Inheritance.Spelling
import DocGraph.Proofs.Inheritance.Filling
import DocGraph.Proofs.Inheritance.Provenance
import DocGraph.Proofs.Inheritance.Nesting
import DocGraph.Proofs.Inheritance.Report
import DocGraph.Proofs.Inheritance.Request
import DocGraph.Proofs.Inheritance.TargetLoop
import DocGraph.Proofs.Catalog.Aggregation
import DocGraph.Proofs.Catalog.Declaration
import DocGraph.Proofs.Catalog.Table
import DocGraph.Proofs.Catalog.Overriding
import DocGraph.Proofs.Catalog.Folding
import DocGraph.Proofs.Catalog.Draft
import DocGraph.Proofs.Catalog.Options
import DocGraph.Proofs.Catalog.Placement
import DocGraph.Proofs.Catalog.Synthesis
import DocGraph.Proofs.Batch.Course
import DocGraph.Proofs.Batch.Repetition
import DocGraph.Proofs.Batch.Precedence
import DocGraph.Proofs.Batch.Resolved
import DocGraph.Proofs.Batch.ListenerOptions
import DocGraph.Proofs.Catalog.Shadowing
import DocGraph.Proofs.Batch.Frame
import DocGraph.Proofs.Batch.Parsing
import DocGraph.Proofs.Batch.Reporting
import DocGraph.Proofs.Batch.Built
import DocGraph.Proofs.Batch.Exclusion
import DocGraph.Proofs.Batch.Respelling
import DocGraph.Proofs.Batch.Removal
import DocGraph.Proofs.Package.Segments
import DocGraph.Proofs.Package.Position
import DocGraph.Proofs.Package.Tree
import DocGraph.Proofs.Fragment.TypeLine
import DocGraph.Proofs.Fragment.Entries
import DocGraph.Proofs.Fragment.Reference
import DocGraph.Proofs.Fragment.ShortForm
import DocGraph.Proofs.Settings.Merge
import DocGraph.Proofs.Settings.Paths
import DocGraph.Proofs.Settings.Load
import DocGraph.Proofs.Settings.Versions
import DocGraph.Proofs.Inheritance.SelfReturns
import DocGraph.Proofs.Settings.Hash
import DocGraph.Proofs.Graph.Cut
import DocGraph.Proofs.Files.Collection
import DocGraph.Proofs.Batch.Flaws
import DocGraph.Proofs.Graph.Climb
import DocGraph.Proofs.Package.Splitting
import DocGraph.Proofs.Report.Statistics
import DocGraph.Proofs.Value.Leaves
