import CodeAtlas.Main
import CodeAtlas.Proofs.Architecture.CycleRanking
import CodeAtlas.Proofs.Architecture.Directories
import CodeAtlas.Proofs.Architecture.Partition
import CodeAtlas.Proofs.Architecture.Relationships
import CodeAtlas.Proofs.Complexity.Attribution
import CodeAtlas.Proofs.Engine.Cancellation
import CodeAtlas.Proofs.Resolution.Stability
import CodeAtlas.Proofs.Store.Expiry
import CodeAtlas.Syntax.Fault
import CodeAtlas.Syntax.Walk
import CodeAtlas.Proofs.Engine.Progress
import CodeAtlas.Proofs.Engine.Isolation
import CodeAtlas.Proofs.FileSystem.Following
import CodeAtlas.Proofs.Insight.References
import CodeAtlas.Proofs.Scan.Confinement
import CodeAtlas.Proofs.Scan.LinkFree
import CodeAtlas.Proofs.Scan.Reachability
import CodeAtlas.Proofs.Architecture.FileOrder
import CodeAtlas.Proofs.Resolution.Relative
import CodeAtlas.Proofs.Extraction.WellFormed
import CodeAtlas.Proofs.Extraction.Exports
import CodeAtlas.Proofs.Insight.Ranking
import CodeAtlas.Proofs.Architecture.Accumulation
import CodeAtlas.Proofs.Insight.CircularDependencies
import CodeAtlas.Proofs.Architecture.Practices
import CodeAtlas.Proofs.FileSystem.Creation
import CodeAtlas.Proofs.Repository.CommitCounts
import CodeAtlas.Proofs.Log.Setup
import CodeAtlas.Proofs.Console.Layout
import CodeAtlas.Proofs.Console.Markup
import CodeAtlas.Proofs.Console.Renderer
import CodeAtlas.Proofs.Console.Report
import CodeAtlas.Proofs.FileSystem.Removal
import CodeAtlas.Proofs.Repository.Cloning
import CodeAtlas.Proofs.Repository.Ownership
import CodeAtlas.Proofs.Json.Grammar
import CodeAtlas.Proofs.Number.ShortestDecimal
import CodeAtlas.Proofs.Repository.Redaction
import CodeAtlas.Proofs.Json.Printing
import CodeAtlas.Proofs.Export.Decoding
import CodeAtlas.Proofs.Json.Ascii
import CodeAtlas.Proofs.Timestamp
import CodeAtlas.Proofs.Export.Restoration
import CodeAtlas.Proofs.Path.Repository
import CodeAtlas.Proofs.Engine.StageOrder
import CodeAtlas.Proofs.Extraction.DocumentOrder
import CodeAtlas.Proofs.Extraction.Spellings
import CodeAtlas.Proofs.Syntax.FirstFault
