import CodeAtlas.Embedding.Loose
import CodeAtlas.Main
import CodeAtlas.Proofs.Embedding.Excerpts
import CodeAtlas.Proofs.Fragment.Members
import CodeAtlas.Proofs.Fragment.Placing
import CodeAtlas.Proofs.Fragment.Sections
import CodeAtlas.Proofs.Index.Alignment
import CodeAtlas.Proofs.Index.Processors
import CodeAtlas.Proofs.Index.Reopening
import CodeAtlas.Proofs.Index.Repeats
import CodeAtlas.Proofs.Index.Window
import CodeAtlas.Proofs.Indexing.Distinctness
import CodeAtlas.Proofs.Indexing.Forgetting
import CodeAtlas.Proofs.Indexing.Histories
import CodeAtlas.Proofs.Indexing.Interrupted
import CodeAtlas.Proofs.Indexing.Staleness
import CodeAtlas.Proofs.Search.Naming
import CodeAtlas.Proofs.Search.Results
import CodeAtlas.Proofs.Server.FirstUse
import CodeAtlas.Proofs.Server.ProjectNames
import CodeAtlas.Proofs.Tracking.Analysis
import CodeAtlas.Proofs.Tracking.Coverage
import CodeAtlas.Proofs.Tracking.HiddenNames
import CodeAtlas.Proofs.Tracking.Patching
import CodeAtlas.Proofs.Tracking.QuickCheck
import CodeAtlas.Proofs.Tracking.Store
import CodeAtlas.Server.Call
import CodeAtlas.Syntax.Reading
