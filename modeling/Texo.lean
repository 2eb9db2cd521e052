import Texo.Extract.Cache
import Texo.Ingest.Serializable
import Texo.Ops.IndexHistory
import Texo.Ops.IndexOrder
import Texo.Semantics.Successors
import Texo.Surfaces.Stream
import Texo.Backup.Evidence
import Texo.Ops.Provenance
import Texo.CodeIndex.Analysis
import Texo.CodeIndex.Artifact
import Texo.Ops.CodeIndex
import Texo.Ops.IndexBuilds
import Texo.Foundation.DepthFirst
import Texo.Git.Ancestry
import Texo.Git.Budget
import Texo.Ingest.ClaimIds
import Texo.Ops.Coverage
import Texo.Ops.Lines
import Texo.Relate.Decided
import Texo.Foundation.Contest
import Texo.Git.History
import Texo.Ingest.Counts
import Texo.Relate.Keys
import Texo.Semantics.Newest
import Texo.CodeIndex.Context
import Texo.CodeIndex.ScipRanges
import Texo.Config.Lineage
import Texo.Extract.WhiteSpace
import Texo.Foundation.OffsetPaging
import Texo.Foundation.PairSplit
import Texo.Foundation.Quotas
import Texo.Foundation.Rewriting
import Texo.Foundation.Sweep
import Texo.Install.Blocks
import Texo.Ops.Candidates
import Texo.Ops.ClaimsSearch
import Texo.Ops.KnowledgeSearch
import Texo.Ops.LinkedPairs
import Texo.Ops.Progress
import Texo.Surfaces.Http.Client
import Texo.Surfaces.Http.Exchange
import Texo.Surfaces.Redaction
import Texo.Extract.CandidateLaws
import Texo.Foundation.KeyedLog
import Texo.Foundation.Template
import Texo.Foundation.UnorderedPairs
import Texo.Ops.Additions
import Texo.Ops.Orientation
import Texo.Ops.Render
import Texo.Ops.WorkspaceInit
import Texo.Semantics.Embeddings
import Texo.Surfaces.Http.Chunked
import Texo.Surfaces.Http.Framing
import Texo.Claims.Legality
import Texo.Extract.Prose
import Texo.Foundation.Json
import Texo.Foundation.Pieces
import Texo.Foundation.Sections
import Texo.Foundation.UnionFind
import Texo.Ingest.Transcripts
import Texo.Ops.Staleness
import Texo.Ops.Triangulate
import Texo.Ops.Verify
import Texo.Semantics.Chat
import Texo.Semantics.Components
import Texo.Semantics.PairWalk
import Texo.Sessions.Chat
import Texo.Surfaces.McpStdio
import Texo.Extract.Masking
import Texo.Claims.Standing
import Texo.Relate.Basis
import Texo.Relate.Resumption
import Texo.Replication.Exchange
import Texo.Replication.Follow
import Texo.Replication.Remote
import Texo.Replication.View
import Texo.Backup.Create
