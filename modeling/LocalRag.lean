import LocalRag.Library.Located
import LocalRag.Storage.Objects
import LocalRag.Storage.Rest
import LocalRag.Library.Agree
import LocalRag.Stream.Transport
import LocalRag.Stream.Stops
import LocalRag.Chat.Machine
import LocalRag.Runtime.Idle
import LocalRag.Runtime.StreamQueue
import LocalRag.Chunking.Embedding
import LocalRag.Admin.OwnerSetup
import LocalRag.Runtime.History
import LocalRag.Runtime.Leases
import LocalRag.Stream.Framing
import LocalRag.Stream.Finalized
import LocalRag.Storage.Restore
import LocalRag.Ingest.Attempts
import LocalRag.Ingest.Identity
import LocalRag.Highlight.Unique
import LocalRag.Chunking.Counts
import LocalRag.Runtime.Ownership
import LocalRag.Library.Tracking
import LocalRag.Workspace.Late
import LocalRag.Access.Stale
import LocalRag.Admin.AllOrNothing
import LocalRag.Admin.Quiet
import LocalRag.Stream.Cited
import LocalRag.Stream.Rebudget
import LocalRag.Chat.Scope
import LocalRag.Stream.Reasoning
import LocalRag.Runtime.Endpoints
import LocalRag.Storage.Checksums
import LocalRag.Library.Refreshed
import LocalRag.Access.Paced
import LocalRag.Ingest.Accounting
import LocalRag.Chat.Redaction
import LocalRag.Search.Nearest
import LocalRag.Storage.Staging
import LocalRag.Storage.Download
import LocalRag.Supervisor.Update
import LocalRag.Supervisor.Children
import LocalRag.Supervisor.Loaded
import LocalRag.Runtime.BodyLimit
import LocalRag.Stream.Ollama
import LocalRag.Ingest.Pdf
