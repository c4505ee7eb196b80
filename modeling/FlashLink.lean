import FlashLink.Build.Samples
import FlashLink.Extension.DirStore
import FlashLink.Extension.Manager
import FlashLink.Session
import FlashLink.Proofs.Reading
import FlashLink.Proofs.Branches
import FlashLink.Proofs.Fields
import FlashLink.Proofs.Symbols
import FlashLink.Proofs.Batches
import FlashLink.Proofs.Boundaries
import FlashLink.Proofs.Regions
import FlashLink.Proofs.Streaming
import FlashLink.Proofs.Blocks
import FlashLink.Proofs.Parsing
import FlashLink.Proofs.Reserving
import FlashLink.Proofs.Committing
import FlashLink.Proofs.Loading
import FlashLink.Proofs.Placing
import FlashLink.Proofs.OneShot
import FlashLink.Proofs.ChunkSizes
import FlashLink.Proofs.Untouched
import FlashLink.Proofs.Footprints
import FlashLink.Proofs.Passes
import FlashLink.Proofs.Residence
import FlashLink.Proofs.Worlds
import FlashLink.Proofs.Lifetimes
import FlashLink.Proofs.Twins
import FlashLink.Proofs.Buffers
import FlashLink.Proofs.Reloading
import FlashLink.Proofs.Reusing
import FlashLink.Proofs.Repatching
import FlashLink.Proofs.Rollback
import FlashLink.Proofs.Calls
import FlashLink.Proofs.Trampolining
import FlashLink.Proofs.Addresses
import FlashLink.Proofs.Histories
import FlashLink.Proofs.Copying
import FlashLink.Proofs.Redirecting
import FlashLink.Proofs.Isolation
import FlashLink.Proofs.Failures
import FlashLink.Proofs.Erasure
import FlashLink.Proofs.Legality
import FlashLink.Proofs.Interrupting
import FlashLink.Proofs.Budgets
import FlashLink.Proofs.Retrying
import FlashLink.Proofs.Accesses
import FlashLink.Proofs.Extents
import FlashLink.Proofs.Managing
import FlashLink.Proofs.LinkedCalls
import FlashLink.Proofs.CacheMaintenance
import FlashLink.Proofs.Rejecting
import FlashLink.Proofs.Operating
import FlashLink.Proofs.HotLoading
import FlashLink.Proofs.Enumerating
import FlashLink.Proofs.Mirroring
import FlashLink.Proofs.Serving
import FlashLink.Proofs.Trials
import FlashLink.Proofs.GuardedReading
import FlashLink.Proofs.GuardedLinking
import FlashLink.Proofs.GuardedStreaming
import FlashLink.Proofs.GuardedCopying
import FlashLink.Proofs.GuardedLoading
import FlashLink.Proofs.SafeLoading
import FlashLink.Proofs.Places
import FlashLink.Proofs.Edits
import FlashLink.Proofs.Containment
import FlashLink.Proofs.Rooms
import FlashLink.Proofs.StoreAgreement
import FlashLink.Proofs.NameTables
import FlashLink.Proofs.Writing
import FlashLink.Proofs.AppLayout
import FlashLink.Proofs.Accepting
import FlashLink.Proofs.AppLoading
import FlashLink.Proofs.Executing
import FlashLink.Proofs.AppRunning
import FlashLink.Proofs.AppServing
import FlashLink.Proofs.Loops
import FlashLink.Proofs.StepCounts
import FlashLink.Proofs.ChunkEnds
import FlashLink.Proofs.Applying
import FlashLink.Proofs.Chunking
import FlashLink.Proofs.Caching
import FlashLink.Proofs.Packing
import FlashLink.Proofs.Supported
import FlashLink.Proofs.Strictness
import FlashLink.Proofs.Sectors
import FlashLink.Proofs.Arranging
import FlashLink.Proofs.Alignments
import FlashLink.Proofs.Encodings
import FlashLink.Proofs.Assembling
import FlashLink.Proofs.Interpreting
import FlashLink.Proofs.Displacements
import FlashLink.Proofs.Programming
import FlashLink.Proofs.Confinement
import FlashLink.Proofs.ReadLogs
import FlashLink.Proofs.ReadLimits
