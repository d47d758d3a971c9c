import SharedNames.Registry.Operation
import SharedNames.Proofs.NameTable.Creation
import SharedNames.Proofs.NameTable.Issuing
import SharedNames.Proofs.NameTable.LatestBinding
import SharedNames.Proofs.Registry.Isolation
import SharedNames.Proofs.Registry.Lifetime
import SharedNames.Proofs.Registry.LivePayloads
import SharedNames.Proofs.Registry.Nested
import SharedNames.Proofs.Registry.Provenance
import SharedNames.Proofs.Registry.ReleaseOrder
import SharedNames.Proofs.Registry.Teardown
import SharedNames.Proofs.Registry.Views
import SharedNames.Proofs.NameTable.Plain
import SharedNames.Proofs.NameTable.Sharing
import SharedNames.Proofs.NameTable.FreeNames
import SharedNames.Proofs.Registry.Clients
import SharedNames.Proofs.TraceReading
import SharedNames.Proofs.Registry.Replay
import SharedNames.Proofs.Registry.Redundancy
import SharedNames.Proofs.Registry.LastWrite
import SharedNames.Proofs.Registry.Termination
import SharedNames.Proofs.NameTable.Rebinding
import SharedNames.Proofs.NameTable.Undoing
import SharedNames.Proofs.Registry.TableRuns
import SharedNames.Proofs.Registry.Removal
import SharedNames.Proofs.KeyReading
import SharedNames.Proofs.Registry.Refusals
