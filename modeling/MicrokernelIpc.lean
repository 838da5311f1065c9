import MicrokernelIpc.Proofs.Conservation.Runs
import MicrokernelIpc.Proofs.Delivery.Bookkeeping
import MicrokernelIpc.Proofs.Delivery.Cutting
import MicrokernelIpc.Proofs.Delivery.Deferred
import MicrokernelIpc.Proofs.Delivery.Echo
import MicrokernelIpc.Proofs.Delivery.Identification
import MicrokernelIpc.Proofs.Delivery.Marshalling
import MicrokernelIpc.Proofs.Delivery.Reading
import MicrokernelIpc.Proofs.HandleTable.Freshness
import MicrokernelIpc.Proofs.Kernel.ThreadIsolation
import MicrokernelIpc.Proofs.Memory.FlatMemory
import MicrokernelIpc.Proofs.Object.Waiting
import MicrokernelIpc.Proofs.Wire.CursorSafety
import MicrokernelIpc.Script.Run
