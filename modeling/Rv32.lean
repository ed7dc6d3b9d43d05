import Rv32.Word
import Rv32.Text.Hex
import Rv32.Privilege
import Rv32.Address.Range
import Rv32.Address.Map
import Rv32.Device.Ram
import Rv32.Device.Htif
import Rv32.Device.Peripheral
import Rv32.Device
import Rv32.Bus
import Rv32.Registers
import Rv32.Instruction
import Rv32.Instruction.Encode
import Rv32.Instruction.Decode
import Rv32.Instruction.Compressed
import Rv32.Instruction.Text
import Rv32.Instruction.Arithmetic
import Rv32.Trap
import Rv32.Csr.Warl
import Rv32.Csr.Status
import Rv32.Csr.Interrupts
import Rv32.Csr.TrapSetup
import Rv32.Csr.Satp
import Rv32.Csr
import Rv32.Translation.Tlb
import Rv32.Hart.Diagnostic
import Rv32.Hart
import Rv32.Hart.Csr
import Rv32.Hart.Trap
import Rv32.Snapshot
import Rv32.Snapshot.Codec
import Rv32.Machine
import Rv32.Translation.PageTable
import Rv32.Machine.Memory
import Rv32.Machine.Execute
import Rv32.Machine.Run
import Rv32.Executable
import Rv32.Executable.FileView
import Rv32.Executable.Header
import Rv32.Executable.Linkage
import Rv32.Executable.Symbol
import Rv32.TestRun.Layout
import Rv32.TestRun
import Rv32.CommandLine
import Rv32.Main
import Rv32.Proofs.DirectMapped
import Rv32.Proofs.HartFrame
import Rv32.Proofs.Retire
import Rv32.Proofs.TranslationContext
import Rv32.Proofs.CsrAccess
import Rv32.Proofs.AccessRights
import Rv32.Proofs.LegalStatus
import Rv32.Proofs.PrivilegeIntegrity
import Rv32.Proofs.RaisedExceptions
import Rv32.Proofs.AddressMap
import Rv32.Proofs.RangeMaps
import Rv32.Proofs.RangeSearch
import Rv32.Proofs.Mailboxes
import Rv32.Proofs.MemoryWords
import Rv32.Proofs.MemoryBytes
import Rv32.Proofs.MailboxBytes
import Rv32.Proofs.Attachment
import Rv32.Proofs.PageWalk
import Rv32.Proofs.Soundness
import Rv32.Proofs.PreciseExceptions
import Rv32.Proofs.Coherence
import Rv32.Proofs.CacheBlind
import Rv32.Proofs.DataAccess
import Rv32.Proofs.FlushingRun
import Rv32.Proofs.CsrStorage
import Rv32.Proofs.Undisturbed
import Rv32.Proofs.TlbTransparency
import Rv32.Proofs.Sv32
import Rv32.Proofs.PhysicalAddresses
import Rv32.Proofs.BusEchoes
import Rv32.Proofs.Lockstep
import Rv32.Proofs.SnapshotCompleteness
import Rv32.Proofs.RestoredSnapshots
import Rv32.Proofs.SavedSnapshots
import Rv32.Proofs.Confidentiality
import Rv32.Proofs.InterruptOrder
import Rv32.Proofs.InterruptAdmission
import Rv32.Proofs.HandlerEntry
import Rv32.Proofs.TrapReturn
import Rv32.Proofs.WakeUp
import Rv32.Proofs.InterruptRequests
import Rv32.Proofs.DrivenInterrupts
import Rv32.Proofs.CsrInstructions
import Rv32.Proofs.CsrWriteBack
import Rv32.Proofs.CycleBudget
import Rv32.Proofs.AlignedControlFlow
import Rv32.Proofs.CycleAccounting
import Rv32.Proofs.Transfers
import Rv32.Proofs.IoDevices
import Rv32.Proofs.AtomicUpdates
import Rv32.Proofs.BusAccesses
import Rv32.Proofs.TestAddressSpace
import Rv32.Proofs.DeviceAccesses
import Rv32.Proofs.DirtyPages
import Rv32.Proofs.ByteCopies
import Rv32.Proofs.LentLevel
import Rv32.Proofs.Reservations
import Rv32.Proofs.Encoding
import Rv32.Proofs.CompressedForms
import Rv32.Proofs.ReservedParcels
import Rv32.Proofs.DecodingExact
import Rv32.Proofs.GuardedOperations
import Rv32.Proofs.GuardedDecoding
import Rv32.Proofs.GuardedHart
import Rv32.Proofs.MultiplyDivide
import Rv32.Proofs.GuardedBus
import Rv32.Proofs.GuardedMemory
import Rv32.Proofs.GuardedRun
