import KernelModules.Lib.Transition
import KernelModules.Lib.Word
import KernelModules.Lib.Tiling
import KernelModules.Lib.LinkedChain
import KernelModules.Lib.Occupancy
import KernelModules.Lib.Table
import KernelModules.Lib.Ring
import KernelModules.Lib.Packing
import KernelModules.Lib.Allocation
import KernelModules.Lib.SysVSemaphore
import KernelModules.Lib.BitSet
import KernelModules.Vmebridge.Mapping
import KernelModules.Vmebridge.Tsi148Window
import KernelModules.Vmebridge.Window
import KernelModules.Vmebridge.WindowTranslation
import KernelModules.Vmebridge.WindowCallers
import KernelModules.Vmebridge.WindowAccounting
import KernelModules.Vmebridge.WindowMmap
import KernelModules.Vmebridge.DmaChain
import KernelModules.Vmebridge.Dma
import KernelModules.Vmebridge.DmaFailure
import KernelModules.Vmebridge.DmaChannel
import KernelModules.Ctr.Hard
import KernelModules.Ctr.Driver
import KernelModules.Ctr.Sweeps
import KernelModules.Ctr.Effects
import KernelModules.Ctr.BusInterrupt
import KernelModules.Ctr.TriggerOwnership
import KernelModules.Ctr.InterruptEnable
import KernelModules.Cdcm.Semaphore
import KernelModules.Skel.ModuleLock
import KernelModules.Skel.ClientQueue
import KernelModules.Skel.Connections
import KernelModules.Ctr.EventQueue
import KernelModules.Ctr.ReadTimers
import KernelModules.Ctr.CtimLifetime
import KernelModules.Ctr.ControlFunctions
import KernelModules.Ctr.UpdateLock
import KernelModules.Ctr.ActionRoundTrip
import KernelModules.Sis33.Card
import KernelModules.Sis33.Exclusion
import KernelModules.Sis33.PageRegister
import KernelModules.Sis33.Board
import KernelModules.Sis33.Sis3320Cancel
import KernelModules.Sis33.Sis3300Cancel
import KernelModules.Sis33.Compat
import KernelModules.Sis33.SampleOrder
import KernelModules.Vmebridge.WindowReadback
import KernelModules.Vmebridge.UserMapping
import KernelModules.Vmebridge.ForceFlags
import KernelModules.Mttn.TaskMemory
import KernelModules.Mttn.AsmAtoms
import KernelModules.Mttn.Assembler
import KernelModules.Cvorg.StoreSequence
import KernelModules.Cvorg.GainOffset
import KernelModules.Cvorg.ClockGenerator
import KernelModules.Utils.CloneTree
import KernelModules.Mttn.LibraryWait
import KernelModules.Vmebridge.DmaTeardown
import KernelModules.Cvorb.FunctionTable
import KernelModules.Cvorb.FunctionSlot
import KernelModules.Cvorb.ShadowRegisters
import KernelModules.Ctr.LibConnect
import KernelModules.Ctr.LibCcv
import KernelModules.Ctr.CardedClients
import KernelModules.Ctr.LibDisconnect
import KernelModules.Ctr.LibLock
import KernelModules.Vmod.TtlEvents
import KernelModules.Pickering.Relays
import KernelModules.Icv196.Coherence
import KernelModules.Acdx.AmpLock
import KernelModules.Vmod.IoRouting
import KernelModules.Vmod.TtlConfig
import KernelModules.Tg8.EventQueue
import KernelModules.Lib.Stuffing
import KernelModules.Acdx.AmpFraming
import KernelModules.Tg8.FrameQueues
import KernelModules.Tg8.ImmInterrupts
import KernelModules.Tg8.Mailbox
import KernelModules.Lib.BitField
import KernelModules.Vd80.Configuration
import KernelModules.Sis33.RoundUint
import KernelModules.Sis33.Timestamps
import KernelModules.Sis33.SizeCheck
import KernelModules.Sis33.EventReads
import KernelModules.Sis33.EventCount
import KernelModules.Lib.FirstFit
import KernelModules.Ctr.PtimAllocation
import KernelModules.Lib.Filling
import KernelModules.Ctr.ClientConnections
import KernelModules.Lib.Jtag
import KernelModules.Ctr.Hptdc
import KernelModules.Ctr.TableIndices
import KernelModules.Mttn.DriverHandlers
import KernelModules.Mttn.InstructionBuffer
import KernelModules.Mttn.NumberText
import KernelModules.Mttn.ObjectFile
import KernelModules.Mttn.RegisterNames
import KernelModules.Mttn.Emulator
import KernelModules.Skel.RawIoBlock
import KernelModules.Vmebridge.DmaAddresses
import KernelModules.Mttn.Expressions
import KernelModules.Mttn.Comments
import KernelModules.Utils.InstallFile
import KernelModules.Utils.InstallAttributes
import KernelModules.Utils.InstallTree
import KernelModules.Lib.Interpolation
import KernelModules.Cvorg.MinimumLength
import KernelModules.Lib.CheckedInt
import KernelModules.Cvorg.PllArithmetic
import KernelModules.Cvorg.DacCorrection
import KernelModules.Utils.FreeTree
import KernelModules.Cvorb.BufferBounds
import KernelModules.Lib.Rollback
import KernelModules.Cvorb.SysfsFiles
import KernelModules.Vmod.TtlStart
import KernelModules.Vd80.SampleReadout
import KernelModules.Lib.EventLog
import KernelModules.Vd80.IoctlSafety
import KernelModules.Utils.InstallBlocks
import KernelModules.Utils.InstallGrowth
import KernelModules.Utils.InstallRelease
import KernelModules.Utils.VmeSpaces
import KernelModules.Utils.Enumeration
import KernelModules.Lib.Calendar
import KernelModules.Tg8.UtcTime
import KernelModules.Tg8.RingReadback
import KernelModules.Utils.CommandAtoms
import KernelModules.Utils.CommandLoops
import KernelModules.Lib.Microwire
import KernelModules.Utils.Plx9030
import KernelModules.Tg8.UserTable
import KernelModules.Tg8.TableExtents
import KernelModules.Tg8.IoctlRanges
import KernelModules.Tg8.Connections
import KernelModules.Lib.BlockTransfer
import KernelModules.Tg8.BlockTransfers
import KernelModules.Lib.AssociativeMemory
import KernelModules.Tg8.TriggerMatching
