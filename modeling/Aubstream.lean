import Aubstream.Ps64Groups
import Aubstream.ExpectWalk
import Aubstream.FreeComplete
import Aubstream.LinearMaps
import Aubstream.AllocatorRuns
import Aubstream.OwnedRuns
import Aubstream.TableAgreement
import Aubstream.AlignedBlocks
import Aubstream.PageVisits
import Aubstream.WalkEntries
import Aubstream.ReserveFrame
import Aubstream.StolenMemory
import Aubstream.StolenLayout
import Aubstream.BankIsolation
import Aubstream.GlobalGtt
import Aubstream.GttEntries
import Aubstream.GgttFrame
import Aubstream.ShmGtt
import Aubstream.RingRegisters
import Aubstream.ContextBuffers
import Aubstream.ContextSlots
import Aubstream.ContextIdentity
import Aubstream.GroupPointers
import Aubstream.GgttRanges
import Aubstream.DataPackets
import Aubstream.CommentPackets
import Aubstream.ComparePackets
import Aubstream.SharedMemory
import Aubstream.HostTranslation
import Aubstream.AubFiles
import Aubstream.PausedStreams
import Aubstream.PendingWalks
import Aubstream.BankColours
import Aubstream.ContiguousPages
import Aubstream.DualStreams
import Aubstream.FileCycles
import Aubstream.TbxMessages
import Aubstream.TbxSockets
import Aubstream.TbxRequests
import Aubstream.TbxTransfers
import Aubstream.TbxPairing
import Aubstream.PageAliasing
import Aubstream.PhantomMappings
import Aubstream.BitFields
import Aubstream.TracePackets
import Aubstream.TraceReader
import Aubstream.TraceCalls
import Aubstream.Refinement
import Aubstream.TraceFiles
import Aubstream.TbxSimulator
import Aubstream.TbxLinear
import Aubstream.CircularBuffer
import Aubstream.RingCommands
import Aubstream.RingEngine
import Aubstream.EngineRuns
import Aubstream.EngineInvariant
import Aubstream.EngineSafety
import Aubstream.LatestEntries
import Aubstream.FreedEntries
import Aubstream.MirroredTables
import Aubstream.ExactTables
import Aubstream.PageBytes
import Aubstream.LeafEntries
import Aubstream.GpuMemory
import Aubstream.HostReads
import Aubstream.TbxStreamCalls
import Aubstream.CaptureAgrees
import Aubstream.CapturedTables
import Aubstream.CapturedExpectations
