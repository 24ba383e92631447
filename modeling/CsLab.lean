import CsLab.Lib.Blocks
import CsLab.Lib.Buffer
import CsLab.Lib.Crash
import CsLab.Lib.Desk
import CsLab.Lib.Durable
import CsLab.Lib.Extents
import CsLab.Lib.Ledger
import CsLab.Lib.Log
import CsLab.Lib.Monitor
import CsLab.Lib.Owned
import CsLab.Lib.Peak
import CsLab.Lib.Posix
import CsLab.Lib.Prog
import CsLab.Lib.Relay
import CsLab.Lib.Run
import CsLab.Lib.Session
import CsLab.Lib.SlotAlloc
import CsLab.Lib.SlotUse
import CsLab.MiniDb.Page
import CsLab.MiniDb.PageView
import CsLab.MiniDb.PageInvariant
import CsLab.MiniDb.PageInsert
import CsLab.MiniDb.PageRuns
import CsLab.MiniDb.PageAccess
import CsLab.MiniDb.PageRecords
import CsLab.MiniDb.SlotDirectory
import CsLab.MiniDb.Compaction
import CsLab.MiniDb.PageFile
import CsLab.MiniDb.HeapFile
import CsLab.MiniDb.HeapPages
import CsLab.MiniDb.PageAllocate
import CsLab.MiniDb.PageStore
import CsLab.MiniDb.HeapRuns
import CsLab.MiniDb.RecordStore
import CsLab.MiniDb.Faithful
import CsLab.MiniDb.HeapFaults
import CsLab.MiniDb.HeapHandles
import CsLab.MiniDb.HeapKills
import CsLab.MiniDb.HeapLimits
import CsLab.MiniDb.FirstFit
import CsLab.MiniDb.Replay
import CsLab.MiniDb.RaggedTail
import CsLab.MiniDb.DiskManager
import CsLab.MiniDb.FileIo
import CsLab.MiniDb.Layout
import CsLab.MiniDb.HeapUse
import CsLab.Network.Socket
import CsLab.Network.PollServer
import CsLab.Network.PollClients
import CsLab.Network.PollRuns
import CsLab.Network.PollRounds
import CsLab.Network.NonblockingServer
import CsLab.Network.NonblockingRuns
import CsLab.Network.EpollServer
import CsLab.Network.EpollStream
import CsLab.Network.EpollDescriptors
import CsLab.Network.ThreadServer
import CsLab.Network.ThreadHandoff
import CsLab.Network.ThreadRuns
import CsLab.Network.ClientPrograms
import CsLab.Network.Sessions
import CsLab.Network.Service
import CsLab.Network.EchoSessions
import CsLab.Network.EpollClients
import CsLab.Network.EpollDesk
import CsLab.Network.EpollService
import CsLab.Thread.ProducerConsumer
