import Iax.Lib.Lts
import Iax.Lib.Ring
import Iax.Dvm.Connector
import Iax.Dvm.ConnectorQueue
import Iax.Dvm.ConnectorLife
import Iax.Dvm.PhyCache
import Iax.Dvm.RotateRace
import Iax.Dvm.TxSkb
import Iax.Lib.Bytes
import Iax.Lib.Streams
import Iax.Lib.BitWindow
import Iax.Mvm.CsiSlots
import Iax.Mvm.CsiReassembly
import Iax.Mvm.CsiDelivery
import Iax.Mvm.DeviceFamily
import Iax.Mvm.TxCmd
import Iax.Tcp.Client
import Iax.Tcp.Descriptors
import Iax.Tcp.Framing
import Iax.Tcp.Stream
import Iax.Incsi.Bfee
import Iax.Incsi.BfToEff
import Iax.Incsi.MmseDet
import Iax.Incsi.Sender
import Iax.Matlab.Index
import Iax.Matlab.Endian
import Iax.Matlab.FileHandler
import Iax.Matlab.SocketHandler
import Iax.Iaxcsi.RateWord
import Iax.Iaxcsi.Subcarrier
import Iax.Iaxcsi.Reader
import Iax.Iaxcsi.Listener
import Iax.Iaxcsi.Decode
import Iax.Iaxcsi.RoundTrip
import Iax.Iaxcsi.Damage
import Iax.Iaxcsi.SocketReader
import Iax.Mvm.MonitorRate
import Iax.Dvm.RotateRates
import Iax.Dvm.Notif
import Iax.Incsi.Receive
import Iax.Incsi.LogReaders
import Iax.Incsi.StaleBuffer
import Iax.Incsi.ReadBfFile
import Iax.Incsi.BfeeReads
import Iax.Incsi.LogFormat
import Iax.Incsi.ReadBfBuf
import Iax.Incsi.AntennaRows
import Iax.Lib.Ledger
import Iax.Mvm.AsyncHandlers
import Iax.Mvm.CsiPages
import Iax.Mvm.CsiHeaderBytes
import Iax.Mvm.CsiConfig
import Iax.Mvm.CsiFiles
import Iax.Matlab.SharedBuffer
import Iax.Iaxcsi.Calibration
import Iax.Lib.BitField
import Iax.Mvm.RateConversion
import Iax.Mvm.ReplayCheck
import Iax.Mvm.Reorder
import Iax.Mvm.ReorderOrder
import Iax.Mvm.ReorderTimer
import Iax.Lib.Pool
import Iax.Lib.SlotWindow
import Iax.Dvm.AggQueues
import Iax.Lib.Tally
import Iax.Dvm.Stations
import Iax.Injection.Pacing
import Iax.Injection.PayloadStream
import Iax.Lib.CString
import Iax.Lib.InetPton
import Iax.Matlab.Reconnect
import Iax.Tcp.ServerAddr
import Iax.Mvm.CsiAddresses
import Iax.Mvm.CsiPort
import Iax.Incsi.QApprox
import Iax.Matlab.EndianExact
import Iax.Mvm.CreateSkb
import Iax.Lib.RingQueue
import Iax.Lib.Parties
import Iax.Queue.Txq
import Iax.Queue.TxqRing
import Iax.Queue.TxqRuns
import Iax.Pcie.RxAllocator
import Iax.Pcie.RxAllocatorInv
import Iax.Pcie.RxAllocatorRuns
import Iax.Lib.AlignedFrames
import Iax.Pcie.RxBuffer
import Iax.Lib.Related
import Iax.Mvm.CsiFlow
import Iax.Mvm.CsiPackets
import Iax.Iaxcsi.Pipeline
import Iax.Dvm.ConnectorOrder
import Iax.Incsi.BfeeStamp
import Iax.Incsi.BfeeFlow
import Iax.Queue.HcmdFragments
import Iax.Queue.CmdReclaim
import Iax.Queue.HostCmd
import Iax.Queue.HostCmdInv
import Iax.Queue.HostCmdRuns
import Iax.Queue.HostCmdExact
