import OpenZWave.Lib.ByteBuffer
import OpenZWave.Defs
import OpenZWave.Msg
import OpenZWave.Framing
import OpenZWave.Lib.Requeue
import OpenZWave.WakeUp
import OpenZWave.Lib.Checked
import OpenZWave.Lib.StreamCipher
import OpenZWave.ZWSecurity
import OpenZWave.Encapsulation
import OpenZWave.Lib.CallTree
import OpenZWave.Node
import OpenZWave.Dispatch
import OpenZWave.Transparency
import OpenZWave.Driver.State
import OpenZWave.Driver.SendMsg
import OpenZWave.Driver.MoveMessages
import OpenZWave.Driver.Calls
import OpenZWave.Lib.Transition
import OpenZWave.Driver.WriteMsg
import OpenZWave.Driver.ProcessMsg
import OpenZWave.Driver.Completion
import OpenZWave.Driver.Run
import OpenZWave.Driver.Secrecy
import OpenZWave.EncryptedFrame
import OpenZWave.Nonces
import OpenZWave.Driver.Held
import OpenZWave.Driver.NonceExchange
import OpenZWave.Driver.SendPending
import OpenZWave.Association
import OpenZWave.Polling
import OpenZWave.TimerThread
import OpenZWave.Lib.Confirmation
import OpenZWave.Value
import OpenZWave.NodeQueries
import OpenZWave.QueryProgress
import OpenZWave.Driver.ReadMsg
import OpenZWave.Driver.PointerSafety
import OpenZWave.NotifyWatchers
import OpenZWave.Lib.Countdown
import OpenZWave.PollCadence
import OpenZWave.PollLocks
import OpenZWave.ValueTarget
import OpenZWave.Bitfield
import OpenZWave.EndPoints
import OpenZWave.EndPointMapping
import OpenZWave.Driver.SendData
import OpenZWave.Driver.Trace
import OpenZWave.Driver.Retransmission
import OpenZWave.Lib.Ledger
import OpenZWave.Driver.Ledger
import OpenZWave.Driver.QueueEvents
import OpenZWave.Driver.Custody
import OpenZWave.Duration
import OpenZWave.Lib.DecimalText
import OpenZWave.DecimalValue
import OpenZWave.ExtractValue
import OpenZWave.AppendValue
import OpenZWave.SendDataRequests
import OpenZWave.WellFormedRequests
import OpenZWave.ValueText
import OpenZWave.InitData
import OpenZWave.CompatOptions
import OpenZWave.CompatPersistence
import OpenZWave.Scene
import OpenZWave.SceneFile
import OpenZWave.SceneCount
import OpenZWave.NodeCache
import OpenZWave.NodeCacheRoundTrip
import OpenZWave.GroupMembership
import OpenZWave.AssociationReport
import OpenZWave.AssociationWalk
import OpenZWave.AssociationCommands
import OpenZWave.Driver.ReturnRoutes
import OpenZWave.Driver.BegunCommands
import OpenZWave.Configuration
import OpenZWave.ColorString
import OpenZWave.ColorText
import OpenZWave.ColorRefresh
import OpenZWave.CentralScene
import OpenZWave.CommandFrame
import OpenZWave.Crc16Encap
import OpenZWave.MultiCommand
import OpenZWave.DoorLockLogging
import OpenZWave.ThermostatSetpoint
import OpenZWave.Lib.Utf16
import OpenZWave.NodeNaming
import OpenZWave.ControllerReplication
import OpenZWave.UserCode
import OpenZWave.Meter
import OpenZWave.Alarm
import OpenZWave.AlarmSteps
import OpenZWave.AlarmParams
import OpenZWave.AlarmClear
import OpenZWave.Lib.SortedTable
import OpenZWave.ValueSchedule
import OpenZWave.ClimateControlSchedule
import OpenZWave.Lib.NumberList
import OpenZWave.NumberLists
import OpenZWave.Lib.WhileLoop
import OpenZWave.NetworkKey
import OpenZWave.CommandLine
import OpenZWave.CommandLineOptions
import OpenZWave.BitSetValue
import OpenZWave.ListValue
import OpenZWave.ListValueRoundTrip
import OpenZWave.Lib.Multimap
import OpenZWave.RefreshTriggers
import OpenZWave.Authentication
import OpenZWave.Lib.BlockChaining
import OpenZWave.Lib.RingBuffer
import OpenZWave.Stream
import OpenZWave.Lib.RotatingTable
import OpenZWave.NonceHistory
import OpenZWave.BitfieldIteration
import OpenZWave.Lib.RefCounting
import OpenZWave.ValueStore
import OpenZWave.DeviceDatabase
import OpenZWave.Lib.FirstWins
import OpenZWave.Localization
import OpenZWave.NodeInfo
import OpenZWave.AesCipher
import OpenZWave.AesDecryptKey
import OpenZWave.WaitMultiple
import OpenZWave.WaitResult
import OpenZWave.AesModes
import OpenZWave.SecurityKeys
import OpenZWave.TinyXmlText
import OpenZWave.Lib.Utf8
import OpenZWave.SceneDocument
import OpenZWave.TinyXmlProgress
