import RfidEngine.Lib.Regex
import RfidEngine.Lib.StepSystem
import RfidEngine.Lib.Judge
import RfidEngine.Lib.TaggedQueue
import RfidEngine.Common
import RfidEngine.CmdHandler
import RfidEngine.LifeCycle
import RfidEngine.Lib.FairRun
import RfidEngine.Handshake
import RfidEngine.Framing.Stream
import RfidEngine.Framing.Matches
import RfidEngine.Framing.Delivery
import RfidEngine.Framing.Drain
import RfidEngine.PacketQueue
import RfidEngine.AsyncSend.Model
import RfidEngine.AsyncSend.Steps
import RfidEngine.AsyncSend.Wakeup
import RfidEngine.AsyncSend.Window
import RfidEngine.AsyncSend.Release
import RfidEngine.AsyncSend.Expiry
import RfidEngine.AsyncSend.Consume
import RfidEngine.Lib.IndexWalk
import RfidEngine.AsyncSend.Notify
import RfidEngine.RfidInterface.Requests
import RfidEngine.RfidInterface.Session
import RfidEngine.RfidInterface.Readings
import RfidEngine.RfidInterface.Heartbeat
import RfidEngine.Parser
import RfidEngine.Replies
import RfidEngine.Lib.JsonValue
import RfidEngine.ReadLines
import RfidEngine.Json
import RfidEngine.Lib.Fields
import RfidEngine.RfidInterface.Response
import RfidEngine.RfidInterface.BankReplies
import RfidEngine.RfidInterface.TagReplies
import RfidEngine.RfidInterface.Identification
import RfidEngine.Lib.CharArray
import RfidEngine.Lib.GroupCount
import RfidEngine.Statistics.Model
import RfidEngine.Statistics.Conservation
import RfidEngine.Statistics.Grouping
import RfidEngine.Statistics.Repeats
import RfidEngine.Statistics.Unrelated
import RfidEngine.Lib.KeyedTable
import RfidEngine.HandleManager.Model
import RfidEngine.HandleManager.Table
import RfidEngine.Api.Model
import RfidEngine.Api.Refusal
import RfidEngine.Api.Capacity
import RfidEngine.Api.DoubleCheck
import RfidEngine.Api.Interleaving
import RfidEngine.RfidInterface.DateTime
import RfidEngine.RfidInterface.TagWrite
import RfidEngine.Lib.Numerals
import RfidEngine.RfidInterface.Conversions
import RfidEngine.RfidInterface.LoopSettings
import RfidEngine.RfidInterface.SetterReplies
import RfidEngine.RfidInterface.Power
import RfidEngine.RfidInterface.CommandText
import RfidEngine.Api.WriteGuard
import RfidEngine.Api.ReadErrors
import RfidEngine.RfidInterface.WriteResults
import RfidEngine.RfidInterface.BankWait
import RfidEngine.Api.Inventory
import RfidEngine.RfidInterface.Construct
import RfidEngine.Lib.Simulation
import RfidEngine.AsyncSend.Disabled
import RfidEngine.Framing.LostByte
import RfidEngine.RfidInterface.Relays
import RfidEngine.Tokenizer
import RfidEngine.PacketList
import RfidEngine.AsyncSend.Termination
import RfidEngine.ReceivePath
import RfidEngine.Recorded
import RfidEngine.RfidInterface.Settings
import RfidEngine.RfidInterface.Callbacks
import RfidEngine.HandleManager.Buffers
import RfidEngine.CurlStub
import RfidEngine.HandleManager.Lifetime
import RfidEngine.Rounds
import RfidEngine.Api.FrameCount
import RfidEngine.Api.Confirmation
import RfidEngine.Reboot
import RfidEngine.Lib.Backlog
import RfidEngine.AsyncSend.Backlog
import RfidEngine.RfidInterface.TagCommands
import RfidEngine.Api.Decoded
import RfidEngine.Lib.Calendar
import RfidEngine.RfidInterface.SystemTime
import RfidEngine.Upload
