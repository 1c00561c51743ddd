import Monsys.Lib.Framing
import Monsys.Lib.Wire
import Monsys.Lib.Room
import Monsys.Lib.Pending
import Monsys.Lib.Pairing
import Monsys.Lib.Runs
import Monsys.Lib.Registry
import Monsys.Lib.Varint
import Monsys.Lib.Tape
import Monsys.DataBuffer
import Monsys.Codec
import Monsys.ZBStream
import Monsys.SerialFraming
import Monsys.SerialLine
import Monsys.StreamReading
import Monsys.Serial
import Monsys.ZigBeeMessage
import Monsys.ZigBeeLayout
import Monsys.GatewayLink
import Monsys.CodecTypes
import Monsys.IdInfoRoundTrip
import Monsys.PredictedLength
import Monsys.EncoderBounds
import Monsys.ListCounts
import Monsys.Lib.Scan
import Monsys.DecoderBounds
import Monsys.SequenceGenerator
import Monsys.PushProto
import Monsys.PushServer
import Monsys.PushRegistry
import Monsys.PushRouting
import Monsys.PushAnswers
import Monsys.PushLogins
import Monsys.SessionCtrl
import Monsys.DeviceManager
import Monsys.Dispatcher
import Monsys.Generator
import Monsys.GatewayMessages
import Monsys.FgwClientHandler
import Monsys.FgwForwarding
import Monsys.ZClient
import Monsys.ZClientRuns
import Monsys.FgwClient
import Monsys.FgwReconnect
import Monsys.FgwReassembly
import Monsys.ZigBeeHandler
import Monsys.ZigBeeSessions
import Monsys.PushCodec
import Monsys.PushRoundTrip
import Monsys.DecodeReuse
import Monsys.Lib.TapeEnd
import Monsys.PushTruncation
import Monsys.PushString
import Monsys.Lib.Json
import Monsys.WebApiMsg
import Monsys.WebApiRoundTrip
import Monsys.SessionManager
import Monsys.Router
import Monsys.RouterPairing
import Monsys.RouterRuns
import Monsys.BindSessions
import Monsys.LoginServers
import Monsys.FgwServer
import Monsys.FgwServerRuns
import Monsys.PushValues
import Monsys.RequestNumbers
import Monsys.AnswersInFull
import Monsys.SessionSweep
import Monsys.Formatter
import Monsys.HandlerIds
import Monsys.ServerReceive
import Monsys.TimerTable
import Monsys.FormatterReading
import Monsys.FormatterBounds
import Monsys.FormatterSoundness
import Monsys.FormatterGrammar
import Monsys.Lib.Occurrence
import Monsys.StringSearch
import Monsys.FormatterBraces
import Monsys.FormatterExe
import Monsys.FormatterMeaning
import Monsys.NumberLists
import Monsys.WebBindings
import Monsys.ExchangeService
import Monsys.FgwResponses
import Monsys.SimpleHandler
import Monsys.FgwManager
import Monsys.GeneratorCycle
import Monsys.DataBufferRuns
import Monsys.Lib.Separated
import Monsys.ServiceInfo
import Monsys.Lib.Mailbox
import Monsys.Gateway
import Monsys.GatewayRadio
import Monsys.GatewayCallbacks
import Monsys.GatewayRounds
import Monsys.GatewayDesk
import Monsys.Lib.Transit
import Monsys.MonsysConnection
import Monsys.PushNet
import Monsys.PushPromises
import Monsys.PushOwnAnswers
import Monsys.Registration
import Monsys.RouterRelays
import Monsys.WebApiServer
import Monsys.WebApiAnswers
import Monsys.Base64
