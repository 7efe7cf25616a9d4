import CppChat.Ports.PacketCodec
import CppChat.Ports.ProtocolMessage
import CppChat.Verified.Transition
import CppChat.Verified.AtomicProgram
import CppChat.Ports.SessionManager
import CppChat.Ports.UserStore
import CppChat.Ports.GroupStore
import CppChat.Ports.MessageStore
import CppChat.Ports.ChatService
import CppChat.Ports.ChatCalls
import CppChat.Ports.GroupCreation
import CppChat.Ports.ConcurrentLogin
import CppChat.Ports.ConnectionTeardown
import CppChat.Ports.ChatRuns
import CppChat.Ports.ReplySize
import CppChat.Ports.FramableReplies
import CppChat.Ports.CommandText
import CppChat.Ports.TcpServer
import CppChat.Ports.ReactorInvariant
import CppChat.Ports.ConnectionFrame
import CppChat.Ports.EventBatch
import CppChat.Ports.WritePath
import CppChat.Ports.MessagesTable
import CppChat.Ports.StableIds
import CppChat.Ports.StoredAcks
import CppChat.Ports.SessionIndexes
import CppChat.Ports.ServedRequests
import CppChat.Ports.Confidentiality
import CppChat.Ports.Authenticity
import CppChat.Ports.PushAndPull
import CppChat.Ports.HistoryPaging
import CppChat.Ports.UnreadPaging
import CppChat.Ports.FailedRequests
import CppChat.Ports.UsersTable
import CppChat.Ports.UsernameCollation
import CppChat.Verified.EventLog
import CppChat.Ports.ServerRuns
import CppChat.Ports.ReactorQueues
import CppChat.Ports.MessageOrder
import CppChat.Ports.ReplyGaps
import CppChat.Ports.JsonGrammar
import CppChat.Ports.ReplyText
import CppChat.Ports.ClientText
import CppChat.Verified.Json
import CppChat.Ports.WellFormedReplies
import CppChat.Ports.StoreModes
import CppChat.Ports.BufferCaps
import CppChat.Ports.ReadBound
import CppChat.Ports.IdleScan
import CppChat.Ports.Wakeup
import CppChat.Ports.ConnectionPool
import CppChat.Ports.PoolLeases
import CppChat.Ports.PoolRuns
import CppChat.Ports.Teardown
import CppChat.Ports.HasMore
import CppChat.Ports.EdgeDrains
import CppChat.Ports.PasswordRecord
import CppChat.Ports.MessagesSchema
import CppChat.Ports.NumericSettings
import CppChat.Ports.Registrations
import CppChat.Ports.GroupMembership
import CppChat.Ports.ConcurrentDelivery
import CppChat.Ports.ServerProgress
import CppChat.Ports.AbstractChat
import CppChat.Ports.ChatOnTables
import CppChat.Ports.ClientLink
import CppChat.Ports.LinkRuns
import CppChat.Ports.AnsweredRequests
