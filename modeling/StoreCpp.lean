import StoreCpp.AppendEvent
import StoreCpp.AppendTransaction
import StoreCpp.Base64
import StoreCpp.Base64Lines
import StoreCpp.CaResourceBatch
import StoreCpp.CaResourceCallbacks
import StoreCpp.CaResourceCursor
import StoreCpp.CaResourceManager
import StoreCpp.Calendar
import StoreCpp.CassandraHandles
import StoreCpp.CassandraStatement
import StoreCpp.ClientPools
import StoreCpp.ConcurrentAppend
import StoreCpp.ConcurrentSaveOne
import StoreCpp.ConcurrentStatements
import StoreCpp.ConnectionInfo
import StoreCpp.ConnectionUri
import StoreCpp.DocumentColumns
import StoreCpp.DocumentReads
import StoreCpp.DocumentStore
import StoreCpp.DollarQuote
import StoreCpp.EarliestMax
import StoreCpp.EventPipeline
import StoreCpp.EventPolling
import StoreCpp.EventSearch
import StoreCpp.EventStoreSave
import StoreCpp.Events
import StoreCpp.Extensions
import StoreCpp.FormatTemplate
import StoreCpp.GroupBy
import StoreCpp.HandleHeap
import StoreCpp.IOCContainer
import StoreCpp.InsertedValues
import StoreCpp.JsonValue
import StoreCpp.KafkaDispatcher
import StoreCpp.KeyedTable
import StoreCpp.LargeObject
import StoreCpp.LastExecution
import StoreCpp.LineBreaks
import StoreCpp.ListedDocuments
import StoreCpp.LogCursor
import StoreCpp.MaxEvent
import StoreCpp.MongoBaseClient
import StoreCpp.MongoEventStore
import StoreCpp.MsSqlOperations
import StoreCpp.NestedGroups
import StoreCpp.NotificationLoop
import StoreCpp.NotificationTrigger
import StoreCpp.NotifierInstallation
import StoreCpp.Nvarchar
import StoreCpp.ObjectKey
import StoreCpp.Occurrences
import StoreCpp.PagedList
import StoreCpp.PathValue
import StoreCpp.PgNotifier
import StoreCpp.PieceLoop
import StoreCpp.PooledOperations
import StoreCpp.Printf
import StoreCpp.QueryFormatting
import StoreCpp.QueryLoop
import StoreCpp.QuotedLiteral
import StoreCpp.QuotedStatements
import StoreCpp.Reassembly
import StoreCpp.ResourcePool
import StoreCpp.SaveErrorType
import StoreCpp.SaveStatements
import StoreCpp.SearchConditions
import StoreCpp.SecureHttpServer
import StoreCpp.SecureWsServer
import StoreCpp.SessionPublishing
import StoreCpp.SessionStore
import StoreCpp.Sha256
import StoreCpp.SocketAddress
import StoreCpp.SplitJoin
import StoreCpp.SqlCatalog
import StoreCpp.StepMachine
import StoreCpp.StoreCreation
import StoreCpp.StreamIdInserts
import StoreCpp.StreamIdentity
import StoreCpp.StreamLog
import StoreCpp.StreamSnapshot
import StoreCpp.StringReplace
import StoreCpp.SubscriberCursor
import StoreCpp.TiedPages
import StoreCpp.TimeString
import StoreCpp.UuidText
import StoreCpp.WebRequestLine
import StoreCpp.WebToken
import StoreCpp.WsFrames
