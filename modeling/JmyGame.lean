import JmyGame.LibMachine
import JmyGame.LibCArith
import JmyGame.NetProto2
import JmyGame.NetProto
import JmyGame.NetDataHandler
import JmyGame.NetDecoding
import JmyGame.LibBlock
import JmyGame.NetSessionBuffer
import JmyGame.NetDataHandler2
import JmyGame.NetSendSize
import JmyGame.NetSendRuns
import JmyGame.NetConnection
import JmyGame.NetConnectionSteps
import JmyGame.NetDispatch
import JmyGame.NetLifeCycle
import JmyGame.NetFraming
import JmyGame.NetUserPackets
import JmyGame.NetFlow
import JmyGame.NetDelivery
import JmyGame.NetProgress
import JmyGame.NetClosing
import JmyGame.NetReconnect
import JmyGame.NetNewSessions
import JmyGame.NetServer
import JmyGame.NetReuse
import JmyGame.NetStock
import JmyGame.NetIds
import JmyGame.NetClientMaster
import JmyGame.NetClients
import JmyGame.NetBufferLending
import JmyGame.LibPool
import JmyGame.NetBufferPool
import JmyGame.NetLargeBuffer
import JmyGame.NetUserWrites
import JmyGame.LibProtobuf
import JmyGame.CommonBiMap
import JmyGame.CommonMessages
import JmyGame.CommonCsv
import JmyGame.GateClients
import JmyGame.GateSessions
import JmyGame.GateHandlers
import JmyGame.GateKicks
import JmyGame.GateQueues
import JmyGame.GateReconnect
import JmyGame.GateRefusals
import JmyGame.GateTables
import JmyGame.GateMoves
import JmyGame.GateRoles
import JmyGame.GateGameAgent
import JmyGame.GamePlayers
import JmyGame.GamePlayerTables
import JmyGame.GameRecycled
import JmyGame.GameCommands
import JmyGame.GameHandlers
import JmyGame.GameMoves
import JmyGame.DbHandlers
import JmyGame.DbRoleIds
import JmyGame.ClusterRun
import JmyGame.ClusterPlayers
import JmyGame.ClusterLeaving
import JmyGame.ClusterLinks
import JmyGame.ClusterItems
import JmyGame.LibUnorderedMap
import JmyGame.CommonAgents
import JmyGame.LibResponder
import JmyGame.CommonAgentCalls
import JmyGame.DbGames
import JmyGame.LoginHandlers
import JmyGame.LoginGhosts
import JmyGame.LoginUsers
import JmyGame.CommonWire
import JmyGame.LoginOrigins
import JmyGame.GateLogins
import JmyGame.ClusterLogin
import JmyGame.LoginWire
import JmyGame.ConfigServer
import JmyGame.ConfigDiscovery
import JmyGame.ConfigGateList
import JmyGame.MysqlRecords
import JmyGame.MysqlCollapse
import JmyGame.MysqlFlush
import JmyGame.MysqlExecution
import JmyGame.MysqlRecords2
import JmyGame.MysqlRetry
import JmyGame.MysqlTwoKeys
import JmyGame.LibSql
import JmyGame.MysqlStatements
import JmyGame.MysqlLiterals
import JmyGame.MysqlCalls
import JmyGame.MysqlRings
import JmyGame.MysqlRotation
import JmyGame.MysqlFields
import JmyGame.DbServer
import JmyGame.DbAnswers
import JmyGame.DbOneRole
import JmyGame.ClusterRoles
import JmyGame.ClusterShared
import JmyGame.LibLoop
import JmyGame.MysqlDamage
import JmyGame.MysqlPool
import JmyGame.MysqlCommands
import JmyGame.ClientReceive
import JmyGame.ClientDecoding
import JmyGame.ClientSend
import JmyGame.GeneratorFields
import JmyGame.GeneratorSelect
import JmyGame.GeneratorReload
import JmyGame.CurlRequests
import JmyGame.LibQueue
import JmyGame.NetListQueue
import JmyGame.NetBlockQueue
import JmyGame.CommonBiMapCalls
import JmyGame.GateClientSlots
import JmyGame.LibCExpr
import JmyGame.GeneratorDefines
import JmyGame.GeneratorCsv
import JmyGame.CurlPostLog
import JmyGame.ThreadPool
import JmyGame.ThreadPoolProgress
