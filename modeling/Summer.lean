import Summer.Lib.Run
import Summer.Lib.Period
import Summer.Basic
import Summer.Lib.MachineInt
import Summer.Lib.Storage
import Summer.Net.Buffer
import Summer.Net.BufferQueue
import Summer.Net.BufferProgram
import Summer.Net.BufferAppend
import Summer.Net.ReadFd
import Summer.Hub.Codec
import Summer.Hub.MessageLoop
import Summer.Hub.Fragmentation
import Summer.Lib.OrderedSet
import Summer.Net.Timer
import Summer.Net.TimerBatch
import Summer.Net.TimerRuns
import Summer.Net.TimerWakeup
import Summer.Net.TimerCancel
import Summer.Net.EventLoop
import Summer.Net.Channel
import Summer.Net.TcpConnection
import Summer.Net.ConnectionSpec
import Summer.Net.ConnectionRuns
import Summer.Net.ConnectionInvariant
import Summer.Net.OutboundStream
import Summer.Net.WriteComplete
import Summer.Net.GracefulShutdown
import Summer.Net.ConnectionCallbacks
import Summer.Net.CloseOnce
import Summer.Net.ClosedConnection
import Summer.Net.ConnectionEnd
import Summer.Net.FunctorQueue
import Summer.Net.TimerConsistency
import Summer.Net.TimerPasses
import Summer.Net.TimerFiring
import Summer.Net.TimerIterators
import Summer.Hub.HubServer
import Summer.Hub.Protocol
import Summer.Hub.Grammar
import Summer.Hub.LoopEnds
import Summer.Hub.MalformedLine
import Summer.Hub.Smuggling
import Summer.Hub.HubRuns
import Summer.Hub.Subscriptions
import Summer.Hub.PublishSubscribe
import Summer.Hub.DeadConnections
import Summer.Lib.DenseTable
import Summer.Net.Poller
import Summer.Net.PollPoller
import Summer.Net.PollInterest
import Summer.Net.EpollInterest
import Summer.Net.PollerEquivalence
import Summer.Net.ConnectionOwners
import Summer.Net.OwnedFunctors
import Summer.Net.PollIndex
import Summer.Net.ActiveChannels
import Summer.Net.EpollMirror
import Summer.Net.ChannelReuse
import Summer.Net.EpollAlone
import Summer.Lib.Decimal
import Summer.Net.TcpServer
import Summer.Net.ConnectionNames
import Summer.Net.EventLoopThread
import Summer.Net.StateOrder
import Summer.Net.Connector
import Summer.Lib.Ledger
import Summer.Net.ConnectorSpec
import Summer.Net.ConnectorSockets
import Summer.Net.TcpClient
import Summer.Net.ClientInvariant
import Summer.Net.ConnectorAssertions
import Summer.Net.ClientDisconnect
import Summer.Net.Reactor
import Summer.Net.ReactorOwners
import Summer.Net.ReactorClients
import Summer.Net.ReactorSound
import Summer.Net.ChannelLifetime
import Summer.Lib.RoundRobin
import Summer.Net.EventLoopThreadPool
import Summer.Lib.Broker
import Summer.Lib.BrokerRuns
import Summer.Lib.Simulation
import Summer.Hub.Network
import Summer.Hub.NetworkRefinement
import Summer.Hub.Delivery
import Summer.Hub.BufferCodec
import Summer.Hub.InputPath
import Summer.Base.CountDownLatch
import Summer.Hub.ClientPrograms
import Summer.Hub.LinePublisher
import Summer.Hub.WiredNetwork
import Summer.Hub.WireRefinement
import Summer.Net.HostPort
import Summer.Net.ConnectorBackoff
import Summer.Net.OutputPath
