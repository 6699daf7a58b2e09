import TurboNet.Lib.StepSystem
import TurboNet.Lib.Wrapping
import TurboNet.Lib.Storage
import TurboNet.Lib.Program
import TurboNet.Lib.Mutex
import TurboNet.Lib.Numeral
import TurboNet.Lib.FixedWidth
import TurboNet.Lib.Segmented
import TurboNet.Lib.LastValue
import TurboNet.Lib.Octets
import TurboNet.Lib.Delimited
import TurboNet.Lib.Fields
import TurboNet.Lib.Registry
import TurboNet.Lib.SharedState
import TurboNet.Lib.Reclaim
import TurboNet.Lib.Once
import TurboNet.Lib.Sections
import TurboNet.Base.PoolState
import TurboNet.Base.ThreadPool
import TurboNet.Base.PoolTurns
import TurboNet.Base.PoolEffects
import TurboNet.Base.PoolSteps
import TurboNet.Base.PoolLocks
import TurboNet.Base.PoolCounts
import TurboNet.Base.PoolDrain
import TurboNet.Base.PoolStaff
import TurboNet.Base.PoolWakeups
import TurboNet.Base.PoolCounters
import TurboNet.Base.PoolThreads
import TurboNet.Base.PoolReaping
import TurboNet.Base.PoolMonitor
import TurboNet.Base.PoolDestructor
import TurboNet.Base.PoolFutures
import TurboNet.Base.PoolDeadlock
import TurboNet.Base.Timestamp
import TurboNet.Base.TimestampText
import TurboNet.Base.LocalTime
import TurboNet.Base.PoolExit
import TurboNet.Base.PoolProgress
import TurboNet.Base.PoolFinish
import TurboNet.Base.MutexLock
import TurboNet.Base.CountDownLatch
import TurboNet.Base.Thread
import TurboNet.Base.Singleton
import TurboNet.Base.PoolStatus
import TurboNet.Base.PoolFailedGrowth
import TurboNet.Logger.Logger
import TurboNet.Logger.FixedBuffer
import TurboNet.Logger.LogStream
import TurboNet.Logger.AsyncLogging
import TurboNet.Logger.AsyncSpec
import TurboNet.Logger.AsyncConservation
import TurboNet.Logger.AsyncStop
import TurboNet.Logger.AsyncSane
import TurboNet.Logger.LogFile
import TurboNet.Logger.LogRolling
import TurboNet.Logger.LogStreamSpec
import TurboNet.Logger.Record
import TurboNet.Logger.AsyncDefault
import TurboNet.Logger.AsyncRestart
import TurboNet.Logger.LogReopen
import TurboNet.Logger.LogChecks
import TurboNet.Logger.LogFileNames
import TurboNet.Logger.LogAccounting
import TurboNet.Logger.LogNumerals
import TurboNet.Logger.TimeCache
import TurboNet.Logger.ErrnoText
import TurboNet.Logger.ShortWrites
import TurboNet.Logger.LogThreads
import TurboNet.Logger.AsyncFiles
import TurboNet.Logger.RecordText
import TurboNet.Logger.LoggedFiles
import TurboNet.Net.Buffer
import TurboNet.Net.BufferSpec
import TurboNet.Net.BufferRefines
import TurboNet.Net.Epoll
import TurboNet.Net.EpollPoller
import TurboNet.Net.PollerSpec
import TurboNet.Net.PollerRuns
import TurboNet.Net.PollerViews
import TurboNet.Net.BuildAgreement
import TurboNet.Net.PollerFailures
import TurboNet.Net.ChannelInterest
import TurboNet.Net.ChannelRetire
import TurboNet.Net.PollerDelivery
import TurboNet.Net.ChannelQueries
import TurboNet.Net.Dispatch
import TurboNet.Net.BufferGrowth
import TurboNet.Net.BufferSwap
import TurboNet.Net.BufferReadFd
import TurboNet.Net.BufferRoom
import TurboNet.Net.BufferLines
import TurboNet.Net.BufferPipe
import TurboNet.Net.EventLoop
import TurboNet.Net.Resolve
import TurboNet.Net.InetAddress
import TurboNet.Net.InetNumeric
import TurboNet.Net.InetAddressText
import TurboNet.Net.SocketOps
import TurboNet.Net.Sockets
