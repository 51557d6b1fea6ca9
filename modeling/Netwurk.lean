import Netwurk.Foundation.MachineInt
import Netwurk.Foundation.Transition
import Netwurk.Foundation.Families
import Netwurk.Foundation.BoundedQueue
import Netwurk.Foundation.TracedQueue
import Netwurk.Foundation.Sentinel
import Netwurk.Foundation.Counters
import Netwurk.Foundation.TicketCounter
import Netwurk.Foundation.Columns
import Netwurk.SafeBuffer.Monitor
import Netwurk.SafeBuffer.Fifo
import Netwurk.SafeBuffer.Wakeups
import Netwurk.SafeBuffer.Program
import Netwurk.SafeBuffer.Linearization
import Netwurk.SafeBuffer.Liveness
import Netwurk.Foundation.CString
import Netwurk.RequestChannel.Message
import Netwurk.RequestChannel.ServerThread
import Netwurk.RequestChannel.SessionLoop
import Netwurk.RequestChannel.ByteStream
import Netwurk.RequestChannel.Connection
import Netwurk.Foundation.GrowingVector
import Netwurk.RequestChannel.AcceptLoop
import Netwurk.RequestChannel.SharedServer
import Netwurk.RequestChannel.Wire
import Netwurk.RequestChannel.ClientTCP
import Netwurk.Histogram
import Netwurk.Histogram.Updates
import Netwurk.Histogram.Print
import Netwurk.Histogram.Table
import Netwurk.Client.Pipeline
import Netwurk.Client.StatThreads
import Netwurk.Client.Order
import Netwurk.Client.Workers
import Netwurk.Client.Sentinels
import Netwurk.Client.Shutdown
import Netwurk.Client.Conservation
import Netwurk.Client.Progress
import Netwurk.Client.Matching
import Netwurk.Client.FailedWorker
import Netwurk.Client.Survey
import Netwurk.Client.Outcome
import Netwurk.Client.Monitors
import Netwurk.Client.Settling
import Netwurk.Client.CommandLine
import Netwurk.Client.Wired
import Netwurk.DataServer.NewChannel
import Netwurk.DataServer.Fifo
import Netwurk.DataServer.Session
import Netwurk.DataServer.Constructing
import Netwurk.DataServer.Traffic
import Netwurk.Sweep.Python
import Netwurk.Sweep.TimeDiff
import Netwurk.Sweep.Grouping
import Netwurk.Sweep.Figure
import Netwurk.Sweep.Experiment
