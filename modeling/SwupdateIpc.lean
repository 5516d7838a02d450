import SwupdateIpc.Foundations.ByteStrings
import SwupdateIpc.Foundations.RecordLayout
import SwupdateIpc.Foundations.LossyUtf8
import SwupdateIpc.Foundations.CutUtf8
import SwupdateIpc.Foundations.AsyncPrograms
import SwupdateIpc.Foundations.SystemCalls
import SwupdateIpc.Wire.Layouts
import SwupdateIpc.Wire.Messages
import SwupdateIpc.Wire.Texts
import SwupdateIpc.Error
import SwupdateIpc.Types
import SwupdateIpc.Socket
import SwupdateIpc.Control.Client
import SwupdateIpc.Control.Exchange
import SwupdateIpc.Control.Replies
import SwupdateIpc.Foundations.Runs
import SwupdateIpc.Control.Session
import SwupdateIpc.Control.Pairing
import SwupdateIpc.Control.CutTransfers
import SwupdateIpc.Control.ChunkedImages
import SwupdateIpc.Control.InstallSequence
import SwupdateIpc.Control.ForeignReplies
import SwupdateIpc.Control.Lockstep
import SwupdateIpc.Foundations.RecordContents
import SwupdateIpc.Foundations.RenamedMembers
import SwupdateIpc.Wire.HeaderMessages
import SwupdateIpc.Wire.ProgressMessages
import SwupdateIpc.Wire.HeaderCodes
import SwupdateIpc.Control.Requests
import SwupdateIpc.Control.Arguments
import SwupdateIpc.Control.ReceivedRequests
import SwupdateIpc.Foundations.FramedServers
import SwupdateIpc.Control.Daemons
import SwupdateIpc.Control.ServiceSessions
import SwupdateIpc.Progress.Events
import SwupdateIpc.Progress.Version
import SwupdateIpc.Progress.Releases
import SwupdateIpc.Progress.Client
import SwupdateIpc.Progress.Calls
import SwupdateIpc.Progress.Session
import SwupdateIpc.Progress.AcceptedStreams
import SwupdateIpc.Progress.ReplacedDaemons
import SwupdateIpc.Progress.UnpackedMessages
import SwupdateIpc.Progress.Feed
import SwupdateIpc.Progress.PublishedMessages
import SwupdateIpc.Foundations.JoinedTasks
import SwupdateIpc.Foundations.FairSchedules
import SwupdateIpc.Foundations.Interference
import SwupdateIpc.Foundations.IndependentCalls
import SwupdateIpc.Foundations.CallHistories
import SwupdateIpc.Cli.Commands
import SwupdateIpc.Cli.WatchedEvents
import SwupdateIpc.Cli.Outcomes
import SwupdateIpc.Cli.ImageArgument
import SwupdateIpc.Cli.StreamingTasks
import SwupdateIpc.Cli.Footprints
import SwupdateIpc.Cli.Executions
import SwupdateIpc.Cli.FollowedEvents
import SwupdateIpc.Cli.Schedules
import SwupdateIpc.Cli.Scripts
import SwupdateIpc.Cli.SystemAccess
import SwupdateIpc.Cli.MonitoredInstallations
import SwupdateIpc.Cli.KeptSettings
