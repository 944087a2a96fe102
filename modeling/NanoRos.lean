import NanoRos.Foundation.Buffer
import NanoRos.Foundation.AlignedLayout
import NanoRos.Foundation.LittleEndian
import NanoRos.Foundation.ShiftRegister
import NanoRos.Foundation.EmitOnce
import NanoRos.Foundation.Transducer
import NanoRos.Foundation.PartialRun
import NanoRos.Foundation.RunRecords
import NanoRos.Foundation.FairRuns
import NanoRos.Foundation.FollowedRuns
import NanoRos.Foundation.StopAndWait
import NanoRos.Foundation.FirstEnrolment
import NanoRos.Foundation.EnrolmentProgress
import NanoRos.Foundation.LossyEnrolment
import NanoRos.Foundation.AbandonedEnrolment
import NanoRos.Foundation.Reenrolment
import NanoRos.Foundation.DepthFirst
import NanoRos.Foundation.Text
import NanoRos.Foundation.Entries
import NanoRos.Foundation.OrderedCalls
import NanoRos.Foundation.RecordedReads
import NanoRos.Protocol
import NanoRos.StreamParser
import NanoRos.FrameEncoding
import NanoRos.ParserStep
import NanoRos.ParserView
import NanoRos.StreamRoundTrip
import NanoRos.StreamSoundness
import NanoRos.ParserRecovery
import NanoRos.ParserRejection
import NanoRos.ParserBounds
import NanoRos.ParserLengths
import NanoRos.CrcRegister
import NanoRos.CrcErrors
import NanoRos.Board
import NanoRos.BoardStep
import NanoRos.BoardRuns
import NanoRos.BoardInvariant
import NanoRos.BoardSessions
import NanoRos.BoardPublishes
import NanoRos.SessionProgress
import NanoRos.RegistrationLog
import NanoRos.AckAttribution
import NanoRos.BoardBounds
import NanoRos.SerialTransport
import NanoRos.SerialFrames
import NanoRos.ThreadSafeQueue
import NanoRos.ClientHandler
import NanoRos.Agent
import NanoRos.AgentStep
import NanoRos.AgentFrames
import NanoRos.AgentRuns
import NanoRos.AgentAcks
import NanoRos.RegistrationPayload
import NanoRos.ClientTable
import NanoRos.ClientConnect
import NanoRos.InFlight
import NanoRos.LinkNoise
import NanoRos.SerialReception
import NanoRos.QueueRuns
import NanoRos.TwoParty
import NanoRos.Registration
import NanoRos.RegistrationSteps
import NanoRos.RegistrationRounds
import NanoRos.RegistrationAgreement
import NanoRos.AgentRestart
import NanoRos.DataPlane
import NanoRos.DataPlaneSteps
import NanoRos.DataPlaneRounds
import NanoRos.DataDelivery
import NanoRos.UplinkProgress
import NanoRos.RegistrationProgress
import NanoRos.DownlinkProgress
import NanoRos.Liveness
import NanoRos.LinkTraffic
import NanoRos.NoisyLinks
import NanoRos.HaltedRegistration
import NanoRos.NoisyRuns
import NanoRos.EndedAgent
import NanoRos.RestartedAgent
import NanoRos.RestartRuns
import NanoRos.RestartRecovery
import NanoRos.MicroCdr
import NanoRos.MicroCdrSteps
import NanoRos.MicroCdrChunks
import NanoRos.Codegen.MsgField
import NanoRos.Codegen.TopicIds
import NanoRos.Codegen.TopicMacros
import NanoRos.Codegen.DataDispatch
import NanoRos.Codegen.Serde
import NanoRos.Codegen.SerdeChunks
import NanoRos.Codegen.SerdeRoundTrip
import NanoRos.Codegen.CdrEncoding
import NanoRos.Codegen.CdrSize
import NanoRos.Codegen.ReceivedStrings
import NanoRos.Codegen.PayloadFits
import NanoRos.Codegen.CdrPositions
import NanoRos.Codegen.StringArrays
import NanoRos.Codegen.GeneratedCode
import NanoRos.Codegen.TypeNames
import NanoRos.Codegen.GeneratedWalk
import NanoRos.Codegen.GeneratedClosed
import NanoRos.Codegen.FileSystem
import NanoRos.Codegen.FileTrees
import NanoRos.Codegen.PackageIndex
import NanoRos.Codegen.PackageSearch
import NanoRos.Codegen.MsgFiles
import NanoRos.Codegen.MsgLookup
import NanoRos.Codegen.MsgParser
import NanoRos.Codegen.MsgTypes
import NanoRos.Codegen.MsgTermination
import NanoRos.Codegen.MsgRendering
import NanoRos.Codegen.MsgRoundTrip
import NanoRos.Codegen.GeneratedText
import NanoRos.Codegen.CodegenRun
import NanoRos.Codegen.DepfileCoverage
import NanoRos.Codegen.MessageSet
import NanoRos.Codegen.FirmwareBuild
import NanoRos.Codegen.TypedDelivery
