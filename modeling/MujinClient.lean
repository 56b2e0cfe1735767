import MujinClient.Transition
import MujinClient.Text
import MujinClient.Binary64
import MujinClient.StreamOutput
import MujinClient.Machine
import MujinClient.Json
import MujinClient.UpdateJson
import MujinClient.Maps
import MujinClient.Loading
import MujinClient.LoadScalar
import MujinClient.JsonTypes
import MujinClient.RoundTrip
import MujinClient.TargetIndependence
import MujinClient.ZmqClient
import MujinClient.JsonReader
import MujinClient.TaskState
import MujinClient.CommandDocument
import MujinClient.ExecuteCommand
import MujinClient.Heartbeat
import MujinClient.PublishedState
import MujinClient.JsonWriter
import MujinClient.CommandText
import MujinClient.Commands
import MujinClient.Noninterference
import MujinClient.JsonFaithful
import MujinClient.Program
import MujinClient.HttpReply
import MujinClient.CurlHandle
import MujinClient.ClientRequests
import MujinClient.ClientOperations
import MujinClient.RequestLedger
import MujinClient.ClientDiscipline
import MujinClient.ClientRuns
import MujinClient.ClientThreads
import MujinClient.ClientHeaders
import MujinClient.GraphSubscriptions
import MujinClient.ClientEndpoint
import MujinClient.SubscriptionStream
import MujinClient.SubscriptionRouting
import MujinClient.Grabs
import MujinClient.JobStatus
import MujinClient.HostNames
import MujinClient.SentRequests
import MujinClient.FileTransfers
import MujinClient.WrittenJson
import MujinClient.TaskInitialization
import MujinClient.SubscriptionLoss
import MujinClient.SplicedStrings
import MujinClient.ResourceRequests
import MujinClient.RequestBodies
import MujinClient.SearchAndReplace
import MujinClient.Timestamps
import MujinClient.PathSegments
import MujinClient.ClientInfo
import MujinClient.PortTexts
import MujinClient.VersionProfile
import MujinClient.MessageState
import MujinClient.Accumulation
import MujinClient.ReplyParsers
import MujinClient.InstObjectReplies
import MujinClient.EnvironmentStates
import MujinClient.StringLeaves
import MujinClient.EscapedLines
import MujinClient.TaskParameters
import MujinClient.TaskParameterRoundTrip
import MujinClient.SavedState
import MujinClient.SubscriptionFailures
import MujinClient.SlaveRequestIds
import MujinClient.GrabBodies
import MujinClient.Plans
import MujinClient.TreeUploads
import MujinClient.UploadedTrees
import MujinClient.MarkedTexts
import MujinClient.WincapsUploads
import MujinClient.ZmqServer
import MujinClient.KeyedMembers
import MujinClient.ObjectResources
import MujinClient.GeometryLookup
import MujinClient.InstObjects
import MujinClient.JsonFiles
import MujinClient.DerivedUris
import MujinClient.RequestPlaces
import MujinClient.RequestUrls
import MujinClient.PointClouds
import MujinClient.GraphQueryResults
import MujinClient.Interpreters
import MujinClient.ServedRequests
import MujinClient.StagedWrites
import MujinClient.ObjectFlags
import MujinClient.Attempts
import MujinClient.Registries
import MujinClient.Rounding
import MujinClient.PolledCommands
import MujinClient.CommandTimeouts
import MujinClient.RemoteCalls
import MujinClient.PrimaryKeys
