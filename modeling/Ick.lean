import Ick.Aliases
import Ick.Boot
import Ick.ChannelData
import Ick.ChannelElements
import Ick.ChannelLink
import Ick.ClassJoint
import Ick.CmdTarget
import Ick.Configure
import Ick.ConnectionPool
import Ick.ControlConfig
import Ick.ControlObject
import Ick.Converter
import Ick.DataBase
import Ick.DeadBand
import Ick.Delimited
import Ick.Delivery
import Ick.DriverBinding
import Ick.DriverPolling
import Ick.FileListing
import Ick.FileReaders
import Ick.Formatted
import Ick.HardwareChannels
import Ick.History
import Ick.HttpClient
import Ick.HttpServer
import Ick.InputStream
import Ick.Isolation
import Ick.LameHelper
import Ick.LifeCycle
import Ick.Linked
import Ick.LockPaths
import Ick.LockTrace
import Ick.LogFiles
import Ick.LogHistory
import Ick.LogPipeline
import Ick.LogQueue
import Ick.LogRemote
import Ick.LogStream
import Ick.Mirror
import Ick.Mutex
import Ick.NameBuffer
import Ick.NewSubscriber
import Ick.NodeListing
import Ick.NodeTree
import Ick.Numbering
import Ick.ObjectManager
import Ick.Occurrences
import Ick.PollThread
import Ick.Polling
import Ick.PoolDestructor
import Ick.PoolSessions
import Ick.Protocol
import Ick.Publish
import Ick.PublisherTable
import Ick.Quiescence
import Ick.Reach
import Ick.Reconnect
import Ick.Registry
import Ick.Replace
import Ick.RoundTrips
import Ick.SendQueue
import Ick.ServiceBinding
import Ick.ServiceCall
import Ick.ServiceClient
import Ick.ServiceDeclaration
import Ick.ServiceLink
import Ick.ServiceSocket
import Ick.Simulation
import Ick.Socket
import Ick.SplitFields
import Ick.SubscribeLink
import Ick.SubscribeRequests
import Ick.SubscriberClient
import Ick.SubscriberFraming
import Ick.SubscriberManager
import Ick.SubscriberServer
import Ick.Subscribing
import Ick.Sweep
import Ick.TimeConverter
import Ick.Timer
import Ick.Trimming
import Ick.Unicode
import Ick.Uninitialised
import Ick.UnknownChannels
import Ick.UpdateFrame
import Ick.UrlEncoding
import Ick.Utf8Reader
import Ick.WireReader
import Ick.XmlParser
