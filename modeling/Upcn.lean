import Upcn.Store.Refinement
import Upcn.Router.Transmission
import Upcn.Bundle
import Upcn.Processor.State
import Upcn.Processor.Custody
import Upcn.Processor.Forward
import Upcn.Processor.Reassembly
import Upcn.Processor.Handlers
import Upcn.Processor.Effects
import Upcn.Processor.Fate
import Upcn.Processor.Assembly
import Upcn.Processor.Settlement
import Upcn.Router.Admission
import Upcn.Router.Ownership
import Upcn.Router.Operations
import Upcn.Router.Concurrency
import Upcn.Router.Index
import Upcn.Router.Coherence
import Upcn.Router.Progress
import Upcn.Router.Task
import Upcn.Bundle6.Parser
import Upcn.Bundle6.Stream
import Upcn.Bundle6.Sdnv
import Upcn.Bundle6.Serializer
import Upcn.Bundle6.Feed
import Upcn.Bundle6.Header
import Upcn.Bundle6.Dictionary
import Upcn.Aap.Message
import Upcn.Aap.Parser
import Upcn.Aap.RoundTrip
import Upcn.Aap.Agent
import Upcn.Bundle6.Size
import Upcn.Bundle7.Serializer
import Upcn.Bundle7.Size
import Upcn.Tcpclv3.Link
import Upcn.Tcpclv3.Segments
import Upcn.Bundle6.RoundTrip
import Upcn.Lib.Framing
import Upcn.Mtcp.Link
import Upcn.Mtcp.FrameBound
import Upcn.Router.Queueing
import Upcn.Router.Rescheduling
import Upcn.Router.Removal
import Upcn.Processor.Completeness
import Upcn.Processor.CustodySignals
import Upcn.Processor.CustodyList
import Upcn.Bundle6.Reports
import Upcn.Lib.Ring
import Upcn.Platform.SimpleQueue
import Upcn.Platform.QueueConcurrency
import Upcn.Contact.Manager
import Upcn.Contact.InProgress
import Upcn.Contact.Expiry
import Upcn.Platform.Simplehtab
import Upcn.Tcpclv3.Connections
import Upcn.Tcpclv3.ConnectionTable
import Upcn.Config.Parser
import Upcn.Config.Grammar
import Upcn.Config.Language
import Upcn.Config.Commands
import Upcn.Processor.AdminBundles
import Upcn.Router.Fragmenter
import Upcn.Router.NoCascade
import Upcn.Processor.CustodyMatching
import Upcn.Processor.ReceivedBlocks
import Upcn.Processor.StatusReports
import Upcn.Processor.LocalDelivery
import Upcn.Router.FragmentPlan
import Upcn.Lib.CborItems
import Upcn.Processor.HopLimit
import Upcn.Bundle7.Fragment
import Upcn.Bundle6.Fragment
import Upcn.Bundle7.EidParser
import Upcn.Bundle7.Reports
import Upcn.Router.RouteRollback
import Upcn.Router.FragmentRollback
import Upcn.Node.Lists
import Upcn.Node.Verify
import Upcn.Node.Difference
import Upcn.Node.Union
import Upcn.Bundle.Duplicate
import Upcn.Bundle.Serialize
import Upcn.Bundle6.HeaderLength
import Upcn.Bundle7.EidRoundTrip
import Upcn.Bundle6.Quota
import Upcn.Bundle7.Parser
import Upcn.Bundle7.EidOwnership
import Upcn.Cla.RxTask
import Upcn.Tcpspp.Link
import Upcn.Cla.Progress
import Upcn.Crc
import Upcn.Store.Allocation
import Upcn.Node.Capacity
import Upcn.Node.CurrentCapacity
import Upcn.Contact.WakeUp
import Upcn.Bundle.Expiration
import Upcn.Spp.Timecode
import Upcn.Spp.TimecodeBounds
import Upcn.Spp.Packet
import Upcn.Spp.DataLength
import Upcn.Spp.TimecodeRoundTrip
import Upcn.Spp.RoundTrip
import Upcn.Router.Reuse
import Upcn.Bundle6.SdnvCodec
import Upcn.Bundle7.EidSize
import Upcn.Bundle6.DictionaryLayout
import Upcn.Processor.KnownBundles
import Upcn.EidList
import Upcn.Node.Ownership
import Upcn.Platform.HtabChains
import Upcn.Cla.Delivery
import Upcn.Lib.ReaderEnd
import Upcn.Cla.Content
import Upcn.Bundle6.Content
import Upcn.Tcpclv3.Transfer
import Upcn.Mtcp.Transfer
import Upcn.Tcpspp.Transfer
import Upcn.Cla.Transfer
import Upcn.Aap.Agents
import Upcn.Aap.Registration
import Upcn.Aap.Directory
import Upcn.Aap.Applications
import Upcn.Bundle7.Reading
import Upcn.Bundle7.ReadEid
import Upcn.Bundle7.ReadPath
import Upcn.Bundle7.ReadStages
import Upcn.Bundle7.RoundTrip
import Upcn.Bundle7.Received
import Upcn.Processor.Notices
import Upcn.Router.Refusal
import Upcn.Processor.FragmentDelivery
