import Emwin.Lib.StepLoop
import Emwin.Lib.Search
import Emwin.Lib.Utf8
import Emwin.Lib.Text
import Emwin.Lib.Maps
import Emwin.Lib.Transition
import Emwin.Lib.Saturating
import Emwin.Qbt.Model
import Emwin.Qbt.Header
import Emwin.Qbt.ServerList
import Emwin.Qbt.Codec
import Emwin.Qbt.DecoderInvariant
import Emwin.Qbt.Chunking
import Emwin.Qbt.SelfSync
import Emwin.Qbt.ServerListWire
import Emwin.Qbt.Assembler
import Emwin.Qbt.FileIntegrity
import Emwin.Qbt.Scanner
import Emwin.Relay.Upstream
import Emwin.Relay.Session
import Emwin.Relay.Invariant
import Emwin.Relay.Accounting
import Emwin.Relay.Passthrough
import Emwin.WxWire.ReadBuffer
import Emwin.WxWire.Stanza
import Emwin.WxWire.XmlTokens
import Emwin.WxWire.XmlLexer
import Emwin.WxWire.Framing
import Emwin.Persist.Queue
import Emwin.Persist.Conservation
import Emwin.Client.ServerListManager
import Emwin.Client.ConnectionLoop
import Emwin.Client.Failover
import Emwin.Incident.Model
import Emwin.Incident.Projection
import Emwin.Incident.ArrivalOrder
import Emwin.Alert.Model
import Emwin.Incident.Outbox
import Emwin.Lib.Keyset
import Emwin.Lib.SqlText
import Emwin.Lib.SqlParser
import Emwin.Lib.SqlClauses
import Emwin.Lib.SqlEval
import Emwin.Lib.SqlKeyset
import Emwin.Query.Model
import Emwin.Query.Filters
import Emwin.Query.Paging
import Emwin.Query.Products
import Emwin.Query.CompletePages
import Emwin.Query.Features
import Emwin.Query.OpenParenthesis
import Emwin.Alert.Delivery
import Emwin.Alert.DeliveryProtocol
import Emwin.Alert.Store
import Emwin.Alert.Workers
import Emwin.Alert.Uniqueness
import Emwin.Alert.Cooldown
import Emwin.Alert.Pass
import Emwin.Alert.Isolation
import Emwin.Live.Drain
import Emwin.Lib.Calendar
import Emwin.Lib.Chrono
import Emwin.Live.StoragePlan
import Emwin.Live.ArchivedBlobs
import Emwin.Lib.Lines
import Emwin.Lib.Slices
import Emwin.Parser.Support
import Emwin.Parser.Ugc
import Emwin.Parser.UgcSlices
import Emwin.Parser.UgcBlock
import Emwin.Parser.UgcRoundTrip
import Emwin.Parser.LatLon
import Emwin.Parser.TimeMotLoc
import Emwin.Parser.MarkerBlocks
import Emwin.Parser.BlankLines
import Emwin.Parser.TimeMotLocSlices
import Emwin.Parser.SlashCodes
import Emwin.Parser.WindHail
import Emwin.Parser.VtecEvents
import Emwin.Parser.Segmentation
import Emwin.Lib.SqlRows
import Emwin.Parser.ProductBody
import Emwin.Persist.BodyRows
import Emwin.Live.FileFilter
import Emwin.Query.RowFilters
import Emwin.Query.ArchivedRows
import Emwin.Live.AreaAgreement
import Emwin.Live.CriteriaAgreement
import Emwin.Lib.Ascii
import Emwin.Parser.Aviation
import Emwin.Parser.Metar
import Emwin.Parser.MetarSlices
import Emwin.Parser.Taf
import Emwin.Parser.TafSlices
import Emwin.Parser.Fd
import Emwin.Parser.FdSlices
import Emwin.Parser.Mos
import Emwin.Lib.ClockHours
import Emwin.Parser.MosTimes
import Emwin.Client.Backpressure
import Emwin.Client.ServerListUpdate
import Emwin.Lib.RingWindow
import Emwin.Relay.QualityWindow
import Emwin.Relay.QualityMonitor
import Emwin.Relay.QualityRatio
import Emwin.Relay.AuthParser
import Emwin.Relay.LogonRoundTrip
import Emwin.Relay.ScannerChunking
import Emwin.Api.ProductStream
import Emwin.Api.IncidentStream
import Emwin.Lib.Recency
import Emwin.Live.RetainedFiles
import Emwin.Lib.CivilDays
import Emwin.Parser.SlashCodeLines
import Emwin.Parser.PartialTimes
import Emwin.Lib.PaddedDigits
import Emwin.Parser.VtecRoundTrip
import Emwin.Parser.CoordinateDialects
import Emwin.Parser.LatLonRoundTrip
import Emwin.Parser.LatLonRings
import Emwin.Live.SidecarPaths
import Emwin.FileEvents.Bodies
import Emwin.Lib.Glob
import Emwin.FileEvents.Filter
import Emwin.FileEvents.Criteria
import Emwin.FileEvents.CriteriaKept
import Emwin.FileEvents.UnreadableCriteria
import Emwin.Incident.IncidentTimes
import Emwin.Parser.MosSlices
import Emwin.Parser.BulletinPanics
import Emwin.Lib.Columns
import Emwin.Parser.MosColumns
import Emwin.Lib.Wrapping
import Emwin.Parser.TafGroups
import Emwin.Parser.TafRoundTrip
import Emwin.Parser.TafProbabilities
import Emwin.Parser.Visibility
import Emwin.FileEvents.Wildcards
import Emwin.Lib.SqlLike
import Emwin.Live.FilenameAgreement
import Emwin.Lib.Segments
import Emwin.Lib.EvenOdd
import Emwin.FileEvents.ExactPolygons
import Emwin.FileEvents.BoxSearch
import Emwin.Parser.PolygonRange
import Emwin.Parser.GlobeRange
import Emwin.Query.ArchiveRequests
import Emwin.Query.Aggregates
import Emwin.Query.ExpectedSizes
import Emwin.Lib.Layout
import Emwin.Parser.FdRoundTrip
import Emwin.Parser.Header
import Emwin.Parser.OutlookPlaces
import Emwin.Parser.TransportWrapping
import Emwin.Parser.SpcOutlook
import Emwin.Lib.Matches
import Emwin.Parser.WindHailPairs
import Emwin.Parser.WindHailLines
import Emwin.Parser.WindHailTags
import Emwin.Parser.Cap
import Emwin.Parser.CapSlices
import Emwin.Lib.Replace
import Emwin.Qbt.Transmission
import Emwin.Qbt.Delivery
import Emwin.WxWire.Codec
import Emwin.WxWire.NoaaportText
import Emwin.Client.Runtime
import Emwin.Client.RunHistory
import Emwin.Client.RunAccounts
import Emwin.WxWire.Runtime
import Emwin.WxWire.RunHistory
import Emwin.Ingest.Adapters
import Emwin.Lib.Tables
import Emwin.Lib.Transaction
import Emwin.Persist.ProductStore
import Emwin.Persist.StoredProducts
import Emwin.Persist.StoreRuns
import Emwin.Lib.Suffixes
import Emwin.Lib.Rounds
import Emwin.Parser.HvtecRoundTrip
import Emwin.Parser.BodyPlan
import Emwin.Pipeline.Envelope
import Emwin.Pipeline.Candidate
import Emwin.Pipeline.Classify
import Emwin.Pipeline.Assemble
import Emwin.Pipeline.Enrichment
