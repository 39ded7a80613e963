import ArbitrageEngine.Json.Parser
import ArbitrageEngine.Core.OrderBook
import ArbitrageEngine.Core.OrderBookReference
import ArbitrageEngine.Coinbase.L2Parser
import ArbitrageEngine.Core.SequenceTracker
import ArbitrageEngine.Recording.RawRecordingQueue
import ArbitrageEngine.Coinbase.MessageHandler
import ArbitrageEngine.Coinbase.ConnectionManager
import ArbitrageEngine.Coinbase.Session
import ArbitrageEngine.Coinbase.Coherence
import ArbitrageEngine.Coinbase.Tokens
import ArbitrageEngine.Coinbase.Recovery
import ArbitrageEngine.Coinbase.Continuity
import ArbitrageEngine.Base.Weave
import ArbitrageEngine.Session.CoinbaseReplay
import ArbitrageEngine.Session.CoinbaseHistory
import ArbitrageEngine.Session.CoinbaseAgreement
import ArbitrageEngine.Kraken.ChecksumBook
import ArbitrageEngine.Kraken.BookProcessor
import ArbitrageEngine.Kraken.BookAgreement
import ArbitrageEngine.Kraken.SnapshotFold
import ArbitrageEngine.Base.Checked
import ArbitrageEngine.Core.TimestampExact
import ArbitrageEngine.Coinbase.MessagePipeline
import ArbitrageEngine.Session.ConnectionIsolation
import ArbitrageEngine.Pipeline.KrakenMarket
import ArbitrageEngine.Session.KrakenAgreement
import ArbitrageEngine.Pipeline.KrakenClients
import ArbitrageEngine.Pipeline.RawWriter
import ArbitrageEngine.Pipeline.Runtime
import ArbitrageEngine.Pipeline.Programs
import ArbitrageEngine.Pipeline.Shutdown
import ArbitrageEngine.Pipeline.Accounting
import ArbitrageEngine.Pipeline.LiveAccounting
import ArbitrageEngine.Json.Utf8
import ArbitrageEngine.Json.Dump
import ArbitrageEngine.Json.RoundTrip
import ArbitrageEngine.Recording.RawEventReader
import ArbitrageEngine.Core.OrderBookRuns
import ArbitrageEngine.Recording.QueueRuns
import ArbitrageEngine.Kraken.DecimalTokens
import ArbitrageEngine.Kraken.ApplyErrors
import ArbitrageEngine.Coinbase.HandlerFrame
import ArbitrageEngine.Session.LifecycleMerge
import ArbitrageEngine.Coinbase.Backoff
import ArbitrageEngine.Coinbase.TimeAccounting
import ArbitrageEngine.Pipeline.Display
import ArbitrageEngine.Pipeline.KrakenAccounting
import ArbitrageEngine.Session.Finalization
import ArbitrageEngine.Session.Completeness
import ArbitrageEngine.Json.Grammar
import ArbitrageEngine.Kraken.ExactJson
import ArbitrageEngine.Coinbase.ErrorTexts
import ArbitrageEngine.Kraken.ErrorTexts
import ArbitrageEngine.Pipeline.Reasons
import ArbitrageEngine.Session.Publication
import ArbitrageEngine.Session.Replay
import ArbitrageEngine.Session.RecordOrder
import ArbitrageEngine.Base.FileSystem
import ArbitrageEngine.Kraken.Metrics
import ArbitrageEngine.Pipeline.KrakenProtocol
import ArbitrageEngine.Pipeline.LiveClients
import ArbitrageEngine.Session.CrashRecovery
import ArbitrageEngine.Session.KrakenCapture
import ArbitrageEngine.Session.Publisher
import ArbitrageEngine.Session.PublisherRuns
