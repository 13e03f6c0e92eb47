import HftAlgorithms.Lib.Assured
import HftAlgorithms.Lib.AverageCost
import HftAlgorithms.Lib.Base64
import HftAlgorithms.Lib.ChunkedStream
import HftAlgorithms.Lib.DecimalText
import HftAlgorithms.Lib.FiniteMap
import HftAlgorithms.Lib.FixedWidth
import HftAlgorithms.Lib.FixedWindow
import HftAlgorithms.Lib.HttpText
import HftAlgorithms.Lib.HttpRequest
import HftAlgorithms.Lib.Interleaving
import HftAlgorithms.Lib.JsonText
import HftAlgorithms.Lib.LittleEndian
import HftAlgorithms.Lib.NumberStream
import HftAlgorithms.Lib.OverlapLog
import HftAlgorithms.Lib.StateMachine
import HftAlgorithms.Lib.StreamScan
import HftAlgorithms.Lib.TextSearch
import HftAlgorithms.Lib.TimedLoop
import HftAlgorithms.Lib.Walk
import HftAlgorithms.Lib.WrappingCounter
import HftAlgorithms.Lib.WriteLog
import HftAlgorithms.MarketData.Messages
import HftAlgorithms.MarketData.OrderBook
import HftAlgorithms.MarketData.Position
import HftAlgorithms.MarketData.SymbolManager
import HftAlgorithms.MarketData.Listener
import HftAlgorithms.MarketData.SnapshotBytes
import HftAlgorithms.MarketData.PacketBytes
import HftAlgorithms.MarketData.SharedManager
import HftAlgorithms.MarketData.PositionsFile
import HftAlgorithms.OrderEntry.OEClient
import HftAlgorithms.OrderEntry.ReadResponse
import HftAlgorithms.OrderEntry.ResponseBuffer
import HftAlgorithms.OrderEntry.OeMessages
import HftAlgorithms.OrderEntry.WireSession
import HftAlgorithms.Risk.Trackers
import HftAlgorithms.Risk.RiskManager
import HftAlgorithms.Risk.RiskSession
import HftAlgorithms.Arb.ETFArb
import HftAlgorithms.Arb.Redemption
import HftAlgorithms.Arb.MarketMaker
import HftAlgorithms.Arb.ArbLoop
import HftAlgorithms.Etf.ETFClient
import HftAlgorithms.Proofs.BookAggregation
import HftAlgorithms.Proofs.BotRuns
import HftAlgorithms.Proofs.CreationFills
import HftAlgorithms.Proofs.Liquidation
import HftAlgorithms.Proofs.ArbDesk
import HftAlgorithms.Proofs.OrderLife
import HftAlgorithms.Proofs.BookLevels
import HftAlgorithms.Proofs.RealizedPnl
import HftAlgorithms.Proofs.ResponseAttribution
import HftAlgorithms.Proofs.ResponseEffects
import HftAlgorithms.Proofs.Retelling
import HftAlgorithms.Proofs.Routing
import HftAlgorithms.Proofs.RunLogic
import HftAlgorithms.Proofs.ArbLimits
import HftAlgorithms.Proofs.CreationLimits
import HftAlgorithms.Proofs.RedemptionLimits
import HftAlgorithms.Proofs.LimitBreaches
import HftAlgorithms.Proofs.SnapshotReading
import HftAlgorithms.Proofs.CatchUp
import HftAlgorithms.Proofs.ListenerRoutes
import HftAlgorithms.Proofs.TopOfBook
import HftAlgorithms.Proofs.ArbSnapshots
import HftAlgorithms.Proofs.CycleLedger
import HftAlgorithms.Proofs.CreationCycle
import HftAlgorithms.Proofs.AbandonedLegs
import HftAlgorithms.Proofs.LateSnapshots
import HftAlgorithms.Proofs.RedemptionCycle
import HftAlgorithms.Proofs.ExposureLedger
import HftAlgorithms.Proofs.RiskChecks
import HftAlgorithms.Proofs.RiskSteps
import HftAlgorithms.Proofs.PositionSafety
import HftAlgorithms.Proofs.ShutdownLatch
import HftAlgorithms.Proofs.PnlFloor
import HftAlgorithms.Proofs.WorkingLimits
import HftAlgorithms.Proofs.OrderRegistrations
import HftAlgorithms.Proofs.FillAccounting
import HftAlgorithms.Proofs.BookInterleaving
import HftAlgorithms.Proofs.FillRouting
import HftAlgorithms.Proofs.MarketMakerLimit
import HftAlgorithms.Proofs.OrderIds
import HftAlgorithms.Proofs.OrderRate
import HftAlgorithms.Proofs.RedemptionFill
import HftAlgorithms.Proofs.RestartedPositions
import HftAlgorithms.Proofs.SlotAccesses
import HftAlgorithms.Proofs.SnapshotEncoding
import HftAlgorithms.Proofs.SnapshotPackets
import HftAlgorithms.Proofs.ResponseFraming
import HftAlgorithms.Proofs.ArbSizing
import HftAlgorithms.Proofs.Cancellations
import HftAlgorithms.Proofs.EntryOutcomes
import HftAlgorithms.Proofs.WrappedChecks
import HftAlgorithms.Proofs.EntryPrice
import HftAlgorithms.Proofs.FieldReads
import HftAlgorithms.Proofs.ReceivedBytes
import HftAlgorithms.Proofs.UndySales
import HftAlgorithms.Proofs.WaitDeadlines
import HftAlgorithms.Proofs.WaitRows
import HftAlgorithms.Proofs.UnwindFills
import HftAlgorithms.Proofs.PnlGuard
import HftAlgorithms.Proofs.BookSequence
import HftAlgorithms.Proofs.UnrealizedPnl
import HftAlgorithms.Proofs.ExposureSums
import HftAlgorithms.Proofs.ResponseBounds
import HftAlgorithms.Proofs.Base64Encoding
import HftAlgorithms.Proofs.EtfResponses
import HftAlgorithms.Proofs.HttpStatus
import HftAlgorithms.Proofs.PositionListing
import HftAlgorithms.Proofs.WireResponses
import HftAlgorithms.Proofs.WireRequests
import HftAlgorithms.Proofs.PacketEncoding
import HftAlgorithms.Proofs.FeedBytes
import HftAlgorithms.Proofs.SharedRuns
import HftAlgorithms.Proofs.SharedReads
import HftAlgorithms.Proofs.PositionsText
import HftAlgorithms.Proofs.RiskBooks
import HftAlgorithms.Proofs.SessionWaits
import HftAlgorithms.Proofs.KillSwitch
import HftAlgorithms.Proofs.LoopDiscipline
import HftAlgorithms.Proofs.ArbEntries
import HftAlgorithms.Proofs.VenueAgreement
import HftAlgorithms.Proofs.LiveOrder
import HftAlgorithms.Proofs.EtfRequests
