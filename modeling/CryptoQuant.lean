import CryptoQuant.Lib.Dict
import CryptoQuant.Lib.Run
import CryptoQuant.Lib.Deque
import CryptoQuant.Lib.Ledger
import CryptoQuant.Lib.Stats
import CryptoQuant.Lib.Text
import CryptoQuant.Lib.Shares
import CryptoQuant.Lib.Clamp
import CryptoQuant.Lib.WaterLevel
import CryptoQuant.Lib.Masking
import CryptoQuant.Lib.Causal
import CryptoQuant.Lib.Buckets
import CryptoQuant.Lib.Grouping
import CryptoQuant.Lib.Filling
import CryptoQuant.Lib.StableSort
import CryptoQuant.Lib.Merge
import CryptoQuant.Lib.Drawdown
import CryptoQuant.Lib.Tail
import CryptoQuant.Lib.Gram
import CryptoQuant.Lib.Pairs
import CryptoQuant.Lib.Parties
import CryptoQuant.Lib.HashChain
import CryptoQuant.Basic
import CryptoQuant.Events.Market
import CryptoQuant.Events.EventBus
import CryptoQuant.Events.Subscriptions
import CryptoQuant.Events.LowLatency
import CryptoQuant.Events.Accounting
import CryptoQuant.Events.Delivery
import CryptoQuant.Events.HandlerFailures
import CryptoQuant.Events.FlushStats
import CryptoQuant.Events.Gauges
import CryptoQuant.Events.Governance
import CryptoQuant.Events.GovernanceReport
import CryptoQuant.Oms.Oms
import CryptoQuant.Security.Redaction
import CryptoQuant.Compliance.Audit
import CryptoQuant.Compliance.Chain
import CryptoQuant.Compliance.Rules
import CryptoQuant.Security.NonInterference
import CryptoQuant.Monitoring.Alerts
import CryptoQuant.Monitoring.Performance
import CryptoQuant.Monitoring.PerformancePnl
import CryptoQuant.Monitoring.Observation
import CryptoQuant.Monitoring.Drawdown
import CryptoQuant.Risk.KillSwitch
import CryptoQuant.Risk.Manager
import CryptoQuant.Risk.Envelope
import CryptoQuant.Risk.DailyStop
import CryptoQuant.Risk.TrailingStop
import CryptoQuant.Risk.Resubmission
import CryptoQuant.Risk.AlertSink
import CryptoQuant.Risk.AlertEdges
import CryptoQuant.Risk.Degradation
import CryptoQuant.Risk.AutoHalt
import CryptoQuant.Risk.AnomalyEdges
import CryptoQuant.Risk.HaltOwnership
import CryptoQuant.Risk.SwitchHistory
import CryptoQuant.Execution.Paper
import CryptoQuant.Execution.PaperLedger
import CryptoQuant.Execution.Targeting
import CryptoQuant.Execution.FlipFlow
import CryptoQuant.Execution.BinanceGateway
import CryptoQuant.Execution.UserStream
import CryptoQuant.Execution.Reports
import CryptoQuant.Execution.Recovery
import CryptoQuant.Execution.Keepalive
import CryptoQuant.Execution.UserStreamBinance
import CryptoQuant.Execution.Reconnect
import CryptoQuant.Execution.MultiAccount.Model
import CryptoQuant.Execution.MultiAccount.Sends
import CryptoQuant.Execution.MultiAccount.Orders
import CryptoQuant.Execution.MultiAccount.AuditLog
import CryptoQuant.Strategy.MaCrossover
import CryptoQuant.Strategy.Optimizer
import CryptoQuant.Strategy.OptimizerPnl
import CryptoQuant.Portfolio.Optimizer
import CryptoQuant.Portfolio.MultiStrategy
import CryptoQuant.Portfolio.ReturnHistory
import CryptoQuant.Portfolio.Projection
import CryptoQuant.Portfolio.WeightBounds
import CryptoQuant.Portfolio.CombinedReturns
import CryptoQuant.Risk.PortfolioEngine
import CryptoQuant.Risk.TailRisk
import CryptoQuant.Risk.Correlation
import CryptoQuant.Portfolio.CapitalAllocator
import CryptoQuant.Portfolio.AllocationRounds
import CryptoQuant.Portfolio.CapitalConservation
import CryptoQuant.Portfolio.AllocationBounds
import CryptoQuant.Portfolio.AllocationLevels
import CryptoQuant.Strategy.Registry
import CryptoQuant.Strategy.RegistryVersions
import CryptoQuant.Strategy.RegistryFeatures
import CryptoQuant.Strategy.RegistryRoutes
import CryptoQuant.Strategy.VersionOrder
import CryptoQuant.Strategy.RegistryListing
import CryptoQuant.Strategy.Adaptive
import CryptoQuant.Strategy.AdaptiveSelection
import CryptoQuant.Strategy.AdaptiveFirst
import CryptoQuant.Strategy.AdaptiveSchedule
import CryptoQuant.Aggregation.BarAggregator
import CryptoQuant.Aggregation.Consistency
import CryptoQuant.Aggregation.Groups
import CryptoQuant.Aggregation.GapFilling
import CryptoQuant.Data.Sources
import CryptoQuant.Data.Composite
import CryptoQuant.Backtest.Indicators
import CryptoQuant.Indicators.Builtin
import CryptoQuant.Indicators.NoLookAhead
import CryptoQuant.Backtest.Simple
import CryptoQuant.Backtest.SimpleCurves
import CryptoQuant.Backtest.Replay
import CryptoQuant.Backtest.Robustness
import CryptoQuant.Backtest.ReplayAgreement
import CryptoQuant.Backtest.WinRate
import CryptoQuant.Backtest.Mvp11.Model
import CryptoQuant.Backtest.Mvp11.SetUp
import CryptoQuant.Backtest.Mvp11.Unconfigured
import CryptoQuant.Backtest.Mvp11.Phases
import CryptoQuant.Backtest.Mvp11.Cash
import CryptoQuant.Backtest.Mvp11.Book
import CryptoQuant.Backtest.Mvp11.Scenarios
import CryptoQuant.Backtest.Mvp11.Liquidation
import CryptoQuant.Backtest.Mvp11.Latency
import CryptoQuant.Backtest.Mvp11.Conservation
import CryptoQuant.Backtest.Mvp11.Doubles
import CryptoQuant.Backtest.Mvp11.LiquidationCount
import CryptoQuant.Backtest.Mvp11.Portfolio
import CryptoQuant.Backtest.EventMerge
import CryptoQuant.Indicators.RsiSymmetry
import CryptoQuant.Market.Microstructure
import CryptoQuant.Ops.HighAvailability
import CryptoQuant.Execution.ListenKey
import CryptoQuant.Data.CleanRows
import CryptoQuant.Data.ColumnOrder
import CryptoQuant.Data.FileSources
import CryptoQuant.Data.PassingRows
import CryptoQuant.Data.Windows
import CryptoQuant.Monitoring.OperationsDashboard
import CryptoQuant.Monitoring.SummaryOrder
import CryptoQuant.Backtest.WalkForward
import CryptoQuant.Indicators.RollingMean
import CryptoQuant.Execution.Live
import CryptoQuant.Execution.LiveOrders
import CryptoQuant.Execution.DryRun
import CryptoQuant.Execution.MultiAccount.SingleAccount
import CryptoQuant.Execution.MultiAccount.Protection
import CryptoQuant.Events.Messages
import CryptoQuant.Market.KlineClient
import CryptoQuant.Market.KlineRuns
import CryptoQuant.Execution.UserStreamService
import CryptoQuant.Portfolio.Rebalancing
import CryptoQuant.Portfolio.RebalanceSchedule
import CryptoQuant.Strategy.Regime
import CryptoQuant.Strategy.RegimeBounds
import CryptoQuant.Sentiment.Pipeline
import CryptoQuant.Sentiment.Scores
import CryptoQuant.Indicators.Registry
import CryptoQuant.Cli.ParseIndicator
import CryptoQuant.Risk.Exposure
import CryptoQuant.Backtest.RegimeSplit
import CryptoQuant.Events.Benchmark
import CryptoQuant.Events.BenchmarkReport
import CryptoQuant.Backtest.Mvp11.NoLookAhead
