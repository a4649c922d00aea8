import NetWorth.Api.BodyCheck
import NetWorth.Api.Server
import NetWorth.Json.Reader
import NetWorth.Logging.Setup
import NetWorth.Proofs.History.Freshness
import NetWorth.Proofs.Timeline.Quiet
import NetWorth.Proofs.Valuation.LaterObservations
import NetWorth.Proofs.Valuation.LaterSnapshots
import NetWorth.Proofs.Market.StoredRates
import NetWorth.Proofs.Market.WriteLog
import NetWorth.Proofs.Valuation.Spelling
import NetWorth.Proofs.Valuation.Failures
import NetWorth.Proofs.Decimal.CanonicalForm
import NetWorth.Proofs.Decimal.Grammar
import NetWorth.Proofs.Valuation.ZeroBackfill
import NetWorth.Proofs.Calendar.Fields
import NetWorth.Proofs.Timeline.Buckets
import NetWorth.Proofs.Timeline.Thinning
import NetWorth.Proofs.History.Slices
import NetWorth.Proofs.Timeline.CollectorRuns
import NetWorth.Proofs.Calendar.DateText
import NetWorth.Proofs.Calendar.DateReading
import NetWorth.Proofs.Calendar.InstantText
import NetWorth.Proofs.Api.Faithful
import NetWorth.Proofs.Api.RoundTrip
import NetWorth.Proofs.History.Summaries
import NetWorth.Proofs.Valuation.BalanceChoice
import NetWorth.Proofs.Valuation.Partition
import NetWorth.Proofs.Timeline.CalendarWindows
import NetWorth.Proofs.Timeline.Coarsening
import NetWorth.Proofs.Timeline.DayOrder
import NetWorth.Proofs.Json.Texts
import NetWorth.Proofs.Timeline.TriggerText
import NetWorth.Proofs.Timeline.GranularityWords
import NetWorth.Proofs.History.Rejections
import NetWorth.Proofs.Logging.Setups
import NetWorth.Proofs.Asset.FixedPoints
import NetWorth.Proofs.Api.Blame
import NetWorth.Proofs.Settings
