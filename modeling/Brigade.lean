import Brigade.Main
import Brigade.Json.Canonical
import Brigade.Rehearsal
import Brigade.Proofs.Approval
import Brigade.Proofs.Repository
import Brigade.Proofs.NaturalKeys
import Brigade.Proofs.GoalSetWriter
import Brigade.Proofs.Interleaving
import Brigade.Proofs.Exchanges
import Brigade.Proofs.ConcurrentWriters
import Brigade.Proofs.OrderSheet
import Brigade.Proofs.Listing
import Brigade.Proofs.Solo
import Brigade.Proofs.SingleWrite
import Brigade.Proofs.Additions
import Brigade.Proofs.TextForms
import Brigade.Proofs.Stamps
import Brigade.Proofs.GoalAnswers
import Brigade.Proofs.GoalOwners
import Brigade.Proofs.OrderNumbers
import Brigade.Proofs.OrderChange
import Brigade.Proofs.OrderLife
import Brigade.Proofs.Paths
import Brigade.Proofs.PositivePrices
import Brigade.Proofs.Tries
import Brigade.Proofs.Histories
import Brigade.Proofs.Floor
import Brigade.Proofs.OptimisticLocking
import Brigade.Proofs.Replay
import Brigade.Proofs.SerialFloor
import Brigade.Proofs.Reservations
import Brigade.Proofs.OrderFaults
import Brigade.Proofs.GoalSetSteps
import Brigade.Proofs.OverweightSets
import Brigade.Proofs.JsonText
import Brigade.Proofs.ReadBack
import Brigade.Proofs.DecimalText
import Brigade.Proofs.TimeText
import Brigade.Proofs.Formats
import Brigade.Proofs.RoundTrip
import Brigade.Proofs.ProgressHistory
import Brigade.Proofs.RacingAdds
import Brigade.Proofs.SiftedReaders
import Brigade.Proofs.GoalRanges
import Brigade.Proofs.EventLog
import Brigade.Proofs.RetryEnds
import Brigade.Proofs.ExactTotals
import Brigade.Proofs.GoalRedefinition
import Brigade.Proofs.PlacedOrders
import Brigade.Proofs.LiteralSearch
import Brigade.Proofs.ListQueries
import Brigade.Proofs.WeightBounds
import Brigade.Proofs.GuardedMoves
import Brigade.Proofs.ComplaintSummary
import Brigade.Proofs.CommandCounts
import Brigade.Proofs.ConfigLayers
import Brigade.Proofs.SettingFields
import Brigade.Proofs.LayeredSettings
import Brigade.Proofs.SettingsLine
import Brigade.Proofs.RetrySetting
