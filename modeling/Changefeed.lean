import Changefeed.CommandLine.FileTree
import Changefeed.Consumer
import Changefeed.Main
import Changefeed.Proofs.Delivery
import Changefeed.Proofs.FilterMeaning
import Changefeed.Proofs.Relaying
import Changefeed.Proofs.Pooling
import Changefeed.Proofs.Loading
import Changefeed.Proofs.Replaying
import Changefeed.Proofs.Conservation
import Changefeed.Proofs.Cancellation
import Changefeed.Proofs.SharedRelay
import Changefeed.Proofs.Numbering
import Changefeed.Proofs.Offering
import Changefeed.Proofs.Extent
import Changefeed.Proofs.ReplayRuns
import Changefeed.Proofs.Interruption
import Changefeed.Proofs.Refusal
import Changefeed.Proofs.Backpressure
import Changefeed.Proofs.Rounding
import Changefeed.Proofs.Numerals
import Changefeed.Proofs.DocumentText
import Changefeed.Proofs.ValueDocuments
import Changefeed.Proofs.Instants
import Changefeed.Proofs.Identifiers
import Changefeed.Proofs.Payloads
import Changefeed.Proofs.Emission
import Changefeed.Proofs.Sessions
import Changefeed.Proofs.ArrayOutput
import Changefeed.Proofs.CaseClasses
import Changefeed.Proofs.RowProjection
import Changefeed.Proofs.ActionNames
import Changefeed.Proofs.Respelling
import Changefeed.Proofs.ScalarTexts
import Changefeed.Proofs.TimeForms
import Changefeed.Proofs.ScalarValues
import Changefeed.Proofs.TypedValues
import Changefeed.Proofs.Stability
import Changefeed.Proofs.ValueReading
import Changefeed.Proofs.ValueWriting
import Changefeed.Proofs.CanonicalText
import Changefeed.Proofs.DayCount
import Changefeed.Proofs.ZonedTimes
import Changefeed.Proofs.References
import Changefeed.Proofs.LiveRules
import Changefeed.Proofs.PayloadText
import Changefeed.Proofs.LineWriting
import Changefeed.Proofs.RelayedLines
import Changefeed.Proofs.RecordedRows
import Changefeed.Proofs.Summaries
