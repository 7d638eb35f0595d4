import Sortie.Main
import Sortie.Task.Drill
import Sortie.Plan.Listed
import Sortie.Proofs.Text.Trim
import Sortie.Proofs.Command.Tokens
import Sortie.Proofs.Roster.Catalog
import Sortie.Proofs.Roster.Moves
import Sortie.Proofs.Roster.Access
import Sortie.Proofs.Roster.Replay
import Sortie.Proofs.Mission.Stages
import Sortie.Proofs.Mission.Postings
import Sortie.Proofs.Mission.Refusal
import Sortie.Proofs.Mission.History
import Sortie.Proofs.Mission.Lifecycle
import Sortie.Proofs.Mission.Reports
import Sortie.Proofs.Mission.Fallback
import Sortie.Proofs.Mission.Protocol
import Sortie.Proofs.Mission.Preemption
import Sortie.Proofs.Mission.StackShape
import Sortie.Proofs.Mission.Targeting
import Sortie.Proofs.Flight.Mailbox
import Sortie.Proofs.Command.Grammar
import Sortie.Proofs.Mission.Conservation
import Sortie.Proofs.Mission.Rounds
import Sortie.Proofs.Mission.Beyond
import Sortie.Proofs.Mission.Independence
import Sortie.Proofs.Mission.Repetition
import Sortie.Proofs.Mission.Neighbours
import Sortie.Proofs.Flight.Finiteness
import Sortie.Proofs.Json.Numeral
import Sortie.Proofs.Json.Scalar
import Sortie.Proofs.Json.Reading
import Sortie.Proofs.Plan.RoundTrip
import Sortie.Proofs.Mission.Writing
import Sortie.Proofs.Mission.Resumption
import Sortie.Proofs.Task.Stint
import Sortie.Proofs.Mission.Retirement
import Sortie.Proofs.Mission.Handles
import Sortie.Proofs.Json.Distinct
import Sortie.Proofs.Json.Flaws
import Sortie.Proofs.Plan.Shape
import Sortie.Proofs.Plan.Agreement
import Sortie.Proofs.Plan.Thoroughness
import Sortie.Proofs.Plan.Formats
import Sortie.Proofs.Mission.Muster
import Sortie.Proofs.Plan.Contents
import Sortie.Proofs.Plan.Records
import Sortie.Proofs.Decimal.Single
import Sortie.Proofs.CommandLine.Grammar
import Sortie.Proofs.CommandLine.Period
