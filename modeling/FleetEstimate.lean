import FleetEstimate.Normal.Multiplier
import FleetEstimate.Totals
import FleetEstimate.Decimal.Written
import FleetEstimate.Decimal.Read
import FleetEstimate.Text.Quoted
import FleetEstimate.Text.Bytes.Lemmas
import FleetEstimate.Real64.Lemmas
import FleetEstimate.Text.Blank
import FleetEstimate.Random.Normal
import FleetEstimate.Experiment.UncodedChannel
import FleetEstimate.Digest
import FleetEstimate.Target
import FleetEstimate.Report
import FleetEstimate.Interrupt
import FleetEstimate.Wire.Message
import FleetEstimate.Wire.Stream
import FleetEstimate.Wire.Registry
import FleetEstimate.WorkResult
import FleetEstimate.Settings
import FleetEstimate.Estimator
import FleetEstimate.Fleet.Roster
import FleetEstimate.Fleet.Events
import FleetEstimate.Coordinator
import FleetEstimate.Worker
import FleetEstimate.Worker.FarEnd
import FleetEstimate.Experiment.Replay
import FleetEstimate.Recorder
import FleetEstimate.Rehearsal.Stage
import FleetEstimate.Rehearsal.Company
import FleetEstimate.Main
import FleetEstimate.Proofs.Fleet.Outcome
import FleetEstimate.Proofs.Real64.Order
import FleetEstimate.Proofs.Real64.Counts
import FleetEstimate.Proofs.Estimation.Tolerance
import FleetEstimate.Proofs.Fleet.Handling
import FleetEstimate.Proofs.Estimation.Convergence
import FleetEstimate.Proofs.Fleet.Operations
import FleetEstimate.Proofs.Fleet.Tasks
import FleetEstimate.Proofs.Fleet.Waiting
import FleetEstimate.Proofs.Fleet.Settlement
import FleetEstimate.Proofs.Fleet.Passes
import FleetEstimate.Proofs.Fleet.Accounts
import FleetEstimate.Proofs.Fleet.Executions
import FleetEstimate.Proofs.Fleet.Freshness
import FleetEstimate.Proofs.Worker.Endings
import FleetEstimate.Proofs.Worker.Agreement
import FleetEstimate.Proofs.Company.Passes
import FleetEstimate.Proofs.Company.Runs
import FleetEstimate.Proofs.Wire.RoundTrip
import FleetEstimate.Proofs.Wire.Acceptance
import FleetEstimate.Proofs.Wire.Shortage
import FleetEstimate.Proofs.Fleet.Returns
import FleetEstimate.Proofs.Estimation.Stopping
import FleetEstimate.Proofs.Estimation.Splitting
import FleetEstimate.Proofs.Estimation.Sweeps
import FleetEstimate.Proofs.Estimation.Variance
import FleetEstimate.Proofs.Estimation.Unrounded
import FleetEstimate.Proofs.Estimation.Spread
import FleetEstimate.Proofs.Estimation.InPlace
import FleetEstimate.Proofs.Estimation.Calls
import FleetEstimate.Proofs.Worker.Dismissal
import FleetEstimate.Proofs.Fleet.Confirmation
import FleetEstimate.Proofs.Fleet.Dismissal
import FleetEstimate.Proofs.Wire.Refusals
import FleetEstimate.Proofs.Worker.Faults
import FleetEstimate.Proofs.Fleet.Order
import FleetEstimate.Proofs.Fleet.Fates
import FleetEstimate.Proofs.Fleet.Rounds
import FleetEstimate.Proofs.Decimal.Numerals
import FleetEstimate.Proofs.Settings.Endpoints
import FleetEstimate.Proofs.Wire.Readiness
import FleetEstimate.Proofs.Wire.Talks
import FleetEstimate.Proofs.Fleet.Reclassification
import FleetEstimate.Proofs.Fleet.Chronicles
import FleetEstimate.Proofs.Fleet.Records
import FleetEstimate.Proofs.Fleet.Identities
import FleetEstimate.Proofs.Fleet.BusyTimes
import FleetEstimate.Proofs.Failure.Crossings
import FleetEstimate.Proofs.Channel.Descriptions
import FleetEstimate.Proofs.Channel.Histories
import FleetEstimate.Proofs.Settings.Environment
import FleetEstimate.Proofs.Wire.Digests
import FleetEstimate.Proofs.Normal.Search
import FleetEstimate.Proofs.Channel.Errors
