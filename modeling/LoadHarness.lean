import LoadHarness.Main
import LoadHarness.Lifecycle.Latch
import LoadHarness.Rehearsal.Actions
import LoadHarness.Rehearsal.Pacing
import LoadHarness.Rehearsal.Report
import LoadHarness.Proofs.Retry.Release
import LoadHarness.Proofs.Retry.Attempts
import LoadHarness.Proofs.Lifecycle.Schedule
import LoadHarness.Proofs.Lifecycle.Standing
import LoadHarness.Proofs.Lifecycle.Sound
import LoadHarness.Proofs.Lifecycle.Calls
import LoadHarness.Proofs.Lifecycle.Status
import LoadHarness.Proofs.Lifecycle.Drain
import LoadHarness.Proofs.Pacing.Callers
import LoadHarness.Proofs.Pacing.Window
import LoadHarness.Proofs.Lifecycle.Withdrawal
import LoadHarness.Proofs.Lifecycle.Course
import LoadHarness.Proofs.Lifecycle.Faults
import LoadHarness.Proofs.Latency.Tally
import LoadHarness.Proofs.Lifecycle.Ledger
import LoadHarness.Proofs.Backend.Serving
import LoadHarness.Proofs.Backend.Accounts
import LoadHarness.Proofs.Lifecycle.Tended
import LoadHarness.Proofs.Container.Steps
import LoadHarness.Proofs.Container.Hosting
import LoadHarness.Proofs.Container.Keeping
import LoadHarness.Proofs.Container.Lifetime
import LoadHarness.Proofs.Lifecycle.Attendance
import LoadHarness.Proofs.Lifecycle.Succession
import LoadHarness.Proofs.Backend.Leaks
import LoadHarness.Proofs.Lifecycle.Abandonment
import LoadHarness.Proofs.Lifecycle.Preparation
import LoadHarness.Proofs.Container.Publishing
import LoadHarness.Proofs.Container.Listening
import LoadHarness.Proofs.Lifecycle.Batches
import LoadHarness.Proofs.Pacing.Metered
import LoadHarness.Proofs.Traffic.Shares
import LoadHarness.Proofs.Traffic.Words
import LoadHarness.Proofs.Settings.Keys
import LoadHarness.Proofs.Settings.Layers
import LoadHarness.Proofs.Retry.Delays
import LoadHarness.Proofs.Settings.RoundTrip
import LoadHarness.Proofs.Settings.References
import LoadHarness.Proofs.Settings.Failures
import LoadHarness.Proofs.Retry.Slots
import LoadHarness.Proofs.Traffic.Picks
import LoadHarness.Proofs.Pacing.Filling
import LoadHarness.Proofs.Pacing.Waiting
import LoadHarness.Proofs.Service.Building
import LoadHarness.Proofs.Container.FirstStart
import LoadHarness.Proofs.Decimal.Products
import LoadHarness.Proofs.Latency.Window
import LoadHarness.Proofs.Latency.Order
import LoadHarness.Proofs.Latency.Totals
import LoadHarness.Proofs.Lifecycle.Reporting
import LoadHarness.Proofs.Traffic.Names
import LoadHarness.Proofs.Lifecycle.Wakeups
import LoadHarness.Proofs.Command.Passwords
