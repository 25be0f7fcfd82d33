import RecurringJobs.Main
import RecurringJobs.Daemon.Trial
import RecurringJobs.Plan.Preset
import RecurringJobs.Rehearsal.Session
import RecurringJobs.Signal.Shutdown
import RecurringJobs.Proofs.Engine.Firing
import RecurringJobs.Proofs.Scheduler.Registry
import RecurringJobs.Proofs.Scheduler.Handover
import RecurringJobs.Proofs.Plan.Enumeration
import RecurringJobs.Proofs.ByteOrder
import RecurringJobs.Proofs.Scheduler.Roster
import RecurringJobs.Proofs.Scheduler.Showing
import RecurringJobs.Proofs.Config.Findings
import RecurringJobs.Proofs.Daemon.Registration
import RecurringJobs.Proofs.Plan.DurationText
import RecurringJobs.Proofs.Scheduler.Renewal
import RecurringJobs.Proofs.Scheduler.Keeping
import RecurringJobs.Proofs.Scheduler.Calls
import RecurringJobs.Proofs.Scheduler.Service
import RecurringJobs.Proofs.Scheduler.Invocations
import RecurringJobs.Proofs.Scheduler.Provenance
import RecurringJobs.Proofs.Scheduler.LockWord
import RecurringJobs.Proofs.Rehearsal.Triggers
import RecurringJobs.Proofs.Plan.Sequence
import RecurringJobs.Proofs.Plan.Listing
import RecurringJobs.Proofs.Config.Variables
import RecurringJobs.Proofs.Engine.Arming
import RecurringJobs.Proofs.Config.Messages
import RecurringJobs.Proofs.Lock.Leasing
import RecurringJobs.Proofs.Plan.CronText
import RecurringJobs.Proofs.Plan.WholeAmounts
import RecurringJobs.Proofs.Plan.Spellings
import RecurringJobs.Proofs.Daemon.Starting
import RecurringJobs.Proofs.Scheduler.StoredPlans
import RecurringJobs.Proofs.Plan.Daily
import RecurringJobs.Proofs.Scheduler.Readiness
import RecurringJobs.Proofs.Rehearsal.Independence
import RecurringJobs.Proofs.Plan.Surroundings
import RecurringJobs.Proofs.Config.Unset
import RecurringJobs.Proofs.Signal.Shutdown
import RecurringJobs.Proofs.Scheduler.Handles
