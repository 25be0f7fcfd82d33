import RecurringJobs.Config.Schema
import RecurringJobs.Plan.Basic

/-!
What is wrong, or worth a warning, in a configuration.

A finding names the place and the cause; the scheduler is looked at before the lease and the lease
before the jobs, and the jobs in their order.
-/

namespace RecurringJobs

/-- A place in a configuration. -/
inductive Place where
  | refresh
  | leaseTtl
  | leaseName
  | job (index : Nat)
  | jobName (index : Nat)
  | jobPlan (index : Nat)
deriving Repr, DecidableEq

def Place.path : Place → String
  | refresh => "scheduler.lock_refresh_secs"
  | leaseTtl => "lease.ttl_secs"
  | leaseName => "lease.name"
  | job i => s!"jobs[{i}]"
  | jobName i => s!"jobs[{i}].name"
  | jobPlan i => s!"jobs[{i}].plan"

/-- What makes a configuration unusable. -/
inductive Problem where
  | zeroRefresh
  | zeroTtl
  | blankLeaseName
  | blankJobName
  | duplicateJobName (name : String)
  | blankPlan
  | zeroInterval
  | badPlan (error : PlanError)
deriving Repr, DecidableEq

def Problem.message : Problem → String
  | zeroRefresh => "lock_refresh_secs must be greater than 0"
  | zeroTtl => "ttl_secs must be greater than 0"
  | blankLeaseName => "Lease name cannot be empty"
  | blankJobName => "Job name cannot be empty"
  | duplicateJobName name => s!"Duplicate job name '{name}'"
  | blankPlan => "Plan cannot be empty"
  | zeroInterval => "Interval must be greater than 0"
  | badPlan error => error.message

/-- What is allowed and probably not meant. -/
inductive Doubt where
  | flappingLease (ttl refresh : Nat)
  | raisedInterval
  | pausedButReady
deriving Repr, DecidableEq

def Doubt.message : Doubt → String
  | flappingLease ttl refresh =>
    s!"Lease expires ({ttl}s) before it is refreshed ({refresh}s), the lock will flap"
  | raisedInterval => "Interval below one second is raised to one second"
  | pausedButReady => "Paused job still runs once on ready"

inductive Finding where
  | error (place : Place) (problem : Problem)
  | warning (place : Place) (doubt : Doubt)
deriving Repr, DecidableEq

namespace Finding

def error? : Finding → Option (Place × Problem)
  | error place problem => some (place, problem)
  | warning _ _ => none

def warning? : Finding → Option (Place × Doubt)
  | error _ _ => none
  | warning place doubt => some (place, doubt)

end Finding

namespace Config

def schedulerFindings (c : Config) : List Finding :=
  if c.scheduler.refreshSeconds = 0 then [.error .refresh .zeroRefresh] else []

def leaseFindings (c : Config) : List Finding :=
  let ttl := c.lease.ttlSeconds
  let refresh := c.scheduler.refreshSeconds
  if !c.lease.enabled then []
  else
    (if ttl = 0 then [.error .leaseTtl .zeroTtl]
      else if ttl ≤ refresh then [.warning .leaseTtl (.flappingLease ttl refresh)]
      else [])
    ++ (if Text.isBlankText c.lease.name then [.error .leaseName .blankLeaseName] else [])

/-- A name is compared with those of the jobs before it; blank ones are never the same. -/
def nameFindings (earlier : List JobConfig) (i : Nat) (job : JobConfig) : List Finding :=
  if Text.isBlankText job.name then [.error (.jobName i) .blankJobName]
  else if earlier.any fun j => j.name = job.name then
    [.error (.jobName i) (.duplicateJobName job.name)]
  else []

/-- A blank plan and a delay of zero are told as such and nothing more is said about the job. -/
def planFindings (i : Nat) (job : JobConfig) : List Finding :=
  if Text.isBlankText job.plan then [.error (.jobPlan i) .blankPlan]
  else
    let rest : List Finding :=
      (match Plan.parse job.plan with
        | .ok _ => []
        | .error e => [.error (.jobPlan i) (.badPlan e)])
      ++ (if job.paused && job.runOnReady then [.warning (.job i) .pausedButReady] else [])
    match Plan.requestedInterval job.plan with
    | some nanos =>
      if nanos = 0 then [.error (.jobPlan i) .zeroInterval]
      else if nanos < TimeUnit.nanosPerSecond then
        .warning (.jobPlan i) .raisedInterval :: rest
      else rest
    | none => rest

/-- The findings of the jobs from index `i` on, after those in `earlier`. -/
def jobFindings (earlier : List JobConfig) (i : Nat) : List JobConfig → List Finding
  | [] => []
  | job :: jobs =>
    nameFindings earlier i job ++ planFindings i job ++ jobFindings (earlier ++ [job]) (i + 1) jobs

/-- Everything found in a configuration, in order. -/
def findings (c : Config) : List Finding :=
  c.schedulerFindings ++ c.leaseFindings ++ jobFindings [] 0 c.jobs

def errors (c : Config) : List (Place × Problem) := c.findings.filterMap Finding.error?

def warnings (c : Config) : List (Place × Doubt) := c.findings.filterMap Finding.warning?

/-- A configuration can be used when no error is found in it. -/
def isValid (c : Config) : Bool := c.errors.isEmpty

end Config
end RecurringJobs
