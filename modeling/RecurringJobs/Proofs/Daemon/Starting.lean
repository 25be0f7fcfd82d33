import RecurringJobs.Proofs.Daemon.Registration
import RecurringJobs.Proofs.Lock.Agreement
import RecurringJobs.Proofs.Plan.LongDelays
import RecurringJobs.Proofs.Scheduler.LockCalls
import RecurringJobs.Proofs.Scheduler.Renewal

/-!
The start of a scheduler that was built for a configuration with a lease.

The check of a configuration bounds neither the time of the lease nor the time between two renewals.
A start comes back exactly when the end of the lease can be written down, and then there is an entry
that renews the lease, unless its delay is too long to be read (`Daemon.start_of_isValid`).
-/

namespace RecurringJobs
namespace Scheduler

variable {η : Type}

/-! ## The entry that renews the lock -/

/-- The lock is renewed by an entry with this plan. -/
def RenewsBy (s : Scheduler η) (plan : Plan) : Prop :=
  ∃ id, s.refreshEntry = some id ∧
    s.engine.entry? id = some { id, text := s.refreshPlan, plan, callback := .refresh }

/-- The entry has one plan. -/
theorem RenewsBy.unique {s : Scheduler η} {p q : Plan} (hp : s.RenewsBy p) (hq : s.RenewsBy q) :
    p = q := by
  obtain ⟨id, hid, hentry⟩ := hp
  obtain ⟨id', hid', hentry'⟩ := hq
  rw [hid] at hid'
  cases hid'
  rw [hentry] at hentry'
  cases hentry'
  rfl

theorem entry?_of_registers {e e' : Engine η} (h : e.IsSound) {now : Instant} {x : Entry η}
    (hreg : e.Registers now x e') : e'.entry? x.id = some x := by
  have hearlier : e.entries.find? (fun y => y.id = x.id) = none := by
    rw [List.find?_eq_none]
    intro y hy
    have hgiven := h.given y hy
    rw [hreg.number, decide_eq_true_eq]
    omega
  unfold Engine.entry?
  rw [hreg.entries, List.find?_append, hearlier]
  simp

theorem installRefresh_of_parsed {s : Scheduler η} (hsound : s.engine.IsSound)
    (hclockwork : s.engine.refusing = none) {plan : Plan}
    (hplan : Plan.parse s.refreshPlan = .ok plan) (now : Instant) :
    (s.installRefresh now).1.RenewsBy plan := by
  have hresult := s.engine.register_result now s.refreshPlan .refresh
  rw [hclockwork] at hresult
  simp only [refusal?, hplan] at hresult
  unfold installRefresh
  rcases s.engine.register_cases now s.refreshPlan .refresh with
    ⟨parsed, e', es, hr, hreg⟩ | ⟨error, hr⟩
  · have hparsed : parsed = plan := Except.ok.inj (hreg.parsed.symm.trans hplan)
    subst hparsed
    simp only [hr]
    exact ⟨_, rfl, entry?_of_registers hsound hreg⟩
  · rw [hr] at hresult
    cases hresult

theorem installRefresh_of_refused {s : Scheduler η} (hclockwork : s.engine.refusing = none)
    {error : PlanError} (hplan : Plan.parse s.refreshPlan = .error error) (now : Instant) :
    (s.installRefresh now).1 = s ∧
      .log (.refreshNotInstalled s.refreshPlan (.invalid error)) ∈ (s.installRefresh now).2 := by
  have hresult := s.engine.register_result now s.refreshPlan .refresh
  rw [hclockwork] at hresult
  simp only [refusal?, hplan] at hresult
  unfold installRefresh
  rcases s.engine.register_cases now s.refreshPlan .refresh with
    ⟨parsed, e', es, hr, hreg⟩ | ⟨refused, hr⟩
  · rw [hr] at hresult
    cases hresult
  · have hsame : refused = .invalid error := by
      rw [hr] at hresult
      exact Except.error.inj hresult
    subst hsame
    simp only [hr]
    exact ⟨trivial, by simp⟩

/-! ## Starting -/

theorem IsSound.refreshEntry_of_created {s : Scheduler η} (h : s.IsSound)
    (hcreated : s.state = .created) : s.refreshEntry = none := by
  refine Decidable.not_not.mp fun hsome => ?_
  have hstarted := (h.refreshing hsome).1
  rw [hcreated] at hstarted
  cases hstarted

theorem RenewsBy.start {s : Scheduler η} {plan : Plan} (h : s.RenewsBy plan) (now : Instant) :
    ({ s with engine := (s.engine.start now).1 } : Scheduler η).RenewsBy plan := by
  obtain ⟨id, hid, hentry⟩ := h
  refine ⟨id, hid, ?_⟩
  unfold Engine.entry? at hentry ⊢
  rw [Engine.start_entries]
  exact hentry

/-- What a start does once the lock has come back. -/
theorem start_of_back {s : Scheduler η} (hcreated : s.state = .created) {lock : Lock}
    (hlock : s.lock = some lock) {store : LeaseStore} {clock : Clock}
    (hback : (lock.tryLock store clock.elapsed).1 ≠ .crashed) :
    ∃ begun : Scheduler η, begun.engine = s.engine ∧ begun.refreshSeconds = s.refreshSeconds ∧
      begun.refreshEntry = s.refreshEntry ∧
      (s.start store clock).result = .ok () ∧
      (s.start store clock).scheduler =
        { (begun.installRefresh clock.wall).1 with
          engine := ((begun.installRefresh clock.wall).1.engine.start clock.wall).1 } ∧
      ∀ e ∈ (begun.installRefresh clock.wall).2, e ∈ (s.start store clock).effects := by
  have htried := acquire_result (s := { s with state := .started }) hlock store clock.elapsed
  have hleft := acquire_scheduler { s with state := .started } store clock.elapsed
  have hsome : (Scheduler.acquire { s with state := .started } store clock.elapsed).scheduler.lock =
      some (lock.tryLock store clock.elapsed).2.1 := by
    rw [hleft, hlock]
    rfl
  refine ⟨(Scheduler.acquire { s with state := .started } store clock.elapsed).scheduler,
    ?_, ?_, ?_, ?_⟩
  · rw [hleft]
  · rw [hleft]
  · rw [hleft]
  · unfold start
    rw [if_neg (Decidable.not_not.mpr hcreated)]
    dsimp only
    rw [if_neg (by rw [htried]; exact hback), hsome]
    refine ⟨rfl, rfl, fun e he => ?_⟩
    simp [he]

/-- A lock that does not come back takes the start with it, before there is an entry. -/
theorem start_of_crashed {s : Scheduler η} (hcreated : s.state = .created) {lock : Lock}
    (hlock : s.lock = some lock) {store : LeaseStore} {clock : Clock}
    (hcrashed : (lock.tryLock store clock.elapsed).1 = .crashed) :
    (s.start store clock).result = .error .crashed ∧
      (s.start store clock).scheduler.refreshEntry = s.refreshEntry ∧
      (s.start store clock).scheduler.engine = s.engine := by
  have htried := acquire_result (s := { s with state := .started }) hlock store clock.elapsed
  have hleft := acquire_scheduler { s with state := .started } store clock.elapsed
  unfold start
  rw [if_neg (Decidable.not_not.mpr hcreated)]
  dsimp only
  rw [if_pos (htried.trans hcrashed), hleft]
  exact ⟨rfl, rfl, rfl⟩

end Scheduler

/-- The steady clock can write the end of a lease of so many seconds that is taken now. -/
def Clock.HasRoom (clock : Clock) (ttlSeconds : Nat) : Prop :=
  clock.elapsed + ttlSeconds * TimeUnit.nanosPerSecond <
    LeaseStore.clockSeconds * TimeUnit.nanosPerSecond

instance (clock : Clock) (ttlSeconds : Nat) : Decidable (clock.HasRoom ttlSeconds) :=
  inferInstanceAs (Decidable (_ < _))

/-- A free lease is taken, unless its end cannot be written down. -/
theorem LeaseLock.tryLock_of_empty (l : LeaseLock) (now : Nat) :
    (l.tryLock {} now).1 =
      if now + l.ttl < LeaseStore.clockSeconds * TimeUnit.nanosPerSecond then .ok else .crashed := by
  have hopen : LeaseStore.IsOpen {} now l.name l.holder := by
    intro m hm
    simp at hm
  unfold tryLock
  rw [LeaseStore.acquire_of_isOpen hopen]
  by_cases hclock : now + l.ttl < LeaseStore.clockSeconds * TimeUnit.nanosPerSecond
  · rw [if_pos hclock, if_pos hclock]
  · rw [if_neg hclock, if_neg hclock]

theorem Config.refreshSeconds_pos {c : Config} (h : c.isValid = true) :
    1 ≤ c.scheduler.refreshSeconds := by
  refine Nat.pos_of_ne_zero fun hzero => ?_
  have hfound : Finding.error .refresh .zeroRefresh ∈ c.findings := by
    unfold findings schedulerFindings
    rw [if_pos hzero]
    exact List.mem_append_left _ (List.mem_append_left _ List.mem_cons_self)
  cases (isValid_iff c).mp h _ hfound

namespace Daemon

/-! ## What registrations leave alone -/

theorem addJob_lock (s : Scheduler String) (now : Instant) (job : JobConfig) :
    (addJob s now job).scheduler.lock = s.lock := by
  unfold addJob
  split
  · exact (s.addOnReady_leavesLock now job.name job.plan (messageOf job)).lock
  · exact (s.add_leavesLock now job.name job.plan (messageOf job)).lock

theorem addJob_refreshSeconds (s : Scheduler String) (now : Instant) (job : JobConfig) :
    (addJob s now job).scheduler.refreshSeconds = s.refreshSeconds := by
  unfold addJob
  split
  · exact s.take_refreshSeconds {} { wall := now } (.addOnReady job.name job.plan (messageOf job))
  · exact s.take_refreshSeconds {} { wall := now } (.add job.name job.plan (messageOf job))

theorem registerJob_leaves {s s' : Scheduler String} {now : Instant} {job : JobConfig}
    {lines : List LogLine} (h : registerJob s now job = (.ok s', lines)) :
    s'.lock = s.lock ∧ s'.refreshSeconds = s.refreshSeconds := by
  have hlock := addJob_lock s now job
  have hrefresh := addJob_refreshSeconds s now job
  unfold addJob at hlock hrefresh
  unfold registerJob at h
  generalize (if job.runOnReady = true then s.addOnReady now job.name job.plan (messageOf job)
    else s.add now job.name job.plan (messageOf job)) = added at hlock hrefresh h
  dsimp only at h
  split at h
  · cases h
  · split at h
    · split at h
      · cases h
      · cases h
        obtain ⟨engine, jobs, hframe⟩ := added.scheduler.pause_frame job.name
        rw [hframe]
        exact ⟨hlock, hrefresh⟩
    · cases h
      exact ⟨hlock, hrefresh⟩

theorem registerJobs_leaves {s s' : Scheduler String} {now : Instant} {jobs : List JobConfig}
    {lines : List LogLine} (h : registerJobs s now jobs = (.ok s', lines)) :
    s'.lock = s.lock ∧ s'.refreshSeconds = s.refreshSeconds := by
  induction jobs generalizing s lines with
  | nil =>
    cases h
    exact ⟨rfl, rfl⟩
  | cons job jobs ih =>
    unfold registerJobs at h
    split at h
    · cases h
    · next one said hone =>
      obtain ⟨hlock, hrefresh⟩ := registerJob_leaves hone
      cases hrest : registerJobs one now jobs with
      | mk result more =>
        rw [hrest] at h
        cases h
        obtain ⟨hlock', hrefresh'⟩ := ih hrest
        exact ⟨hlock'.trans hlock, hrefresh'.trans hrefresh⟩

/-! ## From a configuration to its start -/

theorem exists_lease {c : Config} (henabled : c.lease.enabled = true) (holder : String) :
    ∃ l : LeaseLock, (freshScheduler c holder).lock = some (.lease l) ∧
      l.ttl = c.lease.ttlSeconds * TimeUnit.nanosPerSecond :=
  ⟨_, if_pos henabled, rfl⟩

/-- What the lock of a configuration answers at the start, when its lease is free. -/
theorem tryLock_of_lease {c : Config} {l : LeaseLock}
    (httl : l.ttl = c.lease.ttlSeconds * TimeUnit.nanosPerSecond) (clock : Clock) :
    ((Lock.lease l).tryLock {} clock.elapsed).1 =
      if clock.HasRoom c.lease.ttlSeconds then .ok else .crashed := by
  show (l.tryLock {} clock.elapsed).1 = _
  rw [l.tryLock_of_empty, httl]
  rfl

/-- The scheduler for a configuration with a lease, with its jobs. -/
structure Prepared (c : Config) (s : Scheduler String) : Prop where
  serves : Serves s c.jobs
  locked : ∃ l : LeaseLock, s.lock = some (.lease l) ∧
    l.ttl = c.lease.ttlSeconds * TimeUnit.nanosPerSecond
  refreshPlan : s.refreshPlan = s!"@every {c.scheduler.refreshSeconds}s"

namespace Prepared

variable {c : Config} {s : Scheduler String} {clock : Clock}

theorem crashed (h : Prepared c s) (hroom : ¬clock.HasRoom c.lease.ttlSeconds) :
    (s.start {} clock).result = .error .crashed ∧
      (s.start {} clock).scheduler.refreshEntry = none ∧
      (s.start {} clock).scheduler.engine = s.engine := by
  obtain ⟨lease, hlease, httl⟩ := h.locked
  have hcrashed := tryLock_of_lease httl clock
  rw [if_neg hroom] at hcrashed
  obtain ⟨hresult, hentry, hengine⟩ := Scheduler.start_of_crashed h.serves.created hlease hcrashed
  have hnone := h.serves.sound.refreshEntry_of_created h.serves.created
  exact ⟨hresult, hentry.trans hnone, hengine⟩

theorem back (h : Prepared c s) (hroom : clock.HasRoom c.lease.ttlSeconds) :
    ∃ begun : Scheduler String, begun.engine = s.engine ∧ begun.refreshPlan = s.refreshPlan ∧
      begun.refreshEntry = none ∧ (s.start {} clock).result = .ok () ∧
      (s.start {} clock).scheduler =
        { (begun.installRefresh clock.wall).1 with
          engine := ((begun.installRefresh clock.wall).1.engine.start clock.wall).1 } ∧
      ∀ e ∈ (begun.installRefresh clock.wall).2, e ∈ (s.start {} clock).effects := by
  obtain ⟨lease, hlease, httl⟩ := h.locked
  have hback : ((Lock.lease lease).tryLock {} clock.elapsed).1 ≠ .crashed := by
    rw [tryLock_of_lease httl, if_pos hroom]
    exact nofun
  obtain ⟨begun, hengine, hseconds, hentry, hresult, hleft, heffects⟩ :=
    Scheduler.start_of_back h.serves.created hlease hback
  refine ⟨begun, hengine, ?_, ?_, hresult, hleft, heffects⟩
  · unfold Scheduler.refreshPlan
    rw [hseconds]
  · exact hentry.trans (h.serves.sound.refreshEntry_of_created h.serves.created)

theorem renewsBy (h : Prepared c s) (hroom : clock.HasRoom c.lease.ttlSeconds) {plan : Plan}
    (hparse : Plan.parse s!"@every {c.scheduler.refreshSeconds}s" = .ok plan) :
    (s.start {} clock).scheduler.RenewsBy plan := by
  obtain ⟨begun, hengine, hplan, -, -, hleft, -⟩ := h.back hroom
  have hsound : begun.engine.IsSound := by
    rw [hengine]
    exact h.serves.sound.tallies.engine
  have hclockwork : begun.engine.refusing = none := by rw [hengine, h.serves.clockwork]
  rw [← h.refreshPlan, ← hplan] at hparse
  rw [hleft]
  exact (Scheduler.installRefresh_of_parsed hsound hclockwork hparse clock.wall).start clock.wall

theorem tellsOfNone (h : Prepared c s) (hroom : clock.HasRoom c.lease.ttlSeconds)
    {error : PlanError}
    (hparse : Plan.parse s!"@every {c.scheduler.refreshSeconds}s" = .error error) :
    (s.start {} clock).scheduler.refreshEntry = none ∧
      .log (.refreshNotInstalled s.refreshPlan (.invalid error)) ∈ (s.start {} clock).effects := by
  obtain ⟨begun, hengine, hplan, hentry, -, hleft, heffects⟩ := h.back hroom
  have hclockwork : begun.engine.refusing = none := by rw [hengine, h.serves.clockwork]
  rw [← h.refreshPlan, ← hplan] at hparse
  obtain ⟨hsame, htold⟩ := Scheduler.installRefresh_of_refused hclockwork hparse clock.wall
  rw [← hplan]
  refine ⟨?_, heffects _ htold⟩
  rw [hleft, hsame]
  exact hentry

end Prepared

theorem prepared_of_isValid {c : Config} (hvalid : c.isValid = true)
    (henabled : c.lease.enabled = true) (holder : String) (now : Instant) :
    ∃ s lines, registerJobs (freshScheduler c holder) now c.jobs = (.ok s, lines) ∧
      Prepared c s := by
  obtain ⟨s, lines, hjobs, hserves⟩ :=
    (serves_freshScheduler c holder).registerJobs now (Config.addable_of_isValid hvalid)
  obtain ⟨hlock, hrefresh⟩ := registerJobs_leaves hjobs
  obtain ⟨lease, hlease, httl⟩ := exists_lease henabled holder
  refine ⟨s, lines, hjobs, hserves, ⟨lease, hlock.trans hlease, httl⟩, ?_⟩
  unfold Scheduler.refreshPlan
  rw [hrefresh]
  show s!"@every {max 1 c.scheduler.refreshSeconds}s" = _
  rw [Nat.max_eq_right (Config.refreshSeconds_pos hvalid)]

/-- The jobs of a configuration that passes its check are registered.  If it has a lease, its start
comes back with an entry that renews the lease with the configured delay exactly when the steady clock
has room for the end of the lease and the delay is neither too long to be read nor rounded down.

Without room the start does not come back: there is no entry, and the engine is as it was.  With room
it always comes back, also when the delay is a second short because it was rounded down, and when
there is no entry because the delay is too long, of which it tells. -/
theorem start_of_isValid (c : Config) (holder : String) (clock : Clock) (hvalid : c.isValid = true)
    (henabled : c.lease.enabled = true) :
    ∃ s lines, registerJobs (freshScheduler c holder) clock.wall c.jobs = (.ok s, lines) ∧
      ((s.start {} clock).result = .ok () ∧
          (s.start {} clock).scheduler.RenewsBy (.every c.scheduler.refreshSeconds) ↔
        clock.HasRoom c.lease.ttlSeconds ∧
          c.scheduler.refreshSeconds ≤ Duration.longestSeconds ∧
          ¬Duration.IsRoundedDown c.scheduler.refreshSeconds) ∧
      (¬clock.HasRoom c.lease.ttlSeconds → (s.start {} clock).result = .error .crashed ∧
        (s.start {} clock).scheduler.refreshEntry = none ∧
        (s.start {} clock).scheduler.engine = s.engine) ∧
      (clock.HasRoom c.lease.ttlSeconds → (s.start {} clock).result = .ok () ∧
        (c.scheduler.refreshSeconds ≤ Duration.longestSeconds →
          Duration.IsRoundedDown c.scheduler.refreshSeconds →
          (s.start {} clock).scheduler.RenewsBy (.every (c.scheduler.refreshSeconds - 1))) ∧
        (Duration.longestSeconds < c.scheduler.refreshSeconds →
          (s.start {} clock).scheduler.refreshEntry = none ∧
            ∃ text, .log (.refreshNotInstalled s.refreshPlan (.invalid
              { plan := s.refreshPlan, fault := .interval (.duration text .outOfRange) })) ∈
                (s.start {} clock).effects)) := by
  obtain ⟨s, lines, hjobs, hprepared⟩ :=
    prepared_of_isValid hvalid henabled holder clock.wall
  have hpos := Config.refreshSeconds_pos hvalid
  have hlong (hroom : clock.HasRoom c.lease.ttlSeconds)
      (hlt : Duration.longestSeconds < c.scheduler.refreshSeconds) :=
    hprepared.tellsOfNone hroom (Plan.parse_every_tooLong hlt)
  have hshort (hroom : clock.HasRoom c.lease.ttlSeconds)
      (hle : c.scheduler.refreshSeconds ≤ Duration.longestSeconds) :=
    hprepared.renewsBy hroom (Plan.parse_everySeconds hpos hle)
  have hback : clock.HasRoom c.lease.ttlSeconds → (s.start {} clock).result = .ok () := fun hroom => by
    obtain ⟨-, -, -, -, hresult, -⟩ := hprepared.back hroom
    exact hresult
  refine ⟨s, lines, hjobs, ⟨?_, ?_⟩, hprepared.crashed, fun hroom => ⟨hback hroom, ?_, ?_⟩⟩
  · rintro ⟨hresult, hrenews⟩
    have hroom : clock.HasRoom c.lease.ttlSeconds := Decidable.byContradiction fun hnone => by
      rw [(hprepared.crashed hnone).1] at hresult
      cases hresult
    have hle : c.scheduler.refreshSeconds ≤ Duration.longestSeconds :=
      Nat.le_of_not_lt fun hlt => by
        obtain ⟨id, hid, -⟩ := hrenews
        rw [(hlong hroom hlt).1] at hid
        cases hid
    refine ⟨hroom, hle, fun hdown => ?_⟩
    have hsame := hrenews.unique (hshort hroom hle)
    rw [if_pos hdown] at hsame
    have hdelay := Plan.every.inj hsame
    omega
  · rintro ⟨hroom, hle, hkept⟩
    refine ⟨hback hroom, ?_⟩
    have hrenews := hshort hroom hle
    rwa [if_neg hkept] at hrenews
  · intro hle hdown
    have hrenews := hshort hroom hle
    rwa [if_pos hdown] at hrenews
  · intro hlt
    obtain ⟨hnone, htold⟩ := hlong hroom hlt
    rw [← hprepared.refreshPlan] at htold
    exact ⟨hnone, _, htold⟩

/-- A job beside a lease that is renewed as rarely as every delay in seconds is kept. -/
def rarestKept : Config :=
  { scheduler := { refreshSeconds := Duration.longestKept }
    lease := { enabled := true }
    jobs := [{ name := "backup", plan := "0 30 2 * * *" }] }

/-- Renewals too far apart for a delay. -/
def tooRare : Config :=
  { scheduler := { refreshSeconds := 18446744074 }, lease := { enabled := true } }

/-- Renewals whose delay loses a second. -/
def roundedDown : Config :=
  { scheduler := { refreshSeconds := 4611686021 }, lease := { enabled := true } }

/-- A lease that ends beyond every clock. -/
def endless : Config := { lease := { enabled := true, ttlSeconds := Text.maxWord64 } }

def noon : Clock := { wall := { seconds := 43200 }, elapsed := 5000000000 }

theorem rarestKept_started :
    (∃ s lines, registerJobs (freshScheduler rarestKept "h") noon.wall rarestKept.jobs =
        (.ok s, lines) ∧ (s.start {} noon).result = .ok () ∧
      (s.start {} noon).scheduler.RenewsBy (.every Duration.longestKept)) ∧
    (∃ s lines, registerJobs (freshScheduler tooRare "h") noon.wall tooRare.jobs = (.ok s, lines) ∧
      (s.start {} noon).result = .ok () ∧ (s.start {} noon).scheduler.refreshEntry = none) ∧
    ∃ s lines, registerJobs (freshScheduler endless "h") noon.wall endless.jobs = (.ok s, lines) ∧
      (s.start {} noon).result = .error .crashed := by
  refine ⟨?_, ?_, ?_⟩
  · obtain ⟨s, lines, hjobs, hkept, -, -⟩ :=
      start_of_isValid rarestKept "h" noon (by decide +kernel) rfl
    obtain ⟨hresult, hrenews⟩ := hkept.mpr ⟨by decide +kernel, Nat.le_of_lt (by decide),
      Duration.not_isRoundedDown_of_le (Nat.le_refl _)⟩
    exact ⟨s, lines, hjobs, hresult, hrenews⟩
  · obtain ⟨s, lines, hjobs, -, -, hback⟩ :=
      start_of_isValid tooRare "h" noon (by decide +kernel) rfl
    obtain ⟨hresult, -, hlong⟩ := hback (by decide +kernel)
    exact ⟨s, lines, hjobs, hresult, (hlong (by decide)).1⟩
  · obtain ⟨s, lines, hjobs, -, hcrashed, -⟩ :=
      start_of_isValid endless "h" noon (by decide +kernel) rfl
    exact ⟨s, lines, hjobs, (hcrashed (by decide +kernel)).1⟩

/-- Three configurations that pass their check: one is started without an entry that renews the
lease, one with an entry that is a second early, and one is not started. -/
theorem started_amiss :
    (tooRare.isValid = true ∧ ((freshScheduler tooRare "h").start {} noon).result = .ok () ∧
      ((freshScheduler tooRare "h").start {} noon).scheduler.refreshEntry = none) ∧
    (roundedDown.isValid = true ∧
      ((freshScheduler roundedDown "h").start {} noon).scheduler.refreshEntry = some 1 ∧
      ((freshScheduler roundedDown "h").start {} noon).scheduler.engine.entry? 1 =
        some { id := 1, text := "@every 4611686021s", plan := .every 4611686020,
               callback := .refresh }) ∧
    endless.isValid = true ∧
      ((freshScheduler endless "h").start {} noon).result = .error .crashed := by
  decide +kernel

end Daemon
end RecurringJobs
