import RecurringJobs.Proofs.Rehearsal.Triggers
import RecurringJobs.Proofs.Scheduler.Phases

/-!
Which handlers are called, and what is logged of it.

A trigger of an active job calls its handler once if the lock lets it, and a run at readiness calls
it once in any case.  Nothing else calls a handler, and how a handler ends is seen in the log alone:
whatever comes later is the same for every way to end (`run_blank`).
-/

namespace RecurringJobs

variable {η : Type}

/-! ## The log of a run -/

namespace RunEnd

def closing (name : String) : RunEnd → LogEvent
  | completed => .jobCompleted name
  | failed _ => .jobCompletedWithError name
  | panicked _ => .jobCompletedWithPanic name

def complaint? (name : String) : RunEnd → Option LogEvent
  | completed => none
  | failed e => some (.jobFailed name e.message)
  | panicked p => some (.jobPanicked name p.message)

theorem logged_effects (ending : RunEnd) (name : String) :
    logged (ending.effects name : List (Effect η)) =
      (ending.complaint? name).toList ++ [ending.closing name] := by
  cases ending <;> rfl

theorem spawned_effects (ending : RunEnd) (name : String) :
    spawned (ending.effects name : List (Effect η)) = [] := by
  cases ending <;> rfl

end RunEnd

/-- The log of a run: a line at its start and one at its end, and a line of level `error` between
them if it failed or panicked. -/
structure LogsRun (said : List LogEvent) (name : String) (ending : RunEnd) : Prop where
  lines : said = .jobStarted name :: (ending.complaint? name).toList ++ [ending.closing name]
  errors : (said.filter fun x => x.line.level = .error).length =
    if ending = .completed then 0 else 1

theorem logsRun_of_eq {said : List LogEvent} {name : String} {ending : RunEnd}
    (h : said = .jobStarted name :: (ending.complaint? name).toList ++ [ending.closing name]) :
    LogsRun said name ending := by
  refine ⟨h, ?_⟩
  rw [h]
  cases ending <;> rfl

/-! ## Runs of jobs -/

namespace Scheduler

/-- Whether gated runs go ahead: no lock is installed, or it is held. -/
def isOpen (s : Scheduler η) (now : Nat) : Bool :=
  match s.lock with
  | none => true
  | some lock => lock.hasLock now

def inquiry (s : Scheduler η) (now : Nat) : List LockCall :=
  match s.lock with
  | none => []
  | some lock => [.hasLock (lock.hasLock now)]

/-- What becomes of a run of a job, where `go` says whether the handler is called. -/
structure Runs (o : LockOutcome η (Option (Execution η))) (e : Execution η) (ending : RunEnd)
    (go : Bool) (asked : List LockCall) : Prop where
  result : o.result = if go then some e else none
  lockCalls : lockCalls o.effects = asked
  log : if go then LogsRun (logged o.effects) e.name ending
    else logged o.effects = [.jobSkipped e.name]

theorem attempt_gated (s : Scheduler η) (store : LeaseStore) (now : Nat) (e : Execution η)
    (ending : RunEnd) :
    Runs ((s.attempt store now e true).ending ending) e ending (s.isOpen now) (s.inquiry now) := by
  unfold attempt gate isOpen inquiry LockOutcome.ending
  cases s.lock with
  | none =>
    refine ⟨rfl, ?_, logsRun_of_eq ?_⟩
    · exact (lockCalls_append _ _).trans (ending.lockCalls_effects e.name)
    · exact (logged_append _ _).trans (congrArg (_ :: ·) (ending.logged_effects e.name))
  | some lock =>
    dsimp only
    cases lock.hasLock now with
    | false => exact ⟨rfl, rfl, rfl⟩
    | true =>
      refine ⟨rfl, ?_, logsRun_of_eq ?_⟩
      · exact (lockCalls_append _ _).trans (congrArg (_ :: ·) (ending.lockCalls_effects e.name))
      · exact (logged_append _ _).trans (congrArg (_ :: ·) (ending.logged_effects e.name))

theorem attempt_ungated (s : Scheduler η) (store : LeaseStore) (now : Nat) (e : Execution η)
    (ending : RunEnd) : Runs ((s.attempt store now e false).ending ending) e ending true [] := by
  have hgate : s.gate now e.name false = (true, [.log (.jobStarted e.name)]) := by
    unfold gate
    cases s.lock <;> rfl
  unfold attempt LockOutcome.ending
  rw [hgate]
  refine ⟨rfl, ?_, logsRun_of_eq ?_⟩
  · exact (lockCalls_append _ _).trans (ending.lockCalls_effects e.name)
  · exact (logged_append _ _).trans (congrArg (_ :: ·) (ending.logged_effects e.name))

theorem Runs.after_idle {o : LockOutcome η (Option (Execution η))} {e : Execution η}
    {ending : RunEnd} {go : Bool} {asked : List LockCall} (h : Runs o e ending go asked)
    {es : List (Effect η)} (hidle : ∀ x ∈ es, x.IsIdle) :
    Runs { o with effects := es ++ o.effects } e ending go asked := by
  have hcalls : RecurringJobs.lockCalls (es ++ o.effects) = RecurringJobs.lockCalls o.effects := by
    rw [lockCalls_append, lockCalls_of_idle hidle, List.nil_append]
  have hlogged : logged (es ++ o.effects) = logged o.effects := by
    rw [logged_append, logged_of_idle hidle, List.nil_append]
  refine ⟨h.result, hcalls.trans h.lockCalls, ?_⟩
  show if go then LogsRun (logged (es ++ o.effects)) e.name ending
    else logged (es ++ o.effects) = [.jobSkipped e.name]
  rw [hlogged]
  exact h.log

section Trigger

variable {s : Scheduler η} {clock : Clock} {t : Trigger} {x : Entry η} {engine : Engine η}
  {woken : List (Effect η)}

theorem trigger_job (h : s.engine.Triggers clock.wall t x engine woken) {e : Execution η}
    (hx : x.callback = .job e) (store : LeaseStore) (ending : RunEnd) :
    Runs (s.trigger store clock t ending) e ending (s.isOpen clock.elapsed)
        (s.inquiry clock.elapsed) ∧
      (s.trigger store clock t ending).scheduler = { s with engine } := by
  rw [trigger_of_some h.trigger?, hx]
  refine ⟨?_, rfl⟩
  exact (Scheduler.attempt_gated { s with engine } store clock.elapsed e ending).after_idle h.idle

theorem trigger_other (h : s.engine.Triggers clock.wall t x engine woken)
    (hx : ∀ e, x.callback ≠ .job e) (store : LeaseStore) (ending : RunEnd) :
    (s.trigger store clock t ending).result = none := by
  rw [trigger_of_some h.trigger?]
  cases hcallback : x.callback with
  | job e => exact absurd hcallback (hx e)
  | refresh => rfl
  | host label => rfl

end Trigger

end Scheduler

namespace Service
namespace Moment

variable {m : Moment η}

def isOpen (m : Moment η) : Bool := m.scheduler.isOpen m.now

def ending? (m : Moment η) : Option RunEnd :=
  match m.event with
  | .trigger _ ending | .ready _ ending => some ending
  | _ => none

/-- A job that is active has its entry triggered. -/
def TriggersJob (m : Moment η) (e : Execution η) : Prop :=
  ∃ r id, m.scheduler.jobs[e.name]? = some r ∧ r.paused = false ∧ r.execution = e ∧
    r.entryId = some id ∧ m.Triggers id

/-- A job that was released is run. -/
def RunsReady (m : Moment η) (e : Execution η) : Prop :=
  ∃ place ending, m.event = .ready place ending ∧ m.before.released[place]? = some (.job e)

/-- Nothing but the engine's timers was touched. -/
def KeepsAll (m : Moment η) : Prop :=
  ∃ engine, engine.entries = m.scheduler.engine.entries ∧
    m.after.scheduler = { m.scheduler with engine } ∧ m.outcome.store = m.occasion.store

theorem TriggersJob.exists_triggers {e : Execution η} (he : m.TriggersJob e)
    (h : m.scheduler.IsSound) :
    ∃ t ending x engine woken, m.event = .trigger t ending ∧ x.callback = .job e ∧
      m.scheduler.engine.Triggers m.occasion.clock.wall t x engine woken := by
  obtain ⟨r, id, hr, -, hexecution, hid, t, ending, hevent, htarget⟩ := he
  obtain ⟨x, engine, woken, hx, hxid⟩ :=
    h.tallies.engine.exists_triggers htarget m.occasion.clock.wall
  obtain ⟨y, hy, hyid, howns⟩ := h.tallies.owns_of_entryId hr hid
  have hxy : x = y := h.tallies.engine.eq_of_id_eq hx.mem hy (hxid.trans hyid.symm)
  refine ⟨t, ending, x, engine, woken, hevent, ?_, hx⟩
  rw [hxy, howns.callback, hexecution]

/-- What becomes of a moment in which a job is run, gated or not. -/
structure RunsJob (m : Moment η) (e : Execution η) (ending : RunEnd) (go : Bool)
    (asked : List LockCall) : Prop where
  ending? : m.ending? = some ending
  invoked : m.invoked = if go then some e else none
  lockCalls : lockCalls m.effects = asked
  log : if go then LogsRun (logged m.effects) e.name ending
    else logged m.effects = [.jobSkipped e.name]
  kept : m.KeepsAll

theorem runsJob_of_runs {o : LockOutcome η (Option (Execution η))} (houtcome : m.outcome = o.deed)
    {e : Execution η} {ending : RunEnd} {go : Bool} {asked : List LockCall}
    (hruns : Scheduler.Runs o e ending go asked) (hending : m.ending? = some ending)
    {engine : Engine η} (hentries : engine.entries = m.scheduler.engine.entries)
    (hleft : o.scheduler = { m.scheduler with engine }) (hstore : o.store = m.occasion.store) :
    m.RunsJob e ending go asked where
  ending? := hending
  invoked := by
    unfold invoked
    rw [houtcome]
    exact hruns.result
  lockCalls := by
    unfold effects
    rw [houtcome]
    exact hruns.lockCalls
  log := by
    unfold effects
    rw [houtcome]
    exact hruns.log
  kept := by
    refine ⟨engine, hentries, ?_, ?_⟩
    · show m.outcome.scheduler = _
      rw [houtcome]
      exact hleft
    · rw [houtcome]
      exact hstore

theorem TriggersJob.runsJob {e : Execution η} (he : m.TriggersJob e) (h : m.scheduler.IsSound) :
    ∃ ending, m.RunsJob e ending m.isOpen (m.scheduler.inquiry m.now) := by
  obtain ⟨t, ending, x, engine, woken, hevent, hx, htriggers⟩ := he.exists_triggers h
  obtain ⟨hruns, hleft⟩ := Scheduler.trigger_job htriggers hx m.occasion.store ending
  have hending : m.ending? = some ending := by
    unfold Moment.ending?
    rw [hevent]
  refine ⟨ending, runsJob_of_runs (outcome_trigger hevent) hruns hending htriggers.entries hleft ?_⟩
  rw [Scheduler.trigger_of_some htriggers.trigger?, hx]
  rfl

theorem RunsReady.runsJob {e : Execution η} (he : m.RunsReady e) :
    ∃ ending, m.RunsJob e ending true [] := by
  obtain ⟨place, ending, hevent, hreleased⟩ := he
  have hruns := m.scheduler.attempt_ungated m.occasion.store m.now e ending
  have hending : m.ending? = some ending := by
    unfold Moment.ending?
    rw [hevent]
  exact ⟨ending, runsJob_of_runs (outcome_ready hevent hreleased) hruns hending rfl rfl rfl⟩

/-- A trigger that calls a handler is one of an active job. -/
theorem triggersJob_of_invoked {t : Trigger} {ending : RunEnd} (hevent : m.event = .trigger t ending)
    (h : m.scheduler.IsSound) {e : Execution η} (he : m.invoked = some e) : m.TriggersJob e := by
  unfold invoked at he
  rw [outcome_trigger hevent] at he
  have hresult :
      (m.scheduler.trigger m.occasion.store m.occasion.clock t ending).result = some e := he
  cases htarget : m.scheduler.engine.target? t with
  | none =>
    unfold Scheduler.trigger at hresult
    rw [Engine.trigger?_of_no_target htarget] at hresult
    cases hresult
  | some id =>
    obtain ⟨x, engine, woken, hx, hid⟩ :=
      h.tallies.engine.exists_triggers htarget m.occasion.clock.wall
    -- of all callbacks only that of a job calls a handler
    by_cases hjob : ∃ run, x.callback = .job run
    · obtain ⟨run, hrun⟩ := hjob
      rw [(Scheduler.trigger_job hx hrun m.occasion.store ending).1.result] at hresult
      split at hresult
      · cases hresult
        obtain ⟨r, hr, howns, hexecution⟩ := h.tallies.owns_of_callback hx.mem hrun
        exact ⟨r, x.id, hr, howns.active, hexecution, howns.entryId, t, ending, hevent, hx.target?⟩
      · cases hresult
    · have hother : ∀ run, x.callback ≠ .job run := fun run hrun => hjob ⟨run, hrun⟩
      rw [Scheduler.trigger_other hx hother] at hresult
      cases hresult

theorem runsReady_of_invoked {place : Nat} {ending : RunEnd}
    (hevent : m.event = .ready place ending) {e : Execution η} (he : m.invoked = some e) :
    m.RunsReady e := by
  refine ⟨place, ending, hevent, ?_⟩
  cases hreleased : m.before.released[place]? with
  | none =>
    have hnone : m.invoked = none := by
      unfold invoked outcome perform
      rw [show m.occasion.event = .ready place ending from hevent]
      dsimp only
      rw [hreleased]
    rw [hnone] at he
    cases he
  | some c =>
    unfold invoked at he
    rw [outcome_ready hevent hreleased] at he
    cases c with
    | host label => cases he
    | job run =>
      have hruns := m.scheduler.attempt_ungated m.occasion.store m.now run ending
      have hsame : some run = some e := hruns.result.symm.trans he
      cases hsame
      rfl

theorem invoked_eq_none (ht : ∀ t ending, m.event ≠ .trigger t ending)
    (hr : ∀ place ending, m.event ≠ .ready place ending) : m.invoked = none := by
  obtain ⟨w, clock, store, event⟩ := m
  cases event with
  | trigger t ending => exact absurd rfl (ht t ending)
  | ready place ending => exact absurd rfl (hr place ending)
  | call c => rfl
  | notify => rfl
  | setRejecting rejecting => rfl
  | turnLock lock => rfl

theorem invoked_cases (h : m.scheduler.IsSound) {e : Execution η} (he : m.invoked = some e) :
    m.TriggersJob e ∨ m.RunsReady e := by
  by_cases ht : ∃ t ending, m.event = .trigger t ending
  · obtain ⟨t, ending, hevent⟩ := ht
    exact Or.inl (triggersJob_of_invoked hevent h he)
  · by_cases hr : ∃ place ending, m.event = .ready place ending
    · obtain ⟨place, ending, hevent⟩ := hr
      exact Or.inr (runsReady_of_invoked hevent he)
    · have hnone := invoked_eq_none (fun t ending hevent => ht ⟨t, ending, hevent⟩)
        fun place ending hevent => hr ⟨place, ending, hevent⟩
      rw [hnone] at he
      cases he

/-- Jobs are run as their triggers, the lock and the readiness of the host say. -/
structure IsOrderly (m : Moment η) : Prop where
  invoked_iff : ∀ e, m.invoked = some e ↔ m.TriggersJob e ∧ m.isOpen = true ∨ m.RunsReady e
  triggered : ∀ e, m.TriggersJob e →
    ∃ ending, m.RunsJob e ending m.isOpen (m.scheduler.inquiry m.now)
  readied : ∀ e, m.RunsReady e → ∃ ending, m.RunsJob e ending true []

theorem isOrderly (h : m.scheduler.IsSound) : m.IsOrderly where
  invoked_iff := by
    intro e
    constructor
    · intro he
      rcases invoked_cases h he with htriggers | hready
      · obtain ⟨ending, hruns⟩ := htriggers.runsJob h
        refine Or.inl ⟨htriggers, ?_⟩
        have hinvoked := hruns.invoked
        rw [he] at hinvoked
        split at hinvoked
        · next hopen => exact hopen
        · cases hinvoked
      · exact Or.inr hready
    · rintro (⟨htriggers, hopen⟩ | hready)
      · obtain ⟨ending, hruns⟩ := htriggers.runsJob h
        rw [hruns.invoked, if_pos hopen]
      · obtain ⟨ending, hruns⟩ := hready.runsJob
        exact hruns.invoked
  triggered := fun e he => he.runsJob h
  readied := fun e he => he.runsJob

end Moment

/-! ## The ways in which handlers end -/

def Event.blank : Event η → Event η
  | trigger t _ => .trigger t .completed
  | ready place _ => .ready place .completed
  | e => e

/-- An occasion, but for how a handler ends. -/
def Occasion.blank (o : Occasion η) : Occasion η := { o with event := o.event.blank }

/-- Two outcomes that differ at most in what is logged. -/
structure Agree {α : Type} (o p : LockOutcome η α) : Prop where
  result : o.result = p.result
  scheduler : o.scheduler = p.scheduler
  store : o.store = p.store
  spawned : spawned o.effects = spawned p.effects
  lockCalls : lockCalls o.effects = lockCalls p.effects

theorem Agree.refl {α : Type} (o : LockOutcome η α) : Agree o o := ⟨rfl, rfl, rfl, rfl, rfl⟩

theorem Agree.deed {o p : LockOutcome η (Option (Execution η))} (h : Agree o p) :
    Agree o.deed p.deed :=
  ⟨congrArg (Deed.mk none) h.result, h.scheduler, h.store, h.spawned, h.lockCalls⟩

theorem agree_ending (o : LockOutcome η (Option (Execution η))) (a b : RunEnd)
    (woken : List (Effect η)) :
    Agree { o.ending a with effects := woken ++ (o.ending a).effects }
      { o.ending b with effects := woken ++ (o.ending b).effects } := by
  have hspawned : ∀ c : RunEnd,
      spawned (woken ++ (o.ending c).effects) = spawned woken ++ spawned o.effects := by
    intro c
    unfold LockOutcome.ending
    rw [spawned_append, spawned_append]
    cases o.result with
    | none => exact congrArg (_ ++ ·) (List.append_nil _)
    | some e => rw [c.spawned_effects e.name, List.append_nil]
  have hcalls : ∀ c : RunEnd,
      lockCalls (woken ++ (o.ending c).effects) = lockCalls woken ++ lockCalls o.effects := by
    intro c
    rw [lockCalls_append, o.lockCalls_ending c]
  exact ⟨rfl, rfl, rfl, (hspawned a).trans (hspawned b).symm, (hcalls a).trans (hcalls b).symm⟩

theorem agree_trigger (s : Scheduler η) (store : LeaseStore) (clock : Clock) (t : Trigger)
    (a b : RunEnd) : Agree (s.trigger store clock t a) (s.trigger store clock t b) := by
  unfold Scheduler.trigger
  cases s.engine.trigger? clock.wall t with
  | none => exact Agree.refl _
  | some left => exact agree_ending _ a b left.2.2

theorem perform_blank (w : Service η) (o : Occasion η) :
    Agree (w.perform o) (w.perform o.blank) := by
  obtain ⟨clock, store, event⟩ := o
  cases event with
  | trigger t ending => exact (agree_trigger w.scheduler store clock t ending .completed).deed
  | ready place ending =>
    unfold perform Occasion.blank Event.blank
    dsimp only
    cases w.released[place]? with
    | none => exact Agree.refl _
    | some c => exact (agree_ending _ ending .completed []).deed
  | call c => exact Agree.refl _
  | notify => exact Agree.refl _
  | setRejecting rejecting => exact Agree.refl _
  | turnLock lock => exact Agree.refl _

theorem step_blank (w : Service η) (o : Occasion η) : w.step o = w.step o.blank := by
  have hagree := w.perform_blank o
  have hawaiting : w.awaiting o.event = w.awaiting o.blank.event := by
    obtain ⟨clock, store, event⟩ := o
    cases event <;> rfl
  unfold step
  rw [hagree.scheduler, hagree.spawned, hawaiting]

theorem run_blank (w : Service η) (os : List (Occasion η)) :
    w.run os = w.run (os.map Occasion.blank) := by
  induction os generalizing w with
  | nil => rfl
  | cons o os ih =>
    show (w.step o).run os = (w.step o.blank).run (os.map Occasion.blank)
    rw [ih, step_blank]

/-- What is seen of a moment apart from its log. -/
def Moment.visible (m : Moment η) : Deed η × LeaseStore × List LockCall :=
  (m.outcome.result, m.outcome.store, lockCalls m.effects)

theorem visible_blank (w : Service η) (os : List (Occasion η)) :
    (w.history os).map Moment.visible =
      (w.history (os.map Occasion.blank)).map Moment.visible := by
  induction os generalizing w with
  | nil => rfl
  | cons o os ih =>
    have hagree := w.perform_blank o
    have hfirst : ({ before := w, occasion := o } : Moment η).visible =
        ({ before := w, occasion := o.blank } : Moment η).visible := by
      unfold Moment.visible Moment.effects Moment.outcome
      rw [hagree.result, hagree.store, hagree.lockCalls]
    show _ :: ((w.step o).history os).map Moment.visible =
      _ :: ((w.step o.blank).history (os.map Occasion.blank)).map Moment.visible
    rw [hfirst, ih, step_blank]

/-- A trigger of an active job calls its handler once if no lock is installed or the one that is
says it is held, and not at all otherwise; a run at readiness calls it once and asks no lock;
nothing else calls a handler.  Each run is logged by its start, its end and whatever went wrong, and
touches nothing.  However the handlers end, all that comes later is the same.  In a rehearsal, where
handlers are scripts, it is tasks that carry this out, and each call is counted there once. -/
theorem runs_in_order {w : Service η} (h : w.scheduler.IsNew) (os : List (Occasion η)) :
    (∀ m ∈ w.history os, m.IsOrderly) ∧
      (∀ ps : List (Occasion η), ps.map Occasion.blank = os.map Occasion.blank →
        w.run ps = w.run os ∧
          (w.history ps).map Moment.visible = (w.history os).map Moment.visible) ∧
      ∀ (v : Rehearsal.World) (i : Nat) (s : Rehearsal.Station),
        v.station? i = some s → v.CarriesOut i s := by
  refine ⟨?_, ?_, fun v i s hs => Rehearsal.World.carriesOut hs⟩
  · intro m hm
    exact Moment.isOrderly (keeps_isSound.history h.isSound hm)
  · intro ps hps
    rw [w.run_blank ps, w.run_blank os, w.visible_blank ps, w.visible_blank os, hps]
    exact ⟨rfl, rfl⟩

def hooked : Service String :=
  { scheduler := { engine := .clockwork, ready := some {} } }

/-- The lease lasts for eight seconds, so that it is held at the first of two triggers. -/
def morning : List (Occasion String) :=
  timetable
    [(0, .call (.add true "report" "@every 5s" "r")),
      (0, .call (.addOnReady true "warm" "@every 1h" "w")),
      (0, .call (.setLock (.lease { name := "nightly", holder := "a", ttl := 8000000000 }))),
      (0, .call .start), (5, .trigger (.timer 0) (.panicked .nonText)),
      (10, .trigger (.timer 0) .completed), (11, .notify), (12, .ready 0 (.failed (.other "cold")))]

theorem morning_runs_in_order :
    hooked.scheduler.IsNew ∧
      (hooked.history morning).map Moment.invoked =
        [none, none, none, none, some { name := "report", handler := "r" }, none, none,
          some { name := "warm", handler := "w" }] ∧
      (∀ m ∈ hooked.history morning, m.IsOrderly) ∧
      hooked.run (morning.map Occasion.blank) = hooked.run morning := by
  have hnew : hooked.scheduler.IsNew :=
    { engine := Or.inl rfl, jobs := rfl, state := rfl, refreshEntry := rfl }
  obtain ⟨horderly, hblank, -⟩ := runs_in_order hnew morning
  refine ⟨hnew, ?_, horderly, (hblank (morning.map Occasion.blank) rfl).1⟩
  decide +kernel

end Service
end RecurringJobs
