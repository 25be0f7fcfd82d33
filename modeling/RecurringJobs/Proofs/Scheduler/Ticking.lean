import RecurringJobs.Proofs.Engine.Refusals
import RecurringJobs.Proofs.Plan.Sequence
import RecurringJobs.Proofs.Scheduler.Moves

/-!
Timers that wait for what is still to come.

Every call leaves an engine that is driven by clockwork sound, and arms timers only for whole
seconds after the one that the clock reads.  The time left until then is none only at the end of a
leap second, where the beginning of the next day is no later than the clock; a timer that has gone
off waits for some time in any case.
-/

namespace RecurringJobs

variable {η : Type}

namespace Instant

/-- A whole second that is still to come. -/
def IsAhead (now due : Instant) : Prop := now.Before due ∧ due.nanos = 0

theorem IsAhead.seconds_lt {now due : Instant} (h : now.IsAhead due) :
    now.seconds < due.seconds := by
  obtain ⟨hbefore, hwhole⟩ := h
  rw [before_iff, hwhole] at hbefore
  omega

theorem not_isAhead_self (due : Instant) : ¬due.IsAhead due := fun h =>
  Int.lt_irrefl _ h.seconds_lt

theorem leapsBetween_nonneg (now : Instant) {due : Instant} (hwhole : due.nanos = 0) :
    0 ≤ now.leapsBetween due := by
  have hdue : due.isLeap = false := by simp [isLeap, hwhole, TimeUnit.nanosPerSecond]
  unfold leapsBetween
  simp only [hdue]
  split <;> simp

/-- There is time left until a second that is still to come, but perhaps in a leap second. -/
theorem nanosTo_pos {now due : Instant} (hleap : now.isLeap = false) (h : now.IsAhead due) :
    0 < now.nanosTo due := by
  have hlt := h.seconds_lt
  have hleaps := leapsBetween_nonneg now h.2
  have hnanos : now.nanos < TimeUnit.nanosPerSecond := by simpa [isLeap] using hleap
  unfold nanosTo
  rw [h.2]
  unfold TimeUnit.nanosPerSecond at *
  omega

/-- In a leap second there is time left until any second but the next one. -/
theorem nanosTo_pos_of_next {now due later : Instant}
    (hnanos : now.nanos < 2 * TimeUnit.nanosPerSecond) (h : now.IsAhead due)
    (hlater : due.IsAhead later) : 0 < now.nanosTo later := by
  have hlt := h.seconds_lt
  have hlt' := hlater.seconds_lt
  have hleaps := leapsBetween_nonneg now hlater.2
  unfold nanosTo
  rw [hlater.2]
  unfold TimeUnit.nanosPerSecond at *
  omega

theorem IsAhead.of_later {now base due : Instant} (h : (base.later now).IsAhead due) :
    now.IsAhead due := by
  obtain ⟨hbefore, hwhole⟩ := h
  refine ⟨?_, hwhole⟩
  unfold later at hbefore
  split at hbefore
  · exact hbefore
  · next hlater =>
    have hnow : now.Before base := Bool.eq_false_iff.mpr hlater
    exact hnow.trans hbefore

theorem IsAhead.later_eq {now due : Instant} (h : now.IsAhead due) : due.later now = due := by
  have hbefore : due.le now = false := h.1
  simp [later, hbefore]

end Instant

namespace Plan

theorem Leads.isAhead {plan : Plan} (hplan : plan.Advances) {a b : Instant} (h : plan.Leads a b) :
    a.IsAhead b := ⟨h.before hplan, nanos_of_next? h⟩

theorem Advances.isAhead {plan : Plan} (hplan : plan.Advances) {now due : Instant}
    (h : plan.due? now = some due) : now.IsAhead due := by
  unfold due? at h
  split at h
  · next hnext =>
    subst h
    exact Leads.isAhead hplan hnext
  · cases h

end Plan

/-! ## Effects -/

/-- A timer is armed for a second after `now`, and one that waits again does so for some time. -/
def Effect.IsTimely (now : Instant) : Effect η → Prop
  | .arm _ due => now.IsAhead due
  | .wait _ due => 0 < now.nanosTo due
  | _ => True

def Timely (now : Instant) (es : List (Effect η)) : Prop := ∀ x ∈ es, x.IsTimely now

@[simp] theorem timely_nil (now : Instant) : Timely now ([] : List (Effect η)) := by
  simp [Timely]

@[simp] theorem timely_cons {now : Instant} {x : Effect η} {es : List (Effect η)} :
    Timely now (x :: es) ↔ x.IsTimely now ∧ Timely now es := by
  simp [Timely]

@[simp] theorem timely_append {now : Instant} {es es' : List (Effect η)} :
    Timely now (es ++ es') ↔ Timely now es ∧ Timely now es' := by
  simp [Timely, or_imp, forall_and]

@[simp] theorem Effect.isTimely_log (now : Instant) (e : LogEvent) :
    (Effect.log e : Effect η).IsTimely now := trivial

@[simp] theorem Effect.isTimely_engine (now : Instant) (c : EngineCall) :
    (Effect.engine c : Effect η).IsTimely now := trivial

@[simp] theorem Effect.isTimely_lock (now : Instant) (c : LockCall) :
    (Effect.lock c : Effect η).IsTimely now := trivial

@[simp] theorem Effect.isTimely_spawn (now : Instant) (c : ReadyCallback η) :
    (Effect.spawn c).IsTimely now := trivial

theorem Timer.effects_timely (await : Instant → Effect η) {now base : Instant}
    (hawait : ∀ due, base.IsAhead due → (await due).IsTimely now) (id : Nat) {plan : Plan}
    (hplan : plan.Advances) : Timely now (Timer.effects await id plan base) := by
  unfold Timer.effects
  split
  · next due hdue => simp [hawait due (Plan.Leads.isAhead hplan hdue)]
  · simp [Effect.IsTimely]
  · simp

/-! ## Engines -/

namespace Engine

variable {e : Engine η} {now : Instant}

/-- Every timer waits for a second that is still to come. -/
def IsAhead (e : Engine η) (now : Instant) : Prop :=
  ∀ t ∈ e.timers, ∀ due, t.due = some due → now.IsAhead due

/-- It is driven by clockwork and is one that a run reaches.  In a leap second no timer is overdue:
all of them were armed in it. -/
structure IsTicking (e : Engine η) (now : Instant) : Prop where
  sound : e.IsSound
  clockwork : e.refusing = none
  ahead : now.isLeap = true → e.IsAhead now

theorem isTicking_clockwork (now : Instant) : (clockwork : Engine η).IsTicking now :=
  ⟨isSound_clockwork, rfl, fun _ t ht => by cases ht⟩

theorem IsTicking.exists_drive (h : e.IsTicking now) : ∃ c, e.drive = .clockwork c := by
  have hclockwork := h.clockwork
  unfold refusing at hclockwork
  cases hd : e.drive with
  | byHand rejecting => simp [hd] at hclockwork
  | clockwork c => exact ⟨c, rfl⟩

/-- What a call leaves when it keeps the clockwork ticking. -/
structure TicksOn (now : Instant) (e : Engine η) (es : List (Effect η)) : Prop where
  ticking : e.IsTicking now
  timely : Timely now es

theorem IsSound.advances (h : e.IsSound) {x : Entry η} (hx : x ∈ e.entries) : x.plan.Advances :=
  Plan.parse_advances (h.parsed x hx)

theorem IsSound.timer_advances (h : e.IsSound) {t : Timer η} (ht : t ∈ e.timers) :
    t.plan.Advances := by
  have hwork : t.work ∈ e.timers.map Timer.work := List.mem_map_of_mem ht
  rw [h.timed] at hwork
  split at hwork
  · obtain ⟨x, hx, hsame⟩ := List.mem_map.mp hwork
    have hplan : x.plan = t.plan := congrArg (fun work => work.2.1) hsame
    rw [← hplan]
    exact h.advances hx
  · cases hwork

/-! ### Timers that are armed -/

theorem IsAhead.register (h : e.IsAhead now) (text : String) (callback : Callback η) :
    (e.register now text callback).2.1.IsAhead now := by
  rcases e.register_cases now text callback with ⟨plan, e', es, hr, hreg⟩ | ⟨error, hr⟩
  · rw [hr]
    intro t ht due hdue
    rw [hreg.timers] at ht
    rcases List.mem_append.mp ht with ht | ht
    · exact h t ht due hdue
    · unfold newTimers at ht
      split at ht
      · rw [List.mem_singleton.mp ht] at hdue
        exact (Plan.parse_advances hreg.parsed).isAhead hdue
      · cases ht
  · rw [hr]
    exact h

theorem IsAhead.unregister (h : e.IsAhead now) (id : Nat) : (e.unregister id).1.IsAhead now := by
  intro t ht due hdue
  rw [unregister_timers] at ht
  split at ht
  · exact h t (List.mem_of_mem_filter ht) due hdue
  · exact h t ht due hdue

theorem ahead_armAll {c : Clockwork η} (hc : ∀ t ∈ c.timers, ∀ due, t.due = some due →
    now.IsAhead due) {xs : List (Entry η)} (hxs : ∀ x ∈ xs, x.plan.Advances) :
    ∀ t ∈ (c.armAll now xs).1.timers, ∀ due, t.due = some due → now.IsAhead due := by
  induction xs generalizing c with
  | nil => exact hc
  | cons x xs ih =>
    refine ih (c := c.arm x now) ?_ fun y hy => hxs y (by simp [hy])
    intro t ht due hdue
    rcases List.mem_append.mp ht with ht | ht
    · exact hc t ht due hdue
    · rw [List.mem_singleton.mp ht] at hdue
      exact (hxs x (by simp)).isAhead hdue

theorem IsAhead.start (h : e.IsAhead now) (hsound : e.IsSound) : (e.start now).1.IsAhead now := by
  have hentries : ∀ x ∈ e.entries, x.plan.Advances := fun x hx => hsound.advances hx
  unfold IsAhead timers at h
  unfold Engine.start
  cases hd : e.drive with
  | byHand rejecting =>
    intro t ht
    simp [timers, hd] at ht
  | clockwork c =>
    rw [hd] at h
    dsimp only
    split
    · intro t ht
      simp only [timers, hd] at ht
      exact h t ht
    · exact ahead_armAll (c := { c with running := true, everStarted := true }) h hentries

theorem IsAhead.stop (h : e.IsAhead now) : e.stop.1.IsAhead now := by
  cases hrun : e.isRunning with
  | false =>
    rw [stop_of_not_isRunning hrun]
    exact h
  | true =>
    intro t ht
    unfold Engine.stop timers at ht
    cases hd : e.drive with
    | byHand rejecting => simp [hd] at ht
    | clockwork c =>
      have hon : c.running = true := by simpa [isRunning, hd] using hrun
      simp [hd, hon] at ht

theorem IsAhead.fired (h : e.IsAhead now) (hsound : e.IsSound) (serial : Nat) :
    (e.fired serial now).IsAhead now := by
  cases hdue : e.due? serial with
  | none =>
    rw [fired_of_not_due hdue]
    exact h
  | some due =>
    intro t ht next hnext
    rw [(fired_of_due hdue now).2.2.2.2] at ht
    obtain ⟨u, hu, rfl⟩ := List.mem_map.mp ht
    unfold Timer.next at hnext
    split at hnext
    · have hahead : (due.later now).IsAhead next := (hsound.timer_advances hu).isAhead hnext
      exact hahead.of_later
    · exact h u hu next hnext

/-! ### Operations -/

theorem IsTicking.register (h : e.IsTicking now) (text : String) (callback : Callback η) :
    TicksOn now (e.register now text callback).2.1 (e.register now text callback).2.2 := by
  refine ⟨⟨h.sound.register now text callback, ?_, fun hleap => (h.ahead hleap).register _ _⟩, ?_⟩
  · rw [refusing_register]
    exact h.clockwork
  · obtain ⟨c, hc⟩ := h.exists_drive
    unfold Engine.register
    rw [hc]
    cases hp : Plan.parse text with
    | error error => simp
    | ok plan =>
      dsimp only
      split
      · have htimer : Timely now
            (Timer.effects (.arm c.armings) (e.lastId + 1) plan now : List (Effect η)) :=
          Timer.effects_timely (.arm c.armings) (fun _ hdue => hdue) _ (Plan.parse_advances hp)
        simp [htimer]
      · simp

theorem IsTicking.unregister (h : e.IsTicking now) (id : Nat) :
    TicksOn now (e.unregister id).1 (e.unregister id).2 := by
  refine ⟨⟨h.sound.unregister id, ?_, fun hleap => (h.ahead hleap).unregister id⟩, ?_⟩
  · rw [refusing_unregister]
    exact h.clockwork
  · unfold Engine.unregister
    cases e.drive with
    | byHand rejecting => simp
    | clockwork c => cases e.entry? id <;> simp

theorem timely_armAll (c : Clockwork η) {xs : List (Entry η)} (hxs : ∀ x ∈ xs, x.plan.Advances) :
    Timely now (c.armAll now xs).2 := by
  induction xs generalizing c with
  | nil => simp [Clockwork.armAll]
  | cons x xs ih =>
    have htimer : Timely now (Timer.effects (.arm c.armings) x.id x.plan now : List (Effect η)) :=
      Timer.effects_timely (.arm c.armings) (fun _ hdue => hdue) _ (hxs x (by simp))
    have hrest := ih (c.arm x now) fun y hy => hxs y (by simp [hy])
    simp [Clockwork.armAll, htimer, hrest]

theorem IsTicking.start (h : e.IsTicking now) : TicksOn now (e.start now).1 (e.start now).2 := by
  refine ⟨⟨h.sound.start now, ?_, fun hleap => (h.ahead hleap).start h.sound⟩, ?_⟩
  · rw [refusing_start]
    exact h.clockwork
  · unfold Engine.start
    cases e.drive with
    | byHand rejecting => simp
    | clockwork c =>
      dsimp only
      split
      · simp
      · have harmed : Timely now
            (Clockwork.armAll { c with running := true, everStarted := true } now e.entries).2 :=
          timely_armAll _ fun x hx => h.sound.advances hx
        simp [harmed]

theorem IsTicking.startWithoutRuntime (h : e.IsTicking now) :
    TicksOn now e.startWithoutRuntime.1 e.startWithoutRuntime.2 := by
  obtain ⟨c, hc⟩ := h.exists_drive
  unfold Engine.startWithoutRuntime
  rw [hc]
  exact ⟨h, by simp⟩

theorem IsTicking.stop (h : e.IsTicking now) : TicksOn now e.stop.1 e.stop.2 := by
  refine ⟨⟨h.sound.stop, ?_, fun hleap => (h.ahead hleap).stop⟩, ?_⟩
  · rw [refusing_stop]
    exact h.clockwork
  · unfold Engine.stop
    cases e.drive with
    | byHand rejecting => simp
    | clockwork c => dsimp only; split <;> simp

/-- A timer that goes off has at most one thing to do: to wait again, or to say that nothing is left
to wait for. -/
theorem fire_effects {serial : Nat} {callback : Callback η} {e' : Engine η}
    {es : List (Effect η)} (h : e.fire serial now = some (callback, e', es)) :
    ∃ t ∈ e.timers, ∃ due, t.due = some due ∧
      es = Timer.effects (.wait serial) t.id t.plan (due.later now) := by
  unfold fire at h
  unfold timers
  cases hd : e.drive with
  | byHand rejecting => simp [hd] at h
  | clockwork c =>
    rw [hd] at h
    dsimp only at h ⊢
    split at h
    · cases h
    · next t ht =>
      split at h
      · cases h
      · next due hdue =>
        cases h
        exact ⟨t, List.mem_of_find?_eq_some ht, due, hdue, rfl⟩

/-- In a leap second the next trigger is two seconds off at least, for the last one was still to
come. -/
theorem IsTicking.fire (h : e.IsTicking now) (hnanos : now.nanos < 2 * TimeUnit.nanosPerSecond)
    {serial : Nat} {callback : Callback η} {e' : Engine η} {es : List (Effect η)}
    (hfire : e.fire serial now = some (callback, e', es)) : TicksOn now e' es := by
  have hfired : e.fired serial now = e' := by
    unfold fired
    rw [hfire]
  have hsound := h.sound.fired serial now
  have hclockwork := e.refusing_fired serial now
  have hahead := fun hleap => (h.ahead hleap).fired h.sound serial
  rw [hfired] at hsound hclockwork hahead
  obtain ⟨t, ht, due, hdue, hes⟩ := fire_effects hfire
  refine ⟨⟨hsound, hclockwork.trans h.clockwork, hahead⟩, ?_⟩
  rw [hes]
  refine Timer.effects_timely (.wait serial) (fun next hnext => ?_) _ (h.sound.timer_advances ht)
  show 0 < now.nanosTo next
  cases hleap : now.isLeap with
  | false => exact Instant.nanosTo_pos hleap hnext.of_later
  | true =>
    have hstill := h.ahead hleap t ht due hdue
    rw [hstill.later_eq] at hnext
    exact Instant.nanosTo_pos_of_next hnanos hstill hnext

/-- The clock goes on: out of the leap second, or on in it. -/
theorem IsTicking.later (h : e.IsTicking now) {now' : Instant}
    (hleap : now'.isLeap = true → now.isLeap = true ∧ now'.seconds = now.seconds) :
    e.IsTicking now' := by
  refine ⟨h.sound, h.clockwork, fun hleap' t ht due hdue => ?_⟩
  obtain ⟨hwas, hsame⟩ := hleap hleap'
  have hstill := h.ahead hwas t ht due hdue
  refine ⟨Instant.before_of_seconds_lt ?_, hstill.2⟩
  rw [hsame]
  exact hstill.seconds_lt

end Engine

/-! ## Calls of a scheduler -/

namespace Scheduler

open Engine (TicksOn)

variable {s : Scheduler η} {now : Instant} (h : s.engine.IsTicking now)
include h

theorem add_ticksOn (name plan : String) (handler : η) :
    TicksOn now (s.add now name plan handler).scheduler.engine
      (s.add now name plan handler).effects := by
  unfold add
  split
  · exact ⟨h, by simp⟩
  · dsimp only
    have hreg := h.register plan (.job { name, handler })
    split
    · next hr =>
      rw [hr] at hreg
      exact ⟨h, hreg.timely⟩
    · next hr =>
      rw [hr] at hreg
      exact ⟨hreg.ticking, by simp [hreg.timely]⟩

omit h in
theorem timely_onReady (now : Instant) (signal : ReadySignal η) (runtime : Bool)
    (c : ReadyCallback η) : Timely now (signal.onReady runtime c).2 := by
  unfold ReadySignal.onReady
  split
  · cases runtime <;> simp [ReadySignal.release]
  · simp

omit h in
theorem timely_notify (now : Instant) (signal : ReadySignal η) (runtime : Bool) :
    Timely now (signal.notify runtime).2.2 := by
  unfold ReadySignal.notify
  split
  · simp
  · refine timely_cons.mpr ⟨trivial, fun x hx => ?_⟩
    obtain ⟨c, -, rfl⟩ := List.mem_map.mp hx
    cases runtime <;> simp [ReadySignal.release]

theorem addOnReady_ticksOn (name plan : String) (handler : η) :
    TicksOn now (s.addOnReady now name plan handler).scheduler.engine
      (s.addOnReady now name plan handler).effects := by
  have hadded := add_ticksOn h name plan handler
  unfold addOnReady
  split
  · exact ⟨h, by simp⟩
  · next signal hsignal =>
    dsimp only
    split
    · exact hadded
    · exact ⟨hadded.ticking, by simp [hadded.timely, timely_onReady]⟩

theorem remove_ticksOn (name : String) :
    TicksOn now (s.remove name).scheduler.engine (s.remove name).effects := by
  unfold remove
  split
  · exact ⟨h, by simp⟩
  · dsimp only
    split
    · next id _ _ =>
      have hgone := h.unregister id
      exact ⟨hgone.ticking, by simp [hgone.timely]⟩
    · exact ⟨h, by simp⟩

theorem pause_ticksOn (name : String) :
    TicksOn now (s.pause name).scheduler.engine (s.pause name).effects := by
  unfold pause
  split
  · exact ⟨h, by simp⟩
  · split
    · exact ⟨h, by simp⟩
    · dsimp only
      split
      · next id _ =>
        have hgone := h.unregister id
        exact ⟨hgone.ticking, by simp [hgone.timely]⟩
      · exact ⟨h, by simp⟩

theorem resume_ticksOn (name : String) :
    TicksOn now (s.resume now name).scheduler.engine (s.resume now name).effects := by
  unfold resume
  split
  · exact ⟨h, by simp⟩
  · next record _ =>
    split
    · exact ⟨h, by simp⟩
    · have hreg := h.register record.plan (.job record.execution)
      split
      · next hr =>
        rw [hr] at hreg
        exact ⟨h, hreg.timely⟩
      · next hr =>
        rw [hr] at hreg
        exact ⟨hreg.ticking, by simp [hreg.timely]⟩

omit h in
theorem setLock_engine (s : Scheduler η) (lock : Lock) :
    (s.setLock lock).scheduler.engine = s.engine ∧ (s.setLock lock).effects = [] := by
  unfold setLock
  split <;> exact ⟨rfl, rfl⟩

omit h in
theorem timely_tryLock (now : Instant) (s : Scheduler η) (lock : Lock) (store : LeaseStore)
    (reading : Nat) : Timely now (s.tryLock lock store reading).effects := by
  unfold tryLock leaseLog
  dsimp only
  refine timely_append.mpr ⟨?_, ?_⟩
  · split <;> simp
  · split <;> simp

omit h in
theorem timely_tryUnlock (now : Instant) (s : Scheduler η) (lock : Lock) (store : LeaseStore)
    (reading : Nat) : Timely now (s.tryUnlock lock store reading).effects := by
  unfold tryUnlock
  dsimp only
  split <;> simp

theorem acquire_ticksOn (store : LeaseStore) (reading : Nat) :
    TicksOn now (s.acquire store reading).scheduler.engine (s.acquire store reading).effects := by
  unfold acquire
  split
  · exact ⟨h, by simp⟩
  · refine ⟨h, timely_append.mpr ⟨timely_tryLock now s _ store reading, ?_⟩⟩
    split <;> simp

theorem installRefresh_ticksOn :
    TicksOn now (s.installRefresh now).1.engine (s.installRefresh now).2 := by
  have hreg := h.register s.refreshPlan .refresh
  unfold installRefresh
  dsimp only
  split
  · next hr =>
    rw [hr] at hreg
    exact ⟨hreg.ticking, by simp [hreg.timely]⟩
  · next hr =>
    rw [hr] at hreg
    exact ⟨hreg.ticking, by simp [hreg.timely]⟩

omit h in
theorem start_ticksOn {clock : Clock} (h : s.engine.IsTicking clock.wall) (store : LeaseStore) :
    TicksOn clock.wall (s.start store clock).scheduler.engine (s.start store clock).effects := by
  unfold start
  split
  · exact ⟨h, by simp⟩
  · have htried := acquire_ticksOn (s := { s with state := .started }) h store clock.elapsed
    dsimp only
    split
    · exact htried
    · split
      · have hinstalled := installRefresh_ticksOn htried.ticking
        have hstarted := hinstalled.ticking.start
        exact ⟨hstarted.ticking, by simp [htried.timely, hinstalled.timely, hstarted.timely]⟩
      · have hstarted := htried.ticking.start
        exact ⟨hstarted.ticking, by simp [htried.timely, hstarted.timely]⟩

omit h in
theorem timely_stopLogs (now : Instant) (answer : LockAnswer) :
    Timely now (stopLogs answer : List (Effect η)) := by
  cases answer <;> simp [stopLogs]

theorem stop_ticksOn (store : LeaseStore) (reading : Nat) :
    TicksOn now (s.stop store reading).scheduler.engine (s.stop store reading).effects := by
  have hstopped := h.stop
  have hremoved := fun id => hstopped.ticking.unregister id
  unfold stop
  split
  · exact ⟨h, by simp⟩
  · dsimp only
    cases s.lock with
    | none =>
      cases s.refreshEntry with
      | none => exact ⟨hstopped.ticking, by simp [hstopped.timely, timely_stopLogs]⟩
      | some id =>
        exact ⟨(hremoved id).ticking,
          by simp [hstopped.timely, (hremoved id).timely, timely_stopLogs]⟩
    | some lock =>
      cases s.refreshEntry with
      | none =>
        exact ⟨hstopped.ticking, by simp [hstopped.timely, timely_tryUnlock, timely_stopLogs]⟩
      | some id =>
        exact ⟨(hremoved id).ticking, by
          simp [hstopped.timely, (hremoved id).timely, timely_tryUnlock, timely_stopLogs]⟩

end Scheduler
end RecurringJobs
