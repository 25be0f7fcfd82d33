import Mathlib.Data.List.Induction
import Mathlib.Data.List.Perm.Basic
import RecurringJobs.Proofs.Scheduler.Invocations

/-!
Jobs that are run once when the host is ready.

Only two events have to do with the readiness signal: an addition that queues a job, and the notice
that the host is ready (`Moment.leavesReady`).  So the signal always tells what the history says
(`signal_of_run`), and what is released is neither lost nor run twice (`released_perm`).
-/

namespace RecurringJobs

variable {η : Type}

/-! ## Effects -/

theorem spawned_of_idle {es : List (Effect η)} (h : ∀ x ∈ es, x.IsIdle) : spawned es = [] :=
  List.filterMap_eq_nil_iff.mpr fun x hx => (h x hx).2.2

theorem Clockwork.spawned_armAll (c : Clockwork η) (now : Instant) (xs : List (Entry η)) :
    spawned (c.armAll now xs).2 = [] := by
  induction xs generalizing c with
  | nil => rfl
  | cons x xs ih =>
    have htimer : ∀ y ∈ (Timer.effects (.arm c.armings) x.id x.plan now : List (Effect η)),
        y.IsIdle := idle_effects (fun _ => ⟨rfl, rfl, rfl⟩) x.id x.plan now
    have hrest := ih (c.arm x now)
    show spawned (_ ++ ((c.arm x now).armAll now xs).2) = []
    rw [spawned_append, spawned_of_idle htimer, hrest]
    rfl

namespace Engine

theorem spawned_register {e e' : Engine η} {now : Instant} {text : String}
    {callback : Callback η} {result : Except EngineError Nat} {es : List (Effect η)}
    (h : e.register now text callback = (result, e', es)) : spawned es = [] := by
  have hquiet : spawned (e.register now text callback).2.2 = [] := by
    unfold register
    cases e.drive with
    | byHand rejecting =>
      cases rejecting with
      | true => rfl
      | false => cases Plan.parse text <;> rfl
    | clockwork c =>
      cases Plan.parse text with
      | error error => rfl
      | ok plan =>
        dsimp only
        split
        · rw [spawned_append, spawned_of_idle (idle_effects (fun _ => ⟨rfl, rfl, rfl⟩) _ _ _)]
          rfl
        · rfl
  rw [h] at hquiet
  exact hquiet

theorem spawned_unregister (e : Engine η) (id : Nat) : spawned (e.unregister id).2 = [] := by
  unfold unregister
  cases e.drive with
  | byHand rejecting => rfl
  | clockwork c => cases e.entry? id <;> rfl

theorem spawned_start (e : Engine η) (now : Instant) : spawned (e.start now).2 = [] := by
  unfold start
  cases e.drive with
  | byHand rejecting => rfl
  | clockwork c =>
    dsimp only
    split
    · rfl
    · show spawned ((.engine .start :: (Clockwork.armAll _ now e.entries).2) ++ [_]) = []
      have harmed := Clockwork.spawned_armAll { c with running := true, everStarted := true } now
        e.entries
      rw [spawned_append]
      exact congrArg (· ++ []) harmed

theorem spawned_stop (e : Engine η) : spawned e.stop.2 = [] := by
  unfold stop
  cases e.drive with
  | byHand rejecting => rfl
  | clockwork c => dsimp only; split <;> rfl

end Engine

/-! ## What leaves the readiness signal alone -/

namespace Scheduler

/-- The signal stays as it is, and nothing is released. -/
structure LeavesReady (s s' : Scheduler η) (es : List (Effect η)) : Prop where
  ready : s'.ready = s.ready
  spawned : spawned es = []

theorem add_leavesReady (s : Scheduler η) (now : Instant) (name plan : String) (handler : η) :
    let o := s.add now name plan handler
    s.LeavesReady o.scheduler o.effects := by
  unfold add
  split
  · exact ⟨rfl, rfl⟩
  · dsimp only
    split
    · next hr => exact ⟨rfl, Engine.spawned_register hr⟩
    · next hr =>
      refine ⟨rfl, ?_⟩
      rw [spawned_append, Engine.spawned_register hr]
      rfl

theorem remove_leavesReady (s : Scheduler η) (name : String) :
    s.LeavesReady (s.remove name).scheduler (s.remove name).effects := by
  unfold remove
  split
  · exact ⟨rfl, rfl⟩
  · refine ⟨rfl, ?_⟩
    rw [spawned_append]
    split
    · rw [Engine.spawned_unregister]
      rfl
    · rfl

theorem pause_leavesReady (s : Scheduler η) (name : String) :
    s.LeavesReady (s.pause name).scheduler (s.pause name).effects := by
  unfold pause
  split
  · exact ⟨rfl, rfl⟩
  · split
    · exact ⟨rfl, rfl⟩
    · refine ⟨rfl, ?_⟩
      rw [spawned_append]
      split
      · rw [Engine.spawned_unregister]
        rfl
      · rfl

theorem resume_leavesReady (s : Scheduler η) (now : Instant) (name : String) :
    s.LeavesReady (s.resume now name).scheduler (s.resume now name).effects := by
  unfold resume
  split
  · exact ⟨rfl, rfl⟩
  · split
    · exact ⟨rfl, rfl⟩
    · split
      · next hr => exact ⟨rfl, Engine.spawned_register hr⟩
      · next hr =>
        refine ⟨rfl, ?_⟩
        rw [spawned_append, Engine.spawned_register hr]
        rfl

theorem setLock_leavesReady (s : Scheduler η) (lock : Lock) :
    s.LeavesReady (s.setLock lock).scheduler (s.setLock lock).effects := by
  unfold setLock
  split <;> exact ⟨rfl, rfl⟩

theorem spawned_leaseLog (lock : Lock) (answer : LockAnswer) :
    RecurringJobs.spawned (leaseLog lock answer : List (Effect η)) = [] := by
  unfold leaseLog
  split <;> rfl

theorem tryLock_leavesReady (s : Scheduler η) (lock : Lock) (store : LeaseStore) (now : Nat) :
    s.LeavesReady (s.tryLock lock store now).scheduler (s.tryLock lock store now).effects := by
  refine ⟨rfl, ?_⟩
  unfold tryLock
  dsimp only
  rw [spawned_append, spawned_leaseLog]
  cases (lock.tryLock store now).1 <;> rfl

theorem tryUnlock_leavesReady (s : Scheduler η) (lock : Lock) (store : LeaseStore) (now : Nat) :
    s.LeavesReady (s.tryUnlock lock store now).scheduler (s.tryUnlock lock store now).effects := by
  refine ⟨rfl, ?_⟩
  unfold tryUnlock
  dsimp only
  cases (lock.tryUnlock store now).1 <;> rfl

theorem acquire_leavesReady (s : Scheduler η) (store : LeaseStore) (now : Nat) :
    s.LeavesReady (s.acquire store now).scheduler (s.acquire store now).effects := by
  unfold acquire
  cases s.lock with
  | none => exact ⟨rfl, rfl⟩
  | some lock =>
    have htried := s.tryLock_leavesReady lock store now
    refine ⟨htried.ready, ?_⟩
    dsimp only
    rw [spawned_append, htried.spawned]
    cases (s.tryLock lock store now).result <;> rfl

theorem installRefresh_leavesReady (s : Scheduler η) (now : Instant) :
    s.LeavesReady (s.installRefresh now).1 (s.installRefresh now).2 := by
  unfold installRefresh
  dsimp only
  split
  · next hr =>
    refine ⟨rfl, ?_⟩
    rw [spawned_append, Engine.spawned_register hr]
    rfl
  · next hr =>
    refine ⟨rfl, ?_⟩
    rw [spawned_append, Engine.spawned_register hr]
    rfl

theorem start_leavesReady (s : Scheduler η) (store : LeaseStore) (clock : Clock) :
    s.LeavesReady (s.start store clock).scheduler (s.start store clock).effects := by
  unfold start
  split
  · exact ⟨rfl, rfl⟩
  · have htried := acquire_leavesReady { s with state := .started } store clock.elapsed
    dsimp only
    split
    · exact ⟨htried.ready, htried.spawned⟩
    · cases (Scheduler.acquire { s with state := .started } store clock.elapsed).scheduler.lock with
      | none =>
        refine ⟨htried.ready, ?_⟩
        simp only [spawned_append, htried.spawned, Engine.spawned_start]
        rfl
      | some lock =>
        have hinstalled := installRefresh_leavesReady
          (Scheduler.acquire { s with state := .started } store clock.elapsed).scheduler clock.wall
        refine ⟨hinstalled.ready.trans htried.ready, ?_⟩
        simp only [spawned_append, htried.spawned, hinstalled.spawned, Engine.spawned_start]
        rfl

theorem spawned_stopLogs (answer : LockAnswer) :
    RecurringJobs.spawned (stopLogs answer : List (Effect η)) = [] := by
  cases answer <;> rfl

theorem stop_leavesReady (s : Scheduler η) (store : LeaseStore) (now : Nat) :
    s.LeavesReady (s.stop store now).scheduler (s.stop store now).effects := by
  unfold stop
  split
  · exact ⟨rfl, rfl⟩
  · have hreleased : ∀ t : Scheduler η, ∀ lock,
        RecurringJobs.spawned (t.tryUnlock lock store now).effects = [] :=
      fun t lock => (t.tryUnlock_leavesReady lock store now).spawned
    dsimp only
    cases s.lock with
    | none =>
      cases s.refreshEntry <;>
      · refine ⟨rfl, ?_⟩
        simp only [spawned_append, Engine.spawned_stop, Engine.spawned_unregister]
        rfl
    | some lock =>
      cases s.refreshEntry <;>
      · refine ⟨rfl, ?_⟩
        simp only [spawned_append, Engine.spawned_stop, Engine.spawned_unregister, hreleased,
          spawned_stopLogs]
        rfl

/-- Of all calls only the addition of a job that is to be run when the host is ready has to do with
the signal. -/
theorem ask_leavesReady (s : Scheduler η) (store : LeaseStore) (clock : Clock) {c : Call η}
    (hc : ∀ must name plan handler, c ≠ .addOnReady must name plan handler) :
    s.LeavesReady (s.ask store clock c).scheduler (s.ask store clock c).effects := by
  cases c with
  | add must name plan handler =>
    have hadded := s.add_leavesReady clock.wall name plan handler
    exact ⟨hadded.ready, hadded.spawned⟩
  | addOnReady must name plan handler => exact absurd rfl (hc must name plan handler)
  | remove name => exact ⟨(s.remove_leavesReady name).ready, (s.remove_leavesReady name).spawned⟩
  | pause name => exact ⟨(s.pause_leavesReady name).ready, (s.pause_leavesReady name).spawned⟩
  | resume name =>
    have hresumed := s.resume_leavesReady clock.wall name
    exact ⟨hresumed.ready, hresumed.spawned⟩
  | info name => exact ⟨rfl, rfl⟩
  | setLock lock =>
    have hset := s.setLock_leavesReady lock
    exact ⟨hset.ready, hset.spawned⟩
  | start =>
    have hstarted := s.start_leavesReady store clock
    exact ⟨hstarted.ready, hstarted.spawned⟩
  | stop =>
    have hstopped := s.stop_leavesReady store clock.elapsed
    exact ⟨hstopped.ready, hstopped.spawned⟩

theorem attempt_leavesReady (s : Scheduler η) (store : LeaseStore) (now : Nat) (e : Execution η)
    (gated : Bool) (ending : RunEnd) :
    let o := (s.attempt store now e gated).ending ending
    s.LeavesReady o.scheduler o.effects := by
  refine ⟨rfl, ?_⟩
  have hgate : RecurringJobs.spawned (s.gate now e.name gated).2 = [] := by
    unfold gate
    split
    · split <;> rfl
    · rfl
  unfold attempt LockOutcome.ending
  dsimp only
  rw [spawned_append, hgate]
  cases (s.gate now e.name gated).1 with
  | false => rfl
  | true => exact RunEnd.spawned_effects ending e.name

theorem callback_leavesReady (s : Scheduler η) (store : LeaseStore) (clock : Clock)
    (c : Callback η) (ending : RunEnd) :
    let o := (s.take store clock (.callback c)).ending ending
    s.LeavesReady o.scheduler o.effects := by
  cases c with
  | job e => exact s.attempt_leavesReady store clock.elapsed e true ending
  | refresh =>
    have hacquired := s.acquire_leavesReady store clock.elapsed
    refine ⟨hacquired.ready, ?_⟩
    show RecurringJobs.spawned ((s.acquire store clock.elapsed).effects ++ []) = []
    rw [List.append_nil]
    exact hacquired.spawned
  | host label => exact ⟨rfl, rfl⟩

theorem trigger_leavesReady (s : Scheduler η) (store : LeaseStore) (clock : Clock) (t : Trigger)
    (ending : RunEnd) :
    s.LeavesReady (s.trigger store clock t ending).scheduler
      (s.trigger store clock t ending).effects := by
  unfold trigger
  cases htrigger : s.engine.trigger? clock.wall t with
  | none => exact ⟨rfl, rfl⟩
  | some left =>
    obtain ⟨callback, engine, woken⟩ := left
    have hcallback := callback_leavesReady { s with engine } store clock callback ending
    refine ⟨hcallback.ready, ?_⟩
    dsimp only
    rw [spawned_append, spawned_of_idle (Engine.trigger?_idle htrigger), hcallback.spawned]
    rfl

end Scheduler

/-! ## What has to do with it -/

/-- The signal after so many jobs were queued, before or after the host was ready. -/
def ReadySignal.of (ready : Bool) (queued : List (Execution η)) : ReadySignal η :=
  { ready, pending := if ready then [] else queued.map .job }

namespace ReadySignal

theorem onReady_of (ready : Bool) (queued : List (Execution η)) (e : Execution η) :
    ((of ready queued).onReady true (.job e)).1 = of ready (queued ++ [e]) ∧
      spawned ((of ready queued).onReady true (.job e)).2 = if ready then [.job e] else [] := by
  cases ready with
  | true => exact ⟨rfl, rfl⟩
  | false =>
    refine ⟨?_, rfl⟩
    show ({ ready := false, pending := queued.map .job ++ [.job e] } : ReadySignal η) = _
    unfold of
    rw [List.map_append]
    rfl

theorem notify_of (ready : Bool) (queued : List (Execution η)) :
    ((of ready queued).notify true).1 = (if ready then 0 else queued.length) ∧
      ((of ready queued).notify true).2.1 = of true queued ∧
      spawned ((of ready queued).notify true).2.2 = if ready then [] else queued.map .job := by
  cases ready with
  | true => exact ⟨rfl, rfl, rfl⟩
  | false =>
    have hreleased : ∀ cs : List (ReadyCallback η), spawned (cs.map (release true)) = cs := by
      intro cs
      induction cs with
      | nil => rfl
      | cons c cs ih => exact congrArg (c :: ·) ih
    refine ⟨List.length_map _, rfl, ?_⟩
    exact hreleased (queued.map .job)

end ReadySignal

namespace Scheduler

/-- An addition that comes back hands its job to the signal, and one that fails does nothing. -/
theorem addOnReady_ready (s : Scheduler η) (now : Instant) (name plan : String) (handler : η) :
    let o := s.addOnReady now name plan handler
    (o.result = .ok () → ∃ signal, s.ready = some signal ∧
      o.scheduler.ready = some (signal.onReady true (.job { name, handler })).1 ∧
      spawned o.effects = spawned (signal.onReady true (.job { name, handler })).2) ∧
    (o.result ≠ .ok () → s.LeavesReady o.scheduler o.effects) := by
  have hadded := s.add_leavesReady now name plan handler
  unfold addOnReady
  cases hready : s.ready with
  | none => exact ⟨nofun, fun _ => ⟨rfl, rfl⟩⟩
  | some signal =>
    dsimp only
    cases hresult : (s.add now name plan handler).result with
    | error e =>
      dsimp only
      refine ⟨fun hok => ?_, fun _ => hadded⟩
      rw [hresult] at hok
      cases hok
    | ok done =>
      cases done
      dsimp only
      refine ⟨fun _ => ⟨signal, rfl, rfl, ?_⟩, fun hnot => absurd rfl hnot⟩
      rw [spawned_append, spawned_append, hadded.spawned]
      exact List.append_nil _

theorem notify_ready (s : Scheduler η) :
    (s.ready = none → s.LeavesReady s.notify.scheduler s.notify.effects) ∧
    ∀ signal, s.ready = some signal →
      s.notify.scheduler.ready = some (signal.notify true).2.1 ∧
      spawned s.notify.effects = spawned (signal.notify true).2.2 := by
  unfold notify
  cases s.ready with
  | none => exact ⟨fun _ => ⟨rfl, rfl⟩, nofun⟩
  | some signal =>
    refine ⟨nofun, ?_⟩
    rintro _ ⟨⟩
    exact ⟨rfl, rfl⟩

end Scheduler

namespace Service
namespace Moment

variable {m : Moment η}

/-- The job that is to be run when the host is ready, of an addition that came back. -/
def queued? (m : Moment η) : Option (Execution η) :=
  match m.event, m.reply with
  | .call (.addOnReady _ name _ handler), some .done => some { name, handler }
  | _, _ => none

/-- The host says that it is ready. -/
def notifies (m : Moment η) : Bool :=
  match m.event with
  | .notify => true
  | _ => false

/-- The handler that is called because the host is ready. -/
def readyRun? (m : Moment η) : Option (Execution η) :=
  match m.event with
  | .ready _ _ => m.invoked
  | _ => none

end Moment

def queuedIn (ms : List (Moment η)) : List (Execution η) := ms.filterMap Moment.queued?

def notifiedIn (ms : List (Moment η)) : Bool := ms.any Moment.notifies

def readyRuns (ms : List (Moment η)) : List (Execution η) := ms.filterMap Moment.readyRun?

/-- What is released in a moment, after what happened before. -/
def releasedBy (past : List (Moment η)) (m : Moment η) : List (Execution η) :=
  match m.notifies, notifiedIn past with
  | true, true => []
  | true, false => queuedIn past
  | false, true => m.queued?.toList
  | false, false => []

/-- A signal tells what was queued and whether the host was ready.  Without one nothing can be
queued. -/
def Tallies (past : List (Moment η)) : Option (ReadySignal η) → Prop
  | some signal => signal = .of (notifiedIn past) (queuedIn past)
  | none => queuedIn past = []

theorem queuedIn_concat (past : List (Moment η)) (m : Moment η) :
    queuedIn (past ++ [m]) = queuedIn past ++ m.queued?.toList := by
  unfold queuedIn
  rw [List.filterMap_append, List.filterMap_cons]
  cases m.queued? <;> rfl

theorem notifiedIn_concat (past : List (Moment η)) (m : Moment η) :
    notifiedIn (past ++ [m]) = (notifiedIn past || m.notifies) := by
  unfold notifiedIn
  rw [List.any_append, List.any_cons, List.any_nil, Bool.or_false]

namespace Moment

variable {m : Moment η} {past : List (Moment η)}

/-- A moment in which nothing is queued and the host does not say that it is ready. -/
theorem tallies_of_leavesReady (hnotifies : m.notifies = false) (hqueued : m.queued? = none)
    (hleaves : m.scheduler.LeavesReady m.after.scheduler m.effects)
    (h : Tallies past m.scheduler.ready) :
    Tallies (past ++ [m]) m.after.scheduler.ready ∧
      spawned m.effects = (releasedBy past m).map .job := by
  have hsame : Tallies (past ++ [m]) = Tallies past := by
    funext ready
    unfold Tallies
    rw [queuedIn_concat, notifiedIn_concat, hqueued, hnotifies, Option.toList_none,
      List.append_nil, Bool.or_false]
  have hnothing : releasedBy past m = [] := by
    unfold releasedBy
    rw [hnotifies, hqueued]
    cases notifiedIn past <;> rfl
  rw [hsame, hleaves.ready, hnothing]
  exact ⟨h, hleaves.spawned⟩

theorem leavesReady_of_not_call (hcall : ∀ c, m.event ≠ .call c) (hnotify : m.event ≠ .notify) :
    m.scheduler.LeavesReady m.after.scheduler m.effects := by
  obtain ⟨w, clock, store, event⟩ := m
  cases event with
  | call c => exact absurd rfl (hcall c)
  | notify => exact absurd rfl hnotify
  | setRejecting rejecting => exact ⟨rfl, rfl⟩
  | turnLock lock => exact ⟨rfl, rfl⟩
  | trigger t ending =>
    have htriggered := w.scheduler.trigger_leavesReady store clock t ending
    exact ⟨htriggered.ready, htriggered.spawned⟩
  | ready place ending =>
    show w.scheduler.LeavesReady (w.perform _).scheduler (w.perform _).effects
    unfold Service.perform
    dsimp only
    cases w.released[place]? with
    | none => exact ⟨rfl, rfl⟩
    | some c =>
      cases c with
      | job e =>
        have hran := w.scheduler.attempt_leavesReady store clock.elapsed e false ending
        exact ⟨hran.ready, hran.spawned⟩
      | host label => exact ⟨rfl, rfl⟩

theorem tallies_notify (hnotify : m.event = .notify) (h : Tallies past m.scheduler.ready) :
    Tallies (past ++ [m]) m.after.scheduler.ready ∧
      spawned m.effects = (releasedBy past m).map .job := by
  have hnotifies : m.notifies = true := by
    unfold notifies
    rw [hnotify]
  have hqueued : m.queued? = none := by
    unfold queued?
    rw [hnotify]
  have houtcome : m.outcome = (m.scheduler.notify.beside m.occasion.store).deed := by
    have hevent : m.occasion.event = .notify := hnotify
    unfold outcome perform
    rw [hevent]
    rfl
  have hscheduler : m.after.scheduler = m.scheduler.notify.scheduler :=
    congrArg LockOutcome.scheduler houtcome
  have heffects : m.effects = m.scheduler.notify.effects := congrArg LockOutcome.effects houtcome
  obtain ⟨hnone, hsome⟩ := m.scheduler.notify_ready
  have hreleased : releasedBy past m = if notifiedIn past then [] else queuedIn past := by
    unfold releasedBy
    rw [hnotifies]
    cases notifiedIn past <;> rfl
  rw [hscheduler, heffects, hreleased]
  cases hready : m.scheduler.ready with
  | none =>
    rw [hready] at h
    have hempty : queuedIn past = [] := h
    rw [(hnone hready).ready, (hnone hready).spawned, hready, hempty, ite_self]
    refine ⟨?_, rfl⟩
    show queuedIn (past ++ [m]) = []
    rw [queuedIn_concat, hqueued, hempty]
    rfl
  | some signal =>
    rw [hready] at h
    have hsignal : signal = .of (notifiedIn past) (queuedIn past) := h
    obtain ⟨-, hleft, hspawned⟩ := ReadySignal.notify_of (notifiedIn past) (queuedIn past)
    rw [(hsome signal hready).1, (hsome signal hready).2, hsignal, hleft, hspawned]
    refine ⟨?_, ?_⟩
    · show ReadySignal.of true (queuedIn past) = .of (notifiedIn (past ++ [m])) _
      rw [queuedIn_concat, notifiedIn_concat, hqueued, hnotifies, Bool.or_true,
        Option.toList_none, List.append_nil]
    · cases notifiedIn past <;> rfl

theorem tallies_addOnReady {must : Bool} {name plan : String} {handler : η}
    (hevent : m.event = .call (.addOnReady must name plan handler))
    (h : Tallies past m.scheduler.ready) :
    Tallies (past ++ [m]) m.after.scheduler.ready ∧
      spawned m.effects = (releasedBy past m).map .job := by
  have hnotifies : m.notifies = false := by
    unfold notifies
    rw [hevent]
  have hreply : m.reply = some (m.scheduler.ask m.occasion.store m.occasion.clock _).result :=
    reply_call hevent
  have heffects : m.effects =
      (m.scheduler.addOnReady m.occasion.clock.wall name plan handler).effects :=
    congrArg LockOutcome.effects (outcome_call hevent)
  have hscheduler : m.after.scheduler =
      (m.scheduler.addOnReady m.occasion.clock.wall name plan handler).scheduler :=
    after_call hevent
  obtain ⟨hqueues, hfails⟩ :=
    m.scheduler.addOnReady_ready m.occasion.clock.wall name plan handler
  by_cases hok : (m.scheduler.addOnReady m.occasion.clock.wall name plan handler).result = .ok ()
  · have hqueued : m.queued? = some { name, handler } := by
      unfold queued?
      rw [hevent, hreply]
      unfold Scheduler.ask Outcome.answering
      dsimp only
      rw [hok]
    obtain ⟨signal, hready, hleft, hspawned⟩ := hqueues hok
    rw [hready] at h
    have hsignal : signal = .of (notifiedIn past) (queuedIn past) := h
    obtain ⟨hafter, hreleased⟩ :=
      ReadySignal.onReady_of (notifiedIn past) (queuedIn past) { name, handler }
    rw [hscheduler, heffects, hleft, hspawned, hsignal, hafter, hreleased]
    refine ⟨?_, ?_⟩
    · show ReadySignal.of (notifiedIn past) _ = .of (notifiedIn (past ++ [m])) _
      rw [queuedIn_concat, notifiedIn_concat, hqueued, hnotifies, Bool.or_false]
      rfl
    · unfold releasedBy
      rw [hnotifies, hqueued]
      cases notifiedIn past <;> rfl
  · have hqueued : m.queued? = none := by
      unfold queued?
      rw [hevent, hreply]
      unfold Scheduler.ask Outcome.answering
      dsimp only
      cases hresult : (m.scheduler.addOnReady m.occasion.clock.wall name plan handler).result with
      | ok done => exact absurd hresult hok
      | error e => cases must <;> rfl
    refine tallies_of_leavesReady hnotifies hqueued ?_ h
    rw [hscheduler, heffects]
    exact hfails hok

theorem tallies {past : List (Moment η)} (m : Moment η) (h : Tallies past m.scheduler.ready) :
    Tallies (past ++ [m]) m.after.scheduler.ready ∧
      spawned m.effects = (releasedBy past m).map .job := by
  by_cases hnotify : m.event = .notify
  · exact tallies_notify hnotify h
  · have hnotifies : m.notifies = false := by
      unfold notifies
      split
      · next hevent => exact absurd hevent hnotify
      · rfl
    by_cases hcall : ∃ c, m.event = .call c
    · obtain ⟨c, hevent⟩ := hcall
      by_cases hadds : ∃ must name plan handler, c = .addOnReady must name plan handler
      · obtain ⟨must, name, plan, handler, rfl⟩ := hadds
        exact tallies_addOnReady hevent h
      · have hqueued : m.queued? = none := by
          unfold queued?
          rw [hevent]
          cases c with
          | addOnReady must name plan handler => exact absurd ⟨_, _, _, _, rfl⟩ hadds
          | _ => rfl
        refine tallies_of_leavesReady hnotifies hqueued ?_ h
        have hasked := m.scheduler.ask_leavesReady m.occasion.store m.occasion.clock
          fun must name plan handler hc => hadds ⟨must, name, plan, handler, hc⟩
        rw [after_call hevent]
        exact ⟨hasked.ready, (congrArg (fun o => spawned o.effects) (outcome_call hevent)).trans
          hasked.spawned⟩
    · have hother : ∀ c, m.event ≠ .call c := fun c hevent => hcall ⟨c, hevent⟩
      have hqueued : m.queued? = none := by
        unfold queued?
        split
        · next hevent _ => exact absurd hevent (hother _)
        · rfl
      exact tallies_of_leavesReady hnotifies hqueued (leavesReady_of_not_call hother hnotify) h

end Moment

/-! ## What is released is run -/

/-- All that was released: nothing before the host is ready, and everything queued after that. -/
def allReleased (ms : List (Moment η)) : List (Execution η) :=
  if notifiedIn ms then queuedIn ms else []

namespace Moment

variable {m : Moment η}

theorem queued?_of_notifies (h : m.notifies = true) : m.queued? = none := by
  unfold notifies at h
  unfold queued?
  split at h
  · next hevent => rw [hevent]
  · cases h

/-- What is run of what was released. -/
def run? (m : Moment η) : Option (ReadyCallback η) :=
  match m.event with
  | .ready place _ => m.before.released[place]?
  | _ => none

/-- What is to be run after a moment is what was to be run before it and what it releases, without
what it runs. -/
theorem run?_perm (m : Moment η) :
    (m.run?.toList ++ m.after.released).Perm (m.before.released ++ spawned m.effects) := by
  have hafter : m.after.released = m.before.awaiting m.event ++ spawned m.effects := rfl
  rw [hafter, ← List.append_assoc]
  refine List.Perm.append_right _ ?_
  unfold run? awaiting
  cases m.event with
  | ready place ending =>
    dsimp only
    cases hplace : m.before.released[place]? with
    | none =>
      rw [List.eraseIdx_of_length_le (List.getElem?_eq_none_iff.mp hplace)]
      exact List.Perm.refl _
    | some c =>
      obtain ⟨hlt, rfl⟩ := List.getElem?_eq_some_iff.mp hplace
      exact List.getElem_cons_eraseIdx_perm hlt
  | _ => exact List.Perm.refl _

theorem readyRun?_eq (m : Moment η) (h : ∀ c ∈ m.run?, ∃ e, c = .job e) :
    m.run? = m.readyRun?.map .job := by
  unfold run? at h ⊢
  unfold readyRun?
  split
  · next place ending hevent =>
    rw [hevent] at h
    dsimp only at h
    cases hplace : m.before.released[place]? with
    | none =>
      have hinvoked : m.invoked = none := by
        cases hcalled : m.invoked with
        | none => rfl
        | some e =>
          obtain ⟨place', ending', hevent', hreleased⟩ := runsReady_of_invoked hevent hcalled
          cases hevent.symm.trans hevent'
          exact absurd (hplace.symm.trans hreleased) nofun
      rw [hinvoked]
      rfl
    | some c =>
      obtain ⟨e, rfl⟩ := h c hplace
      have hready : m.RunsReady e := ⟨place, ending, hevent, hplace⟩
      obtain ⟨ending', hruns⟩ := hready.runsJob
      rw [hruns.invoked]
      rfl
  · rfl

theorem runsReady_of_readyRun? {e : Execution η} (h : m.readyRun? = some e) : m.RunsReady e := by
  unfold readyRun? at h
  split at h
  · next hevent => exact runsReady_of_invoked hevent h
  · cases h

end Moment

theorem allReleased_concat (past : List (Moment η)) (m : Moment η) :
    allReleased (past ++ [m]) = allReleased past ++ releasedBy past m := by
  unfold allReleased releasedBy
  rw [notifiedIn_concat, queuedIn_concat]
  cases hpast : notifiedIn past with
  | true =>
    cases hnotifies : m.notifies with
    | true => simp [Moment.queued?_of_notifies hnotifies]
    | false => rfl
  | false =>
    cases hnotifies : m.notifies with
    | true => simp [Moment.queued?_of_notifies hnotifies]
    | false => rfl

/-! ## Runs -/

theorem Tallies.run {w : Service η} (h : Tallies [] w.scheduler.ready) (os : List (Occasion η)) :
    Tallies (w.history os) (w.run os).scheduler.ready ∧
      ((w.history os).flatMap fun m => spawned m.effects) =
        (allReleased (w.history os)).map .job := by
  induction os using List.reverseRecOn with
  | nil => exact ⟨h, rfl⟩
  | append_singleton os o ih =>
    obtain ⟨hready, hspawned⟩ := ih
    let m : Moment η := { before := w.run os, occasion := o }
    obtain ⟨hnext, hreleased⟩ := m.tallies hready
    rw [history_append, run_append]
    refine ⟨hnext, ?_⟩
    show ((w.history os ++ [m]).flatMap _) = (allReleased (w.history os ++ [m])).map _
    rw [List.flatMap_append, hspawned, allReleased_concat, List.map_append, ← hreleased,
      List.flatMap_singleton]

/-- Nothing that was released is lost, and nothing is run twice. -/
theorem released_perm (w : Service η) (os : List (Occasion η)) :
    ((w.history os).filterMap Moment.run? ++ (w.run os).released).Perm
      (w.released ++ (w.history os).flatMap fun m => spawned m.effects) := by
  induction os generalizing w with
  | nil => simp [history, run]
  | cons o os ih =>
    let m : Moment η := { before := w, occasion := o }
    have hcons : (w.history (o :: os)).filterMap Moment.run? =
        m.run?.toList ++ ((w.step o).history os).filterMap Moment.run? := by
      show (m :: (w.step o).history os).filterMap Moment.run? = _
      rw [List.filterMap_cons]
      cases m.run? <;> rfl
    show ((w.history (o :: os)).filterMap Moment.run? ++ ((w.step o).run os).released).Perm
      (w.released ++ (spawned m.effects ++ ((w.step o).history os).flatMap _))
    rw [hcons, List.append_assoc]
    have hrest := (ih (w.step o)).append_left m.run?.toList
    have hfirst := m.run?_perm.append_right
      (((w.step o).history os).flatMap fun m => spawned m.effects)
    rw [List.append_assoc, List.append_assoc] at hfirst
    exact hrest.trans hfirst

/-- What is true of the readiness signal and of the jobs that it releases, after `os`. -/
structure ReadyWell (w : Service η) (os : List (Occasion η)) : Prop where
  /-- Every job that was queued is run once or is still to be run if the host was ready, before or
  after it was queued, and else it is not run. -/
  once : ((readyRuns (w.history os)).map ReadyCallback.job ++ (w.run os).released).Perm
    ((if notifiedIn (w.history os) then queuedIn (w.history os) else []).map .job)
  /-- The handler is called without a look at the lock. -/
  ungated : ∀ m ∈ w.history os, ∀ e, m.readyRun? = some e → ∃ ending, m.RunsJob e ending true []
  /-- The first notice releases what was queued, in order.  After it a job is released when it is
  queued, and nothing else releases any. -/
  released : ∀ o, spawned ({ before := w.run os, occasion := o } : Moment η).effects =
    (releasedBy (w.history os) { before := w.run os, occasion := o }).map .job
  /-- The number that a notice would give now. -/
  told : ∀ signal, (w.run os).scheduler.ready = some signal → (signal.notify true).1 =
    if notifiedIn (w.history os) then 0 else (queuedIn (w.history os)).length
  pending : ∀ signal, (w.run os).scheduler.ready = some signal → signal.pending.length =
    if notifiedIn (w.history os) then 0 else (queuedIn (w.history os)).length

/-- Whatever is called and triggered in between, a job that is queued for when the host is ready is
run exactly once. -/
theorem readiness_runs {w : Service η}
    (hsignal : ∀ signal, w.scheduler.ready = some signal → signal = {})
    (hreleased : w.released = []) (os : List (Occasion η)) : ReadyWell w os := by
  have hfirst : Tallies [] w.scheduler.ready := by
    cases hready : w.scheduler.ready with
    | none => exact rfl
    | some signal => exact hsignal signal hready
  obtain ⟨htallies, hspawned⟩ := hfirst.run os
  have hperm := w.released_perm os
  rw [hreleased, List.nil_append, hspawned] at hperm
  have hjobs : ∀ m ∈ w.history os, m.run? = m.readyRun?.map .job := by
    intro m hm
    refine m.readyRun?_eq fun c hc => ?_
    have hmem : c ∈ (w.history os).filterMap Moment.run? := List.mem_filterMap.mpr ⟨m, hm, hc⟩
    obtain ⟨e, -, he⟩ := List.mem_map.mp (hperm.subset (List.mem_append_left _ hmem))
    exact ⟨e, he.symm⟩
  have hruns : (w.history os).filterMap Moment.run? = (readyRuns (w.history os)).map .job := by
    unfold readyRuns
    rw [List.map_filterMap]
    exact List.filterMap_congr hjobs
  rw [hruns] at hperm
  refine ⟨hperm, ?_, ?_, ?_, ?_⟩
  · intro m _ e he
    exact (Moment.runsReady_of_readyRun? he).runsJob
  · intro o
    exact (Moment.tallies { before := w.run os, occasion := o } htallies).2
  · intro signal hready
    rw [hready] at htallies
    rw [show signal = _ from htallies]
    exact (ReadySignal.notify_of _ _).1
  · intro signal hready
    rw [hready] at htallies
    rw [show signal = _ from htallies]
    unfold ReadySignal.of
    dsimp only
    split
    · rfl
    · exact List.length_map _

/-- A lock that is never held. -/
def lockedOut : Service String :=
  { scheduler := { engine := .clockwork, ready := some {}, lock := some (.scripted {}) } }

/-- One job is queued, paused and removed, one has a plan that cannot be read; the host is ready
twice, and a job of the same name is queued after that.  The later one is run first. -/
def warmUp : List (Occasion String) :=
  timetable
    [(0, .call (.addOnReady true "cache" "@hourly" "c")),
      (0, .call (.addOnReady false "index" "often" "i")), (0, .call (.pause "cache")),
      (0, .call (.remove "cache")), (1, .notify), (2, .notify),
      (3, .call (.addOnReady true "cache" "@daily" "c2")), (4, .ready 1 .completed),
      (5, .ready 0 (.panicked .nonText))]

theorem warmUp_runs :
    (lockedOut.run warmUp).released = [] ∧
      ((readyRuns (lockedOut.history warmUp)).map ReadyCallback.job).Perm
        [.job { name := "cache", handler := "c" }, .job { name := "cache", handler := "c2" }] := by
  have hsignal : ∀ signal, lockedOut.scheduler.ready = some signal → signal = {} := by
    rintro signal ⟨⟩
    rfl
  have honce := (readiness_runs hsignal rfl warmUp).once
  have hreleased : (lockedOut.run warmUp).released = [] := by decide +kernel
  have hnotified : notifiedIn (lockedOut.history warmUp) = true := by decide +kernel
  have hqueued : queuedIn (lockedOut.history warmUp) =
      [{ name := "cache", handler := "c" }, { name := "cache", handler := "c2" }] := by
    decide +kernel
  rw [hreleased, hnotified, hqueued, List.append_nil] at honce
  exact ⟨hreleased, honce⟩

end Service
end RecurringJobs
