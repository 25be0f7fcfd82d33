import RecurringJobs.Proofs.Scheduler.LockCalls
import RecurringJobs.Proofs.Scheduler.Roster

/-!
The calls of a host, and what becomes of those that are refused.

Whether a call is refused, and why, is told by the state before it (`objection?`).  Every call is
looked at in full before it does anything.  So a call that is refused leaves all as it was, and the
only trace of it is that the engine may have been asked.
-/

namespace RecurringJobs

variable {η : Type}

/-- What a host can call.  Of a job that `must` be added, no refusal is expected. -/
inductive Call (η : Type) where
  | add (must : Bool) (name plan : String) (handler : η)
  | addOnReady (must : Bool) (name plan : String) (handler : η)
  | remove (name : String)
  | pause (name : String)
  | resume (name : String)
  | info (name : String)
  | setLock (lock : Lock)
  | start
  | stop
deriving Repr, DecidableEq

inductive Reply where
  | done
  | shown (view : JobView)
  | refused (error : SchedulerError)
  /-- A refusal that was not expected: the call did not come back, and left a message. -/
  | panicked (message : String)
  /-- The lock did not come back, and neither did the call. -/
  | crashed
deriving Repr, DecidableEq

def Reply.Fails : Reply → Prop
  | refused _ | panicked _ => True
  | _ => False

instance (r : Reply) : Decidable r.Fails := by
  cases r <;> unfold Reply.Fails <;> infer_instance

namespace Call

def failure : Call η → SchedulerError → Reply
  | add true name _ _, e | addOnReady true name _ _, e => .panicked (Scheduler.mustAddMessage name e)
  | _, e => .refused e

/-- The move that a call is.  To look at a job is none. -/
def move? : Call η → Option (Scheduler.Move η)
  | add _ name plan handler => some (.add name plan handler)
  | addOnReady _ name plan handler => some (.addOnReady name plan handler)
  | remove name => some (.remove name)
  | pause name => some (.pause name)
  | resume name => some (.resume name)
  | info _ => none
  | setLock lock => some (.setLock lock)
  | start => some .start
  | stop => some .stop

end Call

def Outcome.answering (o : Outcome η (Except SchedulerError Unit)) (store : LeaseStore)
    (c : Call η) : LockOutcome η Reply :=
  { result :=
      match o.result with
      | .ok () => .done
      | .error e => c.failure e
    scheduler := o.scheduler
    store
    effects := o.effects }

def LockOutcome.answering (o : LockOutcome η (Except LifecycleFault Unit)) : LockOutcome η Reply :=
  { result :=
      match o.result with
      | .ok () => .done
      | .error (.refused e) => .refused e
      | .error .crashed => .crashed
    scheduler := o.scheduler
    store := o.store
    effects := o.effects }

namespace Scheduler

def ask (s : Scheduler η) (store : LeaseStore) (clock : Clock) (c : Call η) :
    LockOutcome η Reply :=
  match c with
  | .add _ name plan handler => (s.add clock.wall name plan handler).answering store c
  | .addOnReady _ name plan handler =>
    (s.addOnReady clock.wall name plan handler).answering store c
  | .remove name => (s.remove name).answering store c
  | .pause name => (s.pause name).answering store c
  | .resume name => (s.resume clock.wall name).answering store c
  | .info name =>
    { result :=
        match s.info name with
        | .ok view => .shown view
        | .error e => c.failure e
      scheduler := s
      store }
  | .setLock lock => (s.setLock lock).answering store c
  | .start => (s.start store clock).answering
  | .stop => (s.stop store clock.elapsed).answering

theorem ask_of_move {c : Call η} {m : Move η} (h : c.move? = some m) (s : Scheduler η)
    (store : LeaseStore) (clock : Clock) :
    (s.ask store clock c).scheduler = (s.take store clock m).scheduler ∧
      (s.ask store clock c).store = (s.take store clock m).store ∧
        (s.ask store clock c).effects = (s.take store clock m).effects := by
  cases c <;> cases h <;> exact ⟨rfl, rfl, rfl⟩

theorem ask_of_no_move {c : Call η} (h : c.move? = none) (s : Scheduler η) (store : LeaseStore)
    (clock : Clock) :
    (s.ask store clock c).scheduler = s ∧ (s.ask store clock c).store = store ∧
      (s.ask store clock c).effects = [] := by
  cases c <;> cases h
  exact ⟨rfl, rfl, rfl⟩

/-! ## Why calls are refused -/

def addObjection? (s : Scheduler η) (name plan : String) : Option SchedulerError :=
  match s.jobs[name]? with
  | some r => some (.alreadyExists name r.plan)
  | none => (refusal? s.engine.refusing plan).map (.registrationFailed name)

def missing? (s : Scheduler η) (name : String) : Option SchedulerError :=
  match s.jobs[name]? with
  | some _ => none
  | none => some (.notFound name)

def resumeObjection? (s : Scheduler η) (name : String) : Option SchedulerError :=
  match s.jobs[name]? with
  | some r =>
    if r.paused then (refusal? s.engine.refusing r.plan).map (.registrationFailed name) else none
  | none => some (.notFound name)

def stateObjection? (s : Scheduler η) (operation : Operation) (wanted : Lifecycle) :
    Option SchedulerError :=
  if s.state = wanted then none else some (.invalidState operation s.state)

/-- Why a call is refused, if it is. -/
def objection? (s : Scheduler η) : Call η → Option SchedulerError
  | .add _ name plan _ => s.addObjection? name plan
  | .addOnReady _ name plan _ =>
    if s.ready.isSome then s.addObjection? name plan else some (.noReadyHook name)
  | .remove name | .pause name | .info name => s.missing? name
  | .resume name => s.resumeObjection? name
  | .setLock _ => s.stateObjection? .setLock .created
  | .start => s.stateObjection? .start .created
  | .stop => s.stateObjection? .stop .started

/-! ## What a refused call leaves -/

/-- Nothing but a registration that the engine refused. -/
def OnlyAsked (es : List (Effect η)) : Prop :=
  ∀ x ∈ es, ∃ plan, x = .engine (.register plan none)

theorem OnlyAsked.nil : OnlyAsked ([] : List (Effect η)) := by
  intro x hx
  cases hx

theorem OnlyAsked.lockCalls {es : List (Effect η)} (h : OnlyAsked es) : lockCalls es = [] := by
  induction es with
  | nil => rfl
  | cons x es ih =>
    obtain ⟨plan, rfl⟩ := h x List.mem_cons_self
    have hrest := ih fun y hy => h y (List.mem_cons_of_mem _ hy)
    rw [lockCalls_cons, hrest]
    rfl

/-- A registration that is refused leaves the engine, its numbers and its timers as they were. -/
theorem refused_register {e : Engine η} {now : Instant} {text : String} {callback : Callback η}
    {error : EngineError} (h : (e.register now text callback).1 = .error error) :
    (e.register now text callback).2.1 = e ∧ OnlyAsked (e.register now text callback).2.2 := by
  rcases e.register_cases now text callback with ⟨plan, e', es, hr, -⟩ | ⟨other, hr⟩
  · rw [hr] at h
    cases h
  · rw [hr]
    refine ⟨rfl, ?_⟩
    intro x hx
    exact ⟨text, List.mem_singleton.mp hx⟩

/-- A call of the registry is refused just when there is an objection, and then changes nothing. -/
def Heeds (s : Scheduler η) (o : Outcome η (Except SchedulerError Unit)) :
    Option SchedulerError → Prop
  | none => o.result = .ok ()
  | some e => o.result = .error e ∧ o.scheduler = s ∧ OnlyAsked o.effects

theorem add_heeds (s : Scheduler η) (now : Instant) (name plan : String) (handler : η) :
    s.Heeds (s.add now name plan handler) (s.addObjection? name plan) := by
  unfold Scheduler.add addObjection?
  cases hname : s.jobs[name]? with
  | some r => exact ⟨rfl, rfl, OnlyAsked.nil⟩
  | none =>
    dsimp only
    rcases s.register_refusal now plan (.job { name, handler }) with
      ⟨e', es, hr, -, hrefusal⟩ | ⟨error, es, hr, hrefusal⟩
    · have hnone : refusal? s.engine.refusing plan = none := hrefusal
      simp only [hr, hnone]
      exact rfl
    · have hsome : refusal? s.engine.refusing plan = some error := hrefusal
      have hasked := (refused_register (congrArg Prod.fst hr)).2
      simp only [hr] at hasked ⊢
      rw [hsome]
      exact ⟨rfl, rfl, hasked⟩

theorem addOnReady_heeds (s : Scheduler η) (now : Instant) (name plan : String) (handler : η) :
    s.Heeds (s.addOnReady now name plan handler)
      (if s.ready.isSome then s.addObjection? name plan else some (.noReadyHook name)) := by
  have hadded := s.add_heeds now name plan handler
  unfold Scheduler.addOnReady
  cases s.ready with
  | none => exact ⟨rfl, rfl, OnlyAsked.nil⟩
  | some signal =>
    rw [Option.isSome_some, if_pos rfl]
    cases hobjection : s.addObjection? name plan with
    | none =>
      rw [hobjection] at hadded
      have hresult : (s.add now name plan handler).result = .ok () := hadded
      simp only [hresult]
      exact rfl
    | some e =>
      rw [hobjection] at hadded
      simp only [hadded.1]
      exact hadded

theorem remove_heeds (s : Scheduler η) (name : String) :
    s.Heeds (s.remove name) (s.missing? name) := by
  unfold Scheduler.remove missing?
  cases s.jobs[name]? with
  | none => exact ⟨rfl, rfl, OnlyAsked.nil⟩
  | some r => exact rfl

theorem pause_heeds (s : Scheduler η) (name : String) :
    s.Heeds (s.pause name) (s.missing? name) := by
  unfold Scheduler.pause missing?
  cases s.jobs[name]? with
  | none => exact ⟨rfl, rfl, OnlyAsked.nil⟩
  | some r =>
    dsimp only
    split <;> exact rfl

theorem resume_heeds (s : Scheduler η) (now : Instant) (name : String) :
    s.Heeds (s.resume now name) (s.resumeObjection? name) := by
  unfold Scheduler.resume resumeObjection?
  cases s.jobs[name]? with
  | none => exact ⟨rfl, rfl, OnlyAsked.nil⟩
  | some r =>
    dsimp only
    cases r.paused with
    | false => exact rfl
    | true =>
      rcases s.register_refusal now r.plan (.job r.execution) with
        ⟨e', es, hr, -, hrefusal⟩ | ⟨error, es, hr, hrefusal⟩
      · have hnone : refusal? s.engine.refusing r.plan = none := hrefusal
        simp only [hr, hnone]
        exact rfl
      · have hsome : refusal? s.engine.refusing r.plan = some error := hrefusal
        have hasked := (refused_register (congrArg Prod.fst hr)).2
        simp only [hr] at hasked ⊢
        rw [hsome]
        exact ⟨rfl, rfl, hasked⟩

theorem setLock_heeds (s : Scheduler η) (lock : Lock) :
    s.Heeds (s.setLock lock) (s.stateObjection? .setLock .created) := by
  unfold Scheduler.setLock stateObjection?
  by_cases hstate : s.state = .created
  · rw [if_pos hstate, if_pos hstate]
    exact rfl
  · rw [if_neg hstate, if_neg hstate]
    exact ⟨rfl, rfl, OnlyAsked.nil⟩

/-- All is as it was before a call, and neither the lock nor the engine's state was touched: what a
refused registration gives back of the engine is the engine. -/
structure Unchanged (s : Scheduler η) (store : LeaseStore) (o : LockOutcome η Reply) : Prop where
  scheduler : o.scheduler = s
  store : o.store = store
  lockCalls : lockCalls o.effects = []
  effects : OnlyAsked o.effects
  engine : ∀ now text callback error, (s.engine.register now text callback).1 = .error error →
    (s.engine.register now text callback).2.1 = s.engine

theorem unchanged_of {s : Scheduler η} {store : LeaseStore} {o : LockOutcome η Reply}
    (hscheduler : o.scheduler = s) (hstore : o.store = store) (heffects : OnlyAsked o.effects) :
    s.Unchanged store o :=
  ⟨hscheduler, hstore, heffects.lockCalls, heffects, fun _ _ _ _ h => (refused_register h).1⟩

/-- A call is refused just when there is an objection, and then changes nothing. -/
def Minds (s : Scheduler η) (store : LeaseStore) (c : Call η) (o : LockOutcome η Reply) :
    Option SchedulerError → Prop
  | none => ¬o.result.Fails
  | some e => o.result = c.failure e ∧ s.Unchanged store o

theorem Heeds.answering {s : Scheduler η} {o : Outcome η (Except SchedulerError Unit)}
    {objection : Option SchedulerError} (h : s.Heeds o objection) (store : LeaseStore)
    (c : Call η) : s.Minds store c (o.answering store c) objection := by
  unfold Outcome.answering
  cases objection with
  | none =>
    have hresult : o.result = .ok () := h
    rw [hresult]
    exact fun hfails => hfails
  | some e =>
    obtain ⟨hresult, hscheduler, heffects⟩ := h
    rw [hresult]
    exact ⟨rfl, unchanged_of hscheduler rfl heffects⟩

theorem start_minds (s : Scheduler η) (store : LeaseStore) (clock : Clock) :
    s.Minds store .start (s.start store clock).answering (s.stateObjection? .start .created) := by
  unfold stateObjection?
  by_cases hstate : s.state = .created
  · rw [if_pos hstate]
    unfold LockOutcome.answering
    rcases start_result hstate store clock with hresult | hresult
    · rw [hresult]
      exact fun hfails => hfails
    · rw [hresult]
      exact fun hfails => hfails
  · rw [if_neg hstate]
    unfold Scheduler.start
    rw [if_pos hstate]
    exact ⟨rfl, unchanged_of rfl rfl OnlyAsked.nil⟩

theorem stop_minds (s : Scheduler η) (store : LeaseStore) (now : Nat) :
    s.Minds store .stop (s.stop store now).answering (s.stateObjection? .stop .started) := by
  unfold stateObjection?
  by_cases hstate : s.state = .started
  · rw [if_pos hstate]
    unfold LockOutcome.answering
    rcases stop_result hstate store now with hresult | hresult
    · rw [hresult]
      exact fun hfails => hfails
    · rw [hresult]
      exact fun hfails => hfails
  · rw [if_neg hstate]
    unfold Scheduler.stop
    rw [if_pos hstate]
    exact ⟨rfl, unchanged_of rfl rfl OnlyAsked.nil⟩

theorem info_minds (s : Scheduler η) (store : LeaseStore) (clock : Clock) (name : String) :
    s.Minds store (.info name) (s.ask store clock (.info name)) (s.missing? name) := by
  unfold missing?
  cases hname : s.jobs[name]? with
  | none =>
    have hinfo : s.info name = .error (.notFound name) := by
      unfold Scheduler.info
      rw [hname]
    refine ⟨?_, unchanged_of rfl rfl OnlyAsked.nil⟩
    simp only [ask, hinfo]
  | some r =>
    have hinfo : s.info name = .ok (.ofRecord name r) := by
      unfold Scheduler.info
      rw [hname]
    simp only [Minds, ask, hinfo]
    exact fun hfails => hfails

theorem ask_minds (s : Scheduler η) (store : LeaseStore) (clock : Clock) (c : Call η) :
    s.Minds store c (s.ask store clock c) (s.objection? c) := by
  cases c with
  | add must name plan handler => exact (s.add_heeds _ _ _ _).answering store _
  | addOnReady must name plan handler => exact (s.addOnReady_heeds _ _ _ _).answering store _
  | remove name => exact (s.remove_heeds name).answering store _
  | pause name => exact (s.pause_heeds name).answering store _
  | resume name => exact (s.resume_heeds _ name).answering store _
  | info name => exact s.info_minds store clock name
  | setLock lock => exact (s.setLock_heeds lock).answering store _
  | start => exact s.start_minds store clock
  | stop => exact s.stop_minds store clock.elapsed

/-- Whatever was done before, a call that fails leaves the scheduler and the store as they were, and
neither tries the lock nor gives it back. -/
theorem failed_call_changes_nothing {s : Scheduler η} {store : LeaseStore} {clock : Clock}
    {c : Call η} (hfails : (s.ask store clock c).result.Fails) :
    s.Unchanged store (s.ask store clock c) ∧
      ∃ e, s.objection? c = some e ∧ (s.ask store clock c).result = c.failure e := by
  have hminds := s.ask_minds store clock c
  cases hobjection : s.objection? c with
  | none =>
    rw [hobjection] at hminds
    exact absurd hfails hminds
  | some e =>
    rw [hobjection] at hminds
    exact ⟨hminds.2, e, rfl, hminds.1⟩

def handDriven : Scheduler String :=
  { engine := .byHand
    lock := some (.scripted { held := true, onLock := [.ok], onUnlock := [.ok] }) }

/-- A job is paused and the scheduler started; then the engine begins to refuse all plans. -/
def lockout : List (Turn String) :=
  [.add "report" "@every 5s" "r", .pause "report", .start, .setRejecting true].map fun move =>
    { clock := { wall := { seconds := 0 } }, store := {}, move }

theorem rejected_resume_changes_nothing :
    let s := handDriven.run lockout
    let asked := s.ask {} { wall := { seconds := 7 } } (.resume "report")
    asked.result = .refused (.registrationFailed "report" .rejected) ∧ s.Unchanged {} asked := by
  intro s asked
  have hresult : asked.result = .refused (.registrationFailed "report" .rejected) := by
    decide +kernel
  have hfails : asked.result.Fails := by
    rw [hresult]
    exact trivial
  exact ⟨hresult, (failed_call_changes_nothing hfails).1⟩

end Scheduler
end RecurringJobs
