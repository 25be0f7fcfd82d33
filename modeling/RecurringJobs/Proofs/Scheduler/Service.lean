import RecurringJobs.Proofs.Scheduler.Calls
import RecurringJobs.Proofs.Scheduler.Renewal

/-!
A scheduler in service: its host calls it, its entries are triggered, and jobs are run when the host
is ready.

What a trigger starts is run to its end before anything else happens, and so is what was released
when the host became ready.  How a handler ends that is called is left open.
-/

namespace RecurringJobs

variable {η : Type}

/-! ## Effects -/

def Effect.logged? : Effect η → Option LogEvent
  | .log e => some e
  | _ => none

def Effect.spawned? : Effect η → Option (ReadyCallback η)
  | .spawn c => some c
  | _ => none

/-- What is logged, in order, by anything but timers. -/
def logged (es : List (Effect η)) : List LogEvent := es.filterMap Effect.logged?

def spawned (es : List (Effect η)) : List (ReadyCallback η) := es.filterMap Effect.spawned?

@[simp] theorem logged_append (es fs : List (Effect η)) : logged (es ++ fs) = logged es ++ logged fs :=
  List.filterMap_append

@[simp] theorem spawned_append (es fs : List (Effect η)) :
    spawned (es ++ fs) = spawned es ++ spawned fs :=
  List.filterMap_append

/-- What only concerns timers. -/
def Effect.IsIdle (x : Effect η) : Prop :=
  x.lockCall? = none ∧ x.logged? = none ∧ x.spawned? = none

theorem idle_effects {await : Instant → Effect η} (hidle : ∀ due, (await due).IsIdle) (id : Nat)
    (plan : Plan) (now : Instant) : ∀ x ∈ Timer.effects await id plan now, x.IsIdle := by
  unfold Timer.effects
  split
  · intro x hx
    rw [List.mem_singleton.mp hx]
    exact hidle _
  · intro x hx
    rw [List.mem_singleton.mp hx]
    exact ⟨rfl, rfl, rfl⟩
  · intro x hx
    cases hx

theorem lockCalls_of_idle {es : List (Effect η)} (h : ∀ x ∈ es, x.IsIdle) : lockCalls es = [] :=
  List.filterMap_eq_nil_iff.mpr fun x hx => (h x hx).1

theorem logged_of_idle {es : List (Effect η)} (h : ∀ x ∈ es, x.IsIdle) : logged es = [] :=
  List.filterMap_eq_nil_iff.mpr fun x hx => (h x hx).2.1

/-! ## Triggers -/

/-- How an entry is triggered: a timer goes off, or the host picks an entry of an engine that it
drives by hand. -/
inductive Trigger where
  | timer (serial : Nat)
  | entry (id : Nat)
deriving Repr, DecidableEq

namespace Engine

def trigger? (e : Engine η) (now : Instant) :
    Trigger → Option (Callback η × Engine η × List (Effect η))
  | .timer serial => e.fire serial now
  | .entry id =>
    match e.drive with
    | .byHand _ => (e.entry? id).map fun x => (x.callback, e, [])
    | .clockwork _ => none

def target? (e : Engine η) : Trigger → Option Nat
  | .timer serial =>
    (e.timers.find? fun t => t.serial = serial).bind fun t => if t.due.isSome then some t.id else none
  | .entry id =>
    match e.drive with
    | .byHand _ => (e.entry? id).map Entry.id
    | .clockwork _ => none

theorem trigger?_of_no_target {e : Engine η} {t : Trigger} (h : e.target? t = none)
    (now : Instant) : e.trigger? now t = none := by
  cases t with
  | timer serial =>
    refine fire_eq_none_iff.mpr ?_
    simp only [target?] at h
    unfold due?
    cases hfind : e.timers.find? fun t => decide (t.serial = serial) with
    | none => rfl
    | some t =>
      rw [hfind] at h
      cases hdue : t.due with
      | none => exact hdue
      | some due => simp [hdue] at h
  | entry id =>
    unfold trigger?
    cases hdrive : e.drive with
    | byHand rejecting =>
      simp only [target?, hdrive] at h
      rw [Option.map_eq_none_iff] at h ⊢
      exact h
    | clockwork c => rfl

/-- What a trigger of an entry does to the engine: at most a timer waits for its next turn. -/
structure Triggers (e : Engine η) (now : Instant) (t : Trigger) (x : Entry η) (e' : Engine η)
    (es : List (Effect η)) : Prop where
  trigger? : e.trigger? now t = some (x.callback, e', es)
  target? : e.target? t = some x.id
  mem : x ∈ e.entries
  engine : e' = e ∨ ∃ serial, e' = e.fired serial now
  idle : ∀ y ∈ es, y.IsIdle

theorem Triggers.entries {e e' : Engine η} {now : Instant} {t : Trigger} {x : Entry η}
    {es : List (Effect η)} (h : e.Triggers now t x e' es) : e'.entries = e.entries := by
  rcases h.engine with rfl | ⟨serial, rfl⟩
  · rfl
  · exact fired_entries e serial now

theorem fire_eq_some {e e' : Engine η} {serial : Nat} {now : Instant} {c : Callback η}
    {es : List (Effect η)} (h : e.fire serial now = some (c, e', es)) :
    e.fired serial now = e' ∧ (∀ y ∈ es, y.IsIdle) ∧
      ∃ t, (e.timers.find? fun t => t.serial = serial) = some t ∧ t.callback = c := by
  refine ⟨by unfold fired; rw [h], ?_⟩
  unfold fire at h
  cases hdrive : e.drive with
  | byHand rejecting => simp [hdrive] at h
  | clockwork w =>
    simp only [hdrive] at h
    split at h
    · cases h
    · next t hfind =>
      split at h
      · cases h
      · cases h
        refine ⟨idle_effects (fun _ => ⟨rfl, rfl, rfl⟩) _ _ _, t, ?_, rfl⟩
        simp only [timers, hdrive]
        exact hfind

/-- A trigger leaves the entries of an engine, and at most lets a timer wait for its next turn. -/
theorem trigger?_engine {e e' : Engine η} {now : Instant} {t : Trigger} {c : Callback η}
    {es : List (Effect η)} (h : e.trigger? now t = some (c, e', es)) :
    e' = e ∨ ∃ serial, e' = e.fired serial now := by
  cases t with
  | timer serial =>
    have hfire : e.fire serial now = some (c, e', es) := h
    exact Or.inr ⟨serial, (fire_eq_some hfire).1.symm⟩
  | entry id =>
    unfold trigger? at h
    cases hdrive : e.drive with
    | clockwork w => simp [hdrive] at h
    | byHand rejecting =>
      simp only [hdrive] at h
      obtain ⟨x, -, hsame⟩ := Option.map_eq_some_iff.mp h
      exact Or.inl (congrArg (fun left => left.2.1) hsame).symm

theorem trigger?_idle {e e' : Engine η} {now : Instant} {t : Trigger} {c : Callback η}
    {es : List (Effect η)} (h : e.trigger? now t = some (c, e', es)) : ∀ x ∈ es, x.IsIdle := by
  cases t with
  | timer serial =>
    have hfire : e.fire serial now = some (c, e', es) := h
    exact (fire_eq_some hfire).2.1
  | entry id =>
    unfold trigger? at h
    cases hdrive : e.drive with
    | clockwork w => simp [hdrive] at h
    | byHand rejecting =>
      simp only [hdrive] at h
      obtain ⟨x, -, hsame⟩ := Option.map_eq_some_iff.mp h
      have hnil : es = [] := (congrArg (fun left => left.2.2) hsame).symm
      rw [hnil]
      exact fun y hy => absurd hy List.not_mem_nil

/-- A timer that goes off triggers the entry that it works for. -/
theorem IsSound.fire_triggers {e : Engine η} (h : e.IsSound) {t : Timer η} (ht : t ∈ e.timers)
    {due : Instant} (hdue : t.due = some due) (now : Instant) :
    ∃ x e' es, e.Triggers now (.timer t.serial) x e' es ∧ t.work = x.work := by
  have hwork : t.work ∈ e.timers.map Timer.work := List.mem_map_of_mem ht
  rw [h.timed, if_pos (h.isRunning_of_mem ht)] at hwork
  obtain ⟨x, hx, hsame⟩ := List.mem_map.mp hwork
  have hid : x.id = t.id := congrArg Prod.fst hsame
  have hcallback : x.callback = t.callback := congrArg (fun work => work.2.2) hsame
  have hfind := h.find?_timer ht
  cases hfire : e.fire t.serial now with
  | none =>
    have hnot := fire_eq_none_iff.mp hfire
    rw [h.due?_of_mem ht, hdue] at hnot
    cases hnot
  | some left =>
    obtain ⟨c, e', es⟩ := left
    obtain ⟨hleft, hidle, u, hu, hc⟩ := fire_eq_some hfire
    rw [hfind] at hu
    cases hu
    refine ⟨x, e', es, ⟨?_, ?_, hx, Or.inr ⟨t.serial, hleft.symm⟩, hidle⟩, hsame.symm⟩
    · rw [hcallback, hc]
      exact hfire
    · unfold target?
      dsimp only
      rw [hfind, hid]
      simp [hdue]

theorem IsSound.exists_triggers {e : Engine η} (h : e.IsSound) {t : Trigger} {id : Nat}
    (ht : e.target? t = some id) (now : Instant) :
    ∃ x e' es, e.Triggers now t x e' es ∧ x.id = id := by
  cases t with
  | timer serial =>
    unfold target? at ht
    dsimp only at ht
    obtain ⟨u, hu, hid⟩ := Option.bind_eq_some_iff.mp ht
    have hserial : u.serial = serial := by simpa using List.find?_some hu
    cases hdue : u.due with
    | none => simp [hdue] at hid
    | some due =>
      obtain ⟨x, e', es, hx, hwork⟩ := h.fire_triggers (List.mem_of_find?_eq_some hu) hdue now
      rw [hserial] at hx
      have hsame : u.id = x.id := congrArg Prod.fst hwork
      simp only [hdue, Option.isSome_some, if_true, Option.some.injEq] at hid
      exact ⟨x, e', es, hx, hsame.symm.trans hid⟩
  | entry n =>
    have htarget := ht
    unfold target? at ht
    cases hdrive : e.drive with
    | clockwork c => simp [hdrive] at ht
    | byHand rejecting =>
      simp only [hdrive] at ht
      obtain ⟨x, hx, hid⟩ := Option.map_eq_some_iff.mp ht
      refine ⟨x, e, [], ⟨?_, ?_, List.mem_of_find?_eq_some hx, Or.inl rfl, ?_⟩, hid⟩
      · simp [trigger?, hdrive, hx]
      · rw [htarget, hid]
      · intro y hy
        cases hy

end Engine

/-! ## What happens -/

/-- A run in which the handler ends in the given way, if it is called. -/
def LockOutcome.ending (o : LockOutcome η (Option (Execution η))) (ending : RunEnd) :
    LockOutcome η (Option (Execution η)) :=
  { o with
    effects := o.effects ++
      match o.result with
      | some e => ending.effects e.name
      | none => [] }

theorem RunEnd.lockCalls_effects (ending : RunEnd) (name : String) :
    lockCalls (ending.effects name : List (Effect η)) = [] := by
  cases ending <;> rfl

theorem LockOutcome.lockCalls_ending (o : LockOutcome η (Option (Execution η))) (ending : RunEnd) :
    lockCalls (o.ending ending).effects = lockCalls o.effects := by
  unfold LockOutcome.ending
  rw [lockCalls_append]
  cases o.result with
  | none => exact List.append_nil _
  | some e => rw [ending.lockCalls_effects e.name, List.append_nil]

/-- An entry is triggered, and its callback is run. -/
def Scheduler.trigger (s : Scheduler η) (store : LeaseStore) (clock : Clock) (t : Trigger)
    (ending : RunEnd) : LockOutcome η (Option (Execution η)) :=
  match s.engine.trigger? clock.wall t with
  | none => { result := none, scheduler := s, store }
  | some (callback, engine, woken) =>
    let ran := (Scheduler.take { s with engine } store clock (.callback callback)).ending ending
    { ran with effects := woken ++ ran.effects }

theorem Scheduler.trigger_of_some {s : Scheduler η} {clock : Clock} {t : Trigger}
    {callback : Callback η} {engine : Engine η} {woken : List (Effect η)}
    (h : s.engine.trigger? clock.wall t = some (callback, engine, woken)) (store : LeaseStore)
    (ending : RunEnd) :
    let ran := (Scheduler.take { s with engine } store clock (.callback callback)).ending ending
    s.trigger store clock t ending = { ran with effects := woken ++ ran.effects } := by
  unfold trigger
  rw [h]

/-- By what others do with it, the lock that is installed has become `l`. -/
def Scheduler.turnLock (s : Scheduler η) (l : Lock) : Scheduler η :=
  { s with lock := s.lock.map fun _ => l }

structure Service (η : Type) where
  scheduler : Scheduler η
  /-- What was released when the host was ready, and was not run yet. -/
  released : List (ReadyCallback η) := []

namespace Service

/-- What can happen.  Where a handler may be called, it is told how it ends. -/
inductive Event (η : Type) where
  | call (c : Call η)
  /-- The host is ready. -/
  | notify
  | setRejecting (rejecting : Bool)
  /-- Others have to do with the lock. -/
  | turnLock (lock : Lock)
  | trigger (t : Trigger) (ending : RunEnd)
  /-- Something that was released is run, whichever is the next. -/
  | ready (place : Nat) (ending : RunEnd)
deriving Repr, DecidableEq

/-- An event, and what it meets: the readings of the clocks and the store of leases. -/
structure Occasion (η : Type) where
  clock : Clock
  store : LeaseStore
  event : Event η

/-- What is seen of an event: the reply if it was a call, and the handler that is called. -/
structure Deed (η : Type) where
  reply : Option Reply := none
  invoked : Option (Execution η) := none
deriving Repr, DecidableEq

end Service

def LockOutcome.replied (o : LockOutcome η Reply) : LockOutcome η (Service.Deed η) :=
  { result := { reply := some o.result }, scheduler := o.scheduler, store := o.store,
    effects := o.effects }

def LockOutcome.deed (o : LockOutcome η (Option (Execution η))) : LockOutcome η (Service.Deed η) :=
  { result := { invoked := o.result }, scheduler := o.scheduler, store := o.store,
    effects := o.effects }

namespace Service

def perform (w : Service η) (o : Occasion η) : LockOutcome η (Deed η) :=
  match o.event with
  | .call c => (w.scheduler.ask o.store o.clock c).replied
  | .notify => (w.scheduler.take o.store o.clock .notify).deed
  | .setRejecting rejecting => (w.scheduler.take o.store o.clock (.setRejecting rejecting)).deed
  | .turnLock lock => { result := {}, scheduler := w.scheduler.turnLock lock, store := o.store }
  | .trigger t ending => (w.scheduler.trigger o.store o.clock t ending).deed
  | .ready place ending =>
    match w.released[place]? with
    | some c => ((w.scheduler.take o.store o.clock (.readyCallback c)).ending ending).deed
    | none => { result := {}, scheduler := w.scheduler, store := o.store }

/-- What is left to be run of what was released. -/
def awaiting (w : Service η) : Event η → List (ReadyCallback η)
  | .ready place _ => w.released.eraseIdx place
  | _ => w.released

def step (w : Service η) (o : Occasion η) : Service η :=
  { scheduler := (w.perform o).scheduler
    released := w.awaiting o.event ++ spawned (w.perform o).effects }

def run (w : Service η) : List (Occasion η) → Service η
  | [] => w
  | o :: os => (w.step o).run os

/-- An occasion, and the service that it finds. -/
structure Moment (η : Type) where
  before : Service η
  occasion : Occasion η

def history (w : Service η) : List (Occasion η) → List (Moment η)
  | [] => []
  | o :: os => { before := w, occasion := o } :: (w.step o).history os

/-- Events at these seconds, each of which finds no leases. -/
def timetable (events : List (Nat × Event String)) : List (Occasion String) :=
  events.map fun p =>
    { clock := { wall := { seconds := p.1 }, elapsed := p.1 * TimeUnit.nanosPerSecond }
      store := {}
      event := p.2 }

theorem run_append (w : Service η) (os ps : List (Occasion η)) :
    w.run (os ++ ps) = (w.run os).run ps := by
  induction os generalizing w with
  | nil => rfl
  | cons o os ih => exact ih (w.step o)

theorem history_append (w : Service η) (os ps : List (Occasion η)) :
    w.history (os ++ ps) = w.history os ++ (w.run os).history ps := by
  induction os generalizing w with
  | nil => rfl
  | cons o os ih => exact congrArg (_ :: ·) (ih (w.step o))

namespace Moment

def scheduler (m : Moment η) : Scheduler η := m.before.scheduler

def event (m : Moment η) : Event η := m.occasion.event

def now (m : Moment η) : Nat := m.occasion.clock.elapsed

def outcome (m : Moment η) : LockOutcome η (Deed η) := m.before.perform m.occasion

def reply (m : Moment η) : Option Reply := m.outcome.result.reply

def invoked (m : Moment η) : Option (Execution η) := m.outcome.result.invoked

def effects (m : Moment η) : List (Effect η) := m.outcome.effects

def after (m : Moment η) : Service η := m.before.step m.occasion

def Triggers (m : Moment η) (id : Nat) : Prop :=
  ∃ t ending, m.event = .trigger t ending ∧ m.scheduler.engine.target? t = some id

variable {m : Moment η}

theorem outcome_call {c : Call η} (h : m.event = .call c) :
    m.outcome = (m.scheduler.ask m.occasion.store m.occasion.clock c).replied := by
  have hevent : m.occasion.event = .call c := h
  unfold outcome perform
  rw [hevent]
  rfl

theorem after_call {c : Call η} (h : m.event = .call c) :
    m.after.scheduler = (m.scheduler.ask m.occasion.store m.occasion.clock c).scheduler :=
  congrArg LockOutcome.scheduler (outcome_call h)

theorem reply_call {c : Call η} (h : m.event = .call c) :
    m.reply = some (m.scheduler.ask m.occasion.store m.occasion.clock c).result :=
  congrArg (fun o => o.result.reply) (outcome_call h)

theorem outcome_trigger {t : Trigger} {ending : RunEnd} (h : m.event = .trigger t ending) :
    m.outcome =
      (m.scheduler.trigger m.occasion.store m.occasion.clock t ending).deed := by
  have hevent : m.occasion.event = .trigger t ending := h
  unfold outcome perform
  rw [hevent]
  rfl

theorem outcome_ready {place : Nat} {ending : RunEnd} (h : m.event = .ready place ending)
    {c : ReadyCallback η} (hc : m.before.released[place]? = some c) :
    m.outcome =
      ((m.scheduler.take m.occasion.store m.occasion.clock (.readyCallback c)).ending ending).deed := by
  have hevent : m.occasion.event = .ready place ending := h
  unfold outcome perform
  rw [hevent]
  dsimp only
  rw [hc]
  rfl

end Moment

/-! ## What a run keeps -/

/-- What is kept by every move and by whatever others do with the lock. -/
structure Keeps (P : Scheduler η → Prop) : Prop where
  take : ∀ s store clock m, P s → P (Scheduler.take s store clock m).scheduler
  turnLock : ∀ s lock, P s → P (Scheduler.turnLock s lock)

variable {P : Scheduler η → Prop}

theorem Keeps.trigger (hP : Keeps P) {s : Scheduler η} (h : P s) (store : LeaseStore)
    (clock : Clock) (t : Trigger) (ending : RunEnd) :
    P (s.trigger store clock t ending).scheduler := by
  unfold Scheduler.trigger
  cases htrigger : s.engine.trigger? clock.wall t with
  | none => exact h
  | some left =>
    obtain ⟨callback, engine, woken⟩ := left
    have hwoken : P { s with engine } := by
      rcases Engine.trigger?_engine htrigger with rfl | ⟨serial, rfl⟩
      · exact h
      · rw [← s.fire_scheduler clock.wall serial]
        exact hP.take s store clock (.fire serial) h
    exact hP.take _ store clock (.callback callback) hwoken

theorem Keeps.ask (hP : Keeps P) {s : Scheduler η} (h : P s) (store : LeaseStore) (clock : Clock)
    (c : Call η) : P (s.ask store clock c).scheduler := by
  cases hmove : c.move? with
  | none =>
    rw [(Scheduler.ask_of_no_move hmove s store clock).1]
    exact h
  | some m =>
    rw [(Scheduler.ask_of_move hmove s store clock).1]
    exact hP.take s store clock m h

theorem Keeps.perform (hP : Keeps P) {w : Service η} (h : P w.scheduler) (o : Occasion η) :
    P (w.perform o).scheduler := by
  obtain ⟨clock, store, event⟩ := o
  cases event with
  | call c => exact hP.ask h store clock c
  | notify => exact hP.take _ store clock .notify h
  | setRejecting rejecting => exact hP.take _ store clock (.setRejecting rejecting) h
  | turnLock lock => exact hP.turnLock w.scheduler lock h
  | trigger t ending => exact hP.trigger h store clock t ending
  | ready place ending =>
    unfold Service.perform
    dsimp only
    cases w.released[place]? with
    | none => exact h
    | some c => exact hP.take _ store clock (.readyCallback c) h

theorem Keeps.run (hP : Keeps P) {w : Service η} (h : P w.scheduler) (os : List (Occasion η)) :
    P (w.run os).scheduler := by
  induction os generalizing w with
  | nil => exact h
  | cons o os ih => exact ih (w := w.step o) (hP.perform h o)

theorem Keeps.history (hP : Keeps P) {w : Service η} (h : P w.scheduler)
    {os : List (Occasion η)} {m : Moment η} (hm : m ∈ w.history os) : P m.scheduler := by
  induction os generalizing w with
  | nil => cases hm
  | cons o os ih =>
    rcases List.mem_cons.mp hm with rfl | hm
    · exact h
    · exact ih (w := w.step o) (hP.perform h o) hm

theorem keeps_isSound : Keeps (Scheduler.IsSound (η := η)) where
  take _ store clock m hs := hs.take store clock m
  turnLock s lock hs := by
    refine ⟨hs.tallies, ?_⟩
    intro hrefresh
    obtain ⟨hstate, hlocked⟩ := hs.refreshing hrefresh
    refine ⟨hstate, ?_⟩
    show s.lock.map (fun _ => lock) ≠ none
    exact fun hnone => hlocked (Option.map_eq_none_iff.mp hnone)

end Service
end RecurringJobs
