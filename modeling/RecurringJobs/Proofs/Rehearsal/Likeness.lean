import RecurringJobs.Proofs.Rehearsal.Handlers
import RecurringJobs.Proofs.Scheduler.Ticking

/-!
Worlds that differ in their handlers only.

`World.Alike` leaves out what handlers are, what they have said and which of their runs sleep, but
not how often they were called.  Every task comes to the same in two such worlds, and a run of a
handler that takes no steps is no difference at all.  What is needed of the worlds is in `World.IsSteady`.
-/

namespace RecurringJobs
namespace Rehearsal

/-- A run that waits to be gone on with. -/
def Task.isRun : Task → Bool
  | .resume _ _ => true
  | _ => false

/-- A task that may run when the clock reads this: a timer does not begin to wait for what is over,
and a run takes no steps. -/
def Task.IsFit (now : Instant) : Task → Prop
  | .armed _ _ due => now.IsAhead due
  | .resume _ rest => rest.isQuiet = true
  | _ => True

/-- It only calls a handler, goes on with a run or tells something. -/
def Task.isAside : Task → Bool
  | .callback _ .refresh => false
  | .armed _ _ _ => false
  | .timer _ _ => false
  | _ => true

theorem Task.IsQuietRun.isFit {t : Task} (h : t.IsQuietRun) (now : Instant) : t.IsFit now := by
  cases t with
  | resume r rest => exact h
  | _ => exact absurd h id

theorem Task.IsQuietRun.isRun {t : Task} (h : t.IsQuietRun) : t.isRun = true := by
  cases t with
  | resume r rest => rfl
  | _ => exact absurd h id

namespace World

/-! ## Likeness -/

/-- The same schedulers, the same leases and as many handlers that were called as often, and the
same to do for all but the handlers. -/
structure Alike (w w' : World) : Prop where
  clock : w'.clock = w.clock
  store : w'.store = w.store
  stations : w'.stations = w.stations
  calls : w'.performers.map Performer.calls = w.performers.map Performer.calls
  queue : (w'.queue.filter fun t => !t.isRun) = w.queue.filter fun t => !t.isRun
  sleepers : (w'.sleepers.filter fun s => !s.task.isRun) = w.sleepers.filter fun s => !s.task.isRun

theorem Alike.refl (w : World) : w.Alike w := ⟨rfl, rfl, rfl, rfl, rfl, rfl⟩

theorem Alike.symm {w w' : World} (h : w.Alike w') : w'.Alike w :=
  ⟨h.clock.symm, h.store.symm, h.stations.symm, h.calls.symm, h.queue.symm, h.sleepers.symm⟩

theorem Alike.trans {w w' w'' : World} (h : w.Alike w') (h' : w'.Alike w'') : w.Alike w'' :=
  ⟨h'.clock.trans h.clock, h'.store.trans h.store, h'.stations.trans h.stations,
    h'.calls.trans h.calls, h'.queue.trans h.queue, h'.sleepers.trans h.sleepers⟩

theorem Beside.alike {w w' : World} (h : w.Beside w') : w.Alike w' := by
  obtain ⟨asleep, hasleep, hruns⟩ := h.sleepers
  refine ⟨h.clock, h.store, h.stations, by rw [h.performers], by rw [h.queue], ?_⟩
  · have hnone : (asleep.filter fun s => !s.task.isRun) = [] := by
      refine List.filter_eq_nil_iff.mpr fun s hs => ?_
      simp [(hruns s hs).2.isRun]
    rw [hasleep, List.filter_append, hnone, List.append_nil]

variable {w w' : World}

theorem Alike.handlers (h : w.Alike w') : w'.performers.length = w.performers.length := by
  have hlength := congrArg List.length h.calls
  simpa using hlength

theorem Alike.station? (h : w.Alike w') (i : Nat) : w'.station? i = w.station? i := by
  unfold World.station?
  rw [h.stations]

theorem Alike.enqueue (h : w.Alike w') (t : Task) : (w.enqueue t).Alike (w'.enqueue t) := by
  refine ⟨h.clock, h.store, h.stations, h.calls, ?_, h.sleepers⟩
  simp [World.enqueue, h.queue]

theorem Alike.sleepFor (h : w.Alike w') (nanos : Nat) (t : Task) :
    (w.sleepFor nanos t).Alike (w'.sleepFor nanos t) := by
  refine ⟨h.clock, h.store, h.stations, h.calls, h.queue, ?_⟩
  simp [World.sleepFor, h.clock, h.sleepers]

theorem Alike.say (h : w.Alike w') (text : String) : (w.say text).Alike (w'.say text) :=
  ((w.beside_say text).alike.symm.trans h).trans (w'.beside_say text).alike

theorem Alike.effect (h : w.Alike w') (i : Nat) (x : Effect Nat) :
    (World.effect i w x).Alike (World.effect i w' x) := by
  cases x with
  | log e => exact h.say _
  | engine c => exact h.say _
  | lock c => exact h.say _
  | arm serial due =>
    simp only [World.effect, h.clock]
    split
    · exact h.enqueue _
    · exact h
  | wait serial due =>
    simp only [World.effect, World.awaitInstant, h.clock]
    exact h.sleepFor _ _
  | timerLog e =>
    simp only [World.effect, h.clock]
    split
    · exact ⟨h.clock, h.store, h.stations, h.calls, h.queue, h.sleepers⟩
    · exact h
  | spawn c => exact h.enqueue _

theorem Alike.effects (h : w.Alike w') (i : Nat) (es : List (Effect Nat)) :
    (w.effects i es).Alike (w'.effects i es) := by
  induction es generalizing w w' with
  | nil => exact h
  | cons x es ih => exact ih (h.effect i x)

theorem calls_counted (ps : List Performer) (e : Execution Nat) :
    (counted ps (some e)).map Performer.calls =
      (ps.map Performer.calls).modify e.handler (· + 1) := by
  cases hp : ps[e.handler]? with
  | none =>
    have hlength : (ps.map Performer.calls).length ≤ e.handler := by
      rw [List.length_map]
      exact List.getElem?_eq_none_iff.mp hp
    rw [counted_of_none hp, List.modify_eq_self hlength]
  | some p =>
    rw [counted_of_some hp, List.map_set, List.modify_eq_set_getElem?, List.getElem?_map, hp]
    rfl

theorem Alike.counting (h : w.Alike w') (called : Option (Execution Nat)) :
    (w.counting called).Alike (w'.counting called) := by
  refine ⟨h.clock, h.store, h.stations, ?_, h.queue, h.sleepers⟩
  cases called with
  | none => exact h.calls
  | some e =>
    show (counted w'.performers (some e)).map Performer.calls =
      (counted w.performers (some e)).map Performer.calls
    rw [calls_counted, calls_counted, h.calls]

/-! ## Changes -/

/-- What a step or a task leaves of its station and of the leases, and its effects. -/
structure Change where
  station : Station
  store : LeaseStore
  effects : List (Effect Nat) := []

/-- Takes a change of station `i` into the world. -/
def change (w : World) (i : Nat) (c : Change) : World :=
  ({ w with store := c.store }.setStation i c.station).effects i c.effects

theorem Alike.change (h : w.Alike w') (i : Nat) (c : Change) :
    (w.change i c).Alike (w'.change i c) := by
  have hset : ({ w with store := c.store }.setStation i c.station).Alike
      ({ w' with store := c.store }.setStation i c.station) :=
    ⟨h.clock, rfl, by simp [World.setStation, h.stations], h.calls, h.queue, h.sleepers⟩
  exact hset.effects i c.effects

theorem agrees_change (w : World) (i : Nat) (c : Change) :
    ({ w with store := c.store }.setStation i c.station).Agrees (w.change i c) :=
  agrees_effects _ i c.effects

theorem change_clock (w : World) (i : Nat) (c : Change) : (w.change i c).clock = w.clock :=
  (w.agrees_change i c).clock

/-! ## Steadiness -/

/-- The clocks read an instant and whole milliseconds, every engine is driven by clockwork, no
handler takes steps, and nothing has been slept through. -/
structure IsSteady (w : World) : Prop where
  nanos : w.clock.wall.nanos < 2 * TimeUnit.nanosPerSecond
  whole : TimeUnit.nanosPerMilli ∣ w.clock.elapsed
  ticking : ∀ s ∈ w.stations, s.scheduler.engine.IsTicking w.clock.wall
  quiet : w.IsQuiet
  queued : ∀ t ∈ w.queue, t.IsFit w.clock.wall
  asleep : ∀ s ∈ w.sleepers,
    (w.clock.elapsed ≤ s.wake ∧ TimeUnit.nanosPerMilli ∣ s.wake) ∧ ∀ now, s.task.IsFit now

/-- No timer waits for no time, as one may that is armed in a leap second. -/
structure IsPrompt (w : World) : Prop where
  asleep : ∀ s ∈ w.sleepers, w.clock.elapsed < s.wake
  armed : ∀ i serial due, Task.armed i serial due ∈ w.queue → 0 < w.clock.wall.nanosTo due

theorem Beside.isSteady (h : w.Beside w') (hw : w.IsSteady) : w'.IsSteady := by
  obtain ⟨asleep, hasleep, hruns⟩ := h.sleepers
  refine ⟨?_, ?_, ?_, h.isQuiet hw.quiet, ?_, ?_⟩
  · rw [h.clock]
    exact hw.nanos
  · rw [h.clock]
    exact hw.whole
  · rw [h.clock, h.stations]
    exact hw.ticking
  · rw [h.clock, h.queue]
    exact hw.queued
  · rw [h.clock, hasleep]
    intro s hs
    rcases List.mem_append.mp hs with hs | hs
    · exact hw.asleep s hs
    · obtain ⟨⟨hlater, hdvd⟩, hrun⟩ := hruns s hs
      exact ⟨⟨Nat.le_of_lt hlater, hdvd⟩, hrun.isFit⟩

theorem Beside.isPrompt (h : w.Beside w') (hw : w.IsPrompt) : w'.IsPrompt := by
  obtain ⟨asleep, hasleep, hruns⟩ := h.sleepers
  constructor
  · rw [h.clock, hasleep]
    intro s hs
    rcases List.mem_append.mp hs with hs | hs
    · exact hw.asleep s hs
    · exact (hruns s hs).1.1
  · rw [h.clock, h.queue]
    exact hw.armed

theorem IsSteady.counting (hw : w.IsSteady) (called : Option (Execution Nat)) :
    (w.counting called).IsSteady :=
  ⟨hw.nanos, hw.whole, hw.ticking, hw.quiet.counting called, hw.queued, hw.asleep⟩

theorem IsSteady.station (hw : w.IsSteady) {i : Nat} {s : Station} (hs : w.station? i = some s) :
    s.scheduler.engine.IsTicking w.clock.wall := hw.ticking s (List.mem_of_getElem? hs)

theorem IsSteady.enqueue (hw : w.IsSteady) {t : Task} (ht : t.IsFit w.clock.wall) :
    (w.enqueue t).IsSteady := by
  refine ⟨hw.nanos, hw.whole, hw.ticking, hw.quiet, ?_, hw.asleep⟩
  intro u hu
  rcases List.mem_append.mp hu with hu | hu
  · exact hw.queued u hu
  · rw [List.mem_singleton.mp hu]
    exact ht

theorem IsSteady.awaitInstant (hw : w.IsSteady) (i serial : Nat) (due : Instant) :
    (w.awaitInstant i serial due).IsSteady := by
  refine ⟨hw.nanos, hw.whole, hw.ticking, hw.quiet, hw.queued, ?_⟩
  intro s hs
  rcases List.mem_append.mp hs with hs | hs
  · exact hw.asleep s hs
  · rw [List.mem_singleton.mp hs]
    refine ⟨⟨?_, dvd_wholeMillis _⟩, fun _ => trivial⟩
    exact Nat.le_trans (Nat.le_add_right _ _) (le_wholeMillis _)

theorem IsPrompt.awaitInstant (hw : w.IsPrompt) (i serial : Nat) {due : Instant}
    (hdue : 0 < w.clock.wall.nanosTo due) : (w.awaitInstant i serial due).IsPrompt := by
  refine ⟨?_, hw.armed⟩
  intro s hs
  rcases List.mem_append.mp hs with hs | hs
  · exact hw.asleep s hs
  · rw [List.mem_singleton.mp hs]
    exact (sleeps_of_pos hdue w.clock _).1

theorem IsSteady.effect (hw : w.IsSteady) (i : Nat) {x : Effect Nat}
    (hx : x.IsTimely w.clock.wall) : (World.effect i w x).IsSteady := by
  cases x with
  | log e => exact (w.beside_say _).isSteady hw
  | engine c => exact (w.beside_say _).isSteady hw
  | lock c => exact (w.beside_say _).isSteady hw
  | arm serial due =>
    show (if w.clock.isReadable then w.enqueue (.armed i serial due) else w).IsSteady
    split
    · exact hw.enqueue hx
    · exact hw
  | wait serial due => exact hw.awaitInstant i serial due
  | timerLog e =>
    show (if w.clock.isReadable then w.sayBehind _ else w).IsSteady
    split
    · exact ⟨hw.nanos, hw.whole, hw.ticking, hw.quiet, hw.queued, hw.asleep⟩
    · exact hw
  | spawn c => exact hw.enqueue trivial

theorem IsSteady.effects (hw : w.IsSteady) (i : Nat) {es : List (Effect Nat)}
    (hes : Timely w.clock.wall es) : (w.effects i es).IsSteady := by
  induction es generalizing w with
  | nil => exact hw
  | cons x es ih =>
    obtain ⟨hx, hes⟩ := timely_cons.mp hes
    refine ih (hw.effect i hx) ?_
    rw [(agrees_effect i w x).clock]
    exact hes

theorem IsSteady.change (hw : w.IsSteady) (i : Nat) {c : Change}
    (hc : Engine.TicksOn w.clock.wall c.station.scheduler.engine c.effects) :
    (w.change i c).IsSteady := by
  have hticking : ∀ s ∈ w.stations.set i c.station,
      s.scheduler.engine.IsTicking w.clock.wall := by
    intro s hs
    rcases List.mem_or_eq_of_mem_set hs with hs | rfl
    · exact hw.ticking s hs
    · exact hc.ticking
  have hset : ({ w with store := c.store }.setStation i c.station).IsSteady :=
    ⟨hw.nanos, hw.whole, hticking, hw.quiet, hw.queued, hw.asleep⟩
  exact hset.effects i hc.timely

/-! ## Tasks -/

/-- What the callback that renews the lock leaves. -/
def renewal (w : World) (s : Station) : Change :=
  let o := s.scheduler.acquire w.store w.clock.elapsed
  { station := { s with scheduler := o.scheduler }, store := o.store, effects := o.effects }

theorem runTask_renewal {i : Nat} {s : Station} (hs : w.station? i = some s) :
    w.runTask (.callback i .refresh) = w.change i (w.renewal s) := by
  show (w.runCallback none i .refresh).2 = _
  unfold runCallback
  rw [hs]
  rfl

/-- What a timer that goes off leaves, and what it is to run. -/
def ringing? (w : World) (s : Station) (serial : Nat) : Option (Callback Nat × Change) :=
  (s.scheduler.engine.fire serial w.clock.wall).map fun p =>
    (p.1, { station := { s with scheduler := { s.scheduler with engine := p.2.1 } }
            store := w.store
            effects := p.2.2 })

theorem runTask_timer {i : Nat} {s : Station} (hs : w.station? i = some s) (serial : Nat) :
    w.runTask (.timer i serial) =
      match w.ringing? s serial with
      | some (callback, c) => (w.change i c).enqueue (.callback i callback)
      | none => w := by
  unfold runTask ringing?
  dsimp only
  rw [hs]
  dsimp only
  cases s.scheduler.engine.fire serial w.clock.wall <;> rfl

theorem runTask_timer_of_no_station {i : Nat} (hs : w.station? i = none) (serial : Nat) :
    w.runTask (.timer i serial) = w := by
  unfold runTask
  dsimp only
  rw [hs]

/-- The handler that a task calls, if it calls one. -/
def called? (w : World) : Task → Option (Execution Nat)
  | .callback i (.job e) => w.attempted? i e true
  | .ready i (.job e) => w.attempted? i e false
  | _ => none

theorem Alike.called? (h : w.Alike w') (t : Task) : w'.called? t = w.called? t := by
  have hattempted : ∀ i e gated, w'.attempted? i e gated = w.attempted? i e gated := by
    intro i e gated
    unfold attempted?
    rw [h.station?, h.store, h.clock]
  cases t with
  | callback i c =>
    cases c with
    | job e => exact hattempted i e true
    | _ => rfl
  | ready i c =>
    cases c with
    | job e => exact hattempted i e false
    | host label => rfl
  | _ => rfl

theorem beside_runTask (hquiet : w.IsQuiet) {t : Task} (ht : t.IsFit w.clock.wall)
    (haside : t.isAside = true) : (w.counting (w.called? t)).Beside (w.runTask t) := by
  cases t with
  | callback i c =>
    cases c with
    | job e => exact beside_runJob hquiet i e true
    | refresh => exact absurd haside Bool.false_ne_true
    | host label => exact w.beside_say _
  | ready i c =>
    cases c with
    | job e => exact beside_runJob hquiet i e false
    | host label => exact w.beside_say _
  | armed i serial due => exact absurd haside Bool.false_ne_true
  | timer i serial => exact absurd haside Bool.false_ne_true
  | resume r rest => exact beside_perform r rest w ht

theorem runTask_renewal_of_no_station {i : Nat} (hs : w.station? i = none) :
    w.runTask (.callback i .refresh) = w := by
  show (w.runCallback none i .refresh).2 = w
  unfold runCallback
  rw [hs]

/-- What a task can do. -/
inductive Does (w : World) : Task → World → Prop
  /-- Only a handler is called or goes on, or nothing happens. -/
  | aside {t : Task} {w' : World} (h : (w.counting (w.called? t)).Beside w') : Does w t w'
  | renews {i : Nat} {s : Station} (hs : w.station? i = some s) :
      Does w (.callback i .refresh) (w.change i (w.renewal s))
  | waits {i serial : Nat} {due : Instant} (hdue : w.clock.wall.IsAhead due) :
      Does w (.armed i serial due) (w.awaitInstant i serial due)
  | rings {i serial : Nat} {s : Station} {callback : Callback Nat} {c : Change}
      (hs : w.station? i = some s) (hc : w.ringing? s serial = some (callback, c)) :
      Does w (.timer i serial) ((w.change i c).enqueue (.callback i callback))

theorem does_runTask (hquiet : w.IsQuiet) {t : Task} (ht : t.IsFit w.clock.wall) :
    w.Does t (w.runTask t) := by
  by_cases haside : t.isAside = true
  · exact .aside (beside_runTask hquiet ht haside)
  · cases t with
    | timer i serial =>
      cases hs : w.station? i with
      | none =>
        rw [runTask_timer_of_no_station hs]
        exact .aside (Beside.refl w)
      | some s =>
        rw [runTask_timer hs]
        cases hc : w.ringing? s serial with
        | none => exact .aside (Beside.refl w)
        | some p => exact .rings hs hc
    | armed i serial due => exact .waits ht
    | callback i c =>
      cases c with
      | refresh =>
        cases hs : w.station? i with
        | none =>
          rw [runTask_renewal_of_no_station hs]
          exact .aside (Beside.refl w)
        | some s =>
          rw [runTask_renewal hs]
          exact .renews hs
      | _ => exact absurd rfl haside
    | _ => exact absurd rfl haside

theorem ringing_ticksOn (hw : w.IsSteady) {i serial : Nat} {s : Station}
    (hs : w.station? i = some s) {callback : Callback Nat} {c : Change}
    (hc : w.ringing? s serial = some (callback, c)) :
    Engine.TicksOn w.clock.wall c.station.scheduler.engine c.effects := by
  obtain ⟨⟨rung, engine, es⟩, hfire, hsame⟩ := Option.map_eq_some_iff.mp hc
  cases hsame
  exact (hw.station hs).fire hw.nanos hfire

theorem Does.isSteady (hw : w.IsSteady) {t : Task} (h : w.Does t w') : w'.IsSteady := by
  cases h with
  | aside h => exact h.isSteady (hw.counting _)
  | renews hs => exact hw.change _ (Scheduler.acquire_ticksOn (hw.station hs) _ _)
  | waits hdue => exact hw.awaitInstant _ _ _
  | rings hs hc => exact IsSteady.enqueue (hw.change _ (ringing_ticksOn hw hs hc)) trivial

theorem Does.clock {t : Task} (h : w.Does t w') : w'.clock = w.clock := by
  cases h with
  | aside h => exact h.clock
  | renews hs => exact w.change_clock _ _
  | waits hdue => rfl
  | rings hs hc => exact w.change_clock _ _

theorem beside_renewal (w : World) (i : Nat) (s : Station) :
    ({ w with store := (w.renewal s).store }.setStation i (w.renewal s).station).Beside
      (w.change i (w.renewal s)) :=
  beside_effects _ i (acquire_told s.scheduler w.store w.clock.elapsed)

/-- A timer that goes off waits again, says that nothing is left to wait for, or is gone. -/
theorem ringing_effects {serial : Nat} {s : Station} {callback : Callback Nat} {c : Change}
    (hc : w.ringing? s serial = some (callback, c)) :
    c.effects = [] ∨ (∃ due, c.effects = [.wait serial due]) ∨
      ∃ id, c.effects = [.timerLog (.entryExhausted id)] := by
  obtain ⟨⟨rung, engine, es⟩, hfire, hsame⟩ := Option.map_eq_some_iff.mp hc
  cases hsame
  obtain ⟨t, -, due, -, hes⟩ := Engine.fire_effects hfire
  unfold Timer.effects at hes
  dsimp only
  split at hes
  · exact .inr (.inl ⟨_, hes⟩)
  · exact .inr (.inr ⟨_, hes⟩)
  · exact .inl hes

theorem queue_ringing {i serial : Nat} {s : Station} {callback : Callback Nat} {c : Change}
    (hc : w.ringing? s serial = some (callback, c)) : (w.change i c).queue = w.queue := by
  unfold World.change
  rcases ringing_effects hc with hes | ⟨due, hes⟩ | ⟨id, hes⟩
  · rw [hes]
    rfl
  · rw [hes]
    rfl
  · rw [hes]
    show (if w.clock.isReadable then World.sayBehind _ _ else _).queue = w.queue
    split <;> rfl

theorem ringing_isPrompt (hw : w.IsPrompt) (i : Nat) {serial : Nat} {s : Station}
    {callback : Callback Nat} {c : Change} (hc : w.ringing? s serial = some (callback, c))
    (hticks : Engine.TicksOn w.clock.wall c.station.scheduler.engine c.effects) :
    (w.change i c).IsPrompt := by
  have hset : ({ w with store := c.store }.setStation i c.station).IsPrompt :=
    ⟨hw.asleep, hw.armed⟩
  have htimely := hticks.timely
  unfold World.change
  rcases ringing_effects hc with hes | ⟨due, hes⟩ | ⟨id, hes⟩
  · rw [hes]
    exact hset
  · rw [hes] at htimely ⊢
    exact hset.awaitInstant i serial (timely_cons.mp htimely).1
  · rw [hes]
    show (if w.clock.isReadable then World.sayBehind _ _ else _).IsPrompt
    split
    · exact ⟨hw.asleep, hw.armed⟩
    · exact hset

theorem Does.isPrompt (hw : w.IsSteady) (hprompt : w.IsPrompt) {t : Task}
    (ht : ∀ i serial due, t = .armed i serial due → 0 < w.clock.wall.nanosTo due)
    (h : w.Does t w') : w'.IsPrompt := by
  cases h with
  | aside h => exact h.isPrompt ⟨hprompt.asleep, hprompt.armed⟩
  | renews hs => exact (w.beside_renewal _ _).isPrompt ⟨hprompt.asleep, hprompt.armed⟩
  | waits hdue => exact hprompt.awaitInstant _ _ (ht _ _ _ rfl)
  | @rings i serial s callback c hs hc =>
    have hrung := ringing_isPrompt hprompt i hc (ringing_ticksOn hw hs hc)
    refine ⟨hrung.asleep, fun j armed due hmem => ?_⟩
    rcases List.mem_append.mp hmem with hmem | hmem
    · exact hrung.armed j armed due hmem
    · cases List.mem_singleton.mp hmem

/-- In worlds that are alike a task comes to the same. -/
theorem Alike.runTask (h : w.Alike w') (hquiet : w.IsQuiet) (hquiet' : w'.IsQuiet) {t : Task}
    (ht : t.IsFit w.clock.wall) : (w.runTask t).Alike (w'.runTask t) := by
  have ht' : t.IsFit w'.clock.wall := by
    rw [h.clock]
    exact ht
  by_cases haside : t.isAside = true
  · have hrun := beside_runTask hquiet ht haside
    have hrun' := beside_runTask hquiet' ht' haside
    rw [h.called? t] at hrun'
    exact (hrun.alike.symm.trans (h.counting _)).trans hrun'.alike
  · cases t with
    | timer i serial =>
      have hsame := h.station? i
      cases hs : w.station? i with
      | none =>
        rw [runTask_timer_of_no_station hs, runTask_timer_of_no_station (hsame.trans hs)]
        exact h
      | some s =>
        have hringing : w'.ringing? s serial = w.ringing? s serial := by
          unfold ringing?
          rw [h.clock, h.store]
        rw [runTask_timer hs, runTask_timer (hsame.trans hs), hringing]
        cases w.ringing? s serial with
        | none => exact h
        | some p => exact (h.change i p.2).enqueue _
    | armed i serial due =>
      show (w.sleepFor _ _).Alike (w'.sleepFor (w'.clock.wall.nanosTo due) _)
      rw [h.clock]
      exact h.sleepFor _ _
    | callback i c =>
      cases c with
      | refresh =>
        have hsame := h.station? i
        cases hs : w.station? i with
        | none =>
          rw [runTask_renewal_of_no_station hs, runTask_renewal_of_no_station (hsame.trans hs)]
          exact h
        | some s =>
          have hrenewal : w'.renewal s = w.renewal s := by
            unfold renewal
            rw [h.clock, h.store]
          rw [runTask_renewal hs, runTask_renewal (hsame.trans hs), hrenewal]
          exact h.change i _
      | _ => exact absurd rfl haside
    | _ => exact absurd rfl haside

end World
end Rehearsal
end RecurringJobs
