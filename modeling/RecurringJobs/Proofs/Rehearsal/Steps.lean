import RecurringJobs.Proofs.Rehearsal.Likeness
import RecurringJobs.Rehearsal.Session

/-!
Steps in worlds that are alike.

A step reads the clocks, the leases and its station, all of which such worlds share.  So it comes to
the same answer and the same `Change` in both (`Tied`), whatever the handlers are, and also when it
brings in another handler.
-/

namespace RecurringJobs
namespace Rehearsal

namespace Step

/-- The step without what is told about a handler. -/
def bare : Step → Step
  | .add manner name plan _ _ _ => .add manner name plan "" false []
  | step => step

def adds : Step → Bool
  | .add _ _ _ _ _ _ => true
  | _ => false

/-- No handler that it brings in takes steps. -/
def isQuiet : Step → Bool
  | .add _ _ _ _ _ runs => runs.all Action.isQuiet
  | _ => true

theorem adds_bare (step : Step) : step.bare.adds = step.adds := by
  cases step <;> rfl

theorem bare_of_not_adds {step : Step} (h : step.adds = false) : step.bare = step := by
  cases step with
  | add => exact absurd h (by simp [adds])
  | _ => rfl

/-- Without a handler, steps that are told apart by nothing else are the same. -/
theorem eq_of_bare_eq {step step' : Step} (h : step'.bare = step.bare) (hadds : step.adds = false) :
    step' = step := by
  have hadds' : step'.adds = false := by
    rw [← adds_bare, h, adds_bare]
    exact hadds
  rw [← bare_of_not_adds hadds', h, bare_of_not_adds hadds]

end Step

namespace World

variable {w w' : World} {i : Nat} {α β : Type}

/-- One answer and one change, taken into both worlds, or none in either. -/
def Tied (w w' : World) (i : Nat) (x x' : Option (α × World)) : Prop :=
  ∃ r : Option (α × Change),
    (∀ p, r = some p →
      Engine.TicksOn w.clock.wall p.2.station.scheduler.engine p.2.effects) ∧
    x = r.map (fun p => (p.1, w.change i p.2)) ∧ x' = r.map fun p => (p.1, w'.change i p.2)

namespace Tied

theorem none : Tied w w' i (Option.none : Option (α × World)) Option.none :=
  ⟨Option.none, by simp, rfl, rfl⟩

theorem change (a : α) {c : Change}
    (hc : Engine.TicksOn w.clock.wall c.station.scheduler.engine c.effects) :
    Tied w w' i (some (a, w.change i c)) (some (a, w'.change i c)) := by
  refine ⟨some (a, c), ?_, rfl, rfl⟩
  intro p hp
  cases hp
  exact hc

theorem map {x x' : Option (α × World)} (h : Tied w w' i x x') (f : α → β) :
    Tied w w' i (x.map fun p => (f p.1, p.2)) (x'.map fun p => (f p.1, p.2)) := by
  obtain ⟨r, hr, rfl, rfl⟩ := h
  refine ⟨r.map fun p => (f p.1, p.2), ?_, by simp [Function.comp_def], by simp [Function.comp_def]⟩
  intro p hp
  obtain ⟨q, hq, rfl⟩ := Option.map_eq_some_iff.mp hp
  exact hr q hq

/-- The answers are the same, and the worlds stay alike. -/
theorem alike {x x' : Option (α × World)} (ht : Tied w w' i x x') (h : w.Alike w')
    (hw : w.IsSteady) (hw' : w'.IsSteady) :
    (x = Option.none ∧ x' = Option.none) ∨ ∃ a v v', x = some (a, v) ∧ x' = some (a, v') ∧
      v.Alike v' ∧ v.IsSteady ∧ v'.IsSteady := by
  obtain ⟨r, hr, rfl, rfl⟩ := ht
  cases r with
  | none => exact .inl ⟨rfl, rfl⟩
  | some p =>
    have hticks := hr p rfl
    have hticks' := hticks
    rw [← h.clock] at hticks'
    exact .inr ⟨p.1, _, _, rfl, rfl, h.change i p.2, hw.change i hticks, hw'.change i hticks'⟩

end Tied

/-- A change that leaves the station as it is. -/
theorem change_own {s : Station} (hs : w.station? i = some s) (store : LeaseStore)
    (es : List (Effect Nat)) : w.change i { station := s, store, effects := es } =
      ({ w with store } : World).effects i es := by
  have hset : ({ w with store } : World).setStation i s = { w with store } := by
    unfold setStation
    rw [set_of_getElem? hs]
  show (({ w with store } : World).setStation i s).effects i es = _
  rw [hset]

section

variable {s : Station} (h : w.Alike w') (hw : w.IsSteady) (hs : w.station? i = some s)
include h hw hs

theorem Tied.own (a : α) (store : LeaseStore) {es : List (Effect Nat)}
    (hes : Timely w.clock.wall es) :
    Tied w w' i (some (a, ({ w with store } : World).effects i es))
      (some (a, ({ w' with store } : World).effects i es)) := by
  rw [← change_own hs, ← change_own ((h.station? i).trans hs)]
  exact .change a ⟨hw.station hs, hes⟩

theorem Tied.tell (a : α) (es : List (Effect Nat)) (hes : Timely w.clock.wall es) :
    Tied w w' i (some (a, w.effects i es)) (some (a, w'.effects i es)) := by
  have htold := Tied.own h hw hs a w.store hes
  rw [← h.store] at htold
  nth_rewrite 1 [h.store] at htold
  exact htold

theorem Tied.self (a : α) : Tied w w' i (some (a, w)) (some (a, w')) :=
  .tell h hw hs a [] (timely_nil _)

omit hw hs in
theorem Tied.leave (a : α) (t : Station) (es : List (Effect Nat))
    (hticks : Engine.TicksOn w.clock.wall t.scheduler.engine es) :
    Tied w w' i (some (a, (w.setStation i t).effects i es))
      (some (a, (w'.setStation i t).effects i es)) := by
  let c : Change := { station := t, store := w.store, effects := es }
  have hleft : (w'.setStation i t).effects i es = w'.change i c := by
    show w'.change i { station := t, store := w'.store, effects := es } = _
    rw [h.store]
  rw [hleft]
  exact .change a (c := c) hticks

omit hw hs in
theorem Tied.put (a : α) {scheduler : Scheduler Nat} {es : List (Effect Nat)}
    (hticks : Engine.TicksOn w.clock.wall scheduler.engine es) :
    Tied w w' i (some (a, w.put i s scheduler es)) (some (a, w'.put i s scheduler es)) :=
  .leave h a _ _ hticks

omit h hw hs in
theorem Tied.putLocked (a : α) {β : Type} (o : LockOutcome Nat β)
    (hticks : Engine.TicksOn w.clock.wall o.scheduler.engine o.effects) :
    Tied w w' i (some (a, w.putLocked i s o)) (some (a, w'.putLocked i s o)) := by
  let c : Change :=
    { station := { s with scheduler := o.scheduler }, store := o.store, effects := o.effects }
  exact .change a (c := c) hticks

/-! ## Steps that handlers may take as well -/

theorem Alike.calmStep? {step : Step} (hadds : step.adds = false) :
    Tied w w' i (w.calmStep? i s step) (w'.calmStep? i s step) := by
  have hticking := hw.station hs
  cases step with
  | add => exact absurd hadds (by simp [Step.adds])
  | remove name => exact .put h _ (Scheduler.remove_ticksOn hticking name)
  | pause name => exact .put h _ (Scheduler.pause_ticksOn hticking name)
  | resume name =>
    show Tied w w' i (some (w.settled i s (s.scheduler.resume w.clock.wall name)))
      (some (w'.settled i s (s.scheduler.resume w'.clock.wall name)))
    rw [h.clock]
    exact .put h _ (Scheduler.resume_ticksOn hticking name)
  | info name =>
    dsimp only [World.calmStep?]
    cases s.scheduler.info name with
    | ok v => exact .self h hw hs _
    | error e => exact .self h hw hs _
  | report name =>
    dsimp only [World.calmStep?]
    cases s.scheduler.info name with
    | ok v => exact .self h hw hs _
    | error e => exact .self h hw hs _
  | list => exact .self h hw hs _
  | contains name => exact .self h hw hs _
  | size => exact .self h hw hs _
  | state => exact .self h hw hs _
  | setRejecting rejecting =>
    obtain ⟨c, hc⟩ := hticking.exists_drive
    dsimp only [World.calmStep?]
    rw [hc]
    exact .none
  | register plan label =>
    show Tied w w' i (some (_, w.put i s _ _)) (some (_, w'.put i s _ _))
    rw [h.clock]
    exact .put h _ (hticking.register plan (.host label))
  | unregister id => exact .put h _ (hticking.unregister id)
  | startEngine runtime =>
    cases runtime with
    | true =>
      show Tied w w' i (some (_, w.withEngine i s (s.scheduler.engine.start w.clock.wall)))
        (some (_, w'.withEngine i s (s.scheduler.engine.start w'.clock.wall)))
      rw [h.clock]
      exact .put h _ hticking.start
    | false => exact .put h _ hticking.startWithoutRuntime
  | stopEngine => exact .put h _ hticking.stop
  | engineState greatest => exact .self h hw hs _
  | notify runtime =>
    dsimp only [World.calmStep?]
    cases s.scheduler.ready with
    | none => exact .none
    | some signal => exact .put h _ ⟨hticking, Scheduler.timely_notify _ signal runtime⟩
  | readiness =>
    dsimp only [World.calmStep?]
    cases s.scheduler.ready with
    | none => exact .none
    | some signal => exact .self h hw hs _
  | onReady label =>
    dsimp only [World.calmStep?]
    cases s.scheduler.ready with
    | none => exact .none
    | some signal => exact .put h _ ⟨hticking, Scheduler.timely_onReady _ signal true _⟩
  | _ => exact .none

theorem Alike.registryStep? {step : Step} (hadds : step.adds = false) :
    Tied w w' i (w.registryStep? i s step) (w'.registryStep? i s step) := by
  have hticking := hw.station hs
  have hcalm := (h.calmStep? hw hs hadds).map Answer.Response.answer
  cases step with
  | next name count start =>
    have hlisting : ∀ v, w'.listing v count start = w.listing v count start := by
      intro v
      unfold listing
      rw [h.clock]
    dsimp only [World.registryStep?]
    cases s.scheduler.info name with
    | ok v =>
      dsimp only
      rw [hlisting]
      exact .self h hw hs _
    | error e => exact .self h hw hs _
  | entryState id =>
    obtain ⟨c, hc⟩ := hticking.exists_drive
    dsimp only [World.registryStep?]
    rw [hc]
    dsimp only
    rw [h.clock]
    exact .self h hw hs _
  | _ => exact hcalm

/-! ## Other steps -/

theorem Alike.take? {step : Step} (hadds : step.adds = false)
    (hpass : ∀ millis, step ≠ .advance millis) :
    Tied w w' i (w.take? i s step) (w'.take? i s step) := by
  have hticking := hw.station hs
  have hregistry := (h.registryStep? hw hs hadds).map Answer.Response.json
  have hlisting : ∀ v count start, w'.listing v count start = w.listing v count start := by
    intro v count start
    unfold listing
    rw [h.clock]
  cases step with
  | hold name =>
    dsimp only [World.take?]
    cases s.scheduler.info name with
    | ok v => exact .leave h _ _ [] ⟨hticking, timely_nil _⟩
    | error e => exact .self h hw hs _
  | held slot listing =>
    dsimp only [World.take?]
    cases s.held[slot]? with
    | none => exact .none
    | some v =>
      cases listing with
      | none => exact .self h hw hs _
      | some request =>
        obtain ⟨count, start⟩ := request
        dsimp only [Option.map_some]
        rw [hlisting]
        cases w.listing v count start with
        | answer json => exact .self h hw hs _
        | crash text => exact .self h hw hs _
  | start =>
    dsimp only [World.take?]
    rw [h.store, h.clock]
    exact .putLocked _ _ (Scheduler.start_ticksOn hticking w.store)
  | stop =>
    dsimp only [World.take?]
    rw [h.store, h.clock]
    exact .putLocked _ _ (Scheduler.stop_ticksOn hticking w.store w.clock.elapsed)
  | setLock lock =>
    obtain ⟨hengine, heffects⟩ := Scheduler.setLock_engine s.scheduler lock
    refine .leave h _ _ _ ⟨?_, ?_⟩
    · show (s.scheduler.setLock lock).scheduler.engine.IsTicking w.clock.wall
      rw [hengine]
      exact hticking
    · rw [heffects]
      exact timely_nil _
  | tryLock =>
    dsimp only [World.take?]
    cases s.scheduler.lock with
    | none => exact .none
    | some lock =>
      rw [h.store, h.clock]
      exact .putLocked _ _ ⟨hticking, Scheduler.timely_tryLock _ s.scheduler lock _ _⟩
  | tryUnlock =>
    dsimp only [World.take?]
    cases s.scheduler.lock with
    | none => exact .none
    | some lock =>
      rw [h.store, h.clock]
      exact .putLocked _ _ ⟨hticking, Scheduler.timely_tryUnlock _ s.scheduler lock _ _⟩
  | hasLock =>
    dsimp only [World.take?]
    cases s.scheduler.lock with
    | none => exact .none
    | some lock =>
      rw [h.clock]
      exact .tell h hw hs _ [.lock (.hasLock (lock.hasLock w.clock.elapsed))] (by simp)
  | setHeld held =>
    dsimp only [World.take?]
    split
    · unfold setHeld
      split
      · exact .put h _ ⟨hticking, timely_nil _⟩
      · exact .self h hw hs _
    · exact .none
  | acquire name holder ttl =>
    have hsame : w'.store.acquire w'.clock.elapsed name holder ttl =
        w.store.acquire w.clock.elapsed name holder ttl := by rw [h.store, h.clock]
    have horigin : w'.clock.origin = w.clock.origin := by rw [h.clock]
    dsimp only [World.take?]
    rw [hsame, horigin]
    cases w.store.acquire w.clock.elapsed name holder ttl with
    | ok taken => exact .own h hw hs _ taken.2 (timely_nil _)
    | error e => exact .self h hw hs _
  | release name holder =>
    have hsame : w'.store.release w'.clock.elapsed name holder =
        w.store.release w.clock.elapsed name holder := by rw [h.store, h.clock]
    dsimp only [World.take?]
    rw [hsame]
    cases w.store.release w.clock.elapsed name holder with
    | ok store => exact .own h hw hs _ store (timely_nil _)
    | error e => exact .self h hw hs _
  | holder name =>
    dsimp only [World.take?]
    rw [h.store, h.clock]
    exact .self h hw hs _
  | trigger selection =>
    obtain ⟨c, hc⟩ := hticking.exists_drive
    dsimp only [World.take?]
    rw [hc]
    exact .none
  | advance millis => exact absurd rfl (hpass millis)
  | _ => exact hregistry

end

/-! ## Steps that bring in handlers -/

/-- The world with one more handler. -/
def enlist (w : World) (p : Performer) : World := (w.enroll p).2

theorem Alike.enlist (h : w.Alike w') {p p' : Performer} (hcalls : p'.calls = p.calls) :
    (w.enlist p).Alike (w'.enlist p') := by
  refine ⟨h.clock, h.store, h.stations, ?_, h.queue, h.sleepers⟩
  simp [World.enlist, enroll, h.calls, hcalls]

theorem IsSteady.enlist (hw : w.IsSteady) {p : Performer} (hp : p.isQuiet = true) :
    (w.enlist p).IsSteady := by
  refine ⟨hw.nanos, hw.whole, hw.ticking, ?_, hw.queued, hw.asleep⟩
  intro q hq
  rcases List.mem_append.mp hq with hq | hq
  · exact hw.quiet q hq
  · rw [List.mem_singleton.mp hq]
    exact hp

/-- The addition of a job: the number of its handler is all that is known of the handler. -/
def addition (w : World) (s : Station) (manner : Manner) (name plan : String) :
    Outcome Nat (Except SchedulerError Unit) :=
  if manner.onReady then s.scheduler.addOnReady w.clock.wall name plan w.performers.length
  else s.scheduler.add w.clock.wall name plan w.performers.length

theorem addJob_eq (w : World) (i : Nat) (s : Station) (manner : Manner) (name plan : String)
    (p : Performer) :
    w.addJob i s manner name plan p =
      (if manner.must then Answer.mustAdd name (w.addition s manner name plan).result
        else Answer.registry (w.addition s manner name plan).result,
      (w.enlist p).put i s (w.addition s manner name plan).scheduler
        (w.addition s manner name plan).effects) := rfl

theorem addition_ticksOn {w : World} {s : Station}
    (hticking : s.scheduler.engine.IsTicking w.clock.wall) (manner : Manner) (name plan : String) :
    Engine.TicksOn w.clock.wall (w.addition s manner name plan).scheduler.engine
      (w.addition s manner name plan).effects := by
  unfold addition
  split
  · exact Scheduler.addOnReady_ticksOn hticking _ _ _
  · exact Scheduler.add_ticksOn hticking _ _ _

theorem Alike.addJob (h : w.Alike w') {s : Station}
    (hticking : s.scheduler.engine.IsTicking w.clock.wall) (manner : Manner)
    (name plan : String) (p p' : Performer) (hcalls : p'.calls = p.calls) :
    Tied (w.enlist p) (w'.enlist p') i (some (w.addJob i s manner name plan p))
      (some (w'.addJob i s manner name plan p')) := by
  have hsame : w'.addition s manner name plan = w.addition s manner name plan := by
    unfold addition
    rw [h.clock, h.handlers]
  rw [addJob_eq, addJob_eq, hsame]
  exact .put (h.enlist hcalls) _ (addition_ticksOn hticking manner name plan)

/-- One step on both worlds, told apart by nothing but the handlers that it brings in. -/
theorem Alike.taken (h : w.Alike w') (hw : w.IsSteady) (hw' : w'.IsSteady) {s : Station}
    (hs : w.station? i = some s) {step step' : Step} (hbare : step'.bare = step.bare)
    (hquiet : step.isQuiet = true) (hquiet' : step'.isQuiet = true)
    (hpass : ∀ millis, step ≠ .advance millis) :
    (w.take? i s step = none ∧ w'.take? i s step' = none) ∨
      ∃ a v v', w.take? i s step = some (a, v) ∧ w'.take? i s step' = some (a, v') ∧
        v.Alike v' ∧ v.IsSteady ∧ v'.IsSteady := by
  cases hadds : step.adds with
  | false =>
    rw [Step.eq_of_bare_eq hbare hadds]
    exact (h.take? hw hs hadds hpass).alike h hw hw'
  | true =>
    cases step with
    | add manner name plan label withContext runs =>
      cases step' with
      | add manner' name' plan' label' withContext' runs' =>
        obtain ⟨rfl, rfl, rfl⟩ : manner' = manner ∧ name' = name ∧ plan' = plan := by
          simpa [Step.bare] using hbare
        have hadded := h.addJob (i := i) (hw.station hs) manner' name' plan'
          { label, withContext, runs }
          { label := label', withContext := withContext', runs := runs' } rfl
        exact hadded.alike (h.enlist rfl) (hw.enlist hquiet) (hw'.enlist hquiet')
      | _ => cases hbare
    | _ => exact absurd hadds (by simp [Step.adds])

end World
end Rehearsal
end RecurringJobs
