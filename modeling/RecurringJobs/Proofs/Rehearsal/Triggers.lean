import RecurringJobs.Proofs.Scheduler.Service
import RecurringJobs.Rehearsal.Run

/-!
Triggers in a rehearsal.

A timer that goes off and its callback, run one after the other, leave the scheduler and the leases
that `Scheduler.trigger` leaves, and call the handler that it says is called.  The handlers meant
here end at once; those that sleep are not done with when their callback is.
-/

namespace RecurringJobs
namespace Rehearsal

/-- How a handler ends that does nothing else. -/
def Action.ending? : Action → Option RunEnd
  | .finish => some .completed
  | .fail reason => some (.failed (.failed reason))
  | .other text => some (.failed (.other text))
  | .panic payload => some (.panicked payload)
  | _ => none

/-- An entry that is triggered: its callback, the instant for which, and what the clocks read
then. -/
structure Triggered where
  station : Nat
  entry : Nat
  callback : Callback Nat
  due : Instant
  clock : Clock
deriving Repr, DecidableEq

namespace World

/-! ## What is triggered -/

/-- The entry that a task triggers, if it is a timer that still waits. -/
def triggered? (w : World) : Task → Option Triggered
  | .timer i serial =>
    (w.station? i).bind fun s =>
      (s.scheduler.engine.timers.find? fun t => t.serial = serial).bind fun t =>
        t.due.map fun due =>
          { station := i, entry := t.id, callback := t.callback, due, clock := w.clock }
  | _ => none

/-- Just then its callback is what the timer leads to. -/
theorem triggered?_callback (w : World) (i serial : Nat) :
    (w.triggered? (.timer i serial)).map Triggered.callback =
      (w.station? i).bind fun s =>
        (s.scheduler.engine.fire serial w.clock.wall).map Prod.fst := by
  unfold triggered? Engine.fire Engine.timers
  dsimp only
  cases w.station? i with
  | none => rfl
  | some s =>
    dsimp only [Option.bind_some]
    cases s.scheduler.engine.drive with
    | byHand rejecting => rfl
    | clockwork c =>
      dsimp only
      cases c.timers.find? fun t => decide (t.serial = serial) with
      | none => rfl
      | some t =>
        dsimp only [Option.bind_some]
        cases t.due <;> rfl

/-! ## What effects leave alone -/

/-- The schedulers, the leases, the clock and the handlers are the same. -/
structure Agrees (w w' : World) : Prop where
  stations : w'.stations = w.stations
  store : w'.store = w.store
  clock : w'.clock = w.clock
  performers : w'.performers = w.performers

theorem Agrees.refl (w : World) : w.Agrees w := ⟨rfl, rfl, rfl, rfl⟩

theorem Agrees.trans {w w' w'' : World} (h : w.Agrees w') (h' : w'.Agrees w'') : w.Agrees w'' where
  stations := h'.stations.trans h.stations
  store := h'.store.trans h.store
  clock := h'.clock.trans h.clock
  performers := h'.performers.trans h.performers

theorem agrees_say (w : World) (text : String) : w.Agrees (w.say text) := by
  unfold say
  split <;> exact ⟨rfl, rfl, rfl, rfl⟩

theorem agrees_effect (i : Nat) (w : World) (x : Effect Nat) : w.Agrees (effect i w x) := by
  cases x with
  | log e => exact w.agrees_say _
  | engine c => exact w.agrees_say _
  | lock c => exact w.agrees_say _
  | arm serial due =>
    show w.Agrees (if w.clock.isReadable then w.enqueue (.armed i serial due) else w)
    split
    · exact ⟨rfl, rfl, rfl, rfl⟩
    · exact Agrees.refl w
  | wait serial due => exact ⟨rfl, rfl, rfl, rfl⟩
  | timerLog e =>
    show w.Agrees (if w.clock.isReadable then w.sayBehind _ else w)
    split
    · exact ⟨rfl, rfl, rfl, rfl⟩
    · exact Agrees.refl w
  | spawn c => exact ⟨rfl, rfl, rfl, rfl⟩

theorem agrees_effects (w : World) (i : Nat) (es : List (Effect Nat)) :
    w.Agrees (w.effects i es) := by
  induction es generalizing w with
  | nil => exact Agrees.refl w
  | cons x es ih => exact (agrees_effect i w x).trans (ih (effect i w x))

/-! ## Runs of handlers -/

theorem perform_of_ending {a : Action} {ending : RunEnd} (h : a.ending? = some ending)
    (pass : Option (Nat → World → World)) (r : Run) (w : World) :
    perform pass r a w = w.conclude r ending := by
  cases a <;> cases h <;> rfl

theorem agrees_conclude (w : World) (r : Run) (ending : RunEnd) : w.Agrees (w.conclude r ending) := by
  unfold conclude
  cases ending with
  | completed => exact (w.agrees_say _).trans (agrees_effects _ _ _)
  | failed e => exact w.agrees_effects _ _
  | panicked p => exact w.agrees_effects _ _

/-- A handler is called once more, if one is called. -/
def counted (ps : List Performer) : Option (Execution Nat) → List Performer
  | some e => ps.modify e.handler fun p => { p with calls := p.calls + 1 }
  | none => ps

theorem counted_of_some {ps : List Performer} {e : Execution Nat} {p : Performer}
    (hp : ps[e.handler]? = some p) :
    counted ps (some e) = ps.set e.handler { p with calls := p.calls + 1 } := by
  show ps.modify e.handler _ = _
  rw [List.modify_eq_set_getElem?, hp]
  rfl

/-- A run calls the handler just when `Scheduler.attempt` says so, and does nothing else to the
world. -/
theorem runJob_of_ending {w : World} {i : Nat} {s : Station} (hs : w.station? i = some s)
    {e : Execution Nat} {p : Performer} (hp : w.performers[e.handler]? = some p)
    {ending : RunEnd} (hend : (p.action (p.calls + 1)).ending? = some ending)
    (pass : Option (Nat → World → World)) (gated : Bool) :
    let o := s.scheduler.attempt w.store w.clock.elapsed e gated
    ({ w with performers := counted w.performers o.result } : World).Agrees
      (w.runJob pass i e gated) := by
  intro o
  have hasked := w.agrees_effects i o.effects
  unfold runJob
  rw [hs, hp]
  show World.Agrees _
    (if (s.scheduler.gate w.clock.elapsed e.name gated).1 then _ else w.effects i o.effects)
  split
  · next hgo =>
    have hresult : o.result = some e := if_pos hgo
    have hcounted : counted w.performers o.result =
        (w.effects i o.effects).performers.set e.handler { p with calls := p.calls + 1 } := by
      rw [hresult, hasked.performers, counted_of_some hp]
    rw [perform_of_ending hend, hcounted]
    refine Agrees.trans ?_ ((agrees_say _ _).trans (agrees_conclude _ _ _))
    exact ⟨hasked.stations, hasked.store, hasked.clock, rfl⟩
  · next hgo =>
    have hresult : o.result = none := if_neg hgo
    rw [hresult]
    exact hasked

/-! ## Callbacks and triggers -/

theorem station?_of_set {w w' : World} {i : Nat} {s s' : Station} (hs : w.station? i = some s)
    (h : w'.stations = w.stations.set i s') : w'.station? i = some s' := by
  have hlt : i < w.stations.length := (List.getElem?_eq_some_iff.mp hs).1
  unfold station?
  rw [h, List.getElem?_set_self hlt]

theorem station?_of_same {w w' : World} {i : Nat} {s : Station} (hs : w.station? i = some s)
    (h : w'.stations = w.stations) : w'.station? i = some s := by
  unfold station?
  rw [h]
  exact hs

/-- Station `i` has come to this outcome. -/
structure Reaches (w : World) (i : Nat) (s : Station) (o : LockOutcome Nat (Option (Execution Nat)))
    (w' : World) : Prop where
  station : w'.station? i = some { s with scheduler := o.scheduler }
  store : w'.store = o.store
  performers : w'.performers = counted w.performers o.result

/-- The next run of a handler ends at once in this way. -/
def EndsAtOnce (w : World) (e : Execution Nat) (ending : RunEnd) : Prop :=
  ∃ p, w.performers[e.handler]? = some p ∧ (p.action (p.calls + 1)).ending? = some ending

theorem runCallback_reaches {w : World} {i : Nat} {s : Station} (hs : w.station? i = some s)
    {callback : Callback Nat} {ending : RunEnd}
    (hend : ∀ e, callback = .job e → w.EndsAtOnce e ending) (pass : Option (Nat → World → World)) :
    w.Reaches i s (s.scheduler.take w.store w.clock (.callback callback))
      (w.runCallback pass i callback).2 := by
  cases callback with
  | job e =>
    obtain ⟨p, hp, hp'⟩ := hend e rfl
    have hrun := runJob_of_ending hs hp hp' pass true
    exact ⟨station?_of_same hs hrun.stations, hrun.store, hrun.performers⟩
  | refresh =>
    let renewed := s.scheduler.acquire w.store w.clock.elapsed
    let put : World :=
      { w with store := renewed.store }.setStation i { s with scheduler := renewed.scheduler }
    have hacquired : (w.runCallback pass i .refresh).2 = put.effects i renewed.effects := by
      unfold runCallback
      rw [hs]
      rfl
    have hleft := put.agrees_effects i renewed.effects
    rw [hacquired]
    exact ⟨station?_of_set hs hleft.stations, hleft.store, hleft.performers⟩
  | host label =>
    have hsaid := w.agrees_say s!"i{i} callback {label}"
    exact ⟨station?_of_same hs hsaid.stations, hsaid.store, hsaid.performers⟩

/-- A timer that goes off, and then its callback, come to what `Scheduler.trigger` tells. -/
theorem runTask_reaches {w : World} {i : Nat} {s : Station} (hs : w.station? i = some s)
    {serial : Nat} {callback : Callback Nat} {engine : Engine Nat} {woken : List (Effect Nat)}
    (hfire : s.scheduler.engine.fire serial w.clock.wall = some (callback, engine, woken))
    {ending : RunEnd} (hend : ∀ e, callback = .job e → w.EndsAtOnce e ending) :
    w.Reaches i s (s.scheduler.trigger w.store w.clock (.timer serial) ending)
      ((w.runTask (.timer i serial)).runTask (.callback i callback)) := by
  let awake : Station := { s with scheduler := { s.scheduler with engine } }
  obtain ⟨w₁, hw₁⟩ : ∃ w₁ : World, w₁ =
      (w.put i s { s.scheduler with engine } woken).enqueue (.callback i callback) := ⟨_, rfl⟩
  have hfired : w.runTask (.timer i serial) = w₁ := by
    unfold runTask
    dsimp only
    rw [hs]
    dsimp only
    rw [hfire, hw₁]
  have hwoken : (w.setStation i awake).Agrees w₁ := by
    rw [hw₁]
    exact (agrees_effects (w.setStation i awake) i woken).trans ⟨rfl, rfl, rfl, rfl⟩
  have hend₁ : ∀ e, callback = .job e → w₁.EndsAtOnce e ending := by
    unfold EndsAtOnce
    rw [hwoken.performers]
    exact hend
  obtain ⟨hstation, hstore, hperformers⟩ :=
    runCallback_reaches (station?_of_set hs hwoken.stations) hend₁ none
  rw [hwoken.store, hwoken.clock] at hstation hstore hperformers
  rw [hwoken.performers] at hperformers
  have htrigger : s.scheduler.engine.trigger? w.clock.wall (.timer serial) =
      some (callback, engine, woken) := hfire
  rw [hfired, Scheduler.trigger_of_some htrigger w.store ending]
  exact ⟨hstation, hstore, hperformers⟩

/-- So does the callback of an entry that is picked by hand. -/
theorem runCallback_reaches_trigger {w : World} {i : Nat} {s : Station}
    (hs : w.station? i = some s) {rejecting : Bool}
    (hdrive : s.scheduler.engine.drive = .byHand rejecting)
    {x : Entry Nat} (hx : s.scheduler.engine.entry? x.id = some x) {ending : RunEnd}
    (hend : ∀ e, x.callback = .job e → w.EndsAtOnce e ending) (pass : Option (Nat → World → World)) :
    w.Reaches i s (s.scheduler.trigger w.store w.clock (.entry x.id) ending)
      (w.runCallback pass i x.callback).2 := by
  have htrigger : s.scheduler.engine.trigger? w.clock.wall (.entry x.id) =
      some (x.callback, s.scheduler.engine, []) := by
    unfold Engine.trigger?
    simp only [hdrive, hx, Option.map_some]
  rw [Scheduler.trigger_of_some htrigger w.store ending]
  obtain ⟨hstation, hstore, hperformers⟩ := runCallback_reaches hs hend pass
  exact ⟨hstation, hstore, hperformers⟩

/-- What was released when the host became ready is run ungated. -/
theorem runTask_ready_reaches {w : World} {i : Nat} {s : Station} (hs : w.station? i = some s)
    {c : ReadyCallback Nat} {ending : RunEnd} (hend : ∀ e, c = .job e → w.EndsAtOnce e ending) :
    w.Reaches i s (s.scheduler.take w.store w.clock (.readyCallback c)) (w.runTask (.ready i c)) := by
  cases c with
  | job e =>
    obtain ⟨p, hp, hp'⟩ := hend e rfl
    have hrun := runJob_of_ending hs hp hp' none false
    exact ⟨station?_of_same hs hrun.stations, hrun.store, hrun.performers⟩
  | host label =>
    have hsaid := w.agrees_say s!"i{i} ready {label}"
    exact ⟨station?_of_same hs hsaid.stations, hsaid.store, hsaid.performers⟩

/-- What station `i` is told to run is carried out: triggers and runs at readiness leave the scheduler
and the leases that `Scheduler` says, and each calls the handler that it says, once. -/
structure CarriesOut (w : World) (i : Nat) (s : Station) : Prop where
  timer : ∀ serial x, w.triggered? (.timer i serial) = some x → ∀ ending,
    (∀ e, x.callback = .job e → w.EndsAtOnce e ending) →
      w.Reaches i s (s.scheduler.trigger w.store w.clock (.timer serial) ending)
        ((w.runTask (.timer i serial)).runTask (.callback i x.callback))
  entry : ∀ rejecting, s.scheduler.engine.drive = .byHand rejecting →
    ∀ x, s.scheduler.engine.entry? x.id = some x → ∀ ending,
      (∀ e, x.callback = .job e → w.EndsAtOnce e ending) → ∀ pass,
        w.Reaches i s (s.scheduler.trigger w.store w.clock (.entry x.id) ending)
          (w.runCallback pass i x.callback).2
  ready : ∀ c ending, (∀ e, c = .job e → w.EndsAtOnce e ending) →
    w.Reaches i s (s.scheduler.take w.store w.clock (.readyCallback c)) (w.runTask (.ready i c))

theorem carriesOut {w : World} {i : Nat} {s : Station} (hs : w.station? i = some s) :
    w.CarriesOut i s where
  timer := by
    intro serial x hx ending hend
    have hcallback := w.triggered?_callback i serial
    rw [hx, hs] at hcallback
    obtain ⟨⟨callback, engine, woken⟩, hfire, hsame⟩ :=
      Option.map_eq_some_iff.mp hcallback.symm
    obtain rfl : callback = x.callback := hsame
    exact runTask_reaches hs hfire hend
  entry := fun _ hdrive _ hx _ hend pass => runCallback_reaches_trigger hs hdrive hx hend pass
  ready := fun _ _ hend => runTask_ready_reaches hs hend

end World
end Rehearsal
end RecurringJobs
