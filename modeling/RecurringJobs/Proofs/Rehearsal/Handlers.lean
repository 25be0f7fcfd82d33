import RecurringJobs.Proofs.Rehearsal.Triggers

/-!
What handlers do that take no steps of their own.

Such a handler says something, fails or crashes, and sleeps.  To the rest of the world it is as if
nothing had happened but the call, which is counted: `World.Beside` tells what is left of it, and
that is a run that waits to be gone on with.
-/

namespace RecurringJobs
namespace Rehearsal

/-- Takes no steps. -/
def Action.isQuiet : Action → Bool
  | .sleep _ next => next.isQuiet
  | .resolve _ next => next.isQuiet
  | .call _ _ => false
  | _ => true

def Performer.isQuiet (p : Performer) : Bool := p.runs.all Action.isQuiet

theorem Performer.isQuiet_action {p : Performer} (h : p.isQuiet = true) (number : Nat) :
    (p.action number).isQuiet = true := by
  have hall : ∀ a ∈ p.runs, a.isQuiet = true := List.all_eq_true.mp h
  unfold Performer.action
  cases hnumber : p.runs[number - 1]? with
  | some a => exact hall a (List.mem_of_getElem? hnumber)
  | none =>
    show (p.runs.getLastD .finish).isQuiet = true
    by_cases hnone : p.runs = []
    · rw [hnone]
      rfl
    · rw [List.getLastD_eq_getLast?, List.getLast?_eq_some_getLast hnone]
      exact hall _ (List.getLast_mem hnone)

/-- It is still asleep when the clocks read this, and wakes up at a whole millisecond. -/
def Sleeper.Sleeps (s : Sleeper) (clock : Clock) : Prop :=
  clock.elapsed < s.wake ∧ TimeUnit.nanosPerMilli ∣ s.wake

/-- A run that waits to be gone on with, and takes no steps then. -/
def Task.IsQuietRun : Task → Prop
  | .resume _ rest => rest.isQuiet = true
  | _ => False

namespace World

theorem le_wholeMillis (nanos : Nat) : nanos ≤ wholeMillis nanos := by
  unfold wholeMillis TimeUnit.nanosPerMilli
  omega

theorem dvd_wholeMillis (nanos : Nat) : TimeUnit.nanosPerMilli ∣ wholeMillis nanos :=
  Nat.dvd_mul_left _ _

theorem sleeps_of_pos {nanos : Nat} (h : 0 < nanos) (clock : Clock) (task : Task) :
    Sleeper.Sleeps { wake := wholeMillis (clock.elapsed + nanos), task } clock := by
  have hle := le_wholeMillis (clock.elapsed + nanos)
  refine ⟨?_, dvd_wholeMillis _⟩
  show clock.elapsed < wholeMillis (clock.elapsed + nanos)
  omega

/-! ## What is left of a run -/

/-- The same world, but for what handlers have said and the runs that sleep. -/
structure Beside (w w' : World) : Prop where
  clock : w'.clock = w.clock
  store : w'.store = w.store
  stations : w'.stations = w.stations
  performers : w'.performers = w.performers
  queue : w'.queue = w.queue
  sleepers : ∃ asleep, w'.sleepers = w.sleepers ++ asleep ∧
    ∀ s ∈ asleep, s.Sleeps w.clock ∧ s.task.IsQuietRun

theorem Beside.refl (w : World) : w.Beside w := ⟨rfl, rfl, rfl, rfl, rfl, [], by simp⟩

theorem Beside.trans {w w' w'' : World} (h : w.Beside w') (h' : w'.Beside w'') : w.Beside w'' := by
  obtain ⟨asleep, hasleep, hruns⟩ := h.sleepers
  obtain ⟨asleep', hasleep', hruns'⟩ := h'.sleepers
  refine ⟨h'.clock.trans h.clock, h'.store.trans h.store, h'.stations.trans h.stations,
    h'.performers.trans h.performers, h'.queue.trans h.queue, asleep ++ asleep', ?_, ?_⟩
  · rw [hasleep', hasleep, List.append_assoc]
  · intro s hs
    rcases List.mem_append.mp hs with hs | hs
    · exact hruns s hs
    · have hrun := hruns' s hs
      rw [h.clock] at hrun
      exact hrun

theorem Agrees.beside {w w' : World} (h : w.Agrees w') (hqueue : w'.queue = w.queue)
    (hsleepers : w'.sleepers = w.sleepers) : w.Beside w' :=
  ⟨h.clock, h.store, h.stations, h.performers, hqueue, [], by simp [hsleepers], by simp⟩

theorem beside_say (w : World) (text : String) : w.Beside (w.say text) := by
  refine (w.agrees_say text).beside ?_ ?_
  · unfold say
    split <;> rfl
  · unfold say
    split <;> rfl

end World

/-! ## Effects that are only told -/

/-- It is written down, and nothing comes of it. -/
def IsTold {η : Type} : Effect η → Prop
  | .log _ => True
  | .engine _ => True
  | .lock _ => True
  | _ => False

def AllTold {η : Type} (es : List (Effect η)) : Prop := ∀ x ∈ es, IsTold x

theorem gate_told {η : Type} (s : Scheduler η) (now : Nat) (name : String) (gated : Bool) :
    AllTold (s.gate now name gated).2 := by
  unfold AllTold Scheduler.gate
  split
  · split <;> simp [IsTold]
  · simp [IsTold]

theorem runEnd_told {η : Type} (name : String) (ending : RunEnd) :
    AllTold (ending.effects name : List (Effect η)) := by
  cases ending <;> simp [AllTold, RunEnd.effects, IsTold]

theorem acquire_told {η : Type} (s : Scheduler η) (store : LeaseStore) (now : Nat) :
    AllTold (s.acquire store now).effects := by
  unfold AllTold Scheduler.acquire
  split
  · simp
  · unfold Scheduler.tryLock Scheduler.leaseLog
    dsimp only
    intro x hx
    rcases List.mem_append.mp hx with hx | hx
    · rcases List.mem_append.mp hx with hx | hx
      · split at hx <;> simp_all [IsTold]
      · split at hx <;> simp_all [IsTold]
    · split at hx <;> simp_all [IsTold]

namespace World

theorem beside_effects (w : World) (i : Nat) {es : List (Effect Nat)} (h : AllTold es) :
    w.Beside (w.effects i es) := by
  induction es generalizing w with
  | nil => exact Beside.refl w
  | cons x es ih =>
    have hx : IsTold x := h x (by simp)
    have hrest := ih (effect i w x) fun y hy => h y (by simp [hy])
    refine Beside.trans ?_ hrest
    cases x with
    | log e => exact w.beside_say _
    | engine c => exact w.beside_say _
    | lock c => exact w.beside_say _
    | arm serial due => exact absurd hx id
    | wait serial due => exact absurd hx id
    | timerLog e => exact absurd hx id
    | spawn c => exact absurd hx id

/-! ## Runs -/

theorem beside_conclude (w : World) (r : Run) (ending : RunEnd) :
    w.Beside (w.conclude r ending) := by
  unfold conclude
  cases ending with
  | completed => exact (w.beside_say _).trans (beside_effects _ _ (runEnd_told _ _))
  | failed e => exact w.beside_effects _ (runEnd_told _ _)
  | panicked p => exact w.beside_effects _ (runEnd_told _ _)

theorem beside_sleepFor (w : World) {nanos : Nat} (hnanos : 0 < nanos) (r : Run) {rest : Action}
    (hrest : rest.isQuiet = true) : w.Beside (w.sleepFor nanos (.resume r rest)) := by
  refine ⟨rfl, rfl, rfl, rfl, rfl, _, rfl, ?_⟩
  simp [sleeps_of_pos hnanos, Task.IsQuietRun, hrest]

/-- Going on with a run that takes no steps, up to where it sleeps. -/
theorem beside_perform (r : Run) : ∀ (a : Action) (w : World), a.isQuiet = true →
    w.Beside (perform none r a w)
  | .finish, w, _ => w.beside_conclude r .completed
  | .fail reason, w, _ => w.beside_conclude r (.failed (.failed reason))
  | .other text, w, _ => w.beside_conclude r (.failed (.other text))
  | .panic payload, w, _ => w.beside_conclude r (.panicked payload)
  | .sleep 0 next, w, h => beside_perform r next w h
  | .sleep (millis + 1) next, w, h => by
    have hpos : 0 < (millis + 1) * TimeUnit.nanosPerMilli := by
      unfold TimeUnit.nanosPerMilli
      omega
    exact w.beside_sleepFor hpos r h
  | .resolve kind next, w, h => by
    unfold perform
    split
    · exact (w.beside_say _).trans (beside_perform r next _ h)
    · exact w.beside_conclude r _
  | .call _ _, _, h => absurd h Bool.false_ne_true

/-- No handler takes steps. -/
def IsQuiet (w : World) : Prop := ∀ p ∈ w.performers, p.isQuiet = true

theorem Beside.isQuiet {w w' : World} (h : w.Beside w') (hquiet : w.IsQuiet) : w'.IsQuiet := by
  unfold IsQuiet
  rw [h.performers]
  exact hquiet

/-! ## Calls of handlers -/

/-- The world in which the call of a handler is counted, if one is called. -/
def counting (w : World) (called : Option (Execution Nat)) : World :=
  { w with performers := counted w.performers called }

theorem Beside.counting {w w' : World} (h : w.Beside w') (called : Option (Execution Nat)) :
    (w.counting called).Beside (w'.counting called) :=
  ⟨h.clock, h.store, h.stations, congrArg (counted · called) h.performers, h.queue, h.sleepers⟩

/-- A handler that there is not is not called. -/
theorem counted_of_none {ps : List Performer} {e : Execution Nat} (hp : ps[e.handler]? = none) :
    counted ps (some e) = ps :=
  List.modify_eq_self (List.getElem?_eq_none_iff.mp hp)

theorem set_of_getElem? {α : Type} {xs : List α} {i : Nat} {x : α} (h : xs[i]? = some x) :
    xs.set i x = xs := by
  obtain ⟨hlt, hx⟩ := List.getElem?_eq_some_iff.mp h
  rw [← hx]
  exact List.set_getElem_self hlt

theorem runs_counted (ps : List Performer) (called : Option (Execution Nat)) :
    (counted ps called).map Performer.runs = ps.map Performer.runs := by
  cases called with
  | none => rfl
  | some e =>
    cases hp : ps[e.handler]? with
    | none => rw [counted_of_none hp]
    | some p =>
      have hruns : (ps.map Performer.runs)[e.handler]? = some p.runs := by
        rw [List.getElem?_map, hp]
        rfl
      rw [counted_of_some hp, List.map_set]
      exact set_of_getElem? hruns

theorem IsQuiet.counting {w : World} (hquiet : w.IsQuiet) (called : Option (Execution Nat)) :
    (w.counting called).IsQuiet := by
  intro p hp
  have hruns : p.runs ∈ (counted w.performers called).map Performer.runs := List.mem_map_of_mem hp
  rw [runs_counted] at hruns
  obtain ⟨q, hq, hsame⟩ := List.mem_map.mp hruns
  unfold Performer.isQuiet
  rw [← hsame]
  exact hquiet q hq

/-- The call that a run of a job comes to, if the lock lets it. -/
def attempted? (w : World) (i : Nat) (e : Execution Nat) (gated : Bool) : Option (Execution Nat) :=
  (w.station? i).bind fun s =>
    (s.scheduler.attempt w.store w.clock.elapsed e gated).result

/-- The run of a job counts the call, and leaves nothing else but a run that sleeps. -/
theorem beside_runJob {w : World} (hquiet : w.IsQuiet) (i : Nat) (e : Execution Nat)
    (gated : Bool) :
    (w.counting (w.attempted? i e gated)).Beside (w.runJob none i e gated) := by
  unfold runJob attempted?
  cases hs : w.station? i with
  | none => exact Beside.refl w
  | some s =>
    have hcalled : ∀ go : Bool, (s.scheduler.gate w.clock.elapsed e.name gated).1 = go →
        (s.scheduler.attempt w.store w.clock.elapsed e gated).result =
          if go then some e else none := by
      rintro go rfl
      rfl
    have hasked := w.beside_effects i (gate_told s.scheduler w.clock.elapsed e.name gated)
    dsimp only [Option.bind_some]
    cases hgo : (s.scheduler.gate w.clock.elapsed e.name gated).1 with
    | false =>
      rw [hcalled false hgo]
      cases w.performers[e.handler]? with
      | none => exact Beside.refl w
      | some p =>
        dsimp only
        rw [hgo]
        exact hasked
    | true =>
      rw [hcalled true hgo]
      cases hp : w.performers[e.handler]? with
      | none =>
        show ({ w with performers := counted w.performers (some e) } : World).Beside w
        rw [counted_of_none hp]
        exact Beside.refl w
      | some p =>
        have haction : (p.action (p.calls + 1)).isQuiet = true :=
          Performer.isQuiet_action (hquiet p (List.mem_of_getElem? hp)) _
        have hset := counted_of_some (show (w.effects i
          (s.scheduler.gate w.clock.elapsed e.name gated).2).performers[e.handler]? = some p by
            rw [hasked.performers]; exact hp)
        dsimp only
        rw [hgo, if_pos rfl, if_pos rfl, ← hset]
        exact (hasked.counting (some e)).trans ((beside_say _ _).trans (beside_perform _ _ _ haction))

end World
end Rehearsal
end RecurringJobs
