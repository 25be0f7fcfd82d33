import RecurringJobs.Proofs.Rehearsal.Likeness

/-!
What happens without time passing.

A timer that goes off leads to one callback, and every other task to none, so the tasks of an
instant come to an end before the bound that `World.stir` gives.  What is left does not depend on
the runs of handlers that were worked off in between, and neither do the triggers.
-/

namespace RecurringJobs
namespace Rehearsal

/-- How many tasks a task can be, together with the one it leads to. -/
def Task.load : Task → Nat
  | .timer _ _ => 2
  | _ => 1

theorem Task.one_le_load (t : Task) : 1 ≤ t.load := by
  cases t <;> simp [Task.load]

theorem Task.load_le_two (t : Task) : t.load ≤ 2 := by
  cases t <;> simp [Task.load]

namespace World

variable {w w' : World}

/-! ## Triggers -/

theorem Alike.triggered? (h : w.Alike w') (t : Task) : w'.triggered? t = w.triggered? t := by
  cases t with
  | timer i serial =>
    unfold World.triggered?
    dsimp only
    rw [h.station? i, h.clock]
  | _ => rfl

theorem triggered?_of_isRun {t : Task} (ht : t.isRun = true) : w.triggered? t = none := by
  cases t with
  | resume r rest => rfl
  | _ => exact absurd ht Bool.false_ne_true

/-- What is triggered while tasks are worked off. -/
def drainTriggers : Nat → World → List Triggered
  | 0, _ => []
  | fuel + 1, w =>
    match w.queue with
    | [] => []
    | task :: queue =>
      ({ w with queue }.triggered? task).toList ++
        drainTriggers fuel ({ w with queue }.runTask task)

theorem drain_of_nil (h : w.queue = []) (fuel : Nat) :
    w.drain fuel = w ∧ drainTriggers fuel w = [] := by
  cases fuel with
  | zero => exact ⟨rfl, rfl⟩
  | succ fuel => simp [drain, drainTriggers, h]

theorem drain_of_cons {t : Task} {queue : List Task} (h : w.queue = t :: queue) (fuel : Nat) :
    w.drain (fuel + 1) = ({ w with queue }.runTask t).drain fuel ∧
      drainTriggers (fuel + 1) w =
        ({ w with queue }.triggered? t).toList ++
          drainTriggers fuel ({ w with queue }.runTask t) := by
  simp [drain, drainTriggers, h]

/-! ## The tasks of an instant come to an end -/

/-- How many tasks there are still to run without time passing, at most. -/
def load (w : World) : Nat := (w.queue.map Task.load).sum

theorem load_le_stir (w : World) : w.load ≤ w.stir := by
  have hdouble : ∀ ts : List Task, (ts.map Task.load).sum ≤ 2 * ts.length := by
    intro ts
    induction ts with
    | nil => simp
    | cons t ts ih =>
      have ht := t.load_le_two
      simp only [List.map_cons, List.sum_cons, List.length_cons]
      omega
  have hload : w.load ≤ 2 * w.queue.length := hdouble w.queue
  unfold stir
  dsimp only
  omega

theorem Does.load_lt {t : Task} (h : w.Does t w') : w'.load < w.load + t.load := by
  have hone := t.one_le_load
  cases h with
  | aside h =>
    unfold load
    rw [h.queue]
    exact Nat.lt_add_of_pos_right hone
  | renews hs =>
    unfold load
    rw [(w.beside_renewal _ _).queue]
    exact Nat.lt_add_of_pos_right hone
  | waits hdue => exact Nat.lt_add_of_pos_right hone
  | rings hs hc =>
    show (List.map Task.load (_ ++ [_])).sum < (w.queue.map Task.load).sum + 2
    rw [queue_ringing hc]
    simp [Task.load]

theorem IsSteady.rest (hw : w.IsSteady) {t : Task} {queue : List Task} (hq : w.queue = t :: queue) :
    ({ w with queue } : World).IsSteady :=
  ⟨hw.nanos, hw.whole, hw.ticking, hw.quiet, fun u hu => hw.queued u (by simp [hq, hu]), hw.asleep⟩

/-- The first task is run, and less is left to run. -/
theorem IsSteady.serve (hw : w.IsSteady) {t : Task} {queue : List Task}
    (hq : w.queue = t :: queue) :
    t.IsFit w.clock.wall ∧ ({ w with queue } : World).Does t ({ w with queue }.runTask t) ∧
      ({ w with queue }.runTask t).IsSteady ∧ ({ w with queue }.runTask t).load < w.load := by
  have hfit : t.IsFit w.clock.wall := hw.queued t (by simp [hq])
  have hrest := hw.rest hq
  have hdoes := does_runTask hrest.quiet hfit
  have hload : w.load = ({ w with queue } : World).load + t.load := by
    show (w.queue.map Task.load).sum = (queue.map Task.load).sum + t.load
    rw [hq]
    simp [Nat.add_comm]
  refine ⟨hfit, hdoes, hdoes.isSteady hrest, ?_⟩
  rw [hload]
  exact hdoes.load_lt

/-- In a prompt world all that is left is prompt. -/
theorem IsSteady.serve_prompt (hw : w.IsSteady) (hprompt : w.IsPrompt) {t : Task}
    {queue : List Task} (hq : w.queue = t :: queue) : ({ w with queue }.runTask t).IsPrompt := by
  have hrest : ({ w with queue } : World).IsSteady := hw.rest hq
  have hleft : ({ w with queue } : World).IsPrompt :=
    ⟨hprompt.asleep, fun i serial due hmem => hprompt.armed i serial due (by simp [hq, hmem])⟩
  refine (hw.serve hq).2.1.isPrompt hrest hleft ?_
  rintro i serial due rfl
  exact hprompt.armed i serial due (by simp [hq])

/-- What is left when the tasks of an instant have been worked off. -/
structure Settled (w w' : World) : Prop where
  steady : w'.IsSteady
  queue : w'.queue = []
  clock : w'.clock = w.clock
  prompt : w.IsPrompt → w'.IsPrompt

theorem IsSteady.drain (hw : w.IsSteady) {fuel : Nat} (hfuel : w.load ≤ fuel) :
    w.Settled (w.drain fuel) := by
  induction fuel generalizing w with
  | zero =>
    have hnil : w.queue = [] := by
      cases hq : w.queue with
      | nil => rfl
      | cons t queue =>
        have hpos := (hw.serve hq).2.2.2
        omega
    exact ⟨hw, hnil, rfl, id⟩
  | succ fuel ih =>
    cases hq : w.queue with
    | nil =>
      rw [(drain_of_nil hq _).1]
      exact ⟨hw, hq, rfl, id⟩
    | cons t queue =>
      obtain ⟨-, hdoes, hsteady, hload⟩ := hw.serve hq
      obtain ⟨hleft, hempty, hclock, hlater⟩ := ih hsteady (by omega)
      rw [(drain_of_cons hq fuel).1]
      exact ⟨hleft, hempty, hclock.trans hdoes.clock, fun h => hlater (hw.serve_prompt h hq)⟩

/-! ## Two worlds that are alike -/

/-- A run is next. -/
def RunIsNext (w : World) : Prop := ∃ t queue, w.queue = t :: queue ∧ t.isRun = true

/-- A run that is gone on with makes no difference. -/
theorem IsSteady.skip (hw : w.IsSteady) (hnext : w.RunIsNext) {fuel : Nat} (hfuel : w.load ≤ fuel) :
    ∃ v less, fuel = less + 1 ∧ w.drain fuel = v.drain less ∧
      drainTriggers fuel w = drainTriggers less v ∧ v.IsSteady ∧ w.Alike v ∧ v.load ≤ less := by
  obtain ⟨t, queue, hq, ht⟩ := hnext
  obtain ⟨hfit, -, hsteady, hload⟩ := hw.serve hq
  obtain ⟨less, rfl⟩ : ∃ less, fuel = less + 1 := ⟨fuel - 1, by omega⟩
  obtain ⟨hdrain, htriggers⟩ := drain_of_cons hq less
  rw [triggered?_of_isRun ht] at htriggers
  have hrun : ({ w with queue } : World).Beside ({ w with queue }.runTask t) := by
    cases t with
    | resume r rest => exact beside_perform r rest { w with queue } hfit
    | _ => exact absurd ht Bool.false_ne_true
  have htaken : w.Alike { w with queue } := by
    refine ⟨rfl, rfl, rfl, rfl, ?_, rfl⟩
    rw [hq]
    simp [ht]
  exact ⟨_, less, rfl, hdrain, htriggers, hsteady, htaken.trans hrun.alike, by omega⟩

/-- If no run is next in either world, the same task is, or none. -/
theorem Alike.next (h : w.Alike w') (hrun : ¬w.RunIsNext) (hrun' : ¬w'.RunIsNext) :
    (w.queue = [] ∧ w'.queue = []) ∨ ∃ t queue queue', w.queue = t :: queue ∧
      w'.queue = t :: queue' ∧ ({ w with queue } : World).Alike { w' with queue := queue' } := by
  have hqueue := h.queue
  have hhead : ∀ {v : World} {t : Task} {queue : List Task}, ¬v.RunIsNext → v.queue = t :: queue →
      t.isRun = false := by
    intro v t queue hv hq
    cases ht : t.isRun with
    | true => exact absurd ⟨t, queue, hq, ht⟩ hv
    | false => rfl
  cases hq : w.queue with
  | nil =>
    cases hq' : w'.queue with
    | nil => exact .inl ⟨rfl, rfl⟩
    | cons t' queue' =>
      rw [hq, hq'] at hqueue
      simp [hhead hrun' hq'] at hqueue
  | cons t queue =>
    cases hq' : w'.queue with
    | nil =>
      rw [hq, hq'] at hqueue
      simp [hhead hrun hq] at hqueue
    | cons t' queue' =>
      rw [hq, hq'] at hqueue
      simp only [List.filter_cons, hhead hrun hq, hhead hrun' hq', Bool.not_false, if_true,
        List.cons.injEq] at hqueue
      obtain ⟨rfl, hrest⟩ := hqueue
      exact .inr ⟨t', queue, queue', rfl, rfl, h.clock, h.store, h.stations, h.calls, hrest,
        h.sleepers⟩

/-- The same is left, and the same was triggered, when the tasks of both have been worked off. -/
theorem Alike.drain {fuel fuel' : Nat} {w w' : World} (hw : w.IsSteady) (hw' : w'.IsSteady)
    (h : w.Alike w') (hfuel : w.load ≤ fuel) (hfuel' : w'.load ≤ fuel') :
    (w.drain fuel).Alike (w'.drain fuel') ∧ drainTriggers fuel w = drainTriggers fuel' w' := by
  by_cases hrun : w.RunIsNext
  · obtain ⟨v, less, rfl, hdrain, htriggers, hv, hlike, hless⟩ := hw.skip hrun hfuel
    rw [hdrain, htriggers]
    exact Alike.drain hv hw' (hlike.symm.trans h) hless hfuel'
  by_cases hrun' : w'.RunIsNext
  · obtain ⟨v, less, rfl, hdrain, htriggers, hv, hlike, hless⟩ := hw'.skip hrun' hfuel'
    rw [hdrain, htriggers]
    exact Alike.drain hw hv (h.trans hlike) hfuel hless
  -- neither world has a run in front, so both serve the same task
  rcases h.next hrun hrun' with ⟨hq, hq'⟩ | ⟨t, queue, queue', hq, hq', hrest⟩
  · rw [(drain_of_nil hq fuel).1, (drain_of_nil hq fuel).2, (drain_of_nil hq' fuel').1,
      (drain_of_nil hq' fuel').2]
    exact ⟨h, rfl⟩
  · obtain ⟨hfit, -, hv, hload⟩ := hw.serve hq
    obtain ⟨-, -, hv', hload'⟩ := hw'.serve hq'
    obtain ⟨less, rfl⟩ : ∃ less, fuel = less + 1 := ⟨fuel - 1, by omega⟩
    obtain ⟨less', rfl⟩ : ∃ less', fuel' = less' + 1 := ⟨fuel' - 1, by omega⟩
    have hless := Nat.le_of_lt_succ (Nat.lt_of_lt_of_le hload hfuel)
    have hless' := Nat.le_of_lt_succ (Nat.lt_of_lt_of_le hload' hfuel')
    have hserved := hrest.runTask hw.quiet hw'.quiet hfit
    obtain ⟨hleft, htriggers⟩ := Alike.drain hv hv' hserved hless hless'
    rw [(drain_of_cons hq less).1, (drain_of_cons hq less).2, (drain_of_cons hq' less').1,
      (drain_of_cons hq' less').2, hrest.triggered? t, htriggers]
    exact ⟨hleft, rfl⟩
termination_by fuel + fuel'

/-! ## Settling -/

/-- What is triggered while everything happens that can happen without time passing. -/
def settleTriggers (w : World) : List Triggered :=
  drainTriggers w.stir { w with inBackground := true }

theorem alike_inBackground (w : World) (background : Bool) :
    w.Alike { w with inBackground := background } := ⟨rfl, rfl, rfl, rfl, rfl, rfl⟩

theorem IsSteady.inBackground (hw : w.IsSteady) (background : Bool) :
    ({ w with inBackground := background } : World).IsSteady :=
  ⟨hw.nanos, hw.whole, hw.ticking, hw.quiet, hw.queued, hw.asleep⟩

theorem IsSteady.settle (hw : w.IsSteady) : w.Settled w.settle := by
  have hdrained := (hw.inBackground true).drain w.load_le_stir
  refine ⟨hdrained.steady.inBackground _, hdrained.queue, hdrained.clock, fun hprompt => ?_⟩
  have hleft := hdrained.prompt ⟨hprompt.asleep, hprompt.armed⟩
  exact ⟨hleft.asleep, hleft.armed⟩

theorem Alike.settle (hw : w.IsSteady) (hw' : w'.IsSteady) (h : w.Alike w') :
    w.settle.Alike w'.settle ∧ w.settleTriggers = w'.settleTriggers := by
  have hback : ({ w with inBackground := true } : World).Alike { w' with inBackground := true } :=
    ((w.alike_inBackground true).symm.trans h).trans (w'.alike_inBackground true)
  obtain ⟨hleft, htriggers⟩ := Alike.drain (hw.inBackground true) (hw'.inBackground true) hback
    w.load_le_stir w'.load_le_stir
  exact ⟨((alike_inBackground _ _).symm.trans hleft).trans (alike_inBackground _ _), htriggers⟩

/-- Where no task is ready nothing happens. -/
theorem settle_of_nil (h : w.queue = []) : w.settle = w ∧ w.settleTriggers = [] := by
  have hdrained := drain_of_nil (w := { w with inBackground := true }) h w.stir
  constructor
  · unfold World.settle
    rw [hdrained.1]
  · exact hdrained.2

end World
end Rehearsal
end RecurringJobs
