import RecurringJobs.Proofs.Engine.Refusals
import RecurringJobs.Proofs.Engine.Registrations
import RecurringJobs.Proofs.Engine.Tokens

/-!
The timers of an engine, as the tasks of a `TaskEngine` to which the same is done.

Both have the same entries and run at the same times (`Mirrors`), and the tasks that are not
cancelled do the work of the timers.  What the calls of an engine do to its timers is so shown with
all tokens taken into account.
-/

namespace RecurringJobs

variable {η : Type}

/-! ## The same entries -/

namespace TaskEngine

structure Mirrors (d : TaskEngine η) (e : Engine η) : Prop where
  entries : d.entries = e.entries
  lastId : d.lastId = e.lastId
  running : d.running = e.isRunning

namespace Mirrors

variable {d : TaskEngine η} {e : Engine η}

theorem register (h : d.Mirrors e) (hclockwork : e.refusing = none) (now : Instant) (text : String)
    (callback : Callback η) :
    (d.register text callback).Mirrors (e.register now text callback).2.1 := by
  have hresult := e.register_result now text callback
  rw [hclockwork] at hresult
  unfold TaskEngine.register
  cases hparse : Plan.parse text with
  | error error =>
    rcases e.register_cases now text callback with ⟨plan, e', es, hr, hreg⟩ | ⟨error, hr⟩
    · cases hparse.symm.trans hreg.parsed
    · rw [hr]
      exact h
  | ok plan =>
    have htaken : refusal? none text = none := by
      unfold refusal?
      rw [hparse]
      rfl
    rw [htaken] at hresult
    rcases e.register_cases now text callback with ⟨plan', e', es, hr, hreg⟩ | ⟨error, hr⟩
    · rw [hr]
      obtain rfl : plan = plan' := Except.ok.inj (hparse.symm.trans hreg.parsed)
      have hentries : (d.insert text plan callback).entries = e'.entries := by
        rw [entries_insert, hreg.entries, h.entries, h.lastId]
      have hlast : (d.insert text plan callback).lastId = e'.lastId := by
        rw [hreg.lastId]
        exact congrArg (· + 1) h.lastId
      have hrunning : (d.insert text plan callback).running = e'.isRunning := by
        rw [hreg.isRunning]
        exact h.running
      dsimp only
      split
      · have hkeeps := (d.insert text plan callback).keeps_arm (d.lastId + 1)
        exact ⟨hkeeps.entries.trans hentries, hkeeps.lastId.trans hlast,
          hkeeps.running.trans hrunning⟩
      · exact ⟨hentries, hlast, hrunning⟩
    · rw [hr] at hresult
      cases hresult

theorem unregister (h : d.Mirrors e) (id : Nat) :
    (d.unregister id).Mirrors (e.unregister id).1 where
  entries := by rw [entries_unregister, Engine.unregister_entries, h.entries]
  lastId := by rw [Engine.unregister_lastId, (d.unregister_rest id).2.1, h.lastId]
  running := by rw [Engine.unregister_isRunning, (d.unregister_rest id).2.2, h.running]

theorem start (h : d.Mirrors e) (hclockwork : e.refusing = none) (now : Instant)
    (order : TaskEngine η → List Nat) : (d.start order).Mirrors (e.start now).1 := by
  have hon := Engine.start_isRunning hclockwork now
  cases hrun : d.running with
  | true =>
    unfold TaskEngine.start
    rw [if_pos hrun]
    exact ⟨h.entries.trans (e.start_entries now).symm, h.lastId.trans (e.start_lastId now).symm,
      hrun.trans hon.symm⟩
  | false =>
    have hkeeps := keeps_start hrun order
    refine ⟨?_, ?_, ?_⟩
    · rw [hkeeps.entries, Engine.start_entries]
      exact h.entries
    · rw [hkeeps.lastId, Engine.start_lastId]
      exact h.lastId
    · rw [hkeeps.running, hon]

theorem stop (h : d.Mirrors e) : d.stop.Mirrors e.stop.1 where
  entries := by rw [entries_stop, Engine.stop_entries, h.entries]
  lastId := by
    rw [Engine.stop_lastId, ← h.lastId]
    unfold TaskEngine.stop
    split <;> rfl
  running := by
    rw [Engine.stop_isRunning]
    unfold TaskEngine.stop
    split
    · rfl
    · next hstands => exact Bool.not_eq_true _ ▸ hstands

theorem fired (h : d.Mirrors e) (serial : Nat) (now : Instant) : d.Mirrors (e.fired serial now) where
  entries := by rw [Engine.fired_entries, h.entries]
  lastId := by rw [Engine.fired_lastId, h.lastId]
  running := by rw [Engine.fired_isRunning, h.running]

theorem take (h : d.Mirrors e) (hclockwork : e.refusing = none) (order : TaskEngine η → List Nat)
    (t : Engine.Turn η) : (d.take order t).Mirrors (e.take t) := by
  unfold TaskEngine.take Engine.take
  cases t.move with
  | register text callback => exact h.register hclockwork t.now text callback
  | unregister id => exact h.unregister id
  | start => exact h.start hclockwork t.now order
  | stop => exact h.stop
  | fire serial => exact h.fired serial t.now

theorem run (h : d.Mirrors e) (hclockwork : e.refusing = none) (order : TaskEngine η → List Nat)
    (ts : List (Engine.Turn η)) : (d.run order ts).Mirrors (e.run ts) := by
  induction ts generalizing d e with
  | nil => exact h
  | cons t ts ih => exact ih (h.take hclockwork order t) ((e.refusing_take t).trans hclockwork)

end Mirrors
end TaskEngine

namespace Engine

/-- Whatever was done to an engine, in whatever order its starts went through the entries: the live
tasks are the timers, one for each entry while the engine runs and none while it stands, and each
has the plan and the callback that its number was given for.  To start it again or to stop it again
changes nothing, a removal cancels the task of that entry alone, a stop cancels all and keeps the
entries, and the next start spawns one task for each of them. -/
theorem tasks_of_run {order : TaskEngine η → List Nat}
    (horder : ∀ d : TaskEngine η, (order d).Perm d.ids) (turns : List (Turn η)) :
    let d := TaskEngine.run order {} turns
    let e := (clockwork : Engine η).run turns
    d.entries = e.entries ∧ d.running = e.isRunning ∧
      (d.live.map TimerTask.work).Perm (e.timers.map Timer.work) ∧
      (e.entries.map Entry.id).Nodup ∧
      (d.live.map TimerTask.work).Perm (if e.isRunning then e.entries.map Entry.work else []) ∧
      (∀ t ∈ d.live, ∃ r : Registration η, Plan.parse r.text = .ok t.plan ∧
        r.callback = t.callback ∧
        ∀ s, s ∈ (clockwork : Engine η).registrations turns ∧ s.id = t.id ↔ s = r) ∧
      (e.isRunning = true → d.start order = d ∧ ∀ now, (e.start now).1 = e) ∧
      (e.isRunning = false → d.stop = d ∧ e.stop.1 = e) ∧
      (∀ id, (d.unregister id).live = d.live.filter fun t => t.id ≠ id) ∧
      (d.stop.live = [] ∧ d.stop.entries = e.entries) ∧
      (e.isRunning = false → ∃ fresh, (d.start order).tasks = d.tasks ++ fresh ∧
        (d.start order).live = fresh ∧
        (fresh.map TimerTask.work).Perm (e.entries.map Entry.work)) := by
  intro d e
  have hd : d.IsSettled := TaskEngine.isSettled_new.run horder turns
  have he : e.IsSound := isSound_clockwork.run turns
  have hmirrors : d.Mirrors e := TaskEngine.Mirrors.run ⟨rfl, rfl, rfl⟩ rfl order turns
  have hlive := hd.live_work
  rw [hmirrors.entries, hmirrors.running] at hlive
  refine ⟨hmirrors.entries, hmirrors.running, ?_, he.ids_nodup, hlive, ?_, ?_, ?_,
    hd.live_unregister, ⟨hd.live_stop, d.entries_stop.trans hmirrors.entries⟩, ?_⟩
  · rw [he.timed]
    exact hlive
  · intro t ht
    have hwork : t.work ∈ if e.isRunning then e.entries.map Entry.work else [] :=
      hlive.subset (List.mem_map_of_mem ht)
    split at hwork
    · obtain ⟨x, hx, hsame⟩ := List.mem_map.mp hwork
      unfold TimerTask.work Entry.work at hsame
      simp only [Prod.mk.injEq] at hsame
      obtain ⟨hid, hplan, hcallback⟩ := hsame
      refine ⟨x.registration, hplan ▸ he.parsed x hx, hcallback, fun s => ?_⟩
      rw [← hid]
      exact registered_iff hx
    · cases hwork
  · intro hrun
    refine ⟨?_, start_of_isRunning hrun⟩
    unfold TaskEngine.start
    rw [if_pos (hmirrors.running.trans hrun)]
  · intro hstands
    refine ⟨?_, stop_of_not_isRunning hstands⟩
    have hoff : d.running = false := hmirrors.running.trans hstands
    unfold TaskEngine.stop
    rw [hoff]
    rfl
  · intro hstands
    rw [← hmirrors.entries]
    exact hd.live_start (hmirrors.running.trans hstands) (horder d)

/-- An engine that was stopped twice, with an entry removed before and one registered after. -/
def twiceStopped : List (Turn String) :=
  [.register "@every 90s" (.host "first"), .start, .register "every 2 minutes" (.host "second"),
    .unregister 1, .stop, .stop, .register "@every 5s" (.host "third"), .unregister 7].map
    fun move => { now := { seconds := 1704153600 }, move }

theorem start_twiceStopped :
    let order (d : TaskEngine String) := d.ids.reverse
    let d := TaskEngine.run order {} twiceStopped
    ∃ fresh, (d.start order).tasks = d.tasks ++ fresh ∧ (d.start order).live = fresh ∧
      (fresh.map TimerTask.work).Perm
        [(2, .every 120, .host "second"), (3, .every 5, .host "third")] := by
  intro order d
  have hstands : ((clockwork : Engine String).run twiceStopped).isRunning = false := by
    decide +kernel
  have hentries : ((clockwork : Engine String).run twiceStopped).entries.map Entry.work =
      [(2, .every 120, .host "second"), (3, .every 5, .host "third")] := by decide +kernel
  obtain ⟨-, -, -, -, -, -, -, -, -, -, hstart⟩ :=
    @tasks_of_run String order (fun d => d.ids.reverse_perm) twiceStopped
  rw [hentries] at hstart
  exact hstart hstands

end Engine
end RecurringJobs
