import RecurringJobs.Proofs.Engine.Firing
import RecurringJobs.Proofs.Scheduler.Roster

/-!
The timer that renews the lock of a scheduler.

A start arms it for the first time.  From then on it is armed until the scheduler is stopped: the
jobs come and go by entries of their own, and when the timer goes off it is armed again.
-/

namespace RecurringJobs

variable {η : Type}

namespace Clockwork

theorem mem_armAll_of_mem {c : Clockwork η} {t : Timer η} (ht : t ∈ c.timers) (now : Instant)
    (xs : List (Entry η)) : t ∈ (c.armAll now xs).1.timers := by
  induction xs generalizing c with
  | nil => exact ht
  | cons x xs ih => exact ih (c := c.arm x now) (List.mem_append_left _ ht)

theorem exists_mem_armAll (c : Clockwork η) (now : Instant) {xs : List (Entry η)} {x : Entry η}
    (hx : x ∈ xs) : ∃ t ∈ (c.armAll now xs).1.timers, t.work = x.work ∧ t.due = x.plan.due? now := by
  induction xs generalizing c with
  | nil => cases hx
  | cons y xs ih =>
    rcases List.mem_cons.mp hx with rfl | hx
    · refine ⟨{ serial := c.armings, id := x.id, plan := x.plan, callback := x.callback,
                due := x.plan.due? now }, ?_, rfl, rfl⟩
      exact mem_armAll_of_mem (List.mem_append_right _ List.mem_cons_self) now xs
    · exact ih (c.arm y now) hx

end Clockwork

namespace Engine

/-- An entry that is registered right before a start is armed by one of the two. -/
theorem exists_timer_of_registers {e e' : Engine η} {now : Instant} {x : Entry η}
    (hclockwork : e'.refusing = none) (hreg : e.Registers now x e') :
    ∃ t ∈ (e'.start now).1.timers, t.work = x.work ∧ t.due = x.plan.due? now := by
  cases hrun : e'.isRunning with
  | true =>
    rw [start_of_isRunning hrun, hreg.timers]
    rw [hreg.isRunning] at hrun
    unfold newTimers
    rw [if_pos hrun]
    exact ⟨_, List.mem_append_right _ List.mem_cons_self, rfl, rfl⟩
  | false =>
    have hx : x ∈ e'.entries := hreg.mem_entries.mpr (Or.inr rfl)
    cases hdrive : e'.drive with
    | byHand rejecting => simp [refusing, hdrive] at hclockwork
    | clockwork c =>
      have hstands : c.running = false := by simpa [isRunning, hdrive] using hrun
      have harmed := Clockwork.exists_mem_armAll
        { c with running := true, everStarted := true } now hx
      unfold Engine.start
      rw [hdrive]
      simp only [hstands, Bool.false_eq_true, if_false]
      exact harmed

end Engine

namespace Scheduler

/-! ## What moves leave alone -/

theorem installRefresh_refreshSeconds (s : Scheduler η) (now : Instant) :
    (s.installRefresh now).1.refreshSeconds = s.refreshSeconds := by
  unfold installRefresh
  dsimp only
  split <;> rfl

theorem start_refreshSeconds (s : Scheduler η) (store : LeaseStore) (clock : Clock) :
    (s.start store clock).scheduler.refreshSeconds = s.refreshSeconds := by
  unfold Scheduler.start
  split
  · rfl
  · have htried : (Scheduler.acquire { s with state := .started } store
        clock.elapsed).scheduler.refreshSeconds = s.refreshSeconds := by
      rw [acquire_scheduler]
    dsimp only
    split
    · exact htried
    · split
      · exact (installRefresh_refreshSeconds _ _).trans htried
      · exact htried

theorem stop_refreshSeconds (s : Scheduler η) (store : LeaseStore) (now : Nat) :
    (s.stop store now).scheduler.refreshSeconds = s.refreshSeconds := by
  unfold Scheduler.stop
  split
  · rfl
  · dsimp only
    split <;> rfl

theorem take_refreshSeconds (s : Scheduler η) (store : LeaseStore) (clock : Clock) (m : Move η) :
    (s.take store clock m).scheduler.refreshSeconds = s.refreshSeconds := by
  cases m with
  | add name plan handler =>
    obtain ⟨engine, jobs, hframe⟩ := s.add_frame clock.wall name plan handler
    show (s.add clock.wall name plan handler).scheduler.refreshSeconds = _
    rw [hframe]
  | addOnReady name plan handler =>
    obtain ⟨engine, jobs, hframe⟩ := s.add_frame clock.wall name plan handler
    have hadded := congrArg Scheduler.refreshSeconds hframe
    show (s.addOnReady clock.wall name plan handler).scheduler.refreshSeconds = _
    unfold Scheduler.addOnReady
    split
    · rfl
    · dsimp only
      split
      · exact hadded
      · exact hadded
  | remove name =>
    show (s.remove name).scheduler.refreshSeconds = _
    unfold Scheduler.remove
    split <;> rfl
  | pause name =>
    obtain ⟨engine, jobs, hframe⟩ := s.pause_frame name
    show (s.pause name).scheduler.refreshSeconds = _
    rw [hframe]
  | resume name =>
    show (s.resume clock.wall name).scheduler.refreshSeconds = _
    unfold Scheduler.resume
    split
    · rfl
    · split
      · rfl
      · split <;> rfl
  | setLock lock =>
    show (s.setLock lock).scheduler.refreshSeconds = _
    unfold Scheduler.setLock
    split <;> rfl
  | start => exact s.start_refreshSeconds store clock
  | stop => exact s.stop_refreshSeconds store clock.elapsed
  | notify =>
    show s.notify.scheduler.refreshSeconds = _
    unfold Scheduler.notify
    split <;> rfl
  | setRejecting rejecting => rfl
  | fire serial =>
    show (s.fire clock.wall serial).scheduler.refreshSeconds = _
    rw [fire_scheduler]
  | callback c =>
    cases c with
    | job e => rfl
    | refresh =>
      show (s.acquire store clock.elapsed).scheduler.refreshSeconds = _
      rw [acquire_scheduler]
    | host label => rfl
  | readyCallback c => cases c <;> rfl

/-- An engine driven by clockwork stays one. -/
theorem take_clockwork {s : Scheduler η} (h : s.engine.refusing = none) (store : LeaseStore)
    (clock : Clock) (m : Move η) : (s.take store clock m).scheduler.engine.refusing = none := by
  have hroster := congrArg Roster.refusing (s.take_roster store clock m)
  refine hroster.trans ?_
  have hnone : s.roster.refusing = none := h
  rcases s.roster.take_cases m with hsame | ⟨name, p, -, hput⟩ | ⟨refusing, hrefusing⟩
  · rw [hsame, hnone]
  · rw [hput]
    exact hnone
  · rw [hrefusing, hnone]
    rfl

/-! ## The timer of the renewal -/

theorem IsSound.refresh_of_callback {s : Scheduler η} (h : s.IsSound) {t : Timer η}
    (ht : t ∈ s.engine.timers) (hcallback : t.callback = .refresh) :
    s.refreshEntry = some t.id := by
  have hsound := h.tallies.engine
  have hwork : t.work ∈ s.engine.timers.map Timer.work := List.mem_map_of_mem ht
  rw [hsound.timed, if_pos (hsound.isRunning_of_mem ht)] at hwork
  obtain ⟨x, hx, hsame⟩ := List.mem_map.mp hwork
  have hid : x.id = t.id := congrArg Prod.fst hsame
  have hcalls : x.callback = t.callback := congrArg (fun work => work.2.2) hsame
  rcases h.tallies.owned x hx with hrefresh | ⟨name, r, -, howns⟩
  · rw [← hid]
    exact hrefresh
  · rw [howns.callback, hcallback] at hcalls
    cases hcalls

theorem IsSound.entryId_ne {s : Scheduler η} (h : s.IsSound) {t : Timer η}
    (ht : t ∈ s.engine.timers) (hcallback : t.callback = .refresh) {name : String}
    {r : JobRecord η} (hr : s.jobs[name]? = some r) {id : Nat} (hid : r.entryId = some id) :
    t.id ≠ id := by
  have hrefresh := h.refresh_of_callback ht hcallback
  have hother := h.tallies.refresh_ne hr hid
  rw [hrefresh] at hother
  exact fun heq => hother (congrArg some heq)

theorem IsSound.mem_register {s : Scheduler η} (h : s.IsSound) {t : Timer η}
    (ht : t ∈ s.engine.timers) (now : Instant) (text : String) (callback : Callback η) :
    t ∈ (s.engine.register now text callback).2.1.timers :=
  h.tallies.engine.mem_take ht (u := { now, move := .register text callback }) (fun hc => hc) rfl

theorem IsSound.mem_unregister {s : Scheduler η} (h : s.IsSound) {t : Timer η}
    (ht : t ∈ s.engine.timers) {id : Nat} (hne : t.id ≠ id) :
    t ∈ (s.engine.unregister id).1.timers :=
  h.tallies.engine.mem_take ht (u := { now := { seconds := 0 }, move := .unregister id })
    (fun hc => hne hc.symm) rfl

theorem IsSound.mem_add {s : Scheduler η} (h : s.IsSound) {t : Timer η}
    (ht : t ∈ s.engine.timers) (now : Instant) (name plan : String) (handler : η) :
    t ∈ (s.add now name plan handler).scheduler.engine.timers := by
  have hstays := h.mem_register ht now plan (.job { name, handler })
  unfold Scheduler.add
  cases s.jobs[name]? with
  | some r => exact ht
  | none =>
    rcases s.engine.register_cases now plan (.job { name, handler }) with
      ⟨parsed, e', es, hr, -⟩ | ⟨error, hr⟩
    · simp only [hr] at hstays ⊢
      exact hstays
    · simp only [hr]
      exact ht

theorem IsSound.mem_remove {s : Scheduler η} (h : s.IsSound) {t : Timer η}
    (ht : t ∈ s.engine.timers) (hcallback : t.callback = .refresh) (name : String) :
    t ∈ (s.remove name).scheduler.engine.timers := by
  unfold Scheduler.remove
  cases hr : s.jobs[name]? with
  | none => exact ht
  | some r =>
    dsimp only
    split
    · next id _ hid => exact h.mem_unregister ht (h.entryId_ne ht hcallback hr hid)
    · exact ht

theorem IsSound.mem_pause {s : Scheduler η} (h : s.IsSound) {t : Timer η}
    (ht : t ∈ s.engine.timers) (hcallback : t.callback = .refresh) (name : String) :
    t ∈ (s.pause name).scheduler.engine.timers := by
  unfold Scheduler.pause
  cases hr : s.jobs[name]? with
  | none => exact ht
  | some r =>
    dsimp only
    split
    · exact ht
    · cases hid : r.entryId with
      | none => exact ht
      | some id => exact h.mem_unregister ht (h.entryId_ne ht hcallback hr hid)

theorem IsSound.mem_resume {s : Scheduler η} (h : s.IsSound) {t : Timer η}
    (ht : t ∈ s.engine.timers) (now : Instant) (name : String) :
    t ∈ (s.resume now name).scheduler.engine.timers := by
  unfold Scheduler.resume
  cases s.jobs[name]? with
  | none => exact ht
  | some r =>
    have hstays := h.mem_register ht now r.plan (.job r.execution)
    dsimp only
    split
    · exact ht
    · rcases s.engine.register_cases now r.plan (.job r.execution) with
        ⟨parsed, e', es, hreg, -⟩ | ⟨error, hreg⟩
      · simp only [hreg] at hstays ⊢
        exact hstays
      · simp only [hreg]
        exact ht

/-- Whatever is done to a scheduler, the timer stays armed as it is, until it goes off or the
scheduler is stopped. -/
theorem IsSound.renewal_stays {s : Scheduler η} (h : s.IsSound) {t : Timer η}
    (ht : t ∈ s.engine.timers) (hcallback : t.callback = .refresh) (store : LeaseStore)
    (clock : Clock) {m : Move η} (hstop : m ≠ .stop) (hquiet : m ≠ .fire t.serial) :
    t ∈ (s.take store clock m).scheduler.engine.timers := by
  cases m with
  | add name plan handler => exact h.mem_add ht clock.wall name plan handler
  | addOnReady name plan handler =>
    have hadded := h.mem_add ht clock.wall name plan handler
    show t ∈ (s.addOnReady clock.wall name plan handler).scheduler.engine.timers
    unfold Scheduler.addOnReady
    split
    · exact ht
    · dsimp only
      split
      · exact hadded
      · exact hadded
  | remove name => exact h.mem_remove ht hcallback name
  | pause name => exact h.mem_pause ht hcallback name
  | resume name => exact h.mem_resume ht clock.wall name
  | setLock lock =>
    show t ∈ (s.setLock lock).scheduler.engine.timers
    unfold Scheduler.setLock
    split
    · exact ht
    · exact ht
  | start =>
    have hstarted : s.state = .started := by
      refine (h.refreshing ?_).1
      rw [h.refresh_of_callback ht hcallback]
      exact Option.some_ne_none t.id
    show t ∈ (s.start store clock).scheduler.engine.timers
    unfold Scheduler.start
    rw [if_pos (by rw [hstarted]; decide)]
    exact ht
  | stop => exact absurd rfl hstop
  | notify =>
    show t ∈ s.notify.scheduler.engine.timers
    unfold Scheduler.notify
    split
    · exact ht
    · exact ht
  | setRejecting rejecting =>
    show t ∈ (s.engine.setRejecting rejecting).timers
    unfold Engine.setRejecting
    cases hdrive : s.engine.drive with
    | byHand was => simp [Engine.timers, hdrive] at ht
    | clockwork c => exact ht
  | fire serial =>
    show t ∈ (s.fire clock.wall serial).scheduler.engine.timers
    have hne : t.serial ≠ serial := fun heq => hquiet (congrArg Move.fire heq.symm)
    rw [fire_scheduler]
    refine h.tallies.engine.mem_take ht (u := { now := clock.wall, move := .fire serial })
      (fun hc => hc) ?_
    simp [Engine.Turn.isFire, Ne.symm hne]
  | callback c =>
    cases c with
    | job e => exact ht
    | refresh =>
      show t ∈ (s.acquire store clock.elapsed).scheduler.engine.timers
      rw [acquire_scheduler]
      exact ht
    | host label => exact ht
  | readyCallback c => cases c <;> exact ht

/-- When the timer goes off, it is armed again. -/
theorem IsSound.renewal_fires {s : Scheduler η} (h : s.IsSound) {t : Timer η}
    (ht : t ∈ s.engine.timers) {due : Instant} (hdue : t.due = some due) (store : LeaseStore)
    (clock : Clock) :
    { t with due := t.plan.due? (due.later clock.wall) } ∈
      (s.take store clock (.fire t.serial)).scheduler.engine.timers := by
  show _ ∈ (s.fire clock.wall t.serial).scheduler.engine.timers
  rw [fire_scheduler]
  exact (h.tallies.engine.fire_due ht hdue (u := { now := clock.wall, move := .fire t.serial })
    (by simp [Engine.Turn.isFire])).2

theorem exists_timer_of_installRefresh {s : Scheduler η} (hclockwork : s.engine.refusing = none)
    {plan : Plan} (hplan : Plan.parse s.refreshPlan = .ok plan) (now : Instant) :
    ∃ t ∈ ((s.installRefresh now).1.engine.start now).1.timers,
      t.callback = .refresh ∧ t.plan = plan ∧ t.due = plan.due? now := by
  have hkept := s.engine.refusing_register now s.refreshPlan .refresh
  have hresult := s.engine.register_result now s.refreshPlan .refresh
  rw [hclockwork] at hresult hkept
  simp only [refusal?, hplan] at hresult
  unfold installRefresh
  rcases s.engine.register_cases now s.refreshPlan .refresh with
    ⟨parsed, e', es, hr, hreg⟩ | ⟨error, hr⟩
  · rw [hr] at hkept
    obtain ⟨t, ht, hwork, hdue⟩ := Engine.exists_timer_of_registers hkept hreg
    have hparsed : parsed = plan := by
      have hsame := hreg.parsed.symm.trans hplan
      exact Except.ok.inj hsame
    simp only [hr]
    refine ⟨t, ht, ?_, ?_, ?_⟩
    · exact congrArg (fun work => work.2.2) hwork
    · rw [← hparsed]
      exact congrArg (fun work => work.2.1) hwork
    · rw [hdue, hparsed]
  · rw [hr] at hresult
    cases hresult

/-- A start arms the timer, unless the lock does not come back. -/
theorem exists_timer_of_start {s : Scheduler η} (hclockwork : s.engine.refusing = none)
    (hcreated : s.state = .created) (hlocked : s.lock ≠ none) {store : LeaseStore} {clock : Clock}
    (hback : (s.start store clock).result ≠ .error .crashed) {plan : Plan}
    (hplan : Plan.parse s.refreshPlan = .ok plan) :
    ∃ t ∈ (s.start store clock).scheduler.engine.timers,
      t.callback = .refresh ∧ t.plan = plan ∧ t.due = plan.due? clock.wall := by
  unfold Scheduler.start at hback ⊢
  rw [if_neg (Decidable.not_not.mpr hcreated)] at hback ⊢
  dsimp only at hback ⊢
  have hleft := Scheduler.acquire_scheduler { s with state := .started } store clock.elapsed
  generalize Scheduler.acquire { s with state := .started } store clock.elapsed = tried at *
  split at hback
  · exact absurd rfl hback
  · next hanswer =>
    rw [if_neg hanswer]
    cases hlock : tried.scheduler.lock with
    | none =>
      rw [hleft] at hlock
      exact absurd (Option.map_eq_none_iff.mp hlock) hlocked
    | some lock =>
      refine exists_timer_of_installRefresh ?_ ?_ clock.wall
      · rw [hleft]
        exact hclockwork
      · rw [hleft]
        exact hplan

end Scheduler
end RecurringJobs
