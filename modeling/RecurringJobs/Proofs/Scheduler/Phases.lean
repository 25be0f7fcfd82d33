import RecurringJobs.Proofs.Scheduler.Service

/-!
The phases of a service: before its start, while it is started, and after its stop.

Two events end a phase, and each of them can happen once.  All else leaves the state, the entry that
renews the lock and whether the engine runs as they are (`Moment.stays`), so that a history is cut
at these two events (`phases_of_created`, `phases_of_started`).
-/

namespace RecurringJobs

variable {η : Type}

/-! ## The engine -/

namespace Engine

theorem trigger?_isRunning {e e' : Engine η} {now : Instant} {t : Trigger} {c : Callback η}
    {es : List (Effect η)} (h : e.trigger? now t = some (c, e', es)) :
    e'.isRunning = e.isRunning := by
  rcases trigger?_engine h with rfl | ⟨serial, rfl⟩
  · rfl
  · exact e.fired_isRunning serial now

/-- A trigger needs a timer, and there are none while the engine stands. -/
theorem IsSound.isRunning_of_target? {e : Engine η} (h : e.IsSound)
    (hclockwork : e.refusing = none) {t : Trigger} {id : Nat}
    (ht : e.target? t = some id) : e.isRunning = true := by
  cases t with
  | timer serial =>
    obtain ⟨timer, htimer, -⟩ := Option.bind_eq_some_iff.mp ht
    exact h.isRunning_of_mem (List.mem_of_find?_eq_some htimer)
  | entry n =>
    unfold Engine.target? at ht
    unfold Engine.refusing at hclockwork
    cases hdrive : e.drive with
    | byHand rejecting => simp [hdrive] at hclockwork
    | clockwork c => simp [hdrive] at ht

end Engine

/-! ## What leaves a scheduler in its phase -/

namespace Scheduler

theorem IsNew.isRunning {s : Scheduler η} (h : s.IsNew) : s.engine.isRunning = false := by
  rcases h.engine with hengine | ⟨rejecting, hengine⟩
  · rw [hengine]
    rfl
  · rw [hengine]
    rfl

structure Stays (s s' : Scheduler η) : Prop where
  state : s'.state = s.state
  refreshEntry : s'.refreshEntry = s.refreshEntry
  isRunning : s'.engine.isRunning = s.engine.isRunning

theorem Stays.refl (s : Scheduler η) : s.Stays s := ⟨rfl, rfl, rfl⟩

theorem Stays.trans {s s' s'' : Scheduler η} (h : s.Stays s') (h' : s'.Stays s'') : s.Stays s'' where
  state := h'.state.trans h.state
  refreshEntry := h'.refreshEntry.trans h.refreshEntry
  isRunning := h'.isRunning.trans h.isRunning

variable (s : Scheduler η)

theorem add_stays (now : Instant) (name plan : String) (handler : η) :
    s.Stays (s.add now name plan handler).scheduler := by
  unfold add
  cases s.jobs[name]? with
  | some r => exact Stays.refl s
  | none =>
    dsimp only
    rcases s.engine.register_cases now plan (.job { name, handler }) with
      ⟨parsed, e', es, hr, hreg⟩ | ⟨error, hr⟩
    · rw [hr]
      exact ⟨rfl, rfl, hreg.isRunning⟩
    · rw [hr]
      exact Stays.refl s

theorem addOnReady_stays (now : Instant) (name plan : String) (handler : η) :
    s.Stays (s.addOnReady now name plan handler).scheduler := by
  have hadded := s.add_stays now name plan handler
  unfold addOnReady
  cases s.ready with
  | none => exact Stays.refl s
  | some signal =>
    dsimp only
    split
    · exact hadded
    · exact ⟨hadded.state, hadded.refreshEntry, hadded.isRunning⟩

theorem remove_stays (name : String) : s.Stays (s.remove name).scheduler := by
  unfold remove
  cases s.jobs[name]? with
  | none => exact Stays.refl s
  | some r =>
    refine ⟨rfl, rfl, ?_⟩
    dsimp only
    split
    · exact s.engine.unregister_isRunning _
    · rfl

theorem pause_stays (name : String) : s.Stays (s.pause name).scheduler := by
  unfold pause
  cases s.jobs[name]? with
  | none => exact Stays.refl s
  | some r =>
    dsimp only
    split
    · exact Stays.refl s
    · refine ⟨rfl, rfl, ?_⟩
      dsimp only
      split
      · exact s.engine.unregister_isRunning _
      · rfl

theorem resume_stays (now : Instant) (name : String) :
    s.Stays (s.resume now name).scheduler := by
  unfold resume
  cases s.jobs[name]? with
  | none => exact Stays.refl s
  | some r =>
    dsimp only
    split
    · exact Stays.refl s
    · rcases s.engine.register_cases now r.plan (.job r.execution) with
        ⟨parsed, e', es, hr, hreg⟩ | ⟨error, hr⟩
      · rw [hr]
        exact ⟨rfl, rfl, hreg.isRunning⟩
      · rw [hr]
        exact Stays.refl s

theorem acquire_stays (store : LeaseStore) (now : Nat) :
    s.Stays (s.acquire store now).scheduler := by
  rw [acquire_scheduler]
  exact ⟨rfl, rfl, rfl⟩

theorem take_stays (store : LeaseStore) (clock : Clock) {m : Move η} (hstart : m ≠ .start)
    (hstop : m ≠ .stop) : s.Stays (s.take store clock m).scheduler := by
  cases m with
  | add name plan handler => exact s.add_stays clock.wall name plan handler
  | addOnReady name plan handler => exact s.addOnReady_stays clock.wall name plan handler
  | remove name => exact s.remove_stays name
  | pause name => exact s.pause_stays name
  | resume name => exact s.resume_stays clock.wall name
  | setLock lock =>
    show s.Stays (s.setLock lock).scheduler
    unfold Scheduler.setLock
    split
    · exact ⟨rfl, rfl, rfl⟩
    · exact Stays.refl s
  | start => exact absurd rfl hstart
  | stop => exact absurd rfl hstop
  | notify =>
    show s.Stays s.notify.scheduler
    unfold Scheduler.notify
    cases s.ready with
    | none => exact Stays.refl s
    | some signal => exact ⟨rfl, rfl, rfl⟩
  | setRejecting rejecting => exact ⟨rfl, rfl, s.engine.setRejecting_isRunning rejecting⟩
  | fire serial =>
    show s.Stays (s.fire clock.wall serial).scheduler
    rw [fire_scheduler]
    exact ⟨rfl, rfl, s.engine.fired_isRunning serial clock.wall⟩
  | callback c =>
    cases c with
    | job e => exact Stays.refl s
    | refresh => exact s.acquire_stays store clock.elapsed
    | host label => exact Stays.refl s
  | readyCallback c => cases c <;> exact Stays.refl s

theorem trigger_stays (store : LeaseStore) (clock : Clock) (t : Trigger) (ending : RunEnd) :
    s.Stays (s.trigger store clock t ending).scheduler := by
  unfold trigger
  cases htrigger : s.engine.trigger? clock.wall t with
  | none => exact Stays.refl s
  | some left =>
    obtain ⟨callback, engine, woken⟩ := left
    have hwoken : s.Stays { s with engine } := ⟨rfl, rfl, Engine.trigger?_isRunning htrigger⟩
    refine hwoken.trans (take_stays { s with engine } store clock ?_ ?_)
    · intro hsame
      cases hsame
    · intro hsame
      cases hsame

/-! ## Starts and stops -/

variable {s}

theorem start_of_state_ne (hstate : s.state ≠ .created) (store : LeaseStore) (clock : Clock) :
    (s.start store clock).scheduler = s := by
  unfold start
  rw [if_pos hstate]

theorem stop_of_state_ne (hstate : s.state ≠ .started) (store : LeaseStore) (now : Nat) :
    (s.stop store now).scheduler = s := by
  unfold stop
  rw [if_pos hstate]

/-- A start begins the next phase, whether or not the lock comes back.  When it does not, the engine
is not started. -/
theorem start_of_created (hcreated : s.state = .created) (store : LeaseStore) (clock : Clock) :
    (s.start store clock).scheduler.state = .started ∧
      ((s.start store clock).result = .error .crashed →
        (s.start store clock).scheduler.engine = s.engine) := by
  unfold start
  rw [if_neg (Decidable.not_not.mpr hcreated)]
  dsimp only
  have hleft := acquire_scheduler { s with state := .started } store clock.elapsed
  generalize acquire { s with state := .started } store clock.elapsed = tried at hleft
  split
  · rw [hleft]
    exact ⟨rfl, fun _ => rfl⟩
  · refine ⟨?_, fun hcrashed => ?_⟩
    · have hstate : tried.scheduler.state = .started := by rw [hleft]
      cases tried.scheduler.lock with
      | none => exact hstate
      | some lock =>
        show (tried.scheduler.installRefresh clock.wall).1.state = .started
        unfold installRefresh
        dsimp only
        split <;> exact hstate
    · cases hcrashed

/-- A stop ends the phase, whether or not the lock comes back. -/
theorem stop_of_started (hstarted : s.state = .started) (store : LeaseStore) (now : Nat) :
    (s.stop store now).scheduler.state = .stopped ∧
      (s.stop store now).scheduler.refreshEntry = none ∧
        (s.stop store now).scheduler.engine.isRunning = false := by
  have hremoved : ∀ id, (s.engine.stop.1.unregister id).1.isRunning = false := by
    intro id
    rw [Engine.unregister_isRunning, Engine.stop_isRunning]
  unfold stop
  rw [if_neg (Decidable.not_not.mpr hstarted)]
  cases s.refreshEntry with
  | none => cases s.lock <;> exact ⟨rfl, rfl, s.engine.stop_isRunning⟩
  | some id => cases s.lock <;> exact ⟨rfl, rfl, hremoved id⟩

/-- A start or a stop that is refused leaves the scheduler in its phase, like all other calls. -/
theorem ask_stays {c : Call η} (store : LeaseStore) (clock : Clock)
    (hstart : c = .start → s.state ≠ .created) (hstop : c = .stop → s.state ≠ .started) :
    s.Stays (s.ask store clock c).scheduler := by
  cases c with
  | add must name plan handler => exact s.add_stays clock.wall name plan handler
  | addOnReady must name plan handler => exact s.addOnReady_stays clock.wall name plan handler
  | remove name => exact s.remove_stays name
  | pause name => exact s.pause_stays name
  | resume name => exact s.resume_stays clock.wall name
  | info name => exact Stays.refl s
  | setLock lock => exact s.take_stays store clock (m := .setLock lock) nofun nofun
  | start =>
    show s.Stays (s.start store clock).scheduler
    rw [start_of_state_ne (hstart rfl)]
    exact Stays.refl s
  | stop =>
    show s.Stays (s.stop store clock.elapsed).scheduler
    rw [stop_of_state_ne (hstop rfl)]
    exact Stays.refl s

end Scheduler

/-! ## Moments -/

namespace Service
namespace Moment

variable {m : Moment η}

def Begins (m : Moment η) : Prop := m.event = .call .start ∧ m.scheduler.state = .created

def Ends (m : Moment η) : Prop := m.event = .call .stop ∧ m.scheduler.state = .started

theorem stays (hb : ¬m.Begins) (he : ¬m.Ends) : m.scheduler.Stays m.after.scheduler := by
  obtain ⟨w, clock, store, event⟩ := m
  cases event with
  | call c =>
    refine Scheduler.ask_stays (s := w.scheduler) store clock ?_ ?_
    · rintro rfl hcreated
      exact hb ⟨rfl, hcreated⟩
    · rintro rfl hstarted
      exact he ⟨rfl, hstarted⟩
  | notify => exact w.scheduler.take_stays store clock (m := .notify) nofun nofun
  | setRejecting rejecting =>
    exact w.scheduler.take_stays store clock (m := .setRejecting rejecting) nofun nofun
  | turnLock lock => exact ⟨rfl, rfl, rfl⟩
  | trigger t ending => exact w.scheduler.trigger_stays store clock t ending
  | ready place ending =>
    show w.scheduler.Stays (w.perform _).scheduler
    unfold Service.perform
    dsimp only
    cases w.released[place]? with
    | none => exact Scheduler.Stays.refl w.scheduler
    | some c => exact w.scheduler.take_stays store clock (m := .readyCallback c) nofun nofun

theorem Begins.after (h : m.Begins) :
    m.after.scheduler.state = .started ∧
      (m.reply = some .done ∨
        m.reply = some .crashed ∧ m.after.scheduler.engine = m.scheduler.engine) := by
  obtain ⟨hevent, hcreated⟩ := h
  obtain ⟨hstate, hengine⟩ :=
    Scheduler.start_of_created hcreated m.occasion.store m.occasion.clock
  rw [after_call hevent, reply_call hevent]
  refine ⟨hstate, ?_⟩
  unfold Scheduler.ask LockOutcome.answering
  dsimp only
  rcases Scheduler.start_result hcreated m.occasion.store m.occasion.clock with hresult | hresult
  · left
    rw [hresult]
  · right
    rw [hresult]
    exact ⟨rfl, hengine hresult⟩

theorem Ends.after (h : m.Ends) :
    m.after.scheduler.state = .stopped ∧ m.after.scheduler.refreshEntry = none ∧
      m.after.scheduler.engine.isRunning = false := by
  obtain ⟨hevent, hstarted⟩ := h
  rw [after_call hevent]
  exact Scheduler.stop_of_started hstarted m.occasion.store m.occasion.clock.elapsed

/-- A stop in any other phase is refused. -/
theorem reply_of_not_ends (hevent : m.event = .call .stop) (he : ¬m.Ends) :
    ∃ e, m.reply = some (.refused e) := by
  have hstate : m.scheduler.state ≠ .started := fun hstate => he ⟨hevent, hstate⟩
  have hminds := m.scheduler.stop_minds m.occasion.store m.occasion.clock.elapsed
  unfold Scheduler.stateObjection? at hminds
  rw [if_neg hstate] at hminds
  rw [reply_call hevent]
  exact ⟨.invalidState .stop m.scheduler.state, congrArg some hminds.1⟩

end Moment

/-! ## Histories -/

theorem keeps_clockwork : Keeps fun s : Scheduler η => s.engine.refusing = none where
  take _ store clock m hs := Scheduler.take_clockwork hs store clock m
  turnLock _ _ hs := hs

/-- Nothing begins or ends a phase. -/
def Steady (ms : List (Moment η)) : Prop := ∀ m ∈ ms, ¬m.Begins ∧ ¬m.Ends

theorem Steady.stays {w : Service η} {os : List (Occasion η)} (h : Steady (w.history os)) :
    w.scheduler.Stays (w.run os).scheduler := by
  induction os generalizing w with
  | nil => exact Scheduler.Stays.refl w.scheduler
  | cons o os ih =>
    obtain ⟨hb, he⟩ := h _ List.mem_cons_self
    have hfirst : w.scheduler.Stays (w.step o).scheduler := Moment.stays hb he
    exact hfirst.trans (ih fun m hm => h m (List.mem_cons_of_mem _ hm))

theorem Steady.stays_of_mem {w : Service η} {os : List (Occasion η)} (h : Steady (w.history os))
    {m : Moment η} (hm : m ∈ w.history os) : w.scheduler.Stays m.scheduler := by
  induction os generalizing w with
  | nil => cases hm
  | cons o os ih =>
    rcases List.mem_cons.mp hm with rfl | hm
    · exact Scheduler.Stays.refl w.scheduler
    · obtain ⟨hb, he⟩ := h _ List.mem_cons_self
      have hfirst : w.scheduler.Stays (w.step o).scheduler := Moment.stays hb he
      exact hfirst.trans (ih (fun m hm => h m (List.mem_cons_of_mem _ hm)) hm)

/-- A history stays in its phase, or there is a first event that ends it. -/
theorem steady_or_turns (w : Service η) (os : List (Occasion η)) :
    Steady (w.history os) ∨
      ∃ us o vs, os = us ++ o :: vs ∧ Steady (w.history us) ∧
        (({ before := w.run us, occasion := o } : Moment η).Begins ∨
          ({ before := w.run us, occasion := o } : Moment η).Ends) := by
  induction os generalizing w with
  | nil => exact Or.inl fun m hm => absurd hm List.not_mem_nil
  | cons o os ih =>
    by_cases hturns : ({ before := w, occasion := o } : Moment η).Begins ∨
        ({ before := w, occasion := o } : Moment η).Ends
    · exact Or.inr ⟨[], o, os, rfl, fun m hm => absurd hm List.not_mem_nil, hturns⟩
    · have hfirst := not_or.mp hturns
      rcases ih (w.step o) with hsteady | ⟨us, p, vs, rfl, hsteady, hp⟩
      · refine Or.inl fun m hm => ?_
        rcases List.mem_cons.mp hm with rfl | hm
        · exact hfirst
        · exact hsteady m hm
      · refine Or.inr ⟨o :: us, p, vs, rfl, fun m hm => ?_, hp⟩
        rcases List.mem_cons.mp hm with rfl | hm
        · exact hfirst
        · exact hsteady m hm

theorem Steady.state {w : Service η} {os : List (Occasion η)} (h : Steady (w.history os))
    {m : Moment η} (hm : m ∈ w.history os) : m.scheduler.state = w.scheduler.state :=
  (h.stays_of_mem hm).state

theorem steady_of_stopped {w : Service η} (hstopped : w.scheduler.state = .stopped)
    (os : List (Occasion η)) : Steady (w.history os) := by
  rcases w.steady_or_turns os with hsteady | ⟨us, o, vs, -, hus, hturns⟩
  · exact hsteady
  · have hstate : (w.run us).scheduler.state = .stopped := hus.stays.state.trans hstopped
    rcases hturns with ⟨-, hcreated⟩ | ⟨-, hstarted⟩
    · exact absurd (hstate.symm.trans hcreated) nofun
    · exact absurd (hstate.symm.trans hstarted) nofun

theorem phases_of_started {w : Service η} (hstarted : w.scheduler.state = .started)
    (os : List (Occasion η)) :
    Steady (w.history os) ∨
      ∃ us o vs, os = us ++ o :: vs ∧ Steady (w.history us) ∧
        ({ before := w.run us, occasion := o } : Moment η).Ends ∧
          Steady (((w.run us).step o).history vs) := by
  rcases w.steady_or_turns os with hsteady | ⟨us, o, vs, hos, hus, hturns⟩
  · exact Or.inl hsteady
  · refine Or.inr ⟨us, o, vs, hos, hus, ?_⟩
    have hstate : (w.run us).scheduler.state = .started := hus.stays.state.trans hstarted
    rcases hturns with ⟨-, hcreated⟩ | hends
    · exact absurd (hstate.symm.trans hcreated) nofun
    · exact ⟨hends, steady_of_stopped hends.after.1 vs⟩

theorem phases_of_created {w : Service η} (hcreated : w.scheduler.state = .created)
    (os : List (Occasion η)) :
    Steady (w.history os) ∨
      ∃ us o vs, os = us ++ o :: vs ∧ Steady (w.history us) ∧
        ({ before := w.run us, occasion := o } : Moment η).Begins := by
  rcases w.steady_or_turns os with hsteady | ⟨us, o, vs, hos, hus, hturns⟩
  · exact Or.inl hsteady
  · refine Or.inr ⟨us, o, vs, hos, hus, ?_⟩
    have hstate : (w.run us).scheduler.state = .created := hus.stays.state.trans hcreated
    rcases hturns with hbegins | ⟨-, hstarted⟩
    · exact hbegins
    · exact absurd (hstate.symm.trans hstarted) nofun

theorem steady_of_created {w : Service η} (hcreated : w.scheduler.state = .created)
    {os : List (Occasion η)} (hstill : (w.run os).scheduler.state = .created) :
    Steady (w.history os) := by
  rcases phases_of_created hcreated os with hsteady | ⟨us, o, vs, rfl, -, hbegins⟩
  · exact hsteady
  · rw [run_append] at hstill
    have hlast : (((w.run us).step o).run vs).scheduler.state = .created := hstill
    rcases phases_of_started (w := (w.run us).step o) hbegins.after.1 vs with
      hvs | ⟨xs, p, ys, rfl, -, hends, hys⟩
    · exact absurd (hlast.symm.trans (hvs.stays.state.trans hbegins.after.1)) nofun
    · rw [run_append] at hlast
      exact absurd (hlast.symm.trans (hys.stays.state.trans hends.after.1)) nofun

end Service
end RecurringJobs
