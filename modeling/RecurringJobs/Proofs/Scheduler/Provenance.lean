import RecurringJobs.Proofs.Scheduler.Invocations
import RecurringJobs.Proofs.Scheduler.Showing

/-!
Where a handler comes from that a trigger calls, when the engine is driven by clockwork.

A record keeps the handler that it was added with until it is removed (`run_origin`), and an engine
has timers only while its scheduler is started (`begun_of_isRunning`).  So a name that was given to
another job does not call up the handler that it stood for before.
-/

namespace RecurringJobs

variable {η : Type}

/-! ## Jobs on a roster -/

/-- The same job, paused or not. -/
def Posting.IsSame (q p : Posting η) : Prop := q.plan = p.plan ∧ q.handler = p.handler

namespace Roster

variable {b : Roster η} {name : String} {p : Posting η}

theorem put_jobs_self (b : Roster η) (name : String) (p : Option (Posting η)) :
    (b.put name p).jobs name = p := by
  show Function.update b.jobs name p name = p
  rw [Function.update_self]

theorem add_origin {plan : String} {handler : η}
    (h : (b.add name plan handler).2.jobs name = some p) :
    ((b.add name plan handler).1 = .ok () ∧ plan = p.plan ∧ handler = p.handler) ∨
      b.jobs name = some p := by
  unfold add at h ⊢
  cases hname : b.jobs name with
  | some q =>
    rw [hname] at h
    exact Or.inr (hname.symm.trans h)
  | none =>
    rw [hname] at h
    cases hrefusal : refusal? b.refusing plan with
    | some e =>
      rw [hrefusal] at h
      exact absurd (hname.symm.trans h) nofun
    | none =>
      rw [hrefusal] at h
      have hput := (put_jobs_self b name _).symm.trans h
      cases hput
      exact Or.inl ⟨rfl, rfl, rfl⟩

theorem pause_origin (h : (b.pause name).2.jobs name = some p) :
    ∃ q, b.jobs name = some q ∧ q.IsSame p := by
  unfold pause at h
  cases hname : b.jobs name with
  | none =>
    rw [hname] at h
    exact absurd (hname.symm.trans h) nofun
  | some q =>
    rw [hname] at h
    have hput := (put_jobs_self b name _).symm.trans h
    cases hput
    exact ⟨q, rfl, rfl, rfl⟩

theorem resume_origin (h : (b.resume name).2.jobs name = some p) :
    ∃ q, b.jobs name = some q ∧ q.IsSame p := by
  unfold resume at h
  cases hname : b.jobs name with
  | none =>
    rw [hname] at h
    exact absurd (hname.symm.trans h) nofun
  | some q =>
    rw [hname] at h
    dsimp only at h
    split at h
    · cases hname.symm.trans h
      exact ⟨p, rfl, rfl, rfl⟩
    · have hput := (put_jobs_self b name _).symm.trans h
      cases hput
      exact ⟨q, rfl, rfl, rfl⟩

/-- A job that is on a roster after a call was added by it, or was on it before and was not
removed. -/
theorem take_origin {m : Scheduler.Move η} (h : (b.take m).2.jobs name = some p) :
    ((b.take m).1 = some (.ok ()) ∧
        (m = .add name p.plan p.handler ∨ m = .addOnReady name p.plan p.handler)) ∨
      m ≠ .remove name ∧ ∃ q, b.jobs name = some q ∧ q.IsSame p := by
  by_cases hname : m.name? = some name
  · cases m with
    | add n plan handler =>
      cases hname
      rcases add_origin h with ⟨hresult, rfl, rfl⟩ | hbefore
      · exact Or.inl ⟨congrArg some hresult, Or.inl rfl⟩
      · exact Or.inr ⟨nofun, p, hbefore, rfl, rfl⟩
    | addOnReady n plan handler =>
      cases hname
      have hleft : (b.addOnReady name plan handler).2.jobs name = some p := h
      unfold addOnReady at hleft
      split at hleft
      · next hhooked =>
        rcases add_origin hleft with ⟨hresult, rfl, rfl⟩ | hbefore
        · refine Or.inl ⟨?_, Or.inr rfl⟩
          show some (b.addOnReady name p.plan p.handler).1 = _
          unfold addOnReady
          rw [if_pos hhooked, hresult]
        · exact Or.inr ⟨nofun, p, hbefore, rfl, rfl⟩
      · exact Or.inr ⟨nofun, p, hleft, rfl, rfl⟩
    | remove n =>
      cases hname
      have hleft : (b.remove name).2.jobs name = some p := h
      unfold remove at hleft
      cases hbefore : b.jobs name with
      | none =>
        rw [hbefore] at hleft
        exact absurd (hbefore.symm.trans hleft) nofun
      | some q =>
        rw [hbefore] at hleft
        exact absurd ((put_jobs_self b name none).symm.trans hleft) nofun
    | pause n =>
      cases hname
      exact Or.inr ⟨nofun, pause_origin h⟩
    | resume n =>
      cases hname
      exact Or.inr ⟨nofun, resume_origin h⟩
    | _ => cases hname
  · refine Or.inr ⟨?_, p, ?_, rfl, rfl⟩
    · rintro rfl
      exact hname rfl
    · rw [← b.take_jobs_other m hname]
      exact h

end Roster

/-! ## Triggers -/

theorem Scheduler.trigger_jobs (s : Scheduler η) (store : LeaseStore) (clock : Clock) (t : Trigger)
    (ending : RunEnd) : (s.trigger store clock t ending).scheduler.jobs = s.jobs := by
  unfold trigger
  cases s.engine.trigger? clock.wall t with
  | none => rfl
  | some left =>
    obtain ⟨callback, engine, woken⟩ := left
    cases callback with
    | job e => rfl
    | refresh =>
      show (Scheduler.acquire { s with engine } store clock.elapsed).scheduler.jobs = s.jobs
      rw [acquire_scheduler]
    | host label => rfl

/-! ## Jobs of a service -/

namespace Service
namespace Moment

variable {m : Moment η}

def Adds (m : Moment η) (name plan : String) (handler : η) : Prop :=
  m.reply = some .done ∧
    ∃ must, m.event = .call (.add must name plan handler) ∨
      m.event = .call (.addOnReady must name plan handler)

def IsRemoval (m : Moment η) (name : String) : Prop := m.event = .call (.remove name)

theorem jobs_of_not_call (h : ∀ c, m.event ≠ .call c) :
    m.after.scheduler.jobs = m.scheduler.jobs := by
  obtain ⟨w, clock, store, event⟩ := m
  cases event with
  | call c => exact absurd rfl (h c)
  | notify =>
    show w.scheduler.notify.scheduler.jobs = w.scheduler.jobs
    unfold Scheduler.notify
    cases w.scheduler.ready <;> rfl
  | setRejecting rejecting => rfl
  | turnLock lock => rfl
  | trigger t ending => exact w.scheduler.trigger_jobs store clock t ending
  | ready place ending =>
    show (w.perform _).scheduler.jobs = w.scheduler.jobs
    unfold Service.perform
    dsimp only
    cases w.released[place]? with
    | none => rfl
    | some c => cases c <;> rfl

theorem adds_of_answer {c : Call η} {move : Scheduler.Move η} (hevent : m.event = .call c)
    (hmove : c.move? = some move) {name plan : String} {handler : η}
    (hadded : move = .add name plan handler ∨ move = .addOnReady name plan handler)
    (hanswer : m.scheduler.answer m.occasion.clock.wall move = some (.ok ())) :
    m.Adds name plan handler := by
  unfold Adds
  rw [reply_call hevent]
  rcases hadded with rfl | rfl
  · cases c with
    | add must n p h =>
      cases hmove
      refine ⟨?_, must, Or.inl hevent⟩
      unfold Scheduler.ask Outcome.answering
      dsimp only
      rw [Option.some.inj hanswer]
    | _ => cases hmove
  · cases c with
    | addOnReady must n p h =>
      cases hmove
      refine ⟨?_, must, Or.inr hevent⟩
      unfold Scheduler.ask Outcome.answering
      dsimp only
      rw [Option.some.inj hanswer]
    | _ => cases hmove

/-- A job that is in the registry after an event was added by it, or was there before and was not
removed. -/
theorem origin {name : String} {p : Posting η}
    (h : m.after.scheduler.roster.jobs name = some p) :
    m.Adds name p.plan p.handler ∨
      ¬m.IsRemoval name ∧ ∃ q, m.scheduler.roster.jobs name = some q ∧ q.IsSame p := by
  by_cases hcall : ∃ c, m.event = .call c
  · obtain ⟨c, hevent⟩ := hcall
    have hremoval : m.IsRemoval name → c.move? = some (.remove name) := by
      intro hremoves
      rw [Event.call.inj (hevent.symm.trans hremoves)]
      rfl
    rw [after_call hevent] at h
    cases hmove : c.move? with
    | none =>
      rw [(Scheduler.ask_of_no_move hmove m.scheduler _ _).1] at h
      refine Or.inr ⟨fun hremoves => ?_, p, h, rfl, rfl⟩
      exact absurd (hmove.symm.trans (hremoval hremoves)) nofun
    | some move =>
      rw [(Scheduler.ask_of_move hmove m.scheduler _ _).1, Scheduler.take_roster] at h
      rcases Roster.take_origin h with ⟨hanswer, hadded⟩ | ⟨hkept, hbefore⟩
      · rw [← m.scheduler.answer_eq m.occasion.clock.wall move] at hanswer
        exact Or.inl (adds_of_answer hevent hmove hadded hanswer)
      · refine Or.inr ⟨fun hremoves => ?_, hbefore⟩
        exact hkept (Option.some.inj (hmove.symm.trans (hremoval hremoves)))
  · have hother : ∀ c, m.event ≠ .call c := fun c hevent => hcall ⟨c, hevent⟩
    refine Or.inr ⟨hother (.remove name), p, ?_, rfl, rfl⟩
    rw [Scheduler.roster_jobs, ← jobs_of_not_call hother]
    exact h

end Moment

/-- In these moments a job is added that is not removed after that. -/
def AddedIn (ms : List (Moment η)) (name plan : String) (handler : η) : Prop :=
  ∃ before m after, ms = before ++ m :: after ∧ m.Adds name plan handler ∧
    ∀ x ∈ after, ¬x.IsRemoval name

/-- A job in the registry was added in the course of the run, or was there before and was never
removed. -/
theorem run_origin {w : Service η} {os : List (Occasion η)} {name : String} {p : Posting η}
    (h : (w.run os).scheduler.roster.jobs name = some p) :
    AddedIn (w.history os) name p.plan p.handler ∨
      (∀ x ∈ w.history os, ¬x.IsRemoval name) ∧
        ∃ q, w.scheduler.roster.jobs name = some q ∧ q.IsSame p := by
  induction os generalizing w with
  | nil => exact Or.inr ⟨fun x hx => absurd hx List.not_mem_nil, p, h, rfl, rfl⟩
  | cons o os ih =>
    rcases ih (w := w.step o) h with
      ⟨before, m, after, hms, hadds, hafter⟩ | ⟨hkept, q, hq, hplan, hhandler⟩
    · exact Or.inl ⟨_ :: before, m, after, congrArg (_ :: ·) hms, hadds, hafter⟩
    · -- never removed later on, so only the first event is left to be looked at
      rcases Moment.origin (m := { before := w, occasion := o }) hq with
        hadds | ⟨hfirst, r, hr, hrplan, hrhandler⟩
      · rw [hplan, hhandler] at hadds
        exact Or.inl ⟨[], _, (w.step o).history os, rfl, hadds, hkept⟩
      · refine Or.inr ⟨fun x hx => ?_, r, hr, hrplan.trans hplan, hrhandler.trans hhandler⟩
        rcases List.mem_cons.mp hx with rfl | hx
        · exact hfirst
        · exact hkept x hx

/-! ## Services that are started -/

/-- A start came back, and every stop was refused. -/
structure Begun (past : List (Moment η)) : Prop where
  start : ∃ m ∈ past, m.event = .call .start ∧ m.reply = some .done
  noStop : ∀ m ∈ past, m.event = .call .stop → ∃ e, m.reply = some (.refused e)

theorem Steady.noStop {ms : List (Moment η)} (h : Steady ms) :
    ∀ m ∈ ms, m.event = .call .stop → ∃ e, m.reply = some (.refused e) :=
  fun m hm hevent => Moment.reply_of_not_ends hevent (h m hm).2

/-- An engine runs only after a start that came back, and until the next stop. -/
theorem begun_of_isRunning {w : Service η} (h : w.scheduler.IsNew) {os : List (Occasion η)}
    (hrunning : (w.run os).scheduler.engine.isRunning = true) :
    (w.run os).scheduler.state = .started ∧ Begun (w.history os) := by
  have hstands := h.isRunning
  rcases phases_of_created h.state os with hsteady | ⟨us, o, vs, rfl, hus, hbegins⟩
  · rw [hsteady.stays.isRunning, hstands] at hrunning
    cases hrunning
  · obtain ⟨hstarted, hreply⟩ := hbegins.after
    rw [run_append] at hrunning ⊢
    have hrunning' : (((w.run us).step o).run vs).scheduler.engine.isRunning = true := hrunning
    rcases phases_of_started (w := (w.run us).step o) hstarted vs with
      hvs | ⟨xs, p, ys, rfl, -, hends, hys⟩
    · refine ⟨hvs.stays.state.trans hstarted, ?_, ?_⟩
      · refine ⟨{ before := w.run us, occasion := o }, ?_, hbegins.1, ?_⟩
        · rw [history_append]
          exact List.mem_append_right _ List.mem_cons_self
        · rcases hreply with hdone | ⟨-, hengine⟩
          · exact hdone
          · -- the lock did not come back, so the engine was never started
            have hkept : ((w.run us).step o).scheduler.engine = (w.run us).scheduler.engine :=
              hengine
            rw [hvs.stays.isRunning, hkept, hus.stays.isRunning, hstands] at hrunning'
            cases hrunning'
      · intro m hm
        rw [history_append] at hm
        rcases List.mem_append.mp hm with hm | hm
        · exact hus.noStop m hm
        · rcases List.mem_cons.mp hm with rfl | hm
          · intro hstop
            exact absurd (hbegins.1.symm.trans hstop) nofun
          · exact hvs.noStop m hm
    · rw [run_append] at hrunning'
      have hstill := hys.stays.isRunning.trans hends.after.2.2
      exact absurd (hrunning'.symm.trans hstill) nofun

/-- Why a trigger may call a handler. -/
structure Warrants (past : List (Moment η)) (m : Moment η) (e : Execution η) : Prop where
  started : m.scheduler.state = .started
  begun : Begun past
  record : ∃ r, m.scheduler.jobs[e.name]? = some r ∧ r.paused = false ∧ r.execution = e ∧
    AddedIn past e.name r.plan e.handler

/-- In every run on an engine that is driven by clockwork, a trigger calls a handler only while the
scheduler is started and the job is active, and the handler is that of the addition that the record
comes from. -/
theorem triggers_are_warranted {w : Service η} (h : w.scheduler.IsNew)
    (hclockwork : w.scheduler.engine = .clockwork) (past : List (Occasion η)) (o : Occasion η)
    {t : Trigger} {ending : RunEnd} (hevent : o.event = .trigger t ending) {e : Execution η}
    (he : ({ before := w.run past, occasion := o } : Moment η).invoked = some e) :
    Warrants (w.history past) { before := w.run past, occasion := o } e := by
  have hsound : (w.run past).scheduler.IsSound := keeps_isSound.run h.isSound past
  have hwork : (w.run past).scheduler.engine.refusing = none := by
    refine keeps_clockwork.run ?_ past
    rw [hclockwork]
    rfl
  obtain ⟨r, id, hr, hactive, hexecution, hid, u, ending', -, htarget⟩ :=
    Moment.triggersJob_of_invoked (m := { before := w.run past, occasion := o }) hevent hsound he
  have hrunning := hsound.tallies.engine.isRunning_of_target? hwork htarget
  obtain ⟨hstarted, hbegun⟩ := begun_of_isRunning h hrunning
  refine ⟨hstarted, hbegun, r, hr, hactive, hexecution, ?_⟩
  have hposted : (w.run past).scheduler.roster.jobs e.name = some (Scheduler.postingOf r) := by
    rw [Scheduler.roster_jobs]
    exact congrArg (Option.map Scheduler.postingOf) hr
  rcases run_origin hposted with hadded | ⟨-, q, hq, -⟩
  · have hhandler : (Scheduler.postingOf r).handler = e.handler :=
      congrArg Execution.handler hexecution
    rw [hhandler] at hadded
    exact hadded
  · rw [Scheduler.roster_jobs, h.jobs] at hq
    exact absurd hq nofun

def reuse : List (Occasion String) :=
  timetable
    [(0, .call (.add true "report" "@every 5s" "r")), (0, .call .start),
      (5, .trigger (.timer 0) .completed), (6, .call (.remove "report")),
      (7, .call (.add false "report" "@every 9s" "r2"))]

theorem reuse_warrants :
    let w := hooked.run reuse
    let o : Occasion String :=
      { clock := { wall := { seconds := 16 } }, store := {}, event := .trigger (.timer 1) .completed }
    ({ before := w, occasion := o } : Moment String).invoked =
        some { name := "report", handler := "r2" } ∧
      Warrants (hooked.history reuse) { before := w, occasion := o }
        { name := "report", handler := "r2" } := by
  intro w o
  have hnew : hooked.scheduler.IsNew :=
    { engine := Or.inl rfl, jobs := rfl, state := rfl, refreshEntry := rfl }
  have hinvoked : ({ before := w, occasion := o } : Moment String).invoked =
      some { name := "report", handler := "r2" } := by
    decide +kernel
  exact ⟨hinvoked, triggers_are_warranted hnew rfl reuse o rfl hinvoked⟩

end Service
end RecurringJobs
