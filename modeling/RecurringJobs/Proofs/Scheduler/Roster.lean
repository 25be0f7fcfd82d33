import RecurringJobs.Proofs.Engine.Refusals
import RecurringJobs.Proofs.Scheduler.Registry

/-!
What a host can rely on without knowing of engines and entries: jobs by name.

A `Roster` is that and no more.  `Scheduler.roster` forgets everything else of a scheduler, and every
call does to the roster what `Roster.take` says, and answers what it says (`take_roster`,
`answer_eq`).  So a whole history of calls can be followed on the roster alone.
-/

namespace RecurringJobs

variable {η : Type}

/-- What a host knows of a job. -/
structure Posting (η : Type) where
  plan : String
  paused : Bool
  handler : η
deriving Repr, DecidableEq

@[ext]
structure Roster (η : Type) where
  jobs : String → Option (Posting η) := fun _ => none
  /-- Whether jobs can be run when the host is ready. -/
  hooked : Bool
  /-- Whether the engine refuses all plans, if it can be told to. -/
  refusing : Option Bool

/-- The job that a call of the registry names. -/
def Scheduler.Move.name? : Scheduler.Move η → Option String
  | .add name _ _ => some name
  | .addOnReady name _ _ => some name
  | .remove name => some name
  | .pause name => some name
  | .resume name => some name
  | _ => none

namespace Roster

def put (b : Roster η) (name : String) (p : Option (Posting η)) : Roster η :=
  { b with jobs := Function.update b.jobs name p }

def add (b : Roster η) (name plan : String) (handler : η) :
    Except SchedulerError Unit × Roster η :=
  match b.jobs name with
  | some p => (.error (.alreadyExists name p.plan), b)
  | none =>
    match refusal? b.refusing plan with
    | some e => (.error (.registrationFailed name e), b)
    | none => (.ok (), b.put name (some { plan, paused := false, handler }))

def addOnReady (b : Roster η) (name plan : String) (handler : η) :
    Except SchedulerError Unit × Roster η :=
  if b.hooked then b.add name plan handler else (.error (.noReadyHook name), b)

def remove (b : Roster η) (name : String) : Except SchedulerError Unit × Roster η :=
  match b.jobs name with
  | none => (.error (.notFound name), b)
  | some _ => (.ok (), b.put name none)

def pause (b : Roster η) (name : String) : Except SchedulerError Unit × Roster η :=
  match b.jobs name with
  | none => (.error (.notFound name), b)
  | some p => (.ok (), b.put name (some { p with paused := true }))

/-- An active job stays as it is, and a paused one that the engine refuses stays paused. -/
def resume (b : Roster η) (name : String) : Except SchedulerError Unit × Roster η :=
  match b.jobs name with
  | none => (.error (.notFound name), b)
  | some p =>
    match p.paused, refusal? b.refusing p.plan with
    | true, some e => (.error (.registrationFailed name e), b)
    | _, _ => (.ok (), b.put name (some { p with paused := false }))

/-- What a call of the registry answers and leaves.  All else is no such call, and leaves the jobs
as they are. -/
def take (b : Roster η) : Scheduler.Move η → Option (Except SchedulerError Unit) × Roster η
  | .add name plan handler => (b.add name plan handler).map some id
  | .addOnReady name plan handler => (b.addOnReady name plan handler).map some id
  | .remove name => (b.remove name).map some id
  | .pause name => (b.pause name).map some id
  | .resume name => (b.resume name).map some id
  | .setRejecting rejecting =>
    (none, { b with refusing := b.refusing.map fun _ => rejecting })
  | _ => (none, b)

def run (b : Roster η) : List (Scheduler.Move η) → Roster η
  | [] => b
  | m :: ms => (b.take m).2.run ms

/-! ### What a call leaves -/

theorem add_cases (b : Roster η) (name plan : String) (handler : η) :
    (b.add name plan handler).2 = b ∨ ∃ p, (b.add name plan handler).2 = b.put name p := by
  unfold add
  cases b.jobs name with
  | some p => exact Or.inl rfl
  | none =>
    cases refusal? b.refusing plan with
    | some e => exact Or.inl rfl
    | none => exact Or.inr ⟨_, rfl⟩

theorem addOnReady_cases (b : Roster η) (name plan : String) (handler : η) :
    (b.addOnReady name plan handler).2 = b ∨
      ∃ p, (b.addOnReady name plan handler).2 = b.put name p := by
  unfold addOnReady
  split
  · exact b.add_cases name plan handler
  · exact Or.inl rfl

theorem remove_cases (b : Roster η) (name : String) :
    (b.remove name).2 = b ∨ ∃ p, (b.remove name).2 = b.put name p := by
  unfold remove
  cases b.jobs name with
  | none => exact Or.inl rfl
  | some p => exact Or.inr ⟨_, rfl⟩

theorem pause_cases (b : Roster η) (name : String) :
    (b.pause name).2 = b ∨ ∃ p, (b.pause name).2 = b.put name p := by
  unfold pause
  cases b.jobs name with
  | none => exact Or.inl rfl
  | some p => exact Or.inr ⟨_, rfl⟩

theorem resume_cases (b : Roster η) (name : String) :
    (b.resume name).2 = b ∨ ∃ p, (b.resume name).2 = b.put name p := by
  unfold resume
  cases b.jobs name with
  | none => exact Or.inl rfl
  | some p =>
    dsimp only
    split
    · exact Or.inl rfl
    · exact Or.inr ⟨_, rfl⟩

/-- A call changes at most the job that it names. -/
theorem take_cases (b : Roster η) (m : Scheduler.Move η) :
    (b.take m).2 = b ∨ (∃ name p, m.name? = some name ∧ (b.take m).2 = b.put name p) ∨
      ∃ refusing, (b.take m).2 = { b with refusing := b.refusing.map fun _ => refusing } := by
  have hcall : ∀ {name : String}, m.name? = some name →
      ((b.take m).2 = b ∨ ∃ p, (b.take m).2 = b.put name p) →
        (b.take m).2 = b ∨ ∃ name p, m.name? = some name ∧ (b.take m).2 = b.put name p := by
    intro name hname hleft
    exact hleft.imp_right fun ⟨p, hput⟩ => ⟨name, p, hname, hput⟩
  rw [← or_assoc]
  cases m with
  | add name plan handler => exact Or.inl (hcall rfl (b.add_cases name plan handler))
  | addOnReady name plan handler => exact Or.inl (hcall rfl (b.addOnReady_cases name plan handler))
  | remove name => exact Or.inl (hcall rfl (b.remove_cases name))
  | pause name => exact Or.inl (hcall rfl (b.pause_cases name))
  | resume name => exact Or.inl (hcall rfl (b.resume_cases name))
  | setRejecting rejecting => exact Or.inr ⟨rejecting, rfl⟩
  | _ => exact Or.inl (Or.inl rfl)

end Roster

namespace Scheduler

def postingOf (r : JobRecord η) : Posting η :=
  { plan := r.plan, paused := r.paused, handler := r.execution.handler }

def roster (s : Scheduler η) : Roster η where
  jobs name := s.jobs[name]?.map postingOf
  hooked := s.ready.isSome
  refusing := s.engine.refusing

theorem roster_jobs (s : Scheduler η) (name : String) :
    s.roster.jobs name = s.jobs[name]?.map postingOf := rfl

theorem roster_insert (s : Scheduler η) {engine : Engine η}
    (hrefusing : engine.refusing = s.engine.refusing) (name : String) (r : JobRecord η) :
    ({ s with engine, jobs := s.jobs.insert name r } : Scheduler η).roster =
      s.roster.put name (some (postingOf r)) := by
  refine Roster.ext (funext fun n => ?_) rfl hrefusing
  show (s.jobs.insert name r)[n]?.map postingOf = Function.update s.roster.jobs name _ n
  rw [Std.TreeMap.getElem?_insert]
  by_cases hn : n = name
  · simp [hn]
  · simp [hn, Ne.symm hn, roster_jobs]

theorem roster_erase (s : Scheduler η) {engine : Engine η}
    (hrefusing : engine.refusing = s.engine.refusing) (name : String) :
    ({ s with engine, jobs := s.jobs.erase name } : Scheduler η).roster =
      s.roster.put name none := by
  refine Roster.ext (funext fun n => ?_) rfl hrefusing
  show (s.jobs.erase name)[n]?.map postingOf = Function.update s.roster.jobs name _ n
  rw [Std.TreeMap.getElem?_erase]
  by_cases hn : n = name
  · simp [hn]
  · simp [hn, Ne.symm hn, roster_jobs]

/-- A registration succeeds, or is refused for the reason that the roster knows. -/
theorem register_refusal (s : Scheduler η) (now : Instant) (text : String)
    (callback : Callback η) :
    (∃ e' es, s.engine.register now text callback = (.ok (s.engine.lastId + 1), e', es) ∧
        e'.refusing = s.engine.refusing ∧ refusal? s.roster.refusing text = none) ∨
      ∃ error es, s.engine.register now text callback = (.error error, s.engine, es) ∧
        refusal? s.roster.refusing text = some error := by
  have hresult : _ = match refusal? s.roster.refusing text with
    | some error => _
    | none => _ := s.engine.register_result now text callback
  have hrefusing := s.engine.refusing_register now text callback
  rcases s.engine.register_cases now text callback with ⟨plan, e', es, hr, -⟩ | ⟨error, hr⟩
  · rw [hr] at hresult hrefusing
    cases hrefusal : refusal? s.roster.refusing text with
    | none => exact Or.inl ⟨e', es, hr, hrefusing, rfl⟩
    | some error => simp [hrefusal] at hresult
  · rw [hr] at hresult
    cases hrefusal : refusal? s.roster.refusing text with
    | none => simp [hrefusal] at hresult
    | some error' =>
      simp only [hrefusal, Except.error.injEq] at hresult
      exact Or.inr ⟨error, _, hr, by rw [hresult]⟩

/-- What a call of the registry answers. -/
def answer (s : Scheduler η) (now : Instant) : Move η → Option (Except SchedulerError Unit)
  | .add name plan handler => some (s.add now name plan handler).result
  | .addOnReady name plan handler => some (s.addOnReady now name plan handler).result
  | .remove name => some (s.remove name).result
  | .pause name => some (s.pause name).result
  | .resume name => some (s.resume now name).result
  | _ => none

/-! ## Calls of the registry -/

/-- A call answers and leaves what the roster says. -/
def Follows (o : Outcome η (Except SchedulerError Unit))
    (told : Except SchedulerError Unit × Roster η) : Prop :=
  o.result = told.1 ∧ o.scheduler.roster = told.2

theorem add_follows (s : Scheduler η) (now : Instant) (name plan : String) (handler : η) :
    Follows (s.add now name plan handler) (s.roster.add name plan handler) := by
  unfold Scheduler.add Roster.add
  rw [roster_jobs]
  cases hname : s.jobs[name]? with
  | some r => exact ⟨rfl, rfl⟩
  | none =>
    dsimp only [Option.map_none]
    rcases s.register_refusal now plan (.job { name, handler }) with
      ⟨e', es, hr, hrefusing, hrefusal⟩ | ⟨error, es, hr, hrefusal⟩
    · simp only [hr, hrefusal]
      exact ⟨rfl, s.roster_insert hrefusing name _⟩
    · simp only [hr, hrefusal]
      exact ⟨rfl, rfl⟩

theorem addOnReady_follows (s : Scheduler η) (now : Instant) (name plan : String) (handler : η) :
    Follows (s.addOnReady now name plan handler) (s.roster.addOnReady name plan handler) := by
  obtain ⟨hresult, hroster⟩ := s.add_follows now name plan handler
  have hkept : (s.add now name plan handler).scheduler.ready = s.ready := by
    obtain ⟨engine, jobs, hframe⟩ := s.add_frame now name plan handler
    rw [hframe]
  unfold Scheduler.addOnReady Roster.addOnReady
  have hhooked : s.roster.hooked = s.ready.isSome := rfl
  rw [hhooked]
  cases hready : s.ready with
  | none => exact ⟨rfl, rfl⟩
  | some signal =>
    rw [hready] at hkept
    rw [Option.isSome_some, if_pos rfl]
    cases hadded : (s.add now name plan handler).result with
    | error error =>
      dsimp only
      rw [hadded]
      exact ⟨hresult, hroster⟩
    | ok done =>
      cases done
      dsimp only
      rw [hadded]
      refine ⟨hadded.symm.trans hresult, ?_⟩
      rw [← hroster]
      exact Roster.ext rfl (congrArg Option.isSome hkept).symm rfl

theorem remove_follows (s : Scheduler η) (name : String) :
    Follows (s.remove name) (s.roster.remove name) := by
  unfold Scheduler.remove Roster.remove
  rw [roster_jobs]
  cases hname : s.jobs[name]? with
  | none => exact ⟨rfl, rfl⟩
  | some r =>
    refine ⟨rfl, s.roster_erase ?_ name⟩
    cases r.paused with
    | true => rfl
    | false =>
      cases r.entryId with
      | none => rfl
      | some id => exact s.engine.refusing_unregister id

/-- A posting that is put where it already is. -/
theorem roster_put_self (s : Scheduler η) {name : String} {r : JobRecord η}
    (hname : s.jobs[name]? = some r) : s.roster.put name (some (postingOf r)) = s.roster := by
  refine Roster.ext ?_ rfl rfl
  refine Function.update_eq_self_iff.mpr ?_
  rw [roster_jobs, hname, Option.map_some]

theorem pause_follows (s : Scheduler η) (name : String) :
    Follows (s.pause name) (s.roster.pause name) := by
  unfold Scheduler.pause Roster.pause
  rw [roster_jobs]
  cases hname : s.jobs[name]? with
  | none => exact ⟨rfl, rfl⟩
  | some r =>
    dsimp only [Option.map_some]
    by_cases hpaused : r.paused = true
    · rw [if_pos hpaused]
      have hsame : { postingOf r with paused := true } = postingOf r := by
        simp [postingOf, hpaused]
      rw [hsame, s.roster_put_self hname]
      exact ⟨rfl, rfl⟩
    · rw [if_neg hpaused]
      refine ⟨rfl, s.roster_insert ?_ name _⟩
      cases r.entryId with
      | none => rfl
      | some id => exact s.engine.refusing_unregister id

theorem resume_follows (s : Scheduler η) (now : Instant) (name : String) :
    Follows (s.resume now name) (s.roster.resume name) := by
  unfold Scheduler.resume Roster.resume
  rw [roster_jobs]
  cases hname : s.jobs[name]? with
  | none => exact ⟨rfl, rfl⟩
  | some r =>
    dsimp only [Option.map_some, postingOf]
    cases hpaused : r.paused with
    | false =>
      have hsame : ({ plan := r.plan, paused := false, handler := r.execution.handler } :
          Posting η) = postingOf r := by
        simp [postingOf, hpaused]
      rw [hsame, s.roster_put_self hname]
      exact ⟨rfl, rfl⟩
    | true =>
      rcases s.register_refusal now r.plan (.job r.execution) with
        ⟨e', es, hr, hrefusing, hrefusal⟩ | ⟨error, es, hr, hrefusal⟩
      · simp only [hr, hrefusal, Bool.not_true, Bool.false_eq_true, if_false]
        exact ⟨rfl, s.roster_insert hrefusing name _⟩
      · simp only [hr, hrefusal, Bool.not_true, Bool.false_eq_true, if_false]
        exact ⟨rfl, rfl⟩

/-! ## All else -/

theorem acquire_roster (s : Scheduler η) (store : LeaseStore) (now : Nat) :
    (s.acquire store now).scheduler.roster = s.roster := by
  rw [acquire_scheduler]
  rfl

theorem installRefresh_roster (s : Scheduler η) (now : Instant) :
    (s.installRefresh now).1.roster = s.roster := by
  have hrefusing := s.engine.refusing_register now s.refreshPlan .refresh
  unfold installRefresh
  rcases s.engine.register_cases now s.refreshPlan .refresh with
    ⟨parsed, e', es, hr, -⟩ | ⟨error, hr⟩
  · simp only [hr] at hrefusing ⊢
    exact Roster.ext rfl rfl hrefusing
  · simp only [hr]

theorem withEngine_roster (s : Scheduler η) {engine : Engine η}
    (hrefusing : engine.refusing = s.engine.refusing) :
    ({ s with engine } : Scheduler η).roster = s.roster :=
  Roster.ext rfl rfl hrefusing

theorem start_roster (s : Scheduler η) (store : LeaseStore) (clock : Clock) :
    (s.start store clock).scheduler.roster = s.roster := by
  unfold Scheduler.start
  split
  · rfl
  · have htried := acquire_roster { s with state := .started } store clock.elapsed
    dsimp only
    split
    · exact htried
    · cases (Scheduler.acquire { s with state := .started } store clock.elapsed).scheduler.lock with
      | none => exact (withEngine_roster _ (Engine.refusing_start _ _)).trans htried
      | some lock =>
        have hinstalled := installRefresh_roster
          (Scheduler.acquire { s with state := .started } store clock.elapsed).scheduler clock.wall
        exact (withEngine_roster _ (Engine.refusing_start _ _)).trans (hinstalled.trans htried)

theorem stop_roster (s : Scheduler η) (store : LeaseStore) (now : Nat) :
    (s.stop store now).scheduler.roster = s.roster := by
  unfold Scheduler.stop
  split
  · rfl
  · cases s.refreshEntry with
    | none => cases s.lock <;> exact Roster.ext rfl rfl (Engine.refusing_stop _)
    | some id =>
      have hrefusing := (Engine.refusing_unregister s.engine.stop.1 id).trans
        (Engine.refusing_stop s.engine)
      cases s.lock <;> exact Roster.ext rfl rfl hrefusing

/-- Every move does to the roster what the roster says, and nothing else. -/
theorem take_roster (s : Scheduler η) (store : LeaseStore) (clock : Clock) (m : Move η) :
    (s.take store clock m).scheduler.roster = (s.roster.take m).2 := by
  cases m with
  | add name plan handler => exact (s.add_follows clock.wall name plan handler).2
  | addOnReady name plan handler => exact (s.addOnReady_follows clock.wall name plan handler).2
  | remove name => exact (s.remove_follows name).2
  | pause name => exact (s.pause_follows name).2
  | resume name => exact (s.resume_follows clock.wall name).2
  | setLock lock =>
    show (s.setLock lock).scheduler.roster = s.roster
    unfold Scheduler.setLock
    split <;> rfl
  | start => exact s.start_roster store clock
  | stop => exact s.stop_roster store clock.elapsed
  | notify =>
    show s.notify.scheduler.roster = s.roster
    unfold Scheduler.notify
    cases hready : s.ready with
    | none => rfl
    | some signal =>
      refine Roster.ext rfl ?_ rfl
      show true = s.ready.isSome
      rw [hready, Option.isSome_some]
  | setRejecting rejecting =>
    exact Roster.ext rfl rfl (s.engine.refusing_setRejecting rejecting)
  | fire serial =>
    show (s.fire clock.wall serial).scheduler.roster = s.roster
    rw [fire_scheduler]
    exact s.withEngine_roster (s.engine.refusing_fired serial clock.wall)
  | callback c =>
    cases c with
    | job e => rfl
    | refresh => exact s.acquire_roster store clock.elapsed
    | host label => rfl
  | readyCallback c =>
    cases c with
    | job e => rfl
    | host label => rfl

theorem answer_eq (s : Scheduler η) (now : Instant) (m : Move η) :
    s.answer now m = (s.roster.take m).1 := by
  cases m with
  | add name plan handler => exact congrArg some (s.add_follows now name plan handler).1
  | addOnReady name plan handler =>
    exact congrArg some (s.addOnReady_follows now name plan handler).1
  | remove name => exact congrArg some (s.remove_follows name).1
  | pause name => exact congrArg some (s.pause_follows name).1
  | resume name => exact congrArg some (s.resume_follows now name).1
  | _ => rfl

theorem run_roster (s : Scheduler η) (ts : List (Turn η)) :
    (s.run ts).roster = s.roster.run (ts.map Turn.move) := by
  induction ts generalizing s with
  | nil => rfl
  | cons t ts ih =>
    show ((s.after t).run ts).roster = (s.roster.take t.move).2.run (ts.map Turn.move)
    rw [ih, ← s.take_roster t.store t.clock t.move]
    rfl

end Scheduler
end RecurringJobs
