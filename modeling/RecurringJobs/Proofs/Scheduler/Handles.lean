import RecurringJobs.Proofs.Engine.Numbers
import RecurringJobs.Proofs.Scheduler.StoredPlans

/-!
The handles that a scheduler keeps of its entries, in the course of its service.

All that a scheduler does with its engine are turns of that engine, so what holds of the numbers of
a run holds of the handles of jobs and of the refresh entry.  A job that is resumed gets the next
number, which is above all handles that were ever kept (`Service.handles_ascend`).
-/

namespace RecurringJobs

variable {η : Type}

/-! ## Turns of the engine -/

namespace Engine

/-- The second engine is what a run leaves of the first one. -/
def Reaches (e e' : Engine η) : Prop := ∃ ts, e' = e.run ts

variable {e e' e'' : Engine η}

theorem Reaches.refl (e : Engine η) : e.Reaches e := ⟨[], rfl⟩

theorem Reaches.trans (h : e.Reaches e') (h' : e'.Reaches e'') : e.Reaches e'' := by
  obtain ⟨ts, rfl⟩ := h
  obtain ⟨us, rfl⟩ := h'
  exact ⟨ts ++ us, (e.run_append ts us).symm⟩

theorem reaches_take (e : Engine η) (t : Turn η) : e.Reaches (e.take t) := ⟨[t], rfl⟩

theorem reaches_unregister (e : Engine η) (id : Nat) : e.Reaches (e.unregister id).1 :=
  e.reaches_take { now := { seconds := 0 }, move := .unregister id }

theorem reaches_stop (e : Engine η) : e.Reaches e.stop.1 :=
  e.reaches_take { now := { seconds := 0 }, move := .stop }

theorem reaches_start (e : Engine η) (now : Instant) : e.Reaches (e.start now).1 :=
  e.reaches_take { now, move := .start }

theorem reaches_of_register {now : Instant} {text : String} {callback : Callback η}
    {result : Except EngineError Nat} {es : List (Effect η)}
    (h : e.register now text callback = (result, e', es)) : e.Reaches e' := by
  have hturn := e.reaches_take { now, move := .register text callback }
  simp only [take, h] at hturn
  exact hturn

theorem Reaches.lastId_le (h : e.Reaches e') : e.lastId ≤ e'.lastId := by
  obtain ⟨ts, rfl⟩ := h
  exact e.lastId_le_run ts

theorem Reaches.refusing (h : e.Reaches e') : e'.refusing = e.refusing := by
  obtain ⟨ts, rfl⟩ := h
  exact e.refusing_run ts

theorem setRejecting_of_clockwork (h : e.refusing = none) (rejecting : Bool) :
    e.setRejecting rejecting = e := by
  obtain ⟨c, hdrive⟩ := exists_clockwork h
  unfold setRejecting
  rw [hdrive]

end Engine

namespace Scheduler

open Engine (Reaches)

theorem reaches_add (s : Scheduler η) (now : Instant) (name plan : String) (handler : η) :
    s.engine.Reaches (s.add now name plan handler).scheduler.engine := by
  unfold add
  split
  · exact .refl _
  · dsimp only
    split
    · exact .refl _
    · next hregister => exact Engine.reaches_of_register hregister

theorem reaches_addOnReady (s : Scheduler η) (now : Instant) (name plan : String) (handler : η) :
    s.engine.Reaches (s.addOnReady now name plan handler).scheduler.engine := by
  have hadded := s.reaches_add now name plan handler
  unfold addOnReady
  split
  · exact .refl _
  · dsimp only
    split <;> exact hadded

theorem reaches_remove (s : Scheduler η) (name : String) :
    s.engine.Reaches (s.remove name).scheduler.engine := by
  unfold remove
  split
  · exact .refl _
  · dsimp only
    split
    · exact s.engine.reaches_unregister _
    · exact .refl _

theorem reaches_pause (s : Scheduler η) (name : String) :
    s.engine.Reaches (s.pause name).scheduler.engine := by
  unfold pause
  split
  · exact .refl _
  · split
    · exact .refl _
    · dsimp only
      split
      · exact s.engine.reaches_unregister _
      · exact .refl _

theorem reaches_resume (s : Scheduler η) (now : Instant) (name : String) :
    s.engine.Reaches (s.resume now name).scheduler.engine := by
  unfold resume
  split
  · exact .refl _
  · split
    · exact .refl _
    · split
      · exact .refl _
      · next hregister => exact Engine.reaches_of_register hregister

theorem reaches_installRefresh (s : Scheduler η) (now : Instant) :
    s.engine.Reaches (s.installRefresh now).1.engine := by
  unfold installRefresh
  dsimp only
  split <;> next hregister => exact Engine.reaches_of_register hregister

theorem reaches_start (s : Scheduler η) (store : LeaseStore) (clock : Clock) :
    s.engine.Reaches (s.start store clock).scheduler.engine := by
  let begun : Scheduler η := { s with state := .started }
  have htried : s.engine.Reaches (begun.acquire store clock.elapsed).scheduler.engine := by
    rw [acquire_scheduler]
    exact .refl _
  unfold start
  split
  · exact .refl _
  · show Reaches _ (if (begun.acquire store clock.elapsed).result = .crashed then _ else _ :
      LockOutcome η (Except LifecycleFault Unit)).scheduler.engine
    split
    · exact htried
    · cases (begun.acquire store clock.elapsed).scheduler.lock with
      | none => exact htried.trans (Engine.reaches_start _ _)
      | some lock =>
        exact (htried.trans (reaches_installRefresh _ _)).trans (Engine.reaches_start _ _)

theorem reaches_stop (s : Scheduler η) (store : LeaseStore) (now : Nat) :
    s.engine.Reaches (s.stop store now).scheduler.engine := by
  have hstopped := s.engine.reaches_stop
  unfold stop
  split
  · exact .refl _
  · cases s.refreshEntry with
    | none => cases s.lock <;> exact hstopped
    | some id =>
      have hremoved := hstopped.trans (s.engine.stop.1.reaches_unregister id)
      cases s.lock <;> exact hremoved

theorem reaches_take {s : Scheduler η} (hclockwork : s.engine.refusing = none)
    (store : LeaseStore) (clock : Clock) (m : Move η) :
    s.engine.Reaches (s.take store clock m).scheduler.engine := by
  cases m with
  | add name plan handler => exact s.reaches_add clock.wall name plan handler
  | addOnReady name plan handler => exact s.reaches_addOnReady clock.wall name plan handler
  | remove name => exact s.reaches_remove name
  | pause name => exact s.reaches_pause name
  | resume name => exact s.reaches_resume clock.wall name
  | setLock lock =>
    show s.engine.Reaches (s.setLock lock).scheduler.engine
    unfold setLock
    split <;> exact .refl _
  | start => exact s.reaches_start store clock
  | stop => exact s.reaches_stop store clock.elapsed
  | notify =>
    show s.engine.Reaches s.notify.scheduler.engine
    unfold notify
    split <;> exact .refl _
  | setRejecting rejecting =>
    show s.engine.Reaches (s.engine.setRejecting rejecting)
    rw [Engine.setRejecting_of_clockwork hclockwork]
    exact .refl _
  | fire serial =>
    show s.engine.Reaches (s.fire clock.wall serial).scheduler.engine
    rw [fire_scheduler]
    exact s.engine.reaches_take { now := clock.wall, move := .fire serial }
  | callback c =>
    cases c with
    | job e => exact .refl _
    | refresh =>
      show s.engine.Reaches (s.acquire store clock.elapsed).scheduler.engine
      rw [acquire_scheduler]
      exact .refl _
    | host label => exact .refl _
  | readyCallback c => cases c <;> exact .refl _

/-- A job or the refresh entry has the handle. -/
def Holds (s : Scheduler η) (id : Nat) : Prop :=
  s.refreshEntry = some id ∨ ∃ (name : String) (r : JobRecord η), s.jobs[name]? = some r ∧
    r.entryId = some id

theorem IsSound.isLive_of_holds {s : Scheduler η} (h : s.IsSound) {id : Nat} (hid : s.Holds id) :
    s.engine.IsLive id := by
  rcases hid with hrefresh | ⟨name, r, hr, hid⟩
  · obtain ⟨x, hx, hxid, -⟩ := h.tallies.renewal id hrefresh
    exact ⟨x, hx, hxid⟩
  · obtain ⟨x, hx, hxid, -⟩ := h.tallies.owns_of_entryId hr hid
    exact ⟨x, hx, hxid⟩

theorem IsSound.le_lastId_of_holds {s : Scheduler η} (h : s.IsSound) {id : Nat}
    (hid : s.Holds id) : id ≤ s.engine.lastId := by
  obtain ⟨x, hx, rfl⟩ := h.isLive_of_holds hid
  exact h.tallies.engine.given x hx

/-- A paused job whose plan the engine takes gets the next number. -/
theorem resume_of_paused {s : Scheduler η} (hclockwork : s.engine.refusing = none) {name : String}
    {r : JobRecord η} (hr : s.jobs[name]? = some r) (hpaused : r.paused = true) {plan : Plan}
    (hplan : Plan.parse r.plan = .ok plan) (now : Instant) :
    (s.resume now name).result = .ok () ∧
      (s.resume now name).scheduler.jobs[name]? =
        some { r with entryId := some (s.engine.lastId + 1), paused := false } := by
  have hresult := s.engine.register_result now r.plan (.job r.execution)
  rw [hclockwork, no_refusal_of_parse hplan] at hresult
  rcases s.engine.register_cases now r.plan (.job r.execution) with
    ⟨parsed, e', es, hregister, -⟩ | ⟨error, hregister⟩
  · simp [resume, hr, hpaused, hregister]
  · rw [hregister] at hresult
    cases hresult

end Scheduler

namespace Service

theorem keeps_reaches {e : Engine η} (hclockwork : e.refusing = none) :
    Keeps fun s => e.Reaches s.engine where
  take _ store clock m hs :=
    hs.trans (Scheduler.reaches_take (hs.refusing.trans hclockwork) store clock m)
  turnLock _ _ hs := hs

/-- Numbers are given in order and each once, those that are live can be told from the turns of the
engine, and any other is unregistered without effect.  So it is with the engine of a scheduler in
service.  A paused job that is resumed gets a handle above all that were ever given, and above all
that a job or the refresh entry ever had. -/
theorem handles_ascend {w : Service η} (h : w.scheduler.IsNew)
    (hclockwork : w.scheduler.engine = .clockwork) :
    (∀ ts : List (Engine.Turn η), Engine.Numbering ts) ∧
    ∀ past : List (Occasion η), ∃ ts,
      (w.run past).scheduler.engine = Engine.clockwork.run ts ∧
      ∀ (now : Instant) (name : String) (r : JobRecord η),
        (w.run past).scheduler.jobs[name]? = some r → r.paused = true →
        ∃ id, ((w.run past).scheduler.resume now name).result = .ok () ∧
          ((w.run past).scheduler.resume now name).scheduler.jobs[name]? =
            some { r with entryId := some id, paused := false } ∧
          (∀ given, Engine.clockwork.Gave ts given → given < id) ∧
          ∀ earlier, earlier <+: past → ∀ held, (w.run earlier).scheduler.Holds held → held < id := by
  refine ⟨Engine.numbering, fun past => ?_⟩
  have hnew : w.scheduler.engine.refusing = none := by
    rw [hclockwork]
    rfl
  obtain ⟨ts, hts⟩ := (keeps_reaches hnew).run (.refl _) past
  rw [hclockwork] at hts
  refine ⟨ts, hts, ?_⟩
  intro now name r hr hpaused
  have hwork : (w.run past).scheduler.engine.refusing = none := keeps_clockwork.run hnew past
  obtain ⟨plan, hplan⟩ := (record_addedIn h hr).parses
  obtain ⟨hdone, hrecord⟩ := Scheduler.resume_of_paused hwork hr hpaused hplan now
  refine ⟨_, hdone, hrecord, ?_, ?_⟩
  · intro given hgiven
    have hle := hgiven.le_lastId
    rw [hts]
    exact Nat.lt_succ_of_le hle
  · rintro earlier ⟨rest, rfl⟩ held hheld
    have hsound : (w.run earlier).scheduler.IsSound := keeps_isSound.run h.isSound earlier
    have hwork' : (w.run earlier).scheduler.engine.refusing = none :=
      keeps_clockwork.run hnew earlier
    have hreaches := (keeps_reaches hwork').run (.refl _) rest
    rw [← run_append] at hreaches
    exact Nat.lt_succ_of_le ((hsound.le_lastId_of_holds hheld).trans hreaches.lastId_le)

/-- One job is paused, resumed and paused again, around a start, a plan that is refused and the
removal of another job. -/
def reshuffle : List (Occasion String) :=
  timetable
    [(0, .call (.setLock (.lease { name := "nightly", holder := "a", ttl := 8000000000 }))),
      (0, .call (.add true "report" "@every 5s" "r")), (0, .call (.add true "backup" "@daily" "b")),
      (1, .call .start), (2, .call (.pause "report")), (3, .call (.add false "prune" "often" "p")),
      (4, .call (.remove "backup")), (5, .call (.resume "report")), (6, .call (.pause "report"))]

theorem handles_ascend_reshuffle :
    let s := (hooked.run reshuffle).scheduler
    let turns : List (Engine.Turn String) :=
      [{ now := { seconds := 0 }, move := .register "@daily" (.host "a") },
        { now := { seconds := 1 }, move := .unregister 1 }, { now := { seconds := 2 }, move := .start },
        { now := { seconds := 3 }, move := .register "@daily" (.host "b") }]
    (Engine.clockwork.run turns).unregister 1 =
        (Engine.clockwork.run turns, [.engine (.unregister 1), .log (.entryUnknown 1)]) ∧
      ∃ r, s.jobs["report"]? = some r ∧ r.paused = true ∧
        ∃ id, (s.resume { seconds := 9 } "report").result = .ok () ∧
          (s.resume { seconds := 9 } "report").scheduler.jobs["report"]? =
            some { r with entryId := some id, paused := false } ∧
          (hooked.run (reshuffle.take 4)).scheduler.refreshEntry = some 3 ∧ 3 < id ∧
          ((hooked.run (reshuffle.take 8)).scheduler.jobs["report"]?.bind JobRecord.entryId) = some 4 ∧
          4 < id := by
  intro s turns
  have hnew : hooked.scheduler.IsNew :=
    { engine := Or.inl rfl, jobs := rfl, state := rfl, refreshEntry := rfl }
  obtain ⟨hnumbering, hhandles⟩ := handles_ascend hnew rfl
  have hgave : (Engine.clockwork : Engine String).Gave (turns.take 1) 1 := by
    unfold Engine.Gave
    decide +kernel
  have htook : Engine.clockwork.TookBack turns 1 := ⟨turns.take 1, _, turns.drop 2, rfl, hgave, rfl⟩
  obtain ⟨ts, -, hresumed⟩ := hhandles reshuffle
  have hr : s.jobs["report"]? = some
      { plan := "@every 5s", entryId := none, execution := { name := "report", handler := "r" },
        paused := true } := by
    decide +kernel
  obtain ⟨id, hdone, hrecord, -, habove⟩ := hresumed { seconds := 9 } "report" _ hr rfl
  have hrefresh : (hooked.run (reshuffle.take 4)).scheduler.refreshEntry = some 3 := by
    decide +kernel
  have hfirst : ((hooked.run (reshuffle.take 8)).scheduler.jobs["report"]?.bind
      JobRecord.entryId) = some 4 := by
    decide +kernel
  obtain ⟨q, hq, hid⟩ := Option.bind_eq_some_iff.mp hfirst
  exact ⟨(hnumbering turns).stale 1 (.inr htook), _, hr, rfl, id, hdone, hrecord, hrefresh,
    habove _ (List.take_prefix 4 reshuffle) 3 (.inl hrefresh), hfirst,
    habove _ (List.take_prefix 8 reshuffle) 4 (.inr ⟨"report", q, hq, hid⟩)⟩

end Service
end RecurringJobs
