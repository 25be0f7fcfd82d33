import RecurringJobs.Proofs.Lock.Agreement
import RecurringJobs.Proofs.Scheduler.LockUse

/-!
The calls that take the lock and give it back, over a whole run.

With the cuts between the phases, what each moment does with the lock tells in which order the calls
come (`Episode`): one at the start, one for each trigger of the entry that renews the lock, and at
most one at the stop.
-/

namespace RecurringJobs

variable {η : Type}

/-! ## Calls of the engine -/

def Effect.engineCall? : Effect η → Option EngineCall
  | .engine c => some c
  | _ => none

def engineCalls (es : List (Effect η)) : List EngineCall := es.filterMap Effect.engineCall?

@[simp] theorem engineCalls_append (es fs : List (Effect η)) :
    engineCalls (es ++ fs) = engineCalls es ++ engineCalls fs :=
  List.filterMap_append

theorem Engine.engineCalls_stop (e : Engine η) : engineCalls e.stop.2 = [.stop] := by
  unfold stop
  cases e.drive with
  | byHand rejecting => rfl
  | clockwork c => dsimp only; split <;> rfl

theorem Engine.engineCalls_unregister (e : Engine η) (id : Nat) :
    engineCalls (e.unregister id).2 = [.unregister id] := by
  unfold unregister
  cases e.drive with
  | byHand rejecting => rfl
  | clockwork c => cases e.entry? id <;> rfl

/-- A stop reaches the engine before it reaches the lock. -/
theorem Scheduler.stop_order {s : Scheduler η} (hstarted : s.state = .started)
    (store : LeaseStore) (now : Nat) :
    ∃ first last, (s.stop store now).effects = first ++ last ∧
      engineCalls first = .stop :: s.refreshEntry.toList.map .unregister ∧
        lockCalls first = [] ∧ engineCalls last = [] := by
  have hunlock : ∀ (s : Scheduler η) lock,
      engineCalls (s.tryUnlock lock store now).effects = [] := by
    intro s lock
    unfold tryUnlock
    dsimp only
    cases (lock.tryUnlock store now).1 <;> rfl
  have hsaid : ∀ answer, engineCalls (stopLogs answer : List (Effect η)) = [] := by
    intro answer
    cases answer <;> rfl
  have hsplit : ∀ stopped removed released said : List (Effect η),
      stopped ++ removed ++ released ++ said = (stopped ++ removed) ++ (released ++ said) := by
    intros
    simp only [List.append_assoc]
  unfold stop
  rw [if_neg (Decidable.not_not.mpr hstarted)]
  dsimp only
  refine ⟨_, _, hsplit _ _ _ _, ?_, ?_, ?_⟩
  · cases s.refreshEntry with
    | none =>
      rw [engineCalls_append, Engine.engineCalls_stop]
      rfl
    | some id =>
      rw [engineCalls_append, Engine.engineCalls_stop, Engine.engineCalls_unregister]
      rfl
  · cases s.refreshEntry with
    | none =>
      rw [lockCalls_append, Engine.lockCalls_stop]
      rfl
    | some id =>
      rw [lockCalls_append, Engine.lockCalls_stop, Engine.lockCalls_unregister]
      rfl
  · rw [engineCalls_append, hsaid]
    cases s.lock with
    | none => rfl
    | some lock =>
      dsimp only
      rw [hunlock]
      rfl

namespace Service
namespace Moment

variable {m : Moment η}

/-- The lock is given back by a stop, after the engine was stopped and lost its entry. -/
structure GivesBack (m : Moment η) : Prop where
  event : m.event = .call .stop
  /-- The stop succeeds if the lock comes back. -/
  done : ∀ lock, m.scheduler.lock = some lock →
    (lock.tryUnlock m.occasion.store m.now).1 ≠ .crashed → m.reply = some .done
  uses : m.Uses .giveBack
  order : ∃ first last, m.effects = first ++ last ∧
    engineCalls first = .stop :: m.scheduler.refreshEntry.toList.map .unregister ∧
      lockCalls first = [] ∧ engineCalls last = []

theorem givesBack_of_ends (hlock : m.scheduler.lock ≠ none) (h : m.Ends) : m.GivesBack where
  event := h.1
  done := by
    intro lock hslot hback
    have hresult := Scheduler.stop_result_of_lock h.2 hslot hback
    rw [reply_call h.1]
    show some (m.scheduler.stop m.occasion.store m.now).answering.result = some .done
    unfold LockOutcome.answering
    rw [hresult]
  uses := uses_of_use hlock (use?_of_ends h)
  order := by
    unfold effects
    rw [outcome_call h.1]
    exact Scheduler.stop_order h.2 m.occasion.store m.occasion.clock.elapsed

end Moment

/-! ## Runs -/

theorem keeps_locked : Keeps fun s : Scheduler η => s.lock ≠ none where
  take s store clock m hs := by
    obtain ⟨lock, hlock⟩ := Option.ne_none_iff_exists'.mp hs
    by_cases hset : ∃ l, m = .setLock l
    · obtain ⟨l, rfl⟩ := hset
      show (s.setLock l).scheduler.lock ≠ none
      unfold Scheduler.setLock
      split
      · exact nofun
      · exact hs
    · rw [(Scheduler.take_leaves hlock store clock (not_exists.mp hset)).lock]
      exact nofun
  turnLock s l hs := fun hnone => hs (Option.map_eq_none_iff.mp hnone)

theorem rests_without_lock {w : Service η} (hlock : w.scheduler.lock = none)
    (hstate : w.scheduler.state ≠ .created) (os : List (Occasion η)) :
    ∀ m ∈ w.history os, m.Rests := by
  induction os generalizing w with
  | nil => exact fun m hm => absurd hm List.not_mem_nil
  | cons o os ih =>
    intro m hm
    rcases List.mem_cons.mp hm with rfl | hm
    · exact (Moment.rests_of_no_lock (m := { before := w, occasion := o }) hlock).1
    · let first : Moment η := { before := w, occasion := o }
      have hrests : first.Rests := (Moment.rests_of_no_lock (m := first) hlock).1
      have hslot : first.slot = none := by
        unfold Moment.slot
        split
        · exact Option.map_eq_none_iff.mpr hlock
        · exact (if_neg hstate).trans hlock
        · exact hlock
      refine ih (w := w.step o) (hrests.lock.trans hslot) ?_ m hm
      by_cases hends : first.Ends
      · have hstopped : (w.step o).scheduler.state = .stopped := hends.after.1
        rw [hstopped]
        exact nofun
      · have hstays : w.scheduler.Stays (w.step o).scheduler :=
          Moment.stays (m := first) (fun hbegins => hstate hbegins.2) hends
        rw [hstays.state]
        exact hstate

theorem rests_of_steady {w : Service η} (h : w.scheduler.IsSound)
    (hstate : w.scheduler.state ≠ .started) {os : List (Occasion η)}
    (hsteady : Steady (w.history os)) : ∀ m ∈ w.history os, m.Rests := by
  intro m hm
  have hsound := keeps_isSound.history h hm
  obtain ⟨hb, he⟩ := hsteady m hm
  refine Moment.rests hsound hb he (Moment.not_renews hsound ?_)
  rw [hsteady.state hm]
  exact hstate

/-- The calls that take the lock and give it back, from its first use to its last. -/
structure Episode (before : List (Moment η)) (start : Moment η) (middle rest : List (Moment η)) :
    Prop where
  before : ∀ m ∈ before, m.Rests
  event : start.event = .call .start
  takes : start.Uses .take
  /-- The start succeeds if the lock comes back. -/
  done : ∀ lock, start.scheduler.lock = some lock →
    (lock.tryLock start.occasion.store start.now).1 ≠ .crashed → start.reply = some .done
  middle : ∀ m ∈ middle, (m.Renews → m.Uses .take) ∧ (¬m.Renews → m.Rests)
  rest : rest = [] ∨ ∃ stop later, rest = stop :: later ∧ stop.GivesBack ∧ ∀ m ∈ later, m.Rests

structure LockWord (w : Service η) (os : List (Occasion η)) : Prop where
  word : (∀ m ∈ w.history os, m.Rests) ∨
    ∃ before start middle rest, w.history os = before ++ start :: (middle ++ rest) ∧
      Episode before start middle rest
  /-- A lock that is replaced was not called before, and one that is refused is not put in. -/
  setLock : ∀ us o vs lock, os = us ++ o :: vs → o.event = .call (.setLock lock) →
    let m : Moment η := { before := w.run us, occasion := o }
    (m.reply = some .done ∧ m.after.scheduler.lock = some lock ∧
        ∀ x ∈ w.history us, x.Rests ∧
          (w.scheduler.engine = .clockwork → lockCalls x.effects = [])) ∨
      (∃ state, m.reply = some (.refused (.invalidState .setLock state))) ∧
        m.after.scheduler = m.scheduler
  /-- A lease that only this scheduler uses is not held after a stop. -/
  unheld : ∀ us o vs lease, os = us ++ o :: vs → o.event = .call .stop →
    ({ before := w.run us, occasion := o } : Moment η).reply = some .done →
      (w.run us).scheduler.lock = some (.lease lease) →
        (∀ p ∈ vs, ∀ lock, p.event ≠ .turnLock lock) →
          ∃ l, (w.run os).scheduler.lock = some (.lease l) ∧ ∀ now, l.hasLock now = false

theorem word_of_started {w : Service η} (h : w.scheduler.IsSound)
    (hstarted : w.scheduler.state = .started) (hlock : w.scheduler.lock ≠ none)
    (os : List (Occasion η)) :
    ∃ middle rest, w.history os = middle ++ rest ∧
      (∀ m ∈ middle, (m.Renews → m.Uses .take) ∧ (¬m.Renews → m.Rests)) ∧
        (rest = [] ∨ ∃ stop later, rest = stop :: later ∧ stop.GivesBack ∧
          ∀ m ∈ later, m.Rests) := by
  have hmiddle : ∀ us, Steady (w.history us) → ∀ m ∈ w.history us,
      (m.Renews → m.Uses .take) ∧ (¬m.Renews → m.Rests) := by
    intro us hsteady m hm
    have hsound := keeps_isSound.history h hm
    obtain ⟨hb, he⟩ := hsteady m hm
    exact ⟨Moment.takes_of_renews hsound, Moment.rests hsound hb he⟩
  rcases phases_of_started hstarted os with hsteady | ⟨us, o, vs, rfl, hus, hends, hvs⟩
  · exact ⟨w.history os, [], (List.append_nil _).symm, hmiddle os hsteady, Or.inl rfl⟩
  · refine ⟨w.history us, (w.run us).history (o :: vs), w.history_append us (o :: vs),
      hmiddle us hus, Or.inr ⟨{ before := w.run us, occasion := o }, _, rfl, ?_, ?_⟩⟩
    · exact Moment.givesBack_of_ends (keeps_locked.run hlock us) hends
    · have hstopped : ((w.run us).step o).scheduler.state = .stopped := hends.after.1
      refine rests_of_steady (w := (w.run us).step o) ?_ ?_ hvs
      · exact keeps_isSound.perform (keeps_isSound.run h us) o
      · rw [hstopped]
        exact nofun

theorem word_of_isNew {w : Service η} (h : w.scheduler.IsNew) (os : List (Occasion η)) :
    (∀ m ∈ w.history os, m.Rests) ∨
      ∃ before start middle rest, w.history os = before ++ start :: (middle ++ rest) ∧
        Episode before start middle rest := by
  have hbefore : ∀ us, Steady (w.history us) → ∀ m ∈ w.history us, m.Rests := by
    intro us hsteady
    refine rests_of_steady h.isSound ?_ hsteady
    rw [h.state]
    exact nofun
  rcases phases_of_created h.state os with hsteady | ⟨us, o, vs, rfl, hus, hbegins⟩
  · exact Or.inl (hbefore os hsteady)
  · let start : Moment η := { before := w.run us, occasion := o }
    have hstarted : ((w.run us).step o).scheduler.state = .started := hbegins.after.1
    have hhistory : w.history (us ++ o :: vs) =
        w.history us ++ start :: ((w.run us).step o).history vs := w.history_append us (o :: vs)
    by_cases hlock : (w.run us).scheduler.lock = none
    · -- there is nothing to be started, and none can be set any more
      have hstart : start.Rests := (Moment.rests_of_no_lock (m := start) hlock).1
      have hleft : ((w.run us).step o).scheduler.lock = none := by
        have hslot : start.slot = none := by
          unfold Moment.slot
          rw [hbegins.1]
          exact hlock
        exact hstart.lock.trans hslot
      refine Or.inl fun m hm => ?_
      rw [hhistory] at hm
      rcases List.mem_append.mp hm with hm | hm
      · exact hbefore us hus m hm
      · rcases List.mem_cons.mp hm with rfl | hm
        · exact hstart
        · refine rests_without_lock hleft ?_ vs m hm
          rw [hstarted]
          exact nofun
    · have hsound : ((w.run us).step o).scheduler.IsSound :=
        keeps_isSound.perform (keeps_isSound.run h.isSound us) o
      obtain ⟨middle, rest, hvs, hmiddle, hrest⟩ :=
        word_of_started hsound hstarted (keeps_locked.perform hlock o) vs
      refine Or.inr ⟨w.history us, start, middle, rest, ?_, ?_⟩
      · rw [hhistory, hvs]
      · refine ⟨hbefore us hus, hbegins.1, ?_, ?_, hmiddle, hrest⟩
        · exact Moment.uses_of_use (m := start) hlock (Moment.use?_of_begins hbegins)
        · intro lock hslot hback
          have hresult := Scheduler.start_result_of_lock hbegins.2 hslot hback
          rw [Moment.reply_call hbegins.1]
          show some (start.scheduler.start o.store o.clock).answering.result = some .done
          unfold LockOutcome.answering
          rw [hresult]

/-! ### Locks that are replaced, and leases that were given back -/

theorem setLock_cases {m : Moment η} {lock : Lock} (h : m.event = .call (.setLock lock)) :
    (m.scheduler.state = .created ∧ m.reply = some .done ∧ m.after.scheduler.lock = some lock) ∨
      (∃ state, m.reply = some (.refused (.invalidState .setLock state))) ∧
        m.after.scheduler = m.scheduler := by
  obtain ⟨w, clock, store, event⟩ := m
  cases h
  by_cases hstate : w.scheduler.state = .created
  · have hset : w.scheduler.setLock lock =
        { result := .ok (), scheduler := { w.scheduler with lock := some lock } } := by
      unfold Scheduler.setLock
      rw [if_pos hstate]
    refine Or.inl ⟨hstate, ?_, ?_⟩
    · show some ((w.scheduler.setLock lock).answering store (.setLock lock)).result = _
      rw [hset]
      rfl
    · show (w.scheduler.setLock lock).scheduler.lock = some lock
      rw [hset]
  · have hset : w.scheduler.setLock lock =
        { result := .error (.invalidState .setLock w.scheduler.state)
          scheduler := w.scheduler } := by
      unfold Scheduler.setLock
      rw [if_neg hstate]
    refine Or.inr ⟨⟨w.scheduler.state, ?_⟩, ?_⟩
    · show some ((w.scheduler.setLock lock).answering store (.setLock lock)).result = _
      rw [hset]
      rfl
    · show (w.scheduler.setLock lock).scheduler = w.scheduler
      rw [hset]

theorem quiet_of_created {w : Service η} (h : w.scheduler.IsNew) {os : List (Occasion η)}
    (hcreated : (w.run os).scheduler.state = .created) :
    ∀ m ∈ w.history os, m.Rests ∧ (w.scheduler.engine = .clockwork → lockCalls m.effects = []) := by
  have hsteady := steady_of_created h.state hcreated
  intro m hm
  have hsound := keeps_isSound.history h.isSound hm
  obtain ⟨hb, he⟩ := hsteady m hm
  have hnot := Moment.not_renews hsound (by rw [hsteady.state hm, h.state]; exact nofun)
  refine ⟨Moment.rests hsound hb he hnot, fun hclockwork => ?_⟩
  have hengine : m.scheduler.engine.refusing = none := by
    refine keeps_clockwork.history ?_ hm
    rw [hclockwork]
    rfl
  have hstands := (hsteady.stays_of_mem hm).isRunning.trans h.isRunning
  have huse := Moment.use?_of_standing hsound hengine hstands hb he
  exact (Moment.rests_of_use (Or.inl huse)).2 huse

theorem lock_of_stopped {w : Service η} (h : w.scheduler.IsSound)
    (hstopped : w.scheduler.state = .stopped) {os : List (Occasion η)}
    (hos : ∀ o ∈ os, ∀ lock, o.event ≠ .turnLock lock) :
    (w.run os).scheduler.lock = w.scheduler.lock := by
  induction os generalizing w with
  | nil => rfl
  | cons o os ih =>
    let first : Moment η := { before := w, occasion := o }
    have hsteady := steady_of_stopped hstopped (o :: os)
    have hrests : first.Rests := by
      refine rests_of_steady h ?_ hsteady first List.mem_cons_self
      rw [hstopped]
      exact nofun
    have hslot : first.slot = w.scheduler.lock := by
      unfold Moment.slot
      split
      · next lock hevent => exact absurd hevent (hos o List.mem_cons_self lock)
      · refine if_neg ?_
        show w.scheduler.state ≠ .created
        rw [hstopped]
        exact nofun
      · rfl
    have hnext : (w.step o).scheduler.lock = w.scheduler.lock := hrests.lock.trans hslot
    have hstays : w.scheduler.Stays (w.step o).scheduler := by
      obtain ⟨hb, he⟩ := hsteady first List.mem_cons_self
      exact Moment.stays hb he
    rw [← hnext]
    exact ih (keeps_isSound.perform h o) (hstays.state.trans hstopped)
      fun p hp => hos p (List.mem_cons_of_mem _ hp)

theorem unheld_of_stop {w : Service η} (h : w.scheduler.IsSound) {o : Occasion η}
    (hends : ({ before := w, occasion := o } : Moment η).Ends) {lease : LeaseLock}
    (hlock : w.scheduler.lock = some (.lease lease)) {os : List (Occasion η)}
    (hos : ∀ p ∈ os, ∀ lock, p.event ≠ .turnLock lock) :
    ∃ l, (w.run (o :: os)).scheduler.lock = some (.lease l) ∧ ∀ now, l.hasLock now = false := by
  let stop : Moment η := { before := w, occasion := o }
  have hsome : stop.scheduler.lock ≠ none := by
    show w.scheduler.lock ≠ none
    rw [hlock]
    exact nofun
  obtain ⟨lock, hslot, hleaves⟩ := (Moment.givesBack_of_ends hsome hends).uses
  have hlease : lock = .lease lease := Option.some.inj (hslot.symm.trans hlock)
  have hleft := hleaves.lock
  rw [hlease, Lock.used_lease] at hleft
  refine ⟨_, (lock_of_stopped (keeps_isSound.perform h o) hends.after.1 hos).trans hleft, ?_⟩
  intro now
  unfold LeaseLock.used LeaseLock.hasLock
  rw [LeaseLock.tryUnlock_snd]

/-- Whatever is called and triggered in whatever order, and whatever the lock answers: it is taken
once at the start and once at each trigger of the entry that renews it, it is given back at most
once, and before and after that it is left alone. -/
theorem lock_word {w : Service η} (h : w.scheduler.IsNew) (os : List (Occasion η)) :
    LockWord w os where
  word := word_of_isNew h os
  setLock := by
    intro us o vs lock hos hevent m
    rcases setLock_cases (m := m) hevent with ⟨hcreated, hdone, hleft⟩ | hrefused
    · exact Or.inl ⟨hdone, hleft, quiet_of_created h hcreated⟩
    · exact Or.inr hrefused
  unheld := by
    rintro us o vs lease rfl hevent hdone hlock hvs
    rw [run_append]
    refine unheld_of_stop (keeps_isSound.run h.isSound us) ?_ hlock hvs
    by_contra hnot
    obtain ⟨e, hrefused⟩ :=
      Moment.reply_of_not_ends (m := { before := w.run us, occasion := o }) hevent hnot
    rw [hdone] at hrefused
    cases hrefused

/-- A lock is replaced before the start, another one is refused after it, and there is a second
start after the stop. -/
def shift : List (Occasion String) :=
  timetable
    [(0, .call (.setLock (.lease { name := "nightly", holder := "a", ttl := 30000000000 }))),
      (0, .call (.setLock (.lease { name := "nightly", holder := "b", ttl := 90000000000 }))),
      (0, .call .start), (60, .trigger (.timer 0) .completed),
      (61, .call (.setLock (.scripted {}))), (70, .call .stop), (71, .call .start)]

theorem shift_lock_word :
    let w : Service String := { scheduler := { engine := .clockwork } }
    w.scheduler.IsNew ∧ LockWord w shift ∧
      (w.history shift).map (fun m => tries m.effects) =
        [[], [], [.tryLock none], [.tryLock none], [], [.tryUnlock none], []] := by
  intro w
  have hnew : w.scheduler.IsNew :=
    { engine := Or.inl rfl, jobs := rfl, state := rfl, refreshEntry := rfl }
  refine ⟨hnew, lock_word hnew shift, ?_⟩
  decide +kernel

end Service
end RecurringJobs
