import Std.Data.TreeMap.Lemmas
import RecurringJobs.Proofs.Scheduler.Moves

/-!
The registry of a scheduler and the entries of its engine.

A job is kept twice: as a record in the registry and, while it is active, as an entry of the engine.
`Tallies` says that both fit, with one more entry for the lock when there is one.  Every call gives
up an entry with the handle it keeps of it, and keeps the handle of an entry that it makes, also
where it gives up halfway.
-/

namespace RecurringJobs

variable {η : Type}

/-- An entry is that of a record: the record keeps its number, and it was made for the plan and the
handler of the record. -/
structure JobRecord.Owns (r : JobRecord η) (x : Entry η) : Prop where
  active : r.paused = false
  entryId : r.entryId = some x.id
  text : x.text = r.plan
  callback : x.callback = .job r.execution

/-- The records and the entries fit, where `refresh` is the handle of the entry that renews the
lock. -/
structure Tallies (e : Engine η) (jobs : Std.TreeMap String (JobRecord η))
    (refresh : Option Nat) : Prop where
  engine : e.IsSound
  named : ∀ (name : String) (r : JobRecord η), jobs[name]? = some r → r.execution.name = name
  record : ∀ (name : String) (r : JobRecord η), jobs[name]? = some r →
    (r.paused = true ∧ r.entryId = none) ∨ ∃ x ∈ e.entries, r.Owns x
  renewal : ∀ id, refresh = some id → ∃ x ∈ e.entries, x.id = id ∧ x.callback = .refresh
  owned : ∀ x ∈ e.entries,
    refresh = some x.id ∨ ∃ (name : String) (r : JobRecord η), jobs[name]? = some r ∧ r.Owns x

namespace Tallies

variable {e e' : Engine η} {jobs jobs' : Std.TreeMap String (JobRecord η)} {refresh : Option Nat}

theorem owns_of_entryId (h : Tallies e jobs refresh) {name : String} {r : JobRecord η} {id : Nat}
    (hr : jobs[name]? = some r) (hid : r.entryId = some id) :
    ∃ x ∈ e.entries, x.id = id ∧ r.Owns x := by
  rcases h.record name r hr with ⟨-, hnone⟩ | ⟨x, hx, howns⟩
  · rw [hid] at hnone
    cases hnone
  · have hsame := howns.entryId.symm.trans hid
    exact ⟨x, hx, Option.some.inj hsame, howns⟩

/-- No two jobs keep the same handle: its entry runs under one name. -/
theorem name_eq (h : Tallies e jobs refresh) {m n : String} {q r : JobRecord η} {id : Nat}
    (hq : jobs[m]? = some q) (hr : jobs[n]? = some r) (hqid : q.entryId = some id)
    (hrid : r.entryId = some id) : m = n := by
  obtain ⟨x, hx, hxid, hqx⟩ := h.owns_of_entryId hq hqid
  obtain ⟨y, hy, hyid, hry⟩ := h.owns_of_entryId hr hrid
  have hxy : x = y := h.engine.eq_of_id_eq hx hy (hxid.trans hyid.symm)
  have hsame : Callback.job q.execution = Callback.job r.execution := by
    rw [← hqx.callback, ← hry.callback, hxy]
  have hexecution := Callback.job.inj hsame
  rw [← h.named m q hq, ← h.named n r hr, hexecution]

theorem refresh_ne (h : Tallies e jobs refresh) {name : String} {r : JobRecord η} {id : Nat}
    (hr : jobs[name]? = some r) (hid : r.entryId = some id) : refresh ≠ some id := by
  intro hrefresh
  obtain ⟨x, hx, hxid, hrx⟩ := h.owns_of_entryId hr hid
  obtain ⟨y, hy, hyid, hcallback⟩ := h.renewal id hrefresh
  have hxy : x = y := h.engine.eq_of_id_eq hx hy (hxid.trans hyid.symm)
  rw [← hxy, hrx.callback] at hcallback
  cases hcallback

/-- The record of an entry is not one that keeps no handle. -/
theorem ne_of_owns {name n : String} {q : JobRecord η} {y : Entry η}
    (hfree : ∀ r : JobRecord η, jobs[name]? = some r → r.entryId = none) (hq : jobs[n]? = some q)
    (hqy : q.Owns y) : name ≠ n := by
  rintro rfl
  have hnone := hfree q hq
  rw [hqy.entryId] at hnone
  cases hnone

/-- An entry that runs a job is that of the record under the job's name. -/
theorem owns_of_callback (h : Tallies e jobs refresh) {x : Entry η} (hx : x ∈ e.entries)
    {run : Execution η} (hcallback : x.callback = .job run) :
    ∃ r : JobRecord η, jobs[run.name]? = some r ∧ r.Owns x ∧ r.execution = run := by
  rcases h.owned x hx with hrefresh | ⟨name, r, hr, howns⟩
  · obtain ⟨y, hy, hyid, hrenews⟩ := h.renewal x.id hrefresh
    have hyx : y = x := h.engine.eq_of_id_eq hy hx hyid
    rw [hyx, hcallback] at hrenews
    cases hrenews
  · have hexecution : r.execution = run := Callback.job.inj (howns.callback.symm.trans hcallback)
    have hname : name = run.name := by rw [← hexecution, h.named name r hr]
    rw [hname] at hr
    exact ⟨r, hr, howns, hexecution⟩

/-! ## What the operations keep -/

theorem of_entries (h : Tallies e jobs refresh) (hsound : e'.IsSound)
    (hentries : e'.entries = e.entries) : Tallies e' jobs refresh where
  engine := hsound
  named := h.named
  record := by
    rw [hentries]
    exact h.record
  renewal := by
    rw [hentries]
    exact h.renewal
  owned := by
    rw [hentries]
    exact h.owned

theorem insert (h : Tallies e jobs refresh) (hsound : e'.IsSound) {now : Instant} {x : Entry η}
    (hreg : e.Registers now x e') {name : String} {r : JobRecord η} (hname : r.execution.name = name)
    (howns : r.Owns x) (hfree : ∀ q : JobRecord η, jobs[name]? = some q → q.entryId = none) :
    Tallies e' (jobs.insert name r) refresh := by
  have hget : ∀ n : String, (jobs.insert name r)[n]? = if name = n then some r else jobs[n]? := by
    intro n
    rw [Std.TreeMap.getElem?_insert]
    simp
  refine ⟨hsound, ?_, ?_, ?_, ?_⟩
  · intro n q hq
    rw [hget] at hq
    split at hq
    · next heq =>
      cases hq
      rw [hname, heq]
    · exact h.named n q hq
  · intro n q hq
    rw [hget] at hq
    split at hq
    · cases hq
      exact Or.inr ⟨x, hreg.mem_entries.mpr (Or.inr rfl), howns⟩
    · rcases h.record n q hq with hpaused | ⟨y, hy, hqy⟩
      · exact Or.inl hpaused
      · exact Or.inr ⟨y, hreg.mem_entries.mpr (Or.inl hy), hqy⟩
  · intro id hid
    obtain ⟨y, hy, hyid⟩ := h.renewal id hid
    exact ⟨y, hreg.mem_entries.mpr (Or.inl hy), hyid⟩
  · intro y hy
    rcases hreg.mem_entries.mp hy with hy | rfl
    · rcases h.owned y hy with hrefresh | ⟨n, q, hq, hqy⟩
      · exact Or.inl hrefresh
      · -- the record of an old entry is not the one that is replaced
        refine Or.inr ⟨n, q, ?_, hqy⟩
        rw [hget, if_neg (ne_of_owns hfree hq hqy)]
        exact hq
    · refine Or.inr ⟨name, r, ?_, howns⟩
      rw [hget, if_pos rfl]

theorem install (h : Tallies e jobs none) (hsound : e'.IsSound) {now : Instant} {x : Entry η}
    (hreg : e.Registers now x e') (hcallback : x.callback = .refresh) :
    Tallies e' jobs (some x.id) := by
  refine ⟨hsound, h.named, ?_, ?_, ?_⟩
  · intro n q hq
    rcases h.record n q hq with hpaused | ⟨y, hy, hqy⟩
    · exact Or.inl hpaused
    · exact Or.inr ⟨y, hreg.mem_entries.mpr (Or.inl hy), hqy⟩
  · intro id hid
    cases hid
    exact ⟨x, hreg.mem_entries.mpr (Or.inr rfl), rfl, hcallback⟩
  · intro y hy
    rcases hreg.mem_entries.mp hy with hy | rfl
    · rcases h.owned y hy with hrefresh | howned
      · cases hrefresh
      · exact Or.inr howned
    · exact Or.inl rfl

/-- An entry is removed, and with it the handle, wherever it was kept. -/
theorem unregister (h : Tallies e jobs refresh) (id : Nat) {refresh' : Option Nat}
    (hjobs : ∀ (n : String) (q : JobRecord η), jobs'[n]? = some q →
      (q.execution.name = n ∧ q.paused = true ∧ q.entryId = none) ∨
        jobs[n]? = some q ∧ q.entryId ≠ some id)
    (hkept : ∀ (n : String) (q : JobRecord η), jobs[n]? = some q → ∀ m, q.entryId = some m →
      m ≠ id → jobs'[n]? = some q)
    (hrefresh : ∀ m, refresh' = some m ↔ refresh = some m ∧ m ≠ id) :
    Tallies (e.unregister id).1 jobs' refresh' := by
  refine ⟨h.engine.unregister id, ?_, ?_, ?_, ?_⟩
  · intro n q hq
    rcases hjobs n q hq with ⟨hname, -, -⟩ | ⟨hq, -⟩
    · exact hname
    · exact h.named n q hq
  · intro n q hq
    rcases hjobs n q hq with ⟨-, hpaused⟩ | ⟨hq, hne⟩
    · exact Or.inl hpaused
    · rcases h.record n q hq with hpaused | ⟨y, hy, hqy⟩
      · exact Or.inl hpaused
      · rw [hqy.entryId] at hne
        have hother : y.id ≠ id := fun heq => hne (congrArg some heq)
        exact Or.inr ⟨y, Engine.mem_unregister_entries.mpr ⟨hy, hother⟩, hqy⟩
  · intro m hm
    obtain ⟨hm, hne⟩ := (hrefresh m).mp hm
    obtain ⟨y, hy, rfl, hcallback⟩ := h.renewal m hm
    exact ⟨y, Engine.mem_unregister_entries.mpr ⟨hy, hne⟩, rfl, hcallback⟩
  · intro y hy
    obtain ⟨hy, hne⟩ := Engine.mem_unregister_entries.mp hy
    rcases h.owned y hy with hmine | ⟨n, q, hq, hqy⟩
    · exact Or.inl ((hrefresh y.id).mpr ⟨hmine, hne⟩)
    · exact Or.inr ⟨n, q, hkept n q hq y.id hqy.entryId hne, hqy⟩

/-- The entry of a job is removed, and its record is deleted or marked as paused. -/
theorem unregister_job (h : Tallies e jobs refresh) {name : String} {r : JobRecord η} {id : Nat}
    (hr : jobs[name]? = some r) (hid : r.entryId = some id)
    (hothers : ∀ n : String, n ≠ name → jobs'[n]? = jobs[n]?)
    (hself : ∀ q : JobRecord η, jobs'[name]? = some q →
      q.execution.name = name ∧ q.paused = true ∧ q.entryId = none) :
    Tallies (e.unregister id).1 jobs' refresh := by
  refine h.unregister id ?_ ?_ ?_
  · intro n q hq
    by_cases hn : n = name
    · subst hn
      exact Or.inl (hself q hq)
    · rw [hothers n hn] at hq
      exact Or.inr ⟨hq, fun hqid => hn (h.name_eq hq hr hqid hid)⟩
  · intro n q hq m hm hne
    have hn : n ≠ name := by
      rintro rfl
      rw [hr] at hq
      cases hq
      rw [hid] at hm
      exact hne (Option.some.inj hm).symm
    rw [hothers n hn]
    exact hq
  · intro m
    constructor
    · intro hm
      refine ⟨hm, ?_⟩
      rintro rfl
      exact h.refresh_ne hr hid hm
    · exact And.left

theorem unregister_refresh {id : Nat} (h : Tallies e jobs (some id)) :
    Tallies (e.unregister id).1 jobs none := by
  refine h.unregister id ?_ ?_ ?_
  · intro n q hq
    exact Or.inr ⟨hq, fun hqid => h.refresh_ne hq hqid rfl⟩
  · intro n q hq m hm hne
    exact hq
  · intro m
    simp [eq_comm]

theorem erase_paused (h : Tallies e jobs refresh) {name : String}
    (hfree : ∀ r : JobRecord η, jobs[name]? = some r → r.entryId = none) :
    Tallies e (jobs.erase name) refresh := by
  have hget : ∀ n : String, (jobs.erase name)[n]? = if name = n then none else jobs[n]? := by
    intro n
    rw [Std.TreeMap.getElem?_erase]
    simp
  have hold : ∀ (n : String) (q : JobRecord η), (jobs.erase name)[n]? = some q →
      jobs[n]? = some q := by
    intro n q hq
    rw [hget] at hq
    split at hq
    · cases hq
    · exact hq
  refine ⟨h.engine, ?_, ?_, h.renewal, ?_⟩
  · intro n q hq
    exact h.named n q (hold n q hq)
  · intro n q hq
    exact h.record n q (hold n q hq)
  · intro y hy
    rcases h.owned y hy with hrefresh | ⟨n, q, hq, hqy⟩
    · exact Or.inl hrefresh
    · refine Or.inr ⟨n, q, ?_, hqy⟩
      rw [hget, if_neg (ne_of_owns hfree hq hqy)]
      exact hq

end Tallies

/-! ## Runs -/

namespace Scheduler

/-- The invariant: the records and the entries fit, and there is an entry for the lock only while a
scheduler with a lock is started. -/
structure IsSound (s : Scheduler η) : Prop where
  tallies : Tallies s.engine s.jobs s.refreshEntry
  refreshing : s.refreshEntry ≠ none → s.state = .started ∧ s.lock ≠ none

theorem IsNew.isSound {s : Scheduler η} (h : s.IsNew) : s.IsSound := by
  refine ⟨⟨h.engine_isSound, ?_, ?_, ?_, ?_⟩, ?_⟩
  · intro name r hr
    simp [h.jobs] at hr
  · intro name r hr
    simp [h.jobs] at hr
  · intro id hid
    rw [h.refreshEntry] at hid
    cases hid
  · intro x hx
    rw [h.entries] at hx
    cases hx
  · intro hsome
    exact absurd h.refreshEntry hsome

namespace IsSound

variable {s : Scheduler η}

theorem add (h : s.IsSound) (now : Instant) (name plan : String) (handler : η) :
    (s.add now name plan handler).scheduler.IsSound := by
  unfold Scheduler.add
  cases hname : s.jobs[name]? with
  | some existing => exact h
  | none =>
    have hsound := h.tallies.engine.register now plan (.job { name, handler })
    rcases s.engine.register_cases now plan (.job { name, handler }) with
      ⟨parsed, e', es, hr, hreg⟩ | ⟨error, hr⟩
    · simp only [hr] at hsound ⊢
      refine ⟨h.tallies.insert hsound hreg rfl ⟨rfl, rfl, rfl, rfl⟩ ?_, h.refreshing⟩
      intro q hq
      rw [hname] at hq
      cases hq
    · simp only [hr]
      exact h

theorem addOnReady (h : s.IsSound) (now : Instant) (name plan : String) (handler : η) :
    (s.addOnReady now name plan handler).scheduler.IsSound := by
  unfold Scheduler.addOnReady
  cases s.ready with
  | none => exact h
  | some signal =>
    have hadded := h.add now name plan handler
    cases hresult : (s.add now name plan handler).result with
    | error error =>
      simp only [hresult]
      exact hadded
    | ok _ =>
      simp only [hresult]
      exact ⟨hadded.tallies, hadded.refreshing⟩

theorem remove (h : s.IsSound) (name : String) : (s.remove name).scheduler.IsSound := by
  unfold Scheduler.remove
  cases hr : s.jobs[name]? with
  | none => exact h
  | some r =>
    rcases h.tallies.record name r hr with ⟨hpaused, hnone⟩ | ⟨x, hx, howns⟩
    · simp only [hpaused]
      refine ⟨h.tallies.erase_paused ?_, h.refreshing⟩
      intro q hq
      rw [hr] at hq
      cases hq
      exact hnone
    · simp only [howns.active, howns.entryId]
      refine ⟨h.tallies.unregister_job hr howns.entryId ?_ ?_, h.refreshing⟩
      · intro n hn
        rw [Std.TreeMap.getElem?_erase]
        simp [Ne.symm hn]
      · intro q hq
        simp at hq

theorem pause (h : s.IsSound) (name : String) : (s.pause name).scheduler.IsSound := by
  unfold Scheduler.pause
  cases hr : s.jobs[name]? with
  | none => exact h
  | some r =>
    rcases h.tallies.record name r hr with ⟨hpaused, hnone⟩ | ⟨x, hx, howns⟩
    · simp only [hpaused, if_true]
      exact h
    · simp only [howns.active, howns.entryId, Bool.false_eq_true, if_false]
      refine ⟨h.tallies.unregister_job hr howns.entryId ?_ ?_, h.refreshing⟩
      · intro n hn
        rw [Std.TreeMap.getElem?_insert]
        simp [Ne.symm hn]
      · intro q hq
        rw [Std.TreeMap.getElem?_insert_self] at hq
        cases hq
        exact ⟨h.tallies.named name r hr, rfl, rfl⟩

theorem resume (h : s.IsSound) (now : Instant) (name : String) :
    (s.resume now name).scheduler.IsSound := by
  unfold Scheduler.resume
  cases hr : s.jobs[name]? with
  | none => exact h
  | some r =>
    rcases h.tallies.record name r hr with ⟨hpaused, hnone⟩ | ⟨x, hx, howns⟩
    · simp only [hpaused, Bool.not_true, Bool.false_eq_true, if_false]
      have hsound := h.tallies.engine.register now r.plan (.job r.execution)
      rcases s.engine.register_cases now r.plan (.job r.execution) with
        ⟨parsed, e', es, hreg, hregisters⟩ | ⟨error, hreg⟩
      · simp only [hreg] at hsound ⊢
        have hname := h.tallies.named name r hr
        refine ⟨h.tallies.insert hsound hregisters hname ⟨rfl, rfl, rfl, rfl⟩ ?_, h.refreshing⟩
        intro q hq
        rw [hr] at hq
        cases hq
        exact hnone
      · simp only [hreg]
        exact h
    · simp only [howns.active, Bool.not_false, if_true]
      exact h

theorem setLock (h : s.IsSound) (lock : Lock) : (s.setLock lock).scheduler.IsSound := by
  unfold Scheduler.setLock
  split
  · refine ⟨h.tallies, ?_⟩
    intro hsome
    exact ⟨(h.refreshing hsome).1, Option.some_ne_none lock⟩
  · exact h

theorem acquire (h : s.IsSound) (store : LeaseStore) (now : Nat) :
    (s.acquire store now).scheduler.IsSound := by
  rw [acquire_scheduler]
  refine ⟨h.tallies, ?_⟩
  intro hsome
  obtain ⟨hstate, hlock⟩ := h.refreshing hsome
  exact ⟨hstate, by simpa using hlock⟩

theorem installRefresh (h : s.IsSound) (now : Instant) (hnone : s.refreshEntry = none)
    (hstate : s.state = .started) (hlock : s.lock ≠ none) :
    (s.installRefresh now).1.IsSound := by
  unfold Scheduler.installRefresh
  have htallies := h.tallies
  rw [hnone] at htallies
  have hsound := htallies.engine.register now s.refreshPlan .refresh
  rcases s.engine.register_cases now s.refreshPlan .refresh with
    ⟨parsed, e', es, hr, hreg⟩ | ⟨error, hr⟩
  · simp only [hr] at hsound ⊢
    exact ⟨htallies.install hsound hreg rfl, fun _ => ⟨hstate, hlock⟩⟩
  · simp only [hr]
    exact h

theorem withEngine (h : s.IsSound) {engine : Engine η} (hsound : engine.IsSound)
    (hentries : engine.entries = s.engine.entries) : ({ s with engine } : Scheduler η).IsSound :=
  ⟨h.tallies.of_entries hsound hentries, h.refreshing⟩

theorem start (h : s.IsSound) (store : LeaseStore) (clock : Clock) :
    (s.start store clock).scheduler.IsSound := by
  unfold Scheduler.start
  split
  · exact h
  · next hcreated =>
    have hstate : s.state = .created := Decidable.not_not.mp hcreated
    have hnone : s.refreshEntry = none := by
      refine Decidable.not_not.mp fun hsome => ?_
      have hstarted := (h.refreshing hsome).1
      rw [hstate] at hstarted
      cases hstarted
    let begun : Scheduler η := { s with state := .started }
    have hbegun : begun.IsSound := ⟨h.tallies, fun hsome => absurd hnone hsome⟩
    have htried := hbegun.acquire store clock.elapsed
    have hlocks := begun.acquire_scheduler store clock.elapsed
    have hstarted : (begun.acquire store clock.elapsed).scheduler.state = .started := by
      rw [hlocks]
    have hfree : (begun.acquire store clock.elapsed).scheduler.refreshEntry = none := by
      rw [hlocks]
      exact hnone
    show (if (begun.acquire store clock.elapsed).result = .crashed then _ else _ :
      LockOutcome η (Except LifecycleFault Unit)).scheduler.IsSound
    split
    · exact htried
    · cases hlock : (begun.acquire store clock.elapsed).scheduler.lock with
      | none => exact htried.withEngine (htried.tallies.engine.start _) (Engine.start_entries _ _)
      | some lock =>
        have hsome : (begun.acquire store clock.elapsed).scheduler.lock ≠ none := by
          rw [hlock]
          exact Option.some_ne_none lock
        have hinstalled := htried.installRefresh clock.wall hfree hstarted hsome
        exact hinstalled.withEngine (hinstalled.tallies.engine.start _) (Engine.start_entries _ _)

theorem stop (h : s.IsSound) (store : LeaseStore) (now : Nat) :
    (s.stop store now).scheduler.IsSound := by
  unfold Scheduler.stop
  split
  · exact h
  · have hstopped : Tallies s.engine.stop.1 s.jobs s.refreshEntry :=
      h.tallies.of_entries h.tallies.engine.stop (Engine.stop_entries _)
    cases hrefresh : s.refreshEntry with
    | none =>
      rw [hrefresh] at hstopped
      cases s.lock with
      | none => exact ⟨hstopped, fun hsome => absurd rfl hsome⟩
      | some lock => exact ⟨hstopped, fun hsome => absurd rfl hsome⟩
    | some id =>
      rw [hrefresh] at hstopped
      have hremoved := hstopped.unregister_refresh
      cases s.lock with
      | none => exact ⟨hremoved, fun hsome => absurd rfl hsome⟩
      | some lock => exact ⟨hremoved, fun hsome => absurd rfl hsome⟩

theorem take (h : s.IsSound) (store : LeaseStore) (clock : Clock) (m : Move η) :
    (s.take store clock m).scheduler.IsSound := by
  cases m with
  | add name plan handler => exact h.add clock.wall name plan handler
  | addOnReady name plan handler => exact h.addOnReady clock.wall name plan handler
  | remove name => exact h.remove name
  | pause name => exact h.pause name
  | resume name => exact h.resume clock.wall name
  | setLock lock => exact h.setLock lock
  | start => exact h.start store clock
  | stop => exact h.stop store clock.elapsed
  | notify =>
    show s.notify.scheduler.IsSound
    unfold Scheduler.notify
    cases s.ready with
    | none => exact h
    | some signal => exact ⟨h.tallies, h.refreshing⟩
  | setRejecting rejecting =>
    exact h.withEngine (h.tallies.engine.setRejecting rejecting) (Engine.setRejecting_entries _ _)
  | fire serial =>
    show (s.fire clock.wall serial).scheduler.IsSound
    rw [fire_scheduler]
    exact h.withEngine (h.tallies.engine.fired serial clock.wall) (Engine.fired_entries _ _ _)
  | callback c =>
    cases c with
    | job e => exact h
    | refresh => exact h.acquire store clock.elapsed
    | host label => exact h
  | readyCallback c =>
    cases c with
    | job e => exact h
    | host label => exact h

theorem run (h : s.IsSound) (ts : List (Turn η)) : (s.run ts).IsSound := by
  induction ts generalizing s with
  | nil => exact h
  | cons t ts ih => exact ih (h.take t.store t.clock t.move)

end IsSound

/-- What a host can see of the registry, the engine and the handles between them. -/
structure IsConsistent (s : Scheduler η) : Prop where
  entryId_iff : ∀ (name : String) (r : JobRecord η), s.jobs[name]? = some r →
    (r.entryId.isSome = true ↔ r.paused = false)
  live_iff : ∀ id, (∃ x ∈ s.engine.entries, x.id = id) ↔
    s.refreshEntry = some id ∨
      ∃ (name : String) (r : JobRecord η), s.jobs[name]? = some r ∧ r.paused = false ∧
        r.entryId = some id
  ids_nodup : (s.engine.entries.map Entry.id).Nodup
  job_unique : ∀ (m n : String) (q r : JobRecord η) (id : Nat), s.jobs[m]? = some q →
    s.jobs[n]? = some r → q.entryId = some id → r.entryId = some id → m = n
  refresh_apart : ∀ (name : String) (r : JobRecord η) (id : Nat), s.jobs[name]? = some r →
    r.entryId = some id → s.refreshEntry ≠ some id
  entry_of_active : ∀ (name : String) (r : JobRecord η), s.jobs[name]? = some r →
    r.paused = false →
      ∃ x ∈ s.engine.entries, r.entryId = some x.id ∧ x.text = r.plan ∧
        Plan.parse r.plan = .ok x.plan ∧ x.callback = .job r.execution
  refresh_started : s.refreshEntry.isSome = true → s.state = .started ∧ s.lock.isSome = true

theorem IsSound.isConsistent {s : Scheduler η} (h : s.IsSound) : s.IsConsistent := by
  have hactive : ∀ (name : String) (r : JobRecord η), s.jobs[name]? = some r →
      r.paused = false → ∃ x ∈ s.engine.entries, r.Owns x := by
    intro name r hr hon
    rcases h.tallies.record name r hr with ⟨hpaused, -⟩ | howned
    · rw [hon] at hpaused
      cases hpaused
    · exact howned
  refine ⟨?_, ?_, ?_, ?_, ?_, ?_, ?_⟩
  · intro name r hr
    rcases h.tallies.record name r hr with ⟨hpaused, hnone⟩ | ⟨x, -, howns⟩
    · simp [hpaused, hnone]
    · simp [howns.active, howns.entryId]
  · intro id
    constructor
    · rintro ⟨x, hx, rfl⟩
      rcases h.tallies.owned x hx with hrefresh | ⟨name, r, hr, howns⟩
      · exact Or.inl hrefresh
      · exact Or.inr ⟨name, r, hr, howns.active, howns.entryId⟩
    · rintro (hrefresh | ⟨name, r, hr, -, hid⟩)
      · obtain ⟨x, hx, hxid, -⟩ := h.tallies.renewal id hrefresh
        exact ⟨x, hx, hxid⟩
      · obtain ⟨x, hx, hxid, -⟩ := h.tallies.owns_of_entryId hr hid
        exact ⟨x, hx, hxid⟩
  · exact h.tallies.engine.ids_nodup
  · intro m n q r id hq hr hqid hrid
    exact h.tallies.name_eq hq hr hqid hrid
  · intro name r id hr hid
    exact h.tallies.refresh_ne hr hid
  · intro name r hr hon
    obtain ⟨x, hx, howns⟩ := hactive name r hr hon
    have hparsed := h.tallies.engine.parsed x hx
    rw [howns.text] at hparsed
    exact ⟨x, hx, howns.entryId, howns.text, hparsed, howns.callback⟩
  · intro hsome
    have hrefresh : s.refreshEntry ≠ none := Option.isSome_iff_ne_none.mp hsome
    obtain ⟨hstate, hlock⟩ := h.refreshing hrefresh
    exact ⟨hstate, Option.isSome_iff_ne_none.mpr hlock⟩

/-- Whatever is called and triggered in whatever order, the registry and the engine are consistent:
no entry without a handle, no handle without its entry, and none that is kept twice. -/
theorem run_isConsistent {s : Scheduler η} (h : s.IsNew) (ts : List (Turn η)) :
    (s.run ts).IsConsistent := by
  have hsound : (s.run ts).IsSound := h.isSound.run ts
  exact hsound.isConsistent

def solo : Scheduler String :=
  { engine := .clockwork
    lock := some (.lease { name := "nightly", holder := "a", ttl := 30000000000 }) }

/-- One job is paused before the start and resumed after it, another one is removed in between, and
a plan that cannot be read is refused. -/
def errands : List (Turn String) :=
  [.add "report" "@every 5s" "r", .add "backup" "0 30 2 * * *" "b", .pause "report", .start,
    .add "prune" "often" "p", .remove "backup", .resume "report"].map fun move =>
      { clock := { wall := { seconds := 0 } }, store := {}, move }

theorem errands_isConsistent :
    (solo.run errands).IsConsistent ∧ (solo.run errands).refreshEntry = some 3 ∧
      (solo.run errands).engine.entries.map Entry.id = [3, 4] := by
  have hnew : solo.IsNew :=
    { engine := Or.inl rfl, jobs := rfl, state := rfl, refreshEntry := rfl }
  refine ⟨run_isConsistent hnew errands, ?_, ?_⟩
  · decide +kernel
  · decide +kernel

end Scheduler
end RecurringJobs
