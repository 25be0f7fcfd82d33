import Mathlib.Data.Set.Card
import RecurringJobs.Proofs.ByteOrder
import RecurringJobs.Proofs.Scheduler.Roster

/-!
What a host sees of a scheduler, compared with its roster.

Calls that are answered as by the roster leave a registry that looks like it, so a host that keeps a
map of its own from names to plans, states and handlers is never surprised.
-/

namespace RecurringJobs

variable {η : Type}

theorem Execution.eq_of_parts {e f : Execution η} (hname : e.name = f.name)
    (hhandler : e.handler = f.handler) : e = f := by
  obtain ⟨name, handler⟩ := e
  cases hname
  cases hhandler
  rfl

structure JobView.IsOf (v : JobView) (name : String) (p : Posting η) : Prop where
  name : v.name = name
  plan : v.plan = p.plan
  paused : v.paused = p.paused

namespace Scheduler

/-- All that can be seen of the jobs of a scheduler is as in a roster.  The handlers are seen in the
entries of the engine, which are those of the active jobs. -/
structure Shows (s : Scheduler η) (b : Roster η) : Prop where
  contains : ∀ name, s.contains name = (b.jobs name).isSome
  size : s.size = {name | (b.jobs name).isSome}.ncard
  isEmpty_iff : s.isEmpty = true ↔ ∀ name, b.jobs name = none
  info_missing : ∀ name, b.jobs name = none → s.info name = .error (.notFound name)
  info : ∀ name p, b.jobs name = some p → ∃ v, s.info name = .ok v ∧ v.IsOf name p
  mem_list_iff : ∀ v, v ∈ s.list ↔ s.info v.name = .ok v
  list_ascending : (s.list.map JobView.name).Pairwise fun m n => Text.bytes m < Text.bytes n
  entry_iff : ∀ (plan : String) (e : Execution η),
    (∃ x ∈ s.engine.entries, x.text = plan ∧ x.callback = .job e) ↔
      b.jobs e.name = some { plan, paused := false, handler := e.handler }

theorem roster_isSome (s : Scheduler η) (name : String) :
    (s.roster.jobs name).isSome = s.jobs.contains name := by
  rw [roster_jobs, Option.isSome_map, Std.TreeMap.isSome_getElem?_eq_contains]

theorem size_eq_ncard (s : Scheduler η) :
    s.size = {name | (s.roster.jobs name).isSome}.ncard := by
  have hnodup : s.jobs.keys.Nodup := Std.TreeMap.nodup_keys
  have hset : {name | (s.roster.jobs name).isSome} = (s.jobs.keys.toFinset : Set String) := by
    ext name
    rw [Set.mem_ofPred_eq, roster_isSome]
    simp
  rw [hset, Set.ncard_coe_finset, List.toFinset_card_of_nodup hnodup, Std.TreeMap.length_keys]
  rfl

theorem isEmpty_eq_true_iff (s : Scheduler η) :
    s.isEmpty = true ↔ ∀ name, s.roster.jobs name = none := by
  unfold Scheduler.isEmpty
  rw [Std.TreeMap.isEmpty_iff_forall_contains]
  simp only [← roster_isSome, Option.isSome_eq_false_iff, Option.isNone_iff_eq_none]

theorem info_of_some {s : Scheduler η} {name : String} {r : JobRecord η}
    (h : s.jobs[name]? = some r) : s.info name = .ok (.ofRecord name r) := by
  unfold Scheduler.info
  rw [h]

theorem mem_list_iff_info (s : Scheduler η) (v : JobView) :
    v ∈ s.list ↔ s.info v.name = .ok v := by
  unfold Scheduler.list
  rw [List.mem_map]
  constructor
  · rintro ⟨⟨name, r⟩, hmem, rfl⟩
    exact info_of_some (Std.TreeMap.mem_toList_iff_getElem?_eq_some.mp hmem)
  · intro hinfo
    cases hname : s.jobs[v.name]? with
    | none => simp [Scheduler.info, hname] at hinfo
    | some r =>
      rw [info_of_some hname] at hinfo
      exact ⟨(v.name, r), Std.TreeMap.mem_toList_iff_getElem?_eq_some.mpr hname,
        Except.ok.inj hinfo⟩

theorem list_names (s : Scheduler η) : s.list.map JobView.name = s.jobs.keys := by
  unfold Scheduler.list
  rw [List.map_map, ← Std.TreeMap.map_fst_toList_eq_keys]
  rfl

theorem list_names_ascending (s : Scheduler η) :
    (s.list.map JobView.name).Pairwise fun m n => Text.bytes m < Text.bytes n := by
  rw [list_names]
  refine Std.TreeMap.ordered_keys.imp ?_
  intro m n hlt
  exact Text.bytes_lt_bytes (compareOfLessAndEq_eq_lt.mp hlt)

/-- The entries that run jobs are those of the active jobs. -/
theorem IsSound.entry_iff {s : Scheduler η} (h : s.IsSound) (plan : String) (e : Execution η) :
    (∃ x ∈ s.engine.entries, x.text = plan ∧ x.callback = .job e) ↔
      s.roster.jobs e.name = some { plan, paused := false, handler := e.handler } := by
  rw [roster_jobs]
  constructor
  · rintro ⟨x, hx, htext, hcallback⟩
    obtain ⟨r, hr, howns, hexecution⟩ := h.tallies.owns_of_callback hx hcallback
    rw [hr, Option.map_some, postingOf, howns.active, ← howns.text, htext, hexecution]
  · intro hposted
    obtain ⟨r, hr, hposting⟩ := Option.map_eq_some_iff.mp hposted
    obtain ⟨hplan, hpaused, hhandler⟩ := (Posting.mk.injEq ..).mp hposting
    rcases h.tallies.record e.name r hr with ⟨hinactive, -⟩ | ⟨x, hx, howns⟩
    · rw [hpaused] at hinactive
      cases hinactive
    · have hname := h.tallies.named e.name r hr
      have hexecution : r.execution = e := Execution.eq_of_parts hname hhandler
      exact ⟨x, hx, howns.text.trans hplan, by rw [howns.callback, hexecution]⟩

theorem IsSound.shows {s : Scheduler η} (h : s.IsSound) : s.Shows s.roster where
  contains name := (s.roster_isSome name).symm
  size := s.size_eq_ncard
  isEmpty_iff := s.isEmpty_eq_true_iff
  info_missing := by
    intro name hnone
    rw [roster_jobs, Option.map_eq_none_iff] at hnone
    unfold Scheduler.info
    rw [hnone]
  info := by
    intro name p hposted
    rw [roster_jobs] at hposted
    obtain ⟨r, hr, rfl⟩ := Option.map_eq_some_iff.mp hposted
    exact ⟨.ofRecord name r, info_of_some hr, rfl, rfl, rfl⟩
  mem_list_iff := s.mem_list_iff_info
  list_ascending := s.list_names_ascending
  entry_iff := h.entry_iff

end Scheduler

namespace Roster

theorem put_jobs_other (b : Roster η) {name n : String} (hn : n ≠ name) (p : Option (Posting η)) :
    (b.put name p).jobs n = b.jobs n := by
  show Function.update b.jobs name p n = b.jobs n
  rw [Function.update_of_ne hn]

/-- A call that names one job leaves all others alone. -/
theorem take_jobs_other (b : Roster η) (m : Scheduler.Move η) {n : String}
    (hn : m.name? ≠ some n) : (b.take m).2.jobs n = b.jobs n := by
  rcases b.take_cases m with hsame | ⟨name, p, hname, hput⟩ | ⟨refusing, hrefusing⟩
  · rw [hsame]
  · have hother : n ≠ name := by
      rintro rfl
      exact hn hname
    rw [hput, b.put_jobs_other hother]
  · rw [hrefusing]

end Roster

namespace Scheduler

theorem IsNew.roster_eq {s : Scheduler η} (h : s.IsNew) :
    s.roster = { hooked := s.ready.isSome, refusing := s.engine.refusing } := by
  refine Roster.ext ?_ rfl rfl
  funext name
  rw [roster_jobs, h.jobs]
  rfl

/-- After any history, every call is answered as by the roster that saw the same calls, the jobs
look like it, and a call that names one job leaves the others. -/
theorem run_answers_as_roster {s : Scheduler η} (h : s.IsNew) (ts : List (Turn η)) :
    let b := Roster.run { hooked := s.ready.isSome, refusing := s.engine.refusing }
      (ts.map Turn.move)
    (∀ now m, (s.run ts).answer now m = (b.take m).1) ∧ (s.run ts).Shows b ∧
      ∀ m n, m.name? ≠ some n → (b.take m).2.jobs n = b.jobs n := by
  intro b
  have hroster : (s.run ts).roster = b := by
    rw [run_roster, h.roster_eq]
  have hsound : (s.run ts).IsSound := h.isSound.run ts
  refine ⟨?_, ?_, ?_⟩
  · intro now m
    rw [answer_eq, hroster]
  · rw [← hroster]
    exact hsound.shows
  · intro m n hn
    exact b.take_jobs_other m hn

/-- A job is paused and resumed around a start, a removed name is used again, and one call after the
other is refused: a name in use, a plan that cannot be read, a name that was never added. -/
def rounds : List (Turn String) :=
  [.add "report" "@every 5s" "r", .pause "report", .add "report" "@daily" "r2", .start,
    .add "backup" "0 30 2 * * *" "b", .remove "backup", .add "backup" "@hourly" "b2",
    .resume "report", .add "prune" "often" "p", .pause "prune", .stop].map fun move =>
      { clock := { wall := { seconds := 0 } }, store := {}, move }

theorem rounds_answers :
    (solo.run rounds).answer { seconds := 9 } (.add "backup" "@daily" "b3") =
        some (.error (.alreadyExists "backup" "@hourly")) ∧
      (solo.run rounds).contains "prune" = false ∧
      ∃ v, (solo.run rounds).info "report" = .ok v ∧ v.plan = "@every 5s" ∧ v.paused = false := by
  have hnew : solo.IsNew :=
    { engine := Or.inl rfl, jobs := rfl, state := rfl, refreshEntry := rfl }
  obtain ⟨hanswers, hshows, -⟩ := run_answers_as_roster hnew rounds
  refine ⟨?_, ?_, ?_⟩
  · rw [hanswers]
    decide +kernel
  · rw [hshows.contains]
    decide +kernel
  · obtain ⟨v, hinfo, hof⟩ := hshows.info "report"
      { plan := "@every 5s", paused := false, handler := "r" } (by decide +kernel)
    exact ⟨v, hinfo, hof.plan, hof.paused⟩

end Scheduler
end RecurringJobs
