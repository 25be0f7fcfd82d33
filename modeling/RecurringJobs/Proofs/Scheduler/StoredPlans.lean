import RecurringJobs.Proofs.Plan.Listing
import RecurringJobs.Proofs.Scheduler.Provenance

/-!
The plans in the registry of a scheduler whose engine is driven by clockwork.

A plan comes into the registry by an addition that the engine took (`AddedIn`), and what an engine
takes can be read (`Adds.parses`).  The registry, the engine and a listing of triggers read the same
text, so a job that is paused can always be resumed, and what a view lists are the triggers of the
plan that was added.
-/

namespace RecurringJobs

variable {η : Type}

theorem parses_of_no_refusal {refusing : Option Bool} {text : String}
    (h : refusal? refusing text = none) : ∃ plan, Plan.parse text = .ok plan := by
  unfold refusal? at h
  split at h
  · cases h
  · cases hparse : Plan.parse text with
    | ok plan => exact ⟨plan, rfl⟩
    | error e =>
      rw [hparse] at h
      cases h

theorem no_refusal_of_parse {text : String} {plan : Plan} (h : Plan.parse text = .ok plan) :
    refusal? none text = none := by
  unfold refusal?
  rw [if_neg nofun, h]

namespace Scheduler

theorem failure_ne_done (c : Call η) (e : SchedulerError) : c.failure e ≠ .done := by
  unfold Call.failure
  split <;> nofun

theorem objection?_of_done {s : Scheduler η} {store : LeaseStore} {clock : Clock} {c : Call η}
    (h : (s.ask store clock c).result = .done) : s.objection? c = none := by
  have hminds := s.ask_minds store clock c
  cases hobjection : s.objection? c with
  | none => rfl
  | some e =>
    rw [hobjection] at hminds
    exact absurd (hminds.1.symm.trans h) (failure_ne_done c e)

theorem parses_of_no_objection {s : Scheduler η} {name text : String}
    (h : s.addObjection? name text = none) : ∃ plan, Plan.parse text = .ok plan := by
  unfold addObjection? at h
  cases hname : s.jobs[name]? with
  | some r =>
    rw [hname] at h
    cases h
  | none =>
    rw [hname] at h
    exact parses_of_no_refusal (Option.map_eq_none_iff.mp h)

/-- A scheduler on clockwork whose records all have plans that can be read takes up every job that
it has, and no other. -/
theorem resume_result {s : Scheduler η} (hwork : s.engine.refusing = none)
    (hread : ∀ (name : String) (r : JobRecord η), s.jobs[name]? = some r →
      ∃ plan, Plan.parse r.plan = .ok plan) (now : Instant) (name : String) :
    (s.resume now name).result =
      if s.contains name then .ok () else .error (.notFound name) := by
  have hheeds := s.resume_heeds now name
  have hcontains : s.contains name = s.jobs[name]?.isSome :=
    Std.TreeMap.isSome_getElem?_eq_contains.symm
  unfold resumeObjection? at hheeds
  rw [hcontains]
  cases hname : s.jobs[name]? with
  | none =>
    rw [hname] at hheeds
    exact hheeds.1
  | some r =>
    obtain ⟨plan, hplan⟩ := hread name r hname
    rw [hname, hwork] at hheeds
    dsimp only at hheeds
    rw [no_refusal_of_parse hplan, Option.map_none, ite_self] at hheeds
    exact hheeds

end Scheduler

namespace Service

theorem Moment.Adds.parses {m : Moment η} {name text : String} {handler : η}
    (h : m.Adds name text handler) : ∃ plan, Plan.parse text = .ok plan := by
  obtain ⟨hdone, must, hevent | hevent⟩ := h
  · rw [reply_call hevent] at hdone
    have hnone := Scheduler.objection?_of_done (Option.some.inj hdone)
    exact Scheduler.parses_of_no_objection hnone
  · rw [reply_call hevent] at hdone
    have hnone := Scheduler.objection?_of_done (Option.some.inj hdone)
    unfold Scheduler.objection? at hnone
    dsimp only at hnone
    split at hnone
    · exact Scheduler.parses_of_no_objection hnone
    · cases hnone

theorem AddedIn.parses {ms : List (Moment η)} {name text : String} {handler : η}
    (h : AddedIn ms name text handler) : ∃ plan, Plan.parse text = .ok plan := by
  obtain ⟨before, m, after, -, hadds, -⟩ := h
  exact hadds.parses

/-- Every record of a scheduler that was new comes from an addition. -/
theorem record_addedIn {w : Service η} (h : w.scheduler.IsNew) {past : List (Occasion η)}
    {name : String} {r : JobRecord η} (hr : (w.run past).scheduler.jobs[name]? = some r) :
    AddedIn (w.history past) name r.plan r.execution.handler := by
  have hposted : (w.run past).scheduler.roster.jobs name = some (Scheduler.postingOf r) := by
    rw [Scheduler.roster_jobs, hr]
    rfl
  rcases run_origin hposted with hadded | ⟨-, q, hq, -⟩
  · exact hadded
  · rw [Scheduler.roster_jobs, h.jobs] at hq
    exact absurd hq nofun

/-- What a view lists are the triggers of the plan, as far as there can be such a list. -/
structure Lists (v : JobView) (plan : Plan) : Prop where
  parse : Plan.parse v.plan = .ok plan
  nextFrom : ∀ start count,
    v.nextFrom start count = (plan.upcoming start count).mapError .unlisted
  isOk : ∀ start count, count ≤ Plan.longestList → (0 < count → plan.StaysInRange start) →
    ∃ times, plan.upcoming start count = .ok times ∧ v.nextFrom start count = .ok times

theorem lists_of_parse {v : JobView} {plan : Plan} (h : Plan.parse v.plan = .ok plan) :
    Lists v plan := by
  refine ⟨h, fun start count => Plan.parseNext_of_parse h start count, ?_⟩
  intro start count hcount hrange
  have hfound : ∃ times, plan.gather start count = .ok times := by
    cases count with
    | zero => exact ⟨[], rfl⟩
    | succ n => exact (hrange n.succ_pos).exists_gather (Plan.parse_advances h) (n + 1)
  obtain ⟨times, htimes⟩ := hfound
  have hlist := Plan.upcoming_eq_ok_iff.mpr ⟨hcount, htimes⟩
  exact ⟨times, hlist, (Plan.parseNext_eq_ok_iff h).mpr hlist⟩

/-- What info and list show are the records. -/
theorem exists_record_of_shown {s : Scheduler η} {v : JobView}
    (h : (∃ name, s.info name = .ok v) ∨ v ∈ s.list) :
    ∃ r, s.jobs[v.name]? = some r ∧ v = .ofRecord v.name r := by
  have hinfo : ∃ name, s.info name = .ok v := by
    rcases h with hinfo | hlist
    · exact hinfo
    · exact ⟨v.name, (s.mem_list_iff_info v).mp hlist⟩
  obtain ⟨name, hshown⟩ := hinfo
  cases hname : s.jobs[name]? with
  | none => simp [Scheduler.info, hname] at hshown
  | some r =>
    rw [Scheduler.info_of_some hname] at hshown
    cases hshown
    exact ⟨r, hname, rfl⟩

/-- In every run on an engine that is driven by clockwork, the records have plans that can be read,
every job can be resumed at any time, and every view, even one that is out of date, lists the
triggers of the plan that the job was added with. -/
theorem stored_plans_are_read {w : Service η} (h : w.scheduler.IsNew)
    (hclockwork : w.scheduler.engine = .clockwork) (past : List (Occasion η)) :
    let s := (w.run past).scheduler
    (∀ (name : String) (r : JobRecord η), s.jobs[name]? = some r →
      ∃ plan, Plan.parse r.plan = .ok plan) ∧
    (∀ now name, (s.resume now name).result =
      if s.contains name then .ok () else .error (.notFound name)) ∧
    ∀ v : JobView, (∃ name, s.info name = .ok v) ∨ v ∈ s.list →
      ∃ handler plan, AddedIn (w.history past) v.name v.plan handler ∧ Lists v plan := by
  intro s
  have hwork : s.engine.refusing = none := by
    refine keeps_clockwork.run ?_ past
    rw [hclockwork]
    rfl
  have hread : ∀ (name : String) (r : JobRecord η), s.jobs[name]? = some r →
      ∃ plan, Plan.parse r.plan = .ok plan :=
    fun name r hr => (record_addedIn h hr).parses
  refine ⟨hread, fun now name => Scheduler.resume_result hwork hread now name, ?_⟩
  intro v hv
  obtain ⟨r, hr, hshown⟩ := exists_record_of_shown hv
  have hadded := record_addedIn h hr
  have hplan : v.plan = r.plan := congrArg JobView.plan hshown
  rw [← hplan] at hadded
  obtain ⟨plan, hparse⟩ := hadded.parses
  exact ⟨r.execution.handler, plan, hadded, lists_of_parse hparse⟩

/-- One plan is refused, one job is removed and added again with another plan, and it is paused
while the scheduler runs. -/
def overhaul : List (Occasion String) :=
  timetable
    [(0, .call (.add true "report" "@daily" "r")), (0, .call (.add false "prune" "often" "p")),
      (1, .call .start), (2, .call (.remove "report")),
      (3, .call (.add true "report" "@every 5s" "r2")), (9, .trigger (.timer 1) .completed),
      (10, .call (.pause "report"))]

theorem overhaul_plans_are_read :
    let s := (hooked.run overhaul).scheduler
    (s.resume { seconds := 11 } "report").result = .ok () ∧
      (s.resume { seconds := 11 } "prune").result = .error (.notFound "prune") ∧
      ∃ v, s.info "report" = .ok v ∧ v.paused = true ∧ v.plan = "@every 5s" ∧
        ∃ plan, Lists v plan := by
  intro s
  have hnew : hooked.scheduler.IsNew :=
    { engine := Or.inl rfl, jobs := rfl, state := rfl, refreshEntry := rfl }
  obtain ⟨-, hresume, hviews⟩ := stored_plans_are_read hnew rfl overhaul
  have hinfo : s.info "report" =
      .ok { name := "report", plan := "@every 5s", entryId := none, paused := true } := by
    decide +kernel
  obtain ⟨-, plan, -, hlists⟩ := hviews _ (Or.inl ⟨"report", hinfo⟩)
  refine ⟨?_, ?_, _, hinfo, rfl, rfl, plan, hlists⟩
  · rw [hresume]
    decide +kernel
  · rw [hresume]
    decide +kernel

/-- The first second of 1970, and never again. -/
def epochOnly : Cron.Schedule where
  source := "0 0 0 1 1 * 1970"
  sets := {
    seconds := [0], minutes := [0], hours := [0], daysOfMonth := [1], months := [1]
    daysOfWeek := Cron.Field.daysOfWeek.values, years := [1970] }

/-- A list that could not be held is refused before its first element is looked for, even one that
would stay empty. -/
theorem empty_list_refused :
    let past := timetable [(0, .call (.add true "once" epochOnly.source "o"))]
    let start : Instant := { seconds := 1710072000 }
    ∃ v, (hooked.run past).scheduler.info "once" = .ok v ∧
      Plan.parse v.plan = .ok (.cron epochOnly) ∧ (Plan.cron epochOnly).StaysInRange start ∧
      (Plan.cron epochOnly).next? start = .ok none ∧
      ¬∃ times, v.nextFrom start (Plan.longestList + 1) = .ok times := by
  intro past start
  have hinfo : (hooked.run past).scheduler.info "once" =
      .ok { name := "once", plan := epochOnly.source, entryId := some 1, paused := false } := by
    decide +kernel
  have hparse : Plan.parse epochOnly.source = .ok (.cron epochOnly) := by decide +kernel
  refine ⟨_, hinfo, hparse, ?_, by decide +kernel, ?_⟩
  · show (1710072000 : Int) < Instant.latest
    decide
  · rintro ⟨times, htimes⟩
    have hlist := (Plan.parseNext_eq_ok_iff hparse).mp htimes
    have hrefused := Plan.upcoming_of_lt (Plan.cron epochOnly) start
      (Nat.lt_succ_self Plan.longestList)
    cases hrefused.symm.trans hlist

end Service
end RecurringJobs
