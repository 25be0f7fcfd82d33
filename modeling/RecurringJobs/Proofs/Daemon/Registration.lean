import RecurringJobs.Daemon.Basic
import RecurringJobs.Proofs.Config.Findings
import RecurringJobs.Proofs.Scheduler.Showing

/-!
From a configuration to a scheduler that serves it.

The configuration is judged before anything is registered, by code of its own.  What it lets pass,
the scheduler and its engine take: the jobs are added one after the other, and `Serves` says what is
there after each of them.
-/

namespace RecurringJobs

def Entry.trigger {η : Type} (x : Entry η) : String × Callback η := (x.text, x.callback)

namespace Scheduler

variable {η : Type}

/-- What an addition that succeeds leaves. -/
structure Adds (s : Scheduler η) (name plan : String) (handler : η) (s' : Scheduler η) : Prop where
  roster : s'.roster = s.roster.put name (some { plan, paused := false, handler })
  entries : ∃ x, x.trigger = (plan, .job { name, handler }) ∧
    s'.engine.entries = s.engine.entries ++ [x]
  ready : s'.ready = s.ready
  state : s'.state = s.state

theorem add_of_free {s : Scheduler η} (now : Instant) {name plan : String} (handler : η)
    (hfree : s.roster.jobs name = none) (htaken : refusal? s.roster.refusing plan = none) :
    (s.add now name plan handler).result = .ok () ∧
      s.Adds name plan handler (s.add now name plan handler).scheduler := by
  obtain ⟨hresult, hroster⟩ := s.add_follows now name plan handler
  unfold Roster.add at hresult hroster
  simp only [hfree, htaken] at hresult hroster
  obtain ⟨engine, jobs, hframe⟩ := s.add_frame now name plan handler
  refine ⟨hresult, hroster, ?_, by rw [hframe], by rw [hframe]⟩
  have hname : s.jobs[name]? = none := by
    rw [roster_jobs, Option.map_eq_none_iff] at hfree
    exact hfree
  unfold Scheduler.add at hresult ⊢
  simp only [hname] at hresult ⊢
  rcases s.engine.register_cases now plan (.job { name, handler }) with
    ⟨parsed, e', es, hr, hreg⟩ | ⟨error, hr⟩
  · simp only [hr]
    exact ⟨_, rfl, hreg.entries⟩
  · simp only [hr] at hresult
    cases hresult

theorem addOnReady_of_added {s : Scheduler η} {signal : ReadySignal η} (now : Instant)
    {name plan : String} {handler : η} (hready : s.ready = some signal)
    (hadded : (s.add now name plan handler).result = .ok ()) :
    (s.addOnReady now name plan handler).result = .ok () ∧
      (s.addOnReady now name plan handler).scheduler.jobs =
        (s.add now name plan handler).scheduler.jobs ∧
      (s.addOnReady now name plan handler).scheduler.engine =
        (s.add now name plan handler).scheduler.engine ∧
      (s.addOnReady now name plan handler).scheduler.ready =
        some (signal.onReady true (.job { name, handler })).1 ∧
      (s.addOnReady now name plan handler).scheduler.state =
        (s.add now name plan handler).scheduler.state := by
  unfold Scheduler.addOnReady
  simp only [hready, hadded]
  exact ⟨trivial, trivial, trivial, trivial, trivial⟩

/-- A job that is paused right after it was added leaves no entry. -/
theorem pause_last {s : Scheduler η} (h : s.IsSound) {name plan : String} {handler : η}
    {old : List (Entry η)} {x : Entry η} (hx : x.trigger = (plan, .job { name, handler }))
    (hentries : s.engine.entries = old ++ [x]) :
    (s.pause name).result = .ok () ∧ (s.pause name).scheduler.engine.entries = old := by
  have hmem : x ∈ s.engine.entries := by
    rw [hentries]
    exact List.mem_append_right _ List.mem_cons_self
  have hcallback : x.callback = .job { name, handler } := congrArg Prod.snd hx
  obtain ⟨r, hr, howns, -⟩ := h.tallies.owns_of_callback hmem hcallback
  have hbefore : ∀ y ∈ old, y.id ≠ x.id := by
    have hasc := h.tallies.engine.ascending
    rw [hentries, List.pairwise_append] at hasc
    intro y hy
    exact Nat.ne_of_lt (hasc.2.2 y hy x List.mem_cons_self)
  unfold Scheduler.pause
  simp only [hr, howns.active, howns.entryId, Bool.false_eq_true, if_false]
  refine ⟨trivial, ?_⟩
  rw [Engine.unregister_entries, hentries, List.filter_append]
  have hkept : (old.filter fun y => y.id ≠ x.id) = old := by
    rw [List.filter_eq_self]
    intro y hy
    exact decide_eq_true (hbefore y hy)
  have hgone : ([x].filter fun y => y.id ≠ x.id) = [] := by
    simp
  rw [hkept, hgone, List.append_nil]

end Scheduler

namespace Roster

variable {η : Type}

/-- A job that was just put is paused. -/
theorem put_pause (b : Roster η) (name : String) (p : Posting η) :
    ((b.put name (some p)).pause name).2 = b.put name (some { p with paused := true }) := by
  have hput : (b.put name (some p)).jobs name = some p := Function.update_self _ _ _
  unfold Roster.pause
  rw [hput]
  refine Roster.ext ?_ rfl rfl
  exact Function.update_idem _ _ _

end Roster

namespace Daemon

def executionOf (job : JobConfig) : Execution String :=
  { name := job.name, handler := messageOf job }

def posting (job : JobConfig) : Posting String :=
  { plan := job.plan, paused := job.paused, handler := messageOf job }

/-- The jobs of a roster are those of a configuration. -/
def Posted (b : Roster String) (jobs : List JobConfig) : Prop :=
  ∀ name p, b.jobs name = some p ↔ ∃ j ∈ jobs, j.name = name ∧ posting j = p

theorem Posted.none_of_fresh {b : Roster String} {jobs : List JobConfig} (h : Posted b jobs)
    {name : String} (hfresh : ∀ j ∈ jobs, j.name ≠ name) : b.jobs name = none := by
  cases hposted : b.jobs name with
  | none => rfl
  | some p =>
    obtain ⟨j, hj, hname, -⟩ := (h name p).mp hposted
    exact absurd hname (hfresh j hj)

theorem Posted.put {b : Roster String} {earlier : List JobConfig} (h : Posted b earlier)
    {job : JobConfig} (hfresh : ∀ j ∈ earlier, j.name ≠ job.name) :
    Posted (b.put job.name (some (posting job))) (earlier ++ [job]) := by
  intro name p
  have hlast : (∃ j ∈ earlier ++ [job], j.name = name ∧ posting j = p) ↔
      (∃ j ∈ earlier, j.name = name ∧ posting j = p) ∨ job.name = name ∧ posting job = p := by
    simp only [List.mem_append, List.mem_singleton, or_and_right, exists_or, exists_eq_left]
  rw [hlast]
  by_cases hname : name = job.name
  · subst hname
    have hput : (b.put job.name (some (posting job))).jobs job.name = some (posting job) :=
      Function.update_self _ _ _
    rw [hput, Option.some_inj]
    constructor
    · intro heq
      exact Or.inr ⟨rfl, heq⟩
    · rintro (⟨j, hj, hjname, -⟩ | ⟨-, heq⟩)
      · exact absurd hjname (hfresh j hj)
      · exact heq
  · rw [b.put_jobs_other hname, h name p]
    constructor
    · exact Or.inl
    · rintro (hearlier | ⟨hjname, -⟩)
      · exact hearlier
      · exact absurd hjname.symm hname

/-! ## One job -/

def readyRuns (jobs : List JobConfig) : List (ReadyCallback String) :=
  (jobs.filter JobConfig.runOnReady).map fun j => .job (executionOf j)

def triggers (jobs : List JobConfig) : List (String × Callback String) :=
  (jobs.filter fun j => !j.paused).map fun j => (j.plan, .job (executionOf j))

/-- What is registered for the jobs of a configuration, before the host is ready. -/
structure Serves (s : Scheduler String) (jobs : List JobConfig) : Prop where
  sound : s.IsSound
  clockwork : s.engine.refusing = none
  posted : Posted s.roster jobs
  entries : s.engine.entries.map Entry.trigger = triggers jobs
  ready : s.ready = some { ready := false, pending := readyRuns jobs }
  created : s.state = .created

theorem serves_freshScheduler (c : Config) (holder : String) :
    Serves (freshScheduler c holder) [] := by
  have hnew : (freshScheduler c holder).IsNew :=
    { engine := Or.inl rfl, jobs := rfl, state := rfl, refreshEntry := rfl }
  refine ⟨hnew.isSound, rfl, ?_, rfl, rfl, rfl⟩
  intro name p
  rw [hnew.roster_eq]
  simp

/-- The first half of a registration, the same for jobs that are to be paused. -/
def addJob (s : Scheduler String) (now : Instant) (job : JobConfig) :
    Outcome String (Except SchedulerError Unit) :=
  if job.runOnReady then s.addOnReady now job.name job.plan (messageOf job)
  else s.add now job.name job.plan (messageOf job)

structure AddsJob (s : Scheduler String) (earlier : List JobConfig) (job : JobConfig)
    (s' : Scheduler String) : Prop where
  sound : s'.IsSound
  roster : s'.roster =
    s.roster.put job.name (some { plan := job.plan, paused := false, handler := messageOf job })
  entries : ∃ x, x.trigger = (job.plan, .job (executionOf job)) ∧
    s'.engine.entries = s.engine.entries ++ [x]
  ready : s'.ready = some { ready := false, pending := readyRuns (earlier ++ [job]) }
  state : s'.state = s.state

theorem readyRuns_append (earlier : List JobConfig) (job : JobConfig) :
    readyRuns (earlier ++ [job]) =
      readyRuns earlier ++ if job.runOnReady then [.job (executionOf job)] else [] := by
  unfold readyRuns
  rw [List.filter_append, List.map_append]
  cases hready : job.runOnReady <;> simp [hready]

theorem triggers_append (earlier : List JobConfig) (job : JobConfig) :
    triggers (earlier ++ [job]) =
      triggers earlier ++ if job.paused then [] else [(job.plan, .job (executionOf job))] := by
  unfold triggers
  rw [List.filter_append, List.map_append]
  cases hpaused : job.paused <;> simp [hpaused]

theorem Serves.addJob {s : Scheduler String} {earlier : List JobConfig} (h : Serves s earlier)
    (now : Instant) {job : JobConfig} (hfresh : ∀ j ∈ earlier, j.name ≠ job.name)
    (hreadable : ∃ plan, Plan.parse job.plan = .ok plan) :
    (Daemon.addJob s now job).result = .ok () ∧
      AddsJob s earlier job (Daemon.addJob s now job).scheduler := by
  have hfree : s.roster.jobs job.name = none := h.posted.none_of_fresh hfresh
  have htaken : refusal? s.roster.refusing job.plan = none := by
    obtain ⟨plan, hplan⟩ := hreadable
    show refusal? s.engine.refusing job.plan = none
    rw [h.clockwork]
    simp [refusal?, hplan]
  obtain ⟨hadded, hadds⟩ := Scheduler.add_of_free now (messageOf job) hfree htaken
  have hsound := h.sound.add now job.name job.plan (messageOf job)
  have hruns := readyRuns_append earlier job
  unfold Daemon.addJob
  cases hrun : job.runOnReady with
  | false =>
    rw [hrun, if_neg Bool.false_ne_true, List.append_nil] at hruns
    rw [if_neg Bool.false_ne_true]
    refine ⟨hadded, hsound, hadds.roster, hadds.entries, ?_, hadds.state⟩
    rw [hadds.ready, h.ready, hruns]
  | true =>
    rw [hrun, if_pos rfl] at hruns
    obtain ⟨hresult, hjobs, hengine, hready, hstate⟩ :=
      Scheduler.addOnReady_of_added now h.ready hadded
    rw [if_pos rfl]
    refine ⟨hresult, ?_, ?_, ?_, ?_, hstate.trans hadds.state⟩
    · exact h.sound.addOnReady now job.name job.plan (messageOf job)
    · rw [← hadds.roster]
      unfold Scheduler.roster
      rw [hjobs, hengine, hready, hadds.ready, h.ready, Option.isSome_some, Option.isSome_some]
    · rw [hengine]
      exact hadds.entries
    · rw [hready, hruns]
      rfl

/-- A job is added, under a name that is free and with a plan that can be read, and paused where
that is configured. -/
theorem Serves.registerJob {s : Scheduler String} {earlier : List JobConfig} (h : Serves s earlier)
    (now : Instant) {job : JobConfig} (hfresh : ∀ j ∈ earlier, j.name ≠ job.name)
    (hreadable : ∃ plan, Plan.parse job.plan = .ok plan) :
    ∃ s' lines, Daemon.registerJob s now job = (.ok s', lines) ∧ Serves s' (earlier ++ [job]) := by
  obtain ⟨hadded, hadds⟩ := h.addJob now hfresh hreadable
  obtain ⟨x, hx, hentries⟩ := hadds.entries
  have hposted := h.posted.put hfresh
  have htriggers := triggers_append earlier job
  unfold Daemon.registerJob
  unfold Daemon.addJob at hadded hadds hentries
  simp only [hadded]
  generalize (if job.runOnReady = true then s.addOnReady now job.name job.plan (messageOf job)
    else s.add now job.name job.plan (messageOf job)) = added at hadds hentries ⊢
  have hclockwork : added.scheduler.engine.refusing = none := by
    have hsame := congrArg Roster.refusing hadds.roster
    exact hsame.trans h.clockwork
  have hcreated : added.scheduler.state = .created := hadds.state.trans h.created
  cases hpaused : job.paused with
  | false =>
    have hposting : Posting.mk job.plan false (messageOf job) = posting job := by
      rw [posting, hpaused]
    rw [hpaused, if_neg Bool.false_ne_true] at htriggers
    refine ⟨_, _, rfl, hadds.sound, hclockwork, ?_, ?_, hadds.ready, hcreated⟩
    · rw [hadds.roster, hposting]
      exact hposted
    · rw [htriggers, hentries, List.map_append, h.entries, List.map_singleton, hx]
  | true =>
    have hposting : Posting.mk job.plan true (messageOf job) = posting job := by
      rw [posting, hpaused]
    rw [hpaused, if_pos rfl, List.append_nil] at htriggers
    obtain ⟨hresult, hold⟩ := Scheduler.pause_last hadds.sound hx hentries
    obtain ⟨engine, jobs, hframe⟩ := added.scheduler.pause_frame job.name
    have hroster := (added.scheduler.pause_follows job.name).2
    rw [hadds.roster, Roster.put_pause] at hroster
    refine ⟨(added.scheduler.pause job.name).scheduler,
      linesOf (added.effects ++ (added.scheduler.pause job.name).effects) ++ [configuredLine job],
      ?_, hadds.sound.pause job.name, ?_, ?_, ?_, ?_, ?_⟩
    · simp only [if_true, hresult]
    · have hsame := congrArg Roster.refusing hroster
      exact hsame.trans h.clockwork
    · rw [hroster, hposting]
      exact hposted
    · rw [hold, h.entries, htriggers]
    · rw [hframe]
      exact hadds.ready
    · rw [hframe]
      exact hcreated

/-! ## All jobs -/

theorem Serves.registerJobs {s : Scheduler String} {earlier jobs : List JobConfig}
    (h : Serves s earlier) (now : Instant) (haddable : Config.Addable earlier jobs) :
    ∃ s' lines, Daemon.registerJobs s now jobs = (.ok s', lines) ∧ Serves s' (earlier ++ jobs) := by
  induction haddable generalizing s with
  | nil earlier =>
    refine ⟨s, [], rfl, ?_⟩
    rwa [List.append_nil]
  | @cons earlier jobs job hfresh hreadable hrest ih =>
    obtain ⟨s', lines, hjob, hserves⟩ := h.registerJob now hfresh hreadable
    obtain ⟨s'', more, hjobs, hall⟩ := ih hserves
    refine ⟨s'', lines ++ more, ?_, ?_⟩
    · unfold Daemon.registerJobs
      simp only [hjob, hjobs]
    · rwa [List.append_assoc, List.singleton_append] at hall

/-! ## From a configuration to its registration -/

/-- The registry, the engine and the readiness signal as a configuration wants them. -/
structure IsConfigured (s : Scheduler String) (jobs : List JobConfig) : Prop where
  contains_iff : ∀ name, s.contains name = true ↔ ∃ j ∈ jobs, j.name = name
  info : ∀ j ∈ jobs, ∃ v, s.info j.name = .ok v ∧ v.IsOf j.name (posting j)
  size : s.size = jobs.length
  entries : s.engine.entries.map Entry.trigger = triggers jobs
  ready : s.ready = some { ready := false, pending := readyRuns jobs }

theorem Serves.isConfigured {s : Scheduler String} {jobs : List JobConfig} (h : Serves s jobs)
    (hnodup : (jobs.map JobConfig.name).Nodup) : IsConfigured s jobs := by
  have hshows := h.sound.shows
  have hcontains : ∀ name, s.contains name = true ↔ ∃ j ∈ jobs, j.name = name := by
    intro name
    rw [hshows.contains, Option.isSome_iff_exists]
    constructor
    · rintro ⟨p, hp⟩
      obtain ⟨j, hj, hname, -⟩ := (h.posted name p).mp hp
      exact ⟨j, hj, hname⟩
    · rintro ⟨j, hj, hname⟩
      exact ⟨posting j, (h.posted name _).mpr ⟨j, hj, hname, rfl⟩⟩
  refine ⟨hcontains, ?_, ?_, h.entries, h.ready⟩
  · intro j hj
    exact hshows.info j.name (posting j) ((h.posted _ _).mpr ⟨j, hj, rfl, rfl⟩)
  · have hset : {name | (s.roster.jobs name).isSome} =
        ((jobs.map JobConfig.name).toFinset : Set String) := by
      ext name
      rw [Set.mem_ofPred_eq, ← hshows.contains, hcontains]
      simp
    rw [hshows.size, hset, Set.ncard_coe_finset, List.toFinset_card_of_nodup hnodup,
      List.length_map]

end Daemon

theorem Report.exitCode_check (c : Config) :
    (Report.check (.ok c)).exitCode = if c.isValid then 0 else 1 := by
  unfold check
  dsimp only
  split <;> rfl

namespace Daemon

theorem launch_of_invalid {c : Config} (h : c.isValid = false) (holder : String) (clock : Clock) :
    launch c holder clock =
      (.error (.invalid c.errors.length),
        lineOf .info s!"Starting JobHands v{Help.versionNumber}" :: findingLines c) := by
  unfold launch
  rw [h]
  rfl

/-- Once all jobs are registered, only the lock can still keep a daemon from serving. -/
theorem launch_of_registered {c : Config} (h : c.isValid = true) {holder : String} {clock : Clock}
    {s : Scheduler String} {lines : List LogLine}
    (hjobs : registerJobs (freshScheduler c holder) clock.wall c.jobs = (.ok s, lines))
    (hcreated : s.state = .created) :
    (∃ d, (launch c holder clock).1 = .ok d) ∨ (launch c holder clock).1 = .error .crashed := by
  unfold launch
  rw [h]
  simp only [hjobs, Bool.not_true, Bool.false_eq_true, if_false]
  rcases s.start_result hcreated {} clock with hstarted | hstarted
  · rw [hstarted]
    exact Or.inl ⟨_, rfl⟩
  · rw [hstarted]
    exact Or.inr rfl

/-- A configuration that passes its check is registered as it is written, whole and in its order,
and one that does not is not touched. -/
theorem registers_as_checked (c : Config) (holder : String) (clock : Clock) :
    (c.isValid = true → (Report.check (.ok c)).exitCode = 0 ∧
      (∃ s lines,
        registerJobs (freshScheduler c holder) clock.wall c.jobs = (.ok s, lines) ∧
          IsConfigured s c.jobs) ∧
      ((∃ d, (launch c holder clock).1 = .ok d) ∨ (launch c holder clock).1 = .error .crashed)) ∧
    (c.isValid = false → (Report.check (.ok c)).exitCode = 1 ∧
      launch c holder clock =
        (.error (.invalid c.errors.length),
          lineOf .info s!"Starting JobHands v{Help.versionNumber}" :: findingLines c)) := by
  refine ⟨?_, ?_⟩
  · intro hvalid
    have haddable := Config.addable_of_isValid hvalid
    have hnodup : (c.jobs.map JobConfig.name).Nodup := haddable.names_nodup List.nodup_nil
    obtain ⟨s, lines, hjobs, hserves⟩ :=
      (serves_freshScheduler c holder).registerJobs clock.wall haddable
    refine ⟨?_, ⟨s, lines, hjobs, ?_⟩, ?_⟩
    · rw [Report.exitCode_check, hvalid, if_pos rfl]
    · exact hserves.isConfigured hnodup
    · exact launch_of_registered hvalid hjobs hserves.created
  · intro hinvalid
    refine ⟨?_, launch_of_invalid hinvalid holder clock⟩
    rw [Report.exitCode_check, hinvalid, if_neg Bool.false_ne_true]

/-- A plain job, one that is paused and still run when the host is ready, and one with a message. -/
def threeJobs : Config :=
  { jobs := [
      { name := "backup", plan := "0 30 2 * * *" },
      { name := "report", plan := " @every 90s", paused := true, runOnReady := true },
      { name := "ping", plan := "@hourly", message := some "pong", runOnReady := true }] }

def twoBackups : Config :=
  { jobs := [{ name := "backup", plan := "@daily" }, { name := "backup", plan := "@hourly" }] }

theorem threeJobs_registered :
    (∃ s lines, registerJobs (freshScheduler threeJobs "h") { seconds := 0 } threeJobs.jobs =
        (.ok s, lines) ∧ s.size = 3 ∧
      s.engine.entries.map Entry.trigger =
        [("0 30 2 * * *", .job { name := "backup", handler := "backup triggered" }),
          ("@hourly", .job { name := "ping", handler := "pong" })] ∧
      s.ready = some
        { ready := false
          pending := [.job { name := "report", handler := "report triggered" },
            .job { name := "ping", handler := "pong" }] }) ∧
    (launch twoBackups "h" { wall := { seconds := 0 } }).1 = .error (.invalid 1) := by
  have hvalid : threeJobs.isValid = true := by decide +kernel
  have hinvalid : twoBackups.isValid = false := by decide +kernel
  obtain ⟨-, ⟨s, lines, hjobs, hconfigured⟩, -⟩ :=
    (registers_as_checked threeJobs "h" { wall := { seconds := 0 } }).1 hvalid
  have hrefused := (registers_as_checked twoBackups "h" { wall := { seconds := 0 } }).2 hinvalid
  refine ⟨⟨s, lines, hjobs, hconfigured.size, hconfigured.entries, hconfigured.ready⟩, ?_⟩
  rw [hrefused.2]
  have hcount : twoBackups.errors.length = 1 := by decide +kernel
  rw [hcount]

end Daemon
end RecurringJobs
