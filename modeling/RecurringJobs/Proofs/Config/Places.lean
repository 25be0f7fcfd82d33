import Mathlib.Data.List.Nodup
import Mathlib.Data.List.TakeWhile
import RecurringJobs.Proofs.Config.Findings

/-!
What is found in a configuration, and where.

`Config.places` lists the places of a configuration in the order in which they are looked at.
`IsFaulty` says of each what makes an error there due, and `IsDoubtful` what makes a warning due,
without a word on how jobs are gone through.  The errors stand at the faulty places and the warnings
at the doubtful ones, once each and in their order (`errors_places`, `warnings_places`).
-/

namespace RecurringJobs

/-! ## Blank plans -/

theorem Text.trim_of_isBlankText {s : String} (h : isBlankText s = true) : trim s.toList = [] := by
  have hstart : trimStart s.toList = [] := by
    rw [trimStart, List.dropWhile_eq_nil_iff]
    exact List.all_eq_true.mp h
  rw [trim, hstart]
  rfl

theorem Plan.requestedInterval_of_isBlankText {s : String} (h : Text.isBlankText s = true) :
    requestedInterval s = none := by
  rw [requestedInterval, Text.trim_of_isBlankText h]
  rfl

theorem Plan.parse_of_isBlankText {s : String} (h : Text.isBlankText s = true) :
    parse s = .error { plan := s, fault := .empty } := by
  rw [parse, Text.trim_of_isBlankText h]
  rfl

namespace Config

/-! ## Places -/

def jobPlaces (i : Nat) : List Place := [.jobName i, .jobPlan i, .job i]

/-- The scheduler before the lease, the lease before the jobs, and the jobs in their order. -/
def places (c : Config) : List Place :=
  [.refresh, .leaseTtl, .leaseName] ++ (List.range c.jobs.length).flatMap jobPlaces

/-- A job whose name is blank, or the one of a job before it. -/
def IsMisnamed (jobs : List JobConfig) (i : Nat) (job : JobConfig) : Prop :=
  Text.isBlankText job.name = true ∨
    ∃ k < i, ∃ other ∈ jobs[k]?, Text.isBlankText other.name = false ∧ other.name = job.name

def IsMisplanned (job : JobConfig) : Prop :=
  Text.isBlankText job.plan = true ∨ Plan.requestedInterval job.plan = some 0 ∨
    (Plan.parse job.plan).isOk = false

/-- A delay below a second, which is kept as one of a second. -/
def IsRaised (job : JobConfig) : Prop :=
  ∃ nanos ∈ Plan.requestedInterval job.plan, 0 < nanos ∧ nanos < TimeUnit.nanosPerSecond

/-- A job that is paused and yet run once. -/
def RunsPaused (job : JobConfig) : Prop :=
  (job.paused = true ∧ job.runOnReady = true) ∧
    ¬(Text.isBlankText job.plan = true ∨ Plan.requestedInterval job.plan = some 0)

instance (jobs : List JobConfig) (i : Nat) (job : JobConfig) : Decidable (IsMisnamed jobs i job) :=
  inferInstanceAs (Decidable (_ ∨ _))

instance (job : JobConfig) : Decidable (IsMisplanned job) :=
  inferInstanceAs (Decidable (_ ∨ _))

instance (job : JobConfig) : Decidable (IsRaised job) :=
  inferInstanceAs (Decidable (∃ nanos ∈ Plan.requestedInterval job.plan, _))

instance (job : JobConfig) : Decidable (RunsPaused job) :=
  inferInstanceAs (Decidable (_ ∧ _))

/-- Whether an error is due at a place. -/
def IsFaulty (c : Config) : Place → Prop
  | .refresh => c.scheduler.refreshSeconds = 0
  | .leaseTtl => c.lease.enabled = true ∧ c.lease.ttlSeconds = 0
  | .leaseName => c.lease.enabled = true ∧ Text.isBlankText c.lease.name = true
  | .jobName i => ∃ job ∈ c.jobs[i]?, IsMisnamed c.jobs i job
  | .jobPlan i => ∃ job ∈ c.jobs[i]?, IsMisplanned job
  | .job _ => False

/-- Whether a warning is due at a place. -/
def IsDoubtful (c : Config) : Place → Prop
  | .leaseTtl =>
    c.lease.enabled = true ∧ 0 < c.lease.ttlSeconds ∧
      c.lease.ttlSeconds ≤ c.scheduler.refreshSeconds
  | .jobPlan i => ∃ job ∈ c.jobs[i]?, IsRaised job
  | .job i => ∃ job ∈ c.jobs[i]?, RunsPaused job
  | .refresh | .leaseName | .jobName _ => False

instance (c : Config) : DecidablePred c.IsFaulty
  | .refresh => inferInstanceAs (Decidable (c.scheduler.refreshSeconds = 0))
  | .leaseTtl | .leaseName => inferInstanceAs (Decidable (_ ∧ _))
  | .jobName i => inferInstanceAs (Decidable (∃ job ∈ c.jobs[i]?, IsMisnamed c.jobs i job))
  | .jobPlan i => inferInstanceAs (Decidable (∃ job ∈ c.jobs[i]?, IsMisplanned job))
  | .job _ => inferInstanceAs (Decidable False)

instance (c : Config) : DecidablePred c.IsDoubtful
  | .leaseTtl => inferInstanceAs (Decidable (_ ∧ _))
  | .jobPlan i => inferInstanceAs (Decidable (∃ job ∈ c.jobs[i]?, IsRaised job))
  | .job i => inferInstanceAs (Decidable (∃ job ∈ c.jobs[i]?, RunsPaused job))
  | .refresh | .leaseName | .jobName _ => inferInstanceAs (Decidable False)

/-! ## One job -/

def errorPlace? (f : Finding) : Option Place := f.error?.map Prod.fst

def warningPlace? (f : Finding) : Option Place := f.warning?.map Prod.fst

theorem any_name_iff {earlier : List JobConfig} {job : JobConfig}
    (hname : Text.isBlankText job.name = false) :
    (earlier.any fun j => j.name = job.name) = true ↔
      ∃ k < earlier.length, ∃ other ∈ earlier[k]?,
        Text.isBlankText other.name = false ∧ other.name = job.name := by
  rw [List.any_eq_true]
  constructor
  · rintro ⟨other, hother, hsame⟩
    obtain ⟨k, hk, hat⟩ := List.mem_iff_getElem.mp hother
    have hsame := of_decide_eq_true hsame
    refine ⟨k, hk, other, List.getElem?_eq_some_iff.mpr ⟨hk, hat⟩, ?_, hsame⟩
    rw [hsame, hname]
  · rintro ⟨k, -, other, hat, -, hsame⟩
    exact ⟨other, List.mem_of_getElem? hat, decide_eq_true hsame⟩

theorem nameFindings_errors (earlier jobs : List JobConfig) (job : JobConfig) :
    (nameFindings earlier earlier.length job).filterMap errorPlace? =
      if IsMisnamed (earlier ++ job :: jobs) earlier.length job then
        [.jobName earlier.length]
      else [] := by
  have hbefore : IsMisnamed (earlier ++ job :: jobs) earlier.length job ↔
      Text.isBlankText job.name = true ∨ ∃ k < earlier.length, ∃ other ∈ earlier[k]?,
        Text.isBlankText other.name = false ∧ other.name = job.name := by
    refine or_congr_right (exists_congr fun k => and_congr_right fun hk => ?_)
    rw [List.getElem?_append_left hk]
  unfold nameFindings
  cases hname : Text.isBlankText job.name with
  | true =>
    rw [if_pos (hbefore.mpr (Or.inl hname))]
    rfl
  | false =>
    have hany : IsMisnamed (earlier ++ job :: jobs) earlier.length job ↔
        (earlier.any fun j => j.name = job.name) = true := by
      rw [hbefore, any_name_iff hname, hname]
      exact or_iff_right Bool.false_ne_true
    rw [if_neg Bool.false_ne_true, if_congr hany rfl rfl]
    split <;> rfl

theorem nameFindings_warnings (earlier : List JobConfig) (i : Nat) (job : JobConfig) :
    (nameFindings earlier i job).filterMap warningPlace? = [] := by
  unfold nameFindings
  split
  · rfl
  · split <;> rfl

/-- A blank plan and a delay of zero are the only thing that is told of the plan of a job. -/
theorem planFindings_of_void {job : JobConfig} (i : Nat)
    (hvoid : Text.isBlankText job.plan = true ∨ Plan.requestedInterval job.plan = some 0) :
    ∃ problem, planFindings i job = [.error (.jobPlan i) problem] := by
  unfold planFindings
  by_cases hblank : Text.isBlankText job.plan = true
  · rw [if_pos hblank]
    exact ⟨_, rfl⟩
  · rw [if_neg hblank, hvoid.resolve_left hblank]
    exact ⟨_, rfl⟩

/-- Of any other plan everything is told: that it is raised, that it cannot be read, and that its job
runs although it is paused. -/
theorem planFindings_of_not_void {job : JobConfig} (i : Nat)
    (hvoid : ¬(Text.isBlankText job.plan = true ∨ Plan.requestedInterval job.plan = some 0)) :
    planFindings i job =
      (if IsRaised job then [.warning (.jobPlan i) .raisedInterval] else [])
        ++ (match Plan.parse job.plan with
          | .ok _ => []
          | .error e => [.error (.jobPlan i) (.badPlan e)])
        ++ if RunsPaused job then [.warning (.job i) .pausedButReady] else [] := by
  have hpaused : RunsPaused job ↔ (job.paused && job.runOnReady) = true := by
    rw [Bool.and_eq_true]
    exact and_iff_left hvoid
  obtain ⟨hblank, hzero⟩ := not_or.mp hvoid
  unfold planFindings
  rw [if_neg hblank, List.append_assoc, if_congr hpaused rfl rfl]
  cases hnanos : Plan.requestedInterval job.plan with
  | none =>
    have hraised : ¬IsRaised job := by
      rintro ⟨nanos, hmem, -⟩
      rw [hnanos] at hmem
      cases hmem
    rw [if_neg hraised]
    rfl
  | some nanos =>
    have hne : nanos ≠ 0 := fun h => hzero (by rw [hnanos, h])
    have hraised : IsRaised job ↔ nanos < TimeUnit.nanosPerSecond := by
      unfold IsRaised
      rw [hnanos]
      constructor
      · rintro ⟨m, hm, -, hlt⟩
        cases hm
        exact hlt
      · intro hlt
        exact ⟨nanos, rfl, Nat.pos_of_ne_zero hne, hlt⟩
    rw [if_congr hraised rfl rfl]
    dsimp only
    rw [if_neg hne]
    split <;> rfl

theorem errors_of_doubt (p : Prop) [Decidable p] (place : Place) (doubt : Doubt) :
    (if p then [Finding.warning place doubt] else []).filterMap errorPlace? = [] := by
  split <;> rfl

theorem warnings_of_doubt (p : Prop) [Decidable p] (place : Place) (doubt : Doubt) :
    (if p then [Finding.warning place doubt] else []).filterMap warningPlace? =
      if p then [place] else [] := by
  split <;> rfl

theorem planFindings_errors (i : Nat) (job : JobConfig) :
    (planFindings i job).filterMap errorPlace? =
      if IsMisplanned job then [.jobPlan i] else [] := by
  by_cases hvoid : Text.isBlankText job.plan = true ∨ Plan.requestedInterval job.plan = some 0
  · obtain ⟨problem, hfound⟩ := planFindings_of_void i hvoid
    have hbad : IsMisplanned job := or_assoc.mp (Or.inl hvoid)
    rw [hfound, if_pos hbad]
    rfl
  · have hbad : IsMisplanned job ↔ (Plan.parse job.plan).isOk = false := by
      unfold IsMisplanned
      rw [← or_assoc]
      exact or_iff_right hvoid
    rw [planFindings_of_not_void i hvoid, if_congr hbad rfl rfl, List.filterMap_append,
      List.filterMap_append, errors_of_doubt, errors_of_doubt, List.nil_append, List.append_nil]
    cases Plan.parse job.plan <;> rfl

theorem planFindings_warnings (i : Nat) (job : JobConfig) :
    (planFindings i job).filterMap warningPlace? =
      (if IsRaised job then [.jobPlan i] else []) ++ if RunsPaused job then [.job i] else [] := by
  by_cases hvoid : Text.isBlankText job.plan = true ∨ Plan.requestedInterval job.plan = some 0
  · obtain ⟨problem, hfound⟩ := planFindings_of_void i hvoid
    have hpaused : ¬RunsPaused job := fun h => h.2 hvoid
    have hraised : ¬IsRaised job := by
      rintro ⟨nanos, hnanos, hpos, -⟩
      rcases hvoid with hblank | hzero
      · rw [Plan.requestedInterval_of_isBlankText hblank] at hnanos
        cases hnanos
      · rw [hzero] at hnanos
        cases hnanos
        exact Nat.lt_irrefl 0 hpos
    rw [hfound, if_neg hraised, if_neg hpaused]
    rfl
  · rw [planFindings_of_not_void i hvoid, List.filterMap_append, List.filterMap_append,
      warnings_of_doubt, warnings_of_doubt]
    cases Plan.parse job.plan <;> simp [warningPlace?, Finding.warning?]

theorem filter_three {α : Type} (p : α → Prop) [DecidablePred p] (a b c : α) :
    [a, b, c].filter (fun x => p x) =
      (if p a then [a] else []) ++ ((if p b then [b] else []) ++ if p c then [c] else []) := by
  simp only [List.filter_cons, List.filter_nil, decide_eq_true_eq]
  split <;> split <;> split <;> rfl

theorem getElem?_of_split {all earlier jobs : List JobConfig} {job : JobConfig}
    (h : all = earlier ++ job :: jobs) : all[earlier.length]? = some job := by
  rw [h, List.getElem?_append_right (Nat.le_refl _), Nat.sub_self, List.getElem?_cons_zero]

theorem exists_mem_getElem?_append (earlier jobs : List JobConfig) (job : JobConfig)
    (P : JobConfig → Prop) :
    (∃ x ∈ (earlier ++ job :: jobs)[earlier.length]?, P x) ↔ P job := by
  rw [getElem?_of_split rfl]
  simp

/-! ## All jobs -/

/-- What is told of the jobs is put together from what is told of each, with all before it at hand. -/
theorem jobFindings_places {tell : Finding → Option Place} {due : Place → Prop}
    [DecidablePred due] {all : List JobConfig}
    (hjob : ∀ earlier job jobs, all = earlier ++ job :: jobs →
      (nameFindings earlier earlier.length job ++ planFindings earlier.length job).filterMap tell =
        (jobPlaces earlier.length).filter (fun p => due p))
    {earlier jobs : List JobConfig} (hall : all = earlier ++ jobs) :
    (jobFindings earlier earlier.length jobs).filterMap tell =
      ((List.range' earlier.length jobs.length).flatMap jobPlaces).filter (fun p => due p) := by
  induction jobs generalizing earlier with
  | nil => rfl
  | cons job jobs ih =>
    have hnext : all = (earlier ++ [job]) ++ jobs := by
      rw [hall, List.append_assoc, List.singleton_append]
    have hrest := ih hnext
    rw [List.length_append, List.length_singleton] at hrest
    unfold jobFindings
    rw [List.filterMap_append, hjob earlier job jobs hall, hrest, List.length_cons,
      List.range'_succ, List.flatMap_cons, List.filter_append]

/-! ## The settings -/

theorem schedulerFindings_errors (c : Config) :
    c.schedulerFindings.filterMap errorPlace? =
      if c.scheduler.refreshSeconds = 0 then [.refresh] else [] := by
  unfold schedulerFindings
  split <;> rfl

theorem leaseFindings_of_disabled {c : Config} (h : ¬c.lease.enabled = true) :
    c.leaseFindings = [] := by
  unfold leaseFindings
  rw [if_pos (by simp [h])]

theorem leaseFindings_of_enabled {c : Config} (h : c.lease.enabled = true) :
    c.leaseFindings =
      (if c.lease.ttlSeconds = 0 then [.error .leaseTtl .zeroTtl]
        else if c.lease.ttlSeconds ≤ c.scheduler.refreshSeconds then
          [.warning .leaseTtl
            (.flappingLease c.lease.ttlSeconds c.scheduler.refreshSeconds)]
        else [])
      ++ if Text.isBlankText c.lease.name then [.error .leaseName .blankLeaseName] else [] := by
  unfold leaseFindings
  rw [h]
  rfl

theorem leaseFindings_errors (c : Config) :
    c.leaseFindings.filterMap errorPlace? =
      (if c.lease.enabled = true ∧ c.lease.ttlSeconds = 0 then [.leaseTtl] else []) ++
        if c.lease.enabled = true ∧ Text.isBlankText c.lease.name = true then [.leaseName]
        else [] := by
  by_cases henabled : c.lease.enabled = true
  · rw [leaseFindings_of_enabled henabled, List.filterMap_append,
      if_congr (and_iff_right henabled) rfl rfl, if_congr (and_iff_right henabled) rfl rfl]
    congr 1
    · split
      · rfl
      · split <;> rfl
    · split <;> rfl
  · rw [leaseFindings_of_disabled henabled, if_neg (fun h => henabled h.1),
      if_neg (fun h => henabled h.1)]
    rfl

theorem leaseFindings_warnings (c : Config) :
    c.leaseFindings.filterMap warningPlace? =
      if c.lease.enabled = true ∧ 0 < c.lease.ttlSeconds ∧
          c.lease.ttlSeconds ≤ c.scheduler.refreshSeconds then [.leaseTtl]
      else [] := by
  by_cases henabled : c.lease.enabled = true
  · have hname : (if Text.isBlankText c.lease.name then
        [Finding.error .leaseName .blankLeaseName] else []).filterMap warningPlace? = [] := by
      split <;> rfl
    rw [leaseFindings_of_enabled henabled, List.filterMap_append, hname, List.append_nil,
      if_congr (and_iff_right henabled) rfl rfl]
    by_cases hzero : c.lease.ttlSeconds = 0
    · rw [if_pos hzero, if_neg (by omega)]
      rfl
    · have hpos := Nat.pos_of_ne_zero hzero
      rw [if_neg hzero, warnings_of_doubt, if_congr (and_iff_right hpos) rfl rfl]
  · rw [leaseFindings_of_disabled henabled, if_neg (fun h => henabled h.1)]
    rfl

/-! ## The whole -/

theorem errors_places (c : Config) :
    c.errors.map Prod.fst = c.places.filter (fun p => c.IsFaulty p) := by
  have hsettings : (c.schedulerFindings ++ c.leaseFindings).filterMap errorPlace? =
      [Place.refresh, .leaseTtl, .leaseName].filter (fun p => c.IsFaulty p) := by
    rw [List.filterMap_append, schedulerFindings_errors, leaseFindings_errors, filter_three]
    rfl
  have hjobs : (jobFindings [] 0 c.jobs).filterMap errorPlace? =
      ((List.range' 0 c.jobs.length).flatMap jobPlaces).filter (fun p => c.IsFaulty p) := by
    refine jobFindings_places (fun earlier job jobs hall => ?_) (List.nil_append c.jobs).symm
    have hname : c.IsFaulty (.jobName earlier.length) ↔
        IsMisnamed (earlier ++ job :: jobs) earlier.length job := by
      unfold IsFaulty
      rw [hall]
      exact exists_mem_getElem?_append earlier jobs job _
    have hplan : c.IsFaulty (.jobPlan earlier.length) ↔ IsMisplanned job := by
      unfold IsFaulty
      rw [hall]
      exact exists_mem_getElem?_append earlier jobs job _
    rw [List.filterMap_append, nameFindings_errors earlier jobs, planFindings_errors, jobPlaces,
      filter_three, if_congr hname rfl rfl, if_congr hplan rfl rfl,
      if_neg (show ¬c.IsFaulty (.job earlier.length) from id), List.append_nil]
  unfold errors findings places
  rw [List.map_filterMap, List.filter_append, ← hsettings, List.range_eq_range', ← hjobs,
    ← List.filterMap_append]
  rfl

theorem warnings_places (c : Config) :
    c.warnings.map Prod.fst = c.places.filter (fun p => c.IsDoubtful p) := by
  have hsettings : (c.schedulerFindings ++ c.leaseFindings).filterMap warningPlace? =
      [Place.refresh, .leaseTtl, .leaseName].filter (fun p => c.IsDoubtful p) := by
    have hscheduler : c.schedulerFindings.filterMap warningPlace? = [] := by
      unfold schedulerFindings
      split <;> rfl
    rw [List.filterMap_append, hscheduler, leaseFindings_warnings, filter_three,
      if_neg (show ¬c.IsDoubtful .refresh from id),
      if_neg (show ¬c.IsDoubtful .leaseName from id), List.append_nil]
    rfl
  have hjobs : (jobFindings [] 0 c.jobs).filterMap warningPlace? =
      ((List.range' 0 c.jobs.length).flatMap jobPlaces).filter (fun p => c.IsDoubtful p) := by
    refine jobFindings_places (fun earlier job jobs hall => ?_) (List.nil_append c.jobs).symm
    have hplan : c.IsDoubtful (.jobPlan earlier.length) ↔ IsRaised job := by
      unfold IsDoubtful
      rw [hall]
      exact exists_mem_getElem?_append earlier jobs job _
    have hpaused : c.IsDoubtful (.job earlier.length) ↔ RunsPaused job := by
      unfold IsDoubtful
      rw [hall]
      exact exists_mem_getElem?_append earlier jobs job _
    rw [List.filterMap_append, nameFindings_warnings, planFindings_warnings, jobPlaces,
      filter_three, if_congr hplan rfl rfl, if_congr hpaused rfl rfl,
      if_neg (show ¬c.IsDoubtful (.jobName earlier.length) from id)]
  unfold warnings findings places
  rw [List.map_filterMap, List.filter_append, ← hsettings, List.range_eq_range', ← hjobs,
    ← List.filterMap_append]
  rfl

/-! ## Configurations that can be used -/

structure IsUsable (c : Config) : Prop where
  refreshes : c.scheduler.refreshSeconds ≠ 0
  lease : c.lease.enabled = true →
    0 < c.lease.ttlSeconds ∧ Text.isBlankText c.lease.name = false
  named : ∀ job ∈ c.jobs, Text.isBlankText job.name = false
  distinct : (c.jobs.map JobConfig.name).Nodup
  planned : ∀ job ∈ c.jobs, ∃ plan, Plan.parse job.plan = .ok plan
  timed : ∀ job ∈ c.jobs, Plan.requestedInterval job.plan ≠ some 0

theorem mem_places_of_job {c : Config} {i : Nat} {job : JobConfig} (hat : c.jobs[i]? = some job)
    {p : Place} (hp : p ∈ jobPlaces i) : p ∈ c.places := by
  obtain ⟨hi, -⟩ := List.getElem?_eq_some_iff.mp hat
  refine List.mem_append_right _ (List.mem_flatMap.mpr ⟨i, ?_, hp⟩)
  exact List.mem_range.mpr hi

theorem isValid_iff_not_faulty (c : Config) :
    c.isValid = true ↔ ∀ p ∈ c.places, ¬c.IsFaulty p := by
  unfold isValid
  rw [List.isEmpty_iff, ← List.map_eq_nil_iff (f := Prod.fst), errors_places, List.filter_eq_nil_iff]
  simp only [decide_eq_true_eq]

/-- No name is the one of a job before it when no two names are the same. -/
theorem isMisnamed_iff {jobs : List JobConfig} :
    (∀ i job, jobs[i]? = some job → ¬IsMisnamed jobs i job) ↔
      (∀ job ∈ jobs, Text.isBlankText job.name = false) ∧ (jobs.map JobConfig.name).Nodup := by
  have hdistinct : (jobs.map JobConfig.name).Nodup ↔
      ∀ i j (hi : i < jobs.length) (hj : j < jobs.length), i < j → jobs[i].name ≠ jobs[j].name := by
    rw [List.Nodup, List.pairwise_map, List.pairwise_iff_getElem]
  rw [hdistinct]
  constructor
  · intro hclean
    have hnamed : ∀ job ∈ jobs, Text.isBlankText job.name = false := by
      intro job hjob
      obtain ⟨i, hat⟩ := List.mem_iff_getElem?.mp hjob
      exact Bool.eq_false_iff.mpr fun hblank => hclean i job hat (Or.inl hblank)
    refine ⟨hnamed, fun i j hi hj hlt hsame => ?_⟩
    refine hclean j jobs[j] (List.getElem?_eq_getElem hj) (Or.inr ⟨i, hlt, jobs[i], ?_, ?_, hsame⟩)
    · exact List.getElem?_eq_getElem hi
    · exact hnamed _ (List.getElem_mem hi)
  · rintro ⟨hnamed, hdistinct⟩ i job hat (hblank | ⟨k, hk, other, hother, -, hsame⟩)
    · rw [hnamed job (List.mem_of_getElem? hat)] at hblank
      cases hblank
    · obtain ⟨hi, rfl⟩ := List.getElem?_eq_some_iff.mp hat
      obtain ⟨hk', rfl⟩ := List.getElem?_eq_some_iff.mp hother
      exact hdistinct k i hk' hi hk hsame

theorem not_isMisplanned_iff (job : JobConfig) :
    ¬IsMisplanned job ↔
      (∃ plan, Plan.parse job.plan = .ok plan) ∧ Plan.requestedInterval job.plan ≠ some 0 := by
  constructor
  · intro hclean
    refine ⟨?_, fun hzero => hclean (Or.inr (Or.inl hzero))⟩
    cases hparse : Plan.parse job.plan with
    | ok plan => exact ⟨plan, rfl⟩
    | error e =>
      refine absurd (Or.inr (Or.inr ?_)) hclean
      rw [hparse]
      rfl
  · rintro ⟨⟨plan, hplan⟩, htimed⟩ (hblank | hzero | herror)
    · rw [Plan.parse_of_isBlankText hblank] at hplan
      cases hplan
    · exact htimed hzero
    · rw [hplan] at herror
      cases herror

theorem isValid_iff_isUsable (c : Config) : c.isValid = true ↔ c.IsUsable := by
  rw [isValid_iff_not_faulty]
  constructor
  · intro hclean
    have hnames : ∀ i job, c.jobs[i]? = some job → ¬IsMisnamed c.jobs i job := fun i job hat hbad =>
      hclean (.jobName i) (mem_places_of_job hat List.mem_cons_self) ⟨job, hat, hbad⟩
    have hplans : ∀ job ∈ c.jobs, ¬IsMisplanned job := by
      intro job hjob hbad
      obtain ⟨i, hat⟩ := List.mem_iff_getElem?.mp hjob
      refine hclean (.jobPlan i) (mem_places_of_job hat ?_) ⟨job, hat, hbad⟩
      exact List.mem_cons_of_mem _ List.mem_cons_self
    have hrefresh := hclean .refresh List.mem_cons_self
    have httl := hclean .leaseTtl (List.mem_cons_of_mem _ List.mem_cons_self)
    have hname := hclean .leaseName
      (List.mem_cons_of_mem _ (List.mem_cons_of_mem _ List.mem_cons_self))
    refine ⟨hrefresh, fun henabled => ⟨?_, ?_⟩, (isMisnamed_iff.mp hnames).1,
      (isMisnamed_iff.mp hnames).2, ?_, ?_⟩
    · exact Nat.pos_of_ne_zero fun hzero => httl ⟨henabled, hzero⟩
    · exact Bool.eq_false_iff.mpr fun hblank => hname ⟨henabled, hblank⟩
    · exact fun job hjob => ((not_isMisplanned_iff job).mp (hplans job hjob)).1
    · exact fun job hjob => ((not_isMisplanned_iff job).mp (hplans job hjob)).2
  · intro husable p _ hfaulty
    cases p with
    | refresh => exact husable.refreshes hfaulty
    | leaseTtl => exact Nat.ne_of_gt (husable.lease hfaulty.1).1 hfaulty.2
    | leaseName =>
      have hnamed := (husable.lease hfaulty.1).2
      rw [hfaulty.2] at hnamed
      cases hnamed
    | job i => exact hfaulty
    | jobName i =>
      obtain ⟨job, hat, hbad⟩ := hfaulty
      exact isMisnamed_iff.mpr ⟨husable.named, husable.distinct⟩ i job hat hbad
    | jobPlan i =>
      obtain ⟨job, hat, hbad⟩ := hfaulty
      have hjob := List.mem_of_getElem? hat
      exact (not_isMisplanned_iff job).mpr ⟨husable.planned job hjob, husable.timed job hjob⟩ hbad

end Config
end RecurringJobs
