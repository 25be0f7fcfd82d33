import Mathlib.Data.List.Nodup
import Mathlib.Data.List.TakeWhile
import RecurringJobs.Proofs.Config.Places
import RecurringJobs.Proofs.Digits

/-!
What is said of a configuration, and under which paths.

A finding is shown by the path of its place and the message of its cause.  `IsFault` and `IsDoubt`
tell for each place which message is due there, and when.  No two places have the same path
(`Place.path_injective`), and at one place only one error and one warning can be due
(`IsFault.unique`, `IsDoubt.unique`), so the findings are known by what is shown of them
(`findings_exact`).
-/

namespace RecurringJobs

/-! ## Paths -/

namespace Place

/-- The job that a place is in, and what follows it in the path. -/
def field? : Place → Option (Nat × String)
  | job i => some (i, "")
  | jobName i => some (i, ".name")
  | jobPlan i => some (i, ".plan")
  | refresh | leaseTtl | leaseName => none

theorem path_of_field {p : Place} {i : Nat} {field : String} (h : p.field? = some (i, field)) :
    p.path.toList = "jobs[".toList ++ (i.repr.toList ++ ']' :: field.toList) := by
  cases p <;> cases h <;> simp [path, toString]

theorem eq_of_field {p q : Place} {x : Nat × String} (hp : p.field? = some x)
    (hq : q.field? = some x) : p = q := by
  cases p <;> cases hp <;> cases q <;> simp_all [field?]

/-- The paths into the jobs can be told from the others by their first letter. -/
theorem head?_path (p : Place) : p.path.toList.head? = some 'j' ↔ p.field?.isSome = true := by
  cases p with
  | refresh | leaseTtl | leaseName => decide
  | job i | jobName i | jobPlan i => simp [path, field?, toString]

theorem takeWhile_repr (n : Nat) (rest : List Char) :
    (n.repr.toList ++ ']' :: rest).takeWhile (· ≠ ']') = n.repr.toList := by
  have hdigits : ∀ c ∈ n.repr.toList, decide (c ≠ ']') = true := by
    intro c hc
    rw [Nat.toList_repr] at hc
    rw [decide_eq_true_iff]
    rintro rfl
    exact absurd (Nat.isDigit_of_mem_toDigits (by decide) (by decide) hc) (by decide)
  rw [List.takeWhile_append_of_pos hdigits]
  simp

/-- No two places have the same path. -/
theorem path_injective : Function.Injective path := by
  intro p q h
  have hsome : p.field?.isSome = q.field?.isSome := by
    rw [Bool.eq_iff_iff, ← head?_path, ← head?_path, h]
  cases hp : p.field? with
  | none =>
    have hq : q.field? = none := by simpa [hp] using hsome.symm
    revert h
    cases p <;> cases hp <;> cases q <;> cases hq <;> decide
  | some x =>
    obtain ⟨y, hq⟩ := Option.isSome_iff_exists.mp (hsome.symm.trans (by rw [hp]; rfl))
    obtain ⟨i, field⟩ := x
    obtain ⟨j, field'⟩ := y
    have hlists := congrArg String.toList h
    rw [path_of_field hp, path_of_field hq, List.append_cancel_left_eq] at hlists
    have hdigits := congrArg (List.takeWhile (· ≠ ']')) hlists
    rw [takeWhile_repr, takeWhile_repr, Nat.toList_repr, Nat.toList_repr] at hdigits
    obtain rfl : i = j := by
      rw [← Text.ofDigits_toDigits i, hdigits, Text.ofDigits_toDigits]
    rw [List.append_cancel_left_eq, List.cons.injEq, String.toList_inj] at hlists
    obtain ⟨-, rfl⟩ := hlists
    exact eq_of_field hp hq

end Place

namespace Config

/-! ## Messages -/

/-- The errors that are due, by the places and their messages. -/
inductive IsFault (c : Config) : Place → String → Prop
  | zeroRefresh (hzero : c.scheduler.refreshSeconds = 0) :
    IsFault c .refresh "lock_refresh_secs must be greater than 0"
  | zeroTtl (henabled : c.lease.enabled = true) (hzero : c.lease.ttlSeconds = 0) :
    IsFault c .leaseTtl "ttl_secs must be greater than 0"
  | blankLeaseName (henabled : c.lease.enabled = true)
      (hblank : Text.isBlankText c.lease.name = true) :
    IsFault c .leaseName "Lease name cannot be empty"
  | blankJobName {i : Nat} {job : JobConfig} (hat : c.jobs[i]? = some job)
      (hblank : Text.isBlankText job.name = true) :
    IsFault c (.jobName i) "Job name cannot be empty"
  | duplicateJobName {i : Nat} {job : JobConfig} (hat : c.jobs[i]? = some job)
      (hnamed : Text.isBlankText job.name = false)
      (hearlier : ∃ k < i, ∃ other ∈ c.jobs[k]?, other.name = job.name) :
    IsFault c (.jobName i) s!"Duplicate job name '{job.name}'"
  | blankPlan {i : Nat} {job : JobConfig} (hat : c.jobs[i]? = some job)
      (hblank : Text.isBlankText job.plan = true) :
    IsFault c (.jobPlan i) "Plan cannot be empty"
  | zeroInterval {i : Nat} {job : JobConfig} (hat : c.jobs[i]? = some job)
      (hzero : Plan.requestedInterval job.plan = some 0) :
    IsFault c (.jobPlan i) "Interval must be greater than 0"
  | badPlan {i : Nat} {job : JobConfig} (hat : c.jobs[i]? = some job)
      (hplanned : Text.isBlankText job.plan = false)
      (htimed : Plan.requestedInterval job.plan ≠ some 0) {e : PlanError}
      (hparse : Plan.parse job.plan = .error e) :
    IsFault c (.jobPlan i) e.message

/-- The warnings that are due, by the places and their messages. -/
inductive IsDoubt (c : Config) : Place → String → Prop
  | flappingLease (henabled : c.lease.enabled = true) (hpos : 0 < c.lease.ttlSeconds)
      (hle : c.lease.ttlSeconds ≤ c.scheduler.refreshSeconds) :
    IsDoubt c .leaseTtl
      s!"Lease expires ({c.lease.ttlSeconds}s) before it is refreshed ({c.scheduler.refreshSeconds}s), the lock will flap"
  | raisedInterval {i : Nat} {job : JobConfig} (hat : c.jobs[i]? = some job)
      (hraised : IsRaised job) :
    IsDoubt c (.jobPlan i) "Interval below one second is raised to one second"
  | pausedButReady {i : Nat} {job : JobConfig} (hat : c.jobs[i]? = some job)
      (hpaused : RunsPaused job) :
    IsDoubt c (.job i) "Paused job still runs once on ready"

variable {c : Config} {p : Place} {message other : String}

theorem IsFault.unique (h : c.IsFault p message) (h' : c.IsFault p other) : message = other := by
  cases h <;> cases h' <;> grind [Plan.requestedInterval_of_isBlankText]

theorem IsDoubt.unique (h : c.IsDoubt p message) (h' : c.IsDoubt p other) : message = other := by
  cases h <;> cases h' <;> rfl

/-- A fault is one at a place that is faulty. -/
theorem IsFault.isFaulty (h : c.IsFault p message) : p ∈ c.places ∧ c.IsFaulty p := by
  cases h with
  | zeroRefresh hzero => exact ⟨by simp [places], hzero⟩
  | zeroTtl henabled hzero => exact ⟨by simp [places], henabled, hzero⟩
  | blankLeaseName henabled hblank => exact ⟨by simp [places], henabled, hblank⟩
  | @blankJobName i job hat hblank =>
    exact ⟨mem_places_of_job hat (by simp [jobPlaces]), job, hat, .inl hblank⟩
  | @duplicateJobName i job hat hnamed hearlier =>
    obtain ⟨k, hk, other, hother, hsame⟩ := hearlier
    refine ⟨mem_places_of_job hat (by simp [jobPlaces]), job, hat,
      .inr ⟨k, hk, other, hother, ?_, hsame⟩⟩
    rwa [hsame]
  | @blankPlan i job hat hblank =>
    exact ⟨mem_places_of_job hat (by simp [jobPlaces]), job, hat, .inl hblank⟩
  | @zeroInterval i job hat hzero =>
    exact ⟨mem_places_of_job hat (by simp [jobPlaces]), job, hat, .inr (.inl hzero)⟩
  | @badPlan i job hat _ _ e hparse =>
    refine ⟨mem_places_of_job hat (by simp [jobPlaces]), job, hat, .inr (.inr ?_)⟩
    rw [hparse]
    rfl

theorem IsDoubt.isDoubtful (h : c.IsDoubt p message) : p ∈ c.places ∧ c.IsDoubtful p := by
  cases h with
  | flappingLease henabled hpos hle => exact ⟨by simp [places], henabled, hpos, hle⟩
  | @raisedInterval i job hat hraised =>
    exact ⟨mem_places_of_job hat (by simp [jobPlaces]), job, hat, hraised⟩
  | @pausedButReady i job hat hpaused =>
    exact ⟨mem_places_of_job hat (by simp [jobPlaces]), job, hat, hpaused⟩

end Config

/-! ## Every finding is due -/

/-- What a finding says is due at its place. -/
def Finding.IsDue (c : Config) : Finding → Prop
  | error p problem => c.IsFault p problem.message
  | warning p doubt => c.IsDoubt p doubt.message

namespace Config

variable {c : Config}

theorem schedulerFindings_due : ∀ f ∈ c.schedulerFindings, f.IsDue c := by
  unfold schedulerFindings
  split
  · next hzero => exact List.forall_mem_singleton.mpr (IsFault.zeroRefresh hzero)
  · exact List.forall_mem_nil _

theorem leaseFindings_due : ∀ f ∈ c.leaseFindings, f.IsDue c := by
  by_cases henabled : c.lease.enabled = true
  · rw [leaseFindings_of_enabled henabled, List.forall_mem_append]
    constructor
    · split
      · next hzero => exact List.forall_mem_singleton.mpr (IsFault.zeroTtl henabled hzero)
      · next hne =>
        split
        · next hle =>
          have hpos := Nat.pos_of_ne_zero hne
          exact List.forall_mem_singleton.mpr (IsDoubt.flappingLease henabled hpos hle)
        · exact List.forall_mem_nil _
    · split
      · next hblank => exact List.forall_mem_singleton.mpr (IsFault.blankLeaseName henabled hblank)
      · exact List.forall_mem_nil _
  · rw [leaseFindings_of_disabled henabled]
    exact List.forall_mem_nil _

theorem nameFindings_due {earlier jobs : List JobConfig} {job : JobConfig}
    (hall : c.jobs = earlier ++ job :: jobs) :
    ∀ f ∈ nameFindings earlier earlier.length job, f.IsDue c := by
  have hat := getElem?_of_split hall
  unfold nameFindings
  cases hnamed : Text.isBlankText job.name with
  | true => exact List.forall_mem_singleton.mpr (IsFault.blankJobName hat hnamed)
  | false =>
    rw [if_neg Bool.false_ne_true]
    split
    · next hany =>
      obtain ⟨k, hk, other, hother, -, hsame⟩ := (any_name_iff hnamed).mp hany
      rw [← List.getElem?_append_left hk, ← hall] at hother
      exact List.forall_mem_singleton.mpr
        (IsFault.duplicateJobName hat hnamed ⟨k, hk, other, hother, hsame⟩)
    · exact List.forall_mem_nil _

theorem planFindings_due {i : Nat} {job : JobConfig} (hat : c.jobs[i]? = some job) :
    ∀ f ∈ planFindings i job, f.IsDue c := by
  by_cases hvoid : Text.isBlankText job.plan = true ∨ Plan.requestedInterval job.plan = some 0
  · unfold planFindings
    by_cases hblank : Text.isBlankText job.plan = true
    · rw [if_pos hblank]
      exact List.forall_mem_singleton.mpr (IsFault.blankPlan hat hblank)
    · have hzero := hvoid.resolve_left hblank
      rw [if_neg hblank, hzero]
      exact List.forall_mem_singleton.mpr (IsFault.zeroInterval hat hzero)
  · obtain ⟨hplanned, htimed⟩ := not_or.mp hvoid
    rw [planFindings_of_not_void i hvoid, List.forall_mem_append, List.forall_mem_append]
    refine ⟨⟨?_, ?_⟩, ?_⟩
    · split
      · next hraised => exact List.forall_mem_singleton.mpr (IsDoubt.raisedInterval hat hraised)
      · exact List.forall_mem_nil _
    · cases hparse : Plan.parse job.plan with
      | ok plan => exact List.forall_mem_nil _
      | error e =>
        exact List.forall_mem_singleton.mpr
          (IsFault.badPlan hat (Bool.eq_false_iff.mpr hplanned) htimed hparse)
    · split
      · next hpaused => exact List.forall_mem_singleton.mpr (IsDoubt.pausedButReady hat hpaused)
      · exact List.forall_mem_nil _

theorem jobFindings_due {earlier jobs : List JobConfig} (hall : c.jobs = earlier ++ jobs) :
    ∀ f ∈ jobFindings earlier earlier.length jobs, f.IsDue c := by
  induction jobs generalizing earlier with
  | nil => exact List.forall_mem_nil _
  | cons job jobs ih =>
    have hnext : c.jobs = (earlier ++ [job]) ++ jobs := by
      rw [hall, List.append_assoc, List.singleton_append]
    have hrest := ih hnext
    rw [List.length_append, List.length_singleton] at hrest
    unfold jobFindings
    rw [List.forall_mem_append, List.forall_mem_append]
    exact ⟨⟨nameFindings_due hall, planFindings_due (getElem?_of_split hall)⟩, hrest⟩

theorem findings_due (c : Config) : ∀ f ∈ c.findings, f.IsDue c := by
  unfold findings
  rw [List.forall_mem_append, List.forall_mem_append]
  exact ⟨⟨schedulerFindings_due, leaseFindings_due⟩, jobFindings_due (List.nil_append c.jobs).symm⟩

/-! ## Everything that is due is found -/

theorem isFault_of_mem {p : Place} {problem : Problem} (h : (p, problem) ∈ c.errors) :
    c.IsFault p problem.message := by
  obtain ⟨f, hf, hfound⟩ := List.mem_filterMap.mp h
  cases f with
  | error place cause =>
    cases hfound
    exact c.findings_due _ hf
  | warning place cause => cases hfound

theorem isDoubt_of_mem {p : Place} {doubt : Doubt} (h : (p, doubt) ∈ c.warnings) :
    c.IsDoubt p doubt.message := by
  obtain ⟨f, hf, hfound⟩ := List.mem_filterMap.mp h
  cases f with
  | error place cause => cases hfound
  | warning place cause =>
    cases hfound
    exact c.findings_due _ hf

/-- What is found is just what is due, if it is due and stands at all places where something is. -/
theorem mem_iff_of_places {κ : Type} {found : List (Place × κ)} {message : κ → String}
    {due : Place → String → Prop} (hdue : ∀ p k, (p, k) ∈ found → due p (message k))
    (hplaces : ∀ p m, due p m → p ∈ found.map Prod.fst)
    (hunique : ∀ p m m', due p m → due p m' → m = m') (p : Place) (m : String) :
    (∃ k, (p, k) ∈ found ∧ message k = m) ↔ due p m := by
  constructor
  · rintro ⟨k, hmem, rfl⟩
    exact hdue p k hmem
  · intro h
    obtain ⟨⟨q, k⟩, hfound, rfl⟩ := List.mem_map.mp (hplaces p m h)
    exact ⟨k, hfound, hunique q _ _ (hdue q k hfound) h⟩

theorem mem_errors_iff (c : Config) (p : Place) (message : String) :
    (∃ problem, (p, problem) ∈ c.errors ∧ problem.message = message) ↔ c.IsFault p message := by
  refine mem_iff_of_places (fun p problem h => isFault_of_mem h) (fun p m h => ?_)
    (fun p m m' h h' => h.unique h') p message
  obtain ⟨hplace, hfaulty⟩ := h.isFaulty
  rw [errors_places]
  exact List.mem_filter.mpr ⟨hplace, decide_eq_true hfaulty⟩

theorem mem_warnings_iff (c : Config) (p : Place) (message : String) :
    (∃ doubt, (p, doubt) ∈ c.warnings ∧ doubt.message = message) ↔ c.IsDoubt p message := by
  refine mem_iff_of_places (fun p doubt h => isDoubt_of_mem h) (fun p m h => ?_)
    (fun p m m' h h' => h.unique h') p message
  obtain ⟨hplace, hdoubtful⟩ := h.isDoubtful
  rw [warnings_places]
  exact List.mem_filter.mpr ⟨hplace, decide_eq_true hdoubtful⟩

theorem paths_places (c : Config) :
    c.places.map Place.path =
      ["scheduler.lock_refresh_secs", "lease.ttl_secs", "lease.name"] ++
        (List.range c.jobs.length).flatMap fun i =>
          [s!"jobs[{i}].name", s!"jobs[{i}].plan", s!"jobs[{i}]"] := by
  unfold places
  rw [List.map_append, List.map_flatMap]
  rfl

theorem nodup_places (c : Config) : c.places.Nodup := by
  unfold places
  rw [List.nodup_append, List.nodup_flatMap]
  refine ⟨by decide, ⟨fun i _ => by simp [jobPlaces], ?_⟩, ?_⟩
  · refine List.nodup_range.imp fun {i j} hne => ?_
    simp [Function.onFun, jobPlaces, List.disjoint_left, hne]
  · intro p hp q hq
    obtain ⟨i, -, hjob⟩ := List.mem_flatMap.mp hq
    rintro rfl
    simp [jobPlaces] at hp hjob
    grind

/-- The errors stand at the faulty places and the warnings at the doubtful ones, once each and in
the order of the places, under the paths of these and with the messages of what makes them due.  No
error is found in just those configurations that can be used. -/
theorem findings_exact (c : Config) :
    c.errors.map Prod.fst = c.places.filter (fun p => c.IsFaulty p) ∧
      c.warnings.map Prod.fst = c.places.filter (fun p => c.IsDoubtful p) ∧
      c.places.map Place.path =
        ["scheduler.lock_refresh_secs", "lease.ttl_secs", "lease.name"] ++
          (List.range c.jobs.length).flatMap (fun i =>
            [s!"jobs[{i}].name", s!"jobs[{i}].plan", s!"jobs[{i}]"]) ∧
      (c.places.map Place.path).Nodup ∧
      (∀ p message, (∃ problem, (p, problem) ∈ c.errors ∧ problem.message = message) ↔
        c.IsFault p message) ∧
      (∀ p message, (∃ doubt, (p, doubt) ∈ c.warnings ∧ doubt.message = message) ↔
        c.IsDoubt p message) ∧
      (c.isValid = true ↔ c.IsUsable) :=
  ⟨c.errors_places, c.warnings_places, c.paths_places,
    c.nodup_places.map Place.path_injective, c.mem_errors_iff, c.mem_warnings_iff,
    c.isValid_iff_isUsable⟩

end Config
end RecurringJobs
