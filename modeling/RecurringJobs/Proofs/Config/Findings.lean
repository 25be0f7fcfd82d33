import RecurringJobs.Config.Findings

/-!
What it means for a configuration that nothing is found at a place, and for its jobs that no error is
found in it.
-/

namespace RecurringJobs

def Finding.place : Finding → Place
  | error place _ => place
  | warning place _ => place

namespace Config

/-! ## Where something is found -/

theorem place_of_nameFindings {earlier : List JobConfig} {i : Nat} {job : JobConfig} {f : Finding}
    (h : f ∈ nameFindings earlier i job) : f.place = .jobName i := by
  unfold nameFindings at h
  split at h
  · obtain rfl := List.mem_singleton.mp h
    rfl
  · split at h
    · obtain rfl := List.mem_singleton.mp h
      rfl
    · cases h

theorem place_of_planFindings {i : Nat} {job : JobConfig} {f : Finding}
    (h : f ∈ planFindings i job) : f.place = .jobPlan i ∨ f.place = .job i := by
  unfold planFindings at h
  cases hparse : Plan.parse job.plan <;> cases hinterval : Plan.requestedInterval job.plan <;>
    simp only [hparse, hinterval] at h <;> grind [Finding.place]

/-- What is found in the jobs is found at one of them. -/
theorem place_of_jobFindings {earlier jobs : List JobConfig} {i : Nat} {f : Finding}
    (h : f ∈ jobFindings earlier i jobs) :
    ∃ k, f.place = .jobName k ∨ f.place = .jobPlan k ∨ f.place = .job k := by
  induction jobs generalizing earlier i with
  | nil => cases h
  | cons job jobs ih =>
    unfold jobFindings at h
    rcases List.mem_append.mp h with hfirst | hrest
    · rcases List.mem_append.mp hfirst with hname | hplan
      · exact ⟨i, Or.inl (place_of_nameFindings hname)⟩
      · exact ⟨i, Or.inr (place_of_planFindings hplan)⟩
    · exact ih hrest

/-- A lease that nothing is said about lasts longer than the time between two renewals. -/
theorem refresh_lt_ttl {c : Config} (henabled : c.lease.enabled = true)
    (hquiet : ∀ f ∈ c.leaseFindings, f.place ≠ .leaseTtl) :
    c.scheduler.refreshSeconds < c.lease.ttlSeconds := by
  unfold leaseFindings at hquiet
  simp only [henabled, Bool.not_true, Bool.false_eq_true, if_false] at hquiet
  refine Nat.lt_of_not_le fun hle => ?_
  by_cases hzero : c.lease.ttlSeconds = 0
  · rw [if_pos hzero] at hquiet
    exact hquiet _ (List.mem_append_left _ List.mem_cons_self) rfl
  · rw [if_neg hzero, if_pos hle] at hquiet
    exact hquiet _ (List.mem_append_left _ List.mem_cons_self) rfl

theorem leaseFindings_of_lt {c : Config} (hlt : c.scheduler.refreshSeconds < c.lease.ttlSeconds)
    {f : Finding} (hf : f ∈ c.leaseFindings) : f.place = .leaseName := by
  unfold leaseFindings at hf
  split at hf
  · cases hf
  · dsimp only at hf
    rw [if_neg (show c.lease.ttlSeconds ≠ 0 by omega), if_neg (Nat.not_le.mpr hlt),
      List.nil_append] at hf
    split at hf
    · obtain rfl := List.mem_singleton.mp hf
      rfl
    · cases hf

/-- Nothing is found at the time that a lease lasts exactly when it is longer than the time between
two renewals. -/
theorem quiet_ttl_iff {c : Config} (henabled : c.lease.enabled = true) :
    (∀ f ∈ c.findings, f.place ≠ .leaseTtl) ↔
      c.scheduler.refreshSeconds < c.lease.ttlSeconds := by
  unfold findings
  constructor
  · intro hquiet
    refine refresh_lt_ttl henabled fun f hf => ?_
    exact hquiet f (List.mem_append_left _ (List.mem_append_right _ hf))
  · intro hlt f hf
    rcases List.mem_append.mp hf with hsettings | hjobs
    · rcases List.mem_append.mp hsettings with hscheduler | hlease
      · unfold schedulerFindings at hscheduler
        split at hscheduler
        · obtain rfl := List.mem_singleton.mp hscheduler
          exact Place.noConfusion
        · cases hscheduler
      · rw [leaseFindings_of_lt hlt hlease]
        exact Place.noConfusion
    · obtain ⟨k, hplace | hplace | hplace⟩ := place_of_jobFindings hjobs
      all_goals
        rw [hplace]
        exact Place.noConfusion

/-! ## Where no error is found -/

theorem isValid_iff (c : Config) : c.isValid = true ↔ ∀ f ∈ c.findings, f.error? = none := by
  unfold isValid errors
  rw [List.isEmpty_iff, List.filterMap_eq_nil_iff]

theorem ne_of_nameFindings {earlier : List JobConfig} {i : Nat} {job : JobConfig}
    (h : ∀ f ∈ nameFindings earlier i job, f.error? = none) :
    ∀ j ∈ earlier, j.name ≠ job.name := by
  intro j hj hsame
  unfold nameFindings at h
  have hany : (earlier.any fun j => j.name = job.name) = true := by
    rw [List.any_eq_true]
    exact ⟨j, hj, decide_eq_true hsame⟩
  rw [hany] at h
  split at h
  · have hblank := h _ List.mem_cons_self
    cases hblank
  · have hduplicate := h _ List.mem_cons_self
    cases hduplicate

theorem parse_of_planFindings {i : Nat} {job : JobConfig}
    (h : ∀ f ∈ planFindings i job, f.error? = none) : ∃ plan, Plan.parse job.plan = .ok plan := by
  cases hparse : Plan.parse job.plan with
  | ok plan => exact ⟨plan, rfl⟩
  | error e =>
    -- every way through the findings of a plan tells some error
    unfold planFindings at h
    rw [hparse] at h
    split at h
    · have hblank := h _ List.mem_cons_self
      cases hblank
    · cases hinterval : Plan.requestedInterval job.plan with
      | none =>
        rw [hinterval] at h
        have hbad := h _ List.mem_cons_self
        cases hbad
      | some nanos =>
        rw [hinterval] at h
        dsimp only at h
        split at h
        · have hzero := h _ List.mem_cons_self
          cases hzero
        · split at h
          · have hbad := h _ (List.mem_cons_of_mem _ List.mem_cons_self)
            cases hbad
          · have hbad := h _ List.mem_cons_self
            cases hbad

/-- The jobs that can be added one after the other to an engine, after those in `earlier`. -/
inductive Addable : List JobConfig → List JobConfig → Prop where
  | nil (earlier : List JobConfig) : Addable earlier []
  | cons {earlier jobs : List JobConfig} {job : JobConfig}
      (fresh : ∀ j ∈ earlier, j.name ≠ job.name)
      (readable : ∃ plan, Plan.parse job.plan = .ok plan)
      (rest : Addable (earlier ++ [job]) jobs) : Addable earlier (job :: jobs)

theorem addable_of_jobFindings {earlier jobs : List JobConfig} {i : Nat}
    (h : ∀ f ∈ jobFindings earlier i jobs, f.error? = none) : Addable earlier jobs := by
  induction jobs generalizing earlier i with
  | nil => exact Addable.nil earlier
  | cons job jobs ih =>
    have hname : ∀ f ∈ nameFindings earlier i job, f.error? = none := fun f hf =>
      h f (List.mem_append_left _ (List.mem_append_left _ hf))
    have hplan : ∀ f ∈ planFindings i job, f.error? = none := fun f hf =>
      h f (List.mem_append_left _ (List.mem_append_right _ hf))
    have hrest : ∀ f ∈ jobFindings (earlier ++ [job]) (i + 1) jobs, f.error? = none := fun f hf =>
      h f (List.mem_append_right _ hf)
    exact Addable.cons (ne_of_nameFindings hname) (parse_of_planFindings hplan) (ih hrest)

theorem addable_of_isValid {c : Config} (h : c.isValid = true) : Addable [] c.jobs := by
  have hclean := c.isValid_iff.mp h
  refine addable_of_jobFindings (i := 0) fun f hf => hclean f ?_
  exact List.mem_append_right _ hf

theorem Addable.names_nodup {earlier jobs : List JobConfig} (h : Addable earlier jobs)
    (hearlier : (earlier.map JobConfig.name).Nodup) :
    ((earlier ++ jobs).map JobConfig.name).Nodup := by
  induction h with
  | nil earlier => rwa [List.append_nil]
  | @cons earlier jobs job fresh readable rest ih =>
    have hnext : ((earlier ++ [job]).map JobConfig.name).Nodup := by
      rw [List.map_append, List.nodup_append]
      refine ⟨hearlier, by simp, ?_⟩
      intro name hname other hother
      obtain ⟨j, hj, rfl⟩ := List.mem_map.mp hname
      rw [List.map_singleton, List.mem_singleton] at hother
      rw [hother]
      exact fresh j hj
    have hall := ih hnext
    rwa [List.append_assoc, List.singleton_append] at hall

end Config
end RecurringJobs
