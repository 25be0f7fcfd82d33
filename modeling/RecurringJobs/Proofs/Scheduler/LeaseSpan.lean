import RecurringJobs.Proofs.Instant
import RecurringJobs.Proofs.Scheduler.Handover
import RecurringJobs.Proofs.Scheduler.Registry

/-!
How long the lease of one scheduler of a fleet lasts.

While a scheduler holds its lease, whatever happens leaves the expiry as it is or puts it off, and a
renewal puts it off by the whole time of the lease (`Covers`).  This is told in readings of the
steady clock; the plans of renewals are about the wall clock, and both advance together.
-/

namespace RecurringJobs

/-! ## What a try leaves -/

/-- A lock that is held is renewed, unless the new expiry cannot be written. -/
theorem LeaseLock.tryLock_of_hasLock {l : LeaseLock} {s : LeaseStore} {now : Nat}
    (h : l.Agrees s now) (hheld : l.hasLock now = true)
    (hclock : now + l.ttl < LeaseStore.clockSeconds * TimeUnit.nanosPerSecond) :
    (l.tryLock s now).1 = .ok := by
  have hopen : s.IsOpen now l.name l.holder := fun m hm _ => h.holder_of_hasLock hheld hm
  unfold tryLock
  rw [LeaseStore.acquire_of_isOpen hopen, if_pos hclock]

namespace Fleet

variable {ι η : Type}

/-- A scheduler holds the lease, and nobody else can take it. -/
structure Keeps (w : Fleet ι η) (i : ι) : Prop where
  hasLock : (w.lock i).hasLock w.clock.elapsed = true
  refused : ∀ holder ttl, holder ≠ (w.lock i).holder →
    w.store.acquire w.clock.elapsed (w.lock i).name holder ttl = .error (.held (w.lock i).holder)

theorem IsSound.keeps {w : Fleet ι η} (h : w.IsSound) {i : ι}
    (hheld : (w.lock i).hasLock w.clock.elapsed = true) : w.Keeps i := by
  refine ⟨hheld, ?_⟩
  intro holder ttl hne
  obtain ⟨expiry, huntil, hlive⟩ := (LeaseLock.hasLock_iff _ _).mp hheld
  have hlease := (h.agrees i expiry hlive).mp huntil
  exact LeaseStore.acquire_of_held hlease hlive (Ne.symm hne) ttl

variable [DecidableEq ι]

/-! ## The scheduler in a fleet -/

theorem schedulers_step (w : Fleet ι η) (e : Event ι η) (i : ι) :
    (∃ m, e = .move i m ∧
        (w.step e).schedulers i = ((w.schedulers i).take w.store w.clock m).scheduler) ∨
      (∀ m, e ≠ .move i m) ∧ (w.step e).schedulers i = w.schedulers i := by
  cases e with
  | move j m =>
    by_cases hj : j = i
    · subst hj
      exact Or.inl ⟨m, rfl, by simp [step]⟩
    · refine Or.inr ⟨?_, by simp [step, Ne.symm hj]⟩
      intro m' hm'
      cases hm'
      exact hj rfl
  | acquire name holder ttl => exact Or.inr ⟨by simp, rfl⟩
  | release name holder => exact Or.inr ⟨by simp, rfl⟩
  | advance nanos => exact Or.inr ⟨by simp, rfl⟩

/-- What every move of a scheduler keeps, every run of the fleet keeps. -/
theorem schedulers_run {P : Scheduler η → Prop}
    (hkept : ∀ s store clock m, P s → P (s.take store clock m).scheduler) {w : Fleet ι η} {i : ι}
    (h : P (w.schedulers i)) (es : List (Event ι η)) : P ((w.run es).schedulers i) := by
  induction es generalizing w with
  | nil => exact h
  | cons e es ih =>
    refine ih ?_
    rcases w.schedulers_step e i with ⟨m, -, hleft⟩ | ⟨-, hsame⟩
    · rw [hleft]
      exact hkept _ _ _ _ h
    · rw [hsame]
      exact h

theorem isSound_schedulers_run {w : Fleet ι η} {i : ι} (h : (w.schedulers i).IsSound)
    (es : List (Event ι η)) : ((w.run es).schedulers i).IsSound :=
  schedulers_run (fun _ store clock m hs => hs.take store clock m) h es

/-! ## The clocks -/

theorem seconds_le_run (w : Fleet ι η) (es : List (Event ι η)) :
    w.clock.wall.seconds ≤ (w.run es).clock.wall.seconds := by
  induction es generalizing w with
  | nil => exact Int.le_refl _
  | cons e es ih =>
    refine Int.le_trans ?_ (ih (w.step e))
    cases e with
    | advance nanos => exact Instant.seconds_le_after _ _
    | _ => exact Int.le_refl _

theorem elapsed_le_run (w : Fleet ι η) (es : List (Event ι η)) :
    w.clock.elapsed ≤ (w.run es).clock.elapsed := by
  induction es generalizing w with
  | nil => exact Nat.le_refl _
  | cons e es ih => exact Nat.le_trans (w.elapsed_le_step e) (ih (w.step e))

/-- Both clocks advance by the same. -/
theorem unixNanos_run (w : Fleet ι η) (es : List (Event ι η)) :
    (w.run es).clock.wall.unixNanos - (w.run es).clock.elapsed =
      w.clock.wall.unixNanos - w.clock.elapsed := by
  induction es generalizing w with
  | nil => rfl
  | cons e es ih =>
    refine (ih (w.step e)).trans ?_
    cases e with
    | advance nanos =>
      show (w.clock.wall.after nanos).unixNanos - ((w.clock.elapsed + nanos : Nat) : Int) = _
      rw [Instant.unixNanos_after]
      omega
    | _ => rfl

theorem nanos_run_lt {w : Fleet ι η} (h : w.clock.wall.nanos < 2 * TimeUnit.nanosPerSecond)
    (es : List (Event ι η)) : (w.run es).clock.wall.nanos < 2 * TimeUnit.nanosPerSecond := by
  induction es generalizing w with
  | nil => exact h
  | cons e es ih =>
    refine ih ?_
    cases e with
    | advance nanos => exact Instant.nanos_after_lt _ _
    | _ => exact h

/-! ## Renewals of the lease -/

/-- The lease of a scheduler after a start and what came since: every renewal counts. -/
structure Covers (v : Fleet ι η) (i : ι) (es : List (Event ι η)) (expiry : Nat) : Prop where
  heldUntil : ((v.run es).lock i).heldUntil = some expiry
  recent : expiry ≤ (v.run es).clock.elapsed + (v.lock i).ttl
  start : v.clock.elapsed + (v.lock i).ttl ≤ expiry
  renewal : ∀ as bs, es = as ++ .move i (.callback .refresh) :: bs →
    (v.run as).clock.elapsed + (v.lock i).ttl ≤ expiry

/-- A lock that is held stays held until the expiry that it has, and a renewal puts that off. -/
theorem IsSound.heldUntil_step {w : Fleet ι η} (h : w.IsSound) {e : Event ι η}
    (he : e.KeepsOff w.lock) {i : ι} (hstop : e ≠ .move i .stop) {expiry : Nat}
    (huntil : (w.lock i).heldUntil = some expiry) (hlive : w.clock.elapsed < expiry)
    (hrecent : expiry ≤ w.clock.elapsed + (w.lock i).ttl)
    (hclock : w.clock.elapsed + (w.lock i).ttl <
      LeaseStore.clockSeconds * TimeUnit.nanosPerSecond) :
    ∃ expiry', ((w.step e).lock i).heldUntil = some expiry' ∧ expiry ≤ expiry' ∧
      expiry' ≤ w.clock.elapsed + (w.lock i).ttl ∧
        (e = .move i (.callback .refresh) → expiry' = w.clock.elapsed + (w.lock i).ttl) := by
  have hheld : (w.lock i).hasLock w.clock.elapsed = true :=
    (LeaseLock.hasLock_iff _ _).mpr ⟨expiry, huntil, hlive⟩
  rcases h.step_lock_cases he i with ⟨-, htaken⟩ | ⟨hnot, hsame⟩ | ⟨-, -, hrelease⟩
  · exact ⟨_, htaken, hrecent, Nat.le_refl _, fun _ => rfl⟩
  · refine ⟨expiry, by rw [hsame, huntil], Nat.le_refl _, hrecent, ?_⟩
    rintro rfl
    have htried := LeaseLock.tryLock_of_hasLock (h.agrees i) hheld hclock
    exact absurd ((h.takes_iff i he).mpr ⟨rfl, htried⟩) hnot
  · exact absurd (hrelease hheld).1 hstop

theorem Covers.nil {w : Fleet ι η} (h : w.IsSound) {e : Event ι η} (he : e.KeepsOff w.lock) {i : ι}
    (htakes : Moment.Takes { before := w, event := e } i)
    (hclock : (w.step e).clock = w.clock) :
    Covers (w.step e) i [] (w.clock.elapsed + (w.lock i).ttl) := by
  have httl := (h.isSame_step he i).ttl
  have huntil : ((w.step e).lock i).heldUntil = some (w.clock.elapsed + (w.lock i).ttl) := by
    rcases h.step_lock_cases he i with ⟨-, htaken⟩ | ⟨hnot, -⟩ | ⟨hnot, -⟩
    · exact htaken
    · exact absurd htakes hnot
    · exact absurd htakes hnot
  have hspan : (w.step e).clock.elapsed + ((w.step e).lock i).ttl =
      w.clock.elapsed + (w.lock i).ttl := by
    rw [hclock, httl]
  refine ⟨huntil, Nat.le_of_eq hspan.symm, Nat.le_of_eq hspan, ?_⟩
  intro as bs hsplit
  cases as <;> cases hsplit

theorem Covers.snoc {v : Fleet ι η} {i : ι} {es : List (Event ι η)} {expiry : Nat}
    (hcovers : Covers v i es expiry) (h : v.IsSound) {e : Event ι η}
    (hes : ∀ f ∈ es ++ [e], f.KeepsOff v.lock) (hstop : e ≠ .move i .stop)
    (hlive : (v.run es).clock.elapsed < expiry)
    (hclock : (v.run es).clock.elapsed + (v.lock i).ttl <
      LeaseStore.clockSeconds * TimeUnit.nanosPerSecond) :
    ∃ expiry', Covers v i (es ++ [e]) expiry' := by
  obtain ⟨hsound, hpast, hlast⟩ := h.run_parts hes
  have he : e.KeepsOff (v.run es).lock := hlast e List.mem_cons_self
  have httl : ((v.run es).lock i).ttl = (v.lock i).ttl := (h.isSame_run hpast i).ttl
  have hstep : v.run (es ++ [e]) = (v.run es).step e := by
    rw [run_append]
    rfl
  have hlater := (v.run es).elapsed_le_step e
  obtain ⟨expiry', huntil, hle, hrecent, hrenewed⟩ :=
    hsound.heldUntil_step he hstop hcovers.heldUntil hlive (by rw [httl]; exact hcovers.recent)
      (by rw [httl]; exact hclock)
  rw [httl] at hrecent hrenewed
  refine ⟨expiry', ?_, ?_, ?_, ?_⟩
  · rw [hstep]
    exact huntil
  · rw [hstep]
    omega
  · exact Nat.le_trans hcovers.start hle
  · intro as bs hsplit
    -- the last event is the renewal itself, or the renewal was before it
    rcases List.eq_nil_or_concat bs with rfl | ⟨cs, f, rfl⟩
    · obtain ⟨rfl, rfl⟩ := List.append_singleton_inj.mp hsplit
      exact Nat.le_of_eq (hrenewed rfl).symm
    · have hshorter : es ++ [e] = (as ++ .move i (.callback .refresh) :: cs) ++ [f] := by
        simpa using hsplit
      obtain ⟨hes', -⟩ := List.append_singleton_inj.mp hshorter
      exact Nat.le_trans (hcovers.renewal as cs hes') hle

end Fleet
end RecurringJobs
