import RecurringJobs.Proofs.Scheduler.Fleet

/-!
How a lease goes from one scheduler of a fleet to another.

A gated run starts only while its scheduler holds the lease.  From then on the last try that took
the lease tells when it ends (`Ends`), unless the scheduler is stopped before: each step of the fleet
keeps this, and when another scheduler holds the lease it must have ended.
-/

namespace RecurringJobs
namespace Fleet

variable {ι η : Type}

theorem IsSound.hasLock_of_starts {w : Fleet ι η} (h : w.IsSound) {e : Event ι η} {i : ι}
    (hstarts : Moment.Starts { before := w, event := e } i) :
    (w.lock i).hasLock w.clock.elapsed = true := by
  obtain ⟨x, -, hrun⟩ := hstarts
  have hgate := Scheduler.attempt_result (h.guarded i) w.store w.clock.elapsed x
  have hgo : (if (Lock.lease (w.lock i)).hasLock w.clock.elapsed then some x else none) = some x :=
    hgate.symm.trans hrun
  split at hgo
  · next hheld => exact hheld
  · cases hgo

theorem IsSound.starts_holder {w : Fleet ι η} (h : w.IsSound) {e : Event ι η} {i : ι}
    (hstarts : Moment.Starts { before := w, event := e } i) :
    w.store.holder? w.clock.elapsed (w.lock i).name = some (w.lock i).holder :=
  (h.agrees i).hasLock_iff_holder.mp (h.hasLock_of_starts hstarts)

/-! ## The last try -/

def LastTake (past : List (Moment ι η)) (i : ι) (m : Moment ι η) : Prop :=
  ∃ before later, past = before ++ m :: later ∧ m.Takes i ∧ ∀ x ∈ later, ¬x.Takes i

theorem lastTake_of_takes (past : List (Moment ι η)) {i : ι} {x : Moment ι η} (hx : x.Takes i) :
    LastTake (past ++ [x]) i x :=
  ⟨past, [], rfl, hx, fun _ hy => by cases hy⟩

theorem LastTake.append {past : List (Moment ι η)} {i : ι} {m x : Moment ι η}
    (h : LastTake past i m) (hx : ¬x.Takes i) : LastTake (past ++ [x]) i m := by
  obtain ⟨before, later, rfl, hm, hlater⟩ := h
  refine ⟨before, later ++ [x], by simp, hm, ?_⟩
  intro y hy
  rcases List.mem_append.mp hy with hy | hy
  · exact hlater y hy
  · rw [List.mem_singleton.mp hy]
    exact hx

/-- What a lock remembers goes back to the last try that took the lease. -/
def Remembers (past : List (Moment ι η)) (w : Fleet ι η) (i : ι) : Prop :=
  ∀ e, (w.lock i).heldUntil = some e →
    ∃ m, LastTake past i m ∧ m.now ≤ w.clock.elapsed ∧ e = m.now + (w.lock i).ttl

/-- The lease that a scheduler held at the instant `t` ends after it: the lock remembers when, or it
is over. -/
def Ends (past : List (Moment ι η)) (w : Fleet ι η) (i : ι) (t : Nat) : Prop :=
  ∃ m, LastTake past i m ∧ t < m.now + (w.lock i).ttl ∧
    ((w.lock i).heldUntil = some (m.now + (w.lock i).ttl) ∨
      m.now + (w.lock i).ttl ≤ w.clock.elapsed)

theorem Remembers.ends {past : List (Moment ι η)} {w : Fleet ι η} {i : ι}
    (hremembers : Remembers past w i) (h : w.IsSound) {e : Event ι η}
    (hstarts : Moment.Starts { before := w, event := e } i) :
    Ends past w i w.clock.elapsed ∧ 0 < (w.lock i).ttl := by
  obtain ⟨expiry, huntil, hlive⟩ := (LeaseLock.hasLock_iff _ _).mp (h.hasLock_of_starts hstarts)
  obtain ⟨m, hlast, hnow, rfl⟩ := hremembers expiry huntil
  exact ⟨⟨m, hlast, hlive, Or.inl huntil⟩, by omega⟩

/-- When one scheduler holds the lease, the lease of another one has ended. -/
theorem Ends.over {past : List (Moment ι η)} {w : Fleet ι η} {i j : ι} {t : Nat}
    (hends : Ends past w i t) (h : w.IsSound) (hname : (w.lock i).name = (w.lock j).name)
    (hij : i ≠ j) (hheld : (w.lock j).hasLock w.clock.elapsed = true) :
    ∃ m, LastTake past i m ∧ t < m.now + (w.lock i).ttl ∧
      m.now + (w.lock i).ttl ≤ w.clock.elapsed := by
  obtain ⟨m, hlast, hlater, hwhen⟩ := hends
  refine ⟨m, hlast, hlater, ?_⟩
  rcases hwhen with huntil | hover
  · refine Nat.le_of_not_lt fun hlive => ?_
    have hmine : (w.lock i).hasLock w.clock.elapsed = true :=
      (LeaseLock.hasLock_iff _ _).mpr ⟨_, huntil, hlive⟩
    exact hij (h.contenders.eq_of_hasLock hname hmine hheld)
  · exact hover

variable [DecidableEq ι]

theorem Remembers.step {past : List (Moment ι η)} {w : Fleet ι η} {i : ι}
    (hremembers : Remembers past w i) (h : w.IsSound) {e : Event ι η} (he : e.KeepsOff w.lock) :
    Remembers (past ++ [{ before := w, event := e }]) (w.step e) i := by
  have hclock := w.elapsed_le_step e
  intro expiry huntil
  rw [(h.isSame_step he i).ttl]
  rcases h.step_lock_cases he i with ⟨htakes, htaken⟩ | ⟨hnot, hsame⟩ | ⟨-, hlost, -⟩
  · rw [htaken] at huntil
    exact ⟨_, lastTake_of_takes past htakes, hclock, (Option.some.inj huntil).symm⟩
  · rw [hsame] at huntil
    obtain ⟨m, hlast, hnow, hend⟩ := hremembers expiry huntil
    exact ⟨m, hlast.append hnot, Nat.le_trans hnow hclock, hend⟩
  · rw [hlost] at huntil
    cases huntil

/-- A lease that is held ends as its last try says, unless its scheduler releases it. -/
theorem Ends.step {past : List (Moment ι η)} {w : Fleet ι η} {i : ι} {t : Nat}
    (hends : Ends past w i t) (h : w.IsSound) {e : Event ι η} (he : e.KeepsOff w.lock)
    (ht : t ≤ w.clock.elapsed) (httl : 0 < (w.lock i).ttl) :
    Moment.Releases { before := w, event := e } i ∨
      Ends (past ++ [{ before := w, event := e }]) (w.step e) i t := by
  have hclock := w.elapsed_le_step e
  obtain ⟨m, hlast, hlater, hwhen⟩ := hends
  unfold Ends
  rw [(h.isSame_step he i).ttl]
  rcases h.step_lock_cases he i with ⟨htakes, htaken⟩ | ⟨hnot, hsame⟩ | ⟨hnot, hlost, hrelease⟩
  · refine Or.inr ⟨_, lastTake_of_takes past htakes, ?_, Or.inl htaken⟩
    show t < w.clock.elapsed + _
    omega
  · refine Or.inr ⟨m, hlast.append hnot, hlater, ?_⟩
    rw [hsame]
    rcases hwhen with hheld | hover
    · exact Or.inl hheld
    · exact Or.inr (Nat.le_trans hover hclock)
  · by_cases hover : m.now + (w.lock i).ttl ≤ w.clock.elapsed
    · exact Or.inr ⟨m, hlast.append hnot, hlater, Or.inr (Nat.le_trans hover hclock)⟩
    · have hheld : (w.lock i).heldUntil = some (m.now + (w.lock i).ttl) := by
        rcases hwhen with hheld | hwas
        · exact hheld
        · exact absurd hwas hover
      have hlive : w.clock.elapsed < m.now + (w.lock i).ttl := Nat.lt_of_not_le hover
      exact Or.inl (hrelease ((LeaseLock.hasLock_iff _ _).mpr ⟨_, hheld, hlive⟩))

/-! ## Runs -/

theorem run_append (w : Fleet ι η) (es fs : List (Event ι η)) :
    w.run (es ++ fs) = (w.run es).run fs := by
  induction es generalizing w with
  | nil => rfl
  | cons e es ih => exact ih (w.step e)

theorem IsSound.keepsOff_tail {w : Fleet ι η} (h : w.IsSound) {e : Event ι η}
    {es : List (Event ι η)} (hes : ∀ f ∈ e :: es, f.KeepsOff w.lock) :
    ∀ f ∈ es, f.KeepsOff (w.step e).lock :=
  fun f hf => (hes f (List.mem_cons_of_mem e hf)).congr (h.isSame_step (hes e List.mem_cons_self))

theorem IsSound.run {w : Fleet ι η} (h : w.IsSound) {es : List (Event ι η)}
    (hes : ∀ e ∈ es, e.KeepsOff w.lock) : (w.run es).IsSound := by
  induction es generalizing w with
  | nil => exact h
  | cons e es ih => exact ih (h.step (hes e List.mem_cons_self)) (h.keepsOff_tail hes)

theorem IsSound.isSame_run {w : Fleet ι η} (h : w.IsSound) {es : List (Event ι η)}
    (hes : ∀ e ∈ es, e.KeepsOff w.lock) (i : ι) : ((w.run es).lock i).IsSame (w.lock i) := by
  induction es generalizing w with
  | nil => exact LeaseLock.IsSame.refl _
  | cons e es ih =>
    have he := hes e List.mem_cons_self
    have hrest := ih (h.step he) (h.keepsOff_tail hes)
    exact hrest.trans (h.isSame_step he i)

/-- In the middle of a run everything is as at its beginning. -/
theorem IsSound.run_parts {w : Fleet ι η} (h : w.IsSound) {fs gs : List (Event ι η)}
    (hes : ∀ e ∈ fs ++ gs, e.KeepsOff w.lock) :
    (w.run fs).IsSound ∧ (∀ f ∈ fs, f.KeepsOff w.lock) ∧
      ∀ g ∈ gs, g.KeepsOff (w.run fs).lock := by
  obtain ⟨hfs, hgs⟩ := List.forall_mem_append.mp hes
  exact ⟨h.run hfs, hfs, fun g hg => (hgs g hg).congr (h.isSame_run hfs)⟩

theorem Remembers.run {past : List (Moment ι η)} {w : Fleet ι η} {i : ι}
    (hremembers : Remembers past w i) (h : w.IsSound) {es : List (Event ι η)}
    (hes : ∀ e ∈ es, e.KeepsOff w.lock) : Remembers (past ++ w.history es) (w.run es) i := by
  induction es generalizing w past with
  | nil =>
    rw [history, List.append_nil]
    exact hremembers
  | cons e es ih =>
    have he := hes e List.mem_cons_self
    have hrest := ih (hremembers.step h he) (h.step he) (h.keepsOff_tail hes)
    simpa [history, Fleet.run] using hrest

theorem Ends.run {past : List (Moment ι η)} {w : Fleet ι η} {i : ι} {t : Nat}
    (hends : Ends past w i t) (h : w.IsSound) {es : List (Event ι η)}
    (hes : ∀ e ∈ es, e.KeepsOff w.lock) (ht : t ≤ w.clock.elapsed) (httl : 0 < (w.lock i).ttl) :
    (∃ m ∈ w.history es, m.Releases i) ∨ Ends (past ++ w.history es) (w.run es) i t := by
  induction es generalizing w past with
  | nil =>
    rw [history, List.append_nil]
    exact Or.inr hends
  | cons e es ih =>
    have he := hes e List.mem_cons_self
    rcases hends.step h he ht httl with hreleases | hstep
    · exact Or.inl ⟨_, List.mem_cons_self, hreleases⟩
    · have hlater := Nat.le_trans ht (w.elapsed_le_step e)
      rw [← (h.isSame_step he i).ttl] at httl
      rcases ih hstep (h.step he) (h.keepsOff_tail hes) hlater httl with ⟨m, hm, hreleases⟩ | hrest
      · exact Or.inl ⟨m, List.mem_cons_of_mem _ hm, hreleases⟩
      · exact Or.inr (by simpa [history, Fleet.run] using hrest)

theorem history_eq_append {w : Fleet ι η} {es : List (Event ι η)} {a b : List (Moment ι η)}
    (h : w.history es = a ++ b) :
    ∃ fs gs, es = fs ++ gs ∧ a = w.history fs ∧ b = (w.run fs).history gs := by
  induction a generalizing w es with
  | nil => exact ⟨[], es, rfl, rfl, h.symm⟩
  | cons m a ih =>
    cases es with
    | nil => cases h
    | cons e es =>
      obtain ⟨hm, hrest⟩ := List.cons.inj h
      obtain ⟨fs, gs, rfl, rfl, rfl⟩ := ih hrest
      exact ⟨e :: fs, gs, rfl, by rw [← hm]; rfl, rfl⟩

theorem history_eq_cons {w : Fleet ι η} {es : List (Event ι η)} {m : Moment ι η}
    {b : List (Moment ι η)} (h : w.history es = m :: b) :
    ∃ e fs, es = e :: fs ∧ m = { before := w, event := e } ∧ b = (w.step e).history fs := by
  cases es with
  | nil => cases h
  | cons e es =>
    obtain ⟨hm, hrest⟩ := List.cons.inj h
    exact ⟨e, es, rfl, hm.symm, hrest.symm⟩

/-- Between a start on one scheduler and a start on another one, the lease of the first ends. -/
theorem Remembers.handover {past : List (Moment ι η)} {w : Fleet ι η} {i j : ι}
    (hremembers : Remembers past w i) (h : w.IsSound) {e g : Event ι η} {es : List (Event ι η)}
    (hes : ∀ f ∈ e :: es, f.KeepsOff w.lock) (hname : (w.lock i).name = (w.lock j).name)
    (hij : i ≠ j) (hfirst : Moment.Starts { before := w, event := e } i)
    (hsecond : Moment.Starts { before := w.run (e :: es), event := g } j) :
    (∃ m ∈ (w.step e).history es, m.Releases i) ∨
      ∃ m, LastTake (past ++ w.history (e :: es)) i m ∧
        w.clock.elapsed < m.now + (w.lock i).ttl ∧
          m.now + (w.lock i).ttl ≤ (w.run (e :: es)).clock.elapsed := by
  obtain ⟨hends, httl⟩ := hremembers.ends h hfirst
  rcases hends.run h hes (Nat.le_refl _) httl with ⟨m, hm, hreleases⟩ | hends
  · refine Or.inl ⟨m, ?_, hreleases⟩
    rcases List.mem_cons.mp hm with rfl | hm
    · -- a start is no stop
      obtain ⟨x, hcallback, -⟩ := hfirst
      have hstop := hreleases.1
      rw [hcallback] at hstop
      cases hstop
    · exact hm
  · have hsound := h.run hes
    have hi := h.isSame_run hes i
    have hj := h.isSame_run hes j
    have hsame : ((w.run (e :: es)).lock i).name = ((w.run (e :: es)).lock j).name := by
      rw [hi.name, hj.name, hname]
    have hover := hends.over hsound hsame hij (hsound.hasLock_of_starts hsecond)
    rw [hi.ttl] at hover
    exact Or.inr hover

/-- A gated run starts only on the scheduler that holds the lease.  Between a start on one scheduler
and a start on another one the lease of the first has ended: it was released when the scheduler was
stopped, or its time since the last try that took it has run out. -/
theorem starts_exclusive {w : Fleet ι η} {name : String} (hnew : w.IsNew name)
    (es : List (Event ι η)) (hes : ∀ e ∈ es, e.KeepsOff w.lock) :
    (∀ m ∈ w.history es, ∀ i, m.Starts i → m.holder? name = some (w.lock i).holder) ∧
      ∀ earlier first between second later i j,
        w.history es = earlier ++ first :: between ++ second :: later →
        first.Starts i → second.Starts j → i ≠ j →
          (∃ m ∈ between, m.Releases i) ∨
            ∃ m, LastTake (earlier ++ first :: between) i m ∧
              first.now < m.now + (w.lock i).ttl ∧ m.now + (w.lock i).ttl ≤ second.now := by
  have h := hnew.isSound
  constructor
  · intro m hm i hstarts
    obtain ⟨a, b, hsplit⟩ := List.append_of_mem hm
    obtain ⟨fs, gs, hes', rfl, hb⟩ := history_eq_append hsplit
    obtain ⟨e, gs, rfl, rfl, -⟩ := history_eq_cons hb.symm
    rw [hes'] at hes
    obtain ⟨hsound, hfs, -⟩ := h.run_parts hes
    have hsame := h.isSame_run hfs i
    have hholder := hsound.starts_holder hstarts
    rw [hsame.name, hsame.holder, hnew.name_eq i] at hholder
    exact hholder
  · intro earlier first between second later i j hsplit hfirst hsecond hij
    obtain ⟨fs, gs, hes', hpast, hrest⟩ := history_eq_append hsplit
    obtain ⟨g, gs, rfl, rfl, -⟩ := history_eq_cons hrest.symm
    obtain ⟨es₁, es₂, rfl, rfl, hmiddle⟩ := history_eq_append hpast.symm
    obtain ⟨e, es₂, rfl, rfl, rfl⟩ := history_eq_cons hmiddle.symm
    rw [hes', List.append_assoc] at hes
    obtain ⟨hsound, hes₁, hes₂⟩ := h.run_parts hes
    have huntried : Remembers [] w i := fun expiry huntil => by
      rw [hnew.untried i] at huntil
      cases huntil
    have hremembers := huntried.run h hes₁
    have hi := h.isSame_run hes₁ i
    have hj := h.isSame_run hes₁ j
    have hname : ((w.run es₁).lock i).name = ((w.run es₁).lock j).name := by
      rw [hi.name, hj.name, hnew.name_eq i, hnew.name_eq j]
    rw [run_append] at hsecond ⊢
    rw [← hi.ttl]
    exact hremembers.handover hsound (fun f hf => hes₂ f (List.mem_append_left _ hf)) hname hij
      hfirst hsecond

/-- Two schedulers with engines driven by hand, and locks for one lease. -/
def pair : Fleet Bool String :=
  { schedulers := fun second =>
      { engine := .byHand
        lock := some (.lease
          { name := "nightly", holder := if second then "b" else "a", ttl := 5 }) }
    clock := { wall := { seconds := 0 } } }

def backup : Execution String := { name := "backup", handler := "rsync" }

/-- The first scheduler runs a job and falls silent; the second takes over when the time of the
lease is up. -/
def failover : List (Event Bool String) :=
  [.move false .start, .move true .start, .move false (.callback (.job backup)), .advance 5,
    .move true (.callback .refresh), .move true (.callback (.job backup))]

def failoverMoment (n : Nat) (e : Event Bool String) : Moment Bool String :=
  { before := pair.run (failover.take n), event := e }

theorem failover_exclusive :
    (failoverMoment 5 (.move true (.callback (.job backup)))).holder? "nightly" = some "b" ∧
      ∃ m : Moment Bool String, m.Takes false ∧ m.now + 5 ≤ 5 := by
  have hnew : pair.IsNew "nightly" :=
    { guarded := fun _ => rfl
      name_eq := fun _ => rfl
      untried := fun _ => rfl
      distinct := by decide
      free := fun l hl => by cases hl }
  have hoff : ∀ e ∈ failover, e.KeepsOff pair.lock := by
    simp [failover, Event.KeepsOff]
  obtain ⟨hholder, hended⟩ := starts_exclusive hnew failover hoff
  have hfirst : (failoverMoment 2 (.move false (.callback (.job backup)))).Starts false :=
    ⟨backup, rfl, by decide +kernel⟩
  have hsecond : (failoverMoment 5 (.move true (.callback (.job backup)))).Starts true :=
    ⟨backup, rfl, by decide +kernel⟩
  refine ⟨hholder _ (by simp [history, failover, failoverMoment, run]) true hsecond, ?_⟩
  rcases hended
      [failoverMoment 0 (.move false .start), failoverMoment 1 (.move true .start)] _
      [failoverMoment 3 (.advance 5), failoverMoment 4 (.move true (.callback .refresh))] _ []
      false true rfl hfirst hsecond (by decide) with ⟨m, hm, hreleases⟩ | ⟨m, hlast, -, hover⟩
  · have hstop := hreleases.1
    simp only [List.mem_cons, List.not_mem_nil, or_false] at hm
    rcases hm with rfl | rfl <;> cases hstop
  · obtain ⟨_, _, -, htakes, -⟩ := hlast
    exact ⟨m, htakes, hover⟩

end Fleet
end RecurringJobs
