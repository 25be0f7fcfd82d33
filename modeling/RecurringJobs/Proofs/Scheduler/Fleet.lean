import RecurringJobs.Proofs.Lock.Contention
import RecurringJobs.Proofs.Scheduler.LockCalls

/-!
Schedulers that contend for one lease.

The schedulers of a fleet have the store of leases and the clocks in common, and each has a lock for
the same lease.  Seen from the locks a fleet is a contention (`contention_step`), so each lock agrees
with the store.  On top of that `step_lock_cases` tells how a lock can change hands: it is taken,
left alone, or lost, and it is not lost while it is held unless its scheduler stops.
-/

namespace RecurringJobs

structure Fleet (ι η : Type) where
  schedulers : ι → Scheduler η
  store : LeaseStore := {}
  clock : Clock

namespace Fleet

inductive Event (ι η : Type) where
  | move (i : ι) (m : Scheduler.Move η)
  /-- A call of the store by somebody else. -/
  | acquire (name holder : String) (ttl : Nat)
  | release (name holder : String)
  /-- Time passes, or none does. -/
  | advance (nanos : Nat)

variable {ι η : Type}

def lock (w : Fleet ι η) (i : ι) : LeaseLock :=
  match (w.schedulers i).lock with
  | some (.lease l) => l
  | _ => { name := "", holder := "", ttl := 0 }

/-- Nobody replaces a lock, and nobody else calls the store as the holder of one. -/
def Event.KeepsOff (locks : ι → LeaseLock) : Event ι η → Prop
  | move _ m => ∀ l, m ≠ .setLock l
  | acquire name holder _ | release name holder =>
    ∀ i, ¬((locks i).name = name ∧ (locks i).holder = holder)
  | advance _ => True

theorem Event.KeepsOff.congr {locks locks' : ι → LeaseLock} {e : Event ι η}
    (h : e.KeepsOff locks) (hsame : ∀ i, (locks' i).IsSame (locks i)) : e.KeepsOff locks' := by
  cases e with
  | move i m => exact h
  | acquire name holder ttl =>
    intro i
    rw [(hsame i).name, (hsame i).holder]
    exact h i
  | release name holder =>
    intro i
    rw [(hsame i).name, (hsame i).holder]
    exact h i
  | advance nanos => exact trivial

/-- Every scheduler has a lock for the lease that was not tried yet, under a holder of its own. -/
structure IsNew (w : Fleet ι η) (name : String) : Prop where
  guarded : ∀ i, (w.schedulers i).lock = some (.lease (w.lock i))
  name_eq : ∀ i, (w.lock i).name = name
  untried : ∀ i, (w.lock i).heldUntil = none
  distinct : ∀ i j, (w.lock i).holder = (w.lock j).holder → i = j
  free : ∀ l, w.store.leases[name]? = some l → ∀ i, (w.lock i).holder ≠ l.holder

/-- What happens, and the fleet to which it happens. -/
structure Moment (ι η : Type) where
  before : Fleet ι η
  event : Event ι η

namespace Moment

def now (m : Moment ι η) : Nat := m.before.clock.elapsed

def holder? (m : Moment ι η) (name : String) : Option String :=
  m.before.store.holder? m.now name

/-- A gated run of a job by a scheduler is not skipped. -/
def Starts (m : Moment ι η) (i : ι) : Prop :=
  ∃ x : Execution η, m.event = .move i (.callback (.job x)) ∧
    ((m.before.schedulers i).take m.before.store m.before.clock (.callback (.job x))).result = some x

/-- A scheduler tries its lock and takes or renews the lease. -/
def Takes (m : Moment ι η) (i : ι) : Prop :=
  ∃ move, m.event = .move i move ∧
    .tryLock none ∈
      lockCalls ((m.before.schedulers i).take m.before.store m.before.clock move).effects

end Moment

/-! ## The contention of the locks -/

def contention (w : Fleet ι η) : Contention ι :=
  { locks := w.lock, store := w.store, now := w.clock.elapsed }

def useEvent (i : ι) : Option LockUse → Contention.Event ι
  | some .take => .tryLock i
  | some .giveBack => .tryUnlock i
  | _ => .advance 0

/-- What an event is to the locks. -/
def shadow (w : Fleet ι η) : Event ι η → Contention.Event ι
  | .move i m => useEvent i ((w.schedulers i).lockUse m)
  | .acquire name holder ttl => .acquire name holder ttl
  | .release name holder => .release name holder
  | .advance nanos => .advance nanos

/-- Every scheduler has a lock, and the locks agree with the store. -/
structure IsSound (w : Fleet ι η) : Prop where
  guarded : ∀ i, (w.schedulers i).lock = some (.lease (w.lock i))
  contenders : w.contention.IsSound

theorem IsNew.isSound {w : Fleet ι η} {name : String} (h : w.IsNew name) : w.IsSound := by
  refine ⟨h.guarded, ?_, ?_⟩
  · intro i e he
    show (w.lock i).heldUntil = some e ↔ w.store.leases[(w.lock i).name]? = some _
    rw [h.untried i, h.name_eq i]
    constructor
    · intro hnone
      cases hnone
    · intro hlease
      exact absurd rfl (h.free _ hlease i)
  · intro i j _ hholder
    exact h.distinct i j hholder

theorem isForeign_useEvent (locks : ι → LeaseLock) (i : ι) (use : Option LockUse) :
    (useEvent i use).IsForeign locks := by
  cases use with
  | none => exact trivial
  | some use => cases use <;> exact trivial

theorem isForeign_shadow {w : Fleet ι η} {e : Event ι η} (he : e.KeepsOff w.lock) :
    (w.shadow e).IsForeign w.contention.locks := by
  cases e with
  | move i m => exact isForeign_useEvent w.lock i _
  | acquire name holder ttl => exact he
  | release name holder => exact he
  | advance nanos => exact trivial

theorem lock_of_lease {w : Fleet ι η} {i : ι} {l : LeaseLock}
    (h : (w.schedulers i).lock = some (.lease l)) : w.lock i = l := by
  unfold lock
  rw [h]

theorem IsSound.agrees {w : Fleet ι η} (h : w.IsSound) (i : ι) :
    (w.lock i).Agrees w.store w.clock.elapsed :=
  h.contenders.agrees i

theorem IsSound.takes_iff {w : Fleet ι η} (h : w.IsSound) (i : ι) {m : Scheduler.Move η}
    (hm : ∀ l, m ≠ .setLock l) :
    Moment.Takes { before := w, event := .move i m } i ↔
      (w.schedulers i).lockUse m = some .take ∧
        ((w.lock i).tryLock w.store w.clock.elapsed).1 = .ok := by
  have hcalls := (Scheduler.take_leaves (h.guarded i) w.store w.clock hm).calls
  have hmem := (Lock.lease (w.lock i)).tryLock_mem_used w.store w.clock.elapsed
    ((w.schedulers i).lockUse m)
  rw [← hcalls] at hmem
  refine Iff.trans ?_ hmem
  constructor
  · rintro ⟨move, hmove, htaken⟩
    cases hmove
    exact htaken
  · intro htaken
    exact ⟨m, rfl, htaken⟩

/-! ## Runs -/

variable [DecidableEq ι]

def step (w : Fleet ι η) : Event ι η → Fleet ι η
  | .move i m =>
    let left := (w.schedulers i).take w.store w.clock m
    { w with schedulers := Function.update w.schedulers i left.scheduler, store := left.store }
  | .acquire name holder ttl =>
    { w with store := w.store.acquired w.clock.elapsed name holder ttl }
  | .release name holder => { w with store := w.store.released w.clock.elapsed name holder }
  | .advance nanos => { w with clock := w.clock.advance nanos }

def run (w : Fleet ι η) : List (Event ι η) → Fleet ι η
  | [] => w
  | e :: es => (w.step e).run es

def history (w : Fleet ι η) : List (Event ι η) → List (Moment ι η)
  | [] => []
  | e :: es => { before := w, event := e } :: (w.step e).history es

namespace Moment

def after (m : Moment ι η) : Fleet ι η := m.before.step m.event

/-- A scheduler that holds the lease is stopped and holds it no more. -/
def Releases (m : Moment ι η) (i : ι) : Prop :=
  m.event = .move i .stop ∧
    m.holder? (m.before.lock i).name = some (m.before.lock i).holder ∧
    m.after.store.holder? m.now (m.before.lock i).name ≠ some (m.before.lock i).holder

end Moment

/-! ## Steps -/

theorem step_useEvent (c : Contention ι) (i : ι) (use : Option LockUse) :
    c.step (useEvent i use) =
      { c with locks := Function.update c.locks i ((c.locks i).used c.store c.now use).1
               store := ((c.locks i).used c.store c.now use).2 } := by
  cases use with
  | none => simp [useEvent, Contention.step, LeaseLock.used]
  | some use => cases use <;> simp [useEvent, Contention.step, LeaseLock.used]

theorem IsSound.step_move {w : Fleet ι η} (h : w.IsSound) (i : ι) {m : Scheduler.Move η}
    (hm : ∀ l, m ≠ .setLock l) :
    let left := (w.lock i).used w.store w.clock.elapsed ((w.schedulers i).lockUse m)
    (∀ j, ((w.step (.move i m)).schedulers j).lock =
        some (.lease (Function.update w.lock i left.1 j))) ∧
      (w.step (.move i m)).store = left.2 := by
  intro left
  have hleaves := Scheduler.take_leaves (h.guarded i) w.store w.clock hm
  have hused := Lock.used_lease (w.lock i) w.store w.clock.elapsed ((w.schedulers i).lockUse m)
  constructor
  · intro j
    by_cases hj : j = i
    · subst hj
      have hlock := hleaves.lock
      rw [hused] at hlock
      simpa [step] using hlock
    · simpa [step, hj] using h.guarded j
  · have hstore := hleaves.store
    rw [hused] at hstore
    exact hstore

theorem IsSound.guarded_step {w : Fleet ι η} (h : w.IsSound) {e : Event ι η}
    (he : e.KeepsOff w.lock) (i : ι) :
    ((w.step e).schedulers i).lock = some (.lease ((w.step e).lock i)) := by
  cases e with
  | move j m =>
    have hlock := (h.step_move j he).1 i
    rw [lock_of_lease hlock]
    exact hlock
  | acquire name holder ttl => exact h.guarded i
  | release name holder => exact h.guarded i
  | advance nanos => exact h.guarded i

theorem IsSound.contention_step {w : Fleet ι η} (h : w.IsSound) {e : Event ι η}
    (he : e.KeepsOff w.lock) : (w.step e).contention = w.contention.step (w.shadow e) := by
  cases e with
  | move i m =>
    obtain ⟨hlocks, hstore⟩ := h.step_move i he
    have hlock : (w.step (.move i m)).lock = Function.update w.lock i
        ((w.lock i).used w.store w.clock.elapsed ((w.schedulers i).lockUse m)).1 :=
      funext fun j => lock_of_lease (hlocks j)
    show _ = w.contention.step (useEvent i ((w.schedulers i).lockUse m))
    rw [step_useEvent]
    unfold contention
    rw [hlock, hstore]
    rfl
  | acquire name holder ttl => rfl
  | release name holder => rfl
  | advance nanos => rfl

theorem IsSound.step {w : Fleet ι η} (h : w.IsSound) {e : Event ι η} (he : e.KeepsOff w.lock) :
    (w.step e).IsSound where
  guarded := h.guarded_step he
  contenders := by
    rw [h.contention_step he]
    exact h.contenders.step (isForeign_shadow he)

theorem IsSound.isSame_step {w : Fleet ι η} (h : w.IsSound) {e : Event ι η}
    (he : e.KeepsOff w.lock) (i : ι) : ((w.step e).lock i).IsSame (w.lock i) := by
  have hsame := w.contention.step_isSame (w.shadow e) i
  rw [← h.contention_step he] at hsame
  exact hsame

theorem elapsed_le_step (w : Fleet ι η) (e : Event ι η) :
    w.clock.elapsed ≤ (w.step e).clock.elapsed := by
  cases e with
  | advance nanos => exact Nat.le_add_right _ _
  | _ => exact Nat.le_refl _

/-! ## How a lock changes hands -/

theorem IsSound.lock_step_self {w : Fleet ι η} (h : w.IsSound) (i : ι) {m : Scheduler.Move η}
    (hm : ∀ l, m ≠ .setLock l) :
    (w.step (.move i m)).lock i =
      ((w.lock i).used w.store w.clock.elapsed ((w.schedulers i).lockUse m)).1 := by
  rw [lock_of_lease ((h.step_move i hm).1 i), Function.update_self]

theorem IsSound.lock_step_other {w : Fleet ι η} (h : w.IsSound) {e : Event ι η}
    (he : e.KeepsOff w.lock) {i : ι} (hother : ∀ m, e ≠ .move i m) :
    (w.step e).lock i = w.lock i := by
  cases e with
  | move j m =>
    have hij : i ≠ j := by
      rintro rfl
      exact hother m rfl
    rw [lock_of_lease ((h.step_move j he).1 i), Function.update_of_ne hij]
  | acquire name holder ttl => rfl
  | release name holder => rfl
  | advance nanos => rfl

/-- A scheduler that is stopped while it holds the lease holds it no more. -/
theorem IsSound.releases {w : Fleet ι η} (h : w.IsSound) {i : ι}
    (huse : (w.schedulers i).lockUse .stop = some .giveBack)
    (hheld : (w.lock i).hasLock w.clock.elapsed = true) :
    Moment.Releases { before := w, event := .move i .stop } i := by
  have hoff : Event.KeepsOff w.lock (.move i .stop : Event ι η) := fun l hl => by cases hl
  have hagrees := (h.step hoff).agrees i
  have hsame := h.isSame_step hoff i
  have hleft := h.lock_step_self i hoff
  rw [huse] at hleft
  refine ⟨rfl, (h.agrees i).hasLock_iff_holder.mp hheld, ?_⟩
  intro hholder
  have hstill : ((w.step (.move i .stop)).lock i).hasLock w.clock.elapsed = true := by
    refine hagrees.hasLock_iff_holder.mpr ?_
    show (w.step (.move i .stop)).store.holder? w.clock.elapsed _ = some _
    rw [hsame.name, hsame.holder]
    exact hholder
  rw [hleft, LeaseLock.used, LeaseLock.tryUnlock_snd, LeaseLock.hasLock_iff] at hstill
  obtain ⟨_, hnone, -⟩ := hstill
  cases hnone

/-- A lock is taken, left alone, or lost.  One that is held is lost only when its scheduler is
stopped. -/
theorem IsSound.step_lock_cases {w : Fleet ι η} (h : w.IsSound) {e : Event ι η}
    (he : e.KeepsOff w.lock) (i : ι) :
    let x : Moment ι η := { before := w, event := e }
    (x.Takes i ∧ ((w.step e).lock i).heldUntil = some (w.clock.elapsed + (w.lock i).ttl)) ∨
      (¬x.Takes i ∧ (w.step e).lock i = w.lock i) ∨
      (¬x.Takes i ∧ ((w.step e).lock i).heldUntil = none ∧
        ((w.lock i).hasLock w.clock.elapsed = true → x.Releases i)) := by
  intro x
  by_cases hmine : ∃ m, e = .move i m
  · obtain ⟨m, rfl⟩ := hmine
    rw [show x.Takes i ↔ _ from h.takes_iff i he, h.lock_step_self i he]
    cases huse : (w.schedulers i).lockUse m with
    | none => exact Or.inr (Or.inl ⟨by simp, rfl⟩)
    | some use =>
      cases use with
      | ask => exact Or.inr (Or.inl ⟨by simp, rfl⟩)
      | take =>
        rcases (w.lock i).tryLock_cases w.store w.clock.elapsed with
          ⟨-, ht⟩ | ⟨l, hl, -, hne, ht⟩ | ht
        · exact Or.inl (by simp [LeaseLock.used, ht])
        · refine Or.inr (Or.inr ⟨by simp [ht], by simp [LeaseLock.used, ht], ?_⟩)
          -- the lease was another one's, so the lock was not held
          intro hheld
          exact absurd ((h.agrees i).holder_of_hasLock hheld hl) hne
        · exact Or.inr (Or.inl ⟨by simp [ht], by simp [LeaseLock.used, ht]⟩)
      | giveBack =>
        obtain rfl := Scheduler.eq_stop_of_lockUse huse
        refine Or.inr (Or.inr ⟨by simp, by simp [LeaseLock.used, LeaseLock.tryUnlock_snd], ?_⟩)
        exact h.releases huse
  · have hother : ∀ m, e ≠ .move i m := fun m hm => hmine ⟨m, hm⟩
    refine Or.inr (Or.inl ⟨?_, h.lock_step_other he hother⟩)
    rintro ⟨m, hm, -⟩
    exact hother m hm

end Fleet
end RecurringJobs
