import Std.Data.TreeMap.Lemmas
import RecurringJobs.Lock.Lease

/-!
What a lock and the store know of one lease.

Ownership is kept twice: the store has the leases by name, and a lock remembers until when it holds
its own.  `LeaseLock.Agrees` says that both tell the same of every lease that is not over.  Of one
that is over they may tell what they like, since nobody asks, and this is what lets the agreement
survive the passing of time.
-/

namespace RecurringJobs

/-! ## The store

Each operation is described by the leases that it leaves. -/

namespace LeaseStore

theorem isLive_iff (l : Lease) (now : Nat) : l.isLive now = true ↔ now < l.expires := by
  simp [Lease.isLive]

/-- Whether a lease is open to a holder: it is free, over, or his own. -/
def IsOpen (s : LeaseStore) (now : Nat) (name holder : String) : Prop :=
  ∀ l, s.leases[name]? = some l → now < l.expires → l.holder = holder

def grant (s : LeaseStore) (name holder : String) (expires : Nat) : LeaseStore :=
  { leases := s.leases.insert name { holder, expires } }

theorem acquire_of_isOpen {s : LeaseStore} {now : Nat} {name holder : String}
    (h : s.IsOpen now name holder) (ttl : Nat) :
    s.acquire now name holder ttl =
      if now + ttl < clockSeconds * TimeUnit.nanosPerSecond then
        .ok (now + ttl, s.grant name holder (now + ttl))
      else .error .beyondClock := by
  unfold acquire
  cases hl : s.leases[name]? with
  | none => rfl
  | some l =>
    have hnot : ¬(l.holder ≠ holder ∧ l.isLive now = true) := fun hheld =>
      hheld.1 (h l hl ((isLive_iff l now).mp hheld.2))
    show (if l.holder ≠ holder ∧ l.isLive now = true then _ else _) = _
    rw [if_neg hnot]
    rfl

theorem acquire_of_held {s : LeaseStore} {now : Nat} {name holder : String} {l : Lease}
    (hl : s.leases[name]? = some l) (hlive : now < l.expires) (hne : l.holder ≠ holder)
    (ttl : Nat) : s.acquire now name holder ttl = .error (.held l.holder) := by
  unfold acquire
  rw [hl]
  exact if_pos ⟨hne, (isLive_iff l now).mpr hlive⟩

theorem isOpen_or_held (s : LeaseStore) (now : Nat) (name holder : String) :
    s.IsOpen now name holder ∨
      ∃ l, s.leases[name]? = some l ∧ now < l.expires ∧ l.holder ≠ holder := by
  cases hl : s.leases[name]? with
  | none => exact Or.inl fun l h => by rw [hl] at h; cases h
  | some l =>
    by_cases hheld : now < l.expires ∧ l.holder ≠ holder
    · exact Or.inr ⟨l, rfl, hheld⟩
    · refine Or.inl fun m hm hlive => ?_
      rw [hl] at hm
      cases hm
      exact Decidable.not_not.mp fun hne => hheld ⟨hlive, hne⟩

/-- A lease is given exactly when it is open and its expiry can be written. -/
theorem acquire_eq_ok_iff {s s' : LeaseStore} {now ttl expires : Nat} {name holder : String} :
    s.acquire now name holder ttl = .ok (expires, s') ↔
      s.IsOpen now name holder ∧ now + ttl < clockSeconds * TimeUnit.nanosPerSecond ∧
        expires = now + ttl ∧ s' = s.grant name holder (now + ttl) := by
  rcases s.isOpen_or_held now name holder with hopen | ⟨l, hl, hlive, hne⟩
  · rw [acquire_of_isOpen hopen]
    by_cases hclock : now + ttl < clockSeconds * TimeUnit.nanosPerSecond
    · simp [hopen, hclock, eq_comm]
    · simp [hclock]
  · rw [acquire_of_held hl hlive hne]
    have hclosed : ¬s.IsOpen now name holder := fun h => hne (h l hl hlive)
    simp [hclosed]

theorem acquire_eq_held_iff {s : LeaseStore} {now ttl : Nat} {name holder other : String} :
    s.acquire now name holder ttl = .error (.held other) ↔
      ∃ l, s.leases[name]? = some l ∧ now < l.expires ∧ l.holder = other ∧ other ≠ holder := by
  rcases s.isOpen_or_held now name holder with hopen | ⟨l, hl, hlive, hne⟩
  · rw [acquire_of_isOpen hopen]
    have hnone : ¬∃ l, s.leases[name]? = some l ∧ now < l.expires ∧ l.holder = other ∧
        other ≠ holder := by
      rintro ⟨l, hl, hlive, rfl, hne⟩
      exact hne (hopen l hl hlive)
    simp only [hnone, iff_false]
    split <;> simp
  · rw [acquire_of_held hl hlive hne]
    constructor
    · intro h
      cases h
      exact ⟨l, hl, hlive, rfl, hne⟩
    · rintro ⟨m, hm, -, rfl, -⟩
      rw [hl] at hm
      cases hm
      rfl

theorem leases_grant (s : LeaseStore) (name holder : String) (expires : Nat) (n : String) :
    (s.grant name holder expires).leases[n]? =
      if n = name then some { holder, expires } else s.leases[n]? := by
  show (s.leases.insert name _)[n]? = _
  rw [Std.TreeMap.getElem?_insert]
  by_cases hn : n = name
  · simp [hn]
  · simp [hn, Ne.symm hn]

def acquired (s : LeaseStore) (now : Nat) (name holder : String) (ttl : Nat) : LeaseStore :=
  match s.acquire now name holder ttl with
  | .ok (_, s) => s
  | .error _ => s

def released (s : LeaseStore) (now : Nat) (name holder : String) : LeaseStore :=
  match s.release now name holder with
  | .ok s => s
  | .error _ => s

theorem acquired_cases (s : LeaseStore) (now : Nat) (name holder : String) (ttl : Nat) :
    s.acquired now name holder ttl = s ∨
      s.IsOpen now name holder ∧
        s.acquired now name holder ttl = s.grant name holder (now + ttl) := by
  unfold acquired
  rcases s.isOpen_or_held now name holder with hopen | ⟨l, hl, hlive, hne⟩
  · rw [acquire_of_isOpen hopen]
    split
    · next heq =>
      split at heq
      · cases heq
        exact Or.inr ⟨hopen, rfl⟩
      · cases heq
    · exact Or.inl rfl
  · rw [acquire_of_held hl hlive hne]
    exact Or.inl rfl

/-- A lease that is given back is gone; those of others and of other names stay. -/
theorem leases_released (s : LeaseStore) (now : Nat) (name holder n : String) :
    (s.released now name holder).leases[n]? =
      if n = name ∧ s.leases[n]?.map Lease.holder = some holder then none else s.leases[n]? := by
  unfold released release
  cases hl : s.leases[name]? with
  | none =>
    by_cases hn : n = name
    · simp [hn, hl]
    · simp [hn]
  | some l =>
    by_cases hown : l.holder = holder
    · simp only [hown, if_true]
      rw [Std.TreeMap.getElem?_erase]
      by_cases hn : n = name
      · simp [hn, hl, hown]
      · simp [hn, Ne.symm hn]
    · have hstays : s.leases[n]? =
          if n = name ∧ s.leases[n]?.map Lease.holder = some holder then none
          else s.leases[n]? := by
        by_cases hn : n = name
        · simp [hn, hl, hown]
        · simp [hn]
      simp only [hown, if_false]
      by_cases hlive : l.isLive now
      · simpa [hlive] using hstays
      · simpa [hlive] using hstays

theorem holder?_eq_some_iff {s : LeaseStore} {now : Nat} {name holder : String} :
    s.holder? now name = some holder ↔
      ∃ e, s.leases[name]? = some { holder, expires := e } ∧ now < e := by
  unfold holder?
  cases hl : s.leases[name]? with
  | none => simp
  | some l =>
    by_cases hlive : now < l.expires
    · have h := (isLive_iff l now).mpr hlive
      simp only [h, if_true, Option.some.injEq]
      constructor
      · rintro rfl
        exact ⟨l.expires, rfl, hlive⟩
      · rintro ⟨e, rfl, -⟩
        rfl
    · have h : l.isLive now = false := by simp [Lease.isLive]; omega
      simp only [h, Bool.false_eq_true, if_false, Option.some.injEq, reduceCtorEq, false_iff]
      rintro ⟨e, rfl, he⟩
      exact hlive he

end LeaseStore

/-! ## The lock -/

namespace LeaseLock

/-- A try takes the lease when it is open, is refused when another holder's is live, and changes
nothing when it does not come back. -/
theorem tryLock_cases (l : LeaseLock) (s : LeaseStore) (now : Nat) :
    s.IsOpen now l.name l.holder ∧
        l.tryLock s now =
          (.ok, { l with heldUntil := some (now + l.ttl) },
            s.grant l.name l.holder (now + l.ttl)) ∨
      (∃ m, s.leases[l.name]? = some m ∧ now < m.expires ∧ m.holder ≠ l.holder ∧
        l.tryLock s now = (.refused (.held m.holder), { l with heldUntil := none }, s)) ∨
      l.tryLock s now = (.crashed, l, s) := by
  unfold tryLock
  rcases s.isOpen_or_held now l.name l.holder with hopen | ⟨m, hm, hlive, hne⟩
  · rw [LeaseStore.acquire_of_isOpen hopen]
    split
    · next heq =>
      split at heq
      · cases heq
        exact Or.inl ⟨hopen, rfl⟩
      · cases heq
    · next heq => split at heq <;> cases heq
    · exact Or.inr (Or.inr rfl)
  · rw [LeaseStore.acquire_of_held hm hlive hne]
    exact Or.inr (Or.inl ⟨m, hm, hlive, hne, rfl⟩)

theorem tryUnlock_snd (l : LeaseLock) (s : LeaseStore) (now : Nat) :
    (l.tryUnlock s now).2 =
      ({ l with heldUntil := none }, s.released now l.name l.holder) := by
  unfold tryUnlock LeaseStore.released
  dsimp only
  cases s.release now l.name l.holder <;> rfl

theorem hasLock_iff (l : LeaseLock) (now : Nat) :
    l.hasLock now = true ↔ ∃ e, l.heldUntil = some e ∧ now < e := by
  unfold hasLock
  cases l.heldUntil with
  | none => simp
  | some e => simp

/-- The lock and the store tell the same of the lock's lease, as long as it is not over. -/
def Agrees (l : LeaseLock) (s : LeaseStore) (now : Nat) : Prop :=
  ∀ e, now < e →
    (l.heldUntil = some e ↔ s.leases[l.name]? = some { holder := l.holder, expires := e })

namespace Agrees

variable {l : LeaseLock} {s : LeaseStore} {now : Nat}

theorem later (h : l.Agrees s now) {now' : Nat} (hle : now ≤ now') : l.Agrees s now' :=
  fun e he => h e (Nat.lt_of_le_of_lt hle he)

theorem hasLock_iff_holder (h : l.Agrees s now) :
    l.hasLock now = true ↔ s.holder? now l.name = some l.holder := by
  rw [LeaseLock.hasLock_iff, LeaseStore.holder?_eq_some_iff]
  constructor
  · rintro ⟨e, he, hlt⟩
    exact ⟨e, (h e hlt).mp he, hlt⟩
  · rintro ⟨e, he, hlt⟩
    exact ⟨e, (h e hlt).mpr he, hlt⟩

/-- While a lock is held, the lease in the store is its own. -/
theorem holder_of_hasLock (h : l.Agrees s now) (hheld : l.hasLock now = true) {m : Lease}
    (hm : s.leases[l.name]? = some m) : m.holder = l.holder := by
  obtain ⟨e, he, hlt⟩ := (LeaseLock.hasLock_iff l now).mp hheld
  have hmine := (h e hlt).mp he
  rw [hm] at hmine
  exact congrArg Lease.holder (Option.some.inj hmine)

/-- A lease that another one could take was not held, so nothing is lost when he takes it. -/
theorem grant_other (h : l.Agrees s now) {name holder : String}
    (hopen : s.IsOpen now name holder) (hother : ¬(l.name = name ∧ l.holder = holder))
    (expires : Nat) : l.Agrees (s.grant name holder expires) now := by
  intro e he
  rw [LeaseStore.leases_grant]
  by_cases hn : l.name = name
  · have hne : l.holder ≠ holder := fun hh => hother ⟨hn, hh⟩
    rw [if_pos hn]
    constructor
    · intro hheld
      have hmine := (h e he).mp hheld
      rw [hn] at hmine
      exact absurd (hopen _ hmine he) hne
    · intro hlease
      cases hlease
      exact absurd rfl hne
  · rw [if_neg hn]
    exact h e he

theorem acquired_other (h : l.Agrees s now) {name holder : String}
    (hother : ¬(l.name = name ∧ l.holder = holder)) (ttl : Nat) :
    l.Agrees (s.acquired now name holder ttl) now := by
  rcases s.acquired_cases now name holder ttl with hs | ⟨hopen, hs⟩
  · rw [hs]
    exact h
  · rw [hs]
    exact h.grant_other hopen hother _

theorem released_other (h : l.Agrees s now) {name holder : String}
    (hother : ¬(l.name = name ∧ l.holder = holder)) : l.Agrees (s.released now name holder) now := by
  intro e he
  rw [LeaseStore.leases_released, h e he]
  split
  · next hgone =>
    constructor
    · intro hmine
      rw [hmine] at hgone
      exact absurd ⟨hgone.1, by simpa using hgone.2⟩ hother
    · intro hnone
      cases hnone
  · exact Iff.rfl

theorem tryLock (h : l.Agrees s now) :
    (l.tryLock s now).2.1.Agrees (l.tryLock s now).2.2 now := by
  rcases l.tryLock_cases s now with ⟨-, ht⟩ | ⟨m, hm, -, hne, ht⟩ | ht
  · rw [ht]
    intro e he
    simp [LeaseStore.leases_grant]
  · rw [ht]
    intro e he
    simp only [reduceCtorEq, false_iff]
    intro hmine
    rw [hm] at hmine
    cases hmine
    exact hne rfl
  · rw [ht]
    exact h

theorem tryUnlock (l : LeaseLock) (s : LeaseStore) (now : Nat) :
    (l.tryUnlock s now).2.1.Agrees (l.tryUnlock s now).2.2 now := by
  rw [tryUnlock_snd]
  intro e he
  rw [LeaseStore.leases_released]
  constructor
  · intro hnone
    cases hnone
  · intro hmine
    split at hmine
    · cases hmine
    · next hkept => exact absurd ⟨rfl, by rw [hmine]; rfl⟩ hkept

end Agrees

/-- The same contender, whatever it remembers. -/
structure IsSame (l l' : LeaseLock) : Prop where
  name : l.name = l'.name
  holder : l.holder = l'.holder
  ttl : l.ttl = l'.ttl

theorem IsSame.refl (l : LeaseLock) : l.IsSame l := ⟨rfl, rfl, rfl⟩

theorem IsSame.trans {l l' l'' : LeaseLock} (h : l.IsSame l') (h' : l'.IsSame l'') :
    l.IsSame l'' :=
  ⟨h.name.trans h'.name, h.holder.trans h'.holder, h.ttl.trans h'.ttl⟩

theorem tryLock_isSame (l : LeaseLock) (s : LeaseStore) (now : Nat) :
    (l.tryLock s now).2.1.IsSame l := by
  rcases l.tryLock_cases s now with ⟨-, h⟩ | ⟨_, -, -, -, h⟩ | h
  · rw [h]
    exact ⟨rfl, rfl, rfl⟩
  · rw [h]
    exact ⟨rfl, rfl, rfl⟩
  · rw [h]
    exact IsSame.refl l

theorem tryUnlock_isSame (l : LeaseLock) (s : LeaseStore) (now : Nat) :
    (l.tryUnlock s now).2.1.IsSame l := by
  rw [tryUnlock_snd]
  exact ⟨rfl, rfl, rfl⟩

/-- To the store a try is an attempt under the name and the holder of the lock. -/
theorem tryLock_store (l : LeaseLock) (s : LeaseStore) (now : Nat) :
    (l.tryLock s now).2.2 = s.acquired now l.name l.holder l.ttl := by
  unfold tryLock LeaseStore.acquired
  split <;> simp [*]

end LeaseLock
end RecurringJobs
