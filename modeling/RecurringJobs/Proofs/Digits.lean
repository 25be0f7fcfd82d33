import RecurringJobs.Text.Digit

/-!
Decimal digits and what they write.

An ASCII digit is a digit of the wide class (`isDigit_of_isAsciiDigit`), and no digit is a blank.
The digits of a number are read back as that number (`ofDigits_toDigits`), and by a reader with a
limit too when the number is within it (`readUpTo_eq_ok`).
-/

namespace RecurringJobs
namespace Text

/-- What holds of the characters of a run and of none that follows ends the run. -/
theorem span_append {p : Char → Bool} {run tail : List Char} (hrun : ∀ c ∈ run, p c = true)
    (htail : ∀ c ∈ tail.head?, p c = false) :
    (run ++ tail).takeWhile p = run ∧ (run ++ tail).dropWhile p = tail := by
  rw [List.takeWhile_append_of_pos hrun, List.dropWhile_append_of_pos hrun]
  cases tail with
  | nil => simp
  | cons c tail =>
    have hc : ¬p c = true := by simp [htail c rfl]
    rw [List.takeWhile_cons_of_neg hc, List.dropWhile_cons_of_neg hc, List.append_nil]
    exact ⟨rfl, rfl⟩

/-! ## ASCII digits -/

theorem toNat_of_isDigit {c : Char} (h : c.isDigit = true) : 48 ≤ c.toNat ∧ c.toNat ≤ 57 := by
  simpa [Char.isDigit, UInt32.le_iff_toNat_le] using h

theorem isDigit_of_isDigit {c : Char} (h : c.isDigit = true) : isDigit c = true := by
  obtain ⟨hlow, hhigh⟩ := toNat_of_isDigit h
  unfold isDigit zeros
  rw [List.any_cons, Bool.or_eq_true]
  left
  simp
  omega

theorem isAsciiDigit_of_isDigit {c : Char} (h : c.isDigit = true) : isAsciiDigit c = true := by
  have hbounds : '0' ≤ c ∧ c ≤ '9' := toNat_of_isDigit h
  simp [isAsciiDigit, hbounds]

theorem isDigit_of_isAsciiDigit {c : Char} (h : isAsciiDigit c = true) : isDigit c = true :=
  isDigit_of_isDigit h

/-! ## Digits and blanks -/

theorem exists_range_of_inRanges {ranges : List (Nat × Nat)} {n : Nat}
    (h : inRanges ranges n = true) : ∃ r ∈ ranges, r.1 ≤ n ∧ n ≤ r.2 := by
  induction ranges with
  | nil => cases h
  | cons r ranges ih =>
    obtain ⟨first, last⟩ := r
    by_cases hn : n ≤ last
    · rw [inRanges, if_pos hn, decide_eq_true_eq] at h
      exact ⟨(first, last), List.mem_cons_self, h, hn⟩
    · rw [inRanges, if_neg hn] at h
      obtain ⟨r, hr, hbounds⟩ := ih h
      exact ⟨r, List.mem_cons_of_mem _ hr, hbounds⟩

/-- The blocks of ten digits lie between the ranges of the blanks. -/
theorem zeros_apart : ∀ z ∈ zeros, ∀ r ∈ blankRanges, r.2 < z ∨ z + 10 ≤ r.1 := by decide

theorem isBlank_of_isDigit {c : Char} (h : isDigit c = true) : isBlank c = false := by
  obtain ⟨z, hz, hblock⟩ := List.any_eq_true.mp h
  rw [Bool.and_eq_true, decide_eq_true_eq, decide_eq_true_eq] at hblock
  refine Bool.eq_false_iff.mpr fun hblank => ?_
  obtain ⟨r, hr, hrange⟩ := exists_range_of_inRanges hblank
  have hapart := zeros_apart z hz r hr
  omega

theorem isBlank_of_isAsciiDigit {c : Char} (h : isAsciiDigit c = true) : isBlank c = false :=
  isBlank_of_isDigit (isDigit_of_isAsciiDigit h)

/-! ## Numbers -/

theorem ofDigits_toDigits (n : Nat) : ofDigits (Nat.toDigits 10 n) = n :=
  Nat.ofDigitChars_toDigits (by decide) (by decide)

/-- What the digits after the first ones make of the number of these. -/
def readOn (n : Nat) (cs : List Char) : Nat := cs.foldl (fun n c => 10 * n + digitValue c) n

theorem le_readOn (n : Nat) (cs : List Char) : n ≤ readOn n cs := by
  induction cs generalizing n with
  | nil => exact Nat.le_refl n
  | cons c cs ih =>
    have hnext : 10 * n + digitValue c ≤ readOn n (c :: cs) := ih (10 * n + digitValue c)
    omega

theorem readUpTo_eq_ok {limit sofar : Nat} {cs : List Char}
    (hascii : ∀ c ∈ cs, isAsciiDigit c = true) (h : readOn sofar cs ≤ limit) :
    readUpTo limit sofar cs = .ok (readOn sofar cs) := by
  induction cs generalizing sofar with
  | nil => rfl
  | cons c cs ih =>
    have hc : isAsciiDigit c = true := hascii c List.mem_cons_self
    have hread : readOn sofar (c :: cs) = readOn (10 * sofar + digitValue c) cs := rfl
    have hsize : 10 * sofar + digitValue c ≤ limit := by
      have hgrows := le_readOn (10 * sofar + digitValue c) cs
      omega
    have hrest := ih (fun d hd => hascii d (List.mem_cons_of_mem c hd)) (by rwa [hread] at h)
    rw [readUpTo, hc]
    simp only [Bool.not_true, Bool.false_eq_true, if_false]
    rw [if_pos hsize, hrest, hread]

end Text
end RecurringJobs
