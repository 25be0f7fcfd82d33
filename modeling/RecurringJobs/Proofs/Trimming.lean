import Mathlib.Data.List.TakeWhile
import RecurringJobs.Text.Blank

/-!
Laws of trimming.

Blanks in front of a text and behind it make no difference (`trim_append_blanks`), and what begins
and ends otherwise is left as it is (`trim_eq_self`).
-/

namespace RecurringJobs
namespace Text

theorem trimStart_eq_self {cs : List Char} (h : ∀ c ∈ cs.head?, isBlank c = false) :
    trimStart cs = cs := by
  cases cs with
  | nil => rfl
  | cons c cs => exact List.dropWhile_cons_of_neg (by simp [h c rfl])

theorem trimEnd_eq_self {cs : List Char} (h : ∀ c ∈ cs.getLast?, isBlank c = false) :
    trimEnd cs = cs := by
  have hkeep : trimStart cs.reverse = cs.reverse := trimStart_eq_self (by rwa [List.head?_reverse])
  show (trimStart cs.reverse).reverse = cs
  rw [hkeep, List.reverse_reverse]

theorem trim_eq_self {cs : List Char} (hfirst : ∀ c ∈ cs.head?, isBlank c = false)
    (hlast : ∀ c ∈ cs.getLast?, isBlank c = false) : trim cs = cs := by
  rw [trim, trimStart_eq_self hfirst, trimEnd_eq_self hlast]

/-! ## Blanks at the ends -/

theorem trimStart_blanks {blanks : List Char} (h : ∀ c ∈ blanks, isBlank c = true)
    (cs : List Char) : trimStart (blanks ++ cs) = trimStart cs :=
  List.dropWhile_append_of_pos h

theorem trimEnd_blanks {blanks : List Char} (h : ∀ c ∈ blanks, isBlank c = true)
    (cs : List Char) : trimEnd (cs ++ blanks) = trimEnd cs := by
  have hdrop : trimStart (blanks.reverse ++ cs.reverse) = trimStart cs.reverse :=
    trimStart_blanks (fun c hc => h c (List.mem_reverse.mp hc)) cs.reverse
  show (trimStart (cs ++ blanks).reverse).reverse = (trimStart cs.reverse).reverse
  rw [List.reverse_append, hdrop]

theorem trim_blanks_append {blanks : List Char} (h : ∀ c ∈ blanks, isBlank c = true)
    (cs : List Char) : trim (blanks ++ cs) = trim cs := by
  rw [trim, trimStart_blanks h, trim]

theorem trim_append_blanks {blanks : List Char} (h : ∀ c ∈ blanks, isBlank c = true)
    (cs : List Char) : trim (cs ++ blanks) = trim cs := by
  by_cases hall : ∀ c ∈ cs, isBlank c = true
  · have hnone : trimStart (cs ++ blanks) = [] := by
      rw [trimStart_blanks hall]
      exact List.dropWhile_eq_nil_iff.mpr h
    have hnone' : trimStart cs = [] := List.dropWhile_eq_nil_iff.mpr hall
    rw [trim, hnone, trim, hnone']
  · have hsome : ¬(cs.dropWhile isBlank).isEmpty = true := by
      rw [List.isEmpty_iff, List.dropWhile_eq_nil_iff]
      exact hall
    have hstart : trimStart (cs ++ blanks) = trimStart cs ++ blanks := by
      show (cs ++ blanks).dropWhile isBlank = _
      rw [List.dropWhile_append, if_neg hsome]
      rfl
    rw [trim, hstart, trimEnd_blanks h, trim]

theorem trimEnd_append_blanks (cs : List Char) :
    ∃ blanks, (∀ c ∈ blanks, isBlank c = true) ∧ cs = trimEnd cs ++ blanks := by
  refine ⟨(cs.reverse.takeWhile isBlank).reverse, fun c hc => ?_, ?_⟩
  · exact List.mem_takeWhile_imp (List.mem_reverse.mp hc)
  · rw [trimEnd, ← List.reverse_append, List.takeWhile_append_dropWhile, List.reverse_reverse]

theorem trim_trimEnd (cs : List Char) : trim (trimEnd cs) = trim cs := by
  obtain ⟨blanks, hblanks, hcs⟩ := trimEnd_append_blanks cs
  calc trim (trimEnd cs) = trim (trimEnd cs ++ blanks) := (trim_append_blanks hblanks _).symm
    _ = trim cs := by rw [← hcs]

/-! ## Behind a word -/

theorem trimEnd_append {lead : List Char} (hlast : ∀ c ∈ lead.getLast?, isBlank c = false)
    (cs : List Char) : trimEnd (lead ++ cs) = lead ++ trimEnd cs := by
  have hlead : trimStart lead.reverse = lead.reverse :=
    trimStart_eq_self (by rwa [List.head?_reverse])
  unfold trimEnd
  rw [List.reverse_append, List.dropWhile_append]
  by_cases hnil : (cs.reverse.dropWhile isBlank).isEmpty = true
  · rw [if_pos hnil, List.isEmpty_iff.mp hnil, List.reverse_nil, List.append_nil]
    show (trimStart lead.reverse).reverse = lead
    rw [hlead, List.reverse_reverse]
  · rw [if_neg hnil, List.reverse_append, List.reverse_reverse]

/-- What is left of a text behind a word that has no blank at its ends. -/
theorem trim_append {lead : List Char} (hne : lead ≠ [])
    (hfirst : ∀ c ∈ lead.head?, isBlank c = false)
    (hlast : ∀ c ∈ lead.getLast?, isBlank c = false) (cs : List Char) :
    trim (lead ++ cs) = lead ++ trimEnd cs := by
  have hstart : trimStart (lead ++ cs) = lead ++ cs := by
    obtain ⟨c, more, rfl⟩ := List.exists_cons_of_ne_nil hne
    exact trimStart_eq_self hfirst
  rw [trim, hstart, trimEnd_append hlast]

end Text
end RecurringJobs
