/-!
White space: the characters that may surround a plan and separate its fields.

The class is Unicode's White_Space property.  It is wider than `Char.isWhitespace`, which knows
ASCII alone, and a plan pasted with a no-break space has to be read all the same.
-/

namespace RecurringJobs
namespace Text

/-- Whether a code point lies in one of the ranges, ends included.  The ranges stand in ascending
order, so the first that ends at or after the code point decides. -/
def inRanges : List (Nat × Nat) → Nat → Bool
  | [], _ => false
  | (first, last) :: ranges, n => if n ≤ last then first ≤ n else inRanges ranges n

/-- The code points with Unicode's White_Space property. -/
def blankRanges : List (Nat × Nat) :=
  [(0x9, 0xD), (0x20, 0x20), (0x85, 0x85), (0xA0, 0xA0), (0x1680, 0x1680), (0x2000, 0x200A),
   (0x2028, 0x2029), (0x202F, 0x202F), (0x205F, 0x205F), (0x3000, 0x3000)]

def isBlank (c : Char) : Bool := inRanges blankRanges c.toNat

def trimStart (cs : List Char) : List Char := cs.dropWhile isBlank

def trimEnd (cs : List Char) : List Char := (cs.reverse.dropWhile isBlank).reverse

/-- The text without the blanks at its two ends. -/
def trim (cs : List Char) : List Char := trimEnd (trimStart cs)

/-- The number of maximal runs of other characters, where `fresh` says that a character met now
would begin a run. -/
def wordCountFrom (fresh : Bool) : List Char → Nat
  | [] => 0
  | c :: cs =>
    if isBlank c then wordCountFrom true cs
    else (if fresh then 1 else 0) + wordCountFrom false cs

/-- The number of words that blanks separate. -/
def wordCount (cs : List Char) : Nat := wordCountFrom true cs

/-- A text with nothing but blanks in it. -/
def isBlankText (s : String) : Bool := s.toList.all isBlank

/-- The text after a beginning, if it does begin so. -/
def dropLead (lead : List Char) (cs : List Char) : Option (List Char) :=
  match lead, cs with
  | [], cs => some cs
  | _ :: _, [] => none
  | l :: lead, c :: cs => if l = c then dropLead lead cs else none

theorem dropLead_eq_some_iff {lead cs rest : List Char} :
    dropLead lead cs = some rest ↔ cs = lead ++ rest := by
  induction lead generalizing cs with
  | nil => simp [dropLead]
  | cons l lead ih =>
    cases cs with
    | nil => simp [dropLead]
    | cons c cs =>
      rw [dropLead, List.cons_append, List.cons.injEq, ← ih]
      by_cases h : l = c
      · simp [h]
      · rw [if_neg h]
        exact ⟨nofun, fun hlead => absurd hlead.1.symm h⟩

theorem dropLead_length {lead cs rest : List Char} (hne : ¬lead = [])
    (h : dropLead lead cs = some rest) : rest.length < cs.length := by
  induction lead generalizing cs with
  | nil => exact absurd rfl hne
  | cons l lead ih =>
    cases cs with
    | nil => simp [dropLead] at h
    | cons c cs =>
      simp only [dropLead] at h
      split at h
      · by_cases hl : lead = []
        · subst hl
          simp only [dropLead, Option.some.injEq] at h
          simp [h]
        · have := ih hl h
          simp only [List.length_cons]
          omega
      · simp at h

end Text
end RecurringJobs
