import RecurringJobs.Plan.Basic
import RecurringJobs.Proofs.Cron.Written
import RecurringJobs.Proofs.Trimming

/-!
Delays in words: `every`, a number and a unit.

A `Wording` is such a text with its blanks, and a plain one has a space in front of the number and
one behind it.  The words are recognised in every letter case, the long s being one of s, and each
belongs to the family of a unit.  The unit is then told by the first letter of its word in lower
case, which the long s is not: a word that begins with it names seconds and is taken for days
(`Plan.requestedInterval_wording`).
-/

namespace RecurringJobs
namespace Interval

open Cron (Numeral)
open Text

/-! ## Words -/

/-- A character that is a letter in some case. -/
def StandsFor (letter c : Char) : Prop :=
  c = letter ∨ c = letter.toUpper ∨ (letter = 's' ∧ c = 'ſ')

instance : DecidableRel StandsFor := fun _ _ => inferInstanceAs (Decidable (_ ∨ _ ∨ _ ∧ _))

def Spells (word : String) (cs : List Char) : Prop := List.Forall₂ StandsFor word.toList cs

instance (word : String) (cs : List Char) : Decidable (Spells word cs) :=
  inferInstanceAs (Decidable (List.Forall₂ _ _ _))

theorem Spells.refl (word : String) : Spells word word.toList :=
  List.forall₂_same.mpr fun _ _ => .inl rfl

/-- A lower-case letter, which the upper-case form leads back to. -/
def isLower (letter : Char) : Bool := letter.toLower == letter && letter.toUpper.toLower == letter

theorem isLetterForm_of_standsFor {letter c : Char} (hletter : isLower letter = true)
    (h : StandsFor letter c) : isLetterForm letter c = true := by
  rw [isLower, Bool.and_eq_true, beq_iff_eq, beq_iff_eq] at hletter
  rcases h with rfl | rfl | ⟨rfl, rfl⟩
  · simp [isLetterForm, hletter.1]
  · simp [isLetterForm, hletter.2]
  · decide

theorem dropWord_append {word cs : List Char} (hlower : word.all isLower = true)
    (h : List.Forall₂ StandsFor word cs) (rest : List Char) :
    dropWord word (cs ++ rest) = some rest := by
  induction h with
  | nil => rfl
  | cons hc _ ih =>
    rw [List.all_cons, Bool.and_eq_true] at hlower
    rw [List.cons_append, dropWord, if_pos (isLetterForm_of_standsFor hlower.1 hc)]
    exact ih hlower.2

/-! ## Families -/

/-- The units that words name. -/
inductive Family where
  | second
  | minute
  | hour
  | day
deriving DecidableEq

namespace Family

def words : Family → List String
  | second => ["second", "seconds", "sec", "secs", "s"]
  | minute => ["minute", "minutes", "min", "mins", "m"]
  | hour => ["hour", "hours", "hr", "hrs", "h"]
  | day => ["day", "days", "d"]

def seconds : Family → Nat
  | second => 1
  | minute => 60
  | hour => 3600
  | day => 86400

def letter : Family → Char
  | second => 's'
  | minute => 'm'
  | hour => 'h'
  | day => 'd'

/-- The text is a word of the family in some letter case. -/
def Names (f : Family) (cs : List Char) : Prop := ∃ word ∈ f.words, Spells word cs

theorem isLower_of_mem {f : Family} : ∀ word ∈ f.words, word.toList.all isLower = true := by
  cases f <;> decide

theorem mem_unitWords {f : Family} : ∀ word ∈ f.words, word ∈ unitWords.flatten := by
  cases f <;> decide

/-- A word begins with the letter of its family. -/
theorem head_of_mem {f : Family} : ∀ word ∈ f.words, word.toList.head? = some f.letter := by
  cases f <;> decide

theorem isUnitWord_of_names {f : Family} {cs : List Char} (h : f.Names cs) :
    isUnitWord cs = true := by
  obtain ⟨word, hword, hspells⟩ := h
  have hdrop := dropWord_append (isLower_of_mem word hword) hspells []
  rw [List.append_nil] at hdrop
  exact List.any_eq_true.mpr ⟨word, mem_unitWords word hword, decide_eq_true hdrop⟩

theorem exists_cons_of_names {f : Family} {cs : List Char} (h : f.Names cs) :
    ∃ c rest, cs = c :: rest ∧ StandsFor f.letter c := by
  obtain ⟨word, hword, hspells⟩ := h
  have hhead := head_of_mem word hword
  unfold Spells at hspells
  generalize word.toList = letters at hhead hspells
  cases hspells with
  | nil => cases hhead
  | cons hc _ =>
    cases hhead
    exact ⟨_, _, rfl, hc⟩

/-- No word begins with a blank or a digit. -/
theorem plain_of_standsFor {f : Family} {c : Char} (h : StandsFor f.letter c) :
    isBlank c = false ∧ isDigit c = false := by
  rcases h with rfl | rfl | ⟨-, rfl⟩
  · cases f <;> decide
  · cases f <;> decide
  · decide

theorem unitSeconds_of_names {f : Family} {cs : List Char} (h : f.Names cs)
    (hlong : cs.head? ≠ some 'ſ') : unitSeconds cs = f.seconds := by
  obtain ⟨c, rest, rfl, hc⟩ := exists_cons_of_names h
  rcases hc with rfl | rfl | ⟨-, rfl⟩
  · cases f <;> rfl
  · cases f <;> rfl
  · exact absurd rfl hlong

theorem unitSeconds_of_longS {cs : List Char} (hlong : cs.head? = some 'ſ') :
    unitSeconds cs = day.seconds := by
  unfold unitSeconds
  rw [hlong]
  rfl

end Family

/-! ## Wordings -/

/-- `every`, a number and a unit, as they are written. -/
structure Wording where
  every : List Char
  gap : List Char
  number : Numeral
  space : List Char
  unit : List Char
  family : Family
  spelled : Spells "every" every
  parted : gap ≠ []
  blankGap : ∀ c ∈ gap, isBlank c = true
  blankSpace : ∀ c ∈ space, isBlank c = true
  named : family.Names unit

namespace Wording

def text (w : Wording) : List Char :=
  w.every ++ (w.gap ++ (w.number.digits ++ (w.space ++ w.unit)))

theorem exists_cons (w : Wording) : ∃ c rest, w.text = c :: rest ∧ StandsFor 'e' c := by
  obtain ⟨c, more, hc, -, hevery⟩ := List.forall₂_cons_left_iff.mp w.spelled
  exact ⟨c, _, by rw [text, hevery, List.cons_append], hc⟩

/-- Behind the number come blanks or the unit, and none of them is a digit. -/
theorem isDigit_behind (w : Wording) : ∀ c ∈ (w.space ++ w.unit).head?, isDigit c = false := by
  intro c hc
  cases hspace : w.space with
  | nil =>
    obtain ⟨d, rest, hunit, hd⟩ := Family.exists_cons_of_names w.named
    rw [hspace, hunit] at hc
    cases hc
    exact (Family.plain_of_standsFor hd).2
  | cons d space =>
    have hblank : isBlank d = true := w.blankSpace d (by rw [hspace]; exact List.mem_cons_self)
    rw [hspace] at hc
    cases hc
    refine Bool.eq_false_iff.mpr fun hdigit => ?_
    rw [isBlank_of_isDigit hdigit] at hblank
    cases hblank

theorem isBlank_unit (w : Wording) : ∀ c ∈ w.unit.head?, isBlank c = false := by
  intro c hc
  obtain ⟨d, rest, hunit, hd⟩ := Family.exists_cons_of_names w.named
  rw [hunit] at hc
  cases hc
  exact (Family.plain_of_standsFor hd).1

theorem isBlank_number (w : Wording) (tail : List Char) :
    ∀ c ∈ (w.number.digits ++ tail).head?, isBlank c = false := by
  intro c hc
  obtain ⟨d, rest, hdigits, hd⟩ := w.number.exists_cons
  rw [hdigits] at hc
  cases hc
  exact isBlank_of_isAsciiDigit hd

/-- The text is taken apart where it was put together. -/
theorem inWords?_text (w : Wording) : inWords? w.text = some (w.number.digits, w.unit) := by
  have hevery : dropWord "every".toList w.text =
      some (w.gap ++ (w.number.digits ++ (w.space ++ w.unit))) :=
    dropWord_append (by decide) w.spelled _
  obtain ⟨htakeGap, hdropGap⟩ := span_append w.blankGap (w.isBlank_number (w.space ++ w.unit))
  obtain ⟨htakeDigits, hdropDigits⟩ := w.number.span_digits w.isDigit_behind
  obtain ⟨-, hdropSpace⟩ := span_append w.blankSpace w.isBlank_unit
  have hunit := Family.isUnitWord_of_names w.named
  unfold inWords?
  rw [hevery]
  dsimp only
  rw [htakeGap]
  split
  · next hnil => exact absurd hnil w.parted
  · rw [hdropGap, htakeDigits]
    split
    · next hnil => exact absurd hnil w.number.written
    · rw [hdropDigits, hdropSpace, if_pos hunit]

theorem amountSeconds_text (w : Wording) (hsize : w.number.value ≤ maxWord64) :
    amountSeconds w.number.digits w.unit =
      .ok (min (w.number.value * unitSeconds w.unit) maxWord64) := by
  have hread : readUpTo maxWord64 0 w.number.digits = .ok w.number.value :=
    readUpTo_eq_ok w.number.decimal hsize
  unfold amountSeconds
  rw [hread]

theorem requested?_text (w : Wording) (hsize : w.number.value ≤ maxWord64) :
    requested? w.text = some (.ok
      (min (w.number.value * unitSeconds w.unit) maxWord64 * TimeUnit.nanosPerSecond)) := by
  have hat : dropLead "@every".toList w.text = none := by
    obtain ⟨c, rest, htext, hc⟩ := w.exists_cons
    have hne : c ≠ '@' := by
      rcases hc with rfl | rfl | ⟨hs, -⟩ <;> first | decide | exact absurd hs (by decide)
    rw [htext]
    exact if_neg hne.symm
  unfold requested?
  rw [hat, w.inWords?_text]
  dsimp only
  rw [w.amountSeconds_text hsize]
  rfl

end Wording

/-! ## Plain wordings -/

namespace Family

variable {f : Family}

theorem head_ne_longS : ∀ word ∈ f.words, word.toList.head? ≠ some 'ſ' := by
  cases f <;> decide

theorem getLast_of_mem : ∀ word ∈ f.words, word.toList.getLast?.map isBlank = some false := by
  cases f <;> decide

/-- A number and a word in lower case, a space before each. -/
def wording (n : Nat) {word : String} (hword : word ∈ f.words) : Wording where
  every := "every".toList
  gap := [' ']
  number := .ofNat n
  space := [' ']
  unit := word.toList
  family := f
  spelled := .refl "every"
  parted := by decide
  blankGap := List.forall_mem_singleton.mpr rfl
  blankSpace := List.forall_mem_singleton.mpr rfl
  named := ⟨word, hword, .refl word⟩

theorem toList_wording (n : Nat) {word : String} (hword : word ∈ f.words) :
    s!"every {n} {word}".toList = (wording n hword).text := by
  have hdigits : (toString n).toList = Nat.toDigits 10 n := Nat.toList_repr
  show (toString "every " ++ toString n ++ toString " " ++ toString word).toList = _
  simp only [String.toList_append, hdigits, List.append_assoc]
  rfl

theorem trim_wording (n : Nat) {word : String} (hword : word ∈ f.words) :
    trim s!"every {n} {word}".toList = (wording n hword).text := by
  obtain ⟨c, hlast, hblank⟩ := Option.map_eq_some_iff.mp (getLast_of_mem word hword)
  have htext : (wording n hword).text =
      ("every ".toList ++ (Nat.toDigits 10 n ++ [' '])) ++ word.toList := by
    simp only [Wording.text, wording, Cron.Numeral.ofNat, List.append_assoc]
    rfl
  rw [toList_wording]
  refine trim_eq_self ?_ ?_
  · rintro e ⟨⟩
    rfl
  · rw [htext, List.getLast?_append, hlast]
    rintro e ⟨⟩
    exact hblank

end Family
end Interval

namespace Plan

open Text
open RecurringJobs.Interval

/-- A delay in words asks for so many units, saturating at 64 bits of seconds, unless the word of
the unit begins with the long s.  Then it names seconds and is taken for days. -/
theorem requestedInterval_wording (text : String) (w : Wording) (htext : trim text.toList = w.text)
    (hsize : w.number.value < Nat.pow 2 64) :
    (w.unit.head? ≠ some 'ſ' →
        requestedInterval text = some
          (min (w.number.value * w.family.seconds) maxWord64 * TimeUnit.nanosPerSecond)) ∧
      (w.unit.head? = some 'ſ' →
        requestedInterval text = some
          (min (w.number.value * Family.day.seconds) maxWord64 * TimeUnit.nanosPerSecond)) := by
  have hword : w.number.value ≤ maxWord64 := Nat.le_sub_one_of_lt hsize
  have hrequested := w.requested?_text hword
  unfold requestedInterval
  rw [htext, hrequested]
  refine ⟨fun hplain => ?_, fun hlong => ?_⟩
  · rw [Family.unitSeconds_of_names w.named hplain]
  · rw [Family.unitSeconds_of_longS hlong]

/-- Two minutes in capitals, with a tab for a gap and a long s at the end. -/
def twoMinutes : Wording where
  every := "EVERY".toList
  gap := ['\t', ' ']
  number := .ofNat 2
  space := []
  unit := "MINUTEſ".toList
  family := .minute
  spelled := by decide
  parted := by decide
  blankGap := List.all_eq_true.mp rfl
  blankSpace := List.forall_mem_nil _
  named := ⟨"minutes", by decide, by decide⟩

/-- Five seconds, the word for them begun with a long s. -/
def fiveSeconds : Wording where
  every := "every".toList
  gap := [' ']
  number := .ofNat 5
  space := [' ']
  unit := "ſec".toList
  family := .second
  spelled := by decide
  parted := by decide
  blankGap := List.forall_mem_singleton.mpr rfl
  blankSpace := List.forall_mem_singleton.mpr rfl
  named := ⟨"sec", by decide, by decide⟩

theorem requestedInterval_twoMinutes :
    (trim " EVERY\t 2MINUTEſ".toList = twoMinutes.text ∧ twoMinutes.number.value < Nat.pow 2 64 ∧
        twoMinutes.unit.head? ≠ some 'ſ') ∧
      requestedInterval " EVERY\t 2MINUTEſ" = some 120000000000 := by
  have htext : trim " EVERY\t 2MINUTEſ".toList = twoMinutes.text := by decide +kernel
  have hsize : twoMinutes.number.value < Nat.pow 2 64 := by decide +kernel
  have hplain : twoMinutes.unit.head? ≠ some 'ſ' := by decide
  have hasked := (requestedInterval_wording " EVERY\t 2MINUTEſ" twoMinutes htext hsize).1 hplain
  exact ⟨⟨htext, hsize, hplain⟩, hasked⟩

/-- Five seconds are taken for five days. -/
theorem longS_taken_for_days :
    trim "every 5 ſec".toList = fiveSeconds.text ∧ fiveSeconds.number.value < Nat.pow 2 64 ∧
      min (fiveSeconds.number.value * fiveSeconds.family.seconds) maxWord64 = 5 ∧
      requestedInterval "every 5 ſec" = some (432000 * TimeUnit.nanosPerSecond) := by
  decide +kernel

end Plan
end RecurringJobs
