import RecurringJobs.Proofs.Cron.Sets
import RecurringJobs.Proofs.Digits

/-!
Cron expressions in numbers, as they are written and what they mean.

An `ExpressionText` is what a user writes: six fields or seven, each of one item or several, each
item a run of values and at times a step.  It has a text, and on the other side a meaning that is
said without reading the text: `ItemText.Denotes` by the first value, the last one and the distance,
and `ExpressionText.sets` by the items that denote a value.  An item may come in any place and any
number of times (`ExpressionText.sets_congr`).
-/

namespace RecurringJobs
namespace Cron

/-! ## Numbers -/

/-- A number as it is written.  The first of its digits may be zeros. -/
structure Numeral where
  digits : List Char
  written : digits ≠ []
  decimal : ∀ c ∈ digits, Text.isAsciiDigit c = true

namespace Numeral

def value (n : Numeral) : Nat := Text.ofDigits n.digits

def ofNat (n : Nat) : Numeral where
  digits := Nat.toDigits 10 n
  written := Nat.toDigits_ne_nil
  decimal := fun _ hc =>
    Text.isAsciiDigit_of_isDigit (Nat.isDigit_of_mem_toDigits (by decide) (by decide) hc)

@[simp] theorem value_ofNat (n : Nat) : (ofNat n).value = n := Text.ofDigits_toDigits n

theorem eq_of_digits {m n : Numeral} (h : m.digits = n.digits) : m = n := by
  cases m
  cases n
  simpa using h

theorem exists_cons (n : Numeral) :
    ∃ c cs, n.digits = c :: cs ∧ Text.isAsciiDigit c = true := by
  obtain ⟨c, cs, hn⟩ := List.exists_cons_of_ne_nil n.written
  exact ⟨c, cs, hn, n.decimal c (by rw [hn]; exact List.mem_cons_self)⟩

/-- The digits are taken up to the first character that is none, of whatever script. -/
theorem span_digits (n : Numeral) {tail : List Char}
    (htail : ∀ c ∈ tail.head?, Text.isDigit c = false) :
    (n.digits ++ tail).takeWhile Text.isDigit = n.digits ∧
      (n.digits ++ tail).dropWhile Text.isDigit = tail :=
  Text.span_append (fun c hc => Text.isDigit_of_isAsciiDigit (n.decimal c hc)) htail

end Numeral

/-! ## Items -/

inductive RangeText where
  | all
  | point (n : Numeral)
  | span (first last : Numeral)

namespace RangeText

def text : RangeText → List Char
  | all => ['*']
  | point n => n.digits
  | span a b => a.digits ++ '-' :: b.digits

def range : RangeText → Range
  | all => .all
  | point n => .point n.value
  | span a b => .span a.value b.value

/-- The numbers are of the field, and a span does not run backwards. -/
def IsWithin (f : Field) : RangeText → Prop
  | all => True
  | point n => n.value ∈ f.values
  | span a b => a.value ∈ f.values ∧ b.value ∈ f.values ∧ a.value ≤ b.value

instance (f : Field) : (r : RangeText) → Decidable (r.IsWithin f)
  | all => inferInstanceAs (Decidable True)
  | point _ => inferInstanceAs (Decidable (_ ∈ _))
  | span _ _ => inferInstanceAs (Decidable (_ ∧ _))

end RangeText

/-- A run and the step in which it is taken, where one is written. -/
structure ItemText where
  range : RangeText
  step : Option Numeral

namespace ItemText

def stepText : Option Numeral → List Char
  | none => []
  | some s => '/' :: s.digits

def text (i : ItemText) : List Char := i.range.text ++ stepText i.step

def item (i : ItemText) : Item :=
  match i.step with
  | none => .run i.range.range
  | some s => .stepped i.range.range s.value

def IsWithin (f : Field) (i : ItemText) : Prop :=
  i.range.IsWithin f ∧ ∀ s ∈ i.step, 1 ≤ s.value ∧ s.value ≤ f.greatest

instance (f : Field) (i : ItemText) : Decidable (i.IsWithin f) :=
  inferInstanceAs (Decidable (_ ∧ _))

def first (f : Field) (i : ItemText) : Nat :=
  match i.range with
  | .all => f.least
  | .point n => n.value
  | .span a _ => a.value

/-- A number with a step behind it stands for everything from it on. -/
def last (f : Field) (i : ItemText) : Nat :=
  match i.range, i.step with
  | .all, _ => f.greatest
  | .point n, none => n.value
  | .point _, some _ => f.greatest
  | .span _ b, _ => b.value

def stride (i : ItemText) : Nat := (i.step.map Numeral.value).getD 1

/-- From the first value to the last in strides. -/
def Denotes (f : Field) (i : ItemText) (v : Nat) : Prop :=
  i.first f ≤ v ∧ v ≤ i.last f ∧ i.stride ∣ v - i.first f

instance (f : Field) (i : ItemText) (v : Nat) : Decidable (i.Denotes f v) :=
  inferInstanceAs (Decidable (_ ∧ _))

theorem mem_values_of_denotes {f : Field} {i : ItemText} {v : Nat} (h : i.IsWithin f)
    (hv : i.Denotes f v) : v ∈ f.values := by
  obtain ⟨r, step⟩ := i
  obtain ⟨hfirst, hlast, -⟩ := hv
  obtain ⟨hrange, -⟩ := h
  have hlow : f.least ≤ first f ⟨r, step⟩ := by
    cases r with
    | all => exact Nat.le_refl _
    | point n => exact (Field.mem_values.mp hrange).1
    | span a b => exact (Field.mem_values.mp hrange.1).1
  have hhigh : last f ⟨r, step⟩ ≤ f.greatest := by
    cases r with
    | all => exact Nat.le_refl _
    | point n =>
      cases step with
      | none => exact (Field.mem_values.mp hrange).2
      | some s => exact Nat.le_refl _
    | span a b => exact (Field.mem_values.mp hrange.2.1).2
  exact Field.mem_values.mpr ⟨Nat.le_trans hlow hfirst, Nat.le_trans hlast hhigh⟩

end ItemText

/-! ## Fields -/

/-- One item and the others behind it, a comma before each of these. -/
structure FieldText where
  head : ItemText
  more : List ItemText

namespace FieldText

def items (w : FieldText) : List ItemText := w.head :: w.more

def commas (more : List ItemText) : List Char := more.flatMap fun i => ',' :: i.text

def text (w : FieldText) : List Char := w.head.text ++ commas w.more

end FieldText

/-! ## Expressions -/

/-- An expression field by field.  The years need not be written. -/
structure ExpressionText where
  seconds : FieldText
  minutes : FieldText
  hours : FieldText
  daysOfMonth : FieldText
  months : FieldText
  daysOfWeek : FieldText
  years : Option FieldText

namespace ExpressionText

/-- The fields after the first. -/
def others (e : ExpressionText) : List FieldText :=
  [e.minutes, e.hours, e.daysOfMonth, e.months, e.daysOfWeek] ++ e.years.toList

def spaced (ws : List FieldText) : List Char := ws.flatMap fun w => ' ' :: w.text

def text (e : ExpressionText) : List Char := e.seconds.text ++ spaced e.others

def items (e : ExpressionText) : Field → List ItemText
  | .seconds => e.seconds.items
  | .minutes => e.minutes.items
  | .hours => e.hours.items
  | .daysOfMonth => e.daysOfMonth.items
  | .months => e.months.items
  | .daysOfWeek => e.daysOfWeek.items
  | .years => e.years.elim [] FieldText.items

def IsWithin (e : ExpressionText) : Prop := ∀ f, ∀ i ∈ e.items f, i.IsWithin f

/-- A value that some item denotes.  A field of which nothing is written takes all it can hold. -/
def Denotes (e : ExpressionText) (f : Field) (v : Nat) : Prop :=
  (e.items f = [] ∧ v ∈ f.values) ∨ ∃ i ∈ e.items f, i.Denotes f v

instance (e : ExpressionText) (f : Field) (v : Nat) : Decidable (e.Denotes f v) :=
  inferInstanceAs (Decidable (_ ∨ _))

/-- What the field takes, ascending. -/
def setOf (e : ExpressionText) (f : Field) : List Nat :=
  f.values.filter fun v => decide (e.Denotes f v)

def sets (e : ExpressionText) : Sets where
  seconds := e.setOf .seconds
  minutes := e.setOf .minutes
  hours := e.setOf .hours
  daysOfMonth := e.setOf .daysOfMonth
  months := e.setOf .months
  daysOfWeek := e.setOf .daysOfWeek
  years := e.setOf .years

theorem mem_setOf {e : ExpressionText} (he : e.IsWithin) {f : Field} {v : Nat} :
    v ∈ e.setOf f ↔ e.Denotes f v := by
  unfold setOf
  rw [List.mem_filter, decide_eq_true_eq]
  refine and_iff_right_of_imp ?_
  rintro (⟨-, hv⟩ | ⟨i, hi, hv⟩)
  · exact hv
  · exact i.mem_values_of_denotes (he f i hi) hv

theorem get_sets (e : ExpressionText) (f : Field) : e.sets.get f = e.setOf f := by
  cases f <;> rfl

theorem denotes_congr {e e' : ExpressionText} (h : ∀ f i, i ∈ e.items f ↔ i ∈ e'.items f)
    (f : Field) (v : Nat) : e.Denotes f v ↔ e'.Denotes f v := by
  have hnil : e.items f = [] ↔ e'.items f = [] := by
    simp only [List.eq_nil_iff_forall_not_mem, h]
  have hany : (∃ i ∈ e.items f, i.Denotes f v) ↔ ∃ i ∈ e'.items f, i.Denotes f v :=
    exists_congr fun i => and_congr_left' (h f i)
  exact or_congr (and_congr_left' hnil) hany

theorem sets_congr {e e' : ExpressionText} (h : ∀ f i, i ∈ e.items f ↔ i ∈ e'.items f) :
    e.sets = e'.sets := by
  have hset : e.setOf = e'.setOf := by
    funext f
    exact List.filter_congr fun v _ => decide_eq_decide.mpr (denotes_congr h f v)
  unfold sets
  rw [hset]

end ExpressionText
end Cron
end RecurringJobs
