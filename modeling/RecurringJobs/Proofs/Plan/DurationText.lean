import RecurringJobs.Plan.Basic
import RecurringJobs.Proofs.Cron.Written
import RecurringJobs.Proofs.Trimming

/-!
Durations as they are written.

A `PartText` is a number, with a fraction or without, and the spelling of a unit.  The text of some
parts is read as these (`Duration.total_texts`) and no other text is read at all
(`Duration.exists_texts`).  No two lists of parts have the same text (`Duration.texts_injective`),
since a part ends where its unit does.  Whatever stands behind `@every` is a duration or refused as
one (`Plan.parse_every`).
-/

namespace RecurringJobs
namespace Duration

open Cron (Numeral)
open Text

/-! ## Units -/

/-- The spellings of the units.  Microseconds have two. -/
inductive Spelling where
  | hours
  | minutes
  | seconds
  | millis
  | micros
  | microSign
  | nanos
deriving DecidableEq

namespace Spelling

def text : Spelling → List Char
  | hours => ['h']
  | minutes => ['m']
  | seconds => ['s']
  | millis => ['m', 's']
  | micros => ['u', 's']
  | microSign => ['µ', 's']
  | nanos => ['n', 's']

def unit : Spelling → Unit
  | hours => .hours
  | minutes => .minutes
  | seconds => .seconds
  | millis => .millis
  | micros => .micros
  | microSign => .micros
  | nanos => .nanos

theorem text_injective : Function.Injective text := by
  intro s t h
  cases s <;> cases t <;> first | rfl | simp [text] at h

/-- A spelling begins with none of the characters that a number has. -/
theorem exists_cons (s : Spelling) :
    ∃ c cs, s.text = c :: cs ∧ isDigit c = false ∧ c ≠ '.' := by
  cases s <;> exact ⟨_, _, rfl, by decide, by decide⟩

theorem isBlank_getLast {s : Spelling} {c : Char} (h : c ∈ s.text.getLast?) :
    isBlank c = false := by
  cases s <;> cases h <;> rfl

/-- A minute is told from a millisecond by what follows. -/
theorem read?_text (s : Spelling) {tail : List Char} (htail : ∀ c ∈ tail.head?, c ≠ 's') :
    Unit.read? (s.text ++ tail) = some (s.unit, tail) := by
  by_cases hs : s = minutes
  · subst hs
    cases tail with
    | nil => rfl
    | cons c tail =>
      have hc : c ≠ 's' := htail c rfl
      show Unit.read? ('m' :: c :: tail) = some (.minutes, c :: tail)
      unfold Unit.read?
      split <;> simp_all
  · cases s <;> first | rfl | exact absurd rfl hs

theorem exists_of_read? {cs rest : List Char} {u : Unit} (h : Unit.read? cs = some (u, rest)) :
    ∃ s : Spelling, s.unit = u ∧ cs = s.text ++ rest := by
  unfold Unit.read? at h
  split at h
  case h_8 => cases h
  case h_1 => cases h; exact ⟨hours, rfl, rfl⟩
  case h_2 => cases h; exact ⟨millis, rfl, rfl⟩
  case h_3 => cases h; exact ⟨minutes, rfl, rfl⟩
  case h_4 => cases h; exact ⟨seconds, rfl, rfl⟩
  case h_5 => cases h; exact ⟨micros, rfl, rfl⟩
  case h_6 => cases h; exact ⟨microSign, rfl, rfl⟩
  case h_7 => cases h; exact ⟨nanos, rfl, rfl⟩

end Spelling

/-! ## Parts -/

/-- A number, a point with digits after it or none, and a unit. -/
structure PartText where
  whole : Numeral
  fraction : Option Numeral
  spelling : Spelling

def fractionText : Option Numeral → List Char
  | none => []
  | some n => '.' :: n.digits

namespace PartText

def text (w : PartText) : List Char :=
  w.whole.digits ++ (fractionText w.fraction ++ w.spelling.text)

def part (w : PartText) : Part where
  whole := w.whole.digits
  fraction := w.fraction.elim [] Numeral.digits
  unit := w.spelling.unit

/-- A number of units without a fraction. -/
def ofNat (n : Nat) (s : Spelling) : PartText where
  whole := .ofNat n
  fraction := none
  spelling := s

theorem value_ofNat (n : Nat) (s : Spelling) :
    (ofNat n s).part.value = (Binary64.ofNat n).scale s.unit.nanoseconds := by
  have hdigits : ofDigits (Nat.toDigits 10 n ++ []) = n := by
    rw [List.append_nil, ofDigits_toDigits]
  show (Binary64.ofDecimal (ofDigits (Nat.toDigits 10 n ++ [])) 0).scale s.unit.nanoseconds = _
  rw [hdigits]
  rfl

theorem isNumber_part (w : PartText) : w.part.isNumber = true := by
  have hwhole : w.part.whole.all isAsciiDigit = true := List.all_eq_true.mpr w.whole.decimal
  have hfraction : w.part.fraction.all isAsciiDigit = true := by
    show (w.fraction.elim [] Numeral.digits).all isAsciiDigit = true
    cases w.fraction with
    | none => rfl
    | some n => exact List.all_eq_true.mpr n.decimal
  rw [Part.isNumber, hwhole, hfraction]
  rfl

/-- A part begins with a digit. -/
theorem exists_cons (w : PartText) : ∃ c cs, w.text = c :: cs ∧ isAsciiDigit c = true := by
  obtain ⟨c, cs, hwhole, hc⟩ := w.whole.exists_cons
  exact ⟨c, _, by rw [text, hwhole, List.cons_append], hc⟩

end PartText

theorem fraction?_point {rest : List Char} (hne : rest.takeWhile isDigit ≠ []) :
    fraction? ('.' :: rest) = (rest.takeWhile isDigit, rest.dropWhile isDigit) := by
  rw [fraction?]
  split
  · next hnil => exact absurd hnil hne
  · rfl

theorem fraction?_text (f : Option Numeral) {c : Char} (cs : List Char) (hdigit : isDigit c = false)
    (hpoint : c ≠ '.') :
    fraction? (fractionText f ++ c :: cs) = (f.elim [] Numeral.digits, c :: cs) := by
  cases f with
  | none =>
    show fraction? (c :: cs) = ([], c :: cs)
    unfold fraction?
    split <;> simp_all
  | some n =>
    have hstop : ∀ d ∈ (c :: cs).head?, isDigit d = false := by
      rintro d ⟨⟩
      exact hdigit
    obtain ⟨htake, hdrop⟩ := n.span_digits hstop
    have hne : (n.digits ++ c :: cs).takeWhile isDigit ≠ [] := by
      rw [htake]
      exact n.written
    show fraction? ('.' :: (n.digits ++ c :: cs)) = (n.digits, c :: cs)
    rw [fraction?_point hne, htake, hdrop]

/-- What is taken for a fraction was written as one or is nothing. -/
theorem exists_fraction {cs : List Char} (hascii : ∀ c ∈ (fraction? cs).1, isAsciiDigit c = true) :
    ∃ f : Option Numeral,
      f.elim [] Numeral.digits = (fraction? cs).1 ∧ cs = fractionText f ++ (fraction? cs).2 := by
  fun_cases fraction? cs with
  | case1 rest htake => exact ⟨none, rfl, rfl⟩
  | case2 rest hne =>
    rw [fraction?_point hne] at hascii
    refine ⟨some ⟨_, hne, hascii⟩, rfl, ?_⟩
    rw [fractionText, List.cons_append, List.takeWhile_append_dropWhile]
  | case3 cs hpoint => exact ⟨none, rfl, rfl⟩

/-- A part is read up to its unit, whatever follows that makes no other unit of it. -/
theorem part?_text (w : PartText) {tail : List Char} (htail : ∀ c ∈ tail.head?, c ≠ 's') :
    part? (w.text ++ tail) = some (w.part, tail) := by
  obtain ⟨c, cs, hspelling, hdigit, hpoint⟩ := w.spelling.exists_cons
  have htext : w.text ++ tail =
      w.whole.digits ++ (fractionText w.fraction ++ c :: (cs ++ tail)) := by
    rw [PartText.text, hspelling]
    simp only [List.append_assoc, List.cons_append]
  have hunit : Unit.read? (c :: (cs ++ tail)) = some (w.spelling.unit, tail) := by
    rw [← List.cons_append, ← hspelling]
    exact w.spelling.read?_text htail
  have hstop : ∀ d ∈ (fractionText w.fraction ++ c :: (cs ++ tail)).head?, isDigit d = false := by
    cases w.fraction with
    | none =>
      rintro d ⟨⟩
      exact hdigit
    | some n =>
      rintro d ⟨⟩
      decide
  obtain ⟨htake, hdrop⟩ := w.whole.span_digits hstop
  rw [htext]
  unfold part?
  rw [htake, hdrop, fraction?_text w.fraction _ hdigit hpoint]
  split
  · next hnil => exact absurd hnil w.whole.written
  · dsimp only
    rw [hunit]
    rfl

/-- What is read as a part with a number was written as one. -/
theorem exists_partText {cs rest : List Char} {p : Part} (h : part? cs = some (p, rest))
    (hnumber : p.isNumber = true) : ∃ w : PartText, w.part = p ∧ cs = w.text ++ rest := by
  unfold part? at h
  split at h
  · cases h
  · next hwhole =>
    obtain ⟨⟨u, after⟩, hunit, hpart⟩ := Option.map_eq_some_iff.mp h
    simp only [Prod.mk.injEq] at hpart
    obtain ⟨rfl, rfl⟩ := hpart
    rw [Part.isNumber, Bool.and_eq_true, List.all_eq_true, List.all_eq_true] at hnumber
    obtain ⟨hascii, hfraction⟩ := hnumber
    obtain ⟨s, hs, hspelling⟩ := Spelling.exists_of_read? hunit
    obtain ⟨f, hf, hdrop⟩ := exists_fraction hfraction
    refine ⟨⟨⟨_, hwhole, hascii⟩, f, s⟩, ?_, ?_⟩
    · rw [PartText.part, hs, hf]
    · calc cs = cs.takeWhile isDigit ++ cs.dropWhile isDigit :=
            List.takeWhile_append_dropWhile.symm
        _ = cs.takeWhile isDigit ++ (fractionText f ++ (s.text ++ after)) := by
            rw [← hspelling, ← hdrop]
        _ = PartText.text ⟨⟨_, hwhole, hascii⟩, f, s⟩ ++ after := by
            simp only [PartText.text, List.append_assoc]

/-! ## Texts of parts -/

def texts (ws : List PartText) : List Char := ws.flatMap PartText.text

theorem texts_cons (w : PartText) (ws : List PartText) : texts (w :: ws) = w.text ++ texts ws :=
  List.flatMap_cons

theorem texts_ne_nil {ws : List PartText} (h : ws ≠ []) : texts ws ≠ [] := by
  obtain ⟨w, ws, rfl⟩ := List.exists_cons_of_ne_nil h
  obtain ⟨c, cs, hw, -⟩ := w.exists_cons
  rw [texts_cons, hw]
  exact List.cons_ne_nil c _

/-- Behind a part comes nothing or the digit of another. -/
theorem head_texts {ws : List PartText} {c : Char} (h : c ∈ (texts ws).head?) :
    isAsciiDigit c = true := by
  cases ws with
  | nil => cases h
  | cons w ws =>
    obtain ⟨d, cs, hw, hd⟩ := w.exists_cons
    rw [texts_cons, hw] at h
    cases h
    exact hd

theorem head_texts_ne (ws : List PartText) : ∀ c ∈ (texts ws).head?, c ≠ 's' := by
  rintro c hc rfl
  exact absurd (head_texts hc) (by decide)

theorem trim_texts (ws : List PartText) : trim (texts ws) = texts ws := by
  refine trim_eq_self (fun c hc => isBlank_of_isAsciiDigit (head_texts hc)) fun c hc => ?_
  rcases List.eq_nil_or_concat ws with rfl | ⟨front, w, rfl⟩
  · cases hc
  · have hlast : texts (front.concat w) =
        (texts front ++ (w.whole.digits ++ fractionText w.fraction)) ++ w.spelling.text := by
      simp [texts, PartText.text]
    have hne : w.spelling.text ≠ [] := by
      obtain ⟨d, cs, hd, -⟩ := w.spelling.exists_cons
      rw [hd]
      exact List.cons_ne_nil d cs
    rw [hlast, List.getLast?_append_of_ne_nil _ hne] at hc
    exact Spelling.isBlank_getLast hc

theorem eq_of_text_append {v w : PartText} {tail rest : List Char}
    (htail : ∀ c ∈ tail.head?, c ≠ 's') (hrest : ∀ c ∈ rest.head?, c ≠ 's')
    (h : v.text ++ tail = w.text ++ rest) : v = w ∧ tail = rest := by
  have hread : some (v.part, tail) = some (w.part, rest) := by
    rw [← part?_text v htail, h, part?_text w hrest]
  simp only [Option.some.injEq, Prod.mk.injEq] at hread
  obtain ⟨hpart, rfl⟩ := hread
  have htext : v.text = w.text := List.append_cancel_right h
  obtain ⟨a, f, s⟩ := v
  obtain ⟨b, g, t⟩ := w
  simp only [PartText.part, Part.mk.injEq] at hpart
  obtain ⟨hwhole, hfraction, -⟩ := hpart
  have hab : a = b := Numeral.eq_of_digits hwhole
  have hfg : f = g := by
    cases f with
    | none =>
      cases g with
      | none => rfl
      | some n => exact absurd hfraction.symm n.written
    | some m =>
      cases g with
      | none => exact absurd hfraction m.written
      | some n => rw [Numeral.eq_of_digits hfraction]
  subst hab hfg
  have hst : s = t := by
    simp only [PartText.text, List.append_cancel_left_eq] at htext
    exact Spelling.text_injective htext
  rw [hst]
  exact ⟨rfl, rfl⟩

/-- A text comes apart in one way at most. -/
theorem texts_injective : Function.Injective texts := by
  intro vs
  induction vs with
  | nil =>
    intro ws h
    by_contra hne
    exact texts_ne_nil (Ne.symm hne) h.symm
  | cons v vs ih =>
    intro ws h
    cases ws with
    | nil => exact absurd h (texts_ne_nil (List.cons_ne_nil v vs))
    | cons w ws =>
      rw [texts_cons, texts_cons] at h
      obtain ⟨rfl, hrest⟩ := eq_of_text_append (head_texts_ne vs) (head_texts_ne ws) h
      rw [ih hrest]

/-! ## Sums -/

/-- The parts added up in their order, each sum rounded to a double. -/
def sumFrom (sofar : Binary64) (ws : List PartText) : Binary64 :=
  ws.foldl (fun sum w => sum.add w.part.value) sofar

def sum (ws : List PartText) : Binary64 := sumFrom (.finite 0) ws

theorem sum_singleton (w : PartText) : sum [w] = (Binary64.finite 0).add w.part.value := by
  rw [sum, sumFrom, List.foldl_cons, List.foldl_nil]

theorem total_nil (sofar : Binary64) : total sofar [] = .ok sofar := by
  rw [total, if_pos rfl]

theorem total_of_part {sofar : Binary64} {cs rest : List Char} {p : Part}
    (hpart : part? cs = some (p, rest)) (hnumber : p.isNumber = true) :
    total sofar cs = total (sofar.add p.value) rest := by
  have hne : cs ≠ [] := by
    rintro rfl
    cases hpart
  rw [total, if_neg hne]
  split
  · next hnone =>
    rw [hpart] at hnone
    cases hnone
  · next q r hsome =>
    rw [hpart] at hsome
    cases hsome
    rw [if_pos hnumber]

theorem total_texts (sofar : Binary64) (ws : List PartText) :
    total sofar (texts ws) = .ok (sumFrom sofar ws) := by
  induction ws generalizing sofar with
  | nil => exact total_nil sofar
  | cons w ws ih =>
    rw [texts_cons, total_of_part (part?_text w (head_texts_ne ws)) w.isNumber_part]
    exact ih (sofar.add w.part.value)

/-- Every text that has a total is one of parts. -/
theorem exists_texts {sofar sum : Binary64} {cs : List Char} (h : total sofar cs = .ok sum) :
    ∃ ws, cs = texts ws := by
  fun_induction total sofar cs with
  | case1 sofar => exact ⟨[], rfl⟩
  | case2 sofar cs hne hpart => cases h
  | case3 sofar cs hne p rest hpart hnumber ih =>
    obtain ⟨ws, hrest⟩ := ih h
    obtain ⟨w, -, hcs⟩ := exists_partText hpart hnumber
    exact ⟨w :: ws, by rw [hcs, hrest, texts_cons]⟩
  | case4 sofar cs hne p rest hpart hnumber => cases h

/-! ## What is read -/

/-- The sum is a number, and no more than 64 bits and one. -/
def IsInRange (ws : List PartText) : Prop :=
  ∃ units, sum ws = .finite units ∧ units ≤ Nat.pow 2 64 * Binary64.one

theorem atMost_sum_iff (ws : List PartText) :
    (sum ws).atMost (Nat.pow 2 64) = true ↔ IsInRange ws := by
  unfold IsInRange
  cases sum ws with
  | finite u => simp [Binary64.atMost]
  | infinite => simp [Binary64.atMost]

theorem parse_texts {ws : List PartText} (hne : ws ≠ []) (hrange : IsInRange ws) :
    parse (texts ws) = .ok (min ((sum ws).floor.getD 0) maxWord64) := by
  have htotal : total (.finite 0) (texts ws) = .ok (sum ws) := total_texts _ ws
  unfold parse
  rw [if_neg (texts_ne_nil hne), htotal]
  dsimp only
  rw [if_pos ((atMost_sum_iff ws).mpr hrange)]

theorem parse_outOfRange {ws : List PartText} (hne : ws ≠ []) (hrange : ¬IsInRange ws) :
    parse (texts ws) = .error .outOfRange := by
  have htotal : total (.finite 0) (texts ws) = .ok (sum ws) := total_texts _ ws
  have hmost : ¬(sum ws).atMost (Nat.pow 2 64) = true := by rwa [atMost_sum_iff]
  unfold parse
  rw [if_neg (texts_ne_nil hne), htotal]
  dsimp only
  rw [if_neg hmost]

theorem exists_of_parse_ok {cs : List Char} {nanos : Nat} (h : parse cs = .ok nanos) :
    ∃ ws, ws ≠ [] ∧ cs = texts ws ∧ IsInRange ws := by
  unfold parse at h
  split at h
  · cases h
  · next hne =>
    cases htotal : total (.finite 0) cs with
    | error fault =>
      rw [htotal] at h
      cases h
    | ok total =>
      rw [htotal] at h
      obtain ⟨ws, rfl⟩ := exists_texts htotal
      have hsum : sum ws = total := Except.ok.inj ((total_texts _ ws).symm.trans htotal)
      rw [← hsum] at h
      have hmost : (sum ws).atMost (Nat.pow 2 64) = true := by
        by_contra hnot
        dsimp only at h
        rw [if_neg hnot] at h
        cases h
      exact ⟨ws, by rintro rfl; exact hne rfl, rfl, (atMost_sum_iff ws).mp hmost⟩

end Duration

namespace Plan

open Text Duration

/-! ## Behind `@every` -/

theorem requested?_every (rest : String) :
    Interval.requested? (trim ("@every" ++ rest).toList) =
      some ((Duration.parse (trim rest.toList)).mapError
        (.duration (String.ofList (trim rest.toList)))) := by
  have htrim : trim ("@every" ++ rest).toList = "@every".toList ++ trimEnd rest.toList := by
    have hfirst : ∀ c ∈ "@every".toList.head?, isBlank c = false := by
      rintro c ⟨⟩
      rfl
    have hlast : ∀ c ∈ "@every".toList.getLast?, isBlank c = false := by
      rintro c ⟨⟩
      rfl
    rw [String.toList_append]
    exact trim_append (by decide) hfirst hlast rest.toList
  unfold Interval.requested?
  rw [htrim, dropLead_eq_some_iff.mpr rfl]
  dsimp only
  rw [trim_trimEnd]

theorem read_of_requested {text : List Char} {result : Except Interval.Fault Nat}
    (h : Interval.requested? text = some result) :
    read text = (result.map fun nanos => every (normalizedSeconds nanos)).mapError .interval := by
  have hne : text ≠ [] := by
    rintro rfl
    cases h
  unfold read
  rw [if_neg hne, h]
  cases result <;> rfl

theorem requestedInterval_every (rest : String) :
    requestedInterval ("@every" ++ rest) = (Duration.parse (trim rest.toList)).toOption := by
  unfold requestedInterval
  rw [requested?_every]
  cases Duration.parse (trim rest.toList) <;> rfl

theorem parse_every (rest : String) :
    parse ("@every" ++ rest) =
      match Duration.parse (trim rest.toList) with
      | .ok nanos => .ok (.every (normalizedSeconds nanos))
      | .error fault => .error
          { plan := "@every" ++ rest
            fault := .interval (.duration (String.ofList (trim rest.toList)) fault) } := by
  unfold parse
  rw [read_of_requested (requested?_every rest)]
  cases Duration.parse (trim rest.toList) <;> rfl

/-- The text of a delay of parts. -/
def everyText (ws : List PartText) : String := "@every " ++ String.ofList (texts ws)

theorem everyText_eq (ws : List PartText) :
    everyText ws = "@every" ++ (" " ++ String.ofList (texts ws)) := by
  rw [← String.append_assoc]
  rfl

theorem trim_behind_every (ws : List PartText) :
    trim (" " ++ String.ofList (texts ws)).toList = texts ws := by
  have hblank : ∀ c ∈ [' '], isBlank c = true := List.forall_mem_singleton.mpr rfl
  rw [String.toList_append]
  show trim ([' '] ++ (String.ofList (texts ws)).toList) = texts ws
  rw [String.toList_ofList, trim_blanks_append hblank, trim_texts]

theorem requestedInterval_everyText (ws : List PartText) :
    requestedInterval (everyText ws) = (Duration.parse (texts ws)).toOption := by
  rw [everyText_eq, requestedInterval_every, trim_behind_every]

theorem parse_everyText (ws : List PartText) :
    parse (everyText ws) =
      match Duration.parse (texts ws) with
      | .ok nanos => .ok (.every (normalizedSeconds nanos))
      | .error fault => .error
          { plan := everyText ws
            fault := .interval (.duration (String.ofList (texts ws)) fault) } := by
  rw [everyText_eq, parse_every, trim_behind_every]

/-- Behind `@every` an interval is found exactly when the text there, trimmed, is that of some parts,
with nothing in front of them, between them or behind, and their sum is in range.  Otherwise the
whole text is refused as a delay, and not looked at as a descriptor or a cron expression.  The parts
of a text are the only ones that it has. -/
theorem every_isSome_iff (rest : String) :
    ((requestedInterval ("@every" ++ rest)).isSome = true ↔
        ∃ ws, ws ≠ [] ∧ trim rest.toList = texts ws ∧ IsInRange ws) ∧
      (requestedInterval ("@every" ++ rest) = none ↔
        ∃ fault, parse ("@every" ++ rest) =
          .error { plan := "@every" ++ rest, fault := .interval fault }) ∧
      Function.Injective texts := by
  refine ⟨?_, ?_, texts_injective⟩
  · rw [requestedInterval_every]
    constructor
    · intro hsome
      cases hparse : Duration.parse (trim rest.toList) with
      | error fault =>
        rw [hparse] at hsome
        cases hsome
      | ok nanos => exact exists_of_parse_ok hparse
    · rintro ⟨ws, hne, htext, hrange⟩
      rw [htext, parse_texts hne hrange]
      rfl
  · rw [requestedInterval_every, parse_every]
    cases Duration.parse (trim rest.toList) with
    | error fault => exact ⟨fun _ => ⟨_, rfl⟩, fun _ => rfl⟩
    | ok nanos => exact ⟨nofun, nofun⟩

example : requestedInterval "@every 1.5ms.5s" = none := by decide +kernel

end Plan
end RecurringJobs
