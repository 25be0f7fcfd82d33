import RecurringJobs.Plan.Basic
import RecurringJobs.Proofs.Cron.Reading
import RecurringJobs.Proofs.Trimming

/-!
A plan written as a cron expression.

Nothing in front of the cron reader catches such a text: there are no blanks to trim, no delay
begins like it, it is no descriptor and has as many words as fields.  So it is read as the sets that
its items denote, whatever the order in which these are written and however often
(`Plan.parse_expressionText`).
-/

namespace RecurringJobs
namespace Text

theorem wordCountFrom_append {fresh : Bool} {word : List Char}
    (h : ∀ c ∈ word, isBlank c = false) (hne : word ≠ []) (tail : List Char) :
    wordCountFrom fresh (word ++ tail) = (if fresh then 1 else 0) + wordCountFrom false tail := by
  induction word generalizing fresh with
  | nil => exact absurd rfl hne
  | cons c word ih =>
    have hc : ¬isBlank c = true := by simp [h c List.mem_cons_self]
    rw [List.cons_append, wordCountFrom, if_neg hc]
    cases word with
    | nil => rfl
    | cons d word =>
      rw [ih (fun b hb => h b (List.mem_cons_of_mem c hb)) (List.cons_ne_nil d word)]
      simp

end Text

namespace Cron

open Text ExpressionText

/-! ## The text of an expression -/

theorem Leads.isBlank {c : Char} (h : Leads c) : isBlank c = false := by
  rcases h with rfl | h
  · rfl
  · exact isBlank_of_isAsciiDigit h

theorem Numeral.isBlank_of_mem {n : Numeral} {c : Char} (h : c ∈ n.digits) : isBlank c = false :=
  isBlank_of_isAsciiDigit (n.decimal c h)

theorem ItemText.isBlank_of_mem {i : ItemText} {c : Char} (h : c ∈ i.text) : isBlank c = false := by
  obtain ⟨r, step⟩ := i
  rcases List.mem_append.mp h with hrange | hstep
  · cases r with
    | all =>
      cases List.mem_singleton.mp hrange
      rfl
    | point n => exact Numeral.isBlank_of_mem hrange
    | span a b =>
      rcases List.mem_append.mp hrange with ha | hb
      · exact Numeral.isBlank_of_mem ha
      · rcases List.mem_cons.mp hb with rfl | hb
        · rfl
        · exact Numeral.isBlank_of_mem hb
  · cases step with
    | none => cases hstep
    | some s =>
      rcases List.mem_cons.mp hstep with rfl | hs
      · rfl
      · exact Numeral.isBlank_of_mem hs

theorem FieldText.isBlank_of_mem {w : FieldText} {c : Char} (h : c ∈ w.text) :
    isBlank c = false := by
  rcases List.mem_append.mp h with hhead | hmore
  · exact ItemText.isBlank_of_mem hhead
  · obtain ⟨i, -, hc⟩ := List.mem_flatMap.mp hmore
    rcases List.mem_cons.mp hc with rfl | hc
    · rfl
    · exact ItemText.isBlank_of_mem hc

theorem FieldText.text_ne_nil (w : FieldText) : w.text ≠ [] := by
  obtain ⟨c, cs, hw, -⟩ := w.exists_cons
  rw [hw]
  exact List.cons_ne_nil c cs

theorem wordCountFrom_spaced (ws : List FieldText) :
    wordCountFrom false (spaced ws) = ws.length := by
  induction ws with
  | nil => rfl
  | cons w ws ih =>
    show wordCountFrom true (w.text ++ spaced ws) = ws.length + 1
    rw [wordCountFrom_append (fun c hc => w.isBlank_of_mem hc) w.text_ne_nil, ih, Nat.add_comm]
    rfl

theorem isBlank_getLast {w : FieldText} {ws : List FieldText} {c : Char}
    (h : c ∈ (w.text ++ spaced ws).getLast?) : isBlank c = false := by
  induction ws generalizing w with
  | nil =>
    have hmem : c ∈ w.text ++ spaced [] := List.mem_of_getLast? h
    rw [show spaced [] = [] from rfl, List.append_nil] at hmem
    exact w.isBlank_of_mem hmem
  | cons next ws ih =>
    refine ih (w := next) ?_
    have hne : next.text ++ spaced ws ≠ [] := List.append_ne_nil_of_left_ne_nil next.text_ne_nil _
    rwa [show w.text ++ spaced (next :: ws) = (w.text ++ [' ']) ++ (next.text ++ spaced ws) by
        rw [List.append_assoc]; rfl,
      List.getLast?_append_of_ne_nil _ hne] at h

namespace ExpressionText

theorem exists_cons (e : ExpressionText) : ∃ c cs, e.text = c :: cs ∧ Leads c := by
  obtain ⟨c, cs, hw, hc⟩ := e.seconds.exists_cons
  exact ⟨c, cs ++ spaced e.others, by rw [text, hw, List.cons_append], hc⟩

theorem trim_text (e : ExpressionText) : trim e.text = e.text := by
  refine trim_eq_self ?_ fun c hc => isBlank_getLast hc
  obtain ⟨c, cs, he, hc⟩ := e.exists_cons
  rw [he]
  rintro d ⟨⟩
  exact hc.isBlank

theorem wordCount_text (e : ExpressionText) : wordCount e.text = 6 ∨ wordCount e.text = 7 := by
  have hcount : wordCount e.text = 1 + e.others.length := by
    unfold wordCount text
    rw [wordCountFrom_append (fun c hc => e.seconds.isBlank_of_mem hc) e.seconds.text_ne_nil,
      wordCountFrom_spaced]
    rfl
  rw [hcount]
  cases hy : e.years with
  | none => exact .inl (by simp [others, hy])
  | some w => exact .inr (by simp [others, hy])

end ExpressionText
end Cron

/-! ## Nothing else recognises it -/

theorem Cron.Leads.toNat_lt {c : Char} (h : Cron.Leads c) : c.toNat < '@'.toNat := by
  rcases h with rfl | h
  · decide
  · have hbounds := Text.toNat_of_isDigit h
    show c.toNat < 64
    omega

theorem Interval.isLetterForm_of_leads {c : Char} (h : Cron.Leads c) :
    isLetterForm 'e' c = false := by
  have hlt := h.toNat_lt
  have hlower : c.toLower = c := by
    unfold Char.toLower
    exact dif_neg fun hupper => by
      have hge : 65 ≤ c.toNat := hupper.1
      have h64 : '@'.toNat = 64 := rfl
      omega
  have hne : c ≠ 'e' := by
    rintro rfl
    exact absurd hlt (by decide)
  simp [isLetterForm, hlower, hne]

theorem Interval.requested?_of_leads {c : Char} (h : Cron.Leads c) (cs : List Char) :
    requested? (c :: cs) = none := by
  have hat : Text.dropLead "@every".toList (c :: cs) = none := by
    have hne : c ≠ '@' := by
      rintro rfl
      exact absurd h.toNat_lt (by decide)
    exact if_neg hne.symm
  have hwords : inWords? (c :: cs) = none := by
    have hletter : ¬isLetterForm 'e' c = true := by
      rw [isLetterForm_of_leads h]
      exact Bool.false_ne_true
    have hword : dropWord "every".toList (c :: cs) = none := if_neg hletter
    unfold inWords?
    rw [hword]
  unfold requested?
  rw [hat, hwords]

namespace Plan

open Cron ExpressionText

theorem readCron_text {e : ExpressionText} (he : e.IsWithin) :
    readCron e.text = .ok (.cron { source := String.ofList e.text, sets := e.sets }) := by
  unfold readCron Schedule.parse
  dsimp only
  rw [if_pos e.wordCount_text, readSets_text he]

/-- A written expression is read as a cron expression, whatever its numbers. -/
theorem read_eq_readCron (e : ExpressionText) : read e.text = readCron e.text := by
  obtain ⟨c, cs, htext, hc⟩ := e.exists_cons
  rw [htext]
  unfold read
  rw [if_neg (List.cons_ne_nil c cs), Interval.requested?_of_leads hc cs]
  dsimp only
  split
  · next heq =>
    cases heq
    exact absurd hc.toNat_lt (by decide)
  · rfl

theorem read_text {e : ExpressionText} (he : e.IsWithin) :
    read e.text = .ok (.cron { source := String.ofList e.text, sets := e.sets }) := by
  rw [read_eq_readCron, readCron_text he]

theorem exists_readSets_of_parse {e : ExpressionText} {plan : Plan}
    (h : parse (String.ofList e.text) = .ok plan) : ∃ sets, readSets e.text = .ok sets := by
  unfold parse at h
  rw [String.toList_ofList, e.trim_text, read_eq_readCron] at h
  cases hsets : readSets e.text with
  | ok sets => exact ⟨sets, rfl⟩
  | error misreading =>
    unfold readCron Schedule.parse at h
    rw [hsets] at h
    dsimp only at h
    rw [if_pos e.wordCount_text] at h
    cases h

theorem parse_text {e : ExpressionText} (he : e.IsWithin) :
    parse (String.ofList e.text) =
      .ok (.cron { source := String.ofList e.text, sets := e.sets }) := by
  unfold parse
  rw [String.toList_ofList, e.trim_text, read_text he]
  rfl

/-- A written expression is a cron plan, and its set for each field is the union of what the items
of the field denote.  Expressions with the same items have the same sets, in whatever order and
however often an item is written. -/
theorem parse_expressionText (e : ExpressionText) (he : e.IsWithin) :
    parse (String.ofList e.text) =
        .ok (.cron { source := String.ofList e.text, sets := e.sets }) ∧
      (∀ f v, v ∈ e.sets.get f ↔ e.Denotes f v) ∧
      ∀ e' : ExpressionText, (∀ f i, i ∈ e'.items f ↔ i ∈ e.items f) →
        parse (String.ofList e'.text) =
          .ok (.cron { source := String.ofList e'.text, sets := e.sets }) := by
  refine ⟨parse_text he, fun f v => ?_, fun e' hsame => ?_⟩
  · rw [e.get_sets]
    exact mem_setOf he
  · have he' : e'.IsWithin := fun f i hi => he f i ((hsame f i).mp hi)
    rw [← sets_congr hsame]
    exact parse_text he'

/-- Weekdays of the first quarter, every fifth year from 2090 on. -/
def quarterText : ExpressionText where
  seconds := ⟨⟨.point (.ofNat 30), none⟩, [⟨.all, some (.ofNat 25)⟩]⟩
  minutes := ⟨⟨.point (.ofNat 50), some (.ofNat 4)⟩, []⟩
  hours := ⟨⟨.span (.ofNat 8) (.ofNat 18), some (.ofNat 5)⟩, [⟨.point (.ofNat 9), none⟩]⟩
  daysOfMonth := ⟨⟨.all, none⟩, []⟩
  months := ⟨⟨.span (.ofNat 1) (.ofNat 3), none⟩, []⟩
  daysOfWeek := ⟨⟨.span (.ofNat 2) (.ofNat 6), none⟩, []⟩
  years := some ⟨⟨.point (.ofNat 2090), some (.ofNat 5)⟩, []⟩

def quarterSets : Sets where
  seconds := [0, 25, 30, 50]
  minutes := [50, 54, 58]
  hours := [8, 9, 13, 18]
  daysOfMonth := Field.span 1 31
  months := [1, 2, 3]
  daysOfWeek := [2, 3, 4, 5, 6]
  years := [2090, 2095, 2100]

/-- The same seconds in another order, one of the items twice. -/
def quarterReordered : ExpressionText :=
  { quarterText with
    seconds := ⟨⟨.all, some (.ofNat 25)⟩, [⟨.point (.ofNat 30), none⟩, ⟨.all, some (.ofNat 25)⟩]⟩ }

theorem parse_quarterText :
    quarterText.IsWithin ∧
      (∀ f i, i ∈ quarterReordered.items f ↔ i ∈ quarterText.items f) ∧
      parse "30,*/25 50/4 8-18/5,9 * 1-3 2-6 2090/5" =
        .ok (.cron { source := "30,*/25 50/4 8-18/5,9 * 1-3 2-6 2090/5", sets := quarterSets }) ∧
      parse "*/25,30,*/25 50/4 8-18/5,9 * 1-3 2-6 2090/5" =
        .ok (.cron
          { source := "*/25,30,*/25 50/4 8-18/5,9 * 1-3 2-6 2090/5", sets := quarterSets }) := by
  have hwithin : quarterText.IsWithin := fun f => by cases f <;> decide
  have hsame : ∀ f i, i ∈ quarterReordered.items f ↔ i ∈ quarterText.items f := by
    intro f i
    cases f
    case seconds =>
      simp only [quarterReordered, quarterText, items, FieldText.items, List.mem_cons]
      tauto
    all_goals rfl
  have hsets : quarterText.sets = quarterSets := by decide +kernel
  have htext : String.ofList quarterText.text = "30,*/25 50/4 8-18/5,9 * 1-3 2-6 2090/5" := by
    decide +kernel
  have hreordered :
      String.ofList quarterReordered.text = "*/25,30,*/25 50/4 8-18/5,9 * 1-3 2-6 2090/5" := by
    decide +kernel
  obtain ⟨hread, -, hother⟩ := parse_expressionText quarterText hwithin
  have hagain := hother quarterReordered hsame
  rw [htext, hsets] at hread
  rw [hreordered, hsets] at hagain
  exact ⟨hwithin, hsame, hread, hagain⟩

end Plan
end RecurringJobs
