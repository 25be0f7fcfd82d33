import RecurringJobs.Proofs.Cron.Written

/-!
A written cron expression is read back.

Each reader is run on a text with any tail behind it, and gives what was written and the tail.  A
number takes the blanks behind it and the star does not, so the tail comes back with its blanks or
without them, and the end of a field evens this out.  What is read has the meaning that was written
(`evaluate_items`), and a whole expression is read as its sets (`readSets_text`).
-/

namespace RecurringJobs
namespace Cron

/-! ## Characters -/

theorem isGap_of_isAsciiDigit {c : Char} (h : Text.isAsciiDigit c = true) : isGap c = false := by
  unfold Text.isAsciiDigit at h
  unfold isGap
  rw [Bool.and_eq_true, decide_eq_true_eq, decide_eq_true_eq] at h
  have hc : c ≠ ' ' ∧ c ≠ '\t' ∧ c ≠ '\r' ∧ c ≠ '\n' := by
    refine ⟨?_, ?_, ?_, ?_⟩ <;>
    · rintro rfl
      exact absurd h.1 (by decide)
  simp [hc]

theorem skipGap_cons {c : Char} (h : isGap c = false) (cs : List Char) :
    skipGap (c :: cs) = c :: cs :=
  List.dropWhile_cons_of_neg (by simp [h])

theorem skipGap_skipGap (cs : List Char) : skipGap (skipGap cs) = skipGap cs := by
  unfold skipGap
  induction cs with
  | nil => rfl
  | cons c cs ih =>
    by_cases h : isGap c = true
    · rw [List.dropWhile_cons_of_pos h, ih]
    · rw [List.dropWhile_cons_of_neg h, List.dropWhile_cons_of_neg h]

/-! ## Numbers -/

theorem skipGap_digits (n : Numeral) (tail : List Char) :
    skipGap (n.digits ++ tail) = n.digits ++ tail := by
  obtain ⟨c, cs, hn, hc⟩ := n.exists_cons
  rw [hn, List.cons_append, skipGap_cons (isGap_of_isAsciiDigit hc)]

theorem lexeme?_digits (n : Numeral) {tail : List Char}
    (htail : ∀ c ∈ tail.head?, Text.isAsciiDigit c = false) :
    lexeme? Text.isAsciiDigit (n.digits ++ tail) = some (n.digits, skipGap tail) := by
  obtain ⟨c, cs, hn, -⟩ := n.exists_cons
  obtain ⟨htake, hdrop⟩ := Text.span_append n.decimal htail
  unfold lexeme?
  dsimp only
  rw [skipGap_digits, htake, hdrop, hn]

theorem number?_digits {n : Numeral} {tail : List Char} (hsize : n.value ≤ Text.maxWord32)
    (htail : ∀ c ∈ tail.head?, Text.isAsciiDigit c = false) :
    number? (n.digits ++ tail) = some (n.value, skipGap tail) := by
  unfold number?
  rw [lexeme?_digits n htail]
  exact if_pos hsize

theorem Field.greatest_le_maxWord32 (f : Field) : f.greatest ≤ Text.maxWord32 := by
  cases f <;> decide

theorem Field.le_maxWord32 {f : Field} {n : Nat} (h : n ∈ f.values) : n ≤ Text.maxWord32 :=
  Nat.le_trans (Field.mem_values.mp h).2 f.greatest_le_maxWord32

/-! ## Where an item begins and where it ends -/

/-- The characters that an item begins with. -/
def Leads (c : Char) : Prop := c = '*' ∨ Text.isAsciiDigit c = true

theorem Leads.isGap {c : Char} (h : Leads c) : isGap c = false := by
  rcases h with rfl | h
  · rfl
  · exact isGap_of_isAsciiDigit h

theorem RangeText.exists_cons (r : RangeText) : ∃ c cs, r.text = c :: cs ∧ Leads c := by
  cases r with
  | all => exact ⟨'*', [], rfl, .inl rfl⟩
  | point n =>
    obtain ⟨c, cs, hn, hc⟩ := n.exists_cons
    exact ⟨c, cs, hn, .inr hc⟩
  | span a b =>
    obtain ⟨c, cs, ha, hc⟩ := a.exists_cons
    exact ⟨c, cs ++ '-' :: b.digits, by rw [RangeText.text, ha]; rfl, .inr hc⟩

theorem FieldText.exists_cons (w : FieldText) : ∃ c cs, w.text = c :: cs ∧ Leads c := by
  obtain ⟨c, cs, hr, hc⟩ := w.head.range.exists_cons
  refine ⟨c, cs ++ ItemText.stepText w.head.step ++ commas w.more, ?_, hc⟩
  rw [FieldText.text, ItemText.text, hr, List.cons_append, List.cons_append]

/-- A tail that no item runs into. -/
structure Closes (tail : List Char) : Prop where
  digit : ∀ c ∈ tail.head?, Text.isAsciiDigit c = false
  mark : ∀ c ∈ (skipGap tail).head?, c ≠ '-' ∧ c ≠ '/'

/-- The rest after an item, with or without the blanks of the tail. -/
def IsRest (tail rest : List Char) : Prop := rest = tail ∨ rest = skipGap tail

theorem IsRest.skipGap_eq {tail rest : List Char} (h : IsRest tail rest) :
    skipGap rest = skipGap tail := by
  rcases h with rfl | rfl
  · rfl
  · exact skipGap_skipGap tail

theorem IsRest.eq_cons {c : Char} {cs rest : List Char} (hc : isGap c = false)
    (h : IsRest (c :: cs) rest) : rest = c :: cs := by
  rcases h with rfl | rfl
  · rfl
  · exact skipGap_cons hc cs

/-! ## Runs -/

theorem star?_digits (f : Field) (n : Numeral) (tail : List Char) :
    star? f (n.digits ++ tail) = none := by
  obtain ⟨c, cs, hn, hc⟩ := n.exists_cons
  rw [hn, List.cons_append]
  unfold star?
  split
  · next heq =>
    cases heq
    exact absurd hc (by decide)
  · next heq =>
    cases heq
    exact absurd hc (by decide)
  · rfl

theorem range?_point {f : Field} {n : Numeral} (hsize : n.value ≤ Text.maxWord32)
    {tail : List Char} (hdigit : ∀ c ∈ tail.head?, Text.isAsciiDigit c = false)
    (hdash : ∀ c ∈ (skipGap tail).head?, c ≠ '-') :
    range? f (n.digits ++ tail) = some (.point n.value, skipGap tail) := by
  have hn : number? (n.digits ++ tail) = some (n.value, skipGap tail) :=
    number?_digits hsize hdigit
  have hpair : pair? number? (n.digits ++ tail) = none := by
    unfold pair?
    rw [hn]
    split
    · next heq =>
      simp only [Option.some.injEq, Prod.mk.injEq] at heq
      exact absurd rfl (hdash '-' (by rw [heq.2]; rfl))
    · rfl
  simp only [range?, star?_digits, hpair, hn]

theorem range?_text {f : Field} {r : RangeText} (h : r.IsWithin f) {tail : List Char}
    (hdigit : ∀ c ∈ tail.head?, Text.isAsciiDigit c = false)
    (hdash : ∀ c ∈ (skipGap tail).head?, c ≠ '-') :
    ∃ rest, IsRest tail rest ∧ range? f (r.text ++ tail) = some (r.range, rest) := by
  cases r with
  | all => exact ⟨tail, .inl rfl, rfl⟩
  | point n => exact ⟨skipGap tail, .inr rfl, range?_point (Field.le_maxWord32 h) hdigit hdash⟩
  | span a b =>
    obtain ⟨ha, hb, -⟩ := h
    have hfirst : number? (a.digits ++ '-' :: (b.digits ++ tail)) =
        some (a.value, '-' :: (b.digits ++ tail)) :=
      number?_digits (Field.le_maxWord32 ha) (by rintro c ⟨⟩; rfl)
    have hsecond : number? (b.digits ++ tail) = some (b.value, skipGap tail) :=
      number?_digits (Field.le_maxWord32 hb) hdigit
    have hpair : pair? number? (a.digits ++ '-' :: (b.digits ++ tail)) =
        some ((a.value, b.value), skipGap tail) := by
      simp only [pair?, hfirst, hsecond, Option.map_some]
    refine ⟨skipGap tail, .inr rfl, ?_⟩
    simp only [RangeText.text, List.append_assoc, List.cons_append, range?, star?_digits, hpair,
      RangeText.range]

/-! ## Items -/

theorem step?_of_isRest {tail rest : List Char} (h : Closes tail) (hrest : IsRest tail rest) :
    step? rest = none := by
  unfold step?
  split
  · next cs =>
    have hslash : skipGap tail = '/' :: cs := by
      rw [← hrest.skipGap_eq]
      exact skipGap_cons rfl cs
    exact absurd rfl (h.mark '/' (by rw [hslash]; rfl)).2
  · rfl

theorem item?_text {f : Field} {i : ItemText} (h : i.IsWithin f) {tail : List Char}
    (htail : Closes tail) :
    ∃ rest, IsRest tail rest ∧ item? f (i.text ++ tail) = some (i.item, rest) := by
  obtain ⟨r, step⟩ := i
  cases step with
  | none =>
    obtain ⟨rest, hrest, hr⟩ :=
      range?_text h.1 htail.digit fun c hc => (htail.mark c hc).1
    refine ⟨rest, hrest, ?_⟩
    simp only [ItemText.text, ItemText.stepText, List.append_nil, item?, hr,
      step?_of_isRest htail hrest, ItemText.item]
  | some s =>
    have hsize : s.value ≤ Text.maxWord32 := Nat.le_trans (h.2 s rfl).2 f.greatest_le_maxWord32
    have hdigit : ∀ c ∈ ('/' :: (s.digits ++ tail)).head?, Text.isAsciiDigit c = false := by
      rintro c ⟨⟩
      rfl
    have hdash : ∀ c ∈ (skipGap ('/' :: (s.digits ++ tail))).head?, c ≠ '-' := by
      rintro c ⟨⟩
      decide
    obtain ⟨rest, hrest, hr⟩ := range?_text h.1 hdigit hdash
    have hstep : step? rest = some (s.value, skipGap tail) := by
      rw [hrest.eq_cons rfl]
      exact number?_digits hsize htail.digit
    refine ⟨skipGap tail, .inr rfl, ?_⟩
    simp only [ItemText.text, ItemText.stepText, List.append_assoc, List.cons_append, item?, hr,
      hstep, ItemText.item]

/-! ## Fields -/

open ExpressionText FieldText

theorem skipGap_spaced (w : FieldText) (ws : List FieldText) :
    skipGap (spaced (w :: ws)) = w.text ++ spaced ws := by
  obtain ⟨c, cs, hw, hc⟩ := w.exists_cons
  show skipGap (' ' :: (w.text ++ spaced ws)) = w.text ++ spaced ws
  rw [hw]
  exact skipGap_cons hc.isGap _

theorem leads_of_skipGap_spaced {ws : List FieldText} {c : Char}
    (h : c ∈ (skipGap (spaced ws)).head?) : Leads c := by
  cases ws with
  | nil => cases h
  | cons w ws =>
    obtain ⟨d, cs, hw, hd⟩ := w.exists_cons
    rw [skipGap_spaced, hw] at h
    cases h
    exact hd

theorem Leads.ne_mark {c : Char} (h : Leads c) : c ≠ '-' ∧ c ≠ '/' ∧ c ≠ ',' := by
  rcases h with rfl | h
  · decide
  · refine ⟨?_, ?_, ?_⟩ <;>
    · rintro rfl
      exact absurd h (by decide)

theorem closes_spaced (ws : List FieldText) : Closes (spaced ws) where
  digit := by
    cases ws with
    | nil => exact nofun
    | cons w ws =>
      rintro c ⟨⟩
      rfl
  mark := fun c hc =>
    have hmark := (leads_of_skipGap_spaced hc).ne_mark
    ⟨hmark.1, hmark.2.1⟩

theorem closes_commas (more : List ItemText) (ws : List FieldText) :
    Closes (commas more ++ spaced ws) := by
  cases more with
  | nil => exact closes_spaced ws
  | cons i more =>
    refine ⟨?_, ?_⟩
    · rintro c ⟨⟩
      rfl
    · rintro c ⟨⟩
      decide

theorem moreItems_spaced (f : Field) {ws : List FieldText} {rest : List Char}
    (h : IsRest (spaced ws) rest) : moreItems f rest = ([], rest) := by
  unfold moreItems
  split
  · next tail =>
    have hcomma : skipGap (spaced ws) = ',' :: tail := by
      rw [← h.skipGap_eq]
      exact skipGap_cons rfl tail
    have hhead : ',' ∈ (skipGap (spaced ws)).head? := by
      rw [hcomma]
      rfl
    exact absurd rfl (leads_of_skipGap_spaced hhead).ne_mark.2.2
  · rfl

theorem moreItems_cons {f : Field} {i : Item} {cs rest : List Char}
    (h : item? f cs = some (i, rest)) :
    moreItems f (',' :: cs) = (i :: (moreItems f rest).1, (moreItems f rest).2) := by
  rw [moreItems]
  split
  · next j rest' hj =>
    rw [h] at hj
    cases hj
    rfl
  · next hnone =>
    rw [h] at hnone
    cases hnone

theorem moreItems_text {f : Field} {ws : List FieldText} {more : List ItemText}
    (h : ∀ i ∈ more, i.IsWithin f) {cs : List Char} (hcs : IsRest (commas more ++ spaced ws) cs) :
    ∃ rest, IsRest (spaced ws) rest ∧ moreItems f cs = (more.map ItemText.item, rest) := by
  induction more generalizing cs with
  | nil => exact ⟨cs, hcs, moreItems_spaced f hcs⟩
  | cons i more ih =>
    have hcomma : cs = ',' :: (i.text ++ (commas more ++ spaced ws)) := by
      rw [← List.append_assoc]
      exact hcs.eq_cons rfl
    obtain ⟨rest, hrest, hi⟩ := item?_text (h i List.mem_cons_self) (closes_commas more ws)
    obtain ⟨rest', hrest', hmore⟩ := ih (fun j hj => h j (List.mem_cons_of_mem i hj)) hrest
    refine ⟨rest', hrest', ?_⟩
    rw [hcomma, moreItems_cons hi, hmore]
    rfl

theorem items?_text {f : Field} {w : FieldText} (h : ∀ i ∈ w.items, i.IsWithin f)
    (ws : List FieldText) :
    items? f (w.text ++ spaced ws) = some (w.items.map ItemText.item, skipGap (spaced ws)) := by
  have hskip : skipGap (w.text ++ spaced ws) = w.head.text ++ (commas w.more ++ spaced ws) := by
    obtain ⟨c, cs, hw, hc⟩ := w.exists_cons
    rw [← List.append_assoc]
    show skipGap (w.text ++ spaced ws) = w.text ++ spaced ws
    rw [hw]
    exact skipGap_cons hc.isGap _
  obtain ⟨rest, hrest, hhead⟩ :=
    item?_text (h w.head List.mem_cons_self) (closes_commas w.more ws)
  obtain ⟨rest', hrest', hmore⟩ :=
    moreItems_text (fun i hi => h i (List.mem_cons_of_mem w.head hi)) hrest
  unfold items?
  rw [hskip, hhead]
  dsimp only
  rw [hmore, hrest'.skipGap_eq]
  rfl

/-! ## What is read has the meaning that was written -/

theorem Field.mem_span {a b v : Nat} : v ∈ Field.span a b ↔ a ≤ v ∧ v ≤ b := by
  unfold Field.span
  rw [List.mem_range'_1]
  omega

theorem Field.check_of_mem {f : Field} {n : Nat} (h : n ∈ f.values) : f.check n = .ok n := by
  obtain ⟨hlow, hhigh⟩ := Field.mem_values.mp h
  unfold Field.check
  rw [if_neg (by omega), if_neg (by omega)]

theorem mem_everyNth_span {step a b v : Nat} :
    v ∈ everyNth step (Field.span a b) ↔ a ≤ v ∧ v ≤ b ∧ step ∣ v - a := by
  have hat (k : Nat) : (v, k) ∈ (Field.span a b).zipIdx ↔ a + k = v ∧ v ≤ b := by
    rw [List.mem_zipIdx_iff_getElem?, Field.span, List.getElem?_eq_some_iff]
    simp only [List.length_range', List.getElem_range', Nat.one_mul]
    constructor
    · rintro ⟨hlt, rfl⟩
      omega
    · rintro ⟨rfl, hle⟩
      exact ⟨by omega, rfl⟩
  unfold everyNth
  rw [List.mem_filterMap]
  constructor
  · rintro ⟨⟨u, k⟩, hu, hk⟩
    dsimp only at hk
    split at hk
    · next hdvd =>
      cases hk
      obtain ⟨rfl, hb⟩ := (hat k).mp hu
      rw [Nat.add_sub_cancel_left]
      exact ⟨Nat.le_add_right a k, hb, Nat.dvd_of_mod_eq_zero hdvd⟩
    · cases hk
  · rintro ⟨ha, hb, hdvd⟩
    refine ⟨(v, v - a), (hat (v - a)).mpr ⟨Nat.add_sub_cancel' ha, hb⟩, ?_⟩
    exact if_pos (Nat.mod_eq_zero_of_dvd hdvd)

namespace ItemText

theorem values_of_run {f : Field} {r : RangeText} (h : r.IsWithin f) :
    r.range.values f = .ok (Field.span (first f ⟨r, none⟩) (last f ⟨r, none⟩)) := by
  cases r with
  | all => rfl
  | point n =>
    have hspan : Field.span n.value n.value = [n.value] := by
      unfold Field.span
      rw [Nat.add_sub_cancel_left]
      rfl
    simp only [RangeText.range, Range.values, Field.check_of_mem h, first, last, hspan]
    rfl
  | span a b =>
    obtain ⟨ha, hb, hab⟩ := h
    simp only [RangeText.range, Range.values, Field.check_of_mem ha, Field.check_of_mem hb]
    exact if_pos (by simp [hab, Except.isOk, Except.toBool])

theorem base_of_stepped {f : Field} {r : RangeText} (h : r.IsWithin f) (s : Numeral) :
    r.range.base f = .ok (Field.span (first f ⟨r, some s⟩) (last f ⟨r, some s⟩)) := by
  cases r with
  | all => rfl
  | point n =>
    simp only [RangeText.range, Range.base, Field.check_of_mem h]
    rfl
  | span a b => exact values_of_run h

theorem exists_values {f : Field} {i : ItemText} (h : i.IsWithin f) :
    ∃ values, i.item.values f = .ok values ∧ ∀ v, v ∈ values ↔ i.Denotes f v := by
  obtain ⟨r, step⟩ := i
  cases step with
  | none =>
    refine ⟨_, values_of_run h.1, fun v => ?_⟩
    rw [Field.mem_span]
    unfold Denotes
    simp only [stride, Option.map_none, Option.getD_none, Nat.one_dvd, and_true]
  | some s =>
    obtain ⟨hpos, hle⟩ := h.2 s rfl
    refine ⟨everyNth s.value (Field.span _ _), ?_, fun v => mem_everyNth_span⟩
    · show Item.values f (.stepped r.range s.value) = _
      dsimp only [Item.values]
      rw [if_neg (by omega), if_neg (by omega), base_of_stepped h.1 s]
      rfl

end ItemText

theorem exists_mapM_values {f : Field} {items : List ItemText} (h : ∀ i ∈ items, i.IsWithin f) :
    ∃ sets, (items.map ItemText.item).mapM (fun i => i.values f) = .ok sets ∧
      ∀ v, sets.any (·.contains v) = true ↔ ∃ i ∈ items, i.Denotes f v := by
  induction items with
  | nil => exact ⟨[], rfl, by simp⟩
  | cons i items ih =>
    obtain ⟨values, hvalues, hmem⟩ := ItemText.exists_values (h i List.mem_cons_self)
    obtain ⟨sets, hsets, hany⟩ := ih fun j hj => h j (List.mem_cons_of_mem i hj)
    refine ⟨values :: sets, ?_, fun v => ?_⟩
    · rw [List.map_cons, List.mapM_cons, hvalues, hsets]
      rfl
    · rw [List.any_cons, Bool.or_eq_true, hany, List.contains_iff_mem, hmem,
        List.exists_mem_cons_iff]

theorem evaluate_items {f : Field} {items : List ItemText} (h : ∀ i ∈ items, i.IsWithin f) :
    f.evaluate (items.map ItemText.item) =
      .ok (f.values.filter fun v => decide (∃ i ∈ items, i.Denotes f v)) := by
  obtain ⟨sets, hsets, hany⟩ := exists_mapM_values h
  unfold Field.evaluate
  rw [hsets]
  refine congrArg Except.ok (List.filter_congr fun v _ => ?_)
  rw [Bool.eq_iff_iff, hany v, decide_eq_true_eq]

/-! ## Expressions -/

namespace ExpressionText

theorem setOf_of_written {e : ExpressionText} {f : Field} {w : FieldText}
    (h : e.items f = w.items) :
    e.setOf f = f.values.filter fun v => decide (∃ i ∈ w.items, i.Denotes f v) := by
  refine List.filter_congr fun v _ => decide_eq_decide.mpr ?_
  unfold Denotes
  rw [h]
  exact or_iff_right fun hnil => List.cons_ne_nil w.head w.more hnil.1

theorem setOf_of_unwritten {e : ExpressionText} {f : Field} (h : e.items f = []) :
    e.setOf f = f.values :=
  List.filter_eq_self.mpr fun _ hv => decide_eq_true (.inl ⟨h, hv⟩)

end ExpressionText

theorem field_text {e : ExpressionText} (he : e.IsWithin) {f : Field} {w : FieldText}
    (hw : e.items f = w.items) (ws : List FieldText) :
    field f (w.text ++ spaced ws) = .ok (e.setOf f, skipGap (spaced ws)) := by
  have hwithin : ∀ i ∈ w.items, i.IsWithin f := by
    rw [← hw]
    exact he f
  unfold field
  rw [items?_text hwithin ws]
  dsimp only
  rw [evaluate_items hwithin, setOf_of_written hw]

theorem field_text_spaced {e : ExpressionText} (he : e.IsWithin) {f : Field} {w : FieldText}
    (hw : e.items f = w.items) (next : FieldText) (ws : List FieldText) :
    field f (w.text ++ spaced (next :: ws)) = .ok (e.setOf f, next.text ++ spaced ws) := by
  rw [field_text he hw, skipGap_spaced]

theorem yearsAndEnd_text {e : ExpressionText} (he : e.IsWithin) :
    yearsAndEnd (skipGap (spaced e.years.toList)) = .ok (e.setOf .years) := by
  cases hy : e.years with
  | none =>
    rw [setOf_of_unwritten (by simp [ExpressionText.items, hy])]
    rfl
  | some w =>
    have hw : e.items .years = w.items := by simp [ExpressionText.items, hy]
    unfold yearsAndEnd
    rw [Option.toList_some, skipGap_spaced, field_text he hw]
    rfl

/-! ## Numbers that a field cannot hold

A field that begins with such a number is refused, whether the number is too great for the field or
for any number that is read. -/

theorem lexeme?_of_head {p : Char → Bool} {c : Char} (hgap : isGap c = false) (hp : p c = false)
    (cs : List Char) : lexeme? p (c :: cs) = none := by
  unfold lexeme?
  dsimp only
  rw [skipGap_cons hgap, List.takeWhile_cons_of_neg (by simp [hp])]

theorem isLetter_of_isAsciiDigit {c : Char} (h : Text.isAsciiDigit c = true) :
    isLetter c = false := by
  have hbounds : 48 ≤ c.toNat ∧ c.toNat ≤ 57 := Text.toNat_of_isDigit h
  refine Bool.eq_false_iff.mpr fun hletter => ?_
  unfold isLetter at hletter
  rw [Bool.or_eq_true, Bool.and_eq_true, Bool.and_eq_true] at hletter
  simp only [decide_eq_true_eq] at hletter
  have hsmall : 97 ≤ c.toNat ∨ 65 ≤ c.toNat := hletter.imp And.left And.left
  omega

/-- A number of more than 32 bits is no item. -/
theorem item?_of_large (f : Field) {n : Numeral} (hsize : ¬n.value ≤ Text.maxWord32)
    {tail : List Char} (hdigit : ∀ c ∈ tail.head?, Text.isAsciiDigit c = false) :
    item? f (n.digits ++ tail) = none := by
  have hnumber : number? (n.digits ++ tail) = none := by
    unfold number?
    rw [lexeme?_digits n hdigit]
    exact if_neg hsize
  have hname : name? (n.digits ++ tail) = none := by
    obtain ⟨c, cs, hn, hc⟩ := n.exists_cons
    unfold name?
    rw [hn, List.cons_append,
      lexeme?_of_head (isGap_of_isAsciiDigit hc) (isLetter_of_isAsciiDigit hc)]
    rfl
  unfold item? range?
  simp only [star?_digits, pair?, hnumber, hname, Option.map_none]

theorem exists_items?_of_small (f : Field) {n : Numeral} (hsize : n.value ≤ Text.maxWord32)
    {tail : List Char} (htail : Closes tail) :
    ∃ more rest, items? f (n.digits ++ tail) = some (.run (.point n.value) :: more, rest) := by
  have hitem : item? f (n.digits ++ tail) = some (.run (.point n.value), skipGap tail) := by
    unfold item?
    rw [range?_point hsize htail.digit fun c hc => (htail.mark c hc).1]
    dsimp only
    rw [step?_of_isRest htail (.inr rfl)]
  refine ⟨(moreItems f (skipGap tail)).1, skipGap (moreItems f (skipGap tail)).2, ?_⟩
  unfold items?
  rw [skipGap_digits, hitem]

/-- A field that is read holds the number that it begins with. -/
theorem mem_values_of_field {f : Field} {n : Numeral} {tail : List Char} (htail : Closes tail)
    {p : List Nat × List Char} (h : field f (n.digits ++ tail) = .ok p) : n.value ∈ f.values := by
  by_cases hsize : n.value ≤ Text.maxWord32
  · obtain ⟨more, rest, hitems⟩ := exists_items?_of_small f hsize htail
    have hchecked : ∃ k, f.check n.value = .ok k := by
      unfold field Field.evaluate at h
      rw [hitems] at h
      dsimp only at h
      rw [List.mapM_cons] at h
      cases hcheck : f.check n.value with
      | ok k => exact ⟨k, rfl⟩
      | error fault => simp [Item.values, Range.values, hcheck, bind, Except.bind] at h
    obtain ⟨k, hk⟩ := hchecked
    refine Field.mem_values.mpr ?_
    unfold Field.check at hk
    split at hk
    · cases hk
    · split at hk
      · cases hk
      · omega
  · have hnone := item?_of_large f hsize htail.digit
    unfold field items? at h
    rw [skipGap_digits, hnone] at h
    cases h

/-! ## Whole expressions -/

theorem readSets_text {e : ExpressionText} (he : e.IsWithin) : readSets e.text = .ok e.sets := by
  unfold readSets
  refine Except.bind_eq_ok.mpr ⟨_, field_text_spaced he (f := .seconds) rfl _ _, ?_⟩
  refine Except.bind_eq_ok.mpr ⟨_, field_text_spaced he (f := .minutes) rfl _ _, ?_⟩
  refine Except.bind_eq_ok.mpr ⟨_, field_text_spaced he (f := .hours) rfl _ _, ?_⟩
  refine Except.bind_eq_ok.mpr ⟨_, field_text_spaced he (f := .daysOfMonth) rfl _ _, ?_⟩
  refine Except.bind_eq_ok.mpr ⟨_, field_text_spaced he (f := .months) rfl _ _, ?_⟩
  refine Except.bind_eq_ok.mpr ⟨_, field_text he (f := .daysOfWeek) rfl _, ?_⟩
  exact Except.bind_eq_ok.mpr ⟨_, yearsAndEnd_text he, rfl⟩

end Cron
end RecurringJobs
