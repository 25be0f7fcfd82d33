import RecurringJobs.Cron.Field

/-!
Reading a cron expression: six fields, seconds first, and an optional seventh for the years.

Each reader takes the text before it and gives what it read together with the rest, or nothing.
Alternatives are tried in order and a choice once made within a run is kept, so `1-` is the
number one followed by a dash.  Fields need nothing between them: `Mon2024` is a day and a year.
-/

namespace RecurringJobs
namespace Cron

/-- The blanks that may stand around numbers, names and fields. -/
def isGap (c : Char) : Bool := c = ' ' || c = '\t' || c = '\r' || c = '\n'

def skipGap (cs : List Char) : List Char := cs.dropWhile isGap

def isLetter (c : Char) : Bool := ('a' ≤ c && c ≤ 'z') || ('A' ≤ c && c ≤ 'Z')

/-- A maximal run of characters of a class with blanks around it. -/
def lexeme? (p : Char → Bool) (cs : List Char) : Option (List Char × List Char) :=
  let cs := skipGap cs
  match cs.takeWhile p with
  | [] => none
  | word => some (word, skipGap (cs.dropWhile p))

/-- A number of at most 32 bits. -/
def number? (cs : List Char) : Option (Nat × List Char) :=
  match lexeme? Text.isAsciiDigit cs with
  | some (digits, rest) =>
    if Text.ofDigits digits ≤ Text.maxWord32 then some (Text.ofDigits digits, rest) else none
  | none => none

def name? (cs : List Char) : Option (String × List Char) :=
  (lexeme? isLetter cs).map fun p => (String.ofList p.1, p.2)

/-- Two things of a kind with a dash between them. -/
def pair? {α : Type} (one? : List Char → Option (α × List Char)) (cs : List Char) :
    Option ((α × α) × List Char) :=
  match one? cs with
  | some (a, '-' :: rest) => (one? rest).map fun p => ((a, p.1), p.2)
  | _ => none

/-- The sign for everything.  Where days are concerned a question mark will do as well. -/
def star? (f : Field) : List Char → Option (List Char)
  | '*' :: rest => some rest
  | '?' :: rest => if f = .daysOfMonth ∨ f = .daysOfWeek then some rest else none
  | _ => none

def range? (f : Field) (cs : List Char) : Option (Range × List Char) :=
  match star? f cs with
  | some rest => some (.all, rest)
  | none =>
    match pair? number? cs with
    | some (p, rest) => some (.span p.1 p.2, rest)
    | none =>
      match number? cs with
      | some (n, rest) => some (.point n, rest)
      | none => (pair? name? cs).map fun p => (.named p.1.1 p.1.2, p.2)

/-- The step after a run, if there is one. -/
def step? : List Char → Option (Nat × List Char)
  | '/' :: rest => number? rest
  | _ => none

def item? (f : Field) (cs : List Char) : Option (Item × List Char) :=
  match range? f cs with
  | some (r, rest) =>
    match step? rest with
    | some (step, rest) => some (.stepped r step, rest)
    | none => some (.run r, rest)
  | none => (name? cs).map fun p => (.name p.1, p.2)

/-! ## Every item takes something

The items of a field are read until none follows, which ends because each of them makes the rest
shorter. -/

theorem length_dropWhile_le (p : Char → Bool) (cs : List Char) :
    (cs.dropWhile p).length ≤ cs.length :=
  (List.dropWhile_suffix p).length_le

theorem lexeme?_length {p : Char → Bool} {cs word rest : List Char}
    (h : lexeme? p cs = some (word, rest)) : rest.length < cs.length := by
  unfold lexeme? at h
  have hgap : (skipGap cs).length ≤ cs.length := length_dropWhile_le _ _
  cases hs : skipGap cs with
  | nil => simp [hs] at h
  | cons c tail =>
    rw [hs] at h hgap
    by_cases hc : p c
    · simp [hc] at h
      have h1 : (skipGap (tail.dropWhile p)).length ≤ (tail.dropWhile p).length :=
        length_dropWhile_le _ _
      have h2 : (tail.dropWhile p).length ≤ tail.length := length_dropWhile_le _ _
      simp only [List.length_cons] at hgap
      rw [← h.2]
      omega
    · simp [hc] at h

theorem number?_length {cs rest : List Char} {n : Nat} (h : number? cs = some (n, rest)) :
    rest.length < cs.length := by
  unfold number? at h
  split at h
  · next digits r hl =>
    split at h
    · simp only [Option.some.injEq, Prod.mk.injEq] at h
      rw [← h.2]
      exact lexeme?_length hl
    · simp at h
  · simp at h

theorem name?_length {cs rest : List Char} {s : String} (h : name? cs = some (s, rest)) :
    rest.length < cs.length := by
  unfold name? at h
  obtain ⟨p, hp, he⟩ := Option.map_eq_some_iff.1 h
  simp only [Prod.mk.injEq] at he
  rw [← he.2]
  exact lexeme?_length hp

theorem pair?_length {α : Type} {one? : List Char → Option (α × List Char)}
    (hone : ∀ {cs a rest}, one? cs = some (a, rest) → rest.length < cs.length)
    {cs rest : List Char} {p : α × α} (h : pair? one? cs = some (p, rest)) :
    rest.length < cs.length := by
  unfold pair? at h
  split at h
  · next a r ha =>
    obtain ⟨q, hq, he⟩ := Option.map_eq_some_iff.1 h
    have h1 := hone ha
    have h2 := hone hq
    simp only [Prod.mk.injEq] at he
    simp only [List.length_cons] at h1
    rw [← he.2]
    omega
  · simp at h

theorem star?_length {f : Field} {cs rest : List Char} (h : star? f cs = some rest) :
    rest.length < cs.length := by
  unfold star? at h
  split at h
  · simp only [Option.some.injEq] at h
    simp [h]
  · split at h
    · simp only [Option.some.injEq] at h
      simp [h]
    · simp at h
  · simp at h

theorem range?_length {f : Field} {cs rest : List Char} {r : Range}
    (h : range? f cs = some (r, rest)) : rest.length < cs.length := by
  unfold range? at h
  split at h
  · next hs =>
    simp only [Option.some.injEq, Prod.mk.injEq] at h
    rw [← h.2]
    exact star?_length hs
  · split at h
    · next hp =>
      simp only [Option.some.injEq, Prod.mk.injEq] at h
      rw [← h.2]
      exact pair?_length number?_length hp
    · split at h
      · next hn =>
        simp only [Option.some.injEq, Prod.mk.injEq] at h
        rw [← h.2]
        exact number?_length hn
      · obtain ⟨p, hp, he⟩ := Option.map_eq_some_iff.1 h
        simp only [Prod.mk.injEq] at he
        rw [← he.2]
        exact pair?_length name?_length hp

theorem step?_length {cs rest : List Char} {n : Nat} (h : step? cs = some (n, rest)) :
    rest.length < cs.length := by
  unfold step? at h
  split at h
  · have := number?_length h
    simp only [List.length_cons]
    omega
  · simp at h

theorem item?_length {f : Field} {cs rest : List Char} {i : Item}
    (h : item? f cs = some (i, rest)) : rest.length < cs.length := by
  unfold item? at h
  split at h
  · next r mid hr =>
    have h1 := range?_length hr
    split at h
    · next hs =>
      have h2 := step?_length hs
      simp only [Option.some.injEq, Prod.mk.injEq] at h
      rw [← h.2]
      omega
    · simp only [Option.some.injEq, Prod.mk.injEq] at h
      rw [← h.2]
      exact h1
  · obtain ⟨p, hp, he⟩ := Option.map_eq_some_iff.1 h
    simp only [Prod.mk.injEq] at he
    rw [← he.2]
    exact name?_length hp

/-- The items after the first, each with a comma before it.  A comma with no item behind it is
left where it is. -/
def moreItems (f : Field) (cs : List Char) : List Item × List Char :=
  match cs with
  | ',' :: tail =>
    match _h : item? f tail with
    | some (i, rest) =>
      let more := moreItems f rest
      (i :: more.1, more.2)
    | none => ([], cs)
  | _ => ([], cs)
termination_by cs.length
decreasing_by
  have := item?_length ‹item? f tail = some (i, rest)›
  simp only [List.length_cons]
  omega

/-- The items of one field and the rest of the text, or nothing where no item is written. -/
def items? (f : Field) (cs : List Char) : Option (List Item × List Char) :=
  match item? f (skipGap cs) with
  | some (i, rest) =>
    let more := moreItems f rest
    some (i :: more.1, skipGap more.2)
  | none => none

/-- Where an expression goes wrong: what was left to read there, and why, if it was read and then
refused. -/
structure Misreading where
  rest : List Char
  cause : Option FieldFault
deriving Repr, DecidableEq

/-- Reads and evaluates one field. -/
def field (f : Field) (cs : List Char) : Except Misreading (List Nat × List Char) :=
  match items? f cs with
  | none => .error ⟨cs, none⟩
  | some (items, rest) =>
    match f.evaluate items with
    | .ok values => .ok (values, rest)
    | .error fault => .error ⟨cs, some fault⟩

/-- The year field, which counts as absent when it cannot be read, and then the end of the
text. -/
def yearsAndEnd (cs : List Char) : Except Misreading (List Nat) :=
  match field .years cs with
  | .ok (values, rest) => if rest = [] then .ok values else .error ⟨rest, none⟩
  | .error _ => if cs = [] then .ok Field.years.values else .error ⟨cs, none⟩

/-- The sets of an expression, each ascending. -/
structure Sets where
  seconds : List Nat
  minutes : List Nat
  hours : List Nat
  daysOfMonth : List Nat
  months : List Nat
  daysOfWeek : List Nat
  years : List Nat
deriving Repr, DecidableEq

def readSets (cs : List Char) : Except Misreading Sets := do
  let (seconds, cs) ← field .seconds cs
  let (minutes, cs) ← field .minutes cs
  let (hours, cs) ← field .hours cs
  let (daysOfMonth, cs) ← field .daysOfMonth cs
  let (months, cs) ← field .months cs
  let (daysOfWeek, cs) ← field .daysOfWeek cs
  let years ← yearsAndEnd cs
  return { seconds, minutes, hours, daysOfMonth, months, daysOfWeek, years }

/-! ## The report of a misreading -/

/-- The text with a caret under the place where reading stopped.  A text of one line is shown as
it is; of several, the line in question is shown with its number. -/
def Misreading.report (m : Misreading) (text : List Char) : String :=
  let offset := text.length - m.rest.length
  let blanks (n : Nat) : String := String.ofList (List.replicate n ' ')
  let cause := (m.cause.map FieldFault.message).getD ""
  if text.contains '\n' then
    let before := text.take offset
    let lineNo := before.count '\n' + 1
    let column := (before.reverse.takeWhile (· ≠ '\n')).length
    let line := (before.reverse.takeWhile (· ≠ '\n')).reverse
      ++ (text.drop offset).takeWhile (· ≠ '\n')
    let number := toString lineNo
    let gutter := blanks number.length
    s!"parse error at line {lineNo}, column {column + 1}\n{gutter} |\n{number} | "
      ++ String.ofList line ++ s!"\n{gutter} | {blanks column}^\n{cause}"
  else
    String.ofList text ++ s!"\n{blanks offset}^\n{cause}"

end Cron
end RecurringJobs
