import Mathlib.Data.List.Infix
import Mathlib.Data.List.TakeWhile
import RecurringJobs.Config.Variables

/-!
The references of a text, and what stands in their places.

A text is cut into references and the characters between them, and `substitute` puts all values into
their places at once.  `expand` goes through the references one by one and replaces each in the
text as it is by then.  Both come to the same where no value, together with what stands beside it,
can be taken for a reference (`IsClear`), and then the order of the references does not matter.
-/

namespace RecurringJobs
namespace Variables

/-! ## Pieces -/

inductive Piece where
  | plain (c : Char)
  | reference (name : List Char)
deriving Repr, DecidableEq

/-- The references of a text, from left to right, and the characters outside of them. -/
def pieces (cs : List Char) : List Piece :=
  match cs with
  | [] => []
  | c :: tail =>
    match _h : reference? (c :: tail) with
    | some (name, rest) => .reference name :: pieces rest
    | none => .plain c :: pieces tail
termination_by cs.length
decreasing_by
  · exact reference?_length ‹reference? (c :: tail) = some (name, rest)›
  · simp

/-- The text of a variable, nothing if it has none. -/
def value (env : Environment) (name : List Char) : List Char :=
  ((env.text? (String.ofList name)).getD "").toList

/-- A piece with the references to the names in `done` replaced. -/
def Piece.text (env : Environment) (done : List (List Char)) : Piece → List Char
  | plain c => [c]
  | reference name => if name ∈ done then value env name else written name

def Piece.filled (env : Environment) : Piece → List Char
  | plain c => [c]
  | reference name => value env name

/-- The text with each reference replaced by the value of its variable, all at once. -/
def substitute (env : Environment) (cs : List Char) : List Char :=
  (pieces cs).flatMap (Piece.filled env)

/-- The text with the references to the names in `done` replaced. -/
def fill (env : Environment) (done : List (List Char)) (cs : List Char) : List Char :=
  (pieces cs).flatMap (Piece.text env done)

/-- A reference is a dollar sign and a name in braces; the name is not empty and ends with the first
closing brace. -/
theorem reference?_eq_some_iff {cs name rest : List Char} :
    reference? cs = some (name, rest) ↔ name ≠ [] ∧ '}' ∉ name ∧ cs = written name ++ rest := by
  constructor
  · intro h
    unfold reference? at h
    split at h
    · next body =>
      split at h
      · next c first d after htake hdrop =>
        cases h
        have hbody := List.takeWhile_append_dropWhile (p := (· ≠ '}')) (l := body)
        have hfree : '}' ∉ body.takeWhile (· ≠ '}') := by
          intro hmem
          simpa using List.mem_takeWhile_imp hmem
        have hd : d = '}' := by
          have hhead := List.head?_dropWhile_not (· ≠ '}') body
          rw [hdrop] at hhead
          simpa using hhead
        subst hd
        rw [htake] at hfree hbody
        rw [hdrop] at hbody
        refine ⟨by simp, hfree, ?_⟩
        rw [← hbody]
        simp [written]
      · cases h
    · cases h
  · rintro ⟨hne, hfree, rfl⟩
    obtain ⟨c, first, rfl⟩ := List.exists_cons_of_ne_nil hne
    have hall : ∀ x ∈ c :: first, (decide (x ≠ '}')) = true := by
      intro x hx
      rw [decide_eq_true_iff]
      rintro rfl
      exact hfree hx
    have htake : ((c :: first) ++ '}' :: rest).takeWhile (· ≠ '}') = c :: first := by
      rw [List.takeWhile_append_of_pos hall]
      simp
    have hdrop : ((c :: first) ++ '}' :: rest).dropWhile (· ≠ '}') = '}' :: rest := by
      rw [List.dropWhile_append_of_pos hall]
      simp
    have hcs : written (c :: first) ++ rest = '$' :: '{' :: ((c :: first) ++ '}' :: rest) := by
      simp [written]
    rw [hcs, reference?, htake, hdrop]

/-- Braces that are closed and yet make no reference have nothing between them. -/
theorem eq_nil_of_none {between after : List Char} (hfree : '}' ∉ between)
    (h : reference? ('$' :: '{' :: (between ++ '}' :: after)) = none) : between = [] := by
  by_contra hsome
  have href : reference? ('$' :: '{' :: (between ++ '}' :: after)) = some (between, after) :=
    reference?_eq_some_iff.mpr ⟨hsome, hfree, by simp [written]⟩
  cases h.symm.trans href

theorem pieces_of_reference {cs name rest : List Char} (h : reference? cs = some (name, rest)) :
    pieces cs = .reference name :: pieces rest := by
  cases cs with
  | nil => cases h
  | cons c tail =>
    rw [pieces]
    split
    · next name' rest' h' =>
      cases h.symm.trans h'
      rfl
    · next h' => cases h.symm.trans h'

theorem pieces_of_none {c : Char} {tail : List Char} (h : reference? (c :: tail) = none) :
    pieces (c :: tail) = .plain c :: pieces tail := by
  rw [pieces]
  split
  · next name' rest' h' => cases h.symm.trans h'
  · rfl

/-- The cases of a text: it is empty, it begins with a reference, or it begins with a character
outside of all references. -/
theorem pieces_induction {motive : List Char → Prop} (nil : motive [])
    (reference : ∀ {name rest : List Char}, reference? (written name ++ rest) = some (name, rest) →
      motive rest → motive (written name ++ rest))
    (plain : ∀ {c : Char} {tail : List Char}, reference? (c :: tail) = none → motive tail →
      motive (c :: tail))
    (cs : List Char) : motive cs := by
  induction cs using pieces.induct with
  | case1 => exact nil
  | case2 c tail name rest h ih =>
    have hcs := (reference?_eq_some_iff.mp h).2.2
    rw [hcs] at h ⊢
    exact reference h ih
  | case3 c tail h ih => exact plain h ih

theorem mem_references_iff {cs name : List Char} :
    name ∈ references cs ↔ .reference name ∈ pieces cs := by
  induction cs using references.induct with
  | case1 => simp [references, pieces]
  | case2 c tail name' rest h ih =>
    rw [pieces_of_reference h, references]
    split
    · next name'' rest'' h' =>
      cases h.symm.trans h'
      simp [ih]
    · next h' => cases h.symm.trans h'
  | case3 c tail h ih =>
    rw [pieces_of_none h, references]
    split
    · next name'' rest'' h' => cases h.symm.trans h'
    · simp [ih]

/-! ## Replacing -/

theorem replaceAll_nil (part new : List Char) : replaceAll part new [] = [] := by
  rw [replaceAll]

theorem replaceAll_lead {part : List Char} (hpart : part ≠ []) (new cs : List Char) :
    replaceAll part new (part ++ cs) = new ++ replaceAll part new cs := by
  have hlead : Text.dropLead part (part ++ cs) = some cs := Text.dropLead_eq_some_iff.mpr rfl
  obtain ⟨c, tail, hcons⟩ := List.exists_cons_of_ne_nil (List.append_ne_nil_of_left_ne_nil hpart cs)
  rw [hcons] at hlead ⊢
  rw [replaceAll]
  split
  · next rest h =>
    cases hlead.symm.trans h
    rw [if_neg hpart]
  · next h => cases hlead.symm.trans h

theorem replaceAll_cons {part : List Char} {c : Char} {tail : List Char}
    (h : Text.dropLead part (c :: tail) = none) (new : List Char) :
    replaceAll part new (c :: tail) = c :: replaceAll part new tail := by
  rw [replaceAll]
  split
  · next rest h' => cases h.symm.trans h'
  · rfl

/-- A block in which the part does not begin anywhere is left as it is. -/
theorem replaceAll_append {part block rest : List Char}
    (h : ∀ b, b <:+ block → b ≠ [] → Text.dropLead part (b ++ rest) = none) (new : List Char) :
    replaceAll part new (block ++ rest) = block ++ replaceAll part new rest := by
  induction block with
  | nil => rfl
  | cons c block ih =>
    have hhere := h (c :: block) (List.suffix_refl _) (List.cons_ne_nil c block)
    rw [List.cons_append] at hhere ⊢
    rw [replaceAll_cons hhere, ih fun b hb => h b (hb.trans (List.suffix_cons c block))]
    rfl

/-- No reference begins in the block, whatever follows it. -/
structure IsClosed (block : List Char) : Prop where
  opening : ¬['$', '{'] <:+: block
  dollar : ¬['$'] <:+ block

theorem IsClosed.dropLead_eq_none {block : List Char} (h : IsClosed block) (name rest : List Char) :
    ∀ b, b <:+ block → b ≠ [] → Text.dropLead (written name) (b ++ rest) = none := by
  intro b hb hne
  rw [Option.eq_none_iff_forall_ne_some]
  intro after hlead
  have hstart := Text.dropLead_eq_some_iff.mp hlead
  unfold written at hstart
  match b, hne with
  | [c], _ =>
    obtain ⟨rfl, -⟩ := List.cons.inj hstart
    exact h.dollar hb
  | c :: d :: b, _ =>
    obtain ⟨rfl, hnext⟩ := List.cons.inj hstart
    obtain ⟨rfl, -⟩ := List.cons.inj hnext
    have hpair : ['$', '{'] <+: '$' :: '{' :: b := ⟨b, rfl⟩
    exact h.opening (hpair.isInfix.trans hb.isInfix)

/-- What follows the dollar sign of a reference. -/
theorem isClosed_body {name : List Char} (h : ¬['$', '{'] <:+: name) :
    IsClosed ('{' :: (name ++ ['}'])) where
  opening := by
    rw [List.infix_cons_iff, List.infix_concat_iff, List.suffix_concat_iff, List.cons_prefix_cons]
    rintro (⟨heq, -⟩ | (hnil | ⟨t, ht, -⟩) | hname)
    · exact absurd heq (by decide)
    · cases hnil
    · have hlast := congrArg List.getLast? ht
      rw [List.getLast?_concat] at hlast
      exact absurd hlast (by decide)
    · exact h hname
  dollar := by
    rw [List.suffix_cons_iff, List.suffix_concat_iff]
    rintro (heq | hnil | ⟨t, ht, -⟩)
    · cases heq
    · cases hnil
    · have hlast := congrArg List.getLast? ht
      rw [List.getLast?_concat] at hlast
      exact absurd hlast (by decide)

/-! ## Filling -/

/-- Nothing that is put into the text can be taken for a reference: no name and no value has an
opening in it, no value ends with a dollar sign, and a value that stands after a dollar sign does
not go on with an opening brace, nor is it empty. -/
structure IsClear (env : Environment) (cs : List Char) : Prop where
  names : ∀ name ∈ references cs, ¬['$', '{'] <:+: name
  values : ∀ name ∈ references cs, IsClosed (value env name)
  adjacent : ∀ name ∈ references cs, '$' :: written name <:+: cs →
    value env name ≠ [] ∧ ¬['{'] <+: value env name

theorem IsClear.of_suffix {env : Environment} {cs rest : List Char} (h : IsClear env cs)
    (hsuffix : rest <:+ cs) (hmem : ∀ name ∈ references rest, name ∈ references cs) :
    IsClear env rest where
  names name hname := h.names name (hmem name hname)
  values name hname := h.values name (hmem name hname)
  adjacent name hname hpart := h.adjacent name (hmem name hname) (hpart.trans hsuffix.isInfix)

section

variable {env : Environment} {done : List (List Char)}

theorem fill_of_reference {name rest : List Char}
    (h : reference? (written name ++ rest) = some (name, rest)) :
    fill env done (written name ++ rest) =
      (if name ∈ done then value env name else written name) ++ fill env done rest := by
  unfold fill
  rw [pieces_of_reference h, List.flatMap_cons]
  rfl

theorem fill_of_none {c : Char} {tail : List Char} (h : reference? (c :: tail) = none) :
    fill env done (c :: tail) = c :: fill env done tail := by
  unfold fill
  rw [pieces_of_none h, List.flatMap_cons]
  rfl

theorem fill_nil (env : Environment) (cs : List Char) : fill env [] cs = cs := by
  induction cs using pieces_induction with
  | nil => simp [fill, pieces]
  | reference h ih =>
    rw [fill_of_reference h, ih]
    simp
  | plain h ih => rw [fill_of_none h, ih]

theorem fill_of_notMem {cs : List Char} (h : '}' ∉ cs) : fill env done cs = cs := by
  induction cs using pieces_induction with
  | nil => simp [fill, pieces]
  | reference href ih =>
    refine absurd ?_ h
    simp [written]
  | plain hnone ih => rw [fill_of_none hnone, ih fun hmem => h (List.mem_cons_of_mem _ hmem)]

theorem fill_eq_substitute {cs : List Char} (h : ∀ name ∈ references cs, name ∈ done) :
    fill env done cs = substitute env cs := by
  unfold fill substitute
  refine List.flatMap_congr fun piece hpiece => ?_
  cases piece with
  | plain c => rfl
  | reference name =>
    have hdone : name ∈ done := h name (mem_references_iff.mpr hpiece)
    simp only [Piece.text, Piece.filled, hdone, if_true]

/-- A character outside of the references begins none when references after it are replaced. -/
theorem dropLead_plain {c : Char} {tail name : List Char} (hclear : IsClear env (c :: tail))
    (hnone : reference? (c :: tail) = none) (hne : name ≠ []) (hfree : '}' ∉ name) :
    Text.dropLead (written name) (c :: fill env done tail) = none := by
  rw [Option.eq_none_iff_forall_ne_some]
  intro rest hlead
  obtain ⟨hdollar, hbody⟩ := List.cons.inj (Text.dropLead_eq_some_iff.mp hlead)
  subst hdollar
  replace hbody : fill env done tail = '{' :: (name ++ '}' :: rest) := by
    rw [hbody]
    simp
  induction tail using pieces_induction with
  | nil => simp [fill, pieces] at hbody
  | @reference other after href _ =>
    -- the dollar sign is followed by another reference, or by the value in its place
    rw [fill_of_reference href] at hbody
    by_cases hdone : other ∈ done
    · have hmem : other ∈ references ('$' :: (written other ++ after)) := by
        rw [mem_references_iff, pieces_of_none hnone, pieces_of_reference href]
        simp
      obtain ⟨hsome, hbrace⟩ := hclear.adjacent other hmem ⟨[], after, by simp⟩
      obtain ⟨e, value', hvalue⟩ := List.exists_cons_of_ne_nil hsome
      rw [if_pos hdone, hvalue] at hbody
      obtain ⟨rfl, -⟩ := List.cons.inj hbody
      refine hbrace ?_
      rw [hvalue]
      exact List.prefix_append ['{'] value'
    · rw [if_neg hdone] at hbody
      exact absurd (List.cons.inj hbody).1 (by decide)
  | @plain d tail hplain _ =>
    rw [fill_of_none hplain] at hbody
    obtain ⟨rfl, hrest⟩ := List.cons.inj hbody
    by_cases hclosing : '}' ∈ tail
    · -- the braces are closed, so there is nothing between them
      obtain ⟨between, after, rfl, hbetween⟩ := List.eq_append_cons_of_mem hclosing
      obtain rfl : between = [] := eq_nil_of_none hbetween hnone
      have hbrace : reference? ('}' :: after) = none := rfl
      rw [List.nil_append, fill_of_none hbrace] at hrest
      obtain ⟨first, others, rfl⟩ := List.exists_cons_of_ne_nil hne
      obtain ⟨rfl, -⟩ := List.cons.inj hrest
      exact hfree List.mem_cons_self
    · rw [fill_of_notMem hclosing] at hrest
      refine hclosing ?_
      rw [hrest]
      simp

/-- A reference to one name is none to another. -/
theorem dropLead_written_of_ne {name other rest : List Char}
    (hother : reference? (written other ++ rest) = some (other, rest)) (hne : name ≠ [])
    (hfree : '}' ∉ name) (h : other ≠ name) (cs : List Char) :
    Text.dropLead (written name) (written other ++ cs) = none := by
  rw [Option.eq_none_iff_forall_ne_some]
  intro after hlead
  obtain ⟨hsome, hclosed, -⟩ := reference?_eq_some_iff.mp hother
  have hread := Text.dropLead_eq_some_iff.mp hlead
  have hone : reference? (written name ++ after) = some (other, cs) :=
    reference?_eq_some_iff.mpr ⟨hsome, hclosed, hread.symm⟩
  have htwo : reference? (written name ++ after) = some (name, after) :=
    reference?_eq_some_iff.mpr ⟨hne, hfree, rfl⟩
  cases hone.symm.trans htwo
  exact h rfl

/-- Replacing one name in a text in which others have been replaced already. -/
theorem replaceAll_fill {cs name : List Char} (hclear : IsClear env cs) (hne : name ≠ [])
    (hfree : '}' ∉ name) :
    replaceAll (written name) (value env name) (fill env done cs) =
      fill env (name :: done) cs := by
  induction cs using pieces_induction with
  | nil =>
    simp only [fill, pieces, List.flatMap_nil]
    exact replaceAll_nil _ _
  | @reference other rest href ih =>
    have hmem : other ∈ references (written other ++ rest) := by
      rw [mem_references_iff, pieces_of_reference href]
      exact List.mem_cons_self
    have hrest := hclear.of_suffix (List.suffix_append (written other) rest) fun n hn => by
      rw [mem_references_iff] at hn ⊢
      rw [pieces_of_reference href]
      exact List.mem_cons_of_mem _ hn
    rw [fill_of_reference href, fill_of_reference href, ← ih hrest]
    by_cases hdone : other ∈ done
    · rw [if_pos hdone, if_pos (List.mem_cons_of_mem name hdone)]
      exact replaceAll_append ((hclear.values other hmem).dropLead_eq_none name _) _
    · rw [if_neg hdone]
      by_cases hsame : other = name
      · subst hsame
        rw [if_pos List.mem_cons_self]
        exact replaceAll_lead (by simp [written]) _ _
      · have hnew : other ∉ name :: done := by
          simp [hsame, hdone]
        rw [if_neg hnew]
        have hhead : Text.dropLead (written name)
            ('$' :: ('{' :: (other ++ ['}']) ++ fill env done rest)) = none :=
          dropLead_written_of_ne href hne hfree hsame _
        have hbody := isClosed_body (hclear.names other hmem)
        show replaceAll _ _ ('$' :: ('{' :: (other ++ ['}']) ++ fill env done rest)) = _
        rw [replaceAll_cons hhead, replaceAll_append (hbody.dropLead_eq_none name _)]
        rfl
  | @plain c tail hnone ih =>
    have htail := hclear.of_suffix (List.suffix_cons c tail) fun n hn => by
      rw [mem_references_iff] at hn ⊢
      rw [pieces_of_none hnone]
      exact List.mem_cons_of_mem _ hn
    rw [fill_of_none hnone, fill_of_none hnone,
      replaceAll_cons (dropLead_plain hclear hnone hne hfree), ih htail]

theorem name_of_mem_references {cs name : List Char} (h : name ∈ references cs) :
    name ≠ [] ∧ '}' ∉ name := by
  rw [mem_references_iff] at h
  induction cs using pieces_induction with
  | nil => simp [pieces] at h
  | reference href ih =>
    rw [pieces_of_reference href] at h
    rcases List.mem_cons.mp h with heq | hlater
    · cases heq
      have hread := reference?_eq_some_iff.mp href
      exact ⟨hread.1, hread.2.1⟩
    · exact ih hlater
  | plain hnone ih =>
    rw [pieces_of_none hnone] at h
    exact ih ((List.mem_cons.mp h).resolve_left nofun)

theorem replaceReferences_fill {cs : List Char} (hclear : IsClear env cs)
    {names : List (List Char)} (hnames : ∀ name ∈ names, name ∈ references cs)
    (hset : ∀ name ∈ names, (env.text? (String.ofList name)).isSome)
    (hall : ∀ name ∈ references cs, name ∈ names ∨ name ∈ done) :
    replaceReferences env names (fill env done cs) = .ok (substitute env cs) := by
  induction names generalizing done with
  | nil =>
    have hdone : ∀ name ∈ references cs, name ∈ done := fun name hname =>
      (hall name hname).resolve_left List.not_mem_nil
    rw [replaceReferences, fill_eq_substitute hdone]
  | cons name names ih =>
    obtain ⟨new, hnew⟩ := Option.isSome_iff_exists.mp (hset name List.mem_cons_self)
    have hvalue : new.toList = value env name := by simp [value, hnew]
    obtain ⟨hne, hfree⟩ := name_of_mem_references (hnames name List.mem_cons_self)
    rw [replaceReferences, hnew]
    show replaceReferences env names (replaceAll (written name) new.toList _) = _
    rw [hvalue, replaceAll_fill hclear hne hfree]
    apply ih
    · exact fun n hn => hnames n (List.mem_cons_of_mem name hn)
    · exact fun n hn => hset n (List.mem_cons_of_mem name hn)
    · intro n hn
      rcases hall n hn with hlisted | hdone
      · rcases List.mem_cons.mp hlisted with rfl | hlater
        · exact Or.inr List.mem_cons_self
        · exact Or.inl hlater
      · exact Or.inr (List.mem_cons_of_mem name hdone)

end

/-- Where nothing that is put in can be taken for a reference, all references are replaced by their
values at once, and in whatever order they are gone through. -/
theorem expand_eq_substitute {env : Environment} {text : String}
    (hset : ∀ name ∈ references text.toList, (env.text? (String.ofList name)).isSome)
    (hclear : IsClear env text.toList) :
    expand env text = .ok (String.ofList (substitute env text.toList)) ∧
      ∀ names, (∀ name, name ∈ names ↔ name ∈ references text.toList) →
        replaceReferences env names text.toList = .ok (substitute env text.toList) := by
  have hany : ∀ names, (∀ name, name ∈ names ↔ name ∈ references text.toList) →
      replaceReferences env names text.toList = .ok (substitute env text.toList) := by
    intro names hnames
    have hfill := @replaceReferences_fill env [] text.toList hclear names
      (fun name hname => (hnames name).mp hname)
      (fun name hname => hset name ((hnames name).mp hname))
      (fun name hname => Or.inl ((hnames name).mpr hname))
    rwa [fill_nil] at hfill
  refine ⟨?_, hany⟩
  unfold expand
  rw [hany (references text.toList) fun name => Iff.rfl]
  rfl

/-- Values with dollar signs and braces of their own, one of them put in twice and once right after
a dollar sign. -/
theorem expand_price :
    let env := Environment.ofEntries [.text "PRICE=5 or $6", .text "UNIT=\x7bkg\x7d"]
    let text := "$$\x7bPRICE\x7d per $\x7bUNIT\x7d, $\x7bPRICE\x7d"
    expand env text = .ok "$5 or $6 per \x7bkg\x7d, 5 or $6" ∧
      replaceReferences env ["UNIT".toList, "PRICE".toList] text.toList =
        .ok "$5 or $6 per \x7bkg\x7d, 5 or $6".toList := by
  intro env text
  have hnames : references text.toList = ["PRICE".toList, "UNIT".toList, "PRICE".toList] := by
    decide +kernel
  have hclear : IsClear env text.toList := by
    constructor <;> rw [hnames]
    · decide +kernel
    · intro name hname
      constructor <;> revert name <;> decide +kernel
    · decide +kernel
  have hset : ∀ name ∈ references text.toList, (env.text? (String.ofList name)).isSome := by
    rw [hnames]
    decide +kernel
  have hsubst : substitute env text.toList = "$5 or $6 per \x7bkg\x7d, 5 or $6".toList := by
    decide +kernel
  obtain ⟨hexpand, hany⟩ := expand_eq_substitute hset hclear
  rw [hsubst] at hexpand hany
  refine ⟨hexpand, hany _ fun name => ?_⟩
  rw [hnames]
  simp only [List.mem_cons, List.not_mem_nil, or_false]
  tauto

/-- A reference that comes out of a value is expanded when the text refers to the same variable
later on, and is left when it does so earlier. -/
theorem expand_reads_values :
    let env := Environment.ofEntries [.text "A=$\x7bB\x7d", .text "B=x"]
    let text := "$\x7bA\x7d $\x7bB\x7d"
    (∀ name ∈ references text.toList, (env.text? (String.ofList name)).isSome) ∧
      expand env text ≠ .ok (String.ofList (substitute env text.toList)) ∧
      expand env text = .ok "x x" ∧
      expand env "$\x7bB\x7d $\x7bA\x7d" = .ok "x $\x7bB\x7d" := by
  decide +kernel

end Variables
end RecurringJobs
