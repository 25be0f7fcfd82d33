import RecurringJobs.Config.Load
import RecurringJobs.Proofs.Config.Variables

/-!
When a text is refused for a variable that has no text.

`Refers` says what the references of a text are without going through the program: the leftmost
first, none begun inside another one.  A text is refused exactly for the first of them whose variable
has no text (`expand_error_iff`), though it changes under way as values are put in.

A variable has none when it is not set, and also when it is set to bytes that are no text.  What is
set is told by `Environment.bindings`, and a look-up goes by it, but for names with an equals sign.
-/

namespace RecurringJobs
namespace Environment

/-- The variable that an entry sets, and to what.  Its name ends before the first equals sign, and
may begin with one. -/
def Entry.binding? (entry : Entry) : Option (String × Setting) :=
  match entry.start.toList with
  | c :: cs =>
    match cs.dropWhile (· ≠ '=') with
    | _ :: rest => some (String.ofList (c :: cs.takeWhile (· ≠ '=')), entry.setting rest)
    | [] => none
  | [] => none

/-- The variables that entries set, and to what. -/
def bindings (entries : List Entry) : List (String × Setting) := entries.filterMap Entry.binding?

theorem setting?_eq_some_iff {name : String} {entry : Entry} {s : Setting} :
    entry.setting? name = some s ↔
      ∃ rest, entry.start.toList = name.toList ++ '=' :: rest ∧ entry.setting rest = s := by
  simp [Entry.setting?, Text.dropLead_eq_some_iff]

/-- A variable whose name has no equals sign is set by the entries that begin with its name and
one. -/
theorem binding?_eq_some_iff {name : String} (hne : name ≠ "") (hname : '=' ∉ name.toList)
    {entry : Entry} {s : Setting} :
    entry.binding? = some (name, s) ↔
      ∃ rest, entry.start.toList = name.toList ++ '=' :: rest ∧ entry.setting rest = s := by
  unfold Entry.binding?
  constructor
  · intro h
    split at h
    · next c cs hstart =>
      split at h
      · next d rest hdrop =>
        cases h
        have hd : d = '=' := by
          have hhead := List.head?_dropWhile_not (· ≠ '=') cs
          rw [hdrop] at hhead
          simpa using hhead
        subst hd
        refine ⟨rest, ?_, rfl⟩
        rw [hstart, String.toList_ofList, List.cons_append, ← hdrop,
          List.takeWhile_append_dropWhile]
      · cases h
    · cases h
  · rintro ⟨rest, hstart, rfl⟩
    obtain ⟨c, cs, hcons⟩ := List.exists_cons_of_ne_nil (mt String.toList_eq_nil_iff.mp hne)
    rw [hcons] at hstart hname
    have hall : ∀ x ∈ cs, decide (x ≠ '=') = true := by
      intro x hx
      rw [decide_eq_true_iff]
      rintro rfl
      exact hname (List.mem_cons_of_mem c hx)
    have htake : (cs ++ '=' :: rest).takeWhile (· ≠ '=') = cs := by
      rw [List.takeWhile_append_of_pos hall]
      simp
    have hdrop : (cs ++ '=' :: rest).dropWhile (· ≠ '=') = '=' :: rest := by
      rw [List.dropWhile_append_of_pos hall]
      simp
    rw [hstart, List.cons_append]
    dsimp only
    rw [hdrop, htake, ← hcons, String.ofList_toList]

/-- No variable has a name without characters. -/
theorem Entry.name_ne_empty {entry : Entry} {p : String × Setting} (h : entry.binding? = some p) :
    p.1 ≠ "" := by
  unfold binding? at h
  split at h
  · split at h
    · cases h
      simp
    · cases h
  · cases h

theorem lookup_bindings_empty (entries : List Entry) : (bindings entries).lookup "" = none := by
  rw [List.lookup_eq_none_iff]
  intro p hp
  obtain ⟨entry, -, hbinding⟩ := List.mem_filterMap.mp hp
  rw [bne_iff_ne]
  exact (Entry.name_ne_empty hbinding).symm

theorem findSome?_setting? (entries : List Entry) {name : String} (hne : name ≠ "")
    (hname : '=' ∉ name.toList) :
    entries.findSome? (Entry.setting? name) = (bindings entries).lookup name := by
  induction entries with
  | nil => rfl
  | cons entry entries ih =>
    have hsame (s : Setting) : entry.setting? name = some s ↔ entry.binding? = some (name, s) :=
      setting?_eq_some_iff.trans (binding?_eq_some_iff hne hname).symm
    cases hsetting : entry.setting? name with
    | some s =>
      have hbinding := (hsame s).mp hsetting
      rw [List.findSome?_cons, hsetting, bindings, List.filterMap_cons_some hbinding,
        List.lookup_cons_self]
    | none =>
      rw [List.findSome?_cons, hsetting]
      refine ih.trans ?_
      cases hbinding : entry.binding? with
      | none => rw [bindings, bindings, List.filterMap_cons_none hbinding]
      | some p =>
        obtain ⟨other, s⟩ := p
        have hother : (name == other) = false := by
          rw [beq_eq_false_iff_ne]
          rintro rfl
          cases hsetting.symm.trans ((hsame s).mpr hbinding)
        rw [bindings, bindings, List.filterMap_cons_some hbinding, List.lookup_cons, hother]

/-- A look-up finds what is set, unless the name has an equals sign. -/
theorem ofEntries_eq_lookup (entries : List Entry) {name : String} (hname : '=' ∉ name.toList) :
    ofEntries entries name = (bindings entries).lookup name := by
  by_cases hne : name = ""
  · subst hne
    exact (lookup_bindings_empty entries).symm
  · rw [← findSome?_setting? entries hne hname]
    simp [ofEntries, hne]

end Environment

namespace Variables

/-- The names in the references of a text, from left to right.  A reference that begins at a place
takes its whole length out of the text; where none begins, one character is passed over. -/
inductive Refers : List Char → List (List Char) → Prop
  | nil : Refers [] []
  | hit {name rest : List Char} {names : List (List Char)} (hne : name ≠ []) (hfree : '}' ∉ name)
      (hrest : Refers rest names) : Refers (written name ++ rest) (name :: names)
  | skip {c : Char} {tail : List Char} {names : List (List Char)}
      (hnone : ∀ name rest, name ≠ [] → '}' ∉ name → c :: tail ≠ written name ++ rest)
      (htail : Refers tail names) : Refers (c :: tail) names

theorem reference?_eq_none_iff {cs : List Char} :
    reference? cs = none ↔ ∀ name rest, name ≠ [] → '}' ∉ name → cs ≠ written name ++ rest := by
  rw [Option.eq_none_iff_forall_ne_some]
  constructor
  · intro h name rest hne hfree hcs
    exact h (name, rest) (reference?_eq_some_iff.mpr ⟨hne, hfree, hcs⟩)
  · rintro h ⟨name, rest⟩ href
    obtain ⟨hne, hfree, hcs⟩ := reference?_eq_some_iff.mp href
    exact h name rest hne hfree hcs

theorem references_of_reference {cs name rest : List Char}
    (h : reference? cs = some (name, rest)) : references cs = name :: references rest := by
  cases cs with
  | nil => cases h
  | cons c tail =>
    rw [references]
    split
    · next name' rest' h' =>
      cases h.symm.trans h'
      rfl
    · next h' => cases h.symm.trans h'

theorem references_of_none {c : Char} {tail : List Char} (h : reference? (c :: tail) = none) :
    references (c :: tail) = references tail := by
  rw [references]
  split
  · next name' rest' h' => cases h.symm.trans h'
  · rfl

theorem refers_references (cs : List Char) : Refers cs (references cs) := by
  induction cs using pieces_induction with
  | nil =>
    rw [references]
    exact .nil
  | reference href ih =>
    obtain ⟨hne, hfree, -⟩ := reference?_eq_some_iff.mp href
    rw [references_of_reference href]
    exact .hit hne hfree ih
  | plain hnone ih =>
    rw [references_of_none hnone]
    exact .skip (reference?_eq_none_iff.mp hnone) ih

theorem refers_iff {cs : List Char} {names : List (List Char)} :
    Refers cs names ↔ names = references cs := by
  constructor
  · intro h
    induction h with
    | nil => rw [references]
    | hit hne hfree _ ih =>
      rw [references_of_reference (reference?_eq_some_iff.mpr ⟨hne, hfree, rfl⟩), ih]
    | skip hnone _ ih => rw [references_of_none (reference?_eq_none_iff.mpr hnone), ih]
  · rintro rfl
    exact refers_references cs

/-- The name stands among others, its variable has no text, and those of the names before it do. -/
def IsFirstUnset (env : Environment) (names : List (List Char)) (missing : String) : Prop :=
  ∃ before after, names = before ++ missing.toList :: after ∧ env.text? missing = none ∧
    ∀ name ∈ before, (env.text? (String.ofList name)).isSome

/-- What is put into the text on the way makes no difference to the fault. -/
theorem replaceReferences_error_iff {env : Environment} {names : List (List Char)}
    {cs : List Char} {missing : String} :
    replaceReferences env names cs = .error missing ↔ IsFirstUnset env names missing := by
  -- by the names alone: the text may have become anything by the time that a name is looked up
  induction names generalizing cs with
  | nil => simp [replaceReferences, IsFirstUnset]
  | cons name names ih =>
    rw [replaceReferences]
    cases hname : env.text? (String.ofList name) with
    | none =>
      constructor
      · rintro ⟨⟩
        exact ⟨[], names, by simp, hname, by simp⟩
      · rintro ⟨before, after, hsplit, -, hbefore⟩
        cases before with
        | nil =>
          obtain ⟨rfl, -⟩ := List.cons.inj hsplit
          simp
        | cons first before =>
          obtain ⟨rfl, -⟩ := List.cons.inj hsplit
          simpa [hname] using hbefore name List.mem_cons_self
    | some value =>
      rw [ih]
      constructor
      · rintro ⟨before, after, rfl, hmissing, hbefore⟩
        refine ⟨name :: before, after, rfl, hmissing, ?_⟩
        simpa [hname] using hbefore
      · rintro ⟨before, after, hsplit, hmissing, hbefore⟩
        cases before with
        | nil =>
          obtain ⟨rfl, -⟩ := List.cons.inj hsplit
          rw [String.ofList_toList] at hname
          cases hname.symm.trans hmissing
        | cons first before =>
          obtain ⟨rfl, rfl⟩ := List.cons.inj hsplit
          exact ⟨before, after, rfl, hmissing, fun n hn => hbefore n (List.mem_cons_of_mem name hn)⟩

theorem expand_error_iff {env : Environment} {text missing : String} :
    expand env text = .error missing ↔ IsFirstUnset env (references text.toList) missing := by
  rw [← @replaceReferences_error_iff env (references text.toList) text.toList, expand]
  cases replaceReferences env (references text.toList) text.toList with
  | error name => simp [Except.map]
  | ok cs => simp [Except.map]

theorem expand_of_references_nil {env : Environment} {text : String}
    (h : references text.toList = []) : expand env text = .ok text := by
  rw [expand, h, replaceReferences]
  simp [Except.map]

theorem exists_isFirstUnset_iff {env : Environment} {names : List (List Char)} :
    (∃ missing, IsFirstUnset env names missing) ↔ ∃ name ∈ names, env.text? (String.ofList name) = none := by
  constructor
  · rintro ⟨missing, before, after, rfl, hmissing, -⟩
    exact ⟨missing.toList, by simp, by simpa using hmissing⟩
  · rintro ⟨name, hname, hnone⟩
    have hfound : (names.find? fun n => (env.text? (String.ofList n)).isNone).isSome := by
      rw [List.find?_isSome]
      exact ⟨name, hname, by rw [hnone]; rfl⟩
    obtain ⟨first, hfirst⟩ := Option.isSome_iff_exists.mp hfound
    obtain ⟨hunset, before, after, hsplit, hbefore⟩ := List.find?_eq_some_iff_append.mp hfirst
    refine ⟨String.ofList first, before, after, ?_, by simpa using hunset, ?_⟩
    · rw [String.toList_ofList]
      exact hsplit
    · simpa using hbefore

/-- Which text a variable has makes no difference, and neither do the variables that no reference
names. -/
theorem isFirstUnset_congr {env env' : Environment} {names : List (List Char)} {missing : String}
    (hset : ∀ name ∈ names,
      (env'.text? (String.ofList name)).isSome = (env.text? (String.ofList name)).isSome) :
    IsFirstUnset env' names missing ↔ IsFirstUnset env names missing := by
  refine exists_congr fun before => exists_congr fun after => and_congr_right ?_
  rintro rfl
  refine and_congr ?_ ?_
  · have h := hset missing.toList (by simp)
    rw [String.ofList_toList] at h
    rw [← Option.isNone_iff_eq_none, ← Option.isNone_iff_eq_none, ← Option.not_isSome,
      ← Option.not_isSome, h]
  · refine forall₂_congr fun name hname => ?_
    rw [hset name (List.mem_append_left _ hname)]

end Variables

theorem Config.ofText_variableNotSet_iff {env : Environment} {text missing : String} :
    Config.ofText env text = .error (.variableNotSet missing) ↔
      Variables.expand env text = .error missing := by
  unfold Config.ofText
  cases Variables.expand env text with
  | error name => simp
  | ok expanded =>
    dsimp only
    cases (Toml.parse? expanded).bind ofFields? <;> simp

/-- A text is refused for a variable exactly if one of its references names a variable that has no
text, and the fault is the first such name.  Texts of other variables have no part in that, and a
text without references is left as it is.

For names without an equals sign, this goes by what the entries of the environment set. -/
theorem Variables.expand_fails_iff (env : Environment) (text : String) :
    ∃ names, (∀ others, Refers text.toList others ↔ others = names) ∧
      (∀ missing, expand env text = .error missing ↔
        ∃ before after, names = before ++ missing.toList :: after ∧ env.text? missing = none ∧
          ∀ name ∈ before, (env.text? (String.ofList name)).isSome) ∧
      (∀ missing, Config.ofText env text = .error (.variableNotSet missing) ↔
        expand env text = .error missing) ∧
      ((∃ missing, expand env text = .error missing) ↔
        ∃ name ∈ names, env.text? (String.ofList name) = none) ∧
      (∀ entries, env = .ofEntries entries → ∀ name ∈ names, '=' ∉ name →
        env (String.ofList name) = (Environment.bindings entries).lookup (String.ofList name)) ∧
      (∀ env' : Environment,
        (∀ name ∈ names,
          (env'.text? (String.ofList name)).isSome = (env.text? (String.ofList name)).isSome) →
        ∀ missing, expand env' text = .error missing ↔ expand env text = .error missing) ∧
      (names = [] → expand env text = .ok text) := by
  refine ⟨references text.toList, fun others => refers_iff, fun missing => expand_error_iff,
    fun missing => Config.ofText_variableNotSet_iff, ?_, ?_, ?_, expand_of_references_nil⟩
  · simp only [expand_error_iff]
    exact exists_isFirstUnset_iff
  · rintro entries rfl name - hequals
    exact Environment.ofEntries_eq_lookup entries (by rwa [String.toList_ofList])
  · intro env' hset missing
    rw [expand_error_iff, expand_error_iff]
    exact isFirstUnset_congr hset

/-- The name of the second reference has an opening in it.  Empty and unclosed braces are none, and
the reference that comes out of a value does not count. -/
theorem Variables.expand_fails_nested :
    let env := Environment.ofEntries [.text "A=$\x7bZ\x7d"]
    Refers "$\x7b\x7d$\x7bA\x7d $\x7b$\x7bB\x7d $\x7bC".toList ["A".toList, "$\x7bB".toList] ∧
      expand env "$\x7b\x7d$\x7bA\x7d $\x7b$\x7bB\x7d $\x7bC" = .error "$\x7bB" ∧
      expand env "$\x7b\x7d$\x7bA\x7d $\x7bC" = .ok "$\x7b\x7d$\x7bZ\x7d $\x7bC" := by
  intro env
  obtain ⟨names, hnames, hfails, -⟩ :=
    expand_fails_iff env "$\x7b\x7d$\x7bA\x7d $\x7b$\x7bB\x7d $\x7bC"
  have href : Refers "$\x7b\x7d$\x7bA\x7d $\x7b$\x7bB\x7d $\x7bC".toList
      ["A".toList, "$\x7bB".toList] := refers_iff.mpr (by decide +kernel)
  obtain rfl := (hnames _).mp href
  refine ⟨href, (hfails _).mpr ⟨["A".toList], [], rfl, ?_, ?_⟩, ?_⟩ <;> decide +kernel

/-- A variable that is set, but to no text, and one that is not set, though an entry begins with its
name and an equals sign: the text is refused for the first, and not for the second. -/
theorem Variables.expand_asks_for_text :
    let entries : List Environment.Entry := [.text "JH_A=B=x", .broken "PLACE=caf"]
    let env := Environment.ofEntries entries
    (Refers "$\x7bPLACE\x7d".toList ["PLACE".toList] ∧
      (Environment.bindings entries).lookup "PLACE" = some .notText ∧
      expand env "$\x7bPLACE\x7d" = .error "PLACE") ∧
    Refers "$\x7bJH_A=B\x7d".toList ["JH_A=B".toList] ∧
      (Environment.bindings entries).lookup "JH_A=B" = none ∧
      expand env "$\x7bJH_A=B\x7d" = .ok "x" := by
  rw [refers_iff, refers_iff]
  decide +kernel

end RecurringJobs
