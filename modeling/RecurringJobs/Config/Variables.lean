import RecurringJobs.Text.Blank

/-!
References to environment variables in a text.

A reference is a dollar sign and a name in braces; the name is everything up to the first closing
brace, and not empty.  The references are found in the text as it was given, from left to right.
Then they are replaced one after the other, each wherever it stands in the text by then, also in
values put in before.
-/

namespace RecurringJobs

/-- What a variable is set to: a text, or bytes that are none. -/
inductive Environment.Setting where
  | text (value : String)
  | notText
deriving Repr, DecidableEq

/-- What a look-up of a name finds. -/
abbrev Environment := String → Option Environment.Setting

namespace Environment

def Setting.text? : Setting → Option String
  | text value => some value
  | notText => none

/-- The text that a variable is set to. -/
def text? (env : Environment) (name : String) : Option String := (env name).bind Setting.text?

/-- An entry, of the form `name=value`: a text, or the text before the first byte of it that belongs
to none. -/
inductive Entry where
  | text (entry : String)
  | broken (start : String)
deriving Repr, DecidableEq

def Entry.start : Entry → String
  | text entry => entry
  | broken start => start

/-- What stands in an entry, if that ends with these characters of its text. -/
def Entry.setting (rest : List Char) : Entry → Setting
  | text _ => .text (String.ofList rest)
  | broken _ => .notText

/-- What an entry gives to a name. -/
def Entry.setting? (name : String) (entry : Entry) : Option Setting :=
  (Text.dropLead (name.toList ++ ['=']) entry.start.toList).map (entry.setting ·)

/-- The environment that entries make.  An entry gives a value to every name that it begins with, up
to any of its equals signs, and the first such entry counts. -/
def ofEntries (entries : List Entry) : Environment := fun name =>
  if name.isEmpty then none else entries.findSome? (Entry.setting? name)

end Environment

namespace Variables

/-- The name of the reference that the text begins with, and the text after it. -/
def reference? : List Char → Option (List Char × List Char)
  | '$' :: '{' :: rest =>
    match rest.takeWhile (· ≠ '}'), rest.dropWhile (· ≠ '}') with
    | c :: name, _ :: after => some (c :: name, after)
    | _, _ => none
  | _ => none

theorem reference?_length {cs name rest : List Char} (h : reference? cs = some (name, rest)) :
    rest.length < cs.length := by
  unfold reference? at h
  split at h
  · next body =>
    split at h
    · next c name' d after _ hd =>
      have hle := (List.dropWhile_suffix (l := body) (· ≠ '}')).length_le
      rw [hd] at hle
      simp only [Option.some.injEq, Prod.mk.injEq] at h
      simp only [List.length_cons] at hle ⊢
      rw [← h.2]
      omega
    · simp at h
  · simp at h

/-- The names in the references of a text, from left to right. -/
def references (cs : List Char) : List (List Char) :=
  match cs with
  | [] => []
  | c :: tail =>
    match _h : reference? (c :: tail) with
    | some (name, rest) => name :: references rest
    | none => references tail
termination_by cs.length
decreasing_by
  · exact reference?_length ‹reference? (c :: tail) = some (name, rest)›
  · simp

/-- A name as it is referred to. -/
def written (name : List Char) : List Char := '$' :: '{' :: name ++ ['}']

/-- The text with every occurrence of a part replaced, from left to right. -/
def replaceAll (part value cs : List Char) : List Char :=
  match cs with
  | [] => []
  | c :: tail =>
    match _h : Text.dropLead part (c :: tail) with
    | some rest => if part = [] then cs else value ++ replaceAll part value rest
    | none => c :: replaceAll part value tail
termination_by cs.length
decreasing_by
  · exact Text.dropLead_length ‹¬part = []› ‹Text.dropLead part (c :: tail) = some rest›
  · simp

/-- Replaces the references by the texts of their variables, the first one in the text that has none
being the fault. -/
def replaceReferences (env : Environment) :
    List (List Char) → List Char → Except String (List Char)
  | [], cs => .ok cs
  | name :: names, cs =>
    match env.text? (String.ofList name) with
    | some value => replaceReferences env names (replaceAll (written name) value.toList cs)
    | none => .error (String.ofList name)

/-- The text with its references replaced, or the name of the first variable that has no text. -/
def expand (env : Environment) (text : String) : Except String String :=
  (replaceReferences env (references text.toList) text.toList).map String.ofList

end Variables
end RecurringJobs
