import RecurringJobs.Toml.Text

/-!
Documents of TOML 1.0.

A document is read into statements and these are carried out one by one on a tree of tables.
Each table of the tree remembers how it came about, since a table may be opened once by a header,
extended by dotted keys only if dotted keys made it, and never touched again if it was written
inline.
-/

namespace RecurringJobs
namespace Toml

inductive Value where
  | text (s : String)
  | scalar (s : Scalar)
  | array (items : List Value)
  | table (fields : List (String × Value))

/-- How a table came about. -/
inductive Origin where
  /-- On the way to a table with a header of its own. -/
  | passed
  /-- By a dotted key. -/
  | dotted
  /-- By a header. -/
  | headed
deriving Repr, DecidableEq

/-- A table in the making, or a finished value in it. -/
inductive Node where
  | value (v : Value)
  | table (origin : Origin) (fields : List (String × Node))
  /-- An array that grows by headers, with its tables so far. -/
  | tables (items : List (List (String × Node)))

abbrev Fields := List (String × Node)

namespace Node

def find? (key : String) (fields : Fields) : Option Node :=
  (fields.find? fun p => p.1 = key).map Prod.snd

def replace (key : String) (node : Node) (fields : Fields) : Fields :=
  fields.map fun p => if p.1 = key then (key, node) else p

/-- Changes the table at the end of a path, making the tables on the way.  Of an array that grows
by headers, the last table is meant. -/
def descend (dotted : Bool) (change : Origin → Fields → Option Fields) :
    List String → Origin → Fields → Option Fields
  | [], origin, fields => change origin fields
  | key :: path, _, fields =>
    match find? key fields with
    | none => do
      let origin : Origin := if dotted then .dotted else .passed
      let made ← descend dotted change path origin []
      return fields ++ [(key, .table origin made)]
    | some (.value _) => none
    | some (.table origin inner) =>
      if dotted && origin = .headed then none
      else do
        let changed ← descend dotted change path origin inner
        return replace key (.table origin changed) fields
    | some (.tables items) =>
      match items.getLast? with
      | none => none
      | some last => do
        let changed ← descend dotted change path .headed last
        return replace key (.tables (items.dropLast ++ [changed])) fields

/-- Puts a value under a dotted key.  Its table must have been made by dotted keys, or be the one
that is being filled. -/
def put (path : List String) (key : String) (v : Value) (fields : Fields) : Option Fields :=
  let change (origin : Origin) (inner : Fields) : Option Fields :=
    if !path.isEmpty && origin ≠ .dotted then none
    else
      match find? key inner with
      | some _ => none
      | none => some (inner ++ [(key, .value v)])
  descend true change path .headed fields

/-- Opens a table by its header. -/
def openTable (path : List String) (key : String) (fields : Fields) : Option Fields :=
  let change (_ : Origin) (inner : Fields) : Option Fields :=
    match find? key inner with
    | none => some (inner ++ [(key, .table .headed [])])
    | some (.table .passed t) => some (replace key (.table .headed t) inner)
    | some _ => none
  descend false change path .headed fields

/-- Adds a table to an array by its header. -/
def addTable (path : List String) (key : String) (fields : Fields) : Option Fields :=
  let change (_ : Origin) (inner : Fields) : Option Fields :=
    match find? key inner with
    | none => some (inner ++ [(key, .tables [[]])])
    | some (.tables items) => some (replace key (.tables (items ++ [[]])) inner)
    | some _ => none
  descend false change path .headed fields

mutual

/-- The finished value of a node. -/
def finish : Node → Value
  | value v => v
  | table _ fields => .table (finishFields fields)
  | tables items => .array (finishTables items)

def finishFields : List (String × Node) → List (String × Value)
  | [] => []
  | (key, node) :: fields => (key, finish node) :: finishFields fields

def finishTables : List (List (String × Node)) → List Value
  | [] => []
  | fields :: items => .table (finishFields fields) :: finishTables items

end

end Node

/-! ## Keys -/

def isBareKey (c : Char) : Bool :=
  Text.isAsciiDigit c || ('a' ≤ c && c ≤ 'z') || ('A' ≤ c && c ≤ 'Z') || c = '-' || c = '_'

def simpleKey? (cs : List Char) : Option (String × List Char) :=
  match cs.takeWhile isBareKey with
  | [] => lineText? cs
  | bare => some (String.ofList bare, cs.dropWhile isBareKey)

/-- The nesting that is still read, of values in values and of parts in a key. -/
def deepest : Nat := 79

/-- A key with dots in it, at most so many parts of it. -/
def key? : Nat → List Char → Option (List String × List Char)
  | 0, _ => none
  | fuel + 1, cs => do
    let (part, rest) ← simpleKey? (skipSpace cs)
    match skipSpace rest with
    | '.' :: rest => do
      let (parts, rest) ← key? fuel rest
      return (part :: parts, rest)
    | rest => return ([part], rest)

/-- The path to a table and the key in it. -/
def splitKey (parts : List String) : List String × String :=
  (parts.dropLast, parts.getLast?.getD "")

def dottedKey? (cs : List Char) : Option ((List String × String) × List Char) :=
  (key? deepest cs).map fun p => (splitKey p.1, p.2)

/-! ## Values -/

/-- What follows a comment sign on its line. -/
def skipComment (cs : List Char) : List Char :=
  match cs with
  | '#' :: rest => rest.dropWhile isPlain
  | _ => cs

/-- The rest of a line: blanks and a comment, and then its end. -/
def lineEnd? (cs : List Char) : Option (List Char) :=
  match skipComment (skipSpace cs) with
  | [] => some []
  | rest => newline? rest

/-- Blanks, comments and newlines between the items of an array. -/
def skipLines : Nat → List Char → List Char
  | 0, cs => cs
  | fuel + 1, cs =>
    let cs := skipSpace cs
    match newline? (skipComment cs) with
    | some rest => skipLines fuel rest
    | none => cs

def gap (cs : List Char) : List Char := skipLines cs.length cs

/-- The items of an array up to its bracket.  A comma may stand after the last. -/
def items? {α : Type} (one? : List Char → Option (α × List Char)) :
    Nat → List Char → Option (List α × List Char)
  | 0, _ => none
  | fuel + 1, cs =>
    match gap cs with
    | ']' :: rest => some ([], rest)
    | cs => do
      let (item, rest) ← one? cs
      match gap rest with
      | ',' :: rest => do
        let (items, rest) ← items? one? fuel rest
        return (item :: items, rest)
      | ']' :: rest => return ([item], rest)
      | _ => none

/-- A key, the sign between and a value. -/
def pair? {α : Type} (one? : List Char → Option (α × List Char)) (cs : List Char) :
    Option (((List String × String) × α) × List Char) := do
  let (key, rest) ← dottedKey? cs
  match rest with
  | '=' :: rest => do
    let (v, rest) ← one? (skipSpace rest)
    return ((key, v), rest)
  | _ => none

/-- The pairs of an inline table up to its brace, on one line and without a last comma. -/
def pairs? (one? : List Char → Option (Value × List Char)) :
    Nat → Fields → List Char → Option (Fields × List Char)
  | 0, _, _ => none
  | fuel + 1, fields, cs => do
    let (((path, key), v), rest) ← pair? one? cs
    let fields ← Node.put path key v fields
    match skipSpace rest with
    | ',' :: rest => pairs? one? fuel fields rest
    | '}' :: rest => return (fields, rest)
    | _ => none

/-- A value that holds no other. -/
def leaf? (cs : List Char) : Option (Value × List Char) :=
  match text? cs with
  | some (s, rest) => some (.text s, rest)
  | none => (scalar? cs).map fun p => (.scalar p.1, p.2)

/-- A value with arrays and inline tables nested no deeper than the bound. -/
def value? : Nat → List Char → Option (Value × List Char)
  | 0, cs => leaf? cs
  | depth + 1, cs =>
    match cs with
    | '[' :: rest => (items? (value? depth) (rest.length + 1) rest).map fun p => (.array p.1, p.2)
    | '{' :: rest =>
      match skipSpace rest with
      | '}' :: rest => some (.table [], rest)
      | _ =>
        (pairs? (value? depth) (rest.length + 1) [] rest).map fun p =>
          (.table (Node.finishFields p.1), p.2)
    | _ => leaf? cs

/-! ## Documents -/

inductive Statement where
  | put (path : List String) (key : String) (v : Value)
  | openTable (path : List String) (key : String)
  | addTable (path : List String) (key : String)

/-- A statement at the beginning of a line, and the text from its end on. -/
def statement? (cs : List Char) : Option (Statement × List Char) :=
  match cs with
  | '[' :: '[' :: rest => do
    let ((path, key), rest) ← dottedKey? rest
    match rest with
    | ']' :: ']' :: rest => return (.addTable path key, rest)
    | _ => none
  | '[' :: rest => do
    let ((path, key), rest) ← dottedKey? rest
    match rest with
    | ']' :: rest => return (.openTable path key, rest)
    | _ => none
  | _ => do
    let (((path, key), v), rest) ← pair? (value? deepest) cs
    return (.put path key v, rest)

/-- The statements of a text, one to a line. -/
def statements? : Nat → List Char → Option (List Statement)
  | 0, _ => none
  | fuel + 1, cs =>
    match skipSpace cs with
    | [] => some []
    | cs =>
      match newline? cs with
      | some rest => statements? fuel rest
      | none =>
        match cs with
        | '#' :: _ =>
          match lineEnd? cs with
          | some rest => statements? fuel rest
          | none => none
        | _ => do
          let (s, rest) ← statement? cs
          let rest ← lineEnd? rest
          let ss ← statements? fuel rest
          return s :: ss

/-- Carries out statements on a tree whose open table is at `path`. -/
def build (path : List String) (root : Fields) : List Statement → Option Fields
  | [] => some root
  | .put inner key v :: ss => do
    let change (_ : Origin) (fields : Fields) : Option Fields := Node.put inner key v fields
    let root ← Node.descend false change path .headed root
    build path root ss
  | .openTable outer key :: ss => do
    let root ← Node.openTable outer key root
    build (outer ++ [key]) root ss
  | .addTable outer key :: ss => do
    let root ← Node.addTable outer key root
    build (outer ++ [key]) root ss

/-- Reads a document into the fields of its root table.  A byte order mark may come first. -/
def parse? (text : String) : Option (List (String × Value)) := do
  let cs :=
    match text.toList with
    | '\ufeff' :: rest => rest
    | cs => cs
  let statements ← statements? (cs.length + 1) cs
  let root ← build [] [] statements
  return Node.finishFields root

end Toml
end RecurringJobs
