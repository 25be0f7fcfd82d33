import RecurringJobs.Text.Quoted

/-!
The JSON values in which results are reported, and their compact text.
-/

namespace RecurringJobs

inductive Json where
  | null
  | bool (b : Bool)
  | int (n : Int)
  | text (s : String)
  | list (items : List Json)
  /-- The fields in the order in which they are written. -/
  | object (fields : List (String × Json))

namespace Json

/-- One character inside a JSON string.  Only what must be escaped is. -/
def escapeChar (c : Char) : String :=
  if c = '"' then "\\\""
  else if c = '\\' then "\\\\"
  else if c = '\n' then "\\n"
  else if c = '\r' then "\\r"
  else if c = '\t' then "\\t"
  else if c = '\x08' then "\\b"
  else if c = '\x0c' then "\\f"
  else if c.toNat < 0x20 then
    "\\u00" ++ (if c.toNat < 0x10 then "0" else "") ++ Text.hex c.toNat
  else String.singleton c

def string (s : String) : String := "\"" ++ String.join (s.toList.map escapeChar) ++ "\""

def separated (parts : List String) : String := String.intercalate "," parts

mutual

/-- The compact text of a value. -/
def render : Json → String
  | null => "null"
  | bool b => if b then "true" else "false"
  | int n => toString n
  | text s => string s
  | list items => "[" ++ separated (renderItems items) ++ "]"
  | object fields => "\x7b" ++ separated (renderFields fields) ++ "\x7d"

def renderItems : List Json → List String
  | [] => []
  | item :: items => render item :: renderItems items

def renderFields : List (String × Json) → List String
  | [] => []
  | (key, value) :: fields => (string key ++ ":" ++ render value) :: renderFields fields

end

/-- A value that may be absent. -/
def ofOption (value : Option Json) : Json := value.getD null

def ofNat (n : Nat) : Json := int n

def texts (items : List String) : Json := list (items.map text)

end Json
end RecurringJobs
