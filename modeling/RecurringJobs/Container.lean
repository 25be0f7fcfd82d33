import RecurringJobs.Text.Quoted

/-!
The collaborators that handlers ask for, by the kind of the value.
-/

namespace RecurringJobs

/-- The kinds of values that can be asked for. -/
inductive Kind where
  | word32
  | word64
  | int64
  | flag
  | text
deriving Repr, DecidableEq

/-- The name under which a kind is reported. -/
def Kind.typeName : Kind → String
  | word32 => "u32"
  | word64 => "u64"
  | int64 => "i64"
  | flag => "bool"
  | text => "alloc::string::String"

inductive Dependency where
  | word32 (n : Nat)
  | word64 (n : Nat)
  | int64 (n : Int)
  | flag (b : Bool)
  | text (s : String)
deriving Repr, DecidableEq

def Dependency.kind : Dependency → Kind
  | word32 _ => .word32
  | word64 _ => .word64
  | int64 _ => .int64
  | flag _ => .flag
  | text _ => .text

/-- At most one value of each kind. -/
structure Container where
  items : List Dependency := []
deriving Repr, DecidableEq

namespace Container

def get? (c : Container) (kind : Kind) : Option Dependency :=
  c.items.find? fun d => d.kind = kind

/-- Puts a value in, in place of the one of its kind. -/
def insert (c : Container) (d : Dependency) : Container :=
  { items := d :: c.items.filter fun e => e.kind ≠ d.kind }

def contains (c : Container) (kind : Kind) : Bool := (c.get? kind).isSome

def size (c : Container) : Nat := c.items.length

end Container

/-- What a run is told: the name of its job, and where to ask for collaborators. -/
structure JobContext where
  jobName : String
  resolver : Option Container
deriving Repr, DecidableEq

namespace JobContext

/-- The value of a kind, if there is a resolver that has one. -/
def resolve? (c : JobContext) (kind : Kind) : Option Dependency :=
  c.resolver.bind (·.get? kind)

/-- The context as it is shown in reports. -/
def report (c : JobContext) : String :=
  "JobContext \x7b job_name: " ++ Text.quoted c.jobName ++ ", has_resolver: "
    ++ toString c.resolver.isSome ++ " \x7d"

end JobContext
end RecurringJobs
