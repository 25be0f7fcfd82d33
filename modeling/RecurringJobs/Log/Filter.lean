import RecurringJobs.Log.Directive

/-!
Which log lines are shown.

Directives stand between commas.  Of those that are about a line the most specific one says whether
its level is let through.
-/

namespace RecurringJobs

/-- The parts of a text between commas. -/
def splitCommas (cs : List Char) : List (List Char) :=
  cs.foldr
    (fun c parts =>
      if c = ',' then [] :: parts
      else
        match parts with
        | part :: rest => (c :: part) :: rest
        | [] => [[c]])
    [[]]

structure LogFilter where
  directives : List LogDirective
deriving Repr, DecidableEq

namespace LogFilter

/-- The texts of the directives.  What is empty counts for nothing. -/
def texts (s : String) : List String :=
  ((splitCommas s.toList).filter fun cs => !cs.isEmpty).map String.ofList

/-- Without a directive only errors are shown. -/
def ofDirectives (ds : List LogDirective) : LogFilter :=
  { directives := if ds.isEmpty then [{ rank := Level.error.rank }] else ds }

/-- Reads directives; one that is wrong makes the whole text wrong. -/
def parse? (s : String) : Option LogFilter :=
  ((texts s).mapM fun text => (LogDirective.ofText text).toOption).map ofDirectives

/-- Reads directives and passes over those that are wrong. -/
def lenient (s : String) : LogFilter :=
  ofDirectives ((texts s).filterMap fun text => (LogDirective.ofText text).toOption)

/-- What is said about the directives that are passed over. -/
def complaints (s : String) : List String :=
  (texts s).filterMap fun text =>
    match LogDirective.ofText text with
    | .ok _ => none
    | .error e => some ("ignoring \u0060" ++ text ++ "\u0060: " ++ e.message)

/-- The more specific of two directives. -/
def moreSpecific (best : Option LogDirective) (d : LogDirective) : Option LogDirective :=
  match best with
  | some b => if b.yieldsTo d then some d else some b
  | none => some d

/-- Whether a line is shown. -/
def shows (f : LogFilter) (l : LogLine) : Bool :=
  match (f.directives.filter (·.concerns l)).foldl moreSpecific none with
  | some d => l.level.rank ≤ d.rank
  | none => false

end LogFilter
end RecurringJobs
