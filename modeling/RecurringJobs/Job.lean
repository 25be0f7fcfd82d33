import RecurringJobs.Container

/-!
Jobs: what is run under a name, and how a run can end.
-/

namespace RecurringJobs

/-- A handler under the name of its job.  What a handler is, is left to the host. -/
structure Execution (η : Type) where
  name : String
  handler : η
deriving Repr, DecidableEq

/-- What a handler says when it fails. -/
inductive JobError where
  | failed (reason : String)
  | unresolved (kind : Kind)
  | other (text : String)
deriving Repr, DecidableEq

def JobError.message : JobError → String
  | failed reason => s!"Job failed: {reason}"
  | unresolved kind => s!"Unable to resolve dependency: {kind.typeName}"
  | other text => text

/-- What a handler leaves behind when it panics. -/
inductive PanicPayload where
  | text (s : String)
  | nonText
deriving Repr, DecidableEq

def PanicPayload.message : PanicPayload → String
  | text s => s
  | nonText => "non-string panic payload"

/-- How a run that was not skipped ends. -/
inductive RunEnd where
  | completed
  | failed (error : JobError)
  | panicked (payload : PanicPayload)
deriving Repr, DecidableEq

end RecurringJobs
