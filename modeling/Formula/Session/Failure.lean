/-!
# Failures

## Main definitions

* `Failure` — what can go wrong while lines are processed, each with its cause
* `Failure.context`, `Failure.cause` — the two halves of its report
* `Failure.chain` — both, as a list
-/

namespace Formula

/-- Why lines could not be processed to the end. -/
inductive Failure where
  | opening (path : String) (cause : String)
  | reading (cause : String)
  | writing (cause : String)
  | flushing (cause : String)
deriving DecidableEq, Repr

namespace Failure

/-- What was being done. -/
def context : Failure → String
  | opening path _ => "failed to open `" ++ path ++ "`"
  | reading _ => "failed to read input"
  | writing _ => "failed to write output"
  | flushing _ => "failed to flush output"

/-- What made it fail. -/
def cause : Failure → String
  | opening _ cause | reading cause | writing cause | flushing cause => cause

/-- The report of a failure, the outermost part first. -/
def chain (failure : Failure) : List String := [failure.context, failure.cause]

end Failure

end Formula
