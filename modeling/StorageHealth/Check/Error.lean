import StorageHealth.Process

/-!
# Why a check fails

A volume that cannot be checked at all is told apart from one whose check did not come to an end:
`CheckError.isPrecondition` holds for the errors that say something about the volume itself.
-/

namespace StorageHealth

/-- Why a check fails. -/
inductive CheckError where
  | driverMismatch (volume expected : String)
  | notBound (volume : String)
  | emptyHandle (volume : String)
  | missingClaimRef (volume : String)
  | claimNotFound (claim : ClaimKey)
  | missingUid (kind name : String)
  | timeout (volume : String) (limit : Span)
  | driver (cause : DriverError)
  | publish (cause : PublishError)
  | path (cause : MountPath.Error)
  deriving DecidableEq, Repr

namespace CheckError

/-- The text of a check error, where there is one. -/
def message : CheckError → Option String
  | driverMismatch volume expected =>
    some ("volume " ++ volume ++ " is not managed by driver " ++ expected)
  | notBound volume => some ("volume " ++ volume ++ " is not bound")
  | emptyHandle volume => some ("volume handle of " ++ volume ++ " is empty")
  | missingClaimRef volume => some ("volume " ++ volume ++ " has no claim reference")
  | claimNotFound claim => some ("claim " ++ claim.display ++ " not found")
  | missingUid kind name => some (kind ++ " " ++ name ++ " has no uid")
  | timeout volume limit =>
    some ("probing volume " ++ volume ++ " timed out after " ++ limit.shown)
  | driver cause => cause.message
  | publish cause => some cause.message
  | path cause => some cause.message

/-- Whether a volume was turned away for what it is. -/
def isPrecondition : CheckError → Bool
  | driverMismatch .. | notBound _ | emptyHandle _ | missingClaimRef _ => true
  | _ => false

end CheckError

/-- What is left of an outcome when being late and failing are errors. -/
def Outcome.orError {α : Type} (volume : String) (limit : Span) : Outcome α → Except CheckError α
  | late => .error (.timeout volume limit)
  | failed cause => .error (.driver cause)
  | answered a => .ok a

end StorageHealth
