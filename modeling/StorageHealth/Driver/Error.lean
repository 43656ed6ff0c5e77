/-!
# Errors of a driver

What can go wrong between the monitor and a storage driver: the address cannot be used, nobody
answers there, a call fails with a status, or an answer lacks the condition that was asked for.
-/

namespace StorageHealth

/-- The status codes of a call, from zero upwards. -/
def statusNames : List String :=
  ["Ok", "Cancelled", "Unknown", "InvalidArgument", "DeadlineExceeded", "NotFound",
    "AlreadyExists", "PermissionDenied", "ResourceExhausted", "FailedPrecondition", "Aborted",
    "OutOfRange", "Unimplemented", "Internal", "Unavailable", "DataLoss", "Unauthenticated"]

/-- The word for a status code; codes beyond the last one are unknown. -/
def statusName (code : Nat) : String := statusNames.getD code "Unknown"

/-- What can go wrong with a driver.  A failed call carries the text of its status when the driver
gave one. -/
inductive DriverError where
  | invalidAddress (address : String)
  | unreachable (address : String)
  | failedCall (method : String) (code : Nat) (detail : Option String)
  | missingCondition (method : String)
  deriving DecidableEq, Repr

namespace DriverError

/-- The text of an error; for a failed call it is what the driver said, if anything. -/
def message : DriverError → Option String
  | invalidAddress address => some ("invalid csi address '" ++ address ++ "': invalid URI")
  | unreachable address =>
    some ("cannot connect to csi driver at '" ++ address ++ "': transport error")
  | failedCall _ _ detail => detail
  | missingCondition method => some (method ++ " returned no volume condition")

end DriverError

end StorageHealth
