import StorageHealth.Check

/-!
# The claims on a broken node

When a node breaks, every claim that is used there is warned, with the names of the pods that use
it; when the node is back, the same claims are told.  If the claim of some volume is not cached,
nothing is published at all; if publishing fails, the pass ends there.
-/

namespace StorageHealth

/-- What can go wrong with a pass over the claims on a node. -/
inductive NodeError where
  | claimNotFound (claim : ClaimKey)
  | notify (claim : ClaimKey) (cause : PublishError)
  deriving DecidableEq, Repr

/-- The text of a node error. -/
def NodeError.message : NodeError → String
  | claimNotFound claim => "claim " ++ claim.display ++ " not found"
  | notify claim cause => "failed to notify claim " ++ claim.display ++ ": " ++ cause.message

/-- A claim, and the names of the pods that use it on a node. -/
structure AffectedClaim where
  claim : Claim
  pods : List String
  deriving DecidableEq, Repr

namespace Node

/-! ### Affected claims -/

/-- The names of the pods that use a claim on a node, in ascending order. -/
def usersOf (m : Monitor) (node : String) (claim : ClaimKey) : List String :=
  (((m.consumers.lookup claim).filter (fun p => p.nodeName = some node)).map nameOf).mergeSort
    (fun a b => decide (a ≤ b))

/-- The claims of a driver's bound volumes that are used on a node, with their users. -/
def usedClaims (c : Conduct) (m : Monitor) (node : String) : List (ClaimKey × List String) :=
  ((m.cached .volume).objects.filter (fun v : Volume => v.isManagedBy c.driver && v.isBound)
    |>.filterMap (fun v : Volume => v.claim.map (fun key => (key, usersOf m node key)))).filter
    (fun e => e.2 ≠ [])

/-- The claims that are used on a node, as long as all of them are cached. -/
def affectedClaims (c : Conduct) (m : Monitor) (node : String) :
    Except NodeError (List AffectedClaim) :=
  (usedClaims c m node).mapM (fun e =>
    match m.claim? e.1 with
    | some claim => .ok ⟨claim, e.2⟩
    | none => .error (.claimNotFound e.1))

/-! ### Notices -/

/-- The warning about a claim on a broken node. -/
def failureNotice (node : String) (a : AffectedClaim) : Notice :=
  ⟨a.claim.subject, .warning, .nodeFailed,
    "Pods: [ " ++ String.intercalate " " a.pods ++ " ] consuming PVC: " ++ nameOf a.claim ++
      " in namespace: " ++ a.claim.key.ns ++ " are now on a failed node: " ++ node⟩

/-- What a claim is told when its node is back. -/
def recoveryNotice (node : String) (a : AffectedClaim) : Notice :=
  ⟨a.claim.subject, .normal, .nodeRecovered, "Node: " ++ node ++ " recovered"⟩

/-! ### Passes -/

/-- Tells each claim in turn. -/
def tellAll (notice : AffectedClaim → Notice) : List AffectedClaim → Attempt NodeError Unit
  | [] => return ()
  | a :: rest => do
    (publish (notice a)).mapError (.notify a.claim.key)
    tellAll notice rest

/-- A pass over the claims that are used on a node. -/
def pass (c : Conduct) (node : String) (notice : AffectedClaim → Notice) :
    Attempt NodeError Unit := do
  let affected ← affectedClaims c (← Process.look) node
  tellAll notice affected

/-- Warns the claims on a node. -/
def markFailed (c : Conduct) (node : String) : Attempt NodeError Unit :=
  pass c node (failureNotice node)

/-- Tells the claims on a node that it is back. -/
def notifyRecovered (c : Conduct) (node : String) : Attempt NodeError Unit :=
  pass c node (recoveryNotice node)

end Node

end StorageHealth
