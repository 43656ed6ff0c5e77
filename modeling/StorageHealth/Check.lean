import StorageHealth.Check.Error

/-!
# Checking volumes

A check asks the driver how a volume is and reports the answer.  The controller reports on the claim
of the volume, an agent on the pod that mounts it, and a sweep asks for all volumes at once.

An abnormal condition is always published as a warning.  A normal one is published as a recovery
only while a warning about the same subject is on record that was not answered yet (`report`).
-/

namespace StorageHealth

/-- A process that may fail with an error of type `ε`. -/
abbrev Attempt (ε α : Type) := ExceptT ε Process α

/-- Publishes a notice. -/
def publish (n : Notice) : Attempt PublishError Unit := ExceptT.mk (Process.perform (.publish n))

/-- Turns the errors of an attempt into others. -/
def Attempt.mapError {ε ε' α : Type} (f : ε → ε') (a : Attempt ε α) : Attempt ε' α :=
  ExceptT.adapt f a

namespace Check

/-! ### What is needed -/

/-- The handle of a volume that may be checked. -/
def handleOf (c : Conduct) (v : Volume) : Except CheckError String :=
  if !v.isManagedBy c.driver then .error (.driverMismatch (nameOf v) c.driver)
  else if !v.isBound then .error (.notBound (nameOf v))
  else if v.handle.getD "" = "" then .error (.emptyHandle (nameOf v))
  else .ok (v.handle.getD "")

/-- The claim a volume is bound to. -/
def claimOf (m : Monitor) (v : Volume) : Except CheckError Claim :=
  match v.claim with
  | none => .error (.missingClaimRef (nameOf v))
  | some key =>
    match m.claim? key with
    | none => .error (.claimNotFound key)
    | some claim => .ok claim

/-- The call about a volume that a pod mounts. -/
def mountCall (c : Conduct) (v : Volume) (p : Pod) (handle : String) : Except CheckError Call := do
  match uidOf p with
  | none => .error (.missingUid "pod" (nameOf p))
  | some uid =>
    let path := MountPath.volumePath c.kubeletRoot uid (nameOf v) v.isBlock
    if c.stages then
      match MountPath.stagingPath c.kubeletRoot (nameOf v) with
      | .ok staging => .ok (.node handle path staging)
      | .error e => .error (.path e)
    else .ok (.node handle path "")

/-! ### Reporting -/

/-- The warning about a subject. -/
def warning (s : Subject) (message : String) : Notice := ⟨s, .warning, .volumeAbnormal, message⟩

/-- The recovery of a subject. -/
def recovery (s : Subject) : Notice := ⟨s, .normal, .volumeNormal, Condition.recoveryMessage⟩

/-- Reports an abnormal condition; the next normal one counts as a recovery again. -/
def reportAbnormal (s : Subject) (uid message : String) : Attempt CheckError Unit := do
  Process.change (fun m =>
    { m with warnings := m.warnings.clearRecovered uid .volumeAbnormal })
  (publish (warning s message)).mapError .publish

/-- Reports a normal condition, if anybody waits for it. -/
def reportNormal (s : Subject) (uid : String) : Attempt CheckError Unit := do
  if (← Process.look).warnings.needsRecovery uid .volumeAbnormal then
    (publish (recovery s)).mapError .publish
    Process.change (fun m =>
      { m with warnings := m.warnings.markRecovered uid .volumeAbnormal })

/-- Reports a condition on a subject. -/
def report (s : Subject) (condition : Condition) : Attempt CheckError Unit :=
  match s.uid with
  | none => throw (.missingUid "subject" (s.name.getD ""))
  | some uid =>
    if condition.abnormal then reportAbnormal s uid condition.message else reportNormal s uid

/-! ### Checks -/

/-- Makes a call about a volume. -/
def ask (c : Conduct) (v : Volume) (call : Call) : Attempt CheckError Condition := do
  let outcome ← Process.perform (.probe call c.timeout)
  Outcome.orError (nameOf v) c.timeout outcome

/-- Checks a volume from the controller. -/
def controller (c : Conduct) (v : Volume) : Attempt CheckError Condition := do
  let handle ← handleOf c v
  let claim ← claimOf (← Process.look) v
  let condition ← ask c v (.controller handle)
  report claim.subject condition
  return condition

/-- Checks a volume where a pod mounts it. -/
def mount (c : Conduct) (v : Volume) (p : Pod) : Attempt CheckError Condition := do
  let handle ← handleOf c v
  let call ← mountCall c v p handle
  let condition ← ask c v call
  report p.subject condition
  return condition

/-- Reports what a listing says about a volume; the answer is whether that worked out. -/
def reportListed (c : Conduct) (conditions : Conditions) (v : Volume) : Process Bool := do
  match handleOf c v with
  | .error _ => return false
  | .ok handle =>
    match Table.get? conditions handle with
    | none => return false
    | some condition =>
      match claimOf (← Process.look) v with
      | .error _ => return false
      | .ok claim => return (← (report claim.subject condition).run).isOk

/-- Reports what a listing says about several volumes, and counts those that worked out. -/
def reportAll (c : Conduct) (conditions : Conditions) : List Volume → Process Nat
  | [] => return 0
  | v :: rest => do
    let reported ← reportListed c conditions v
    let others ← reportAll c conditions rest
    return (if reported then 1 else 0) + others

/-- The name under which a listing is late. -/
def everyVolume : String := "*"

/-- Lists all conditions once and reports on the given volumes. -/
def sweep (c : Conduct) (volumes : List Volume) : Attempt CheckError Nat := do
  let outcome ← Process.perform (.listing c.timeout)
  let conditions ← Outcome.orError everyVolume c.timeout outcome
  reportAll c conditions volumes

/-- Sweeps all cached volumes. -/
def sweepCached (c : Conduct) : Attempt CheckError Nat := do
  sweep c ((← Process.look).cached .volume).objects

end Check

end StorageHealth
