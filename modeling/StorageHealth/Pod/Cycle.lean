import StorageHealth.Check
import StorageHealth.Schedule
import StorageHealth.Pod.Volumes

/-!
# Looking after a pod

All volumes a pod mounts are checked one after the other, whatever becomes of the others.  If some
check fails, the pod as a whole counts as failed; it is looked after again in either case.
-/

namespace StorageHealth

/-- Checks of some volumes of a pod failed. -/
structure PodError where
  pod : String
  failed : Nat
  total : Nat
  deriving DecidableEq, Repr

/-- The text of a pod error. -/
def PodError.message (e : PodError) : String :=
  toString e.failed ++ " of " ++ toString e.total ++ " volumes of pod " ++ e.pod ++ " failed"

namespace Pod

/-- Checks one volume of a pod.  A volume that is gone, being deleted or not bound is skipped; the
answer is whether the driver was asked. -/
def checkVolume (c : Conduct) (p : Pod) (x : PodVolume) : Attempt CheckError Bool := do
  if x.isValid then
    match (← Process.look).volume? x.volume with
    | none => return false
    | some v =>
      if isDeleting v || !v.isBound then return false
      else
        let _ ← Check.mount c v p
        return true
  else return false

/-- Checks several volumes of a pod, and counts the failures. -/
def checkVolumes (c : Conduct) (p : Pod) : List PodVolume → Process Nat
  | [] => return 0
  | x :: rest => do
    let result ← (checkVolume c p x).run
    let others ← checkVolumes c p rest
    return (if result.isOk then 0 else 1) + others

/-- Looks after a pod. -/
def cycle (c : Conduct) (p : Pod) : Attempt PodError Schedule := do
  if isDeleting p || !p.isScheduled then return .onChange
  else
    let items := p.volumes c (← Process.look)
    let failed ← checkVolumes c p items
    if failed = 0 then return .after c.monitorInterval
    else throw ⟨nameOf p, failed, items.length⟩

/-- When to look again after a failure. -/
def afterFailure (c : Conduct) : Schedule := .after c.monitorInterval

end Pod

end StorageHealth
