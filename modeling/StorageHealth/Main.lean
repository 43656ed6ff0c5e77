import StorageHealth.Settings.Flags
import StorageHealth.Plan

/-!
# The command line

The first word names the role, `controller` or `agent`, the others are its flags.  The program
judges the settings and says what the role would do with a driver that can do everything it needs,
one duty a line; for the controller that depends on whether the driver can list.
-/

namespace StorageHealth

/-- A duty as a line of text. -/
def Duty.shown : Duty → String
  | .feed query => "watch " ++ query.shown
  | .sweep => "check all volumes at once"
  | .care objects => "watch " ++ objects.query.shown ++ " and check one by one"

namespace Main

/-- How a run of the program ends: what it prints and its exit code. -/
structure Ending where
  lines : List String
  code : UInt32

/-- The code for a line that cannot be read. -/
def misused (e : UsageError) : Ending := ⟨["error: " ++ e.message], 2⟩

/-- The code for settings that cannot be worked with. -/
def refused (e : SettingsError) : Ending := ⟨["error: " ++ e.message], 1⟩

/-- The lines about a plan. -/
def linesOf (heading : String) (p : Plan) : List String :=
  heading :: p.duties.map (fun d => "  " ++ d.shown)

/-- A driver that can do what its role needs. -/
def able (listing : Bool) : KnownDriver := ⟨"", ⟨true, listing, true, true, true, true⟩⟩

/-- The flags of a role, one a line. -/
def help {σ : Type} (flags : List (Flag σ)) : Ending :=
  ⟨flags.map (fun f => "--" ++ f.name) ++ ["--" ++ CommandLine.helpName], 0⟩

/-- Runs the program on a command line; the node may be named by the surroundings. -/
def run (nodeName : Option String) : List String → Ending
  | "controller" :: line =>
    match ControllerSettings.read line with
    | .error .helpRequested => help ControllerSettings.flags
    | .error e => misused e
    | .ok s =>
      match s.check with
      | .error e => refused e
      | .ok () => ⟨linesOf "with a driver that lists volumes:" (Plan.controller s (able true)) ++
          linesOf "with any other driver:" (Plan.controller s (able false)), 0⟩
  | "agent" :: line =>
    match AgentSettings.read nodeName line with
    | .error .helpRequested => help AgentSettings.flags
    | .error e => misused e
    | .ok s =>
      match s.check with
      | .error e => refused e
      | .ok () => ⟨linesOf ("on node " ++ s.nodeName ++ ":") (Plan.agent s (able false)), 0⟩
  | _ => ⟨["usage: (controller | agent) FLAGS"], 2⟩

end Main

end StorageHealth

/-- The program. -/
def main (line : List String) : IO UInt32 := do
  let ending := StorageHealth.Main.run (← IO.getEnv "NODE_NAME") line
  let out ← if ending.code = 0 then IO.getStdout else IO.getStderr
  ending.lines.forM (fun l => out.putStrLn l)
  return ending.code
