import StorageHealth.Settings
import StorageHealth.CommandLine
import StorageHealth.Text.Count
import StorageHealth.Span.Reader

/-!
# The flags of the two roles

Each flag sets one field of the settings.  `ControllerSettings.read` and `AgentSettings.read` turn a
command line into settings; the settings themselves are not judged here.
-/

namespace StorageHealth

namespace Flag

variable {σ : Type}

/-- A flag with any text as its value. -/
def text (name : String) (set : String → σ → σ) : Flag σ := ⟨name, .value (fun v => .ok (set v))⟩

/-- A flag with a path as its value; nothing is no path. -/
def path (name : String) (set : String → σ → σ) : Flag σ :=
  ⟨name, .value (fun v => if v = "" then .error .missingValue else .ok (set v))⟩

/-- A flag whose value has to be read first. -/
def reading {α : Type} (read? : String → Option α) (name : String) (set : α → σ → σ) : Flag σ :=
  ⟨name, .value (fun v => match read? v with
    | some a => .ok (set a)
    | none => .error .malformedValue)⟩

/-- A flag with a span of time as its value. -/
def span (name : String) (set : Span → σ → σ) : Flag σ := reading Span.read? name set

/-- A flag with a count as its value. -/
def count (name : String) (set : Nat → σ → σ) : Flag σ := reading Text.count? name set

/-- A flag that sets a part of the settings. -/
def within {τ : Type} (update : (σ → σ) → τ → τ) (f : Flag σ) : Flag τ :=
  match f.effect with
  | .switch set => ⟨f.name, .switch (update set)⟩
  | .value read => ⟨f.name, .value (fun v => (read v).map update)⟩

end Flag

/-- The flags of both roles. -/
def CommonSettings.flags : List (Flag CommonSettings) :=
  [.text "csi-address" (fun v s => { s with address := v }),
    .span "timeout" (fun v s => { s with timeout := v }),
    .span "monitor-interval" (fun v s => { s with monitorInterval := v }),
    .count "worker-threads" (fun v s => { s with workers := v }),
    .path "kubeconfig" (fun v s => { s with kubeconfig := some v })]

/-- The flags of the controller. -/
def ControllerSettings.flags : List (Flag ControllerSettings) :=
  CommonSettings.flags.map (.within (fun f s => { s with common := f s.common })) ++
    [.span "list-volumes-interval" (fun v s => { s with sweepInterval := v }),
      .span "volume-list-add-interval" (fun v s => { s with volumeResync := v }),
      .span "node-list-add-interval" (fun v s => { s with nodeResync := v }),
      .span "node-not-ready-threshold" (fun v s => { s with notReadyThreshold := v }),
      ⟨"enable-node-watcher", .switch (fun s => { s with watchNodes := true })⟩]

/-- The flags of an agent. -/
def AgentSettings.flags : List (Flag AgentSettings) :=
  CommonSettings.flags.map (.within (fun f s => { s with common := f s.common })) ++
    [.path "kubelet-root-path" (fun v s => { s with kubeletRoot := v }),
      .text "node-name" (fun v s => { s with nodeName := v })]

/-- The settings of a controller that is started with a command line. -/
def ControllerSettings.read (line : List String) : Except UsageError ControllerSettings :=
  CommandLine.read flags default line

/-- The settings of an agent that is started with a command line.  The node may be named by its
surroundings; the command line overrules them. -/
def AgentSettings.read (nodeName : Option String) (line : List String) :
    Except UsageError AgentSettings :=
  CommandLine.read flags (default nodeName) line

end StorageHealth
