import StorageHealth.Proofs.Duty.Calls

/-!
# The gate at start-up

A controller asks its driver what it can do and stops if anything it needs is missing.  What counts
are the features that are advertised (`CapabilityList.Advertises`), in whatever order, how often and
among whatever else.

`Startup.controller_eq` says what starting up comes to for given replies, and everything else is
read off from it.  `Startup.gate` puts it together with the calls of the duties that follow: who
passes the gate only ever uses the calls that were advertised, although one of them is never tested
for and only follows from the other tests.
-/

namespace StorageHealth

open Wire Talk Startup

/-! ## What is advertised -/

namespace Wire

/-- A feature is in a list. -/
def CapabilityList.Advertises (l : CapabilityList) (number : Int32) : Prop :=
  ∃ c ∈ l.capabilities, c.feature = some ⟨number⟩

lemma CapabilityList.has_iff {l : CapabilityList} {number : Int32} :
    l.has number = true ↔ l.Advertises number := by
  simp [CapabilityList.has, CapabilityList.Advertises]

/-- What is found in a list only depends on what is advertised. -/
lemma CapabilityList.has_congr {l l' : CapabilityList} {number : Int32}
    (h : l'.Advertises number ↔ l.Advertises number) : l'.has number = l.has number := by
  rw [Bool.eq_iff_iff, CapabilityList.has_iff, CapabilityList.has_iff, h]

end Wire

/-- A controller can do its work with these features of a plugin and of its controller service. -/
def Startup.Supported (plugin service : CapabilityList) : Prop :=
  plugin.Advertises controllerServiceFeature ∧ service.Advertises controllerConditionFeature ∧
    (service.Advertises listVolumesFeature ∨ service.Advertises getVolumeFeature)

namespace Gap

/-- What a controller needs, in the order in which it is looked for. -/
def controllerOrder : List Gap := [controllerService, controllerCondition, volumeCalls]

/-- There is a gap in what is advertised. -/
def Lacking (plugin service : CapabilityList) : Gap → Prop
  | controllerService => ¬ plugin.Advertises controllerServiceFeature
  | controllerCondition => ¬ service.Advertises controllerConditionFeature
  | volumeCalls => ¬ (service.Advertises listVolumesFeature ∨
      service.Advertises getVolumeFeature)
  | nodeCondition => False

/-- A gap is the first one that a controller comes upon. -/
def First (plugin service : CapabilityList) (g : Gap) : Prop :=
  ∃ before after, controllerOrder = before ++ g :: after ∧ g.Lacking plugin service ∧
    ∀ g' ∈ before, ¬ g'.Lacking plugin service

/-- Whether there is a gap in what is advertised. -/
def lacks (plugin service : CapabilityList) : Gap → Bool
  | controllerService => !plugin.has controllerServiceFeature
  | controllerCondition => !service.has controllerConditionFeature
  | volumeCalls => !(service.has listVolumesFeature || service.has getVolumeFeature)
  | nodeCondition => false

lemma lacks_iff {plugin service : CapabilityList} {g : Gap} :
    g.lacks plugin service = true ↔ g.Lacking plugin service := by
  cases g <;> simp [lacks, Lacking, ← CapabilityList.has_iff]

/-- The first gap is found by looking for one thing after the other. -/
lemma find?_eq_some_iff {plugin service : CapabilityList} {g : Gap} :
    controllerOrder.find? (lacks plugin service) = some g ↔ First plugin service g := by
  have hnot : ∀ g' : Gap, (!g'.lacks plugin service) = true ↔ ¬ g'.Lacking plugin service :=
    fun g' => by rw [Bool.not_eq_true', ← lacks_iff, Bool.not_eq_true]
  simp only [List.find?_eq_some_iff_append, First, lacks_iff, hnot]
  constructor
  · rintro ⟨hlacking, before, after, hsplit, hbefore⟩
    exact ⟨before, after, hsplit, hlacking, hbefore⟩
  · rintro ⟨before, after, hsplit, hlacking, hbefore⟩
    exact ⟨hlacking, before, after, hsplit, hbefore⟩

end Gap

/-! ## What is resolved -/

namespace Capabilities

/-- What is learned from the features that a plugin and its controller service advertise; without a
controller service, nobody asks for the features of one. -/
def resolved (plugin service : CapabilityList) : Capabilities :=
  if plugin.has controllerServiceFeature then
    { none with
      controllerService := true
      listVolumes := service.has listVolumesFeature
      getVolume := service.has getVolumeFeature
      controllerCondition := service.has controllerConditionFeature }
  else none

variable {plugin service : CapabilityList}

/-- The first gap in what is resolved is the first one in what is advertised. -/
lemma controllerGap_resolved : (resolved plugin service).controllerGap =
    Gap.controllerOrder.find? (Gap.lacks plugin service) := by
  simp only [resolved, Gap.controllerOrder, List.find?, Gap.lacks]
  cases plugin.has controllerServiceFeature with
  | false => rfl
  | true =>
    cases service.has controllerConditionFeature with
    | false => rfl
    | true =>
      cases service.has listVolumesFeature with
      | true => rfl
      | false => cases service.has getVolumeFeature <;> rfl

lemma supportsController_resolved_iff :
    (resolved plugin service).supportsController = true ↔ Supported plugin service := by
  rw [Supported, ← CapabilityList.has_iff, ← CapabilityList.has_iff, ← CapabilityList.has_iff,
    ← CapabilityList.has_iff, resolved]
  cases plugin.has controllerServiceFeature with
  | false => simp [supportsController, none]
  | true => simp [supportsController, and_comm]

lemma listVolumes_resolved (h : plugin.Advertises controllerServiceFeature) :
    (resolved plugin service).listVolumes = service.has listVolumesFeature := by
  rw [resolved, if_pos (CapabilityList.has_iff.mpr h)]

/-- What is resolved only depends on what is advertised. -/
lemma resolved_congr {plugin' service' : CapabilityList}
    (hplugin : ∀ number, plugin'.Advertises number ↔ plugin.Advertises number)
    (hservice : ∀ number, service'.Advertises number ↔ service.Advertises number) :
    resolved plugin' service' = resolved plugin service := by
  simp only [resolved, CapabilityList.has_congr (hplugin _), CapabilityList.has_congr (hservice _)]

end Capabilities

/-! ## The session at start-up -/

/-- A driver introduces itself: these replies have its name, the features of the plugin and, if
there is a controller service, the features of that. -/
structure Startup.Introduces (replies : List Reply) (name : String)
    (plugin service : CapabilityList) : Prop where
  named : ∃ info : PluginInfo,
    (replies.headD .exhausted).decode .pluginInfo = .ok info ∧ info.name = name
  ofPlugin : (replies.tail.headD .exhausted).decode .pluginCapabilities = .ok plugin
  ofService : plugin.Advertises controllerServiceFeature →
    (replies.tail.tail.headD .exhausted).decode .controllerCapabilities = .ok service

namespace Talk

variable {α β : Type}

/-- A request without content. -/
def plain (method : Method) : Request := ⟨method, Message.encode ({} : EmptyRequest)⟩

/-- A session goes on with what its first part found. -/
lemma bind_of_ok {t : Talk α} {a : α} {replies : List Reply} (h : (t replies).result = .ok a)
    (next : α → Talk β) : (t >>= next) replies =
      ⟨(next a (t replies).rest).result, (t replies).sent ++ (next a (t replies).rest).sent,
        (next a (t replies).rest).rest⟩ := by
  change bind t next replies = _
  rw [bind, h]

/-- A session goes on with the answer to its first request. -/
lemma call_bind_of_ok {method : Method} [Message α] {a : α} {replies : List Reply}
    (h : (replies.headD .exhausted).decode method = .ok a) (next : α → Talk β) :
    (call method ({} : EmptyRequest) >>= next) replies =
      ⟨(next a replies.tail).result, plain method :: (next a replies.tail).sent,
        (next a replies.tail).rest⟩ :=
  bind_of_ok (t := call method ({} : EmptyRequest)) h next

/-- The requests that learn to know a driver. -/
def introduction (plugin : CapabilityList) : List Request :=
  plain .pluginInfo :: plain .pluginCapabilities ::
    if plugin.has controllerServiceFeature then [plain .controllerCapabilities] else []

lemma map_method_introduction (plugin : CapabilityList) :
    (introduction plugin).map Request.method = .pluginInfo :: .pluginCapabilities ::
      if plugin.has controllerServiceFeature then [.controllerCapabilities] else [] := by
  rw [introduction]
  split <;> rfl

variable {replies : List Reply} {name : String} {plugin service : CapabilityList}

lemma driverName_eq {info : PluginInfo}
    (h : (replies.headD .exhausted).decode .pluginInfo = .ok info) :
    driverName replies = ⟨.ok info.name, [plain .pluginInfo], replies.tail⟩ :=
  call_bind_of_ok h _

/-- Only a plugin with a controller service is asked about that. -/
lemma controllerCapabilities_eq
    (hplugin : (replies.headD .exhausted).decode .pluginCapabilities = .ok plugin)
    (hreplies : plugin.Advertises controllerServiceFeature →
      (replies.tail.headD .exhausted).decode .controllerCapabilities = .ok service) :
    (controllerCapabilities replies).result = .ok (.resolved plugin service) ∧
      (controllerCapabilities replies).sent = plain .pluginCapabilities ::
        if plugin.has controllerServiceFeature then [plain .controllerCapabilities] else [] := by
  rw [controllerCapabilities, call_bind_of_ok hplugin, Capabilities.resolved]
  cases hservice : plugin.has controllerServiceFeature with
  | false => exact ⟨rfl, rfl⟩
  | true =>
    have hreply := hreplies (CapabilityList.has_iff.mp hservice)
    simp only [if_true]
    rw [call_bind_of_ok hreply]
    exact ⟨rfl, rfl⟩

/-- What is learned from a driver that introduces itself. -/
lemma introduce_eq (h : Introduces replies name plugin service) :
    (introduce controllerCapabilities replies).result =
        .ok ⟨name, .resolved plugin service⟩ ∧
      (introduce controllerCapabilities replies).sent = introduction plugin := by
  obtain ⟨info, hinfo, rfl⟩ := h.named
  have hname := driverName_eq hinfo
  obtain ⟨hresult, hsent⟩ := controllerCapabilities_eq h.ofPlugin h.ofService
  have hfirst : (driverName replies).result = .ok info.name := by rw [hname]
  rw [introduce, bind_of_ok hfirst, hname]
  dsimp only
  rw [bind_of_ok hresult, hsent, introduction]
  exact ⟨rfl, congrArg (plain .pluginInfo :: ·) (List.append_nil _)⟩

end Talk

/-! ## Passing the gate -/

namespace Startup

variable {world : Surroundings} {s : ControllerSettings} {name : String}
  {plugin service : CapabilityList}

/-- What starting a controller comes to when its settings are fine, a driver can be reached and that
driver introduces itself. -/
lemma controller_eq (hsettings : s.check = .ok ())
    (hconnect : Address.connect world.socket s.common.address = .ok ())
    (h : Introduces world.replies name plugin service) : Startup.controller world s =
      ⟨match Gap.controllerOrder.find? (Gap.lacks plugin service) with
        | some g => .error (.missingCapability g)
        | none =>
          if world.readable s.common.kubeconfig then .ok ⟨name, .resolved plugin service⟩
          else .error .kubeconfig,
        Talk.introduction plugin⟩ := by
  obtain ⟨hresult, hsent⟩ := Talk.introduce_eq h
  rw [controller, hsettings]
  dsimp only
  rw [meet, hconnect]
  cases hfirst : Gap.controllerOrder.find? (Gap.lacks plugin service) with
  | some g => simp only [hresult, hsent, Capabilities.controllerGap_resolved, hfirst]
  | none => simp only [hresult, hsent, Capabilities.controllerGap_resolved, hfirst]

/-- What is named as missing is what is found first. -/
lemma result_eq_missingCapability_iff (hsettings : s.check = .ok ())
    (hconnect : Address.connect world.socket s.common.address = .ok ())
    (h : Introduces world.replies name plugin service) {g : Gap} :
    (Startup.controller world s).result = .error (.missingCapability g) ↔
      Gap.controllerOrder.find? (Gap.lacks plugin service) = some g := by
  rw [controller_eq hsettings hconnect h]
  cases Gap.controllerOrder.find? (Gap.lacks plugin service) with
  | some g' => simp
  | none =>
    dsimp only
    split <;> simp

/-- What is promised of starting a controller with a driver that can do `caps`. -/
structure Gate (world : Surroundings) (s : ControllerSettings) (name : String)
    (plugin service : CapabilityList) (caps : Capabilities) : Prop where
  /-- The capabilities are those that are learned from the replies, -/
  resolved : (Talk.introduce Talk.controllerCapabilities world.replies).result = .ok ⟨name, caps⟩
  /-- and they support monitoring when everything that is needed is advertised. -/
  supports_iff : caps.supportsController = true ↔ Supported plugin service
  /-- Nothing is found missing exactly when everything that is needed is advertised, -/
  passes_iff : (∀ g, (controller world s).result ≠ .error (.missingCapability g)) ↔
    Supported plugin service
  /-- and then only the cluster can get in the way. -/
  passed : Supported plugin service → (controller world s).result =
    if world.readable s.common.kubeconfig then .ok ⟨name, caps⟩ else .error .kubeconfig
  /-- Otherwise the first thing is named that is missing. -/
  fails_iff : ∀ g, (controller world s).result = .error (.missingCapability g) ↔
    g.First plugin service
  /-- A plugin with a controller service is asked for the features of that, -/
  asked : plugin.Advertises controllerServiceFeature →
    (controller world s).sent.map Request.method =
      [.pluginInfo, .pluginCapabilities, .controllerCapabilities]
  /-- and no other is. -/
  unasked : ¬ plugin.Advertises controllerServiceFeature →
    (controller world s).sent.map Request.method = [.pluginInfo, .pluginCapabilities]
  /-- After the gate, every request about volumes is a listing that was advertised or a call about a
  single volume that was advertised. -/
  uses : Supported plugin service → ∀ duty ∈ (Plan.controller s ⟨name, caps⟩).duties, ∀ ds,
    duty.Works (Plan.controller s ⟨name, caps⟩).conduct ds → ∀ q ∈ Deed.inquiries ds,
    ∀ replies, ∀ r ∈ q.requests replies,
    (r.method = .listVolumes ∧ service.Advertises listVolumesFeature) ∨
      (r.method = .getVolume ∧ service.Advertises getVolumeFeature)
  /-- Replies that advertise the same features make no difference. -/
  independent : ∀ replies plugin' service', Introduces replies name plugin' service' →
    (∀ number, plugin'.Advertises number ↔ plugin.Advertises number) →
    (∀ number, service'.Advertises number ↔ service.Advertises number) →
    controller { world with replies := replies } s = controller world s

/-- What a controller asks about volumes is a listing if the driver can list, and single calls
otherwise. -/
lemma calls_controller {known : KnownDriver} {duty : Duty}
    (h : duty ∈ (Plan.controller s known).duties) {method : Method}
    (hmethod : method ∈ Plan.calls duty) :
    method = .listVolumes ∧ known.capabilities.listVolumes = true ∨
      method = .getVolume ∧ known.capabilities.listVolumes = false := by
  have hfeed : ∀ query, method ∉ Plan.calls (.feed query) := fun _ => List.not_mem_nil
  have hnodes : method ∉ Plan.calls (.care .nodes) := List.not_mem_nil
  have hvolumes : duty ∈ Plan.volumeDuties (.ofCapabilities known.capabilities) := by
    rcases List.mem_append.mp h with h | h
    · rcases List.mem_append.mp h with h | h
      · rcases List.mem_pair.mp h with rfl | rfl
        · exact absurd hmethod (hfeed _)
        · exact absurd hmethod (hfeed _)
      · exact h
    · split at h
      · rcases List.mem_pair.mp h with rfl | rfl
        · exact absurd hmethod (hfeed _)
        · exact absurd hmethod hnodes
      · cases h
  cases hlist : known.capabilities.listVolumes with
  | true =>
    rw [CheckMode.ofCapabilities, if_pos hlist] at hvolumes
    rcases List.mem_pair.mp hvolumes with rfl | rfl
    · exact absurd hmethod (hfeed _)
    · exact Or.inl ⟨List.mem_singleton.mp hmethod, rfl⟩
  | false =>
    rw [CheckMode.ofCapabilities, hlist, if_neg Bool.false_ne_true] at hvolumes
    rw [List.mem_singleton.mp hvolumes] at hmethod
    exact Or.inr ⟨List.mem_singleton.mp hmethod, rfl⟩

/-- After the gate, every request about volumes was advertised. -/
lemma advertised_of_requested (hsupported : Supported plugin service) {duty : Duty}
    (hduty : duty ∈ (Plan.controller s ⟨name, .resolved plugin service⟩).duties)
    {ds : List Deed}
    (hworks : duty.Works (Plan.controller s ⟨name, .resolved plugin service⟩).conduct ds)
    {q : Inquiry} (hq : q ∈ Deed.inquiries ds) {replies : List Reply} {r : Request}
    (hr : r ∈ q.requests replies) :
    (r.method = .listVolumes ∧ service.Advertises listVolumesFeature) ∨
      (r.method = .getVolume ∧ service.Advertises getVolumeFeature) := by
  have hmethod : r.method = q.method := Inquiry.method_of_requested hr
  have hcalls := calls_controller hduty (hworks.uses q hq)
  rw [Capabilities.listVolumes_resolved hsupported.1, ← hmethod] at hcalls
  rcases hcalls with ⟨hlisting, hlist⟩ | ⟨hsingle, hnolist⟩
  · exact Or.inl ⟨hlisting, CapabilityList.has_iff.mp hlist⟩
  · -- Nobody tests for single calls, but a driver that supports neither would not get here.
    refine Or.inr ⟨hsingle, hsupported.2.2.resolve_left fun hlist => ?_⟩
    rw [CapabilityList.has_iff.mpr hlist] at hnolist
    cases hnolist

/-- Without a gap a driver supports what a controller does. -/
lemma find?_eq_none_iff : Gap.controllerOrder.find? (Gap.lacks plugin service) = none ↔
    Supported plugin service := by
  rw [← Capabilities.controllerGap_resolved, Capabilities.controllerGap_eq_none_iff,
    Capabilities.supportsController_resolved_iff]

/-- A controller with reasonable settings and a driver within reach passes the gate exactly when all
that it needs is advertised, and then only uses what is advertised. -/
theorem gate (hsettings : s.check = .ok ())
    (hconnect : Address.connect world.socket s.common.address = .ok ())
    (h : Introduces world.replies name plugin service) :
    ∃ caps, Gate world s name plugin service caps := by
  have hstart := controller_eq hsettings hconnect h
  have hresult : ∀ g, (controller world s).result = .error (.missingCapability g) ↔
      Gap.controllerOrder.find? (Gap.lacks plugin service) = some g :=
    fun g => result_eq_missingCapability_iff hsettings hconnect h
  have hmethods : (controller world s).sent.map Request.method =
      .pluginInfo :: .pluginCapabilities ::
        if plugin.has controllerServiceFeature then [.controllerCapabilities] else [] := by
    rw [hstart]
    exact Talk.map_method_introduction plugin
  refine ⟨.resolved plugin service, ?_⟩
  exact {
    resolved := (Talk.introduce_eq h).1
    supports_iff := Capabilities.supportsController_resolved_iff
    passes_iff := by
      simp only [ne_eq, hresult, ← Option.eq_none_iff_forall_ne_some]
      exact find?_eq_none_iff
    passed := by
      intro hsupported
      rw [hstart, find?_eq_none_iff.mpr hsupported]
    fails_iff := fun g => (hresult g).trans Gap.find?_eq_some_iff
    asked := by
      intro hservice
      rw [hmethods, CapabilityList.has_iff.mpr hservice, if_pos rfl]
    unasked := by
      intro hservice
      rw [hmethods, if_neg fun hhas => hservice (CapabilityList.has_iff.mp hhas)]
    uses := fun hsupported duty hduty ds hworks q hq replies r hr =>
      advertised_of_requested hsupported hduty hworks hq hr
    independent := by
      intro replies plugin' service' h' hplugin hservice
      have hstart' : controller { world with replies := replies } s = _ :=
        controller_eq hsettings hconnect h'
      rw [hstart', hstart, ← Capabilities.controllerGap_resolved,
        ← Capabilities.controllerGap_resolved, Capabilities.resolved_congr hplugin hservice,
        Talk.introduction, Talk.introduction, CapabilityList.has_congr (hplugin _)] }

end Startup

/-! ## A driver without listings -/

namespace SingleCalls

/-- The driver listens next to the controller. -/
def settings : ControllerSettings :=
  { ControllerSettings.default with common := { CommonSettings.default with address := "socket" } }

/-- The plugin has a controller service. -/
def plugin : CapabilityList := ⟨[⟨some ⟨1⟩⟩]⟩

/-- The service answers about single volumes, which it says twice, and tells conditions; the rest is
of an unknown kind or has an unknown number. -/
def service : CapabilityList := ⟨[⟨some ⟨12⟩⟩, ⟨none⟩, ⟨some ⟨99⟩⟩, ⟨some ⟨11⟩⟩, ⟨some ⟨12⟩⟩]⟩

/-- What the driver replies. -/
def replies : List Reply :=
  [.body [10, 3, 99, 115, 105], .body [10, 4, 10, 2, 8, 1],
    .body [10, 4, 10, 2, 8, 12, 10, 0, 10, 4, 10, 2, 8, 99, 10, 4, 10, 2, 8, 11, 10, 4, 10, 2, 8,
      12]]

/-- The driver can be reached, and the cluster too. -/
def world : Startup.Surroundings := ⟨"socket", replies, fun _ => true⟩

lemma introduces : Introduces world.replies "csi" plugin service where
  named := ⟨⟨"csi", ""⟩, by decide +kernel, rfl⟩
  ofPlugin := by decide +kernel
  ofService := fun _ => by decide +kernel

/-- The driver passes the gate, and was asked all that there is to ask. -/
theorem passes_without_listing : settings.check = .ok () ∧
    Address.connect world.socket settings.common.address = .ok () ∧
    Introduces world.replies "csi" plugin service ∧
    (∀ g, (Startup.controller world settings).result ≠ .error (.missingCapability g)) ∧
    (Startup.controller world settings).sent.map Request.method =
      [.pluginInfo, .pluginCapabilities, .controllerCapabilities] := by
  have hsettings : settings.check = .ok () := rfl
  have hconnect : Address.connect world.socket settings.common.address = .ok () := by
    decide +kernel
  obtain ⟨caps, hgate⟩ := Startup.gate hsettings hconnect introduces
  have hservice : plugin.Advertises controllerServiceFeature := ⟨_, List.mem_cons_self, rfl⟩
  have hcondition : service.Advertises controllerConditionFeature :=
    CapabilityList.has_iff.mp (by decide)
  have hsingle : service.Advertises getVolumeFeature := CapabilityList.has_iff.mp (by decide)
  exact ⟨hsettings, hconnect, introduces,
    hgate.passes_iff.mpr ⟨hservice, hcondition, Or.inr hsingle⟩, hgate.asked hservice⟩

end SingleCalls

end StorageHealth
