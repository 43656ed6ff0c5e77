import StorageHealth.Startup
import StorageHealth.Proofs.Wire.Unknown

/-!
# What sessions overlook

A driver with more to say than the monitor asks for sends replies with fields that are not declared.
`Talk.Overlooks` says that a session does not notice when such fields are taken out of the replies:
it comes to the same result, and it sends the same requests.  `Talk.overlooks_undeclared` is about
the messages themselves and about all that a monitor asks its driver.
-/

namespace StorageHealth

open Wire MessageKind

/-! ## Replies without undeclared fields -/

/-- A reply that holds a message, and what is left of it when fields with undeclared tags are taken
out; any reply may also stay as it is. -/
inductive Reply.Trims (k : MessageKind) : Reply → Reply → Prop
  | same (r : Reply) : Trims k r r
  | body {b b' : Bytes} (h : MessageKind.Trims Field.maxDepth k b b') : Trims k (.body b) (.body b')

lemma Reply.decode_of_trims {k : MessageKind} {r r' : Reply} (h : r.Trims k r') (method : Method) :
    (r'.decode method : Except DriverError k.Value) = r.decode method := by
  cases h with
  | same => rfl
  | body h => rw [Reply.decode, Reply.decode, MessageKind.decode_of_trims h]

/-- The replies of a driver, where the first ones hold certain messages, and what is left of them.
All further replies stay as they are. -/
inductive Reply.TrimsAll : List MessageKind → List Reply → List Reply → Prop
  | rest (replies : List Reply) : TrimsAll [] replies replies
  | exhausted (kinds : List MessageKind) : TrimsAll kinds [] []
  | cons {k : MessageKind} {kinds : List MessageKind} {r r' : Reply} {replies replies' : List Reply}
      (h : r.Trims k r') (hrest : TrimsAll kinds replies replies') :
      TrimsAll (k :: kinds) (r :: replies) (r' :: replies')

namespace Talk

variable {α β : Type} {k : MessageKind} {kinds kinds' : List MessageKind}

/-- Two ways in which a part of a session may go come to the same, up to replies that are left. -/
structure SameTalk (kinds : List MessageKind) (x x' : Exchange α) : Prop where
  result : x'.result = x.result
  sent : x'.sent = x.sent
  rest : Reply.TrimsAll kinds x.rest x'.rest

/-- A part of a session that reads some replies and leaves others goes the same way when undeclared
fields are taken out. -/
def Passes (kinds kinds' : List MessageKind) (t : Talk α) : Prop :=
  ∀ replies replies', Reply.TrimsAll kinds replies replies' →
    SameTalk kinds' (t replies) (t replies')

/-- A session that reads some replies comes to the same when undeclared fields are taken out. -/
def Overlooks (kinds : List MessageKind) (t : Talk α) : Prop :=
  ∀ replies replies', Reply.TrimsAll kinds replies replies' →
    (t replies').result = (t replies).result ∧ (t replies').sent = (t replies).sent

lemma Passes.overlooks {t : Talk α} (h : t.Passes kinds kinds') : t.Overlooks kinds := by
  intro replies replies' htrims
  exact ⟨(h replies replies' htrims).result, (h replies replies' htrims).sent⟩

lemma passes_pure (kinds : List MessageKind) (a : α) :
    (Pure.pure a : Talk α).Passes kinds kinds :=
  fun _ _ htrims => ⟨rfl, rfl, htrims⟩

lemma passes_fail (kinds : List MessageKind) (e : DriverError) :
    (fail e : Talk α).Passes kinds kinds :=
  fun _ _ htrims => ⟨rfl, rfl, htrims⟩

lemma passes_call (method : Method) {req : Type} [Message req] (request : req) :
    (call method request : Talk k.Value).Passes (k :: kinds) kinds := by
  intro replies replies' htrims
  cases htrims with
  | exhausted => exact ⟨rfl, rfl, .exhausted kinds⟩
  | cons h hrest => exact ⟨Reply.decode_of_trims h method, rfl, hrest⟩

lemma Passes.bind {t : Talk α} {next : α → Talk β} (h : t.Passes kinds kinds')
    (hnext : ∀ a, (next a).Overlooks kinds') : (t >>= next).Overlooks kinds := by
  intro replies replies' htrims
  have hfirst := h replies replies' htrims
  change (Talk.bind t next replies').result = (Talk.bind t next replies).result ∧
    (Talk.bind t next replies').sent = (Talk.bind t next replies).sent
  rw [Talk.bind, Talk.bind, hfirst.result]
  cases (t replies).result with
  | error e => exact ⟨rfl, hfirst.sent⟩
  | ok a =>
    have hsecond := hnext a _ _ hfirst.rest
    exact ⟨hsecond.1, congrArg₂ (· ++ ·) hfirst.sent hsecond.2⟩

/-- Working on what was found reads no replies. -/
lemma Passes.map {t : Talk α} (h : t.Passes kinds kinds') (f : α → β) :
    (t >>= fun a => Pure.pure (f a)).Passes kinds kinds' := by
  intro replies replies' htrims
  have hfirst := h replies replies' htrims
  change SameTalk kinds' (Talk.bind t _ replies) (Talk.bind t _ replies')
  rw [Talk.bind, Talk.bind, hfirst.result]
  cases (t replies).result with
  | error e => exact ⟨rfl, hfirst.sent, hfirst.rest⟩
  | ok a => exact ⟨rfl, congrArg (· ++ []) hfirst.sent, hfirst.rest⟩

lemma Overlooks.map {t : Talk α} (h : t.Overlooks kinds) (f : α → β) :
    (t >>= fun a => Pure.pure (f a)).Overlooks kinds := by
  intro replies replies' htrims
  obtain ⟨hresult, hsent⟩ := h replies replies' htrims
  change (Talk.bind t _ replies').result = (Talk.bind t _ replies).result ∧
    (Talk.bind t _ replies').sent = (Talk.bind t _ replies).sent
  rw [Talk.bind, Talk.bind, hresult]
  cases (t replies).result with
  | error e => exact ⟨rfl, hsent⟩
  | ok a => exact ⟨rfl, congrArg (· ++ []) hsent⟩

/-! ## What a monitor asks -/

lemma passes_driverName : driverName.Passes (.pluginInfoReply :: kinds) kinds :=
  (passes_call (k := .pluginInfoReply) .pluginInfo ({} : EmptyRequest)).map PluginInfo.name

lemma overlooks_introduce {ask : Talk Capabilities} (h : ask.Overlooks kinds) :
    (introduce ask).Overlooks (.pluginInfoReply :: kinds) :=
  passes_driverName.bind fun name => h.map (KnownDriver.mk name)

/-- A driver without a controller service is not asked further, so its second reply stays unread. -/
lemma overlooks_controllerCapabilities :
    controllerCapabilities.Overlooks [.pluginCapabilitiesReply, .controllerCapabilitiesReply] := by
  have hplugin : (call .pluginCapabilities ({} : EmptyRequest) : Talk CapabilityList).Passes
      [.pluginCapabilitiesReply, .controllerCapabilitiesReply] [.controllerCapabilitiesReply] :=
    passes_call (k := .pluginCapabilitiesReply) .pluginCapabilities ({} : EmptyRequest)
  have hcontroller : (call .controllerCapabilities ({} : EmptyRequest) :
      Talk CapabilityList).Passes [.controllerCapabilitiesReply] [] :=
    passes_call (k := .controllerCapabilitiesReply) .controllerCapabilities ({} : EmptyRequest)
  refine hplugin.bind fun plugin => ?_
  split
  · exact (hcontroller.map _).overlooks
  · exact (passes_pure _ _).overlooks

lemma overlooks_nodeCapabilities : nodeCapabilities.Overlooks [.nodeCapabilitiesReply] := by
  have hnode : (call .nodeCapabilities ({} : EmptyRequest) : Talk CapabilityList).Passes
      [.nodeCapabilitiesReply] [] :=
    passes_call (k := .nodeCapabilitiesReply) .nodeCapabilities ({} : EmptyRequest)
  exact (hnode.map _).overlooks

lemma passes_requireCondition (method : Method) (c : Option Condition) :
    (requireCondition method c).Passes kinds kinds := by
  cases c with
  | none => exact passes_fail kinds _
  | some c => exact passes_pure kinds c

lemma overlooks_controllerCondition (handle : String) :
    (controllerCondition handle).Overlooks [.volumeReply] := by
  have hvolume : (call .getVolume (⟨handle⟩ : VolumeRequest) : Talk VolumeEntry).Passes
      [.volumeReply] [] := passes_call (k := .volumeReply) .getVolume (⟨handle⟩ : VolumeRequest)
  exact hvolume.bind fun reply => (passes_requireCondition _ _).overlooks

lemma overlooks_nodeCondition (handle path staging : String) :
    (nodeCondition handle path staging).Overlooks [.statsReply] := by
  have hstats : (call .volumeStats (⟨handle, path, staging⟩ : StatsRequest) :
      Talk StatsReply).Passes [.statsReply] [] :=
    passes_call (k := .statsReply) .volumeStats (⟨handle, path, staging⟩ : StatsRequest)
  exact hstats.bind fun reply => (passes_requireCondition _ _).overlooks

/-- By induction on the pages that are asked for. -/
lemma overlooks_pagesFrom (n : Nat) (token : String) (known : Conditions) :
    (pagesFrom token known).Overlooks (List.replicate n .listReply) := by
  induction n generalizing token known with
  | zero =>
    intro replies replies' htrims
    cases htrims <;> exact ⟨rfl, rfl⟩
  | succ n ih =>
    intro replies replies' htrims
    cases htrims with
    | exhausted => exact ⟨rfl, rfl⟩
    | @cons _ _ r r' _ _ h hrest =>
      have hpage : (r'.decode .listVolumes : Except DriverError ListPage) =
          r.decode .listVolumes := Reply.decode_of_trims h .listVolumes
      rw [pagesFrom, pagesFrom, hpage]
      split
      · exact ⟨rfl, rfl⟩
      · rename_i page _
        dsimp only
        split
        · exact ⟨rfl, rfl⟩
        · have hlater := ih page.nextToken (known.takePage page) _ _ hrest
          exact ⟨hlater.1, congrArg (pageRequest token :: ·) hlater.2⟩

/-- Fields that a message does not declare make no difference: not to what is read from a message,
wherever in it they stand, and not to what a monitor learns from its driver about its name, its
capabilities, its volumes and the pages of its listing. -/
theorem overlooks_undeclared :
    (∀ (k : MessageKind) (b b' : Bytes), MessageKind.Trims Field.maxDepth k b b' →
      (Message.decode b' : Option k.Value) = Message.decode b) ∧
    (introduce controllerCapabilities).Overlooks
      [.pluginInfoReply, .pluginCapabilitiesReply, .controllerCapabilitiesReply] ∧
    (introduce nodeCapabilities).Overlooks [.pluginInfoReply, .nodeCapabilitiesReply] ∧
    (∀ handle, (controllerCondition handle).Overlooks [.volumeReply]) ∧
    (∀ handle path staging, (nodeCondition handle path staging).Overlooks [.statsReply]) ∧
    (∀ n, listConditions.Overlooks (List.replicate n .listReply)) :=
  ⟨fun _ _ _ h => MessageKind.decode_of_trims h,
    overlooks_introduce overlooks_controllerCapabilities,
    overlooks_introduce overlooks_nodeCapabilities, overlooks_controllerCondition,
    overlooks_nodeCondition, fun n => overlooks_pagesFrom n "" Table.empty⟩

end Talk

/-! ## A driver with more to say -/

namespace Talkative

/-- A group inside a group, with tags that no message declares. -/
def asides : Bytes := [43, 51, 8, 7, 52, 44]

/-- A condition with four bytes that it does not declare between its own fields. -/
def wordyCondition : Bytes := [8, 1] ++ ([77, 1, 2, 3, 4] ++ ([18, 2, 104, 105] ++ []))

/-- The same condition without them. -/
def plainCondition : Bytes := [8, 1] ++ ([18, 2, 104, 105] ++ [])

/-- A reply about a mounted volume that begins with something else. -/
def wordyReply : Bytes := asides ++ ([18] ++ ([11] ++ wordyCondition) ++ [])

/-- The reply with nothing but what it declares. -/
def plainReply : Bytes := [18] ++ ([6] ++ plainCondition) ++ []

lemma trims_condition : Trims 99 .volumeCondition wordyCondition plainCondition :=
  have habnormal : Field.IsPiece 99 [8, 1] (.varint 1 1) := rfl
  have hextra : Field.IsPiece 99 [77, 1, 2, 3, 4] (.fixed32 9 [1, 2, 3, 4]) := rfl
  have hmessage : Field.IsPiece 99 [18, 2, 104, 105] (.sized 2 [104, 105]) := rfl
  .keep habnormal (.drop hextra (by decide) (.keep hmessage .nil))

lemma trims_reply : Trims Field.maxDepth .statsReply wordyReply plainReply :=
  have hasides : Field.IsPiece 100 asides (.group 5 [.group 6 [.varint 1 7]]) := rfl
  have hkey : Field.readKey [18] = some (2, 2, []) := rfl
  .drop hasides (by decide) (.inside (by decide) hkey rfl rfl trims_condition .nil)

theorem overlooks_asides :
    Trims Field.maxDepth .statsReply wordyReply plainReply ∧
      Message.decode plainReply = (Message.decode wordyReply : Option StatsReply) ∧
      Message.decode wordyReply = some (⟨some ⟨true, "hi"⟩⟩ : StatsReply) ∧
      (Talk.nodeCondition "vol-1" "/mnt" "" [.body wordyReply]).result = .ok ⟨true, "hi"⟩ ∧
      (Talk.nodeCondition "vol-1" "/mnt" "" [.body plainReply]).result =
        (Talk.nodeCondition "vol-1" "/mnt" "" [.body wordyReply]).result := by
  have hreplies : Reply.TrimsAll [.statsReply] [.body wordyReply] [.body plainReply] :=
    .cons (.body trims_reply) (.rest [])
  have hdecode := Talk.overlooks_undeclared.1 .statsReply wordyReply plainReply trims_reply
  have htalk := Talk.overlooks_undeclared.2.2.2.2.1 "vol-1" "/mnt" "" _ _ hreplies
  exact ⟨trims_reply, hdecode, by decide +kernel, by decide +kernel, htalk.1⟩

end Talkative

end StorageHealth
