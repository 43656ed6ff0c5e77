import StorageHealth.Wire.Catalog
import StorageHealth.Proofs.Wire.Blocks

/-!
# Messages that are written and read back

Every type of messages in the catalog consists of a block, so all of them are lawful.
`MessageKind.round_trip` says what follows: a message that is written is read back, it is as long as
expected, and whatever can be read at all is read again from the message that is written for it.
-/

namespace StorageHealth

namespace Wire

open StorageHealth.Wire.Field StorageHealth.Wire.Message StorageHealth.Wire.Measured

/-! ## The types of the catalog -/

instance : Lawful EmptyRequest where
  levels := 0
  tags := []
  writes _ := writes_nil
  merge_fields _ _ _ _ := rfl
  encodedLen_blank := rfl
  encodedLen_le _ _ _ _ _ := Nat.zero_le _
  merge_of_not_mem _ _ _ _ := rfl

instance : Lawful PluginInfo :=
  .ofBlock ((Block.text 1 (by decide)).and (Block.text 2 (by decide)) (by decide))
    ⟨fun v => (v.name, v.vendorVersion), fun x => ⟨x.1, x.2⟩, fun _ => rfl, fun _ => rfl⟩
    rfl (fun _ => rfl) (fun _ => rfl)
    (fun depth v f => by
      simp only [Message.merge]
      split <;> simp_all [Function.comp_def])

instance : Lawful Feature :=
  .ofBlock (Block.int32 1 (by decide)) ⟨Feature.number, Feature.mk, fun _ => rfl, fun _ => rfl⟩
    rfl (fun _ => rfl) (fun _ => rfl)
    (fun depth v f => by
      simp only [Message.merge]
      split <;> simp_all)

instance : Lawful Capability :=
  .ofBlock (Block.optional 1 (by decide))
    ⟨Capability.feature, Capability.mk, fun _ => rfl, fun _ => rfl⟩
    rfl (fun _ => rfl) (fun _ => rfl)
    (fun depth v f => by
      simp only [Message.merge]
      split <;> simp_all [Function.comp_def])

instance : Lawful CapabilityList :=
  .ofBlock (Block.parts 1 (by decide))
    ⟨CapabilityList.capabilities, CapabilityList.mk, fun _ => rfl, fun _ => rfl⟩
    rfl (fun _ => rfl) (fun _ => rfl)
    (fun depth v f => by
      simp only [Message.merge]
      split <;> simp_all [Function.comp_def])

instance : Lawful VolumeInfo :=
  .ofBlock ((Block.int64 1 (by decide)).and (Block.text 2 (by decide)) (by decide))
    ⟨fun v => (v.capacity, v.id), fun x => ⟨x.1, x.2⟩, fun _ => rfl, fun _ => rfl⟩
    rfl (fun _ => rfl) (fun _ => rfl)
    (fun depth v f => by
      simp only [Message.merge]
      split <;> simp_all [Function.comp_def])

instance : Lawful Condition :=
  .ofBlock ((Block.bool 1 (by decide)).and (Block.text 2 (by decide)) (by decide))
    ⟨fun v => (v.abnormal, v.message), fun x => ⟨x.1, x.2⟩, fun _ => rfl, fun _ => rfl⟩
    rfl (fun _ => rfl) (fun _ => rfl)
    (fun depth v f => by
      simp only [Message.merge]
      split <;> simp_all [Function.comp_def])

instance : Lawful VolumeStatus :=
  .ofBlock ((Block.texts 1 (by decide)).and (Block.optional 2 (by decide)) (by decide))
    ⟨fun v => (v.publishedNodes, v.condition), fun x => ⟨x.1, x.2⟩, fun _ => rfl, fun _ => rfl⟩
    rfl (fun _ => rfl) (fun _ => rfl)
    (fun depth v f => by
      simp only [Message.merge]
      split <;> simp_all [Function.comp_def])

instance : Lawful VolumeEntry :=
  .ofBlock ((Block.optional 1 (by decide)).and (Block.optional 2 (by decide)) (by decide))
    ⟨fun v => (v.volume, v.status), fun x => ⟨x.1, x.2⟩, fun _ => rfl, fun _ => rfl⟩
    rfl (fun _ => rfl) (fun _ => rfl)
    (fun depth v f => by
      simp only [Message.merge]
      split <;> simp_all [Function.comp_def])

instance : Lawful ListRequest :=
  .ofBlock ((Block.int32 1 (by decide)).and (Block.text 2 (by decide)) (by decide))
    ⟨fun v => (v.maxEntries, v.startingToken), fun x => ⟨x.1, x.2⟩, fun _ => rfl, fun _ => rfl⟩
    rfl (fun _ => rfl) (fun _ => rfl)
    (fun depth v f => by
      simp only [Message.merge]
      split <;> simp_all [Function.comp_def])

instance : Lawful ListPage :=
  .ofBlock ((Block.parts 1 (by decide)).and (Block.text 2 (by decide)) (by decide))
    ⟨fun v => (v.entries, v.nextToken), fun x => ⟨x.1, x.2⟩, fun _ => rfl, fun _ => rfl⟩
    rfl (fun _ => rfl) (fun _ => rfl)
    (fun depth v f => by
      simp only [Message.merge]
      split <;> simp_all [Function.comp_def])

instance : Lawful VolumeRequest :=
  .ofBlock (Block.text 1 (by decide))
    ⟨VolumeRequest.volumeId, VolumeRequest.mk, fun _ => rfl, fun _ => rfl⟩
    rfl (fun _ => rfl) (fun _ => rfl)
    (fun depth v f => by
      simp only [Message.merge]
      split <;> simp_all)

instance : Lawful StatsRequest :=
  .ofBlock
    (((Block.text 1 (by decide)).and (Block.text 2 (by decide)) (by decide)).and
      (Block.text 3 (by decide)) (by decide))
    ⟨fun v => ((v.volumeId, v.volumePath), v.stagingPath), fun x => ⟨x.1.1, x.1.2, x.2⟩,
      fun _ => rfl, fun _ => rfl⟩
    rfl (fun _ => rfl) (fun _ => rfl)
    (fun depth v f => by
      simp only [Message.merge]
      split <;> simp_all [Function.comp_def])

instance : Lawful StatsReply :=
  .ofBlock (Block.optional 2 (by decide))
    ⟨StatsReply.condition, StatsReply.mk, fun _ => rfl, fun _ => rfl⟩
    rfl (fun _ => rfl) (fun _ => rfl)
    (fun depth v f => by
      simp only [Message.merge]
      split <;> simp_all [Function.comp_def])

/-! ## The whole catalog -/

namespace MessageKind

instance : (k : MessageKind) → Lawful k.Value
  | pluginInfoRequest | pluginCapabilitiesRequest | controllerCapabilitiesRequest
  | nodeCapabilitiesRequest => inferInstanceAs (Lawful EmptyRequest)
  | pluginInfoReply => inferInstanceAs (Lawful PluginInfo)
  | pluginCapabilitiesReply | controllerCapabilitiesReply | nodeCapabilitiesReply =>
    inferInstanceAs (Lawful CapabilityList)
  | pluginCapability | controllerCapability | nodeCapability => inferInstanceAs (Lawful Capability)
  | pluginService | controllerCall | nodeCall => inferInstanceAs (Lawful Feature)
  | volume => inferInstanceAs (Lawful VolumeInfo)
  | volumeCondition => inferInstanceAs (Lawful Condition)
  | listRequest => inferInstanceAs (Lawful ListRequest)
  | listReply => inferInstanceAs (Lawful ListPage)
  | listStatus | volumeStatus => inferInstanceAs (Lawful VolumeStatus)
  | listEntry | volumeReply => inferInstanceAs (Lawful VolumeEntry)
  | volumeRequest => inferInstanceAs (Lawful VolumeRequest)
  | statsRequest => inferInstanceAs (Lawful StatsRequest)
  | statsReply => inferInstanceAs (Lawful StatsReply)

/-- No message of the catalog is nested too deep to be read. -/
lemma levels_lt (k : MessageKind) : Lawful.levels k.Value < maxDepth := by
  cases k <;> decide

/-- Every value of every message is read back from its bytes, and its length is found without
writing it, as long as the bytes can be counted in 64 bits.  So for all bytes of half that length
that can be read at all, the value that is read is written to bytes that read the same, and writing
it again changes nothing. -/
theorem round_trip (k : MessageKind) :
    (∀ v : k.Value, (encode v).length < Varint.limit →
      decode (encode v) = some v ∧ encodedLen v = (encode v).length) ∧
    (∀ (b : Bytes) (v : k.Value), 2 * b.length < Varint.limit → decode b = some v →
      decode (encode v) = some v ∧
        (decode (encode v) : Option k.Value).map encode = some (encode v)) := by
  have hread : ∀ v : k.Value, (encode v).length < Varint.limit → decode (encode v) = some v :=
    fun v hlen => readInto_encode k.levels_lt hlen
  refine ⟨fun v hlen => ⟨hread v hlen, ((Lawful.writes v).length_eq hlen).symm⟩, ?_⟩
  intro b v hb hv
  have hgrown : encodedLen v ≤ encodedLen (blank : k.Value) + 2 * b.length :=
    encodedLen_readInto_le hv
  have hfits : (encode v).length < Varint.limit := by
    have hle : (encode v).length ≤ encodedLen v := (Lawful.writes v).length_le
    rw [Lawful.encodedLen_blank] at hgrown
    omega
  rw [hread v hfits]
  exact ⟨rfl, rfl⟩

/-- A page with a volume that has everything, and one of which only an empty status is known. -/
def mixedPage : ListPage :=
  ⟨[⟨some ⟨-1, "vol-ä"⟩, some ⟨["node-1", ""], some ⟨true, "gone"⟩⟩⟩, ⟨none, some ⟨[], none⟩⟩],
    "next"⟩

/-- A reply whose only part has its length in two bytes although one would do, and occurs twice. -/
def longWinded : Bytes := [18, 130, 0, 8, 1, 18, 4, 18, 2, 104, 105]

theorem round_trip_mixedPage :
    (encode mixedPage).length < Varint.limit ∧ decode (encode mixedPage) = some mixedPage ∧
      encodedLen mixedPage = (encode mixedPage).length ∧
      2 * longWinded.length < Varint.limit ∧
      decode longWinded = some (⟨some ⟨true, "hi"⟩⟩ : StatsReply) ∧
      decode (encode (⟨some ⟨true, "hi"⟩⟩ : StatsReply)) =
        some (⟨some ⟨true, "hi"⟩⟩ : StatsReply) := by
  have hfits : (encode mixedPage).length < Varint.limit := by decide +kernel
  have hpage := (round_trip .listReply).1 mixedPage hfits
  have hshort : 2 * longWinded.length < Varint.limit := by decide
  have hread : decode longWinded = some (⟨some ⟨true, "hi"⟩⟩ : StatsReply) := by decide +kernel
  have hreply := (round_trip .statsReply).2 longWinded ⟨some ⟨true, "hi"⟩⟩ hshort hread
  exact ⟨hfits, hpage.1, hpage.2, hshort, hread, hreply.1⟩

end MessageKind

end Wire

end StorageHealth
