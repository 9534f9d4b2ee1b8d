import DimmBus.Proofs.SoundReads

/-!
# Recovery from faults

Nothing that faults leave behind outlives them.
-/

namespace DimmBus

/-- Once the faults are cleared, the very next read of any byte of any module succeeds. -/
theorem read_recovers {p : Platform} (ha : p.Assembled) {config : Config} {w : Bench}
    (hw : w.StartedOn p config) (hport : config.piix4Port = 0)
    (hpoll : (config.poll w.session.link.controller.family).retries ≠ 0) (moves : List Move)
    {slot : UInt8} (hslot : slot.toNat < Spd.slotCount) {module : Slave}
    (hm : p.moduleAt? slot = some module) {g : Generation}
    (hg : module.lasting.generation = some g) {address : UInt16} (haddr : address < g.size) :
    ∃ value, p.storedByte? slot address = some value ∧
      (((w.after moves).step .clearFaults).read slot address).1 = .ok value := by
  obtain ⟨b, haware, hheld, hfollows, -⟩ := Binding.exists_aware ha hw
  have htell := ha.telling.1
  have hafter : b.Aware p.segment ((w.after moves).step .clearFaults) :=
    (haware.after htell hheld moves).step htell (.inl hheld)
  have hlasting : p.segment.lasting? (Spd.eepromAddress slot) = some module.lasting := by
    rw [Segment.lasting?, ← Platform.moduleAt?, hm, Option.map_some]
  have hlt : address.toNat < module.lasting.stored.size := by
    rw [(htell slot _ hlasting).size hg]
    exact UInt16.lt_iff_toNat_lt.mp haddr
  have hstored : p.segment.stored? slot address = some module.lasting.stored[address.toNat] := by
    rw [Segment.stored?, hlasting, Option.bind_some, Array.getElem?_eq_getElem hlt]
  refine ⟨_, (Platform.storedByte?_stored p slot address).trans hstored, ?_⟩
  have hattends : b.link.controller.Attends := by
    rw [haware.1] at hpoll
    exact hfollows.attends hpoll fun _ => hport
  have h := hafter.read htell slot address
  generalize (((w.after moves).step .clearFaults).read slot address).1 = r at h
  cases r with
  | ok value => rw [← Option.some.inj (hstored.symm.trans h)]
  | error e =>
      have hfree : b.Free ((w.after moves).step .clearFaults).machine.faults false :=
        ⟨⟨rfl, hattends⟩, rfl⟩
      rw [h hfree hslot] at hstored
      cases hstored

theorem read_recovers_intelSample :
    ∃ w : Bench, w.StartedOn Platform.intelSample {} ∧ ∃ value,
      Platform.intelSample.storedByte? 0 0x1FF = some value ∧
      (((w.after [.inject .stuckBusy, .job (.probe 0), .inject .stall, .job (.read 0 0),
        .inject .lockContended]).step .clearFaults).read 0 0x1FF).1 = .ok value := by
  have hp := Platform.hosted_intelSample
  obtain ⟨w, hw, hfamily⟩ := Bench.exists_startedOn {} hp fun _ => rfl
  obtain ⟨module, hm, hg⟩ := Platform.moduleAt?_withModule _ .ddr4 0 true
  refine ⟨w, hw, read_recovers hp.assembled hw rfl ?_ _ (by decide) hm hg (by decide)⟩
  rw [hfamily]
  decide

end DimmBus
