import DimmBus.Proofs.Awareness
import DimmBus.Proofs.Hosted

/-!
# Reads are sound

A byte that is read is the byte that the module stores, whatever was done before.
-/

namespace DimmBus

open Session

namespace Platform

theorem storedByte?_stored (p : Platform) (slot : UInt8) (address : UInt16) :
    p.storedByte? slot address = p.segment.stored? slot address := storedByte?_eq p slot address

end Platform

namespace Bench

/-- A read of one byte. -/
def read (w : Bench) (slot : UInt8) (address : UInt16) : Except Error UInt8 × Bench :=
  w.perform fun link => (readSpd link slot address).run

end Bench

namespace Binding

variable {b : Binding} {g₀ : Segment} {w : Bench}

theorem Aware.storedByte? (hw : b.Aware g₀ w) (slot : UInt8) (address : UInt16) :
    w.machine.storedByte? slot address = g₀.stored? slot address := by
  rw [Platform.storedByte?_stored, Segment.stored?, hw.2.knows.lasting, Segment.stored?]

/-- What a read comes to, of a bench whose session remembers what is true. -/
theorem Aware.read (hg : g₀.Telling) (hw : b.Aware g₀ w) (slot : UInt8) (address : UInt16) :
    match (w.read slot address).1 with
    | .ok value => g₀.stored? slot address = some value
    | .error _ => b.Free w.machine.faults false → slot.toNat < Spd.slotCount →
        g₀.stored? slot address = none := by
  have h : Completes (readSpd b.link slot address) w.session.memory w.machine
      (fun value _ _ => g₀.stored? slot address = some value)
      (fun _ _ _ => b.Free w.machine.faults false → slot.toNat < Spd.slotCount →
        g₀.stored? slot address = none) :=
    completes_readSpd hg hw.2 (fun _ _ _ _ _ hs => hs) fun _ _ _ _ hn => hn
  rw [← hw.1] at h
  have hr := w.completes_perform (readSpd · slot address) h
  unfold Bench.read
  generalize w.perform (fun link => (readSpd link slot address).run) = r at hr
  obtain ⟨_ | _, _⟩ := r <;> exact hr

end Binding

/-- On an assembled machine, after any history, a byte that a session reads is the one that the
module in the slot has stored from the beginning, and the page that the session relies on is the one
that is shown. -/
theorem reads_stored_byte {p : Platform} (ha : p.Assembled) {config : Config} {w : Bench}
    (hw : w.StartedOn p config) (moves : List Move) :
    (∀ slot address value, ((w.after moves).read slot address).1 = .ok value →
      p.storedByte? slot address = some value) ∧
    (∀ slot address, (w.after moves).machine.storedByte? slot address =
      p.storedByte? slot address) ∧
    (w.after moves).session.memory.Trusts (w.after moves).machine.segment := by
  obtain ⟨b, haware, hheld, -⟩ := Binding.exists_aware ha hw
  have hg := ha.telling.1
  have hafter := haware.after hg hheld moves
  refine ⟨fun slot address value hr => ?_, fun slot address => ?_, hafter.2.trusts⟩
  · have h := hafter.read hg slot address
    rw [hr] at h
    rw [Platform.storedByte?_stored]
    exact h
  · rw [hafter.storedByte?, Platform.storedByte?_stored]

theorem reads_stored_byte_intelSample :
    ∃ w : Bench, w.StartedOn Platform.intelSample {} ∧ ∀ value,
      ((w.after [.job (.read 0 0x100), .inject .stall, .job (.read 0 0),
        .job (.transfer (.writeByteData 0x37 0 0)), .clearFaults]).read 0 2).1 = .ok value →
        Platform.intelSample.storedByte? 0 2 = some value := by
  have hp := Platform.hosted_intelSample
  obtain ⟨w, hw, -⟩ := Bench.exists_startedOn {} hp fun _ => rfl
  exact ⟨w, hw, (reads_stored_byte hp.assembled hw _).1 0 2⟩

end DimmBus
