import DimmBus.Platform.Answer
import DimmBus.Proofs.Running

/-!
# Accesses to a simulated host

What reading and writing each register does to a host, and the rules for the programs that do it on
a machine. Between two accesses a machine differs from the one at the start in one host, the bus and
the counters.
-/

namespace DimmBus

open Access Attempt

/-! ## Registers -/

namespace Host

/-- The host is of this model and answers from this address on. -/
def Is (h : Host) (model : HostModel) (base : UInt16) : Prop := h.model = model ∧ h.base = base

variable (h : Host) (stuck held : Bool) (value : UInt8)

theorem read_control : h.read stuck held HostRegister.control =
    (h.control &&& ~~~Control.start, { h with blockIndex := 0 }) := rfl

theorem read_data0 : h.read stuck held HostRegister.data0 = (h.data0, h) := rfl

theorem read_data1 : h.read stuck held HostRegister.data1 = (h.data1, h) := rfl

theorem read_block : h.read stuck held HostRegister.block =
    ((h.block[h.blockIndex]?).getD 0, { h with blockIndex := h.blockIndex + 1 }) := rfl

theorem read_auxStatus : h.read stuck held HostRegister.auxStatus = (h.auxStatus, h) := rfl

theorem read_auxControl : h.read stuck held HostRegister.auxControl = (h.auxControl, h) := rfl

theorem write_command :
    h.write HostRegister.command value = ({ h with command := value }, .none) := rfl

theorem write_address :
    h.write HostRegister.address value = ({ h with address := value }, .none) := rfl

theorem write_data0 : h.write HostRegister.data0 value = ({ h with data0 := value }, .none) := rfl

theorem write_data1 : h.write HostRegister.data1 value = ({ h with data1 := value }, .none) := rfl

theorem write_block : h.write HostRegister.block value =
    ({ h with
        block := h.block.setIfInBounds h.blockIndex value
        blockIndex := h.blockIndex + 1 }, .none) := rfl

theorem write_auxStatus : h.write HostRegister.auxStatus value =
    ({ h with auxStatus := h.auxStatus &&& ~~~value }, .none) := rfl

theorem write_auxControl : h.write HostRegister.auxControl value =
    ({ h with auxControl := value &&& auxMask h.model }, .none) := rfl

theorem write_status : h.write HostRegister.status value =
    ({ h with
        status := h.status &&& ~~~(value &&& ~~~Status.hostBusy &&& ~~~Status.inUse)
        inUse := h.inUse && !hasAny value Status.inUse }, .none) := rfl

theorem write_control : h.write HostRegister.control value = h.writeControl value := rfl

end Host

/-! ## Machines -/

namespace Counters

/-- One more request. -/
def called (k : Counters) : Counters := { k with calls := k.calls + 1 }

/-- More time slept. -/
def slept (k : Counters) (us : Nat) : Counters := { k with sleptUs := k.sleptUs + us }

end Counters

namespace Platform

/-- The machine with one host, the bus and the counters put back. -/
def put (p : Platform) (h : Host) (g : Segment) (k : Counters) : Platform :=
  { p.setHost h with segment := g, counters := k }

/-- A host of this model and address answers at its sixteen addresses, whatever its registers. -/
def Exposes (p : Platform) (model : HostModel) (base : UInt16) : Prop :=
  ∀ h : Host, h.Is model base → ∀ register < 0x10,
    (p.setHost h).decode? (base + register) = some (h, register)

variable {p : Platform} {h h' : Host} {g g' : Segment} {k k' : Counters} {model : HostModel}
  {base : UInt16}

theorem put_has (fault : Fault) : (p.put h g k).has fault = p.has fault := by
  unfold put setHost
  split <;> rfl

theorem counted_put : (p.put h g k).counted = p.put h g k.called := rfl

theorem isPiix4_congr (hm : h'.model = h.model) : h'.isPiix4 = h.isPiix4 := by
  rw [Host.isPiix4, hm, Host.isPiix4]

theorem setHost_put (hm : h'.model = h.model) : (p.put h g k).setHost h' = p.put h' g k := by
  cases hb : h.isPiix4 <;> simp [put, setHost, isPiix4_congr hm, hb]

theorem Exposes.decode_put (hx : p.Exposes model base) (hh : h.Is model base) {register : UInt16}
    (hr : register < 0x10) : (p.put h g k).decode? (base + register) = some (h, register) :=
  hx h hh register hr

section Rules

variable {register : UInt16} {value : UInt8} {event : HostEvent} {bad : Error → Platform → Prop}

theorem ends_readIo8 {ok : UInt8 → Platform → Prop} (hx : p.Exposes model base)
    (hh : h.Is model base) (hr : register < 0x10)
    (he : h.read (p.has .stuckBusy) (p.has .semaphoreHeld) register = (value, h'))
    (hh' : h'.Is model base) (hok : ok value (p.put h' g k.called)) :
    Ends answer (readIo8 (base + register)) (p.put h g k) ok bad := by
  have hd := hx.decode_put hh hr (g := g) (k := k.called)
  change ok ((p.put h g k).counted.readIo (base + register)).1
    ((p.put h g k).counted.readIo (base + register)).2
  rw [counted_put, readIo, hd]
  simp only [put_has, he, setHost_put (hh'.1.trans hh.1.symm)]
  exact hok

theorem ends_writeIo8_event {ok : Unit → Platform → Prop} (hx : p.Exposes model base)
    (hh : h.Is model base) (hr : register < 0x10) (he : h.write register value = (h', event))
    (hok : ok () ((p.put h g k.called).follow h' event)) :
    Ends answer (writeIo8 (base + register) value) (p.put h g k) ok bad := by
  have hd := hx.decode_put hh hr (g := g) (k := k.called)
  change ok () ((p.put h g k).counted.writeIo (base + register) value)
  rw [counted_put, writeIo, hd]
  simp only [he]
  exact hok

/-- A write that sets nothing off. -/
theorem ends_writeIo8 {ok : Unit → Platform → Prop} (hx : p.Exposes model base)
    (hh : h.Is model base) (hr : register < 0x10) (he : h.write register value = (h', .none))
    (hh' : h'.Is model base) (hok : ok () (p.put h' g k.called)) :
    Ends answer (writeIo8 (base + register) value) (p.put h g k) ok bad := by
  refine ends_writeIo8_event hx hh hr he ?_
  rwa [follow, setHost_put (hh'.1.trans hh.1.symm)]

/-- A write that kills the transaction. -/
theorem ends_writeIo8_kill {ok : Unit → Platform → Prop} (hx : p.Exposes model base)
    (hh : h.Is model base) (hr : register < 0x10) (he : h.write register value = (h', .kill))
    (hh' : h'.Is model base)
    (hok : ok () (p.put h' g { k.called with kills := k.kills + 1 })) :
    Ends answer (writeIo8 (base + register) value) (p.put h g k) ok bad := by
  refine ends_writeIo8_event hx hh hr he ?_
  rwa [follow, setHost_put (hh'.1.trans hh.1.symm)]

theorem ends_sleep {us : UInt32} {ok : Unit → Platform → Prop}
    (hok : ok () (p.put h g (k.called.slept us.toNat))) :
    Ends answer (sleep us) (p.put h g k) ok bad := hok

end Rules

end Platform

end DimmBus
