import DimmBus.Proofs.SameBus
import DimmBus.Proofs.Sensors

/-!
# Write protection

Whatever travels over the bus, modules keep what they store, hubs keep their registers but for the
page and the sensor configuration, and sensors keep what they report.
-/

namespace DimmBus

open Platform

/-- A register of a hub, unless it is one of the two that can be written. -/
def Hub.fixed? (h : Hub) (register : Fin 128) : Option UInt8 :=
  if register.val = Spd.HubRegister.page.toNat ∨ register.val = Spd.HubRegister.sensorConfig.toNat
  then none else some (h.registers.read register.val)

def Hub.shown (h : Hub) : UInt8 := h.registers.read Spd.HubRegister.page.toNat

/-- The parts of a slave that are out of reach of the bus. -/
inductive Sealed where
  | flat (stored : Array UInt8)
  | paged (stored : Array UInt8)
  | hub (stored : Array UInt8) (register? : Fin 128 → Option UInt8)
  | sensor (capability temperature manufacturer deviceId : UInt16)

namespace Slave

/-! ## Slaves -/

def sealed : Slave → Sealed
  | .flat stored _ => .flat stored
  | .paged stored _ => .paged stored
  | .hub h => .hub h.stored h.fixed?
  | .sensor chip => .sensor (chip.registers.read Spd.SensorRegister.capability.toNat)
      (chip.registers.read Spd.SensorRegister.temperature.toNat)
      (chip.registers.read Spd.SensorRegister.manufacturer.toNat)
      (chip.registers.read Spd.SensorRegister.deviceId.toNat)

theorem fixed_hub_write (h : Hub) (command value : UInt8) :
    (h.write command value).fixed? = h.fixed? := by
  funext register
  unfold Hub.fixed?
  split
  · rfl
  · rename_i hr
    obtain ⟨hp, hs⟩ := not_or.mp hr
    rw [read_hub_write command h value register.isLt (.inl hp) hs]

theorem constant_sealed : Constant sealed where
  read s _ _ := by cases s <;> rfl
  send s _ := by cases s <;> rfl
  write s command value := by
    cases s with
    | hub h => simp only [write, sealed, stored_hub_write, fixed_hub_write]
    | flat => rfl
    | paged => rfl
    | sensor => rfl
  store chip command value := by
    simp only [sealed]
    have hkept {register : UInt8} := @read_chip_writeWord chip command value register
    rw [hkept (by decide), hkept (by decide), hkept (by decide), hkept (by decide)]

end Slave

/-! ## The page register of a hub -/

/-- The bytes that an operation brings to a hub, one command after the other. -/
def Transfer.sent (t : Transfer) : List UInt8 :=
  match t.protocol, t.direction with
  | .byteData, .write => [LittleEndian.low t.word]
  | .wordData, .write | .procCall, _ => [LittleEndian.low t.word, LittleEndian.high t.word]
  | .blockData, .write | .blockProcCall, _ => t.block
  | _, _ => []

/-- Commands one after the other. After the last there is comes the first. -/
def commandsFrom (command : UInt8) : Nat → List UInt8
  | 0 => []
  | n + 1 => command :: commandsFrom (command + 1) n

def Transfer.written (t : Transfer) : List UInt8 := commandsFrom t.command t.sent.length

namespace Hub

variable {h h' h'' : Hub} {commands : List UInt8}

/-- The page register after writes under some commands: it holds a page that there is, if it was
written, and else what it held. -/
structure Turned (commands : List UInt8) (h h' : Hub) : Prop where
  written : Spd.HubRegister.page ∈ commands → h'.shown ≤ 7
  other : Spd.HubRegister.page ∉ commands → h'.shown = h.shown

theorem shown_write (h : Hub) (command value : UInt8) : (h.write command value).shown =
    if command = Spd.HubRegister.page then value &&& Spd.HubRegister.pageMask else h.shown := by
  split
  · rename_i hc
    rw [Hub.write, if_pos hc, Hub.shown, hc, RegisterFile.read_write, if_pos rfl]
  · rename_i hc
    exact Slave.read_hub_write command h value (by decide) (.inr hc) (by decide)

theorem Turned.or (ht : Turned commands h h') : h'.shown = h.shown ∨ h'.shown ≤ 7 := by
  by_cases hw : Spd.HubRegister.page ∈ commands
  · exact .inr (ht.written hw)
  · exact .inl (ht.other hw)

theorem turned_nil (h : Hub) : Turned [] h h where
  written hw := absurd hw List.not_mem_nil
  other _ := rfl

theorem turned_write (h : Hub) (command value : UInt8) :
    Turned [command] h (h.write command value) := by
  have hmask : ∀ value : UInt8, value &&& Spd.HubRegister.pageMask ≤ 7 :=
    forall_byte (by decide +kernel)
  refine ⟨fun hw => ?_, fun hw => ?_⟩
  · rw [shown_write, if_pos (List.mem_singleton.mp hw).symm]
    exact hmask value
  · rw [shown_write, if_neg fun hc => hw (List.mem_singleton.mpr hc.symm)]

theorem Turned.cons {command : UInt8} (ht : Turned [command] h h')
    (ht' : Turned commands h' h'') : Turned (command :: commands) h h'' := by
  refine ⟨fun hw => ?_, fun hw => ?_⟩
  -- What was written last counts.
  · by_cases hlater : Spd.HubRegister.page ∈ commands
    · exact ht'.written hlater
    · rw [ht'.other hlater]
      obtain hc | hlater' := List.mem_cons.mp hw
      · exact ht.written (List.mem_singleton.mpr hc)
      · exact absurd hlater' hlater
  · rw [ht'.other fun hlater => hw (List.mem_cons_of_mem _ hlater)]
    exact ht.other fun hc => hw (List.mem_cons.mpr (.inl (List.mem_singleton.mp hc)))

end Hub

namespace Slave

theorem readBytes_hub (h : Hub) (page command : UInt8) (n : Nat) :
    ((Slave.hub h).readBytes page command n).2 = .hub h := by
  induction n generalizing command with
  | zero => rfl
  | succ n ih => exact ih _

theorem exists_writeBytes_hub (h : Hub) (command : UInt8) (bs : List UInt8) :
    ∃ h', (Slave.hub h).writeBytes command bs = .hub h' ∧
      h.Turned (commandsFrom command bs.length) h' := by
  induction bs generalizing h command with
  | nil => exact ⟨h, rfl, h.turned_nil⟩
  | cons b bs ih =>
      obtain ⟨h', hbytes, hturned⟩ := ih (h.write command b) (command + 1)
      exact ⟨h', hbytes, (h.turned_write command b).cons hturned⟩

end Slave

namespace Segment

variable {g g' g'' : Segment}

theorem exists_serve_hub (h : Hub) (page : UInt8) (t : Transfer) :
    ∃ h', (serve (.hub h) page t).2 = .hub h' ∧ h.Turned t.written h' := by
  obtain ⟨h', hbytes, hturned⟩ := Slave.exists_writeBytes_hub h t.command t.sent
  refine ⟨h', ?_, hturned⟩
  obtain ⟨slave, direction, command, protocol, word, block⟩ := t
  -- Only blocks are read back byte by byte; all else is what `sent` says, by definition.
  cases protocol with
  | blockData =>
      cases direction with
      | read => exact (Slave.readBytes_hub h page command maxBlock).trans hbytes
      | write => exact hbytes
  | blockProcCall =>
      have hblock : (Slave.hub h).writeBytes command block = .hub h' := hbytes
      simp only [serve, hblock, Slave.readBytes_hub]
  | _ => cases direction <;> exact hbytes

theorem exists_execute_hub {h : Hub} {t : Transfer} (hl : isLatch t.slave = false)
    (hs : g.slave? t.slave = some (.hub h)) :
    ∃ h', (g.execute t).2.slave? t.slave = some (.hub h') ∧ h.Turned t.written h' := by
  obtain ⟨h', hserve, hturned⟩ := exists_serve_hub h g.page t
  refine ⟨h', ?_, hturned⟩
  unfold execute
  rw [hl, if_neg Bool.false_ne_true, hs]
  dsimp only
  rw [slave?_attach, if_pos rfl, hserve]

theorem slave?_execute_of_ne {t : Transfer} {address : UInt8}
    (h : t.slave ≠ address ∨ isLatch t.slave = true) :
    (g.execute t).2.slave? address = g.slave? address := by
  unfold execute
  split
  · split <;> rfl
  · rename_i hl
    obtain hne | hl' := h
    · split
      · rfl
      · dsimp only
        rw [slave?_attach, if_neg hne]
    · exact absurd hl' hl

/-! ## Segments -/

/-- The second segment is the first, but for what writes over the bus may reach. -/
structure Intact (g g' : Segment) : Prop where
  sealed : ∀ address, (g'.slave? address).map Slave.sealed = (g.slave? address).map Slave.sealed
  turned : ∀ address h, g.slave? address = some (.hub h) →
    ∃ h', g'.slave? address = some (.hub h') ∧ (h'.shown = h.shown ∨ h'.shown ≤ 7)
  latch : g'.page = g.page ∨ g'.page ≤ 1

namespace Intact

theorem refl (g : Segment) : g.Intact g where
  sealed _ := rfl
  turned _ h hs := ⟨h, hs, .inl rfl⟩
  latch := .inl rfl

theorem trans (h : g.Intact g') (h' : g'.Intact g'') : g.Intact g'' where
  sealed address := (h'.sealed address).trans (h.sealed address)
  turned address hub hs := by
    obtain ⟨hub', hs', hor⟩ := h.turned address hub hs
    obtain ⟨hub'', hs'', heq | hle⟩ := h'.turned address hub' hs'
    · exact ⟨hub'', hs'', heq ▸ hor⟩
    · exact ⟨hub'', hs'', .inr hle⟩
  latch := by
    obtain heq | hle := h'.latch
    · exact heq ▸ h.latch
    · exact .inr hle

theorem execute (g : Segment) (t : Transfer) : g.Intact (g.execute t).2 where
  sealed := map_slave?_execute Slave.constant_sealed g t
  turned address h hs := by
    by_cases hne : t.slave = address
    · cases hl : isLatch t.slave with
      | true => exact ⟨h, (slave?_execute_of_ne (.inr hl)).trans hs, .inl rfl⟩
      | false =>
          rw [← hne] at hs ⊢
          obtain ⟨h', hs', hturned⟩ := exists_execute_hub hl hs
          exact ⟨h', hs', hturned.or⟩
    · exact ⟨h, (slave?_execute_of_ne (.inl hne)).trans hs, .inl rfl⟩
  latch := page_execute_or g t

end Intact

def run (g : Segment) (ts : List Transfer) : Segment := ts.foldl (fun g t => (g.execute t).2) g

theorem run_append (g : Segment) (ts ts' : List Transfer) :
    g.run (ts ++ ts') = (g.run ts).run ts' := List.foldl_append

theorem Intact.run (g : Segment) (ts : List Transfer) : g.Intact (g.run ts) := by
  induction ts generalizing g with
  | nil => exact .refl g
  | cons t ts ih => exact (Intact.execute g t).trans (ih _)

end Segment

/-! ## Machines -/

namespace Platform

variable {p p' p'' : Platform}

/-- Between the two, nothing but operations on the bus has happened to the slaves. -/
def Served (p p' : Platform) : Prop := ∃ ts, p'.segment = p.segment.run ts

theorem Served.of_eq (h : p'.segment = p.segment) : p.Served p' := ⟨[], h⟩

theorem Served.trans (h : p.Served p') (h' : p'.Served p'') : p.Served p'' := by
  obtain ⟨ts, h⟩ := h
  obtain ⟨ts', h'⟩ := h'
  exact ⟨ts ++ ts', by rw [h', h, Segment.run_append]⟩

theorem segment_setHost (p : Platform) (h : Host) : (p.setHost h).segment = p.segment := by
  unfold setHost
  split <;> rfl

theorem served_runTransfer (p : Platform) (isPiix4 : Bool) (t : Transfer) :
    p.Served (p.runTransfer isPiix4 t).2 := by
  unfold runTransfer
  dsimp only
  split
  · exact ⟨[t], rfl⟩
  · exact .of_eq rfl

theorem served_start (p : Platform) (h : Host) : p.Served (p.start h) := by
  unfold start
  split
  · exact .of_eq (segment_setHost _ _)
  · split
    · exact .of_eq (segment_setHost _ _)
    · exact (served_runTransfer _ _ _).trans (.of_eq (segment_setHost _ _))

theorem served_writeIo (p : Platform) (address : UInt16) (value : UInt8) :
    p.Served (p.writeIo address value) := by
  unfold writeIo
  split
  · rename_i h register _
    dsimp only
    generalize h.write register value = written
    obtain ⟨h', event⟩ := written
    cases event with
    | none => exact .of_eq (segment_setHost _ _)
    | kill => exact .of_eq (segment_setHost _ _)
    | start => exact served_start _ _
  · split
    · exact .of_eq rfl
    · split
      · exact .of_eq rfl
      · split
        · unfold writeMailbox
          split <;> exact .of_eq rfl
        · exact .of_eq rfl

theorem served_readIo (p : Platform) (address : UInt16) : p.Served (p.readIo address).2 := by
  unfold readIo
  split
  · exact .of_eq (segment_setHost _ _)
  · exact .of_eq rfl

theorem served_transferFor (p : Platform) (family : Family) (words : List UInt64) :
    p.Served (p.transferFor family words).2 := by
  unfold transferFor
  split
  · exact .of_eq rfl
  · split
    · exact .of_eq rfl
    · split
      · exact .of_eq rfl
      · split
        · exact .of_eq rfl
        · dsimp only
          split
          · exact .of_eq rfl
          · rename_i protocol _
            have h := served_runTransfer p (family = .piix4) (transferOf words protocol)
            split <;> exact h

theorem served_runRoutine (p : Platform) (routine : String) (words : List UInt64) :
    p.Served (p.runRoutine routine words).2 := by
  unfold runRoutine
  split
  · exact .of_eq rfl
  · split
    · exact .of_eq rfl
    · split
      · exact served_transferFor _ _ _
      · split
        · exact served_transferFor _ _ _
        · split
          · unfold selectPort
            split <;> exact .of_eq rfl
          · exact .of_eq rfl

theorem served_takeLock (p : Platform) : p.Served p.takeLock.2 := by
  unfold takeLock
  split <;> exact .of_eq rfl

/-- Slaves notice no request but as operations on the bus. -/
theorem served_answer (request : Request) (p : Platform) : p.Served (answer request p).2 := by
  cases request with
  | readIo8 address => exact served_readIo p.counted address
  | writeIo8 address value => exact served_writeIo p.counted address value
  | lock timeoutUs => exact served_takeLock p.counted
  | delegate routine words answerWords =>
      simp only [answer]
      split
      · exact .of_eq rfl
      · exact served_runRoutine p.counted routine words
  | _ => exact .of_eq rfl

theorem served_run (x : Access α) (p : Platform) : p.Served (x.run answer p).2 := by
  induction x generalizing p with
  | done => exact .of_eq rfl
  | call request next ih => exact (served_answer request p).trans (ih _ _)

end Platform

namespace Bench

theorem served_step (w : Bench) {move : Move}
    (hm : ∀ slot raw, move ≠ .setTemperature slot raw) :
    w.machine.Served (w.step move).machine := by
  cases move with
  | job job => exact served_run _ _
  | inject fault => exact .of_eq (segment_inject _ _)
  | clearFaults => exact .of_eq rfl
  | setTemperature slot raw => exact absurd rfl (hm slot raw)

theorem served_after (w : Bench) {moves : List Move}
    (hm : ∀ slot raw, Move.setTemperature slot raw ∉ moves) :
    w.machine.Served (w.after moves).machine := by
  induction moves generalizing w with
  | nil => exact .of_eq rfl
  | cons move moves ih =>
      have hfirst : w.machine.Served (w.step move).machine :=
        w.served_step fun slot raw he => hm slot raw (he ▸ List.mem_cons_self)
      exact hfirst.trans (ih _ fun slot raw he => hm slot raw (List.mem_cons_of_mem _ he))

end Bench

/-- Operations of any kind leave every slave where it is, with all its stored bytes, with the
registers of a hub but for the page and the sensor configuration, and with what a sensor reports of
itself; a hub whose page register was written shows a page that there is, and the page latch stays
within its two pages. The same goes for transactions of any controllers on a machine in any state,
and for whatever a session does with it under whatever faults. -/
theorem contents_outlast_traffic :
    (∀ (g : Segment) (ts : List Transfer), g.Intact (g.run ts) ∧
      (g.page ≤ 1 → (g.run ts).page ≤ 1)) ∧
    (∀ (g : Segment) (t : Transfer) (ts : List Transfer) (h : Hub),
      Segment.isLatch t.slave = false → g.slave? t.slave = some (.hub h) →
      Spd.HubRegister.page ∈ t.written →
      ∃ h', ((g.execute t).2.run ts).slave? t.slave = some (.hub h') ∧ h'.shown ≤ 7) ∧
    (∀ (p : Platform) (c : Controller) (txs : List Transaction),
      p.segment.Intact ((c.transferAll txs).run answer p).2.segment) ∧
    (∀ (w : Bench) (moves : List Move), (∀ slot raw, Move.setTemperature slot raw ∉ moves) →
      ∃ ts, (w.after moves).machine.segment = w.machine.segment.run ts) := by
  refine ⟨fun g ts => ⟨.run g ts, fun hp => ?_⟩, fun g t ts h hl hs hw => ?_, fun p c txs => ?_,
    fun w moves hm => w.served_after hm⟩
  · obtain heq | hle := (Segment.Intact.run g ts).latch
    · rw [heq]
      exact hp
    · exact hle
  · obtain ⟨h₁, hs₁, hturned⟩ := Segment.exists_execute_hub hl hs
    have hle := hturned.written hw
    obtain ⟨h₂, hs₂, heq | hle'⟩ := (Segment.Intact.run (g.execute t).2 ts).turned _ _ hs₁
    · exact ⟨h₂, hs₂, heq ▸ hle⟩
    · exact ⟨h₂, hs₂, hle'⟩
  · obtain ⟨ts, hts⟩ := served_run (c.transferAll txs) p
    rw [hts]
    exact .run _ _

/-- The commands of a long block go around to the page register. -/
theorem contents_outlast_traffic_samples :
    let hub : Hub := ⟨.filled 128 0, #[0x30, 0x10, 0x12]⟩
    let around : Transfer := ⟨0x50, .write, 0xF0, .blockData, 0, List.replicate 32 0xFF⟩
    let toLatch : Transfer := ⟨0x37, .write, 0, .byteData, 0, []⟩
    let g := Segment.empty.attach 0x50 (.hub hub)
    (∃ h', ((g.execute around).2.run [toLatch]).slave? 0x50 = some (.hub h') ∧ h'.shown ≤ 7) ∧
      (g.run [around, toLatch]).page ≤ 1 ∧
      ∃ w : Bench, w.StartedOn amdSample {} ∧ ∃ ts, (w.after [.inject .stall,
        .job (.transfer (.quick 0x50 .write)), .clearFaults]).machine.segment =
          w.machine.segment.run ts := by
  intro hub around toLatch g
  obtain ⟨hrun, hpage, -, hbench⟩ := contents_outlast_traffic
  have hhub : g.slave? 0x50 = some (.hub hub) := by
    rw [Segment.slave?_attach, if_pos rfl]
  obtain ⟨w, hw, -⟩ := Bench.exists_startedOn {} hosted_amdSample fun _ => rfl
  refine ⟨hpage g around [toLatch] hub (by decide) hhub (by decide), ?_, w, hw, hbench w _ ?_⟩
  · exact (hrun g [around, toLatch]).2 (by decide)
  · intro slot raw hm
    simp at hm

end DimmBus
