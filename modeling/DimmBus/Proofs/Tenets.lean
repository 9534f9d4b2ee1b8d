import DimmBus.Proofs.Reading
import DimmBus.Proofs.Scripts

/-!
# Tenets of a session

Every operation of a session is a script that asks for few transactions and keeps what the session
holds true, whatever comes of each transaction.
-/

namespace DimmBus

open Session

/-! ## What a session goes by -/

/-- The device type of a hub was read in the slot since the lock was taken last. -/
def HubShown (slot : UInt8) (past : List Exchange) : Prop :=
  ∃ before after, past = before ++ .handed
      (.readByteData (Spd.eepromAddress slot) Spd.HubRegister.deviceType)
      (.ok (.byte Spd.HubRegister.hubType)) :: after ∧
    Exchange.locked ∉ after

/-- The slot is known to hold a hub: from the beginning, or because after the device type the
memory-type code of a hub was read as well. -/
def HubConfirmed (known : Memory) (slot : UInt8) (past : List Exchange) : Prop :=
  (known.module? slot).map (·.generation) = some .ddr5 ∨
    ∃ before code after, past = before ++ .handed
        (.readByteData (Spd.eepromAddress slot) (Spd.hubMemory ||| Spd.memoryTypeByte))
        (.ok (.byte code)) :: after ∧
      Spd.MemoryType.isDdr5 code = true ∧ HubShown slot before

/-- What the session may ask for in a slot. -/
inductive Asked (known : Memory) (slot : UInt8) (past : List Exchange) : Transaction → Prop
  | readByte (command : UInt8) :
      Asked known slot past (.readByteData (Spd.eepromAddress slot) command)
  | readSensor (g : Generation) : Asked known slot past (ThermalSensor.ofModule g slot).reading
  /-- Only two-page EEPROMs acknowledge this. -/
  | pollLatch {page : UInt8} (hp : page ≤ 1) :
      Asked known slot past (.quick (Spd.pageLatch page) .write)
  | moveLatch {page : UInt8} (hp : page ≤ 1) :
      Asked known slot past (.writeByteData (Spd.pageLatch page) 0 0)
  | selectPage {page : UInt8} (hp : page ≤ 7)
      (hub : HubConfirmed known slot past ∨ HubShown slot past) :
      Asked known slot past (.writeByteData (Spd.eepromAddress slot) Spd.HubRegister.page page)
  /-- The value that was read just now, but for the bit that switches the sensor off. -/
  | enableSensor {config : UInt8} (hub : HubConfirmed known slot past)
      (hr : past.getLast? = some (.handed
        (.readByteData (Spd.eepromAddress slot) Spd.HubRegister.sensorConfig)
        (.ok (.byte config)))) :
      Asked known slot past (.writeByteData (Spd.eepromAddress slot) Spd.HubRegister.sensorConfig
        (config &&& ~~~Spd.HubRegister.sensorOff))
  | pollSensor : Asked known slot past (.quick (Spd.sensorAddress slot) .write)

/-- What a probe goes by when it finds a module. -/
structure Evidence (known : Memory) (slot : UInt8) (past : List Exchange) (g : Generation)
    (code : UInt8) : Prop where
  family : Generation.ofMemoryType? code = some g
  hub : g = .ddr5 → HubConfirmed known slot past

/-- A condition on a session that outlives transactions and the changes of the page relied on. It
vouches for the hubs that the session remembers. -/
structure Tenet (known : Memory) where
  holds : Stage
  vouches : ∀ {m past slot found}, holds m past → m.module? slot = some found →
    found.generation = .ddr5 → HubConfirmed known slot past
  handed : ∀ {m past tx answer}, holds m past → holds m (past ++ [.handed tx answer])
  dropped : ∀ {m past}, holds m past → holds { m with latch := none } past
  selected : ∀ {m past slot page}, page ≤ 7 → holds m past →
    holds { m with latch := some ⟨Spd.eepromAddress slot, page⟩ } past

/-- It outlives whole operations as well. -/
structure Tenet.Lasts {known : Memory} (T : Tenet known) : Prop where
  after : ∀ {m past} x, T.holds m past → T.holds m (past ++ [x])
  found : ∀ {m past slot g code}, slot.toNat < Spd.slotCount → Evidence known slot past g code →
    T.holds m past → T.holds (m.setModule slot ⟨g, code, none⟩) past
  sensed : ∀ {m past slot found} available, m.module? slot = some found → T.holds m past →
    T.holds (m.setModule slot { found with thermal := some available }) past

variable {known : Memory} {slot : UInt8} {past : List Exchange}

theorem HubShown.handed {tx : Transaction} {answer : Except Error Payload}
    (h : HubShown slot past) : HubShown slot (past ++ [.handed tx answer]) := by
  obtain ⟨before, after, rfl, hl⟩ := h
  refine ⟨before, after ++ [.handed tx answer], by simp, fun hm => ?_⟩
  obtain hm | hm := List.mem_append.mp hm
  · exact hl hm
  · cases List.mem_singleton.mp hm

theorem HubConfirmed.lasting (slot : UInt8) : Script.Lasting (HubConfirmed known slot) := by
  rintro past x (h | ⟨before, code, after, rfl, hc, hs⟩)
  · exact .inl h
  · exact .inr ⟨before, code, after ++ [x], by simp, hc, hs⟩

theorem Evidence.lasting (slot : UInt8) (g : Generation) (code : UInt8) :
    Script.Lasting fun past => Evidence known slot past g code := fun _ x h =>
  ⟨h.family, fun hg => HubConfirmed.lasting slot _ x (h.hub hg)⟩

theorem Generation.ofMemoryType_of_isDdr4 : ∀ code : UInt8, Spd.MemoryType.isDdr4 code = true →
    Generation.ofMemoryType? code = some .ddr4 := forall_byte (by decide +kernel)

theorem Generation.ofMemoryType_of_isDdr5 : ∀ code : UInt8, Spd.MemoryType.isDdr5 code = true →
    Generation.ofMemoryType? code = some .ddr5 := forall_byte (by decide +kernel)

theorem Generation.ofMemoryType_of_isLegacy : ∀ code : UInt8,
    Spd.MemoryType.isLegacy code = true → Generation.ofMemoryType? code = some .ddr3 :=
  forall_byte (by decide +kernel)

theorem Spd.page_le : ∀ shown : UInt8, shown &&& Spd.HubRegister.pageMask ≤ 7 :=
  forall_byte (by decide +kernel)

/-! ## A tenet with more -/

namespace Tenet

variable {T : Tenet known} {P : List Exchange → Prop}

/-- A tenet with what transactions do not undo. -/
def and (T : Tenet known) (P : List Exchange → Prop)
    (hP : ∀ {past tx answer}, P past → P (past ++ [.handed tx answer])) : Tenet known where
  holds m past := T.holds m past ∧ P past
  vouches h := T.vouches h.1
  handed h := ⟨T.handed h.1, hP h.2⟩
  dropped h := ⟨T.dropped h.1, h.2⟩
  selected hp h := ⟨T.selected hp h.1, h.2⟩

theorem Lasts.and (hT : T.Lasts) (hP : Script.Lasting P) :
    (T.and P fun h => hP _ _ h).Lasts where
  after x h := ⟨hT.after x h.1, hP _ x h.2⟩
  found hs he h := ⟨hT.found hs he h.1, h.2⟩
  sensed available hf h := ⟨hT.sensed available hf h.1, h.2⟩

/-- Work that can fail keeps the tenet either way. -/
def Keeps (T : Tenet known) (link : Link) (may : List Exchange → Transaction → Prop)
    (held : Bool) (x : Operation α) : Prop :=
  Planned link.controller may held held T.holds x (fun _ => T.holds) fun _ => T.holds

variable {link : Link} {may : List Exchange → Transaction → Prop}

theorem scripted_dropLatch {held : Bool} :
    Scripted link.controller may held held T.holds dropLatch fun _ => T.holds :=
  Scripted.dropLatch fun _ _ h => T.dropped h

theorem Keeps.locked {x : Operation α} (hT : T.Lasts) (hx : T.Keeps link may true x) :
    T.Keeps link may false (locked link x) :=
  Planned.locked (fun _ _ _ h => hT.after _ h) (fun _ _ h => hT.after _ h)
    (hx.mono (fun _ _ h => h) (fun _ _ _ h => hT.after _ h) fun _ _ _ h => hT.after _ h)

theorem Keeps.retrying {x : Operation α} (hx : T.Keeps link may false x) :
    T.Keeps link may false (retrying link x) :=
  Planned.retryingWithin _ (hx.mono (fun _ _ h => h) (fun _ _ _ h => h)
    fun _ _ _ h => ⟨T.dropped h, T.dropped h⟩)

/-! ## Under the lock -/

section

variable (hmay : ∀ past tx, Asked known slot past tx → may past tx)

theorem keeps_send {tx : Transaction} (h : ∀ m past, T.holds m past → may past tx) :
    T.Keeps link may true (send link tx) :=
  Planned.send (fun _ _ _ h => h) h (fun _ _ _ h => T.handed h) fun _ _ _ h => T.handed h

include hmay in
/-- What was read is on record. -/
theorem planned_readByte (command : UInt8) :
    Planned link.controller may true true T.holds
      (readByte link (Spd.eepromAddress slot) command)
      (fun value m past => T.holds m past ∧ ∃ before, T.holds m before ∧ past = before ++
        [.handed (.readByteData (Spd.eepromAddress slot) command) (.ok (.byte value))])
      fun _ => T.holds := by
  unfold readByte
  refine Planned.bind (Q := fun payload m past => T.holds m past ∧ ∃ before, T.holds m before ∧
    past = before ++ [.handed (.readByteData (Spd.eepromAddress slot) command) (.ok payload)])
    ?_ fun payload => ?_
  · exact Planned.send (fun _ _ _ h => h) (fun _ past _ => hmay past _ (.readByte command))
      (fun _ _ _ h => ⟨T.handed h, _, h, rfl⟩) fun _ _ _ h => T.handed h
  · split
    · exact .pure fun _ _ h => h
    · exact .throw fun _ _ h => h.1

theorem scripted_setLatch {page : UInt8} (hp : page ≤ 7) :
    Scripted link.controller may true true T.holds (setLatch (Spd.eepromAddress slot) page)
      fun _ => T.holds := Scripted.modify fun _ _ h => T.selected hp h

include hmay in
/-- A page is asked for only if it exists, and of a hub only if there is one. -/
theorem keeps_selectPage {g : Generation} {page : UInt8} (hp : Binding.PageOf g page)
    (hub : ∀ m past, T.holds m past → g = .ddr5 →
      HubConfirmed known slot past ∨ HubShown slot past) :
    T.Keeps link may true (selectPage link g (Spd.eepromAddress slot) page) := by
  have hselect : ∀ tx ∈ pageSelect? g (Spd.eepromAddress slot) page, page ≤ 7 ∧
      ∀ m past, T.holds m past → may past tx := fun tx htx => by
    cases g with
    | ddr3 => cases htx
    | ddr4 =>
        cases htx
        exact ⟨UInt8.le_trans hp (by decide), fun _ past _ => hmay past _ (.moveLatch hp)⟩
    | ddr5 =>
        cases htx
        have hle : page ≤ 7 := hp ▸ Spd.page_le page
        exact ⟨hle, fun m past h => hmay past _ (.selectPage hle (hub m past h rfl))⟩
  unfold selectPage
  split
  · exact .pure fun _ _ h => h
  · rename_i tx htx
    obtain ⟨hle, htx⟩ := hselect tx htx
    refine Planned.get.bind fun m => ?_
    split
    · exact .pure fun _ _ h => h.2
    · refine ((keeps_send htx).mono (fun _ _ h => h.2) (fun _ _ _ h => h)
        fun _ _ _ h => h).outcome.bind fun r => ?_
      cases r with
      | ok payload => exact .step (scripted_setLatch hle)
      | error e =>
          exact (Planned.step scripted_dropLatch).bind fun _ =>
            .throw fun _ _ h => h

/-- What a probe leaves: where it finds a module, it has evidence. -/
def Probed (T : Tenet known) (slot : UInt8) (g : Generation) (code? : Option UInt8) : Stage :=
  fun m past => T.holds m past ∧ ∀ code, code? = some code → Evidence known slot past g code

include hmay in
theorem planned_probeDdr4 : Planned link.controller may true true T.holds
    (probeDdr4 link slot) (T.Probed slot .ddr4) fun _ => T.holds := by
  unfold probeDdr4
  refine (keeps_send fun _ past _ => hmay past _ (.pollLatch (by decide))).bind fun _ => ?_
  refine (keeps_selectPage hmay (g := .ddr4) (show (0 : UInt8) ≤ 1 by decide) nofun).bind
    fun _ => ?_
  refine (planned_readByte hmay _).bind fun code => .pure fun m past h => ⟨h.1, ?_⟩
  intro code' hc
  split at hc
  · rename_i hfamily
    cases hc
    exact ⟨Generation.ofMemoryType_of_isDdr4 code hfamily, nofun⟩
  · cases hc

include hmay in
/-- A hub is written to only after it has shown itself. -/
theorem planned_probeDdr5 : Planned link.controller may true true T.holds
    (probeDdr5 link slot) (T.Probed slot .ddr5) fun _ => T.holds := by
  unfold probeDdr5
  refine (planned_readByte hmay _).bind fun kind => ?_
  split
  · rename_i hkind
    -- From here to the end of the probe the hub has shown itself, and that is all it takes.
    let shownT : Tenet known := T.and (HubShown slot) HubShown.handed
    suffices h : Planned link.controller may true true shownT.holds _
        (shownT.Probed slot .ddr5) fun _ => shownT.holds from
      h.mono (fun m past ⟨hm, before, _, hpast⟩ => ⟨hm, before, [], hkind ▸ hpast, nofun⟩)
        (fun _ _ _ h => ⟨h.1.1, h.2⟩) fun _ _ _ h => h.1
    refine (planned_readByte hmay _).bind fun shown => ?_
    refine (Planned.step ((scripted_setLatch (Spd.page_le shown)).mono (fun _ _ h => h.1)
      fun _ _ _ h => h)).bind fun _ => ?_
    refine (keeps_selectPage (T := shownT) hmay (Binding.pageOf_zero .ddr5)
      fun _ _ h _ => .inr h.2).bind fun _ => ?_
    refine (planned_readByte hmay _).bind fun code => .pure fun m past h => ⟨h.1, ?_⟩
    intro code' hc
    split at hc
    · rename_i hfamily
      cases hc
      refine ⟨Generation.ofMemoryType_of_isDdr5 code hfamily, fun _ => .inr ?_⟩
      obtain ⟨-, before, hbefore, rfl⟩ := h
      exact ⟨before, code, [], rfl, hfamily, hbefore.2⟩
    · cases hc
  · exact .pure fun _ _ h => ⟨h.1, fun _ hc => by cases hc⟩

include hmay in
theorem planned_probeLegacy : Planned link.controller may true true T.holds
    (probeLegacy link slot) (T.Probed slot .ddr3) fun _ => T.holds := by
  unfold probeLegacy
  refine (planned_readByte hmay _).bind fun code => .pure fun m past h => ⟨h.1, ?_⟩
  intro code' hc
  split at hc
  · rename_i hfamily
    cases hc
    exact ⟨Generation.ofMemoryType_of_isLegacy code hfamily, nofun⟩
  · cases hc

/-- What probing leaves: where it finds a module, it has evidence. -/
def Found (T : Tenet known) (slot : UInt8) (found? : Option (Generation × UInt8)) : Stage :=
  fun m past => T.holds m past ∧
    ∀ g code, found? = some (g, code) → Evidence known slot past g code

theorem scripted_firstFound {probes : List (Generation × Operation (Option UInt8))}
    (h : ∀ entry ∈ probes, Planned link.controller may true true T.holds entry.2
      (T.Probed slot entry.1) fun _ => T.holds) :
    Scripted link.controller may true true T.holds (firstFound probes) (T.Found slot) := by
  induction probes with
  | nil => exact .pure fun _ _ h => ⟨h, nofun⟩
  | cons entry rest ih =>
      obtain ⟨g, probe⟩ := entry
      have hrest := ih fun entry he => h entry (List.mem_cons_of_mem _ he)
      rw [firstFound]
      refine Scripted.bind (h (g, probe) List.mem_cons_self) fun r => ?_
      cases r with
      | ok found =>
          cases found with
          | some code =>
              refine .pure fun m past h => ⟨h.1, fun g' code' hf => ?_⟩
              cases hf
              exact h.2 code rfl
          | none => exact hrest.mono (fun _ _ h => h.1) fun _ _ _ h => h
      | error e => exact scripted_dropLatch.bind fun _ => hrest

include hmay in
theorem scripted_probeSlot :
    Scripted link.controller may true true T.holds (probeSlot link slot) (T.Found slot) := by
  refine scripted_firstFound fun entry he => ?_
  simp only [List.mem_cons, List.not_mem_nil, or_false] at he
  obtain rfl | rfl | rfl := he
  · exact planned_probeDdr4 hmay
  · exact planned_probeDdr5 hmay
  · exact planned_probeLegacy hmay

include hmay in
theorem keeps_enableHubSensor (hg : ∀ m past, T.holds m past → HubConfirmed known slot past) :
    T.Keeps link may true (enableHubSensor link (Spd.eepromAddress slot)) := by
  unfold enableHubSensor
  refine (planned_readByte hmay _).bind fun capability => ?_
  split
  · refine ((planned_readByte hmay _).mono (fun _ _ h => h.1) (fun _ _ _ h => h)
      fun _ _ _ h => h).bind fun config => ?_
    dsimp only
    split
    · refine Planned.bind (Planned.send (fun _ _ _ h => h.1) (fun m past h => ?_)
        (fun _ _ _ h => T.handed h.1) fun _ _ _ h => T.handed h.1) fun _ =>
          Planned.pure fun _ _ h => h
      obtain ⟨hm, before, hbefore, hpast⟩ := h
      exact hmay past _ (.enableSensor (hg m past hm) (by rw [hpast]; simp))
    · exact .pure fun _ _ h => h.1
  · exact .pure fun _ _ h => h.1

end

/-! ## Whole operations -/

section

variable {g : Generation} (hT : T.Lasts)
  (hmay : slot.toNat < Spd.slotCount → ∀ past tx, Asked known slot past tx → may past tx)

/-- What is known of a slot whose module has been found. -/
def Identified (known : Memory) (slot : UInt8) (g : Generation) (past : List Exchange) : Prop :=
  g = .ddr5 → HubConfirmed known slot past

theorem Identified.lasting (known : Memory) (slot : UInt8) (g : Generation) :
    Script.Lasting (Identified known slot g) := fun _ x h hg =>
  HubConfirmed.lasting slot _ x (h hg)

/-- A tenet with what is known of a slot. -/
abbrev andIdentified (T : Tenet known) (slot : UInt8) (g : Generation) : Tenet known :=
  T.and (Identified known slot g) fun h => Identified.lasting known slot g _ _ h

include hmay hT in
theorem scripted_probe : Scripted link.controller may false false T.holds (probe link slot)
    fun g? m past => T.holds m past ∧ ∀ g, g? = some g → Identified known slot g past := by
  unfold probe
  split
  · rename_i hs
    refine Scripted.get.bind fun m => ?_
    split
    · rename_i found hfound
      refine .pure fun m' past h => ⟨h.2, fun g hg hd => ?_⟩
      obtain ⟨rfl, h⟩ := h
      cases hg
      exact T.vouches h hfound hd
    · have hlocked : Planned link.controller may false false T.holds
          (locked link (step (probeSlot link slot))) (T.Found slot) fun _ => T.holds :=
        Planned.locked (fun _ _ _ h => hT.after _ h) (fun _ _ h => hT.after _ h)
          ((Planned.step (scripted_probeSlot (hmay hs))).mono (fun _ _ h => h)
            (fun _ m past h => ⟨hT.after _ h.1, fun g code hf =>
              Evidence.lasting slot g code _ _ (h.2 g code hf)⟩)
            fun _ _ _ h => hT.after _ h)
      refine Scripted.bind (hlocked.mono (fun _ _ h => h.2) (fun _ _ _ h => h)
        fun _ _ _ h => h) fun r => ?_
      match r with
      | .ok (some (g, code)) =>
          refine Scripted.bind (Scripted.modify fun m past h => ?_) fun _ => .pure fun _ _ h => h
          refine ⟨hT.found hs (h.2 g code rfl) h.1, fun g' hg => ?_⟩
          cases hg
          exact (h.2 g code rfl).hub
      | .ok none => exact .pure fun _ _ h => ⟨h.1, nofun⟩
      | .error e => exact .pure fun _ _ h => ⟨h, nofun⟩
  · exact .pure fun _ _ h => ⟨h, nofun⟩

include hmay hT in
theorem planned_confirmed : Planned link.controller may false false T.holds (confirmed link slot)
    (fun g m past => T.holds m past ∧ Identified known slot g past) fun _ => T.holds := by
  unfold confirmed
  split
  · refine (Planned.step (scripted_probe hT hmay)).bind fun g? => ?_
    split
    · exact .pure fun _ _ h => ⟨h.1, h.2 _ rfl⟩
    · exact .throw fun _ _ h => h.1
  · exact .throw fun _ _ h => h

include hmay hT in
/-- Only a module that was found is worked on. -/
theorem keeps_confirming {f : Generation → Operation α}
    (hf : slot.toNat < Spd.slotCount → ∀ g, (T.andIdentified slot g).Keeps link may false (f g)) :
    T.Keeps link may false (confirmed link slot >>= f) := by
  by_cases hs : slot.toNat < Spd.slotCount
  · exact (planned_confirmed hT hmay).bind fun g =>
      (hf hs g).mono (fun _ _ h => h) (fun _ _ _ h => h.1) fun _ _ _ h => h.1
  · have hthrow : confirmed link slot >>= f = throw (.param (.slot slot)) := by
      unfold confirmed
      rw [if_neg hs]
      rfl
    rw [hthrow]
    exact Planned.throw fun _ _ h => h

include hmay hT in
theorem keeps_readSpd (address : UInt16) :
    T.Keeps link may false (readSpd link slot address) := by
  unfold readSpd
  refine keeps_confirming hT hmay fun hs g => ?_
  refine Planned.bind_ofExcept (fun location hl => ?_) fun _ _ _ h => h
  refine Planned.adapt (Keeps.retrying (Keeps.locked (hT.and (Identified.lasting known slot g)) ?_))
  have hpage : Binding.PageOf g location.page := by
    unfold locate at hl
    split at hl
    · rename_i hlocated
      cases hl
      exact Binding.pageOf_location hlocated
    · cases hl
  refine (keeps_selectPage (T := T.andIdentified slot g) (hmay hs) hpage
    fun m past h hd => .inl (h.2 hd)).bind fun _ => ?_
  exact (planned_readByte (hmay hs) _).mono (fun _ _ h => h) (fun _ _ _ h => h.1) fun _ _ _ h => h

include hmay hT in
theorem keeps_readAll (entries : Array (UInt16 × UInt8)) (addresses : List UInt16) :
    T.Keeps link may false (readAll link slot entries addresses) := by
  induction addresses generalizing entries with
  | nil => exact Planned.pure fun _ _ h => h
  | cons address rest ih => exact (keeps_readSpd hT hmay address).bind fun _ => ih _

include hmay hT in
theorem keeps_dump (mode : DumpMode) : T.Keeps link may false (dump link slot mode) := by
  unfold dump
  refine keeps_confirming hT hmay fun _ g => ?_
  exact (keeps_readAll (hT.and (Identified.lasting known slot g)) hmay _ _).bind fun _ =>
    .pure fun _ _ h => h

include hmay hT in
theorem keeps_findDiscreteSensor (hs : slot.toNat < Spd.slotCount) (address : UInt16) :
    T.Keeps link may false (findDiscreteSensor link slot address) := by
  unfold findDiscreteSensor
  refine (keeps_readSpd hT hmay address).bind fun announced => ?_
  split
  · refine (Keeps.retrying (Keeps.locked hT (keeps_send fun _ past _ =>
      hmay hs past _ .pollSensor))).outcome.bind fun r => ?_
    match r with
    | .ok _ => exact .pure fun _ _ h => h
    | .error e =>
        dsimp only
        split
        · exact .pure fun _ _ h => h
        · exact .throw fun _ _ h => h
  · exact .pure fun _ _ h => h

include hmay hT in
theorem keeps_findSensor (hs : slot.toNat < Spd.slotCount)
    (hg : ∀ m past, T.holds m past → Identified known slot g past) :
    T.Keeps link may false (findSensor link slot g) := by
  cases g with
  | ddr3 => exact keeps_findDiscreteSensor hT hmay hs 32
  | ddr4 => exact keeps_findDiscreteSensor hT hmay hs 14
  | ddr5 =>
      exact Planned.adapt (Keeps.retrying (Keeps.locked hT (keeps_enableHubSensor (hmay hs)
        fun m past h => hg m past h rfl)))

include hmay hT in
theorem keeps_thermalCapability : T.Keeps link may false (thermalCapability link slot) := by
  unfold thermalCapability
  refine keeps_confirming hT hmay fun hs g => ?_
  have hTg := hT.and (Identified.lasting known slot g)
  refine Planned.get.bind fun m => ?_
  split
  · exact .pure fun _ _ h => h.2
  · refine ((keeps_findSensor hTg hmay hs fun _ _ h => h.2).mono (fun _ _ h => h.2)
      (fun _ _ _ h => h) fun _ _ _ h => h).bind fun available => ?_
    refine (Planned.step (Scripted.modify fun m past h => ?_)).bind fun _ => .pure fun _ _ h => h
    split
    · rename_i found hfound
      exact hTg.sensed available hfound h
    · exact h

include hmay hT in
theorem keeps_thermalAvailable : Scripted link.controller may false false T.holds
    (thermalAvailable link slot) fun _ => T.holds := by
  unfold thermalAvailable
  refine (Planned.run (keeps_thermalCapability hT hmay)).bind fun r => ?_
  cases r with
  | ok available => exact .pure fun _ _ h => h
  | error e => exact .pure fun _ _ h => h

include hmay hT in
theorem keeps_readTemperature : T.Keeps link may false (readTemperature link slot) := by
  unfold readTemperature
  refine keeps_confirming hT hmay fun hs g => ?_
  have hTg := hT.and (Identified.lasting known slot g)
  refine (keeps_thermalCapability hTg hmay).bind fun available => ?_
  split
  · refine Planned.bind (Planned.adapt (Keeps.retrying (Keeps.locked hTg ?_))) fun word =>
      Planned.pure fun _ _ h => h
    refine (keeps_selectPage (T := T.andIdentified slot g) (hmay hs) (Binding.pageOf_zero g)
      fun m past h hd => .inl (h.2 hd)).bind fun _ => ?_
    unfold readWord
    refine (keeps_send fun _ past _ => hmay hs past _ (.readSensor g)).bind fun payload => ?_
    split
    · exact .pure fun _ _ h => h
    · exact .throw fun _ _ h => h
  · exact .throw fun _ _ h => h

omit hmay in
include hT in
/-- A transaction of the user's own is handed over as it is. -/
theorem keeps_transfer {tx : Transaction} (hmay : ∀ past, may past tx) :
    T.Keeps link may false (transfer link tx) := by
  unfold transfer
  refine (Planned.accept fun _ _ _ h => h).bind fun _ => ?_
  refine (Planned.step scripted_dropLatch).bind fun _ => ?_
  exact Keeps.locked hT (Planned.hand (fun _ past _ => hmay past) (fun _ _ _ h => T.handed h)
    fun _ _ _ h => T.handed h)

end

/-! ## The least tenet -/

/-- The hubs that are remembered were known from the beginning or have been confirmed since. -/
def vouched (known : Memory) : Tenet known where
  holds m past := ∀ slot found, m.module? slot = some found → found.generation = .ddr5 →
    HubConfirmed known slot past
  vouches h := h _ _
  handed h slot found hf hd := HubConfirmed.lasting slot _ _ (h slot found hf hd)
  dropped h := h
  selected _ h := h

theorem vouched_lasts (known : Memory) : (vouched known).Lasts where
  after x h slot found hf hd := HubConfirmed.lasting slot _ x (h slot found hf hd)
  found {m past slot g code} hs he h slot' found hf hd := by
    rw [Memory.module?_setModule] at hf
    split at hf
    · rename_i heq
      cases hf
      exact heq.1 ▸ he.hub hd
    · exact h slot' found hf hd
  sensed {m past slot found} available hfound h slot' found' hf hd := by
    rw [Memory.module?_setModule] at hf
    split at hf
    · rename_i heq
      cases hf
      exact heq.1 ▸ h slot found hfound hd
    · exact h slot' found' hf hd

theorem vouched_start (known : Memory) : (vouched known).holds known [] := fun _ _ hf hd =>
  .inl (by rw [hf]; exact congrArg some hd)

end Tenet

end DimmBus
