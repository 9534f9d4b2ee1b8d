import DimmBus.Proofs.Adjustments
import DimmBus.Proofs.OwnRegisters
import DimmBus.Session

/-!
# Bring-up changes no more than it has to

Bring-up makes the chosen function answer on its I/O addresses and, if it is an Intel host, switches
it on in SMBus mode; all else that it does is to look. A controller that is refused is left as it
was, and to bring up once more what was brought up is to look again.
-/

namespace DimmBus

open Access Attempt Platform
open Request (Looks Adjusts)

/-! ## Intel hosts -/

namespace Ich

variable {p : Platform} {part : Part} {location : Pci.Address} {c c' : DimmBus.ConfigSpace}

/-- The base address in configuration space. -/
def baseAt (c : DimmBus.ConfigSpace) (location : Pci.Address) : UInt16 :=
  UInt16.ofNat (UInt32.ofNat (c.read location ConfigSpace.baseRegister 4) &&&
    ConfigSpace.baseMask).toNat

def hostConfigAt (c : DimmBus.ConfigSpace) (location : Pci.Address) : UInt8 :=
  c.byte location ConfigSpace.hostConfig.toNat

/-- What the resolution of a base address comes to. -/
def resolved (part : Part) (location : Pci.Address) (c : DimmBus.ConfigSpace) :
    Except Error (UInt16 × Bool) :=
  if baseAt c location = 0 then .error (.unsupported (.barAssigned part.name location))
  else .ok (baseAt c location,
    hasAny (smbusMode (hostConfigAt c location)) ConfigSpace.writeDisable)

/-- The adjustment that goes with what it comes to. -/
def adjustment? (location : Pci.Address) : Except Error (UInt16 × Bool) → Option Adjustment
  | .ok _ => some ⟨location, true, true⟩
  | .error _ => none

theorem smbusMode_smbusMode (hostConfig : UInt8) :
    smbusMode (smbusMode hostConfig) = smbusMode hostConfig := by
  have h : ∀ byte : UInt8, smbusMode (smbusMode byte) = smbusMode byte :=
    forall_byte (by decide +kernel)
  exact h hostConfig

theorem baseAt_adjusted {a : Adjustment} (h : c.Adjusted a c') :
    baseAt c' location = baseAt c location := by
  rw [baseAt, h.read (by decide), baseAt]

theorem hostConfigAt_adjusted (h : c.Adjusted ⟨location, true, true⟩ c') :
    hostConfigAt c' location = smbusMode (hostConfigAt c location) := by
  have hne : ConfigSpace.hostConfig.toNat ≠ Pci.Header.command.toNat := by decide
  rw [hostConfigAt, h.bytes, Adjustment.apply, if_neg fun h => hne h.2.1, if_pos ⟨rfl, rfl, rfl⟩]
  rfl

theorem hostConfigAt_kept {a : Adjustment} (h : c.Adjusted a c') (ha : a.smbus = false) :
    hostConfigAt c' location = hostConfigAt c location := by
  have hne : ConfigSpace.hostConfig.toNat ≠ Pci.Header.command.toNat := by decide
  rw [hostConfigAt, h.bytes, Adjustment.apply, if_neg fun h => hne h.2.1, ha,
    if_neg fun h => Bool.false_ne_true h.2.2]
  rfl

theorem resolved_adjusted (h : c.Adjusted ⟨location, true, true⟩ c') :
    resolved part location c' = resolved part location c := by
  rw [resolved, resolved, baseAt_adjusted h, hostConfigAt_adjusted h, smbusMode_smbusMode]

theorem adjusted_of_smbusMode (h : smbusMode (hostConfigAt c location) = hostConfigAt c location) :
    c.Adjusted ⟨location, false, true⟩ c := by
  refine ⟨fun _ => rfl, fun location' index => ?_⟩
  simp only [Adjustment.apply, Bool.false_eq_true, and_false, if_false]
  split
  · rename_i hc
    obtain ⟨rfl, rfl, -⟩ := hc
    exact h.symm
  · rfl

theorem adjusted_write (hs : (c.lookup location).isSome = true) :
    c.Adjusted ⟨location, false, true⟩
      (c.write location ConfigSpace.hostConfig 1 (smbusMode (hostConfigAt c location)).toNat) := by
  have hoff : ConfigSpace.hostConfig.toNat = 64 := by decide
  refine ⟨DimmBus.ConfigSpace.isSome_lookup_write _ _, fun location' index => ?_⟩
  rw [DimmBus.ConfigSpace.byte_write hs (by decide)]
  simp only [Adjustment.apply, Bool.false_eq_true, and_false, if_false, and_true, hoff]
  by_cases hin : location' = location ∧ index = 64
  · obtain ⟨rfl, rfl⟩ := hin
    rw [if_pos ⟨rfl, by omega⟩, if_pos ⟨rfl, rfl⟩]
    exact UInt8.ofNat_toNat
  · rw [if_neg hin, if_neg fun h => hin ⟨h.1, by omega⟩]

theorem outcome_resolve (part : Part) (hs : (p.config.lookup location).isSome = true) :
    Ends answer (resolve part location) p
      (fun r q => resolved part location p.config = .ok r ∧
        ∀ a, adjustment? location (.ok r) = some a → p.config.Adjusted a q.config)
      (fun e _ => resolved part location p.config = .error e ∧
        adjustment? location (.error e) = none) := by
  unfold resolve
  rw [ends_bind]
  refine ends_readPci32 ?_
  dsimp only
  split
  · rename_i hbase
    exact ⟨if_pos hbase, rfl⟩
  · rename_i hbase
    refine Ends.bind (Discovery.adjusted_enableIoSpace hs) fun _ p₁ h₁ => ?_
    have hs₁ : (p₁.config.lookup location).isSome = true := (h₁.present location).trans hs
    have hconfig : hostConfigAt p₁.config location = hostConfigAt p.config location :=
      hostConfigAt_kept h₁ rfl
    have hok : resolved part location p.config = .ok (baseAt p.config location,
        hasAny (smbusMode (hostConfigAt p₁.config location)) ConfigSpace.writeDisable) := by
      rw [hconfig]
      exact if_neg hbase
    rw [ends_bind]
    refine ends_readPci8 ?_
    rw [DimmBus.ConfigSpace.read_byte]
    split
    · refine ⟨hok, fun a ha => ?_⟩
      cases ha
      exact h₁.comp (adjusted_write hs₁)
    · rename_i hsame
      refine ⟨hok, fun a ha => ?_⟩
      cases ha
      exact h₁.comp (adjusted_of_smbusMode (Decidable.not_not.mp hsame))

/-- Nothing is written to a host that is in SMBus mode and answers. -/
theorem asks_resolve (h : baseAt p.config location ≠ 0 → Discovery.Answers p.config location ∧
    smbusMode (hostConfigAt p.config location) = hostConfigAt p.config location) :
    (resolve part location).Asks answer Looks p := by
  refine (survey_readPci32.looks.asks p).bind (ends_readPci32 ?_)
  dsimp only
  split
  · trivial
  · rename_i hbase
    obtain ⟨hanswers, hmode⟩ := h hbase
    refine (Discovery.asks_enableIoSpace (p := p.spent p.counters.called) hanswers).bind ?_
    refine ends_enableIoSpace (Discovery.answers_iff.mp hanswers) fun k => ?_
    refine (survey_readPci8.looks.asks _).bind (ends_readPci8 ?_)
    rw [DimmBus.ConfigSpace.read_byte]
    change Attempt.Asks _ _ (if smbusMode (hostConfigAt p.config location) ≠ _ then _ else _) _
    rw [if_neg fun hne => hne hmode]
    trivial

theorem adjusts_resolve : (resolve part location).Only Adjusts := by
  refine .bind (only_readPci32 (.inl trivial)) fun bar => .ite (.throw _) ?_
  refine (Discovery.adjusts_enableIoSpace location).bind fun _ => ?_
  refine .bind (only_readPci8 (.inl trivial)) fun before => ?_
  exact .ite (.bind (only_writePci8 (.inr trivial)) fun _ => .pure _) (.pure _)

theorem settles_resolve (hp : p.Sited) (hs : (p.config.lookup location).isSome = true) :
    (resolve part location).run.Settles (adjustment? location) p := by
  refine .of_ends (resolved part location) hp hs adjusts_resolve
    (fun q hq => outcome_resolve part hq) (fun hn => asks_resolve fun hbase => ?_)
    fun a ha q h => ?_
  · rw [resolved, if_neg hbase] at hn
    cases hn
  · obtain rfl : a = ⟨location, true, true⟩ := by
      unfold resolved at ha
      split at ha
      · cases ha
      · exact (Option.some.inj ha).symm
    refine ⟨resolved_adjusted h, asks_resolve fun _ => ⟨Discovery.answers_of_adjusted h rfl, ?_⟩⟩
    rw [hostConfigAt_adjusted h, smbusMode_smbusMode]

end Ich

/-! ## Hosts with their base address in configuration space -/

namespace Piix4

variable {p : Platform} {identity : Pci.Identity} {c c' : DimmBus.ConfigSpace}

/-- The base address in configuration space. -/
def baseAt (c : DimmBus.ConfigSpace) (identity : Pci.Identity) : UInt16 :=
  UInt16.ofNat (c.read identity.location (baseRegister identity.vendor identity.device) 2) &&&
    ConfigSpace.baseMask

def isOn (c : DimmBus.ConfigSpace) (identity : Pci.Identity) : Bool :=
  hasAny (UInt8.ofNat (c.read identity.location ConfigSpace.hostConfig 1)) ConfigSpace.hostEnable

/-- What the resolution of a base address comes to. -/
def resolved (identity : Pci.Identity) (c : DimmBus.ConfigSpace) : Except Error UInt16 :=
  if baseAt c identity = 0 then .ok 0
  else if isOn c identity then .ok (baseAt c identity)
  else .error (.unsupported (.hostEnabled identity.location))

/-- The adjustment that goes with what it comes to. -/
def adjustment? (location : Pci.Address) : Except Error UInt16 → Option Adjustment
  | .ok base => if base = 0 then none else some ⟨location, true, false⟩
  | .error _ => none

theorem of_adjustment? {location : Pci.Address} {r : Except Error UInt16} {a : Adjustment}
    (h : adjustment? location r = some a) : a = ⟨location, true, false⟩ := by
  cases r with
  | error e => cases h
  | ok base =>
      by_cases hbase : base = 0
      · rw [adjustment?, if_pos hbase] at h
        cases h
      · rw [adjustment?, if_neg hbase] at h
        exact (Option.some.inj h).symm

theorem resolved_adjusted {a : Adjustment} (h : c.Adjusted a c') :
    resolved identity c' = resolved identity c := by
  have hbase : baseAt c' identity = baseAt c identity := by
    unfold baseAt
    obtain hr | hr := baseRegister_cases identity.vendor identity.device
    · rw [hr, h.read (by decide)]
    · rw [hr, h.read (by decide)]
  have hon : isOn c' identity = isOn c identity := by
    rw [isOn, h.read (by decide), isOn]
  rw [resolved, resolved, hbase, hon]

theorem outcome_resolveLegacy (hs : (p.config.lookup identity.location).isSome = true) :
    Ends answer (resolveLegacy identity) p
      (fun base q => resolved identity p.config = .ok base ∧
        ∀ a, adjustment? identity.location (.ok base) = some a → p.config.Adjusted a q.config)
      (fun e _ => resolved identity p.config = .error e ∧
        adjustment? identity.location (.error e) = none) := by
  unfold resolveLegacy
  rw [ends_bind]
  refine ends_readPci16 ?_
  dsimp only
  split
  · rename_i hbase
    exact ⟨if_pos hbase, nofun⟩
  · rename_i hbase
    have hbase : baseAt p.config identity ≠ 0 := hbase
    rw [ends_bind]
    refine ends_readPci8 ?_
    split
    · rename_i hon
      have hon : isOn p.config identity = true := hon
      refine Ends.bind (Discovery.adjusted_enableIoSpace hs) fun _ q hq => ?_
      refine ⟨by rw [resolved, if_neg hbase, if_pos hon]; rfl, fun a ha => ?_⟩
      obtain rfl : _ = a := Option.some.inj ((if_neg hbase).symm.trans ha)
      exact hq
    · rename_i hoff
      have hoff : ¬isOn p.config identity = true := hoff
      exact ⟨by rw [resolved, if_neg hbase, if_neg hoff], rfl⟩

theorem asks_resolveLegacy (h : baseAt p.config identity ≠ 0 → isOn p.config identity = true →
    Discovery.Answers p.config identity.location) :
    (resolveLegacy identity).Asks answer Looks p := by
  refine Asks.bind (survey_readPci16.looks.asks p) (ends_readPci16 ?_)
  dsimp only
  split
  · trivial
  · rename_i hbase
    refine Asks.bind (survey_readPci8.looks.asks _) (ends_readPci8 ?_)
    split
    · rename_i hon
      refine Asks.bind (Discovery.asks_enableIoSpace (h hbase hon)) ?_
      exact ends_enableIoSpace (Discovery.answers_iff.mp (h hbase hon)) fun _ => trivial
    · trivial

theorem adjusts_resolveLegacy : (resolveLegacy identity).Only Adjusts := by
  refine .bind (only_readPci16 (.inl trivial)) fun register => .ite (.pure _) ?_
  refine .bind (only_readPci8 (.inl trivial)) fun hostConfig => ?_
  exact .ite ((Discovery.adjusts_enableIoSpace _).bind fun _ => .pure _) (.throw _)

theorem settles_resolveLegacy (hp : p.Sited)
    (hs : (p.config.lookup identity.location).isSome = true) :
    (resolveLegacy identity).run.Settles (adjustment? identity.location) p := by
  refine .of_ends (resolved identity) hp hs adjusts_resolveLegacy
    (fun q hq => outcome_resolveLegacy hq) (fun hn => asks_resolveLegacy fun hbase hon => ?_)
    fun a ha q h => ?_
  · rw [resolved, if_neg hbase, if_pos hon] at hn
    exact absurd ((if_neg hbase).symm.trans hn) nofun
  · obtain rfl := of_adjustment? ha
    exact ⟨resolved_adjusted h, asks_resolveLegacy fun _ _ =>
      Discovery.answers_of_adjusted h rfl⟩

end Piix4

/-! ## Into use -/

/-- What bring-up changes of the function of a controller that it takes into use. -/
def ControllerInfo.adjustment (i : ControllerInfo) : Adjustment :=
  ⟨i.identity.location, !i.isSb800, i.family = .ich⟩

/-- The adjustment that goes with what the taking into use of a controller comes to. -/
def adjustmentOf {α : Type} (info : α → ControllerInfo) (r : Except Error α) : Option Adjustment :=
  r.toOption.map fun c => (info c).adjustment

theorem Access.Settles.throw {α : Type} {e : Error} {info : α → ControllerInfo} {p : Platform} :
    (throw e : Attempt α).run.Settles (adjustmentOf info) p :=
  ⟨rfl, fun _ => trivial, nofun, nofun⟩

section

variable {p : Platform} {found : Detected} {config : Config}

theorem Ich.settles_init (hp : p.Sited)
    (hs : (p.config.lookup found.identity.location).isSome = true) :
    (init .direct found config).run.Settles (adjustmentOf Ich.info) p := by
  unfold init
  split
  · exact .throw
  · exact (settles_resolve hp hs).map (fun r => ⟨.ok _, rfl, rfl⟩) fun e => rfl

/-- A host without a base address is refused again after any adjustment. -/
theorem Ich.refused_again {q : Platform} {a : Adjustment}
    (hs : (p.config.lookup found.identity.location).isSome = true)
    (hr : adjustmentOf Ich.info ((init .direct found config).run.run answer p).1 = none)
    (h : p.config.Adjusted a q.config) : (init .direct found config).run.Repeats p q := by
  have hsq := (h.present found.identity.location).trans hs
  unfold init at hr ⊢
  cases hpart : part? found.identity.device with
  | none => exact .pure _
  | some part =>
      rw [hpart] at hr
      dsimp only [settle] at hr ⊢
      have hvalue := Settles.run_of_outcome (outcome_resolve part hs)
      have hvalue' := Settles.run_of_outcome (outcome_resolve part hsq)
      by_cases hbase : baseAt p.config found.identity.location = 0
      · rw [resolved, if_pos hbase] at hvalue
        rw [resolved, baseAt_adjusted h, if_pos hbase, ← hvalue] at hvalue'
        refine .attempt ⟨hvalue', asks_resolve fun hne => ?_⟩ fun r hok => ?_
        · exact absurd ((baseAt_adjusted h).trans hbase) hne
        · rw [hvalue] at hok
          cases hok
      · rw [resolved, if_neg hbase] at hvalue
        rw [ExceptT.run_bind, Access.run_bind, hvalue] at hr
        cases hr

namespace Piix4

/-- A part that is set up by the power-management block is only looked at. -/
theorem survey_init
    (hclass : isSb800 found.identity.vendor found.identity.device found.identity.revision = true) :
    (init .direct found config).Survey := by
  have hsettle : (settle found .direct).Survey := by
    simp only [settle, hclass, if_true]
    exact (survey_resolveSb800 _).bind fun _ => .pure _
  unfold init
  dsimp only
  split
  · exact .throw _
  · exact .ite (.throw _) (hsettle.bind fun _ => .ite (.throw _) (.pure _))

theorem settles_init (hp : p.Sited) (hs : (p.config.lookup found.identity.location).isSome = true) :
    (init .direct found config).run.Settles (adjustmentOf Piix4.info) p := by
  cases hclass : isSb800 found.identity.vendor found.identity.device found.identity.revision with
  | true =>
      refine .of_survey hp (survey_init hclass) fun a ha => ?_
      cases hc : ((init .direct found config).run.run answer p).1 with
      | error e =>
          rw [hc] at ha
          cases ha
      | ok c =>
          have hm := (mapped_init found config).run answer p c hc
          rw [hc] at ha
          cases ha
          simp [ControllerInfo.adjustment, ControllerInfo.isSb800, hm.family, hm.same, hclass]
  | false =>
      have hsettle : (settle found .direct).run.Settles
          (fun r => adjustment? found.identity.location (r.map Prod.fst)) p := by
        simp only [settle, hclass, Bool.false_eq_true, if_false]
        exact (settles_resolveLegacy hp hs).map (fun base => ⟨.ok (base, none), rfl, rfl⟩)
          fun _ => rfl
      unfold init
      dsimp only
      split
      · exact .throw
      · split
        · exact .throw
        · refine hsettle.map (fun settled => ?_) fun _ => rfl
          obtain ⟨base, sb800⟩ := settled
          dsimp only
          split
          · rename_i hbase
            exact ⟨.error _, rfl, (if_pos hbase).symm⟩
          · rename_i hbase
            refine ⟨.ok _, rfl, ?_⟩
            have hadjustment : ∀ i : ControllerInfo, i.family = .piix4 →
                i.identity = found.identity →
                i.adjustment = ⟨found.identity.location, true, false⟩ := by
              intro i hf hi
              simp [ControllerInfo.adjustment, ControllerInfo.isSb800, hf, hi, hclass]
            exact (congrArg some (hadjustment _ rfl rfl)).trans (if_neg hbase).symm

end Piix4

namespace Controller

theorem settles_init (family : Family) (hp : p.Sited)
    (hs : (p.config.lookup found.identity.location).isSome = true) :
    (init family .direct found config).run.Settles (adjustmentOf Controller.info) p := by
  cases family with
  | ich =>
      change (ich <$> Ich.init .direct found config).run.Settles _ p
      rw [map_eq_pure_bind]
      exact (Ich.settles_init hp hs).map (fun c => ⟨.ok (.ich c), rfl, rfl⟩) fun _ => rfl
  | piix4 =>
      change (piix4 <$> Piix4.init .direct found config).run.Settles _ p
      rw [map_eq_pure_bind]
      exact (Piix4.settles_init hp hs).map (fun c => ⟨.ok (.piix4 c), rfl, rfl⟩) fun _ => rfl

/-! ### Detection -/

/-- The controller that detection hands on. -/
def found? (family : Family) (c : ConfigSpace) : Option Detected :=
  ((places family).findSome? (c.accepted? (accepts family))).map (⟨·, none⟩)

theorem survey_detect (family : Family) : (detect family .direct).Survey := by
  rw [detect_direct]
  exact (Discovery.survey_first _ _).bind fun _ => .pure _

theorem run_detect (family : Family) (p : Platform) :
    ((detect family .direct).run.run answer p).1 = .ok (found? family p.config) := by
  refine (ends_post (Q := fun r _ => r = .ok (found? family p.config))).mp ?_
  rw [detect_direct, ends_bind]
  exact ends_first fun _ => rfl

theorem found?_adjusted {family : Family} {c c' : ConfigSpace} {a : Adjustment}
    (h : c.Adjusted a c') : found? family c' = found? family c := by
  have hsame : c'.accepted? (accepts family) = c.accepted? (accepts family) := by
    funext location
    rw [ConfigSpace.accepted?, h.identity?, ConfigSpace.accepted?]
  rw [found?, hsame, found?]

theorem present_of_found? {family : Family} {c : ConfigSpace} (h : found? family c = some found) :
    (c.lookup found.identity.location).isSome = true := by
  obtain ⟨identity, hi, rfl⟩ := Option.map_eq_some_iff.mp h
  obtain ⟨location, -, ha⟩ := List.exists_of_findSome?_eq_some hi
  have hi := (Option.filter_eq_some_iff.mp ha).1
  have hl : identity.location = location := by
    unfold ConfigSpace.identity? at hi
    dsimp only at hi
    split at hi
    · cases hi
    · exact congrArg Pci.Identity.location (Option.some.inj hi).symm
  rw [hl]
  cases hs : c.lookup location with
  | some space => rfl
  | none =>
      rw [ConfigSpace.identity?_none hs] at hi
      cases hi

/-! ### The first that works -/

/-- The adjustment that goes with what bring-up of a family comes to. -/
def adjustment? (r : Except Error (Option Controller)) : Option Adjustment :=
  r.toOption.join.map fun c => c.info.adjustment

theorem settles_bringUp (family : Family) (config : Config) (hp : p.Sited) :
    (bringUp family .direct config).run.Settles adjustment? p := by
  have hasks : ∀ q : Platform, (detect family .direct).run.Asks answer Looks q :=
    (survey_detect family).looks.asks
  have hlook := hp.run_looks (hasks p)
  unfold bringUp
  rw [ExceptT.run_bind]
  refine .after hp (hasks p) ?_ fun a _ q _ h => ⟨?_, hasks q⟩
  · rw [run_detect]
    cases hf : found? family p.config with
    | none => exact ⟨rfl, fun _ => trivial, nofun, nofun⟩
    | some found =>
        have hs := present_of_found? hf
        rw [← hlook.config] at hs
        change (some <$> init family .direct found config).run.Settles _ _
        rw [map_eq_pure_bind]
        exact (settles_init family (hp.of_remainder hlook.remainder) hs).map
          (fun c => ⟨.ok (some c), rfl, rfl⟩) fun _ => rfl
  · rw [run_detect, run_detect, found?_adjusted h]

/-- An Intel host that is refused is refused again after any adjustment. -/
theorem refused_again_ich {q : Platform} {a : Adjustment} (hp : p.Sited)
    (hr : adjustment? ((bringUp .ich .direct config).run.run answer p).1 = none)
    (hq : q.remainder = p.remainder) (h : p.config.Adjusted a q.config) :
    (bringUp .ich .direct config).run.Repeats p q := by
  have hasks : ∀ q : Platform, (detect .ich .direct).run.Asks answer Looks q :=
    (survey_detect .ich).looks.asks
  have hlook := hp.run_looks (hasks p)
  have hlook' := (hp.of_remainder hq).run_looks (hasks q)
  have hdetect : (detect .ich .direct).run.Repeats p q :=
    ⟨by rw [run_detect, run_detect, found?_adjusted h], hasks q⟩
  unfold bringUp at hr ⊢
  rw [ExceptT.run_bind, Access.run_bind] at hr
  refine hdetect.attempt fun found? hf => ?_
  rw [hf] at hr
  rw [run_detect] at hf
  cases found? with
  | none => exact .pure _
  | some found =>
      have hs := present_of_found? (Except.ok.inj hf)
      rw [← hlook.config] at hs h
      rw [← hlook'.config] at h
      have hinit : adjustmentOf Ich.info ((Ich.init .direct found config).run.run answer
          ((detect .ich .direct).run.run answer p).2).1 = none := by
        simp only [init, ExceptT.run_map, Access.run_map] at hr
        generalize ((Ich.init .direct found config).run.run answer _).1 = r at hr ⊢
        cases r with
        | error e => rfl
        | ok c => cases hr
      simp only [init, map_eq_pure_bind]
      exact .attempt (.attempt (Ich.refused_again hs hinit h) fun _ _ => .pure _) fun _ _ => .pure _

/-- The adjustment that goes with the controller that is found. -/
def adjustmentOf? (c? : Option Controller) : Option Adjustment :=
  c?.map fun c => c.info.adjustment

/-- A family that is passed over has to be passed over again. -/
theorem settles_probeFamilies_cons {family : Family} {rest : List Family} (hp : p.Sited)
    (hrest : ∀ q : Platform, q.Sited →
      (probeFamilies .direct config rest).Settles adjustmentOf? q)
    (hagain : adjustment? ((bringUp family .direct config).run.run answer p).1 = none →
      ∀ a, adjustmentOf? ((probeFamilies .direct config rest).run answer
        ((bringUp family .direct config).run.run answer p).2).1 = some a →
      ∀ q : Platform, q.remainder = p.remainder → p.config.Adjusted a q.config →
        (bringUp family .direct config).run.Repeats p q) :
    (probeFamilies .direct config (family :: rest)).Settles adjustmentOf? p := by
  have hb := settles_bringUp family config hp
  have hrest := hrest _ (hp.of_remainder hb.remainder)
  rw [probeFamilies]
  cases hr : ((bringUp family .direct config).run.run answer p).1 with
  | error e =>
      refine .after hp (hb.untouched (by rw [hr]; rfl)) (by rw [hr]; exact hrest) fun a ha => ?_
      rw [Access.run_bind, hr] at ha
      exact hagain (by rw [hr]; rfl) a ha
  | ok c? =>
      cases c? with
      | none =>
          refine .after hp (hb.untouched (by rw [hr]; rfl)) (by rw [hr]; exact hrest) fun a ha => ?_
          rw [Access.run_bind, hr] at ha
          exact hagain (by rw [hr]; rfl) a ha
      | some c => exact hb.before (b := some c) (by rw [hr]) (by rw [hr]; rfl)

theorem settles_probe (config : Config) (hp : p.Sited) :
    (probe .direct config).Settles adjustmentOf? p := by
  have hnil : ∀ q : Platform, (probeFamilies .direct config []).Settles adjustmentOf? q :=
    fun q => ⟨rfl, fun _ => trivial, nofun, nofun⟩
  refine settles_probeFamilies_cons hp (fun q hq => ?_) fun hr _ _ _ hq h =>
    refused_again_ich hp hr hq h
  exact settles_probeFamilies_cons hq (fun q _ => hnil q) fun _ => nofun

end Controller

end

/-! ## Sessions -/

/-- The adjustment that goes with the session that is brought up. -/
def Session.adjustment? (s? : Option Session) : Option Adjustment :=
  s?.map fun s => s.info.adjustment

theorem Session.settles_bringUp {p : Platform} (config : Config) (hp : p.Sited) :
    (bringUp .direct config).Settles adjustment? p := by
  have hprobe := Controller.settles_probe config hp
  unfold bringUp
  cases hr : ((Controller.probe .direct config).run answer p).1 with
  | none => exact hprobe.before (b := none) (by rw [hr]) (by rw [hr]; rfl)
  | some c => exact hprobe.before (b := some ⟨⟨c, config⟩, .empty⟩) (by rw [hr]) (by rw [hr]; rfl)

/-- Whatever configuration space and the power-management block hold, bring-up leaves the rest of
the machine as it was, whether it finds a controller or not: no transaction is started, and of the
block only the index is moved. In configuration space it makes the function of the controller that
it takes into use answer on its I/O addresses, unless it is set up by the power-management block,
and switches an Intel host on in SMBus mode; no other bit changes. A further bring-up only looks and
comes to the same session. A controller that is found but refused is left as it was. -/
theorem bring_up_minimal {p : Platform} (hp : p.Sited) (config : Config) :
    let bringUp := Session.bringUp .direct config
    let v := bringUp.run answer p
    v.2.remainder = p.remainder ∧
    (v.1 = none → v.2.config = p.config) ∧
    (∀ s, v.1 = some s → p.config.Adjusted s.info.adjustment v.2.config ∧
      bringUp.Asks answer Looks v.2 ∧ (bringUp.run answer v.2).1 = some s ∧
      v.2.Alike (bringUp.run answer v.2).2) ∧
    ∀ family e, ((Controller.bringUp family .direct config).run.run answer p).1 = .error e →
      p.Alike ((Controller.bringUp family .direct config).run.run answer p).2 := by
  have hs := Session.settles_bringUp config hp
  dsimp only
  refine ⟨hs.remainder, fun hn => ?_, fun s hv => ?_, fun family e he => ?_⟩
  · exact (hp.run_looks (hs.untouched (by rw [hn]; rfl))).config
  · have hsome : Session.adjustment? ((Session.bringUp .direct config).run answer p).1 =
        some s.info.adjustment := by
      rw [hv]
      rfl
    have hagain := hs.again _ hsome _ ⟨rfl, rfl⟩
    exact ⟨hs.adjusted _ hsome, hagain.asks, hagain.same.trans hv,
      (hp.of_remainder hs.remainder).run_looks hagain.asks⟩
  · exact hp.run_looks ((Controller.settles_bringUp family config hp).untouched (by rw [he]; rfl))

/-- A machine whose firmware has left the host switched off, in I2C mode and with nobody answering
on its I/O addresses. -/
def Platform.dormant : Platform :=
  let p := ({} : Platform).withIch 0x7AA3 0x14
  { p with config := p.config.write Ich.usualLocation Pci.Header.command 2 0x0406 }

theorem bring_up_minimal_dormant : dormant.Sited ∧
    let bringUp := Session.bringUp .direct {}
    let v := bringUp.run answer dormant
    ∃ s, v.1 = some s ∧ s.info.adjustment = ⟨Ich.usualLocation, true, true⟩ ∧
      ([4, 5, 64].map (dormant.config.byte Ich.usualLocation) = [0x06, 0x04, 0x14]) ∧
      ([4, 5, 64].map (v.2.config.byte Ich.usualLocation) = [0x07, 0x04, 0x11]) ∧
      dormant.config.Adjusted s.info.adjustment v.2.config ∧ bringUp.Asks answer Looks v.2 ∧
      (bringUp.run answer v.2).1 = some s := by
  have hsited : dormant.Sited := ⟨fun h hh => ⟨.modern, by cases hh; exact ⟨rfl, rfl⟩⟩, nofun⟩
  have hrun : ((Session.bringUp .direct {}).run answer dormant).1.any (fun s =>
      s.info.adjustment == ⟨Ich.usualLocation, true, true⟩) = true := by
    decide +kernel
  obtain ⟨s, hs, hadjustment⟩ := (Option.any_eq_true _ _).mp hrun
  rw [beq_iff_eq] at hadjustment
  obtain ⟨-, -, hsome, -⟩ := bring_up_minimal hsited {}
  obtain ⟨hadjusted, hasks, hsame, -⟩ := hsome s hs
  exact ⟨hsited, s, hs, hadjustment, by decide +kernel, by decide +kernel, hadjusted, hasks, hsame⟩

end DimmBus
