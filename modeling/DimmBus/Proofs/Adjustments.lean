import DimmBus.Proofs.Looking

/-!
# Adjustments of configuration space

What bring-up may change of a function, byte by byte, and the programs that make such a change at
most once: to run them again is to look.
-/

namespace DimmBus

open Access Attempt Platform
open Request (Looks Adjusts)

/-! ## Bytes of configuration space -/

namespace LittleEndian

theorem low_or (w v : UInt16) : low (w ||| v) = low w ||| low v := by
  unfold low
  rw [UInt16.toNat_or, UInt8.ofNat_or]

theorem high_or (w v : UInt16) : high (w ||| v) = high w ||| high v := by
  have hd : ∀ n : Nat, n / 256 = n >>> 8 := fun n => (Nat.shiftRight_eq_div_pow n 8).symm
  unfold high
  rw [UInt16.toNat_or, hd, hd, hd, Nat.shiftRight_or_distrib, UInt8.ofNat_or]

theorem word_and_one (lo hi : UInt8) : word lo hi &&& 1 = 0 ↔ lo &&& 1 = 0 := by
  have h16 : (1 : UInt16).toNat = 1 := rfl
  have h8 : (1 : UInt8).toNat = 1 := rfl
  rw [← UInt16.toNat_inj, ← UInt8.toNat_inj, UInt16.toNat_and, UInt8.toNat_and, h16, h8,
    Nat.and_one_is_mod, Nat.and_one_is_mod]
  have hw : (word lo hi).toNat % 2 = lo.toNat % 2 := by
    rw [word, UInt16.toNat_ofNat']
    omega
  rw [hw]
  rfl

end LittleEndian

/-- What bring-up changes in configuration space. -/
structure Adjustment where
  location : Pci.Address
  /-- The function is made to answer on its I/O addresses. -/
  ioSpace : Bool
  /-- The host is switched on, and I2C mode off. -/
  smbus : Bool
deriving DecidableEq, Repr

/-- What becomes of a byte. -/
def Adjustment.apply (a : Adjustment) (location : Pci.Address) (index : Nat) (byte : UInt8) :
    UInt8 :=
  if location = a.location ∧ index = Pci.Header.command.toNat ∧ a.ioSpace then byte ||| 0x01
  else if location = a.location ∧ index = Ich.ConfigSpace.hostConfig.toNat ∧ a.smbus then
    (byte ||| Ich.ConfigSpace.hostEnable) &&& ~~~Ich.ConfigSpace.i2cMode
  else byte

namespace ConfigSpace

/-- The same functions are there, and in them the adjusted bytes have changed, and no others. -/
structure Adjusted (c : ConfigSpace) (a : Adjustment) (c' : ConfigSpace) : Prop where
  present : ∀ location, (c'.lookup location).isSome = (c.lookup location).isSome
  bytes : ∀ location index,
    c'.byte location index = a.apply location index (c.byte location index)

variable {c c' : ConfigSpace} {a : Adjustment} {location : Pci.Address} {offset : UInt8}

theorem Adjusted.refl (h : a.ioSpace = false) (h' : a.smbus = false) : c.Adjusted a c :=
  ⟨fun _ => rfl, fun location index => by simp [Adjustment.apply, h, h']⟩

theorem Adjusted.byte {index : Nat} (h : c.Adjusted a c') (hc : index ≠ 4) (hh : index ≠ 64) :
    c'.byte location index = c.byte location index := by
  have hc : index ≠ Pci.Header.command.toNat := hc
  have hh : index ≠ Ich.ConfigSpace.hostConfig.toNat := hh
  rw [h.bytes, Adjustment.apply, if_neg fun h => hc h.2.1, if_neg fun h => hh h.2.1]

/-- Numbers in which no adjusted byte takes part are as they were. -/
theorem Adjusted.read {count : Nat} (h : c.Adjusted a c')
    (hc : ∀ i < count, offset.toNat + i ≠ 4 ∧ offset.toNat + i ≠ 64) :
    c'.read location offset count = c.read location offset count := by
  unfold ConfigSpace.read
  congr 1
  refine List.map_congr_left fun i hi => ?_
  obtain ⟨h₁, h₂⟩ := hc i (List.mem_range.mp hi)
  exact h.byte h₁ h₂

/-- The function is made to answer, and then it is switched on. -/
theorem Adjusted.comp {c₁ : ConfigSpace} (h : c.Adjusted ⟨location, true, false⟩ c₁)
    (h' : c₁.Adjusted ⟨location, false, true⟩ c') : c.Adjusted ⟨location, true, true⟩ c' := by
  have hne : Pci.Header.command.toNat ≠ Ich.ConfigSpace.hostConfig.toNat := by decide
  refine ⟨fun l => (h'.present l).trans (h.present l), fun location' index => ?_⟩
  rw [h'.bytes, h.bytes]
  simp only [Adjustment.apply, Bool.false_eq_true, and_false, if_false, and_true]
  by_cases hc : location' = location ∧ index = Pci.Header.command.toNat
  · simp only [if_pos hc]
    rw [if_neg fun hh => hne (hc.2.symm.trans hh.2)]
  · simp only [if_neg hc]

theorem Adjusted.identity? (h : c.Adjusted a c') :
    c'.identity? location = c.identity? location := by
  have hv : c'.read location Pci.Header.vendorId 4 = c.read location Pci.Header.vendorId 4 :=
    h.read (by decide)
  have hr : c'.read location Pci.Header.revision 1 = c.read location Pci.Header.revision 1 :=
    h.read (by decide)
  unfold ConfigSpace.identity?
  rw [hv, hr]

theorem byte_write {count value index : Nat} {location' : Pci.Address}
    (hs : (c.lookup location).isSome = true) (hlt : offset.toNat + count ≤ 256) :
    (c.write location offset count value).byte location' index =
      if location' = location ∧ offset.toNat ≤ index ∧ index < offset.toNat + count then
        (LittleEndian.toBytes count value).getD (index - offset.toNat) 0
      else c.byte location' index := by
  obtain ⟨space, hs⟩ := Option.isSome_iff_exists.mp hs
  unfold byte
  rw [lookup_write]
  by_cases hl : location' = location
  · subst hl
    rw [if_pos rfl, hs, Option.map_some]
    dsimp only
    by_cases hi : index < 256
    · rw [if_pos hi, read_setBytes hi (by rw [LittleEndian.length_toBytes]; exact hlt),
        LittleEndian.length_toBytes, if_pos hi]
      simp
    · rw [if_neg hi, if_neg (by omega)]
      simp [hi]
  · rw [if_neg hl, if_neg fun h => hl h.1]

theorem isSome_lookup_write (count value : Nat) (location' : Pci.Address) :
    ((c.write location offset count value).lookup location').isSome =
      (c.lookup location').isSome := by
  rw [lookup_write]
  split
  · rename_i hl
    rw [Option.isSome_map, hl]
  · rfl

theorem read_byte : UInt8.ofNat (c.read location offset 1) = c.byte location offset.toNat := by
  simp [read, LittleEndian.ofBytes]

theorem read_word : UInt16.ofNat (c.read location offset 2) =
    LittleEndian.word (c.byte location offset.toNat) (c.byte location (offset.toNat + 1)) := by
  simp [read, LittleEndian.ofBytes, LittleEndian.word, List.range_succ]

end ConfigSpace

/-! ## Answering on I/O addresses -/

namespace Discovery

variable {p : Platform} {location : Pci.Address} {bad : Error → Platform → Prop}

/-- A function that answers on its I/O addresses. -/
def Answers (c : ConfigSpace) (location : Pci.Address) : Prop :=
  c.byte location Pci.Header.command.toNat &&& 1 ≠ 0

theorem answers_of_adjusted {c c' : ConfigSpace} {a : Adjustment} (h : c.Adjusted a c')
    (ha : a.ioSpace = true) : Answers c' a.location := by
  have hbit : ∀ byte : UInt8, (byte ||| 0x01) &&& 1 ≠ 0 := forall_byte (by decide +kernel)
  rw [Answers, h.bytes, Adjustment.apply, if_pos ⟨rfl, rfl, ha⟩]
  exact hbit _

theorem adjusted_of_answers {c : ConfigSpace} (h : Answers c location) :
    c.Adjusted ⟨location, true, false⟩ c := by
  have hset : ∀ byte : UInt8, byte &&& 1 ≠ 0 → byte ||| 0x01 = byte :=
    forall_byte (by decide +kernel)
  refine ⟨fun _ => rfl, fun location' index => ?_⟩
  unfold Adjustment.apply
  split
  · rename_i hc
    obtain ⟨rfl, rfl, -⟩ := hc
    exact (hset _ h).symm
  · simp

theorem answers_iff {c : ConfigSpace} : Answers c location ↔
    UInt16.ofNat (c.read location Pci.Header.command 2) &&& Pci.Header.ioSpace ≠ 0 := by
  rw [ConfigSpace.read_word]
  exact not_congr (LittleEndian.word_and_one _ _).symm

theorem adjusted_write {c : ConfigSpace} (hs : (c.lookup location).isSome = true) :
    c.Adjusted ⟨location, true, false⟩ (c.write location Pci.Header.command 2
      (UInt16.ofNat (c.read location Pci.Header.command 2) ||| Pci.Header.ioSpace).toNat) := by
  have hl : LittleEndian.low Pci.Header.ioSpace = 1 := by decide
  have hh : LittleEndian.high Pci.Header.ioSpace = 0 := by decide
  have hoff : Pci.Header.command.toNat = 4 := by decide
  refine ⟨ConfigSpace.isSome_lookup_write _ _, fun location' index => ?_⟩
  rw [ConfigSpace.byte_write hs (by decide), ConfigSpace.toBytes_word, ConfigSpace.read_word,
    LittleEndian.low_or, LittleEndian.high_or, LittleEndian.low_word, LittleEndian.high_word, hl,
    hh, UInt8.or_zero]
  unfold Adjustment.apply
  rw [hoff]
  by_cases hin : location' = location ∧ 4 ≤ index ∧ index < 4 + 2
  · obtain ⟨rfl, hle, hlt⟩ := hin
    obtain rfl | rfl : index = 4 ∨ index = 5 := by omega
    · simp
    · simp
  · rw [if_neg hin, if_neg (by rintro ⟨rfl, rfl, -⟩; simp at hin)]
    simp

/-- The function answers afterwards, and nothing else has changed. -/
theorem adjusted_enableIoSpace (hs : (p.config.lookup location).isSome = true) :
    Ends answer (enableIoSpace location) p
      (fun _ q => p.config.Adjusted ⟨location, true, false⟩ q.config) bad := by
  rw [enableIoSpace, ends_bind]
  refine ends_readPci16 ?_
  split
  · exact adjusted_write hs
  · rename_i hbit
    exact adjusted_of_answers (answers_iff.mpr hbit)

theorem asks_enableIoSpace (h : Answers p.config location) :
    (enableIoSpace location).Asks answer Looks p := by
  refine (survey_readPci16.looks.asks p).bind (ends_readPci16 ?_)
  rw [if_neg (answers_iff.mp h)]
  trivial

theorem adjusts_enableIoSpace (location : Pci.Address) :
    (enableIoSpace location).Only Adjusts :=
  .bind (only_readPci16 (.inl trivial)) fun _ => .ite (only_writePci16 (.inr trivial)) (.pure _)

end Discovery

/-! ## Settling -/

/-- On another machine the program only looks, and comes to the same. -/
structure Access.Repeats {ρ : Type} (x : Access ρ) (p q : Platform) : Prop where
  same : (x.run answer q).1 = (x.run answer p).1
  asks : x.Asks answer Looks q

namespace Access.Repeats

variable {ρ τ : Type} {x : Access ρ} {f : ρ → Access τ} {p q : Platform}

theorem pure (value : ρ) : (pure value : Access ρ).Repeats p q := ⟨rfl, trivial⟩

theorem bind (hx : x.Repeats p q)
    (hf : (f (x.run answer p).1).Repeats (x.run answer p).2 (x.run answer q).2) :
    (x >>= f).Repeats p q := by
  refine ⟨?_, ?_⟩
  · rw [Access.run_bind, Access.run_bind, hx.same]
    exact hf.same
  · rw [asks_bind, hx.same]
    exact ⟨hx.asks, hf.asks⟩

/-- The same for programs that can fail. -/
theorem attempt {α β : Type} {x : Attempt α} {f : α → Attempt β} (hx : Repeats x.run p q)
    (hf : ∀ a, (x.run.run answer p).1 = .ok a →
      Repeats (f a).run (x.run.run answer p).2 (x.run.run answer q).2) :
    Repeats (x >>= f).run p q := by
  rw [ExceptT.run_bind]
  refine hx.bind ?_
  cases hr : (x.run.run answer p).1 with
  | error e => exact .pure _
  | ok a => exact hf a hr

theorem of_survey {α : Type} {x : Attempt α} (hx : x.Survey) (hp : p.Sited) (h : p.Alike q) :
    Repeats x.run p q := ⟨hx.same hp h, hx.looks.asks q⟩

end Access.Repeats

/-- A run either only looks or makes an adjustment, as its result tells. After an adjustment a
further run only looks, and comes to the same. -/
structure Access.Settles {ρ : Type} (x : Access ρ) (adjusts : ρ → Option Adjustment)
    (p : Platform) : Prop where
  remainder : (x.run answer p).2.remainder = p.remainder
  untouched : adjusts (x.run answer p).1 = none → x.Asks answer Looks p
  adjusted : ∀ a, adjusts (x.run answer p).1 = some a →
    p.config.Adjusted a (x.run answer p).2.config
  again : ∀ a, adjusts (x.run answer p).1 = some a → ∀ q, (x.run answer p).2.Alike q →
    x.Repeats p q

namespace Access.Settles

variable {ρ τ : Type} {x : Access ρ} {f : ρ → Access τ} {adjusts : ρ → Option Adjustment}
  {adjusts' : τ → Option Adjustment} {p : Platform}

/-- What is looked at can be looked at again. -/
theorem of_survey {α : Type} {x : Attempt α} {adjusts : Except Error α → Option Adjustment}
    (hp : p.Sited) (hx : x.Survey)
    (h : ∀ a, adjusts (x.run.run answer p).1 = some a → a.ioSpace = false ∧ a.smbus = false) :
    Settles x.run adjusts p := by
  have hq := hp.run_looks (x := x.run) (hx.looks.asks p)
  refine ⟨hq.remainder, fun _ => hx.looks.asks p, fun a ha => ?_, fun a _ q hq' => ?_⟩
  · rw [hq.config]
    exact .refl (h a ha).1 (h a ha).2
  · exact .of_survey hx hp (hq.trans hq')

theorem run_of_outcome {α : Type} {x : Attempt α} {outcome : Except Error α}
    {ok : α → Platform → Prop} {bad : Error → Platform → Prop}
    (h : Ends answer x p (fun b q => outcome = .ok b ∧ ok b q)
      (fun e q => outcome = .error e ∧ bad e q)) : (x.run.run answer p).1 = outcome := by
  unfold Ends at h
  generalize x.run.run answer p = v at h ⊢
  obtain ⟨e | b, q⟩ := v
  · exact h.1.symm
  · exact h.1.symm

/-- What a program comes to is read off configuration space, and the adjustment does not change
that. -/
theorem of_ends {α : Type} {x : Attempt α} {adjusts : Except Error α → Option Adjustment}
    {location : Pci.Address} (outcome : ConfigSpace → Except Error α) (hp : p.Sited)
    (hs : (p.config.lookup location).isSome = true) (hx : x.Only Adjusts)
    (hends : ∀ q : Platform, (q.config.lookup location).isSome = true → Ends answer x q
      (fun b q' => outcome q.config = .ok b ∧
        ∀ a, adjusts (.ok b) = some a → q.config.Adjusted a q'.config)
      (fun e _ => outcome q.config = .error e ∧ adjusts (.error e) = none))
    (hlooks : adjusts (outcome p.config) = none → x.Asks answer Looks p)
    (hagain : ∀ a, adjusts (outcome p.config) = some a → ∀ q : Platform,
      p.config.Adjusted a q.config →
        outcome q.config = outcome p.config ∧ x.Asks answer Looks q) :
    Settles x.run adjusts p := by
  have hvalue := run_of_outcome (hends p hs)
  have hadjusted : ∀ a, adjusts (outcome p.config) = some a →
      p.config.Adjusted a (x.run.run answer p).2.config := by
    have h := hends p hs
    unfold Ends at h
    rw [← hvalue]
    generalize x.run.run answer p = v at h ⊢
    obtain ⟨e | b, q⟩ := v
    · exact fun a ha => absurd (h.2.symm.trans ha) nofun
    · exact h.2
  rw [← hvalue] at hlooks hagain hadjusted
  refine ⟨hp.run_adjusts hx, hlooks, hadjusted, fun a ha q hq => ?_⟩
  have h := hadjusted a ha
  rw [← hq.config] at h
  obtain ⟨hsame, hasks⟩ := hagain a ha q h
  exact ⟨(run_of_outcome (hends q ((h.present location).trans hs))).trans hsame, hasks⟩

/-- What follows asks for nothing more. -/
theorem before {b : τ} (h : x.Settles adjusts p) (hf : f (x.run answer p).1 = pure b)
    (hb : adjusts' b = adjusts (x.run answer p).1) : (x >>= f).Settles adjusts' p := by
  have hvalue : ((x >>= f).run answer p).1 = b := by
    rw [Access.run_bind, hf]
    rfl
  have hmachine : ((x >>= f).run answer p).2 = (x.run answer p).2 := by
    rw [Access.run_bind, hf]
    rfl
  refine ⟨hmachine ▸ h.remainder, fun hn => ?_, fun a ha => ?_, fun a ha q hq => ?_⟩
  · rw [hvalue, hb] at hn
    rw [asks_bind, hf]
    exact ⟨h.untouched hn, trivial⟩
  · rw [hvalue, hb] at ha
    exact hmachine ▸ h.adjusted a ha
  · rw [hvalue, hb] at ha
    refine (h.again a ha q (hmachine ▸ hq)).bind ?_
    rw [hf]
    exact .pure b

/-- The same for programs that can fail. -/
theorem map {α β : Type} {x : Attempt α} {f : α → Attempt β}
    {adjusts : Except Error α → Option Adjustment} {adjusts' : Except Error β → Option Adjustment}
    (h : Settles x.run adjusts p)
    (hok : ∀ a, ∃ r, f a = Attempt.ofExcept r ∧ adjusts' r = adjusts (.ok a))
    (herror : ∀ e, adjusts' (.error e) = adjusts (.error e)) :
    Settles (x >>= f).run adjusts' p := by
  rw [ExceptT.run_bind]
  cases hr : (x.run.run answer p).1 with
  | error e => exact h.before (b := .error e) (by rw [hr]) (by rw [hr, herror])
  | ok a =>
      obtain ⟨r, hf, ha⟩ := hok a
      refine h.before (b := r) ?_ (by rw [hr, ha])
      rw [hr]
      change (f a).run = pure r
      rw [hf]
      rfl

/-- What goes before only looks, and comes to the same after the adjustment. -/
theorem after (hp : p.Sited) (hx : x.Asks answer Looks p)
    (h : (f (x.run answer p).1).Settles adjusts' (x.run answer p).2)
    (hsame : ∀ a, adjusts' ((x >>= f).run answer p).1 = some a → ∀ q : Platform,
      q.remainder = p.remainder → p.config.Adjusted a q.config → x.Repeats p q) :
    (x >>= f).Settles adjusts' p := by
  have hlook := hp.run_looks hx
  rw [Access.run_bind] at hsame
  have hrem := h.remainder.trans hlook.remainder
  have hadj := h.adjusted
  rw [hlook.config] at hadj
  refine ⟨?_, fun hn => ?_, fun a ha => ?_, fun a ha q hq => ?_⟩
  · rwa [Access.run_bind]
  · rw [Access.run_bind] at hn
    exact asks_bind.mpr ⟨hx, h.untouched hn⟩
  · rw [Access.run_bind] at ha ⊢
    exact hadj a ha
  · rw [Access.run_bind] at ha hq
    have hqp := hq.remainder.trans hrem
    have hxq := hsame a ha q hqp (hq.config ▸ hadj a ha)
    exact hxq.bind (h.again a ha _ (hq.trans ((hp.of_remainder hqp).run_looks hxq.asks)))

end Access.Settles

end DimmBus
