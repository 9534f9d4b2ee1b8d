import DimmBus.Proofs.Effects

/-!
# The semaphore is given back

A transaction of an SB800-class part gives the semaphore back also when accesses fail. It stays
taken if the register cannot be accessed when it is given back, and if it is granted but the grant
cannot be read: then nobody gives it back.
-/

namespace DimmBus

open Access Attempt HostRegister Platform
open Request (Touches Board Mail)

/-! ## Calls that leave the register alone -/

section

variable {request : Request} {addresses : List UInt16}

theorem Request.Touches.avoids {base : UInt16} {reads writes : List UInt16} {pauses : Bool}
    (h : request.Touches base reads writes pauses)
    (hw : writes.all (fun offset => !addresses.contains (base + offset)) = true) :
    request.Avoids addresses := by
  simp only [List.all_eq_true, Bool.not_eq_true', List.contains_eq_mem, decide_eq_false_iff_not]
    at hw
  intro address ha value heq
  subst heq
  generalize haddress : Request.writeIo8 address value = request at h
  cases h with
  | read | sleep => cases haddress
  | write ho value' =>
      cases haddress
      exact hw _ ho ha

theorem Request.Board.avoids {pauses : Bool} (h : request.Board pauses)
    (ha : addresses.all (fun address => !([Piix4.Pm.index, Piix4.Pm.data, Piix4.Imc.index,
      Piix4.Imc.data].contains address)) = true) :
    request.Avoids addresses := by
  simp only [List.all_eq_true, Bool.not_eq_true', List.contains_eq_mem, decide_eq_false_iff_not]
    at ha
  intro address hm value heq
  subst heq
  generalize haddress : Request.writeIo8 address value = request at h
  cases h with
  | read | readMmio | writeMmio | sleep => cases haddress
  | write ho value' =>
      cases haddress
      exact ha _ hm ho

end

namespace Piix4

variable {c : Piix4} {s : Sb800} {tx : Transaction} {t : Steps} {r : Except Error Payload}

/-- The steps between the grant and the giving back. -/
def Steps.between (t : Steps) : List Call :=
  t.slept ++ ((t.selected ++ (t.worked ++ t.restored)) ++ t.woken)

theorem Steps.calls_eq (t : Steps) : t.calls = t.asked ++ (t.between ++ t.released) := by
  simp [calls, decisive, between]

theorem Taken.between_avoids (hbase : c.info.base = piix4Base) (h : Taken c s tx r t) :
    Avoids [piix4Base + slaveControl] t.between := by
  have hboard : ∀ request : Request, request.Board true →
      request.Avoids [piix4Base + slaveControl] := fun _ h => h.avoids rfl
  have hmail : Avoids [piix4Base + slaveControl] (t.slept ++ t.woken) := fun call hc =>
    hboard _ (h.mail call hc).board
  have hwork : ∀ {calls r}, (c.transact tx).Path calls r →
      Avoids [piix4Base + slaveControl] calls := fun h call hc =>
    (hbase ▸ (c.only_work tx).path h call hc).avoids rfl
  have hswitched : Avoids [piix4Base + slaveControl] (t.selected ++ (t.worked ++ t.restored)) :=
    h.switched.all ((s.pm.only_read _).mono hboard) (fun _ => (s.pm.only_write _ _).mono hboard)
      hwork
  exact hmail.left.append (hswitched.append hmail.right)

/-! ## Asking and giving back -/

/-- The semaphore is taken, or it is free. -/
def Shows (p : Platform) (taken : Bool) : Prop :=
  ∃ value, p.slaveControl? = some value ∧ hasAny value SlaveControl.hostSemaphore = taken

/-- The last that the calls do is to ask the host at `base` for the semaphore, and to fail to read
the answer. -/
def Unheard (base : UInt16) (e : Error) (calls : List Call) : Prop :=
  ∃ before value, calls = before ++
    [⟨.writeIo8 (base + slaveControl) (value ||| SlaveControl.hostSemaphore), .ok ()⟩,
      ⟨.readIo8 (base + slaveControl), .error e⟩]

theorem Unheard.preceded {base : UInt16} {e : Error} {calls : List Call} (h : Unheard base e calls)
    (before : List Call) : Unheard base e (before ++ calls) := by
  obtain ⟨middle, value, rfl⟩ := h
  exact ⟨before ++ middle, value, by simp⟩

theorem shows_iff {p : Platform} {taken : Bool} (hhost : p.piix4.isSome = true) :
    Shows p taken ↔ p.piix4Semaphore = taken := by
  obtain ⟨h, hh⟩ := Option.isSome_iff_exists.mp hhost
  simp [Shows, slaveControl?, piix4Semaphore, hh]

theorem semaphore_masks (value : UInt8) :
    hasAny (value ||| SlaveControl.hostSemaphore) SlaveControl.hostSemaphore = true ∧
      hasAny (value &&& ~~~SlaveControl.hostSemaphore) SlaveControl.hostSemaphore = false ∧
      hasAny (value ||| SlaveControl.hostRelease) SlaveControl.hostRelease = true :=
  forall_byte (P := fun value =>
    hasAny (value ||| SlaveControl.hostSemaphore) SlaveControl.hostSemaphore = true ∧
      hasAny (value &&& ~~~SlaveControl.hostSemaphore) SlaveControl.hostSemaphore = false ∧
      hasAny (value ||| SlaveControl.hostRelease) SlaveControl.hostRelease = true)
    (by decide +kernel) value

section

variable {p q : Platform} {calls : List Call} {taken : Bool}

theorem exists_shows (hhost : p.piix4.isSome = true) : ∃ taken, Shows p taken := by
  obtain ⟨h, hh⟩ := Option.isSome_iff_exists.mp hhost
  exact ⟨_, h.slaveControl, by rw [slaveControl?, hh, Option.map_some], rfl⟩

/-- The machine lets its semaphore be read, and it is taken or free. -/
structure Offers (p : Platform) (taken : Bool) : Prop where
  sited : p.Sited
  readable : p.has .semaphoreHeld = false
  shows : Shows p taken

theorem Shows.kept (hs : Shows p taken) (hp : p.Sited) (he : p.Evolves calls q)
    (ha : Avoids [piix4Base + slaveControl] calls) : Shows q taken := by
  rwa [Shows, he.semaphore hp ha]

namespace Offers

theorem kept (h : Offers p taken) (he : p.Evolves calls q)
    (ha : Avoids [piix4Base + slaveControl] calls) : Offers q taken where
  sited := he.sited h.sited
  readable := (he.has .semaphoreHeld).trans h.readable
  shows := h.shows.kept h.sited he ha

theorem read {answer : Except Error UInt8} (h : Offers p taken)
    (he : p.Evolves [⟨.readIo8 (piix4Base + slaveControl), answer⟩] q) :
    Offers q taken ∧ ((∃ e, answer = .error e) ∨
      ∃ value, answer = .ok value ∧ hasAny value SlaveControl.hostSemaphore = taken) := by
  refine ⟨h.kept he avoids_read, ?_⟩
  obtain ⟨value, hvalue, htaken⟩ := h.shows
  obtain ⟨hfailed, -⟩ | ⟨hanswer, -⟩ := he.read
  · exact .inl hfailed
  · exact .inr ⟨value, hanswer.trans (h.sited.slaveControl_read h.readable hvalue), htaken⟩

/-- After the register was written, the semaphore is taken or free. -/
theorem written {value : UInt8} (h : Offers p taken)
    (he : p.Evolves [⟨.writeIo8 (piix4Base + slaveControl) value, .ok ()⟩] q) :
    ∃ taken', Offers q taken' := by
  obtain ⟨before, hbefore, -⟩ := h.shows
  obtain ⟨⟨_, ⟨⟩⟩, -⟩ | ⟨-, hq⟩ := he.write
  have hshows := h.sited.slaveControl_write hbefore value
  rw [← hq] at hshows
  exact ⟨_, he.sited h.sited, (he.has .semaphoreHeld).trans h.readable, _, hshows, rfl⟩

end Offers

/-- A request that fails leaves the semaphore free, unless it was granted and this is not heard. -/
theorem asked_in_vain {n : Nat} {last : UInt8} {e : Error} (hbase : c.info.base = piix4Base)
    (hfree : Offers p false) (h : (c.acquireWithin n last).Path calls (.error e))
    (he : p.Evolves calls q) : Shows q false ∨ Unheard c.info.base e calls ∧ Shows q true := by
  have hregister : c.register slaveControl = piix4Base + slaveControl := by rw [register, hbase]
  induction n generalizing last calls p with
  | zero =>
      obtain ⟨rfl, -⟩ := path_throw.mp h
      cases he
      exact .inl hfree.shows
  | succ n ih =>
      simp only [acquireWithin, hregister] at h
      obtain ⟨e', hread, -⟩ | ⟨current, _, rest, q₁, rfl, hread, he₁, h, he⟩ := he.path_bind h
      · rw [path_readIo8.mp hread] at he
        exact .inl (hfree.read he).1.shows
      rw [path_readIo8.mp hread] at he₁
      have hfree₁ := (hfree.read he₁).1
      obtain ⟨e', hwrite, -⟩ | ⟨_, _, rest, q₂, rfl, hwrite, he₂, h, he⟩ := he.path_bind h
      · rw [path_writeIo8.mp hwrite] at he
        obtain ⟨-, rfl⟩ | ⟨⟨⟩, -⟩ := he.write
        exact .inl hfree₁.shows
      rw [path_writeIo8.mp hwrite] at he₂
      obtain ⟨taken, hasked⟩ := hfree₁.written he₂
      obtain ⟨e', hread', heq⟩ | ⟨value, _, rest, q₃, rfl, hread', he₃, h, he⟩ := he.path_bind h
      · rw [path_readIo8.mp hread'] at he
        have hend := (hasked.read he).1.shows
        cases taken with
        | false => exact .inl hend
        | true =>
            -- The grant is there, and nobody has heard of it.
            cases heq
            refine .inr ⟨.preceded ⟨[], current, ?_⟩ _, hend⟩
            rw [path_writeIo8.mp hwrite, path_readIo8.mp hread', hbase]
            rfl
      rw [path_readIo8.mp hread'] at he₃
      obtain ⟨hheard, ⟨_, ⟨⟩⟩ | ⟨_, ⟨⟩, htaken⟩⟩ := hasked.read he₃
      split at h
      · cases (path_pure.mp h).2
      · rename_i hrefused
        rw [Bool.not_eq_true, htaken] at hrefused
        subst hrefused
        obtain ⟨e', hsleep, -⟩ | ⟨_, _, rest, q₄, rfl, hsleep, he₄, h, he⟩ := he.path_bind h
        · cases (path_sleep.mp hsleep).2
        rw [(path_sleep.mp hsleep).1] at he₄
        refine (ih (hheard.kept he₄ avoids_sleep) h he).imp_right ?_
        exact And.imp_left fun h => (((h.preceded _).preceded _).preceded _).preceded _

/-- However it was, the semaphore is free once the register could be read and written. -/
theorem given_back (hp : p.Sited) (hshows : Shows p taken) (h : Released piix4Base calls)
    (he : p.Evolves calls q) : Failing piix4Base [slaveControl] calls ∨ Shows q false := by
  cases h with
  | unread e => exact .inl (.read_call List.mem_cons_self e)
  | written value answer =>
      obtain ⟨q', hread, hwrite⟩ := he.cons
      obtain ⟨⟨e, rfl⟩, -⟩ | ⟨-, rfl⟩ := hwrite.write
      · exact .inl ⟨_, List.mem_cons_of_mem _ List.mem_cons_self, _, List.mem_cons_self, rfl⟩
      · obtain ⟨before, hbefore, -⟩ := hshows.kept hp hread avoids_read
        refine .inr ⟨_, (hread.sited hp).slaveControl_write hbefore _, ?_⟩
        rw [if_pos (semaphore_masks value).2.2]
        exact (semaphore_masks before).2.1

/-- A granted semaphore is given back, unless the register cannot be accessed then. -/
theorem taken_semaphore {t : Steps} (hbase : c.info.base = piix4Base) (hp : p.Sited)
    (hhost : p.piix4.isSome = true) (h : Taken c s tx r t) (he : p.Evolves t.calls q) :
    Failing piix4Base [slaveControl] t.released ∨ Shows q false := by
  rw [t.calls_eq] at he
  obtain ⟨q₁, hasked, he⟩ := he.split
  obtain ⟨q₂, hbetween, hreleased⟩ := he.split
  have hp₁ := hasked.sited hp
  obtain ⟨taken, hshows⟩ := exists_shows ((hasked.isSome_piix4 hp).trans hhost)
  exact given_back (hbetween.sited hp₁) (hshows.kept hp₁ hbetween (h.between_avoids hbase))
    (hbase ▸ h.released) hreleased

/-- A transaction among failing accesses ends without the semaphore, or takes all its steps. -/
theorem flaky_transfer (p : Platform) (hdirect : c.info.transport = .direct) (hs : c.sb800 = some s)
    (tx : Transaction) (outages : Outages) :
    let v := (c.transfer tx).run.run (Flaky.answer outages) ⟨p, []⟩
    p.Evolves v.2.past v.2.platform ∧
      ((∃ e, c.acquire.Path v.2.past (.error e) ∧ v.1 = .error e) ∨
        ∃ t : Steps, v.2.past = t.calls ∧ Taken c s tx v.1 t) := by
  intro v
  obtain ⟨calls, hpast, hpath, hevolves⟩ := path_flaky (c.transfer tx).run outages ⟨p, []⟩
  have hpast : v.2.past = calls := hpast.trans (List.nil_append _)
  have htransfer : c.transfer tx = c.transferSb800 s tx := by rw [Piix4.transfer, hdirect, hs]
  rw [hpast]
  exact ⟨hevolves, path_transferSb800 (htransfer ▸ hpath)⟩

end

end Piix4

/-- A controller of the SB800 class leaves the semaphore free, whatever accesses fail, unless the
register of the semaphore cannot be accessed when it is given back, or the semaphore was asked for
and the answer could not be read: then nothing else is done, and it stays taken. -/
theorem semaphore_left {c : Piix4} {s : Piix4.Sb800} {p : Platform} (hsited : p.Sited)
    (hhost : p.piix4.isSome = true) (hheld : p.has .semaphoreHeld = false)
    (hfree : p.piix4Semaphore = false) (hbase : c.info.base = piix4Base)
    (hdirect : c.info.transport = .direct) (hs : c.sb800 = some s) (tx : Transaction)
    (outages : Outages) :
    let v := (c.transfer tx).run.run (Flaky.answer outages) ⟨p, []⟩
    v.2.platform.piix4Semaphore = false ∨
    (∃ t : Piix4.Steps, v.2.past = t.calls ∧ Piix4.Taken c s tx v.1 t ∧
      Failing c.info.base [slaveControl] t.released) ∨
    ∃ e, v.1 = .error e ∧ c.acquire.Path v.2.past (.error e) ∧
      Piix4.Unheard c.info.base e v.2.past ∧ v.2.platform.piix4Semaphore = true := by
  intro v
  obtain ⟨hevolves, hsteps⟩ := Piix4.flaky_transfer p hdirect hs tx outages
  have hhost' := (hevolves.isSome_piix4 hsited).trans hhost
  obtain ⟨e, hasked, hresult⟩ | ⟨t, hcalls, htaken⟩ := hsteps
  · obtain hend | ⟨hunheard, hend⟩ := Piix4.asked_in_vain hbase
      ⟨hsited, hheld, (Piix4.shows_iff hhost).mpr hfree⟩ hasked hevolves
    · exact .inl ((Piix4.shows_iff hhost').mp hend)
    · exact .inr (.inr ⟨e, hresult, hasked, hunheard, (Piix4.shows_iff hhost').mp hend⟩)
  · rw [hcalls] at hevolves
    obtain hfailing | hend := Piix4.taken_semaphore hbase hsited hhost htaken hevolves
    · exact .inr (.inl ⟨t, hcalls, htaken, hbase ▸ hfailing⟩)
    · exact .inl ((Piix4.shows_iff hhost').mp hend)

/-! ## The sample -/

def Controller.piix4? : Controller → Option Piix4
  | .ich _ => none
  | .piix4 c => some c

theorem Controller.exists_piix4 {c? : Option Controller} {check : Piix4 → Bool}
    (h : (c?.bind piix4?).any check = true) : ∃ c, c? = some (.piix4 c) ∧ check c = true := by
  obtain ⟨c, hc, hcheck⟩ := (Option.any_eq_true _ _).mp h
  obtain ⟨_ | c', hc', heq⟩ := Option.bind_eq_some_iff.mp hc
  · cases heq
  · cases heq
    exact ⟨c, hc', hcheck⟩

/-- The third access fails: the register of the semaphore is not read back. -/
def Outages.ofGrant : Outages := fun past request =>
  match request with
  | .readIo8 address =>
    if address = piix4Base + slaveControl ∧ past.length = 2 then some (.reported "outage") else none
  | _ => none

/-- Whether a call is the answer that the semaphore is granted. -/
def Call.grants (base : UInt16) : Call → Bool
  | ⟨.readIo8 address, .ok value⟩ =>
    address = base + slaveControl ∧ hasAny value Piix4.SlaveControl.hostSemaphore = true
  | _ => false

theorem Piix4.Taken.any_grants {c : Piix4} {s : Sb800} {tx : Transaction}
    {r : Except Error Payload} {t : Steps} (h : Taken c s tx r t) :
    t.calls.any (Call.grants c.info.base) = true := by
  obtain ⟨before, value, hasked, hgranted⟩ := granted_of_path h.asked
  simp [t.calls_eq, hasked, Call.grants, hgranted]

theorem semaphore_leaked_amdSample : ∃ (c : Piix4) (s : Piix4.Sb800),
    ((Controller.probe .direct {}).run answer amdSample).1 = some (.piix4 c) ∧
    c.info.transport = .direct ∧ c.sb800 = some s ∧
    amdSample.has .semaphoreHeld = false ∧ amdSample.piix4Semaphore = false ∧
    let v := (c.transfer (.readByteData 0x50 2)).run.run (Flaky.answer .ofGrant) ⟨amdSample, []⟩
    v.2.platform.piix4Semaphore = true ∧
    ¬ ∃ t : Piix4.Steps, v.2.past = t.calls ∧
      Piix4.Taken c s (.readByteData 0x50 2) v.1 t ∧
      Failing c.info.base [slaveControl] t.released := by
  have hrun : (((Controller.probe .direct {}).run answer amdSample).1.bind Controller.piix4?).any
      (fun c =>
        let v := (c.transfer (.readByteData 0x50 2)).run.run (Flaky.answer .ofGrant)
          ⟨amdSample, []⟩
        c.info.transport == .direct && c.sb800.isSome && v.2.platform.piix4Semaphore &&
        !v.2.past.any (Call.grants c.info.base)) = true := by
    decide +kernel
  obtain ⟨c, hc, hrun⟩ := Controller.exists_piix4 hrun
  simp only [Bool.and_eq_true, beq_iff_eq, Bool.not_eq_true'] at hrun
  obtain ⟨⟨⟨hdirect, hs⟩, htaken⟩, hungranted⟩ := hrun
  obtain ⟨s, hs⟩ := Option.isSome_iff_exists.mp hs
  refine ⟨c, s, hc, hdirect, hs, rfl, rfl, htaken, ?_⟩
  rintro ⟨t, hcalls, ht, -⟩
  rw [hcalls, ht.any_grants] at hungranted
  cases hungranted

/-- The controller of the sample is of the SB800 class, and shares the bus. -/
theorem broughtUp_amdSample : ∃ (c : Piix4) (s : Piix4.Sb800),
    ((Controller.probe .direct {}).run answer amdSample).1 = some (.piix4 c) ∧
    c.info.base = piix4Base ∧ c.info.transport = .direct ∧ c.sb800 = some s ∧
    s.notifyImc = true := by
  have hrun : (((Controller.probe .direct {}).run answer amdSample).1.bind Controller.piix4?).any
      (fun c => c.info.base == piix4Base && c.info.transport == .direct &&
        c.sb800.any (·.notifyImc)) = true := by
    decide +kernel
  obtain ⟨c, hc, hrun⟩ := Controller.exists_piix4 hrun
  simp only [Bool.and_eq_true, beq_iff_eq, Option.any_eq_true] at hrun
  obtain ⟨⟨hbase, hdirect⟩, s, hs, himc⟩ := hrun
  exact ⟨c, s, hc, hbase, hdirect, hs, himc⟩

theorem sited_amdSample : amdSample.Sited := hosted_amdSample.assembled.laid.wired.sited

theorem semaphore_left_amdSample : ∃ (c : Piix4) (s : Piix4.Sb800),
    ((Controller.probe .direct {}).run answer amdSample).1 = some (.piix4 c) ∧
    c.info.base = piix4Base ∧ c.info.transport = .direct ∧ c.sb800 = some s ∧
    let v := (c.transfer (.readByteData 0x50 2)).run.run (Flaky.answer .ofGrant) ⟨amdSample, []⟩
    (v.2.platform.piix4Semaphore = false ∨
      (∃ t : Piix4.Steps, v.2.past = t.calls ∧
        Piix4.Taken c s (.readByteData 0x50 2) v.1 t ∧
        Failing c.info.base [slaveControl] t.released) ∨
      ∃ e, v.1 = .error e ∧ c.acquire.Path v.2.past (.error e) ∧
        Piix4.Unheard c.info.base e v.2.past ∧ v.2.platform.piix4Semaphore = true) := by
  obtain ⟨c, s, hc, hbase, hdirect, hs, -⟩ := broughtUp_amdSample
  exact ⟨c, s, hc, hbase, hdirect, hs,
    semaphore_left sited_amdSample rfl rfl rfl hbase hdirect hs (.readByteData 0x50 2) .ofGrant⟩

end DimmBus
