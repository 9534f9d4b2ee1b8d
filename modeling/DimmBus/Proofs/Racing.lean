import DimmBus.Proofs.SharedBlock
import DimmBus.Proofs.Sharing

/-!
# Bring-up beside a session at work

Two users of one machine, request by request: one works in its session, the other brings a session
up. A user that asks for the bus lock waits as long as it is held, but bring-up never asks for it.
So the index of the power-management block may be moved between the two halves of an access. Where
that never happens, the two do not disturb each other.
-/

namespace DimmBus

open Platform Session

/-- A request for the lock is not made while it is held. -/
def Request.waits (machine : Platform) : Request → Bool
  | .lock _ => machine.lockHeld
  | _ => false

/-- The request moves the index of the power-management block. -/
def Request.points : Request → Bool
  | .writeIo8 address _ => address = Piix4.Pm.index
  | _ => false

/-- The request goes to the register that the index points at. -/
def Request.followsIndex : Request → Bool
  | .readIo8 address | .writeIo8 address _ => address = Piix4.Pm.data
  | _ => false

/-- Two users, and what each of them has left to do. -/
structure Race where
  machine : Platform
  program : User → Access (Option Session)
  /-- Who moved the index of the power-management block last. -/
  pointedBy : Option User

/-- Job after job. -/
def Session.workThrough (s : Session) : List Job → Access Session
  | [] => return s
  | job :: jobs => do
    let (_, s) ← s.perform job.work
    s.workThrough jobs

/-- The value of a program that is at its end. -/
def Access.value? {α : Type} : Access α → Option α
  | .done value => some value
  | .call .. => none

/-- Brings a session up and does its jobs. -/
def Session.working (transport : Transport) (config : Config) (jobs : List Job) :
    Access (Option Session) := do
  match ← bringUp transport config with
  | some s => some <$> s.workThrough jobs
  | none => return none

namespace Race

/-- The first user works in its session; the second only brings one up. -/
def start (p : Platform) (config : User → Config) (jobs : List Job) : Race where
  machine := p
  program
    | .first => working p.transport (config .first) jobs
    | .second => bringUp p.transport (config .second)
  pointedBy := none

/-- The next request of a user. -/
def step (r : Race) (u : User) : Race :=
  match r.program u with
  | .done _ => r
  | .call request next =>
    if request.waits r.machine then r
    else
      let (answer, machine) := answer request r.machine
      ⟨machine, fun w => if w = u then next answer else r.program w,
        if request.points then some u else r.pointedBy⟩

def after (r : Race) (schedule : List User) : Race := schedule.foldl step r

/-- The next request of the user goes where somebody else has moved the index. -/
def tears (r : Race) (u : User) : Bool :=
  match r.program u with
  | .done _ => false
  | .call request _ => request.followsIndex && r.pointedBy != some u

/-- No access to the block is torn. -/
def untorn (r : Race) : List User → Bool
  | [] => true
  | u :: schedule => !r.tears u && (r.step u).untorn schedule

end Race

/-! ## An access that is torn -/

/-- An AMD part whose block is reached through the index and data addresses. -/
def Platform.indexedSample : Platform := ({} : Platform).withPiix4 Pci.Vendor.amd 0x790B 0x4A

/-- The first user takes the second output. -/
def User.config : User → Config
  | .first => { piix4Port := 1 }
  | .second => {}

/-- The first user runs a transaction. -/
def Race.sample : Race := start indexedSample User.config [.transfer (.quick 0x50 .write)]

/-- The first user gets so many requests far, then the other brings its session up, and then the
first one goes on to its end. -/
def Race.interrupted (requests : Nat) : List User :=
  List.replicate requests .first ++ (List.replicate 426 .second ++ List.replicate 16 .first)

/-- The second user moves the index just before the first one sets the multiplexer. The setting goes
to the register that holds the base address, and stays there. -/
theorem torn_race_moves_base :
    let r := Race.sample.after (Race.interrupted 433)
    (r.program .first).value?.isSome = true ∧ (r.program .second).value?.isSome = true ∧
      (r.machine.pm.map fun b => b.registers.read 1) = some 0x08 ∧
      (indexedSample.pm.map fun b => b.registers.read 1) = some 0x0B := by
  decide +kernel

/-! ## The machine under both -/

namespace Platform

/-- A machine with one host that has this block beside it, whatever else has become of it. -/
structure Around (config : ConfigSpace) (b : PmBlock) (q : Platform) : Prop where
  transport : q.transport = .direct
  config : q.config = config
  ich : q.ich = none
  piix4 : ∃ h, q.piix4 = some h ∧ h.Is .piix4 piix4Base
  pm : q.pm = some b

variable {config : ConfigSpace} {b : PmBlock} {q : Platform} {h : Host} {register : UInt16}

namespace Around

theorem setHost (hq : q.Around config b) (hh : h.Is .piix4 piix4Base) :
    (q.setHost h).Around config b := by
  have hp : h.isPiix4 = true := by simp [Host.isPiix4, hh.1]
  rw [Platform.setHost, if_pos hp]
  exact ⟨hq.transport, hq.config, hq.ich, ⟨h, rfl, hh⟩, hq.pm⟩

/-- What nobody here looks at may become anything. -/
theorem alter (hq : q.Around config b) (mailbox : Option Mailbox) (segment : Segment)
    (lockHeld : Bool) (counters : Counters) :
    ({ q with mailbox, segment, lockHeld, counters } : Platform).Around config b :=
  ⟨hq.transport, hq.config, hq.ich, hq.piix4, hq.pm⟩

theorem is_of_decode (hq : q.Around config b) {address : UInt16}
    (hd : q.decode? address = some (h, register)) : h.Is .piix4 piix4Base := by
  obtain ⟨h', hh', his⟩ := hq.piix4
  have hd : ((h'.decode? address).bind fun register => some (h', register)) = some (h, register) :=
    by simpa [decode?, hq.ich, hh'] using hd
  obtain ⟨_, _, hpair⟩ := Option.bind_eq_some_iff.mp hd
  cases hpair
  exact his

theorem decode_none (hq : q.Around config b) {address : UInt16}
    (ha : ¬(piix4Base ≤ address ∧ address - piix4Base < 0x10)) : q.decode? address = none := by
  obtain ⟨h, hh, his⟩ := hq.piix4
  have hd : h.decode? address = none := by
    rw [Host.decode?, his.2, if_neg ha]
  simp [decode?, hq.ich, hh, hd]

theorem start (hq : q.Around config b) (hh : h.Is .piix4 piix4Base) :
    (q.start h).Around config b := by
  unfold Platform.start
  split
  · exact (hq.setHost (h := { h with stalled := true }) hh).alter ..
  · split
    · exact hq.setHost (h := { h with status := h.status ||| Status.deviceError }) hh
    · rename_i protocol _
      have hrun : (q.runTransfer h.isPiix4 (h.loaded protocol)).2.Around config b := by
        unfold runTransfer
        dsimp only
        split
        · exact hq.alter ..
        · exact hq.alter ..
      exact hrun.setHost (hh.of_place (h.place_complete _ _))

theorem readIo (hq : q.Around config b) (address : UInt16) :
    (q.readIo address).2.Around config b := by
  unfold Platform.readIo
  split
  · rename_i h register hd
    exact hq.setHost ((hq.is_of_decode hd).of_place (h.place_read register _ _))
  · exact hq

theorem writeIo (hq : q.Around config b) {address : UInt16} (value : UInt8)
    (hi : address ≠ Piix4.Pm.index) (hd : address ≠ Piix4.Pm.data) :
    (q.writeIo address value).Around config b := by
  unfold Platform.writeIo
  split
  · rename_i h register hdecode
    have his := (hq.is_of_decode hdecode).of_place (h.place_write register value)
    dsimp only
    unfold follow
    split
    · exact hq.setHost his
    · exact (hq.setHost his).alter ..
    · exact hq.start his
  · rw [if_neg (not_or.mpr ⟨hi, hd⟩)]
    split
    · exact hq.alter ..
    · split
      · unfold Platform.writeMailbox
        split
        · exact hq
        · exact hq.alter ..
      · exact hq

/-- A request that spares the block. -/
theorem answer_spares (hq : q.Around config b) {request : Request}
    (hs : request.spares = true) : (answer request q).2.Around config b := by
  have hc : q.counted.Around config b := hq.alter ..
  cases request with
  | readIo8 address => exact hc.readIo address
  | writeIo8 address value =>
      simp only [Request.spares, decide_eq_true_eq] at hs
      exact hc.writeIo value hs.1 hs.2
  | lock timeoutUs =>
      simp only [answer, takeLock]
      split
      · exact hc
      · exact hc.alter ..
  | delegate routine words answerWords =>
      simp only [answer, hq.transport]
      exact hq
  | writePci8 _ _ _ | writePci16 _ _ _ | writePci32 _ _ _ | writeMmio8 _ _ => cases hs
  | _ => exact hc.alter ..

theorem pmIndex_none (hq : q.Around config b) : q.decode? Piix4.Pm.index = none :=
  hq.decode_none (by decide)

theorem pmData_none (hq : q.Around config b) : q.decode? Piix4.Pm.data = none :=
  hq.decode_none (by decide)

theorem answer_point (hq : q.Around config b) (hw : b.windowOnly = false) (index : UInt8) :
    (answer (.writeIo8 Piix4.Pm.index index) q).2.Around config { b with index } := by
  have hc : q.counted.Around config b := hq.alter ..
  simp only [answer]
  rw [← equip_self hc.pm, writeIo_pmIndex _ hc.pmIndex_none hw]
  exact ⟨hc.transport, hc.config, hc.ich, hc.piix4, rfl⟩

theorem answer_data (hq : q.Around config b) (hw : b.windowOnly = false) :
    (answer (.readIo8 Piix4.Pm.data) q).1 = .ok (b.registers.read b.index.toNat) := by
  have hc : q.counted.Around config b := hq.alter ..
  simp only [answer]
  rw [← equip_self hc.pm, readIo_pmData hc.pmData_none hw]

theorem answer_set (hq : q.Around config b) (hw : b.windowOnly = false) (value : UInt8) :
    (answer (.writeIo8 Piix4.Pm.data value) q).2.Around config
      { b with registers := b.registers.write b.index.toNat value } := by
  have hc : q.counted.Around config b := hq.alter ..
  simp only [answer]
  rw [← equip_self hc.pm, writeIo_pmData _ hc.pmData_none hw]
  exact ⟨hc.transport, hc.config, hc.ich, hc.piix4, rfl⟩

end Around

end Platform

/-! ## A user at work -/

namespace Session

variable {b : PmBlock} {config : ConfigSpace} {c : Piix4} {own : UInt8} {v : Stake}

theorem heeds_job {link : Link} (hlink : link.controller = .piix4 c) (hc : c.Drives b)
    (hown : own = b.registers.read b.selector.register.toNat) (job : Job) (m : Memory)
    (hv : v.field = some own) :
    ((job.work link).run m).Heeds (b.pact config) (fun _ v' => v'.field = some own) v := by
  have hscripted : Scripted link.controller (job.Permits m) false false
      (Tenet.vouched m).holds (job.work link) fun _ => (Tenet.vouched m).holds := scripted_job job
  obtain ⟨script, hperform, -⟩ := hscripted m
  rw [← hperform]
  refine script.heeds (Q := fun v' : Stake => v'.field = some own) (fun v' request hv' hplain => ?_)
    (fun tx v' hv' => ?_) hv
  · -- Neither the lock nor its release has to do with the block.
    cases request with
    | lock | unlock => exact ⟨.aside rfl, fun _ => hv'⟩
    | _ => exact absurd trivial hplain
  · rw [hlink]
    refine Access.Heeds.mono (Piix4.restores_transfer hc hown tx v' hv') fun r v'' h => ?_
    cases r <;> exact h

theorem heeds_workThrough (hc : c.Drives b)
    (hown : own = b.registers.read b.selector.register.toNat) (jobs : List Job) {s : Session}
    (hs : s.link.controller = .piix4 c) (hv : v.field = some own) :
    (s.workThrough jobs).Heeds (b.pact config) (fun _ v' => v'.field = some own) v := by
  induction jobs generalizing s v with
  | nil => exact hv
  | cons job jobs ih =>
      refine Access.Heeds.bind (Q := fun r v' => r.2.link = s.link ∧ v'.field = some own) ?_
        fun r v' h => ih (h.1 ▸ hs) h.2
      exact (heeds_job hs hc hown job s.memory hv).bind fun r v' hv' => ⟨rfl, hv'⟩

variable {vendor device : UInt16} {revision : UInt8} {p : Platform}

/-- Once its work is done, a session has left the multiplexer as it was. -/
theorem heeds_working (hp : Piix4.Solo vendor device revision p)
    (hw : Piix4.usesPmWindow vendor device revision = false)
    (hb : pmBlock vendor device revision = b) {session : Config}
    (hown : own = b.registers.read b.selector.register.toNat) (jobs : List Job)
    (hv : v.field = some own) : (working .direct session jobs).Heeds (b.pact p.config)
      (fun _ v' => v'.field = some own) v := by
  unfold working
  refine Access.Heeds.bind (heeds_bringUp (Q := fun s? v' => v'.field = some own ∧
    ∀ s ∈ s?, ∃ c, s.link.controller = .piix4 c ∧ c.Drives b) hp hw hb
    (fun c v' hc hv' => ⟨hv'.trans hv, fun s hs => ?_⟩) fun _ => ⟨hv, fun s hs => ?_⟩)
    fun s? v' h => ?_
  · cases hs
    exact ⟨c, rfl, hc⟩
  · cases hs
  · cases s? with
    | none => exact h.1
    | some s =>
        obtain ⟨c, hlink, hc⟩ := h.2 s rfl
        exact (heeds_workThrough hc hown jobs hlink h.1).map fun _ _ hv' => hv'

end Session

/-! ## A race without torn accesses -/

namespace Race

variable {b : PmBlock} {config : ConfigSpace} {post : User → Option Session → Stake → Prop}
  {r : Race} {v : User → Stake} {u : User}

/-- The register of the multiplexer, as the first user has left it. -/
def left (b : PmBlock) (value index : UInt8) : PmBlock :=
  { b with registers := b.registers.write b.selector.register.toNat value, index }

/-- Both users heed the way in which the block is shared, and the block is as the first user has
left it. Who moved the index last knows where it is. -/
structure Sound (b : PmBlock) (config : ConfigSpace) (post : User → Option Session → Stake → Prop)
    (r : Race) (v : User → Stake) : Prop where
  machine : ∃ value index, r.machine.Around config (left b value index) ∧
    b.Shows b.selector.register value ∧ (v .first).field = some value ∧
    ∀ u, r.pointedBy = some u → (v u).index = some index
  onlooker : (v .second).field = none
  heeds : ∀ u, (r.program u).Heeds (b.pact config) (post u) (v u)

theorem shows_left {value : UInt8} (hv : b.Shows b.selector.register value) (i index : UInt8) :
    b.Shows i ((left b value index).registers.read i.toNat) := by
  rw [left, RegisterFile.read_write]
  by_cases hi : i = b.selector.register
  · rw [hi, if_pos rfl]
    exact hv
  · have hne : ¬b.selector.register.toNat % 256 = i.toNat % 256 := fun heq => hi <| by
      have h₁ := i.toNat_lt
      have h₂ := b.selector.register.toNat_lt
      exact UInt8.toNat_inj.mp (by omega)
    rw [if_neg hne, PmBlock.Shows, if_neg hi]

/-- A user is answered as it relies on. -/
theorem Sound.certain (h : r.Sound b config post v) (hw : b.windowOnly = false)
    {request : Request} {next : request.Answer → Access (Option Session)}
    (hp : r.program u = .call request next) (ht : r.tears u = false) :
    b.Certain config (v u) request (answer request r.machine).1 := by
  obtain ⟨value, index, haround, hvalue, hfield, hindex⟩ := h.machine
  cases request with
  | readPci8 | readPci16 | readPci32 =>
      rw [← haround.config]
      rfl
  | writeIo8 => rfl
  | readIo8 address =>
      rintro rfl i hi
      have hmine : r.pointedBy = some u := by
        simpa [tears, hp, Request.followsIndex] using ht
      have hat : i = index := by
        rw [hindex u hmine] at hi
        exact (Option.some.inj hi).symm
      subst hat
      refine ⟨_, haround.answer_data hw, shows_left hvalue i i, fun own hown hreg => ?_⟩
      cases u with
      | first =>
          rw [hfield] at hown
          cases hown
          rw [hreg]
          exact RegisterFile.read_write_self ..
      | second =>
          rw [h.onlooker] at hown
          cases hown
  | _ => trivial

/-- What the users keep track of after a request of one of them. -/
def moved (v : User → Stake) (u : User) (request : Request) (w : User) : Stake :=
  if w = u then (v u).next request else v w

theorem moved_self (v : User → Stake) (u : User) (request : Request) :
    moved v u request u = (v u).next request := if_pos rfl

theorem moved_spares (v : User → Stake) (u : User) {request : Request}
    (hs : request.spares = true) : moved v u request = v := by
  funext w
  unfold moved
  split
  · rename_i hw
    rw [hw, Stake.next_spares hs]
  · rfl

theorem points_spares {request : Request} (hs : request.spares = true) :
    request.points = false := by
  cases request with
  | writeIo8 address value =>
      simp only [Request.spares, decide_eq_true_eq] at hs
      exact decide_eq_false hs.1
  | _ => rfl

/-- One request leaves the block as the first user has left it. -/
theorem Sound.machine_step (h : r.Sound b config post v) (hw : b.windowOnly = false)
    {request : Request} {next : request.Answer → Access (Option Session)}
    (hp : r.program u = .call request next) (ht : r.tears u = false)
    (hmay : b.Allows (v u) request) :
    ∃ value index, (answer request r.machine).2.Around config (left b value index) ∧
      b.Shows b.selector.register value ∧ (moved v u request .first).field = some value ∧
      ∀ w, (if request.points then some u else r.pointedBy) = some w →
        (moved v u request w).index = some index := by
  obtain ⟨value, index, haround, hvalue, hfield, hindex⟩ := h.machine
  cases hmay with
  | aside hs =>
      refine ⟨value, index, haround.answer_spares hs, hvalue, ?_⟩
      rw [moved_spares v u hs, points_spares hs]
      exact ⟨hfield, hindex⟩
  | point i =>
      refine ⟨value, i, haround.answer_point hw i, hvalue, ?_, fun w hpoint => ?_⟩
      · cases u <;> exact hfield
      · obtain rfl : u = w := Option.some.inj hpoint
        rw [moved_self]
        rfl
  | @set new hi hf hs =>
      cases u with
      | second =>
          rw [h.onlooker] at hf
          cases hf
      | first =>
          have hmine : r.pointedBy = some .first := by
            simpa [tears, hp, Request.followsIndex] using ht
          have hat : index = b.selector.register := by
            rw [hindex _ hmine] at hi
            exact Option.some.inj hi
          subst hat
          have hset := haround.answer_set hw new
          refine ⟨new, b.selector.register, ?_, hs, ?_, fun w hpoint => ?_⟩
          · simpa only [left, RegisterFile.write_write] using hset
          · rw [moved_self, Stake.next_set, hfield]
            rfl
          · have hpoint : r.pointedBy = some w := hpoint
            obtain rfl : w = .first := by
              rw [hmine] at hpoint
              exact (Option.some.inj hpoint).symm
            rw [moved_self, Stake.next_set]
            exact hi

theorem Sound.step (h : r.Sound b config post v) (hw : b.windowOnly = false)
    (ht : r.tears u = false) : ∃ v', (r.step u).Sound b config post v' := by
  unfold Race.step
  cases hp : r.program u with
  | done _ => exact ⟨v, h⟩
  | call request next =>
      dsimp only
      by_cases hwait : request.waits r.machine = true
      · rw [if_pos hwait]
        exact ⟨v, h⟩
      · rw [if_neg hwait]
        have hheeds := h.heeds u
        rw [hp] at hheeds
        obtain ⟨hmay, hnext⟩ := hheeds
        refine ⟨moved v u request, h.machine_step hw hp ht hmay, ?_, fun w => ?_⟩
        · cases u with
          | first => exact h.onlooker
          | second => exact Stake.next_field h.onlooker request
        · by_cases hwu : w = u
          · subst hwu
            rw [moved_self]
            simp only [if_true]
            exact hnext _ (h.certain hw hp ht)
          · simp only [moved, if_neg hwu]
            exact h.heeds w

theorem Sound.after (h : r.Sound b config post v) (hw : b.windowOnly = false)
    {schedule : List User} (hu : r.untorn schedule = true) :
    ∃ v', (r.after schedule).Sound b config post v' := by
  induction schedule generalizing r v with
  | nil => exact ⟨v, h⟩
  | cons u schedule ih =>
      simp only [untorn, Bool.and_eq_true, Bool.not_eq_true'] at hu
      obtain ⟨v', h'⟩ := h.step hw hu.1
      exact ih h' hu.2

/-- What the users have in the end: the first has put the multiplexer back, the second knows where
the host is. -/
def goal (b : PmBlock) : User → Option Session → Stake → Prop
  | .first, _, v => v.field = some (b.registers.read b.selector.register.toNat)
  | .second, s?, _ => ∃ s, s? = some s ∧ s.info.base = piix4Base

theorem exists_sound {vendor device : UInt16} {revision : UInt8} {p : Platform}
    (hp : Piix4.Solo vendor device revision p) (ht : p.transport = .direct)
    (hw : Piix4.usesPmWindow vendor device revision = false)
    (hb : pmBlock vendor device revision = b) (hindex : b.index = 0) (faults : List Fault)
    {config : User → Config} (hport : (config .second).piix4Port < 4) (jobs : List Job) :
    ∃ v, (start { p with faults } config jobs).Sound b p.config (goal b) v := by
  let own := b.registers.read b.selector.register.toNat
  let v : User → Stake
    | .first => ⟨none, some own⟩
    | .second => ⟨none, none⟩
  have hleft : p.pm = some (left b own 0) := by
    rw [left, RegisterFile.write_read_self, ← hindex, hp.pm, hb]
  refine ⟨v, ⟨own, 0, ⟨ht, rfl, hp.ich, hp.piix4, hleft⟩, ?_, rfl, nofun⟩, rfl, fun u => ?_⟩
  · rw [PmBlock.Shows, if_pos rfl]
  · simp only [start, ht]
    cases u with
    | first => exact heeds_working hp hw hb rfl jobs rfl
    | second =>
        refine heeds_bringUp hp hw hb (fun c _ hc _ => ⟨_, rfl, hc.base⟩) fun hle => ?_
        exact absurd hport (UInt8.not_lt.mpr hle)

end Race

/-- The machine is driven directly, and its block is reached through the index and data
addresses. -/
def Platform.Indexed (p : Platform) : Prop :=
  p.transport = .direct ∧ ∃ b, p.pm = some b ∧ b.windowOnly = false

/-- On a machine whose block is reached through the index and data addresses, with any faults, one
user works in its session on any output while another one brings a session up. If no access to the
block is torn, the first one leaves the block as it was, but for the index, and the second one finds
the host. -/
theorem untorn_race_harmless {p machine : Platform} {faults : List Fault} (hp : p.Hosted .piix4)
    (hi : p.Indexed) (hm : machine = { p with faults }) {config : User → Config}
    (hport : (config .second).piix4Port < 4) {jobs : List Job} {schedule : List User}
    (hu : (Race.start machine config jobs).untorn schedule = true) {r : Race}
    (hr : (Race.start machine config jobs).after schedule = r) :
    ((r.program .first).value?.isSome = true →
      r.machine.pm.map PmBlock.rewound = p.pm.map PmBlock.rewound) ∧
    ∀ s?, (r.program .second).value? = some s? →
      ∃ s h, s? = some s ∧ p.piix4 = some h ∧ s.info.base = h.base := by
  subst hm
  obtain ⟨ht, b, hb, hw⟩ := hi
  obtain ⟨vendor, device, revision, hs⟩ := Piix4.exists_solo hp (by rw [hb]; rfl)
  have hblock : pmBlock vendor device revision = b := Option.some.inj (hs.pm.symm.trans hb)
  have hindex : b.index = 0 := hblock ▸ rfl
  have hwindow : Piix4.usesPmWindow vendor device revision = false := by
    rw [← pmBlock_windowOnly, hblock, hw]
  obtain ⟨v, hstart⟩ := Race.exists_sound hs ht hwindow hblock hindex faults hport jobs
  obtain ⟨v', h⟩ := hstart.after hw hu
  rw [hr] at h
  refine ⟨fun hdone => ?_, fun s? hdone => ?_⟩
  · obtain ⟨value, index, haround, -, hfield, -⟩ := h.machine
    have hfirst := h.heeds .first
    cases hprogram : r.program .first with
    | call request next =>
        rw [hprogram] at hdone
        cases hdone
    | done a =>
        rw [hprogram] at hfirst
        have hback : (v' .first).field = some _ := hfirst
        rw [hfield] at hback
        cases hback
        rw [haround.pm, hb, Option.map_some, Option.map_some, Race.left,
          RegisterFile.write_read_self]
        rfl
  · have hsecond := h.heeds .second
    cases hprogram : r.program .second with
    | call request next =>
        rw [hprogram] at hdone
        cases hdone
    | done a =>
        rw [hprogram] at hdone hsecond
        cases hdone
        obtain ⟨s, hs?, hbase⟩ := hsecond
        obtain ⟨host, hhost, his⟩ := hs.piix4
        exact ⟨s, host, hs?, hhost, hbase.trans his.2.symm⟩

/-- One request later, with the multiplexer already set, the other user does no harm. -/
theorem untorn_race_harmless_indexedSample : ∃ r,
    Race.sample.after (Race.interrupted 434) = r ∧
    r.machine.pm.map PmBlock.rewound = indexedSample.pm.map PmBlock.rewound ∧
    ∃ s h, (r.program .second).value? = some (some s) ∧ indexedSample.piix4 = some h ∧
      s.info.base = h.base := by
  have hp : indexedSample.Hosted .piix4 := .piix4 (by decide) 0x4A
  have hi : indexedSample.Indexed :=
    ⟨rfl, pmBlock Pci.Vendor.amd 0x790B 0x4A, rfl, by rw [pmBlock_windowOnly]; decide⟩
  have hm : indexedSample = { indexedSample with faults := [] } := rfl
  have hport : (User.config .second).piix4Port < 4 := by decide
  have hu : Race.sample.untorn (Race.interrupted 434) = true := by decide +kernel
  have hends : ∀ u : User,
      ((Race.sample.after (Race.interrupted 434)).program u).value?.isSome = true := by
    have hboth :
        ((Race.sample.after (Race.interrupted 434)).program .first).value?.isSome = true ∧
        ((Race.sample.after (Race.interrupted 434)).program .second).value?.isSome = true := by
      decide +kernel
    rintro (_ | _)
    · exact hboth.1
    · exact hboth.2
  generalize hr : Race.sample.after (Race.interrupted 434) = r at hends
  have h := untorn_race_harmless hp hi hm hport hu hr
  obtain ⟨s?, hs?⟩ := Option.isSome_iff_exists.mp (hends .second)
  obtain ⟨s, host, rfl, hhost, hbase⟩ := h.2 s? hs?
  exact ⟨r, rfl, h.1 (hends .first), s, host, hs?, hhost, hbase⟩

end DimmBus
