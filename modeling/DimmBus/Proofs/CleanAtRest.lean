import DimmBus.Proofs.Hosted

/-!
# The bus is clean at rest

Everything that a transaction takes is given back, on every way out.
-/

namespace DimmBus

open Platform

/-- Nothing that was taken on `p` is still taken on `q`. -/
structure Platform.CleanFrom (p q : Platform) : Prop where
  lock : q.lockHeld = false
  ich : ∀ h, p.ich = some h → ∃ h', q.ich = some h' ∧ h'.AtRest
  inUse : q.ichInUse = false
  semaphore : q.piix4Semaphore = false
  registers : q.pm.map (·.registers) = p.pm.map (·.registers)
  port : q.selectedPort? = p.selectedPort?
  awake : ∀ m, p.mailbox = some m → q.mailboxAsleep? = some false

theorem Binding.Steady.cleanFrom {b : Binding} {w : Bench} (hw : b.Steady w)
    (hh : b.held = false) : b.machine.CleanFrom w.machine := by
  obtain ⟨-, hs, ht, -, hlock⟩ := hw
  have hrest := ht.ich
  have hsem := (ht.free hh).2
  have hpm := hs.pm
  refine ⟨hlock, fun h hich => ?_, ?_, ?_, ?_, ?_, fun m hm => ?_⟩
  · obtain ⟨h', hh', -⟩ := hs.host_ich hich
    exact ⟨h', hh', hrest h' hh'⟩
  · unfold ichInUse
    cases hich : w.machine.ich with
    | none => rfl
    | some h => exact (hrest h hich).inUse
  · unfold piix4Semaphore
    cases hpiix4 : w.machine.piix4 with
    | none => rfl
    | some h => simp [hasAny, hsem h hpiix4]
  · have hregs := congrArg (Option.map (·.registers)) hpm
    simp only [Option.map_map] at hregs
    exact hregs
  · have hsel := congrArg (Option.map (·.selected)) hpm
    simp only [Option.map_map] at hsel
    exact hsel
  · have hsome := hs.mailbox
    rw [hm, Option.isSome_some] at hsome
    obtain ⟨m', hm'⟩ := Option.isSome_iff_exists.mp hsome
    rw [mailboxAsleep?, hm', Option.map_some, ht.awake m' hm']

/-- Whatever a session does on an assembled machine, with any modules and under any faults other
than firmware that holds the semaphore, the bus is clean afterwards. -/
theorem clean_at_rest {p : Platform} (ha : p.Assembled) (segment : Segment) {config : Config}
    {w : Bench} (hw : w.StartedOn { p with segment } config) (moves : List Move)
    (hm : .inject .semaphoreHeld ∉ moves) : p.CleanFrom (w.after moves).machine := by
  obtain ⟨b, hsteady, hb, hheld, -⟩ :=
    Binding.exists_steady (ha.laid.fill p.transport segment) hw false
  obtain ⟨hlock, hich, hinUse, hsem, hregs, hport, hawake⟩ :=
    (hsteady.after (.inr hm)).cleanFrom hheld
  rw [hb] at hich hregs hport hawake
  exact ⟨hlock, hich, hinUse, hsem, hregs, hport, hawake⟩

theorem clean_at_rest_amdSample :
    ∃ w : Bench, w.StartedOn amdSample {} ∧
      amdSample.CleanFrom (w.after [.job (.probe 0), .inject .imcSilent, .inject .stall,
        .job (.read 0 0x155), .inject .lockContended, .job (.temperature 0)]).machine := by
  obtain ⟨w, hw, -⟩ := Bench.exists_startedOn {} hosted_amdSample fun _ => rfl
  exact ⟨w, hw, clean_at_rest hosted_amdSample.assembled amdSample.segment hw _ (by simp)⟩

end DimmBus
