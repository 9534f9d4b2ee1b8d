import DimmBus.Proofs.Footprint

/-!
# Stages of a transaction

What the calls on a port show of a transaction: whether it was started, on which status of the host,
with which status the wait for it ended, and what was read from the data registers after that.
-/

namespace DimmBus

open HostRegister

/-! ## Reading the calls -/

namespace Call

variable (base : UInt16)

/-- The answer to a read of a register of the host at `base`. -/
def read? (offset : UInt16) : Call → Option (Except Error UInt8)
  | ⟨.readIo8 address, answer⟩ => if address = base + offset then some answer else none
  | _ => none

/-- Whether a request writes the start bit to the host at `base`. -/
def asksStart : Request → Bool
  | .writeIo8 address value => address == base + control && hasAny value Control.start
  | _ => false

/-- Whether such a request was granted. -/
def starts : Call → Bool
  | ⟨.writeIo8 address value, answer⟩ => asksStart base (.writeIo8 address value) && answer.isOk
  | _ => false

/-- The register and the answer, of a read of the data registers. -/
def data? (call : Call) : Option (UInt16 × Except Error UInt8) :=
  [data0, data1, block].findSome? fun offset => (call.read? base offset).map (offset, ·)

end Call

variable (base : UInt16)

/-- The answers to the reads of the status, in order. -/
def statuses (calls : List Call) : List (Except Error UInt8) :=
  calls.filterMap (·.read? base status)

/-- The reads of the data registers with their answers, in order. -/
def dataReads (calls : List Call) : List (UInt16 × Except Error UInt8) :=
  calls.filterMap (·.data? base)

/-- The first final status that is read, with the calls after it. -/
def firstFinal? : List Call → Option (UInt8 × List Call)
  | [] => none
  | call :: rest =>
    match call.read? base status with
    | some (.ok seen) => if Status.isFinal seen then some (seen, rest) else firstFinal? rest
    | _ => firstFinal? rest

/-- The status that ends the wait for a transaction, the first final one after its start, with the
calls after it. -/
def endOfWait? : List Call → Option (UInt8 × List Call)
  | [] => none
  | call :: rest => if call.starts base then firstFinal? base rest else endOfWait? rest

/-! ## Stages -/

/-- No transaction has been started. -/
def Quiet (calls : List Call) : Prop := ∀ call ∈ calls, Call.asksStart base call.request = false

/-- The host was seen idle, and nothing has been started. -/
def Ready (idle : UInt8 → Bool) (calls : List Call) : Prop :=
  Quiet base calls ∧ ∃ seen, (statuses base calls).getLast? = some (.ok seen) ∧ idle seen = true

/-- One start was attempted, on an idle host, and `rest` came after it. -/
def Begun (idle : UInt8 → Bool) (granted : Bool) (rest calls : List Call) : Prop :=
  ∃ before start, calls = before ++ start :: rest ∧ Ready base idle before ∧
    Call.asksStart base start.request = true ∧ start.starts base = granted ∧ Quiet base rest

/-- At most one start was attempted, on an idle host. -/
def Once (idle : UInt8 → Bool) (calls : List Call) : Prop :=
  Quiet base calls ∨ ∃ granted rest, Begun base idle granted rest calls

/-- A transaction was started, and no final status has been read. -/
def Launched (idle : UInt8 → Bool) (calls : List Call) : Prop :=
  ∃ rest, Begun base idle true rest calls ∧ firstFinal? base rest = none

/-- A transaction was started, the wait for it ended with the status `final`, and since then `data`
was read. -/
def Concluded (idle : UInt8 → Bool) (final : UInt8) (data : List (UInt16 × Except Error UInt8))
    (calls : List Call) : Prop :=
  ∃ rest after, Begun base idle true rest calls ∧ firstFinal? base rest = some (final, after) ∧
    dataReads base after = data

variable {base : UInt16} {idle : UInt8 → Bool} {calls : List Call} {call : Call} {final : UInt8}
  {data : List (UInt16 × Except Error UInt8)}

theorem Quiet.append {more : List Call} (h : Quiet base calls) (hm : Quiet base more) :
    Quiet base (calls ++ more) := fun call hc => (List.mem_append.mp hc).elim (h call) (hm call)

theorem Quiet.snoc (h : Quiet base calls) (hc : Call.asksStart base call.request = false) :
    Quiet base (calls ++ [call]) :=
  h.append fun _ hm => List.mem_singleton.mp hm ▸ hc

theorem Quiet.once (h : Quiet base calls) : Once base idle calls := .inl h

theorem Begun.once {granted : Bool} {rest : List Call} (h : Begun base idle granted rest calls) :
    Once base idle calls := .inr ⟨granted, rest, h⟩

theorem Launched.once (h : Launched base idle calls) : Once base idle calls :=
  h.choose_spec.1.once

theorem Concluded.once (h : Concluded base idle final data calls) : Once base idle calls :=
  h.choose_spec.choose_spec.1.once

theorem Ready.once (h : Ready base idle calls) : Once base idle calls := h.1.once

theorem Begun.snoc {granted : Bool} {rest : List Call} (h : Begun base idle granted rest calls)
    (hc : Call.asksStart base call.request = false) :
    Begun base idle granted (rest ++ [call]) (calls ++ [call]) := by
  obtain ⟨before, start, rfl, hb, hs, hg, hr⟩ := h
  exact ⟨before, start, by simp, hb, hs, hg, hr.snoc hc⟩

/-! ### Calls that leave the stage as it is -/

/-- Neither a start nor a read of the data registers or of the status. -/
def Aside (base : UInt16) (request : Request) : Prop :=
  Call.asksStart base request = false ∧
    ∀ offset ∈ [status, data0, data1, block], request ≠ .readIo8 (base + offset)

theorem Aside.read {offset : UInt16} (h : Aside base call.request)
    (ho : offset ∈ [status, data0, data1, block]) : call.read? base offset = none := by
  obtain ⟨request, answer⟩ := call
  unfold Call.read?
  split
  · rename_i address answer heq
    cases heq
    exact if_neg fun ha => h.2 offset ho (congrArg Request.readIo8 ha)
  · rfl

theorem Aside.data? (h : Aside base call.request) : call.data? base = none := by
  unfold Call.data?
  rw [List.findSome?_eq_none_iff]
  intro offset ho
  rw [h.read (List.mem_cons_of_mem _ ho), Option.map_none]

/-- A condition on the calls so far that calls of a kind do not touch. -/
def Unmoved (ok : Request → Prop) (P : List Call → Prop) : Prop :=
  ∀ calls call, P calls → ok call.request → P (calls ++ [call])

theorem Unmoved.chunk {ok : Request → Prop} {P : List Call → Prop} (hP : Unmoved ok P)
    {past : List Call} (hp : P past) (hc : ∀ call ∈ calls, ok call.request) :
    P (past ++ calls) := by
  induction calls generalizing past with
  | nil => rwa [List.append_nil]
  | cons call calls ih =>
      rw [List.append_cons]
      exact ih (hP past call hp (hc call List.mem_cons_self)) fun c h =>
        hc c (List.mem_cons_of_mem _ h)

theorem once_unmoved : Unmoved (fun r => Call.asksStart base r = false) (Once base idle) := by
  rintro calls call (h | ⟨granted, rest, h⟩) hc
  · exact .inl (h.snoc hc)
  · exact (h.snoc hc).once

theorem once_aside : Unmoved (Aside base) (Once base idle) := fun _ _ h hc =>
  once_unmoved _ _ h hc.1

theorem quiet_unmoved : Unmoved (Aside base) (Quiet base) := fun _ _ h hc => h.snoc hc.1

theorem ready_unmoved : Unmoved (Aside base) (Ready base idle) := by
  rintro calls call ⟨hq, seen, hs, hi⟩ hc
  refine ⟨hq.snoc hc.1, seen, ?_, hi⟩
  rw [statuses, List.filterMap_append, List.filterMap_cons, hc.read (by decide)]
  simpa [statuses] using hs

theorem firstFinal_append {rest after more : List Call}
    (h : firstFinal? base rest = some (final, after)) :
    firstFinal? base (rest ++ more) = some (final, after ++ more) := by
  induction rest with
  | nil => cases h
  | cons call rest ih =>
      rw [List.cons_append]
      unfold firstFinal? at h ⊢
      split at h
      · split at h
        · cases h
          simp_all
        · simp_all
      · simp_all

theorem firstFinal_skip {rest more : List Call} (h : firstFinal? base rest = none) :
    firstFinal? base (rest ++ more) = firstFinal? base more := by
  induction rest with
  | nil => rfl
  | cons call rest ih =>
      rw [List.cons_append]
      unfold firstFinal? at h
      rw [firstFinal?]
      split at h
      · split at h
        · cases h
        · simp_all
      · simp_all

theorem launched_unmoved : Unmoved (Aside base) (Launched base idle) := by
  rintro calls call ⟨rest, hb, hn⟩ hc
  refine ⟨rest ++ [call], hb.snoc hc.1, ?_⟩
  rw [firstFinal_skip hn, firstFinal?, hc.read (by decide)]
  rfl

theorem Concluded.snoc (h : Concluded base idle final data calls)
    (hc : Call.asksStart base call.request = false) :
    Concluded base idle final (data ++ (call.data? base).toList) (calls ++ [call]) := by
  obtain ⟨rest, after, hb, hf, rfl⟩ := h
  refine ⟨rest ++ [call], after ++ [call], hb.snoc hc, firstFinal_append hf, ?_⟩
  rw [dataReads, List.filterMap_append]
  cases h : call.data? base <;> simp [h, dataReads]

theorem concluded_unmoved : Unmoved (Aside base) (Concluded base idle final data) := by
  intro calls call h hc
  have hs := h.snoc hc.1
  rwa [hc.data?, Option.toList_none, List.append_nil] at hs

/-! ### Calls that lead to the next stage -/

section

variable {address offset : UInt16} {value : UInt8} {e : Error} {answer : Except Error UInt8}

theorem read_readIo8 (register : UInt16) :
    Call.read? base offset ⟨.readIo8 (base + register), answer⟩ =
      if register = offset then some answer else none := by
  have h : base + register = base + offset ↔ register = offset := UInt16.add_right_inj base
  simp only [Call.read?, h]

theorem Quiet.ready (h : Quiet base calls) (hi : idle value = true) :
    Ready base idle (calls ++ [⟨.readIo8 (base + status), .ok value⟩]) := by
  refine ⟨h.snoc rfl, value, ?_, hi⟩
  rw [statuses, List.filterMap_append, List.filterMap_cons, read_readIo8, if_pos rfl]
  simp

theorem asksStart_clear (hv : hasAny value Control.start = false) :
    Call.asksStart base (.writeIo8 address value) = false := by
  simp [Call.asksStart, hv]

theorem asksStart_ne (ha : address ≠ base + HostRegister.control) :
    Call.asksStart base (.writeIo8 address value) = false := by
  simp [Call.asksStart, ha]

theorem asksStart_control (hv : hasAny value Control.start = true) :
    Call.asksStart base (.writeIo8 (base + control) value) = true := by
  simp [Call.asksStart, hv]

theorem Ready.launched (h : Ready base idle calls) (hv : hasAny value Control.start = true) :
    Launched base idle (calls ++ [⟨.writeIo8 (base + control) value, .ok ()⟩]) :=
  ⟨[], ⟨calls, _, rfl, h, asksStart_control hv, by
    simp [Call.starts, asksStart_control hv, Except.isOk, Except.toBool], nofun⟩, rfl⟩

theorem Ready.refused (h : Ready base idle calls) (hv : hasAny value Control.start = true) :
    Once base idle (calls ++ [⟨.writeIo8 (base + control) value, .error e⟩]) :=
  .inr ⟨false, [], calls, _, rfl, h, asksStart_control hv, by
    simp [Call.starts, Except.isOk, Except.toBool], nofun⟩

theorem Launched.wait (h : Launched base idle calls) (hv : Status.isFinal value = false) :
    Launched base idle (calls ++ [⟨.readIo8 (base + status), .ok value⟩]) := by
  obtain ⟨rest, hb, hn⟩ := h
  refine ⟨_, hb.snoc rfl, ?_⟩
  rw [firstFinal_skip hn, firstFinal?, read_readIo8, if_pos rfl]
  simp [hv, firstFinal?]

theorem Launched.concluded (h : Launched base idle calls) (hv : Status.isFinal value = true) :
    Concluded base idle value [] (calls ++ [⟨.readIo8 (base + status), .ok value⟩]) := by
  obtain ⟨rest, hb, hn⟩ := h
  refine ⟨_, [], hb.snoc rfl, ?_, rfl⟩
  rw [firstFinal_skip hn, firstFinal?, read_readIo8, if_pos rfl]
  simp [hv]

theorem data_readIo8 (register : UInt16) :
    Call.data? base ⟨.readIo8 (base + register), answer⟩ =
      if register ∈ [data0, data1, block] then some (register, answer) else none := by
  unfold Call.data?
  simp only [read_readIo8, List.findSome?_cons, List.findSome?_nil, List.mem_cons,
    List.not_mem_nil, or_false]
  by_cases h0 : register = data0
  · simp [h0]
  by_cases h1 : register = data1
  · simp [h1, show data1 ≠ data0 by decide]
  by_cases h2 : register = block
  · simp [h2, show block ≠ data0 by decide, show block ≠ data1 by decide]
  · simp [h0, h1, h2]

theorem Concluded.read (h : Concluded base idle final data calls)
    (ho : offset ∈ [data0, data1, block]) :
    Concluded base idle final (data ++ [(offset, answer)])
      (calls ++ [⟨.readIo8 (base + offset), answer⟩]) := by
  have hs : Concluded base idle final _ (calls ++ [⟨.readIo8 (base + offset), answer⟩]) :=
    h.snoc rfl
  rwa [data_readIo8, if_pos ho] at hs

/-- A read of the status after the wait is over does not count. -/
theorem Concluded.look (h : Concluded base idle final data calls) :
    Concluded base idle final data (calls ++ [⟨.readIo8 (base + status), answer⟩]) := by
  have hs : Concluded base idle final _ (calls ++ [⟨.readIo8 (base + status), answer⟩]) :=
    h.snoc rfl
  rwa [data_readIo8, if_neg (by decide), Option.toList_none, List.append_nil] at hs

end

end DimmBus
