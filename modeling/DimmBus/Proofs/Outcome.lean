import DimmBus.Error
import DimmBus.Platform.Basic
import DimmBus.Proofs.Requests

/-!
# What becomes of a transaction

A transaction is refused and the bus left alone, or the bus executes its operation once; a success
always stands for the reply of that operation.
-/

namespace DimmBus

/-- The entry of an operation in the log. -/
def Transfer.entry (t : Transfer) : LoggedTransfer := ⟨t.slave, t.direction, t.command, t.protocol⟩

namespace Transaction

/-- What is handed up about an operation that came to its end, given the reply. -/
def Reported (tx : Transaction) (pecError : Bool) : Option Reply → Except Error Payload → Prop
  | none, r => ∃ fault status, r = .error (.bus tx.slave tx.protocol fault status) ∧
      (tx.pec = false → fault = .nak)
  | some reply, r =>
      if tx.pec && pecError then ∃ status, r = .error (.bus tx.slave tx.protocol .pec status)
      else tx.callsLatch = false → r = .ok reply.payload

/-- What a transaction may do to the bus, whatever goes wrong. -/
inductive Carried (tx : Transaction) (g : Segment) : Except Error Payload → Segment → Prop
  /-- Nobody heard of it. -/
  | refused (e : Error) : Carried tx g (.error e) g
  /-- The bus executed its operation. -/
  | executed (r : Except Error Payload)
      (h : ∀ payload, r = .ok payload → tx.callsLatch = false →
        ∃ reply, (g.execute tx.request).1 = some reply ∧ payload = reply.payload) :
      Carried tx g r (g.execute tx.request).2

theorem Reported.carried {tx : Transaction} {g : Segment} {pecError : Bool}
    {r : Except Error Payload} (h : tx.Reported pecError (g.execute tx.request).1 r) :
    tx.Carried g r (g.execute tx.request).2 := by
  refine .executed r fun payload hr hl => ?_
  subst hr
  cases hreply : (g.execute tx.request).1 with
  | none =>
      rw [hreply] at h
      obtain ⟨fault, status, he, -⟩ := h
      cases he
  | some reply =>
      rw [hreply, Reported] at h
      split at h
      · obtain ⟨status, he⟩ := h
        cases he
      · cases h hl
        exact ⟨reply, rfl, rfl⟩

/-- How a transaction ends, given whether it is kept from the bus and whether anybody looks for its
end. -/
inductive Fate (tx : Transaction) (blocked unwatched pecError : Bool) (g : Segment)
    (log : Array LoggedTransfer) :
    Except Error Payload → Segment → Array LoggedTransfer → Prop
  | refused (e : Error) (log' : Array LoggedTransfer) (hb : blocked = true) :
      Fate tx blocked unwatched pecError g log (.error e) g log'
  | late (e : Error) (t : Transfer) (hb : blocked = false) (hw : unwatched = true)
      (ht : t.Carries tx) :
      Fate tx blocked unwatched pecError g log (.error e) (g.execute tx.request).2
        (log.push t.entry)
  | reported (r : Except Error Payload) (t : Transfer) (hb : blocked = false)
      (hw : unwatched = false) (ht : t.Carries tx)
      (hr : tx.Reported pecError (g.execute tx.request).1 r) :
      Fate tx blocked unwatched pecError g log r (g.execute tx.request).2 (log.push t.entry)

theorem Fate.carried {tx : Transaction} {blocked unwatched pecError : Bool} {g g' : Segment}
    {log log' : Array LoggedTransfer} {r : Except Error Payload}
    (h : tx.Fate blocked unwatched pecError g log r g' log') : tx.Carried g r g' := by
  cases h with
  | refused e _ _ => exact .refused e
  | late e _ _ _ _ => exact .executed _ fun _ he => by cases he
  | reported r _ _ _ _ hr => exact hr.carried

/-- Only what is not kept from the bus succeeds. -/
theorem Fate.reached {tx : Transaction} {blocked unwatched pecError : Bool} {g g' : Segment}
    {log log' : Array LoggedTransfer} {payload : Payload}
    (h : tx.Fate blocked unwatched pecError g log (.ok payload) g' log') :
    blocked = false ∧ unwatched = false := by
  cases h with
  | reported _ _ hb hw _ _ => exact ⟨hb, hw⟩

/-- What is not kept from the bus is reported on. -/
theorem Fate.reports {tx : Transaction} {pecError : Bool} {g g' : Segment}
    {log log' : Array LoggedTransfer} {r : Except Error Payload}
    (h : tx.Fate false false pecError g log r g' log') :
    tx.Reported pecError (g.execute tx.request).1 r := by
  cases h with
  | refused _ _ hb => cases hb
  | late _ _ _ hw _ => cases hw
  | reported _ _ _ _ _ hr => exact hr

/-- The bus executed the operation once, and its reply is what is handed up. -/
structure Answered (tx : Transaction) (g : Segment) (log : Array LoggedTransfer)
    (r : Except Error Payload) (g' : Segment) (log' : Array LoggedTransfer) : Prop where
  reported : tx.Reported false (g.execute tx.request).1 r
  segment : g' = (g.execute tx.request).2
  logged : ∃ t : Transfer, t.Carries tx ∧ log' = log.push t.entry

theorem Fate.answered {tx : Transaction} {blocked unwatched pecError : Bool} {g g' : Segment}
    {log log' : Array LoggedTransfer} {r : Except Error Payload}
    (h : tx.Fate blocked unwatched pecError g log r g' log') (hb : blocked = false)
    (hw : unwatched = false) (hp : pecError = false) : tx.Answered g log r g' log' := by
  cases h with
  | refused _ _ hb' =>
      rw [hb] at hb'
      cases hb'
  | late _ _ _ hw' _ =>
      rw [hw] at hw'
      cases hw'
  | reported _ t _ _ ht hr =>
      rw [hp] at hr
      exact ⟨hr, rfl, t, ht, rfl⟩

end Transaction

end DimmBus
