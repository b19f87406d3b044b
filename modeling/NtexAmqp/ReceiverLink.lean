import NtexAmqp.Basic

namespace NtexAmqp

/-- `futures::Async`: a value, or a parked caller. -/
inductive Async (β : Type)
  | ready (value : β)
  | notReady
  deriving DecidableEq, Repr

/-- What a receiver link asks of its session, and what its reader is given, in order. -/
inductive ReceiverEvent (τ : Type)
  /-- `session.rcv_link_flow(handle as u32, delivery_count, credit)` -/
  | flow (handle deliveryCount credit : U32)
  /-- `session.detach_receiver_link(handle, true, error, tx)` -/
  | detach (handle : Nat) (error : Option Error)
  /-- `tx.send(Ok(()))`: the close future resolves at once -/
  | closeResolved
  /-- the result of `ReceiverLink::poll` -/
  | polled (result : Async (Option τ))
  deriving DecidableEq, Repr

/-- `ReceiverLinkInner`; `readerTask` says whether a reader parked by `poll` is not yet notified. -/
structure ReceiverLinkInner (τ : Type) where
  handle : Nat
  closed : Bool
  readerTask : Bool
  queue : List τ
  credit : U32
  deliveryCount : U32
  deriving DecidableEq, Repr

/-- The calls a session or the application makes on a receiver link. -/
inductive ReceiverOp (τ : Type)
  | setLinkCredit (credit : U32)
  | handleTransfer (transfer : τ)
  | close (error : Option Error)
  | poll
  deriving DecidableEq, Repr

def transferLimitExceeded : Error :=
  { condition := .linkError .transferLimitExceeded, description := none }

namespace ReceiverLinkInner

variable {τ : Type} {o : Overflow} {s s' : ReceiverLinkInner τ}

def new (handle : Nat) (attach : Attach) : ReceiverLinkInner τ :=
  { handle, closed := false, readerTask := false, queue := [], credit := 0,
    deliveryCount := attach.initialDeliveryCount.getD 0 }

/-- The receiver's delivery limit, `delivery_count + credit`, without wrapping. -/
def limit (s : ReceiverLinkInner τ) : ℕ := s.deliveryCount.val + s.credit.val

def close (s : ReceiverLinkInner τ) (error : Option Error) : ReceiverEvent τ :=
  if s.closed then .closeResolved else .detach s.handle error

def setLinkCredit (o : Overflow) (s : ReceiverLinkInner τ) (credit : U32) :
    Option (ReceiverLinkInner τ × List (ReceiverEvent τ)) := do
  let total ← o.add s.credit credit
  pure ({ s with credit := total }, [.flow (s.handle : U32) s.deliveryCount credit])

theorem setLinkCredit_eq {n : U32} {out : List (ReceiverEvent τ)}
    (h : s.setLinkCredit o n = some (s', out)) :
    s' = { s with credit := s.credit + n } ∧ out = [.flow (s.handle : U32) s.deliveryCount n] := by
  simp only [setLinkCredit, Option.bind_eq_bind, Option.bind_eq_some, Option.pure_def,
    Option.some.injEq, Prod.mk.injEq] at h
  obtain ⟨c, hc, rfl, rfl⟩ := h
  rw [Overflow.eq_of_add hc]
  exact ⟨rfl, rfl⟩

theorem setLinkCredit_of_zero (h0 : s.credit = 0) (n : U32) :
    s.setLinkCredit o n =
      some ({ s with credit := n }, [.flow (s.handle : U32) s.deliveryCount n]) := by
  simp [setLinkCredit, h0]

def handleTransfer (o : Overflow) (s : ReceiverLinkInner τ) (transfer : τ) :
    Option (ReceiverLinkInner τ × List (ReceiverEvent τ)) :=
  if s.credit = 0 then some (s, [s.close (some transferLimitExceeded)])
  else do
    let credit ← o.sub s.credit 1
    let deliveryCount ← o.add s.deliveryCount 1
    let queue := s.queue ++ [transfer]
    pure ({ s with
      credit, deliveryCount, queue
      readerTask := if queue.length = 1 then false else s.readerTask }, [])

theorem handleTransfer_cases {t : τ} {out : List (ReceiverEvent τ)}
    (h : s.handleTransfer o t = some (s', out)) :
    s.credit = 0 ∧ s' = s ∧ out = [s.close (some transferLimitExceeded)] ∨
    s.credit ≠ 0 ∧ out = [] ∧
      s' = { s with
        credit := s.credit - 1, deliveryCount := s.deliveryCount + 1, queue := s.queue ++ [t]
        readerTask := if (s.queue ++ [t]).length = 1 then false else s.readerTask } := by
  unfold handleTransfer at h
  split at h
  · cases h
    exact .inl ⟨‹_›, rfl, rfl⟩
  · simp only [Option.bind_eq_bind, Option.bind_eq_some, Option.pure_def, Option.some.injEq,
      Prod.mk.injEq] at h
    obtain ⟨c, hc, d, hd, rfl, rfl⟩ := h
    rw [Overflow.eq_of_sub hc, Overflow.eq_of_add hd]
    exact .inr ⟨‹_›, rfl, rfl⟩

/-- A debug build's `handle_transfer` with credit left never panics below the `u32` limit. -/
theorem handleTransfer_panic (t : τ) (hc : s.credit ≠ 0) (hb : s.limit < 2 ^ 32) :
    ∃ s', s.handleTransfer .panic t = some (s', []) ∧ s'.limit = s.limit ∧
      s'.deliveryCount.val = s.deliveryCount.val + 1 := by
  have h₁ := val_add_one hc hb
  have h₂ := val_sub_one hc
  have := Fin.pos_iff_ne_zero.mpr hc
  have h : s.handleTransfer .panic t = some ({ s with
      credit := s.credit - 1, deliveryCount := s.deliveryCount + 1, queue := s.queue ++ [t]
      readerTask := if (s.queue ++ [t]).length = 1 then false else s.readerTask }, []) := by
    simp only [handleTransfer, hc, if_false, Overflow.sub_of_le _ (one_le_of_ne_zero hc),
      Overflow.add_of_lt _ (add_one_lt hc hb), Option.bind_eq_bind, Option.some_bind,
      Option.pure_def]
  exact ⟨_, h, by simp only [limit]; omega, h₁⟩

/-- `ReceiverLink::poll`, the transfer stream's next step. -/
def poll (s : ReceiverLinkInner τ) : ReceiverLinkInner τ × Async (Option τ) :=
  match s.queue with
  | tr :: q => ({ s with queue := q }, .ready (some tr))
  | [] => if s.closed then (s, .ready none) else ({ s with readerTask := true }, .notReady)

theorem poll_cases (s : ReceiverLinkInner τ) :
    (∃ tr q, s.queue = tr :: q ∧ s.poll = ({ s with queue := q }, .ready (some tr))) ∨
    s.queue = [] ∧
      (s.closed = true ∧ s.poll = (s, .ready none) ∨
        s.closed = false ∧ s.poll = ({ s with readerTask := true }, .notReady)) := by
  unfold poll
  split
  · exact .inl ⟨_, _, ‹_›, rfl⟩
  · split
    · exact .inr ⟨‹_›, .inl ⟨‹_›, rfl⟩⟩
    · exact .inr ⟨‹_›, .inr ⟨Bool.eq_false_iff.mpr ‹_›, rfl⟩⟩

/-- One call on the link; `none` is a panic. -/
def step (o : Overflow) (s : ReceiverLinkInner τ) :
    ReceiverOp τ → Option (ReceiverLinkInner τ × List (ReceiverEvent τ))
  | .setLinkCredit credit => s.setLinkCredit o credit
  | .handleTransfer transfer => s.handleTransfer o transfer
  | .close error => some (s, [s.close error])
  | .poll => some (s.poll.1, [.polled s.poll.2])

def run (o : Overflow) : ReceiverLinkInner τ → List (ReceiverOp τ) →
    Option (ReceiverLinkInner τ × List (ReceiverEvent τ)) :=
  runSteps (step o)

end ReceiverLinkInner

end NtexAmqp
