import NtexAmqp.ReceiverLink
import NtexAmqp.SenderRuns

namespace NtexAmqp

def ReceiverOp.grant {τ : Type} : ReceiverOp τ → ℕ
  | .setLinkCredit n => n.val
  | .handleTransfer _ | .close _ | .poll => 0

def ReceiverEvent.yields {τ : Type} : ReceiverEvent τ → ℕ
  | .polled (.ready (some _)) => 1
  | .flow .. | .detach .. | .closeResolved | .polled (.ready none) | .polled .notReady => 0

namespace ReceiverLinkInner

variable {τ : Type} {o : Overflow} {s s' : ReceiverLinkInner τ} {op : ReceiverOp τ}
  {ops : List (ReceiverOp τ)} {out log : List (ReceiverEvent τ)}

/-- The credit granted by the `set_link_credit` calls of a run. -/
def granted (ops : List (ReceiverOp τ)) : ℕ := (ops.map ReceiverOp.grant).sum

/-- The transfers a log shows the reader taking off the queue. -/
def yielded (log : List (ReceiverEvent τ)) : ℕ := (log.map ReceiverEvent.yields).sum

@[simp] theorem granted_nil : granted ([] : List (ReceiverOp τ)) = 0 := rfl

@[simp] theorem granted_cons (op : ReceiverOp τ) (ops : List (ReceiverOp τ)) :
    granted (op :: ops) = op.grant + granted ops := by
  simp [granted]

@[simp] theorem yielded_nil : yielded ([] : List (ReceiverEvent τ)) = 0 := rfl

@[simp] theorem yielded_cons (e : ReceiverEvent τ) (log : List (ReceiverEvent τ)) :
    yielded (e :: log) = e.yields + yielded log := by
  simp [yielded]

@[simp] theorem yielded_append (l l' : List (ReceiverEvent τ)) :
    yielded (l ++ l') = yielded l + yielded l' := by
  simp [yielded]

@[simp] theorem close_yields (e : Option Error) : (s.close e).yields = 0 := by
  unfold close; split <;> rfl

theorem step_accounting (h : s.step o op = some (s', out))
    (hb : s.queue.length + s.credit.val + op.grant < 2 ^ 32) :
    s'.queue.length + yielded out + s'.credit.val = s.queue.length + s.credit.val + op.grant ∧
    s'.deliveryCount + (s.queue.length : U32) =
      s.deliveryCount + ((s'.queue.length + yielded out : ℕ) : U32) := by
  cases op with
  | setLinkCredit n =>
    obtain ⟨rfl, rfl⟩ := setLinkCredit_eq h
    refine ⟨?_, rfl⟩
    simp only [ReceiverOp.grant] at hb ⊢
    simp only [yielded_cons, yielded_nil, ReceiverEvent.yields]
    omega
  | handleTransfer t =>
    rcases handleTransfer_cases h with ⟨-, rfl, rfl⟩ | ⟨h0, rfl, rfl⟩
    · simp [ReceiverOp.grant]
    · have h1 := val_sub_one h0
      have h2 : 0 < s.credit.val := Fin.pos_iff_ne_zero.mpr h0
      refine ⟨?_, ?_⟩
      · simp only [List.length_append, List.length_singleton, yielded_nil, ReceiverOp.grant]
        omega
      · simp only [List.length_append, List.length_singleton, yielded_nil, add_zero, Nat.cast_succ]
        rw [add_assoc, add_comm (1 : U32)]
  | close e =>
    cases h
    simp [ReceiverOp.grant]
  | poll =>
    cases h
    rcases poll_cases s with ⟨tr, q, hq, hp⟩ | ⟨hq, ⟨-, hp⟩ | ⟨-, hp⟩⟩ <;> rw [hp] <;>
      simp only [hq, List.length_cons, List.length_nil, yielded_cons, yielded_nil,
        ReceiverEvent.yields, ReceiverOp.grant]
    · exact ⟨by omega, by push_cast⟩
    all_goals simp

theorem run_accounting (h : run o s ops = some (s', log))
    (hb : s.queue.length + s.credit.val + granted ops < 2 ^ 32) :
    s'.queue.length + yielded log + s'.credit.val = s.queue.length + s.credit.val + granted ops ∧
    s'.deliveryCount + (s.queue.length : U32) =
      s.deliveryCount + ((s'.queue.length + yielded log : ℕ) : U32) := by
  induction ops generalizing s log with
  | nil => cases h; simp
  | cons op ops ih =>
    obtain ⟨s₁, out, log', hs, hr, rfl⟩ := runSteps_cons h
    rw [granted_cons] at hb ⊢
    obtain ⟨h₁, h₂⟩ := step_accounting hs (by omega)
    obtain ⟨h₁', h₂'⟩ := ih hr (by omega)
    refine ⟨by simp only [yielded_append]; omega, ?_⟩
    simp only [yielded_append]
    push_cast at h₂ h₂' ⊢
    rw [eq_sub_of_add_eq h₂', eq_sub_of_add_eq h₂]
    abel

theorem step_closed (h : s.step o op = some (s', out)) : s'.closed = s.closed := by
  cases op with
  | setLinkCredit n => obtain ⟨rfl, -⟩ := setLinkCredit_eq h; rfl
  | handleTransfer t => rcases handleTransfer_cases h with ⟨-, rfl, -⟩ | ⟨-, -, rfl⟩ <;> rfl
  | close e => cases h; rfl
  | poll =>
    cases h
    rcases poll_cases s with ⟨_, _, _, hp⟩ | ⟨_, ⟨_, hp⟩ | ⟨_, hp⟩⟩ <;> rw [hp]

theorem run_closed (h : run o s ops = some (s', log)) : s'.closed = s.closed := by
  induction ops generalizing s log with
  | nil => cases h; rfl
  | cons op ops ih =>
    obtain ⟨s₁, out, log', hs, hr, -⟩ := runSteps_cons h
    exact (ih hr).trans (step_closed hs)

/-- From `new`, below `2^32` total credit: each transfer queued used one granted credit and one
`delivery_count`, and one arriving at zero credit asks to detach. -/
theorem credit_accounting {handle : ℕ} {attach : Attach} (hsum : granted ops < 2 ^ 32)
    (h : run o (new handle attach) ops = some (s, log)) :
    s.queue.length + yielded log + s.credit.val = granted ops ∧
    s.deliveryCount =
      attach.initialDeliveryCount.getD 0 + ((s.queue.length + yielded log : ℕ) : U32) ∧
    ∀ t : τ, s.credit = 0 →
      s.handleTransfer o t = some (s, [.detach s.handle (some transferLimitExceeded)]) := by
  obtain ⟨h₁, h₂⟩ := run_accounting h (by simpa [new] using hsum)
  have hc : s.closed = false := run_closed h
  simp only [new, List.length_nil, Fin.val_zero, Nat.cast_zero, add_zero, zero_add] at h₁ h₂
  exact ⟨h₁, h₂, fun t h0 => by simp [handleTransfer, close, h0, hc]⟩

theorem credit_accounting_one_transfer :
    let ops : List (ReceiverOp ℕ) := [.setLinkCredit 1, .handleTransfer 7]
    let s : ReceiverLinkInner ℕ := ⟨0, false, false, [7], 0, 1⟩
    let log : List (ReceiverEvent ℕ) := [.flow 0 0 1]
    granted ops < 2 ^ 32 ∧ run .panic (new 0 ⟨none⟩) ops = some (s, log) ∧
      s.queue.length + yielded log + s.credit.val = granted ops ∧
      s.deliveryCount = (none : Option U32).getD 0 + ((s.queue.length + yielded log : ℕ) : U32) ∧
      ∀ t : ℕ, s.credit = 0 →
        s.handleTransfer .panic t = some (s, [.detach s.handle (some transferLimitExceeded)]) :=
  have hsum : granted [ReceiverOp.setLinkCredit 1, .handleTransfer (7 : ℕ)] < 2 ^ 32 := by decide
  have hrun : run .panic (new 0 ⟨none⟩) [ReceiverOp.setLinkCredit 1, .handleTransfer 7] =
      some (⟨0, false, false, [7], 0, 1⟩, [.flow 0 0 1]) := by decide
  ⟨hsum, hrun, credit_accounting hsum hrun⟩

/-- A second grant while credit remains announces only the increment: the peer is told
the limit is 1 while the link enforces 2. -/
theorem second_grant_announces_increment :
    run .panic (new 0 ⟨none⟩ : ReceiverLinkInner ℕ) [.setLinkCredit 1, .setLinkCredit 1] =
      some (⟨0, false, false, [], 2, 0⟩, [.flow 0 0 1, .flow 0 0 1]) := by
  decide

/-- After the detach for an excess transfer, the stream does not end once the queue is
drained, and each later excess transfer or close asks the session to detach again. -/
theorem detached_stream_never_ends :
    run .panic (new 0 ⟨none⟩ : ReceiverLinkInner ℕ)
        [.setLinkCredit 1, .handleTransfer 1, .handleTransfer 2, .poll, .poll,
          .handleTransfer 3, .close none] =
      some (⟨0, false, true, [], 0, 1⟩,
        [.flow 0 0 1, .detach 0 (some transferLimitExceeded), .polled (.ready (some 1)),
          .polled .notReady, .detach 0 (some transferLimitExceeded), .detach 0 none]) := by
  decide

/-- A reader parked and not yet notified waits on an empty queue of a stream not yet ended. -/
def NoLostWakeup (s : ReceiverLinkInner τ) : Prop :=
  s.readerTask = true → s.queue = [] ∧ s.closed = false

theorem step_noLostWakeup (hi : s.NoLostWakeup) (h : s.step o op = some (s', out)) :
    s'.NoLostWakeup := by
  cases op with
  | setLinkCredit n => obtain ⟨rfl, -⟩ := setLinkCredit_eq h; exact hi
  | handleTransfer t =>
    rcases handleTransfer_cases h with ⟨-, rfl, -⟩ | ⟨-, -, rfl⟩
    · exact hi
    · intro hr
      split at hr
      · cases hr
      · rename_i hlen
        exact absurd (by simp [(hi hr).1]) hlen
  | close e => cases h; exact hi
  | poll =>
    cases h
    rcases poll_cases s with ⟨tr, q, hq, hp⟩ | ⟨hq, ⟨-, hp⟩ | ⟨hc, hp⟩⟩ <;> rw [hp]
    · exact fun hr => absurd (hi hr).1 (by simp [hq])
    · exact hi
    · exact fun _ => ⟨hq, hc⟩

theorem run_noLostWakeup (hi : s.NoLostWakeup) (h : run o s ops = some (s', log)) :
    s'.NoLostWakeup := by
  induction ops generalizing s log with
  | nil => cases h; exact hi
  | cons op ops ih =>
    obtain ⟨s₁, out, log', hs, hr, -⟩ := runSteps_cons h
    exact ih (step_noLostWakeup hi hs) hr

/-- Over every run from `new`, no admitted transfer waits unannounced to a parked reader. -/
theorem parked_reader_never_missed {handle : ℕ} {attach : Attach}
    (h : run o (new handle attach) ops = some (s, log)) :
    s.readerTask = true → s.queue = [] ∧ s.closed = false :=
  run_noLostWakeup (fun hr => Bool.noConfusion hr) h

theorem parked_reader_never_missed_after_poll :
    let s : ReceiverLinkInner ℕ := ⟨0, false, true, [], 0, 0⟩
    run .panic (new 0 ⟨none⟩) [ReceiverOp.poll] = some (s, [.polled .notReady]) ∧
      (s.readerTask = true → s.queue = [] ∧ s.closed = false) :=
  have hrun : run .panic (new 0 ⟨none⟩) [ReceiverOp.poll] =
      some ((⟨0, false, true, [], 0, 0⟩ : ReceiverLinkInner ℕ), [.polled .notReady]) := rfl
  ⟨hrun, parked_reader_never_missed hrun⟩

open scoped List

/-- The transfers a run's calls hand to the link, in arrival order. -/
def arrivals : List (ReceiverOp τ) → List τ :=
  List.filterMap fun | .handleTransfer t => some t | _ => none

def closeCalls (ops : List (ReceiverOp τ)) : ℕ :=
  ops.countP fun | .close _ => true | _ => false

/-- The transfers a log shows the reader taking, in order. -/
def taken : List (ReceiverEvent τ) → List τ :=
  List.filterMap fun | .polled (.ready (some t)) => some t | _ => none

/-- How many closes a log asks of the session: detach requests, and closes resolved at once. -/
def closings (log : List (ReceiverEvent τ)) : ℕ :=
  log.countP fun | .detach .. | .closeResolved => true | _ => false

theorem arrivals_cons (op : ReceiverOp τ) (ops : List (ReceiverOp τ)) :
    arrivals (op :: ops) = arrivals [op] ++ arrivals ops := by
  cases op <;> rfl

theorem closeCalls_cons (op : ReceiverOp τ) (ops : List (ReceiverOp τ)) :
    closeCalls (op :: ops) = closeCalls [op] + closeCalls ops := by
  rw [closeCalls, closeCalls, closeCalls, ← List.countP_append, List.singleton_append]

@[simp] theorem taken_append (l l' : List (ReceiverEvent τ)) :
    taken (l ++ l') = taken l ++ taken l' :=
  List.filterMap_append l l' _

@[simp] theorem closings_append (l l' : List (ReceiverEvent τ)) :
    closings (l ++ l') = closings l + closings l' :=
  List.countP_append _ l l'

@[simp] theorem taken_nil : taken ([] : List (ReceiverEvent τ)) = [] := rfl

@[simp] theorem closings_nil : closings ([] : List (ReceiverEvent τ)) = 0 := rfl

@[simp] theorem taken_close (e : Option Error) : taken [s.close e] = [] := by
  unfold close; split <;> rfl

@[simp] theorem closings_close (e : Option Error) : closings [s.close e] = 1 := by
  unfold close; split <;> rfl

theorem step_transfers (h : s.step o op = some (s', out)) :
    taken out ++ s'.queue <+ s.queue ++ arrivals [op] ∧
      (taken out ++ s'.queue).length + closings out =
        s.queue.length + (arrivals [op]).length + closeCalls [op] := by
  cases op with
  | setLinkCredit n =>
    obtain ⟨rfl, rfl⟩ := setLinkCredit_eq h
    simp [taken, arrivals, closings, closeCalls]
  | handleTransfer t =>
    rcases handleTransfer_cases h with ⟨-, rfl, rfl⟩ | ⟨-, rfl, rfl⟩ <;>
      simp [arrivals, closeCalls]
  | close e =>
    cases h
    simp [arrivals, closeCalls]
  | poll =>
    cases h
    rcases poll_cases s with ⟨tr, q, hq, hp⟩ | ⟨hq, ⟨-, hp⟩ | ⟨-, hp⟩⟩ <;> rw [hp] <;>
      simp [taken, arrivals, closings, closeCalls, hq]

/-- Over every run, the transfers taken and then those queued are the arrivals in order, less one
for each transfer refused at zero credit. -/
theorem reader_takes_arrivals_in_order (h : run o s ops = some (s', log)) :
    taken log ++ s'.queue <+ s.queue ++ arrivals ops ∧
      (taken log ++ s'.queue).length + closings log =
        s.queue.length + (arrivals ops).length + closeCalls ops := by
  induction ops generalizing s log with
  | nil => cases h; simp [closeCalls, arrivals]
  | cons op ops ih =>
    obtain ⟨s₁, out, log', hs, hr, rfl⟩ := runSteps_cons h
    obtain ⟨hsub, hlen⟩ := step_transfers hs
    obtain ⟨hsub', hlen'⟩ := ih hr
    rw [arrivals_cons, closeCalls_cons, taken_append, closings_append, List.append_assoc]
    refine ⟨(hsub'.append_left _).trans ?_, ?_⟩
    · rw [← List.append_assoc, ← List.append_assoc]
      exact hsub.append_right _
    · simp only [List.length_append] at hlen hlen' ⊢
      omega

theorem reader_takes_arrivals_in_order_after_refusal :
    let ops : List (ReceiverOp ℕ) := [.setLinkCredit 1, .handleTransfer 1, .handleTransfer 2, .poll]
    let s : ReceiverLinkInner ℕ := ⟨0, false, false, [], 0, 1⟩
    let log : List (ReceiverEvent ℕ) :=
      [.flow 0 0 1, .detach 0 (some transferLimitExceeded), .polled (.ready (some 1))]
    run .panic (new 0 ⟨none⟩) ops = some (s, log) ∧
      taken log ++ s.queue <+ (new 0 ⟨none⟩ : ReceiverLinkInner ℕ).queue ++ arrivals ops ∧
      (taken log ++ s.queue).length + closings log =
        (new 0 ⟨none⟩ : ReceiverLinkInner ℕ).queue.length + (arrivals ops).length +
          closeCalls ops :=
  have hrun : run .panic (new 0 ⟨none⟩ : ReceiverLinkInner ℕ)
      [.setLinkCredit 1, .handleTransfer 1, .handleTransfer 2, .poll] =
      some (⟨0, false, false, [], 0, 1⟩,
        [.flow 0 0 1, .detach 0 (some transferLimitExceeded), .polled (.ready (some 1))]) := by
    decide
  ⟨hrun, reader_takes_arrivals_in_order hrun⟩

end ReceiverLinkInner

/-- Peer delivery counts near `2^32` panic a debug build; a release build ignores the grant. -/
theorem peer_counts_overflow :
    SenderLinkInner.run .panic (.new 0 : SenderLinkInner ℕ Unit)
        [.applyFlow ⟨some 4294967295, some 1, false⟩] = none ∧
    ReceiverLinkInner.run .panic (.new 0 ⟨some 4294967295⟩ : ReceiverLinkInner ℕ)
        [.setLinkCredit 1, .handleTransfer 7] = none ∧
    SenderLinkInner.run .wrap (.new 0 : SenderLinkInner ℕ Unit)
        [.applyFlow ⟨some 4294967295, some 1, false⟩, .send 7] =
      some (⟨0, 0, 0, [7], none⟩, []) := by
  decide

end NtexAmqp
