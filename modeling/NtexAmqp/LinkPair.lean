import NtexAmqp.SenderRuns
import NtexAmqp.ReceiverRuns

namespace NtexAmqp

/-- One link seen from both ends: our sender, the peer's receiver, and the two in-order
channels between their sessions (Transfers one way, Flows the other). -/
structure LinkPair (α ε : Type) where
  sender : SenderLinkInner α ε
  receiver : ReceiverLinkInner α
  transfers : List α
  flows : List Flow
  deriving DecidableEq, Repr

/-- What the two applications do, and which channel delivers its head next. -/
inductive PairAction (α : Type)
  | send (message : α)
  | setLinkCredit (credit : U32)
  | deliverTransfer
  | deliverFlow
  deriving DecidableEq, Repr

namespace LinkPair

variable {α ε : Type}

/-- The Flow a session sends for `rcv_link_flow(handle, delivery_count, credit)`. -/
def flowOf : ReceiverEvent α → Option Flow
  | .flow _ deliveryCount credit => some ⟨some deliveryCount, some credit, false⟩
  | _ => none

def init (senderHandle : U32) (receiverHandle : ℕ) (attach : Attach) : LinkPair α ε :=
  ⟨.new senderHandle, .new receiverHandle attach, [], []⟩

/-- One action; the receiver's session requests (Flows, detaches) are returned. -/
def step (o : Overflow) (p : LinkPair α ε) :
    PairAction α → Option (LinkPair α ε × List (ReceiverEvent α))
  | .send m => do
    let r ← p.sender.send o m
    pure ({ p with sender := r.1, transfers := p.transfers ++ SenderLinkInner.transfers r.2 }, [])
  | .setLinkCredit n => do
    let r ← p.receiver.setLinkCredit o n
    pure ({ p with receiver := r.1, flows := p.flows ++ r.2.filterMap flowOf }, r.2)
  | .deliverTransfer =>
    match p.transfers with
    | [] => some (p, [])
    | t :: ts => do
      let r ← p.receiver.handleTransfer o t
      pure ({ p with receiver := r.1, transfers := ts }, r.2)
  | .deliverFlow =>
    match p.flows with
    | [] => some (p, [])
    | f :: fs => do
      let r ← p.sender.applyFlow o f
      pure ({ p with
        sender := r.1, flows := fs, transfers := p.transfers ++ SenderLinkInner.transfers r.2 }, [])

def run (o : Overflow) : LinkPair α ε → List (PairAction α) →
    Option (LinkPair α ε × List (ReceiverEvent α)) :=
  runSteps (step o)

/-- A grant of `0` while credit remains: a debug build panics in `apply_flow`; a release build
overruns the receiver, which detaches with `transfer-limit-exceeded`. -/
theorem grant_while_credit_remains_overruns :
    run .panic (init 0 0 ⟨none⟩ : LinkPair ℕ Unit)
        [.send 1, .send 2, .setLinkCredit 1, .deliverFlow, .setLinkCredit 0,
          .deliverTransfer, .deliverFlow] = none ∧
    (run .wrap (init 0 0 ⟨none⟩ : LinkPair ℕ Unit)
        [.send 1, .send 2, .setLinkCredit 1, .deliverFlow, .setLinkCredit 0,
          .deliverTransfer, .deliverFlow, .deliverTransfer]).map Prod.snd =
      some [.flow 0 0 1, .flow 0 0 0, .detach 0 (some transferLimitExceeded)] := by
  decide

variable {p p' : LinkPair α ε} {a : PairAction α} {ev : List (ReceiverEvent α)}

/-- Grants made only once the receiver's credit is used up, to a limit that fits in a `u32`. -/
def Disciplined (p : LinkPair α ε) : PairAction α → Prop
  | .setLinkCredit n => p.receiver.credit = 0 ∧ p.receiver.deliveryCount.val + n.val < 2 ^ 32
  | _ => True

/-- What keeps a debug build inside the receiver's credit: the sender's count and limit track the
receiver's, and the Flows in flight are ordered between them. -/
structure FlowControl (p : LinkPair α ε) : Prop where
  counted : p.sender.deliveryCount.val = p.receiver.deliveryCount.val + p.transfers.length
  within : p.sender.limit ≤ p.receiver.limit
  fits : p.receiver.limit < 2 ^ 32
  flowsBelow : ∀ f ∈ p.flows, f.limit ≤ p.receiver.limit
  flowsSeen : ∀ f ∈ p.flows, f.base ≤ p.receiver.deliveryCount.val
  flowsAhead : ∀ f ∈ p.flows, p.sender.limit ≤ f.base
  flowsOrdered : p.flows.Pairwise fun f g => f.limit ≤ g.base

theorem FlowControl.transfers_le_credit (hi : FlowControl p) :
    p.transfers.length ≤ p.receiver.credit.val := by
  have h₁ := hi.counted
  have h₂ := hi.within
  simp only [SenderLinkInner.limit, ReceiverLinkInner.limit] at h₂
  omega

theorem FlowControl.tail {g : Flow} {gs : List Flow} (hi : FlowControl p) (hf : p.flows = g :: gs) :
    FlowControl { p with flows := gs } := by
  have hord := hi.flowsOrdered
  rw [hf, List.pairwise_cons] at hord
  refine ⟨hi.counted, hi.within, hi.fits, ?_, ?_, ?_, hord.2⟩ <;> intro f hf' <;>
    [exact hi.flowsBelow f (by simp [hf, hf']); exact hi.flowsSeen f (by simp [hf, hf']);
      exact hi.flowsAhead f (by simp [hf, hf'])]

theorem send_flowControl (hi : FlowControl p) (m : α) :
    ∃ p' ev, p.step .panic (.send m) = some (p', ev) ∧ FlowControl p' ∧
      ∀ e ∈ ev, (flowOf e).isSome := by
  have hb : p.sender.limit < 2 ^ 32 := lt_of_le_of_lt hi.within hi.fits
  obtain ⟨s', sent, hs, hl, hd⟩ := p.sender.send_panic m hb
  refine ⟨{ p with sender := s', transfers := p.transfers ++ sent }, [], by simp [step, hs], ?_,
    by simp⟩
  refine ⟨?_, hl ▸ hi.within, hi.fits, hi.flowsBelow, hi.flowsSeen,
    fun f hf => hl ▸ hi.flowsAhead f hf, hi.flowsOrdered⟩
  simp only [List.length_append, hd, hi.counted]
  omega

theorem setLinkCredit_flowControl (hi : FlowControl p) (n : U32)
    (hd : Disciplined p (.setLinkCredit n)) :
    ∃ p' ev, p.step .panic (.setLinkCredit n) = some (p', ev) ∧ FlowControl p' ∧
      ∀ e ∈ ev, (flowOf e).isSome := by
  obtain ⟨h0, hn⟩ := hd
  refine ⟨{ p with
    receiver := { p.receiver with credit := n }
    flows := p.flows ++ [⟨some p.receiver.deliveryCount, some n, false⟩] },
    [.flow p.receiver.handle p.receiver.deliveryCount n],
    by simp [step, ReceiverLinkInner.setLinkCredit_of_zero h0, flowOf], ?_, by simp [flowOf]⟩
  have hR : p.receiver.limit = p.receiver.deliveryCount.val := by
    simp [ReceiverLinkInner.limit, h0]
  have hS : p.sender.limit ≤ p.receiver.deliveryCount.val := hR ▸ hi.within
  refine ⟨hi.counted, ?_, hn, ?_, ?_, ?_, ?_⟩
  · simp only [ReceiverLinkInner.limit]
    omega
  all_goals simp only [List.mem_append, List.mem_singleton, List.pairwise_append,
    List.pairwise_singleton, true_and]
  · rintro f (hf | rfl)
    · have := hR ▸ hi.flowsBelow f hf
      simp only [ReceiverLinkInner.limit]; omega
    · simp [Flow.limit, Flow.base, ReceiverLinkInner.limit]
  · rintro f (hf | rfl)
    · exact hi.flowsSeen f hf
    · simp [Flow.base]
  · rintro f (hf | rfl)
    · exact hi.flowsAhead f hf
    · simpa [Flow.base] using hS
  · refine ⟨hi.flowsOrdered, fun f hf g hg => ?_⟩
    rw [hg]
    simpa [Flow.base] using hR ▸ hi.flowsBelow f hf

theorem deliverTransfer_flowControl (hi : FlowControl p) :
    ∃ p' ev, p.step .panic .deliverTransfer = some (p', ev) ∧ FlowControl p' ∧
      ∀ e ∈ ev, (flowOf e).isSome := by
  cases ht : p.transfers with
  | nil => exact ⟨p, [], by simp [step, ht], hi, by simp⟩
  | cons t ts =>
    have hc : p.receiver.credit ≠ 0 := by
      have := hi.transfers_le_credit
      rw [ht, List.length_cons] at this
      exact fun h0 => by simp [h0] at this
    obtain ⟨r', hr, hl, hd⟩ := p.receiver.handleTransfer_panic t hc hi.fits
    refine ⟨{ p with receiver := r', transfers := ts }, [], by simp [step, ht, hr], ?_, by simp⟩
    refine ⟨?_, hl ▸ hi.within, hl ▸ hi.fits, fun f hf => hl ▸ hi.flowsBelow f hf,
      fun f hf => ?_, hi.flowsAhead, hi.flowsOrdered⟩
    · have := hi.counted
      simp only [ht, List.length_cons] at this
      simp only [hd]; omega
    · have := hi.flowsSeen f hf
      simp only [hd]; omega

theorem applyFlow_flowControl {g : Flow} {c : U32} (hi : FlowControl p) (hmem : g ∈ p.flows)
    (hc : g.linkCredit = some c) :
    ∃ (s' : SenderLinkInner α ε) (sent : List α),
      p.sender.applyFlow .panic g = some (s', sent.map (.sendTransfer p.sender.remoteHandle)) ∧
      s'.limit = g.limit ∧ s'.deliveryCount.val = p.sender.deliveryCount.val + sent.length := by
  have hbase : g.base ≤ g.limit := Nat.le_add_right _ _
  rcases (le_trans (hi.flowsAhead g hmem) hbase).lt_or_eq with hlt | heq
  · exact p.sender.applyFlow_panic_raise hc hlt (lt_of_le_of_lt (hi.flowsBelow g hmem) hi.fits)
  · have h0 : p.sender.linkCredit = 0 := by
      have h₁ := hi.flowsSeen g hmem
      have h₂ := hi.flowsAhead g hmem
      have h₃ := hi.counted
      simp only [SenderLinkInner.limit] at heq h₂
      exact Fin.ext (by simp only [Fin.val_zero]; omega)
    exact ⟨p.sender, [], p.sender.applyFlow_panic_restate hc heq h0, heq, rfl⟩

theorem deliverFlow_flowControl (hi : FlowControl p) :
    ∃ p' ev, p.step .panic .deliverFlow = some (p', ev) ∧ FlowControl p' ∧
      ∀ e ∈ ev, (flowOf e).isSome := by
  cases hf : p.flows with
  | nil => exact ⟨p, [], by simp [step, hf], hi, by simp⟩
  | cons g gs =>
    have hmem : g ∈ p.flows := by simp [hf]
    cases hc : g.linkCredit with
    | none =>
      exact ⟨{ p with flows := gs }, [], by
        simp [step, hf, SenderLinkInner.applyFlow_none hc, SenderLinkInner.transfers],
        hi.tail hf, by simp⟩
    | some c =>
      have hord := hi.flowsOrdered
      rw [hf, List.pairwise_cons] at hord
      obtain ⟨s', sent, hs, hl, hd⟩ := applyFlow_flowControl hi hmem hc
      refine ⟨{ p with sender := s', flows := gs, transfers := p.transfers ++ sent }, [],
        by simp [step, hf, hs], ?_, by simp⟩
      refine ⟨?_, hl ▸ hi.flowsBelow g hmem, hi.fits,
        fun f hf' => hi.flowsBelow f (by simp [hf, hf']),
        fun f hf' => hi.flowsSeen f (by simp [hf, hf']), fun f hf' => hl ▸ hord.1 f hf', hord.2⟩
      simp only [List.length_append, hd, hi.counted]
      omega

theorem step_flowControl (hi : FlowControl p) (hd : Disciplined p a) :
    ∃ p' ev, p.step .panic a = some (p', ev) ∧ FlowControl p' ∧
      ∀ e ∈ ev, (flowOf e).isSome := by
  cases a with
  | send m => exact send_flowControl hi m
  | setLinkCredit n => exact setLinkCredit_flowControl hi n hd
  | deliverTransfer => exact deliverTransfer_flowControl hi
  | deliverFlow => exact deliverFlow_flowControl hi

/-- The pairs a debug build reaches from two fresh ends, the receiver attached with no initial
delivery count, by disciplined actions. -/
inductive Reachable : LinkPair α ε → Prop
  | init (senderHandle : U32) (receiverHandle : ℕ) :
      Reachable (init senderHandle receiverHandle ⟨none⟩)
  | step {p p' : LinkPair α ε} {a : PairAction α} {ev : List (ReceiverEvent α)} :
      Reachable p → Disciplined p a → p.step .panic a = some (p', ev) → Reachable p'

theorem flowControl_init (senderHandle : U32) (receiverHandle : ℕ) :
    FlowControl (init senderHandle receiverHandle ⟨none⟩ : LinkPair α ε) :=
  ⟨rfl, le_refl _, by simp [init, ReceiverLinkInner.new, ReceiverLinkInner.limit], by simp [init],
    by simp [init], by simp [init], List.Pairwise.nil⟩

theorem reachable_flowControl (h : Reachable p) : FlowControl p := by
  induction h with
  | init senderHandle receiverHandle => exact flowControl_init senderHandle receiverHandle
  | step _ hd hs ih =>
    obtain ⟨p'', ev'', hs', hi, -⟩ := step_flowControl ih hd
    rw [hs] at hs'
    cases hs'
    exact hi

/-- In a debug build that grants only once credit is used up, no action panics and the receiver
never detaches with `transfer-limit-exceeded`. -/
theorem disciplined_grants_never_overrun (h : Reachable p) (hd : Disciplined p a) :
    p.transfers.length ≤ p.receiver.credit.val ∧
      ∃ p' ev, p.step .panic a = some (p', ev) ∧ ∀ e ∈ ev, (flowOf e).isSome := by
  have hi := reachable_flowControl h
  obtain ⟨p', ev, hs, -, hev⟩ := step_flowControl hi hd
  exact ⟨hi.transfers_le_credit, p', ev, hs, hev⟩

theorem disciplined_grants_never_overrun_after_grant :
    let p : LinkPair ℕ Unit :=
      ⟨.new 0, ⟨0, false, false, [], 1, 0⟩, [], [⟨some 0, some 1, false⟩]⟩
    Reachable p ∧ Disciplined p .deliverFlow ∧ p.transfers.length ≤ p.receiver.credit.val ∧
      ∃ p' ev, p.step .panic .deliverFlow = some (p', ev) ∧ ∀ e ∈ ev, (flowOf e).isSome :=
  have h : Reachable (⟨.new 0, ⟨0, false, false, [], 1, 0⟩, [], [⟨some 0, some 1, false⟩]⟩ :
      LinkPair ℕ Unit) :=
    (Reachable.init 0 0).step (a := .setLinkCredit 1) ⟨rfl, by decide⟩ rfl
  ⟨h, trivial, disciplined_grants_never_overrun h trivial⟩

open scoped List

variable {o : Overflow}

/-- The messages of a run's `send` actions, in order. -/
def sentMessages : List (PairAction α) → List α :=
  List.filterMap fun | .send m => some m | _ => none

/-- How many of the receiver's requests to its session answer a refused transfer. -/
def refusals (ev : List (ReceiverEvent α)) : ℕ :=
  (ev.filter fun e => (flowOf e).isNone).length

/-- What the link holds, oldest first: at the receiver, in flight, waiting at the sender. -/
def held (p : LinkPair α ε) : List α :=
  p.receiver.queue ++ p.transfers ++ p.sender.pendingTransfers

@[simp] theorem sentMessages_nil : sentMessages ([] : List (PairAction α)) = [] := rfl

@[simp] theorem sentMessages_send_cons (m : α) (as : List (PairAction α)) :
    sentMessages (.send m :: as) = m :: sentMessages as := rfl
@[simp] theorem sentMessages_setLinkCredit_cons (n : U32) (as : List (PairAction α)) :
    sentMessages (.setLinkCredit n :: as) = sentMessages as := rfl
@[simp] theorem sentMessages_deliverTransfer_cons (as : List (PairAction α)) :
    sentMessages (.deliverTransfer :: as) = sentMessages as := rfl
@[simp] theorem sentMessages_deliverFlow_cons (as : List (PairAction α)) :
    sentMessages (.deliverFlow :: as) = sentMessages as := rfl

theorem sentMessages_cons (a : PairAction α) (as : List (PairAction α)) :
    sentMessages (a :: as) = sentMessages [a] ++ sentMessages as := by
  cases a <;> rfl

@[simp] theorem refusals_nil : refusals ([] : List (ReceiverEvent α)) = 0 := rfl

@[simp] theorem refusals_append (l l' : List (ReceiverEvent α)) :
    refusals (l ++ l') = refusals l + refusals l' := by
  simp [refusals]

@[simp] theorem refusals_flow (h dc n : U32) :
    refusals [(ReceiverEvent.flow h dc n : ReceiverEvent α)] = 0 := rfl

@[simp] theorem refusals_close (r : ReceiverLinkInner α) (e : Option Error) :
    refusals [r.close e] = 1 := by
  unfold ReceiverLinkInner.close; split <;> rfl

theorem step_send {m : α} (h : p.step o (.send m) = some (p', ev)) :
    ∃ s out, p.sender.step o (.send m) = some (s, out) ∧
      p' = { p with sender := s, transfers := p.transfers ++ SenderLinkInner.transfers out } ∧
      ev = [] := by
  simp only [step, Option.bind_eq_bind, Option.bind_eq_some, Option.pure_def,
    Option.some.injEq, Prod.mk.injEq] at h
  obtain ⟨⟨s, out⟩, hs, rfl, rfl⟩ := h
  exact ⟨s, out, hs, rfl, rfl⟩

theorem step_setLinkCredit {n : U32} (h : p.step o (.setLinkCredit n) = some (p', ev)) :
    ∃ r, p.receiver.setLinkCredit o n = some (r, ev) ∧
      p' = { p with receiver := r, flows := p.flows ++ ev.filterMap flowOf } := by
  simp only [step, Option.bind_eq_bind, Option.bind_eq_some, Option.pure_def,
    Option.some.injEq, Prod.mk.injEq] at h
  obtain ⟨⟨r, out⟩, hr, rfl, rfl⟩ := h
  exact ⟨r, hr, rfl⟩

theorem step_deliverTransfer (h : p.step o .deliverTransfer = some (p', ev)) :
    p.transfers = [] ∧ p' = p ∧ ev = [] ∨
    ∃ t ts r, p.transfers = t :: ts ∧ p.receiver.handleTransfer o t = some (r, ev) ∧
      p' = { p with receiver := r, transfers := ts } := by
  simp only [step] at h
  split at h
  · cases h; exact .inl ⟨‹_›, rfl, rfl⟩
  · simp only [Option.bind_eq_bind, Option.bind_eq_some, Option.pure_def,
      Option.some.injEq, Prod.mk.injEq] at h
    obtain ⟨⟨r, out⟩, hr, rfl, rfl⟩ := h
    exact .inr ⟨_, _, r, ‹_›, hr, rfl⟩

theorem step_deliverFlow (h : p.step o .deliverFlow = some (p', ev)) :
    p.flows = [] ∧ p' = p ∧ ev = [] ∨
    ∃ f fs s out, p.flows = f :: fs ∧ p.sender.step o (.applyFlow f) = some (s, out) ∧
      p' = { p with
        sender := s, flows := fs, transfers := p.transfers ++ SenderLinkInner.transfers out } ∧
      ev = [] := by
  simp only [step] at h
  split at h
  · cases h; exact .inl ⟨‹_›, rfl, rfl⟩
  · simp only [Option.bind_eq_bind, Option.bind_eq_some, Option.pure_def,
      Option.some.injEq, Prod.mk.injEq] at h
    obtain ⟨⟨s, out⟩, hs, rfl, rfl⟩ := h
    exact .inr ⟨_, _, s, out, ‹_›, hs, rfl, rfl⟩

theorem step_waitsOnCredit (hw : p.sender.WaitsOnCredit) (h : p.step o a = some (p', ev)) :
    p'.sender.WaitsOnCredit := by
  cases a with
  | send m =>
    obtain ⟨s, out, hs, rfl, -⟩ := step_send h
    exact SenderLinkInner.step_waitsOnCredit hw hs
  | setLinkCredit n =>
    obtain ⟨r, -, rfl⟩ := step_setLinkCredit h
    exact hw
  | deliverTransfer =>
    rcases step_deliverTransfer h with ⟨-, rfl, -⟩ | ⟨_, _, _, -, -, rfl⟩ <;> exact hw
  | deliverFlow =>
    rcases step_deliverFlow h with ⟨-, rfl, -⟩ | ⟨_, _, s, _, -, hs, rfl, -⟩
    · exact hw
    · exact SenderLinkInner.step_waitsOnCredit hw hs

theorem step_held (hw : p.sender.WaitsOnCredit) (h : p.step o a = some (p', ev)) :
    p'.held = p.held ++ sentMessages [a] ∧ refusals ev = 0 ∨
      p'.held <+ p.held ∧ p'.held.length + 1 = p.held.length ∧ refusals ev = 1 ∧
        sentMessages [a] = [] := by
  cases a with
  | send m =>
    obtain ⟨s, out, hs, rfl, rfl⟩ := step_send h
    refine .inl ⟨?_, rfl⟩
    rcases SenderLinkInner.send_cases hs with ⟨-, rfl, rfl⟩ | ⟨h0, hs', rfl⟩
    · simp [held]
    · obtain rfl := SenderLinkInner.spend_eq hs'
      have hp : p.sender.pendingTransfers = [] := by_contra fun hp => h0 (hw hp)
      simp [held, hp]
  | setLinkCredit n =>
    obtain ⟨r, hr, rfl⟩ := step_setLinkCredit h
    obtain ⟨rfl, rfl⟩ := ReceiverLinkInner.setLinkCredit_eq hr
    exact .inl ⟨by simp [held], rfl⟩
  | deliverTransfer =>
    rcases step_deliverTransfer h with ⟨-, rfl, rfl⟩ | ⟨t, ts, r, ht, hr, rfl⟩
    · exact .inl ⟨by simp, rfl⟩
    rcases ReceiverLinkInner.handleTransfer_cases hr with ⟨-, rfl, rfl⟩ | ⟨-, rfl, rfl⟩
    · refine .inr ⟨?_, by simp only [held, ht, List.length_append, List.length_cons]; omega,
        refusals_close _ _, rfl⟩
      simp only [held, ht]
      exact ((List.sublist_cons_self t ts).append_left _).append_right _
    · exact .inl ⟨by simp [held, ht], rfl⟩
  | deliverFlow =>
    rcases step_deliverFlow h with ⟨-, rfl, rfl⟩ | ⟨f, fs, s, out, -, hs, rfl, rfl⟩
    · exact .inl ⟨by simp, rfl⟩
    refine .inl ⟨?_, rfl⟩
    rcases SenderLinkInner.applyFlow_cases hs with
      ⟨rfl, rfl⟩ | ⟨c, rfl, rfl, -⟩ | ⟨c, sent, -, -, hd, rfl⟩
    · simp [held]
    · simp [held]
    · simp [held, ← SenderLinkInner.drain_split hd]

theorem run_held {as : List (PairAction α)} (hw : p.sender.WaitsOnCredit)
    (h : run o p as = some (p', ev)) :
    p'.held <+ p.held ++ sentMessages as ∧
      p'.held.length + refusals ev = p.held.length + (sentMessages as).length := by
  induction as generalizing p ev with
  | nil => cases h; simp
  | cons a as ih =>
    obtain ⟨p₁, ev₁, ev', hs, hr, rfl⟩ := runSteps_cons h
    obtain ⟨hsub, hlen⟩ := ih (step_waitsOnCredit hw hs) hr
    rw [sentMessages_cons, refusals_append]
    rcases step_held hw hs with ⟨heq, h0⟩ | ⟨hsub₁, hlen₁, h1, hs₁⟩
    · rw [heq] at hsub hlen
      refine ⟨by simpa using hsub, ?_⟩
      simp only [List.length_append] at hlen ⊢
      omega
    · rw [hs₁, List.nil_append]
      exact ⟨hsub.trans (hsub₁.append_right _), by omega⟩

/-- Over every interleaving, in either build, the link holds the sent messages in send order, less
one for each transfer the receiver refused. -/
theorem sent_messages_kept_in_order {sh : U32} {rh : ℕ} {attach : Attach}
    {as : List (PairAction α)} (h : run o (init sh rh attach : LinkPair α ε) as = some (p, ev)) :
    p.held <+ sentMessages as ∧ p.held.length + refusals ev = (sentMessages as).length := by
  simpa [held, init, SenderLinkInner.new, ReceiverLinkInner.new] using
    run_held (fun hp => absurd rfl hp) h

theorem sent_messages_kept_in_order_after_refusal :
    let as : List (PairAction ℕ) :=
      [.send 1, .send 2, .setLinkCredit 1, .deliverFlow, .setLinkCredit 0, .deliverTransfer,
        .deliverFlow, .deliverTransfer]
    let p : LinkPair ℕ Unit :=
      ⟨⟨0, 2, 4294967294, [], none⟩, ⟨0, false, false, [1], 0, 1⟩, [], []⟩
    let ev : List (ReceiverEvent ℕ) :=
      [.flow 0 0 1, .flow 0 0 0, .detach 0 (some transferLimitExceeded)]
    run .wrap (init 0 0 ⟨none⟩) as = some (p, ev) ∧
      p.held <+ sentMessages as ∧ p.held.length + refusals ev = (sentMessages as).length :=
  have h : run .wrap (init 0 0 ⟨none⟩ : LinkPair ℕ Unit)
      [.send 1, .send 2, .setLinkCredit 1, .deliverFlow, .setLinkCredit 0, .deliverTransfer,
        .deliverFlow, .deliverTransfer] =
      some (⟨⟨0, 2, 4294967294, [], none⟩, ⟨0, false, false, [1], 0, 1⟩, [], []⟩,
        [.flow 0 0 1, .flow 0 0 0, .detach 0 (some transferLimitExceeded)]) := by decide
  ⟨h, sent_messages_kept_in_order h⟩

/-- The sender's `delivery_count` less the receiver's and the Transfers in flight. -/
def lag (p : LinkPair α ε) : U32 :=
  p.sender.deliveryCount - p.receiver.deliveryCount - (p.transfers.length : U32)

theorem step_lag (h : p.step o a = some (p', ev)) : p'.lag = p.lag + (refusals ev : U32) := by
  cases a with
  | send m =>
    obtain ⟨s, out, hs, rfl, rfl⟩ := step_send h
    simp only [lag, SenderLinkInner.step_deliveryCount hs, List.length_append, Nat.cast_add,
      refusals_nil, Nat.cast_zero, add_zero]
    abel
  | setLinkCredit n =>
    obtain ⟨r, hr, rfl⟩ := step_setLinkCredit h
    obtain ⟨rfl, rfl⟩ := ReceiverLinkInner.setLinkCredit_eq hr
    simp [lag]
  | deliverTransfer =>
    rcases step_deliverTransfer h with ⟨-, rfl, rfl⟩ | ⟨t, ts, r, ht, hr, rfl⟩
    · simp
    rcases ReceiverLinkInner.handleTransfer_cases hr with ⟨-, rfl, rfl⟩ | ⟨-, rfl, rfl⟩
    · simp only [lag, ht, refusals_close, List.length_cons, Nat.cast_succ, Nat.cast_one]
      abel
    · simp only [lag, ht, refusals_nil, List.length_cons, Nat.cast_succ, Nat.cast_zero, add_zero]
      abel
  | deliverFlow =>
    rcases step_deliverFlow h with ⟨-, rfl, rfl⟩ | ⟨f, fs, s, out, -, hs, rfl, rfl⟩
    · simp
    simp only [lag, SenderLinkInner.step_deliveryCount hs, List.length_append, Nat.cast_add,
      refusals_nil, Nat.cast_zero, add_zero]
    abel

theorem run_lag {as : List (PairAction α)} (h : run o p as = some (p', ev)) :
    p'.lag = p.lag + (refusals ev : U32) := by
  induction as generalizing p ev with
  | nil => cases h; simp
  | cons a as ih =>
    obtain ⟨p₁, ev₁, ev', hs, hr, rfl⟩ := runSteps_cons h
    rw [ih hr, step_lag hs, refusals_append, Nat.cast_add, add_assoc]

/-- Over every interleaving, in either build, the two ends agree on `delivery_count` modulo `2^32`,
up to the Transfers in flight and those refused. -/
theorem delivery_counts_agree {sh : U32} {rh : ℕ} {attach : Attach} {as : List (PairAction α)}
    (h : run o (init sh rh attach : LinkPair α ε) as = some (p, ev)) :
    p.sender.deliveryCount + attach.initialDeliveryCount.getD 0 =
      p.receiver.deliveryCount + ((p.transfers.length + refusals ev : ℕ) : U32) := by
  have hl := run_lag h
  simp only [lag, init, SenderLinkInner.new, ReceiverLinkInner.new, List.length_nil,
    Nat.cast_zero, sub_zero, zero_sub] at hl
  have hs : p.sender.deliveryCount = -attach.initialDeliveryCount.getD 0 + (refusals ev : U32) +
      (p.receiver.deliveryCount + (p.transfers.length : U32)) := by
    rw [← hl]; abel
  rw [hs]
  push_cast
  abel

theorem delivery_counts_agree_after_refusal :
    let as : List (PairAction ℕ) :=
      [.send 1, .send 2, .setLinkCredit 1, .deliverFlow, .setLinkCredit 0, .deliverTransfer,
        .deliverFlow, .deliverTransfer]
    let p : LinkPair ℕ Unit :=
      ⟨⟨0, 2, 4294967294, [], none⟩, ⟨0, false, false, [1], 0, 1⟩, [], []⟩
    let ev : List (ReceiverEvent ℕ) :=
      [.flow 0 0 1, .flow 0 0 0, .detach 0 (some transferLimitExceeded)]
    run .wrap (init 0 0 ⟨none⟩) as = some (p, ev) ∧
      p.sender.deliveryCount + (none : Option U32).getD 0 =
        p.receiver.deliveryCount + ((p.transfers.length + refusals ev : ℕ) : U32) :=
  have h : run .wrap (init 0 0 ⟨none⟩ : LinkPair ℕ Unit)
      [.send 1, .send 2, .setLinkCredit 1, .deliverFlow, .setLinkCredit 0, .deliverTransfer,
        .deliverFlow, .deliverTransfer] =
      some (⟨⟨0, 2, 4294967294, [], none⟩, ⟨0, false, false, [1], 0, 1⟩, [], []⟩,
        [.flow 0 0 1, .flow 0 0 0, .detach 0 (some transferLimitExceeded)]) := by decide
  ⟨h, delivery_counts_agree h⟩

end LinkPair

end NtexAmqp
