import NtexAmqp.LinkPair

namespace NtexAmqp

namespace LinkPair

variable {α ε : Type} {p p' : LinkPair α ε} {a : PairAction α} {ev : List (ReceiverEvent α)}

/-- The limit the sender will hold once every Flow in flight has arrived: the last one's. -/
def settledLimit (p : LinkPair α ε) : ℕ := p.flows.foldl (fun _ f => f.limit) p.sender.limit

/-- The `delivery_count` the sender reaches once every message waiting at it is transferred. -/
def backlog (p : LinkPair α ε) : ℕ := p.sender.deliveryCount.val + p.sender.pendingTransfers.length

/-- What a disciplined debug build keeps beyond `FlowControl`: the sender queues only at zero
credit, and the Flows in flight grant credit and bring it to the receiver's limit. -/
structure Synced (p : LinkPair α ε) extends FlowControl p : Prop where
  waits : p.sender.WaitsOnCredit
  granted : ∀ f ∈ p.flows, f.linkCredit.isSome
  settled : p.receiver.limit = p.settledLimit

theorem Synced.credit_eq (hi : Synced p) (hf : p.flows = []) :
    p.receiver.credit.val = p.sender.linkCredit.val + p.transfers.length := by
  have h₁ := hi.settled
  have h₂ := hi.counted
  simp only [settledLimit, hf, List.foldl_nil, ReceiverLinkInner.limit,
    SenderLinkInner.limit] at h₁
  omega

theorem step_synced (hi : Synced p) (hd : Disciplined p a) (h : p.step .panic a = some (p', ev)) :
    Synced p' := by
  obtain ⟨p'', ev', hs₀, hfc, -⟩ := step_flowControl hi.toFlowControl hd
  obtain ⟨rfl, rfl⟩ := Prod.mk.inj (Option.some.inj (h.symm.trans hs₀))
  clear hs₀
  suffices (∀ f ∈ p'.flows, f.linkCredit.isSome) ∧ p'.receiver.limit = p'.settledLimit from
    ⟨hfc, step_waitsOnCredit hi.waits h, this.1, this.2⟩
  cases a with
  | send m =>
    obtain ⟨s, out, hs, rfl, -⟩ := step_send h
    obtain ⟨s', sent, hs', hl, -⟩ := p.sender.send_panic m (lt_of_le_of_lt hi.within hi.fits)
    obtain ⟨rfl, -⟩ := Prod.mk.inj (Option.some.inj (hs.symm.trans hs'))
    exact ⟨hi.granted, by simpa only [settledLimit, hl] using hi.settled⟩
  | setLinkCredit n =>
    obtain ⟨r, hr, rfl⟩ := step_setLinkCredit h
    obtain ⟨rfl, rfl⟩ := ReceiverLinkInner.setLinkCredit_eq hr
    refine ⟨by simpa [flowOf, or_imp, forall_and] using hi.granted, ?_⟩
    simp [settledLimit, ReceiverLinkInner.limit, flowOf, Flow.limit, Flow.base, hd.1]
  | deliverTransfer =>
    rcases step_deliverTransfer h with ⟨-, rfl, -⟩ | ⟨t, ts, r, -, hr, rfl⟩
    · exact ⟨hi.granted, hi.settled⟩
    refine ⟨hi.granted, Eq.trans ?_ hi.settled⟩
    rcases ReceiverLinkInner.handleTransfer_cases hr with ⟨-, rfl, -⟩ | ⟨hc, -⟩
    · rfl
    · obtain ⟨r', hr', hl, -⟩ := p.receiver.handleTransfer_panic t hc hi.fits
      obtain ⟨rfl, -⟩ := Prod.mk.inj (Option.some.inj (hr.symm.trans hr'))
      exact hl
  | deliverFlow =>
    rcases step_deliverFlow h with ⟨-, rfl, -⟩ | ⟨g, gs, s, out, hf, hs, rfl, -⟩
    · exact ⟨hi.granted, hi.settled⟩
    have hmem : g ∈ p.flows := by simp [hf]
    obtain ⟨c, hc⟩ := Option.isSome_iff_exists.mp (hi.granted g hmem)
    obtain ⟨s', sent, hs', hl, -⟩ := applyFlow_flowControl hi.toFlowControl hmem hc
    obtain ⟨rfl, -⟩ := Prod.mk.inj (Option.some.inj (hs.symm.trans hs'))
    refine ⟨fun f hf' => hi.granted f (by simp [hf, hf']), ?_⟩
    have := hi.settled
    simp only [settledLimit, hf, List.foldl_cons] at this
    simpa only [settledLimit, hl] using this

theorem synced_init (senderHandle : U32) (receiverHandle : ℕ) :
    Synced (init senderHandle receiverHandle ⟨none⟩ : LinkPair α ε) :=
  ⟨flowControl_init senderHandle receiverHandle, fun hp => absurd rfl hp, by simp [init], rfl⟩

theorem reachable_synced (h : Reachable p) : Synced p := by
  induction h with
  | init senderHandle receiverHandle => exact synced_init senderHandle receiverHandle
  | step _ hd hs ih => exact step_synced ih hd hs

/-- A debug build delivering the head of either channel, refused by neither end. -/
def DeliveryStep (p p' : LinkPair α ε) : Prop :=
  ∃ a ev, (a = .deliverTransfer ∨ a = .deliverFlow) ∧ p.step .panic a = some (p', ev) ∧
    refusals ev = 0

/-- A disciplined `set_link_credit` in a debug build. -/
def GrantStep (p p' : LinkPair α ε) : Prop :=
  ∃ n ev, Disciplined p (.setLinkCredit n) ∧ p.step .panic (.setLinkCredit n) = some (p', ev)

theorem refusals_eq_zero (h : ∀ e ∈ ev, (flowOf e).isSome) : refusals ev = 0 := by
  simp only [refusals, List.length_eq_zero, List.filter_eq_nil_iff, Option.isNone_iff_eq_none,
    decide_eq_true_eq]
  exact fun e he hn => by simpa [hn] using h e he

theorem step_quiet (hi : Synced p) (hd : Disciplined p a) (ha : sentMessages [a] = []) :
    ∃ p' ev, p.step .panic a = some (p', ev) ∧ refusals ev = 0 ∧ Synced p' ∧
      p'.held = p.held := by
  obtain ⟨p', ev, hs, -, hev⟩ := step_flowControl hi.toFlowControl hd
  have h0 := refusals_eq_zero hev
  refine ⟨p', ev, hs, h0, step_synced hi hd hs, ?_⟩
  rcases step_held hi.waits hs with ⟨heq, -⟩ | ⟨-, -, h1, -⟩
  · rw [heq, ha, List.append_nil]
  · omega

theorem backlog_eq (hi : FlowControl p) (hi' : FlowControl p') (hr : p'.receiver = p.receiver)
    (hh : p'.held = p.held) : p'.backlog = p.backlog := by
  have h₁ := hi.counted
  have h₂ := hi'.counted
  have h₃ := congrArg List.length hh
  simp only [held, backlog, hr, List.length_append] at h₁ h₂ h₃ ⊢
  omega

theorem flows_delivered (hi : Synced p) :
    ∃ p', Relation.ReflTransGen DeliveryStep p p' ∧ Synced p' ∧ p'.flows = [] ∧
      p'.held = p.held ∧ p'.backlog = p.backlog := by
  obtain ⟨n, hn⟩ : ∃ n, p.flows.length = n := ⟨_, rfl⟩
  induction n generalizing p with
  | zero => exact ⟨p, .refl, hi, List.length_eq_zero.mp hn, rfl, rfl⟩
  | succ n ih =>
    obtain ⟨p₁, ev, hs, h0, hi₁, hheld⟩ := step_quiet hi (a := .deliverFlow) trivial rfl
    have hstep : DeliveryStep p p₁ := ⟨_, ev, .inr rfl, hs, h0⟩
    rcases step_deliverFlow hs with ⟨hf, -, -⟩ | ⟨f, fs, s, out, hf, -, rfl, -⟩
    · simp [hf] at hn
    obtain ⟨p', hr, hi', hf', hh', hb'⟩ := ih hi₁ (by simpa [hf] using hn)
    exact ⟨p', .head hstep hr, hi', hf', hh'.trans hheld,
      hb'.trans (backlog_eq hi.toFlowControl hi₁.toFlowControl rfl hheld)⟩

theorem transfers_delivered (hi : Synced p) :
    ∃ p', Relation.ReflTransGen DeliveryStep p p' ∧ Synced p' ∧ p'.transfers = [] ∧
      p'.flows = p.flows ∧ p'.sender = p.sender ∧ p'.held = p.held := by
  obtain ⟨n, hn⟩ : ∃ n, p.transfers.length = n := ⟨_, rfl⟩
  induction n generalizing p with
  | zero => exact ⟨p, .refl, hi, List.length_eq_zero.mp hn, rfl, rfl, rfl⟩
  | succ n ih =>
    obtain ⟨p₁, ev, hs, h0, hi₁, hheld⟩ := step_quiet hi (a := .deliverTransfer) trivial rfl
    have hstep : DeliveryStep p p₁ := ⟨_, ev, .inl rfl, hs, h0⟩
    rcases step_deliverTransfer hs with ⟨ht, -, -⟩ | ⟨t, ts, r, ht, -, rfl⟩
    · simp [ht] at hn
    obtain ⟨p', hr, hi', ht', hf', hs', hh'⟩ := ih hi₁ (by simpa [ht] using hn)
    exact ⟨p', .head hstep hr, hi', ht', hf', hs', hh'.trans hheld⟩

/-- With nothing in flight, granting exactly the waiting messages puts them all in flight. -/
theorem grant_delivered (hi : Synced p) (hf : p.flows = []) (ht : p.transfers = [])
    (hroom : p.backlog < 2 ^ 32) :
    ∃ p₁ p', (p₁ = p ∨ GrantStep p p₁) ∧ Relation.ReflTransGen DeliveryStep p₁ p' ∧ Synced p' ∧
      p'.flows = [] ∧ p'.sender.pendingTransfers = [] ∧ p'.held = p.held := by
  by_cases hp : p.sender.pendingTransfers = []
  · exact ⟨p, p, .inl rfl, .refl, hi, hf, hp, rfl⟩
  have hc := hi.credit_eq hf
  have hcount := hi.counted
  simp only [hi.waits hp, ht, Fin.val_zero, List.length_nil, add_zero] at hc hcount
  unfold backlog at hroom
  obtain ⟨n, hn⟩ : ∃ n : U32, n.val = p.sender.pendingTransfers.length := ⟨⟨_, by omega⟩, rfl⟩
  have hd : Disciplined p (.setLinkCredit n) := ⟨Fin.ext hc, by omega⟩
  obtain ⟨p₁, ev₁, hs₁, -, hi₁, hheld₁⟩ := step_quiet hi hd rfl
  have hgrant : GrantStep p p₁ := ⟨n, ev₁, hd, hs₁⟩
  obtain ⟨r, hr, rfl⟩ := step_setLinkCredit hs₁
  obtain ⟨rfl, rfl⟩ := ReceiverLinkInner.setLinkCredit_eq hr
  obtain ⟨p₂, ev₂, hs₂, h0₂, hi₂, hheld₂⟩ := step_quiet hi₁ (a := .deliverFlow) trivial rfl
  have hstep : DeliveryStep _ p₂ := ⟨_, ev₂, .inr rfl, hs₂, h0₂⟩
  rcases step_deliverFlow hs₂ with ⟨h0, -, -⟩ | ⟨g, gs, s, out, hg, -, rfl, -⟩
  · simp [flowOf] at h0
  have hgs : gs = [] := by simp [hf, flowOf] at hg; exact hg.2
  refine ⟨_, _, .inr hgrant, .single hstep, hi₂, hgs, ?_, hheld₂.trans hheld₁⟩
  by_contra hp₂
  have h0₂ : s.linkCredit = 0 := hi₂.waits hp₂
  have hce := hi₂.credit_eq hgs
  have hh := congrArg List.length (hheld₂.trans hheld₁)
  have hpos := List.length_pos.mpr hp₂
  simp only [held, ht, h0₂, hd.1, zero_add, List.length_append, List.length_nil,
    Fin.val_zero] at hce hh hpos
  omega

/-- Nothing a disciplined debug build holds is stuck: deliveries, at most one grant, and deliveries
again bring it all into the receiver's queue, in order. -/
theorem held_messages_delivered (h : Reachable p) (hroom : p.backlog < 2 ^ 32) :
    ∃ p₁ p₂ p', Relation.ReflTransGen DeliveryStep p p₁ ∧ (p₂ = p₁ ∨ GrantStep p₁ p₂) ∧
      Relation.ReflTransGen DeliveryStep p₂ p' ∧ p'.receiver.queue = p.held ∧
      p'.transfers = [] ∧ p'.flows = [] ∧ p'.sender.pendingTransfers = [] := by
  obtain ⟨p₁, h₁, hi₁, hf₁, hh₁, hb₁⟩ := flows_delivered (reachable_synced h)
  obtain ⟨p₂, h₂, hi₂, ht₂, hf₂, hs₂, hh₂⟩ := transfers_delivered hi₁
  have hb₂ : p₂.backlog = p.backlog := by rw [← hb₁]; simp only [backlog, hs₂]
  obtain ⟨p₃, p₄, hg, h₄, hi₄, hf₄, hp₄, hh₄⟩ :=
    grant_delivered hi₂ (hf₂.trans hf₁) ht₂ (hb₂ ▸ hroom)
  obtain ⟨p₅, h₅, -, ht₅, hf₅, hs₅, hh₅⟩ := transfers_delivered hi₄
  refine ⟨p₂, p₃, p₅, h₁.trans h₂, hg, h₄.trans h₅, ?_, ht₅, hf₅.trans hf₄, hs₅ ▸ hp₄⟩
  simpa [held, ht₅, hs₅, hp₄] using hh₅.trans (hh₄.trans (hh₂.trans hh₁))

theorem held_messages_delivered_after_grant :
    let p : LinkPair ℕ Unit :=
      ⟨⟨0, 0, 0, [1, 2], none⟩, ⟨0, false, false, [], 1, 0⟩, [], [⟨some 0, some 1, false⟩]⟩
    Reachable p ∧ p.backlog < 2 ^ 32 ∧
      ∃ p₁ p₂ p', Relation.ReflTransGen DeliveryStep p p₁ ∧ (p₂ = p₁ ∨ GrantStep p₁ p₂) ∧
        Relation.ReflTransGen DeliveryStep p₂ p' ∧ p'.receiver.queue = p.held ∧
        p'.transfers = [] ∧ p'.flows = [] ∧ p'.sender.pendingTransfers = [] :=
  have h : Reachable (⟨⟨0, 0, 0, [1, 2], none⟩, ⟨0, false, false, [], 1, 0⟩, [],
      [⟨some 0, some 1, false⟩]⟩ : LinkPair ℕ Unit) :=
    (((Reachable.init 0 0).step (a := .send 1) trivial rfl).step (a := .send 2) trivial
      rfl).step (a := .setLinkCredit 1) ⟨rfl, by decide⟩ rfl
  ⟨h, by decide, held_messages_delivered h (by decide)⟩

end LinkPair

end NtexAmqp
