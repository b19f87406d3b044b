import NtexAmqp.Basic

namespace NtexAmqp

/-- What a sender link asks of its session and its callers' promises. -/
inductive SenderEffect (α ε : Type)
  /-- `session.send_transfer(remote_handle, message, promise)` -/
  | sendTransfer (handle : U32) (message : α)
  /-- `promise.send(Err(err))` for a dropped pending transfer -/
  | fail (message : α) (err : ε)
  deriving DecidableEq, Repr

/-- `SenderLinkInner`. A pending transfer is its message with its promise, one value of `α`. -/
structure SenderLinkInner (α ε : Type) where
  remoteHandle : U32
  deliveryCount : U32
  linkCredit : U32
  pendingTransfers : List α
  error : Option ε
  deriving DecidableEq, Repr

/-- The calls a session or an application makes on a sender link. -/
inductive SenderOp (α ε : Type)
  | send (message : α)
  | applyFlow (flow : Flow)
  | detached (err : ε)
  | setError (err : ε)
  deriving DecidableEq, Repr

namespace SenderLinkInner

variable {α ε : Type} {o : Overflow} {s s' : SenderLinkInner α ε}

def new (handle : U32) : SenderLinkInner α ε :=
  { remoteHandle := handle, deliveryCount := 0, linkCredit := 0, pendingTransfers := [],
    error := none }

/-- The sender's delivery limit, `delivery_count + link_credit`, without wrapping. -/
def limit (s : SenderLinkInner α ε) : ℕ := s.deliveryCount.val + s.linkCredit.val

/-- The body shared by `detached` and `set_error`: fail every pending transfer, keep `err`. -/
def dropPending (s : SenderLinkInner α ε) (err : ε) :
    SenderLinkInner α ε × List (SenderEffect α ε) :=
  ({ s with pendingTransfers := [], error := some err },
    s.pendingTransfers.map (SenderEffect.fail · err))

def detached (s : SenderLinkInner α ε) (err : ε) : SenderLinkInner α ε × List (SenderEffect α ε) :=
  s.dropPending err

def setError (s : SenderLinkInner α ε) (err : ε) : SenderLinkInner α ε × List (SenderEffect α ε) :=
  s.dropPending err

/-- `self.link_credit -= 1; self.delivery_count += 1`, written out before each transfer. -/
def spend (o : Overflow) (s : SenderLinkInner α ε) : Option (SenderLinkInner α ε) := do
  let linkCredit ← o.sub s.linkCredit 1
  let deliveryCount ← o.add s.deliveryCount 1
  pure { s with linkCredit, deliveryCount }

theorem spend_eq (h : s.spend o = some s') :
    s' = { s with linkCredit := s.linkCredit - 1, deliveryCount := s.deliveryCount + 1 } := by
  simp only [spend, Option.bind_eq_bind, Option.bind_eq_some, Option.pure_def,
    Option.some.injEq] at h
  obtain ⟨lc, hlc, dc, hdc, rfl⟩ := h
  rw [Overflow.eq_of_sub hlc, Overflow.eq_of_add hdc]

theorem spend_limit (hc : s.linkCredit ≠ 0) (hb : s.limit < 2 ^ 32) :
    (s.deliveryCount + 1).val = s.deliveryCount.val + 1 ∧
      (s.deliveryCount + 1).val + (s.linkCredit - 1).val = s.limit := by
  have h₁ := val_add_one hc hb
  have h₂ := val_sub_one hc
  have := Fin.pos_iff_ne_zero.mpr hc
  unfold limit
  omega

theorem spend_panic_eq (hc : s.linkCredit ≠ 0) (hb : s.limit < 2 ^ 32) :
    s.spend .panic =
      some { s with linkCredit := s.linkCredit - 1, deliveryCount := s.deliveryCount + 1 } := by
  simp only [spend, Overflow.sub_of_le _ (one_le_of_ne_zero hc),
    Overflow.add_of_lt _ (add_one_lt hc hb), Option.bind_eq_bind, Option.some_bind,
    Option.pure_def]

/-- The drain loop of `apply_flow` on queue `q`: pop, spend, hand over, stop at zero credit. -/
def drain (o : Overflow) : SenderLinkInner α ε → List α → Option (SenderLinkInner α ε × List α)
  | s, [] => some ({ s with pendingTransfers := [] }, [])
  | s, m :: q => do
    let s ← s.spend o
    if s.linkCredit = 0 then pure ({ s with pendingTransfers := q }, [m])
    else (fun r => (r.1, m :: r.2)) <$> drain o s q

theorem drain_cons {m : α} {q sent : List α} (h : s.drain o (m :: q) = some (s', sent)) :
    ∃ s₁, s.spend o = some s₁ ∧
      (s₁.linkCredit = 0 ∧ s' = { s₁ with pendingTransfers := q } ∧ sent = [m] ∨
        s₁.linkCredit ≠ 0 ∧ ∃ rest, s₁.drain o q = some (s', rest) ∧ sent = m :: rest) := by
  simp only [drain, Option.bind_eq_bind, Option.bind_eq_some] at h
  obtain ⟨s₁, hs₁, h⟩ := h
  refine ⟨s₁, hs₁, ?_⟩
  split at h
  · cases h
    exact .inl ⟨‹_›, rfl, rfl⟩
  · simp only [Option.map_eq_map, Option.map_eq_some', Prod.mk.injEq] at h
    obtain ⟨⟨s₂, rest⟩, hr, rfl, rfl⟩ := h
    exact .inr ⟨‹_›, rest, hr, rfl⟩

theorem drain_split {q sent : List α} (h : s.drain o q = some (s', sent)) :
    sent ++ s'.pendingTransfers = q := by
  induction q generalizing s sent with
  | nil => cases h; rfl
  | cons m q ih =>
    obtain ⟨s₁, -, ⟨-, rfl, rfl⟩ | ⟨-, rest, hr, rfl⟩⟩ := drain_cons h
    · rfl
    · simp [ih hr]

theorem drain_starved {q sent : List α} (h : s.drain o q = some (s', sent)) :
    s'.pendingTransfers = [] ∨ s'.linkCredit = 0 := by
  induction q generalizing s sent with
  | nil => cases h; exact .inl rfl
  | cons m q ih =>
    obtain ⟨s₁, -, ⟨h0, rfl, -⟩ | ⟨-, rest, hr, -⟩⟩ := drain_cons h
    · exact .inr h0
    · simpa using ih hr

/-- With credit left the loop hands over the first `link_credit` queued messages. -/
theorem drain_take {q sent : List α} (h : s.drain o q = some (s', sent)) (hc : s.linkCredit ≠ 0) :
    sent = q.take s.linkCredit.val ∧ s'.linkCredit.val = s.linkCredit.val - sent.length ∧
      s'.deliveryCount = s.deliveryCount + (sent.length : U32) := by
  induction q generalizing s sent with
  | nil => cases h; simp
  | cons m q ih =>
    have h1 := val_sub_one hc
    obtain ⟨s₁, hs₁, ⟨h0, rfl, rfl⟩ | ⟨h0, rest, hr, rfl⟩⟩ := drain_cons h <;>
      obtain rfl := spend_eq hs₁
    · obtain hv : s.linkCredit = 1 := sub_eq_zero.mp h0
      simp [hv]
    · obtain ⟨rfl, hl, hd⟩ := ih hr h0
      have hv : s.linkCredit.val = (s.linkCredit - 1).val + 1 := by
        have := Fin.pos_iff_ne_zero.mpr hc; omega
      refine ⟨by rw [hv, List.take_succ_cons], ?_, ?_⟩
      · rw [hl]; simp only [List.length_cons, List.length_take]; omega
      · rw [hd, List.length_cons, Nat.cast_succ, add_assoc, add_comm (1 : U32)]

theorem drain_panic_isSome (q : List α) (hc : s.linkCredit ≠ 0) (hb : s.limit < 2 ^ 32) :
    (s.drain .panic q).isSome := by
  induction q generalizing s with
  | nil => rfl
  | cons m q ih =>
    simp only [drain, spend_panic_eq hc hb, Option.bind_eq_bind, Option.some_bind]
    split
    · rfl
    · rw [Option.map_eq_map, Option.isSome_map']
      exact ih ‹_› (by rw [limit, (spend_limit hc hb).2]; exact hb)

theorem drain_limit {q sent : List α} (h : s.drain o q = some (s', sent))
    (hc : s.linkCredit ≠ 0) (hb : s.limit < 2 ^ 32) :
    s'.limit = s.limit ∧ s'.deliveryCount.val = s.deliveryCount.val + sent.length := by
  obtain ⟨rfl, hl, hd⟩ := drain_take h hc
  have hlen : (q.take s.linkCredit.val).length ≤ s.linkCredit.val := List.length_take_le _ _
  unfold limit at hb ⊢
  have hv : s'.deliveryCount.val = s.deliveryCount.val + (q.take s.linkCredit.val).length := by
    rw [hd, Fin.val_add, Fin.val_natCast, Nat.mod_eq_of_lt (a := (List.take _ q).length) (by omega),
      Nat.mod_eq_of_lt (by omega)]
  omega

/-- `SenderLinkInner::apply_flow`. Its `echo` branch is an empty `todo` in the source. -/
def applyFlow (o : Overflow) (s : SenderLinkInner α ε) (flow : Flow) :
    Option (SenderLinkInner α ε × List (SenderEffect α ε)) :=
  match flow.linkCredit with
  | none => some (s, [])
  | some credit => do
    let limit ← o.add (flow.deliveryCount.getD 0) credit
    let current ← o.add s.deliveryCount s.linkCredit
    let delta ← o.sub limit current
    if 0 < delta then
      let linkCredit ← o.add s.linkCredit delta
      if s.linkCredit = 0 then
        (fun r => (r.1, r.2.map (SenderEffect.sendTransfer s.remoteHandle))) <$>
          drain o { s with linkCredit } s.pendingTransfers
      else pure ({ s with linkCredit }, [])
    else
      let grown ← o.add s.linkCredit delta
      let linkCredit ← o.add s.linkCredit (max 0 grown)
      pure ({ s with linkCredit }, [])

theorem applyFlow_cases {flow : Flow} {out : List (SenderEffect α ε)}
    (h : s.applyFlow o flow = some (s', out)) :
    s' = s ∧ out = [] ∨
    (∃ c, s' = { s with linkCredit := c } ∧ out = [] ∧ (s.linkCredit = 0 → c = 0)) ∨
    (∃ c sent, 0 < c ∧ s.linkCredit = 0 ∧
      drain o { s with linkCredit := c } s.pendingTransfers = some (s', sent) ∧
      out = sent.map (SenderEffect.sendTransfer s.remoteHandle)) := by
  unfold applyFlow at h
  split at h
  · cases h; exact .inl ⟨rfl, rfl⟩
  simp only [Option.bind_eq_bind, Option.bind_eq_some] at h
  obtain ⟨limit, -, current, -, delta, -, h⟩ := h
  split at h
  · simp only [Option.bind_eq_bind, Option.bind_eq_some] at h
    obtain ⟨c, hc, h⟩ := h
    obtain rfl := Overflow.eq_of_add hc
    split at h
    · simp only [Option.map_eq_map, Option.map_eq_some', Prod.mk.injEq] at h
      obtain ⟨⟨s₂, sent⟩, hd, rfl, rfl⟩ := h
      refine .inr (.inr ⟨_, sent, ?_, ‹_›, hd, rfl⟩)
      simpa only [‹s.linkCredit = 0›, zero_add]
    · cases h
      exact .inr (.inl ⟨_, rfl, rfl, fun h0 => absurd h0 ‹_›⟩)
  · simp only [Option.bind_eq_bind, Option.bind_eq_some, Option.pure_def, Option.some.injEq,
      Prod.mk.injEq] at h
    obtain ⟨grown, hg, c, hc, rfl, rfl⟩ := h
    refine .inr (.inl ⟨c, rfl, rfl, fun h0 => ?_⟩)
    have hd : delta = 0 := by simpa [Fin.pos_iff_ne_zero] using ‹¬0 < delta›
    rw [Overflow.eq_of_add hc, Overflow.eq_of_add hg, h0, hd]
    rfl

theorem applyFlow_none {flow : Flow} (hc : flow.linkCredit = none) :
    s.applyFlow o flow = some (s, []) := by
  simp [applyFlow, hc]

/-- A debug build's `apply_flow` raising the limit within `u32` never panics. -/
theorem applyFlow_panic_raise {flow : Flow} {c : U32} (hc : flow.linkCredit = some c)
    (hlt : s.limit < flow.limit) (hL : flow.limit < 2 ^ 32) :
    ∃ (s' : SenderLinkInner α ε) (sent : List α),
      s.applyFlow .panic flow = some (s', sent.map (.sendTransfer s.remoteHandle)) ∧
      s'.limit = flow.limit ∧ s'.deliveryCount.val = s.deliveryCount.val + sent.length := by
  have hfl : flow.limit = (flow.deliveryCount.getD 0).val + c.val := by
    simp [Flow.limit, Flow.base, hc]
  simp only [applyFlow, hc]
  rw [hfl] at hlt hL ⊢
  generalize flow.deliveryCount.getD 0 = d at hlt hL ⊢
  unfold limit at hlt
  have hcur := val_add_of_lt (a := s.deliveryCount) (b := s.linkCredit) (by omega)
  have hle : s.deliveryCount + s.linkCredit ≤ d + c := by
    rw [Fin.le_def, hcur, val_add_of_lt hL]; omega
  have hδ := Fin.sub_val_of_le hle
  rw [val_add_of_lt hL, hcur] at hδ
  simp only [Overflow.add_of_lt _ hL, Overflow.add_of_lt _ (show s.deliveryCount.val +
    s.linkCredit.val < 2 ^ 32 by omega), Overflow.sub_of_le _ hle, Option.bind_eq_bind,
    Option.some_bind]
  generalize d + c - (s.deliveryCount + s.linkCredit) = δ at hδ ⊢
  have hpos : 0 < δ := by rw [Fin.lt_def, hδ]; simp only [Fin.val_zero]; omega
  have hcr := val_add_of_lt (a := s.linkCredit) (b := δ) (by omega)
  simp only [Overflow.add_of_lt _ (show s.linkCredit.val + δ.val < 2 ^ 32 by omega), if_pos hpos,
    Option.some_bind]
  split
  · have h₁ : s.linkCredit + δ ≠ 0 := fun h => by
      have := congrArg Fin.val h; simp only [hcr, Fin.val_zero] at this; omega
    have hb₁ : ({ s with linkCredit := s.linkCredit + δ } : SenderLinkInner α ε).limit =
        d.val + c.val := by simp only [limit, hcr]; omega
    obtain ⟨⟨s', sent⟩, hd⟩ := Option.isSome_iff_exists.mp
      (drain_panic_isSome s.pendingTransfers h₁ (hb₁ ▸ hL))
    obtain ⟨hl, hdc⟩ := drain_limit hd h₁ (hb₁ ▸ hL)
    exact ⟨s', sent, by simp [hd], hl.trans hb₁, hdc⟩
  · exact ⟨{ s with linkCredit := s.linkCredit + δ }, [], rfl,
      by simp only [limit, hcr]; omega, rfl⟩

theorem applyFlow_panic_restate {flow : Flow} {c : U32} (hc : flow.linkCredit = some c)
    (heq : s.limit = flow.limit) (h0 : s.linkCredit = 0) :
    s.applyFlow .panic flow = some (s, []) := by
  simp only [Flow.limit, Flow.base, hc, Option.getD_some, limit, h0, Fin.val_zero, add_zero] at heq
  have hL : (flow.deliveryCount.getD 0).val + c.val < 2 ^ 32 := heq ▸ s.deliveryCount.isLt
  have hsame : flow.deliveryCount.getD 0 + c = s.deliveryCount :=
    Fin.ext (by rw [val_add_of_lt hL]; omega)
  simp only [applyFlow, hc, Overflow.add_of_lt _ hL, h0, hsame, Overflow.add_zero_eq,
    Overflow.zero_add_eq, Overflow.sub_self_eq, Option.bind_eq_bind, Option.some_bind,
    lt_self_iff_false, if_false, max_self, Option.pure_def]
  rw [← h0]

/-- `SenderLinkInner::send`; the returned `Delivery` is the message's promise. -/
def send (o : Overflow) (s : SenderLinkInner α ε) (message : α) :
    Option (SenderLinkInner α ε × List (SenderEffect α ε)) :=
  if s.linkCredit = 0 then
    some ({ s with pendingTransfers := s.pendingTransfers ++ [message] }, [])
  else do
    let s' ← s.spend o
    pure (s', [SenderEffect.sendTransfer s.remoteHandle message])

theorem send_cases {m : α} {out : List (SenderEffect α ε)} (h : s.send o m = some (s', out)) :
    s.linkCredit = 0 ∧ s' = { s with pendingTransfers := s.pendingTransfers ++ [m] } ∧ out = [] ∨
    s.linkCredit ≠ 0 ∧ s.spend o = some s' ∧
      out = [SenderEffect.sendTransfer s.remoteHandle m] := by
  unfold send at h
  split at h
  · cases h; exact .inl ⟨‹_›, rfl, rfl⟩
  · simp only [Option.bind_eq_bind, Option.bind_eq_some, Option.pure_def, Option.some.injEq,
      Prod.mk.injEq] at h
    obtain ⟨s₁, hs₁, rfl, rfl⟩ := h
    exact .inr ⟨‹_›, hs₁, rfl⟩

theorem send_panic (m : α) (hb : s.limit < 2 ^ 32) :
    ∃ (s' : SenderLinkInner α ε) (sent : List α),
      s.send .panic m = some (s', sent.map (.sendTransfer s.remoteHandle)) ∧
      s'.limit = s.limit ∧ s'.deliveryCount.val = s.deliveryCount.val + sent.length := by
  by_cases h0 : s.linkCredit = 0
  · exact ⟨{ s with pendingTransfers := s.pendingTransfers ++ [m] }, [], by simp [send, h0],
      rfl, rfl⟩
  · obtain ⟨hd, hl⟩ := spend_limit h0 hb
    exact ⟨{ s with linkCredit := s.linkCredit - 1, deliveryCount := s.deliveryCount + 1 }, [m],
      by simp [send, h0, spend_panic_eq h0 hb], hl, hd⟩

/-- One call on the link; `none` is a panic. -/
def step (o : Overflow) (s : SenderLinkInner α ε) :
    SenderOp α ε → Option (SenderLinkInner α ε × List (SenderEffect α ε))
  | .send m => s.send o m
  | .applyFlow flow => s.applyFlow o flow
  | .detached err => some (s.detached err)
  | .setError err => some (s.setError err)

def run (o : Overflow) : SenderLinkInner α ε → List (SenderOp α ε) →
    Option (SenderLinkInner α ε × List (SenderEffect α ε)) :=
  runSteps (step o)

end SenderLinkInner

end NtexAmqp
