import NtexAmqp.SenderLink

namespace NtexAmqp

open scoped List

namespace SenderLinkInner

variable {α ε : Type} {o : Overflow} {s s' : SenderLinkInner α ε} {op : SenderOp α ε}
  {out : List (SenderEffect α ε)}

/-- Messages wait in `pending_transfers` only while the link has no credit. -/
def WaitsOnCredit (s : SenderLinkInner α ε) : Prop :=
  s.pendingTransfers ≠ [] → s.linkCredit = 0

theorem dropPending_eq {err : ε} (h : some (s.dropPending err) = some (s', out)) :
    s' = { s with pendingTransfers := [], error := some err } ∧
      out = s.pendingTransfers.map (SenderEffect.fail · err) := by
  cases h; exact ⟨rfl, rfl⟩

theorem step_waitsOnCredit (hi : s.WaitsOnCredit) (h : s.step o op = some (s', out)) :
    s'.WaitsOnCredit := by
  cases op with
  | send m =>
    rcases send_cases h with ⟨h0, rfl, -⟩ | ⟨h0, hs, -⟩
    · exact fun _ => h0
    · obtain rfl := spend_eq hs
      exact fun hp => absurd (hi hp) h0
  | applyFlow flow =>
    rcases applyFlow_cases h with ⟨rfl, -⟩ | ⟨c, rfl, -, hc⟩ | ⟨c, sent, -, -, hd, -⟩
    · exact hi
    · exact fun hp => hc (hi hp)
    · rcases drain_starved hd with hp | h0
      · exact fun hp' => absurd hp hp'
      · exact fun _ => h0
  | detached err | setError err =>
    obtain ⟨rfl, -⟩ := dropPending_eq h
    exact fun hp => absurd rfl hp

/-- The states a link created by `new` can reach; `none` steps (panics) end a run. -/
inductive Reachable (o : Overflow) : SenderLinkInner α ε → Prop
  | new (handle : U32) : Reachable o (new handle)
  | step {s s' : SenderLinkInner α ε} {op : SenderOp α ε} {out : List (SenderEffect α ε)} :
      Reachable o s → s.step o op = some (s', out) → Reachable o s'

theorem pending_only_without_credit (h : Reachable o s) : s.WaitsOnCredit := by
  induction h with
  | new handle => exact fun hp => absurd rfl hp
  | step _ hs ih => exact step_waitsOnCredit ih hs

theorem pending_only_without_credit_after_send :
    Reachable .wrap (⟨0, 0, 0, [7], none⟩ : SenderLinkInner Nat Unit) ∧
      (⟨0, 0, 0, [7], none⟩ : SenderLinkInner Nat Unit).WaitsOnCredit :=
  have h := (Reachable.new 0).step
    (show step .wrap (new 0) (.send 7) = some (⟨0, 0, 0, [7], none⟩, []) from rfl)
  ⟨h, pending_only_without_credit h⟩

/-- The messages a log hands to `send_transfer`, in order. -/
def transfers : List (SenderEffect α ε) → List α :=
  List.filterMap fun | .sendTransfer _ m => some m | .fail _ _ => none

/-- The messages whose promise a log resolves with an error. -/
def failures : List (SenderEffect α ε) → List α :=
  List.filterMap fun | .fail m _ => some m | .sendTransfer _ _ => none

/-- The messages given to `send`, in call order. -/
def sends : List (SenderOp α ε) → List α :=
  List.filterMap fun | .send m => some m | _ => none

@[simp] theorem transfers_nil : transfers ([] : List (SenderEffect α ε)) = [] := rfl
@[simp] theorem failures_nil : failures ([] : List (SenderEffect α ε)) = [] := rfl
@[simp] theorem sends_nil : sends ([] : List (SenderOp α ε)) = [] := rfl

@[simp] theorem transfers_sendTransfer_cons (h : U32) (m : α) (l : List (SenderEffect α ε)) :
    transfers (.sendTransfer h m :: l) = m :: transfers l := rfl
@[simp] theorem transfers_fail_cons (m : α) (err : ε) (l : List (SenderEffect α ε)) :
    transfers (.fail m err :: l) = transfers l := rfl
@[simp] theorem failures_sendTransfer_cons (h : U32) (m : α) (l : List (SenderEffect α ε)) :
    failures (.sendTransfer h m :: l) = failures l := rfl
@[simp] theorem failures_fail_cons (m : α) (err : ε) (l : List (SenderEffect α ε)) :
    failures (.fail m err :: l) = m :: failures l := rfl

@[simp] theorem sends_send_cons (m : α) (ops : List (SenderOp α ε)) :
    sends (.send m :: ops) = m :: sends ops := rfl
@[simp] theorem sends_applyFlow_cons (flow : Flow) (ops : List (SenderOp α ε)) :
    sends (.applyFlow flow :: ops) = sends ops := rfl
@[simp] theorem sends_detached_cons (err : ε) (ops : List (SenderOp α ε)) :
    sends (.detached err :: ops) = sends ops := rfl
@[simp] theorem sends_setError_cons (err : ε) (ops : List (SenderOp α ε)) :
    sends (.setError err :: ops) = sends ops := rfl

theorem sends_cons (op : SenderOp α ε) (ops : List (SenderOp α ε)) :
    sends (op :: ops) = sends [op] ++ sends ops := by
  cases op <;> rfl

@[simp] theorem transfers_append (l l' : List (SenderEffect α ε)) :
    transfers (l ++ l') = transfers l ++ transfers l' := List.filterMap_append _ _ _
@[simp] theorem failures_append (l l' : List (SenderEffect α ε)) :
    failures (l ++ l') = failures l ++ failures l' := List.filterMap_append _ _ _

@[simp] theorem transfers_map_sendTransfer (h : U32) (l : List α) :
    transfers (l.map (SenderEffect.sendTransfer (ε := ε) h)) = l := by
  induction l <;> simp_all

@[simp] theorem failures_map_sendTransfer (h : U32) (l : List α) :
    failures (l.map (SenderEffect.sendTransfer (ε := ε) h)) = [] := by
  induction l <;> simp_all

@[simp] theorem transfers_map_fail (err : ε) (l : List α) :
    transfers (l.map (SenderEffect.fail · err)) = [] := by
  induction l <;> simp_all

@[simp] theorem failures_map_fail (err : ε) (l : List α) :
    failures (l.map (SenderEffect.fail · err)) = l := by
  induction l <;> simp_all

theorem step_ledger (hi : s.WaitsOnCredit) (h : s.step o op = some (s', out)) :
    transfers out ++ s'.pendingTransfers <+ s.pendingTransfers ++ sends [op] ∧
      transfers out ++ failures out ++ s'.pendingTransfers ~ s.pendingTransfers ++ sends [op] := by
  cases op with
  | send m =>
    rcases send_cases h with ⟨-, rfl, rfl⟩ | ⟨h0, hs, rfl⟩
    · simp
    · obtain rfl := spend_eq hs
      have hp : s.pendingTransfers = [] := by_contra fun hp => h0 (hi hp)
      simp [hp]
  | applyFlow flow =>
    rcases applyFlow_cases h with ⟨rfl, rfl⟩ | ⟨c, rfl, rfl, -⟩ | ⟨c, sent, -, -, hd, rfl⟩
    · simp
    · simp
    · simp [drain_split hd]
  | detached err | setError err =>
    obtain ⟨rfl, rfl⟩ := dropPending_eq h
    simp

/-- Over a run, each message sent is handed over, failed or waiting exactly once, in send order. -/
theorem run_ledger {ops : List (SenderOp α ε)} {log : List (SenderEffect α ε)}
    (hi : s.WaitsOnCredit) (h : run o s ops = some (s', log)) :
    transfers log ++ s'.pendingTransfers <+ s.pendingTransfers ++ sends ops ∧
      transfers log ++ failures log ++ s'.pendingTransfers ~ s.pendingTransfers ++ sends ops := by
  induction ops generalizing s log with
  | nil => cases h; simp
  | cons op ops ih =>
    obtain ⟨s₁, out, log', hs, hr, rfl⟩ := runSteps_cons h
    obtain ⟨hsub, hperm⟩ := step_ledger hi hs
    obtain ⟨hsub', hperm'⟩ := ih (step_waitsOnCredit hi hs) hr
    have hsends := sends_cons op ops
    constructor
    · calc transfers (out ++ log') ++ s'.pendingTransfers
          = transfers out ++ (transfers log' ++ s'.pendingTransfers) := by simp
        _ <+ transfers out ++ (s₁.pendingTransfers ++ sends ops) := hsub'.append_left _
        _ = (transfers out ++ s₁.pendingTransfers) ++ sends ops := by simp
        _ <+ (s.pendingTransfers ++ sends [op]) ++ sends ops := hsub.append_right _
        _ = s.pendingTransfers ++ sends (op :: ops) := by simp [hsends]
    · calc transfers (out ++ log') ++ failures (out ++ log') ++ s'.pendingTransfers
          ~ (transfers out ++ failures out) ++
              (transfers log' ++ failures log' ++ s'.pendingTransfers) := by
            simpa using (List.perm_append_comm_assoc _ _ _).append_left _
        _ ~ (transfers out ++ failures out) ++ (s₁.pendingTransfers ++ sends ops) :=
            hperm'.append_left _
        _ = (transfers out ++ failures out ++ s₁.pendingTransfers) ++ sends ops := by simp
        _ ~ (s.pendingTransfers ++ sends [op]) ++ sends ops := hperm.append_right _
        _ = s.pendingTransfers ++ sends (op :: ops) := by simp [hsends]

@[simp] theorem drain_wrap (s : SenderLinkInner α ε) (q : List α) :
    (s.drain .wrap q).isSome := by
  induction q generalizing s with
  | nil => rfl
  | cons m q ih =>
    simp only [drain, spend, Overflow.wrap_add, Overflow.wrap_sub, Option.bind_eq_bind,
      Option.some_bind, Option.pure_def]
    split <;> simp [ih]

theorem step_wrap (s : SenderLinkInner α ε) (op : SenderOp α ε) : (s.step .wrap op).isSome := by
  cases op with
  | send m => simp only [step, send]; split <;> rfl
  | applyFlow flow =>
    simp only [step, applyFlow]
    split
    · rfl
    · simp only [Overflow.wrap_add, Overflow.wrap_sub, Option.bind_eq_bind, Option.some_bind]
      split
      · split
        · rw [Option.map_eq_map, Option.isSome_map']
          exact drain_wrap _ _
        · rfl
      · rfl
  | detached err | setError err => rfl

theorem run_wrap (s : SenderLinkInner α ε) (ops : List (SenderOp α ε)) :
    ∃ r, run .wrap s ops = some r := by
  induction ops generalizing s with
  | nil => exact ⟨_, rfl⟩
  | cons op ops ih =>
    obtain ⟨⟨s₁, out⟩, hs⟩ := Option.isSome_iff_exists.mp (step_wrap s op)
    obtain ⟨⟨s₂, log⟩, hr⟩ := ih s₁
    unfold run at hr ⊢
    exact ⟨(s₂, out ++ log), by simp [runSteps, hs, hr]⟩

/-- Every run from `new` hands messages to the session in `send` order, each one handed over,
failed or still waiting exactly once. -/
theorem sends_delivered_in_order (handle : U32) (ops : List (SenderOp α ε)) :
    ∃ s log, run .wrap (new handle) ops = some (s, log) ∧
      transfers log ++ s.pendingTransfers <+ sends ops ∧
      transfers log ++ failures log ++ s.pendingTransfers ~ sends ops := by
  obtain ⟨⟨s, log⟩, h⟩ := run_wrap (new handle) ops
  exact ⟨s, log, h, by simpa [new] using run_ledger (fun hp => absurd rfl hp) h⟩

/-- `detached` records the error, but neither `send` nor `apply_flow` reads it: a later
message is queued, and a later `Flow` hands it to the session. -/
theorem detached_link_keeps_sending :
    run .panic (new 0 : SenderLinkInner Nat Unit)
        [.detached (), .send 7, .applyFlow ⟨some 0, some 1, false⟩] =
      some (⟨0, 1, 0, [], some ()⟩, [.sendTransfer 0 7]) := by
  decide

/-- A `Flow` that repeats the current limit doubles the credit, and one that lowers it
underflows `delta`. -/
theorem repeated_flow_doubles_credit :
    run .panic (new 0 : SenderLinkInner Nat Unit)
        [.applyFlow ⟨some 0, some 2, false⟩, .applyFlow ⟨some 0, some 2, false⟩] =
      some (⟨0, 0, 4, [], none⟩, []) ∧
    run .panic (new 0 : SenderLinkInner Nat Unit)
        [.applyFlow ⟨some 0, some 2, false⟩, .applyFlow ⟨some 0, some 1, false⟩] = none := by
  decide

/-- A `Flow` whose limit is below `delivery_count` panics in a debug build, and in a release
build wraps `delta` and drains the queued third message. -/
theorem shrinking_flow_drains_queue :
    run .panic (new 0 : SenderLinkInner Nat Unit)
        [.applyFlow ⟨some 0, some 2, false⟩, .send 1, .send 2, .send 3,
          .applyFlow ⟨some 0, some 1, false⟩] = none ∧
    (run .wrap (new 0 : SenderLinkInner Nat Unit)
        [.applyFlow ⟨some 0, some 2, false⟩, .send 1, .send 2, .send 3,
          .applyFlow ⟨some 0, some 1, false⟩]).map Prod.snd =
      some [.sendTransfer 0 1, .sendTransfer 0 2, .sendTransfer 0 3] := by
  decide

theorem step_deliveryCount (h : s.step o op = some (s', out)) :
    s'.deliveryCount = s.deliveryCount + ((transfers out).length : U32) := by
  cases op with
  | send m =>
    rcases send_cases h with ⟨-, rfl, rfl⟩ | ⟨-, hs, rfl⟩
    · simp
    · obtain rfl := spend_eq hs
      simp
  | applyFlow flow =>
    rcases applyFlow_cases h with ⟨rfl, rfl⟩ | ⟨c, rfl, rfl, -⟩ | ⟨c, sent, hc, -, hd, rfl⟩
    · simp
    · simp
    · simpa using (drain_take hd (Fin.pos_iff_ne_zero.mp hc)).2.2
  | detached err | setError err =>
    obtain ⟨rfl, rfl⟩ := dropPending_eq h
    simp

/-- Over every run, in either build, `delivery_count` advances by the Transfers handed to the
session, modulo `2^32`. -/
theorem deliveryCount_counts_transfers {ops : List (SenderOp α ε)} {log : List (SenderEffect α ε)}
    (h : run o s ops = some (s', log)) :
    s'.deliveryCount = s.deliveryCount + ((transfers log).length : U32) := by
  induction ops generalizing s log with
  | nil => cases h; simp
  | cons op ops ih =>
    obtain ⟨s₁, out, log', hs, hr, rfl⟩ := runSteps_cons h
    rw [ih hr, step_deliveryCount hs, transfers_append, List.length_append, Nat.cast_add,
      add_assoc]

theorem deliveryCount_counts_transfers_after_flow :
    let s' : SenderLinkInner ℕ Unit := ⟨0, 1, 0, [], none⟩
    let log : List (SenderEffect ℕ Unit) := [.sendTransfer 0 7]
    run .wrap (new 0) [.send 7, .applyFlow ⟨some 0, some 1, false⟩] = some (s', log) ∧
      s'.deliveryCount = (new 0 : SenderLinkInner ℕ Unit).deliveryCount +
        ((transfers log).length : U32) :=
  have h : run .wrap (new 0 : SenderLinkInner ℕ Unit)
      [.send 7, .applyFlow ⟨some 0, some 1, false⟩] =
      some (⟨0, 1, 0, [], none⟩, [.sendTransfer 0 7]) := by decide
  ⟨h, deliveryCount_counts_transfers h⟩

end SenderLinkInner
end NtexAmqp
