import NtexAmqp.Basic

namespace NtexAmqp

inductive HeartbeatAction
  | none
  | heartbeat
  | close
  deriving DecidableEq, Repr

/-- `Heartbeat`, with `Instant`s and `Duration`s counted in ticks of one clock, and the
`Delay` timer given by its deadline. -/
structure Heartbeat where
  expireLocal : ℕ
  expireRemote : ℕ
  «local» : ℕ
  remote : Option ℕ
  delay : ℕ
  deriving DecidableEq, Repr

namespace Heartbeat

/-- `Heartbeat::new`, at time `now`. -/
def new («local» : ℕ) (remote : Option ℕ) (now : ℕ) : Heartbeat :=
  let delay := match remote with
    | some remote => now + min «local» remote
    | none => now + «local»
  { expireLocal := now, expireRemote := now, «local», remote, delay }

def updateLocal (s : Heartbeat) (now : ℕ) (update : Bool) : Heartbeat :=
  if update then { s with expireLocal := now } else s

def updateRemote (s : Heartbeat) (now : ℕ) (update : Bool) : Heartbeat :=
  if update && s.remote.isSome then { s with expireRemote := now } else s

def nextExpire (s : Heartbeat) : ℕ :=
  match s.remote with
  | some remote => min (s.expireLocal + s.local) (s.expireRemote + remote)
  | none => s.expireLocal + s.local

/-- A fired timer's report short of closing: a heartbeat once we have been silent for `remote`. -/
def remoteAction (s : Heartbeat) (dl : ℕ) : HeartbeatAction :=
  match s.remote with
  | some remote => if dl ≥ s.expireRemote + remote then .heartbeat else .none
  | none => .none

/-- `Heartbeat::poll` at time `now`; the delay is ready exactly when `now` has reached its
deadline, and after firing it is reset to `next_expire()`. -/
def poll (s : Heartbeat) (now : ℕ) : Heartbeat × HeartbeatAction :=
  if s.delay ≤ now then
    let dl := s.delay
    if dl ≥ s.expireLocal + s.local then (s, .close)
    else ({ s with delay := s.nextExpire }, s.remoteAction dl)
  else (s, .none)

theorem poll_notReady {s : Heartbeat} {now : ℕ} (h : now < s.delay) : s.poll now = (s, .none) := by
  simp [poll, Nat.not_le.mpr h]

theorem poll_close {s : Heartbeat} {now : ℕ} (h : s.delay ≤ now)
    (hl : s.expireLocal + s.local ≤ s.delay) : s.poll now = (s, .close) := by
  simp [poll, h, hl]

theorem poll_fired {s : Heartbeat} {now : ℕ} (h : s.delay ≤ now)
    (hl : s.delay < s.expireLocal + s.local) :
    s.poll now = ({ s with delay := s.nextExpire }, s.remoteAction s.delay) := by
  simp [poll, h, Nat.not_le.mpr hl]

theorem remoteAction_ne_close (s : Heartbeat) (dl : ℕ) : s.remoteAction dl ≠ .close := by
  unfold remoteAction; split <;> (try split) <;> nofun

theorem remoteAction_heartbeat {s : Heartbeat} {dl : ℕ} (h : s.remoteAction dl = .heartbeat) :
    ∃ r, s.remote = some r ∧ s.expireRemote + r ≤ dl := by
  unfold remoteAction at h
  split at h
  · split_ifs at h with hr
    exact ⟨_, ‹_›, hr⟩
  · cases h

theorem poll_close_due {s : Heartbeat} {now : ℕ} (h : (s.poll now).2 = .close) :
    s.expireLocal + s.local ≤ now := by
  by_cases hd : s.delay ≤ now
  · by_cases hl : s.expireLocal + s.local ≤ s.delay
    · omega
    · rw [poll_fired hd (by omega)] at h
      exact absurd h (remoteAction_ne_close _ _)
  · rw [poll_notReady (by omega)] at h
    cases h

theorem poll_heartbeat_due {s : Heartbeat} {now : ℕ} (h : (s.poll now).2 = .heartbeat) :
    ∃ r, s.remote = some r ∧ s.expireRemote + r ≤ now := by
  by_cases hd : s.delay ≤ now
  · by_cases hl : s.expireLocal + s.local ≤ s.delay
    · rw [poll_close hd hl] at h
      cases h
    · rw [poll_fired hd (by omega)] at h
      obtain ⟨r, hr, hle⟩ := remoteAction_heartbeat h
      exact ⟨r, hr, by omega⟩
  · rw [poll_notReady (by omega)] at h
    cases h

theorem nextExpire_mono {s : Heartbeat} {el er : ℕ} (hl : s.expireLocal ≤ el)
    (hr : s.expireRemote ≤ er) :
    s.nextExpire ≤ ({ s with expireLocal := el, expireRemote := er } : Heartbeat).nextExpire := by
  cases h : s.remote <;> simp only [nextExpire, h] <;> omega

end Heartbeat

/-- A heartbeat together with the one clock that `time.now()` and the delay both read. -/
structure Clocked where
  hb : Heartbeat
  now : ℕ
  deriving DecidableEq, Repr

inductive HeartbeatOp
  | advance (ticks : ℕ)
  | updateLocal (update : Bool)
  | updateRemote (update : Bool)
  | poll
  deriving DecidableEq, Repr

namespace Clocked

/-- One call, or the clock moving on; `poll`'s action is dropped here. -/
def step (c : Clocked) : HeartbeatOp → Clocked
  | .advance ticks => { c with now := c.now + ticks }
  | .updateLocal update => { c with hb := c.hb.updateLocal c.now update }
  | .updateRemote update => { c with hb := c.hb.updateRemote c.now update }
  | .poll => { c with hb := (c.hb.poll c.now).1 }

/-- The states reachable from `Heartbeat::new`. -/
inductive Reachable : Clocked → Prop
  | new («local» : ℕ) (remote : Option ℕ) (now : ℕ) :
      Reachable ⟨Heartbeat.new «local» remote now, now⟩
  | step {c : Clocked} (op : HeartbeatOp) : Reachable c → Reachable (c.step op)

/-- The timer is armed no later than the earliest due action, and neither expiry lies in
the clock's future. -/
structure Armed (c : Clocked) : Prop where
  delay_le : c.hb.delay ≤ c.hb.nextExpire
  local_le : c.hb.expireLocal ≤ c.now
  remote_le : c.hb.expireRemote ≤ c.now

theorem armed_new («local» : ℕ) (remote : Option ℕ) (now : ℕ) :
    Armed ⟨Heartbeat.new «local» remote now, now⟩ := by
  refine ⟨?_, le_rfl, le_rfl⟩
  cases remote <;> simp [Heartbeat.new, Heartbeat.nextExpire]

theorem armed_step {c : Clocked} (h : Armed c) (op : HeartbeatOp) : Armed (c.step op) := by
  obtain ⟨hd, hl, hr⟩ := h
  cases op with
  | advance ticks => exact ⟨hd, by simp only [step]; omega, by simp only [step]; omega⟩
  | updateLocal update =>
    cases update
    · exact ⟨hd, hl, hr⟩
    · exact ⟨hd.trans (Heartbeat.nextExpire_mono hl le_rfl), le_rfl, hr⟩
  | updateRemote update =>
    cases update
    · exact ⟨hd, hl, hr⟩
    · simp only [step, Heartbeat.updateRemote, Bool.true_and]
      split
      · exact ⟨hd.trans (Heartbeat.nextExpire_mono le_rfl hr), hl, le_rfl⟩
      · exact ⟨hd, hl, hr⟩
  | poll =>
    by_cases hn : c.hb.delay ≤ c.now
    · by_cases hcl : c.hb.expireLocal + c.hb.local ≤ c.hb.delay
      · simp only [step, Heartbeat.poll_close hn hcl]
        exact ⟨hd, hl, hr⟩
      · simp only [step, Heartbeat.poll_fired hn (by omega)]
        exact ⟨le_rfl, hl, hr⟩
    · simp only [step, Heartbeat.poll_notReady (by omega : c.now < c.hb.delay)]
      exact ⟨hd, hl, hr⟩

/-- Over every schedule of inbound frames, outbound frames, polls and clock steps, no
`Close` or heartbeat is early, and the timer is never armed past the earliest one due. -/
theorem heartbeat_never_late_or_early {c : Clocked} (h : Reachable c) :
    c.hb.delay ≤ c.hb.nextExpire ∧
    ((c.hb.poll c.now).2 = .close → c.hb.expireLocal + c.hb.local ≤ c.now) ∧
    ((c.hb.poll c.now).2 = .heartbeat →
      ∃ r, c.hb.remote = some r ∧ c.hb.expireRemote + r ≤ c.now) := by
  have ha : Armed c := by
    induction h with
    | new «local» remote now => exact armed_new «local» remote now
    | step op _ ih => exact armed_step ih op
  exact ⟨ha.delay_le, Heartbeat.poll_close_due, Heartbeat.poll_heartbeat_due⟩

theorem heartbeat_never_late_or_early_after_silence :
    let c : Clocked := ⟨Heartbeat.new 10 (some 4) 0, 4⟩
    Reachable c ∧ (c.hb.poll c.now).2 = .heartbeat ∧ c.hb.delay ≤ c.hb.nextExpire ∧
      ((c.hb.poll c.now).2 = .close → c.hb.expireLocal + c.hb.local ≤ c.now) ∧
      ((c.hb.poll c.now).2 = .heartbeat →
        ∃ r, c.hb.remote = some r ∧ c.hb.expireRemote + r ≤ c.now) :=
  have h : Reachable ⟨Heartbeat.new 10 (some 4) 0, 4⟩ :=
    (Reachable.new 10 (some 4) 0).step (.advance 4)
  ⟨h, rfl, heartbeat_never_late_or_early h⟩

/-- A poll made after the deadline decides on the deadline, not on the clock: a `Close` or a
heartbeat already due waits for the next poll. -/
theorem late_poll_decides_on_deadline :
    let c : Clocked := ⟨⟨5, 0, 10, none, 10⟩, 20⟩
    let c' : Clocked := ⟨⟨0, 2, 10, some 4, 4⟩, 7⟩
    Reachable c ∧ c.hb.expireLocal + c.hb.local ≤ c.now ∧ (c.hb.poll c.now).2 = .none ∧
      ((c.step .poll).hb.poll c.now).2 = .close ∧
    Reachable c' ∧ c'.now < c'.hb.expireLocal + c'.hb.local ∧ c'.hb.remote = some 4 ∧
      c'.hb.expireRemote + 4 ≤ c'.now ∧ (c'.hb.poll c'.now).2 = .none ∧
      ((c'.step .poll).hb.poll c'.now).2 = .heartbeat :=
  ⟨(((Reachable.new 10 none 0).step (.advance 5)).step (.updateLocal true)).step (.advance 15),
    by decide, rfl, rfl,
    (((Reachable.new 10 (some 4) 0).step (.advance 2)).step (.updateRemote true)).step (.advance 5),
    by decide, rfl, by decide, rfl, rfl⟩

end Clocked

end NtexAmqp
