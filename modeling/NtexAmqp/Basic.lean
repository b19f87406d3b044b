import Mathlib

namespace NtexAmqp

/-- Rust's `u32`. -/
abbrev U32 := Fin (2 ^ 32)

/-- What `u32` `+` and `-` do on overflow: a debug build panics, a release build wraps. -/
inductive Overflow
  | panic
  | wrap
  deriving DecidableEq, Repr

namespace Overflow

/-- `a + b` on `u32`: the wrapped sum, or `none` where a debug build panics. -/
def add : Overflow → U32 → U32 → Option U32
  | panic, a, b => if a.val + b.val < 2 ^ 32 then some (a + b) else none
  | wrap, a, b => some (a + b)

/-- `a - b` on `u32`: the wrapped difference, or `none` where a debug build panics. -/
def sub : Overflow → U32 → U32 → Option U32
  | panic, a, b => if b ≤ a then some (a - b) else none
  | wrap, a, b => some (a - b)

theorem eq_of_add {o : Overflow} {a b c : U32} (h : o.add a b = some c) : c = a + b := by
  cases o <;> simp only [add, Option.ite_none_right_eq_some, Option.some.injEq] at h <;>
    [exact h.2.symm; exact h.symm]

theorem eq_of_sub {o : Overflow} {a b c : U32} (h : o.sub a b = some c) : c = a - b := by
  cases o <;> simp only [sub, Option.ite_none_right_eq_some, Option.some.injEq] at h <;>
    [exact h.2.symm; exact h.symm]

theorem add_of_lt (o : Overflow) {a b : U32} (h : a.val + b.val < 2 ^ 32) :
    o.add a b = some (a + b) := by
  cases o <;> simp only [add, h, if_true]

theorem sub_of_le (o : Overflow) {a b : U32} (h : b ≤ a) : o.sub a b = some (a - b) := by
  cases o <;> simp only [sub, h, if_true]

@[simp] theorem wrap_add (a b : U32) : wrap.add a b = some (a + b) := rfl

@[simp] theorem wrap_sub (a b : U32) : wrap.sub a b = some (a - b) := rfl

theorem panic_add_eq_some {a b c : U32} :
    panic.add a b = some c ↔ a.val + b.val < 2 ^ 32 ∧ a + b = c := by
  simp only [add, Option.ite_none_right_eq_some, Option.some.injEq]

theorem panic_sub_eq_some {a b c : U32} : panic.sub a b = some c ↔ b ≤ a ∧ a - b = c := by
  simp only [sub, Option.ite_none_right_eq_some, Option.some.injEq]

@[simp] theorem add_zero_eq (o : Overflow) (a : U32) : o.add a 0 = some a := by
  simpa using o.add_of_lt (a := a) (b := 0) (by simp)

@[simp] theorem zero_add_eq (o : Overflow) (a : U32) : o.add 0 a = some a := by
  simpa using o.add_of_lt (a := 0) (b := a) (by simp)

@[simp] theorem sub_self_eq (o : Overflow) (a : U32) : o.sub a a = some 0 := by
  simpa using o.sub_of_le (le_refl a)

end Overflow

theorem val_add_of_lt {a b : U32} (h : a.val + b.val < 2 ^ 32) : (a + b).val = a.val + b.val := by
  rw [Fin.val_add, Nat.mod_eq_of_lt h]

theorem one_le_of_ne_zero {c : U32} (h : c ≠ 0) : 1 ≤ c := by
  rw [Fin.le_def, show (1 : U32).val = 1 from rfl]
  exact Fin.pos_iff_ne_zero.mpr h

theorem val_sub_one {c : U32} (h : c ≠ 0) : (c - 1).val = c.val - 1 := by
  rw [Fin.sub_val_of_le (one_le_of_ne_zero h)]
  rfl

theorem add_one_lt {a b : U32} (hb : b ≠ 0) (h : a.val + b.val < 2 ^ 32) :
    a.val + (1 : U32).val < 2 ^ 32 := by
  have := Fin.pos_iff_ne_zero.mpr hb
  rw [show (1 : U32).val = 1 from rfl]
  omega

theorem val_add_one {a b : U32} (hb : b ≠ 0) (h : a.val + b.val < 2 ^ 32) :
    (a + 1).val = a.val + 1 :=
  val_add_of_lt (add_one_lt hb h)

/-- The fields of an AMQP `Flow` performative that a sender link reads. -/
structure Flow where
  deliveryCount : Option U32
  linkCredit : Option U32
  echo : Bool
  deriving DecidableEq, Repr

def Flow.base (f : Flow) : ℕ := (f.deliveryCount.getD 0).val

/-- The delivery limit a Flow announces, as `apply_flow` computes it, without wrapping. -/
def Flow.limit (f : Flow) : ℕ := f.base + (f.linkCredit.getD 0).val

structure Attach where
  initialDeliveryCount : Option U32
  deriving DecidableEq, Repr

/-- `LinkError`, the link error conditions of AMQP 1.0. -/
inductive LinkError
  | detachForced
  | transferLimitExceeded
  | messageSizeExceeded
  | redirect
  | stolen
  deriving DecidableEq, Repr

/-- `ErrorCondition`: a link error, or any other condition by its symbolic name. -/
inductive ErrorCondition
  | linkError (e : LinkError)
  | other (name : String)
  deriving DecidableEq, Repr

/-- `protocol::Error`, without the `info` map that no modelled function reads. -/
structure Error where
  condition : ErrorCondition
  description : Option String
  deriving DecidableEq, Repr

/-- The steps of a run in order, with all they emitted; a `none` step (a panic) ends it. -/
def runSteps {σ ι β : Type} (step : σ → ι → Option (σ × List β)) :
    σ → List ι → Option (σ × List β)
  | s, [] => some (s, [])
  | s, i :: is => do
    let r ← step s i
    let r' ← runSteps step r.1 is
    pure (r'.1, r.2 ++ r'.2)

theorem runSteps_cons {σ ι β : Type} {step : σ → ι → Option (σ × List β)} {s s' : σ} {i : ι}
    {is : List ι} {log : List β} (h : runSteps step s (i :: is) = some (s', log)) :
    ∃ s₁ out log', step s i = some (s₁, out) ∧ runSteps step s₁ is = some (s', log') ∧
      log = out ++ log' := by
  simp only [runSteps, Option.bind_eq_bind, Option.bind_eq_some, Option.pure_def,
    Option.some.injEq] at h
  obtain ⟨⟨s₁, out⟩, hs, ⟨s₂, log'⟩, hr, h⟩ := h
  simp only [Prod.mk.injEq] at h
  obtain ⟨rfl, rfl⟩ := h
  exact ⟨s₁, out, log', hs, hr, rfl⟩

end NtexAmqp
