/-
  `SequenceGenerator` of `monsys/util/SequenceGenerator.java`.

  `next` gives out `mLast` and moves it on; when `mLast` has passed `mMax` it starts again at
  `mMin`.  The pending value, `pending`, is what the next call gives: it runs through
  `mMin .. mMax` in a circle, so the draw number `n` (counted from 0) is `mMin + n % (mMax - mMin + 1)`
  (`after_next`).
-/
import Mathlib.Algebra.Ring.Int.Defs
import Mathlib.Algebra.Ring.Nat
import Mathlib.Logic.Function.Iterate

namespace Monsys

/-- `SequenceGenerator`. -/
structure SequenceGenerator where
  mLast : Int
  mMin : Int
  mMax : Int
deriving DecidableEq, Repr

namespace SequenceGenerator

/-- The constructor. -/
def new (min max : Int) : SequenceGenerator where
  mMin := min
  mMax := max
  mLast := min

/-- What the next call of `next` gives. -/
def pending (g : SequenceGenerator) : Int := if g.mLast > g.mMax then g.mMin else g.mLast

/-- `next`.  `mLast++` is an addition of `int`s, which wraps. -/
def next (g : SequenceGenerator) : Int × SequenceGenerator :=
  (g.pending, { g with mLast := (g.pending + 1).bmod (2 ^ 32) })

/-- The generator after `n` calls. -/
def after (g : SequenceGenerator) (n : Nat) : SequenceGenerator := (fun g => g.next.2)^[n] g

theorem after_succ (g : SequenceGenerator) (n : Nat) : g.after (n + 1) = (g.after n).next.2 :=
  Function.iterate_succ_apply' _ n g

/-- A call moves neither bound. -/
theorem after_bounds (g : SequenceGenerator) (n : Nat) :
    (g.after n).mMin = g.mMin ∧ (g.after n).mMax = g.mMax := by
  induction n with
  | zero => exact ⟨rfl, rfl⟩
  | succ n ih =>
    rw [after_succ]
    exact ih

/-- Below the top the pending value goes up by one; from the top it goes to the bottom. -/
theorem next_pending {g : SequenceGenerator} (hlo : -2 ^ 31 ≤ g.mMin) (hhi : g.mMax < 2 ^ 31 - 1)
    (h₁ : g.mMin ≤ g.pending) (h₂ : g.pending ≤ g.mMax) :
    g.next.2.pending = if g.pending = g.mMax then g.mMin else g.pending + 1 := by
  have hwrap : (g.pending + 1).bmod (2 ^ 32) = g.pending + 1 :=
    Int.bmod_eq_of_le (by omega) (by omega)
  show (if (g.pending + 1).bmod (2 ^ 32) > g.mMax then g.mMin else (g.pending + 1).bmod (2 ^ 32)) = _
  rw [hwrap]
  by_cases htop : g.pending = g.mMax
  · rw [if_pos htop, if_pos (by omega)]
  · rw [if_neg htop, if_neg (by omega)]

/-- **The draws go round in a circle.** -/
theorem after_next {min max : Int} (hlo : -2 ^ 31 ≤ min) (hle : min ≤ max) (hhi : max < 2 ^ 31 - 1)
    (n : Nat) : ((new min max).after n).next.1 = min + (n % (max - min + 1).toNat : Nat) := by
  show ((new min max).after n).pending = _
  obtain ⟨size, hsize⟩ : ∃ size : Nat, max - min + 1 = size := ⟨_, (Int.toNat_of_nonneg (by omega)).symm⟩
  rw [hsize, Int.toNat_natCast]
  have hpos : 0 < size := by omega
  induction n with
  | zero =>
    rw [Nat.zero_mod]
    show (if min > max then min else min) = _
    rw [ite_self, Int.natCast_zero, Int.add_zero]
  | succ n ih =>
    obtain ⟨hmin, hmax⟩ := after_bounds (new min max) n
    change _ = min at hmin
    change _ = max at hmax
    have hlt : n % size < size := Nat.mod_lt n hpos
    rw [after_succ, next_pending (by omega) (by omega) (by omega) (by omega), ih, hmin, hmax,
      Nat.add_mod_eq_ite]
    -- the draw `n` is the top exactly if `n + 1` starts a new round
    rcases Nat.lt_or_ge size 2 with hone | htwo
    · have : n % size = 0 := by omega
      have : 1 % size = 0 := by rw [show size = 1 by omega]
      split <;> split <;> omega
    · have : 1 % size = 1 := Nat.mod_eq_of_lt htwo
      split <;> split <;> omega

end SequenceGenerator

end Monsys
