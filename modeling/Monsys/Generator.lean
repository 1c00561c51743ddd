/-
  `HandlerIdGenerator` of `server/zgenerator.h`.

  The generator of the gateway counts as the one of the push server does (`toSequence_next`): as
  long as it is not closed, it runs through `min .. max` in a circle (`after_next`).
-/
import Monsys.SequenceGenerator

namespace Monsys

structure HandlerIdGenerator where
  min : Int
  max : Int
  closed : Bool
  last : Int
deriving DecidableEq, Repr

namespace HandlerIdGenerator

/-- The constructor. -/
def new (min max : Int) : HandlerIdGenerator := ⟨min, max, false, min⟩

def next (g : HandlerIdGenerator) : Int × HandlerIdGenerator :=
  if g.closed then (g.last, g)
  else
    let last := if g.last > g.max then g.min else g.last
    (last, { g with last := last + 1 })

/-- The generator after `n` calls. -/
def after (g : HandlerIdGenerator) (n : Nat) : HandlerIdGenerator := (fun g => g.next.2)^[n] g

theorem after_succ (g : HandlerIdGenerator) (n : Nat) : g.after (n + 1) = (g.after n).next.2 :=
  Function.iterate_succ_apply' _ n g

/-- The same generator, as the push server has it. -/
def toSequence (g : HandlerIdGenerator) : SequenceGenerator := ⟨g.last, g.min, g.max⟩

/-- An open generator gives what the push server's gives, and moves on as it does. -/
theorem toSequence_next {g : HandlerIdGenerator} (hopen : g.closed = false)
    (hlo : -2 ^ 31 ≤ g.toSequence.pending) (hhi : g.toSequence.pending < 2 ^ 31 - 1) :
    g.next.1 = g.toSequence.next.1 ∧ g.next.2.toSequence = g.toSequence.next.2 ∧
      g.next.2.closed = false := by
  have hwrap : (g.toSequence.pending + 1).bmod (2 ^ 32) = g.toSequence.pending + 1 :=
    Int.bmod_eq_of_le (by omega) (by omega)
  rw [next, if_neg (by rw [hopen]; exact Bool.false_ne_true)]
  refine ⟨rfl, ?_, hopen⟩
  rw [SequenceGenerator.next, hwrap]
  rfl

/-- **The draws go round in a circle.** -/
theorem after_next {min max : Int} (hlo : -2 ^ 31 ≤ min) (hle : min ≤ max) (hhi : max < 2 ^ 31 - 1)
    (n : Nat) : ((new min max).after n).next.1 = min + (n % (max - min + 1).toNat : Nat) := by
  have hdraw := SequenceGenerator.after_next hlo hle hhi
  have hrange : ∀ n, min ≤ ((SequenceGenerator.new min max).after n).pending ∧
      ((SequenceGenerator.new min max).after n).pending ≤ max := by
    intro n
    change ∀ n, ((SequenceGenerator.new min max).after n).pending = _ at hdraw
    have hlt := Nat.mod_lt n (show 0 < (max - min + 1).toNat by omega)
    rw [hdraw n]
    omega
  -- the two generators stay in step
  have hstep : ∀ n, ((new min max).after n).toSequence = (SequenceGenerator.new min max).after n ∧
      ((new min max).after n).closed = false := by
    intro n
    induction n with
    | zero => exact ⟨rfl, rfl⟩
    | succ n ih =>
      have hpending := hrange n
      rw [← ih.1] at hpending
      obtain ⟨-, hnext, hopen⟩ := toSequence_next ih.2 (by omega) (by omega)
      rw [after_succ, SequenceGenerator.after_succ, ← ih.1]
      exact ⟨hnext, hopen⟩
  have hpending := hrange n
  rw [← (hstep n).1] at hpending
  rw [(toSequence_next (hstep n).2 (by omega) (by omega)).1, (hstep n).1]
  exact hdraw n

end HandlerIdGenerator

end Monsys
