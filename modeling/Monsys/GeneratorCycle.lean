/-
  The numbers that the two generators give out, one after the other: `HandlerIdGenerator` of
  `server/zgenerator.h` and `SequenceGenerator` of `monsys/util/SequenceGenerator.java`.

  1. **Calls** — the methods of `z::Generator`, in any order.  `send` and `closed` change nothing,
     and what is closed stays closed: a generator that is still open has given out the draws.
  2. **Cycles** — what a row of draws looks like, wherever a window is put on it.
-/
import Monsys.HandlerIds
import Mathlib.Data.List.Nodup
import Mathlib.Data.List.Infix

namespace Monsys

/-! ## Calls -/

namespace HandlerIdGenerator

def send (g : HandlerIdGenerator) (_v : Int) : HandlerIdGenerator := g

def close (g : HandlerIdGenerator) : HandlerIdGenerator := { g with closed := true }

inductive Call
  | send (v : Int)
  | next
  | close
  | closed
deriving DecidableEq, Repr

def call (g : HandlerIdGenerator) : Call → HandlerIdGenerator
  | .send v => g.send v
  | .next => g.next.2
  | .close => g.close
  | .closed => g

/-- What the calls of `next` give. -/
def outputs (g : HandlerIdGenerator) : List Call → List Int
  | [] => []
  | .next :: calls => g.next.1 :: outputs g.next.2 calls
  | c :: calls => outputs (g.call c) calls

theorem next_closed (g : HandlerIdGenerator) : g.next.2.closed = g.closed := by
  unfold next
  split
  · rfl
  · rfl

theorem closed_stays {g : HandlerIdGenerator} (h : g.closed = true) (calls : List Call) :
    (calls.foldl call g).closed = true := by
  induction calls generalizing g with
  | nil => exact h
  | cons c calls ih =>
    refine ih ?_
    cases c with
    | next => exact (next_closed g).trans h
    | close => rfl
    | send v => exact h
    | closed => exact h

/-- **An open generator** has given out the draws, each of them once. -/
theorem outputs_draws {min max : Int} (hlo : -2 ^ 31 ≤ min) (hle : min ≤ max)
    (hhi : max < 2 ^ 31 - 1) (n : Nat) (calls : List Call)
    (hopen : (calls.foldl call ((new min max).after n)).closed = false) :
    ∃ m, outputs ((new min max).after n) calls = (List.range' n m).map (draw min max) := by
  induction calls generalizing n with
  | nil => exact ⟨0, rfl⟩
  | cons c calls ih =>
    cases c with
    | next =>
      have hnext := next_after hlo hle hhi n
      rw [List.foldl_cons, call, hnext] at hopen
      obtain ⟨m, hm⟩ := ih (n + 1) hopen
      refine ⟨m + 1, ?_⟩
      rw [outputs, hnext, hm]
      rfl
    | close =>
      -- it would not be open in the end
      have hclosed := closed_stays (g := ((new min max).after n).close) rfl calls
      exact absurd (hclosed.symm.trans hopen) (by decide)
    | send v => exact ih n hopen
    | closed => exact ih n hopen

end HandlerIdGenerator

/-- What so many calls of `next` give. -/
def SequenceGenerator.outputs (g : SequenceGenerator) : Nat → List Int
  | 0 => []
  | n + 1 => g.next.1 :: outputs g.next.2 n

/-! ## Cycles -/

/-- Numbers that go through the range in a circle. -/
structure Cycles (min max : Int) (outs : List Int) : Prop where
  within : ∀ k ∈ outs, min ≤ k ∧ k ≤ max
  distinct : ∀ window, window <:+: outs → window.length = (max - min + 1).toNat → window.Nodup
  covering : ∀ window, window <:+: outs → window.length = (max - min + 1).toNat →
    ∀ k, min ≤ k → k ≤ max → k ∈ window
  following : ∀ k k', [k, k'] <:+: outs → k' = if k = max then min else k + 1

section

open HandlerIdGenerator

variable {min max : Int}

/-- From the top to the bottom, else one up. -/
theorem draw_succ (hle : min ≤ max) (n : Nat) :
    draw min max (n + 1) = if draw min max n = max then min else draw min max n + 1 := by
  obtain ⟨size, hsize⟩ : ∃ size : Nat, max - min + 1 = size :=
    ⟨_, (Int.toNat_of_nonneg (by omega)).symm⟩
  have hlt := Nat.mod_lt n (show 0 < size by omega)
  rw [draw, draw, hsize, Int.toNat_natCast]
  by_cases htop : n % size + 1 = size
  · -- the top is the last draw of its round
    have hround : (n + 1) % size = 0 := by
      rw [← Nat.mod_add_mod, htop, Nat.mod_self]
    rw [hround, if_pos (by omega), Int.natCast_zero, Int.add_zero]
  · rw [← Nat.mod_add_mod, Nat.mod_eq_of_lt (by omega), if_neg (by omega)]
    omega

/-- Within a round no number comes twice. -/
theorem draw_inj {i m a b : Nat} (hm : m ≤ (max - min + 1).toNat) (ha : a ∈ List.range' i m)
    (hb : b ∈ List.range' i m) (h : draw min max a = draw min max b) : a = b := by
  rw [List.mem_range'_1] at ha hb
  rcases Nat.le_total a b with hab | hab
  · obtain ⟨j, rfl⟩ := Nat.exists_eq_add_of_le hab
    have hzero := (draw_again (by omega)).mp h.symm
    omega
  · obtain ⟨j, rfl⟩ := Nat.exists_eq_add_of_le hab
    have hzero := (draw_again (by omega)).mp h
    omega

/-- A window on a row of draws is a row of draws. -/
theorem window_draws {n m : Nat} {window : List Int}
    (h : window <:+: (List.range' n m).map (draw min max)) :
    ∃ i, window = (List.range' i window.length).map (draw min max) := by
  -- the row is a `range'` under the draws, and so is each part of it
  obtain ⟨before, after, hsplit⟩ := h
  obtain ⟨front, back, hfront, hmap, -⟩ := List.map_eq_append_iff.mp hsplit.symm
  obtain ⟨start, middle, hstart, -, hmiddle⟩ := List.map_eq_append_iff.mp hmap
  obtain ⟨k, -, rfl, -⟩ := List.range'_eq_append_iff.mp hfront
  obtain ⟨j, -, -, rfl⟩ := List.range'_eq_append_iff.mp hstart
  refine ⟨n + j, ?_⟩
  rw [← hmiddle, List.length_map, List.length_range', Nat.mul_one]

/-- **Rows of draws go through the range in a circle.** -/
theorem cycles_draws (hle : min ≤ max) (n m : Nat) :
    Cycles min max ((List.range' n m).map (draw min max)) where
  within := by
    intro k hk
    obtain ⟨i, -, rfl⟩ := List.mem_map.mp hk
    exact draw_mem hle i
  distinct := by
    intro window hwindow hlen
    obtain ⟨i, hdraws⟩ := window_draws hwindow
    rw [hdraws]
    exact List.Nodup.map_on (fun a ha b hb => draw_inj hlen.le ha hb) List.nodup_range'
  covering := by
    intro window hwindow hlen k hmin hmax
    obtain ⟨i, hdraws⟩ := window_draws hwindow
    obtain ⟨j, hj, rfl⟩ := exists_draw hmin hmax i
    rw [hdraws, hlen]
    exact List.mem_map_of_mem (List.mem_range'_1.mpr ⟨by omega, by omega⟩)
  following := by
    intro k k' hwindow
    obtain ⟨i, hdraws⟩ := window_draws hwindow
    obtain ⟨rfl, hrest⟩ := List.cons.inj hdraws
    rw [(List.cons.inj hrest).1]
    exact draw_succ hle i

/-- The server's generator gives out the draws, too. -/
theorem sequence_draws (hlo : -2 ^ 31 ≤ min) (hle : min ≤ max) (hhi : max < 2 ^ 31 - 1)
    (n m : Nat) :
    ((SequenceGenerator.new min max).after n).outputs m = (List.range' n m).map (draw min max) := by
  induction m generalizing n with
  | zero => rfl
  | succ m ih =>
    have hnext : ((SequenceGenerator.new min max).after n).next.1 = draw min max n :=
      SequenceGenerator.after_next hlo hle hhi n
    rw [SequenceGenerator.outputs, hnext, ← SequenceGenerator.after_succ, ih (n + 1)]
    rfl

/-- **The generators cycle**: whatever calls are made, as long as none has closed the generator. -/
theorem generators_cycle (hlo : -2 ^ 31 ≤ min) (hle : min ≤ max) (hhi : max < 2 ^ 31 - 1) :
    (∀ calls : List HandlerIdGenerator.Call,
      (calls.foldl HandlerIdGenerator.call (.new min max)).closed = false →
        Cycles min max ((HandlerIdGenerator.new min max).outputs calls)) ∧
      ∀ m, Cycles min max ((SequenceGenerator.new min max).outputs m) := by
  refine ⟨fun calls hopen => ?_, fun m => ?_⟩
  · obtain ⟨m, hdraws⟩ := outputs_draws hlo hle hhi 0 calls hopen
    rw [show (HandlerIdGenerator.new min max).outputs calls = _ from hdraws]
    exact cycles_draws hle 0 m
  · rw [show (SequenceGenerator.new min max).outputs m = _ from sequence_draws hlo hle hhi 0 m]
    exact cycles_draws hle 0 m

end

/-- Ids from 1 to 3. -/
theorem generators_cycle_three :
    Cycles 1 3 ((HandlerIdGenerator.new 1 3).outputs [.next, .closed, .next, .next, .next]) ∧
      Cycles 1 3 ((SequenceGenerator.new 1 3).outputs 4) := by
  have hcycles := @generators_cycle 1 3 (by decide) (by decide) (by decide)
  exact ⟨hcycles.1 _ rfl, hcycles.2 4⟩

end Monsys
