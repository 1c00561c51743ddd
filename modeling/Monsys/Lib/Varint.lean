/-
  Varints: numbers in groups of seven bits, the lowest first, every byte but the last with its high
  bit set.

  1. **Codec** — `write` and `read`, each with the number of bytes it may use at most.
  2. **Shape** — `IsVarint`: where a varint ends is seen from its bytes alone, so `read` takes a
     varint off whatever follows (`read_append`), and takes nothing else (`eq_append_of_read`).
-/
import Mathlib.Algebra.Ring.Nat

namespace Varint

/-! ## Codec -/

/-- The varint of `n`, of at most `k` bytes. -/
def write : Nat → Nat → List UInt8
  | 0, _ => []
  | k + 1, n =>
    if n < 128 then [UInt8.ofNat n] else UInt8.ofNat (n % 128 + 128) :: write k (n / 128)

/-- A varint of at most `k` bytes: the number, and how many bytes it takes. -/
def read : Nat → List UInt8 → Option (Nat × Nat)
  | 0, _ => none
  | _ + 1, [] => none
  | k + 1, b :: bs =>
    if b.toNat < 128 then some (b.toNat, 1)
    else (read k bs).map fun r => (b.toNat - 128 + 128 * r.1, r.2 + 1)

/-- The number a varint stands for. -/
def value : List UInt8 → Nat
  | [] => 0
  | b :: bs => b.toNat % 128 + 128 * value bs

theorem value_lt (v : List UInt8) : value v < 128 ^ v.length := by
  induction v with
  | nil => decide
  | cons b v ih =>
    rw [value, List.length_cons, Nat.pow_succ]
    have hb := Nat.mod_lt b.toNat (show 0 < 128 by decide)
    omega

/-! ## Shape -/

/-- The last byte, and no other, has its high bit clear. -/
inductive IsVarint : List UInt8 → Prop
  | last {b : UInt8} (hb : b.toNat < 128) : IsVarint [b]
  | more {b : UInt8} {v : List UInt8} (hb : 128 ≤ b.toNat) (hv : IsVarint v) : IsVarint (b :: v)

theorem IsVarint.length_pos {v : List UInt8} (h : IsVarint v) : 0 < v.length := by
  cases h <;> exact Nat.succ_pos _

/-- A longer varint has a first byte with its high bit set, and is one without it. -/
theorem IsVarint.of_cons {b : UInt8} {v : List UInt8} (h : IsVarint (b :: v)) (hv : v ≠ []) :
    128 ≤ b.toNat ∧ IsVarint v := by
  cases h with
  | last hb => exact absurd rfl hv
  | more hb hv => exact ⟨hb, hv⟩

/-- What is left of a varint after some of its bytes. -/
theorem IsVarint.of_append {u s : List UInt8} (h : IsVarint (u ++ s)) (hs : s ≠ []) :
    IsVarint s ∧ ∀ b ∈ u, 128 ≤ b.toNat := by
  induction u with
  | nil => exact ⟨h, nofun⟩
  | cons b u ih =>
    obtain ⟨hb, htail⟩ := IsVarint.of_cons h (List.append_ne_nil_of_right_ne_nil u hs)
    obtain ⟨hvarint, hge⟩ := ih htail
    refine ⟨hvarint, fun c hc => ?_⟩
    rcases List.mem_cons.mp hc with rfl | hc
    · exact hb
    · exact hge c hc

/-- `read` takes a varint off whatever follows it. -/
theorem read_append {v : List UInt8} (h : IsVarint v) {k : Nat} (hk : v.length ≤ k)
    (rest : List UInt8) : read k (v ++ rest) = some (value v, v.length) := by
  induction h generalizing k with
  | last hb =>
    obtain ⟨k, rfl⟩ : ∃ j, k = j + 1 := Nat.exists_eq_add_of_le' hk
    rw [List.singleton_append, read, if_pos hb, value, value, Nat.mod_eq_of_lt hb]
    rfl
  | @more b v hb hv ih =>
    obtain ⟨k, rfl⟩ : ∃ j, k = j + 1 :=
      Nat.exists_eq_add_of_le' (Nat.le_trans (Nat.le_add_left 1 _) hk)
    have hmod : b.toNat % 128 = b.toNat - 128 := by
      have hlt : b.toNat < 256 := b.toNat_lt
      omega
    rw [List.cons_append, read, if_neg (Nat.not_lt.mpr hb), ih (Nat.le_of_succ_le_succ hk),
      Option.map_some, value, hmod]
    rfl

/-- What `read` takes is a varint. -/
theorem eq_append_of_read {k : Nat} {bs : List UInt8} {n len : Nat}
    (h : read k bs = some (n, len)) :
    ∃ v rest, bs = v ++ rest ∧ IsVarint v ∧ v.length = len := by
  induction k generalizing bs n len with
  | zero => cases h
  | succ k ih =>
    cases bs with
    | nil => cases h
    | cons b bs =>
      rw [read] at h
      split at h
      · next hb =>
        cases h
        exact ⟨[b], bs, rfl, .last hb, rfl⟩
      · next hb =>
        obtain ⟨⟨n', len'⟩, hr, heq⟩ := Option.map_eq_some_iff.mp h
        cases heq
        obtain ⟨v, rest, rfl, hv, rfl⟩ := ih hr
        exact ⟨b :: v, rest, rfl, .more (Nat.not_lt.mp hb) hv, rfl⟩

/-- Bytes with their high bits set are no varint. -/
theorem read_eq_none {bs : List UInt8} (h : ∀ b ∈ bs, 128 ≤ b.toNat) (k : Nat) :
    read k bs = none := by
  induction bs generalizing k with
  | nil => cases k <;> rfl
  | cons b bs ih =>
    cases k with
    | zero => rfl
    | succ k =>
      rw [read, if_neg (Nat.not_lt.mpr (h b List.mem_cons_self)),
        ih (fun c hc => h c (List.mem_cons_of_mem b hc)), Option.map_none]

/-- What `write` gives is a varint, if the number fits. -/
theorem write_isVarint {k n : Nat} (h : n < 128 ^ k) (hk : k ≠ 0) : IsVarint (write k n) := by
  induction k generalizing n with
  | zero => exact absurd rfl hk
  | succ k ih =>
    rw [write]
    split
    · next hn =>
      exact .last (by rw [UInt8.toNat_ofNat', Nat.mod_eq_of_lt (by omega)]; exact hn)
    · next hn =>
      rw [Nat.pow_succ] at h
      have hk' : k ≠ 0 := by
        rintro rfl
        omega
      refine .more ?_ (ih (Nat.div_lt_of_lt_mul (by omega)) hk')
      have hlow := Nat.mod_lt n (show 0 < 128 by decide)
      rw [UInt8.toNat_ofNat', Nat.mod_eq_of_lt (by omega)]
      omega

/-- A number of two groups takes at most two bytes. -/
theorem write_length_le {k n : Nat} (h : n < 128 * 128) : (write k n).length ≤ 2 := by
  match k with
  | 0 => exact Nat.zero_le 2
  | 1 =>
    rw [write]
    split
    · exact Nat.le_succ 1
    · exact Nat.le_succ 1
  | k + 2 =>
    rw [write]
    split
    · exact Nat.le_succ 1
    · rw [write, if_pos (Nat.div_lt_of_lt_mul h)]
      exact Nat.le_refl 2

end Varint
