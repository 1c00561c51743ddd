/-
  JSON values, as a C program handles them through a library.

  1. **Values** — objects are finite maps from keys, arrays are lists, integers have 64 bits.  An
     accessor that is given something else than it is for has no result; `integerValue` then is 0.
  2. **Loops with a 32-bit counter** — `CountUp.loop`, `for (uint32_t i = 0; i < bound; ++i)`.  The
     counter starts again from 0 behind `2 ^ 32 - 1`, so with a larger bound the loop never ends
     (`loop_over`); with a smaller one it collects what its rounds yield (`loop_collects`,
     `loop_reads`).  `Settles` says what a computation with fuel comes to, if the fuel suffices.
-/
import Mathlib.Algebra.Ring.Nat
import Mathlib.Data.List.Basic

/-- A JSON value; `other` is a real, `true`, `false` or `null`. -/
inductive Json
  | object (fields : List (String × Json))
  | array (elems : List Json)
  | string (value : String)
  | integer (value : Int64)
  | other

namespace Json

/-! ## Values -/

/-- `json_object()`. -/
def empty : Json := object []

/-- `json_object_set_new`: the latest value of a key counts. -/
def set : Json → String → Json → Json
  | object fields, key, value => object ((key, value) :: fields)
  | j, _, _ => j

/-- `json_object_get`. -/
def get : Json → String → Option Json
  | object fields, key => fields.lookup key
  | _, _ => none

/-- `json_array_size`. -/
def size : Json → Nat
  | array elems => elems.length
  | _ => 0

/-- `json_array_get`. -/
def at? : Json → Nat → Option Json
  | array elems, i => elems[i]?
  | _, _ => none

/-- `json_is_string` and `json_string_value`. -/
def string? : Json → Option String
  | string value => some value
  | _ => none

/-- `json_is_integer` and `json_integer_value`. -/
def integer? : Json → Option Int64
  | integer value => some value
  | _ => none

/-- `json_is_array`. -/
def array? : Json → Option Json
  | array elems => some (array elems)
  | _ => none

/-- `json_integer_value`, of what may be `NULL` or no integer. -/
def integerValue (j : Option Json) : Int64 := (j.bind integer?).getD 0

/-- The string under a key. -/
def getString (j : Json) (key : String) : Option String := (j.get key).bind string?

/-- The integer under a key. -/
def getInteger (j : Json) (key : String) : Option Int64 := (j.get key).bind integer?

/-- The array under a key. -/
def getArray (j : Json) (key : String) : Option Json := (j.get key).bind array?

end Json

/-! ## Loops with a 32-bit counter -/

namespace CountUp

variable {σ γ : Type}

/-- `for (uint32_t i = 0; i < bound; ++i)`, entered at `i`, for as many rounds as `fuel` allows.  A
    round that yields nothing returns from the function. -/
def loop (bound : Nat) (body : Nat → σ → Option σ) : Nat → UInt32 → σ → Option (Option σ)
  | 0, _, _ => none
  | fuel + 1, i, s =>
    if i.toNat < bound then
      match body i.toNat s with
      | none => some none
      | some s' => loop bound body fuel (i + 1) s'
    else some (some s)

/-- A bound that the counter never reaches. -/
theorem loop_over {bound : Nat} {body : Nat → σ → Option σ} (hbound : 2 ^ 32 ≤ bound)
    (hbody : ∀ i s, i < 2 ^ 32 → ∃ s', body i s = some s') :
    ∀ (fuel : Nat) (i : UInt32) (s : σ), loop bound body fuel i s = none := by
  intro fuel
  induction fuel with
  | zero => intro i s; rfl
  | succ fuel ih =>
    intro i s
    have hi : i.toNat < bound := Nat.lt_of_lt_of_le i.toNat_lt hbound
    obtain ⟨s', hs'⟩ := hbody i.toNat s i.toNat_lt
    rw [loop, if_pos hi, hs']
    exact ih (i + 1) s'

/-- From `i` on, a loop that collects: what is behind `i`, once the fuel suffices. -/
theorem loop_collects_from {body : Nat → List γ → Option (List γ)} {ys : List γ}
    (hlt : ys.length < 2 ^ 32)
    (hbody : ∀ i acc (h : i < ys.length), body i acc = some (acc ++ [ys[i]])) :
    ∀ (fuel n : Nat) (acc : List γ), n ≤ ys.length →
      loop ys.length body fuel (UInt32.ofNat n) acc =
        if ys.length - n < fuel then some (some (acc ++ ys.drop n)) else none := by
  intro fuel
  induction fuel with
  | zero => intro n acc _; rfl
  | succ fuel ih =>
    intro n acc hn
    have hto : (UInt32.ofNat n).toNat = n := by
      rw [UInt32.toNat_ofNat', Nat.mod_eq_of_lt (by omega)]
    rw [loop, hto]
    by_cases hend : n < ys.length
    · have hnext : UInt32.ofNat n + 1 = UInt32.ofNat (n + 1) := (UInt32.ofNat_add n 1).symm
      rw [if_pos hend, hbody n acc hend]
      show loop ys.length body fuel (UInt32.ofNat n + 1) (acc ++ [ys[n]]) = _
      rw [hnext, ih (n + 1) _ hend, List.append_assoc, List.singleton_append,
        ← List.drop_eq_getElem_cons hend]
      by_cases hfuel : ys.length - n < fuel + 1
      · rw [if_pos hfuel, if_pos (by omega)]
      · rw [if_neg hfuel, if_neg (by omega)]
    · -- the counter stands at the end, and nothing is left
      obtain rfl : n = ys.length := by omega
      rw [if_neg hend, if_pos (by omega), List.drop_length, List.append_nil]

/-- With enough fuel the computation yields `a`, and with any fuel nothing else. -/
structure Settles {α : Type} (f : Nat → Option α) (a : α) : Prop where
  enough : ∃ n, ∀ fuel, n < fuel → f fuel = some a
  only : ∀ fuel r, f fuel = some r → r = a

theorem Settles.const {α : Type} (a : α) : Settles (fun _ => some a) a :=
  ⟨⟨0, fun _ _ => rfl⟩, fun _ _ h => (Option.some.inj h).symm⟩

theorem Settles.map {α β : Type} {f : Nat → Option α} {a : α} (h : Settles f a) (g : α → β) :
    Settles (fun fuel => (f fuel).map g) (g a) := by
  obtain ⟨n, hn⟩ := h.enough
  refine ⟨⟨n, fun fuel hfuel => by rw [hn fuel hfuel]; rfl⟩, fun fuel r hr => ?_⟩
  obtain ⟨r', hr', rfl⟩ := Option.map_eq_some_iff.mp hr
  rw [h.only fuel r' hr']

theorem Settles.bind {α β : Type} {f : Nat → Option α} {a : α} (h : Settles f a)
    {g : α → Option β} {b : β} (hg : g a = some b) : Settles (fun fuel => f fuel >>= g) b := by
  obtain ⟨n, hn⟩ := h.enough
  refine ⟨⟨n, fun fuel hfuel => ?_⟩, fun fuel r hr => ?_⟩
  · show f fuel >>= g = some b
    rw [hn fuel hfuel]
    exact hg
  · obtain ⟨r', hr', hb⟩ := Option.bind_eq_some_iff.mp hr
    rw [h.only fuel r' hr', hg] at hb
    exact (Option.some.inj hb).symm

/-- Two computations that settle, run with the same fuel. -/
theorem Settles.both {α β : Type} {f : Nat → Option α} {g : Nat → Option β} {a : α} {b : β}
    (hf : Settles f a) (hg : Settles g b) : ∃ fuel, f fuel = some a ∧ g fuel = some b := by
  obtain ⟨n, hn⟩ := hf.enough
  obtain ⟨k, hk⟩ := hg.enough
  exact ⟨n + k + 1, hn _ (by omega), hk _ (by omega)⟩

/-- A loop that collects one value a round comes to all of them. -/
theorem loop_collects {body : Nat → List γ → Option (List γ)} {ys : List γ}
    (hlt : ys.length < 2 ^ 32)
    (hbody : ∀ i acc (h : i < ys.length), body i acc = some (acc ++ [ys[i]])) :
    Settles (fun fuel => loop ys.length body fuel 0 []) (some ys) := by
  have hloop : ∀ fuel, loop ys.length body fuel 0 [] =
      if ys.length < fuel then some (some ys) else none := fun fuel =>
    loop_collects_from hlt hbody fuel 0 [] (Nat.zero_le _)
  refine ⟨⟨ys.length, fun fuel hfuel => ?_⟩, fun fuel r hr => ?_⟩
  · show loop ys.length body fuel 0 [] = _
    rw [hloop, if_pos hfuel]
  · replace hr : loop ys.length body fuel 0 [] = some r := hr
    rw [hloop] at hr
    split at hr
    · exact (Option.some.inj hr).symm
    · cases hr

/-! ### Rounds that may return -/

/-- What `f` yields, `k` times from `n` on; nothing where it once yields nothing. -/
def readFrom (f : Nat → Option γ) : Nat → Nat → Option (List γ)
  | _, 0 => some []
  | n, k + 1 => do
    let y ← f n
    let ys ← readFrom f (n + 1) k
    return y :: ys

theorem readFrom_map {δ : Type} (f : Nat → Option γ) (g : γ → δ) (n k : Nat) :
    readFrom (fun i => (f i).map g) n k = (readFrom f n k).map (List.map g) := by
  induction k generalizing n with
  | zero => rfl
  | succ k ih =>
    rw [readFrom, readFrom, ih]
    cases f n with
    | none => rfl
    | some y => cases readFrom f (n + 1) k <;> rfl

theorem readFrom_length {f : Nat → Option γ} {n k : Nat} {ys : List γ}
    (h : readFrom f n k = some ys) : ys.length = k := by
  induction k generalizing n ys with
  | zero =>
    obtain rfl := Option.some.inj h
    rfl
  | succ k ih =>
    rw [readFrom] at h
    obtain ⟨y, -, h⟩ := Option.bind_eq_some_iff.mp h
    obtain ⟨zs, hzs, h⟩ := Option.bind_eq_some_iff.mp h
    obtain rfl := Option.some.inj h
    rw [List.length_cons, ih hzs]

/-- Where all are read, each is. -/
theorem readFrom_some {f : Nat → Option γ} {n k : Nat} {ys : List γ}
    (h : readFrom f n k = some ys) {i : Nat} (hlo : n ≤ i) (hhi : i < n + k) :
    ∃ y, f i = some y := by
  induction k generalizing n ys with
  | zero => omega
  | succ k ih =>
    rw [readFrom] at h
    obtain ⟨y, hy, h⟩ := Option.bind_eq_some_iff.mp h
    obtain ⟨zs, hzs, -⟩ := Option.bind_eq_some_iff.mp h
    rcases Nat.eq_or_lt_of_le hlo with rfl | hlt
    · exact ⟨y, hy⟩
    · exact ih hzs hlt (by omega)

/-- A round, and then the rest. -/
theorem Settles.round {bound : Nat} {body : Nat → σ → Option σ} {i : UInt32} {s s' : σ}
    {r : Option σ} (hi : i.toNat < bound) (hs : body i.toNat s = some s')
    (h : Settles (fun fuel => loop bound body fuel (i + 1) s') r) :
    Settles (fun fuel => loop bound body fuel i s) r := by
  have hstep : ∀ fuel, loop bound body (fuel + 1) i s = loop bound body fuel (i + 1) s' := by
    intro fuel
    rw [loop, if_pos hi, hs]
  obtain ⟨n, hn⟩ := h.enough
  constructor
  · refine ⟨n + 1, fun fuel hfuel => ?_⟩
    obtain ⟨k, rfl⟩ := Nat.exists_eq_add_of_lt hfuel
    exact (hstep (n + 1 + k)).trans (hn _ (by omega))
  · intro fuel r' hr'
    cases fuel with
    | zero => cases hr'
    | succ fuel => exact h.only fuel r' ((hstep fuel).symm.trans hr')

/-- What is known of a loop as soon as it is entered. -/
theorem Settles.now {bound : Nat} {body : Nat → σ → Option σ} {i : UInt32} {s : σ} {r : Option σ}
    (h : ∀ fuel, loop bound body (fuel + 1) i s = some r) :
    Settles (fun fuel => loop bound body fuel i s) r := by
  constructor
  · refine ⟨0, fun fuel hfuel => ?_⟩
    obtain ⟨k, rfl⟩ := Nat.exists_eq_add_of_lt hfuel
    exact h _
  · intro fuel r' hr'
    cases fuel with
    | zero => cases hr'
    | succ fuel => exact (Option.some.inj ((h fuel).symm.trans hr')).symm

/-- From `n` on, a loop whose rounds read: what they read, unless one of them returns. -/
theorem loop_reads_from {f : Nat → Option γ} {bound : Nat} (k n : Nat) (acc : List γ)
    (hn : n + k ≤ bound) (hlt : n + k ≤ 2 ^ 32)
    (hend : readFrom f n k = none ∨ n + k = bound ∧ bound < 2 ^ 32) :
    Settles (fun fuel => loop bound (fun i acc => (f i).map fun y => acc ++ [y]) fuel
      (UInt32.ofNat n) acc) ((readFrom f n k).map fun ys => acc ++ ys) := by
  induction k generalizing n acc with
  | zero =>
    obtain ⟨rfl, hsmall⟩ : n = bound ∧ bound < 2 ^ 32 := by
      rcases hend with h | h
      · cases h
      · exact h
    have hto : (UInt32.ofNat n).toNat = n := by
      rw [UInt32.toNat_ofNat', Nat.mod_eq_of_lt hsmall]
    refine Settles.now fun fuel => ?_
    rw [loop, hto, if_neg (Nat.lt_irrefl n), readFrom, Option.map_some, List.append_nil]
  | succ k ih =>
    have hto : (UInt32.ofNat n).toNat = n := by
      rw [UInt32.toNat_ofNat', Nat.mod_eq_of_lt (by omega)]
    have hi : (UInt32.ofNat n).toNat < bound := by omega
    have hread : readFrom f n (k + 1) =
        (f n).bind fun y => (readFrom f (n + 1) k).bind fun ys => some (y :: ys) := rfl
    cases hf : f n with
    | none =>
      rw [hread, hf]
      refine Settles.now fun fuel => ?_
      rw [loop, if_pos hi, hto, hf]
      rfl
    | some y =>
      have hnext : UInt32.ofNat n + 1 = UInt32.ofNat (n + 1) := (UInt32.ofNat_add n 1).symm
      rw [hread, hf, Option.bind_some] at hend
      have hrest := ih (n + 1) (acc ++ [y]) (by omega) (by omega)
        (by
          rcases hend with h | h
          · left
            cases hr : readFrom f (n + 1) k with
            | none => rfl
            | some ys => rw [hr] at h; cases h
          · exact Or.inr ⟨by omega, h.2⟩)
      rw [← hnext] at hrest
      have hround : ((f (UInt32.ofNat n).toNat).map fun z => acc ++ [z]) = some (acc ++ [y]) := by
        rw [hto, hf]
        rfl
      have h := Settles.round hi hround hrest
      have heq : (readFrom f n (k + 1)).map (fun ys => acc ++ ys) =
          (readFrom f (n + 1) k).map fun ys => acc ++ [y] ++ ys := by
        rw [hread, hf, Option.bind_some]
        cases readFrom f (n + 1) k with
        | none => rfl
        | some ys =>
          show some (acc ++ y :: ys) = some (acc ++ [y] ++ ys)
          rw [List.append_assoc, List.singleton_append]
      rwa [heq]

/-- A loop with fewer rounds than its counter counts comes to what they read. -/
theorem loop_reads {f : Nat → Option γ} {bound : Nat} (hlt : bound < 2 ^ 32) :
    Settles (fun fuel => loop bound (fun i acc => (f i).map fun y => acc ++ [y]) fuel 0 [])
      (readFrom f 0 bound) := by
  have h := loop_reads_from (f := f) bound 0 [] (by omega) (by omega)
    (Or.inr ⟨Nat.zero_add bound, hlt⟩)
  have heq : (readFrom f 0 bound).map (fun ys => [] ++ ys) = readFrom f 0 bound := by
    cases readFrom f 0 bound <;> rfl
  rwa [heq] at h

/-- One with more returns out of the first round that reads nothing, if the counter reaches it. -/
theorem loop_reads_over {f : Nat → Option γ} {bound : Nat} (hbound : 2 ^ 32 ≤ bound)
    (h : readFrom f 0 (2 ^ 32) = none) :
    Settles (fun fuel => loop bound (fun i acc => (f i).map fun y => acc ++ [y]) fuel 0 [])
      none := by
  have hall := loop_reads_from (2 ^ 32) 0 [] (by omega : 0 + 2 ^ 32 ≤ bound) (by omega) (Or.inl h)
  rwa [h] at hall

end CountUp
