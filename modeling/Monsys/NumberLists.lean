/-
  Lists of numbers such as "1,2,3": `str2list` with `val` of `libframework/zutil.h`, and
  `ZStringUtil::atoi` of `zutil.cc`.

  1. **The code** — `val` counts the digits in front, `str2list` skips whatever stands behind them.
     `str` is a pointer into the string; here it is what is left in front of the NUL.
  2. **Decimal numbers** — what the digits in front of others stand for.
  3. **Rounds** — what one round makes of an item (`round_item`).
  4. **Lists** — `NumberList`, and `parses_iff`: `str2list` returns true for every string, so it is
     right for the strings that are lists, if their lengths are `int`s.

  An `int` that is read before it is written, or that leaves its range, is a fault.
-/
import Mathlib.Tactic.Ring
import Monsys.Formatter
import Monsys.StringSearch

namespace Monsys

namespace NumberLists

open ZFormatter (isDigit decimal comma)

inductive ListFault
  | outside
  | uninitialised
  | overflow
deriving DecidableEq, Repr

/-! ## The code -/

/-- An `int` as a result. -/
def int (v : Int) : Except ListFault Int :=
  if -2 ^ 31 ≤ v ∧ v < 2 ^ 31 then .ok v else .error .overflow

/-- The loop of `atoi`, with so many rounds to go behind this one. -/
def atoiLoop (dflt : Int) : (str : List UInt8) → (rounds : Nat) → (val : Int) → Except ListFault Int
  | [], _, _ => return dflt
  | c :: str, rounds, val =>
    if !isDigit c then return dflt
    else do
      let val ← int (val + (c.toNat - '0'.toNat : Int))
      match rounds with
      | 0 => return val
      | rounds + 1 => do
        let val ← int (10 * val)
        atoiLoop dflt str rounds val

/-- `ZStringUtil::atoi`, from the first byte on. -/
def atoi (str : List UInt8) (dflt last : Int) : Except ListFault Int :=
  if str = [] then return dflt
  else
    let last := if last < 0 then toInt (str.length - 1) else last
    if last < 0 then return dflt else atoiLoop dflt str last.toNat 0

/-- The digits in front, as far as `idx < str_len`. -/
def digitsEnd (strLen : Int) : (idx : Nat) → (str : List UInt8) → Nat
  | idx, [] => idx
  | idx, c :: str => if isDigit c && decide (idx < strLen) then digitsEnd strLen (idx + 1) str else idx

/-- It returns how many digits there are, and leaves `v` alone or writes to it. -/
def val (str : List UInt8) (strLen : Int) (v : Option Int) : Except ListFault (Int × Option Int) :=
  if strLen ≤ 0 then return (-1, v)
  else do
    let idx := digitsEnd strLen 0 str
    let v ← atoi str (-1) (idx - 1)
    return (idx, some v)

def initialised : Option Int → Except ListFault Int
  | none => .error .uninitialised
  | some v => .ok v

/-- The rounds of `str2list`. -/
def str2listLoop (strLen : Int) (str : List UInt8) (len : Int) (v : Option Int) (list : List Int) :
    Except ListFault (Bool × List Int) := do
  let (lastpos, v) ← val str strLen v
  let pushed ← initialised v
  let lastpos ← int (lastpos + 1)
  let len := len - lastpos
  if _h : 0 < lastpos ∧ lastpos ≤ str.length ∧ 0 < len then
    str2listLoop strLen (str.drop lastpos.toNat) len v (list ++ [pushed])
  else if 0 < lastpos ∧ 0 < len then .error .outside  -- the NUL is behind `str`
  else return (!decide (0 < len), list ++ [pushed])
termination_by str.length
decreasing_by
  rw [List.length_drop]
  omega

def str2list (str : List UInt8) (list : List Int) : Except ListFault (Bool × List Int) :=
  str2listLoop (toInt str.length) str (toInt str.length) none list

/-! ## Decimal numbers -/

section Decimal

variable {x y rest : List UInt8}

/-- One more digit. -/
def withDigit (n : Nat) (c : UInt8) : Nat := 10 * n + (c.toNat - '0'.toNat)

theorem foldl_withDigit (y : List UInt8) (n : Nat) :
    y.foldl withDigit n = n * 10 ^ y.length + decimal y := by
  induction y generalizing n with
  | nil => exact (Nat.mul_one n).symm
  | cons c y ih =>
    have hone := ih (withDigit 0 c)
    have hdecimal : decimal (c :: y) = y.foldl withDigit (withDigit 0 c) := rfl
    rw [List.foldl_cons, ih, hdecimal, hone, List.length_cons, withDigit, withDigit, Nat.pow_succ]
    ring

theorem decimal_append (x y : List UInt8) :
    decimal (x ++ y) = decimal x * 10 ^ y.length + decimal y :=
  (List.foldl_append).trans (foldl_withDigit y (decimal x))

theorem decimal_le_append (x y : List UInt8) : decimal x ≤ decimal (x ++ y) := by
  rw [decimal_append]
  exact Nat.le_add_right_of_le (Nat.le_mul_of_pos_right _ (Nat.pow_pos (by decide)))

theorem decimal_zeros (h : ∀ c ∈ x, c = '0'.toUInt8) : decimal x = 0 := by
  induction x with
  | nil => rfl
  | cons c x ih =>
    rw [List.forall_mem_cons] at h
    rw [← List.singleton_append, decimal_append, ih h.2, h.1, show decimal ['0'.toUInt8] = 0 from rfl,
      Nat.zero_mul]

theorem digit_toNat {c : UInt8} (h : isDigit c = true) : 48 ≤ c.toNat ∧ c.toNat ≤ 57 := by
  rw [isDigit, Bool.and_eq_true, decide_eq_true_eq, decide_eq_true_eq] at h
  exact ⟨UInt8.le_iff_toNat_le.mp h.1, UInt8.le_iff_toNat_le.mp h.2⟩

/-- Only zeros stand for zero. -/
theorem zeros_of_decimal (hx : ∀ c ∈ x, isDigit c = true) (h : decimal x = 0) :
    ∀ c ∈ x, c = '0'.toUInt8 := by
  induction x with
  | nil => exact List.forall_mem_nil _
  | cons c x ih =>
    rw [List.forall_mem_cons] at hx ⊢
    rw [← List.singleton_append, decimal_append] at h
    have hpos : 0 < 10 ^ x.length := Nat.pow_pos (by decide)
    have hdigit : decimal [c] = c.toNat - 48 := Nat.zero_add _
    obtain ⟨hlo, -⟩ := digit_toNat hx.1
    have hzero : decimal [c] = 0 :=
      (Nat.mul_eq_zero.mp (Nat.eq_zero_of_add_eq_zero_right h)).resolve_right (Nat.ne_of_gt hpos)
    refine ⟨UInt8.toNat_inj.mp ?_, ih hx.2 (Nat.eq_zero_of_add_eq_zero_left h)⟩
    show c.toNat = 48
    omega

/-- What stays the same with more digits is zero. -/
theorem decimal_eq_zero_of_append (hy : y ≠ []) (h : decimal x = decimal (x ++ y)) :
    decimal (x ++ y) = 0 := by
  have hpow : 10 ≤ 10 ^ y.length := Nat.le_self_pow (List.length_pos_of_ne_nil hy).ne' 10
  have hmul := Nat.mul_le_mul_left (decimal x) hpow
  rw [← h]
  rw [decimal_append] at h
  omega

theorem int_of_nat {v : Nat} (h : v < 2 ^ 31) : int v = .ok v := if_pos ⟨by omega, by omega⟩

theorem int_succ (v : Nat) :
    int ((v : Int) + 1) = if v + 1 < 2 ^ 31 then .ok (v + 1 : Nat) else .error .overflow := by
  unfold int
  exact if_congr (by omega) rfl rfl

/-- The number so far is no more than the whole one. -/
theorem le_foldl_withDigit (x : List UInt8) (n : Nat) : n * 10 ^ x.length ≤ x.foldl withDigit n := by
  rw [foldl_withDigit]
  exact Nat.le_add_right _ _

theorem add_digit {c : UInt8} (hc : isDigit c = true) (p : Nat) :
    ((10 * p : Nat) : Int) + (c.toNat - '0'.toNat : Int) = (withDigit p c : Nat) := by
  obtain ⟨hlo, -⟩ := digit_toNat hc
  have hzero : '0'.toNat = 48 := rfl
  rw [withDigit, hzero]
  omega

theorem ok_bind {α β : Type} (a : α) (f : α → Except ListFault β) : (Except.ok a >>= f) = f a := rfl

theorem atoiLoop_last {c : UInt8} (hc : isDigit c = true) {p : Nat} (h : withDigit p c < 2 ^ 31)
    (dflt : Int) : atoiLoop dflt (c :: rest) 0 (10 * p : Nat) = .ok (withDigit p c : Nat) := by
  rw [atoiLoop, hc, if_neg (by decide), add_digit hc, int_of_nat h, ok_bind]
  rfl

theorem atoiLoop_next {c : UInt8} (hc : isDigit c = true) {p : Nat}
    (h : 10 * withDigit p c < 2 ^ 31) (dflt : Int) (rounds : Nat) :
    atoiLoop dflt (c :: rest) (rounds + 1) (10 * p : Nat) =
      atoiLoop dflt rest rounds (10 * withDigit p c : Nat) := by
  have hten : int (10 * (withDigit p c : Nat)) = .ok (10 * withDigit p c : Nat) := int_of_nat h
  rw [atoiLoop, hc, if_neg (by decide), add_digit hc, int_of_nat (by omega), ok_bind]
  simp only [hten, ok_bind]

/-- The digits up to `rounds` are read, one after the other. -/
theorem atoiLoop_digits {c : UInt8} (hx : ∀ b ∈ c :: x, isDigit b = true) {p : Nat}
    (h : (c :: x).foldl withDigit p < 2 ^ 31) (dflt : Int) :
    atoiLoop dflt (c :: x ++ rest) x.length (10 * p : Nat) =
      .ok ((c :: x).foldl withDigit p : Nat) := by
  induction x generalizing c p with
  | nil => exact atoiLoop_last (hx c List.mem_cons_self) h dflt
  | cons b x ih =>
    rw [List.forall_mem_cons] at hx
    rw [List.foldl_cons] at h ⊢
    have hbound := le_foldl_withDigit (b :: x) (withDigit p c)
    have hpow : 10 ≤ 10 ^ (b :: x).length := Nat.le_self_pow (Nat.succ_ne_zero x.length) 10
    have hmul := Nat.mul_le_mul_left (withDigit p c) hpow
    rw [List.length_cons, List.cons_append, atoiLoop_next hx.1 (by omega)]
    exact ih hx.2 h

theorem atoi_digits (hx : ∀ b ∈ x, isDigit b = true) (hsome : x ≠ []) (h : decimal x < 2 ^ 31)
    (dflt : Int) : atoi (x ++ rest) dflt (x.length - 1) = .ok (decimal x) := by
  obtain ⟨c, x, rfl⟩ := List.exists_cons_of_ne_nil hsome
  have hlast : (((c :: x).length : Nat) : Int) - 1 = (x.length : Nat) := by
    rw [List.length_cons]
    omega
  have hlist : c :: x ++ rest ≠ [] := List.cons_ne_nil c (x ++ rest)
  have hpos : ¬ ((x.length : Nat) : Int) < 0 := by omega
  rw [atoi, if_neg hlist, hlast]
  simp only [if_neg hpos, Int.toNat_natCast]
  exact atoiLoop_digits hx h dflt

end Decimal

/-! ## Rounds -/

/-- A decimal natural that is an `int`. -/
structure Natural (d : List UInt8) : Prop where
  some : d ≠ []
  digits : ∀ c ∈ d, isDigit c = true
  fits : decimal d < 2 ^ 31

section Rounds

variable {d rest : List UInt8} {S n : Nat} {len : Int} {v : Option Int} {list : List Int}

theorem digitsEnd_digits (hd : ∀ c ∈ d, isDigit c = true) (hrest : isDigit (rest.headD 0) = false)
    {idx : Nat} (hidx : idx ≤ S) :
    digitsEnd (S : Int) idx (d ++ rest) = min (idx + d.length) S := by
  induction d generalizing idx with
  | nil =>
    have hstop : digitsEnd (S : Int) idx rest = idx := by
      cases rest with
      | nil => rfl
      | cons c rest =>
        have hc : isDigit c = false := hrest
        rw [digitsEnd, hc, Bool.false_and, if_neg Bool.false_ne_true]
    rw [List.nil_append, hstop, List.length_nil]
    omega
  | cons c d ih =>
    rw [List.forall_mem_cons] at hd
    have hidx' : ((idx : Int) < S) ↔ idx < S := Int.ofNat_lt
    rw [List.cons_append, digitsEnd, hd.1, Bool.true_and, List.length_cons]
    by_cases hlt : idx < S
    · rw [decide_eq_true (hidx'.mpr hlt), if_pos rfl, ih hd.2 hlt]
      omega
    · rw [decide_eq_false (mt hidx'.mp hlt), if_neg Bool.false_ne_true]
      omega

/-- The digits that are read, in front of the others. -/
theorem Natural.take (hd : Natural d) (hn : 0 < n) :
    Natural (d.take n) ∧ decimal (d.take n) ≤ decimal d := by
  have hle := decimal_le_append (d.take n) (d.drop n)
  rw [List.take_append_drop] at hle
  refine ⟨⟨?_, fun c hc => hd.digits c (List.mem_of_mem_take hc), lt_of_le_of_lt hle hd.fits⟩, hle⟩
  rw [Ne, List.take_eq_nil_iff, not_or]
  exact ⟨Nat.ne_of_gt hn, hd.some⟩

/-- How many of the digits are read. -/
def taken (d : List UInt8) (S : Nat) : Nat := min d.length S

theorem val_item (hd : Natural d) (hrest : isDigit (rest.headD 0) = false) (hS : 0 < S) :
    val (d ++ rest) S v = .ok ((taken d S : Nat), some (decimal (d.take (taken d S)) : Nat)) := by
  have hpos : 0 < taken d S := lt_min (List.length_pos_of_ne_nil hd.some) hS
  have hlen : (d.take (taken d S)).length = taken d S := by
    rw [List.length_take]
    exact min_eq_left (min_le_left _ _)
  have hread := (hd.take hpos).1
  have hatoi := @atoi_digits (d.take (taken d S)) (d.drop (taken d S) ++ rest) hread.digits
    hread.some hread.fits (-1)
  rw [← List.append_assoc, List.take_append_drop, hlen] at hatoi
  have hend : digitsEnd (S : Int) 0 (d ++ rest) = taken d S := by
    rw [digitsEnd_digits hd.digits hrest (Nat.zero_le S), Nat.zero_add]
    rfl
  rw [val, if_neg (by omega), hend]
  simp only [hatoi, ok_bind]
  rfl

/-- **One round**, for an item. -/
theorem round_item (hd : Natural d) (hrest : isDigit (rest.headD 0) = false) (hS : 0 < S)
    (hroom : len ≤ (d ++ rest).length) (hint : taken d S + 1 < 2 ^ 31) :
    str2listLoop S (d ++ rest) len v list =
      if (taken d S + 1 : Nat) < len then
        str2listLoop S ((d ++ rest).drop (taken d S + 1)) (len - (taken d S + 1 : Nat))
          (some (decimal (d.take (taken d S)) : Nat)) (list ++ [(decimal (d.take (taken d S)) : Int)])
      else .ok (true, list ++ [(decimal (d.take (taken d S)) : Int)]) := by
  rw [str2listLoop, val_item hd hrest hS, ok_bind]
  dsimp only
  rw [initialised, ok_bind, int_succ, if_pos hint, ok_bind]
  by_cases hmore : (taken d S + 1 : Nat) < len
  · rw [if_pos hmore, dif_pos ⟨by omega, by omega, by omega⟩, Int.toNat_natCast]
  · rw [if_neg hmore, dif_neg (by omega), if_neg (by omega), decide_eq_false (by omega)]
    rfl

/-- Of too many digits `lastpos` is no `int`. -/
theorem round_overflow (hd : Natural d) (hrest : isDigit (rest.headD 0) = false) (hS : 0 < S)
    (hlong : ¬ taken d S + 1 < 2 ^ 31) :
    str2listLoop S (d ++ rest) len v list = .error .overflow := by
  rw [str2listLoop, val_item hd hrest hS, ok_bind]
  dsimp only
  rw [initialised, ok_bind, int_succ, if_neg hlong]
  rfl

end Rounds

/-! ## Lists -/

/-- A list of decimal naturals with commas between them, and the numbers. -/
inductive NumberList : List UInt8 → List Nat → Prop
  | one {d} : Natural d → NumberList d [decimal d]
  | more {d s ns} : Natural d → NumberList s ns → NumberList (d ++ comma :: s) (decimal d :: ns)

/-- `str2list` returns true exactly for the lists of numbers, and appends these. -/
def Parses (s : List UInt8) : Prop :=
  ∀ list, ∃ ok appended, str2list s list = .ok (ok, list ++ appended) ∧
    (ok = true ↔ ∃ ns, NumberList s ns) ∧
    ∀ ns, NumberList s ns → appended = ns.map Int.ofNat

section Lists

variable {d s t : List UInt8} {ns : List Nat} {S : Nat} {len : Int} {v : Option Int}
  {list : List Int}

theorem Natural.comma_not_mem (h : Natural d) : comma ∉ d :=
  fun hmem => absurd (h.digits comma hmem) (by decide)

theorem NumberList.unique (h : NumberList s ns) {ns' : List Nat} (h' : NumberList s ns') :
    ns' = ns := by
  induction h generalizing ns' with
  | @one d hd =>
    generalize hs : d = s at h'
    cases h' with
    | one => rfl
    | more hd' _ =>
      rw [hs] at hd
      exact absurd (List.mem_append_right _ List.mem_cons_self) hd.comma_not_mem
  | @more d s ns hd hrest ih =>
    generalize hs : d ++ comma :: s = t at h'
    cases h' with
    | one hd' =>
      rw [← hs] at hd'
      exact absurd (List.mem_append_right _ List.mem_cons_self) hd'.comma_not_mem
    | more hd' hrest' =>
      obtain ⟨rfl, rfl⟩ := Kmp.first_split_unique hs hd.comma_not_mem hd'.comma_not_mem
      rw [ih hrest']

/-- What is left ends in zeros, from in front of `len` on. -/
def EndsInZeros (t : List UInt8) (len : Int) : Prop :=
  ∃ before zeros, t = before ++ zeros ∧ (∀ c ∈ zeros, c = '0'.toUInt8) ∧ before.length < len

/-- An item that no other one is read behind. -/
theorem round_ends {rest : List UInt8} (hd : Natural d) (hrest : isDigit (rest.headD 0) = false)
    (hS : 0 < S) (hroom : len ≤ (d ++ rest).length) (hends : len ≤ (taken d S + 1 : Nat)) :
    str2listLoop S (d ++ rest) len v list =
      if taken d S + 1 < 2 ^ 31 then .ok (true, list ++ [(decimal (d.take (taken d S)) : Int)])
      else .error .overflow := by
  by_cases hint : taken d S + 1 < 2 ^ 31
  · rw [round_item hd hrest hS hroom hint, if_neg (by omega), if_pos hint]
  · rw [round_overflow hd hrest hS hint, if_neg hint]

theorem round_single (hd : Natural d) (hS : 0 < S) (hroom : len ≤ d.length)
    (hends : len ≤ (taken d S + 1 : Nat)) :
    str2listLoop S d len v list =
      if taken d S + 1 < 2 ^ 31 then .ok (true, list ++ [(decimal (d.take (taken d S)) : Int)])
      else .error .overflow := by
  have hnil : isDigit (List.headD [] 0) = false := by decide
  have hround := @round_ends d S len v list [] hd hnil hS (by rwa [List.append_nil]) hends
  rwa [List.append_nil] at hround

/-- An item in front of others. -/
theorem round_goes_on (hd : Natural d) (hall : d.length ≤ S)
    (hroom : len ≤ (d ++ comma :: t).length) (hint : d.length + 1 < 2 ^ 31)
    (hmore : d.length + 1 < len) :
    str2listLoop S (d ++ comma :: t) len v list =
      str2listLoop S t (len - (d.length + 1 : Nat)) (some (decimal d : Nat))
        (list ++ [(decimal d : Int)]) := by
  have hpos := List.length_pos_of_ne_nil hd.some
  have htaken : taken d S = d.length := min_eq_left hall
  have hcomma : isDigit ((comma :: t).headD 0) = false := (by decide : isDigit comma = false)
  have hdrop : (d ++ comma :: t).drop (d.length + 1) = t := by
    rw [← List.drop_drop, List.drop_left]
    rfl
  rw [round_item hd hcomma (by omega) hroom (by omega), htaken, if_pos (by omega), List.take_length,
    hdrop]

/-- **A list whose length is an `int`** is read to its end. -/
theorem loop_short (h : NumberList t ns) (hS : t.length ≤ S)
    (hitem : t.length < 2 ^ 31 - 1 ∨ (t.length < 2 ^ 31 ∧ comma ∈ t)) :
    str2listLoop S t t.length v list = .ok (true, list ++ ns.map Int.ofNat) := by
  induction h generalizing v list with
  | @one d hd =>
    have hlen : d.length < 2 ^ 31 - 1 := hitem.resolve_right fun h => hd.comma_not_mem h.2
    have hpos := List.length_pos_of_ne_nil hd.some
    have hall : taken d S = d.length := min_eq_left hS
    rw [round_single hd (by omega) (Int.le_refl _) (by omega), hall, if_pos (by omega),
      List.take_length]
    rfl
  | @more d s ns hd hrest ih =>
    have hpos := List.length_pos_of_ne_nil hd.some
    have hsome : s ≠ [] := by
      cases hrest with
      | one hd' => exact hd'.some
      | more => exact List.append_ne_nil_of_right_ne_nil _ (List.cons_ne_nil _ _)
    have hs := List.length_pos_of_ne_nil hsome
    have hlen : (d ++ comma :: s).length = d.length + (s.length + 1) := by
      rw [List.length_append, List.length_cons]
    rw [hlen] at hS hitem
    rw [round_goes_on hd (by omega) (Int.le_refl _) (by omega) (by omega), hlen]
    have hleft : ((d.length + (s.length + 1) : Nat) : Int) - (d.length + 1 : Nat) = s.length := by
      omega
    rw [hleft, ih (by omega) (Or.inl (by omega)), List.append_assoc]
    rfl

theorem NumberList.ne_nil (h : NumberList s ns) : s ≠ [] ∧ ns ≠ [] := by
  cases h with
  | one hd => exact ⟨hd.some, List.cons_ne_nil _ _⟩
  | more => exact ⟨List.append_ne_nil_of_right_ne_nil _ (List.cons_ne_nil _ _), List.cons_ne_nil _ _⟩

/-- Of a number with that many digits, the first ones are worth as much only if it is zero. -/
theorem take_eq_iff (hd : Natural d) (hlen : 0 < len) (hle : len ≤ S) (hgap : S + 10 ≤ d.length) :
    decimal (d.take S) = decimal d ↔ EndsInZeros d len := by
  have hsplit := List.take_append_drop S d
  have hdrop : d.drop S ≠ [] := by
    rw [Ne, List.drop_eq_nil_iff]
    omega
  constructor
  · intro htake
    have hzero := decimal_eq_zero_of_append hdrop (htake.trans (congrArg decimal hsplit.symm))
    rw [hsplit] at hzero
    exact ⟨[], d, rfl, zeros_of_decimal hd.digits hzero, hlen⟩
  · rintro ⟨before, zeros, rfl, hzeros, hbefore⟩
    -- with ten zeros behind it, anything else is no `int`
    have hfits := hd.fits
    rw [List.length_append] at hgap
    have hten : 10 ^ 10 ≤ 10 ^ zeros.length := Nat.pow_le_pow_right (by decide) (by omega)
    have hmul := Nat.mul_le_mul_left (decimal before) hten
    rw [decimal_append, decimal_zeros hzeros] at hfits
    have hzero : decimal (before ++ zeros) = 0 := by
      have hnone : decimal before = 0 := by omega
      rw [decimal_append, decimal_zeros hzeros, hnone, Nat.zero_mul]
    have hfirst := decimal_le_append ((before ++ zeros).take S) ((before ++ zeros).drop S)
    rw [hsplit, hzero] at hfirst
    rw [hzero, Nat.eq_zero_of_le_zero hfirst]

theorem endsInZeros_more (d t : List UInt8) :
    EndsInZeros (d ++ comma :: t) len ↔
      d.length + 1 < len ∧ EndsInZeros t (len - (d.length + 1 : Nat)) := by
  constructor
  · rintro ⟨before, zeros, hsplit, hzeros, hbefore⟩
    have hcomma : comma ∉ zeros := fun hmem => absurd (hzeros comma hmem) (by decide)
    -- the comma is no zero, so it stands in front of them
    rcases List.append_eq_append_iff.mp hsplit with ⟨x, rfl, hx⟩ | ⟨x, rfl, hx⟩
    · cases x with
      | nil =>
        have hzeros : comma :: t = zeros := hx
        exact absurd (hzeros ▸ List.mem_cons_self) hcomma
      | cons c x =>
        obtain ⟨rfl, rfl⟩ := List.cons.inj hx
        rw [List.length_append, List.length_cons] at hbefore
        exact ⟨by omega, x, zeros, rfl, hzeros, by omega⟩
    · exact absurd (hx ▸ List.mem_append_right x List.mem_cons_self) hcomma
  · rintro ⟨-, before, zeros, rfl, hzeros, hbefore⟩
    refine ⟨d ++ comma :: before, zeros, ?_, hzeros, ?_⟩
    · rw [List.append_assoc, List.cons_append]
    · rw [List.length_append, List.length_cons]
      omega

/-- **A list that is longer than its length says**: its numbers come out only if it ends in zeros. -/
theorem loop_wrapped_iff (h : NumberList t ns) (hS : S < 2 ^ 31) (hlen : 0 < len) (hle : len ≤ S)
    (hgap : S + 10 + len ≤ t.length) :
    (∃ ok, str2listLoop S t len v list = .ok (ok, list ++ ns.map Int.ofNat)) ↔
      S + 1 < 2 ^ 31 ∧ EndsInZeros t len := by
  induction h generalizing len v list with
  | @one d hd =>
    have hall : taken d S = S := min_eq_right (by omega)
    rw [round_single hd (by omega) (by omega) (by omega), hall,
      ← take_eq_iff hd hlen hle (by omega)]
    -- the last item is all that is left: it is cut after `S` digits
    by_cases hint : S + 1 < 2 ^ 31
    · rw [if_pos hint, and_iff_right hint]
      constructor
      · rintro ⟨ok, heq⟩
        have hlast := List.append_cancel_left (Prod.mk.inj (Except.ok.inj heq)).2
        exact Int.ofNat_inj.mp (List.cons.inj hlast).1
      · intro htake
        rw [htake]
        exact ⟨true, rfl⟩
    · rw [if_neg hint]
      exact iff_of_false (fun ⟨_, heq⟩ => nomatch heq) fun h => hint h.1
  | @more d s ns hd hrest ih =>
    rw [List.length_append, List.length_cons] at hgap
    have hroom : len ≤ (d ++ comma :: s).length := by
      rw [List.length_append, List.length_cons]
      omega
    rw [endsInZeros_more]
    by_cases hmore : d.length + 1 < len
    · have hnext : list ++ (decimal d :: ns).map Int.ofNat =
          list ++ [(decimal d : Int)] ++ ns.map Int.ofNat := by
        rw [List.append_assoc]
        rfl
      rw [round_goes_on hd (by omega) hroom (by omega) hmore, hnext, ih (by omega) (by omega) (by omega),
        and_iff_right hmore]
    · -- `len` ends within this item, and the ones behind it are left out
      have hcomma : isDigit ((comma :: s).headD 0) = false := (by decide : isDigit comma = false)
      have hends : len ≤ (taken d S + 1 : Nat) := by
        unfold taken
        omega
      refine iff_of_false ?_ fun h => hmore h.2.1
      rintro ⟨ok, heq⟩
      rw [round_ends hd hcomma (by omega) hroom hends] at heq
      split_ifs at heq
      · have hlast := List.append_cancel_left (Prod.mk.inj (Except.ok.inj heq)).2
        exact hrest.ne_nil.2 (List.map_eq_nil_iff.mp (List.cons.inj hlast).2.symm)

/-- `val` counts, and writes. -/
theorem val_cases {strLen : Int} {str : List UInt8} {p : Int × Option Int} (hpos : 0 < strLen)
    (h : val str strLen v = .ok p) : ∃ (n : Nat) (pushed : Int), p = ((n : Int), some pushed) := by
  rw [val, if_neg (by omega)] at h
  dsimp only at h
  cases hatoi : atoi str (-1) (digitsEnd strLen 0 str - 1) with
  | error e =>
    rw [hatoi] at h
    exact absurd h nofun
  | ok pushed =>
    rw [hatoi, ok_bind] at h
    exact ⟨_, pushed, (Except.ok.inj h).symm⟩

/-- A round that goes well is followed by another one, or ends with true. -/
theorem round_cases {strLen : Int} {str : List UInt8} {r : Bool × List Int} (hpos : 0 < strLen)
    (h : str2listLoop strLen str len v list = .ok r) :
    ∃ (n : Nat) (pushed : Int), (n + 1 ≤ str.length ∧
        str2listLoop strLen (str.drop (n + 1)) (len - (n + 1 : Nat)) (some pushed)
          (list ++ [pushed]) = .ok r) ∨ r = (true, list ++ [pushed]) := by
  rw [str2listLoop] at h
  cases hval : val str strLen v with
  | error e =>
    rw [hval] at h
    exact absurd h nofun
  | ok p =>
    obtain ⟨n, pushed, rfl⟩ := val_cases hpos hval
    refine ⟨n, pushed, ?_⟩
    rw [hval, ok_bind] at h
    dsimp only at h
    rw [initialised, ok_bind, int_succ] at h
    by_cases hint : n + 1 < 2 ^ 31
    · rw [if_pos hint, ok_bind] at h
      split_ifs at h with hmore hout
      · rw [Int.toNat_natCast] at h
        exact Or.inl ⟨by omega, h⟩
      · have hend := Except.ok.inj h
        rw [← hend, decide_eq_false (by omega)]
        exact Or.inr rfl
    · rw [if_neg hint] at h
      exact absurd h nofun

/-- `str2list` never returns false. -/
theorem loop_true {strLen : Int} (hpos : 0 < strLen) {str : List UInt8} {ok : Bool} {l : List Int}
    (h : str2listLoop strLen str len v list = .ok (ok, l)) : ok = true := by
  generalize hn : str.length = n
  induction n using Nat.strong_induction_on generalizing str len v list with
  | _ n ih =>
    obtain ⟨k, pushed, ⟨hle, hrest⟩ | hend⟩ := round_cases hpos h
    · refine ih (str.drop (k + 1)).length ?_ hrest rfl
      rw [List.length_drop]
      omega
    · exact congrArg Prod.fst hend

theorem int_ne_outside (n : Int) : int n ≠ .error .outside := by
  unfold int
  split <;> exact nofun

theorem initialised_ne_outside (v : Option Int) : initialised v ≠ .error .outside := by
  cases v with
  | none => exact nofun
  | some v => exact nofun

theorem bind_ne_outside {α β : Type} {x : Except ListFault α} {f : α → Except ListFault β}
    (hx : x ≠ .error .outside) (hf : ∀ a, x = .ok a → f a ≠ .error .outside) :
    (x >>= f) ≠ .error .outside := by
  cases x with
  | error e => exact fun h => hx (congrArg Except.error (Except.error.inj h))
  | ok a => exact hf a rfl

/-- The NUL is no digit, so `atoi` does not go beyond it. -/
theorem atoiLoop_ne_outside (dflt : Int) (str : List UInt8) (rounds : Nat) (n : Int) :
    atoiLoop dflt str rounds n ≠ .error .outside := by
  induction str generalizing rounds n with
  | nil => exact nofun
  | cons c str ih =>
    rw [atoiLoop]
    split
    · exact nofun
    · refine bind_ne_outside (int_ne_outside _) fun n _ => ?_
      cases rounds with
      | zero => exact nofun
      | succ rounds => exact bind_ne_outside (int_ne_outside _) fun n _ => ih rounds n

theorem val_ne_outside (str : List UInt8) (strLen : Int) (v : Option Int) :
    val str strLen v ≠ .error .outside := by
  have hatoi : ∀ last, atoi str (-1) last ≠ .error .outside := by
    intro last
    unfold atoi
    split
    · exact nofun
    · generalize (if last < 0 then toInt (str.length - 1) else last) = last
      by_cases hneg : last < 0
      · rw [if_pos hneg]
        exact fun h => nomatch h
      · rw [if_neg hneg]
        exact atoiLoop_ne_outside _ _ _ _
  unfold val
  split
  · exact nofun
  · exact bind_ne_outside (hatoi _) fun v _ => nofun

/-- **Nothing behind the NUL is read**, as `len` is no more than what is left. -/
theorem loop_ne_outside (strLen : Int) {str : List UInt8} (hlen : len ≤ str.length) :
    str2listLoop strLen str len v list ≠ .error .outside := by
  generalize hn : str.length = n
  induction n using Nat.strong_induction_on generalizing str len v list with
  | _ n ih =>
    rw [str2listLoop]
    refine bind_ne_outside (val_ne_outside _ _ _) fun ⟨_, w⟩ _ => ?_
    refine bind_ne_outside (initialised_ne_outside w) fun pushed _ => ?_
    refine bind_ne_outside (int_ne_outside _) fun lastpos _ => ?_
    dsimp only
    split_ifs with hmore hout
    · refine ih (str.drop lastpos.toNat).length ?_ ?_ rfl
      · rw [List.length_drop]
        omega
      · rw [List.length_drop]
        omega
    · omega
    · exact nofun

/-- With a length that is not positive, `v` is pushed as it is. -/
theorem loop_unwritten {strLen : Int} (hneg : ¬ 0 < strLen) (str : List UInt8) :
    str2listLoop strLen str len none list = .error .uninitialised := by
  rw [str2listLoop, val, if_pos (by omega)]
  rfl

theorem toInt_pos_iff (n : Nat) : 0 < toInt n ↔ 0 < n % 2 ^ 32 ∧ n % 2 ^ 32 < 2 ^ 31 := by
  unfold toInt
  rw [Int.bmod_def]
  split <;> omega

theorem toInt_of_pos {n : Nat} (h : 0 < toInt n) : toInt n = (n % 2 ^ 32 : Nat) := by
  unfold toInt at h ⊢
  rw [Int.bmod_def] at h ⊢
  split at h <;> omega

end Lists

/-- The length is an `int`, and so is what is skipped with an item. -/
def ShortList (s : List UInt8) : Prop :=
  s.length < 2 ^ 31 - 1 ∨ (s.length = 2 ^ 31 - 1 ∧ comma ∈ s)

/-- Of the length, an `int` keeps a part in which the last item has already begun; and that is a row
    of zeros, so that it does not matter where it is cut. -/
def WrappedList (s : List UInt8) : Prop :=
  2 ^ 32 ≤ s.length ∧ s.length % 2 ^ 32 < 2 ^ 31 - 1 ∧ EndsInZeros s (s.length % 2 ^ 32 : Nat)

section Lists

variable {s : List UInt8} {ns : List Nat}

theorem str2list_ne_outside (s : List UInt8) (list : List Int) :
    str2list s list ≠ .error .outside := by
  refine loop_ne_outside _ ?_
  unfold toInt
  rw [Int.bmod_def]
  split <;> omega

theorem str2list_short (h : NumberList s ns) (hs : ShortList s) (list : List Int) :
    str2list s list = .ok (true, list ++ ns.map Int.ofNat) := by
  have hlt : s.length < 2 ^ 31 := by
    rcases hs with hlt | ⟨heq, -⟩ <;> omega
  have hint : toInt s.length = s.length := (toInt_eq_iff (by omega)).mpr hlt
  rw [str2list, hint]
  refine loop_short h (Nat.le_refl _) ?_
  rcases hs with hlt | ⟨heq, hcomma⟩
  · exact Or.inl hlt
  · exact Or.inr ⟨by omega, hcomma⟩

/-- A list whose length is not kept, or just fits, without a comma. -/
theorem str2list_long_iff (h : NumberList s ns) (hs : ¬ ShortList s) (list : List Int) :
    (∃ ok, str2list s list = .ok (ok, list ++ ns.map Int.ofNat)) ↔ WrappedList s := by
  by_cases hpos : 0 < toInt s.length
  · obtain ⟨hlo, hhi⟩ := (toInt_pos_iff _).mp hpos
    rw [str2list, toInt_of_pos hpos]
    rcases Nat.lt_or_ge s.length (2 ^ 32) with hlt | hge
    · -- as many digits as an `int` can count
      rw [Nat.mod_eq_of_lt hlt] at hhi ⊢
      rw [ShortList, not_or, not_and] at hs
      have hlen : s.length = 2 ^ 31 - 1 := by omega
      refine iff_of_false ?_ fun hwrap => by have hge := hwrap.1; omega
      rintro ⟨ok, heq⟩
      cases h with
      | one hd =>
        have hall : taken s s.length = s.length := min_self _
        rw [round_single hd (by omega) (Int.le_refl _) (by omega), hall, if_neg (by omega)] at heq
        exact absurd heq nofun
      | more => exact hs.2 hlen (List.mem_append_right _ List.mem_cons_self)
    · rw [loop_wrapped_iff h hhi (by omega) (Int.le_refl _) (by omega), WrappedList,
        and_iff_right hge]
      exact and_congr_left fun _ => by omega
  · refine iff_of_false ?_ fun hwrap => ?_
    · rintro ⟨ok, heq⟩
      rw [str2list, loop_unwritten hpos] at heq
      exact absurd heq nofun
    · obtain ⟨-, hlt, before, zeros, -, -, hbefore⟩ := hwrap
      exact hpos ((toInt_pos_iff _).mpr ⟨by omega, by omega⟩)

theorem str2list_true {list l : List Int} {ok : Bool} (h : str2list s list = .ok (ok, l)) :
    ok = true := by
  by_cases hpos : 0 < toInt s.length
  · exact loop_true hpos h
  · rw [str2list, loop_unwritten hpos] at h
    exact absurd h nofun

/-- For a list of numbers: when they are appended. -/
theorem str2list_list_iff (h : NumberList s ns) (list : List Int) :
    str2list s list = .ok (true, list ++ ns.map Int.ofNat) ↔ ShortList s ∨ WrappedList s := by
  by_cases hs : ShortList s
  · exact iff_of_true (str2list_short h hs list) (Or.inl hs)
  · rw [or_iff_right hs, ← str2list_long_iff h hs list]
    refine ⟨fun heq => ⟨true, heq⟩, ?_⟩
    rintro ⟨ok, heq⟩
    rwa [str2list_true heq] at heq

/-- It never says that a string is none. -/
theorem Parses.list (h : Parses s) : ∃ ns, NumberList s ns := by
  obtain ⟨ok, appended, heq, hok, -⟩ := h []
  exact hok.mp (str2list_true heq)

/-- **Which strings are parsed**: the lists of numbers whose lengths are kept. -/
theorem parses_iff (s : List UInt8) :
    Parses s ↔ (∃ ns, NumberList s ns) ∧ (ShortList s ∨ WrappedList s) := by
  constructor
  · intro h
    obtain ⟨ns, hlist⟩ := h.list
    obtain ⟨ok, appended, heq, -, hns⟩ := h []
    rw [str2list_true heq, hns ns hlist] at heq
    exact ⟨⟨ns, hlist⟩, (str2list_list_iff hlist []).mp heq⟩
  · rintro ⟨⟨ns, hlist⟩, hlen⟩ list
    refine ⟨true, ns.map Int.ofNat, (str2list_list_iff hlist list).mpr hlen,
      iff_of_true rfl ⟨ns, hlist⟩, fun ns' hlist' => ?_⟩
    rw [hlist.unique hlist']

/-- What stands in a list. -/
theorem NumberList.mem (h : NumberList s ns) : ∀ c ∈ s, isDigit c = true ∨ c = comma := by
  induction h with
  | one hd => exact fun c hc => Or.inl (hd.digits c hc)
  | more hd _ ih =>
    intro c hc
    rcases List.mem_append.mp hc with hc | hc
    · exact Or.inl (hd.digits c hc)
    · rcases List.mem_cons.mp hc with rfl | hc
      · exact Or.inr rfl
      · exact ih c hc

/-- "1;2" is no list of numbers, but taken for one. -/
theorem semicolon_accepted : ¬ Parses (['1', ';', '2'].map Char.toUInt8) := by
  intro hparses
  obtain ⟨ns, h⟩ := hparses.list
  have hmem := h.mem ';'.toUInt8 (by decide)
  exact absurd hmem (by decide)

end Lists

end NumberLists

end Monsys
