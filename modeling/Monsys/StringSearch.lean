/-
  Searching in strings: `simple_string_search` and `kmp_string_search` of
  `libframework/algorithm/zstring_search.cc`, with `ZStringUtil::indexOf` and `contains`.

  1. **Plain search** — `simpleStringSearch`; it never compares at the last position
     (`search_answers_iff`).
  2. **The search with a table** — `kmpStringSearch`: the loop that fills the table only ever writes
     its first entry.  A read of another one is a `KmpFault.uninitialised`.
  3. **When that is enough** — `kmp_agrees_iff`: for a pattern of one byte, and for one of two that
     fits where its first byte is met.

  A string comes with its length, a `uint32_t`; the results are `int`s.
-/
import Monsys.Lib.Occurrence

namespace Monsys

open Occurrence

/-- A string and its length. -/
structure SizedString where
  bytes : List UInt8
  short : bytes.length < 2 ^ 32

namespace SizedString

def len (s : SizedString) : Nat := s.bytes.length

end SizedString

/-- `(int) v` of a `uint32_t`. -/
def toInt (v : Nat) : Int := (v : Int).bmod (2 ^ 32)

/-! ## Plain search -/

/-- `memcmp(target + i, str, str_len) == 0`. -/
def sameAt (target str : List UInt8) (i : Nat) : Bool := (target.drop i).take str.length == str

/-- The loop of `simple_string_search`, with so many rounds to go. -/
def searchLoop (target str : List UInt8) (i : Nat) : Nat → Int
  | 0 => -1
  | rounds + 1 =>
    if sameAt target str i then toInt i
    else searchLoop target str (i + 1) rounds

def simpleStringSearch (target str : SizedString) : Int :=
  if str.len = 0 then 0
  else if str.len > target.len then -1
  else searchLoop target.bytes str.bytes 0 (target.len - str.len)

def indexOf (target str : SizedString) : Int := simpleStringSearch target str

def contains (target str : SizedString) : Bool := indexOf target str ≥ 0

section Plain

variable {target str : List UInt8} {i : Nat}

theorem sameAt_iff (hle : i + str.length ≤ target.length) :
    sameAt target str i = true ↔ OccursAt target str i := by
  rw [sameAt, beq_iff_eq, occursAt_iff_take hle]

/-- The loop finds the first occurrence that it comes to. -/
theorem searchLoop_found {first : Nat} (h : FirstAt target str first) {rounds : Nat} (hi : i ≤ first)
    (hrounds : first < i + rounds) : searchLoop target str i rounds = toInt first := by
  induction rounds generalizing i with
  | zero => omega
  | succ rounds ih =>
    have hroom := h.1.add_le
    rw [searchLoop]
    rcases Nat.eq_or_lt_of_le hi with rfl | hlt
    · rw [if_pos ((sameAt_iff hroom).mpr h.1)]
    · rw [if_neg fun hsame => h.2 i hlt ((sameAt_iff (by omega)).mp hsame)]
      exact ih hlt (by omega)

theorem searchLoop_none {rounds : Nat} (hroom : i + rounds + str.length ≤ target.length)
    (h : ∀ j < i + rounds, ¬ OccursAt target str j) : searchLoop target str i rounds = -1 := by
  induction rounds generalizing i with
  | zero => rfl
  | succ rounds ih =>
    rw [searchLoop, if_neg fun hsame => h i (by omega) ((sameAt_iff (by omega)).mp hsame)]
    exact ih (by omega) fun j hj => h j (by omega)

end Plain

theorem toInt_eq_iff {v : Nat} (hv : v < 2 ^ 32) : toInt v = v ↔ v < 2 ^ 31 := by
  unfold toInt
  rw [Int.bmod_def]
  split <;> omega

theorem toInt_nonneg_iff {v : Nat} (hv : v < 2 ^ 32) : 0 ≤ toInt v ↔ v < 2 ^ 31 := by
  unfold toInt
  rw [Int.bmod_def]
  split <;> omega

/-- `simple_string_search` answers, and so do the functions built on it. -/
def SearchAnswers (target str : SizedString) : Prop :=
  Answers target.bytes str.bytes (simpleStringSearch target str) ∧
    Answers target.bytes str.bytes (indexOf target str) ∧
    (contains target str = true ↔ ∃ i, OccursAt target.bytes str.bytes i)

/-- The first occurrence is not at the very end, unless nothing is searched for, and its position is
    an `int`. -/
def SearchReaches (target str : SizedString) : Prop :=
  ∀ i, FirstAt target.bytes str.bytes i →
    (str.len = 0 ∨ i + str.len < target.len) ∧ i < 2 ^ 31

section Plain

variable {target str : SizedString}

theorem simpleStringSearch_of_le (hsome : str.len ≠ 0) (hle : str.len ≤ target.len) :
    simpleStringSearch target str =
      searchLoop target.bytes str.bytes 0 (target.len - str.len) := by
  rw [simpleStringSearch, if_neg hsome, if_neg (by omega)]

/-- The first occurrence is found if it is not the last position. -/
theorem simpleStringSearch_first {i : Nat} (h : FirstAt target.bytes str.bytes i)
    (hbefore : str.len = 0 ∨ i + str.len < target.len) : simpleStringSearch target str = toInt i := by
  rcases Nat.eq_zero_or_pos str.len with hnil | hsome
  · have hempty : str.bytes = [] := List.length_eq_zero_iff.mp hnil
    have hzero : FirstAt target.bytes str.bytes 0 :=
      ⟨hempty ▸ occursAt_nil (Nat.zero_le _), fun j hj => absurd hj (Nat.not_lt_zero j)⟩
    rw [simpleStringSearch, if_pos hnil, h.unique hzero]
    rfl
  · have hlt := hbefore.resolve_left (Nat.ne_of_gt hsome)
    rw [simpleStringSearch_of_le (Nat.ne_of_gt hsome) (by omega)]
    exact searchLoop_found h (Nat.zero_le i) (by omega)

theorem simpleStringSearch_last {i : Nat} (h : FirstAt target.bytes str.bytes i)
    (hsome : str.len ≠ 0) (hlast : i + str.len = target.len) :
    simpleStringSearch target str = -1 := by
  have hbytes : str.bytes.length = str.len := rfl
  have htarget : target.bytes.length = target.len := rfl
  rw [simpleStringSearch_of_le hsome (by omega)]
  exact searchLoop_none (by omega) fun j hj => h.2 j (by omega)

theorem simpleStringSearch_absent (h : ∀ i, ¬ OccursAt target.bytes str.bytes i) :
    simpleStringSearch target str = -1 := by
  have hbytes : str.bytes.length = str.len := rfl
  have htarget : target.bytes.length = target.len := rfl
  have hsome : str.len ≠ 0 := by
    intro hnil
    rw [List.length_eq_zero_iff.mp hnil] at h
    exact h 0 (occursAt_nil (Nat.zero_le _))
  by_cases hlong : str.len > target.len
  · rw [simpleStringSearch, if_neg hsome, if_pos hlong]
  · rw [simpleStringSearch_of_le hsome (by omega)]
    exact searchLoop_none (by omega) fun j _ => h j

/-- **Plain search answers** exactly if the first occurrence is not at the very end. -/
theorem search_answers_iff (target str : SizedString) :
    SearchAnswers target str ↔ SearchReaches target str := by
  rcases first_or_none target.bytes str.bytes with ⟨i, hi⟩ | hnone
  · have hroom : i + str.len ≤ target.len := hi.1.add_le
    have hshort : target.len < 2 ^ 32 := target.short
    have hreaches : SearchReaches target str ↔
        (str.len = 0 ∨ i + str.len < target.len) ∧ i < 2 ^ 31 :=
      ⟨fun h => h i hi, fun h j hj => hi.unique hj ▸ h⟩
    have hoccurs : ∃ i, OccursAt target.bytes str.bytes i := ⟨i, hi.1⟩
    rw [hreaches, SearchAnswers, contains, indexOf, hi.answers_iff, iff_true_right hoccurs,
      decide_eq_true_eq]
    by_cases hbefore : str.len = 0 ∨ i + str.len < target.len
    · rw [simpleStringSearch_first hi hbefore, ge_iff_le, toInt_eq_iff (by omega),
        toInt_nonneg_iff (by omega), and_self, and_self, and_iff_right hbefore]
    · rw [not_or] at hbefore
      rw [simpleStringSearch_last hi hbefore.1 (by omega)]
      exact iff_of_false (fun h => by omega) fun h => by omega
  · refine iff_of_true ?_ fun i hi => absurd hi.1 (hnone i)
    rw [SearchAnswers, contains, indexOf, answers_none_iff hnone, simpleStringSearch_absent hnone]
    exact ⟨rfl, rfl, iff_of_false (by decide) fun ⟨i, hi⟩ => hnone i hi⟩

/-- "ab" -/
def wholeWord : SizedString := ⟨['a'.toUInt8, 'b'.toUInt8], by decide⟩

/-- A string does not contain itself. -/
theorem own_text_not_found : ¬ SearchAnswers wholeWord wholeWord := by
  intro h
  have hnot : contains wholeWord wholeWord = false := by decide
  have hoccurs : OccursAt wholeWord.bytes wholeWord.bytes 0 := ⟨[], [], rfl, rfl⟩
  rw [SearchAnswers, hnot] at h
  exact Bool.false_ne_true (h.2.2.mpr ⟨0, hoccurs⟩)

end Plain

/-! ## The search with a table -/

inductive KmpFault
  | uninitialised
  | outside
  | overflow
  | unfinished
deriving DecidableEq, Repr

namespace Kmp

/-- `int next[]`: an entry that nothing has been written to is no number. -/
abbrev Table := List (Option Int)

def read (next : Table) (j : Int) : Except KmpFault Int :=
  if j < 0 then .error .outside
  else
    match next[j.toNat]? with
    | none => .error .outside
    | some none => .error .uninitialised
    | some (some v) => .ok v

def write (next : Table) (j : Nat) (v : Int) : Except KmpFault Table :=
  if j < next.length then .ok (next.set j (some v)) else .error .outside

def charAt (s : SizedString) (i : Nat) : Except KmpFault UInt8 :=
  match s.bytes[i]? with
  | none => .error .outside
  | some c => .ok c

/-- `++i` of an `int`. -/
def inc (i : Nat) : Except KmpFault Nat := if i + 1 < 2 ^ 31 then .ok (i + 1) else .error .overflow

/-- `while ((j >= 0) && (next[j] != str[i])) j = next[j];` -/
def backLoop (next : Table) (str : SizedString) (i : Nat) : Nat → Int → Except KmpFault Int
  | 0, _ => .error .unfinished
  | fuel + 1, j => do
    if j < 0 then return j
    else do
      let v ← read next j
      let c ← charAt str i
      if v ≠ c.toInt8.toInt then do
        let j ← read next j
        backLoop next str i fuel j
      else return j

/-- The loop over `i`.  It goes back in the table, and does not write to it. -/
def fillLoop (str : SizedString) (fuel : Nat) (next : Table) : Nat → Nat → Except KmpFault Table
  | 0, _ => .error .unfinished
  | rounds + 1, i => do
    if i < str.len then do
      let _ ← backLoop next str i fuel (i - 1)
      let i ← inc i
      fillLoop str fuel next rounds i
    else return next

def fill (fuel : Nat) (str : SizedString) : Except KmpFault Table := do
  let next ← write (List.replicate str.len none) 0 (-1)
  fillLoop str fuel next fuel 1

def searchLoop (target str : SizedString) (next : Table) : Nat → Nat → Nat → Except KmpFault Int
  | 0, _, _ => .error .unfinished
  | fuel + 1, i, j => do
    if (← charAt target i) = (← charAt str j) then do
      let i ← inc i
      let j ← inc j
      if j = str.len then return ((i : Int) - str.len).bmod (2 ^ 32)
      else if i ≥ target.len then return -1
      else searchLoop target str next fuel i j
    else do
      let j ← read next j
      if j < 0 then do
        let i ← inc i
        if i ≥ target.len then return -1
        else searchLoop target str next fuel i 0
      else if i ≥ target.len then return -1
      else searchLoop target str next fuel i j.toNat

end Kmp

def kmpStringSearch (fuel : Nat) (target str : SizedString) : Except KmpFault Int := do
  let next ← Kmp.fill fuel str
  Kmp.searchLoop target str next fuel 0 0

namespace Kmp

/-! ### The table -/

section Table

variable {str : SizedString}

theorem read_of_written {next : Table} {j : Nat} {v : Int} (h : next[j]? = some (some v)) :
    read next j = .ok v := by
  rw [read, if_neg (by omega), Int.toNat_natCast, h]

theorem charAt_of {s : SizedString} {i : Nat} {c : UInt8} (h : s.bytes[i]? = some c) :
    charAt s i = .ok c := by
  rw [charAt, h]

/-- For a pattern of one byte there is nothing to fill. -/
theorem fill_one {a : UInt8} (hs : str.bytes = [a]) (fuel : Nat) :
    fill (fuel + 1) str = .ok [some (-1)] := by
  have hlen : str.len = 1 := by rw [SizedString.len, hs]; rfl
  rw [fill, hlen]
  show fillLoop str (fuel + 1) [some (-1)] (fuel + 1) 1 = _
  rw [fillLoop, hlen]
  rfl

/-- The first round goes back no further than to the first entry. -/
theorem backLoop_first {next : Table} (hzero : next[0]? = some (some (-1))) {c : UInt8}
    (hc : str.bytes[1]? = some c) (fuel : Nat) : ∃ j, backLoop next str 1 (fuel + 2) 0 = .ok j := by
  have hread := read_of_written hzero
  rw [backLoop, if_neg (by decide), show read next 0 = _ from hread, charAt_of hc]
  show ∃ j, (if (-1 : Int) ≠ c.toInt8.toInt then backLoop next str 1 (fuel + 1) (-1) else .ok 0) =
    .ok j
  split
  · exact ⟨-1, by rw [backLoop, if_pos (by decide)]; rfl⟩
  · exact ⟨0, rfl⟩

theorem fill_two {a b : UInt8} (hs : str.bytes = [a, b]) (fuel : Nat) :
    fill (fuel + 2) str = .ok [some (-1), none] := by
  have hlen : str.len = 2 := by rw [SizedString.len, hs]; rfl
  have hfirst : [some (-1), none][0]? = some (some (-1 : Int)) := rfl
  obtain ⟨j, hback⟩ :=
    backLoop_first hfirst (show str.bytes[1]? = some b by rw [hs]; rfl) fuel
  rw [fill, hlen]
  show fillLoop str (fuel + 2) [some (-1), none] (fuel + 2) 1 = _
  rw [fillLoop, hlen, if_pos (by decide)]
  show (backLoop [some (-1), none] str 1 (fuel + 2) 0 >>= _) = _
  rw [hback]
  show fillLoop str (fuel + 2) [some (-1), none] (fuel + 1) 2 = _
  rw [fillLoop, hlen]
  rfl

/-- For a longer one the second round reads what has not been written. -/
theorem fill_long (hlen : 3 ≤ str.len) (fuel : Nat) (next : Table) : fill fuel str ≠ .ok next := by
  obtain ⟨rest, hrest⟩ := Nat.exists_eq_add_of_le' (show 2 ≤ str.len by omega)
  have hwrite : write (List.replicate str.len none) 0 (-1) =
      .ok (some (-1) :: none :: List.replicate rest none) := by
    rw [hrest]
    exact if_pos (by rw [List.length_replicate]; omega)
  rw [fill, hwrite]
  show fillLoop str fuel (some (-1) :: none :: List.replicate rest none) fuel 1 ≠ .ok next
  cases fuel with
  | zero => exact nofun
  | succ fuel =>
    rw [fillLoop, if_pos (by omega)]
    cases backLoop (some (-1) :: none :: List.replicate rest none) str 1 (fuel + 1) (1 - 1) with
    | error e => exact nofun
    | ok j =>
      -- the first round has written nothing, and `backLoop` starts with the entry 1
      show fillLoop str (fuel + 1) _ fuel 2 ≠ _
      cases fuel with
      | zero => exact nofun
      | succ fuel =>
        rw [fillLoop, if_pos (by omega), backLoop]
        exact nofun

end Table

/-! ### The search -/

section Search

variable {target str : SizedString} {next : Table} {a : UInt8}

/-- Somewhere a byte of the target is not the first one of the pattern. -/
theorem searchLoop_miss (hzero : next[0]? = some (some (-1))) (hs : str.bytes[0]? = some a)
    {i : Nat} {x : UInt8} (hx : target.bytes[i]? = some x) (hne : x ≠ a) (fuel : Nat) :
    searchLoop target str next (fuel + 1) i 0 = (inc i).bind fun i =>
      if i ≥ target.len then .ok (-1) else searchLoop target str next fuel i 0 := by
  rw [searchLoop, charAt_of hx, charAt_of hs]
  show (if x = a then _ else _) = _
  rw [if_neg hne]
  show (read next (0 : Nat) >>= _) = _
  rw [read_of_written hzero]
  rfl

/-- As long as the first byte is not met, the search goes on. -/
theorem searchLoop_skip (hzero : next[0]? = some (some (-1))) (hs : str.bytes[0]? = some a)
    {p : Nat} (hp : p < target.len) (hint : p < 2 ^ 31)
    (hnone : ∀ j < p, target.bytes[j]? ≠ some a) {i n : Nat} (hi : i + n = p) (fuel : Nat) :
    searchLoop target str next (fuel + n) i 0 = searchLoop target str next fuel p 0 := by
  induction n generalizing i with
  | zero => rw [← hi]; rfl
  | succ n ih =>
    have hlt : i < target.bytes.length := show i < target.len by omega
    have hx := List.getElem?_eq_getElem hlt
    have hne : target.bytes[i] ≠ a := fun heq => hnone i (by omega) (by rw [hx, heq])
    rw [← Nat.add_assoc, searchLoop_miss hzero hs hx hne, inc, if_pos (by omega)]
    show (if i + 1 ≥ target.len then _ else _) = _
    rw [if_neg (by omega)]
    exact ih (by omega)

/-- The first byte is met nowhere. -/
theorem searchLoop_absent (hzero : next[0]? = some (some (-1))) (hs : str.bytes[0]? = some a)
    (hsome : 0 < target.len) (hint : target.len < 2 ^ 31)
    (hnone : ∀ j < target.len, target.bytes[j]? ≠ some a) (fuel : Nat) :
    searchLoop target str next (fuel + target.len) 0 0 = .ok (-1) := by
  obtain ⟨p, hp⟩ := Nat.exists_eq_add_one_of_ne_zero (Nat.ne_of_gt hsome)
  have hskip := searchLoop_skip hzero hs (p := p) (by omega) (by omega)
    (fun j hj => hnone j (by omega)) (Nat.zero_add p) (fuel + 1)
  have hlt : p < target.bytes.length := show p < target.len by omega
  have hx := List.getElem?_eq_getElem hlt
  have hne : target.bytes[p] ≠ a := fun heq => hnone p hlt (by rw [hx, heq])
  rw [hp, show fuel + (p + 1) = fuel + 1 + p by omega, hskip, searchLoop_miss hzero hs hx hne, inc,
    if_pos (by omega)]
  exact if_pos (by omega)

/-- It is not met at any position that is an `int`. -/
theorem searchLoop_overflow (hzero : next[0]? = some (some (-1))) (hs : str.bytes[0]? = some a)
    (hlong : 2 ^ 31 ≤ target.len) (hnone : ∀ j < 2 ^ 31, target.bytes[j]? ≠ some a) {i : Nat}
    (hi : i < 2 ^ 31) (fuel : Nat) (r : Int) : searchLoop target str next fuel i 0 ≠ .ok r := by
  induction fuel generalizing i with
  | zero => exact nofun
  | succ fuel ih =>
    have hlt : i < target.bytes.length := show i < target.len by omega
    have hx := List.getElem?_eq_getElem hlt
    have hne : target.bytes[i] ≠ a := fun heq => hnone i hi (by rw [hx, heq])
    rw [searchLoop_miss hzero hs hx hne, inc]
    split
    · -- the target goes on, for it is longer than the `int`s
      show (if i + 1 ≥ target.len then _ else _) ≠ _
      rw [if_neg (by omega)]
      exact ih (by omega)
    · exact nofun

/-- The first byte is met, and there are more. -/
theorem searchLoop_meet (hs : str.bytes[0]? = some a) {p : Nat} (hx : target.bytes[p]? = some a)
    (fuel : Nat) :
    searchLoop target str next (fuel + 1) p 0 = (inc p).bind fun i =>
      if 1 = str.len then .ok (((i : Int) - str.len).bmod (2 ^ 32))
      else if i ≥ target.len then .ok (-1)
      else searchLoop target str next fuel i 1 := by
  rw [searchLoop, charAt_of hx, charAt_of hs]
  show (if a = a then _ else _) = _
  rw [if_pos rfl]
  rfl

/-- The second byte of two. -/
theorem searchLoop_second {b y : UInt8} (hs : str.bytes = [a, b]) {i : Nat}
    (hy : target.bytes[i]? = some y) (fuel : Nat) :
    searchLoop target str [some (-1), none] (fuel + 1) i 1 =
      if y = b then (inc i).bind fun i => .ok (((i : Int) - 2).bmod (2 ^ 32))
      else .error .uninitialised := by
  have hlen : str.len = 2 := by rw [SizedString.len, hs]; rfl
  have hb : str.bytes[1]? = some b := by rw [hs]; rfl
  rw [searchLoop, charAt_of hy, charAt_of hb, hlen]
  rfl

end Search

end Kmp

/-! ## When that is enough -/

/-- The search ends without a fault, however much fuel there is, and answers. -/
def KmpAgrees (target str : SizedString) : Prop :=
  ∃ r n, (∀ fuel, n ≤ fuel → kmpStringSearch fuel target str = .ok r) ∧
    Answers target.bytes str.bytes r

/-- The pattern has one byte; or it has two, and where its first one is met first there follows its
    second one, or nothing. -/
def OneEntryDoes (target str : SizedString) : Prop :=
  str.len = 1 ∨ ∃ a b, str.bytes = [a, b] ∧
    ∀ before behind, target.bytes = before ++ a :: behind → a ∉ before →
      behind = [] ∨ behind.head? = some b

/-- The positions that the search comes to are `int`s. -/
def StaysInt (target str : SizedString) : Prop :=
  target.len < 2 ^ 31 ∨ ∃ i, FirstAt target.bytes str.bytes i ∧ i + str.len < 2 ^ 31

theorem FirstAt.staysInt_iff {target str : SizedString} {i : Nat}
    (h : FirstAt target.bytes str.bytes i) : StaysInt target str ↔ i + str.len < 2 ^ 31 := by
  have hroom : i + str.len ≤ target.len := h.1.add_le
  constructor
  · rintro (hlt | ⟨j, hj, hlt⟩)
    · omega
    · rwa [h.unique hj]
  · exact fun hlt => Or.inr ⟨i, h, hlt⟩

theorem staysInt_none_iff {target str : SizedString}
    (h : ∀ i, ¬ OccursAt target.bytes str.bytes i) : StaysInt target str ↔ target.len < 2 ^ 31 :=
  or_iff_left fun ⟨i, hi, _⟩ => h i hi.1

namespace Kmp

variable {target str : SizedString} {next : Table} {a b : UInt8}

theorem agrees_iff_search (hfill : ∀ fuel, fill (fuel + 2) str = .ok next) :
    KmpAgrees target str ↔ ∃ r n, (∀ fuel, n ≤ fuel →
      searchLoop target str next fuel 0 0 = .ok r) ∧ Answers target.bytes str.bytes r := by
  have hsame : ∀ fuel, 2 ≤ fuel →
      kmpStringSearch fuel target str = searchLoop target str next fuel 0 0 := by
    intro fuel hfuel
    obtain ⟨fuel, rfl⟩ := Nat.exists_eq_add_of_le' hfuel
    rw [kmpStringSearch, hfill]
    rfl
  constructor
  · rintro ⟨r, n, hrun, hr⟩
    exact ⟨r, n + 2, fun fuel hfuel => (hsame fuel (by omega)).symm.trans (hrun fuel (by omega)), hr⟩
  · rintro ⟨r, n, hrun, hr⟩
    exact ⟨r, n + 2, fun fuel hfuel => (hsame fuel (by omega)).trans (hrun fuel (by omega)), hr⟩

/-- A search that ends agrees exactly if its answer is right. -/
theorem agrees_iff_answers (hfill : ∀ fuel, fill (fuel + 2) str = .ok next) {n : Nat} {r : Int}
    (h : ∀ fuel, searchLoop target str next (fuel + n) 0 0 = .ok r) :
    KmpAgrees target str ↔ Answers target.bytes str.bytes r := by
  rw [agrees_iff_search hfill]
  constructor
  · rintro ⟨r', n', hrun, hr⟩
    -- with fuel enough for both it is one run
    have hsame := (hrun (n' + n) (by omega)).symm.trans (h n')
    rwa [Except.ok.inj hsame] at hr
  · intro hr
    refine ⟨r, n, fun fuel hfuel => ?_, hr⟩
    obtain ⟨fuel, rfl⟩ := Nat.exists_eq_add_of_le' hfuel
    exact h fuel

/-- One that does not end well, does not. -/
theorem not_agrees (hfill : ∀ fuel, fill (fuel + 2) str = .ok next) {n : Nat}
    (h : ∀ fuel r, searchLoop target str next (fuel + n) 0 0 ≠ .ok r) : ¬ KmpAgrees target str := by
  rw [agrees_iff_search hfill]
  rintro ⟨r, n', hrun, -⟩
  exact h n' r (hrun _ (by omega))

theorem getElem?_ne_of_not_mem {before rest : List UInt8} (htarget : target.bytes = before ++ rest)
    (h : a ∉ before) : ∀ j < before.length, target.bytes[j]? ≠ some a := by
  intro j hj hget
  rw [htarget, List.getElem?_append_left hj] at hget
  exact h (List.mem_of_getElem? hget)

/-- The first byte of the pattern is not in the target. -/
theorem agrees_absent (hfill : ∀ fuel, fill (fuel + 2) str = .ok next)
    (hzero : next[0]? = some (some (-1))) (hs : str.bytes[0]? = some a) (hsome : target.bytes ≠ [])
    (habsent : a ∉ target.bytes) (hnone : ∀ i, ¬ OccursAt target.bytes str.bytes i) :
    KmpAgrees target str ↔ StaysInt target str := by
  have hpos : 0 < target.len := List.length_pos_of_ne_nil hsome
  have hmiss : ∀ j, target.bytes[j]? ≠ some a := fun j hj => habsent (List.mem_of_getElem? hj)
  rw [staysInt_none_iff hnone]
  rcases Nat.lt_or_ge target.len (2 ^ 31) with hlt | hge
  · rw [agrees_iff_answers hfill (searchLoop_absent hzero hs hpos hlt fun j _ => hmiss j),
      answers_none_iff hnone]
    exact iff_of_true rfl hlt
  · refine iff_of_false (not_agrees (n := 0) hfill fun fuel r => ?_) (by omega)
    exact searchLoop_overflow hzero hs hge (fun j _ => hmiss j) (by decide) _ r

/-- It is met, and as far as that the search goes on. -/
theorem searchLoop_reach (hzero : next[0]? = some (some (-1))) (hs : str.bytes[0]? = some a)
    {before behind : List UInt8} (htarget : target.bytes = before ++ a :: behind) (h : a ∉ before)
    (hint : before.length < 2 ^ 31) (fuel : Nat) :
    searchLoop target str next (fuel + 1 + before.length) 0 0 = (inc before.length).bind fun i =>
      if 1 = str.len then .ok (((i : Int) - str.len).bmod (2 ^ 32))
      else if i ≥ target.len then .ok (-1)
      else searchLoop target str next fuel i 1 := by
  have hmeet : target.bytes[before.length]? = some a := by
    rw [htarget, List.getElem?_append_right (Nat.le_refl _), Nat.sub_self]
    rfl
  have hlt : before.length < target.len := by
    show before.length < target.bytes.length
    rw [htarget, List.length_append, List.length_cons]
    omega
  rw [searchLoop_skip hzero hs hlt hint (getElem?_ne_of_not_mem htarget h) (Nat.zero_add _)]
  exact searchLoop_meet hs hmeet fuel

theorem inc_eq_ok {i : Nat} (h : i + 1 < 2 ^ 31) : inc i = .ok (i + 1) := if_pos h

theorem inc_eq_error {i : Nat} (h : ¬ i + 1 < 2 ^ 31) : inc i = .error .overflow := if_neg h

/-- Beyond the `int`s nothing is met. -/
theorem not_agrees_of_far (hfill : ∀ fuel, fill (fuel + 2) str = .ok next)
    (hzero : next[0]? = some (some (-1))) (hs : str.bytes[0]? = some a)
    {before behind : List UInt8} (htarget : target.bytes = before ++ a :: behind) (h : a ∉ before)
    (hfar : ¬ before.length + 1 < 2 ^ 31) : ¬ KmpAgrees target str := by
  have hlen : target.len = before.length + (behind.length + 1) := by
    show target.bytes.length = _
    rw [htarget, List.length_append, List.length_cons]
  have hmiss := getElem?_ne_of_not_mem htarget h
  rcases Nat.lt_or_ge before.length (2 ^ 31) with hint | hge
  · refine not_agrees (n := 1 + before.length) hfill fun fuel r => ?_
    rw [← Nat.add_assoc, searchLoop_reach hzero hs htarget h hint, inc_eq_error hfar]
    exact nofun
  · refine not_agrees (n := 0) hfill fun fuel r => ?_
    exact searchLoop_overflow hzero hs (by omega) (fun j hj => hmiss j (by omega)) (by decide) _ r

/-! ### By the length of the pattern -/

theorem toInt_sub {i n : Nat} (h : i + n < 2 ^ 31) :
    (((i + n : Nat) : Int) - (n : Nat)).bmod (2 ^ 32) = i := by
  rw [Int.bmod_def]
  split <;> omega

/-- There is one way only to go as far as the first `a`. -/
theorem first_split_unique {before before' behind behind' : List UInt8}
    (hsame : before ++ a :: behind = before' ++ a :: behind') (h : a ∉ before) (h' : a ∉ before') :
    before = before' ∧ behind = behind' := by
  have hfirst := firstAt_of_prefix h (List.prefix_append [a] behind)
  have hfirst' := firstAt_of_prefix h' (List.prefix_append [a] behind')
  rw [List.singleton_append] at hfirst hfirst'
  rw [← hsame] at hfirst'
  obtain ⟨hbefore, hbehind⟩ := List.append_inj hsame (hfirst.unique hfirst')
  exact ⟨hbefore, List.tail_eq_of_cons_eq hbehind⟩

theorem oneEntryDoes_pair (hs : str.bytes = [a, b]) {before behind : List UInt8}
    (htarget : target.bytes = before ++ a :: behind) (h : a ∉ before) :
    OneEntryDoes target str ↔ behind = [] ∨ behind.head? = some b := by
  have hlen : str.len ≠ 1 := by
    rw [SizedString.len, hs]
    exact (by decide : (2 : Nat) ≠ 1)
  constructor
  · rintro (hone | ⟨a', b', hs', hnext⟩)
    · exact absurd hone hlen
    · rw [hs] at hs'
      obtain ⟨rfl, rfl⟩ : a = a' ∧ b = b' := by simpa using hs'
      exact hnext before behind htarget h
  · intro hbehind
    refine Or.inr ⟨a, b, hs, fun before' behind' htarget' h' => ?_⟩
    obtain ⟨-, rfl⟩ := first_split_unique (htarget.symm.trans htarget') h h'
    exact hbehind

/-- One byte that is met. -/
theorem agrees_single (hs : str.bytes = [a]) {before behind : List UInt8}
    (htarget : target.bytes = before ++ a :: behind) (h : a ∉ before) :
    KmpAgrees target str ↔ StaysInt target str := by
  have hfill : ∀ fuel, fill (fuel + 2) str = .ok [some (-1)] := fun fuel => fill_one hs _
  have hget : str.bytes[0]? = some a := by rw [hs]; rfl
  have hlen : str.len = 1 := by rw [SizedString.len, hs]; rfl
  have hfirst : FirstAt target.bytes str.bytes before.length := by
    rw [htarget, hs]
    exact firstAt_of_prefix h (List.prefix_append [a] behind)
  rw [FirstAt.staysInt_iff hfirst, hlen]
  by_cases hnear : before.length + 1 < 2 ^ 31
  · have hrun : ∀ fuel, searchLoop target str [some (-1)] (fuel + (1 + before.length)) 0 0 =
        .ok before.length := by
      intro fuel
      rw [← Nat.add_assoc, searchLoop_reach rfl hget htarget h (by omega), inc_eq_ok hnear, hlen]
      exact congrArg Except.ok (toInt_sub hnear)
    rw [agrees_iff_answers hfill hrun, hfirst.answers_iff]
    exact iff_of_true rfl hnear
  · exact iff_of_false (not_agrees_of_far hfill rfl hget htarget h hnear) hnear

section Pair

variable {before behind : List UInt8}

/-- Two bytes, and the first one is met: what the search does then. -/
theorem searchLoop_pair (hs : str.bytes = [a, b]) (htarget : target.bytes = before ++ a :: behind)
    (h : a ∉ before) (hnear : before.length + 1 < 2 ^ 31) (fuel : Nat) :
    searchLoop target str [some (-1), none] (fuel + 1 + before.length) 0 0 =
      if behind = [] then .ok (-1)
      else searchLoop target str [some (-1), none] fuel (before.length + 1) 1 := by
  have hget : str.bytes[0]? = some a := by rw [hs]; rfl
  have hlen : str.len = 2 := by rw [SizedString.len, hs]; rfl
  have hrest : before.length + 1 ≥ target.len ↔ behind = [] := by
    rw [← List.length_eq_zero_iff, SizedString.len, htarget, List.length_append, List.length_cons]
    omega
  rw [searchLoop_reach rfl hget htarget h (by omega), inc_eq_ok hnear, hlen]
  exact if_congr hrest rfl rfl

/-- There is no more of the target. -/
theorem agrees_pair_end (hs : str.bytes = [a, b]) (htarget : target.bytes = before ++ [a])
    (h : a ∉ before) : KmpAgrees target str ↔ StaysInt target str := by
  have hget : str.bytes[0]? = some a := by rw [hs]; rfl
  have hlen : target.len = before.length + 1 := by
    rw [SizedString.len, htarget, List.length_append, List.length_singleton]
  have hnone : ∀ i, ¬ OccursAt target.bytes str.bytes i := by
    intro i hi
    have hroom := hi.add_le
    rw [htarget, hs, List.length_append, List.length_cons, List.length_singleton] at hroom
    -- an occurrence would begin in front of the first `a`
    rw [htarget, hs] at hi
    exact not_occursAt_of_lt h (by rw [List.length_singleton] at hroom; omega) hi
  rw [staysInt_none_iff hnone, hlen]
  by_cases hnear : before.length + 1 < 2 ^ 31
  · have hrun : ∀ fuel, searchLoop target str [some (-1), none] (fuel + (1 + before.length)) 0 0 =
        .ok (-1) := by
      intro fuel
      rw [← Nat.add_assoc, searchLoop_pair hs htarget h hnear, if_pos rfl]
    rw [agrees_iff_answers (fill_two hs) hrun, answers_none_iff hnone]
    exact iff_of_true rfl hnear
  · exact iff_of_false (not_agrees_of_far (fill_two hs) rfl hget htarget h hnear) hnear

/-- There is, and the second byte is compared. -/
theorem searchLoop_pair_second {y : UInt8} (hs : str.bytes = [a, b])
    (htarget : target.bytes = before ++ a :: y :: behind) (h : a ∉ before)
    (hnear : before.length + 1 < 2 ^ 31) (fuel : Nat) :
    searchLoop target str [some (-1), none] (fuel + (2 + before.length)) 0 0 =
      if y = b then
        (inc (before.length + 1)).bind fun i => .ok (((i : Int) - 2).bmod (2 ^ 32))
      else .error .uninitialised := by
  have hy : target.bytes[before.length + 1]? = some y := by
    rw [htarget, List.getElem?_append_right (by omega), Nat.add_sub_cancel_left]
    rfl
  rw [show fuel + (2 + before.length) = fuel + 1 + 1 + before.length by omega,
    searchLoop_pair hs htarget h hnear, if_neg (List.cons_ne_nil y behind),
    searchLoop_second hs hy]

theorem agrees_pair_found (hs : str.bytes = [a, b])
    (htarget : target.bytes = before ++ a :: b :: behind) (h : a ∉ before) :
    KmpAgrees target str ↔ StaysInt target str := by
  have hget : str.bytes[0]? = some a := by rw [hs]; rfl
  have hlen : str.len = 2 := by rw [SizedString.len, hs]; rfl
  have hfirst : FirstAt target.bytes str.bytes before.length := by
    rw [htarget, hs]
    exact firstAt_of_prefix h (List.prefix_append [a, b] behind)
  rw [FirstAt.staysInt_iff hfirst, hlen]
  by_cases hnear : before.length + 2 < 2 ^ 31
  · have hrun : ∀ fuel, searchLoop target str [some (-1), none] (fuel + (2 + before.length)) 0 0 =
        .ok before.length := by
      intro fuel
      have hstart : (((before.length + 1 + 1 : Nat) : Int) - 2).bmod (2 ^ 32) = before.length :=
        @toInt_sub before.length 2 hnear
      rw [searchLoop_pair_second hs htarget h (by omega), if_pos rfl, inc_eq_ok hnear]
      show Except.ok _ = _
      rw [hstart]
    rw [agrees_iff_answers (fill_two hs) hrun, hfirst.answers_iff]
    exact iff_of_true rfl hnear
  · refine iff_of_false ?_ hnear
    by_cases hmet : before.length + 1 < 2 ^ 31
    · refine not_agrees (fill_two hs) (n := 2 + before.length) fun fuel r => ?_
      rw [searchLoop_pair_second hs htarget h hmet, if_pos rfl, inc_eq_error (by omega)]
      exact nofun
    · exact not_agrees_of_far (fill_two hs) rfl hget htarget h hmet

/-- It is another one, and the entry for it is read. -/
theorem not_agrees_pair {y : UInt8} (hs : str.bytes = [a, b])
    (htarget : target.bytes = before ++ a :: y :: behind) (h : a ∉ before) (hyb : y ≠ b) :
    ¬ KmpAgrees target str := by
  have hget : str.bytes[0]? = some a := by rw [hs]; rfl
  by_cases hnear : before.length + 1 < 2 ^ 31
  · refine not_agrees (fill_two hs) (n := 2 + before.length) fun fuel r => ?_
    rw [searchLoop_pair_second hs htarget h hnear, if_neg hyb]
    exact nofun
  · exact not_agrees_of_far (fill_two hs) rfl hget htarget h hnear

end Pair

/-- Three bytes or more. -/
theorem not_agrees_long (hlen : 3 ≤ str.len) : ¬ KmpAgrees target str := by
  rintro ⟨r, n, hrun, -⟩
  have hr := hrun n (Nat.le_refl n)
  rw [kmpStringSearch] at hr
  cases hfill : fill n str with
  | error e =>
    rw [hfill] at hr
    exact absurd hr nofun
  | ok next => exact fill_long hlen n next hfill

end Kmp

/-- **The search with a table agrees with the plain one** exactly if the entry that is written does,
    and the positions are `int`s. -/
theorem kmp_agrees_iff (target str : SizedString) (ht : target.bytes ≠ []) (hs : str.bytes ≠ []) :
    KmpAgrees target str ↔ OneEntryDoes target str ∧ StaysInt target str := by
  obtain ⟨a, rest, hbytes⟩ := List.exists_cons_of_ne_nil hs
  have hget : str.bytes[0]? = some a := by rw [hbytes]; rfl
  have hlen : str.len = rest.length + 1 := by rw [SizedString.len, hbytes, List.length_cons]
  have habsent : a ∉ target.bytes → ∀ i, ¬ OccursAt target.bytes str.bytes i := by
    intro hmem
    rw [hbytes]
    exact not_occursAt_of_not_mem hmem
  -- by the length of the pattern, and whether its first byte is met
  rcases rest with _ | ⟨b, _ | ⟨c, rest⟩⟩
  · have hone : OneEntryDoes target str := Or.inl hlen
    rw [and_iff_right hone]
    by_cases hmem : a ∈ target.bytes
    · obtain ⟨before, behind, htarget, hfirst⟩ := List.eq_append_cons_of_mem hmem
      exact Kmp.agrees_single hbytes htarget hfirst
    · exact Kmp.agrees_absent (fun _ => Kmp.fill_one hbytes _) rfl hget ht hmem (habsent hmem)
  · by_cases hmem : a ∈ target.bytes
    · obtain ⟨before, behind, htarget, hfirst⟩ := List.eq_append_cons_of_mem hmem
      rw [Kmp.oneEntryDoes_pair hbytes htarget hfirst]
      rcases behind with _ | ⟨y, behind⟩
      · rw [Kmp.agrees_pair_end hbytes htarget hfirst]
        exact (and_iff_right (Or.inl rfl)).symm
      · by_cases hyb : y = b
        · subst hyb
          rw [Kmp.agrees_pair_found hbytes htarget hfirst]
          exact (and_iff_right (Or.inr rfl)).symm
        · refine iff_of_false (Kmp.not_agrees_pair hbytes htarget hfirst hyb) ?_
          rintro ⟨hnil | hhead, -⟩
          · exact List.cons_ne_nil y behind hnil
          · exact hyb (Option.some.inj hhead)
    · have hone : OneEntryDoes target str := by
        refine Or.inr ⟨a, b, hbytes, fun before behind htarget _ => absurd ?_ hmem⟩
        rw [htarget]
        exact List.mem_append_right before List.mem_cons_self
      rw [and_iff_right hone]
      exact Kmp.agrees_absent (Kmp.fill_two hbytes) rfl hget ht hmem (habsent hmem)
  · have hlong : 3 ≤ str.len := by
      rw [hlen, List.length_cons, List.length_cons]
      omega
    refine iff_of_false (Kmp.not_agrees_long hlong) ?_
    rintro ⟨hone | ⟨a', b', hpair, -⟩, -⟩
    · omega
    · rw [SizedString.len, hpair] at hlong
      exact absurd hlong (Nat.not_le.mpr (Nat.lt_succ_self 2))

/-- "aab" -/
def twoRuns : SizedString := ⟨['a'.toUInt8, 'a'.toUInt8, 'b'.toUInt8], by decide⟩

/-- A target in which the second byte of the pattern is met where it should be. -/
theorem kmp_finds_whole_word : KmpAgrees wholeWord wholeWord := by
  refine (kmp_agrees_iff wholeWord wholeWord (by decide) (by decide)).mpr ⟨?_, Or.inl (by decide)⟩
  refine Or.inr ⟨'a'.toUInt8, 'b'.toUInt8, rfl, fun before behind htarget hfirst => Or.inr ?_⟩
  have hsplit : [] ++ 'a'.toUInt8 :: ['b'.toUInt8] = before ++ 'a'.toUInt8 :: behind := htarget
  obtain ⟨-, rfl⟩ := Kmp.first_split_unique hsplit List.not_mem_nil hfirst
  rfl

/-- One in which it is not: the search for "ab" in "aab" reads an entry that has not been written. -/
theorem kmp_misses_second_run : ¬ KmpAgrees twoRuns wholeWord :=
  @Kmp.not_agrees_pair twoRuns wholeWord 'a'.toUInt8 'b'.toUInt8 [] ['b'.toUInt8] 'a'.toUInt8
    rfl rfl List.not_mem_nil (by decide)

end Monsys
