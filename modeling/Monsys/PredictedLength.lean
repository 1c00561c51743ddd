/-
  What `getlen` predicts, and what `encode` writes.

  Every type has a fixed part, which the two count alike, and a text: the strings of a description,
  a string, a fixed binary.  They count texts differently.  `getlen` takes the whole length as an
  `int`; `encode` keeps what a 16-bit length can say (`kept`), and a fixed binary has a zero behind
  it.  Of a vector `getlen` looks at the first element alone.

  So the prediction is right where the two countings agree: `CodecVal.Agrees`.
-/
import Monsys.CodecTypes
import Monsys.IdInfoRoundTrip

namespace Monsys

open Wire

/-! ## Wrapping sums -/

theorem toInt32_eq_bmod (n : Nat) : toInt32 n = Int.bmod n (2 ^ 32) := by
  rw [toInt32, Int.bmod_def]
  push_cast
  split <;> split <;> omega

theorem toInt32_inj {a b : Nat} : toInt32 a = toInt32 b ↔ a % 2 ^ 32 = b % 2 ^ 32 := by
  unfold toInt32
  split <;> split <;> omega

theorem addInt32_toInt32 (a b : Nat) : addInt32 (toInt32 a) (toInt32 b) = toInt32 (a + b) := by
  simp only [addInt32, toInt32_eq_bmod, Int.bmod_add_bmod, Int.add_bmod_bmod, Int.natCast_add]

theorem mulInt32_toInt32 (a b : Nat) : mulInt32 (toInt32 a) (toInt32 b) = toInt32 (a * b) := by
  simp only [mulInt32, toInt32_eq_bmod, Int.bmod_mul_bmod, Int.mul_bmod_bmod, Int.natCast_mul]

/-! ## Fixed parts and texts -/

namespace ElemType

/-- The bytes that every value of the type takes. -/
def fixedLen : ElemType → Nat
  | byte => 1
  | integer16 => 2
  | integer32 => 4
  | string => 1
  | fixedBinary => 0
  | itemIdInfo => 5
  | header => 7

/-- The length of a value's texts. -/
def text : (t : ElemType) → t.Val → Nat
  | string, v => v.length
  | fixedBinary, v => v.data.length
  | itemIdInfo, v => v.name.length + v.desc.length + v.formatter.length
  | _, _ => 0

/-- The same with each length in 16 bits. -/
def kept : (t : ElemType) → t.Val → Nat
  | string, v => v.length % 2 ^ 16
  | fixedBinary, v => v.data.length % 2 ^ 16
  | itemIdInfo, v => v.name.length % 2 ^ 16 + v.desc.length % 2 ^ 16 + v.formatter.length % 2 ^ 16
  | _, _ => 0

theorem getlen_eq (t : ElemType) (v : t.Val) : t.getlen v = toInt32 (t.fixedLen + t.text v) := by
  cases t with
  | itemIdInfo =>
    show getlenItemIdInfo v = _
    have hone : (1 : Int) = toInt32 1 := rfl
    simp only [getlenItemIdInfo, getlenString, hone, addInt32_toInt32]
    congr 1
    simp only [fixedLen, text]
    omega
  | fixedBinary =>
    show toInt32 v.data.length = toInt32 (0 + v.data.length)
    rw [Nat.zero_add]
  | _ => rfl

theorem bytes_length (t : ElemType) (v : t.Val) :
    (t.bytes v).length = t.fixedLen + t.kept v := by
  cases t with
  | string =>
    show (stringBytes v).length = 1 + v.length % 2 ^ 16
    rw [stringBytes_length, Nat.add_comm]
  | fixedBinary =>
    show (v.data.take (v.data.length % 2 ^ 16)).length = 0 + v.data.length % 2 ^ 16
    rw [v.bytes_length, Nat.zero_add]
  | itemIdInfo =>
    show (itemIdInfoBytes v).length = _
    simp only [itemIdInfoBytes, List.length_append, List.length_singleton, List.length_nil,
      stringBytes_length, fixedLen, kept]
    omega
  | _ => rfl

theorem kept_le (t : ElemType) (v : t.Val) : t.kept v ≤ 3 * 65535 := by
  cases t <;> simp only [kept] <;> omega

/-- The elements of a vector. -/
theorem flatMap_bytes_length (t : ElemType) (vs : List t.Val) :
    (vs.flatMap t.bytes).length = vs.length * t.fixedLen + (vs.map t.kept).sum := by
  induction vs with
  | nil =>
    simp only [List.flatMap_nil, List.map_nil, List.sum_nil, List.length_nil, Nat.zero_mul,
      Nat.add_zero]
  | cons v vs ih =>
    rw [List.flatMap_cons, List.length_append, ih, t.bytes_length, List.length_cons,
      List.map_cons, List.sum_cons, Nat.succ_mul]
    omega

theorem sum_kept_le (t : ElemType) (vs : List t.Val) :
    (vs.map t.kept).sum ≤ vs.length * (3 * 65535) := by
  induction vs with
  | nil =>
    rw [List.map_nil, List.sum_nil]
    exact Nat.zero_le _
  | cons v vs ih =>
    have hv := t.kept_le v
    rw [List.map_cons, List.sum_cons, List.length_cons, Nat.succ_mul]
    omega

/-- A vector is predicted to consist of its first element, over and over. -/
theorem getlenVector_cons (t : ElemType) (v : t.Val) (vs : List t.Val) :
    getlenVector t.getlen (v :: vs) =
      toInt32 (1 + (v :: vs).length * (t.fixedLen + t.text v)) := by
  have hone : (1 : Int) = toInt32 1 := rfl
  rw [getlenVector, t.getlen_eq, hone, mulInt32_toInt32, addInt32_toInt32]

end ElemType

/-! ## Agreement -/

namespace CodecVal

/-- The vectors that a count byte can count. -/
def Countable : CodecVal → Prop
  | elem _ _ => True
  | vector _ vs => vs.length ≤ 255

/-- The text that `getlen` counts is what is kept of it, and `more`. -/
def Agrees : CodecVal → Nat → Prop
  | elem t v, more => t.text v % 2 ^ 32 = t.kept v + more
  | vector _ [], more => more = 0
  | vector t (v :: vs), more =>
    ((v :: vs).length * t.text v) % 2 ^ 32 = ((v :: vs).map t.kept).sum + more

theorem getlen_eq_iff {v : CodecVal} (hcount : v.Countable) {more : Nat} (hmore : more ≤ 1) :
    v.getlen = toInt32 (v.bytes.length + more) ↔ v.Agrees more := by
  match v with
  | elem t v =>
    have hkept := t.kept_le v
    have hfixed : t.fixedLen ≤ 7 := by cases t <;> decide
    show t.getlen v = toInt32 ((t.bytes v).length + more) ↔ t.text v % 2 ^ 32 = t.kept v + more
    rw [t.getlen_eq, t.bytes_length, toInt32_inj]
    omega
  | vector t [] =>
    show toInt32 1 = toInt32 (1 + more) ↔ more = 0
    rw [toInt32_inj]
    omega
  | vector t (v :: vs) =>
    have hlen : (v :: vs).length ≤ 255 := hcount
    have hsum := t.sum_kept_le (v :: vs)
    have hbytes := t.flatMap_bytes_length (v :: vs)
    have hfixed : (v :: vs).length * t.fixedLen ≤ 255 * 7 :=
      Nat.mul_le_mul hlen (by cases t <;> decide)
    show getlenVector t.getlen (v :: vs) =
        toInt32 (((v :: vs).flatMap t.bytes).length + 1 + more) ↔
      ((v :: vs).length * t.text v) % 2 ^ 32 = ((v :: vs).map t.kept).sum + more
    rw [t.getlenVector_cons, toInt32_inj, hbytes, Nat.mul_add]
    omega

theorem bytes_length_lt {v : CodecVal} (hcount : v.Countable) : v.bytes.length < 2 ^ 30 := by
  cases v with
  | elem t v =>
    have hkept := t.kept_le v
    have hfixed : t.fixedLen ≤ 7 := by cases t <;> decide
    show (t.bytes v).length < _
    rw [t.bytes_length]
    omega
  | vector t vs =>
    have hlen : vs.length ≤ 255 := hcount
    have hsum := t.sum_kept_le vs
    have hfixed : vs.length * t.fixedLen ≤ 255 * 7 :=
      Nat.mul_le_mul hlen (by cases t <;> decide)
    rw [bytes, List.length_cons, t.flatMap_bytes_length]
    omega

theorem stray_length_le (v : CodecVal) : v.stray.length ≤ 1 := by
  match v with
  | elem t v => exact (t.leaves v).stray_le
  | vector t [] => exact Nat.zero_le 1
  | vector t (v :: _) => exact (t.leaves v).stray_le

/-- **The prediction** is the value that `encode` returns exactly if the countings agree, and the
    number of bytes written if they do so with the byte behind a fixed binary. -/
theorem getlen_iff {v : CodecVal} (hcount : v.Countable) {n : Nat} (hn : n < 2 ^ 32)
    (hroom : v.bytes.length ≤ n) :
    0 ≤ (v.encode n).rv ∧ (v.getlen = (v.encode n).rv ↔ v.Agrees 0) ∧
      (v.getlen = (v.encode n).out.length ↔ v.Agrees v.stray.length) := by
  have hlt := bytes_length_lt hcount
  have hstray := v.stray_length_le
  have hwrites := (v.encode_leaves hn).1 (v.room_of_le hn hroom)
  have hrv : toInt32 v.bytes.length = v.bytes.length := toInt32_of_lt (by omega)
  have hout : ((v.bytes ++ v.stray).length : Int) = toInt32 (v.bytes.length + v.stray.length) := by
    rw [toInt32_of_lt (by omega), List.length_append]
  rw [hwrites]
  refine ⟨?_, getlen_eq_iff hcount (Nat.zero_le 1), ?_⟩
  · show 0 ≤ toInt32 v.bytes.length
    omega
  · show v.getlen = ((v.bytes ++ v.stray).length : Int) ↔ _
    rw [hout]
    exact getlen_eq_iff hcount hstray

/-- A string agrees if its length, as an `int`, is one of 16 bits. -/
theorem string_agrees_iff (s : List UInt8) :
    (elem .string s).Agrees 0 ↔ s.length % 2 ^ 32 < 2 ^ 16 := by
  show s.length % 2 ^ 32 = s.length % 2 ^ 16 + 0 ↔ _
  omega

/-- A fixed binary agrees if its length is one of 16 bits, and never with the zero behind it. -/
theorem fixedBinary_agrees_iff (v : FixedBinary) :
    ((elem .fixedBinary v).Agrees 0 ↔ v.data.length < 2 ^ 16) ∧ ¬ (elem .fixedBinary v).Agrees 1 := by
  have hlt := v.len_lt
  constructor
  · show v.data.length % 2 ^ 32 = v.data.length % 2 ^ 16 + 0 ↔ _
    omega
  · show ¬ v.data.length % 2 ^ 32 = v.data.length % 2 ^ 16 + 1
    omega

end CodecVal

/-! ## The body of a message -/

/-- `getBodyLen` of `ZZBUpdateIdInfoReq`: an `int` as a `uint16_t`. -/
def ZZBUpdateIdInfoReq.getBodyLen (m : ZZBUpdateIdInfoReq) : UInt16 :=
  UInt16.ofInt (getlenVector getlenItemIdInfo m.idList)

/-- The first description's size, over and over, is in 16 bits that of all of them. -/
def ZZBUpdateIdInfoReq.BodyAgrees (m : ZZBUpdateIdInfoReq) : Prop :=
  match m.idList with
  | [] => True
  | v :: vs =>
    (1 + (v :: vs).length * (5 + ElemType.itemIdInfo.text v)) % 2 ^ 16 =
      1 + (v :: vs).length * 5 + ((v :: vs).map ElemType.itemIdInfo.kept).sum

theorem ofInt_toInt32 (n : Nat) : (UInt16.ofInt (toInt32 n)).toNat = n % 2 ^ 16 := by
  rw [toInt32]
  split <;> simp [UInt16.ofInt] <;> omega

theorem ZZBUpdateIdInfoReq.getBodyLen_iff (m : ZZBUpdateIdInfoReq) :
    m.getBodyLen.toNat = (idListBytes m.idList).length ↔ m.BodyAgrees := by
  have hbytes : (idListBytes m.idList).length =
      1 + m.idList.length * 5 + (m.idList.map ElemType.itemIdInfo.kept).sum := by
    rw [idListBytes, List.length_cons, Nat.add_comm, Nat.add_assoc]
    exact congrArg (1 + ·) (ElemType.itemIdInfo.flatMap_bytes_length m.idList)
  rw [hbytes, BodyAgrees, getBodyLen]
  cases m.idList with
  | nil => exact iff_of_true rfl trivial
  | cons v vs =>
    have hpredicted : getlenVector getlenItemIdInfo (v :: vs) =
        toInt32 (1 + (v :: vs).length * (5 + ElemType.itemIdInfo.text v)) :=
      ElemType.itemIdInfo.getlenVector_cons v vs
    rw [hpredicted, ofInt_toInt32]

/-- **Predicted and written lengths.**  For every value whose count a count byte can hold, and
    every buffer with room for it, `encode` succeeds, and `getlen` is what it returns exactly if the
    countings agree, what it writes exactly if they do with the byte behind.  `getBodyLen` is the
    size of the list exactly if the first description's says that of all of them. -/
theorem getlen_predicts_iff (v : CodecVal) (m : ZZBUpdateIdInfoReq) {n : Nat} (hn : n < 2 ^ 32) :
    (v.Countable → v.bytes.length ≤ n →
      0 ≤ (v.encode n).rv ∧ (v.getlen = (v.encode n).rv ↔ v.Agrees 0) ∧
        (v.getlen = (v.encode n).out.length ↔ v.Agrees v.stray.length)) ∧
    (m.getBodyLen.toNat = (idListBytes m.idList).length ↔ m.BodyAgrees) ∧
    ((idListBytes m.idList).length ≤ n →
      (encodeVector encodeItemIdInfo m.idList n).out = idListBytes m.idList) := by
  refine ⟨fun hcount hroom => CodecVal.getlen_iff hcount hn hroom, ?_, ?_⟩
  · exact m.getBodyLen_iff
  · intro hroom
    let v := CodecVal.vector .itemIdInfo m.idList
    have hstray : v.stray = [] := by
      show (CodecVal.vector .itemIdInfo m.idList).stray = []
      cases m.idList <;> rfl
    have hwrites := (v.encode_leaves hn).1 (v.room_of_le hn hroom)
    rw [hstray, List.append_nil] at hwrites
    exact congrArg Wrote.out hwrites

/-- A word of five letters. -/
theorem getlen_predicts_word :
    let v := CodecVal.elem .string [0x68, 0x65, 0x6C, 0x6C, 0x6F]
    0 ≤ (v.encode 6).rv ∧ (v.getlen = (v.encode 6).rv ↔ v.Agrees 0) ∧
      (v.getlen = (v.encode 6).out.length ↔ v.Agrees v.stray.length) :=
  (getlen_predicts_iff (.elem .string [0x68, 0x65, 0x6C, 0x6C, 0x6F])
    ⟨⟨1, 0, 0, 9⟩, []⟩ (by decide)).1 trivial (by decide)

/-- Two strings, the first of them empty: three bytes are predicted, and four are written. -/
theorem getlen_two_strings :
    let v := CodecVal.vector .string [[], [0x61]]
    v.Countable ∧ v.getlen = 3 ∧ v.encode 16 = ⟨4, [2, 0, 0x61, 0]⟩ ∧
      v.getlen ≠ (v.encode 16).rv := by
  refine ⟨?_, by decide, by decide, by decide⟩
  show 2 ≤ 255
  decide

end Monsys
