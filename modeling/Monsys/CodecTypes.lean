/-
  The codec types of `libframework/zcodecpp.h`, `zcodec.c` and `server/zzigbee_codec.h`.

  `zcodecpp.h` overloads `encode`, `decode` and `getlen` for integers, `std::string`,
  `fixed_binary_t` and `std::vector<T>`; `zzigbee_codec.h` adds `zb_item_id_info_t` and `ZZBHeader`.
  An `ElemType` names a type that is no vector, and `CodecVal` is a value of any of the types, so
  that something can be said of all encoders at once.

  1. **The codecs that `Codec.lean` has not** — 32-bit integers, the C string of `zcodec.c`,
     `fixed_binary_t` and `ZZBHeader`.
  2. **Types and values** — `encode` and `getlen` for each.
  3. **Layout** — the bytes that `encode` counts, the one that it may write behind them, the room
     it asks for, and the buffer sizes at which it writes behind the end.
  4. **Each encoder keeps to its layout** — `ElemType.leaves`, `ElemType.bounded`.

  Sums of `int` wrap.
-/
import Monsys.Codec
import Monsys.Lib.Room

namespace Monsys

open Wire

/-! ## 32-bit integers, C strings -/

/-- `z_encode_integer32`. -/
def zEncodeInteger32 (val : UInt32) : Encoder := fun bufLen =>
  if bufLen < 4 then ⟨-1, []⟩ else ⟨4, be32 val⟩

/-- `z_decode_integer32`. -/
def zDecodeInteger32 : Decoder UInt32 := fun buf bufLen =>
  if bufLen < 4 then .error (.err (-1))
  else match buf with
    | b₃ :: b₂ :: b₁ :: b₀ :: _ => .ok (4, ofBe32 b₃ b₂ b₁ b₀)
    | _ => .error .fault

/-- The loop of `z_decode_string`, and the check behind it: the memory is read before `buf_len` is
    looked at. -/
def zScanString (bufLen strLen : Nat) : List UInt8 → Except Stop Nat
  | [] => .error .fault
  | b :: rest =>
    if b ≠ 0 ∧ 0 < bufLen then zScanString (bufLen - 1) (strLen + 1) rest
    else if b ≠ 0 then .error (.err (-1))
    else .ok strLen

/-- `z_decode_string`. -/
def zDecodeString : Decoder (List UInt8) := fun buf bufLen => do
  let strLen ← zScanString bufLen 0 buf
  return (toInt32 (strLen + 1), buf.take strLen)

/-! ## Fixed binaries, headers -/

/-- `fixed_binary_t`: the `len` bytes at `data`, of which there are some. -/
structure FixedBinary where
  data : List UInt8
  len_pos : 0 < data.length
  len_lt : data.length < 2 ^ 32

/-- `encode` of `fixed_binary_t`: the length is a `uint16_t`, and a zero byte goes behind. -/
def encodeFixedBinary (v : FixedBinary) : Encoder := fun bufLen =>
  let len := v.data.length % 2 ^ 16
  if bufLen < len then ⟨-1, []⟩ else ⟨len, v.data.take len ++ [0]⟩

/-- `ZZBHeader`. -/
structure ZZBHeader where
  syn : UInt8
  ver : UInt8
  len : UInt16
  cmd : UInt8
  addr : UInt16
deriving DecidableEq, Repr

/-- `encode` of `ZZBHeader`. -/
def encodeHeader (v : ZZBHeader) : Encoder :=
  encodeCalls [zEncodeByte v.syn, zEncodeByte v.ver, zEncodeInteger16 v.len, zEncodeByte v.cmd,
    zEncodeInteger16 v.addr]

/-- `decode` of `ZZBHeader`. -/
def decodeHeader : Decoder ZZBHeader := fun buf bufLen => do
  let (syn, r) ← (Reader.start buf bufLen).call zDecodeByte
  let (ver, r) ← r.call zDecodeByte
  let (len, r) ← r.call zDecodeInteger16
  let (cmd, r) ← r.call zDecodeByte
  let (addr, r) ← r.call zDecodeInteger16
  return (r.len, ⟨syn, ver, len, cmd, addr⟩)

/-! ## Types and values -/

/-- A codec type that is no vector. -/
inductive ElemType
  | byte
  | integer16
  | integer32
  | string
  | fixedBinary
  | itemIdInfo
  | header
deriving DecidableEq, Repr

/-- `int` addition. -/
def addInt32 (a b : Int) : Int := Int.bmod (a + b) (2 ^ 32)

/-- `int` multiplication. -/
def mulInt32 (a b : Int) : Int := Int.bmod (a * b) (2 ^ 32)

/-- `getlen` of `std::string`. -/
def getlenString (v : List UInt8) : Int := toInt32 (1 + v.length)

/-- `getlen` of `zb_item_id_info_t`. -/
def getlenItemIdInfo (v : ZbItemIdInfo) : Int :=
  addInt32 (addInt32 (addInt32 (addInt32 1 (getlenString v.name)) (getlenString v.desc)) 1)
    (getlenString v.formatter)

/-- `getlen` of `ZZBHeader`. -/
def getlenHeader : Int := addInt32 (addInt32 (addInt32 (addInt32 1 1) 2) 1) 2

namespace ElemType

@[reducible] def Val : ElemType → Type
  | byte => UInt8
  | integer16 => UInt16
  | integer32 => UInt32
  | string => List UInt8
  | fixedBinary => FixedBinary
  | itemIdInfo => ZbItemIdInfo
  | header => ZZBHeader

/-- `encode`. -/
def encode : (t : ElemType) → t.Val → Encoder
  | byte => zEncodeByte
  | integer16 => zEncodeInteger16
  | integer32 => zEncodeInteger32
  | string => encodeString
  | fixedBinary => encodeFixedBinary
  | itemIdInfo => encodeItemIdInfo
  | header => encodeHeader

/-- `getlen`. -/
def getlen : (t : ElemType) → t.Val → Int
  | byte, _ => 1
  | integer16, _ => 2
  | integer32, _ => 4
  | string, v => getlenString v
  | fixedBinary, v => toInt32 v.data.length
  | itemIdInfo, v => getlenItemIdInfo v
  | header, _ => getlenHeader

end ElemType

/-- `getlen` of `std::vector<T>`: as many times the first element's. -/
def getlenVector {T : Type} (getlen : T → Int) : List T → Int
  | [] => 1
  | v :: vs => addInt32 1 (mulInt32 (toInt32 (v :: vs).length) (getlen v))

/-- A value of any codec type. -/
inductive CodecVal
  | elem (t : ElemType) (v : t.Val)
  | vector (t : ElemType) (vs : List t.Val)

namespace CodecVal

def encode : CodecVal → Encoder
  | elem t v => t.encode v
  | vector t vs => encodeVector t.encode vs

def getlen : CodecVal → Int
  | elem t v => t.getlen v
  | vector t vs => getlenVector t.getlen vs

end CodecVal

/-! ## Layout -/

namespace ElemType

/-- The bytes that `encode` counts. -/
def bytes : (t : ElemType) → t.Val → List UInt8
  | byte, v => [v]
  | integer16, v => be16 v
  | integer32, v => be32 v
  | string, v => stringBytes v
  | fixedBinary, v => v.data.take (v.data.length % 2 ^ 16)
  | itemIdInfo, v => itemIdInfoBytes v
  | header, v => [v.syn] ++ ([v.ver] ++ (be16 v.len ++ ([v.cmd] ++ (be16 v.addr ++ []))))

/-- The byte that `encode` writes behind those that it counts. -/
def stray : ElemType → List UInt8
  | fixedBinary => [0]
  | _ => []

end ElemType

/-- The rooms that `encode` of a string takes for enough: none at all is, since `buf_len - 1`
    wraps. -/
def StringRoom (v : List UInt8) (n : Nat) : Prop := n = 0 ∨ (stringBytes v).length ≤ n

/-- The rooms with which each field of a description finds enough when its turn comes. -/
def ItemRoom (v : ZbItemIdInfo) (n : Nat) : Prop :=
  1 ≤ n ∧
  (StringRoom v.name (subU32 n 1) ∧
  (StringRoom v.desc (subU32 (subU32 n 1) (stringBytes v.name).length) ∧
  (1 ≤ subU32 (subU32 (subU32 n 1) (stringBytes v.name).length) (stringBytes v.desc).length ∧
  (StringRoom v.formatter (subU32 (subU32 (subU32 (subU32 n 1) (stringBytes v.name).length)
    (stringBytes v.desc).length) 1) ∧ True))))

namespace ElemType

/-- The rooms that `encode` takes for enough. -/
def Room : (t : ElemType) → t.Val → Nat → Prop
  | string, v => StringRoom v
  | itemIdInfo, v => ItemRoom v
  | t, v => fun n => (t.bytes v).length ≤ n

/-- The buffer sizes at which `encode` writes behind the end: that at which a string begins, or
    at which a fixed binary ends. -/
def edges : (t : ElemType) → t.Val → List Nat
  | string, _ => [0]
  | fixedBinary, v => [v.data.length % 2 ^ 16]
  | itemIdInfo, v => [1, 1 + (stringBytes v.name).length,
      1 + (stringBytes v.name).length + (stringBytes v.desc).length + 1]
  | _, _ => []

/-- The edges of elements one behind the other. -/
def rowEdges (t : ElemType) : List t.Val → List Nat
  | [] => []
  | v :: vs => t.edges v ++ (rowEdges t vs).map ((t.bytes v).length + ·)

end ElemType

namespace CodecVal

/-- The bytes that `encode` counts. -/
def bytes : CodecVal → List UInt8
  | elem t v => t.bytes v
  | vector t vs => UInt8.ofNat vs.length :: vs.flatMap t.bytes

/-- The byte that is left behind them. -/
def stray : CodecVal → List UInt8
  | elem t _ => t.stray
  | vector _ [] => []
  | vector t (_ :: _) => t.stray

/-- The rooms with which each part finds enough when its turn comes. -/
def Room : CodecVal → Nat → Prop
  | elem t v, n => t.Room v n
  | vector t vs, n => 1 ≤ n ∧ RoomFor t.Room (fun v => (t.bytes v).length) vs (subU32 n 1)

/-- The buffer sizes at which `encode` writes behind the end. -/
def edges : CodecVal → List Nat
  | elem t v => t.edges v
  | vector t vs => (t.rowEdges vs).map (1 + ·)

end CodecVal

/-! ## Each encoder keeps to its layout -/

theorem subU32_zero_one : subU32 0 1 = 2 ^ 32 - 1 := rfl

theorem encodeString_leaves (v : List UInt8) :
    Leaves (encodeString v) (stringBytes v) [] (StringRoom v) where
  writes := by
    intro n hn hA
    have hmod := Nat.mod_lt v.length (show 0 < 2 ^ 16 by decide)
    rw [StringRoom, stringBytes_length] at hA
    rw [stringBytes_length, List.append_nil]
    simp only [encodeString]
    rcases hA with rfl | hle
    · rw [subU32_zero_one, if_neg (by omega)]
      rfl
    · rw [subU32_of_le hn (by omega), if_neg (by omega)]
      rfl
  fails := by
    intro n hn hno
    rw [StringRoom, stringBytes_length] at hno
    simp only [encodeString]
    rw [subU32_of_le hn (by omega), if_pos (by omega)]
    decide
  admits := fun _ _ hle => Or.inr hle
  stray_le := Nat.zero_le 1
  some_bytes := by
    rw [List.append_nil, stringBytes_length]
    omega

theorem encodeString_bounded (v : List UInt8) :
    Bounded (encodeString v) (stringBytes v).length [0] where
  fits := by
    intro n hn hmem hle
    rw [(encodeString_leaves v).writes n hn (Or.inr hle), List.append_nil,
      toInt32_of_lt (encodeString_emits v).length_lt]
    exact ⟨rfl, Nat.le_refl _, hle⟩
  fails := by
    intro n hn hmem hlt
    have hpos : n ≠ 0 := fun h => hmem (List.mem_singleton.mpr h)
    rw [stringBytes_length] at hlt
    simp only [encodeString]
    rw [subU32_of_le hn (by omega), if_pos (by omega)]
    exact ⟨by decide, Nat.zero_le n⟩
  oversteps := by
    intro n hn hmem
    obtain rfl := List.mem_singleton.mp hmem
    rw [(encodeString_leaves v).writes 0 hn (Or.inl rfl), List.append_nil, stringBytes_length]
    omega

theorem FixedBinary.bytes_length (v : FixedBinary) :
    (v.data.take (v.data.length % 2 ^ 16)).length = v.data.length % 2 ^ 16 := by
  rw [List.length_take, Nat.min_eq_left (Nat.mod_le _ _)]

theorem encodeFixedBinary_leaves (v : FixedBinary) :
    Leaves (encodeFixedBinary v) (v.data.take (v.data.length % 2 ^ 16)) [0]
      ((v.data.take (v.data.length % 2 ^ 16)).length ≤ ·) where
  writes := by
    intro n _ hA
    rw [v.bytes_length] at hA ⊢
    simp only [encodeFixedBinary]
    rw [if_neg (Nat.not_lt.mpr hA)]
  fails := by
    intro n _ hno
    rw [v.bytes_length] at hno
    simp only [encodeFixedBinary]
    rw [if_pos (Nat.not_le.mp hno)]
    decide
  admits := fun _ _ hle => hle
  stray_le := Nat.le_refl 1
  some_bytes := by
    rw [List.length_append, List.length_singleton]
    omega

theorem encodeFixedBinary_bounded (v : FixedBinary) :
    Bounded (encodeFixedBinary v) (v.data.take (v.data.length % 2 ^ 16)).length
      [v.data.length % 2 ^ 16] where
  fits := by
    intro n hn hmem hle
    have hlen := v.bytes_length
    have hmod := Nat.mod_lt v.data.length (show 0 < 2 ^ 16 by decide)
    have hne : n ≠ v.data.length % 2 ^ 16 := fun h => hmem (List.mem_singleton.mpr h)
    rw [(encodeFixedBinary_leaves v).writes n hn hle, List.length_append, List.length_singleton,
      toInt32_of_lt (by omega)]
    exact ⟨rfl, by omega, by omega⟩
  fails := by
    intro n _ _ hlt
    rw [v.bytes_length] at hlt
    simp only [encodeFixedBinary]
    rw [if_pos hlt]
    exact ⟨by decide, Nat.zero_le n⟩
  oversteps := by
    intro n hn hmem
    obtain rfl := List.mem_singleton.mp hmem
    have hlen := v.bytes_length
    rw [(encodeFixedBinary_leaves v).writes _ hn (Nat.le_of_eq hlen), List.length_append,
      List.length_singleton]
    omega

theorem zEncodeByte_leaves (v : UInt8) : Leaves (zEncodeByte v) [v] [] (1 ≤ ·) :=
  @plain_leaves [v] (Nat.le_refl 1)

theorem zEncodeByte_bounded (v : UInt8) : Bounded (zEncodeByte v) 1 [] :=
  @plain_bounded [v] (by show 1 < 2 ^ 31; omega)

theorem zEncodeInteger16_bounded (v : UInt16) : Bounded (zEncodeInteger16 v) 2 [] :=
  @plain_bounded (be16 v) (by show 2 < 2 ^ 31; omega)

theorem encodeItemIdInfo_leaves (v : ZbItemIdInfo) :
    Leaves (encodeItemIdInfo v) (itemIdInfoBytes v) [] (ItemRoom v) := by
  have hrow := LeavesRow.cons (z := []) (zEncodeByte_leaves v.id) (.cons (encodeString_leaves v.name)
    (.cons (encodeString_leaves v.desc) (.cons (zEncodeByte_leaves v.type)
    (.cons (encodeString_leaves v.formatter) (.nil [])))))
  have hleaves := hrow.leaves (encodeItemIdInfo_emits v).length_lt (Nat.zero_le 1) (by
    rw [List.append_nil]
    exact Nat.succ_le_succ (Nat.zero_le _))
  simp only [List.length_singleton] at hleaves
  exact hleaves

theorem encodeItemIdInfo_bounded (v : ZbItemIdInfo) :
    Bounded (encodeItemIdInfo v) (itemIdInfoBytes v).length (ElemType.itemIdInfo.edges v) := by
  have hname := (encodeString_emits v.name).length_lt
  have hdesc := (encodeString_emits v.desc).length_lt
  have hfmt := (encodeString_emits v.formatter).length_lt
  have hrow := BoundedRow.cons (zEncodeByte_bounded v.id) (by decide)
    (.cons (encodeString_bounded v.name) hname (.cons (encodeString_bounded v.desc) hdesc
    (.cons (zEncodeByte_bounded v.type) (by decide)
    (.cons (encodeString_bounded v.formatter) hfmt .nil))))
  have hbounded := hrow.bounded_calls
  have hlen : (itemIdInfoBytes v).length = 1 + ((stringBytes v.name).length +
      ((stringBytes v.desc).length + (1 + ((stringBytes v.formatter).length + 0)))) := by
    simp only [itemIdInfoBytes, List.length_append, List.length_singleton, List.length_nil]
  have hthird : 1 + ((stringBytes v.name).length + ((stringBytes v.desc).length + (1 + 0))) =
      1 + (stringBytes v.name).length + (stringBytes v.desc).length + 1 := by
    omega
  simp only [List.map_nil, List.append_nil, List.nil_append, List.map_cons, List.cons_append,
    Nat.add_zero] at hbounded hlen hthird
  rw [hthird] at hbounded
  rw [hlen]
  exact hbounded

theorem encodeHeader_bounded (v : ZZBHeader) : Bounded (encodeHeader v) 7 [] := by
  have hrow := BoundedRow.cons (zEncodeByte_bounded v.syn) (by decide)
    (.cons (zEncodeByte_bounded v.ver) (by decide)
    (.cons (zEncodeInteger16_bounded v.len) (by decide)
    (.cons (zEncodeByte_bounded v.cmd) (by decide)
    (.cons (zEncodeInteger16_bounded v.addr) (by decide) .nil))))
  exact hrow.bounded_calls

theorem encodeHeader_emits (v : ZZBHeader) :
    Emits (encodeHeader v) (ElemType.header.bytes v) := by
  refine encodeCalls_emits ?_ (show 7 < 2 ^ 31 by omega)
  exact .cons (zEncodeByte_emits _) (.cons (zEncodeByte_emits _) (.cons (zEncodeInteger16_emits _)
    (.cons (zEncodeByte_emits _) (.cons (zEncodeInteger16_emits _) .nil))))

namespace ElemType

/-- **An encoder that is no vector's**: what it leaves behind, and with which rooms. -/
theorem leaves (t : ElemType) (v : t.Val) : Leaves (t.encode v) (t.bytes v) t.stray (t.Room v) :=
  match t with
  | byte => zEncodeByte_leaves v
  | integer16 => @plain_leaves (be16 v) (show 1 ≤ 2 by omega)
  | integer32 => @plain_leaves (be32 v) (show 1 ≤ 4 by omega)
  | string => encodeString_leaves v
  | fixedBinary => encodeFixedBinary_leaves v
  | itemIdInfo => encodeItemIdInfo_leaves v
  | header => Bounded.leaves (encodeHeader_bounded v) (encodeHeader_emits v) (show 1 ≤ 7 by omega)

/-- **Where it stays inside the buffer.** -/
theorem bounded (t : ElemType) (v : t.Val) :
    Bounded (t.encode v) (t.bytes v).length (t.edges v) :=
  match t with
  | byte => zEncodeByte_bounded v
  | integer16 => zEncodeInteger16_bounded v
  | integer32 => @plain_bounded (be32 v) (show 4 < 2 ^ 31 by omega)
  | string => encodeString_bounded v
  | fixedBinary => encodeFixedBinary_bounded v
  | itemIdInfo => encodeItemIdInfo_bounded v
  | header => encodeHeader_bounded v

theorem bytes_length_lt (t : ElemType) (v : t.Val) : (t.bytes v).length < 2 ^ 31 := by
  cases t with
  | byte => show 1 < _; omega
  | integer16 => show 2 < _; omega
  | integer32 => show 4 < _; omega
  | string => exact (encodeString_emits v).length_lt
  | fixedBinary =>
    have hmod := Nat.mod_lt v.data.length (show 0 < 2 ^ 16 by decide)
    have hlen := v.bytes_length
    show (v.data.take (v.data.length % 2 ^ 16)).length < _
    omega
  | itemIdInfo => exact (encodeItemIdInfo_emits v).length_lt
  | header => show 7 < _; omega

/-- The elements of a vector, one call each. -/
theorem boundedRow (t : ElemType) (vs : List t.Val) :
    BoundedRow (vs.map t.encode) (vs.flatMap t.bytes).length (t.rowEdges vs) := by
  induction vs with
  | nil => exact .nil
  | cons v vs ih =>
    rw [List.map_cons, List.flatMap_cons, List.length_append, rowEdges]
    exact .cons (t.bounded v) (t.bytes_length_lt v) ih

end ElemType

namespace CodecVal

/-- **Every encoder stays inside the buffer** except at its edges. -/
theorem bounded (v : CodecVal) : Bounded v.encode v.bytes.length v.edges :=
  match v with
  | elem t v => t.bounded v
  | vector t vs => by
    have hrow := BoundedRow.cons (zEncodeByte_bounded (UInt8.ofNat vs.length)) (by decide)
      (t.boundedRow vs)
    rw [bytes, List.length_cons, Nat.add_comm]
    exact hrow.bounded_calls

/-- The calls of a vector's encoder. -/
theorem vector_row (t : ElemType) (vs : List t.Val) :
    LeavesRow [] (zEncodeByte (UInt8.ofNat vs.length) :: vs.map t.encode)
      (vector t vs).bytes (vector t vs).stray (vector t vs).Room := by
  have hrow := LeavesRow.cons (z := []) (zEncodeByte_leaves (UInt8.ofNat vs.length))
    (LeavesRow.map t.leaves vs [])
  have hstray : (vector t vs).stray = if vs = [] then [] else t.stray := by
    cases vs <;> rfl
  rw [hstray]
  exact hrow

/-- **What every encoder leaves behind**: the bytes of its value, which it counts as an `int`, and
    perhaps one more; or it fails. -/
theorem encode_leaves (v : CodecVal) {n : Nat} (hn : n < 2 ^ 32) :
    (v.Room n → v.encode n = ⟨toInt32 v.bytes.length, v.bytes ++ v.stray⟩) ∧
    (¬ v.Room n → (v.encode n).rv < 0) := by
  cases v with
  | elem t v =>
    refine ⟨fun hroom => ?_, fun hno => (t.leaves v).fails n hn hno⟩
    rw [bytes, toInt32_of_lt (t.bytes_length_lt v)]
    exact (t.leaves v).writes n hn hroom
  | vector t vs => exact (vector_row t vs).encodeCallsWith (fun _ w => toInt32 w.pos) hn

/-- There is room where all fits. -/
theorem room_of_le (v : CodecVal) {n : Nat} (hn : n < 2 ^ 32) (hle : v.bytes.length ≤ n) :
    v.Room n := by
  cases v with
  | elem t v => exact (t.leaves v).admits n hn hle
  | vector t vs => exact (vector_row t vs).admits n hn hle

end CodecVal

end Monsys
