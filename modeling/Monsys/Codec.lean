/-
  The primitive codecs of `libframework/zcodec.c`, `zcodecpp.h` and `server/zzigbee_codec.h`.

  Each C function is an `Encoder` or a `Decoder` of the same name: it is given the bytes of room
  `buf_len` and returns the bytes used, or `-1`.  The `encode`/`decode` templates of `zcodecpp.h`
  are one definition for each instance used (`encodeString` for `std::string`, `encodeVector` for
  `std::vector<T>`, `encodeItemIdInfo` for `zb_item_id_info_t`); on `uint8_t` and `uint16_t` they
  only call the C functions.

  Beside each codec stands what it does to a byte string (`Writes`, `Fits`, `Reads`).
-/
import Monsys.Lib.Wire

namespace Monsys

open Wire

/-! ## Bytes and 16-bit integers -/

/-- `z_encode_byte`. -/
def zEncodeByte (val : UInt8) : Encoder := fun bufLen =>
  if bufLen < 1 then ⟨-1, []⟩ else ⟨1, [val]⟩

/-- `z_decode_byte`. -/
def zDecodeByte : Decoder UInt8 := fun buf bufLen =>
  if bufLen < 1 then .error (.err (-1))
  else match buf with
    | b :: _ => .ok (1, b)
    | [] => .error .fault

/-- `z_encode_integer16`: `htons`, then a copy of two bytes. -/
def zEncodeInteger16 (val : UInt16) : Encoder := fun bufLen =>
  if bufLen < 2 then ⟨-1, []⟩ else ⟨2, be16 val⟩

/-- `z_decode_integer16`: a copy of two bytes, then `ntohs`. -/
def zDecodeInteger16 : Decoder UInt16 := fun buf bufLen =>
  if bufLen < 2 then .error (.err (-1))
  else match buf with
    | hi :: lo :: _ => .ok (2, ofBe16 hi lo)
    | _ => .error .fault

theorem zEncodeByte_emits (v : UInt8) : Emits (zEncodeByte v) [v] where
  writes := by
    intro n _ h
    rw [zEncodeByte] at h ⊢
    split <;> rename_i hlt
    · rw [if_pos hlt] at h; exact absurd h (by decide)
    · rfl
  fits := by
    intro n _ h
    rw [zEncodeByte, if_neg (show ¬ n < 1 from Nat.not_lt.mpr h)]
    rfl
  length_lt := by rw [List.length_singleton]; omega

theorem zEncodeInteger16_emits (v : UInt16) : Emits (zEncodeInteger16 v) (be16 v) where
  writes := by
    intro n _ h
    rw [zEncodeInteger16] at h ⊢
    split <;> rename_i hlt
    · rw [if_pos hlt] at h; exact absurd h (by decide)
    · rfl
  fits := by
    intro n _ h
    rw [zEncodeInteger16, if_neg (show ¬ n < 2 from Nat.not_lt.mpr h)]
    rfl
  length_lt := by rw [be16_length]; omega

theorem zDecodeByte_reads (v : UInt8) : Reads zDecodeByte [v] v := by
  intro rest n _ h
  unfold zDecodeByte
  rw [if_neg (show ¬ n < 1 from Nat.not_lt.mpr h)]
  rfl

theorem zDecodeInteger16_reads (v : UInt16) : Reads zDecodeInteger16 (be16 v) v := by
  intro rest n _ h
  unfold zDecodeInteger16
  rw [if_neg (show ¬ n < 2 from Nat.not_lt.mpr h)]
  show Except.ok ((2 : Int), ofBe16 _ _) = .ok (2, v)
  rw [ofBe16_be16]

/-! ## Strings -/

/-- `encode` of `std::string`: the length is a `uint16_t`, the room is checked as `buf_len - 1` on
    `uint32_t`, and a zero byte ends the string. -/
def encodeString (v : List UInt8) : Encoder := fun bufLen =>
  let len := v.length % 2 ^ 16
  if subU32 bufLen 1 < len then ⟨-1, []⟩ else ⟨len + 1, v.take len ++ [0]⟩

/-- The scan of `decode` for the byte that ends a string: the memory is read before the count is
    checked, and the count is a `uint16_t`. -/
def scanString (bufLen : Nat) (len : Nat) : List UInt8 → Except Stop Nat
  | [] => .error .fault
  | b :: rest =>
    if b ≠ 0 ∧ len ≤ bufLen then scanString bufLen ((len + 1) % 2 ^ 16) rest else .ok len

/-- `decode` of `std::string`. -/
def decodeString : Decoder (List UInt8) := fun buf bufLen => do
  let len ← scanString bufLen 0 buf
  failIf (bufLen ≤ len)
  failIf (subU32 bufLen 1 < len)
  return (len + 1, buf.take len)

/-- The bytes of a string on the wire. -/
def stringBytes (v : List UInt8) : List UInt8 := v.take (v.length % 2 ^ 16) ++ [0]

theorem stringBytes_length (v : List UInt8) :
    (stringBytes v).length = v.length % 2 ^ 16 + 1 := by
  rw [stringBytes, List.length_append, List.length_take, List.length_singleton,
    Nat.min_eq_left (Nat.mod_le _ _)]

theorem stringBytes_length_le (v : List UInt8) : (stringBytes v).length ≤ 2 ^ 16 := by
  have := Nat.mod_lt v.length (show 0 < 2 ^ 16 by decide)
  rw [stringBytes_length]
  omega

theorem encodeString_emits (v : List UInt8) : Emits (encodeString v) (stringBytes v) where
  writes := by
    intro n _ h
    have hle := stringBytes_length_le v
    simp only [encodeString] at h ⊢
    split <;> rename_i hlt
    · rw [if_pos hlt] at h; exact absurd h (by decide)
    · rw [toInt32_of_lt (by omega), stringBytes_length]
      rfl
  fits := by
    intro n hn h
    rw [stringBytes_length] at h ⊢
    simp only [encodeString]
    rw [if_neg (by rw [subU32_of_le hn (by omega)]; omega)]
    rfl
  length_lt := by
    have hle := stringBytes_length_le v
    omega

/-! ## Vectors -/

/-- `encode` of `std::vector<T>`: a count byte, then the elements. -/
def encodeVector {T : Type} (e : T → Encoder) (v : List T) : Encoder :=
  encodeCalls (zEncodeByte (UInt8.ofNat v.length) :: v.map e)

/-- `decode` of `std::vector<T>`.  The count byte is counted twice in the value returned. -/
def decodeVector {T : Type} (d : Decoder T) : Decoder (List T) := fun buf bufLen => do
  let (listLen, r) ← (Reader.start buf bufLen).call zDecodeByte
  let (v, r) ← r.times d [] listLen.toNat
  return (1 + r.len, v)

theorem encodeVector_writes {T : Type} {e : T → Encoder} {enc : T → List UInt8}
    (he : ∀ x, Emits (e x) (enc x)) (v : List T) :
    Writes (encodeVector e v) (UInt8.ofNat v.length :: v.flatMap enc) :=
  encodeCalls_writes (Spells.cons (zEncodeByte_emits _) (Spells.map he v))

/-! ## The description of an item id -/

/-- `zb_item_id_info_t`, without `last_update_time_`, which no codec touches. -/
structure ZbItemIdInfo where
  id : UInt8
  name : List UInt8
  desc : List UInt8
  type : UInt8
  formatter : List UInt8
deriving DecidableEq, Repr

/-- `encode` of `zb_item_id_info_t`. -/
def encodeItemIdInfo (v : ZbItemIdInfo) : Encoder :=
  encodeCalls [zEncodeByte v.id, encodeString v.name, encodeString v.desc, zEncodeByte v.type,
    encodeString v.formatter]

/-- `decode` of `zb_item_id_info_t`. -/
def decodeItemIdInfo : Decoder ZbItemIdInfo := fun buf bufLen => do
  let (id, r) ← (Reader.start buf bufLen).call zDecodeByte
  let (name, r) ← r.call decodeString
  let (desc, r) ← r.call decodeString
  let (type, r) ← r.call zDecodeByte
  let (formatter, r) ← r.call decodeString
  return (r.len, ⟨id, name, desc, type, formatter⟩)

/-- The bytes of an item's description on the wire. -/
def itemIdInfoBytes (v : ZbItemIdInfo) : List UInt8 :=
  [v.id] ++ (stringBytes v.name ++ (stringBytes v.desc ++ ([v.type] ++ (stringBytes v.formatter ++ []))))

theorem encodeItemIdInfo_emits (v : ZbItemIdInfo) :
    Emits (encodeItemIdInfo v) (itemIdInfoBytes v) := by
  have h1 := stringBytes_length_le v.name
  have h2 := stringBytes_length_le v.desc
  have h3 := stringBytes_length_le v.formatter
  refine encodeCalls_emits ?_ ?_
  · exact .cons (zEncodeByte_emits _) (.cons (encodeString_emits _) (.cons (encodeString_emits _)
      (.cons (zEncodeByte_emits _) (.cons (encodeString_emits _) .nil))))
  · simp only [itemIdInfoBytes, List.length_append, List.length_singleton, List.length_nil]
    omega

end Monsys
