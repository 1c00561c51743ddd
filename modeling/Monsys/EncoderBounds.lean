/-
  Encoders and the ends of their buffers.

  Every encoder of `zcodec.c`, `zcodecpp.h`, `zzigbee_codec.h` and `zzigbee_message.cc` stays inside
  the buffer it is given, unless the buffer ends at one of the edges of the value: in front of a
  string, where `buf_len - 1` wraps, or behind a fixed binary, where a zero is put (`inside_iff`).
  Of the messages only `ZZBUpdateIdInfoReq` has edges, those of its list behind the header.
-/
import Monsys.CodecTypes
import Monsys.ZigBeeLayout

namespace Monsys

open Wire

/-! ## The rows of calls -/

theorem encodeMac_eq (mac : ZbMac) : encodeMac mac = plain mac.data := by
  funext n
  rw [encodeMac, plain, mac.length_eq]
  rfl

theorem encodeSync_bounded : Bounded ZZigBeeMsg.encodeSync 8 [] :=
  @plain_bounded ZZigBeeMsg.syncBytes (show 8 < 2 ^ 31 by omega)

theorem encodeMac_bounded (mac : ZbMac) : Bounded (encodeMac mac) 8 [] := by
  have hplain := plain_bounded (show mac.data.length < 2 ^ 31 by rw [mac.length_eq]; omega)
  rwa [← encodeMac_eq, mac.length_eq] at hplain

theorem header_bounded (m : ZZigBeeMsg) : Bounded m.encode 14 [] := by
  have hrow := BoundedRow.cons encodeSync_bounded (by decide)
    (.cons (zEncodeByte_bounded m.ver) (by decide)
    (.cons (zEncodeInteger16_bounded m.len) (by decide)
    (.cons (zEncodeByte_bounded m.cmd) (by decide)
    (.cons (zEncodeInteger16_bounded m.addr) (by decide) .nil))))
  exact hrow.bounded_calls

theorem byte_row (v : UInt8) : BoundedRow [zEncodeByte v] 1 [] :=
  .cons (zEncodeByte_bounded v) (by decide) .nil

theorem integer16_row (v : UInt16) : BoundedRow [zEncodeInteger16 v] 2 [] :=
  .cons (zEncodeInteger16_bounded v) (by decide) .nil

/-- A header, and a row of calls for the body. -/
theorem message_row (hdr : ZZigBeeMsg) {es : List Encoder} {size : Nat}
    (h : BoundedRow es size []) : BoundedRow (hdr.encode :: es) (14 + size) [] :=
  .cons (header_bounded hdr) (by decide) h

/-- A count, and a byte for each item. -/
theorem bytes_row (count : UInt8) (items : List UInt8) :
    BoundedRow (zEncodeByte count :: items.map zEncodeByte) (1 + items.length) [] := by
  have hitems := BoundedRow.flatMap byte_row items
  rw [Nat.mul_one] at hitems
  rw [List.map_eq_flatMap]
  exact .cons (zEncodeByte_bounded count) (by decide) hitems

/-- A count, and an id with its value for each item. -/
theorem pairs_row (count : UInt8) (items : List ZItemPair) :
    BoundedRow (zEncodeByte count :: encodeItemPairs items) (1 + items.length * 3) [] := by
  have hpair : ∀ p : ZItemPair, BoundedRow [zEncodeByte p.id, zEncodeInteger16 p.val] 3 [] :=
    fun p => .cons (zEncodeByte_bounded p.id) (by decide) (integer16_row p.val)
  have hitems : BoundedRow (encodeItemPairs items) (items.length * 3) [] :=
    BoundedRow.flatMap hpair items
  exact .cons (zEncodeByte_bounded count) (by decide) hitems

/-! ## `ZZBGetRsp` -/

/-- `ZZBGetRsp::encode` compares as `int`s what it will return: it succeeds in buffers of less than
    2^31 bytes that hold the message. -/
theorem ZZBGetRsp.encode_ends (m : ZZBGetRsp) {n : Nat} (hn : n < 2 ^ 32) :
    (15 + m.items.length * 3 ≤ n ∧ n < 2 ^ 31 →
      (m.encode n).2.rv = m.getEncodeLen.toNat ∧ m.getEncodeLen.toNat ≤ n) ∧
    (¬ (15 + m.items.length * 3 ≤ n ∧ n < 2 ^ 31) → (m.encode n).2.rv < 0) ∧
    (m.encode n).2.out.length ≤ n := by
  have henc : m.getEncodeLen.toNat = (6 + m.getBodyLen.toNat) % 2 ^ 16 := UInt16.toNat_add _ _
  have hbody : m.getBodyLen.toNat = (1 + m.items.length * 3) % 2 ^ 16 := UInt16.toNat_ofNat'
  simp only [ZZBGetRsp.encode]
  by_cases hguard : toInt32 n < (m.getEncodeLen.toNat : Int)
  · rw [if_pos hguard]
    refine ⟨fun hsmall => ?_, fun _ => by show (-1 : Int) < 0; omega, Nat.zero_le n⟩
    rw [toInt32_of_lt hsmall.2] at hguard
    omega
  · rw [if_neg hguard]
    have hsmall : n < 2 ^ 31 := by
      by_contra hge
      rw [toInt32, Nat.mod_eq_of_lt hn, if_neg hge] at hguard
      omega
    have hends := (message_row { m.toZZigBeeMsg with len := m.getBodyLen }
      (pairs_row (UInt8.ofNat m.items.length) m.items)).calls hn _ (.start n)
    have hroom : n - (Writer.start n).pos = n := Nat.sub_zero n
    rcases Nat.lt_or_ge n (15 + m.items.length * 3) with hlt | hge
    · obtain ⟨r, hr, hrv, hout⟩ := hends.fails List.not_mem_nil (by omega)
      rw [encodeCallsWith, hr]
      exact ⟨fun hfits => absurd hfits.1 (Nat.not_le.mpr hlt), fun _ => hrv, hout⟩
    · obtain ⟨w, hw, hholds, _⟩ := hends.fits List.not_mem_nil (by omega)
      rw [encodeCallsWith, hw]
      refine ⟨fun _ => ⟨rfl, by omega⟩, fun hno => absurd ⟨hge, hsmall⟩ hno, hholds.out_le⟩

theorem ZZBGetRsp.encode_inside (m : ZZBGetRsp) {n : Nat} (hn : n < 2 ^ 32) :
    Inside (fun k => (m.encode k).2) n := by
  obtain ⟨hyes, hno, hout⟩ := m.encode_ends hn
  refine ⟨?_, hout⟩
  by_cases hfits : 15 + m.items.length * 3 ≤ n ∧ n < 2 ^ 31
  · obtain ⟨hrv, hle⟩ := hyes hfits
    show (m.encode n).2.rv ≤ n
    omega
  · have hrv := hno hfits
    show (m.encode n).2.rv ≤ n
    omega

/-! ## Every encoder -/

namespace ZbMsg

/-- The buffer sizes at which `encode` writes behind the end. -/
def edges : ZbMsg → List Nat
  | updateIdInfoReq m => (CodecVal.vector .itemIdInfo m.idList).edges.map (14 + ·)
  | _ => []

/-- A row of calls without edges. -/
theorem inside_of_row {es : List Encoder} {size : Nat} (h : BoundedRow es size []) {n : Nat}
    (hn : n < 2 ^ 32) : Inside (encodeCalls es) n ∧ Inside (encodeCallsByRoom es) n :=
  ⟨(h.bounded_calls.inside_iff hn).mpr List.not_mem_nil,
    (h.bounded_byRoom.inside_iff hn).mpr List.not_mem_nil⟩

theorem inside_iff (m : ZbMsg) {n : Nat} (hn : n < 2 ^ 32) :
    Inside (fun k => (m.encode k).2) n ↔ n ∉ m.edges := by
  cases m with
  | updateIdInfoReq m =>
    have hrow : BoundedRow [m.toZZigBeeMsg.encode] 14 [] := message_row _ .nil
    exact hrow.inside_last (CodecVal.vector .itemIdInfo m.idList).bounded hn
  | regReq m =>
    have hbody : BoundedRow [encodeMac m.mac, zEncodeInteger16 m.devType] 10 [] :=
      .cons (encodeMac_bounded m.mac) (by decide) (integer16_row m.devType)
    exact iff_of_true (inside_of_row (message_row _ hbody) hn).1 List.not_mem_nil
  | regRsp m => exact iff_of_true (inside_of_row (message_row _ (byte_row _)) hn).2 List.not_mem_nil
  | getReq m =>
    exact iff_of_true (inside_of_row (message_row _ (bytes_row _ _)) hn).2 List.not_mem_nil
  | getRsp m => exact iff_of_true (m.encode_inside hn) List.not_mem_nil
  | setReq m =>
    exact iff_of_true (inside_of_row (message_row _ (pairs_row _ _)) hn).2 List.not_mem_nil
  | setRsp m => exact iff_of_true (inside_of_row (message_row _ (byte_row _)) hn).2 List.not_mem_nil
  | bindReq m => exact iff_of_true (inside_of_row (message_row _ .nil) hn).2 List.not_mem_nil
  | bindRsp m => exact iff_of_true (inside_of_row (message_row _ .nil) hn).1 List.not_mem_nil
  | updateIdInfoRsp m =>
    exact iff_of_true (inside_of_row (message_row _ (byte_row _)) hn).1 List.not_mem_nil
  | broadcastInd m =>
    exact iff_of_true (inside_of_row (message_row _ (integer16_row _)) hn).2 List.not_mem_nil

end ZbMsg

/-- **Encoders stay inside the buffer.**  An encoder of any type or message class returns no more
    than the buffer holds and writes inside of it, exactly if the buffer does not end at an edge. -/
theorem encode_inside_iff {n : Nat} (hn : n < 2 ^ 32) :
    (∀ v : CodecVal, Inside v.encode n ↔ n ∉ v.edges) ∧
    ∀ m : ZbMsg, Inside (fun k => (m.encode k).2) n ↔ n ∉ m.edges :=
  ⟨fun v => v.bounded.inside_iff hn, fun m => m.inside_iff hn⟩

theorem encode_inside_empty :
    (∀ v : CodecVal, Inside v.encode 0 ↔ 0 ∉ v.edges) ∧
    ∀ m : ZbMsg, Inside (fun k => (m.encode k).2) 0 ↔ 0 ∉ m.edges :=
  encode_inside_iff (by decide)

/-- The empty string writes its zero into a buffer of no bytes, and says that it has used one. -/
theorem encodeString_oversteps :
    encodeString [] 0 = ⟨1, [0]⟩ ∧ ¬ Inside (CodecVal.elem .string []).encode 0 := by
  refine ⟨by decide, ?_⟩
  rintro ⟨hrv, _⟩
  exact absurd hrv (by decide)

end Monsys
