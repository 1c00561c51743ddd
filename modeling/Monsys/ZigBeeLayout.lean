/-
  The ZigBee messages on the wire.

  A message is eight 'Z', a header of six bytes (version, length, command, address) and the body of
  its class; numbers are in network byte order and a list has its count in front.

  1. **The layout** — `ZZigBeeMsg.bytes`, `ZbMsg.body`, `ZbMsg.frame`.
  2. **Encoders** — what each class's row of calls spells.
  3. **Decoders** — what each class's `decode` reads, given what its checks ask for.
  4. **Self-describing encodings** — `encode_describes_iff`: when the value returned and the length
     field tell the bytes written.  Four classes get it wrong.
  5. **Round trip** — `encode_decode_iff`: every message of the eight classes comes back, except
     that `ZZBGetRsp` refuses buffers from 2^31 bytes on.
-/
import Monsys.ZigBeeMessage

namespace Monsys

open Wire

/-! ## The layout -/

def ZZigBeeMsg.bytes (m : ZZigBeeMsg) : List UInt8 :=
  [m.ver] ++ be16 m.len ++ [m.cmd] ++ be16 m.addr

def ZItemPair.bytes (p : ZItemPair) : List UInt8 := [p.id] ++ be16 p.val

namespace ZbMsg

/-- The bytes behind the header. -/
def body : ZbMsg → List UInt8
  | regReq m => m.mac.data ++ be16 m.devType
  | regRsp m => [m.status]
  | getReq m => UInt8.ofNat m.items.length :: m.items
  | getRsp m => UInt8.ofNat m.items.length :: m.items.flatMap ZItemPair.bytes
  | setReq m => UInt8.ofNat m.items.length :: m.items.flatMap ZItemPair.bytes
  | setRsp m => [m.status]
  | bindReq _ => []
  | bindRsp _ => []
  | updateIdInfoReq m => UInt8.ofNat m.idList.length :: m.idList.flatMap itemIdInfoBytes
  | updateIdInfoRsp m => [m.status]
  | broadcastInd m => be16 m.what

/-- The message with its `len_` set. -/
def withLen (len : UInt16) : ZbMsg → ZbMsg
  | regReq m => regReq { m with len := len }
  | regRsp m => regRsp { m with len := len }
  | getReq m => getReq { m with len := len }
  | getRsp m => getRsp { m with len := len }
  | setReq m => setReq { m with len := len }
  | setRsp m => setRsp { m with len := len }
  | bindReq m => bindReq { m with len := len }
  | bindRsp m => bindRsp { m with len := len }
  | updateIdInfoReq m => updateIdInfoReq { m with len := len }
  | updateIdInfoRsp m => updateIdInfoRsp { m with len := len }
  | broadcastInd m => broadcastInd { m with len := len }

/-- The message with the length of its body in `len_`. -/
def sized (m : ZbMsg) : ZbMsg := m.withLen (UInt16.ofNat m.body.length)

/-- A header and a body behind the sync bytes. -/
def frame (hdr : ZZigBeeMsg) (body : List UInt8) : List UInt8 :=
  ZZigBeeMsg.syncBytes ++ hdr.bytes ++ body

end ZbMsg

@[simp] theorem ZZigBeeMsg.bytes_length (m : ZZigBeeMsg) : m.bytes.length = 6 := rfl

@[simp] theorem ZItemPair.bytes_length (p : ZItemPair) : p.bytes.length = 3 := rfl

theorem pairs_length (items : List ZItemPair) :
    (items.flatMap ZItemPair.bytes).length = items.length * 3 := by
  induction items with
  | nil => rfl
  | cons p items ih =>
    rw [List.flatMap_cons, List.length_append, ih, p.bytes_length, List.length_cons]
    omega

theorem ZbMsg.frame_length (hdr : ZZigBeeMsg) (body : List UInt8) :
    (frame hdr body).length = 14 + body.length := by
  rw [frame, List.length_append, List.length_append, hdr.bytes_length]
  rfl

/-! ## Encoders -/

theorem encodeSync_emits : Emits ZZigBeeMsg.encodeSync ZZigBeeMsg.syncBytes where
  writes := by
    intro n _ h
    rw [ZZigBeeMsg.encodeSync] at h ⊢
    split <;> rename_i hlt
    · rw [if_pos hlt] at h; exact absurd h (by decide)
    · rfl
  fits := by
    intro n _ h
    rw [ZZigBeeMsg.encodeSync, if_neg (show ¬ n < 8 from Nat.not_lt.mpr h)]
    rfl
  length_lt := by show 8 < _; omega

theorem encodeMac_emits (mac : ZbMac) : Emits (encodeMac mac) mac.data where
  writes := by
    intro n _ h
    rw [encodeMac] at h ⊢
    split <;> rename_i hlt
    · rw [if_pos hlt] at h; exact absurd h (by decide)
    · rw [mac.length_eq]; rfl
  fits := by
    intro n _ h
    rw [mac.length_eq] at h
    rw [encodeMac, if_neg (show ¬ 8 > n from Nat.not_lt.mpr h), mac.length_eq]
    rfl
  length_lt := by rw [mac.length_eq]; omega

theorem header_emits (m : ZZigBeeMsg) : Emits m.encode (ZZigBeeMsg.syncBytes ++ m.bytes) := by
  refine encodeCalls_emits ?_ (show 14 < _ by omega)
  show Spells _ (ZZigBeeMsg.syncBytes ++ ([m.ver] ++ (be16 m.len ++ ([m.cmd] ++
    (be16 m.addr ++ [])))))
  refine Spells.cons encodeSync_emits ?_
  refine Spells.cons (zEncodeByte_emits _) ?_
  refine Spells.cons (zEncodeInteger16_emits _) ?_
  refine Spells.cons (zEncodeByte_emits _) ?_
  exact Spells.single (zEncodeInteger16_emits _)

/-- A header and a row of calls for the body. -/
theorem message_spells (hdr : ZZigBeeMsg) {es : List Encoder} {body : List UInt8}
    (h : Spells es body) : Spells (hdr.encode :: es) (ZbMsg.frame hdr body) :=
  Spells.cons (header_emits hdr) h

theorem regReq_spells (m : ZZBRegReq) :
    Spells [encodeMac m.mac, zEncodeInteger16 m.devType] (ZbMsg.regReq m).body :=
  Spells.cons (encodeMac_emits _) (Spells.single (zEncodeInteger16_emits _))

theorem getReq_spells (items : List UInt8) :
    Spells (zEncodeByte (UInt8.ofNat items.length) :: items.map zEncodeByte)
      (UInt8.ofNat items.length :: items) := by
  have hitems := Spells.map zEncodeByte_emits items
  rw [List.flatMap_singleton'] at hitems
  exact Spells.cons (zEncodeByte_emits _) hitems

theorem pairs_spells (items : List ZItemPair) :
    Spells (zEncodeByte (UInt8.ofNat items.length) :: encodeItemPairs items)
      (UInt8.ofNat items.length :: items.flatMap ZItemPair.bytes) := by
  refine Spells.cons (zEncodeByte_emits _) (Spells.flatMap ?_ items)
  intro p
  exact Spells.cons (zEncodeByte_emits _) (Spells.single (zEncodeInteger16_emits _))

/-! ## Decoders -/

theorem header_reads (m : ZZigBeeMsg) : Reads ZZigBeeMsg.decode m.bytes m := by
  show Reads _ ([m.ver] ++ (be16 m.len ++ ([m.cmd] ++ (be16 m.addr ++ [])))) m
  refine Reads.start (zDecodeByte_reads _) ?_
  refine Takes.call (zDecodeInteger16_reads _) ?_
  refine Takes.call (zDecodeByte_reads _) ?_
  refine Takes.call (zDecodeInteger16_reads _) ?_
  exact Takes.ret m

theorem decodeMac_reads (mac : ZbMac) : Reads decodeMac mac.data mac := by
  intro rest n _ _
  have hlen := mac.length_eq
  have htake : (mac.data ++ rest).take 8 = mac.data := by
    rw [← hlen]
    exact List.take_left
  have hcount : (mac.data.length : Int) = 8 := by rw [hlen]; rfl
  rw [decodeMac, dif_pos (by rw [List.length_append]; omega), hcount]
  obtain ⟨data, hdata⟩ := mac
  simp only [htake]

theorem peekByte_reads (b : UInt8) : Reads peekByte [b] b := fun _ _ _ _ => rfl

theorem decodeItemPair_reads (p : ZItemPair) : Reads decodeItemPair p.bytes p := by
  show Reads _ ([p.id] ++ (be16 p.val ++ [])) p
  refine Reads.start (zDecodeByte_reads _) ?_
  refine Takes.call (zDecodeInteger16_reads _) ?_
  exact Takes.ret p

/-- The check of the length field lets a message through whose body is as long as that says. -/
theorem not_room_lt {hdr : ZZigBeeMsg} {body : List UInt8} (h : hdr.len.toNat = body.length)
    (r : Reader) (hr : body.length ≤ r.room) : ¬ r.room < hdr.len.toNat := by
  rw [h]
  exact Nat.not_lt.mpr hr

theorem regReq_reads (m : ZZBRegReq) (h : m.len.toNat = 10) :
    Reads ZZBRegReq.decode (m.toZZigBeeMsg.bytes ++ (m.mac.data ++ be16 m.devType)) m := by
  have hlen : m.len.toNat = (m.mac.data ++ be16 m.devType).length := by
    rw [h, List.length_append, m.mac.length_eq]
    rfl
  refine Reads.start (header_reads _) ?_
  refine Takes.failIf (not_room_lt hlen) ?_
  refine Takes.failIf (fun _ _ => by rw [h]; decide) ?_
  refine Takes.call (decodeMac_reads _) ?_
  refine Takes.call (zDecodeInteger16_reads _) ?_
  exact Takes.ret m

theorem regRsp_reads (m : ZZBRegRsp) (h : m.len.toNat = 1) :
    Reads ZZBRegRsp.decode (m.toZZigBeeMsg.bytes ++ [m.status]) m := by
  refine Reads.start (header_reads _) ?_
  refine Takes.failIf (not_room_lt h) ?_
  refine Takes.call (zDecodeByte_reads _) ?_
  exact Takes.ret m

theorem setRsp_reads (m : ZZBSetRsp) (h : m.len.toNat = 1) :
    Reads ZZBSetRsp.decode (m.toZZigBeeMsg.bytes ++ [m.status]) m := by
  refine Reads.start (header_reads _) ?_
  refine Takes.failIf (not_room_lt h) ?_
  refine Takes.call (zDecodeByte_reads _) ?_
  exact Takes.ret m

theorem bindReq_reads (m : ZZBBindReq) :
    Reads ZZBBindReq.decode (m.toZZigBeeMsg.bytes ++ []) m := by
  refine Reads.start (header_reads _) ?_
  exact Takes.ret m

theorem broadcastInd_reads (m : ZZBBroadcastInd) (h : m.len.toNat = 2) :
    Reads ZZBBroadcastInd.decode (m.toZZigBeeMsg.bytes ++ be16 m.what) m := by
  refine Reads.start (header_reads _) ?_
  refine Takes.failIf (not_room_lt h) ?_
  refine Takes.call (zDecodeInteger16_reads _) ?_
  exact Takes.ret m

/-- A count byte says how many items follow, if there are no more than it can say. -/
theorem count_toNat {n : Nat} (h : n ≤ 255) : (UInt8.ofNat n).toNat = n := by
  rw [UInt8.toNat_ofNat', Nat.mod_eq_of_lt (by omega)]

theorem getReq_reads (m : ZZBGetReq) (j : Junk) (h : m.len.toNat = 1 + m.items.length)
    (hitems : m.items.length ≤ 255) :
    Reads (ZZBGetReq.new j).decode
      (m.toZZigBeeMsg.bytes ++ (UInt8.ofNat m.items.length :: m.items)) m := by
  have hlist : [UInt8.ofNat m.items.length] ++ (m.items.flatMap (fun b => [b]) ++ []) =
      UInt8.ofNat m.items.length :: m.items := by
    rw [List.flatMap_singleton', List.append_nil]
    rfl
  rw [← hlist]
  refine Reads.start (header_reads _) ?_
  refine Takes.failIf (not_room_lt ?_) ?_
  · rw [hlist, List.length_cons, h, Nat.add_comm]
  refine Takes.call (zDecodeByte_reads _) ?_
  refine Takes.times [] m.items (fun b _ => peekByte_reads b) (count_toNat hitems) ?_
  exact Takes.ret m

/-- The two classes that carry items with values. -/
theorem items_bytes (items : List ZItemPair) :
    [UInt8.ofNat items.length] ++ (items.flatMap ZItemPair.bytes ++ []) =
      UInt8.ofNat items.length :: items.flatMap ZItemPair.bytes := by
  rw [List.append_nil]
  rfl

theorem getRsp_reads (m : ZZBGetRsp) (j : Junk) (h : m.len.toNat = 1 + m.items.length * 3)
    (hitems : m.items.length ≤ 255) :
    Reads (ZZBGetRsp.new j).decode (m.toZZigBeeMsg.bytes ++
      (UInt8.ofNat m.items.length :: m.items.flatMap ZItemPair.bytes)) m := by
  rw [← items_bytes]
  refine Reads.start (header_reads _) ?_
  refine Takes.failIf (not_room_lt ?_) ?_
  · rw [items_bytes, List.length_cons, pairs_length, h, Nat.add_comm]
  refine Takes.call (zDecodeByte_reads _) ?_
  refine Takes.times [] m.items (fun p _ => decodeItemPair_reads p) (count_toNat hitems) ?_
  exact Takes.ret m

theorem setReq_reads (m : ZZBSetReq) (j : Junk) (h : m.len.toNat = 1 + m.items.length * 3)
    (hitems : m.items.length ≤ 255) :
    Reads (ZZBSetReq.new j).decode (m.toZZigBeeMsg.bytes ++
      (UInt8.ofNat m.items.length :: m.items.flatMap ZItemPair.bytes)) m := by
  rw [← items_bytes]
  refine Reads.start (header_reads _) ?_
  refine Takes.failIf (not_room_lt ?_) ?_
  · rw [items_bytes, List.length_cons, pairs_length, h, Nat.add_comm]
  refine Takes.call (zDecodeByte_reads _) ?_
  refine Takes.times [] m.items (fun p _ => decodeItemPair_reads p) (count_toNat hitems) ?_
  exact Takes.ret m

namespace ZbMsg

/-! ## Self-describing encodings -/

/-- The length field of an encoded message: two bytes behind the sync bytes and the version. -/
def lengthField (out : List UInt8) : Nat :=
  match out.drop 9 with
  | hi :: lo :: _ => (ofBe16 hi lo).toNat
  | _ => 0

/-- The value returned is the number of bytes written, and the length field the number of those
    behind the header. -/
def Describes (w : Wrote) : Prop :=
  w.rv = w.out.length ∧ lengthField w.out + 14 = w.out.length

theorem lengthField_frame (hdr : ZZigBeeMsg) (body : List UInt8) :
    lengthField (frame hdr body) = hdr.len.toNat := by
  show (ofBe16 _ _).toNat = _
  rw [ofBe16_be16]

/-- An encoder that returns what it has written: it is up to the length field. -/
theorem describes_frame (hdr : ZZigBeeMsg) (body : List UInt8) :
    Describes ⟨toInt32 (frame hdr body).length, frame hdr body⟩ ↔
      hdr.len.toNat = body.length := by
  have hlt := hdr.len.toNat_lt
  constructor
  · rintro ⟨_, hfield⟩
    rw [lengthField_frame, frame_length] at hfield
    omega
  · intro h
    refine ⟨?_, ?_⟩
    · show toInt32 (frame hdr body).length = (frame hdr body).length
      rw [toInt32_of_lt (by rw [frame_length]; omega)]
    · show lengthField (frame hdr body) + 14 = (frame hdr body).length
      rw [lengthField_frame, frame_length, h, Nat.add_comm]

/-- When a message describes itself. -/
def SelfDescribing : ZbMsg → Prop
  | getReq m => m.items.length ≤ 65534
  | setReq m => m.items.length ≤ 21844
  -- the value returned leaves the sync bytes out
  | getRsp _ => False
  -- `len_` goes out as it is
  | bindRsp m => m.len.toNat = 0
  | updateIdInfoReq m => m.len.toNat = (updateIdInfoReq m).body.length
  | updateIdInfoRsp m => m.len.toNat = 1
  | _ => True

/-- `ZZBGetRsp::encode` says what it would have used without the sync bytes. -/
theorem getRsp_not_describes (m : ZZBGetRsp) {n : Nat} (hn : n < 2 ^ 32)
    (h : 0 ≤ (m.encode n).2.rv) : ¬ Describes (m.encode n).2 := by
  simp only [ZZBGetRsp.encode] at h ⊢
  split at h
  · exact absurd h (show ¬ (0 : Int) ≤ -1 by decide)
  · rename_i hroom
    rw [if_neg hroom]
    rw [encodeCallsWith_writes (message_spells _ (pairs_spells m.items)) hn h]
    rintro ⟨hrv, hfield⟩
    rw [lengthField_frame, frame_length] at hfield
    simp only [frame_length] at hrv
    change m.getBodyLen.toNat + 14 = _ at hfield
    have henc : m.getEncodeLen.toNat = (6 + m.getBodyLen.toNat) % 2 ^ 16 := UInt16.toNat_add _ _
    omega

/-- `ZZBUpdateIdInfoReq::encode` may write so much that an `int` cannot count it; the length field
    cannot either. -/
theorem updateIdInfoReq_describes (m : ZZBUpdateIdInfoReq) {n : Nat} (hn : n < 2 ^ 32)
    (h : 0 ≤ (m.encode n).2.rv) :
    Describes (m.encode n).2 ↔ m.len.toNat = (updateIdInfoReq m).body.length := by
  have hvec : Writes (encodeVector encodeItemIdInfo m.idList) (updateIdInfoReq m).body :=
    encodeVector_writes encodeItemIdInfo_emits m.idList
  have hlt := m.len.toNat_lt
  simp only [ZZBUpdateIdInfoReq.encode, encodeCalls, encodeCallsWith] at h ⊢
  rw [Writer.start_eq hn] at h ⊢
  cases hc : (Writer.at [] n).calls
      [m.toZZigBeeMsg.encode, encodeVector encodeItemIdInfo m.idList] with
  | error r =>
    rw [hc] at h
    exact absurd h (Int.not_le.mpr (Writer.calls_error _ hc))
  | ok w =>
    obtain ⟨hout, hpos⟩ := Writer.calls_last (Spells.single (header_emits _)) hvec hc
    have hframe : w.out = frame m.toZZigBeeMsg (updateIdInfoReq m).body := hout
    show Describes ⟨toInt32 w.pos, w.out⟩ ↔ _
    constructor
    · rintro ⟨_, hfield⟩
      rw [hframe, lengthField_frame, frame_length] at hfield
      omega
    · intro hlen
      have hsmall : w.pos = (frame m.toZZigBeeMsg (updateIdInfoReq m).body).length := by
        rw [hpos, toInt32_of_lt (by omega), frame_length, Int.toNat_natCast]
        rfl
      rw [hsmall, hframe]
      exact (describes_frame _ _).mpr hlen

/-- **Self-describing encodings.**  When an encoding succeeds, the value returned and the length
    field tell the bytes written exactly if the message is self-describing. -/
theorem encode_describes_iff (m : ZbMsg) {n : Nat} (hn : n < 2 ^ 32)
    (h : 0 ≤ (m.encode n).2.rv) : Describes (m.encode n).2 ↔ m.SelfDescribing := by
  cases m with
  | regReq m =>
    have hw : (m.encode n).2 = _ :=
      encodeCalls_writes (message_spells _ (regReq_spells m)) n hn h
    show Describes (m.encode n).2 ↔ True
    rw [hw, describes_frame, iff_true, body, List.length_append, m.mac.length_eq]
    rfl
  | regRsp m =>
    have hw : (m.encode n).2 = _ := encodeCallsByRoom_writes
      (message_spells _ (Spells.single (zEncodeByte_emits m.status))) n hn h
    show Describes (m.encode n).2 ↔ True
    rw [hw, describes_frame, iff_true]
    rfl
  | getReq m =>
    have hw : (m.encode n).2 = _ :=
      encodeCallsByRoom_writes (message_spells _ (getReq_spells m.items)) n hn h
    have hlen : m.getBodyLen.toNat = (1 + m.items.length * 1) % 2 ^ 16 := UInt16.toNat_ofNat'
    show Describes (m.encode n).2 ↔ m.items.length ≤ 65534
    rw [hw, describes_frame, List.length_cons]
    show m.getBodyLen.toNat = _ ↔ _
    omega
  | getRsp m =>
    show Describes (m.encode n).2 ↔ False
    exact iff_false_intro (getRsp_not_describes m hn h)
  | setReq m =>
    have hw : (m.encode n).2 = _ :=
      encodeCallsByRoom_writes (message_spells _ (pairs_spells m.items)) n hn h
    have hlen : m.getBodyLen.toNat = (1 + m.items.length * 3) % 2 ^ 16 := UInt16.toNat_ofNat'
    show Describes (m.encode n).2 ↔ m.items.length ≤ 21844
    rw [hw, describes_frame, List.length_cons, pairs_length]
    show m.getBodyLen.toNat = _ ↔ _
    omega
  | setRsp m =>
    have hw : (m.encode n).2 = _ := encodeCallsByRoom_writes
      (message_spells _ (Spells.single (zEncodeByte_emits m.status))) n hn h
    show Describes (m.encode n).2 ↔ True
    rw [hw, describes_frame, iff_true]
    rfl
  | bindReq m =>
    have hw : (m.encode n).2 = _ :=
      encodeCallsByRoom_writes (message_spells _ Spells.nil) n hn h
    show Describes (m.encode n).2 ↔ True
    rw [hw, describes_frame, iff_true]
    rfl
  | bindRsp m =>
    have hw : (m.encode n).2 = _ := encodeCalls_writes (message_spells _ Spells.nil) n hn h
    show Describes (m.encode n).2 ↔ m.len.toNat = 0
    rw [hw, describes_frame, List.length_nil]
  | updateIdInfoReq m => exact updateIdInfoReq_describes m hn h
  | updateIdInfoRsp m =>
    have hw : (m.encode n).2 = _ := encodeCalls_writes
      (message_spells _ (Spells.single (zEncodeByte_emits m.status))) n hn h
    show Describes (m.encode n).2 ↔ m.len.toNat = 1
    rw [hw, describes_frame, List.length_singleton]
  | broadcastInd m =>
    have hw : (m.encode n).2 = _ := encodeCallsByRoom_writes
      (message_spells _ (Spells.single (zEncodeInteger16_emits m.what))) n hn h
    show Describes (m.encode n).2 ↔ True
    rw [hw, describes_frame, iff_true]
    rfl

/-- A response without items returns 7, and 15 bytes are written. -/
theorem getRsp_encode_short :
    (encode (getRsp ⟨⟨1, 0, zIdZbGetRsp, 9⟩, []⟩) 4096).2 =
      ⟨7, ZZigBeeMsg.syncBytes ++ [1, 0, 1, 0x82, 0, 9, 0]⟩ ∧
    ¬ Describes (encode (getRsp ⟨⟨1, 0, zIdZbGetRsp, 9⟩, []⟩) 4096).2 := by
  refine ⟨by decide, ?_⟩
  rw [Describes]
  decide

/-- A request for two items describes itself. -/
theorem getReq_encode_describes :
    Describes (encode (getReq ⟨⟨1, 0, zIdZbGetReq, 9⟩, [3, 4]⟩) 17).2 :=
  (encode_describes_iff _ (by decide) (by decide)).mpr (by show 2 ≤ 65534; decide)

/-! ## Round trip -/

/-- The messages that are meant to come back: eight classes, with lists a count byte can count. -/
def Codable : ZbMsg → Prop
  | regReq _ => True
  | regRsp _ => True
  | getReq m => m.items.length ≤ 255
  | getRsp m => m.items.length ≤ 255
  | setReq m => m.items.length ≤ 255
  | setRsp _ => True
  | bindReq _ => True
  | broadcastInd _ => True
  | bindRsp _ => False
  | updateIdInfoReq _ => False
  | updateIdInfoRsp _ => False

theorem body_length_le {m : ZbMsg} (hm : m.Codable) : m.body.length ≤ 766 := by
  cases m with
  | regReq m =>
    rw [body, List.length_append, m.mac.length_eq, be16_length]
    omega
  | regRsp m => exact Nat.le_of_ble_eq_true rfl
  | getReq m =>
    have hitems : m.items.length ≤ 255 := hm
    rw [body, List.length_cons]
    omega
  | getRsp m =>
    have hitems : m.items.length ≤ 255 := hm
    rw [body, List.length_cons, pairs_length]
    omega
  | setReq m =>
    have hitems : m.items.length ≤ 255 := hm
    rw [body, List.length_cons, pairs_length]
    omega
  | setRsp m => exact Nat.le_of_ble_eq_true rfl
  | bindReq m => exact Nat.le_of_ble_eq_true rfl
  | bindRsp m => exact hm.elim
  | updateIdInfoReq m => exact hm.elim
  | updateIdInfoRsp m => exact hm.elim
  | broadcastInd m => exact Nat.le_of_ble_eq_true rfl

/-- The length field that goes out has the length of the body. -/
theorem sized_len {m : ZbMsg} (hm : m.Codable) :
    (UInt16.ofNat m.body.length).toNat = m.body.length := by
  have hle := body_length_le hm
  rw [UInt16.toNat_ofNat', Nat.mod_eq_of_lt (by omega)]

theorem header_sized (m : ZbMsg) :
    m.sized.header = { m.header with len := UInt16.ofNat m.body.length } := by
  cases m <;> rfl

/-- What an encoder that returns its count leaves in a buffer with room for the message. -/
theorem calls_out {hdr : ZZigBeeMsg} {es : List Encoder} {body : List UInt8} (h : Spells es body)
    {n : Nat} (hn : n < 2 ^ 32) (hroom : 14 + body.length ≤ n) (ret : Nat → Writer → Int) :
    (encodeCallsWith ret (hdr.encode :: es) n).out = frame hdr body := by
  rw [encodeCallsWith_fits (message_spells hdr h) ret hn (by rw [frame_length]; exact hroom)]

/-- What a successful encoding leaves in the buffer, where there is room. -/
theorem encode_out {m : ZbMsg} (hm : m.Codable) {n : Nat} (hn : n < 2 ^ 32)
    (hroom : 14 + m.body.length ≤ n) (hrsp : ∀ g, m = getRsp g → n < 2 ^ 31) :
    (m.encode n).2.out = frame m.sized.header m.body := by
  cases m with
  | regReq m =>
    have hsized : UInt16.ofNat (regReq m).body.length = ZZBRegReq.getBodyLen := by
      rw [body, List.length_append, m.mac.length_eq]
      rfl
    rw [sized, hsized]
    show (encodeCalls (ZZigBeeMsg.encode _ :: _) n).out = _
    exact calls_out (regReq_spells m) hn hroom _
  | regRsp m =>
    show (encodeCallsByRoom (ZZigBeeMsg.encode _ :: _) n).out = _
    exact calls_out (Spells.single (zEncodeByte_emits m.status)) hn hroom _
  | getReq m =>
    have hsized : UInt16.ofNat (getReq m).body.length = m.getBodyLen := by
      rw [body, List.length_cons, Nat.add_comm, ZZBGetReq.getBodyLen, Nat.mul_one]
    rw [sized, hsized]
    show (encodeCallsByRoom (ZZigBeeMsg.encode _ :: _) n).out = _
    exact calls_out (getReq_spells m.items) hn hroom _
  | getRsp m =>
    have hitems : m.items.length ≤ 255 := hm
    have hlt := hrsp m rfl
    have hbody : (getRsp m).body.length = 1 + m.items.length * 3 := by
      rw [body, List.length_cons, pairs_length, Nat.add_comm]
    have hsized : UInt16.ofNat (getRsp m).body.length = m.getBodyLen := by
      rw [hbody]
      rfl
    have hlen : m.getBodyLen.toNat = 1 + m.items.length * 3 := by
      rw [← hsized, hbody, UInt16.toNat_ofNat', Nat.mod_eq_of_lt (by omega)]
    have henc : m.getEncodeLen.toNat = (6 + m.getBodyLen.toNat) % 2 ^ 16 := UInt16.toNat_add _ _
    have hpass : ¬ toInt32 n < (m.getEncodeLen.toNat : Int) := by
      rw [toInt32_of_lt hlt, henc, hlen]
      omega
    rw [sized, hsized]
    show (m.encode n).2.out = _
    simp only [ZZBGetRsp.encode]
    rw [if_neg hpass]
    exact calls_out (pairs_spells m.items) hn hroom _
  | setReq m =>
    have hsized : UInt16.ofNat (setReq m).body.length = m.getBodyLen := by
      rw [body, List.length_cons, pairs_length, Nat.add_comm]
      rfl
    rw [sized, hsized]
    show (encodeCallsByRoom (ZZigBeeMsg.encode _ :: _) n).out = _
    exact calls_out (pairs_spells m.items) hn hroom _
  | setRsp m =>
    show (encodeCallsByRoom (ZZigBeeMsg.encode _ :: _) n).out = _
    exact calls_out (Spells.single (zEncodeByte_emits m.status)) hn hroom _
  | bindReq m =>
    show (encodeCallsByRoom (ZZigBeeMsg.encode _ :: _) n).out = _
    exact calls_out Spells.nil hn hroom _
  | bindRsp m => exact hm.elim
  | updateIdInfoReq m => exact hm.elim
  | updateIdInfoRsp m => exact hm.elim
  | broadcastInd m =>
    show (encodeCallsByRoom (ZZigBeeMsg.encode _ :: _) n).out = _
    exact calls_out (Spells.single (zEncodeInteger16_emits m.what)) hn hroom _

/-- A decoder that reads still reads under a wrapper. -/
theorem lift_reads {β : Type} (wrap : β → ZbMsg) {d : Decoder β} {bs : List UInt8} {a : β}
    (h : Reads d bs a) : Reads (lift wrap d) bs (wrap a) := by
  intro rest n hn hlen
  rw [lift, h rest n hn hlen]
  rfl

/-- What follows the sync bytes decodes, in a fresh object, to the message with its length set. -/
theorem decode_reads {m : ZbMsg} (hm : m.Codable) (j : Junk) :
    Reads (m.fresh j).decode (m.sized.header.bytes ++ m.body) m.sized := by
  have hlen := sized_len hm
  cases m with
  | regReq m =>
    refine lift_reads regReq (regReq_reads _ (hlen.trans ?_))
    rw [body, List.length_append, m.mac.length_eq]
    rfl
  | regRsp m => exact lift_reads regRsp (regRsp_reads _ hlen)
  | getReq m =>
    refine lift_reads getReq (getReq_reads _ j (hlen.trans ?_) hm)
    rw [body, List.length_cons, Nat.add_comm]
  | getRsp m =>
    refine lift_reads getRsp (getRsp_reads _ j (hlen.trans ?_) hm)
    rw [body, List.length_cons, pairs_length, Nat.add_comm]
  | setReq m =>
    refine lift_reads setReq (setReq_reads _ j (hlen.trans ?_) hm)
    rw [body, List.length_cons, pairs_length, Nat.add_comm]
  | setRsp m => exact lift_reads setRsp (setRsp_reads _ hlen)
  | bindReq m => exact lift_reads bindReq (bindReq_reads _)
  | bindRsp m => exact hm.elim
  | updateIdInfoReq m => exact hm.elim
  | updateIdInfoRsp m => exact hm.elim
  | broadcastInd m => exact lift_reads broadcastInd (broadcastInd_reads _ hlen)

/-- The bytes written are eight 'Z', header and body; and what follows the 'Z', with anything
    behind it, decodes in a fresh object to the message, its `len_` set. -/
def RoundTrips (m : ZbMsg) (n : Nat) : Prop :=
  (m.encode n).2.out = frame m.sized.header m.body ∧
    ∀ (j : Junk) (following : List UInt8),
      let buf := (m.encode n).2.out.drop 8 ++ following
      buf.length < 2 ^ 32 →
        (m.fresh j).decode buf buf.length = .ok (6 + m.body.length, m.sized)

/-- **Round trip.**  In every buffer with room for it a message comes back, unless it is a
    `ZZBGetRsp` and the buffer has 2^31 bytes or more. -/
theorem encode_decode_iff {m : ZbMsg} (hm : m.Codable) {n : Nat} (hn : n < 2 ^ 32)
    (hroom : 14 + m.body.length ≤ n) : m.RoundTrips n ↔ ∀ g, m = getRsp g → n < 2 ^ 31 := by
  constructor
  · rintro ⟨hout, _⟩ g rfl
    by_contra hge
    -- (int)buf_len is negative: the encoder gives up
    have hneg : toInt32 n < (g.getEncodeLen.toNat : Int) := by
      rw [toInt32, Nat.mod_eq_of_lt hn, if_neg hge]
      omega
    have hnone : (encode (getRsp g) n).2.out = [] := by
      show (g.encode n).2.out = []
      simp only [ZZBGetRsp.encode]
      rw [if_pos hneg]
    have hlen := congrArg List.length (hnone.symm.trans hout)
    rw [frame_length, List.length_nil] at hlen
    omega
  · intro hrsp
    have hout := encode_out hm hn hroom hrsp
    refine ⟨hout, ?_⟩
    intro j following buf hbuf
    have hdrop : buf = m.sized.header.bytes ++ m.body ++ following := by
      show (m.encode n).2.out.drop 8 ++ following = _
      rw [hout, frame, List.append_assoc]
      rfl
    have hlen : (m.sized.header.bytes ++ m.body).length = 6 + m.body.length := by
      rw [List.length_append, ZZigBeeMsg.bytes_length]
    have hfits : (m.sized.header.bytes ++ m.body).length ≤ buf.length := by
      rw [hdrop]
      exact (List.prefix_append _ following).length_le
    have hread := decode_reads hm j following buf.length hbuf hfits
    rw [hlen] at hread
    rw [hdrop] at hread ⊢
    rw [hread]
    push_cast
    rfl

/-- A response in a buffer of 2^31 bytes is not written. -/
theorem getRsp_encode_huge :
    ¬ RoundTrips (getRsp ⟨⟨1, 0, zIdZbGetRsp, 9⟩, []⟩) (2 ^ 31) := by
  rintro ⟨hout, _⟩
  have hnone : (encode (getRsp ⟨⟨1, 0, zIdZbGetRsp, 9⟩, []⟩) (2 ^ 31)).2.out = [] := by decide
  have hlen := congrArg List.length (hnone.symm.trans hout)
  rw [frame_length, List.length_nil] at hlen
  omega

/-- A request for two items, in a buffer it just fits. -/
theorem getReq_round_trips : RoundTrips (getReq ⟨⟨1, 0, zIdZbGetReq, 9⟩, [3, 4]⟩) 17 :=
  (encode_decode_iff (by show 2 ≤ 255; decide) (by decide) (by decide)).mpr
    fun _ h => absurd h (by simp)

end ZbMsg

end Monsys
