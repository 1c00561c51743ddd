/-
  What a push message is after it went through a `ZByteBuffer`.

  1. **The two directions as tapes** — `writing` moves over the bytes it appends below the position,
     `reading` over those between the position and the limit.  Each primitive passes its own bytes.
  2. **Bytes of the parts** — `wire`, what a value, a TLV, a device and a message are in the buffer.
     A value is compared by its type, its length and its bytes: the block around them differs.
  3. **Each codec passes its `wire`** — in writing always, in reading with the same content, given
     that no length is more than its `uint16_t` holds and that a value was last set by a `put`.
  4. **The message** — encoded into a cleared buffer with room for it, flipped and decoded.
-/
import Monsys.PushCodec

namespace Monsys

open Wire (Stop be16 be32 ofBe16 ofBe32)

namespace ZByteBuffer

/-! ## The two directions -/

/-- What has been put moves the position. -/
theorem pos_of_held {b b' : ZByteBuffer} {bs : List UInt8} (h : b'.held = b.held ++ bs) :
    b'.pos = b.pos + bs.length := by
  rw [← ZDataBuffer.held_length b', h, List.length_append, ZDataBuffer.held_length]

theorem remaining_of_held {b b' : ZByteBuffer} {bs : List UInt8} (h : b'.held = b.held ++ bs)
    (hlimit : b'.limit = b.limit) : b.remaining = b'.remaining + bs.length := by
  have hpos := pos_of_held h
  have hle := b'.pos_le
  simp only [ZDataBuffer.remaining]
  omega

theorem room_of_held {b b' : ZByteBuffer} {bs bs' : List UInt8}
    (hroom : (bs ++ bs').length ≤ b.remaining) (h : b'.held = b.held ++ bs)
    (hlimit : b'.limit = b.limit) : bs'.length ≤ b'.remaining := by
  have hleft := remaining_of_held h hlimit
  rw [List.length_append] at hroom
  omega

/-- Appending below the position. -/
def writing : Tape ZByteBuffer UInt8 where
  Ready bs b := bs.length ≤ b.remaining
  Moved bs b b' := b'.held = b.held ++ bs ∧ b'.limit = b.limit
  left := ZDataBuffer.remaining
  moved_nil b := ⟨(List.append_nil _).symm, rfl⟩
  ready_append h := Nat.le_trans (List.sublist_append_left _ _).length_le h
  ready_rest hready hmoved := room_of_held hready hmoved.1 hmoved.2
  moved_append h h' := ⟨by rw [h'.1, h.1, List.append_assoc], h'.2.trans h.2⟩
  moved_left hmoved := remaining_of_held hmoved.1 hmoved.2

/-- Taking from between the position and the limit. -/
def reading : Tape ZByteBuffer UInt8 where
  Ready bs b := ∃ tail, b.unread = bs ++ tail
  Moved bs b b' := b.unread = bs ++ b'.unread
  left := ZDataBuffer.remaining
  moved_nil _ := rfl
  ready_append := by
    rintro bs bs' b ⟨tail, h⟩
    exact ⟨bs' ++ tail, by rw [h, List.append_assoc]⟩
  ready_rest := by
    rintro bs bs' b b' ⟨tail, h⟩ hmoved
    rw [hmoved, List.append_assoc] at h
    exact ⟨tail, List.append_cancel_left h⟩
  moved_append h h' := by rw [h, h', List.append_assoc]
  moved_left := by
    intro bs b b' hmoved
    rw [← ZDataBuffer.unread_length b, hmoved, List.length_append, ZDataBuffer.unread_length,
      Nat.add_comm]

theorem writes_put (v : List UInt8) : writing.Passes (put v v.length) v v.length := by
  intro b hready
  obtain ⟨b', hput, hheld, hlimit⟩ := b.put_room (v := v) hready
  refine ⟨b', ?_, hheld, hlimit⟩
  unfold put
  rw [hput]

theorem writes_putOne (v : UInt8) : writing.Passes (putOne v) [v] 1 := by
  intro b hready
  have hroom : 0 < b.remaining := hready
  unfold putOne ZDataBuffer.putOne
  rw [dif_pos hroom]
  exact ⟨_, rfl, ZDataBuffer.store_held b [v] hroom, rfl⟩

theorem writes_putInt16 (v : UInt16) : writing.Passes (putInt16 v) (be16 v) 2 := by
  refine .check (fun b hready => ?_) (writes_put (be16 v)).last
  have hroom : 2 ≤ b.remaining := hready
  exact decide_eq_false (by omega)

theorem writes_putInt32 (v : UInt32) : writing.Passes (putInt32 v) (be32 v) 4 := by
  refine .check (fun b hready => ?_) (writes_put (be32 v)).last
  have hroom : 4 ≤ b.remaining := hready
  exact decide_eq_false (by omega)

/-- A buffer that is ready for some bytes to be read has as many remaining. -/
theorem reading_remaining {bs : List UInt8} {b : ZByteBuffer} (h : reading.Ready bs b) :
    bs.length ≤ b.remaining := by
  obtain ⟨tail, h⟩ := h
  rw [← ZDataBuffer.unread_length, h, List.length_append]
  omega

theorem reads_check {α : Type} {n : Nat} {f : Unit → Code α} {bs : List UInt8} {a : α}
    (hn : n ≤ bs.length) (hf : reading.Passes (f ()) bs a) :
    reading.Passes (failIf (fun b => b.remaining < n) >>= f) bs a := by
  refine .check (fun b hready => ?_) hf
  have hroom := reading_remaining hready
  exact decide_eq_false (by omega)

theorem reads_get (bs : List UInt8) : reading.Passes (get bs.length) bs bs := by
  rintro b ⟨tail, h⟩
  obtain ⟨b', hget, htail⟩ := b.get_unread h
  refine ⟨b', ?_, ?_⟩
  · unfold get
    rw [hget]
  · show b.unread = bs ++ b'.unread
    rw [h, htail]

theorem reads_getOne (v : UInt8) : reading.Passes getOne [v] v := by
  rintro b ⟨tail, h⟩
  obtain ⟨b', hget, htail⟩ := b.getOne_unread h
  refine ⟨b', ?_, ?_⟩
  · unfold getOne
    rw [hget]
  · show b.unread = [v] ++ b'.unread
    rw [h, htail]
    rfl

theorem reads_raw (bs : List UInt8) : reading.Passes (raw bs.length) bs bs := by
  rintro b ⟨tail, h⟩
  obtain ⟨hle, hfst, hsnd⟩ := b.fetch_unread h
  refine ⟨(b.fetch bs.length hle).2, ?_, ?_⟩
  · unfold raw
    rw [dif_pos hle]
    exact congrArg Except.ok (Prod.ext hfst rfl)
  · show b.unread = bs ++ (b.fetch bs.length hle).2.unread
    rw [h, hsnd]

theorem reads_getInt16 (v : UInt16) : reading.Passes getInt16 (be16 v) v := by
  refine reads_check (Nat.le_refl 2) ((reads_get (be16 v)).still ?_)
  show reading.Passes (pure (ofBe16 _ _)) [] v
  rw [Wire.ofBe16_be16]
  exact .ret v

theorem reads_getInt32 (v : UInt32) : reading.Passes getInt32 (be32 v) v := by
  refine reads_check (Nat.le_refl 4) ((reads_get (be32 v)).still ?_)
  show reading.Passes (pure (ofBe32 _ _ _ _)) [] v
  rw [Wire.ofBe32_be32]
  exact .ret v

theorem writes_encoding {c : Code Unit} {bs : List UInt8} (hc : writing.Passes c bs ()) :
    writing.Passes (encoding c) bs bs.length := hc.counted.last

theorem reads_decoding {α : Type} {c : Code α} {bs : List UInt8} {a : α}
    (hc : reading.Passes c bs a) : reading.Passes (decoding c) bs ((bs.length : Int), a) :=
  hc.counted

end ZByteBuffer

namespace PushCodec

open ZByteBuffer

/-! ## Values -/

namespace VData

/-- The value was last set by a `put`; a string by one of a length that fits its count. -/
inductive WasPut (v : VData) : Prop
  | byte (w : VData) (x : Int8) (hv : v = w.putByte x)
  | int16 (w : VData) (x : Int16) (hv : v = w.putInt16 x)
  | int32 (w : VData) (x : Int32) (hv : v = w.putInt32 x)
  | str (w : VData) (s : List UInt8) (hs : s.length ≤ 65535) (hv : v = w.putStr s)

/-- The bytes of the value as they were written. -/
def written (v : VData) : List UInt8 := v.bytes.map (·.getD 0)

/-- A value in the buffer: a string behind its length, a number from its high byte down. -/
def wire (v : VData) : List UInt8 :=
  if v.type = TYPE_STR then be16 (UInt16.ofNat v.dataLen) ++ v.written else v.written.reverse

@[simp] theorem setType_type (v : VData) (t : Int32) : (v.setType t).type = t := rfl

@[simp] theorem store_type (v : VData) (t : Int32) (bs : List UInt8) : (v.store t bs).type = t :=
  rfl

@[simp] theorem store_dataLen (v : VData) (t : Int32) (bs : List UInt8) :
    (v.store t bs).dataLen = bs.length := by
  show (v.resize bs.length).dataLen = bs.length
  unfold resize
  split <;> rfl

@[simp] theorem store_bytes (v : VData) (t : Int32) (bs : List UInt8) :
    (v.store t bs).bytes = bs.map some := by
  rw [bytes, store_dataLen]
  show (bs.map some ++ (v.resize bs.length).data.drop bs.length).take bs.length = bs.map some
  rw [← List.length_map some, List.take_left]

@[simp] theorem store_written (v : VData) (t : Int32) (bs : List UInt8) :
    (v.store t bs).written = bs := by
  rw [written, store_bytes, List.map_map]
  exact List.map_id bs

theorem store_load (v : VData) (t : Int32) (bs : List UInt8) :
    (v.store t bs).load bs.length = some bs := by
  have hlen : bs.length ≤ (v.store t bs).data.length := by
    show bs.length ≤ (bs.map some ++ _).length
    rw [List.length_append, List.length_map]
    omega
  have hbytes := store_bytes v t bs
  rw [bytes, store_dataLen] at hbytes
  rw [load, if_pos hlen, hbytes, List.mapM_map]
  show bs.mapM (fun b => pure b) = some bs
  rw [List.mapM_pure, List.map_id']
  rfl

@[simp] theorem putByte_type (v : VData) (x : Int8) : (v.putByte x).type = TYPE_INT8 := rfl

@[simp] theorem putInt16_type (v : VData) (x : Int16) : (v.putInt16 x).type = TYPE_INT16 := rfl

@[simp] theorem putInt32_type (v : VData) (x : Int32) : (v.putInt32 x).type = TYPE_INT32 := rfl

@[simp] theorem putStr_type (v : VData) (s : List UInt8) : (v.putStr s).type = TYPE_STR := rfl

theorem putStr_dataLen (v : VData) (s : List UInt8) : (v.putStr s).dataLen = s.length :=
  store_dataLen v TYPE_STR s

theorem getByte_putByte (v : VData) (x : Int8) : (v.putByte x).getByte = some x := by
  have h : (v.putByte x).load 1 = some [x.toUInt8] := store_load v TYPE_INT8 [x.toUInt8]
  rw [getByte, h]
  rfl

theorem getInt16_putInt16 (v : VData) (x : Int16) : (v.putInt16 x).getInt16 = some x := by
  have h : (v.putInt16 x).load 2 = some (be16 x.toUInt16).reverse :=
    store_load v TYPE_INT16 (be16 x.toUInt16).reverse
  rw [getInt16, h]
  show some (ofBe16 _ _).toInt16 = some x
  rw [Wire.ofBe16_be16, Int16.toInt16_toUInt16]

theorem getInt32_putInt32 (v : VData) (x : Int32) : (v.putInt32 x).getInt32 = some x := by
  have h : (v.putInt32 x).load 4 = some (be32 x.toUInt32).reverse :=
    store_load v TYPE_INT32 (be32 x.toUInt32).reverse
  rw [getInt32, h]
  show some (ofBe32 _ _ _ _).toInt32 = some x
  rw [Wire.ofBe32_be32, Int32.toInt32_toUInt32]

@[simp] theorem wire_putByte (v : VData) (x : Int8) : (v.putByte x).wire = [x.toUInt8] := by
  rw [wire, putByte, store_type, if_neg (by decide), store_written]
  rfl

@[simp] theorem wire_putInt16 (v : VData) (x : Int16) :
    (v.putInt16 x).wire = be16 x.toUInt16 := by
  rw [wire, putInt16, store_type, if_neg (by decide), store_written, List.reverse_reverse]

@[simp] theorem wire_putInt32 (v : VData) (x : Int32) :
    (v.putInt32 x).wire = be32 x.toUInt32 := by
  rw [wire, putInt32, store_type, if_neg (by decide), store_written, List.reverse_reverse]

@[simp] theorem wire_putStr (v : VData) (s : List UInt8) :
    (v.putStr s).wire = be16 (UInt16.ofNat s.length) ++ s := by
  rw [wire, putStr, store_type, if_pos rfl, store_dataLen, store_written]

/-- A value with the same type and bytes in a block of its own: what a decoder makes of it. -/
def afresh (v : VData) : VData := (new.setType v.type).store v.type v.written

/-- The same in the block of another value, which is decoded into. -/
def inBlock (v w : VData) : VData := (w.setType v.type).store v.type v.written

theorem inBlock_store (v w : VData) (t : Int32) (bs : List UInt8) :
    (v.store t bs).inBlock w = (w.setType t).store t bs := by
  rw [inBlock, store_type, store_written]

/-- What every `put` comes down to. -/
theorem WasPut.stored {v : VData} (h : v.WasPut) : ∃ w t bs, v = store w t bs := by
  cases h with
  | byte w x hv => exact ⟨w, _, _, hv⟩
  | int16 w x hv => exact ⟨w, _, _, hv⟩
  | int32 w x hv => exact ⟨w, _, _, hv⟩
  | str w s hs hv => exact ⟨w, _, _, hv⟩

/-- The type that arrives is the one that was sent. -/
theorem WasPut.received {v : VData} (h : v.WasPut) :
    v.type.toUInt32.toUInt16.toUInt32.toInt32 = v.type := by
  cases h with
  | byte w x hv => rw [hv, putByte_type]; decide
  | int16 w x hv => rw [hv, putInt16_type]; decide
  | int32 w x hv => rw [hv, putInt32_type]; decide
  | str w s hs hv => rw [hv, putStr_type]; decide

end VData

/-- A `uint16_t` holds a length up to 65535. -/
theorem lengthOfNat {α : Type} {l : List α} (h : l.length ≤ 65535) :
    (UInt16.ofNat l.length).toNat = l.length := by
  rw [UInt16.toNat_ofNat', Nat.mod_eq_of_lt (by omega)]

/-! ## TLV and `dev_info_t` -/

namespace TLV

/-- A TLV in the buffer: the tag, the type, the value. -/
def wire (v : TLV) : List UInt8 :=
  be16 v.tag ++ (be16 v.value.type.toUInt32.toUInt16 ++ v.value.wire)

def afresh (v : TLV) : TLV := ⟨v.tag, v.value.afresh⟩

def inBlock (v d : TLV) : TLV := ⟨v.tag, v.value.inBlock d.value⟩

theorem writes_encode {v : TLV} (h : v.value.WasPut) :
    writing.Passes v.encode v.wire v.wire.length := by
  obtain ⟨tag, value⟩ := v
  refine writes_encoding (.bind (writes_putInt16 tag) (.bind (writes_putInt16 _) ?_))
  show writing.Passes (if value.type = _ then _ else _) value.wire ()
  cases h with
  | byte w x hv =>
    subst hv
    rw [VData.putByte_type, if_pos rfl, VData.getByte_putByte, VData.wire_putByte]
    exact .given (writes_putOne x.toUInt8).last
  | int16 w x hv =>
    subst hv
    rw [VData.putInt16_type, if_neg (by decide), if_pos rfl, VData.getInt16_putInt16,
      VData.wire_putInt16]
    exact .given (writes_putInt16 x.toUInt16).last
  | int32 w x hv =>
    subst hv
    rw [VData.putInt32_type, if_neg (by decide), if_neg (by decide), if_pos rfl,
      VData.getInt32_putInt32, VData.wire_putInt32]
    exact .given (writes_putInt32 x.toUInt32).last
  | str w s hs hv =>
    subst hv
    have hload : (w.putStr s).load s.length = some s := VData.store_load w VData.TYPE_STR s
    rw [VData.putStr_type, if_neg (by decide), if_neg (by decide), if_neg (by decide), if_pos rfl,
      VData.putStr_dataLen, VData.wire_putStr]
    refine .bind (writes_putInt16 _) ?_
    rw [lengthOfNat hs, hload]
    exact .given (writes_put s).last

/-- Read over another TLV, in the block of that. -/
theorem reads_decode_inBlock (d : TLV) {v : TLV} (h : v.value.WasPut) :
    reading.Passes d.decode v.wire ((v.wire.length : Int), v.inBlock d) := by
  obtain ⟨tag, value⟩ := v
  refine reads_decoding (.bind (reads_getInt16 tag) (.bind (reads_getInt16 _) ?_))
  show reading.Passes
    (if (d.value.setType value.type.toUInt32.toUInt16.toUInt32.toInt32).type = _ then _ else _)
    value.wire (TLV.mk tag (value.inBlock d.value))
  rw [h.received, VData.setType_type]
  cases h with
  | byte w x hv =>
    subst hv
    rw [VData.putByte_type, if_pos rfl, VData.wire_putByte, VData.putByte, VData.inBlock_store]
    exact reads_check (Nat.le_refl 1) (reads_getOne x.toUInt8).last
  | int16 w x hv =>
    subst hv
    rw [VData.putInt16_type, if_neg (by decide), if_pos rfl, VData.wire_putInt16, VData.putInt16,
      VData.inBlock_store]
    exact reads_check (Nat.le_refl 2) (reads_getInt16 x.toUInt16).last
  | int32 w x hv =>
    subst hv
    rw [VData.putInt32_type, if_neg (by decide), if_neg (by decide), if_pos rfl,
      VData.wire_putInt32, VData.putInt32, VData.inBlock_store]
    exact reads_check (Nat.le_refl 4) (reads_getInt32 x.toUInt32).last
  | str w s hs hv =>
    subst hv
    rw [VData.putStr_type, if_neg (by decide), if_neg (by decide), if_neg (by decide), if_pos rfl,
      VData.wire_putStr, VData.putStr, VData.inBlock_store]
    refine .bind (reads_getInt16 _) ?_
    rw [lengthOfNat hs]
    exact (reads_raw s).last

theorem reads_decode {v : TLV} (h : v.value.WasPut) :
    reading.Passes TLV.new.decode v.wire ((v.wire.length : Int), v.afresh) :=
  reads_decode_inBlock TLV.new h

/-- What there is to a TLV: all but the block that its bytes stand in. -/
structure Content where
  tag : UInt16
  type : Int32
  dataLen : Nat
  bytes : List (Option UInt8)
deriving DecidableEq

def content (v : TLV) : Content := ⟨v.tag, v.value.type, v.value.dataLen, v.value.bytes⟩

theorem inBlock_content (d : TLV) {v : TLV} (h : v.value.WasPut) :
    (v.inBlock d).content = v.content := by
  obtain ⟨w, t, bs, hv⟩ := h.stored
  unfold content inBlock
  rw [hv, VData.inBlock_store]
  simp only [VData.store_type, VData.store_dataLen, VData.store_bytes]

theorem afresh_content {v : TLV} (h : v.value.WasPut) : v.afresh.content = v.content :=
  inBlock_content TLV.new h

end TLV

namespace DevInfo

/-- A device in the buffer. -/
def wire (v : DevInfo) : List UInt8 :=
  be32 v.addr ++ (be16 (UInt16.ofNat v.name.length) ++ (v.name ++ (be32 v.state ++ be32 v.type)))

theorem writes_encode {v : DevInfo} (h : v.name.length ≤ 65535) :
    writing.Passes v.encode v.wire v.wire.length := by
  refine writes_encoding (.bind (writes_putInt32 v.addr) (.bind (writes_putInt16 _) ?_))
  rw [lengthOfNat h]
  exact .bind (writes_put v.name) (.bind (writes_putInt32 v.state) (writes_putInt32 v.type).last)

theorem reads_decode {v : DevInfo} (h : v.name.length ≤ 65535) :
    reading.Passes DevInfo.decode v.wire ((v.wire.length : Int), v) := by
  refine reads_decoding (.bind (reads_getInt32 v.addr) (.bind (reads_getInt16 _) ?_))
  rw [lengthOfNat h]
  exact .bind (reads_raw v.name) (.bind (reads_getInt32 v.state) (reads_getInt32 v.type).last)

end DevInfo

/-! ## Headers and lists -/

/-- A header in the buffer. -/
def Msg.wire (m : Msg) : List UInt8 := be32 m.header.seq ++ be32 m.header.type

theorem Msg.writes_encode (m : Msg) : writing.Passes m.encode m.wire m.wire.length :=
  writes_encoding (.bind (writes_putInt32 m.header.seq) (writes_putInt32 m.header.type).last)

theorem reads_value {α : Type} {decode : Code (Int × α)} {bs : List UInt8} {n : Int} {a : α}
    (h : reading.Passes decode bs (n, a)) : reading.Passes (value decode) bs a := h.last

theorem Msg.reads_decode (m : Msg) : reading.Passes (value Msg.decode) m.wire m :=
  reads_value (reads_decoding
    (.bind (reads_getInt32 m.header.seq) (reads_getInt32 m.header.type).last))

/-- A list in the buffer: its length, then its elements. -/
def listWire {α : Type} (wire : α → List UInt8) (list : List α) : List UInt8 :=
  be16 (UInt16.ofNat list.length) ++ list.flatMap wire

theorem writes_encodeList {α : Type} {encode : α → Code Int} {wire : α → List UInt8}
    {list : List α} (hlen : list.length ≤ 65535)
    (h : ∀ x ∈ list, ∃ n, writing.Passes (encode x) (wire x) n) :
    writing.Passes (encodeList encode list) (listWire wire list) () := by
  refine .bind (writes_putInt16 _) ?_
  rw [lengthOfNat hlen, List.take_length]
  exact .each h

theorem reads_decodeList {α β : Type} {decode : Code β} {wire : α → List UInt8} {val : α → β}
    {list : List α} (hlen : list.length ≤ 65535)
    (h : ∀ x ∈ list, reading.Passes decode (wire x) (val x)) :
    reading.Passes (decodeList decode []) (listWire wire list) (list.map val) := by
  refine .bind (reads_getInt16 _) ?_
  rw [lengthOfNat hlen]
  exact .times h

/-! ## The message -/

namespace AnyMsg

/-- What a message carries beside its header, by its class. -/
inductive Payload
  | heartbeat
  | getDevListReq
  | getDevListRsp (infoList : List DevInfo)
  | getReq (idList : List Int32)
  | getRsp (valueList : List TLV.Content)
  | setReq (valueList : List TLV.Content)
  | setRsp (status : UInt16)
deriving DecidableEq

def payload : AnyMsg → Payload
  | .heartbeat _ => .heartbeat
  | .getDevListReq _ => .getDevListReq
  | .getDevListRsp m => .getDevListRsp m.infoList
  | .getReq m => .getReq m.idList
  | .getRsp m => .getRsp (m.valueList.map TLV.content)
  | .setReq m => .setReq (m.valueList.map TLV.content)
  | .setRsp m => .setRsp m.status

/-- A list of values as a codec can carry it. -/
def SendableValues (list : List TLV) : Prop :=
  list.length ≤ 65535 ∧ ∀ v ∈ list, v.value.WasPut

/-- No list and no string is longer than its count holds, and each value was last set by a
    `put`. -/
def Sendable : AnyMsg → Prop
  | .heartbeat _ => True
  | .getDevListReq _ => True
  | .getDevListRsp m => m.infoList.length ≤ 65535 ∧ ∀ d ∈ m.infoList, d.name.length ≤ 65535
  | .getReq m => m.idList.length ≤ 65535
  | .getRsp m => SendableValues m.valueList
  | .setReq m => SendableValues m.valueList
  | .setRsp _ => True

/-- The bytes behind the header. -/
def bodyWire : AnyMsg → List UInt8
  | .heartbeat _ => []
  | .getDevListReq _ => []
  | .getDevListRsp m => listWire DevInfo.wire m.infoList
  | .getReq m => listWire (fun id => be32 id.toUInt32) m.idList
  | .getRsp m => listWire TLV.wire m.valueList
  | .setReq m => listWire TLV.wire m.valueList
  | .setRsp m => be16 m.status

/-- A message in the buffer. -/
def wire (m : AnyMsg) : List UInt8 := m.toMsg.wire ++ m.bodyWire

theorem writes_values {list : List TLV} (h : SendableValues list) :
    writing.Passes (encodeList TLV.encode list) (listWire TLV.wire list) () :=
  writes_encodeList h.1 fun v hv => ⟨_, TLV.writes_encode (h.2 v hv)⟩

theorem reads_values {list : List TLV} (h : SendableValues list) :
    reading.Passes (decodeList (value TLV.new.decode) []) (listWire TLV.wire list)
      (list.map TLV.afresh) :=
  reads_decodeList h.1 fun v hv => reads_value (TLV.reads_decode (h.2 v hv))

theorem afresh_contents {list : List TLV} (h : SendableValues list) :
    (list.map TLV.afresh).map TLV.content = list.map TLV.content := by
  rw [List.map_map]
  exact List.map_congr_left fun v hv => TLV.afresh_content (h.2 v hv)

/-- Each class's encoder writes the message. -/
theorem writes_encode {m : AnyMsg} (h : m.Sendable) :
    writing.Passes m.encode m.wire m.wire.length := by
  cases m with
  | heartbeat m => exact writes_encoding (.bind (Msg.writes_encode m.toMsg) (.ret ()))
  | getDevListReq m => exact writes_encoding (.bind (Msg.writes_encode m.toMsg) (.ret ()))
  | getDevListRsp m =>
    exact writes_encoding (.bind (Msg.writes_encode m.toMsg)
      (writes_encodeList h.1 fun d hd => ⟨_, DevInfo.writes_encode (h.2 d hd)⟩))
  | getReq m =>
    exact writes_encoding (.bind (Msg.writes_encode m.toMsg)
      (writes_encodeList h fun id _ => ⟨_, writes_putInt32 id.toUInt32⟩))
  | getRsp m => exact writes_encoding (.bind (Msg.writes_encode m.toMsg) (writes_values h))
  | setReq m => exact writes_encoding (.bind (Msg.writes_encode m.toMsg) (writes_values h))
  | setRsp m =>
    exact writes_encoding (.bind (Msg.writes_encode m.toMsg) (writes_putInt16 m.status).last)

/-- A class's decoder, called through a `Msg *`. -/
theorem reads_wrap {α : Type} {f : α → AnyMsg} {c : Code α} {bs : List UInt8} {a : α}
    (h : reading.Passes c bs a) :
    reading.Passes (wrap f (decoding c)) bs ((bs.length : Int), f a) := (reads_decoding h).last

/-- Each class's decoder, on a fresh message, reads back what the message carries. -/
theorem reads_decode {m : AnyMsg} (h : m.Sendable) (seq : UInt32) (status : UInt16) :
    ∃ m', reading.Passes (m.fresh seq status).decode m.wire ((m.wire.length : Int), m') ∧
      m'.toMsg.header = m.toMsg.header ∧ m'.payload = m.payload := by
  cases m with
  | heartbeat m =>
    exact ⟨_, reads_wrap (.bind (Msg.reads_decode m.toMsg) (.ret _)), rfl, rfl⟩
  | getDevListReq m =>
    exact ⟨_, reads_wrap (.bind (Msg.reads_decode m.toMsg) (.ret _)), rfl, rfl⟩
  | getDevListRsp m =>
    have hlist : reading.Passes (decodeList (value DevInfo.decode) [])
        (listWire DevInfo.wire m.infoList) (m.infoList.map id) :=
      reads_decodeList h.1 fun d hd => reads_value (DevInfo.reads_decode (h.2 d hd))
    rw [List.map_id] at hlist
    exact ⟨_, reads_wrap (.bind (Msg.reads_decode m.toMsg) hlist.last), rfl, rfl⟩
  | getReq m =>
    have hlist : reading.Passes (decodeList (do let tmp ← getInt32; return tmp.toInt32) [])
        (listWire (fun id : Int32 => be32 id.toUInt32) m.idList) (m.idList.map id) :=
      reads_decodeList h fun id _ => (reads_getInt32 id.toUInt32).last
    rw [List.map_id] at hlist
    exact ⟨_, reads_wrap (.bind (Msg.reads_decode m.toMsg) hlist.last), rfl, rfl⟩
  | getRsp m =>
    refine ⟨_, reads_wrap (.bind (Msg.reads_decode m.toMsg) (reads_values h).last), rfl, ?_⟩
    exact congrArg Payload.getRsp (afresh_contents h)
  | setReq m =>
    refine ⟨_, reads_wrap (.bind (Msg.reads_decode m.toMsg) (reads_values h).last), rfl, ?_⟩
    exact congrArg Payload.setReq (afresh_contents h)
  | setRsp m =>
    exact ⟨_, reads_wrap (.bind (Msg.reads_decode m.toMsg) (reads_getInt16 m.status).last), rfl, rfl⟩

/-- Bytes written into a cleared buffer with room for them stand before its reader after a flip,
    and reading them leaves nothing. -/
theorem through_buffer {α β : Type} {put : Code α} {take : Code β} {bs : List UInt8} {a : α} {r : β}
    (hput : writing.Passes put bs a) (htake : reading.Passes take bs r) (b : ZByteBuffer)
    (hroom : bs.length ≤ b.capability) :
    ∃ b' b'', put b.clear = .ok (a, b') ∧ take b'.flip = .ok (r, b'') ∧ b''.remaining = 0 := by
  obtain ⟨b', hrun, hmoved⟩ := hput b.clear hroom
  have hheld : b'.flip.unread = bs := (ZDataBuffer.flip_unread b').trans hmoved.1
  obtain ⟨b'', hrun', hmoved'⟩ := htake b'.flip ⟨[], by rw [hheld, List.append_nil]⟩
  have hrest : b''.unread = [] := by
    have hsplit : bs = bs ++ b''.unread := hheld.symm.trans hmoved'
    exact List.append_right_eq_self.mp hsplit.symm
  exact ⟨b', b'', hrun, hrun', by rw [← ZDataBuffer.unread_length, hrest, List.length_nil]⟩

/-- **Round trip**: any message that its counts can hold, encoded into a cleared buffer with room
    for it and flipped, is what a fresh message of its class decodes: the count is the one that
    `encode` returned, nothing is left, and header and payload are those of the message. -/
theorem round_trips {m : AnyMsg} (hm : m.Sendable) (b : ZByteBuffer)
    (hroom : m.wire.length ≤ b.capability) (seq : UInt32) (status : UInt16) :
    ∃ n b' m' b'', m.encode b.clear = .ok (n, b') ∧
      (m.fresh seq status).decode b'.flip = .ok ((n, m'), b'') ∧ b''.remaining = 0 ∧
      m'.toMsg.header = m.toMsg.header ∧ m'.payload = m.payload := by
  obtain ⟨m', hreads, hheader, hpayload⟩ := reads_decode hm seq status
  obtain ⟨b', b'', hencode, hdecode, hleft⟩ := through_buffer (writes_encode hm) hreads b hroom
  exact ⟨m.wire.length, b', m', b'', hencode, hdecode, hleft, hheader, hpayload⟩

/-- An answer with a string that has a NUL byte in it and a negative number. -/
def sampleRsp : AnyMsg :=
  .getRsp ⟨Msg.new GET_RSP 7, [⟨1, VData.new.putStr [65, 0, 66]⟩, ⟨2, VData.new.putInt16 (-2)⟩]⟩

theorem round_trips_sampleRsp :
    ∃ n b' m' b'', sampleRsp.encode (ZDataBuffer.new (List.replicate 64 0)).clear = .ok (n, b') ∧
      (sampleRsp.fresh 0 0).decode b'.flip = .ok ((n, m'), b'') ∧ b''.remaining = 0 ∧
      m'.toMsg.header = sampleRsp.toMsg.header ∧ m'.payload = sampleRsp.payload := by
  have hm : sampleRsp.Sendable := by
    refine ⟨by decide, fun v hv => ?_⟩
    rcases List.mem_cons.mp hv with rfl | hv
    · exact .str VData.new [65, 0, 66] (by decide) rfl
    · obtain rfl := List.mem_singleton.mp hv
      exact .int16 VData.new (-2) rfl
  exact round_trips hm _ (by decide) 0 0

end AnyMsg

end PushCodec

end Monsys
