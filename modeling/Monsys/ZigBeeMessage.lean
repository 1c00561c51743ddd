/-
  The ZigBee messages of `server/zzigbee_message.{h,cc}`.

  A message class is a structure over the header `ZZigBeeMsg`, with a constructor, an `encode` and
  a `decode` of its own.  `ZbMsg` is a message of any class; `ZbMsg.encode` and `ZbMsg.decode` are
  the virtual calls.

  Modelling choices:

  * `encode` gives the object after the call as well: most classes set `len_` first.
  * Fields that a constructor leaves alone hold whatever the memory contained (`Junk`).
  * A `decode` that fails says only with which value; the fields it may have set are not modelled.
  * `name_` and `desc_` of the registration and `status_` of `ZZBGetRsp`, which no codec touches,
    are left out, and so are the assignments to `len_` that a `decode` makes before it decodes the
    header over them.
-/
import Monsys.Codec

namespace Monsys

open Wire

/-! ## Command codes -/

def zIdZbRegReq : UInt8 := 0x01
def zIdZbRegRsp : UInt8 := 0x81
def zIdZbGetReq : UInt8 := 0x02
def zIdZbGetRsp : UInt8 := 0x82
def zIdZbSetReq : UInt8 := 0x03
def zIdZbSetRsp : UInt8 := 0x83
def zIdZbBroadcastInd : UInt8 := 0x04
def zIdZbBindReq : UInt8 := 0x05
def zIdZbBindRsp : UInt8 := 0x85
def zIdZbUpdateIdReq : UInt8 := 0x0A
def zIdZbUpdateIdRsp : UInt8 := 0x8A

/-! ## The header -/

/-- What the memory of a fresh object contains in the fields that may stay as they are. -/
structure Junk where
  len : UInt16
  addr : UInt16
  devType : UInt16
  status : UInt8
  what : UInt16
deriving DecidableEq, Repr

structure ZZigBeeMsg where
  ver : UInt8
  len : UInt16
  cmd : UInt8
  addr : UInt16
deriving DecidableEq, Repr

namespace ZZigBeeMsg

/-- `ZZigBeeMsg()`, and the `cmd_` that every derived constructor sets. -/
def new (cmd : UInt8) (j : Junk) : ZZigBeeMsg := ⟨1, j.len, cmd, j.addr⟩

/-- `getHeaderLen`. -/
def getHeaderLen : UInt16 := 1 + 2 + 1 + 2

/-- `"ZZZZZZZZ"`. -/
def syncBytes : List UInt8 := List.replicate 8 0x5A

/-- The copy of the sync bytes. -/
def encodeSync : Encoder := fun bufLen =>
  if bufLen < 8 then ⟨-1, []⟩ else ⟨8, syncBytes⟩

def encode (m : ZZigBeeMsg) : Encoder :=
  encodeCalls [encodeSync, zEncodeByte m.ver, zEncodeInteger16 m.len, zEncodeByte m.cmd,
    zEncodeInteger16 m.addr]

def decode : Decoder ZZigBeeMsg := fun buf bufLen => do
  let (ver, r) ← (Reader.start buf bufLen).call zDecodeByte
  let (len, r) ← r.call zDecodeInteger16
  let (cmd, r) ← r.call zDecodeByte
  let (addr, r) ← r.call zDecodeInteger16
  return (r.len, ⟨ver, len, cmd, addr⟩)

end ZZigBeeMsg

/-! ## Fields -/

/-- `zb_mac_type_t`. -/
structure ZbMac where
  data : List UInt8
  length_eq : data.length = 8
deriving DecidableEq

/-- `ZItemPair`. -/
structure ZItemPair where
  id : UInt8
  val : UInt16
deriving DecidableEq, Repr

/-- `memset` of a mac to zero. -/
def ZbMac.zero : ZbMac := ⟨List.replicate 8 0, rfl⟩

/-- The copy of a mac into the buffer. -/
def encodeMac (mac : ZbMac) : Encoder := fun bufLen =>
  if 8 > bufLen then ⟨-1, []⟩ else ⟨8, mac.data⟩

/-- The copy of a mac out of the buffer, without a look at the room. -/
def decodeMac : Decoder ZbMac := fun buf _ =>
  if h : 8 ≤ buf.length then .ok (8, ⟨buf.take 8, by rw [List.length_take]; omega⟩)
  else .error .fault

/-- The calls of the loop over items: id and value of each. -/
def encodeItemPairs (items : List ZItemPair) : List Encoder :=
  items.flatMap fun itemPair => [zEncodeByte itemPair.id, zEncodeInteger16 itemPair.val]

/-- The body of the loop that decodes items. -/
def decodeItemPair : Decoder ZItemPair := fun buf bufLen => do
  let (id, r) ← (Reader.start buf bufLen).call zDecodeByte
  let (val, r) ← r.call zDecodeInteger16
  return (r.len, ⟨id, val⟩)

/-- `*buf`, without a look at the room. -/
def peekByte : Decoder UInt8 := fun buf _ =>
  match buf with
  | b :: _ => .ok (1, b)
  | [] => .error .fault

/-! ## The classes -/

structure ZZBRegReq extends ZZigBeeMsg where
  mac : ZbMac
  devType : UInt16
deriving DecidableEq

namespace ZZBRegReq

def new (j : Junk) : ZZBRegReq := ⟨.new zIdZbRegReq j, .zero, j.devType⟩

def getBodyLen : UInt16 := 8 + 2

def encode (m : ZZBRegReq) (bufLen : Nat) : ZZBRegReq × Wrote :=
  let m := { m with len := getBodyLen }
  (m, encodeCalls [m.toZZigBeeMsg.encode, encodeMac m.mac, zEncodeInteger16 m.devType] bufLen)

def decode : Decoder ZZBRegReq := fun buf bufLen => do
  let (hdr, r) ← (Reader.start buf bufLen).call ZZigBeeMsg.decode
  failIf (r.room < hdr.len.toNat)
  failIf (hdr.len.toNat < 8)
  let (mac, r) ← r.call decodeMac
  let (devType, r) ← r.call zDecodeInteger16
  return (r.len, ⟨hdr, mac, devType⟩)

end ZZBRegReq

structure ZZBRegRsp extends ZZigBeeMsg where
  status : UInt8
deriving DecidableEq

namespace ZZBRegRsp

def new (j : Junk) : ZZBRegRsp := ⟨.new zIdZbRegRsp j, j.status⟩

def getBodyLen : UInt16 := 1

def encode (m : ZZBRegRsp) (bufLen : Nat) : ZZBRegRsp × Wrote :=
  let m := { m with len := getBodyLen }
  (m, encodeCallsByRoom [m.toZZigBeeMsg.encode, zEncodeByte m.status] bufLen)

def decode : Decoder ZZBRegRsp := fun buf bufLen => do
  let (hdr, r) ← (Reader.start buf bufLen).call ZZigBeeMsg.decode
  failIf (r.room < hdr.len.toNat)
  let (status, r) ← r.call zDecodeByte
  return (r.len, ⟨hdr, status⟩)

end ZZBRegRsp

structure ZZBGetReq extends ZZigBeeMsg where
  items : List UInt8
deriving DecidableEq

namespace ZZBGetReq

def new (j : Junk) : ZZBGetReq := ⟨.new zIdZbGetReq j, []⟩

def getBodyLen (m : ZZBGetReq) : UInt16 := UInt16.ofNat (1 + m.items.length * 1)

def encode (m : ZZBGetReq) (bufLen : Nat) : ZZBGetReq × Wrote :=
  let m := { m with len := m.getBodyLen }
  (m, encodeCallsByRoom (m.toZZigBeeMsg.encode :: zEncodeByte (UInt8.ofNat m.items.length) ::
    m.items.map zEncodeByte) bufLen)

def decode (m : ZZBGetReq) : Decoder ZZBGetReq := fun buf bufLen => do
  let (hdr, r) ← (Reader.start buf bufLen).call ZZigBeeMsg.decode
  failIf (r.room < hdr.len.toNat)
  let (itemCount, r) ← r.call zDecodeByte
  -- nothing compares the count with what is left
  let (items, r) ← r.times peekByte m.items itemCount.toNat
  return (r.len, ⟨hdr, items⟩)

end ZZBGetReq

structure ZZBGetRsp extends ZZigBeeMsg where
  items : List ZItemPair
deriving DecidableEq

namespace ZZBGetRsp

def new (j : Junk) : ZZBGetRsp := ⟨.new zIdZbGetRsp j, []⟩

def getBodyLen (m : ZZBGetRsp) : UInt16 := UInt16.ofNat (1 + m.items.length * (1 + 2))

/-- `getEncodeLen`: header and body, in 16 bits, without the sync bytes. -/
def getEncodeLen (m : ZZBGetRsp) : UInt16 := ZZigBeeMsg.getHeaderLen + m.getBodyLen

def encode (m : ZZBGetRsp) (bufLen : Nat) : ZZBGetRsp × Wrote :=
  let encLen : Int := m.getEncodeLen.toNat
  -- (int)buf_len < enc_len
  if toInt32 bufLen < encLen then (m, ⟨-1, []⟩)
  else
    let m := { m with len := m.getBodyLen }
    (m, encodeCallsWith (fun _ _ => encLen) (m.toZZigBeeMsg.encode ::
      zEncodeByte (UInt8.ofNat m.items.length) :: encodeItemPairs m.items) bufLen)

def decode (m : ZZBGetRsp) : Decoder ZZBGetRsp := fun buf bufLen => do
  let (hdr, r) ← (Reader.start buf bufLen).call ZZigBeeMsg.decode
  failIf (r.room < hdr.len.toNat)
  let (itemCount, r) ← r.call zDecodeByte
  let (items, r) ← r.times decodeItemPair m.items itemCount.toNat
  return (r.len, ⟨hdr, items⟩)

end ZZBGetRsp

structure ZZBSetReq extends ZZigBeeMsg where
  items : List ZItemPair
deriving DecidableEq

namespace ZZBSetReq

def new (j : Junk) : ZZBSetReq := ⟨.new zIdZbSetReq j, []⟩

def getBodyLen (m : ZZBSetReq) : UInt16 := UInt16.ofNat (1 + m.items.length * (1 + 2))

def encode (m : ZZBSetReq) (bufLen : Nat) : ZZBSetReq × Wrote :=
  let m := { m with len := m.getBodyLen }
  (m, encodeCallsByRoom (m.toZZigBeeMsg.encode :: zEncodeByte (UInt8.ofNat m.items.length) ::
    encodeItemPairs m.items) bufLen)

def decode (m : ZZBSetReq) : Decoder ZZBSetReq := fun buf bufLen => do
  let (hdr, r) ← (Reader.start buf bufLen).call ZZigBeeMsg.decode
  failIf (r.room < hdr.len.toNat)
  let (itemCount, r) ← r.call zDecodeByte
  let (items, r) ← r.times decodeItemPair m.items itemCount.toNat
  return (r.len, ⟨hdr, items⟩)

end ZZBSetReq

structure ZZBSetRsp extends ZZigBeeMsg where
  status : UInt8
deriving DecidableEq

namespace ZZBSetRsp

def new (j : Junk) : ZZBSetRsp := ⟨.new zIdZbSetRsp j, j.status⟩

def getBodyLen : UInt16 := 1

def encode (m : ZZBSetRsp) (bufLen : Nat) : ZZBSetRsp × Wrote :=
  let m := { m with len := getBodyLen }
  (m, encodeCallsByRoom [m.toZZigBeeMsg.encode, zEncodeByte m.status] bufLen)

def decode : Decoder ZZBSetRsp := fun buf bufLen => do
  let (hdr, r) ← (Reader.start buf bufLen).call ZZigBeeMsg.decode
  failIf (r.room < hdr.len.toNat)
  let (status, r) ← r.call zDecodeByte
  return (r.len, ⟨hdr, status⟩)

end ZZBSetRsp

structure ZZBBindReq extends ZZigBeeMsg
deriving DecidableEq

namespace ZZBBindReq

def new (j : Junk) : ZZBBindReq := ⟨.new zIdZbBindReq j⟩

def getBodyLen : UInt16 := 0

def encode (m : ZZBBindReq) (bufLen : Nat) : ZZBBindReq × Wrote :=
  let m : ZZBBindReq := { m with len := getBodyLen }
  (m, encodeCallsByRoom [m.toZZigBeeMsg.encode] bufLen)

def decode : Decoder ZZBBindReq := fun buf bufLen => do
  let (hdr, r) ← (Reader.start buf bufLen).call ZZigBeeMsg.decode
  return (r.len, ⟨hdr⟩)

end ZZBBindReq

structure ZZBBindRsp extends ZZigBeeMsg
deriving DecidableEq

namespace ZZBBindRsp

def new (j : Junk) : ZZBBindRsp := ⟨.new zIdZbBindRsp j⟩

/-- Here, and in the two classes below, `len_` is not set: it goes out as it is. -/
def encode (m : ZZBBindRsp) (bufLen : Nat) : ZZBBindRsp × Wrote :=
  (m, encodeCalls [m.toZZigBeeMsg.encode] bufLen)

def decode : Decoder ZZBBindRsp := fun buf bufLen => do
  let (hdr, r) ← (Reader.start buf bufLen).call ZZigBeeMsg.decode
  return (r.len, ⟨hdr⟩)

end ZZBBindRsp

structure ZZBUpdateIdInfoReq extends ZZigBeeMsg where
  idList : List ZbItemIdInfo
deriving DecidableEq

namespace ZZBUpdateIdInfoReq

def new (j : Junk) : ZZBUpdateIdInfoReq := ⟨.new zIdZbUpdateIdReq j, []⟩

def encode (m : ZZBUpdateIdInfoReq) (bufLen : Nat) : ZZBUpdateIdInfoReq × Wrote :=
  (m, encodeCalls [m.toZZigBeeMsg.encode, encodeVector encodeItemIdInfo m.idList] bufLen)

def decode : Decoder ZZBUpdateIdInfoReq := fun buf bufLen => do
  let (hdr, r) ← (Reader.start buf bufLen).call ZZigBeeMsg.decode
  let (idList, r) ← r.call (decodeVector decodeItemIdInfo)
  return (r.len, ⟨hdr, idList⟩)

end ZZBUpdateIdInfoReq

structure ZZBUpdateIdInfoRsp extends ZZigBeeMsg where
  status : UInt8
deriving DecidableEq

namespace ZZBUpdateIdInfoRsp

def new (j : Junk) : ZZBUpdateIdInfoRsp := ⟨.new zIdZbUpdateIdRsp j, j.status⟩

def encode (m : ZZBUpdateIdInfoRsp) (bufLen : Nat) : ZZBUpdateIdInfoRsp × Wrote :=
  (m, encodeCalls [m.toZZigBeeMsg.encode, zEncodeByte m.status] bufLen)

def decode : Decoder ZZBUpdateIdInfoRsp := fun buf bufLen => do
  let (hdr, r) ← (Reader.start buf bufLen).call ZZigBeeMsg.decode
  let (status, r) ← r.call zDecodeByte
  return (r.len, ⟨hdr, status⟩)

end ZZBUpdateIdInfoRsp

structure ZZBBroadcastInd extends ZZigBeeMsg where
  what : UInt16
deriving DecidableEq

namespace ZZBBroadcastInd

def new (j : Junk) : ZZBBroadcastInd := ⟨.new zIdZbBroadcastInd j, j.what⟩

def getBodyLen : UInt16 := 2

def encode (m : ZZBBroadcastInd) (bufLen : Nat) : ZZBBroadcastInd × Wrote :=
  let m := { m with len := getBodyLen }
  (m, encodeCallsByRoom [m.toZZigBeeMsg.encode, zEncodeInteger16 m.what] bufLen)

def decode : Decoder ZZBBroadcastInd := fun buf bufLen => do
  let (hdr, r) ← (Reader.start buf bufLen).call ZZigBeeMsg.decode
  failIf (r.room < hdr.len.toNat)
  let (what, r) ← r.call zDecodeInteger16
  return (r.len, ⟨hdr, what⟩)

end ZZBBroadcastInd

/-! ## A message of any class -/

inductive ZbMsg
  | regReq (m : ZZBRegReq)
  | regRsp (m : ZZBRegRsp)
  | getReq (m : ZZBGetReq)
  | getRsp (m : ZZBGetRsp)
  | setReq (m : ZZBSetReq)
  | setRsp (m : ZZBSetRsp)
  | bindReq (m : ZZBBindReq)
  | bindRsp (m : ZZBBindRsp)
  | updateIdInfoReq (m : ZZBUpdateIdInfoReq)
  | updateIdInfoRsp (m : ZZBUpdateIdInfoRsp)
  | broadcastInd (m : ZZBBroadcastInd)
deriving DecidableEq

namespace ZbMsg

def header : ZbMsg → ZZigBeeMsg
  | regReq m => m.toZZigBeeMsg
  | regRsp m => m.toZZigBeeMsg
  | getReq m => m.toZZigBeeMsg
  | getRsp m => m.toZZigBeeMsg
  | setReq m => m.toZZigBeeMsg
  | setRsp m => m.toZZigBeeMsg
  | bindReq m => m.toZZigBeeMsg
  | bindRsp m => m.toZZigBeeMsg
  | updateIdInfoReq m => m.toZZigBeeMsg
  | updateIdInfoRsp m => m.toZZigBeeMsg
  | broadcastInd m => m.toZZigBeeMsg

/-- A fresh object of the same class. -/
def fresh (j : Junk) : ZbMsg → ZbMsg
  | regReq _ => regReq (.new j)
  | regRsp _ => regRsp (.new j)
  | getReq _ => getReq (.new j)
  | getRsp _ => getRsp (.new j)
  | setReq _ => setReq (.new j)
  | setRsp _ => setRsp (.new j)
  | bindReq _ => bindReq (.new j)
  | bindRsp _ => bindRsp (.new j)
  | updateIdInfoReq _ => updateIdInfoReq (.new j)
  | updateIdInfoRsp _ => updateIdInfoRsp (.new j)
  | broadcastInd _ => broadcastInd (.new j)

def encode (m : ZbMsg) (bufLen : Nat) : ZbMsg × Wrote :=
  match m with
  | regReq m => (m.encode bufLen).map regReq id
  | regRsp m => (m.encode bufLen).map regRsp id
  | getReq m => (m.encode bufLen).map getReq id
  | getRsp m => (m.encode bufLen).map getRsp id
  | setReq m => (m.encode bufLen).map setReq id
  | setRsp m => (m.encode bufLen).map setRsp id
  | bindReq m => (m.encode bufLen).map bindReq id
  | bindRsp m => (m.encode bufLen).map bindRsp id
  | updateIdInfoReq m => (m.encode bufLen).map updateIdInfoReq id
  | updateIdInfoRsp m => (m.encode bufLen).map updateIdInfoRsp id
  | broadcastInd m => (m.encode bufLen).map broadcastInd id

/-- A decoder of a class as a decoder of messages. -/
def lift {β : Type} (wrap : β → ZbMsg) (d : Decoder β) : Decoder ZbMsg := fun buf bufLen =>
  (d buf bufLen).map fun (rv, m) => (rv, wrap m)

/-- The virtual `decode`, on the object given. -/
def decode : ZbMsg → Decoder ZbMsg
  | regReq _ => lift regReq ZZBRegReq.decode
  | regRsp _ => lift regRsp ZZBRegRsp.decode
  | getReq m => lift getReq m.decode
  | getRsp m => lift getRsp m.decode
  | setReq m => lift setReq m.decode
  | setRsp _ => lift setRsp ZZBSetRsp.decode
  | bindReq _ => lift bindReq ZZBBindReq.decode
  | bindRsp _ => lift bindRsp ZZBBindRsp.decode
  | updateIdInfoReq _ => lift updateIdInfoReq ZZBUpdateIdInfoReq.decode
  | updateIdInfoRsp _ => lift updateIdInfoRsp ZZBUpdateIdInfoRsp.decode
  | broadcastInd _ => lift broadcastInd ZZBBroadcastInd.decode

end ZbMsg

end Monsys
