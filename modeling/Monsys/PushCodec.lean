/-
  The messages of `server/push_msg.h`, with the codec of `server/push_msg.cc`.

  A push message stands in a `ZByteBuffer`, a cursor buffer of bytes: encoding moves the cursor
  over the bytes it writes, and after a `flip` decoding moves it over the bytes it reads.  Every
  `encode` and `decode` reports how far it has moved the cursor, `remain_before - remaining()`.

  1. **`ZByteBuffer`** — `Code α`, what a function does to the buffer.  `Wire.Stop.err (-1)` is the
     `return -1` that every caller hands on, and `Wire.Stop.fault` a read of memory that nothing
     was written to.  On a failure neither the buffer nor a half filled message is looked at again.
  2. **`VData`** — one value of a TLV, a block of memory with a length and a type.  The block only
     grows, and its bytes are `none` until they are written.  The machine is little-endian.
  3. **The seven messages.**  A list's length and a string's are cast to `uint16_t` by the encoders.
     A fresh message has an arbitrary `seq`, and `SetRsp` an arbitrary status: their constructors
     set neither.

  `AnyMsg` is a pointer to a `Msg`, through which `encode` and `decode` are called.
-/
import Monsys.DataBuffer
import Monsys.Lib.Tape
import Monsys.Lib.Wire
import Mathlib.Algebra.Ring.Int.Defs

namespace Monsys

open Wire (Stop be16 be32 ofBe16 ofBe32)

/-! ## `ZByteBuffer` -/

/-- `ZByteBuffer`, a `ZDataBuffer<char>`. -/
abbrev ZByteBuffer := ZDataBuffer UInt8

/-- What a function that is handed a `ZByteBuffer &buf` does to it, and returns. -/
abbrev Code (α : Type) := Tape.Prog ZByteBuffer Stop α

namespace ZByteBuffer

/-- `if (c) return -1;`, looking at the buffer. -/
def failIf (c : ZByteBuffer → Bool) : Code Unit := Tape.failIf (.err (-1)) c

/-- A result that may be missing: memory that cannot be read. -/
def read {α : Type} : Option α → Code α
  | some a => pure a
  | none => throw .fault

/-- `put(v, len)`. -/
def put (v : List UInt8) (len : Int) : Code Int := fun b =>
  match ZDataBuffer.put b v len with
  | some r => .ok r
  | none => .error .fault

/-- `put(v)`. -/
def putOne (v : UInt8) : Code Int := fun b => .ok (ZDataBuffer.putOne b v)

/-- `get(v, len)`. -/
def get (len : Int) : Code (List UInt8) := fun b =>
  match ZDataBuffer.get b len with
  | some r => .ok r
  | none => .error .fault

/-- `get()`. -/
def getOne : Code UInt8 := fun b =>
  match ZDataBuffer.getOne b with
  | some r => .ok r
  | none => .error .fault

/-- `if (buf.remaining() < len) { return -1; }`, then the bytes from `buf.getArray() + buf.pos()`
    on and `buf.setPos(buf.pos() + len)`. -/
def raw (len : Nat) : Code (List UInt8) := fun b =>
  if h : len ≤ b.remaining then .ok (b.fetch len h) else .error (.err (-1))

/-- `ZByteBuffer::putInt16`. -/
def putInt16 (v : UInt16) : Code Int := do
  failIf fun b => b.remaining < 2
  let _ ← put (be16 v) 2
  return 2

/-- `ZByteBuffer::putInt32`. -/
def putInt32 (v : UInt32) : Code Int := do
  failIf fun b => b.remaining < 4
  let _ ← put (be32 v) 4
  return 4

/-- `ZByteBuffer::getInt16`; where fewer than two bytes were copied, `v` is partly unwritten. -/
def getInt16 : Code UInt16 := do
  failIf fun b => b.remaining < 2
  match ← get 2 with
  | [hi, lo] => pure (ofBe16 hi lo)
  | _ => throw .fault

/-- `ZByteBuffer::getInt32`. -/
def getInt32 : Code UInt32 := do
  failIf fun b => b.remaining < 4
  match ← get 4 with
  | [b₃, b₂, b₁, b₀] => pure (ofBe32 b₃ b₂ b₁ b₀)
  | _ => throw .fault

/-- `int remain_before = buf.remaining(); ..; return remain_before - buf.remaining();` of a
    decoder, with what it decoded. -/
def decoding {α : Type} (c : Code α) : Code (Int × α) := Tape.counted ZDataBuffer.remaining c

/-- The same of an encoder. -/
def encoding (c : Code Unit) : Code Int := do
  let (n, _) ← Tape.counted ZDataBuffer.remaining c
  return n

end ZByteBuffer

namespace PushCodec

open ZByteBuffer

/-! ## `VData` -/

/-- `VData`: `data.length` is `alloc_len_`, and a byte is `none` until it is written. -/
structure VData where
  data : List (Option UInt8)
  dataLen : Nat
  type : Int32
deriving DecidableEq

namespace VData

def TYPE_UNKNOWN : Int32 := 0
def TYPE_INT8 : Int32 := 1
def TYPE_INT16 : Int32 := 2
def TYPE_INT32 : Int32 := 3
def TYPE_STR : Int32 := 4

/-- `VData()`. -/
def new : VData := ⟨[], 0, TYPE_UNKNOWN⟩

/-- `getData()`, the `getDataLen()` bytes of it. -/
def bytes (v : VData) : List (Option UInt8) := v.data.take v.dataLen

/-- The first `n` bytes of the block, if it has them and all are written. -/
def load (v : VData) (n : Nat) : Option (List UInt8) :=
  if n ≤ v.data.length then (v.data.take n).mapM id else none

/-- `getByte`. -/
def getByte (v : VData) : Option Int8 := do
  match ← v.load 1 with
  | [b] => some b.toInt8
  | _ => none

/-- `getInt16`. -/
def getInt16 (v : VData) : Option Int16 := do
  match ← v.load 2 with
  | [lo, hi] => some (ofBe16 hi lo).toInt16
  | _ => none

/-- `getInt32`. -/
def getInt32 (v : VData) : Option Int32 := do
  match ← v.load 4 with
  | [b₀, b₁, b₂, b₃] => some (ofBe32 b₃ b₂ b₁ b₀).toInt32
  | _ => none

/-- `resize`: a block that is large enough stays, with what is in it. -/
def resize (v : VData) (size : Nat) : VData :=
  if size ≤ v.data.length then { v with dataLen := size }
  else { v with dataLen := size, data := List.replicate ((size + 3) / 4 * 4) none }

/-- `resize(n); type_ = type; memcpy(data_, bs, n);` for the `n` bytes of `bs`. -/
def store (v : VData) (type : Int32) (bs : List UInt8) : VData :=
  let r := v.resize bs.length
  { r with type := type, data := bs.map some ++ r.data.drop bs.length }

/-- `setType`. -/
def setType (v : VData) (type : Int32) : VData := { v with type := type }

/-- `putByte`. -/
def putByte (v : VData) (x : Int8) : VData := v.store TYPE_INT8 [x.toUInt8]

/-- `putInt16`, in the machine's byte order. -/
def putInt16 (v : VData) (x : Int16) : VData := v.store TYPE_INT16 (be16 x.toUInt16).reverse

/-- `putInt32`, in the machine's byte order. -/
def putInt32 (v : VData) (x : Int32) : VData := v.store TYPE_INT32 (be32 x.toUInt32).reverse

/-- `putStr`. -/
def putStr (v : VData) (str : List UInt8) : VData := v.store TYPE_STR str

end VData

/-! ## TLV -/

/-- `TLV`. -/
structure TLV where
  tag : UInt16
  value : VData
deriving DecidableEq

namespace TLV

/-- `TLV()`. -/
def new : TLV := ⟨0, VData.new⟩

/-- `encode(const TLV &v, ZByteBuffer &buf)`. -/
def encode (v : TLV) : Code Int := encoding do
  let _ ← putInt16 v.tag
  let _ ← putInt16 v.value.type.toUInt32.toUInt16
  if v.value.type = VData.TYPE_INT8 then do
    let x ← read v.value.getByte
    let _ ← putOne x.toUInt8
  else if v.value.type = VData.TYPE_INT16 then do
    let x ← read v.value.getInt16
    let _ ← putInt16 x.toUInt16
  else if v.value.type = VData.TYPE_INT32 then do
    let x ← read v.value.getInt32
    let _ ← putInt32 x.toUInt32
  else if v.value.type = VData.TYPE_STR then do
    let dataLen := UInt16.ofNat v.value.dataLen
    let _ ← putInt16 dataLen
    let data ← read (v.value.load dataLen.toNat)
    let _ ← put data dataLen.toNat
  else throw (.err (-1))

/-- `decode(TLV &v, ZByteBuffer &buf)`. -/
def decode (v : TLV) : Code (Int × TLV) := decoding do
  let tag ← getInt16
  let type ← getInt16
  let value := v.value.setType type.toUInt32.toInt32
  if value.type = VData.TYPE_INT8 then do
    failIf fun b => b.remaining < 1
    let tmp ← getOne
    return ⟨tag, value.putByte tmp.toInt8⟩
  else if value.type = VData.TYPE_INT16 then do
    failIf fun b => b.remaining < 2
    let tmp ← getInt16
    return ⟨tag, value.putInt16 tmp.toInt16⟩
  else if value.type = VData.TYPE_INT32 then do
    failIf fun b => b.remaining < 4
    let tmp ← getInt32
    return ⟨tag, value.putInt32 tmp.toInt32⟩
  else if value.type = VData.TYPE_STR then do
    let len ← getInt16
    let str ← raw len.toNat
    return ⟨tag, value.putStr str⟩
  else throw (.err (-1))

end TLV

/-! ## `dev_info_t` -/

/-- `dev_info_t`; the bytes of the name. -/
structure DevInfo where
  addr : UInt32
  name : List UInt8
  state : UInt32
  type : UInt32
deriving DecidableEq

namespace DevInfo

/-- `encode(const dev_info_t &v, ZByteBuffer &buf)`. -/
def encode (v : DevInfo) : Code Int := encoding do
  let _ ← putInt32 v.addr
  let len := UInt16.ofNat v.name.length
  let _ ← putInt16 len
  let _ ← put v.name len.toNat
  let _ ← putInt32 v.state
  let _ ← putInt32 v.type

/-- `decode(dev_info_t &v, ZByteBuffer &buf)`. -/
def decode : Code (Int × DevInfo) := decoding do
  let addr ← getInt32
  let len ← getInt16
  let name ← raw len.toNat
  let state ← getInt32
  let type ← getInt32
  return ⟨addr, name, state, type⟩

end DevInfo

/-! ## Messages -/

def HEARTBEAT : UInt32 := 0x00FF
def REG_DEV_LIST_REQ : UInt32 := 0x0001
def REG_DEV_LIST_RSP : UInt32 := 0x8001
def GET_REQ : UInt32 := 0x0003
def GET_RSP : UInt32 := 0x8003

/-- `header_t`. -/
structure Header where
  seq : UInt32
  type : UInt32
deriving DecidableEq

/-- `class Msg`. -/
structure Msg where
  header : Header
deriving DecidableEq

/-- `Msg(uint32_t type)`, over the `seq` that is there. -/
def Msg.new (type seq : UInt32) : Msg := ⟨⟨seq, type⟩⟩

/-- `Msg::encodeHeader`, which is `Msg::encode`. -/
def Msg.encode (m : Msg) : Code Int := encoding do
  let _ ← putInt32 m.header.seq
  let _ ← putInt32 m.header.type

/-- `Msg::decodeHeader`, which is `Msg::decode`. -/
def Msg.decode : Code (Int × Msg) := decoding do
  let seq ← getInt32
  let type ← getInt32
  return ⟨⟨seq, type⟩⟩

/-- A `uint16_t` count, and a loop that encodes so many elements of the list. -/
def encodeList {α : Type} (encode : α → Code Int) (list : List α) : Code Unit := do
  let len := UInt16.ofNat list.length
  let _ ← putInt16 len
  Tape.each encode (list.take len.toNat)

/-- A `uint16_t` count, and a loop that decodes so many elements behind those already there. -/
def decodeList {α : Type} (decode : Code α) (list : List α) : Code (List α) := do
  let len ← getInt16
  Tape.times decode list len.toNat

/-- A decoder whose count is only compared with zero. -/
def value {α : Type} (decode : Code (Int × α)) : Code α := do
  let (_, v) ← decode
  return v

/-- `class Heartbeat`. -/
structure Heartbeat extends Msg
deriving DecidableEq

def Heartbeat.encode (m : Heartbeat) : Code Int := encoding do
  let _ ← m.toMsg.encode

def Heartbeat.decode : Code (Int × Heartbeat) := decoding do
  return ⟨← value Msg.decode⟩

/-- `class GetDevListReq`. -/
structure GetDevListReq extends Msg
deriving DecidableEq

def GetDevListReq.encode (m : GetDevListReq) : Code Int := encoding do
  let _ ← m.toMsg.encode

def GetDevListReq.decode : Code (Int × GetDevListReq) := decoding do
  return ⟨← value Msg.decode⟩

/-- `class GetDevListRsp`. -/
structure GetDevListRsp extends Msg where
  infoList : List DevInfo
deriving DecidableEq

def GetDevListRsp.encode (m : GetDevListRsp) : Code Int := encoding do
  let _ ← m.toMsg.encode
  encodeList DevInfo.encode m.infoList

/-- `GetDevListRsp::decode`: the list is not cleared first. -/
def GetDevListRsp.decode (m : GetDevListRsp) : Code (Int × GetDevListRsp) := decoding do
  let header ← value Msg.decode
  let infoList ← decodeList (value DevInfo.decode) m.infoList
  return ⟨header, infoList⟩

/-- `class GetReq`. -/
structure GetReq extends Msg where
  idList : List Int32
deriving DecidableEq

def GetReq.encode (m : GetReq) : Code Int := encoding do
  let _ ← m.toMsg.encode
  encodeList (fun id => putInt32 id.toUInt32) m.idList

def GetReq.decode : Code (Int × GetReq) := decoding do
  let header ← value Msg.decode
  let idList ← decodeList (do let tmp ← getInt32; return tmp.toInt32) []
  return ⟨header, idList⟩

/-- `class GetRsp`. -/
structure GetRsp extends Msg where
  valueList : List TLV
deriving DecidableEq

def GetRsp.encode (m : GetRsp) : Code Int := encoding do
  let _ ← m.toMsg.encode
  encodeList TLV.encode m.valueList

def GetRsp.decode : Code (Int × GetRsp) := decoding do
  let header ← value Msg.decode
  let valueList ← decodeList (value TLV.new.decode) []
  return ⟨header, valueList⟩

/-- `class SetReq`. -/
structure SetReq extends Msg where
  valueList : List TLV
deriving DecidableEq

def SetReq.encode (m : SetReq) : Code Int := encoding do
  let _ ← m.toMsg.encode
  encodeList TLV.encode m.valueList

def SetReq.decode : Code (Int × SetReq) := decoding do
  let header ← value Msg.decode
  let valueList ← decodeList (value TLV.new.decode) []
  return ⟨header, valueList⟩

/-- `class SetRsp`. -/
structure SetRsp extends Msg where
  status : UInt16
deriving DecidableEq

def SetRsp.encode (m : SetRsp) : Code Int := encoding do
  let _ ← m.toMsg.encode
  let _ ← putInt16 m.status

def SetRsp.decode : Code (Int × SetRsp) := decoding do
  let header ← value Msg.decode
  let status ← getInt16
  return ⟨header, status⟩

/-- A `push::Msg *`: a message of one of the seven classes. -/
inductive AnyMsg
  | heartbeat (m : Heartbeat)
  | getDevListReq (m : GetDevListReq)
  | getDevListRsp (m : GetDevListRsp)
  | getReq (m : GetReq)
  | getRsp (m : GetRsp)
  | setReq (m : SetReq)
  | setRsp (m : SetRsp)
deriving DecidableEq

namespace AnyMsg

def toMsg : AnyMsg → Msg
  | heartbeat m => m.toMsg
  | getDevListReq m => m.toMsg
  | getDevListRsp m => m.toMsg
  | getReq m => m.toMsg
  | getRsp m => m.toMsg
  | setReq m => m.toMsg
  | setRsp m => m.toMsg

/-- A fresh message of the same class, by its constructor; `seq` and `status` are what its memory
    happens to contain.  `SetReq()` and `SetRsp()` give the types of `GetReq` and `GetRsp`. -/
def fresh (seq : UInt32) (status : UInt16) : AnyMsg → AnyMsg
  | heartbeat _ => heartbeat ⟨Msg.new HEARTBEAT seq⟩
  | getDevListReq _ => getDevListReq ⟨Msg.new REG_DEV_LIST_REQ seq⟩
  | getDevListRsp _ => getDevListRsp ⟨Msg.new REG_DEV_LIST_RSP seq, []⟩
  | getReq _ => getReq ⟨Msg.new GET_REQ seq, []⟩
  | getRsp _ => getRsp ⟨Msg.new GET_RSP seq, []⟩
  | setReq _ => setReq ⟨Msg.new GET_REQ seq, []⟩
  | setRsp _ => setRsp ⟨Msg.new GET_RSP seq, status⟩

/-- `virtual int encode(ZByteBuffer &buf)`. -/
def encode : AnyMsg → Code Int
  | heartbeat m => m.encode
  | getDevListReq m => m.encode
  | getDevListRsp m => m.encode
  | getReq m => m.encode
  | getRsp m => m.encode
  | setReq m => m.encode
  | setRsp m => m.encode

/-- The count of a decoder, with the message filled in. -/
def wrap {α : Type} (f : α → AnyMsg) (decode : Code (Int × α)) : Code (Int × AnyMsg) := do
  let (n, m) ← decode
  return (n, f m)

/-- `virtual int decode(ZByteBuffer &buf)`. -/
def decode : AnyMsg → Code (Int × AnyMsg)
  | heartbeat _ => wrap heartbeat Heartbeat.decode
  | getDevListReq _ => wrap getDevListReq GetDevListReq.decode
  | getDevListRsp m => wrap getDevListRsp m.decode
  | getReq _ => wrap getReq GetReq.decode
  | getRsp _ => wrap getRsp GetRsp.decode
  | setReq _ => wrap setReq SetReq.decode
  | setRsp _ => wrap setRsp SetRsp.decode

end AnyMsg

end PushCodec

end Monsys
