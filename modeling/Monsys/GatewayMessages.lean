/-
  The messages inside the gateway, and how they are made of the server's and turned into them:
  `libframework/zinner_message.h`, `server/zinner_message_ex.h`, `server/protobuf_convert.cc` and
  `server/protobuf_helper.cc`.

  1. **Inner messages** — `ZInnerMsg`.
  2. **Conversion** — `push2inner`, `inner2push`.  The fields of the inner messages are narrower than
     those of the server's; what does not fit is cut off.
  3. **Framing** — `protobufEncode`, `protobufDecode`: the bytes of a message behind their count, a
     varint.

  The generated code of `PushMsg` and the protobuf library are not in the repository; what is used
  of them is the parameter `Protobuf`.  The classes are those of `push.proto`, whose login message is
  `PUSH_CLIENT_LOGIN` where the gateway says `LOGIN`.  Fields of the inner messages that nobody
  reads (`uid_`, `fgw_`, two of the `status_`) are left out.
-/
import Monsys.DeviceManager
import Monsys.Lib.Varint
import Monsys.PushProto

namespace Monsys

open Push

/-! ## Inner messages -/

structure ZInnerAddress where
  moduleType : Int := -1
  moduleId : Int := -1
  handlerId : Int := -1
deriving DecidableEq, Repr

def moduleSerial : Int := 6
def moduleFgwClient : Int := 8

/-- `ANY_ID`. -/
def anyId : Int := 0

/-- What an inner message is about: `msg_type_` and the fields of its class. -/
inductive InnerBody
  | getDevListReq
  | getDevListRsp (infoList : List ZZBDevInfo)
  | getDevInfoReq (addr : UInt16) (itemIds : List UInt8)
  | getDevInfoRsp (devInfos : List ZItemPair)
  | setDevInfoReq (addr : UInt16) (devVals : List ZItemPair)
  | setDevInfoRsp (status : UInt8)
  | preBindReq
  | preBindRsp (result : UInt8)
  | bindReq
  | bindRsp (result : UInt8)
deriving DecidableEq

structure ZInnerMsg where
  srcAddr : ZInnerAddress
  dstAddr : ZInnerAddress
  seq : UInt32
  body : InnerBody
deriving DecidableEq

/-! ## Conversion -/

/-- `push2inner(const GetDevInfo&)`. -/
def getDevInfo2inner (msg : GetDevInfo) : InnerBody :=
  .getDevInfoReq (UInt16.ofInt msg.addr) (msg.itemIds.map UInt8.ofInt)

/-- `push2inner(const SetDevInfo&)`. -/
def setDevInfo2inner (msg : SetDevInfo) : InnerBody :=
  .setDevInfoReq (UInt16.ofInt msg.addr)
    (msg.idValuePairs.map fun pair => ⟨UInt8.ofInt pair.id, UInt16.ofInt pair.value⟩)

/-- `push2inner`. -/
def push2inner (pushMsg : PushMsg) : Option InnerBody :=
  match pushMsg.type with
  | .getDevList => pushMsg.getDevList.map fun _ => .getDevListReq
  | .getDevInfo => pushMsg.getDevInfo.map getDevInfo2inner
  | .setDevInfo => pushMsg.setDevInfo.map setDevInfo2inner
  | _ => none

/-- How often a loop runs whose bound is a `size()` stored in an `int`. -/
def intCount (size : Nat) : Nat := (Wire.toInt32 size).toNat

/-- `inner2push(const ZInnerGetDevListRsp&)`. -/
def getDevListRsp2push (infoList : List ZZBDevInfo) : PushMsg :=
  { newPushMsg .getDevListRsp 0 with
    getDevListRsp := some
      { code := 0
        devInfos := (infoList.take (intCount infoList.length)).map fun zbInfo =>
          ⟨zbInfo.addr.toNat, zbInfo.type.toNat, zbInfo.name⟩ } }

/-- `inner2push(const ZInnerGetDevInfoRsp&)`. -/
def getDevInfoRsp2push (devInfos : List ZItemPair) : PushMsg :=
  { newPushMsg .getDevInfoRsp 0 with
    getDevInfoRsp := some
      { code := 0
        idValuePairs := (devInfos.take (intCount devInfos.length)).map fun zbPair =>
          ⟨zbPair.id.toNat, zbPair.val.toNat⟩ } }

/-- `inner2push(const ZInnerSetDevInfoRsp&)`. -/
def setDevInfoRsp2push (status : UInt8) : PushMsg :=
  { newPushMsg .setDevInfoRsp 0 with setDevInfoRsp := some { code := status.toNat } }

/-- `inner2push`.  The sequence number is left to the caller. -/
def inner2push : InnerBody → Option PushMsg
  | .getDevListRsp infoList => some (getDevListRsp2push infoList)
  | .getDevInfoRsp devInfos => some (getDevInfoRsp2push devInfos)
  | .setDevInfoRsp status => some (setDevInfoRsp2push status)
  | _ => none

/-! ## Framing -/

/-- What is used of the protobuf library and of the class generated for `PushMsg`.
    `readVarint32` gives the value and the position behind it. -/
structure Protobuf where
  serialize : PushMsg → List UInt8
  parse : List UInt8 → Option PushMsg
  writeVarint32 : Nat → List UInt8
  readVarint32 : List UInt8 → Option (Nat × Nat)

/-- The library's varints: of 32 bits when written, of ten bytes at most when read, the bits above 32
    cut off. -/
structure Protobuf.UsesVarints (pb : Protobuf) : Prop where
  write : ∀ n < 2 ^ 32, pb.writeVarint32 n = Varint.write 5 n
  read : ∀ buf, pb.readVarint32 buf = (Varint.read 10 buf).map fun r => (r.1 % 2 ^ 32, r.2)

/-- A library that knows the messages of a table. -/
def Protobuf.ofTable (table : List (PushMsg × List UInt8)) : Protobuf where
  serialize := fun msg => (table.lookup msg).getD []
  parse := fun bytes => (table.find? fun e => e.2 = bytes).map Prod.fst
  writeVarint32 := Varint.write 5
  readVarint32 := fun buf => (Varint.read 10 buf).map fun r => (r.1 % 2 ^ 32, r.2)

theorem Protobuf.ofTable_usesVarints (table : List (PushMsg × List UInt8)) :
    (Protobuf.ofTable table).UsesVarints := ⟨fun _ _ => rfl, fun _ => rfl⟩

/-- Such a library takes the bytes of a message for this message, and no others. -/
theorem Protobuf.ofTable_parse_iff {table : List (PushMsg × List UInt8)}
    (hmsgs : (table.map Prod.fst).Nodup) (hbytes : (table.map Prod.snd).Nodup) {msg : PushMsg}
    (hmsg : msg ∈ table.map Prod.fst) (bytes : List UInt8) :
    (ofTable table).parse bytes = some msg ↔ bytes = (ofTable table).serialize msg := by
  have hlookup : ∀ e ∈ table, table.lookup e.1 = some e.2 := by
    intro e he
    cases h : table.lookup e.1 with
    | none =>
      have hne := List.lookup_eq_none_iff.mp h e he
      exact absurd rfl (bne_iff_ne.mp hne)
    | some b =>
      obtain ⟨l₁, l₂, rfl, -⟩ := List.lookup_eq_some_iff.mp h
      have heq := List.inj_on_of_nodup_map hmsgs (List.mem_append_right l₁ List.mem_cons_self) he rfl
      rw [← heq]
  constructor
  · intro h
    obtain ⟨e, he, rfl⟩ := Option.map_eq_some_iff.mp h
    have hbytes' : e.2 = bytes :=
      of_decide_eq_true (List.find?_some (p := fun e : PushMsg × List UInt8 => decide (e.2 = bytes)) he)
    show bytes = (table.lookup e.1).getD []
    rw [hlookup e (List.mem_of_find?_eq_some he), ← hbytes']
    rfl
  · rintro rfl
    obtain ⟨e, he, rfl⟩ := List.mem_map.mp hmsg
    show (table.find? fun e' => e'.2 = (table.lookup e.1).getD []).map Prod.fst = some e.1
    rw [hlookup e he, Option.getD_some]
    cases h : table.find? fun e' => e'.2 = e.2 with
    | none => exact absurd (decide_eq_true rfl) (List.find?_eq_none.mp h e he)
    | some e' =>
      have heq : e'.2 = e.2 :=
        of_decide_eq_true (List.find?_some (p := fun e' : PushMsg × List UInt8 => decide (e'.2 = e.2)) h)
      rw [List.inj_on_of_nodup_map hbytes (List.mem_of_find?_eq_some h) he heq]
      rfl

/-- `protobuf_encode`. -/
def protobufEncode (pb : Protobuf) (msg : PushMsg) (bufLen : Nat) : Option (List UInt8) :=
  let body := pb.serialize msg
  let head := pb.writeVarint32 body.length
  if bufLen < head.length + body.length then none else some (head ++ body)

/-- `protobuf_decode`: the value returned, and the message.  The count says nothing about where the
    message ends; it only goes into the value returned, as an `int`. -/
def protobufDecode (pb : Protobuf) (buf : List UInt8) : Option (Int × PushMsg) :=
  match pb.readVarint32 buf with
  | none => none
  | some (tmp, headLen) =>
    match pb.parse (buf.drop headLen) with
    | none => none
    | some msg => some ((headLen + tmp : Int).bmod (2 ^ 32), msg)

/-- The message that is decoded, for a caller that takes a negative value for a failure. -/
def decoded (pb : Protobuf) (buf : List UInt8) : Option PushMsg :=
  match protobufDecode pb buf with
  | none => none
  | some (rv, msg) => if rv < 0 then none else some msg

end Monsys
