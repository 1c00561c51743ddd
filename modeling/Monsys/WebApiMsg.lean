/-
  The web API's messages in JSON, `server/webapi_msg.cc`.

  1. **Messages** — `InnerBody`, the ten classes of `server/zinner_message_ex.h` with all their
     fields, and `Fresh`, what a message has before its fields are set.
  2. **To JSON** — `inner2Json`, one function a class.  `None` is a call that has not returned
     within its fuel.
  3. **From JSON** — `json2Inner`, which looks at the command and hands on to the function of a
     class.  A call has the type `Run`: it may not have returned, it may return `NULL`.

  A `std::string` is handed to the library, and taken from it, as a C string: up to its first NUL.
  Integers are cut to the width of the field they are stored in.
-/
import Monsys.DeviceManager
import Monsys.Lib.Json

namespace Monsys

namespace WebApi

/-! ## Messages -/

/-- A message by its class; `ZInnerMsg::seq_` stands apart. -/
inductive InnerBody
  | getDevListReq (uid fgw : String)
  | getDevListRsp (status : Int32) (infoList : List ZZBDevInfo)
  | getDevInfoReq (fgw uid : String) (addr : UInt16) (itemIds : List UInt8)
  | getDevInfoRsp (status : Int32) (devInfos : List ZItemPair)
  | setDevInfoReq (fgw uid : String) (addr : UInt16) (devVals : List ZItemPair)
  | setDevInfoRsp (status : UInt8)
  | preBindReq (fgw : String)
  | preBindRsp (result : UInt8)
  | bindReq (fgw : String)
  | bindRsp (result : UInt8)
deriving DecidableEq

/-- What stands in a message's memory where its constructor sets nothing. -/
structure Fresh where
  status : Int32

/-- A call: `none` has not returned yet, `some none` has returned `NULL`. -/
abbrev Run (α : Type) := Option (Option α)

/-- `c_str()`, as far as the library reads it. -/
def cStr (s : String) : String := String.ofList (s.toList.takeWhile fun c => c ≠ Char.ofNat 0)

/-- `strncmp(s, prefix, sizeof(prefix) - 1) == 0`. -/
def startsWith (s pre : String) : Bool := pre.toList.isPrefixOf (cStr s).toList

/-! ## To JSON -/

/-- `json_string(s.c_str())`. -/
def jsonString (s : String) : Json := .string (cStr s)

/-- `json_integer` of a `uint8_t`. -/
def jsonU8 (v : UInt8) : Json := .integer v.toUInt64.toInt64

/-- `json_integer` of a `uint16_t`. -/
def jsonU16 (v : UInt16) : Json := .integer v.toUInt64.toInt64

/-- `json_integer` of a `uint32_t`. -/
def jsonU32 (v : UInt32) : Json := .integer v.toUInt64.toInt64

/-- `for (uint32_t i = 0; i < bound; ++i)` over a vector, an element of the array for each. -/
def jsonArray {α : Type} (elem : α → Json) (bound : Nat) (xs : List α) (fuel : Nat) :
    Option Json := do
  let elems ← CountUp.loop bound (fun i acc => xs[i]?.map fun x => acc ++ [elem x]) fuel 0 []
  return .array (← elems)

def devInfo2Json (info : ZZBDevInfo) : Json :=
  Json.empty
    |>.set "addr" (jsonU16 info.addr)
    |>.set "state" (.integer (Int64.ofInt info.state))
    |>.set "name" (jsonString info.name)
    |>.set "type" (jsonU16 info.type)

/-- The element of `"id-infos"`. -/
def idInfo2Json (pair : ZItemPair) : Json :=
  Json.empty
    |>.set "id" (jsonU8 pair.id)
    |>.set "val" (jsonU16 pair.val)
    |>.set "desc" (.string "OK0")

/-- The element of `"vals"`. -/
def val2Json (pair : ZItemPair) : Json :=
  Json.empty
    |>.set "id" (jsonU8 pair.id)
    |>.set "val" (jsonU16 pair.val)

/-- `inner2Json(ZInnerGetDevListReq *)`. -/
def getDevListReq2Json (seq : UInt32) (uid fgw : String) : Json :=
  Json.empty
    |>.set "cmd" (.string "get-dev-list")
    |>.set "uid" (jsonString uid)
    |>.set "fgw" (jsonString fgw)
    |>.set "seq" (jsonU32 seq)

/-- The object of a `get-dev-list-rsp`: the status is always 0. -/
def getDevListRspObject (devs : Json) : Json :=
  Json.empty
    |>.set "cmd" (.string "get-dev-list-rsp")
    |>.set "status" (.integer 0)
    |>.set "devs" devs

/-- `inner2Json(ZInnerGetDevListRsp *)`: the loop is over `size()`. -/
def getDevListRsp2Json (infoList : List ZZBDevInfo) (fuel : Nat) : Option Json :=
  (jsonArray devInfo2Json infoList.length infoList fuel).map getDevListRspObject

/-- The object of a `get-dev-info`. -/
def getDevInfoReqObject (seq : UInt32) (fgw uid : String) (addr : UInt16) (idList : Json) : Json :=
  Json.empty
    |>.set "cmd" (.string "get-dev-info")
    |>.set "fgw" (jsonString fgw)
    |>.set "uid" (jsonString uid)
    |>.set "seq" (jsonU32 seq)
    |>.set "addr" (jsonU16 addr)
    |>.set "id-list" idList

/-- `inner2Json(ZInnerGetDevInfoReq *)`: the loop is over `size()` cut to 32 bits. -/
def getDevInfoReq2Json (seq : UInt32) (fgw uid : String) (addr : UInt16) (itemIds : List UInt8)
    (fuel : Nat) : Option Json :=
  (jsonArray jsonU8 (UInt32.ofNat itemIds.length).toNat itemIds fuel).map
    (getDevInfoReqObject seq fgw uid addr)

/-- The object of a `get-dev-info-rsp`, in answer to so many items: there is no status. -/
def getDevInfoRspObject (size : Nat) (info : Json) : Json :=
  Json.empty
    |>.set "cmd" (.string "get-dev-info-rsp")
    |>.set "code" (.integer (if size > 0 then 0 else -1))
    |>.set "id-infos" info

/-- `inner2Json(ZInnerGetDevInfoRsp *)`: the loop is over `size()`. -/
def getDevInfoRsp2Json (devInfos : List ZItemPair) (fuel : Nat) : Option Json :=
  (jsonArray idInfo2Json devInfos.length devInfos fuel).map (getDevInfoRspObject devInfos.length)

/-- The object of a `set-dev-info`. -/
def setDevInfoReqObject (seq : UInt32) (fgw uid : String) (addr : UInt16) (vals : Json) : Json :=
  Json.empty
    |>.set "cmd" (.string "set-dev-info")
    |>.set "fgw" (jsonString fgw)
    |>.set "uid" (jsonString uid)
    |>.set "seq" (jsonU32 seq)
    |>.set "addr" (jsonU16 addr)
    |>.set "vals" vals

/-- `inner2Json(ZInnerSetDevInfoReq *)`: the loop is over `size()` cut to 32 bits. -/
def setDevInfoReq2Json (seq : UInt32) (fgw uid : String) (addr : UInt16) (devVals : List ZItemPair)
    (fuel : Nat) : Option Json :=
  (jsonArray val2Json (UInt32.ofNat devVals.length).toNat devVals fuel).map
    (setDevInfoReqObject seq fgw uid addr)

/-- `inner2Json(ZInnerSetDevInfoRsp *)`. -/
def setDevInfoRsp2Json (status : UInt8) : Json :=
  Json.empty
    |>.set "cmd" (.string "set-dev-info-rsp")
    |>.set "status" (jsonU8 status)

/-- The requests to bind differ in their command only. -/
def bindReq2JsonAs (cmd : String) (seq : UInt32) (fgw : String) : Json :=
  Json.empty
    |>.set "cmd" (.string cmd)
    |>.set "seq" (jsonU32 seq)
    |>.set "fgw" (jsonString fgw)

/-- The responses to binding differ in their command only. -/
def bindRsp2JsonAs (cmd : String) (seq : UInt32) (result : UInt8) : Json :=
  Json.empty
    |>.set "cmd" (.string cmd)
    |>.set "result" (jsonU8 result)
    |>.set "seq" (jsonU32 seq)

/-- `inner2Json(ZInnerPreBindReq *)`. -/
def preBindReq2Json : UInt32 → String → Json := bindReq2JsonAs "pre-bind"

/-- `inner2Json(ZInnerPreBindRsp *)`. -/
def preBindRsp2Json : UInt32 → UInt8 → Json := bindRsp2JsonAs "pre-bind-rsp"

/-- `inner2Json(ZInnerBindReq *)`. -/
def bindReq2Json : UInt32 → String → Json := bindReq2JsonAs "bind"

/-- `inner2Json(ZInnerBindRsp *)`. -/
def bindRsp2Json : UInt32 → UInt8 → Json := bindRsp2JsonAs "bind-rsp"

/-- `inner2Json(ZInnerMsg *)`, by `msg_type_`. -/
def inner2Json (fuel : Nat) (seq : UInt32) : InnerBody → Option Json
  | .getDevListReq uid fgw => some (getDevListReq2Json seq uid fgw)
  | .getDevListRsp _ infoList => getDevListRsp2Json infoList fuel
  | .getDevInfoReq fgw uid addr itemIds => getDevInfoReq2Json seq fgw uid addr itemIds fuel
  | .getDevInfoRsp _ devInfos => getDevInfoRsp2Json devInfos fuel
  | .setDevInfoReq fgw uid addr devVals => setDevInfoReq2Json seq fgw uid addr devVals fuel
  | .setDevInfoRsp status => some (setDevInfoRsp2Json status)
  | .preBindReq fgw => some (preBindReq2Json seq fgw)
  | .preBindRsp result => some (preBindRsp2Json seq result)
  | .bindReq fgw => some (bindReq2Json seq fgw)
  | .bindRsp result => some (bindRsp2Json seq result)

/-! ## From JSON -/

/-- An integer as a `uint8_t`. -/
def toU8 (i : Int64) : UInt8 := i.toUInt64.toUInt8

/-- An integer as a `uint16_t`. -/
def toU16 (i : Int64) : UInt16 := i.toUInt64.toUInt16

/-- The check of the command that most of the functions repeat. -/
def checkCmd (j : Json) (cmd : String) : Option Unit := do
  let s ← j.getString "cmd"
  if startsWith s cmd then some () else none

/-- A call that has returned, and what is done with what it returned. -/
def Run.andThen {α β : Type} (r : Run α) (f : α → β) : Run β := r.map fun ret => ret.map f

/-- `json2InnerGetDevListReq`. -/
def json2InnerGetDevListReq (j : Json) : Option InnerBody := do
  checkCmd j "get-dev-list"
  let uid ← j.getString "uid"
  let fgw ← j.getString "fgw"
  return .getDevListReq (cStr uid) (cStr fgw)

/-- The body of the loop in `json2InnerGetDevListRsp`.  The mac of a new `ZZBDevInfo` is zero. -/
def json2DevInfo (j : Json) : Option ZZBDevInfo := do
  let addr ← j.getInteger "addr"
  let name ← j.getString "name"
  let state ← j.getInteger "state"
  let type ← j.getInteger "type"
  return ⟨toU16 addr, cStr name, state.toInt32.toInt, ZbMac.zero, toU16 type⟩

/-- `json2InnerGetDevListRsp`. -/
def json2InnerGetDevListRsp (fuel : Nat) (j : Json) : Run InnerBody :=
  match (do
    checkCmd j "get-dev-list-rsp"
    let status ← j.getInteger "status"
    let devs ← j.getArray "devs"
    return (status, devs) : Option (Int64 × Json)) with
  | none => some none
  | some (status, devs) =>
    Run.andThen
      (CountUp.loop (UInt32.ofNat devs.size).toNat
        (fun i acc => do return acc ++ [← json2DevInfo (← devs.at? i)]) fuel 0 [])
      (.getDevListRsp status.toInt32)

/-- `json2InnerGetDevInfoReq`: `"id-list"` has to be there, but not to be an array. -/
def json2InnerGetDevInfoReq (fuel : Nat) (j : Json) : Run InnerBody :=
  match (do
    checkCmd j "get-dev-info"
    let fgw ← j.getString "fgw"
    let uid ← j.getString "uid"
    let addr ← j.getInteger "addr"
    let idList ← j.get "id-list"
    return (fgw, uid, addr, idList) : Option (String × String × Int64 × Json)) with
  | none => some none
  | some (fgw, uid, addr, idList) =>
    Run.andThen
      (CountUp.loop (UInt32.ofNat idList.size).toNat
        (fun i acc => do return acc ++ [toU8 (← (← idList.at? i).integer?)]) fuel 0 [])
      (.getDevInfoReq (cStr fgw) (cStr uid) (addr.toInt32 &&& 0xFFFF).toUInt32.toUInt16)

/-- The body of the loop in `json2InnerGetDevInfoRsp`, which checks nothing. -/
def json2IdInfo (j : Option Json) : ZItemPair :=
  ⟨toU8 (Json.integerValue (j.bind (·.get "id"))),
    toU16 (Json.integerValue (j.bind (·.get "value")))⟩

/-- `json2InnerGetDevInfoRsp`: the status stays what it was. -/
def json2InnerGetDevInfoRsp (fuel : Nat) (fresh : Fresh) (j : Json) : Run InnerBody :=
  match (do
    checkCmd j "get-dev-info-rsp"
    j.getArray "id-infos" : Option Json) with
  | none => some none
  | some infoList =>
    Run.andThen
      (CountUp.loop (UInt32.ofNat infoList.size).toNat
        (fun i acc => some (acc ++ [json2IdInfo (infoList.at? i)])) fuel 0 [])
      (.getDevInfoRsp fresh.status)

/-- The body of the loop in `json2InnerSetDevInfoReq`. -/
def json2Val (j : Json) : Option ZItemPair := do
  let id ← j.getInteger "id"
  let val ← j.getInteger "val"
  return ⟨toU8 id, toU16 val⟩

/-- `json2InnerSetDevInfoReq`: the loop is over `json_array_size`, all of its bits. -/
def json2InnerSetDevInfoReq (fuel : Nat) (j : Json) : Run InnerBody :=
  match (do
    checkCmd j "set-dev-info"
    let fgw ← j.getString "fgw"
    let uid ← j.getString "uid"
    let addr ← j.getInteger "addr"
    let vals ← j.getArray "vals"
    return (fgw, uid, addr, vals) : Option (String × String × Int64 × Json)) with
  | none => some none
  | some (fgw, uid, addr, vals) =>
    Run.andThen
      (CountUp.loop vals.size
        (fun i acc => do return acc ++ [← json2Val (← vals.at? i)]) fuel 0 [])
      (.setDevInfoReq (cStr fgw) (cStr uid) addr.toInt32.toUInt32.toUInt16)

/-- `json2InnerSetDevInfoRsp`. -/
def json2InnerSetDevInfoRsp (j : Json) : Option InnerBody := do
  checkCmd j "set-dev-info-rsp"
  let status ← j.getInteger "status"
  return .setDevInfoRsp (toU8 status)

/-- `json2InnerPreBindReq`. -/
def json2InnerPreBindReq (j : Json) : Option InnerBody := do
  let fgw ← j.getString "fgw"
  return .preBindReq (cStr fgw)

/-- `json2InnerPreBindRsp`. -/
def json2InnerPreBindRsp (j : Json) : Option InnerBody := do
  let result ← j.getInteger "result"
  return .preBindRsp (toU8 result)

/-- `json2InnerBindReq`. -/
def json2InnerBindReq (j : Json) : Option InnerBody := do
  let fgw ← j.getString "fgw"
  return .bindReq (cStr fgw)

/-- `json2InnerBindRsp`. -/
def json2InnerBindRsp (j : Json) : Option InnerBody := do
  let result ← j.getInteger "result"
  return .bindRsp (toU8 result)

/-- `json2Inner`. -/
def json2Inner (fuel : Nat) (fresh : Fresh) (j : Json) : Run InnerBody :=
  match j.getString "cmd" with
  | none => some none
  | some s =>
    let cmd := cStr s
    if cmd = "get-dev-list" then some (json2InnerGetDevListReq j)
    else if cmd = "get-dev-list-rsp" then json2InnerGetDevListRsp fuel j
    else if cmd = "get-dev-info" then json2InnerGetDevInfoReq fuel j
    else if cmd = "get-dev-info-rsp" then json2InnerGetDevInfoRsp fuel fresh j
    else if cmd = "set-dev-info" then json2InnerSetDevInfoReq fuel j
    else if cmd = "set-dev-info-rsp" then some (json2InnerSetDevInfoRsp j)
    else if cmd = "pre-bind" then some (json2InnerPreBindReq j)
    else if cmd = "pre-bind-rsp" then some (json2InnerPreBindRsp j)
    else if cmd = "bind" then some (json2InnerBindReq j)
    else if cmd = "bind-rsp" then some (json2InnerBindRsp j)
    else some none

end WebApi

end Monsys
