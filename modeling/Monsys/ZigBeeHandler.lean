/-
  The gateway's handler of the ZigBee module: `ZZigBeeHandler` (`server/zzigbee_handler.{h,cc}`) and
  its sessions (`server/zzigbee_session.h`).

  Requests from inside the gateway go out over the serial port; each leaves a session under the
  requester's sequence number and under the address it was sent to, and an answer of the module finds
  the session by the address alone.

  1. **Sessions** — `ZZigBeeSession`.
  2. **The handler** — its member functions, each from the handler to the handler and to what it
     puts out.
  3. **One event** — `ZZigBeeHandler.step`.

  Requests to get and to set are answered at once by debugging code that ends with a `return`; what
  stands behind it is never reached and left out.  So are `addr_` and `id_generator_`, which nothing
  reads, and what the member functions return.  `Abort` is a failed assertion, or a dead pointer in the
  device table.  Times do not overflow.
-/
import Monsys.GatewayMessages
import Monsys.SessionCtrl

namespace Monsys

open Wire

/-! ## Sessions -/

/-- `ZIGBEE_CLIENT_SESSION_TIMEOUT`. -/
def zigbeeClientSessionTimeout : Int := 8 * 1000

structure ZZigBeeSession where
  key : UInt32
  touchTime : Int
  timeout : Int
  closed : Bool
  srcAddr : ZInnerAddress
  dstAddr : ZInnerAddress
deriving DecidableEq, Repr

namespace ZZigBeeSession

/-- The constructor, and the two addresses that every caller sets. -/
def new (key : UInt32) (srcAddr dstAddr : ZInnerAddress) : ZZigBeeSession :=
  ⟨key, 0, zigbeeClientSessionTimeout, false, srcAddr, dstAddr⟩

def close (s : ZZigBeeSession) : ZZigBeeSession := { s with closed := true }

/-- `doTimeout`, with the `onTimeout` of the class. -/
def doTimeout (s : ZZigBeeSession) (delta : Int) : ZZigBeeSession :=
  let s := { s with touchTime := s.touchTime + delta }
  if s.touchTime > s.timeout then s.close else s

def isComplete (s : ZZigBeeSession) : Bool := s.closed

end ZZigBeeSession

/-! ## The handler -/

/-- What the handler puts out. -/
inductive ZbOutput
  | write (fd : Int) (bytes : List UInt8)
  | dispatch (msg : ZInnerMsg)
deriving DecidableEq

structure ZZigBeeHandler where
  fd : Int
  devManager : ZZBDevManager
  sessionCtrl : SessionTable UInt32 UInt32 ZZigBeeSession

namespace ZZigBeeHandler

/-- The constructor. -/
def new : ZZigBeeHandler := ⟨-1, .new, .new⟩

/-- `sizeof(buf_)`. -/
def bufSize : Nat := 1 <<< 10

/-- `send`; `written` is what `::write` returns. -/
def send (h : ZZigBeeHandler) (buf : List UInt8) (written : Int) : Int × List ZbOutput :=
  if h.fd ≤ 0 then (0, []) else (written, [.write h.fd buf])

/-- `addr << 16 | 0x00`, the second key of a session. -/
def addrKey (addr : UInt16) : UInt32 := addr.toUInt32 <<< 16 ||| 0x00

/-- `ZB_BROADCAST_WHAT_FGW_CONNECTED`. -/
def zbBroadcastWhatFgwConnected : UInt16 := 1

/-- `onConnected`. -/
def onConnected (h : ZZigBeeHandler) (j : Junk) (written : Int) :
    Except Abort (ZZigBeeHandler × List ZbOutput) :=
  let notify := { ZZBBroadcastInd.new j with what := zbBroadcastWhatFgwConnected }
  let (_, wrote) := notify.encode bufSize
  if wrote.rv ≤ 0 then .error .assert
  else
    let (rv, out) := h.send wrote.out written
    if rv ≤ 0 then .error .assert else .ok (h, out)

/-! ### Messages of the module -/

/-- `processMsg(ZZBRegReq&)`. -/
def processRegReq (h : ZZigBeeHandler) (msg : ZZBRegReq) (j : Junk) (written : Int) :
    Except Abort (ZZigBeeHandler × List ZbOutput) := do
  let ((rv, bytes), devManager) ← h.devManager.processRegReq msg j
  let h := { h with devManager }
  return (h, if rv < 0 then [] else (h.send bytes written).2)

/-- What the three answers of the module have in common: the session of the address is looked up, its
    requester is answered, and it is done. -/
def processRsp (h : ZZigBeeHandler) (addr : UInt16) (rsp : InnerBody) :
    ZZigBeeHandler × List ZbOutput :=
  match h.sessionCtrl.findByKey2 (addrKey addr) with
  | none => (h, [])
  | some session =>
    ({ h with sessionCtrl := (h.sessionCtrl.removeByKey1 session.key).2 },
      [.dispatch ⟨{}, session.srcAddr, session.key, rsp⟩])

/-- `processMsg(ZZBGetRsp&)`. -/
def processGetRsp (h : ZZigBeeHandler) (msg : ZZBGetRsp) : ZZigBeeHandler × List ZbOutput :=
  h.processRsp msg.addr (.getDevInfoRsp msg.items)

/-- `processMsg(ZZBSetRsp&)`. -/
def processSetRsp (h : ZZigBeeHandler) (msg : ZZBSetRsp) : ZZigBeeHandler × List ZbOutput :=
  h.processRsp msg.addr (.setDevInfoRsp msg.status)

/-- `processMsg(ZZBBindRsp&)`. -/
def processBindRsp (h : ZZigBeeHandler) (msg : ZZBBindRsp) : ZZigBeeHandler × List ZbOutput :=
  h.processRsp msg.addr (.bindRsp 0)

/-- `processMsg(ZZBUpdateIdInfoReq&)`; `updateIdInfo` does nothing. -/
def processUpdateIdInfoReq (h : ZZigBeeHandler) (msg : ZZBUpdateIdInfoReq) (j : Junk)
    (written : Int) : ZZigBeeHandler × List ZbOutput :=
  match h.devManager.findAddr msg.addr with
  | none => (h, [])
  | some _ =>
    let rsp := { ZZBUpdateIdInfoRsp.new j with addr := msg.addr, status := 0x00 }
    let (_, wrote) := rsp.encode bufSize
    if wrote.rv < 0 then (h, []) else (h, (h.send wrote.out written).2)

/-- The switch of `onRead`, on a message that is decoded.  The case of `Z_ID_ZB_BIND_RSP` falls
    through to the default, which only logs. -/
def onRead (h : ZZigBeeHandler) (msg : ZbMsg) (j : Junk) (written : Int) :
    Except Abort (ZZigBeeHandler × List ZbOutput) :=
  match msg with
  | .regReq msg => h.processRegReq msg j written
  | .getRsp msg => .ok (h.processGetRsp msg)
  | .setRsp msg => .ok (h.processSetRsp msg)
  | .updateIdInfoReq msg => .ok (h.processUpdateIdInfoReq msg j written)
  | .bindRsp msg => .ok (h.processBindRsp msg)
  | _ => .ok (h, [])

/-! ### Messages from inside -/

/-- A device that is listed for debugging. -/
def debugDev (i : Nat) : ZZBDevInfo :=
  ⟨UInt16.ofNat i, "dev-0" ++ toString i, i, ⟨List.replicate 8 (UInt8.ofNat i), List.length_replicate⟩,
    UInt16.ofNat i⟩

/-- `processMsg(ZInnerGetDevListReq*)`. -/
def processGetDevListReq (h : ZZigBeeHandler) (msg : ZInnerMsg) :
    Except Abort (ZZigBeeHandler × List ZbOutput) := do
  let devs ← (h.devManager.macDevMap.toList.map Prod.snd).mapM h.devManager.deref
  let infoList := (List.range 5).map debugDev ++ devs
  return (h, [.dispatch ⟨{}, msg.srcAddr, msg.seq, .getDevListRsp infoList⟩])

/-- `processMsg(ZInnerGetDevInfoReq*)`. -/
def processGetDevInfoReq (h : ZZigBeeHandler) (msg : ZInnerMsg) (itemIds : List UInt8) :
    ZZigBeeHandler × List ZbOutput :=
  match h.sessionCtrl.findByKey1 msg.seq with
  | some _ => (h, [])  -- duplicated session
  | none =>
    let devInfos := (List.range itemIds.length).map fun i => ⟨UInt8.ofNat i, UInt16.ofNat (i * 11)⟩
    (h, [.dispatch ⟨{}, msg.srcAddr, msg.seq, .getDevInfoRsp devInfos⟩])

/-- `processMsg(ZInnerSetDevInfoReq*)`. -/
def processSetDevInfoReq (h : ZZigBeeHandler) (msg : ZInnerMsg) : ZZigBeeHandler × List ZbOutput :=
  match h.sessionCtrl.findByKey1 msg.seq with
  | some _ => (h, [])  -- duplicated session
  | none => (h, [.dispatch ⟨{}, msg.srcAddr, msg.seq, .setDevInfoRsp 0⟩])

/-- `processMsg(ZInnerBindReq*)`.  What `add` returns is dropped. -/
def processBindReq (h : ZZigBeeHandler) (msg : ZInnerMsg) (j : Junk) (written : Int) :
    ZZigBeeHandler × List ZbOutput :=
  let req : ZZBBindReq := ⟨{ (ZZBBindReq.new j).toZZigBeeMsg with addr := 0x00 }⟩
  let (req, wrote) := req.encode bufSize
  if wrote.rv < 0 then (h, [])
  else
    let (rv, out) := h.send wrote.out written
    if rv ≤ 0 then (h, out)
    else
      let session := ZZigBeeSession.new msg.seq msg.srcAddr msg.dstAddr
      ({ h with sessionCtrl := (h.sessionCtrl.add msg.seq (addrKey req.addr) session).2 }, out)

def onInnerMsg (h : ZZigBeeHandler) (msg : ZInnerMsg) (j : Junk) (written : Int) :
    Except Abort (ZZigBeeHandler × List ZbOutput) :=
  match msg.body with
  | .getDevListReq => h.processGetDevListReq msg
  | .getDevInfoReq _ itemIds => .ok (h.processGetDevInfoReq msg itemIds)
  | .setDevInfoReq _ _ => .ok (h.processSetDevInfoReq msg)
  | .bindReq => .ok (h.processBindReq msg j written)
  | _ => .ok (h, [])

/-- `routine`. -/
def routine (h : ZZigBeeHandler) (delta : Int) : ZZigBeeHandler :=
  { h with
    sessionCtrl := h.sessionCtrl.tickLoop (ZZigBeeSession.doTimeout · delta) ZZigBeeSession.isComplete
      h.sessionCtrl.sessionMap.keys }

/-! ## One event -/

/-- What can happen to the handler: the serial port is open, a message of the module has been decoded,
    a message comes from inside, time goes by.  `j` is what the objects made on the way contain,
    `written` what `::write` returns. -/
inductive Event
  | connected (fd : Int) (j : Junk) (written : Int)
  | read (msg : ZbMsg) (j : Junk) (written : Int)
  | inner (msg : ZInnerMsg) (j : Junk) (written : Int)
  | routine (delta : Int)

def step (h : ZZigBeeHandler) : Event → Except Abort (ZZigBeeHandler × List ZbOutput)
  | .connected fd j written => { h with fd }.onConnected j written
  | .read msg j written => h.onRead msg j written
  | .inner msg j written => h.onInnerMsg msg j written
  | .routine delta => .ok (h.routine delta, [])

end ZZigBeeHandler

end Monsys
