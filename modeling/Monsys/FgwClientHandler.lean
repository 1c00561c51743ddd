/-
  The gateway's side of its connection to the server: `FGWClientHandler` and its sessions
  (`server/fgw_client_handler.{h,cc}`, `server/fgw_client_session.h`, `libframework/zsession.h`) and
  the timers of `libframework/ztimer.h`.

  1. **Timers** — `ZTimer`, sixteen slots.
  2. **Sessions** — a request of the server that waits for the answer from inside the gateway.
  3. **The handler** — its member functions, each from the handler to the handler and to what it
     puts out: bytes handed to `::send`, messages handed to the dispatcher, and what the log says
     was decoded.
  4. **One event** — `FGWClientHandler.step`.

  What the member functions return is dropped by their callers and left out, and so are `addr_`, which
  nothing reads, and the counts of `send`.  Times do not overflow.
-/
import Monsys.GatewayMessages
import Monsys.Generator
import Monsys.SessionCtrl

namespace Monsys

open Push

/-! ## Timers -/

/-- `TimerData`; the id is the slot. -/
structure TimerData where
  interval : Int
  isRepeat : Bool
deriving DecidableEq, Repr

/-- `MAX_TIMER_COUNT`. -/
def maxTimerCount : Nat := 16

structure ZTimer where
  evList : Fin maxTimerCount → Option TimerData

namespace ZTimer

def new : ZTimer := ⟨fun _ => none⟩

/-- `getAvailableIndex`, `none` for -1. -/
def getAvailableIndex (t : ZTimer) : Option (Fin maxTimerCount) :=
  (List.finRange maxTimerCount).find? fun i => (t.evList i).isNone

def setTimer (t : ZTimer) (interval : Int) (isRepeat : Bool) : Int × ZTimer :=
  match t.getAvailableIndex with
  | none => (-1, t)
  | some id => (id, ⟨Function.update t.evList id (some ⟨interval, isRepeat⟩)⟩)

def cancelTimer (t : ZTimer) (id : Int) : ZTimer :=
  ⟨fun i => if (i : Int) = id then none else t.evList i⟩

end ZTimer

/-! ## Sessions -/

/-- `FGW_CLIENT_SESSION_TIMEOUT`. -/
def fgwClientSessionTimeout : Int := 10 * 1000

inductive SessionState
  | init
  | waitForZbProxy
deriving DecidableEq, Repr

/-- `FGWClientForwardSession`, less its pointer to the handler. -/
structure FGWClientForwardSession where
  key : UInt32
  touchTime : Int
  timeout : Int
  closed : Bool
  state : SessionState
  externalKey : UInt32
deriving DecidableEq, Repr

/-- What the handler puts out. -/
inductive Output
  | send (fd : Int) (bytes : List UInt8)
  | dispatch (msg : ZInnerMsg)
  | decoded (msg : PushMsg)
deriving DecidableEq

namespace FGWClientForwardSession

/-- The constructor.  `external_key_` is set before it is read. -/
def new (key : UInt32) : FGWClientForwardSession :=
  ⟨key, 0, fgwClientSessionTimeout, false, .init, 0⟩

def close (s : FGWClientForwardSession) : FGWClientForwardSession := { s with closed := true }

/-- `doTimeout`, with the `onTimeout` of the class. -/
def doTimeout (s : FGWClientForwardSession) (delta : Int) : FGWClientForwardSession :=
  let s := { s with touchTime := s.touchTime + delta }
  if s.touchTime > s.timeout then s.close else s

def isComplete (s : FGWClientForwardSession) : Bool := s.closed

/-- The sequence number of a message, as the table of sessions keys it. -/
def external (msg : PushMsg) : UInt32 := UInt32.ofInt msg.sequence

/-- What is set as an `int` is the number that came, which was one. -/
theorem external_toInt {msg : PushMsg} (hlo : -2 ^ 31 ≤ msg.sequence) (hhi : msg.sequence < 2 ^ 31) :
    (external msg).toInt32.toInt = msg.sequence := by
  have hpos : 0 ≤ msg.sequence % 2 ^ 32 := Int.emod_nonneg _ (by decide)
  show (BitVec.ofNat 32 (msg.sequence % 2 ^ 32).toNat).toInt = msg.sequence
  rw [BitVec.toInt_ofNat', Int.toNat_of_nonneg hpos]
  exact (Int.emod_bmod _ (2 ^ 32)).trans (Int.bmod_eq_of_le (by omega) (by omega))

/-- `event(PushMsg*)`. -/
def eventPush (s : FGWClientForwardSession) (msg : PushMsg) :
    FGWClientForwardSession × List Output :=
  if s.state ≠ .init then (s, [])
  else match push2inner msg with
    | none => (s.close, [])
    | some body =>
      ({ s with externalKey := external msg, state := .waitForZbProxy },
        [.dispatch ⟨⟨moduleFgwClient, -1, 1⟩, ⟨moduleSerial, -1, anyId⟩, s.key, body⟩])

/-- The answer that goes up: the number is set as an `int`. -/
def answer (pb : Protobuf) (body : InnerBody) (externalKey : UInt32) : Option (List UInt8) :=
  match inner2push body with
  | none => none
  | some msg => protobufEncode pb { msg with sequence := externalKey.toInt32.toInt } 1024

/-- `event(ZInnerMsg*)`. -/
def eventInner (pb : Protobuf) (fd : Int) (s : FGWClientForwardSession) (msg : ZInnerMsg) :
    FGWClientForwardSession × List Output :=
  if s.state ≠ .waitForZbProxy then (s, [])
  else match answer pb msg.body s.externalKey with
    | none => (s.close, [])
    | some bytes => (s.close, [.send fd bytes])

/-- A session that has handed its request on and waits. -/
def waiting (key externalKey : UInt32) (touchTime : Int) : FGWClientForwardSession :=
  ⟨key, touchTime, fgwClientSessionTimeout, false, .waitForZbProxy, externalKey⟩

/-- A fresh session hands its request on, or is done with it. -/
theorem eventPush_new (key : UInt32) (msg : PushMsg) :
    (new key).eventPush msg =
      match push2inner msg with
      | none => ((new key).close, [])
      | some body => (waiting key (external msg) 0,
          [.dispatch ⟨⟨moduleFgwClient, -1, 1⟩, ⟨moduleSerial, -1, anyId⟩, key, body⟩]) := rfl

/-- A session that waits is done with the first answer. -/
theorem eventInner_waiting (pb : Protobuf) (fd : Int) (key externalKey : UInt32) (touchTime : Int)
    (msg : ZInnerMsg) :
    (waiting key externalKey touchTime).eventInner pb fd msg =
      ((waiting key externalKey touchTime).close,
        (answer pb msg.body externalKey).toList.map (Output.send fd)) := by
  show (match answer pb msg.body externalKey with | none => _ | some bytes => _) = _
  cases answer pb msg.body externalKey <;> rfl

/-- What a tick leaves of a session. -/
def tick (delta : Int) (s : FGWClientForwardSession) : Option FGWClientForwardSession :=
  if (s.doTimeout delta).isComplete then none else some (s.doTimeout delta)

theorem tick_waiting (delta : Int) (key externalKey : UInt32) (touchTime : Int) :
    tick delta (waiting key externalKey touchTime) =
      if touchTime + delta > fgwClientSessionTimeout then none
      else some (waiting key externalKey (touchTime + delta)) := by
  have hdo : (waiting key externalKey touchTime).doTimeout delta =
      if touchTime + delta > fgwClientSessionTimeout then
        (waiting key externalKey (touchTime + delta)).close
      else waiting key externalKey (touchTime + delta) := rfl
  rw [tick, hdo]
  split <;> rfl

end FGWClientForwardSession

/-! ## The handler -/

inductive FgwState
  | unregistered
  | waitForServer
  | registered
deriving DecidableEq, Repr

structure FGWClientHandler where
  fd : Int
  sessionCtrl : SessionTable UInt32 UInt32 FGWClientForwardSession
  state : FgwState
  timer : ZTimer
  loginTimerId : Int
  idGenerator : HandlerIdGenerator

namespace FGWClientHandler

/-- The constructor. -/
def new : FGWClientHandler where
  fd := -1
  sessionCtrl := .new
  state := .unregistered
  timer := .new
  loginTimerId := -1
  idGenerator := .new 1 0xFFFFFF

/-- `init`. -/
def init (h : FGWClientHandler) : FGWClientHandler := { h with state := .unregistered }

/-- The bytes of a text. -/
def textBytes (text : String) : List UInt8 := text.toUTF8.toList

/-- `sendRsp`. -/
def sendRsp (h : FGWClientHandler) (text : String) : List Output := [.send h.fd (textBytes text)]

/-- The login message. -/
def loginMsg : PushMsg :=
  { newPushMsg .pushClientLogin 0 with pushClientLogin := some { deviceId := "DEVID-Z" } }

/-- `fgwLogin`. -/
def fgwLogin (pb : Protobuf) (h : FGWClientHandler) : FGWClientHandler × List Output :=
  match protobufEncode pb loginMsg 2048 with
  | none => (h, [])
  | some bytes =>
    let (id, timer) := h.timer.setTimer (10 * 1000) false
    ({ h with state := .waitForServer, loginTimerId := id, timer }, [.send h.fd bytes])

/-- `onConnected`. -/
def onConnected (pb : Protobuf) (h : FGWClientHandler) : FGWClientHandler × List Output :=
  fgwLogin pb { h with state := .unregistered }

/-- `processLoginRsp`. -/
def processLoginRsp (h : FGWClientHandler) (pushMsg : PushMsg) : FGWClientHandler :=
  match pushMsg.pushClientLoginRsp with
  | none => h
  | some rsp =>
    if rsp.code ≠ 0 then h
    else { h with state := .registered, timer := h.timer.cancelTimer h.loginTimerId, loginTimerId := -1 }

/-- `onRead_Unregistered`. -/
def onReadUnregistered (h : FGWClientHandler) : FGWClientHandler × List Output :=
  (h, h.sendRsp "Not-register(i)")

/-- `onRead_WaitForServer`. -/
def onReadWaitForServer (pb : Protobuf) (h : FGWClientHandler) (buf : List UInt8) :
    FGWClientHandler × List Output :=
  match Monsys.decoded pb buf with
  | none => (h, [])
  | some pushMsg =>
    if pushMsg.type ≠ .pushClientLoginRsp then (h, [.decoded pushMsg])
    else (h.processLoginRsp pushMsg, [.decoded pushMsg])

/-- `onRead_Registered`. -/
def onReadRegistered (pb : Protobuf) (h : FGWClientHandler) (buf : List UInt8) :
    FGWClientHandler × List Output :=
  if buf.length ≤ 0 then (h, h.sendRsp "empty message")
  else match Monsys.decoded pb buf with
    | none => (h, [])
    | some pushMsg =>
      match h.sessionCtrl.findByKey2 (FGWClientForwardSession.external pushMsg) with
      | some _ => (h, [.decoded pushMsg])  -- duplicated session
      | none =>
        let (innerSeq, idGenerator) := h.idGenerator.next
        let innerSeq := UInt32.ofInt innerSeq
        let (session, out) := (FGWClientForwardSession.new innerSeq).eventPush pushMsg
        let sessionCtrl :=
          if session.isComplete then h.sessionCtrl
          else (h.sessionCtrl.add innerSeq (FGWClientForwardSession.external pushMsg) session).2
        ({ h with idGenerator, sessionCtrl }, .decoded pushMsg :: out)

/-- `onRead`. -/
def onRead (pb : Protobuf) (h : FGWClientHandler) (buf : List UInt8) :
    FGWClientHandler × List Output :=
  match h.state with
  | .unregistered => h.onReadUnregistered
  | .waitForServer => h.onReadWaitForServer pb buf
  | .registered => h.onReadRegistered pb buf

/-- `onInnerMsg`. -/
def onInnerMsg (pb : Protobuf) (h : FGWClientHandler) (msg : ZInnerMsg) :
    FGWClientHandler × List Output :=
  match hk : h.sessionCtrl.findByKey1 msg.seq with
  | none => (h, [])
  | some session =>
    let (session, out) := session.eventInner pb h.fd msg
    let sessionCtrl :=
      if session.isComplete then (h.sessionCtrl.removeByKey1 msg.seq).2
      else h.sessionCtrl.store msg.seq session (by rw [hk]; rfl)
    ({ h with sessionCtrl }, out)

/-- The loop of `routine` over the sessions, by their inner keys. -/
def routineLoop (delta : Int) (t : SessionTable UInt32 UInt32 FGWClientForwardSession) :
    List UInt32 → SessionTable UInt32 UInt32 FGWClientForwardSession
  | [] => t
  | key :: keys =>
    match hk : t.findByKey1 key with
    | none => routineLoop delta t keys
    | some session =>
      let session := session.doTimeout delta
      if session.isComplete then routineLoop delta (t.erase key (by rw [hk]; rfl)) keys
      else routineLoop delta (t.store key session (by rw [hk]; rfl)) keys

/-- `routine`. -/
def routine (h : FGWClientHandler) (delta : Int) : FGWClientHandler :=
  { h with sessionCtrl := routineLoop delta h.sessionCtrl h.sessionCtrl.sessionMap.keys }

/-- `onTimeout`. -/
def onTimeout (pb : Protobuf) (h : FGWClientHandler) (id : Int) : FGWClientHandler × List Output :=
  if id = h.loginTimerId then
    if h.state = .waitForServer then fgwLogin pb { h with state := .unregistered } else (h, [])
  else (h, [])

/-- `timer_callback` of the timer in a slot. -/
def timerCallback (pb : Protobuf) (h : FGWClientHandler) (id : Fin maxTimerCount) :
    FGWClientHandler × List Output :=
  match h.timer.evList id with
  | none => (h, [])
  | some data =>
    let (h, out) := h.onTimeout pb id
    (if data.isRepeat then h else { h with timer := h.timer.cancelTimer id }, out)

/-! ## One event -/

/-- What can happen to the handler.  `connected` is what the client does when a connection is up: it
    sets `fd_` and calls `onConnected`. -/
inductive Event
  | init
  | connected (fd : Int)
  | read (buf : List UInt8)
  | inner (msg : ZInnerMsg)
  | routine (delta : Int)
  | timer (id : Fin maxTimerCount)

def step (pb : Protobuf) (h : FGWClientHandler) : Event → FGWClientHandler × List Output
  | .init => (h.init, [])
  | .connected fd => onConnected pb { h with fd := fd }
  | .read buf => h.onRead pb buf
  | .inner msg => h.onInnerMsg pb msg
  | .routine delta => (h.routine delta, [])
  | .timer id => h.timerCallback pb id

/-! ## What the members do -/

variable {pb : Protobuf}

/-- Whatever is no message of the server's or from inside leaves sessions and numbers alone. -/
theorem fgwLogin_frame (pb : Protobuf) (h : FGWClientHandler) :
    (fgwLogin pb h).1.sessionCtrl = h.sessionCtrl ∧ (fgwLogin pb h).1.idGenerator = h.idGenerator := by
  rw [fgwLogin]
  split
  · exact ⟨rfl, rfl⟩
  · exact ⟨rfl, rfl⟩

theorem timerCallback_frame (pb : Protobuf) (h : FGWClientHandler) (id : Fin maxTimerCount) :
    (h.timerCallback pb id).1.sessionCtrl = h.sessionCtrl ∧
      (h.timerCallback pb id).1.idGenerator = h.idGenerator := by
  have htimeout : (h.onTimeout pb id).1.sessionCtrl = h.sessionCtrl ∧
      (h.onTimeout pb id).1.idGenerator = h.idGenerator := by
    rw [onTimeout]
    split
    · split
      · exact fgwLogin_frame pb _
      · exact ⟨rfl, rfl⟩
    · exact ⟨rfl, rfl⟩
  rw [timerCallback]
  split
  · exact ⟨rfl, rfl⟩
  · dsimp only
    split
    · exact htimeout
    · exact htimeout

theorem onReadWaitForServer_frame (pb : Protobuf) (h : FGWClientHandler) (buf : List UInt8) :
    (h.onReadWaitForServer pb buf).1.sessionCtrl = h.sessionCtrl ∧
      (h.onReadWaitForServer pb buf).1.idGenerator = h.idGenerator := by
  have hrsp : ∀ msg, (h.processLoginRsp msg).sessionCtrl = h.sessionCtrl ∧
      (h.processLoginRsp msg).idGenerator = h.idGenerator := by
    intro msg
    rw [processLoginRsp]
    split
    · exact ⟨rfl, rfl⟩
    · split
      · exact ⟨rfl, rfl⟩
      · exact ⟨rfl, rfl⟩
  rw [onReadWaitForServer]
  split
  · exact ⟨rfl, rfl⟩
  · split
    · exact ⟨rfl, rfl⟩
    · exact hrsp _

/-- A message of the server changes sessions and numbers only. -/
theorem onReadRegistered_frame (pb : Protobuf) (h : FGWClientHandler) (buf : List UInt8) :
    (h.onReadRegistered pb buf).1.fd = h.fd ∧ (h.onReadRegistered pb buf).1.state = h.state := by
  rw [onReadRegistered]
  split
  · exact ⟨rfl, rfl⟩
  · split
    · exact ⟨rfl, rfl⟩
    · dsimp only
      split
      · exact ⟨rfl, rfl⟩
      · exact ⟨rfl, rfl⟩

/-- **What a message of the server does**, in the registered state. -/
theorem onReadRegistered_cases (pb : Protobuf) (h : FGWClientHandler) {buf : List UInt8}
    (hbuf : buf ≠ []) :
    (Monsys.decoded pb buf = none ∧ h.onReadRegistered pb buf = (h, [])) ∨
    ∃ msg, Monsys.decoded pb buf = some msg ∧
      (((h.sessionCtrl.findByKey2 (FGWClientForwardSession.external msg)).isSome ∧
          h.onReadRegistered pb buf = (h, [.decoded msg])) ∨
       (h.sessionCtrl.findByKey2 (FGWClientForwardSession.external msg) = none ∧ push2inner msg = none ∧
          h.onReadRegistered pb buf = ({ h with idGenerator := h.idGenerator.next.2 }, [.decoded msg])) ∨
       ∃ body, h.sessionCtrl.findByKey2 (FGWClientForwardSession.external msg) = none ∧ push2inner msg = some body ∧
          h.onReadRegistered pb buf =
            ({ h with
                idGenerator := h.idGenerator.next.2
                sessionCtrl := (h.sessionCtrl.add (UInt32.ofInt h.idGenerator.next.1)
                  (FGWClientForwardSession.external msg)
                  (.waiting (UInt32.ofInt h.idGenerator.next.1)
                    (FGWClientForwardSession.external msg) 0)).2 },
              [.decoded msg, .dispatch ⟨⟨moduleFgwClient, -1, 1⟩, ⟨moduleSerial, -1, anyId⟩,
                UInt32.ofInt h.idGenerator.next.1, body⟩])) := by
  have hlen : ¬ buf.length ≤ 0 := fun hle => hbuf (List.length_eq_zero_iff.mp (Nat.le_zero.mp hle))
  rw [onReadRegistered, if_neg hlen]
  cases hdec : Monsys.decoded pb buf with
  | none => exact Or.inl ⟨rfl, rfl⟩
  | some msg =>
    refine Or.inr ⟨msg, rfl, ?_⟩
    dsimp only
    cases hdup : h.sessionCtrl.findByKey2 (FGWClientForwardSession.external msg) with
    | some s => exact Or.inl ⟨rfl, rfl⟩
    | none =>
      refine Or.inr ?_
      dsimp only
      rw [FGWClientForwardSession.eventPush_new]
      cases push2inner msg with
      | none => exact Or.inl ⟨rfl, rfl, rfl⟩
      | some body => exact Or.inr ⟨body, rfl, rfl, rfl⟩

/-- **What an answer from inside does**: it ends the session under its number, if one waits there. -/
theorem onInnerMsg_waiting {h : FGWClientHandler} {msg : ZInnerMsg} {key externalKey : UInt32}
    {touchTime : Int}
    (hk : h.sessionCtrl.findByKey1 msg.seq = some (.waiting key externalKey touchTime)) :
    h.onInnerMsg pb msg =
      ({ h with sessionCtrl := (h.sessionCtrl.removeByKey1 msg.seq).2 },
        (FGWClientForwardSession.answer pb msg.body externalKey).toList.map (Output.send h.fd)) := by
  rw [onInnerMsg]
  split
  · next hnone =>
    rw [hk] at hnone
    cases hnone
  · next s hs =>
    obtain rfl : .waiting key externalKey touchTime = s := Option.some.inj (hk.symm.trans hs)
    dsimp only
    rw [FGWClientForwardSession.eventInner_waiting]
    rfl

theorem onInnerMsg_none {h : FGWClientHandler} {msg : ZInnerMsg}
    (hk : h.sessionCtrl.findByKey1 msg.seq = none) : h.onInnerMsg pb msg = (h, []) := by
  rw [onInnerMsg]
  split
  · rfl
  · next s hs =>
    rw [hk] at hs
    cases hs

open FGWClientForwardSession in
/-- The loop of `routine` is the one of a table of sessions. -/
theorem routineLoop_eq (delta : Int) (keys : List UInt32)
    (t : SessionTable UInt32 UInt32 FGWClientForwardSession) :
    routineLoop delta t keys = t.tickLoop (doTimeout · delta) isComplete keys := by
  induction keys generalizing t with
  | nil => rfl
  | cons key keys ih =>
    rw [routineLoop]
    split
    · next hk => rw [ih, SessionTable.tickLoop_cons_none (doTimeout · delta) isComplete hk]
    · next s hk =>
      dsimp only
      rw [ih, ih, SessionTable.tickLoop_cons_some (doTimeout · delta) isComplete hk]

open FGWClientForwardSession in
/-- **What a tick does**: every session is ticked. -/
theorem routine_lookup (h : FGWClientHandler) (delta : Int) (k : UInt32) :
    (h.routine delta).sessionCtrl.pairing.value k =
        (h.sessionCtrl.pairing.value k).bind (tick delta) ∧
      (h.routine delta).sessionCtrl.pairing.keys k =
        if ((h.routine delta).sessionCtrl.pairing.value k).isSome then h.sessionCtrl.pairing.keys k
        else none := by
  rw [routine]
  dsimp only
  rw [routineLoop_eq]
  exact h.sessionCtrl.tickLoop_keys_lookup (doTimeout · delta) isComplete k

end FGWClientHandler

/-! ## A sample -/

/-- The login message on the wire. -/
def loginBytes : List UInt8 :=
  [0x08, 0x01, 0x10, 0x01, 0x18, 0x00, 0x52, 0x09, 0x0A, 0x07, 0x44, 0x45, 0x56, 0x49, 0x44, 0x2D, 0x5A]

/-- The server's answer to it. -/
def loginRspMsg : PushMsg :=
  { newPushMsg .pushClientLoginRsp 0 with pushClientLoginRsp := some { code := 0 } }

def loginRspBytes : List UInt8 := [0x08, 0x01, 0x10, 0x65, 0x18, 0x00, 0x5A, 0x02, 0x08, 0x00]

/-- A request for the list of devices, with the number 7. -/
def devListMsg : PushMsg :=
  { newPushMsg .getDevList 7 with getDevList := some { deviceId := "gw" } }

def devListBytes : List UInt8 :=
  [0x08, 0x01, 0x10, 0x05, 0x18, 0x07, 0x92, 0x01, 0x04, 0x0A, 0x02, 0x67, 0x77]

/-- An answer to it: no devices. -/
def devListRspMsg : PushMsg := { newPushMsg .getDevListRsp 7 with getDevListRsp := some { code := 0 } }

def devListRspBytes : List UInt8 :=
  [0x08, 0x01, 0x10, 0x69, 0x18, 0x07, 0x9A, 0x01, 0x02, 0x08, 0x00]

/-- A library that knows these messages. -/
def Protobuf.sample : Protobuf :=
  .ofTable [(FGWClientHandler.loginMsg, loginBytes), (loginRspMsg, loginRspBytes),
    (devListMsg, devListBytes), (devListRspMsg, devListRspBytes)]

end Monsys
