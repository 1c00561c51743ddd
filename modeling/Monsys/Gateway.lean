/-
  The gateway as a whole: `main` of `server/fgw.cc`, with the module of the serial port
  (`server/zserial.{h,cc}`), the client that is connected to the server, and the dispatcher between
  them.

  The main loop lets libevent run the callbacks that are due, and then has the serial module and the
  client check their queues, in this order.

  1. **The bytes of the module** — `onReadBytes`: the header decides what object the bytes are
     decoded into.
  2. **The serial module** — `SerialModule`, from `open` and `read` to the handler.
  3. **The gateway** — `Gateway`, its callbacks (`step`) and its queues (`check`), and a round of
     the main loop (`round`).

  What memory and system calls hold in store is a row of `Surroundings`, one for each call of a
  member function that looks at them.  The upload worker, which prints a line every second, is left
  out.
-/
import Monsys.Dispatcher
import Monsys.FgwClient
import Monsys.Serial
import Monsys.ZigBeeHandler

namespace Monsys

open Wire

/-! ## The bytes of the module -/

/-- What a call finds: the memory of fresh objects, what `::write` returns, and the bytes behind
    those it is given.  -/
structure Surroundings where
  junk : Junk
  written : Int
  behind : List UInt8

namespace ZZigBeeHandler

/-- The object that `onRead` makes for a command. -/
def forCommand (cmd : UInt8) (j : Junk) : Option ZbMsg :=
  if cmd = zIdZbRegReq then some (.regReq (.new j))
  else if cmd = zIdZbGetRsp then some (.getRsp (.new j))
  else if cmd = zIdZbSetRsp then some (.setRsp (.new j))
  else if cmd = zIdZbUpdateIdReq then some (.updateIdInfoReq (.new j))
  else if cmd = zIdZbBindRsp then some (.bindRsp (.new j))
  else none

/-- What a decoder gives to a caller that takes a negative value for a failure. -/
def decodedBy {β : Type} (d : Decoder β) (mem : List UInt8) (bufLen : Nat) :
    Except Abort (Option β) :=
  match d mem bufLen with
  | .error .fault => .error .fault
  | .error (.err _) => .ok none
  | .ok (rv, b) => .ok (if rv < 0 then none else some b)

/-- `onRead`. -/
def onReadBytes (h : ZZigBeeHandler) (s : Surroundings) (buf : List UInt8) :
    Except Abort (ZZigBeeHandler × List ZbOutput) := do
  let mem := buf ++ s.behind
  match ← decodedBy ZZigBeeMsg.decode mem buf.length with
  | none => return (h, [])
  | some hdr =>
    match forCommand hdr.cmd s.junk with
    | none => return (h, [])
    | some msg =>
      match ← decodedBy msg.decode mem buf.length with
      | none => return (h, [])
      | some msg => h.onRead msg s.junk s.written

/-- One `onRead` after the other. -/
def onReadCalls (h : ZZigBeeHandler) (s : Nat → Surroundings) :
    List (List UInt8) → Except Abort (ZZigBeeHandler × List ZbOutput)
  | [] => return (h, [])
  | buf :: bufs => do
    let (h, out) ← h.onReadBytes (s 0) buf
    let (h, outs) ← h.onReadCalls (fun n => s (n + 1)) bufs
    return (h, out ++ outs)

end ZZigBeeHandler

/-! ## The serial module -/

inductive PortState
  | connected
  | disconnected
deriving DecidableEq, Repr

/-- `ZSerial`, all of it but its two buffers. -/
structure SerialModule where
  fd : Int
  state : PortState
  stream : ZSerial
  handler : ZZigBeeHandler

/-- What `open` and the calls behind it give. -/
inductive OpenAnswer
  | opened (fd : Int) (h : 0 ≤ fd)
  | noEvent (fd : Int) (h : 0 ≤ fd)
  | failed
deriving DecidableEq

/-- How the loop of `read`s in `onConnected` ends: the buffer is full, nothing is left, the peer has
    closed, or there is an error. -/
inductive ReadEnd
  | full
  | again
  | closed
  | failed
deriving DecidableEq, Repr

/-- What the calls of one callback of the port give. -/
structure PortAnswer where
  opening : OpenAnswer
  bytes : List UInt8
  bytes_le : bytes.length ≤ ZSerial.bufSize
  ended : ReadEnd

namespace SerialModule

/-- The constructor.  It leaves `state_` as the memory had it. -/
def new (junk : PortState) (mem : List UInt8) (expect : Int) : SerialModule :=
  ⟨-1, junk, .new mem expect, .new⟩

/-- `connect`; whether it returns `OK`. -/
def connect (m : SerialModule) (s : Surroundings) :
    OpenAnswer → Except Abort (Bool × SerialModule × List ZbOutput)
  | .failed => return (false, { m with fd := -1 }, [])
  | .noEvent fd _ => return (false, { m with fd }, [])
  | .opened fd _ => do
    let (handler, out) ← { m.handler with fd }.onConnected s.junk s.written
    return (true, { m with fd, state := .connected, handler }, out)

/-- `onDisconnected`.  `scheduleReconnect` returns at once. -/
def onDisconnected (m : SerialModule) (s : Surroundings) (answer : OpenAnswer) :
    Except Abort (SerialModule × List ZbOutput) := do
  let (ok, m, out) ← m.connect s answer
  return ({ m with state := if ok then .connected else .disconnected }, out)

/-- `onRead`; how many calls of the handler it makes, and what comes of them. -/
def onRead (m : SerialModule) (s : Nat → Surroundings) (buf : List UInt8) :
    Except Abort (Nat × SerialModule × List ZbOutput) :=
  match m.stream.onRead buf with
  | none => .error .assert
  | some (calls, stream) => do
    let (handler, out) ← m.handler.onReadCalls s calls
    return (calls.length, { m with stream, handler }, out)

/-- What `onConnected` does with the bytes it has read. -/
def received (m : SerialModule) (s : Nat → Surroundings) (bytes : List UInt8) :
    Except Abort (Nat × SerialModule × List ZbOutput) :=
  if bytes ≠ [] then m.onRead s bytes else .ok (0, m, [])

/-- `onConnected`. -/
def onConnected (m : SerialModule) (s : Nat → Surroundings) (answer : PortAnswer) :
    Except Abort (Nat × SerialModule × List ZbOutput) := do
  let (n, m, out) ← m.received s answer.bytes
  return (n, if answer.ended = .closed ∨ answer.ended = .failed then
      { m with fd := -1, state := .disconnected } else m, out)

/-- `event`; how many of the surroundings it looks at, and what comes of it. -/
def event (m : SerialModule) (s : Nat → Surroundings) (answer : PortAnswer) :
    Except Abort (Nat × SerialModule × List ZbOutput) :=
  match m.state with
  | .connected => m.onConnected s answer
  | .disconnected => do
    let (m, out) ← m.onDisconnected (s 0) answer.opening
    return (1, m, out)

end SerialModule

/-! ## The gateway -/

/-- Bytes that leave the gateway: to the server, or to the radio. -/
inductive Put
  | up (fd : Int) (bytes : List UInt8)
  | radio (fd : Int) (bytes : List UInt8)
deriving DecidableEq

namespace Put

/-- What the client's handler puts out, less what stays inside. -/
def ofClient (out : List Output) : List Put :=
  out.filterMap fun
    | .send fd bytes => some (.up fd bytes)
    | _ => none

/-- What the ZigBee handler puts out, less what stays inside. -/
def ofRadio (out : List ZbOutput) : List Put :=
  out.filterMap fun
    | .write fd bytes => some (.radio fd bytes)
    | _ => none

end Put

/-- The messages for the inside in what the client's handler puts out. -/
def Output.inside (out : List Output) : List ZInnerMsg :=
  out.filterMap fun
    | .dispatch msg => some msg
    | _ => none

/-- The messages for the inside in what the ZigBee handler puts out. -/
def ZbOutput.inside (out : List ZbOutput) : List ZInnerMsg :=
  out.filterMap fun
    | .dispatch msg => some msg
    | _ => none

/-- The two modules; what the calls to come will find; and what has left the gateway. -/
structure Modules where
  serial : SerialModule
  client : FGWClient
  surroundings : Nat → Surroundings
  put : List Put

namespace Modules

/-- Some of the surroundings have been looked at. -/
def skip (m : Modules) (n : Nat) : Modules :=
  { m with surroundings := fun k => m.surroundings (n + k) }

/-- The client has done something; with the messages that it sends inside. -/
def withClient (m : Modules) (r : FGWClient × List Output) : Modules × List ZInnerMsg :=
  ({ m with client := r.1, put := m.put ++ Put.ofClient r.2 }, Output.inside r.2)

/-- The serial module has done something; with the messages that it sends inside. -/
def withSerial (m : Modules) (r : Nat × SerialModule × List ZbOutput) :
    Modules × List ZInnerMsg :=
  ({ m with serial := r.2.1, put := m.put ++ Put.ofRadio r.2.2 }.skip r.1, ZbOutput.inside r.2.2)

/-- `onInnerMsg` of the module of a type. -/
def onInnerMsg (pb : Protobuf) (type : Int) (m : Modules) (msg : ZInnerMsg) :
    Except Abort (Modules × List ZInnerMsg) :=
  if type = moduleSerial then do
    let s := m.surroundings 0
    let (handler, out) ← m.serial.handler.onInnerMsg msg s.junk s.written
    return m.withSerial (1, { m.serial with handler }, out)
  else if type = moduleFgwClient then return m.withClient (m.client.step pb (.inner msg))
  else return (m, [])

/-- `routine` of the module of a type. -/
def routine (pb : Protobuf) (delta type : Int) (m : Modules) : Modules :=
  if type = moduleSerial then
    { m with serial := { m.serial with handler := m.serial.handler.routine delta } }
  else if type = moduleFgwClient then (m.withClient (m.client.step pb (.routine delta))).1
  else m

end Modules

/-- How the program ends: it aborts, `main` returns, or a queue is never empty. -/
inductive Halt
  | abort (a : Abort)
  | returned
  | endless
deriving DecidableEq

namespace Halt

/-- How the program ends in a queue. -/
def ofQueue : Option Abort → Halt
  | none => .endless
  | some a => .abort a

end Halt

structure Gateway where
  modules : Modules
  dispatcher : ZDispatcher

namespace Gateway

/-- `routine_interval_`. -/
def routineInterval : Int := 500

/-- What libevent can call. -/
inductive Event
  | port (answer : PortAnswer)
  | client (e : ZClient.Event)
  | loginTimer (id : Fin maxTimerCount)
  | routine

/-- What a callback leaves, with its messages sent. -/
def sending (g : Gateway) (r : Modules × List ZInnerMsg) : Gateway :=
  ⟨r.1, g.dispatcher.sendAll r.2⟩

/-- One callback. -/
def step (pb : Protobuf) (g : Gateway) : Event → Except Halt Gateway
  | .port answer =>
    match g.modules.serial.event g.modules.surroundings answer with
    | .error a => .error (.abort a)
    | .ok r => .ok (g.sending (g.modules.withSerial r))
  | .client e => .ok (g.sending (g.modules.withClient (g.modules.client.step pb (.client e))))
  | .loginTimer id => .ok (g.sending (g.modules.withClient (g.modules.client.step pb (.timer id))))
  | .routine =>
    .ok { g with
      modules :=
        ZDispatcher.moduleRoutine (Modules.routine pb routineInterval) g.modules g.dispatcher }

/-- The callbacks of one call of `event_base_loop`. -/
def callbacks (pb : Protobuf) (g : Gateway) (es : List Event) : Except Halt Gateway :=
  es.foldlM (step pb) g

/-- `checkMsgQueue` of the module of a type, for so many messages at most. -/
def checkQueue (pb : Protobuf) (type : Int) (fuel : Nat) (g : Gateway) : Except Halt Gateway :=
  match g.dispatcher.checkMsgQueue (Modules.onInnerMsg pb type) type fuel g.modules with
  | .error e => .error (.ofQueue e)
  | .ok ((modules, dispatcher), _) => .ok ⟨modules, dispatcher⟩

/-- The two `checkMsgQueue` of the main loop. -/
def check (pb : Protobuf) (fuel : Nat) (g : Gateway) : Except Halt Gateway := do
  let g ← g.checkQueue pb moduleSerial fuel
  g.checkQueue pb moduleFgwClient fuel

/-- A round of the main loop.  The queues are checked with fuel for one message for each callback,
    which is enough. -/
def round (pb : Protobuf) (g : Gateway) (es : List Event) : Except Halt Gateway := do
  let g ← g.callbacks pb es
  g.check pb (es.length + 1)

/-- Before anything is registered. -/
def constructed (port : PortState) (mem : List UInt8) (expect : Int) (junk : ClientState)
    (s : Nat → Surroundings) : Gateway where
  modules := ⟨.new port mem expect, .new junk, s, []⟩
  dispatcher := .new

/-- `init` of the serial module. -/
def initSerial (g : Gateway) (opening : OpenAnswer) : Except Halt Gateway :=
  let (ok, dispatcher) := g.dispatcher.registerModule moduleSerial
  if !ok then .error .returned
  else
    match g.modules.serial.onDisconnected (g.modules.surroundings 0) opening with
    | .error a => .error (.abort a)
    | .ok (serial, out) =>
      .ok (sending ⟨g.modules, dispatcher⟩ (g.modules.withSerial (1, serial, out)))

/-- `init` of the client. -/
def initClient (pb : Protobuf) (g : Gateway) (sys : Sys) : Except Halt Gateway :=
  let (ok, dispatcher) := g.dispatcher.registerModule moduleFgwClient
  match ZClient.init (FGWClientHandler.handlerClass pb) g.modules.client ok sys with
  | (.fail, _, _) => .error .returned
  | (_, client, out) => .ok (sending ⟨g.modules, dispatcher⟩ (g.modules.withClient (client, out)))

/-- What `main` does before its loop. -/
def start (pb : Protobuf) (port : PortState) (mem : List UInt8) (expect : Int) (junk : ClientState)
    (s : Nat → Surroundings) (opening : OpenAnswer) (sys : Sys) : Except Halt Gateway := do
  let g ← (constructed port mem expect junk s).initSerial opening
  g.initClient pb sys

/-- Rounds of the main loop. -/
def rounds (pb : Protobuf) (g : Gateway) (rs : List (List Event)) : Except Halt Gateway :=
  rs.foldlM (round pb) g

end Gateway

end Monsys
