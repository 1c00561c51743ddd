/-
  The router of the Java server: package `route`.

  A token is requested on one port and makes a session; on the other port two channels present it,
  one as `CLIENT` and one as `FGW`.  The second of them to come is joined with the first.

  1. **Sessions and channels** — `RouteSession`, the object that a token leads to; `Channel`, with
     the handlers in its pipeline.
  2. **Handlers** — `RouterAllocateServerHandler` and `RouterAccessServerHandler`, each call one
     step.  A call that throws leaves behind what it has done so far.
  3. **Netty** — a channel that is closed hands on no more messages.  Its handlers are taken out of
     its pipeline some time after.

  `Output` is what happens in a step, in its order.  What the allocating port answers, and what
  goes through a relay, is left out.
-/
import Monsys.SessionManager

namespace Monsys

namespace Router

/-! ## Sessions and channels -/

inductive ClientType
  | client
  | fgw
deriving DecidableEq

/-- The peer's. -/
def ClientType.other : ClientType → ClientType
  | client => fgw
  | fgw => client

/-- A flag and the channel that is stored behind it. -/
structure Slot where
  connected : Bool := false
  channel : Option Nat := none
deriving DecidableEq

/-- `RouteSession`: `client_connected`, `client_channel` and the same of the gateway. -/
structure RouteSession extends BaseSession String where
  client : Slot := {}
  fgw : Slot := {}
deriving DecidableEq

namespace RouteSession

def slot (s : RouteSession) : ClientType → Slot
  | .client => s.client
  | .fgw => s.fgw

def withSlot (s : RouteSession) (role : ClientType) (x : Slot) : RouteSession :=
  match role with
  | .client => { s with client := x }
  | .fgw => { s with fgw := x }

end RouteSession

/-- `RouterAccessServerHandler.State`. -/
inductive State
  | waitForConnect
  | waitForPeer
  | connected
deriving DecidableEq

/-- A channel of the access port: its `RouterAccessServerHandler` with its state, and the channels
    that the `RelayHandler`s in the pipeline lead to. -/
structure Channel where
  isOpen : Bool := true
  access : Option State := some .waitForConnect
  relays : List Nat := []
deriving DecidableEq

/-- `Route.MsgType`. -/
inductive MsgType
  | reqToken
  | reqTokenRsp
  | connect
  | connectRsp
deriving DecidableEq

/-- `Route.Connect`. -/
structure Connect where
  clientType : ClientType
  token : String
deriving DecidableEq

/-- `Route.RouteMsg`; of `ReqToken` the token. -/
structure RouteMsg where
  type : MsgType
  reqToken : Option String := none
  connect : Option Connect := none
deriving DecidableEq

/-- What happens: a channel that has presented a token is taken into a slot of the session `r`; the
    session pairs its channels; a relay is put into a pipeline; a `CONNECT_RSP` is written to a
    channel that is open. -/
inductive Output
  | accepted (c : Nat) (role : ClientType) (token : String) (r : Nat)
  | paired (r : Nat) (client fgw : Nat)
  | relay (c peer : Nat)
  | connectRsp (c : Nat) (code : Int)
deriving DecidableEq

/-- `ErrCode.SUCCESS`. -/
def success : Int := 0

end Router

open Router in
/-- The router: the session objects that were made, in the order of their references. -/
structure Router where
  sessions : List RouteSession
  manager : SessionManager String
  channels : Nat → Channel

namespace Router

def init : Router := ⟨[], .new, fun _ => {}⟩

inductive Event
  | allocate (msg : RouteMsg) (now : Int)
  | access (c : Nat) (msg : RouteMsg)
  | checkTimeout (current : Int)
  | closed (c : Nat)
  | unregistered (c : Nat)
deriving DecidableEq

/-- The session object behind a reference, for its manager. -/
def baseOf (sessions : List RouteSession) (r : Nat) : Option (BaseSession String) :=
  sessions[r]?.map RouteSession.toBaseSession

def setChannel (w : Router) (c : Nat) (x : Channel) : Router :=
  { w with channels := Function.update w.channels c x }

def setSession (w : Router) (r : Nat) (s : RouteSession) : Router :=
  { w with sessions := w.sessions.set r s }

/-! ## Handlers -/

/-- `RouterAllocateServerHandler.processTokenRequest`. -/
def processTokenRequest (w : Router) (msg : RouteMsg) (now : Int) : Router :=
  match msg.reqToken with
  | none => w
  | some token =>
    { w with
      sessions := w.sessions ++ [{ key := token, lastTouchedTime := now }]
      manager := w.manager.add token w.sessions.length }

/-- `RouterAllocateServerHandler.channelRead0`: another message closes its own channel. -/
def allocateRead (w : Router) (msg : RouteMsg) (now : Int) : Router :=
  match msg.type with
  | .reqToken => w.processTokenRequest msg now
  | _ => w

/-- `ctx.close()`, and what `channelInactive` of the relays does: they close their channels too. -/
def close (w : Router) (c : Nat) : Router :=
  let x := w.channels c
  { w with
    channels := fun d =>
      if d = c ∨ d ∈ x.relays then { w.channels d with isOpen := false } else w.channels d }

/-- `c.pipeline().remove(RouterAccessServerHandler.class)` and
    `c.pipeline().addLast(new RelayHandler(peer))`; the removal throws where there is no such
    handler. -/
def putRelay (w : Router) (c peer : Nat) : Option Router :=
  match (w.channels c).access with
  | none => none
  | some _ =>
    some (w.setChannel c { w.channels c with access := none, relays := (w.channels c).relays ++ [peer] })

/-- `sendConnectRsp`. -/
def sendConnectRsp (w : Router) (c : Nat) (code : Int) : List Output :=
  if (w.channels c).isOpen then [.connectRsp c code] else []

/-- The end of `processConnectRequest`, once both are there. -/
def pair (w : Router) (r : Nat) (s : RouteSession) (client fgw : Nat) : Router × List Output :=
  match w.putRelay client fgw with
  | none => (w, [])
  | some w₁ =>
    match w₁.putRelay fgw client with
    | none => (w₁, [.relay client fgw])
    | some w₂ =>
      -- the session closes
      ({ w₂ with manager := w₂.manager.remove s.key },
        [.paired r client fgw, .relay client fgw, .relay fgw client] ++
          w₂.sendConnectRsp client success ++ w₂.sendConnectRsp fgw success)

/-- `processConnectRequest`, behind the switch: the channel waits, and if the peer is there the two
    are paired. -/
def meet (w : Router) (c : Nat) (connect : Connect) (r : Nat) (s : RouteSession) :
    Router × List Output :=
  let w := (w.setSession r s).setChannel c { w.channels c with access := some .waitForPeer }
  let accepted := .accepted c connect.clientType connect.token r
  match s.client.connected, s.fgw.connected, s.client.channel, s.fgw.channel with
  | true, true, some client, some fgw =>
    let (w', out) := w.pair r s client fgw
    (w', accepted :: out)
  | _, _, _, _ => (w, [accepted])

/-- `processConnectRequest`. -/
def processConnectRequest (w : Router) (c : Nat) (msg : RouteMsg) : Router × List Output :=
  match msg.connect with
  | none => (w, [])
  | some connect =>
    match w.manager.find connect.token with
    | none => (w, [])
    | some r =>
      match w.sessions[r]? with
      | none => (w, [])
      | some s =>
        -- `compareAndSet(false, true)`
        if (s.slot connect.clientType).connected then (w.close c, [])
        else w.meet c connect r (s.withSlot connect.clientType ⟨true, some c⟩)

/-- `RouterAccessServerHandler.channelRead0`. -/
def accessRead (w : Router) (c : Nat) (msg : RouteMsg) : Router × List Output :=
  match (w.channels c).isOpen, (w.channels c).access with
  | true, some .waitForConnect =>
    match msg.type with
    | .connect => w.processConnectRequest c msg
    | _ => (w.close c, [])
  | _, _ => (w, [])

/-! ## Steps -/

def step (w : Router) : Event → Router × List Output
  | .allocate msg now => (w.allocateRead msg now, [])
  | .access c msg => w.accessRead c msg
  | .checkTimeout current =>
    ({ w with manager := w.manager.checkTimeout (baseOf w.sessions) current }, [])
  | .closed c => (w.close c, [])
  | .unregistered c =>
    if (w.channels c).isOpen then (w, [])
    else (w.setChannel c { w.channels c with access := none, relays := [] }, [])

end Router

end Monsys
