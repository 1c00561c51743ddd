/-
  `ZClient` of `libframework/zclient.{h,cc}`: a client that connects to a server, and connects again
  when the connection is lost.

  1. **Sockets** — the client's open descriptors, and what the system calls may answer (`Sys`).
  2. **Events** — `ZEventProxy`.  An event of libevent that is not persistent is no longer pending
     once it has fired.
  3. **The client** — its members as the source has them, for any handler (`HandlerClass`).
  4. **One event** — `ZClient.step`: an event that is pending fires.
  5. **What a connect does** — `onDisconnected_cases`.

  `close`, which nobody calls, and with it `STATE_FINISHED`, are left out.  The kernel gives out no
  descriptor that is open: if the answer of `socket` names one, the call has failed.
-/
import Mathlib.Logic.Function.Basic

namespace Monsys

/-! ## Sockets -/

/-- The open descriptors, each with the number of its socket in the order they were made. -/
structure Sockets where
  opened : Int → Option Nat
  made : Nat

namespace Sockets

def none : Sockets := ⟨fun _ => .none, 0⟩

/-- `socket`. -/
def socket (s : Sockets) (answer : Int) : Int × Sockets :=
  if answer < 0 ∨ (s.opened answer).isSome then (-1, s)
  else (answer, ⟨Function.update s.opened answer (some s.made), s.made + 1⟩)

/-- `::close`. -/
def close (s : Sockets) (fd : Int) : Sockets := { s with opened := Function.update s.opened fd .none }

end Sockets

/-- What `::connect` says. -/
inductive ConnectAnswer
  | connected
  | inProgress
  | refused
deriving DecidableEq, Repr

/-- What `getsockopt(SO_ERROR)` says: no error, `EINPROGRESS`, or anything else. -/
inductive SoError
  | clear
  | inProgress
  | failed
deriving DecidableEq, Repr

/-- What `recv` into the buffer of 1024 bytes gives. -/
inductive RecvAnswer
  | data (buf : List UInt8) (h : 0 < buf.length ∧ buf.length ≤ 1024)
  | closed
  | failed
deriving DecidableEq

/-- The answers of the system calls during one event. -/
structure Sys where
  socket : Int
  sockopt : Bool
  connect : ConnectAnswer
  soError : SoError
  recv : RecvAnswer
deriving DecidableEq

/-! ## Events -/

inductive EventFlags
  | readPersist
  | write
  | timeout
deriving DecidableEq, Repr

/-- An event of libevent. -/
structure Ev where
  fd : Int
  flags : EventFlags
  isPending : Bool
deriving DecidableEq, Repr

structure ZEventProxy where
  ev : Option Ev
deriving DecidableEq, Repr

namespace ZEventProxy

def cancel (_ : ZEventProxy) : ZEventProxy := ⟨none⟩

/-- `registerSocket`: the old event is cancelled, a new one added. -/
def registerSocket (_ : ZEventProxy) (fd : Int) (flags : EventFlags) : ZEventProxy :=
  ⟨some ⟨fd, flags, true⟩⟩

/-- `registerTimeout`. -/
def registerTimeout (p : ZEventProxy) : ZEventProxy := p.registerSocket (-1) .timeout

/-- The event that can fire. -/
def pending (p : ZEventProxy) : Option Ev := p.ev.filter Ev.isPending

/-- The event has fired. -/
def fired (p : ZEventProxy) : ZEventProxy :=
  ⟨p.ev.map fun ev => { ev with isPending := ev.flags = .readPersist }⟩

end ZEventProxy

/-! ## The client -/

/-- The virtual functions of a `ZClientHandler` that the client calls.  None of them sets `fd_`. -/
structure HandlerClass (H O : Type) where
  fd : H → Int
  setFd : H → Int → H
  init : H → H
  onConnected : H → H × List O
  onRead : H → List UInt8 → H × List O
  fd_setFd : ∀ h n, fd (setFd h n) = n
  fd_init : ∀ h, fd (init h) = fd h
  fd_onConnected : ∀ h, fd (onConnected h).1 = fd h
  fd_onRead : ∀ h buf, fd (onRead h buf).1 = fd h

inductive ClientState
  | waitingForConnect
  | connected
  | disconnected
deriving DecidableEq, Repr

/-- `OK`, `ERR_IO_PENDING`, `FAIL`. -/
inductive Rv
  | ok
  | ioPending
  | fail
deriving DecidableEq, Repr

/-- `ZClient`, with the sockets it has open. -/
structure ZClient (H : Type) where
  fd : Int
  socketEventProxy : ZEventProxy
  timeoutEventProxy : ZEventProxy
  state : ClientState
  handler : Option H
  sockets : Sockets

namespace ZClient

variable {H O : Type}

/-- The constructor, and `setHandler`.  It leaves `state_` as the memory had it. -/
def new (junk : ClientState) (handler : Option H) : ZClient H where
  fd := -1
  socketEventProxy := ⟨none⟩
  timeoutEventProxy := ⟨none⟩
  state := junk
  handler := handler
  sockets := .none

/-- `disconnect`. -/
def disconnect (c : ZClient H) : ZClient H :=
  let c := if c.fd ≥ 0 then { c with sockets := c.sockets.close c.fd, fd := -1 } else c
  { c with socketEventProxy := c.socketEventProxy.cancel }

/-- `connect`. -/
def connect (c : ZClient H) (sys : Sys) : Rv × ZClient H :=
  let c := c.disconnect
  let (fd, sockets) := c.sockets.socket sys.socket
  let c := { c with fd, sockets }
  if c.fd < 0 then (.fail, c)
  else if !sys.sockopt then (.fail, { c with sockets := c.sockets.close c.fd, fd := -1 })
  else match sys.connect with
    | .connected => (.ok, c)
    | .inProgress => (.ioPending, c)
    | .refused => (.fail, { c with sockets := c.sockets.close c.fd, fd := -1 })

/-- `scheduleReconnect`. -/
def scheduleReconnect (c : ZClient H) : ZClient H :=
  { c with state := .disconnected, timeoutEventProxy := c.timeoutEventProxy.registerTimeout }

/-- `handler_->fd_ = fd; handler_->onConnected();`, if there is a handler. -/
def tellHandler (cls : HandlerClass H O) (c : ZClient H) (fd : Int) : ZClient H × List O :=
  match c.handler with
  | none => (c, [])
  | some handler =>
    let (handler, out) := cls.onConnected (cls.setFd handler fd)
    ({ c with handler := some handler }, out)

/-- `onWaitingForConnect`. -/
def onWaitingForConnect (cls : HandlerClass H O) (c : ZClient H) (fd : Int) (sys : Sys) :
    ZClient H × List O :=
  let c := { c with timeoutEventProxy := c.timeoutEventProxy.cancel }
  match sys.soError with
  | .clear =>
    tellHandler cls { c with
      socketEventProxy := c.socketEventProxy.registerSocket fd .readPersist, state := .connected } fd
  | .inProgress =>
    ({ c with socketEventProxy := c.socketEventProxy.registerSocket fd .write }, [])
  | .failed =>
    ({ c with sockets := c.sockets.close c.fd, fd := -1, state := .disconnected }.scheduleReconnect, [])

/-- `onConnected`. -/
def onConnected (cls : HandlerClass H O) (c : ZClient H) (fd : Int) (sys : Sys) :
    ZClient H × List O :=
  match sys.recv with
  | .closed => ({ c with state := .disconnected }.scheduleReconnect, [])
  | .failed =>
    ({ c with sockets := c.sockets.close fd, state := .disconnected }.scheduleReconnect, [])
  | .data buf _ =>
    match c.handler with
    | none => (c, [])
    | some handler =>
      let (handler, out) := cls.onRead handler buf
      ({ c with handler := some handler }, out)

/-- `onDisconnected`. -/
def onDisconnected (cls : HandlerClass H O) (c : ZClient H) (fd : Int) (sys : Sys) :
    Rv × ZClient H × List O :=
  match c.connect sys with
  | (.ok, c) =>
    (.ok, tellHandler cls { c with
      state := .connected
      socketEventProxy := c.socketEventProxy.registerSocket c.fd .readPersist } fd)
  | (.ioPending, c) =>
    (.ioPending, { c with
      state := .waitingForConnect
      socketEventProxy := c.socketEventProxy.registerSocket c.fd .write
      timeoutEventProxy := c.timeoutEventProxy.registerTimeout }, [])
  | (.fail, c) => (.fail, { c with state := .disconnected }.scheduleReconnect, [])

/-- `event`. -/
def event (cls : HandlerClass H O) (c : ZClient H) (fd : Int) (sys : Sys) : ZClient H × List O :=
  match c.state with
  | .waitingForConnect => c.onWaitingForConnect cls fd sys
  | .connected => c.onConnected cls fd sys
  | .disconnected => (c.onDisconnected cls fd sys).2

/-- `onTimeoutPrivate`. -/
def onTimeoutPrivate (cls : HandlerClass H O) (c : ZClient H) (sys : Sys) : ZClient H × List O :=
  let c := { c with timeoutEventProxy := c.timeoutEventProxy.cancel }
  match c.state with
  | .waitingForConnect => (c.disconnect, [])
  | .disconnected => (c.onDisconnected cls c.fd sys).2
  | .connected => (c, [])

/-- `init`, where `registered` is what `registerModule` says. -/
def init (cls : HandlerClass H O) (c : ZClient H) (registered : Bool) (sys : Sys) :
    Rv × ZClient H × List O :=
  if !registered then (.fail, c, [])
  else match c.onDisconnected cls (-1) sys with
    | (.fail, c, out) => (.fail, c, out)
    | (_, c, out) => (.ok, { c with handler := c.handler.map cls.init }, out)

/-! ## One event -/

/-- Which of the two events fires, with the answers of the system calls. -/
inductive Event
  | socket (sys : Sys)
  | timeout (sys : Sys)
deriving DecidableEq

/-- One event.  An event that is not pending does not fire. -/
def step (cls : HandlerClass H O) (c : ZClient H) : Event → ZClient H × List O
  | .socket sys =>
    match c.socketEventProxy.pending with
    | none => (c, [])
    | some ev => { c with socketEventProxy := c.socketEventProxy.fired }.event cls ev.fd sys
  | .timeout sys =>
    match c.timeoutEventProxy.pending with
    | none => (c, [])
    | some _ => { c with timeoutEventProxy := c.timeoutEventProxy.fired }.onTimeoutPrivate cls sys

/-- The client after an event. -/
def next (cls : HandlerClass H O) (c : ZClient H) (e : Event) : ZClient H := (c.step cls e).1

/-! ## What a connect does -/

/-- A socket is made. -/
def Opens (c : ZClient H) (sys : Sys) : Prop :=
  0 ≤ sys.socket ∧ c.disconnect.sockets.opened sys.socket = none ∧ sys.sockopt = true

instance (c : ZClient H) (sys : Sys) : Decidable (c.Opens sys) := inferInstanceAs (Decidable (_ ∧ _))

/-- The connect is done at once. -/
def AtOnce (c : ZClient H) (sys : Sys) : Prop := c.Opens sys ∧ sys.connect = .connected

instance (c : ZClient H) (sys : Sys) : Decidable (c.AtOnce sys) := inferInstanceAs (Decidable (_ ∧ _))

/-- The client with its new socket. -/
def withSocket (c : ZClient H) (sys : Sys) : ZClient H :=
  { c.disconnect with
    fd := sys.socket
    sockets := ⟨Function.update c.disconnect.sockets.opened sys.socket (some c.disconnect.sockets.made),
      c.disconnect.sockets.made + 1⟩ }

theorem withSocket_open (c : ZClient H) (sys : Sys) :
    ((c.withSocket sys).sockets.opened (c.withSocket sys).fd).isSome := by
  show Option.isSome (Function.update c.disconnect.sockets.opened sys.socket
    (some c.disconnect.sockets.made) sys.socket) = true
  rw [Function.update_self]
  rfl

theorem disconnect_eq (c : ZClient H) :
    c.disconnect =
      { c with
        fd := if c.fd ≥ 0 then -1 else c.fd
        socketEventProxy := ⟨none⟩
        sockets := if c.fd ≥ 0 then c.sockets.close c.fd else c.sockets } := by
  rw [disconnect]
  by_cases hfd : c.fd ≥ 0
  · rw [if_pos hfd, if_pos hfd, if_pos hfd]
    rfl
  · rw [if_neg hfd, if_neg hfd, if_neg hfd]
    rfl

theorem disconnect_handler (c : ZClient H) : c.disconnect.handler = c.handler := by
  rw [disconnect_eq]

theorem disconnect_sockets (c : ZClient H) :
    c.disconnect.sockets = if c.fd ≥ 0 then c.sockets.close c.fd else c.sockets := by
  rw [disconnect_eq]

/-- **What a connect does**: it is done, or goes on, with a new socket; or it fails. -/
theorem connect_cases (c : ZClient H) (sys : Sys) :
    (c.AtOnce sys ∧ c.connect sys = (.ok, c.withSocket sys)) ∨
    ((c.Opens sys ∧ ¬ c.AtOnce sys) ∧ c.connect sys = (.ioPending, c.withSocket sys)) ∨
    (¬ c.AtOnce sys ∧ ∃ c', c.connect sys = (.fail, c') ∧ c'.handler = c.handler ∧
      (c'.sockets = c.disconnect.sockets ∨ c'.sockets = (c.withSocket sys).sockets.close sys.socket)) := by
  rw [connect]
  by_cases hfree : sys.socket < 0 ∨ (c.disconnect.sockets.opened sys.socket).isSome
  · refine Or.inr (Or.inr ⟨fun honce => ?_, { c.disconnect with fd := -1 }, ?_,
      disconnect_handler c, Or.inl rfl⟩)
    · rcases hfree with hneg | hopen
      · exact Int.not_lt.mpr honce.1.1 hneg
      · rw [honce.1.2.1] at hopen
        cases hopen
    · rw [Sockets.socket, if_pos hfree]
      exact if_pos (by decide : (-1 : Int) < 0)
  · have hsocket : c.disconnect.sockets.socket sys.socket = (sys.socket, (c.withSocket sys).sockets) :=
      if_neg hfree
    obtain ⟨hneg, hnone⟩ := not_or.mp hfree
    rw [hsocket]
    dsimp only
    rw [if_neg hneg]
    cases hopt : sys.sockopt with
    | false =>
      refine Or.inr (Or.inr ⟨fun honce => ?_, _, rfl, disconnect_handler c, Or.inr rfl⟩)
      rw [honce.1.2.2] at hopt
      cases hopt
    | true =>
      have hopens : c.Opens sys := ⟨Int.not_lt.mp hneg, Option.not_isSome_iff_eq_none.mp hnone, hopt⟩
      cases hconn : sys.connect with
      | connected => exact Or.inl ⟨⟨hopens, hconn⟩, rfl⟩
      | inProgress => exact Or.inr (Or.inl ⟨⟨hopens, fun honce => (nomatch hconn.symm.trans honce.2)⟩, rfl⟩)
      | refused =>
        exact Or.inr (Or.inr ⟨fun honce => (nomatch hconn.symm.trans honce.2), _, rfl,
          disconnect_handler c, Or.inr rfl⟩)

/-- The handler is told that the client is connected, and nothing else changes. -/
theorem tellHandler_fst (cls : HandlerClass H O) (c : ZClient H) (fd : Int) :
    (c.tellHandler cls fd).1 =
      { c with handler := c.handler.map fun h => (cls.onConnected (cls.setFd h fd)).1 } := by
  obtain ⟨fd', socketEventProxy, timeoutEventProxy, state, handler, sockets⟩ := c
  cases handler with
  | none => rfl
  | some h => rfl

/-- The client that is connected over a new socket, before the handler is told. -/
def connectedOver (c : ZClient H) (sys : Sys) : ZClient H :=
  { c.withSocket sys with
    state := .connected
    socketEventProxy := c.disconnect.socketEventProxy.registerSocket sys.socket .readPersist }

/-- The client that waits for its new socket to be connected. -/
def connectingOver (c : ZClient H) (sys : Sys) : ZClient H :=
  { c.withSocket sys with
    state := .waitingForConnect
    socketEventProxy := c.disconnect.socketEventProxy.registerSocket sys.socket .write
    timeoutEventProxy := c.disconnect.timeoutEventProxy.registerTimeout }

/-- **What `onDisconnected` leaves**: a connected client, one that waits, or one that will try
    again. -/
theorem onDisconnected_cases (cls : HandlerClass H O) (c : ZClient H) (fd : Int) (sys : Sys) :
    (c.AtOnce sys ∧ c.onDisconnected cls fd sys = (.ok, (c.connectedOver sys).tellHandler cls fd)) ∨
    ((c.Opens sys ∧ ¬ c.AtOnce sys) ∧
      c.onDisconnected cls fd sys = (.ioPending, c.connectingOver sys, [])) ∨
    (¬ c.AtOnce sys ∧ ∃ c' : ZClient H, c'.handler = c.handler ∧
      (c'.sockets = c.disconnect.sockets ∨ c'.sockets = (c.withSocket sys).sockets.close sys.socket) ∧
      c.onDisconnected cls fd sys = (.fail, c'.scheduleReconnect, [])) := by
  rw [onDisconnected]
  rcases c.connect_cases sys with ⟨honce, hc⟩ | ⟨honce, hc⟩ | ⟨honce, c', hc, hh, hsock⟩
  · exact Or.inl ⟨honce, by rw [hc]; rfl⟩
  · exact Or.inr (Or.inl ⟨honce, by rw [hc]; rfl⟩)
  · exact Or.inr (Or.inr ⟨honce, { c' with state := .disconnected }, hh, hsock, by rw [hc]⟩)

end ZClient

end Monsys
