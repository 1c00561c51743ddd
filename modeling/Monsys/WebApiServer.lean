/-
  The Python server as a whole: `main` of `center.py`, with the web clients' handlers
  (`webapi_server.py`), the gateways' (`fgw_server.py`), and what is between them (`dispatcher.py`,
  `fgw_manager.py`).

  1. **Messages** — those of the web clients, and what the handlers put into their `out_queue`s:
     `Output`, in the order in which it happens.
  2. **Handlers** — `Web` and `Fgw`, one for each connection.  A handler is known to the dispatcher
     by the address of the object, its `id`, which can be given out again once it is gone; `webs`
     and `fgws` have them by connection.
  3. **The web clients' side** — `webEvent` and the queries it waits for.  Which gateway's handler a
     request goes to is `fgw_manager`'s to say.
  4. **The gateways' side** — the steps of `FgwServer.Served`, with what they put out.
  5. **Steps** — `next`: a connection comes or ends, a message comes, or a query comes back.

  A greenlet that raises is gone; nothing is taken from its queue any more.  The rest of a message,
  in which no handler looks, is of any type `β`.  Gateways and accounts have strings for their ids.
-/
import Monsys.FgwManager
import Monsys.FgwResponses
import Monsys.WebBindings

namespace Monsys

namespace Center

open FgwServer (Cmd Session FgwHandler Served Request Row)

/-! ## Messages -/

inductive WebCmd
  | getFgwList
  | session (cmd : Cmd)
  | unknown
deriving DecidableEq

/-- A message of a web client. -/
structure WebMsg (κ β : Type) where
  cmd : Option WebCmd
  seq : Option κ := none
  account : Option String := none
  fgw : Option String := none
  data : β
deriving DecidableEq

/-- A request that a session was opened for: the web client's connection, its `src_addr`, and the
    gateway it has named. -/
structure Asked (β : Type) where
  client : Nat
  srcAddr : Nat
  fgw : String
  data : β
deriving DecidableEq

/-- What happens.  A web client's request is taken (`got`); it is sent to a gateway under the key of
    the session `r`, or refused; an answer of a gateway is taken (`heard`), and sent to the web
    client for the session `r`.  -/
inductive Output (κ β : Type)
  | got (n : Nat) (cmd : Cmd) (fgw : String) (data : β)
  | asked (m r : Nat) (cmd : Cmd) (seq : Nat) (a : Asked β)
  | refused (n : Nat) (cmd : Cmd)
  | heard (m : Nat) (cmd : Cmd) (seq : Nat) (data : β)
  | told (n m r : Nat) (cmd : Cmd) (seq : Nat) (key : Option κ) (data : β)
  | fgwList (n : Nat) (fgws : List String)
  | noAccount (n : Nat)
  | loginRsp (m : Nat) (result : Int)
  | noLogin (m : Nat)
deriving DecidableEq

/-! ## Handlers -/

/-- What the event loop of a web client's handler is in: the query of `process_get_fgw_list`, or
    that of a session it has opened with `on_inner` of a gateway's handler.  -/
inductive Greenlet
  | ready
  | listing
  | asking (m : Nat)
  | dead
deriving DecidableEq

/-- `WebApiHandler`. -/
structure Web where
  id : Nat
  eventLoop : Greenlet := .ready
  running : Bool := true
deriving DecidableEq

/-- `FGWHandler`, with the requests its sessions were opened for.  `answer` is the message that the
    event loop holds while a binding is in its queries. -/
structure Fgw (κ β : Type) where
  id : Nat
  handler : FgwHandler κ := .init
  fgwId : Option String := none
  asked : List (Asked β) := []
  answer : Option β := none
  running : Bool := true

end Center

open Center in
/-- The handlers by connection; `_handler_map` of the dispatcher, for the one type and the other;
    and `fgw_manager`.  -/
structure Center (κ β : Type) where
  webs : List Web
  fgws : List (Fgw κ β)
  webMap : Nat → Option Nat
  fgwMap : Nat → Option Nat
  manager : FgwManager String Nat
  trace : List (Output κ β)

namespace Center

open FgwServer (Cmd Session FgwHandler Served Request Row)

variable {κ β : Type}

def init : Center κ β := ⟨[], [], fun _ => none, fun _ => none, .new, []⟩

def setWeb (c : Center κ β) (n : Nat) (w : Web) : Center κ β := { c with webs := c.webs.set n w }

def setFgw (c : Center κ β) (m : Nat) (f : Fgw κ β) : Center κ β :=
  { c with fgws := c.fgws.set m f }

def put (c : Center κ β) (out : List (Output κ β)) : Center κ β :=
  { c with trace := c.trace ++ out }

/-- The gateway's handler, and the web clients that the dispatcher finds. -/
def served (c : Center κ β) (f : Fgw κ β) : Served κ :=
  ⟨f.handler, fun g => (c.webMap g).isSome, f.asked.map Asked.srcAddr⟩

/-! ## The web clients' side -/

/-- The session's request, with its key for `seq`. -/
def requestOf (m : Nat) (f : Fgw κ β) (r : Nat) : List (Output κ β) :=
  match f.handler.sessions[r]?, f.asked[r]? with
  | some session, some a => [.asked m r session.cmd session.key a]
  | _, _ => []

section WebApiHandler

variable [DecidableEq κ] (hashable : κ → Bool)

/-- `on_inner` raises: the session does, or the table that takes no such key. -/
def raises (h : FgwHandler κ) (msg : Request κ) : Bool :=
  match h.loggedIn, msg.cmd with
  | true, some cmd =>
    (h.ctrl.findByExternalKey msg.seq).isNone &&
      if cmd.queries then msg.account.isNone || msg.fgw.isNone else !hashable msg.seq
  | _, _ => false

/-- `on_inner` of the gateway's handler, in the greenlet of the web client's. -/
def onInner (c : Center κ β) (n : Nat) (w : Web) (m : Nat) (f : Fgw κ β) (cmd : Cmd) (fgw : String)
    (seq : κ) (msg : WebMsg κ β) (now : Int) : Center κ β :=
  let request : Request κ := ⟨some cmd, seq, msg.account, msg.fgw⟩
  let handler := ((c.served f).next hashable (.onInner w.id request now)).handler
  let opened := decide (f.handler.sessions.length < handler.sessions.length)
  let f' := { f with
    handler := handler
    asked := if opened then f.asked ++ [⟨n, w.id, fgw, msg.data⟩] else f.asked }
  let eventLoop :=
    if raises hashable f.handler request then .dead
    else if (handler.calls w.id).isSome then .asking m
    else .ready
  -- a session without a query sends its request at once
  let out := if opened && !cmd.queries then requestOf m f' f.handler.sessions.length else []
  ((c.setFgw m f').setWeb n { w with eventLoop := eventLoop }).put out

/-- `event` of `WebApiHandler`. -/
def webEvent (c : Center κ β) (n : Nat) (w : Web) (msg : WebMsg κ β) (now : Int) : Center κ β :=
  let dead := c.setWeb n { w with eventLoop := .dead }
  match msg.cmd with
  | none | some .unknown => c
  | some .getFgwList =>
    match msg.account with
    | none => dead
    | some _ => c.setWeb n { w with eventLoop := .listing }
  | some (.session cmd) =>
    match msg.fgw with
    | none => dead
    | some fgw =>
      match c.manager.findHandler fgw with
      | none => c -- not logged in yet
      | some id =>
        match c.fgwMap id with
        | none => dead
        | some m =>
          match c.fgws[m]?, msg.seq with
          | none, _ => c
          | some _, none => dead
          | some f, some seq =>
            (c.put [.got n cmd fgw msg.data]).onInner hashable n w m f cmd fgw seq msg now

/-- The query of a session comes back to the web client's greenlet, which goes on in `on_inner`. -/
def answered (c : Center κ β) (n : Nat) (w : Web) (m : Nat) (f : Fgw κ β) (row : Row) :
    Center κ β :=
  match f.handler.calls w.id with
  | none => c
  | some r =>
    let f' := { f with handler := ((c.served f).next hashable (.answered w.id row)).handler }
    let session := f.handler.sessions[r]?
    let (out, eventLoop) : List (Output κ β) × Greenlet :=
      match row with
      | .found =>
        (requestOf m f' r,
          if session.any fun s => hashable s.extKey then .ready else .dead)
      | .none =>
        match c.webMap w.id, session with
        | some n', some s => ([.refused n' s.cmd], .ready)
        | _, _ => ([], .dead)
      | .error => ([], .dead)
    ((c.setFgw m f').setWeb n { w with eventLoop := eventLoop }).put out

end WebApiHandler

/-- What the query of `process_get_fgw_list` comes back with: an exception, no row, or the text. -/
inductive FgwListRow
  | error
  | none
  | text (s : String)
deriving DecidableEq

/-- The end of `process_get_fgw_list`. -/
def listed (c : Center κ β) (n : Nat) (w : Web) : FgwListRow → Center κ β
  | .error => c.setWeb n { w with eventLoop := .dead }
  | .none => (c.setWeb n { w with eventLoop := .ready }).put [.noAccount n]
  | .text s =>
    (c.setWeb n { w with eventLoop := .ready }).put
      [.fgwList n (((Binding.split s).map WebBinding.strip).filter fun x => 0 < x.length)]

/-! ## The gateways' side -/

/-- `dispatcher.send` to the client of the session, whose handler puts the answer out. -/
def tell (c : Center κ β) (m : Nat) (f : Fgw κ β) (r : Nat) (cmd : Cmd) (seq : Nat) (key : Option κ)
    (data : β) : List (Output κ β) :=
  match f.asked[r]?.bind fun a => c.webMap a.srcAddr with
  | some n => [.told n m r cmd seq key data]
  | none => []

/-- `event_wait_for_login`. -/
def login [DecidableEq κ] (hashable : κ → Bool) (c : Center κ β) (m : Nat) (f : Fgw κ β)
    (msg : LoginMsg String) (row : Counted) : Center κ β :=
  let raised := c.setFgw m { f with handler := { f.handler with eventLoop := .dead } }
  if msg.cmd = some "login" then
    match msg.st, msg.devid with
    | some _, some devId =>
      match row with
      | .none => c.put [.noLogin m]
      | .error => raised
      | .count k =>
        if k = 1 then
          let c := c.setFgw m { f with
            handler := f.handler.next hashable .login
            fgwId := some devId }
          { c with manager := c.manager.addHandler devId f.id }.put [.loginRsp m 0]
        else c.put [.loginRsp m (-1)]
    | _, _ => raised
  else c

section FgwHandler

variable [DecidableEq κ] (hashable : κ → Bool)

/-- `event_logged_in`. -/
def answer (c : Center κ β) (m : Nat) (f : Fgw κ β) (cmd : Option Cmd) (seq : Option Nat)
    (data : β) : Center κ β :=
  let handler := ((c.served f).next hashable (.message cmd seq)).handler
  let out :=
    match cmd, seq with
    | some cmd, some seq =>
      .heard m cmd seq data ::
        match (f.handler.ctrl.find seq).bind fun r => f.handler.sessions[r]?.map (r, ·) with
        | some (r, session) =>
          if session.state = 2 ∧ session.cmd = cmd ∧ cmd ≠ .bind then c.tell m f r cmd seq none data
          else []
        | none => []
    | _, _ => []
  (c.setFgw m { f with handler := handler, answer := some data }).put out

/-- The second query of a binding comes back, and the answer goes on with the client's own key. -/
def updated (c : Center κ β) (m : Nat) (f : Fgw κ β) (committed : Bool) : Center κ β :=
  let handler := ((c.served f).next hashable (.updated committed)).handler
  let out :=
    match f.handler.eventLoop, committed, f.answer with
    | .updating seq r, true, some data =>
      match f.handler.sessions[r]? with
      | some session => c.tell m f r .bind seq (some session.extKey) data
      | none => []
    | _, _, _ => []
  (c.setFgw m { f with handler := handler }).put out

/-! ## Steps -/

inductive Event (κ β : Type)
  | webConnect (id : Nat)
  | webEnd (n : Nat)
  | webMessage (n : Nat) (msg : WebMsg κ β) (now : Int)
  | answered (n : Nat) (row : Row)
  | listed (n : Nat) (row : FgwListRow)
  | fgwConnect (id : Nat)
  | fgwEnd (m : Nat)
  | login (m : Nat) (msg : LoginMsg String) (row : Counted)
  | answer (m : Nat) (cmd : Option Cmd) (seq : Option Nat) (data : β)
  | selected (m : Nat) (row : Row)
  | updated (m : Nat) (committed : Bool)
  | routine (m : Nat) (curTime : Int)

omit [DecidableEq κ] in
/-- `start` of a web client's handler, up to its loops; an object that is there has its `id` for
    itself, and the dispatcher would raise. -/
def webConnect (c : Center κ β) (id : Nat) : Center κ β :=
  if (c.webMap id).isSome then c
  else { c with
    webs := c.webs ++ [{ id := id }]
    webMap := Function.update c.webMap id (some c.webs.length) }

omit [DecidableEq κ] in
def fgwConnect (c : Center κ β) (id : Nat) : Center κ β :=
  if (c.fgwMap id).isSome then c
  else { c with
    fgws := c.fgws ++ [{ id := id }]
    fgwMap := Function.update c.fgwMap id (some c.fgws.length) }

omit [DecidableEq κ] in
/-- The end of `start`, once the event loop is back. -/
def webEnd (c : Center κ β) (n : Nat) (w : Web) : Center κ β :=
  { c.setWeb n { w with running := false } with webMap := Function.update c.webMap w.id none }

omit [DecidableEq κ] in
/-- The same of a gateway's handler; what `remove_handler` raises ends with it. -/
def fgwEnd (c : Center κ β) (m : Nat) (f : Fgw κ β) : Center κ β :=
  { c.setFgw m { f with running := false } with
    fgwMap := Function.update c.fgwMap f.id none
    manager :=
      match c.manager.removeHandler f.fgwId with
      | .ok manager => manager
      | .error _ => c.manager }

/-- A step of a gateway's handler that puts nothing out. -/
def quietly (c : Center κ β) (m : Nat) (f : Fgw κ β) (e : Served.Event κ) : Center κ β :=
  c.setFgw m { f with handler := ((c.served f).next hashable e).handler }

/-- One step: of a web client's handler, of a gateway's, or of the servers that take connections. -/
def next (c : Center κ β) : Event κ β → Center κ β
  | .webConnect id => c.webConnect id
  | .fgwConnect id => c.fgwConnect id
  | .webEnd n =>
    match c.webs[n]? with
    | some w =>
      if w.running ∧ (w.eventLoop = .ready ∨ w.eventLoop = .dead) then c.webEnd n w else c
    | none => c
  | .webMessage n msg now =>
    match c.webs[n]? with
    | some w => if w.running ∧ w.eventLoop = .ready then c.webEvent hashable n w msg now else c
    | none => c
  | .answered n row =>
    match c.webs[n]? with
    | some w =>
      match w.eventLoop with
      | .asking m =>
        match c.fgws[m]? with
        | some f => c.answered hashable n w m f row
        | none => c
      | _ => c
    | none => c
  | .listed n row =>
    match c.webs[n]? with
    | some w => if w.eventLoop = .listing then c.listed n w row else c
    | none => c
  | .fgwEnd m =>
    match c.fgws[m]? with
    | some f =>
      if f.running ∧ (f.handler.eventLoop = .ready ∨ f.handler.eventLoop = .dead) then c.fgwEnd m f
      else c
    | none => c
  | .login m msg row =>
    match c.fgws[m]? with
    | some f =>
      if f.running ∧ f.handler.eventLoop = .ready ∧ f.handler.loggedIn = false then
        c.login hashable m f msg row
      else c
    | none => c
  | .answer m cmd seq data =>
    match c.fgws[m]? with
    | some f =>
      if f.running ∧ f.handler.eventLoop = .ready ∧ f.handler.loggedIn = true then
        c.answer hashable m f cmd seq data
      else c
    | none => c
  | .selected m row =>
    match c.fgws[m]? with
    | some f => c.quietly hashable m f (.selected row)
    | none => c
  | .updated m committed =>
    match c.fgws[m]? with
    | some f => c.updated hashable m f committed
    | none => c
  | .routine m curTime =>
    match c.fgws[m]? with
    | some f => if f.running then c.quietly hashable m f (.routine curTime) else c
    | none => c

end FgwHandler

end Center

end Monsys
