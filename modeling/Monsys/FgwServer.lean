/-
  The gateways' side of the Python server: `session.py` and `FGWHandler` of `fgw_server.py`.

  A web client's request opens a session with the gateway; the gateway's answer closes it, or a
  timeout.  The sessions stand in two tables, by a key of the handler's own and by the key the client
  has given them.

  1. **Sessions** — `Session`; a table is a dictionary to the references of sessions.
  2. **`SessionCtrl`** — the two tables.  What raises ends there, with what was done before.
  3. **`FgwHandler`** — greenlets: one for each web client, in whose call of `on_inner` the session's
     first query can be out; the event loop, which can be in the two queries of a binding; and the
     routine.  A greenlet that raises is gone.
  4. **Steps** — `next`, from one yield to the next.

  A key that a client gives can be any value; `hashable` tells whether it can be one of a dictionary.
  Times are in milliseconds.  What is sent, and what the queries say but for their outcome, is left
  out.
-/
import Mathlib.Data.List.AList

namespace Monsys

namespace FgwServer

/-! ## Sessions -/

/-- The classes of sessions, by the command of the request. -/
inductive Cmd
  | getDevList
  | getDevInfo
  | setDevInfo
  | preBind
  | bind
deriving DecidableEq

/-- The first state of the session has a query. -/
def Cmd.queries : Cmd → Bool
  | preBind | bind => true
  | _ => false

structure Session (κ : Type) where
  touchedTime : Int
  closed : Bool := false
  key : Nat
  extKey : κ
  cmd : Cmd
  state : Nat := 1
deriving DecidableEq

namespace Session

variable {κ : Type}

/-- `close`. -/
def close (s : Session κ) : Session κ := { s with closed := true }

/-- `check_timeout`; `on_timeout` of all classes closes the session. -/
def checkTimeout (s : Session κ) (timeout curTime : Int) : Session κ :=
  -- the time is skewed
  if s.touchedTime > curTime then { s with touchedTime := curTime }
  else if curTime - s.touchedTime > timeout then s.close
  else s

end Session

inductive Error
  | keyError
  | typeError
deriving DecidableEq

/-! ## `SessionCtrl` -/

structure SessionCtrl (κ : Type) where
  extSessionMap : AList fun _ : κ => Nat
  sessionMap : AList fun _ : Nat => Nat
  lastKey : Nat

namespace SessionCtrl

variable {κ : Type}

def new : SessionCtrl κ := ⟨∅, ∅, 0⟩

/-- `find`. -/
def find (c : SessionCtrl κ) (key : Nat) : Option Nat := c.sessionMap.lookup key

/-- `gen_key`. -/
def genKey (c : SessionCtrl κ) : Nat × SessionCtrl κ :=
  let lastKey := if c.lastKey ≥ 0xFFFFFF then 0 else c.lastKey
  (lastKey + 1, { c with lastKey := lastKey + 1 })

variable [DecidableEq κ]

/-- `find_by_external_key`. -/
def findByExternalKey (c : SessionCtrl κ) (key : κ) : Option Nat := c.extSessionMap.lookup key

variable (hashable : κ → Bool)

/-- `add`. -/
def add (c : SessionCtrl κ) (key : Nat) (extKey : κ) (session : Nat) :
    SessionCtrl κ × Option Error :=
  let c := { c with sessionMap := c.sessionMap.insert key session }
  if hashable extKey then
    ({ c with extSessionMap := c.extSessionMap.insert extKey session }, none)
  else (c, some .typeError)

/-- `remove`. -/
def remove (c : SessionCtrl κ) (sessions : List (Session κ)) (key : Nat) : SessionCtrl κ :=
  match c.find key with
  | none => c
  | some r =>
    let c := { c with sessionMap := c.sessionMap.erase key }
    match sessions[r]? with
    | none => c
    | some session => { c with extSessionMap := c.extSessionMap.erase session.extKey }

/-- The first loop of `check_timeout`: `session_tobe_deleted`, and the sessions. -/
def timeoutLoop (timeout curTime : Int) :
    List (Sigma fun _ : Nat => Nat) → List (Session κ) → List (Nat × κ) × List (Session κ)
  | [], sessions => ([], sessions)
  | ⟨key, r⟩ :: entries, sessions =>
    match sessions[r]? with
    | none => timeoutLoop timeout curTime entries sessions
    | some session =>
      let session := session.checkTimeout timeout curTime
      let (rest, sessions) := timeoutLoop timeout curTime entries (sessions.set r session)
      (if session.closed then (key, session.extKey) :: rest else rest, sessions)

/-- The second one. -/
def popLoop : List (Nat × κ) → SessionCtrl κ → SessionCtrl κ × Option Error
  | [], c => (c, none)
  | (key, extKey) :: rest, c =>
    if (c.find key).isSome then
      let c := { c with sessionMap := c.sessionMap.erase key }
      if hashable extKey then
        if (c.findByExternalKey extKey).isSome then
          popLoop rest { c with extSessionMap := c.extSessionMap.erase extKey }
        else (c, some .keyError)
      else (c, some .typeError)
    else (c, some .keyError)

/-- `check_timeout`.  In what order it meets the sessions is of no matter as long as nothing raises; a
    dictionary has its own, here it is that in which they came. -/
def checkTimeout (c : SessionCtrl κ) (sessions : List (Session κ)) (timeout curTime : Int) :
    List (Session κ) × SessionCtrl κ × Option Error :=
  let (tobeDeleted, sessions) := timeoutLoop timeout curTime c.sessionMap.entries.reverse sessions
  (sessions, popLoop hashable tobeDeleted c)

end SessionCtrl

/-! ## `FGWHandler` -/

/-- What the event loop is in: the first or the second query of a binding that the gateway has
    answered under `seq`. -/
inductive EventLoop
  | ready
  | selecting (seq r : Nat)
  | updating (seq r : Nat)
  | dead
deriving DecidableEq

/-- A request of a web client; another command than those of sessions is `none`. -/
structure Request (κ : Type) where
  cmd : Option Cmd
  seq : κ
  account : Option String := none
  fgw : Option String := none
deriving DecidableEq

/-- An answer of the gateway, to the command that is named. -/
structure Response where
  cmd : Option Cmd
  seq : Nat
deriving DecidableEq

/-- What a query comes back with: no row, a row with a string in it, or anything that makes the
    session raise. -/
inductive Row
  | none
  | found
  | error
deriving DecidableEq

/-- The handler of a gateway, with the sessions that were made for it.  `calls` are the sessions in
    whose first query the greenlets of the web clients are. -/
structure FgwHandler (κ : Type) where
  loggedIn : Bool
  sessions : List (Session κ)
  ctrl : SessionCtrl κ
  calls : Nat → Option Nat
  eventLoop : EventLoop
  routineRuns : Bool

namespace FgwHandler

variable {κ : Type}

def init : FgwHandler κ := ⟨false, [], .new, fun _ => none, .ready, true⟩

inductive Event (κ : Type)
  | login
  | onInner (g : Nat) (msg : Request κ) (now : Int)
  | answered (g : Nat) (row : Row)
  | message (msg : Response) (sent : Bool)
  | selected (row : Row)
  | updated (sent : Bool)
  | routine (curTime : Int)

variable [DecidableEq κ] (hashable : κ → Bool)

/-- The end of `on_inner`, once the session has sent the request to the gateway. -/
def addSession (w : FgwHandler κ) (r : Nat) (session : Session κ) : FgwHandler κ :=
  let session := { session with state := 2 }
  let w := { w with sessions := w.sessions.set r session }
  if session.closed then w
  else { w with ctrl := (w.ctrl.add hashable session.key session.extKey r).1 }

omit [DecidableEq κ] in
/-- `create_session`, under the key that `gen_key` gives. -/
def createSession (w : FgwHandler κ) (extKey : κ) (cmd : Cmd) (now : Int) : Session κ :=
  { touchedTime := now, key := w.ctrl.genKey.1, extKey := extKey, cmd := cmd }

omit [DecidableEq κ] in
/-- The session is there, and its key is drawn. -/
def draw (w : FgwHandler κ) (session : Session κ) : FgwHandler κ :=
  { w with sessions := w.sessions ++ [session], ctrl := w.ctrl.genKey.2 }

/-- `on_inner` from `gen_key` on, up to the query of the session's first state if it has one. -/
def openSession (w : FgwHandler κ) (g : Nat) (msg : Request κ) (cmd : Cmd) (now : Int) :
    FgwHandler κ :=
  let session := w.createSession msg.seq cmd now
  let r := w.sessions.length
  let w := w.draw session
  if cmd.queries then
    match msg.account, msg.fgw with
    | some _, some _ => { w with calls := Function.update w.calls g (some r) }
    | _, _ => w -- the session raises
  else w.addSession hashable r session

/-- `on_inner`. -/
def onInner (w : FgwHandler κ) (g : Nat) (msg : Request κ) (now : Int) : FgwHandler κ :=
  match w.loggedIn, msg.cmd with
  | true, some cmd =>
    if (w.ctrl.findByExternalKey msg.seq).isSome then w -- duplicated request
    else w.openSession hashable g msg cmd now
  | _, _ => w

/-- The query comes back to `on_inner`.  Without a row the session is closed, or raises, and it is
    not added either way. -/
def answered (w : FgwHandler κ) (g : Nat) (row : Row) : FgwHandler κ :=
  match w.calls g with
  | none => w
  | some r =>
    let w := { w with calls := Function.update w.calls g none }
    match w.sessions[r]? with
    | none => w
    | some session =>
      match row with
      | .found => w.addSession hashable r session
      | .none => { w with sessions := w.sessions.set r session.close }
      | .error => w

/-- The session closes, and `event_logged_in` removes what is under the key of the answer. -/
def closeSession (w : FgwHandler κ) (seq r : Nat) : FgwHandler κ :=
  match w.sessions[r]? with
  | none => w
  | some session =>
    let sessions := w.sessions.set r session.close
    { w with sessions := sessions, ctrl := w.ctrl.remove sessions seq }

/-- `event_logged_in`; `sent` tells whether the client is still there to be sent the answer. -/
def eventLoggedIn (w : FgwHandler κ) (msg : Response) (sent : Bool) : FgwHandler κ :=
  match msg.cmd with
  | none => w -- unknown message
  | some cmd =>
    match w.ctrl.find msg.seq with
    | none => { w with eventLoop := .dead }
    | some r =>
      match w.sessions[r]? with
      | none => w
      | some session =>
        if session.state = 2 ∧ session.cmd = cmd then
          if cmd = .bind then { w with eventLoop := .selecting msg.seq r }
          else if sent then w.closeSession msg.seq r
          else { w with eventLoop := .dead }
        else w.closeSession msg.seq r

/-! ## Steps -/

/-- One step. -/
def next (w : FgwHandler κ) : Event κ → FgwHandler κ
  | .login => if w.eventLoop = .ready then { w with loggedIn := true } else w
  -- a greenlet that is in a query takes no message
  | .onInner g msg now => if (w.calls g).isSome then w else w.onInner hashable g msg now
  | .answered g row => w.answered hashable g row
  | .message msg sent =>
    if w.eventLoop = .ready ∧ w.loggedIn = true then w.eventLoggedIn msg sent else w
  | .selected row =>
    match w.eventLoop with
    | .selecting seq r =>
      match row with
      | .found => { w with eventLoop := .updating seq r }
      | _ => { w with eventLoop := .dead }
    | _ => w
  | .updated sent =>
    match w.eventLoop with
    | .updating seq r =>
      if sent then { w.closeSession seq r with eventLoop := .ready }
      else { w with eventLoop := .dead }
    | _ => w
  | .routine curTime =>
    if w.routineRuns then
      let (sessions, ctrl, error) := w.ctrl.checkTimeout hashable w.sessions 1000 curTime
      { w with sessions := sessions, ctrl := ctrl, routineRuns := error.isNone }
    else w

end FgwHandler

end FgwServer

end Monsys
