/-
  The push server: `ApiServerHandler`, `PushServerHandler`, `InMemInfo` and `RouteRecord` of
  `monsys/pushserver`.

  Two ports.  On one the gateways log in (`PushServerHandler`), on the other the API clients
  (`ApiServerHandler`).  A request of an API client that names a gateway is handed to it under a
  sequence number of the server's own; the record of the number the client had used, and of the
  client, waits in `routeMap` for the answer.

  1. **State** — `Server`: `InMemInfo`, and for every connection its handler and whether it is closed.
     Connections are numbered on each port.
  2. **Handlers** — as the source has them, each from the state to the state and to what is written
     to the channels.
  3. **One event** — `Server.step`: a message, or a connection that is closed.  Each `channelRead0` is
     one step.
  4. **What a step can do** — `apiRead_cases`, `pushRead_cases`.

  The maps are functions to `Option`.  `auth` asks the database whether a device was imported; the
  imported devices are the parameter `imported`.  Logging is left out.
-/
import Mathlib.Logic.Function.Basic
import Monsys.PushProto
import Monsys.SequenceGenerator

namespace Monsys.Push

/-! ## State -/

/-- `RouteRecord`.  `peerId` is the account, `mId` of the handler that made the record. -/
structure RouteRecord where
  innerSeq : Int
  extSeq : Int
  peerId : Option String
deriving DecidableEq, Repr

/-- `ApiClient`, with the number of its connection on the API port for the channel. -/
structure ApiClient where
  id : String
  channel : Nat
deriving DecidableEq, Repr

/-- `PushClient`, with the number of its connection on the push port for the channel. -/
structure PushClient where
  id : String
  channel : Nat
deriving DecidableEq, Repr

/-- `InMemInfo`, less the session manager, which nothing here uses. -/
structure InMemInfo where
  routeMap : Int → Option RouteRecord
  apiClientMap : String → Option ApiClient
  pushClientMap : String → Option PushClient

/-- `State` of both handlers. -/
inductive LoginState
  | waitForLogin
  | loggedIn
deriving DecidableEq, Repr

/-- `ApiServerHandler`; `mId` is null before the login.  The listener on the close future is
    there from the login on, and takes `mId` out of the map. -/
structure ApiServerHandler where
  mState : LoginState := .waitForLogin
  mId : Option String := none
  mIdGenerator : SequenceGenerator := .new 1 0xFFFFFF

/-- `PushServerHandler`.  `listening` is the device id that the listener on the close future
    takes out of the map, the one the connection logged in with. -/
structure PushServerHandler where
  mState : LoginState := .waitForLogin
  listening : Option String := none

/-- The channels of the two ports. -/
inductive Channel
  | api (n : Nat)
  | push (n : Nat)
deriving DecidableEq, Repr

/-- A message written to a channel. -/
abbrev Write := Channel × PushMsg

structure Server extends InMemInfo where
  apiHandlers : Nat → ApiServerHandler
  pushHandlers : Nat → PushServerHandler
  closed : Channel → Bool

namespace Server

/-- The server as it starts. -/
def init : Server where
  routeMap := fun _ => none
  apiClientMap := fun _ => none
  pushClientMap := fun _ => none
  apiHandlers := fun _ => {}
  pushHandlers := fun _ => {}
  closed := fun _ => false

/-- What the listeners on `closeFuture()` do. -/
def runCloseListener (s : Server) : Channel → Server
  | .api n =>
    match (s.apiHandlers n).mId with
    | none => s
    | some id => { s with apiClientMap := Function.update s.apiClientMap id none }
  | .push n =>
    match (s.pushHandlers n).listening with
    | none => s
    | some id => { s with pushClientMap := Function.update s.pushClientMap id none }

/-- `ctx.close()`, and the end of a connection from outside. -/
def close (s : Server) (ch : Channel) : Server :=
  { s.runCloseListener ch with closed := Function.update s.closed ch true }

end Server

/-! ## The handler of the API clients -/

namespace ApiServerHandler

/-- `replyError`. -/
def replyError (n : Nat) (msg : PushMsg) (code : Int) : List Write :=
  match msg.type with
  | .getDevList =>
    [(.api n, { newPushMsg .getDevListRsp msg.sequence with getDevListRsp := some { code := code } })]
  | .getDevInfo =>
    [(.api n, { newPushMsg .getDevInfoRsp msg.sequence with getDevInfoRsp := some { code := code } })]
  | .setDevInfo =>
    [(.api n, { newPushMsg .setDevInfoRsp msg.sequence with setDevInfoRsp := some { code := code } })]
  | _ => []

/-- `convertAndRoute`. -/
def convertAndRoute (s : Server) (n : Nat) (msg : PushMsg) (peerId : String) : Server × List Write :=
  match s.pushClientMap peerId with
  | none => (s, replyError n msg 404)
  | some client =>
    let extSeq := msg.sequence
    let (innerSeq, gen) := (s.apiHandlers n).mIdGenerator.next
    ({ s with
        routeMap := Function.update s.routeMap innerSeq
          (some ⟨innerSeq, extSeq, (s.apiHandlers n).mId⟩)
        apiHandlers := Function.update s.apiHandlers n
          { s.apiHandlers n with mIdGenerator := gen } },
      [(.push client.channel, { msg with sequence := innerSeq })])

/-- A request whose body names the gateway; without the body nothing happens. -/
def routeByBody {β : Type} (deviceId : β → String) (body : Option β) (s : Server) (n : Nat)
    (msg : PushMsg) : Server × List Write :=
  match body with
  | none => (s, [])
  | some body => convertAndRoute s n msg (deviceId body)

/-- `handleDevListReq`. -/
def handleDevListReq (s : Server) (n : Nat) (msg : PushMsg) : Server × List Write :=
  routeByBody (fun body => body.deviceId) msg.getDevList s n msg

/-- `handleDevInfoReq`. -/
def handleDevInfoReq (s : Server) (n : Nat) (msg : PushMsg) : Server × List Write :=
  routeByBody (fun body => body.deviceId) msg.getDevInfo s n msg

/-- `handleSetDevInfoReq`. -/
def handleSetDevInfoReq (s : Server) (n : Nat) (msg : PushMsg) : Server × List Write :=
  routeByBody (fun body => body.deviceId) msg.setDevInfo s n msg

/-- `handleFgwListReq`. -/
def handleFgwListReq (n : Nat) (msg : PushMsg) : List Write :=
  match msg.getFgwList with
  | none => []
  | some _ =>
    [(.api n, { newPushMsg .getFgwListRsp msg.sequence with
        getFgwListRsp := some
          { code := 0
            fgwInfos :=
              [{ id := "ID-01"
                 name := "ID-01-NAME"
                 desc := "THIS IS A FAKE DATA, FOR DEMONSTRATION ONLY" }] } })]

/-- `handleAdminClientLogin`. -/
def handleAdminClientLogin (s : Server) (n : Nat) (msg : PushMsg) : Server × List Write :=
  match msg.adminClientLogin with
  | none => (s.close (.api n), [])
  | some login =>
    ({ s with
        apiClientMap := Function.update s.apiClientMap login.account (some ⟨login.account, n⟩)
        apiHandlers := Function.update s.apiHandlers n
          { s.apiHandlers n with mId := some login.account, mState := .loggedIn } },
      [(.api n, { newPushMsg .adminClientLoginRsp msg.sequence with
          adminClientLoginRsp := some { code := 0 } })])

/-- `onWaitForLogin`. -/
def onWaitForLogin (s : Server) (n : Nat) (msg : PushMsg) : Server × List Write :=
  match msg.type with
  | .adminClientLogin => handleAdminClientLogin s n msg
  | _ => (s.close (.api n), [])

/-- `onLoggedIn`. -/
def onLoggedIn (s : Server) (n : Nat) (msg : PushMsg) : Server × List Write :=
  match msg.type with
  | .heartbeat => (s, [])
  | .getFgwList => (s, handleFgwListReq n msg)
  | .getDevList => handleDevListReq s n msg
  | .getDevInfo => handleDevInfoReq s n msg
  | .setDevInfo => handleSetDevInfoReq s n msg
  | _ => (s.close (.api n), [])

/-- `channelRead0`. -/
def channelRead0 (s : Server) (n : Nat) (msg : PushMsg) : Server × List Write :=
  match (s.apiHandlers n).mState with
  | .waitForLogin => onWaitForLogin s n msg
  | .loggedIn => onLoggedIn s n msg

end ApiServerHandler

/-! ## The handler of the gateways -/

namespace PushServerHandler

/-- `onWaitingForLogin`, with the devices that `auth` finds in the database. -/
def onWaitingForLogin (imported : String → Bool) (s : Server) (n : Nat) (msg : PushMsg) :
    Server × List Write :=
  match msg.type, msg.pushClientLogin with
  | .pushClientLogin, some login =>
    if imported login.deviceId then
      ({ s with
          pushClientMap := Function.update s.pushClientMap login.deviceId
            (some ⟨login.deviceId, n⟩)
          pushHandlers := Function.update s.pushHandlers n
            { mState := .loggedIn, listening := some login.deviceId } },
        [(.push n, { newPushMsg .pushClientLoginRsp msg.sequence with
            pushClientLoginRsp := some { code := 0 } })])
    else (s.close (.push n), [])
  | _, _ => (s.close (.push n), [])

/-- `handleRsp`. -/
def handleRsp (s : Server) (msg : PushMsg) : Server × List Write :=
  match s.routeMap msg.sequence with
  | none => (s, [])
  | some record =>
    let s := { s with routeMap := Function.update s.routeMap msg.sequence none }
    match record.peerId.bind s.apiClientMap with
    | none => (s, [])
    | some apiClient => (s, [(.api apiClient.channel, { msg with sequence := record.extSeq })])

/-- `handleGetDevInfoRsp`. -/
def handleGetDevInfoRsp (s : Server) (msg : PushMsg) : Server × List Write := handleRsp s msg

/-- `handleGetDevListRsp`. -/
def handleGetDevListRsp (s : Server) (msg : PushMsg) : Server × List Write := handleRsp s msg

/-- `handleSetDevInfoRsp`. -/
def handleSetDevInfoRsp (s : Server) (msg : PushMsg) : Server × List Write := handleRsp s msg

/-- `onLoggedIn`. -/
def onLoggedIn (s : Server) (msg : PushMsg) : Server × List Write :=
  match msg.type with
  | .heartbeat => (s, [])
  | .bindRsp => (s, [])
  | .connectRsp => (s, [])
  | .getDevInfoRsp => handleGetDevInfoRsp s msg
  | .getDevListRsp => handleGetDevListRsp s msg
  | .setDevInfoRsp => handleSetDevInfoRsp s msg
  | _ => (s, [])

/-- `channelRead0`. -/
def channelRead0 (imported : String → Bool) (s : Server) (n : Nat) (msg : PushMsg) :
    Server × List Write :=
  match (s.pushHandlers n).mState with
  | .waitForLogin => onWaitingForLogin imported s n msg
  | .loggedIn => onLoggedIn s msg

end PushServerHandler

/-! ## One event -/

/-- What can happen to the server. -/
inductive Event
  | apiRead (n : Nat) (msg : PushMsg)
  | pushRead (n : Nat) (msg : PushMsg)
  | close (ch : Channel)
deriving DecidableEq, Repr

namespace Server

/-- One event.  Nothing arrives on a closed channel. -/
def step (imported : String → Bool) (s : Server) : Event → Server × List Write
  | .apiRead n msg => if s.closed (.api n) then (s, []) else ApiServerHandler.channelRead0 s n msg
  | .pushRead n msg =>
    if s.closed (.push n) then (s, []) else PushServerHandler.channelRead0 imported s n msg
  | .close ch => if s.closed ch then (s, []) else (s.close ch, [])

/-! ## What a step can do -/

/-- The connection `n` of the API port is open and logged in. -/
def ApiLoggedIn (s : Server) (n : Nat) : Prop :=
  s.closed (.api n) = false ∧ (s.apiHandlers n).mState = .loggedIn

/-- The connection `n` of the push port is open and logged in. -/
def PushLoggedIn (s : Server) (n : Nat) : Prop :=
  s.closed (.push n) = false ∧ (s.pushHandlers n).mState = .loggedIn

instance (s : Server) (n : Nat) : Decidable (s.ApiLoggedIn n) := inferInstanceAs (Decidable (_ ∧ _))
instance (s : Server) (n : Nat) : Decidable (s.PushLoggedIn n) := inferInstanceAs (Decidable (_ ∧ _))

/-- The gateway a request names: the three types that are handed on. -/
def peerOf (msg : PushMsg) : Option String :=
  match msg.type with
  | .getDevList => msg.getDevList.map fun body => body.deviceId
  | .getDevInfo => msg.getDevInfo.map fun body => body.deviceId
  | .setDevInfo => msg.setDevInfo.map fun body => body.deviceId
  | _ => none

/-- The types of the messages that `handleRsp` gets. -/
def isAnswer : MsgType → Bool
  | .getDevInfoRsp => true
  | .getDevListRsp => true
  | .setDevInfoRsp => true
  | _ => false

/-- Where the message goes, if the connection is logged in and the gateway it names is too. -/
def routeTo (s : Server) (n : Nat) (msg : PushMsg) : Option PushClient :=
  if s.ApiLoggedIn n then (peerOf msg).bind s.pushClientMap else none

/-- The message is one that `handleRsp` gets. -/
def Answers (s : Server) (n : Nat) (msg : PushMsg) : Prop :=
  s.PushLoggedIn n ∧ isAnswer msg.type = true

instance (s : Server) (n : Nat) (msg : PushMsg) : Decidable (s.Answers n msg) :=
  inferInstanceAs (Decidable (_ ∧ _))

/-- Nothing but an answer on the connection's own channel. -/
def Local (ch : Channel) (out : List Write) : Prop := ∀ w ∈ out, w.1 = ch

theorem local_nil (ch : Channel) : Local ch [] := fun _ h => nomatch h

theorem local_single (ch : Channel) (m : PushMsg) : Local ch [(ch, m)] := by
  intro w hw
  rw [List.mem_singleton.mp hw]

theorem local_replyError (n : Nat) (msg : PushMsg) (code : Int) :
    Local (.api n) (ApiServerHandler.replyError n msg code) := by
  rw [ApiServerHandler.replyError.eq_def]
  split
  all_goals first | exact local_single _ _ | exact local_nil _

theorem local_handleFgwListReq (n : Nat) (msg : PushMsg) :
    Local (.api n) (ApiServerHandler.handleFgwListReq n msg) := by
  rw [ApiServerHandler.handleFgwListReq.eq_def]
  split
  · exact local_nil _
  · exact local_single _ _

variable {imported : String → Bool} {s : Server} {n : Nat} {msg : PushMsg}

theorem routeByBody_eq {β : Type} (deviceId : β → String) (body : Option β) :
    ApiServerHandler.routeByBody deviceId body s n msg =
      match body.map deviceId with
      | none => (s, [])
      | some g => ApiServerHandler.convertAndRoute s n msg g := by
  cases body <;> rfl

/-- The three types that are handed on are handled alike. -/
theorem onLoggedIn_request
    (ht : msg.type = .getDevList ∨ msg.type = .getDevInfo ∨ msg.type = .setDevInfo) :
    ApiServerHandler.onLoggedIn s n msg =
      match peerOf msg with
      | none => (s, [])
      | some g => ApiServerHandler.convertAndRoute s n msg g := by
  rcases ht with ht | ht | ht
  · simp only [ApiServerHandler.onLoggedIn, peerOf, ht]
    exact routeByBody_eq _ _
  · simp only [ApiServerHandler.onLoggedIn, peerOf, ht]
    exact routeByBody_eq _ _
  · simp only [ApiServerHandler.onLoggedIn, peerOf, ht]
    exact routeByBody_eq _ _

theorem type_of_peerOf {g : String} (h : peerOf msg = some g) :
    msg.type = .getDevList ∨ msg.type = .getDevInfo ∨ msg.type = .setDevInfo := by
  rw [peerOf.eq_def] at h
  split at h
  · next ht => exact Or.inl ht
  · next ht => exact Or.inr (Or.inl ht)
  · next ht => exact Or.inr (Or.inr ht)
  · cases h

/-- A logged-in client's request that names a gateway goes to `convertAndRoute`. -/
theorem onLoggedIn_of_peerOf {g : String} (h : peerOf msg = some g) :
    ApiServerHandler.onLoggedIn s n msg = ApiServerHandler.convertAndRoute s n msg g := by
  rw [onLoggedIn_request (type_of_peerOf h), h]

/-- Any other message of a logged-in client is answered on the spot, or the connection is closed. -/
theorem onLoggedIn_of_no_peer (h : peerOf msg = none) :
    (∃ out, Local (.api n) out ∧ ApiServerHandler.onLoggedIn s n msg = (s, out)) ∨
      ApiServerHandler.onLoggedIn s n msg = (s.close (.api n), []) := by
  have hrequest : msg.type = .getDevList ∨ msg.type = .getDevInfo ∨ msg.type = .setDevInfo →
      ∃ out, Local (.api n) out ∧ ApiServerHandler.onLoggedIn s n msg = (s, out) := by
    intro ht
    rw [onLoggedIn_request ht, h]
    exact ⟨[], local_nil _, rfl⟩
  cases ht : msg.type
  case heartbeat =>
    exact Or.inl ⟨[], local_nil _, by simp only [ApiServerHandler.onLoggedIn, ht]⟩
  case getFgwList =>
    exact Or.inl ⟨_, local_handleFgwListReq n msg, by simp only [ApiServerHandler.onLoggedIn, ht]⟩
  case getDevList => exact Or.inl (hrequest (Or.inl ht))
  case getDevInfo => exact Or.inl (hrequest (Or.inr (Or.inl ht)))
  case setDevInfo => exact Or.inl (hrequest (Or.inr (Or.inr ht)))
  all_goals exact Or.inr (by simp only [ApiServerHandler.onLoggedIn, ht])

/-- **What a message from an API client can do**: it is handed to a gateway; or it is answered on
    the spot; or the connection is closed; or the client logs in. -/
theorem apiRead_cases (imported : String → Bool) (s : Server) (n : Nat) (msg : PushMsg) :
    (∃ g client, peerOf msg = some g ∧ s.pushClientMap g = some client ∧ s.ApiLoggedIn n ∧
      s.step imported (.apiRead n msg) = ApiServerHandler.convertAndRoute s n msg g) ∨
    (s.routeTo n msg = none ∧
      ((∃ out, Local (.api n) out ∧ s.step imported (.apiRead n msg) = (s, out)) ∨
       s.step imported (.apiRead n msg) = (s.close (.api n), []) ∨
       (s.closed (.api n) = false ∧ (s.apiHandlers n).mState = .waitForLogin ∧
        ∃ login, msg.adminClientLogin = some login ∧
          s.step imported (.apiRead n msg) = ApiServerHandler.handleAdminClientLogin s n msg))) := by
  by_cases hclosed : s.closed (.api n) = true
  · refine Or.inr ⟨if_neg fun h => ?_, Or.inl ⟨[], local_nil _, if_pos hclosed⟩⟩
    rw [h.1] at hclosed
    cases hclosed
  have hopen : s.closed (.api n) = false := by simpa using hclosed
  have hstep : s.step imported (.apiRead n msg) = ApiServerHandler.channelRead0 s n msg :=
    if_neg hclosed
  rw [hstep]
  cases hst : (s.apiHandlers n).mState with
  | waitForLogin =>
    have hno : s.routeTo n msg = none := by
      refine if_neg fun h => ?_
      rw [h.2] at hst
      cases hst
    refine Or.inr ⟨hno, ?_⟩
    simp only [ApiServerHandler.channelRead0, hst]
    rw [ApiServerHandler.onWaitForLogin.eq_def]
    split
    · cases hlogin : msg.adminClientLogin with
      | none =>
        refine Or.inr (Or.inl ?_)
        simp only [ApiServerHandler.handleAdminClientLogin, hlogin]
      | some login => exact Or.inr (Or.inr ⟨hopen, trivial, login, rfl, rfl⟩)
    · exact Or.inr (Or.inl rfl)
  | loggedIn =>
    have hin : s.ApiLoggedIn n := ⟨hopen, hst⟩
    simp only [ApiServerHandler.channelRead0, hst]
    cases hpeer : peerOf msg with
    | none =>
      have hno : s.routeTo n msg = none := by rw [routeTo, if_pos hin, hpeer]; rfl
      refine Or.inr ⟨hno, ?_⟩
      rcases onLoggedIn_of_no_peer hpeer with h | h
      · exact Or.inl h
      · exact Or.inr (Or.inl h)
    | some g =>
      rw [onLoggedIn_of_peerOf hpeer]
      cases hclient : s.pushClientMap g with
      | none =>
        have hno : s.routeTo n msg = none := by
          rw [routeTo, if_pos hin, hpeer]
          exact hclient
        refine Or.inr ⟨hno, Or.inl ⟨_, local_replyError n msg 404, ?_⟩⟩
        simp only [ApiServerHandler.convertAndRoute, hclient]
      | some client => exact Or.inl ⟨g, client, rfl, hclient, hin, rfl⟩

/-- A logged-in gateway's answers go to `handleRsp`, and nothing else has an effect. -/
theorem pushOnLoggedIn_eq (s : Server) (msg : PushMsg) :
    PushServerHandler.onLoggedIn s msg =
      if isAnswer msg.type = true then PushServerHandler.handleRsp s msg else (s, []) := by
  cases ht : msg.type <;> (simp only [PushServerHandler.onLoggedIn, ht]; rfl)

/-- **What a message from a gateway can do**: it is an answer and goes to `handleRsp`; or nothing
    happens; or the connection is closed; or the gateway logs in. -/
theorem pushRead_cases (imported : String → Bool) (s : Server) (n : Nat) (msg : PushMsg) :
    (s.Answers n msg ∧ s.step imported (.pushRead n msg) = PushServerHandler.handleRsp s msg) ∨
    (¬ s.Answers n msg ∧
      (s.step imported (.pushRead n msg) = (s, []) ∨
       s.step imported (.pushRead n msg) = (s.close (.push n), []) ∨
       (s.closed (.push n) = false ∧ (s.pushHandlers n).mState = .waitForLogin ∧
        ∃ (login : PushClientLogin) (rsp : PushMsg),
          s.step imported (.pushRead n msg) =
            ({ s with
                pushClientMap := Function.update s.pushClientMap login.deviceId
                  (some ⟨login.deviceId, n⟩)
                pushHandlers := Function.update s.pushHandlers n
                  { mState := .loggedIn, listening := some login.deviceId } },
              [(.push n, rsp)])))) := by
  by_cases hclosed : s.closed (.push n) = true
  · refine Or.inr ⟨fun h => ?_, Or.inl (if_pos hclosed)⟩
    rw [h.1.1] at hclosed
    cases hclosed
  have hopen : s.closed (.push n) = false := by simpa using hclosed
  have hstep : s.step imported (.pushRead n msg) =
      PushServerHandler.channelRead0 imported s n msg := if_neg hclosed
  rw [hstep]
  cases hst : (s.pushHandlers n).mState with
  | waitForLogin =>
    refine Or.inr ⟨fun h => ?_, ?_⟩
    · have := h.1.2
      rw [hst] at this
      cases this
    simp only [PushServerHandler.channelRead0, hst]
    rw [PushServerHandler.onWaitingForLogin.eq_def]
    split
    · next login _ _ =>
      split
      · exact Or.inr (Or.inr ⟨hopen, trivial, login, _, rfl⟩)
      · exact Or.inr (Or.inl rfl)
    · exact Or.inr (Or.inl rfl)
  | loggedIn =>
    have hin : s.PushLoggedIn n := ⟨hopen, hst⟩
    simp only [PushServerHandler.channelRead0, hst]
    rw [pushOnLoggedIn_eq]
    by_cases hans : isAnswer msg.type = true
    · rw [if_pos hans]
      exact Or.inl ⟨⟨hin, hans⟩, rfl⟩
    · rw [if_neg hans]
      exact Or.inr ⟨fun h => hans h.2, Or.inl rfl⟩

end Server

end Monsys.Push
