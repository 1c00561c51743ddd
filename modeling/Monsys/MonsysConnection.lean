/-
  The client side of the API port: `MonsysConnection` of `monsys/sdk` over `BaseClientConnection` of
  `monsys/util`.

  Every method that asks for something hands out a promise, saves a route under the number of its
  message, and writes the message.  A message from the server takes the route under its number out
  and completes the promise.

  1. **Requests** — `Call`: the methods with their arguments, the message each one writes, and what
     an answer completes its promise with (`Call.outcome`).
  2. **The connection** — `MonsysConnection`, its methods, and what netty tells it.  `Life` is what
     the channel goes through; it connects once, and its handlers are gone from the pipeline when it
     is closed.
  3. **What a step can do** — `act_cases`, `channelRead0_cases`.
  4. **The invariant** — `Orderly`: routes lead to promises that wait, each to its own.
  5. **Runs** — `promises_once`: whatever the server sends and whenever the channel breaks.

  A method called on a channel that no event loop has throws, and so does a login while the
  handlers of another one stand in the pipeline.  A message written to a channel that is not active
  fails, and nobody looks at the future.  Everything happens on the one event loop.
-/
import Mathlib.Logic.Function.Basic
import Monsys.Lib.Runs
import Monsys.PushProto
import Monsys.SequenceGenerator

namespace Monsys.Push

/-! ## Requests -/

/-- `Fgw`. -/
structure Fgw where
  id : String
  name : String
  desc : String
deriving DecidableEq, Repr

/-- `IdValue`. -/
structure IdValue where
  id : Int
  value : Int
deriving DecidableEq, Repr

/-- `DevInfo`. -/
structure DevInfo where
  idValueList : List IdValue := []
deriving DecidableEq, Repr

/-- `Dev`. -/
structure Dev where
  name : String
  type : Int
  addr : Int
deriving DecidableEq, Repr

/-- The methods that ask the server for something. -/
inductive Call
  | login (account password : String)
  | getFgwList
  | getDevInfo (fgwId : String) (addr : Int) (idList : List Int)
  | setDevInfo (fgwId : String) (addr : Int) (devInfo : DevInfo)
  | getDevList (fgwId : String)
deriving DecidableEq, Repr

/-- What a promise is completed with: a failure, or a value. -/
inductive Outcome
  | failure
  | code (code : Int)
  | null
  | fgwList (list : List Fgw)
  | devInfo (devInfo : DevInfo)
  | devList (list : List Dev)
deriving DecidableEq, Repr

namespace Call

/-- The message a method writes. -/
def message (seq : Int) : Call → PushMsg
  | login account password =>
    { newPushMsg .adminClientLogin seq with adminClientLogin := some ⟨account, password⟩ }
  | getFgwList => { newPushMsg .getFgwList seq with getFgwList := some () }
  | getDevInfo fgwId addr idList =>
    { newPushMsg .getDevInfo seq with getDevInfo := some ⟨fgwId, addr, idList⟩ }
  | setDevInfo fgwId addr devInfo =>
    { newPushMsg .setDevInfo seq with
        setDevInfo := some
          ⟨fgwId, addr, devInfo.idValueList.map fun pair => ⟨pair.id, pair.value⟩⟩ }
  | getDevList fgwId => { newPushMsg .getDevList seq with getDevList := some ⟨fgwId⟩ }

/-- What the callback of a method completes the promise with.  `null` is the value of a list whose
    answer has a code other than 0. -/
def outcome (msg : PushMsg) : Call → Outcome
  | login _ _ =>
    match msg.adminClientLoginRsp with
    | none => .failure
    | some rsp => .code rsp.code
  | getFgwList =>
    match msg.getFgwListRsp with
    | none => .failure
    | some rsp =>
      if rsp.code ≠ 0 then .null
      else .fgwList (rsp.fgwInfos.map fun info => ⟨info.id, info.name, info.desc⟩)
  | getDevInfo _ _ _ =>
    match msg.getDevInfoRsp with
    | none => .failure
    | some rsp =>
      if rsp.code ≠ 0 then .null
      else .devInfo ⟨rsp.idValuePairs.map fun pair => ⟨pair.id, pair.value⟩⟩
  | setDevInfo _ _ _ =>
    match msg.setDevInfoRsp with
    | none => .failure
    | some rsp => .code rsp.code
  | getDevList _ =>
    match msg.getDevListRsp with
    | none => .failure
    | some rsp =>
      if rsp.code ≠ 0 then .null
      else .devList (rsp.devInfos.map fun info => ⟨info.name, info.type, info.addr⟩)

/-- The call is a login. -/
def isLogin : Call → Bool
  | login _ _ => true
  | _ => false

@[simp] theorem message_sequence (seq : Int) (call : Call) : (call.message seq).sequence = seq := by
  cases call <;> rfl

theorem eq_login {call : Call} (h : call.isLogin = true) :
    ∃ account password, call = .login account password := by
  cases call with
  | login account password => exact ⟨account, password, rfl⟩
  | _ => cases h

end Call

/-! ## The connection -/

/-- `Callback`, of the anonymous class in one of the methods, with the promise it completes. -/
structure Callback where
  call : Call
  promise : Nat
deriving DecidableEq, Repr

/-- `RouteItem`. -/
structure RouteItem where
  sequence : Int
  callback : Callback
deriving DecidableEq, Repr

/-- A promise that a method has handed out. -/
structure Promise where
  call : Call
  outcome : Option Outcome := none
deriving DecidableEq, Repr

/-- What netty throws: the channel has no event loop, the pipeline has a handler of the name, or
    the promise is complete already. -/
inductive Thrown
  | notRegistered
  | duplicateHandler
  | completeAlready
deriving DecidableEq, Repr

/-- What comes of a step: a message written, and the callback that is saved for its answer; or an
    exception. -/
inductive Effect
  | sent (callback : Callback) (msg : PushMsg)
  | thrown (e : Thrown)
deriving DecidableEq, Repr

/-- What a channel goes through: it is not registered, connects, is active, and is closed. -/
inductive Life
  | fresh
  | connecting
  | active
  | closed
deriving DecidableEq, Repr

/-- `State`. -/
inductive ConnState
  | disconnected
  | connected
  | loggedIn
deriving DecidableEq, Repr

/-- The listener of a login that waits for the channel to connect. -/
structure Waiting where
  account : String
  password : String
  promise : Nat
deriving DecidableEq, Repr

/-- `MonsysConnection`, with the promises it has handed out.  `handlers`: its handlers are in the
    pipeline. -/
structure MonsysConnection where
  mState : ConnState := .disconnected
  mIdGenerator : SequenceGenerator := .new 1 0xFFFFFF
  mRouteMap : Int → Option RouteItem := fun _ => none
  life : Life := .fresh
  handlers : Bool := false
  waiting : Option Waiting := none
  promises : List Promise := []

namespace MonsysConnection

/-- `isLoggedIn`. -/
def isLoggedIn (c : MonsysConnection) : Bool := c.mState = .loggedIn

/-- `saveRoute`, and the write behind it: `writeAndFlush` of `BaseClientConnection`. -/
def writeAndFlush (c : MonsysConnection) (msg : PushMsg) (callback : Callback) :
    MonsysConnection × List Effect :=
  ({ c with
      mRouteMap := Function.update c.mRouteMap msg.sequence (some ⟨msg.sequence, callback⟩) },
    if c.life = .active then [.sent callback msg] else [])

/-- The message of a method under the next number, for a promise that is there. -/
def request (c : MonsysConnection) (call : Call) (promise : Nat) : MonsysConnection × List Effect :=
  let (seq, gen) := c.mIdGenerator.next
  writeAndFlush { c with mIdGenerator := gen } (call.message seq) ⟨call, promise⟩

/-- `innerLogin`. -/
def innerLogin (c : MonsysConnection) (account password : String) (promise : Nat) :
    MonsysConnection × List Effect :=
  c.request (.login account password) promise

/-- A new promise. -/
def newPromise (c : MonsysConnection) (call : Call) : MonsysConnection :=
  { c with promises := c.promises ++ [{ call := call }] }

/-- `login`.  `connect` puts the handlers into the pipeline and registers the channel; a channel
    that is closed it cannot connect, and the listener finds that out. -/
def login (c : MonsysConnection) (account password : String) : MonsysConnection × List Effect :=
  if c.life = .active then
    (c.newPromise (.login account password)).innerLogin account password c.promises.length
  else if c.handlers then (c, [.thrown .duplicateHandler])
  else
    ({ c.newPromise (.login account password) with
        life := if c.life = .fresh then .connecting else c.life
        handlers := true
        waiting := some ⟨account, password, c.promises.length⟩ }, [])

/-- The four methods that ask for something on a channel that is there. -/
def ask (c : MonsysConnection) (call : Call) : MonsysConnection × List Effect :=
  if c.life = .fresh then (c, [.thrown .notRegistered])
  else (c.newPromise call).request call c.promises.length

/-- `getFgwList`. -/
def getFgwList (c : MonsysConnection) : MonsysConnection × List Effect := c.ask .getFgwList

/-- `getDevInfo`. -/
def getDevInfo (c : MonsysConnection) (fgwId : String) (addr : Int) (idList : List Int) :
    MonsysConnection × List Effect := c.ask (.getDevInfo fgwId addr idList)

/-- `setDevInfo`. -/
def setDevInfo (c : MonsysConnection) (fgwId : String) (addr : Int) (devInfo : DevInfo) :
    MonsysConnection × List Effect := c.ask (.setDevInfo fgwId addr devInfo)

/-- `getDevList`. -/
def getDevList (c : MonsysConnection) (fgwId : String) : MonsysConnection × List Effect :=
  c.ask (.getDevList fgwId)

/-- A method is called. -/
def invoke (c : MonsysConnection) : Call → MonsysConnection × List Effect
  | .login account password => c.login account password
  | .getFgwList => c.getFgwList
  | .getDevInfo fgwId addr idList => c.getDevInfo fgwId addr idList
  | .setDevInfo fgwId addr devInfo => c.setDevInfo fgwId addr devInfo
  | .getDevList fgwId => c.getDevList fgwId

/-- `setSuccess` or `setFailure`. -/
def complete (c : MonsysConnection) (promise : Nat) (outcome : Outcome) :
    MonsysConnection × List Effect :=
  match c.promises[promise]? with
  | some ⟨call, none⟩ =>
    ({ c with promises := c.promises.set promise ⟨call, some outcome⟩ }, [])
  | _ => (c, [.thrown .completeAlready])

/-- `onResponse` of the callback; a login that has succeeded sets the state before. -/
def onCallback (c : MonsysConnection) (callback : Callback) (msg : PushMsg) :
    MonsysConnection × List Effect :=
  let outcome := callback.call.outcome msg
  let c := if callback.call.isLogin ∧ outcome = .code 0 then { c with mState := .loggedIn } else c
  c.complete callback.promise outcome

/-- `onResponse`, of `BaseClientConnection`. -/
def onResponse (c : MonsysConnection) (msg : PushMsg) : MonsysConnection × List Effect :=
  match c.mRouteMap msg.sequence with
  | none => (c, [])
  | some item =>
    let c := { c with mRouteMap := Function.update c.mRouteMap msg.sequence none }
    c.onCallback item.callback msg

/-- `channelRead0`; only an active channel reads. -/
def channelRead0 (c : MonsysConnection) (msg : PushMsg) : MonsysConnection × List Effect :=
  if c.life = .active then c.onResponse msg else (c, [])

/-- The connect that a login waits for is done.  The listener is called first; then, of a channel
    that has connected, `channelActive`, and of one that has failed, the pipeline is cleared.  On a
    channel that was closed before there is nothing left to clear. -/
def connectDone (c : MonsysConnection) (ok : Bool) : MonsysConnection × List Effect :=
  match c.waiting with
  | none => (c, [])
  | some w =>
    let c := { c with waiting := none }
    if c.life = .connecting then
      if ok then
        let (c, out) := { c with life := .active }.innerLogin w.account w.password w.promise
        ({ c with mState := .connected }, out)
      else
        let (c, out) := { c with life := .closed }.innerLogin w.account w.password w.promise
        ({ c with handlers := false }, out)
    else c.innerLogin w.account w.password w.promise

/-- `channelInactive`; the pipeline is cleared behind it. -/
def channelInactive (c : MonsysConnection) : MonsysConnection × List Effect :=
  if c.life = .active then
    ({ c with life := .closed, mState := .disconnected, handlers := false }, [])
  else (c, [])

/-- What happens at the connection but for messages. -/
inductive Act
  | invoke (call : Call)
  | connectDone (ok : Bool)
  | channelInactive
deriving DecidableEq, Repr

/-- One of these. -/
def act (c : MonsysConnection) : Act → MonsysConnection × List Effect
  | .invoke call => c.invoke call
  | .connectDone ok => c.connectDone ok
  | .channelInactive => c.channelInactive

/-- What can happen to a connection. -/
inductive Event
  | act (a : Act)
  | read (msg : PushMsg)
deriving DecidableEq, Repr

/-- One event. -/
def event (c : MonsysConnection) : Event → MonsysConnection × List Effect
  | .act a => c.act a
  | .read msg => c.channelRead0 msg

/-- The connection after an event. -/
def step (c : MonsysConnection) (e : Event) : MonsysConnection := (c.event e).1

/-! ## What a step can do -/

variable {c : MonsysConnection}

theorem request_eq (c : MonsysConnection) (call : Call) (promise : Nat) :
    c.request call promise =
      ({ c with
          mIdGenerator := c.mIdGenerator.next.2
          mRouteMap := Function.update c.mRouteMap c.mIdGenerator.next.1
            (some ⟨c.mIdGenerator.next.1, ⟨call, promise⟩⟩) },
        if c.life = .active then [.sent ⟨call, promise⟩ (call.message c.mIdGenerator.next.1)]
        else []) := by
  simp only [request, writeAndFlush, Call.message_sequence]

/-- `ask`, for whichever method. -/
theorem invoke_eq (c : MonsysConnection) {call : Call} (h : call.isLogin = false) :
    c.invoke call = c.ask call := by
  cases call with
  | login account password => cases h
  | _ => rfl

/-- A step that saves no route and writes nothing. -/
structure Idle (c : MonsysConnection) (r : MonsysConnection × List Effect) : Prop where
  generator : r.1.mIdGenerator = c.mIdGenerator
  routes : r.1.mRouteMap = c.mRouteMap
  thrown : ∀ f ∈ r.2, f = .thrown .notRegistered ∨ f = .thrown .duplicateHandler

/-- A step that saves a route for the next number, and may write the message. -/
structure Saves (c : MonsysConnection) (r : MonsysConnection × List Effect)
    (callback : Callback) : Prop where
  generator : r.1.mIdGenerator = c.mIdGenerator.next.2
  routes : r.1.mRouteMap = Function.update c.mRouteMap c.mIdGenerator.next.1
    (some ⟨c.mIdGenerator.next.1, callback⟩)
  sent : r.2 = [] ∨ r.2 = [.sent callback (callback.call.message c.mIdGenerator.next.1)]

theorem idle_nil {c' : MonsysConnection} (hgen : c'.mIdGenerator = c.mIdGenerator)
    (hroutes : c'.mRouteMap = c.mRouteMap) : Idle c (c', []) :=
  ⟨hgen, hroutes, List.forall_mem_nil _⟩

theorem saves_request (c : MonsysConnection) (call : Call) (promise : Nat) :
    Saves c (c.request call promise) ⟨call, promise⟩ := by
  rw [request_eq]
  refine ⟨rfl, rfl, ?_⟩
  dsimp only
  split
  · exact Or.inr rfl
  · exact Or.inl rfl

/-! ## The invariant -/

/-- A login has been answered with code 0. -/
def LoginAnswered (c : MonsysConnection) : Prop :=
  ∃ q ∈ c.promises, q.call.isLogin = true ∧ q.outcome = some (.code 0)

/-- Routes lead to promises that wait, each to its own; and a login that waits for the channel has
    another one. -/
structure Led (c : MonsysConnection) : Prop where
  items : ∀ s item, c.mRouteMap s = some item →
    item.sequence = s ∧ c.promises[item.callback.promise]? = some { call := item.callback.call }
  apart : ∀ s t a b, c.mRouteMap s = some a → c.mRouteMap t = some b →
    a.callback.promise = b.callback.promise → s = t
  waits : ∀ w, c.waiting = some w →
    c.promises[w.promise]? = some { call := .login w.account w.password } ∧
      ∀ s item, c.mRouteMap s = some item → item.callback.promise ≠ w.promise

/-- The state tells how the channel is, and whether a login has succeeded on it. -/
structure Told (c : MonsysConnection) : Prop where
  active : c.mState ≠ .disconnected ↔ c.life = .active
  loggedIn : c.mState = .loggedIn ↔ c.life = .active ∧ c.LoginAnswered
  silent : c.life = .fresh ∨ c.life = .connecting → ∀ q ∈ c.promises, q.outcome = none

/-- **The invariant.** -/
structure Orderly (c : MonsysConnection) : Prop where
  led : c.Led
  told : c.Told

theorem orderly_new : Orderly {} where
  led := ⟨fun _ _ h => (nomatch h), fun _ _ _ _ h => (nomatch h), fun _ h => (nomatch h)⟩
  told := by
    refine ⟨by decide, ⟨fun h => (nomatch h), fun h => (nomatch h.1)⟩, fun _ q hq => ?_⟩
    cases hq

/-- The number of a new promise is nobody's. -/
theorem Led.promise_lt (h : c.Led) {s : Int} {item : RouteItem} (hs : c.mRouteMap s = some item) :
    item.callback.promise < c.promises.length :=
  (List.getElem?_eq_some_iff.mp (h.items s item hs).2).1

theorem Led.newPromise (h : c.Led) (call : Call) : (c.newPromise call).Led where
  items := by
    intro s item hs
    obtain ⟨hseq, hp⟩ := h.items s item hs
    refine ⟨hseq, ?_⟩
    rw [MonsysConnection.newPromise, List.getElem?_append_left (h.promise_lt hs), hp]
  apart := h.apart
  waits := by
    intro w hw
    obtain ⟨hp, hother⟩ := h.waits w hw
    have hlt : w.promise < c.promises.length := (List.getElem?_eq_some_iff.mp hp).1
    exact ⟨by rw [MonsysConnection.newPromise, List.getElem?_append_left hlt, hp], hother⟩

theorem newPromise_getElem? (c : MonsysConnection) (call : Call) :
    (c.newPromise call).promises[c.promises.length]? = some { call := call } := by
  rw [newPromise, List.getElem?_append_right (Nat.le_refl _), Nat.sub_self]
  rfl

/-- A route to a promise that waits, and that no other route leads to. -/
theorem Led.request (h : c.Led) {call : Call} {p : Nat}
    (hp : c.promises[p]? = some { call := call })
    (hroute : ∀ s item, c.mRouteMap s = some item → item.callback.promise ≠ p)
    (hwait : ∀ w, c.waiting = some w → w.promise ≠ p) : (c.request call p).1.Led := by
  rw [request_eq]
  refine ⟨fun s item hs => ?_, fun s t a b hs ht hab => ?_, fun w hw => ?_⟩
  · dsimp only at hs ⊢
    rw [Function.update_apply] at hs
    split at hs
    · next heq =>
      cases hs
      exact ⟨heq.symm, hp⟩
    · exact h.items s item hs
  · dsimp only at hs ht
    rw [Function.update_apply] at hs ht
    split at hs <;> split at ht
    · next h₁ h₂ => rw [h₁, h₂]
    · cases hs
      exact absurd hab.symm (hroute t b ht)
    · cases ht
      exact absurd hab (hroute s a hs)
    · exact h.apart s t a b hs ht hab
  · obtain ⟨hpw, hother⟩ := h.waits w hw
    refine ⟨hpw, fun s item hs => ?_⟩
    dsimp only at hs
    rw [Function.update_apply] at hs
    split at hs
    · cases hs
      exact (hwait w hw).symm
    · exact hother s item hs

/-- The request of a promise that was just handed out. -/
theorem Led.fresh (h : c.Led) (call : Call) :
    ((c.newPromise call).request call c.promises.length).1.Led := by
  have hnew := newPromise_getElem? c call
  refine (h.newPromise call).request hnew (fun s item hs => ?_) fun w hw => ?_
  · exact Nat.ne_of_lt (h.promise_lt hs)
  · exact Nat.ne_of_lt (List.getElem?_eq_some_iff.mp (h.waits w hw).1).1

/-- The login that waits for the channel saves its route, whatever became of the channel. -/
theorem saves_connectDone {w : Waiting} (hw : c.waiting = some w) (ok : Bool) :
    Saves c (c.connectDone ok) ⟨.login w.account w.password, w.promise⟩ := by
  have hturn : ∀ life, Saves c
      ({ c with waiting := none, life := life }.innerLogin w.account w.password w.promise)
      ⟨.login w.account w.password, w.promise⟩ := by
    intro life
    have hsaves := saves_request { c with waiting := none, life := life }
      (.login w.account w.password) w.promise
    exact ⟨hsaves.generator, hsaves.routes, hsaves.sent⟩
  rw [connectDone, hw]
  dsimp only
  split
  · split
    · exact ⟨(hturn .active).generator, (hturn .active).routes, (hturn .active).sent⟩
    · exact ⟨(hturn .closed).generator, (hturn .closed).routes, (hturn .closed).sent⟩
  · exact hturn c.life

/-- **What happens at a connection but for messages**: nothing to the routes; or the next number
    gets a route, to a promise that no other leads to.  -/
theorem Led.act_cases (h : c.Led) (a : Act) :
    Idle c (c.act a) ∨
      ∃ callback, Saves c (c.act a) callback ∧
        ∀ s item, c.mRouteMap s = some item → item.callback.promise ≠ callback.promise := by
  have hfresh : ∀ call, ∃ callback,
      Saves c ((c.newPromise call).request call c.promises.length) callback ∧
        ∀ s item, c.mRouteMap s = some item → item.callback.promise ≠ callback.promise := by
    intro call
    have hsaves := saves_request (c.newPromise call) call c.promises.length
    exact ⟨_, ⟨hsaves.generator, hsaves.routes, hsaves.sent⟩,
      fun s item hs => Nat.ne_of_lt (h.promise_lt hs)⟩
  cases a with
  | invoke call =>
    show Idle c (c.invoke call) ∨ ∃ callback, Saves c (c.invoke call) callback ∧ _
    cases hlogin : call.isLogin with
    | false =>
      rw [invoke_eq c hlogin, ask]
      split
      · exact Or.inl ⟨rfl, rfl, fun f hf => Or.inl (List.mem_singleton.mp hf)⟩
      · exact Or.inr (hfresh call)
    | true =>
      obtain ⟨account, password, rfl⟩ := Call.eq_login hlogin
      show Idle c (c.login account password) ∨
        ∃ callback, Saves c (c.login account password) callback ∧ _
      rw [login]
      split
      · exact Or.inr (hfresh _)
      · split
        · exact Or.inl ⟨rfl, rfl, fun f hf => Or.inr (List.mem_singleton.mp hf)⟩
        · exact Or.inl (idle_nil rfl rfl)
  | connectDone ok =>
    cases hw : c.waiting with
    | none =>
      refine Or.inl ?_
      show Idle c (c.connectDone ok)
      rw [connectDone, hw]
      exact idle_nil rfl rfl
    | some w => exact Or.inr ⟨_, saves_connectDone hw ok, (h.waits w hw).2⟩
  | channelInactive =>
    refine Or.inl ?_
    show Idle c c.channelInactive
    rw [MonsysConnection.channelInactive]
    split
    · exact idle_nil rfl rfl
    · exact idle_nil rfl rfl

/-- What `Led` is about, and the login that waits may have had its turn. -/
theorem Led.of_eq {c' : MonsysConnection} (h : c.Led) (hroutes : c'.mRouteMap = c.mRouteMap)
    (hpromises : c'.promises = c.promises) (hwaiting : c'.waiting = none ∨ c'.waiting = c.waiting) :
    c'.Led where
  items := by
    rw [hroutes, hpromises]
    exact h.items
  apart := by
    rw [hroutes]
    exact h.apart
  waits := by
    intro w hw
    rw [hroutes, hpromises]
    rcases hwaiting with hnone | hsame
    · rw [hnone] at hw
      cases hw
    · exact h.waits w (hsame ▸ hw)

/-- What `Told` is about. -/
theorem Told.of_eq {c' : MonsysConnection} (h : c.Told) (hstate : c'.mState = c.mState)
    (hlife : c'.life = c.life) (hpromises : c'.promises = c.promises) : c'.Told where
  active := by
    rw [hstate, hlife]
    exact h.active
  loggedIn := by
    rw [hstate, hlife, LoginAnswered, hpromises]
    exact h.loggedIn
  silent := by
    rw [hlife, hpromises]
    exact h.silent

theorem loginAnswered_newPromise (c : MonsysConnection) (call : Call) :
    (c.newPromise call).LoginAnswered ↔ c.LoginAnswered := by
  constructor
  · rintro ⟨q, hq, hlogin, hcode⟩
    rcases List.mem_append.mp hq with hq | hq
    · exact ⟨q, hq, hlogin, hcode⟩
    · rw [List.mem_singleton.mp hq] at hcode
      cases hcode
  · rintro ⟨q, hq, hlogin, hcode⟩
    exact ⟨q, List.mem_append_left _ hq, hlogin, hcode⟩

theorem Told.newPromise (h : c.Told) (call : Call) : (c.newPromise call).Told where
  active := h.active
  loggedIn := by
    rw [loginAnswered_newPromise]
    exact h.loggedIn
  silent := by
    intro hlife q hq
    rcases List.mem_append.mp hq with hq | hq
    · exact h.silent hlife q hq
    · rw [List.mem_singleton.mp hq]

theorem Orderly.fresh (h : c.Orderly) (call : Call) :
    ((c.newPromise call).request call c.promises.length).1.Orderly where
  led := h.led.fresh call
  told := (h.told.newPromise call).of_eq (by rw [request_eq]) (by rw [request_eq])
    (by rw [request_eq])

theorem Orderly.invoke (h : c.Orderly) (call : Call) : (c.invoke call).1.Orderly := by
  cases hlogin : call.isLogin with
  | false =>
    rw [invoke_eq c hlogin, ask]
    split
    · exact h
    · exact h.fresh call
  | true =>
    obtain ⟨account, password, rfl⟩ := Call.eq_login hlogin
    show (c.login account password).1.Orderly
    rw [login]
    split
    · exact h.fresh (.login account password)
    · next hlife =>
      split
      · exact h
      · have hled := h.led.newPromise (.login account password)
        have htold := h.told.newPromise (.login account password)
        constructor
        · refine ⟨hled.items, hled.apart, fun w hw => ?_⟩
          cases hw
          exact ⟨newPromise_getElem? c _, fun s item hs => Nat.ne_of_lt (h.led.promise_lt hs)⟩
        · -- the channel is not active before, nor does this make it so
          have hidle : (if c.life = .fresh then Life.connecting else c.life) ≠ .active := by
            split
            · exact fun h => by cases h
            · exact hlife
          constructor
          · show c.mState ≠ .disconnected ↔ _
            rw [h.told.active]
            exact iff_of_false hlife hidle
          · show c.mState = .loggedIn ↔ _
            rw [h.told.loggedIn]
            exact iff_of_false (fun hin => hlife hin.1) fun hin => hidle hin.1
          · intro hquiet q hq
            refine htold.silent ?_ q hq
            show c.life = .fresh ∨ c.life = .connecting
            dsimp only at hquiet
            split at hquiet
            · next hfresh => exact Or.inl hfresh
            · exact hquiet

theorem Orderly.channelInactive (h : c.Orderly) : c.channelInactive.1.Orderly := by
  rw [MonsysConnection.channelInactive]
  split
  · refine ⟨h.led.of_eq rfl rfl (Or.inr rfl), ?_, ?_, ?_⟩
    · exact iff_of_false (fun hne => hne rfl) fun hlife => by cases hlife
    · exact iff_of_false (fun hstate => by cases hstate) fun hlife => by cases hlife.1
    · intro hlife
      rcases hlife with hlife | hlife <;> cases hlife
  · exact h

/-- The login that waits has its turn. -/
theorem Led.turn (h : c.Led) (c' : MonsysConnection) {w : Waiting} (hw : c.waiting = some w)
    (hroutes : c'.mRouteMap = c.mRouteMap) (hpromises : c'.promises = c.promises)
    (hwaiting : c'.waiting = none) : (c'.innerLogin w.account w.password w.promise).1.Led := by
  obtain ⟨hp, hother⟩ := h.waits w hw
  refine Led.request (h.of_eq hroutes hpromises (Or.inl hwaiting)) (hpromises ▸ hp) ?_ ?_
  · rw [hroutes]
    exact hother
  · rw [hwaiting]
    intro w hw
    cases hw

theorem Orderly.connectDone (h : c.Orderly) (ok : Bool) : (c.connectDone ok).1.Orderly := by
  rw [MonsysConnection.connectDone]
  split
  · exact h
  · next w hw =>
    dsimp only
    split
    · next hlife =>
      have hstate : c.mState = .disconnected := by
        by_contra hne
        have hactive := h.told.active.mp hne
        rw [hlife] at hactive
        cases hactive
      have hsilent := h.told.silent (Or.inr hlife)
      have hunanswered : ¬ c.LoginAnswered := by
        rintro ⟨q, hq, -, hcode⟩
        rw [hsilent q hq] at hcode
        cases hcode
      cases ok with
      | true =>
        rw [if_pos rfl]
        have hled := h.led.turn { c with waiting := none, life := .active } hw rfl rfl rfl
        rw [innerLogin, request_eq] at hled ⊢
        refine ⟨hled.of_eq rfl rfl (Or.inr rfl), ?_, ?_, ?_⟩
        · exact iff_of_true (fun h => by cases h) rfl
        · exact iff_of_false (fun h => by cases h) fun hin => hunanswered hin.2
        · intro hlife
          rcases hlife with hlife | hlife <;> cases hlife
      | false =>
        rw [if_neg Bool.false_ne_true]
        have hled := h.led.turn { c with waiting := none, life := .closed } hw rfl rfl rfl
        rw [innerLogin, request_eq] at hled ⊢
        refine ⟨hled.of_eq rfl rfl (Or.inr rfl), ?_, ?_, ?_⟩
        · exact iff_of_false (fun hne => hne hstate) fun hlife => by cases hlife
        · refine iff_of_false (fun hin => ?_) fun hin => by cases hin.1
          dsimp only at hin
          rw [hstate] at hin
          cases hin
        · intro hlife
          rcases hlife with hlife | hlife <;> cases hlife
    · refine ⟨h.led.turn _ hw rfl rfl rfl, h.told.of_eq ?_ ?_ ?_⟩ <;> rw [innerLogin, request_eq]

theorem Orderly.act (h : c.Orderly) (a : Act) : (c.act a).1.Orderly := by
  cases a with
  | invoke call => exact h.invoke call
  | connectDone ok => exact h.connectDone ok
  | channelInactive => exact h.channelInactive

/-! ## Messages -/

/-- A message whose number has a route takes it out and completes the promise. -/
theorem Led.onResponse (h : c.Led) {msg : PushMsg} {item : RouteItem}
    (hitem : c.mRouteMap msg.sequence = some item) :
    c.onResponse msg =
      ({ c with
          mRouteMap := Function.update c.mRouteMap msg.sequence none
          mState := if item.callback.call.isLogin ∧ item.callback.call.outcome msg = .code 0
            then .loggedIn else c.mState
          promises := c.promises.set item.callback.promise
            ⟨item.callback.call, some (item.callback.call.outcome msg)⟩ }, []) := by
  have hp := (h.items _ _ hitem).2
  simp only [MonsysConnection.onResponse, hitem, onCallback]
  by_cases hcond : item.callback.call.isLogin ∧ item.callback.call.outcome msg = .code 0
  · rw [if_pos hcond, if_pos hcond]
    simp only [complete, hp]
  · rw [if_neg hcond, if_neg hcond]
    simp only [complete, hp]

theorem onResponse_none {msg : PushMsg} (h : c.mRouteMap msg.sequence = none) :
    c.onResponse msg = (c, []) := by
  simp only [onResponse, h]

/-- A message gives out no number and saves no route. -/
theorem Led.channelRead0_routes (h : c.Led) (msg : PushMsg) :
    (c.channelRead0 msg).1.mIdGenerator = c.mIdGenerator ∧
      ∀ s item, (c.channelRead0 msg).1.mRouteMap s = some item → c.mRouteMap s = some item := by
  rw [channelRead0]
  split
  · cases hitem : c.mRouteMap msg.sequence with
    | none =>
      rw [onResponse_none hitem]
      exact ⟨rfl, fun _ _ hs => hs⟩
    | some item =>
      rw [h.onResponse hitem]
      refine ⟨rfl, fun s other hs => ?_⟩
      dsimp only at hs
      rw [Function.update_apply] at hs
      split at hs
      · cases hs
      · exact hs
  · exact ⟨rfl, fun _ _ hs => hs⟩

/-- What becomes of the promises, if one that waits is completed. -/
theorem loginAnswered_set {promise : Nat} {call : Call} {outcome : Outcome} {c' : MonsysConnection}
    (h : c.promises[promise]? = some { call := call })
    (hpromises : c'.promises = c.promises.set promise ⟨call, some outcome⟩) :
    c'.LoginAnswered ↔ c.LoginAnswered ∨ (call.isLogin = true ∧ outcome = .code 0) := by
  obtain ⟨hlt, hget⟩ := List.getElem?_eq_some_iff.mp h
  rw [LoginAnswered, hpromises]
  constructor
  · rintro ⟨q, hq, hlogin, hcode⟩
    rcases List.mem_or_eq_of_mem_set hq with hq | rfl
    · exact Or.inl ⟨q, hq, hlogin, hcode⟩
    · exact Or.inr ⟨hlogin, Option.some.inj hcode⟩
  · rintro (⟨q, hq, hlogin, hcode⟩ | ⟨hlogin, rfl⟩)
    · obtain ⟨i, hi, rfl⟩ := List.mem_iff_getElem.mp hq
      have hne : promise ≠ i := by
        rintro rfl
        rw [hget] at hcode
        cases hcode
      refine ⟨c.promises[i], ?_, hlogin, hcode⟩
      rw [List.mem_iff_getElem?]
      exact ⟨i, by rw [List.getElem?_set_ne hne, List.getElem?_eq_getElem hi]⟩
    · exact ⟨_, List.mem_set hlt _, hlogin, rfl⟩

theorem Orderly.onResponse (h : c.Orderly) (hlife : c.life = .active) (msg : PushMsg) :
    (c.onResponse msg).1.Orderly := by
  cases hitem : c.mRouteMap msg.sequence with
  | none =>
    rw [onResponse_none hitem]
    exact h
  | some item =>
    obtain ⟨-, hp⟩ := h.led.items _ _ hitem
    rw [h.led.onResponse hitem]
    refine ⟨⟨fun s other hs => ?_, fun s t a b hs ht hab => ?_, fun w hw => ?_⟩, ?_, ?_, ?_⟩
    · -- the other routes lead to other promises
      dsimp only at hs ⊢
      rw [Function.update_apply] at hs
      split at hs
      · cases hs
      · next hne =>
        have hother : item.callback.promise ≠ other.callback.promise := by
          intro heq
          exact hne (h.led.apart s _ other item hs hitem heq.symm)
        rw [List.getElem?_set_ne hother]
        exact h.led.items s other hs
    · dsimp only at hs ht
      rw [Function.update_apply] at hs ht
      split at hs
      · cases hs
      · split at ht
        · cases ht
        · exact h.led.apart s t a b hs ht hab
    · obtain ⟨hpw, hother⟩ := h.led.waits w hw
      refine ⟨?_, fun s other hs => ?_⟩
      · rw [List.getElem?_set_ne (hother _ _ hitem)]
        exact hpw
      · dsimp only at hs
        rw [Function.update_apply] at hs
        split at hs
        · cases hs
        · exact hother s other hs
    · refine iff_of_true ?_ hlife
      dsimp only
      split
      · exact fun h => by cases h
      · exact h.told.active.mpr hlife
    · rw [loginAnswered_set hp rfl]
      dsimp only
      split
      · next hcond => exact iff_of_true rfl ⟨hlife, Or.inr hcond⟩
      · next hcond =>
        rw [h.told.loggedIn]
        exact and_congr_right fun _ => (or_iff_left hcond).symm
    · intro hquiet
      dsimp only at hquiet
      rw [hlife] at hquiet
      rcases hquiet with hquiet | hquiet <;> cases hquiet

theorem Orderly.channelRead0 (h : c.Orderly) (msg : PushMsg) : (c.channelRead0 msg).1.Orderly := by
  rw [MonsysConnection.channelRead0]
  split
  · next hlife => exact h.onResponse hlife msg
  · exact h

/-- **The invariant holds after every step.** -/
theorem Orderly.step (h : c.Orderly) (e : Event) : (c.step e).Orderly := by
  cases e with
  | act a => exact h.act a
  | read msg => exact h.channelRead0 msg

/-! ## Runs -/

/-- **What becomes of the promises.** `promises`: a promise stays the promise of its call, and keeps
    the outcome that it has.  `ended`: once the channel is closed it stays so, and no promise, old
    or new, is completed any more.  -/
structure Kept (c c' : MonsysConnection) : Prop where
  promises : ∀ (p : Nat) (q : Promise), c.promises[p]? = some q →
    ∃ q' : Promise, c'.promises[p]? = some q' ∧ q'.call = q.call ∧
      ∀ outcome, q.outcome = some outcome → q'.outcome = some outcome
  ended : c.life = .closed → c'.life = .closed ∧ ∀ (p : Nat) (outcome : Outcome) (q : Promise),
    c'.promises[p]? = some q → q.outcome = some outcome → c.promises[p]? = some q

theorem Kept.refl (c : MonsysConnection) : Kept c c where
  promises := fun _ q hq => ⟨q, hq, rfl, fun _ h => h⟩
  ended := fun h => ⟨h, fun _ _ _ hq _ => hq⟩

theorem Kept.trans {c₁ c₂ c₃ : MonsysConnection} (h₁ : Kept c₁ c₂) (h₂ : Kept c₂ c₃) :
    Kept c₁ c₃ where
  promises := by
    intro p q hq
    obtain ⟨q₂, hq₂, hcall₂, hkeep₂⟩ := h₁.promises p q hq
    obtain ⟨q₃, hq₃, hcall₃, hkeep₃⟩ := h₂.promises p q₂ hq₂
    exact ⟨q₃, hq₃, hcall₃.trans hcall₂, fun o ho => hkeep₃ o (hkeep₂ o ho)⟩
  ended := by
    intro hclosed
    obtain ⟨hclosed₂, hold₂⟩ := h₁.ended hclosed
    obtain ⟨hclosed₃, hold₃⟩ := h₂.ended hclosed₂
    exact ⟨hclosed₃, fun p o q hq ho => hold₂ p o q (hold₃ p o q hq ho) ho⟩

/-- A step that may hand out promises, and completes none. -/
theorem Kept.of_new {c' : MonsysConnection} {new : List Promise}
    (hpromises : c'.promises = c.promises ++ new) (hnew : ∀ q ∈ new, q.outcome = none)
    (hlife : c.life = .closed → c'.life = .closed) : Kept c c' where
  promises := by
    intro p q hq
    refine ⟨q, ?_, rfl, fun _ h => h⟩
    rw [hpromises, List.getElem?_append_left (List.getElem?_eq_some_iff.mp hq).1, hq]
  ended := by
    intro hclosed
    refine ⟨hlife hclosed, fun p outcome q hq houtcome => ?_⟩
    rw [hpromises, List.getElem?_append] at hq
    split at hq
    · exact hq
    · rw [hnew q (List.mem_of_getElem? hq)] at houtcome
      cases houtcome

/-- What happens at a connection but for messages completes no promise. -/
theorem act_promises (c : MonsysConnection) (a : Act) :
    ∃ new, (c.act a).1.promises = c.promises ++ new ∧ ∀ q ∈ new, q.outcome = none := by
  have hsame : ∃ new, c.promises = c.promises ++ new ∧ ∀ q ∈ new, q.outcome = none :=
    ⟨[], (List.append_nil _).symm, List.forall_mem_nil _⟩
  have hone : ∀ call, ∃ new, (c.newPromise call).promises = c.promises ++ new ∧
      ∀ q ∈ new, q.outcome = none := by
    intro call
    refine ⟨[{ call := call }], rfl, fun q hq => ?_⟩
    rw [List.mem_singleton.mp hq]
  cases a with
  | invoke call =>
    show ∃ new, (c.invoke call).1.promises = _ ∧ _
    cases hlogin : call.isLogin with
    | false =>
      rw [invoke_eq c hlogin, ask]
      split
      · exact hsame
      · rw [request_eq]
        exact hone call
    | true =>
      obtain ⟨account, password, rfl⟩ := Call.eq_login hlogin
      show ∃ new, (c.login account password).1.promises = _ ∧ _
      rw [login]
      split
      · rw [innerLogin, request_eq]
        exact hone _
      · split
        · exact hsame
        · exact hone _
  | connectDone ok =>
    show ∃ new, (c.connectDone ok).1.promises = _ ∧ _
    rw [connectDone]
    split
    · exact hsame
    · dsimp only
      split
      · split <;> (rw [innerLogin, request_eq]; exact hsame)
      · rw [innerLogin, request_eq]
        exact hsame
  | channelInactive =>
    show ∃ new, c.channelInactive.1.promises = _ ∧ _
    rw [channelInactive]
    split <;> exact hsame

/-- Nor does it open a channel that is closed. -/
theorem act_closed (hlife : c.life = .closed) (a : Act) : (c.act a).1.life = .closed := by
  have hnotactive : c.life ≠ .active := by
    rw [hlife]
    exact fun h => by cases h
  cases a with
  | invoke call =>
    show (c.invoke call).1.life = _
    cases hlogin : call.isLogin with
    | false =>
      rw [invoke_eq c hlogin, ask]
      split
      · exact hlife
      · rw [request_eq]
        exact hlife
    | true =>
      obtain ⟨account, password, rfl⟩ := Call.eq_login hlogin
      show (c.login account password).1.life = _
      rw [login, if_neg hnotactive]
      split
      · exact hlife
      · dsimp only
        rw [hlife]
        rfl
  | connectDone ok =>
    show (c.connectDone ok).1.life = _
    rw [connectDone]
    split
    · exact hlife
    · dsimp only
      rw [if_neg (by rw [hlife]; exact fun h => by cases h), innerLogin, request_eq]
      exact hlife
  | channelInactive =>
    show c.channelInactive.1.life = _
    rw [channelInactive, if_neg hnotactive]
    exact hlife

theorem Orderly.kept (h : c.Orderly) (e : Event) : Kept c (c.step e) := by
  cases e with
  | act a =>
    obtain ⟨new, hpromises, hnew⟩ := act_promises c a
    exact Kept.of_new hpromises hnew fun hlife => act_closed hlife a
  | read msg =>
    show Kept c (c.channelRead0 msg).1
    rw [MonsysConnection.channelRead0]
    split
    · next hlife =>
      cases hitem : c.mRouteMap msg.sequence with
      | none =>
        rw [onResponse_none hitem]
        exact Kept.refl c
      | some item =>
        obtain ⟨-, hp⟩ := h.led.items _ _ hitem
        rw [h.led.onResponse hitem]
        refine ⟨fun p q hq => ?_, fun hclosed => ?_⟩
        · dsimp only
          rcases eq_or_ne item.callback.promise p with rfl | hne
          · -- the promise waited
            rw [hp] at hq
            cases hq
            rw [List.getElem?_set_self (List.getElem?_eq_some_iff.mp hp).1]
            exact ⟨_, rfl, rfl, fun o ho => by cases ho⟩
          · exact ⟨q, by rw [List.getElem?_set_ne hne, hq], rfl, fun _ h => h⟩
        · rw [hlife] at hclosed
          cases hclosed
    · exact Kept.refl c

/-- No step completes a promise that is complete. -/
theorem Orderly.never_twice (h : c.Orderly) (e : Event) :
    .thrown .completeAlready ∉ (c.event e).2 := by
  cases e with
  | act a =>
    show _ ∉ (c.act a).2
    rcases h.led.act_cases a with hidle | ⟨callback, hsaves, -⟩
    · intro hmem
      rcases hidle.thrown _ hmem with heq | heq <;> cases heq
    · rcases hsaves.sent with hout | hout
      · rw [hout]
        exact List.not_mem_nil
      · rw [hout]
        intro hmem
        cases List.mem_singleton.mp hmem
  | read msg =>
    show _ ∉ (c.channelRead0 msg).2
    rw [MonsysConnection.channelRead0]
    split
    · cases hitem : c.mRouteMap msg.sequence with
      | none =>
        rw [onResponse_none hitem]
        exact List.not_mem_nil
      | some item =>
        rw [h.led.onResponse hitem]
        exact List.not_mem_nil
    · exact List.not_mem_nil

/-- A login that waits for the channel, its answer and that of a second request, and the end of the
    channel with a third one open. -/
example :
    let c := [Event.act (.invoke (.login "alice" "secret")), .act (.connectDone true),
      .read { newPushMsg .adminClientLoginRsp 1 with adminClientLoginRsp := some { code := 0 } },
      .act (.invoke .getFgwList), .act (.invoke (.getDevList "gw")),
      .read { newPushMsg .getDevListRsp 3 with getDevListRsp := some { code := 404 } },
      .act .channelInactive].foldl step {}
    c.promises.map Promise.outcome = [some (.code 0), none, some .null] ∧
      c.isLoggedIn = false := by decide

end MonsysConnection

end Monsys.Push
