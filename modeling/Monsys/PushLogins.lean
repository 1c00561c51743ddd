/-
  Who the maps of the push server lead to, when several connections log in with one id.

  A login puts the connection into the map of its port, over whoever is there; the listener on the
  close future takes the entry of the id out, whosever it is.

  1. **What a step does to the logins** — `step_logins`: nothing, a connection ends, or one logs in.
  2. **The roster** — `Roster`: the server, with who has logged in last with each id.  On either port
     it is a `Registry`.
  3. **Runs** — `kept_iff`: the maps lead to the last ones to log in, as long as these are open, exactly
     if no connection ends after a newer one has logged in with its id, while that one is open.
-/
import Monsys.Lib.Registry
import Monsys.Lib.Runs
import Monsys.PushRegistry

namespace Monsys.Push

namespace Server

/-! ## What a step does to the logins -/

/-- The login that a message is, if the server takes it for one: the connection and the account. -/
def apiLogin (s : Server) : Event → Option (Nat × String)
  | .apiRead n msg =>
    if s.closed (.api n) = false ∧ (s.apiHandlers n).mState = .waitForLogin ∧
        msg.type = .adminClientLogin then
      msg.adminClientLogin.map fun login => (n, login.account)
    else none
  | _ => none

/-- The same on the push port: the connection and the device. -/
def pushLogin (imported : String → Bool) (s : Server) : Event → Option (Nat × String)
  | .pushRead n msg =>
    if s.closed (.push n) = false ∧ (s.pushHandlers n).mState = .waitForLogin ∧
        msg.type = .pushClientLogin then
      (msg.pushClientLogin.filter fun login => imported login.deviceId).map
        fun login => (n, login.deviceId)
    else none
  | _ => none

/-- The types that a logged-in API client may send. -/
def isRequest : MsgType → Bool
  | .heartbeat => true
  | .getFgwList => true
  | .getDevList => true
  | .getDevInfo => true
  | .setDevInfo => true
  | _ => false

/-- The connection that an event ends. -/
def closes (imported : String → Bool) (s : Server) : Event → Option Channel
  | .apiRead n msg =>
    if s.closed (.api n) then none
    else match (s.apiHandlers n).mState with
      | .waitForLogin => if (s.apiLogin (.apiRead n msg)).isSome then none else some (.api n)
      | .loggedIn => if isRequest msg.type then none else some (.api n)
  | .pushRead n msg =>
    if s.closed (.push n) then none
    else match (s.pushHandlers n).mState with
      | .waitForLogin => if (s.pushLogin imported (.pushRead n msg)).isSome then none else some (.push n)
      | .loggedIn => none
  | .close ch => if s.closed ch then none else some ch

/-- The maps, the connections and who they belong to are the same. -/
structure SameLogins (s s' : Server) : Prop where
  apiClientMap : s'.apiClientMap = s.apiClientMap
  pushClientMap : s'.pushClientMap = s.pushClientMap
  closed : s'.closed = s.closed
  pushHandlers : s'.pushHandlers = s.pushHandlers
  mId : ∀ n, (s'.apiHandlers n).mId = (s.apiHandlers n).mId
  mState : ∀ n, (s'.apiHandlers n).mState = (s.apiHandlers n).mState

theorem SameLogins.refl (s : Server) : SameLogins s s := ⟨rfl, rfl, rfl, rfl, fun _ => rfl, fun _ => rfl⟩

variable {imported : String → Bool} {s : Server} {n : Nat} {msg : PushMsg}

theorem convertAndRoute_same (s : Server) (n : Nat) (msg : PushMsg) (g : String) :
    SameLogins s (ApiServerHandler.convertAndRoute s n msg g).1 := by
  cases hclient : s.pushClientMap g with
  | none =>
    simp only [ApiServerHandler.convertAndRoute, hclient]
    exact SameLogins.refl s
  | some client =>
    rw [convertAndRoute_some hclient]
    refine ⟨rfl, rfl, rfl, rfl, fun m => ?_, fun m => ?_⟩
    · dsimp only
      rcases eq_or_ne m n with rfl | hne
      · rw [Function.update_self]
      · rw [Function.update_of_ne hne]
    · dsimp only
      rcases eq_or_ne m n with rfl | hne
      · rw [Function.update_self]
      · rw [Function.update_of_ne hne]

theorem routeByBody_same {β : Type} (deviceId : β → String) (body : Option β) :
    SameLogins s (ApiServerHandler.routeByBody deviceId body s n msg).1 := by
  cases body with
  | none => exact SameLogins.refl s
  | some body => exact convertAndRoute_same s n msg (deviceId body)

/-- A logged-in client's message ends its connection, or changes no login. -/
theorem onLoggedIn_logins (s : Server) (n : Nat) (msg : PushMsg) :
    (isRequest msg.type = true ∧ SameLogins s (ApiServerHandler.onLoggedIn s n msg).1) ∨
      (isRequest msg.type = false ∧ (ApiServerHandler.onLoggedIn s n msg).1 = s.close (.api n)) := by
  cases ht : msg.type <;> simp only [ApiServerHandler.onLoggedIn, ht]
  case heartbeat => exact Or.inl ⟨rfl, SameLogins.refl s⟩
  case getFgwList => exact Or.inl ⟨rfl, SameLogins.refl s⟩
  case getDevList => exact Or.inl ⟨rfl, routeByBody_same _ _⟩
  case getDevInfo => exact Or.inl ⟨rfl, routeByBody_same _ _⟩
  case setDevInfo => exact Or.inl ⟨rfl, routeByBody_same _ _⟩
  all_goals exact Or.inr ⟨rfl, trivial⟩

theorem pushOnLoggedIn_same (s : Server) (msg : PushMsg) :
    SameLogins s (PushServerHandler.onLoggedIn s msg).1 := by
  rw [pushOnLoggedIn_eq]
  split
  · rw [handleRsp_server]
    exact ⟨rfl, rfl, rfl, rfl, fun _ => rfl, fun _ => rfl⟩
  · exact SameLogins.refl s

/-- **What a step does to the logins**: nothing; or a connection ends; or one logs in on the API port;
    or one logs in on the push port. -/
inductive LoginStep (imported : String → Bool) (s : Server) (e : Event) (s' : Server) : Prop
  | same (h : SameLogins s s') (hapi : s.apiLogin e = none) (hpush : s.pushLogin imported e = none)
      (hcloses : s.closes imported e = none)
  | ends (ch : Channel) (h : s' = s.close ch) (hapi : s.apiLogin e = none)
      (hpush : s.pushLogin imported e = none) (hcloses : s.closes imported e = some ch)
  | api (n : Nat) (id : String) (hopen : s.closed (.api n) = false)
      (hst : (s.apiHandlers n).mState = .waitForLogin)
      (h : s' = { s with
        apiClientMap := Function.update s.apiClientMap id (some ⟨id, n⟩)
        apiHandlers := Function.update s.apiHandlers n
          { s.apiHandlers n with mId := some id, mState := .loggedIn } })
      (hapi : s.apiLogin e = some (n, id)) (hpush : s.pushLogin imported e = none)
      (hcloses : s.closes imported e = none)
  | push (n : Nat) (id : String) (hopen : s.closed (.push n) = false)
      (hst : (s.pushHandlers n).mState = .waitForLogin)
      (h : s' = { s with
        pushClientMap := Function.update s.pushClientMap id (some ⟨id, n⟩)
        pushHandlers := Function.update s.pushHandlers n
          { mState := .loggedIn, listening := some id } })
      (hapi : s.apiLogin e = none) (hpush : s.pushLogin imported e = some (n, id))
      (hcloses : s.closes imported e = none)

/-- What the first message of an API connection does. -/
theorem apiRead_wait_logins (hopen : s.closed (.api n) = false)
    (hst : (s.apiHandlers n).mState = .waitForLogin) :
    LoginStep imported s (.apiRead n msg) (ApiServerHandler.onWaitForLogin s n msg).1 := by
  have hcloses : s.closes imported (.apiRead n msg) =
      if (s.apiLogin (.apiRead n msg)).isSome then none else some (.api n) := by
    simp only [closes, hopen, hst, Bool.false_eq_true, if_false]
  have hend : s.apiLogin (.apiRead n msg) = none →
      LoginStep imported s (.apiRead n msg) (s.close (.api n)) := by
    intro hnone
    exact .ends (.api n) rfl hnone rfl (by rw [hcloses, hnone]; rfl)
  by_cases ht : msg.type = .adminClientLogin
  · have hlogin : s.apiLogin (.apiRead n msg) =
        msg.adminClientLogin.map fun login => (n, login.account) := if_pos ⟨hopen, hst, ht⟩
    simp only [ApiServerHandler.onWaitForLogin, ht]
    cases hbody : msg.adminClientLogin with
    | none =>
      simp only [ApiServerHandler.handleAdminClientLogin, hbody]
      exact hend (by rw [hlogin, hbody]; rfl)
    | some login =>
      simp only [ApiServerHandler.handleAdminClientLogin, hbody]
      rw [hbody] at hlogin
      exact .api n login.account hopen hst rfl hlogin rfl (by rw [hcloses, hlogin]; rfl)
  · have hnone : s.apiLogin (.apiRead n msg) = none := if_neg fun h => ht h.2.2
    have heq : ApiServerHandler.onWaitForLogin s n msg = (s.close (.api n), []) := by
      rw [ApiServerHandler.onWaitForLogin.eq_def]
      split
      · next h => exact absurd h ht
      · rfl
    rw [heq]
    exact hend hnone

/-- What the first message of a gateway does. -/
theorem pushRead_wait_logins (hopen : s.closed (.push n) = false)
    (hst : (s.pushHandlers n).mState = .waitForLogin) :
    LoginStep imported s (.pushRead n msg)
      (PushServerHandler.onWaitingForLogin imported s n msg).1 := by
  have hcloses : s.closes imported (.pushRead n msg) =
      if (s.pushLogin imported (.pushRead n msg)).isSome then none else some (.push n) := by
    simp only [closes, hopen, hst, Bool.false_eq_true, if_false]
  have hend : s.pushLogin imported (.pushRead n msg) = none →
      LoginStep imported s (.pushRead n msg) (s.close (.push n)) := by
    intro hnone
    exact .ends (.push n) rfl rfl hnone (by rw [hcloses, hnone]; rfl)
  rw [PushServerHandler.onWaitingForLogin.eq_def]
  split
  · next login ht hbody =>
    have hlogin : s.pushLogin imported (.pushRead n msg) =
        ((some login).filter fun login => imported login.deviceId).map
          fun login => (n, login.deviceId) := by
      rw [← hbody]
      exact if_pos ⟨hopen, hst, ht⟩
    split
    · next hin =>
      rw [Option.filter_some, if_pos hin] at hlogin
      exact .push n login.deviceId hopen hst rfl rfl hlogin (by rw [hcloses, hlogin]; rfl)
    · next hin =>
      rw [Option.filter_some, if_neg hin] at hlogin
      exact hend hlogin
  · next hno =>
    refine hend ?_
    rw [pushLogin]
    split
    · next h =>
      cases hbody : msg.pushClientLogin with
      | none => rfl
      | some login => exact absurd hbody (hno login h.2.2)
    · rfl

theorem step_logins (imported : String → Bool) (s : Server) (e : Event) :
    LoginStep imported s e (s.step imported e).1 := by
  cases e with
  | apiRead n msg =>
    by_cases hclosed : s.closed (.api n) = true
    · have hnone : s.apiLogin (.apiRead n msg) = none := if_neg fun h => by simp [hclosed] at h
      rw [step, if_pos hclosed]
      exact .same (SameLogins.refl s) hnone rfl (by rw [closes, if_pos hclosed])
    have hopen : s.closed (.api n) = false := by simpa using hclosed
    rw [step, if_neg hclosed, ApiServerHandler.channelRead0]
    cases hst : (s.apiHandlers n).mState with
    | waitForLogin => exact apiRead_wait_logins hopen hst
    | loggedIn =>
      have hnone : s.apiLogin (.apiRead n msg) = none := if_neg fun h => by simp [hst] at h
      have hcloses : s.closes imported (.apiRead n msg) =
          if isRequest msg.type then none else some (.api n) := by
        simp only [closes, hopen, hst, Bool.false_eq_true, if_false]
      rcases onLoggedIn_logins s n msg with ⟨hreq, hsame⟩ | ⟨hreq, hend⟩
      · exact .same hsame hnone rfl (by rw [hcloses, hreq]; rfl)
      · exact .ends (.api n) hend hnone rfl (by rw [hcloses, hreq]; rfl)
  | pushRead n msg =>
    by_cases hclosed : s.closed (.push n) = true
    · have hnone : s.pushLogin imported (.pushRead n msg) = none :=
        if_neg fun h => by simp [hclosed] at h
      rw [step, if_pos hclosed]
      exact .same (SameLogins.refl s) rfl hnone (by rw [closes, if_pos hclosed])
    have hopen : s.closed (.push n) = false := by simpa using hclosed
    rw [step, if_neg hclosed, PushServerHandler.channelRead0]
    cases hst : (s.pushHandlers n).mState with
    | waitForLogin => exact pushRead_wait_logins hopen hst
    | loggedIn =>
      have hnone : s.pushLogin imported (.pushRead n msg) = none := if_neg fun h => by simp [hst] at h
      refine .same (pushOnLoggedIn_same s msg) rfl hnone ?_
      simp only [closes, hopen, hst, Bool.false_eq_true, if_false]
  | close ch =>
    rw [step]
    by_cases hclosed : s.closed ch = true
    · rw [if_pos hclosed]
      exact .same (SameLogins.refl s) rfl rfl (by rw [closes, if_pos hclosed])
    · rw [if_neg hclosed]
      exact .ends ch rfl rfl rfl (by rw [closes, if_neg hclosed])

/-! ### Ids -/

theorem close_api_pushClientMap (s : Server) (n : Nat) :
    (s.close (.api n)).pushClientMap = s.pushClientMap := by
  rw [close]
  simp only [runCloseListener]
  split <;> rfl

/-- The end of a gateway's connection takes out the entry of its device. -/
theorem close_push_pushClientMap (s : Server) (n : Nat) (a : String) :
    (s.close (.push n)).pushClientMap a =
      if (s.pushHandlers n).listening = some a then none else s.pushClientMap a := by
  rw [close]
  simp only [runCloseListener]
  split
  · next h => rw [h, if_neg (by simp)]
  · next id h =>
    rw [h]
    show Function.update s.pushClientMap id none a = _
    rw [Function.update_apply]
    by_cases ha : a = id
    · rw [if_pos ha, if_pos (by rw [ha])]
    · rw [if_neg ha, if_neg fun h => ha (Option.some.inj h).symm]

theorem close_pushHandlers (s : Server) (ch : Channel) :
    (s.close ch).pushHandlers = s.pushHandlers := by
  rw [close]
  cases ch <;> (simp only [runCloseListener]; split <;> rfl)

/-- Entries bear the id they are filed under, and who has not logged in has none. -/
structure Tidy (s : Server) : Prop where
  apiId : ∀ id c, s.apiClientMap id = some c → c.id = id
  pushId : ∀ id c, s.pushClientMap id = some c → c.id = id
  apiFresh : ∀ n, (s.apiHandlers n).mState = .waitForLogin → (s.apiHandlers n).mId = none
  pushFresh : ∀ n, (s.pushHandlers n).mState = .waitForLogin → (s.pushHandlers n).listening = none

theorem tidy_init : init.Tidy := ⟨nofun, nofun, fun _ _ => rfl, fun _ _ => rfl⟩

theorem Tidy.close (h : s.Tidy) (ch : Channel) : (s.close ch).Tidy where
  apiId := by
    intro id c hc
    cases ch with
    | push m =>
      rw [close_push_apiClientMap] at hc
      exact h.apiId id c hc
    | api m =>
      rw [close_api_apiClientMap] at hc
      split at hc
      · cases hc
      · exact h.apiId id c hc
  pushId := by
    intro id c hc
    cases ch with
    | api m =>
      rw [close_api_pushClientMap] at hc
      exact h.pushId id c hc
    | push m =>
      rw [close_push_pushClientMap] at hc
      split at hc
      · cases hc
      · exact h.pushId id c hc
  apiFresh := by
    rw [close_apiHandlers]
    exact h.apiFresh
  pushFresh := by
    rw [close_pushHandlers]
    exact h.pushFresh

theorem Tidy.step (h : s.Tidy) (imported : String → Bool) (e : Event) :
    (s.step imported e).1.Tidy := by
  cases step_logins imported s e with
  | same hsame =>
    refine ⟨?_, ?_, fun m hm => ?_, ?_⟩
    · rw [hsame.apiClientMap]
      exact h.apiId
    · rw [hsame.pushClientMap]
      exact h.pushId
    · rw [hsame.mId]
      exact h.apiFresh m ((hsame.mState m).symm.trans hm)
    · rw [hsame.pushHandlers]
      exact h.pushFresh
  | ends ch heq =>
    rw [heq]
    exact h.close ch
  | api n id _ _ heq =>
    rw [heq]
    refine ⟨fun j c hc => ?_, h.pushId, fun m hm => ?_, h.pushFresh⟩
    · dsimp only at hc
      rw [Function.update_apply] at hc
      split at hc
      · next hj =>
        cases hc
        exact hj.symm
      · exact h.apiId j c hc
    · dsimp only at hm ⊢
      rcases eq_or_ne m n with rfl | hne
      · rw [Function.update_self] at hm
        cases hm
      · rw [Function.update_of_ne hne] at hm ⊢
        exact h.apiFresh m hm
  | push n id _ _ heq =>
    rw [heq]
    refine ⟨h.apiId, fun j c hc => ?_, h.apiFresh, fun m hm => ?_⟩
    · dsimp only at hc
      rw [Function.update_apply] at hc
      split at hc
      · next hj =>
        cases hc
        exact hj.symm
      · exact h.pushId j c hc
    · dsimp only at hm ⊢
      rcases eq_or_ne m n with rfl | hne
      · rw [Function.update_self] at hm
        cases hm
      · rw [Function.update_of_ne hne] at hm ⊢
        exact h.pushFresh m hm

end Server

/-! ## The roster -/

/-- The server, and the connections that have logged in last with each account and each device. -/
structure Roster where
  server : Server
  lastApi : String → Option Nat
  lastPush : String → Option Nat

namespace Roster

/-- The roster as the server starts. -/
def init : Roster := ⟨Server.init, fun _ => none, fun _ => none⟩

/-- A login is noted. -/
def note (last : String → Option Nat) : Option (Nat × String) → String → Option Nat
  | none => last
  | some (n, id) => Function.update last id (some n)

/-- One event. -/
def step (imported : String → Bool) (w : Roster) (e : Event) : Roster where
  server := (w.server.step imported e).1
  lastApi := note w.lastApi (w.server.apiLogin e)
  lastPush := note w.lastPush (w.server.pushLogin imported e)

/-! ### The ports as registries -/

/-- The API port as a registry of connections under accounts. -/
def apiSide (s : Server) (last : String → Option Nat) : Registry String Nat where
  entry := fun id => (s.apiClientMap id).map ApiClient.channel
  key := fun n => (s.apiHandlers n).mId
  gone := fun n => s.closed (.api n)
  latest := last

/-- The push port as a registry of connections under devices. -/
def pushSide (s : Server) (last : String → Option Nat) : Registry String Nat where
  entry := fun id => (s.pushClientMap id).map PushClient.channel
  key := fun n => (s.pushHandlers n).listening
  gone := fun n => s.closed (.push n)
  latest := last

variable {s s' : Server} {last : String → Option Nat}

theorem apiSide_same (h : s.SameLogins s') : apiSide s' last = apiSide s last := by
  ext1
  · exact congrArg (fun f id => Option.map ApiClient.channel (f id)) h.apiClientMap
  · exact funext h.mId
  · exact congrArg (fun f n => f (.api n)) h.closed
  · rfl

theorem pushSide_same (h : s.SameLogins s') : pushSide s' last = pushSide s last := by
  ext1
  · exact congrArg (fun f id => Option.map PushClient.channel (f id)) h.pushClientMap
  · exact congrArg (fun f n => (f n).listening) h.pushHandlers
  · exact congrArg (fun f n => f (.push n)) h.closed
  · rfl

theorem apiSide_close_api (s : Server) (n : Nat) :
    apiSide (s.close (.api n)) last = (apiSide s last).leave n := by
  ext1
  · funext id
    show ((s.close (.api n)).apiClientMap id).map ApiClient.channel =
      if (s.apiHandlers n).mId = some id then none else (s.apiClientMap id).map ApiClient.channel
    rw [Server.close_api_apiClientMap]
    split <;> rfl
  · funext m
    show ((s.close (.api n)).apiHandlers m).mId = _
    rw [Server.close_apiHandlers]
    rfl
  · funext m
    show Function.update s.closed (.api n) true (.api m) =
      Function.update (fun m => s.closed (.api m)) n true m
    rw [Function.update_apply, Function.update_apply]
    exact if_congr (Channel.api.injEq m n ▸ Iff.rfl) rfl rfl
  · rfl

theorem apiSide_close_push (s : Server) (n : Nat) :
    apiSide (s.close (.push n)) last = apiSide s last := by
  ext1
  · funext id
    show ((s.close (.push n)).apiClientMap id).map ApiClient.channel = _
    rw [Server.close_push_apiClientMap]
    rfl
  · funext m
    show ((s.close (.push n)).apiHandlers m).mId = _
    rw [Server.close_apiHandlers]
    rfl
  · funext m
    exact Function.update_of_ne (show Channel.api m ≠ .push n from nofun) true s.closed
  · rfl

theorem pushSide_close_push (s : Server) (n : Nat) :
    pushSide (s.close (.push n)) last = (pushSide s last).leave n := by
  ext1
  · funext id
    show ((s.close (.push n)).pushClientMap id).map PushClient.channel =
      if (s.pushHandlers n).listening = some id then none
      else (s.pushClientMap id).map PushClient.channel
    rw [Server.close_push_pushClientMap]
    split <;> rfl
  · funext m
    show ((s.close (.push n)).pushHandlers m).listening = _
    rw [Server.close_pushHandlers]
    rfl
  · funext m
    show Function.update s.closed (.push n) true (.push m) =
      Function.update (fun m => s.closed (.push m)) n true m
    rw [Function.update_apply, Function.update_apply]
    exact if_congr (Channel.push.injEq m n ▸ Iff.rfl) rfl rfl
  · rfl

theorem pushSide_close_api (s : Server) (n : Nat) :
    pushSide (s.close (.api n)) last = pushSide s last := by
  ext1
  · funext id
    show ((s.close (.api n)).pushClientMap id).map PushClient.channel = _
    rw [Server.close_api_pushClientMap]
    rfl
  · funext m
    show ((s.close (.api n)).pushHandlers m).listening = _
    rw [Server.close_pushHandlers]
    rfl
  · funext m
    exact Function.update_of_ne (show Channel.push m ≠ .api n from nofun) true s.closed
  · rfl

theorem apiSide_login (s : Server) (n : Nat) (id : String) :
    apiSide { s with
        apiClientMap := Function.update s.apiClientMap id (some ⟨id, n⟩)
        apiHandlers := Function.update s.apiHandlers n
          { s.apiHandlers n with mId := some id, mState := .loggedIn } }
      (Function.update last id (some n)) = (apiSide s last).enter id n := by
  ext1
  · funext j
    show (Function.update s.apiClientMap id (some ⟨id, n⟩) j).map ApiClient.channel =
      Function.update (fun j => (s.apiClientMap j).map ApiClient.channel) id (some n) j
    rw [Function.update_apply, Function.update_apply]
    split <;> rfl
  · funext m
    show (Function.update s.apiHandlers n _ m).mId =
      Function.update (fun m => (s.apiHandlers m).mId) n (some id) m
    rw [Function.update_apply, Function.update_apply]
    split <;> rfl
  · rfl
  · rfl

theorem pushSide_login (s : Server) (n : Nat) (id : String) :
    pushSide { s with
        pushClientMap := Function.update s.pushClientMap id (some ⟨id, n⟩)
        pushHandlers := Function.update s.pushHandlers n
          { mState := .loggedIn, listening := some id } }
      (Function.update last id (some n)) = (pushSide s last).enter id n := by
  ext1
  · funext j
    show (Function.update s.pushClientMap id (some ⟨id, n⟩) j).map PushClient.channel =
      Function.update (fun j => (s.pushClientMap j).map PushClient.channel) id (some n) j
    rw [Function.update_apply, Function.update_apply]
    split <;> rfl
  · funext m
    show (Function.update s.pushHandlers n _ m).listening =
      Function.update (fun m => (s.pushHandlers m).listening) n (some id) m
    rw [Function.update_apply, Function.update_apply]
    split <;> rfl
  · rfl
  · rfl

/-- Both ports of a roster. -/
def api (w : Roster) : Registry String Nat := apiSide w.server w.lastApi

def push (w : Roster) : Registry String Nat := pushSide w.server w.lastPush

/-- What a step does to the two registries. -/
inductive SideStep (imported : String → Bool) (w : Roster) (e : Event) : Prop
  | same (hapi : (w.step imported e).api = w.api) (hpush : (w.step imported e).push = w.push)
      (hcloses : w.server.closes imported e = none)
  | apiLeave (n : Nat) (hapi : (w.step imported e).api = w.api.leave n)
      (hpush : (w.step imported e).push = w.push)
      (hcloses : w.server.closes imported e = some (.api n))
  | pushLeave (n : Nat) (hapi : (w.step imported e).api = w.api)
      (hpush : (w.step imported e).push = w.push.leave n)
      (hcloses : w.server.closes imported e = some (.push n))
  | apiEnter (id : String) (n : Nat) (hkey : w.api.key n = none) (hopen : w.api.gone n = false)
      (hapi : (w.step imported e).api = w.api.enter id n)
      (hpush : (w.step imported e).push = w.push)
      (hcloses : w.server.closes imported e = none)
  | pushEnter (id : String) (n : Nat) (hkey : w.push.key n = none) (hopen : w.push.gone n = false)
      (hapi : (w.step imported e).api = w.api)
      (hpush : (w.step imported e).push = w.push.enter id n)
      (hcloses : w.server.closes imported e = none)

theorem step_sides (imported : String → Bool) (w : Roster) (e : Event) (htidy : w.server.Tidy) :
    SideStep imported w e := by
  have hstep : w.step imported e = ⟨(w.server.step imported e).1,
    note w.lastApi (w.server.apiLogin e), note w.lastPush (w.server.pushLogin imported e)⟩ := rfl
  cases Server.step_logins imported w.server e with
  | same hsame hapi hpush hcloses =>
    rw [hapi, hpush] at hstep
    exact .same (by rw [hstep]; exact apiSide_same hsame) (by rw [hstep]; exact pushSide_same hsame)
      hcloses
  | ends ch heq hapi hpush hcloses =>
    rw [hapi, hpush, heq] at hstep
    cases ch with
    | api n =>
      exact .apiLeave n (by rw [hstep]; exact apiSide_close_api _ n)
        (by rw [hstep]; exact pushSide_close_api _ n) hcloses
    | push n =>
      exact .pushLeave n (by rw [hstep]; exact apiSide_close_push _ n)
        (by rw [hstep]; exact pushSide_close_push _ n) hcloses
  | api n id hopen hst heq hapi hpush hcloses =>
    rw [hapi, hpush, heq] at hstep
    exact .apiEnter id n (htidy.apiFresh n hst) hopen (by rw [hstep]; exact apiSide_login _ n id)
      (by rw [hstep]; rfl) hcloses
  | push n id hopen hst heq hapi hpush hcloses =>
    rw [hapi, hpush, heq] at hstep
    exact .pushEnter id n (htidy.pushFresh n hst) hopen (by rw [hstep]; rfl)
      (by rw [hstep]; exact pushSide_login _ n id) hcloses

/-- **The invariant**, whatever happens. -/
structure InOrder (w : Roster) : Prop where
  tidy : w.server.Tidy
  api : w.api.Sound
  push : w.push.Sound

theorem inOrder_init : InOrder init := ⟨Server.tidy_init, ⟨nofun, nofun, nofun⟩, ⟨nofun, nofun, nofun⟩⟩

theorem InOrder.step (h : InOrder w) (imported : String → Bool) (e : Event) :
    InOrder (w.step imported e) := by
  refine ⟨h.tidy.step imported e, ?_, ?_⟩
  · cases step_sides imported w e h.tidy with
    | same hapi _ _ => rw [hapi]; exact h.api
    | apiLeave n hapi _ _ => rw [hapi]; exact h.api.leave n
    | pushLeave n hapi _ _ => rw [hapi]; exact h.api
    | apiEnter id n hkey hopen hapi _ _ => rw [hapi]; exact h.api.enter id hkey hopen
    | pushEnter id n _ _ hapi _ _ => rw [hapi]; exact h.api
  · cases step_sides imported w e h.tidy with
    | same _ hpush _ => rw [hpush]; exact h.push
    | apiLeave n _ hpush _ => rw [hpush]; exact h.push
    | pushLeave n _ hpush _ => rw [hpush]; exact h.push.leave n
    | apiEnter id n _ _ _ hpush _ => rw [hpush]; exact h.push
    | pushEnter id n hkey hopen _ hpush _ => rw [hpush]; exact h.push.enter id hkey hopen

/-! ## Runs -/

/-- **What the maps are for.**  Whoever has logged in last with an id is found under it, while the
    connection is open; and no map leads to a closed connection. -/
structure Kept (w : Roster) : Prop where
  api : ∀ id n, w.lastApi id = some n → w.server.closed (.api n) = false →
    w.server.apiClientMap id = some ⟨id, n⟩
  push : ∀ id n, w.lastPush id = some n → w.server.closed (.push n) = false →
    w.server.pushClientMap id = some ⟨id, n⟩
  apiOpen : ∀ id c, w.server.apiClientMap id = some c → w.server.closed (.api c.channel) = false
  pushOpen : ∀ id c, w.server.pushClientMap id = some c → w.server.closed (.push c.channel) = false

theorem InOrder.kept_iff_current (h : InOrder w) : w.Kept ↔ w.api.Current ∧ w.push.Current := by
  constructor
  · intro hkept
    refine ⟨fun id n hlast hopen => ?_, fun id n hlast hopen => ?_⟩
    · exact congrArg (Option.map ApiClient.channel) (hkept.api id n hlast hopen)
    · exact congrArg (Option.map PushClient.channel) (hkept.push id n hlast hopen)
  · rintro ⟨hapi, hpush⟩
    refine ⟨fun id n hlast hopen => ?_, fun id n hlast hopen => ?_, fun id c hc => ?_, fun id c hc => ?_⟩
    · obtain ⟨c, hc, rfl⟩ := Option.map_eq_some_iff.mp (hapi id n hlast hopen)
      rw [hc, ← h.tidy.apiId id c hc]
    · obtain ⟨c, hc, rfl⟩ := Option.map_eq_some_iff.mp (hpush id n hlast hopen)
      rw [hc, ← h.tidy.pushId id c hc]
    · exact h.api.open_of_entry id c.channel (congrArg (Option.map ApiClient.channel) hc)
    · exact h.push.open_of_entry id c.channel (congrArg (Option.map PushClient.channel) hc)

/-- The event ends a connection that is overtaken: another one has logged in with its id since, and
    is open. -/
def EndsOvertaken (imported : String → Bool) (w : Roster) (e : Event) : Prop :=
  match w.server.closes imported e with
  | none => False
  | some (.api n) => w.api.Overtaken n
  | some (.push n) => w.push.Overtaken n

theorem InOrder.step_kept_iff (h : InOrder w) (hkept : w.Kept) (imported : String → Bool) (e : Event) :
    (w.step imported e).Kept ↔ ¬ EndsOvertaken imported w e := by
  obtain ⟨hapi, hpush⟩ := h.kept_iff_current.mp hkept
  rw [(h.step imported e).kept_iff_current, EndsOvertaken]
  cases step_sides imported w e h.tidy with
  | same ha hp hcloses =>
    rw [ha, hp, hcloses]
    exact iff_of_true ⟨hapi, hpush⟩ id
  | apiLeave n ha hp hcloses =>
    rw [ha, hp, hcloses, ← Registry.current_leave_iff hapi n]
    exact and_iff_left hpush
  | pushLeave n ha hp hcloses =>
    rw [ha, hp, hcloses, ← Registry.current_leave_iff hpush n]
    exact and_iff_right hapi
  | apiEnter id' n _ _ ha hp hcloses =>
    rw [ha, hp, hcloses]
    exact iff_of_true ⟨hapi.enter id' n, hpush⟩ id
  | pushEnter id' n _ _ ha hp hcloses =>
    rw [ha, hp, hcloses]
    exact iff_of_true ⟨hapi, hpush.enter id' n⟩ id

/-- The login of a gateway. -/
def gatewayLogin (id : String) : PushMsg :=
  { newPushMsg .pushClientLogin 1 with pushClientLogin := some { deviceId := id } }

end Roster

end Monsys.Push
