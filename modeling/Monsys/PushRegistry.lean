/-
  Who is logged in: the maps of the push server, and its API connections, under a step.

  1. **Frames** — what closing a connection, handing a request on and answering one do to the maps.
  2. **The API client map** — `Registered`: every entry is an open connection that logged in with
     that account.  Every step keeps it (`Registered.step`).
  3. **Logins** — `LoggedBy`: who is logged in has sent a login.
-/
import Monsys.PushServer

namespace Monsys.Push

/-! ## Frames -/


namespace Server

variable {s : Server} {n : Nat} {msg : PushMsg}

@[simp] theorem close_routeMap (s : Server) (ch : Channel) : (s.close ch).routeMap = s.routeMap := by
  rw [close]
  cases ch <;> (simp only [runCloseListener]; split <;> rfl)

@[simp] theorem close_apiHandlers (s : Server) (ch : Channel) :
    (s.close ch).apiHandlers = s.apiHandlers := by
  rw [close]
  cases ch <;> (simp only [runCloseListener]; split <;> rfl)

theorem step_close_apiHandlers (imported : String → Bool) (s : Server) (ch : Channel) :
    (s.step imported (.close ch)).1.apiHandlers = s.apiHandlers := by
  rw [step]
  split
  · rfl
  · exact close_apiHandlers s ch

@[simp] theorem close_closed (s : Server) (ch : Channel) :
    (s.close ch).closed = Function.update s.closed ch true := rfl

theorem close_push_apiClientMap (s : Server) (n : Nat) :
    (s.close (.push n)).apiClientMap = s.apiClientMap := by
  rw [close]
  simp only [runCloseListener]
  split <;> rfl

/-- The end of an API connection takes out the entry of its account. -/
theorem close_api_apiClientMap (s : Server) (n : Nat) (a : String) :
    (s.close (.api n)).apiClientMap a =
      if (s.apiHandlers n).mId = some a then none else s.apiClientMap a := by
  rw [close]
  simp only [runCloseListener]
  split
  · next h => rw [h, if_neg (by simp)]
  · next id h =>
    rw [h]
    show Function.update s.apiClientMap id none a = _
    rw [Function.update_apply]
    by_cases ha : a = id
    · rw [if_pos ha, if_pos (by rw [ha])]
    · rw [if_neg ha, if_neg fun h => ha (Option.some.inj h).symm]

/-- `convertAndRoute`, for a gateway that is there. -/
theorem convertAndRoute_some {g : String} {client : PushClient}
    (h : s.pushClientMap g = some client) :
    ApiServerHandler.convertAndRoute s n msg g =
      ({ s with
          routeMap := Function.update s.routeMap (s.apiHandlers n).mIdGenerator.next.1
            (some ⟨(s.apiHandlers n).mIdGenerator.next.1, msg.sequence, (s.apiHandlers n).mId⟩)
          apiHandlers := Function.update s.apiHandlers n
            { s.apiHandlers n with mIdGenerator := (s.apiHandlers n).mIdGenerator.next.2 } },
        [(.push client.channel, { msg with sequence := (s.apiHandlers n).mIdGenerator.next.1 })]) := by
  simp only [ApiServerHandler.convertAndRoute, h]

/-- `handleRsp` takes the record out, if there is one, and touches nothing else. -/
theorem handleRsp_server (s : Server) (msg : PushMsg) :
    (PushServerHandler.handleRsp s msg).1 =
      { s with routeMap := Function.update s.routeMap msg.sequence none } := by
  rw [PushServerHandler.handleRsp]
  split
  · next h => rw [← h, Function.update_eq_self]
  · dsimp only
    split <;> rfl

/-- What `handleRsp` writes: the answer, under the client's own number, to the client of the record. -/
theorem mem_handleRsp {w : Write} :
    w ∈ (PushServerHandler.handleRsp s msg).2 ↔
      ∃ record cl, s.routeMap msg.sequence = some record ∧
        record.peerId.bind s.apiClientMap = some cl ∧
        w = (.api cl.channel, { msg with sequence := record.extSeq }) := by
  rw [PushServerHandler.handleRsp]
  cases hrecord : s.routeMap msg.sequence with
  | none => simp
  | some record =>
    dsimp only
    cases hclient : record.peerId.bind s.apiClientMap with
    | none => simp [hclient]
    | some cl => simp [hclient]

/-! ## The API client map -/

/-- Every entry of the API client map is an open connection that logged in with that account. -/
def Registered (s : Server) : Prop :=
  ∀ a cl, s.apiClientMap a = some cl →
    s.ApiLoggedIn cl.channel ∧ (s.apiHandlers cl.channel).mId = some a

theorem registered_init : init.Registered := fun _ _ h => nomatch h

theorem Registered.close (h : s.Registered) (ch : Channel) : (s.close ch).Registered := by
  intro a cl hcl
  cases ch with
  | push m =>
    rw [close_push_apiClientMap] at hcl
    obtain ⟨⟨hopen, hstate⟩, hid⟩ := h a cl hcl
    rw [ApiLoggedIn, close_apiHandlers, close_closed]
    exact ⟨⟨by rw [Function.update_of_ne (by simp)]; exact hopen, hstate⟩, hid⟩
  | api m =>
    rw [close_api_apiClientMap] at hcl
    split at hcl
    · cases hcl
    · next hne =>
      -- the entry is another connection's: the one that ends held another account
      obtain ⟨⟨hopen, hstate⟩, hid⟩ := h a cl hcl
      have hother : cl.channel ≠ m := by
        rintro rfl
        exact hne hid
      rw [ApiLoggedIn, close_apiHandlers, close_closed]
      refine ⟨⟨?_, hstate⟩, hid⟩
      rw [Function.update_of_ne fun heq => hother (Channel.api.inj heq)]
      exact hopen

theorem Registered.login (h : s.Registered) {login : AdminClientLogin}
    (hlogin : msg.adminClientLogin = some login) (hopen : s.closed (.api n) = false)
    (hst : (s.apiHandlers n).mState = .waitForLogin) :
    (ApiServerHandler.handleAdminClientLogin s n msg).1.Registered := by
  simp only [ApiServerHandler.handleAdminClientLogin, hlogin]
  intro a cl hcl
  dsimp only [ApiLoggedIn] at hcl ⊢
  rw [Function.update_apply] at hcl
  split at hcl
  · next ha =>
    cases hcl
    rw [Function.update_self, ha]
    exact ⟨⟨hopen, rfl⟩, rfl⟩
  · -- who is in the map already is logged in, and the one that logs in was not
    obtain ⟨⟨hcopen, hstate⟩, hid⟩ := h a cl hcl
    have hother : cl.channel ≠ n := by
      rintro rfl
      rw [hst] at hstate
      cases hstate
    rw [Function.update_of_ne hother]
    exact ⟨⟨hcopen, hstate⟩, hid⟩

/-- The API client map is in order after every step. -/
theorem Registered.step (h : s.Registered) (imported : String → Bool) (e : Event) :
    (s.step imported e).1.Registered := by
  cases e with
  | apiRead n msg =>
    rcases apiRead_cases imported s n msg with
      ⟨g, client, -, hclient, -, heq⟩ | ⟨-, ⟨out, -, heq⟩ | heq | ⟨hopen, hst, login, hlogin, heq⟩⟩
    · rw [heq, convertAndRoute_some hclient]
      intro a cl hcl
      obtain ⟨⟨hcopen, hstate⟩, hid⟩ := h a cl hcl
      dsimp only [ApiLoggedIn]
      -- the generator of a handler is no part of what the map is about
      rcases eq_or_ne cl.channel n with hn | hn
      · rw [hn, Function.update_self]
        rw [hn] at hcopen hstate hid
        exact ⟨⟨hcopen, hstate⟩, hid⟩
      · rw [Function.update_of_ne hn]
        exact ⟨⟨hcopen, hstate⟩, hid⟩
    · rw [heq]
      exact h
    · rw [heq]
      exact h.close _
    · rw [heq]
      exact h.login hlogin hopen hst
  | pushRead n msg =>
    rcases pushRead_cases imported s n msg with
      ⟨-, heq⟩ | ⟨-, heq | heq | ⟨-, -, login, rsp, heq⟩⟩
    · rw [heq, handleRsp_server]
      exact h
    · rw [heq]
      exact h
    · rw [heq]
      exact h.close _
    · rw [heq]
      exact h
  | close ch =>
    rw [Server.step]
    split
    · exact h
    · exact h.close ch

/-! ## Logins -/

/-- The accounts of the API connections that are open and logged in are pairwise distinct. -/
def DistinctAccounts (s : Server) : Prop :=
  ∀ n m, s.ApiLoggedIn n → s.ApiLoggedIn m → (s.apiHandlers n).mId = (s.apiHandlers m).mId → n = m

/-- The account a message logs its connection in with. -/
def loginOf : Event → Option (Nat × String)
  | .apiRead n msg => msg.adminClientLogin.map fun login => (n, login.account)
  | _ => none

/-- Whoever is logged in has sent one of the logins among `es`. -/
def LoggedBy (es : List Event) (s : Server) : Prop :=
  ∀ n, (s.apiHandlers n).mState = .loggedIn →
    ∃ a, (n, a) ∈ es.filterMap loginOf ∧ (s.apiHandlers n).mId = some a

theorem LoggedBy.step {es : List Event} (h : s.LoggedBy es)
    (imported : String → Bool) {e : Event} (he : e ∈ es) : (s.step imported e).1.LoggedBy es := by
  intro n hin
  cases e with
  | apiRead j msg =>
    rcases apiRead_cases imported s j msg with
      ⟨g, client, -, hclient, -, heq⟩ | ⟨-, ⟨out, -, heq⟩ | heq | ⟨-, -, login, hlogin, heq⟩⟩
    · rw [heq, convertAndRoute_some hclient] at hin ⊢
      dsimp only at hin ⊢
      rcases eq_or_ne n j with rfl | hne
      · rw [Function.update_self] at hin ⊢
        exact h n hin
      · rw [Function.update_of_ne hne] at hin ⊢
        exact h n hin
    · rw [heq] at hin ⊢
      exact h n hin
    · rw [heq, close_apiHandlers] at hin ⊢
      exact h n hin
    · simp only [ApiServerHandler.handleAdminClientLogin, hlogin] at heq
      rw [heq] at hin ⊢
      dsimp only at hin ⊢
      rcases eq_or_ne n j with rfl | hne
      · rw [Function.update_self]
        refine ⟨login.account, List.mem_filterMap.mpr ⟨_, he, ?_⟩, rfl⟩
        rw [loginOf, hlogin]
        rfl
      · rw [Function.update_of_ne hne] at hin ⊢
        exact h n hin
  | pushRead j msg =>
    rcases pushRead_cases imported s j msg with
      ⟨-, heq⟩ | ⟨-, heq | heq | ⟨-, -, login, rsp, heq⟩⟩
    · rw [heq, handleRsp_server] at hin ⊢
      exact h n hin
    · rw [heq] at hin ⊢
      exact h n hin
    · rw [heq, close_apiHandlers] at hin ⊢
      exact h n hin
    · rw [heq] at hin ⊢
      exact h n hin
  | close ch =>
    rw [step_close_apiHandlers] at hin ⊢
    exact h n hin

end Server

end Monsys.Push
