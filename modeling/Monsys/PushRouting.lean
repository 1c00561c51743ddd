/-
  The route map of the push server over whole runs.

  Every API connection numbers the requests it hands on for itself, from 1; the route map is one for
  all connections.  A request is handed on under the number alone.

  1. **The history** — `World`: the server, with the requests that wait for an answer and the
     number of requests every connection has handed on.  The history is read off the messages.
  2. **The invariant** — `Routed`: the route map holds the record of the last request under every
     number, and a request's number is its place in its connection's row (`place`).
  3. **What a message does** — `Routed.apiRead`, `Routed.pushRead`: what is written to the other
     port, and what becomes of the requests that wait.
-/
import Mathlib.Data.Int.ModEq
import Monsys.Lib.Pending
import Monsys.PushRegistry

namespace Monsys.Push

/-! ## The history -/

/-- A request that was handed to a gateway: the connection it came on and the account there, its
    place in the row of the requests that connection has handed on, the sequence number it came
    with, and the gateway it names. -/
structure Request where
  client : Nat
  account : Option String
  index : Nat
  extSeq : Int
  gateway : Option String
deriving DecidableEq, Repr

/-- The record of a request under the number `i`. -/
def Request.record (i : Int) (r : Request) : RouteRecord := ⟨i, r.extSeq, r.account⟩

/-- The server, and what has passed through it: the requests handed to a gateway that no answer
    under their number has come for, and how many requests each API connection has handed on. -/
structure World where
  server : Server
  outstanding : Pending Int Request
  forwarded : Nat → Nat

namespace World

/-- The world as it starts. -/
def init : World := ⟨Server.init, [], fun _ => 0⟩

/-- The request that a message makes, if it is handed on. -/
def request (w : World) (n : Nat) (msg : PushMsg) : Request where
  client := n
  account := (w.server.apiHandlers n).mId
  index := w.forwarded n
  extSeq := msg.sequence
  gateway := Server.peerOf msg

/-- The message that was written to a gateway. -/
def handedOn : List Write → Option PushMsg
  | [(.push _, m)] => some m
  | _ => none

/-- One event. -/
def step (imported : String → Bool) (w : World) (e : Event) : World :=
  let (s, out) := w.server.step imported e
  match e with
  | .apiRead n msg =>
    match handedOn out with
    | none => { w with server := s }
    | some m =>
      { server := s
        outstanding := w.outstanding.ask m.sequence (w.request n msg)
        forwarded := Function.update w.forwarded n (w.forwarded n + 1) }
  | .pushRead n msg =>
    if w.server.Answers n msg then
      { w with server := s, outstanding := w.outstanding.settle msg.sequence }
    else { w with server := s }
  | .close _ => { w with server := s }

variable {imported : String → Bool} {w : World} {n : Nat} {msg : PushMsg}

@[simp] theorem step_server (imported : String → Bool) (w : World) (e : Event) :
    (w.step imported e).server = (w.server.step imported e).1 := by
  cases e with
  | apiRead n msg =>
    simp only [step]
    split <;> rfl
  | pushRead n msg =>
    simp only [step]
    split <;> rfl
  | close ch => rfl

theorem handedOn_local {out : List Write} (h : Server.Local (.api n) out) : handedOn out = none := by
  rw [handedOn.eq_def]
  split
  · next d m => cases h (.push d, m) List.mem_cons_self
  · rfl

/-- The history of a message that is handed on. -/
theorem step_handedOn {d : Nat} {m : PushMsg} {s : Server}
    (h : w.server.step imported (.apiRead n msg) = (s, [(.push d, m)])) :
    w.step imported (.apiRead n msg) =
      { server := s
        outstanding := w.outstanding.ask m.sequence (w.request n msg)
        forwarded := Function.update w.forwarded n (w.forwarded n + 1) } := by
  simp only [step, h, handedOn]

/-- The history of any other message from an API client. -/
theorem step_local {out : List Write} {s : Server}
    (h : w.server.step imported (.apiRead n msg) = (s, out)) (hlocal : Server.Local (.api n) out) :
    w.step imported (.apiRead n msg) = { w with server := s } := by
  simp only [step, h, handedOn_local hlocal]

end World

/-! ## The invariant -/

/-- The number under which a connection hands on its request number `k`, counted from 0. -/
def place (k : Nat) : Int := 1 + (k % 0xFFFFFF : Nat)

/-- Two places share a number exactly if they are whole rounds of the generator apart. -/
theorem place_eq_iff {k j : Nat} : place k = place j ↔ k ≡ j [MOD 0xFFFFFF] := by
  rw [place, place, Nat.ModEq]
  omega

/-- **The invariant.**  `table` is what the route map is for. -/
structure Routed (w : World) : Prop where
  registered : w.server.Registered
  generators : ∀ n, (w.server.apiHandlers n).mIdGenerator =
    (SequenceGenerator.new 1 0xFFFFFF).after (w.forwarded n)
  requests : ∀ i r, (i, r) ∈ w.outstanding →
    i = place r.index ∧ (w.server.apiHandlers r.client).mState = .loggedIn ∧
      (w.server.apiHandlers r.client).mId = r.account
  table : Pending.Tracks Request.record w.server.routeMap w.outstanding

theorem routed_init : Routed World.init where
  registered := Server.registered_init
  generators := fun _ => rfl
  requests := fun _ _ h => nomatch h
  table := Pending.tracks_nil

variable {imported : String → Bool} {w : World} {n : Nat} {msg : PushMsg}

/-- The next number of a connection is its next place. -/
theorem Routed.draw (h : Routed w) (n : Nat) :
    (w.server.apiHandlers n).mIdGenerator.next.1 = place (w.forwarded n) := by
  rw [h.generators n, SequenceGenerator.after_next (by decide) (by decide) (by decide)]
  rfl

/-- A step that leaves the history alone: it keeps the route map, the generators and whatever a
    logged-in handler holds. -/
theorem Routed.quiet (h : Routed w) {s : Server} (hreg : s.Registered)
    (hmap : s.routeMap = w.server.routeMap)
    (hgen : ∀ n, (s.apiHandlers n).mIdGenerator = (w.server.apiHandlers n).mIdGenerator)
    (hkeep : ∀ n, (w.server.apiHandlers n).mState = .loggedIn →
      s.apiHandlers n = w.server.apiHandlers n) :
    Routed { w with server := s } where
  registered := hreg
  generators := fun n => (hgen n).trans (h.generators n)
  requests := by
    intro i r hr
    obtain ⟨hplace, hstate, hid⟩ := h.requests i r hr
    show _ ∧ (s.apiHandlers r.client).mState = _ ∧ (s.apiHandlers r.client).mId = _
    rw [hkeep r.client hstate]
    exact ⟨hplace, hstate, hid⟩
  table := by
    show Pending.Tracks Request.record s.routeMap w.outstanding
    rw [hmap]
    exact h.table

theorem Routed.close (h : Routed w) (ch : Channel) :
    Routed { w with server := w.server.close ch } := by
  apply h.quiet (h.registered.close ch) (Server.close_routeMap _ _)
  · intro n
    rw [Server.close_apiHandlers]
  · intro n _
    rw [Server.close_apiHandlers]

theorem Routed.login (h : Routed w) {login : AdminClientLogin}
    (hlogin : msg.adminClientLogin = some login) (hopen : w.server.closed (.api n) = false)
    (hst : (w.server.apiHandlers n).mState = .waitForLogin) :
    Routed { w with server := (ApiServerHandler.handleAdminClientLogin w.server n msg).1 } := by
  have hreg := h.registered.login hlogin hopen hst
  simp only [ApiServerHandler.handleAdminClientLogin, hlogin] at hreg ⊢
  apply h.quiet hreg rfl
  · intro j
    dsimp only
    rcases eq_or_ne j n with rfl | hne
    · rw [Function.update_self]
    · rw [Function.update_of_ne hne]
  · -- the one that logs in was not logged in
    intro j hj
    have hne : j ≠ n := by
      rintro rfl
      rw [hst] at hj
      cases hj
    exact Function.update_of_ne hne _ _

/-- A request is handed on: its record is put under its place, over whatever stood there. -/
theorem Routed.handOn (h : Routed w) {g : String} {client : PushClient}
    (hin : w.server.ApiLoggedIn n) (hclient : w.server.pushClientMap g = some client)
    (hstep : w.server.step imported (.apiRead n msg) =
      ApiServerHandler.convertAndRoute w.server n msg g) :
    w.step imported (.apiRead n msg) =
        { server := (ApiServerHandler.convertAndRoute w.server n msg g).1
          outstanding := w.outstanding.ask (place (w.forwarded n)) (w.request n msg)
          forwarded := Function.update w.forwarded n (w.forwarded n + 1) } ∧
      Routed (w.step imported (.apiRead n msg)) := by
  have hreg := h.registered.step imported (.apiRead n msg)
  rw [hstep] at hreg
  have hworld := World.step_handedOn (hstep.trans (Server.convertAndRoute_some hclient))
  rw [Server.convertAndRoute_some hclient] at hreg ⊢
  dsimp only at hworld hreg ⊢
  rw [h.draw n] at hworld hreg
  rw [h.draw n]
  refine ⟨hworld, ?_⟩
  rw [hworld]
  constructor
  · exact hreg
  · -- the generator of `n` has moved on by one, as has the count
    intro j
    dsimp only
    rcases eq_or_ne j n with rfl | hne
    · rw [Function.update_self, Function.update_self, SequenceGenerator.after_succ,
        ← h.generators j]
    · rw [Function.update_of_ne hne, Function.update_of_ne hne]
      exact h.generators j
  · intro i r hr
    dsimp only
    have hold : (i, r) ∈ w.outstanding → i = place r.index ∧
        (w.server.apiHandlers r.client).mState = .loggedIn ∧
        (w.server.apiHandlers r.client).mId = r.account := h.requests i r
    rcases Pending.mem_ask.mp hr with heq | hmem
    · cases heq
      rw [World.request, Function.update_self]
      exact ⟨rfl, hin.2, rfl⟩
    · obtain ⟨hplace, hstate, hid⟩ := hold hmem
      rcases eq_or_ne r.client n with hn | hne
      · rw [hn, Function.update_self]
        rw [hn] at hstate hid
        exact ⟨hplace, hstate, hid⟩
      · rw [Function.update_of_ne hne]
        exact ⟨hplace, hstate, hid⟩
  · exact h.table.ask (place (w.forwarded n)) (w.request n msg)

/-- An answer comes: the record under its number is taken out. -/
theorem Routed.answer (h : Routed w) (hans : w.server.Answers n msg)
    (hstep : w.server.step imported (.pushRead n msg) = PushServerHandler.handleRsp w.server msg) :
    w.step imported (.pushRead n msg) =
        { w with
          server := { w.server with
            routeMap := Function.update w.server.routeMap msg.sequence none }
          outstanding := w.outstanding.settle msg.sequence } ∧
      Routed (w.step imported (.pushRead n msg)) := by
  have hworld : w.step imported (.pushRead n msg) =
      { w with
        server := { w.server with
          routeMap := Function.update w.server.routeMap msg.sequence none }
        outstanding := w.outstanding.settle msg.sequence } := by
    simp only [World.step, hstep, if_pos hans, Server.handleRsp_server]
  refine ⟨hworld, ?_⟩
  rw [hworld]
  constructor
  · exact h.registered
  · exact h.generators
  · intro i r hr
    exact h.requests i r (Pending.mem_settle.mp hr).1
  · exact h.table.settle msg.sequence

/-- Any other message from a gateway. -/
theorem Routed.pushOther (h : Routed w) (hans : ¬ w.server.Answers n msg) :
    w.step imported (.pushRead n msg) =
        { w with server := (w.server.step imported (.pushRead n msg)).1 } ∧
      Routed (w.step imported (.pushRead n msg)) := by
  have hworld : w.step imported (.pushRead n msg) =
      { w with server := (w.server.step imported (.pushRead n msg)).1 } := by
    simp only [World.step, if_neg hans]
  refine ⟨hworld, ?_⟩
  rw [hworld]
  rcases Server.pushRead_cases imported w.server n msg with
    ⟨hyes, -⟩ | ⟨-, heq | heq | ⟨-, -, login, rsp, heq⟩⟩
  · exact absurd hyes hans
  · rw [heq]
    exact h
  · rw [heq]
    exact h.close _
  · rw [heq]
    exact h.quiet h.registered rfl (fun _ => rfl) (fun _ _ => rfl)

/-- **The invariant holds after every step.** -/
theorem Routed.step (h : Routed w) (imported : String → Bool) (e : Event) :
    Routed (w.step imported e) := by
  cases e with
  | apiRead n msg =>
    rcases Server.apiRead_cases imported w.server n msg with
      ⟨g, client, -, hclient, hin, heq⟩ |
      ⟨-, ⟨out, hlocal, heq⟩ | heq | ⟨hopen, hst, login, hlogin, heq⟩⟩
    · exact (h.handOn hin hclient heq).2
    · rw [World.step_local heq hlocal]
      exact h
    · rw [World.step_local heq (Server.local_nil _)]
      exact h.close _
    · have hout : w.server.step imported (.apiRead n msg) =
          ((ApiServerHandler.handleAdminClientLogin w.server n msg).1,
            (ApiServerHandler.handleAdminClientLogin w.server n msg).2) := heq
      rw [World.step_local hout ?_]
      · exact h.login hlogin hopen hst
      · simp only [ApiServerHandler.handleAdminClientLogin, hlogin]
        exact Server.local_single _ _
  | pushRead n msg =>
    rcases Server.pushRead_cases imported w.server n msg with ⟨hyes, heq⟩ | ⟨hno, -⟩
    · exact (h.answer hyes heq).2
    · exact (h.pushOther hno).2
  | close ch =>
    show Routed { w with server := (w.server.step imported (.close ch)).1 }
    rw [Server.step]
    split
    · exact h
    · exact h.close ch

/-! ## What a message does -/

theorem Server.routeTo_of_client {s : Server} {n : Nat} {msg : PushMsg} {g : String}
    {client : PushClient} (hpeer : Server.peerOf msg = some g)
    (hclient : s.pushClientMap g = some client) (hin : s.ApiLoggedIn n) :
    s.routeTo n msg = some client := by
  rw [Server.routeTo, if_pos hin, hpeer]
  exact hclient

/-- What a message from an API client writes to the gateways, and what becomes of the requests. -/
theorem Routed.apiRead (h : Routed w) (imported : String → Bool) (n : Nat) (msg : PushMsg) :
    (∃ client, w.server.routeTo n msg = some client ∧
      (w.server.step imported (.apiRead n msg)).2 =
        [(.push client.channel, { msg with sequence := place (w.forwarded n) })] ∧
      (w.step imported (.apiRead n msg)).outstanding =
        w.outstanding.ask (place (w.forwarded n)) (w.request n msg)) ∨
    (w.server.routeTo n msg = none ∧
      (∀ d m, (.push d, m) ∉ (w.server.step imported (.apiRead n msg)).2) ∧
      (w.step imported (.apiRead n msg)).outstanding = w.outstanding) := by
  have hquiet : ∀ {s : Server} {out : List Write}, Server.Local (.api n) out →
      w.server.step imported (.apiRead n msg) = (s, out) →
      (∀ d m, (.push d, m) ∉ (w.server.step imported (.apiRead n msg)).2) ∧
        (w.step imported (.apiRead n msg)).outstanding = w.outstanding := by
    intro s out hlocal heq
    rw [World.step_local heq hlocal, heq]
    exact ⟨fun d m hm => (nomatch hlocal _ hm), rfl⟩
  rcases Server.apiRead_cases imported w.server n msg with
    ⟨g, client, hpeer, hclient, hin, heq⟩ |
    ⟨hno, ⟨out, hlocal, heq⟩ | heq | ⟨-, -, login, hlogin, heq⟩⟩
  · refine Or.inl ⟨client, Server.routeTo_of_client hpeer hclient hin, ?_, ?_⟩
    · rw [heq, Server.convertAndRoute_some hclient, h.draw n]
    · rw [(h.handOn hin hclient heq).1]
  · exact Or.inr ⟨hno, hquiet hlocal heq⟩
  · exact Or.inr ⟨hno, hquiet (Server.local_nil _) heq⟩
  · simp only [ApiServerHandler.handleAdminClientLogin, hlogin] at heq
    exact Or.inr ⟨hno, hquiet (Server.local_single _ _) heq⟩

/-- What a message from a gateway writes to the API clients, and what becomes of the requests. -/
theorem Routed.pushRead (h : Routed w) (imported : String → Bool) (n : Nat) (msg : PushMsg) :
    (w.server.Answers n msg ∧
      w.server.step imported (.pushRead n msg) = PushServerHandler.handleRsp w.server msg ∧
      (w.step imported (.pushRead n msg)).outstanding = w.outstanding.settle msg.sequence) ∨
    (¬ w.server.Answers n msg ∧
      (∀ c m, (.api c, m) ∉ (w.server.step imported (.pushRead n msg)).2) ∧
      (w.server.step imported (.pushRead n msg)).1.routeMap = w.server.routeMap ∧
      (w.step imported (.pushRead n msg)).outstanding = w.outstanding) := by
  rcases Server.pushRead_cases imported w.server n msg with
    ⟨hyes, heq⟩ | ⟨hno, hcases⟩
  · refine Or.inl ⟨hyes, heq, ?_⟩
    rw [(h.answer hyes heq).1]
  · refine Or.inr ⟨hno, ?_, ?_, ?_⟩
    · rcases hcases with heq | heq | ⟨-, -, login, rsp, heq⟩
      · rw [heq]
        intro c m hm
        cases hm
      · rw [heq]
        intro c m hm
        cases hm
      · rw [heq]
        intro c m hm
        cases List.mem_singleton.mp hm
    · rcases hcases with heq | heq | ⟨-, -, login, rsp, heq⟩
      · rw [heq]
      · rw [heq]
        exact Server.close_routeMap _ _
      · rw [heq]
    · rw [(h.pushOther hno).1]

end Monsys.Push
