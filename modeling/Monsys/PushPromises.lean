/-
  Which message completes a promise, from the client to the gateway and back.

  1. **The invariant** — `Traced`.  Every letter under way with a tag is the only one with it, and
     its promise waits under the number that the client gave its request.  On the gateways' side of
     the server the route map holds that number, under the one the letter goes by there.
  2. **Care** — `Careful`: no number is given out that is in use, by a client or by the server, and
     no account is logged in on two connections.
  3. **Steps** — what every event does to the letters.  `Traced.step`: a careful one keeps the
     invariant.
  4. **Promises** — `Faithful`: a promise is completed by what its own request has led to, and by
     nothing else.  Where the invariant holds, every step is like that (`Traced.faithful`).
-/
import Monsys.PushNet

namespace Monsys.Push

namespace Net

variable {imported : String → Bool} {net net' : Net} {p : Place} {l : Letter} {t : Tag}

/-! ## The invariant -/

/-- The promise of the tag waits for an answer to the call, under the number. -/
def Expects (net : Net) (t : Tag) (seq : Int) (call : Call) : Prop :=
  (net.clients t.client).mRouteMap seq = some ⟨seq, ⟨call, t.promise⟩⟩

/-- The server has handed the request of the tag on under `i`, and knows its number at the client.
    -/
structure Noted (net : Net) (t : Tag) (i ext : Int) (call : Call) : Prop where
  record : net.server.routeMap i = some ⟨i, ext, (net.server.apiHandlers t.client).mId⟩
  loggedIn : (net.server.apiHandlers t.client).mState = .loggedIn
  origin : net.origin i = some t
  expects : net.Expects t ext call

/-- The letter is the request of its tag, but for the number. -/
def Asked (net : Net) (l : Letter) : Prop :=
  ∃ t ext call, l.tag = some t ∧ net.Noted t l.msg.sequence ext call ∧
    l.msg = { call.message ext with sequence := l.msg.sequence }

/-- What a letter is, at the place where it lies. -/
def Sound (net : Net) (l : Letter) : Place → Prop
  | .toServer n => ∃ t call, l.tag = some t ∧ t.client = n ∧
      net.Expects t l.msg.sequence call ∧ l.msg = call.message l.msg.sequence
  | .toClient n => ∃ t call, l.tag = some t ∧ t.client = n ∧ net.Expects t l.msg.sequence call
  | .toGateway _ => net.Asked l ∨ (l.tag = none ∧ Server.peerOf l.msg = none)
  | .desk _ => net.Asked l
  | .fromGateway _ =>
    (∃ t ext call, l.tag = some t ∧ net.Noted t l.msg.sequence ext call) ∨
      (l.tag = none ∧ Server.isAnswer l.msg.type = false)

/-- The invariant. -/
structure Traced (net : Net) : Prop where
  registered : net.server.Registered
  orderly : ∀ n, (net.clients n).Orderly
  apart : Transit.Apart Letter.tag net.air
  sound : ∀ q ∈ net.air, net.Sound q.2 q.1

theorem traced_init : Traced init where
  registered := Server.registered_init
  orderly := fun _ => MonsysConnection.orderly_new
  apart := Transit.apart_nil
  sound := List.forall_mem_nil _

/-- The promise of a letter's tag waits. -/
theorem Sound.expects (h : net.Sound l p) (ht : l.tag = some t) :
    ∃ seq call, net.Expects t seq call := by
  have hasked : net.Asked l → ∃ seq call, net.Expects t seq call := by
    rintro ⟨t', ext, call, ht', hnoted, -⟩
    cases ht.symm.trans ht'
    exact ⟨ext, call, hnoted.expects⟩
  cases p with
  | toServer n =>
    obtain ⟨t', call, ht', -, hexpects, -⟩ := h
    cases ht.symm.trans ht'
    exact ⟨_, call, hexpects⟩
  | toClient n =>
    obtain ⟨t', call, ht', -, hexpects⟩ := h
    cases ht.symm.trans ht'
    exact ⟨_, call, hexpects⟩
  | toGateway d =>
    rcases h with hask | ⟨hnone, -⟩
    · exact hasked hask
    · cases ht.symm.trans hnone
  | desk d => exact hasked h
  | fromGateway d =>
    rcases h with ⟨t', ext, call, ht', hnoted⟩ | ⟨hnone, -⟩
    · cases ht.symm.trans ht'
      exact ⟨ext, call, hnoted.expects⟩
    · cases ht.symm.trans hnone

/-- A letter stays what it is, if its promise goes on waiting and its request is still noted. -/
theorem Sound.mono (h : net.Sound l p)
    (hexpects : ∀ t seq call, l.tag = some t → net.Expects t seq call → net'.Expects t seq call)
    (hnoted : ∀ t ext call, l.tag = some t → net.Noted t l.msg.sequence ext call →
      net'.Noted t l.msg.sequence ext call) : net'.Sound l p := by
  have hasked : net.Asked l → net'.Asked l := by
    rintro ⟨t, ext, call, ht, hn, hmsg⟩
    exact ⟨t, ext, call, ht, hnoted t ext call ht hn, hmsg⟩
  cases p with
  | toServer n =>
    obtain ⟨t, call, ht, hclient, he, hmsg⟩ := h
    exact ⟨t, call, ht, hclient, hexpects t _ call ht he, hmsg⟩
  | toClient n =>
    obtain ⟨t, call, ht, hclient, he⟩ := h
    exact ⟨t, call, ht, hclient, hexpects t _ call ht he⟩
  | toGateway d => exact h.imp_left hasked
  | desk d => exact hasked h
  | fromGateway d =>
    refine h.imp_left ?_
    rintro ⟨t, ext, call, ht, hn⟩
    exact ⟨t, ext, call, ht, hnoted t ext call ht hn⟩

/-- What the server has noted stays so while the server does nothing. -/
theorem Noted.of_expects {i ext : Int} {call : Call} (h : net.Noted t i ext call)
    (hserver : net'.server = net.server) (horigin : net'.origin = net.origin)
    (hexpects : net'.Expects t ext call) : net'.Noted t i ext call where
  record := by
    rw [hserver]
    exact h.record
  loggedIn := by
    rw [hserver]
    exact h.loggedIn
  origin := by
    rw [horigin]
    exact h.origin
  expects := hexpects

/-- A client goes on, and the promises of the letters under way go on waiting. -/
theorem Sound.of_clients {clients : Nat → MonsysConnection} {air : Transit Place Letter}
    (h : net.Sound l p)
    (hroutes : ∀ t seq call, l.tag = some t → net.Expects t seq call →
      (clients t.client).mRouteMap seq = some ⟨seq, ⟨call, t.promise⟩⟩) :
    ({ net with clients := clients, air := air } : Net).Sound l p :=
  h.mono hroutes fun t _ _ ht hn => hn.of_expects rfl rfl (hroutes t _ _ ht hn.expects)

/-! ## Care -/

/-- No account is logged in on two connections, be they open or not. -/
def OneConnection (s : Server) : Prop :=
  ∀ n m, (s.apiHandlers n).mState = .loggedIn → (s.apiHandlers m).mState = .loggedIn →
    (s.apiHandlers n).mId = (s.apiHandlers m).mId → n = m

/-- **What care asks of a step.**  `calls`: a client puts no route in the place of another.
    `handings`: a request is handed on under a number that has no record. -/
structure Careful (imported : String → Bool) (net : Net) (e : Event) : Prop where
  accounts : OneConnection net.server
  calls : ∀ n a, e = .act n a → ∀ seq,
    ((net.clients n).act a).1.mRouteMap seq ≠ (net.clients n).mRouteMap seq →
      (net.clients n).mRouteMap seq = none
  handings : ∀ n l air, e = .deliver (.toServer n) → net.next (.toServer n) = some (l, air) →
    ∀ d m, (.push d, m) ∈ (net.server.step imported (.apiRead n l.2.msg)).2 →
      net.server.routeMap m.sequence = none

/-! ## Steps -/

theorem mem_next {q : Place × Letter} {air : Transit Place Letter}
    (h : net.next p = some (q, air)) : q.1 = p := by
  simpa using Transit.meant_of_pick h

/-- The promises of two letters with different tags differ, or their clients do. -/
theorem Expects.tag_eq {t t' : Tag} {seq : Int} {call call' : Call} (h : net.Expects t seq call)
    (h' : net.Expects t' seq call') (hclient : t.client = t'.client) : t = t' := by
  rw [Expects, hclient] at h
  have hitem := Option.some.inj (h.symm.trans h')
  cases t
  cases t'
  cases hclient
  cases hitem
  rfl

/-- The first letter at a place is taken from there. -/
theorem Traced.taken (h : Traced net) {meant : Place × Letter → Bool} {q : Place × Letter}
    {air : Transit Place Letter} (hpick : net.air.pick meant = some (q, air)) :
    net.Sound q.2 q.1 ∧ Traced { net with air := air } ∧
      ∀ t, q.2.tag = some t → ∀ q' ∈ air, q'.2.tag ≠ some t := by
  obtain ⟨hfree, hrest⟩ := h.apart.picked hpick
  refine ⟨h.sound q (Transit.mem_of_pick hpick), ⟨h.registered, h.orderly, hrest, ?_⟩, hfree⟩
  intro q' hq'
  exact (h.sound q' (Transit.mem_of_mem_rest hpick hq')).of_clients fun _ _ _ _ he => he

theorem Traced.act (h : Traced net) {n : Nat} {a : MonsysConnection.Act}
    (hcare : Careful imported net (.act n a)) : Traced (net.step imported (.act n a)) := by
  have horderly : ∀ m, (Function.update net.clients n ((net.clients n).act a).1 m).Orderly := by
    intro m
    rcases eq_or_ne m n with rfl | hne
    · rw [Function.update_self]
      exact (h.orderly m).act a
    · rw [Function.update_of_ne hne]
      exact h.orderly m
  have hkeep : ∀ (t : Tag) seq call, net.Expects t seq call →
      (Function.update net.clients n ((net.clients n).act a).1 t.client).mRouteMap seq =
        some ⟨seq, ⟨call, t.promise⟩⟩ := by
    intro t seq call he
    rcases eq_or_ne t.client n with hn | hne
    · rw [hn, Function.update_self]
      rw [Expects, hn] at he
      by_contra hchanged
      have hnone := hcare.calls n a rfl seq (by rw [he]; exact hchanged)
      rw [hnone] at he
      cases he
    · rw [Function.update_of_ne hne]
      exact he
  show Traced { net with
    clients := Function.update net.clients n ((net.clients n).act a).1
    air := net.air ++ sent n ((net.clients n).act a).2 }
  have hold : ∀ air, ∀ q ∈ net.air, ({ net with
      clients := Function.update net.clients n ((net.clients n).act a).1
      air := air } : Net).Sound q.2 q.1 :=
    fun air q hq => (h.sound q hq).of_clients fun t seq call _ he => hkeep t seq call he
  rcases (h.orderly n).led.act_cases a with hidle | ⟨callback, hsaves, hfree⟩
  · have hnone : sent n ((net.clients n).act a).2 = [] := by
      rw [sent, List.filterMap_eq_nil_iff]
      intro f hf
      rcases hidle.thrown f hf with rfl | rfl <;> rfl
    rw [hnone, List.append_nil]
    exact ⟨h.registered, horderly, h.apart, hold net.air⟩
  · rcases hsaves.sent with hout | hout
    · rw [hout]
      show Traced { net with
        clients := Function.update net.clients n ((net.clients n).act a).1
        air := net.air ++ [] }
      rw [List.append_nil]
      exact ⟨h.registered, horderly, h.apart, hold net.air⟩
    · rw [hout]
      refine ⟨h.registered, horderly, ?_, ?_⟩
      · -- no letter under way has the promise of the new one
        refine h.apart.send fun x hx q hq htag => ?_
        cases hx
        obtain ⟨seq, call, he⟩ := (h.sound q hq).expects htag
        exact hfree seq _ he rfl
      · intro q hq
        rcases List.mem_append.mp hq with hq | hq
        · exact hold _ q hq
        · cases List.mem_singleton.mp hq
          refine ⟨⟨n, callback.promise⟩, callback.call, rfl, rfl, ?_, ?_⟩
          · show (Function.update net.clients n ((net.clients n).act a).1 n).mRouteMap _ = _
            dsimp only
            rw [Function.update_self, hsaves.routes, Call.message_sequence, Function.update_self]
          · dsimp only
            rw [Call.message_sequence]

/-- A letter is sent under a tag that is not under way. -/
theorem Traced.send (h : Traced net) {q : Place × Letter}
    (hfree : ∀ x, q.2.tag = some x → ∀ q' ∈ net.air, q'.2.tag ≠ some x)
    (hsound : net.Sound q.2 q.1) : Traced { net with air := net.air ++ [q] } where
  registered := h.registered
  orderly := h.orderly
  apart := h.apart.send hfree
  sound := by
    intro q' hq'
    have hold : net.Sound q'.2 q'.1 := by
      rcases List.mem_append.mp hq' with hq' | hq'
      · exact h.sound q' hq'
      · rw [List.mem_singleton.mp hq']
        exact hsound
    exact hold.of_clients fun _ _ _ _ he => he

/-- The server goes on, and keeps what it has noted for the letters under way. -/
theorem Traced.serve (h : Traced net) {s : Server} {origin : Int → Option Tag}
    (hreg : s.Registered)
    (hnoted : ∀ q ∈ net.air, ∀ t ext call, q.2.tag = some t →
      net.Noted t q.2.msg.sequence ext call →
        ({ net with server := s, origin := origin } : Net).Noted t q.2.msg.sequence ext call) :
    Traced { net with server := s, origin := origin } where
  registered := hreg
  orderly := h.orderly
  apart := h.apart
  sound := fun q hq => (h.sound q hq).mono (fun _ _ _ _ he => he) (hnoted q hq)

/-- What the server has noted under a number, when it has done something else. -/
theorem Noted.of_server {s : Server} {i ext : Int} {call : Call} (h : net.Noted t i ext call)
    (hroute : s.routeMap i = net.server.routeMap i)
    (hkept : ∀ m, (net.server.apiHandlers m).mState = .loggedIn →
      (s.apiHandlers m).mState = .loggedIn ∧
        (s.apiHandlers m).mId = (net.server.apiHandlers m).mId) :
    ({ net with server := s } : Net).Noted t i ext call where
  record := by
    show s.routeMap i = some ⟨i, ext, (s.apiHandlers t.client).mId⟩
    rw [hroute, (hkept t.client h.loggedIn).2]
    exact h.record
  loggedIn := (hkept t.client h.loggedIn).1
  origin := h.origin
  expects := h.expects

/-- The server does something that does not touch the route map, nor a logged-in handler. -/
theorem Traced.quiet (h : Traced net) {s : Server} (hreg : s.Registered)
    (hroutes : s.routeMap = net.server.routeMap)
    (hkept : ∀ m, (net.server.apiHandlers m).mState = .loggedIn →
      (s.apiHandlers m).mState = .loggedIn ∧
        (s.apiHandlers m).mId = (net.server.apiHandlers m).mId) :
    Traced { net with server := s } :=
  h.serve hreg fun _ _ _ _ _ _ hn => hn.of_server (by rw [hroutes]) hkept

theorem written_single (s : Server) (tag reply : Option Tag) (w : Write) :
    written s tag reply [w] = [] ∨ written s tag reply [w] =
      match w with
      | (.api n, msg) => [(.toClient n, ⟨msg, tag⟩)]
      | (.push d, msg) => [(.toGateway d, ⟨msg, reply⟩)] := by
  rw [written, List.filter_cons]
  split
  · obtain ⟨ch, msg⟩ := w
    cases ch with
    | api n => exact Or.inr rfl
    | push d => exact Or.inr rfl
  · exact Or.inl rfl

/-- A client's message is handed on: the request goes to the gateway under a number that was free.
    -/
theorem Traced.handOn (h : Traced net) {n d : Nat} {num : Int} {s : Server}
    (hfree : ∀ x, l.tag = some x → ∀ q ∈ net.air, q.2.tag ≠ some x)
    (hsound : net.Sound l (.toServer n)) (hnum : net.server.routeMap num = none)
    (hreg : s.Registered)
    (hroutes : s.routeMap = Function.update net.server.routeMap num
      (some ⟨num, l.msg.sequence, (net.server.apiHandlers n).mId⟩))
    (hin : (net.server.apiHandlers n).mState = .loggedIn)
    (hkept : ∀ m, (net.server.apiHandlers m).mState = .loggedIn →
      (s.apiHandlers m).mState = .loggedIn ∧
        (s.apiHandlers m).mId = (net.server.apiHandlers m).mId) :
    Traced { net with
      server := s
      origin := Function.update net.origin num l.tag
      air := net.air ++ written s l.tag l.tag [(.push d, { l.msg with sequence := num })] } := by
  have hserved : Traced { net with
      server := s, origin := Function.update net.origin num l.tag } := by
    refine h.serve hreg fun q hq t ext call ht hn => ?_
    have hne : q.2.msg.sequence ≠ num := by
      intro heq
      have hrecord := hn.record
      rw [heq, hnum] at hrecord
      cases hrecord
    have hkeep := hn.of_server (s := s) (by rw [hroutes, Function.update_of_ne hne]) hkept
    exact ⟨hkeep.record, hkeep.loggedIn, (Function.update_of_ne hne _ _).trans hn.origin,
      hkeep.expects⟩
  rcases written_single s l.tag l.tag (.push d, { l.msg with sequence := num }) with hout | hout
  · rw [hout, List.append_nil]
    exact hserved
  · rw [hout]
    refine hserved.send hfree (Or.inl ?_)
    obtain ⟨t, call, ht, rfl, he, hmsg⟩ := hsound
    refine ⟨t, l.msg.sequence, call, ht, ⟨?_, (hkept _ hin).1, ?_, he⟩, ?_⟩
    · show s.routeMap num = some ⟨num, _, (s.apiHandlers t.client).mId⟩
      rw [hroutes, Function.update_self, (hkept _ hin).2]
    · show Function.update net.origin num l.tag num = some t
      rw [Function.update_self, ht]
    · dsimp only
      rw [← hmsg]

/-- A client's message is answered on the spot, or not at all. -/
theorem Traced.reply {n : Nat} {s : Server} {out : List Write}
    (hserved : Traced { net with server := s })
    (hfree : ∀ x, l.tag = some x → ∀ q ∈ net.air, q.2.tag ≠ some x)
    (hsound : net.Sound l (.toServer n)) (hout : Server.Replies n l.msg.sequence out) :
    Traced { net with
      server := s
      origin := match World.handedOn out with
        | none => net.origin
        | some m => Function.update net.origin m.sequence l.tag
      air := net.air ++ written s l.tag l.tag out } := by
  rcases hout with rfl | ⟨m, rfl, hseq⟩
  · show Traced { net with server := s, air := net.air ++ [] }
    rw [List.append_nil]
    exact hserved
  · show Traced { net with server := s, air := net.air ++ written s l.tag l.tag [(.api n, m)] }
    rcases written_single s l.tag l.tag (.api n, m) with hout | hout
    · rw [hout, List.append_nil]
      exact hserved
    · rw [hout]
      obtain ⟨t, call, ht, hn, he, -⟩ := hsound
      refine hserved.send hfree ⟨t, call, ht, hn, ?_⟩
      show net.Expects t m.sequence call
      rw [hseq]
      exact he

/-- The server reads what a client has sent. -/
theorem Traced.toServer (h : Traced net) {n : Nat} (hsound : net.Sound l (.toServer n))
    (hfree : ∀ x, l.tag = some x → ∀ q ∈ net.air, q.2.tag ≠ some x)
    (hhand : ∀ d m, (.push d, m) ∈ (net.server.step imported (.apiRead n l.msg)).2 →
      net.server.routeMap m.sequence = none) :
    Traced (net.arrive imported l (.toServer n)) := by
  have hreg := h.registered.step imported (.apiRead n l.msg)
  rcases Server.apiRead_cases imported net.server n l.msg with
    ⟨g, client, -, hclient, hin, heq⟩ | ⟨hno, hcases⟩
  · rw [Server.convertAndRoute_some hclient] at heq
    have hnum := hhand client.channel _ (by rw [heq]; exact List.mem_cons_self)
    rw [heq] at hreg
    simp only [arrive, heq, World.handedOn]
    refine h.handOn hfree hsound hnum hreg rfl hin.2 fun m hm => ?_
    dsimp only
    rcases eq_or_ne m n with rfl | hne
    · rw [Function.update_self]
      exact ⟨hm, rfl⟩
    · rw [Function.update_of_ne hne]
      exact ⟨hm, rfl⟩
  · have hserved : Traced { net with
        server := (net.server.step imported (.apiRead n l.msg)).1 } := by
      rcases hcases with ⟨out, -, heq⟩ | heq | ⟨-, hst, login, hlogin, heq⟩
      · rw [heq]
        exact h.quiet h.registered rfl fun m hm => ⟨hm, rfl⟩
      · rw [heq] at hreg ⊢
        refine h.quiet hreg (Server.close_routeMap _ _) fun m hm => ?_
        rw [Server.close_apiHandlers]
        exact ⟨hm, rfl⟩
      · simp only [ApiServerHandler.handleAdminClientLogin, hlogin] at heq
        rw [heq] at hreg ⊢
        refine h.quiet hreg rfl fun m hm => ?_
        -- the one that logs in was not logged in
        have hne : m ≠ n := by
          rintro rfl
          rw [hst] at hm
          cases hm
        dsimp only
        rw [Function.update_of_ne hne]
        exact ⟨hm, rfl⟩
    exact hserved.reply hfree hsound (Server.apiRead_replies imported hno)

/-- The server reads an answer: the record under its number is taken out, and the client gets the
    answer under the number of its own. -/
theorem Traced.answer (h : Traced net) {t : Tag} {ext : Int} {call : Call}
    (hfree : ∀ x, l.tag = some x → ∀ q ∈ net.air, q.2.tag ≠ some x)
    (haccounts : OneConnection net.server) (ht : l.tag = some t)
    (hnoted : net.Noted t l.msg.sequence ext call) :
    Traced { net with
      server := (PushServerHandler.handleRsp net.server l.msg).1
      air := net.air ++ written (PushServerHandler.handleRsp net.server l.msg).1 l.tag none
        (PushServerHandler.handleRsp net.server l.msg).2 } := by
  have hserved : Traced { net with
      server := (PushServerHandler.handleRsp net.server l.msg).1 } := by
    rw [Server.handleRsp_server]
    refine h.serve h.registered fun q hq t' ext' call' ht' hn => ?_
    have hne : q.2.msg.sequence ≠ l.msg.sequence := by
      intro heq
      have horigin := hn.origin
      rw [heq, hnoted.origin] at horigin
      cases horigin
      exact hfree t ht q hq ht'
    exact hn.of_server (Function.update_of_ne hne _ _) fun m hm => ⟨hm, rfl⟩
  rcases Server.handleRsp_writes net.server l.msg with hout | ⟨w, hout⟩
  · rw [hout]
    show Traced { net with
      server := (PushServerHandler.handleRsp net.server l.msg).1, air := net.air ++ [] }
    rw [List.append_nil]
    exact hserved
  · obtain ⟨record, cl, hrecord, hcl, rfl⟩ := Server.mem_handleRsp.mp
      (show w ∈ (PushServerHandler.handleRsp net.server l.msg).2 by rw [hout]; simp)
    rw [hout]
    rcases written_single (PushServerHandler.handleRsp net.server l.msg).1 l.tag none
      (.api cl.channel, { l.msg with sequence := record.extSeq }) with hw | hw
    · rw [hw, List.append_nil]
      exact hserved
    · rw [hw]
      -- the account of the record is logged in on one connection only
      rw [hnoted.record] at hrecord
      cases hrecord
      obtain ⟨a, ha, hcl⟩ := Option.bind_eq_some_iff.mp hcl
      obtain ⟨hin, hid⟩ := h.registered a cl hcl
      have hclient : t.client = cl.channel :=
        haccounts _ _ hnoted.loggedIn hin.2 (ha.trans hid.symm)
      exact hserved.send hfree ⟨t, call, ht, hclient, hnoted.expects⟩

/-- The server reads what a gateway has sent. -/
theorem Traced.fromGateway (h : Traced net) {d : Nat} (hsound : net.Sound l (.fromGateway d))
    (hfree : ∀ x, l.tag = some x → ∀ q ∈ net.air, q.2.tag ≠ some x)
    (haccounts : OneConnection net.server) :
    Traced (net.arrive imported l (.fromGateway d)) := by
  have hreg := h.registered.step imported (.pushRead d l.msg)
  rcases Server.pushRead_cases imported net.server d l.msg with ⟨hans, heq⟩ | ⟨hno, hcases⟩
  · simp only [arrive, heq]
    rcases hsound with ⟨t, ext, call, ht, hnoted⟩ | ⟨-, hnone⟩
    · exact h.answer hfree haccounts ht hnoted
    · rw [hans.2] at hnone
      cases hnone
  · have hserved : Traced { net with
        server := (net.server.step imported (.pushRead d l.msg)).1 } := by
      rcases hcases with heq | heq | ⟨-, -, login, rsp, heq⟩
      · rw [heq]
        exact h.quiet h.registered rfl fun m hm => ⟨hm, rfl⟩
      · rw [heq] at hreg ⊢
        refine h.quiet hreg (Server.close_routeMap _ _) fun m hm => ?_
        rw [Server.close_apiHandlers]
        exact ⟨hm, rfl⟩
      · rw [heq] at hreg ⊢
        exact h.quiet hreg rfl fun m hm => ⟨hm, rfl⟩
    show Traced { net with
      server := (net.server.step imported (.pushRead d l.msg)).1
      air := net.air ++ written (net.server.step imported (.pushRead d l.msg)).1 l.tag none
        (net.server.step imported (.pushRead d l.msg)).2 }
    rcases Server.pushRead_replies imported hno with hout | ⟨m, hout, hpeer⟩
    · rw [hout]
      show Traced { net with
        server := (net.server.step imported (.pushRead d l.msg)).1, air := net.air ++ [] }
      rw [List.append_nil]
      exact hserved
    · rw [hout]
      rcases written_single (net.server.step imported (.pushRead d l.msg)).1 l.tag none
        (.push d, m) with hw | hw
      · rw [hw, List.append_nil]
        exact hserved
      · rw [hw]
        exact hserved.send (fun x hx => nomatch hx) (Or.inr ⟨rfl, hpeer⟩)

/-- A client reads an answer: the route under its number is taken out. -/
theorem Traced.toClient (h : Traced net) {n : Nat} (hsound : net.Sound l (.toClient n))
    (hfree : ∀ x, l.tag = some x → ∀ q ∈ net.air, q.2.tag ≠ some x) :
    Traced (net.arrive imported l (.toClient n)) := by
  obtain ⟨t, call, ht, rfl, he⟩ := hsound
  refine ⟨h.registered, fun m => ?_, h.apart, fun q hq => ?_⟩
  · show (Function.update net.clients t.client _ m).Orderly
    rcases eq_or_ne m t.client with rfl | hne
    · rw [Function.update_self]
      exact (h.orderly _).channelRead0 l.msg
    · rw [Function.update_of_ne hne]
      exact h.orderly m
  · refine (h.sound q hq).of_clients fun t' seq call' ht' he' => ?_
    rcases eq_or_ne t'.client t.client with hclient | hne
    · have hseq : seq ≠ l.msg.sequence := by
        rintro rfl
        cases he'.tag_eq he hclient
        exact hfree t ht q hq ht'
      rw [hclient, Function.update_self, MonsysConnection.channelRead0]
      rw [Expects, hclient] at he'
      split
      · rw [(h.orderly _).led.onResponse he]
        dsimp only
        rw [Function.update_of_ne hseq]
        exact he'
      · exact he'
    · rw [Function.update_of_ne hne]
      exact he'

theorem Traced.deliver (h : Traced net) (hcare : Careful imported net (.deliver p)) :
    Traced (net.step imported (.deliver p)) := by
  rw [step]
  split
  · exact h
  · next q air hnext =>
    obtain ⟨hsound, htaken, hfree⟩ := h.taken hnext
    rw [mem_next hnext] at hsound
    have hsound : ({ net with air := air } : Net).Sound q.2 p :=
      hsound.of_clients fun _ _ _ _ he => he
    cases p with
    | toServer n =>
      exact htaken.toServer hsound hfree fun d m hm => hcare.handings n q air rfl hnext d m hm
    | toClient n => exact htaken.toClient hsound hfree
    | toGateway d =>
      rw [arrive]
      split
      · next hpeer =>
        refine htaken.send hfree ?_
        rcases hsound with hasked | ⟨-, hnone⟩
        · exact hasked
        · rw [hnone] at hpeer
          cases hpeer
      · exact htaken
    | desk d => exact htaken
    | fromGateway d => exact htaken.fromGateway hsound hfree hcare.accounts

theorem Traced.gatewayAnswers (h : Traced net) (imported : String → Bool) (d : Nat) (seq : Int)
    (rsp : PushMsg) : Traced (net.step imported (.gatewayAnswers d seq rsp)) := by
  rw [Net.step]
  split
  · exact h
  · next q air hdesk =>
    obtain ⟨hsound, htaken, hfree⟩ := h.taken hdesk
    have hmeant := Transit.meant_of_pick hdesk
    rw [decide_eq_true_eq] at hmeant
    obtain ⟨hplace, rfl⟩ := hmeant
    rw [hplace] at hsound
    obtain ⟨t, ext, call, ht, hnoted, -⟩ := hsound
    refine htaken.send hfree (Or.inl ⟨t, ext, call, ht, ?_⟩)
    exact hnoted.of_expects rfl rfl hnoted.expects

/-- **A careful step keeps the invariant.** -/
theorem Traced.step (h : Traced net) {e : Event} (hcare : Careful imported net e) :
    Traced (net.step imported e) := by
  cases e with
  | act n a => exact h.act hcare
  | deliver p => exact h.deliver hcare
  | gatewaySends d msg =>
    rw [Net.step]
    split
    · exact h
    · next hans => exact h.send (fun x hx => nomatch hx) (Or.inr ⟨rfl, by simpa using hans⟩)
  | gatewayAnswers d seq rsp => exact h.gatewayAnswers imported d seq rsp
  | close ch =>
    refine h.quiet (h.registered.step imported (.close ch)) ?_ fun m hm => ?_
    · rw [Server.step]
      split
      · rfl
      · exact Server.close_routeMap _ _
    · rw [Server.step_close_apiHandlers]
      exact ⟨hm, rfl⟩
  | lose p =>
    refine ⟨h.registered, h.orderly, h.apart.sublist List.filter_sublist, fun q hq => ?_⟩
    exact (h.sound q (List.mem_of_mem_filter hq)).of_clients fun _ _ _ _ he => he

/-! ## Promises -/

/-- What a step does to a client. -/
theorem step_clients (imported : String → Bool) (net : Net) (e : Event) (n : Nat) :
    (net.step imported e).clients n = net.clients n ∨
    (∃ a, e = .act n a ∧ (net.step imported e).clients n = ((net.clients n).act a).1) ∨
    ∃ q air, e = .deliver (.toClient n) ∧ net.next (.toClient n) = some (q, air) ∧
      (net.step imported e).clients n = ((net.clients n).channelRead0 q.2.msg).1 := by
  cases e with
  | act m a =>
    rcases eq_or_ne n m with rfl | hne
    · exact Or.inr (Or.inl ⟨a, rfl, Function.update_self _ _ _⟩)
    · exact Or.inl (Function.update_of_ne hne _ _)
  | deliver p =>
    rw [step]
    split
    · exact Or.inl rfl
    · next q air hnext =>
      cases p with
      | toServer m => exact Or.inl rfl
      | toClient m =>
        rcases eq_or_ne n m with rfl | hne
        · exact Or.inr (Or.inr ⟨q, air, rfl, hnext, Function.update_self _ _ _⟩)
        · exact Or.inl (Function.update_of_ne hne _ _)
      | toGateway d =>
        rw [arrive]
        split <;> exact Or.inl rfl
      | desk d => exact Or.inl rfl
      | fromGateway d => exact Or.inl rfl
  | gatewaySends d msg =>
    rw [step]
    split <;> exact Or.inl rfl
  | gatewayAnswers d seq rsp =>
    rw [step]
    split <;> exact Or.inl rfl
  | close ch => exact Or.inl rfl
  | lose p => exact Or.inl rfl

/-- **What the system does for promises.** `completed`: a promise is completed as its client reads a
    letter with its tag, and with what its own call makes of this.  `asked`: what a gateway answers
    is the request of a call whose promise waits, but for the number, and the answer goes under the
    tag of this promise.  -/
structure Faithful (imported : String → Bool) (net : Net) (e : Event) : Prop where
  completed : ∀ n p outcome, ∀ q q' : Promise,
    (net.clients n).promises[p]? = some q → q.outcome = none →
    ((net.step imported e).clients n).promises[p]? = some q' → q'.outcome = some outcome →
      ∃ l air, e = .deliver (.toClient n) ∧ net.next (.toClient n) = some (l, air) ∧
        l.2.tag = some ⟨n, p⟩ ∧ outcome = q.call.outcome l.2.msg
  asked : ∀ d seq rsp l air, e = .gatewayAnswers d seq rsp → net.onDesk d seq = some (l, air) →
    ∃ t ext call, l.2.tag = some t ∧
      (net.clients t.client).promises[t.promise]? = some { call := call } ∧
      l.2.msg = { call.message ext with sequence := seq } ∧
      (net.step imported e).air =
        air ++ [(.fromGateway d, ⟨{ rsp with sequence := seq }, some t⟩)]

theorem Traced.faithful (h : Traced net) (imported : String → Bool) (e : Event) :
    Faithful imported net e where
  completed := by
    intro n p outcome q q' hq hwaits hq' houtcome
    rcases step_clients imported net e n with hsame | ⟨a, -, hact⟩ | ⟨l, air, rfl, hnext, hread⟩
    · rw [hsame, hq] at hq'
      cases hq'
      rw [hwaits] at houtcome
      cases houtcome
    · obtain ⟨new, hpromises, -⟩ := (net.clients n).act_promises a
      have hlt := (List.getElem?_eq_some_iff.mp hq).1
      rw [hact, hpromises, List.getElem?_append_left hlt, hq] at hq'
      cases hq'
      rw [hwaits] at houtcome
      cases houtcome
    · refine ⟨l, air, rfl, hnext, ?_⟩
      obtain ⟨hsound, -, -⟩ := h.taken hnext
      rw [mem_next hnext] at hsound
      obtain ⟨t, call, ht, rfl, he⟩ := hsound
      have hunchanged : ((net.step imported (.deliver (.toClient t.client))).clients
          t.client).promises[p]? = some q → False := by
        intro hsame
        rw [hsame] at hq'
        cases hq'
        rw [hwaits] at houtcome
        cases houtcome
      rw [hread, MonsysConnection.channelRead0] at hunchanged hq'
      split at hq'
      · next hlife =>
        have hled := (h.orderly t.client).led
        obtain ⟨-, hpromise⟩ := hled.items _ _ he
        dsimp only at hpromise
        rw [if_pos hlife] at hunchanged
        rw [hled.onResponse he] at hunchanged hq'
        dsimp only at hunchanged hq'
        rcases eq_or_ne t.promise p with rfl | hne
        · -- the promise of the tag
          rw [List.getElem?_set_self (List.getElem?_eq_some_iff.mp hpromise).1] at hq'
          rw [hpromise] at hq
          cases hq
          cases hq'
          exact ⟨ht, (Option.some.inj houtcome).symm⟩
        · rw [List.getElem?_set_ne hne] at hunchanged
          exact absurd hq fun hq => hunchanged hq
      · next hlife =>
        rw [if_neg hlife] at hunchanged
        exact absurd hq fun hq => hunchanged hq
  asked := by
    rintro d seq rsp l air rfl hdesk
    obtain ⟨hsound, -, -⟩ := h.taken hdesk
    have hmeant := Transit.meant_of_pick hdesk
    rw [decide_eq_true_eq] at hmeant
    obtain ⟨hplace, rfl⟩ := hmeant
    rw [hplace] at hsound
    obtain ⟨t, ext, call, ht, hnoted, hmsg⟩ := hsound
    refine ⟨t, ext, call, ht, ((h.orderly t.client).led.items _ _ hnoted.expects).2, hmsg, ?_⟩
    simp only [Net.step, hdesk, ht]

end Net

end Monsys.Push
