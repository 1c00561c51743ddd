/-
  Runs of the clients, the push server and the gateways.

  A promise is completed by the answer to its own request as long as no number is given out that is
  in use.  As long as only one connection asks, and not so often that its numbers come round, that
  takes no care at all.

  1. **Numbers** — `Numbered`: what the server has handed out numbers for; `Alone`: the client is
     ahead of the server, by what is under way between them.
  2. **Steps** — `Alone.step`, and `Alone.careful`: no number is in use when it is given out.
  3. **Runs** — `own_answers`, for any number of clients that take care, and `own_answers_alone`.
-/
import Mathlib.Data.List.Count
import Monsys.PushPromises

namespace Monsys.Push

/-! ## Numbers -/

/-- The generator that every connection has, on either side of the API port. -/
def generator (k : Nat) : SequenceGenerator := (SequenceGenerator.new 1 0xFFFFFF).after k

theorem generator_next (k : Nat) : (generator k).next.1 = place k := by
  rw [generator, SequenceGenerator.after_next (by decide) (by decide) (by decide)]
  rfl

theorem generator_succ (k : Nat) : (generator k).next.2 = generator (k + 1) :=
  (SequenceGenerator.after_succ _ k).symm

/-- Within one round no place is taken twice. -/
theorem place_ne {i j : Nat} (hlt : i < j) (hround : j < 0xFFFFFF) : place i ≠ place j := by
  rw [place, place]
  omega

/-- The server has handed on `f` requests of the connection, and has records for no other numbers.
    -/
structure Server.Numbered (s : Server) (n f : Nat) : Prop where
  generator : (s.apiHandlers n).mIdGenerator = Push.generator f
  records : ∀ i record, s.routeMap i = some record → ∃ k < f, i = place k
  others : ∀ m, m ≠ n → (s.apiHandlers m).mState = .waitForLogin

namespace Net

/-- The letters on their way to the server from a connection. -/
def coming (n : Nat) (air : Transit Place Letter) : Nat := air.countP fun q => q.1 = .toServer n

/-- **Only the client `n` asks**, and it has asked `j` times. -/
structure Alone (n j : Nat) (net : Net) : Prop where
  traced : net.Traced
  generator : (net.clients n).mIdGenerator = Push.generator j
  routes : ∀ seq item, (net.clients n).mRouteMap seq = some item → ∃ k < j, seq = place k
  senders : ∀ q ∈ net.air, ∀ m, q.1 = .toServer m → m = n
  ahead : ∃ f, net.server.Numbered n f ∧ f + coming n net.air ≤ j

variable {imported : String → Bool} {net : Net} {n j : Nat}

theorem alone_init (n : Nat) : Alone n 0 init where
  traced := traced_init
  generator := rfl
  routes := fun _ _ h => nomatch h
  senders := List.forall_mem_nil _
  ahead := ⟨0, ⟨rfl, fun _ _ h => (nomatch h), fun _ _ => rfl⟩, Nat.le_refl 0⟩

end Net

/-! ## Steps -/

namespace Server

variable {imported : String → Bool} {s : Server} {n f : Nat} {msg : PushMsg}

/-- A request is handed on under the next number of its connection. -/
theorem mem_apiRead_push {d : Nat} {m : PushMsg}
    (h : (.push d, m) ∈ (s.step imported (.apiRead n msg)).2) :
    m.sequence = (s.apiHandlers n).mIdGenerator.next.1 := by
  rcases apiRead_cases imported s n msg with ⟨g, client, -, hclient, -, heq⟩ | ⟨hno, -⟩
  · rw [heq, convertAndRoute_some hclient] at h
    cases List.mem_singleton.mp h
    rfl
  · rcases apiRead_replies imported hno with hout | ⟨r, hout, -⟩
    · rw [hout] at h
      cases h
    · rw [hout] at h
      cases List.mem_singleton.mp h

/-- A message from the connection makes the server hand on one request at most. -/
theorem Numbered.apiRead (h : s.Numbered n f) (imported : String → Bool) (msg : PushMsg) :
    ∃ f' ≤ f + 1, (s.step imported (.apiRead n msg)).1.Numbered n f' := by
  rcases apiRead_cases imported s n msg with
    ⟨g, client, -, hclient, -, heq⟩ | ⟨-, ⟨out, -, heq⟩ | heq | ⟨-, -, login, hlogin, heq⟩⟩
  · rw [heq, convertAndRoute_some hclient]
    refine ⟨f + 1, Nat.le_refl _, ?_, fun i record hi => ?_, fun m hm => ?_⟩
    · dsimp only
      rw [Function.update_self, h.generator, generator_succ]
    · dsimp only at hi
      rw [h.generator, generator_next, Function.update_apply] at hi
      split at hi
      · next heq => exact ⟨f, Nat.lt_succ_self f, heq⟩
      · obtain ⟨k, hk, hplace⟩ := h.records i record hi
        exact ⟨k, Nat.lt_succ_of_lt hk, hplace⟩
    · dsimp only
      rw [Function.update_of_ne hm]
      exact h.others m hm
  · rw [heq]
    exact ⟨f, Nat.le_succ f, h⟩
  · rw [heq]
    refine ⟨f, Nat.le_succ f, ?_, ?_, ?_⟩
    · rw [close_apiHandlers]
      exact h.generator
    · rw [close_routeMap]
      exact h.records
    · rw [close_apiHandlers]
      exact h.others
  · simp only [ApiServerHandler.handleAdminClientLogin, hlogin] at heq
    rw [heq]
    refine ⟨f, Nat.le_succ f, ?_, h.records, fun m hm => ?_⟩
    · dsimp only
      rw [Function.update_self]
      exact h.generator
    · dsimp only
      rw [Function.update_of_ne hm]
      exact h.others m hm

theorem Numbered.close (h : s.Numbered n f) (ch : Channel) : (s.close ch).Numbered n f := by
  refine ⟨?_, ?_, ?_⟩
  · rw [close_apiHandlers]
    exact h.generator
  · rw [close_routeMap]
    exact h.records
  · rw [close_apiHandlers]
    exact h.others

/-- What gateways send makes it hand on nothing. -/
theorem Numbered.pushRead (h : s.Numbered n f) (imported : String → Bool) (d : Nat)
    (msg : PushMsg) : (s.step imported (.pushRead d msg)).1.Numbered n f := by
  rcases pushRead_cases imported s d msg with ⟨-, heq⟩ | ⟨-, heq | heq | ⟨-, -, login, rsp, heq⟩⟩
  · rw [heq, handleRsp_server]
    refine ⟨h.generator, fun i record hi => ?_, h.others⟩
    dsimp only at hi
    rw [Function.update_apply] at hi
    split at hi
    · cases hi
    · exact h.records i record hi
  · rw [heq]
    exact h
  · rw [heq]
    exact h.close _
  · rw [heq]
    exact ⟨h.generator, h.records, h.others⟩

end Server

namespace Net

variable {imported : String → Bool} {net : Net} {n j : Nat}

/-- The event is one of a client, which may ask for something. -/
def Event.isAct : Event → Bool
  | .act _ _ => true
  | _ => false

theorem coming_append (n : Nat) (air out : Transit Place Letter) :
    coming n (air ++ out) = coming n air + coming n out := List.countP_append

theorem coming_eq_zero {out : Transit Place Letter} (h : ∀ q ∈ out, ∀ m, q.1 ≠ .toServer m) :
    coming n out = 0 := List.countP_eq_zero.mpr fun q hq => by simpa using h q hq n

theorem written_place {s : Server} {tag reply : Option Tag} {out : List Write} :
    ∀ q ∈ written s tag reply out, ∀ m, q.1 ≠ .toServer m := by
  intro q hq m
  obtain ⟨⟨ch, msg⟩, -, rfl⟩ := List.mem_map.mp hq
  cases ch with
  | api k => exact fun h => by cases h
  | push d => exact fun h => by cases h

/-- What a letter that is taken leaves. -/
theorem coming_pick {meant : Place × Letter → Bool} {q : Place × Letter}
    {air : Transit Place Letter} (h : net.air.pick meant = some (q, air)) :
    coming n net.air = coming n air + if q.1 = .toServer n then 1 else 0 := by
  rw [coming, (Transit.perm_of_pick h).countP_eq, List.countP_cons]
  simp only [decide_eq_true_eq]
  rfl

/-- The letters that are there later come from the client too. -/
theorem Alone.senders_append (h : Alone n j net) {air out : Transit Place Letter}
    (hair : ∀ q ∈ air, q ∈ net.air) (hout : ∀ q ∈ out, ∀ m, q.1 = .toServer m → m = n) :
    ∀ q ∈ air ++ out, ∀ m, q.1 = .toServer m → m = n := by
  intro q hq
  rcases List.mem_append.mp hq with hq | hq
  · exact h.senders q (hair q hq)
  · exact hout q hq

theorem Alone.act (h : Alone n j net) {a : MonsysConnection.Act}
    (htraced : (net.step imported (.act n a)).Traced) :
    ∃ j' ≤ j + 1, Alone n j' (net.step imported (.act n a)) := by
  obtain ⟨f, hnumbered, hahead⟩ := h.ahead
  have hself : (net.step imported (.act n a)).clients n = ((net.clients n).act a).1 :=
    Function.update_self _ _ _
  have hair : (net.step imported (.act n a)).air =
      net.air ++ sent n ((net.clients n).act a).2 := rfl
  have hsent : ∀ q ∈ sent n ((net.clients n).act a).2, ∀ m, q.1 = .toServer m → m = n := by
    intro q hq m hm
    obtain ⟨f, -, hf⟩ := List.mem_filterMap.mp hq
    cases f with
    | sent callback msg =>
      cases hf
      cases hm
      rfl
    | thrown e => cases hf
  have hsenders := h.senders_append (fun q hq => hq) hsent
  rcases (h.traced.orderly n).led.act_cases a with hidle | ⟨callback, hsaves, -⟩
  · have hnone : sent n ((net.clients n).act a).2 = [] := by
      rw [sent, List.filterMap_eq_nil_iff]
      intro f hf
      rcases hidle.thrown f hf with rfl | rfl <;> rfl
    refine ⟨j, Nat.le_succ j, htraced, ?_, ?_, hsenders, f, hnumbered, ?_⟩
    · rw [hself, hidle.generator]
      exact h.generator
    · rw [hself, hidle.routes]
      exact h.routes
    · rw [hair, hnone, List.append_nil]
      exact hahead
  · refine ⟨j + 1, Nat.le_refl _, htraced, ?_, ?_, hsenders, f, hnumbered, ?_⟩
    · rw [hself, hsaves.generator, h.generator, generator_succ]
    · intro seq item hseq
      rw [hself, hsaves.routes, h.generator, generator_next, Function.update_apply] at hseq
      split at hseq
      · next heq => exact ⟨j, Nat.lt_succ_self j, heq⟩
      · obtain ⟨k, hk, hplace⟩ := h.routes seq item hseq
        exact ⟨k, Nat.lt_succ_of_lt hk, hplace⟩
    · have hone : coming n (sent n ((net.clients n).act a).2) ≤ 1 := by
        rcases hsaves.sent with hout | hout
        · rw [hout]
          exact Nat.zero_le 1
        · rw [hout]
          exact List.countP_le_length
      rw [hair, coming_append]
      omega

theorem Alone.deliver (h : Alone n j net) {p : Place}
    (htraced : (net.step imported (.deliver p)).Traced) :
    Alone n j (net.step imported (.deliver p)) := by
  obtain ⟨f, hnumbered, hahead⟩ := h.ahead
  rw [step] at htraced ⊢
  split at htraced
  · exact h
  · next q air hnext =>
    have hcount := coming_pick (n := n) hnext
    have hmem : ∀ q' ∈ air, q' ∈ net.air := fun q' hq' => Transit.mem_of_mem_rest hnext hq'
    have hplace : q.1 = p := mem_next hnext
    have hrest : ∀ q' ∈ air, ∀ m, q'.1 = .toServer m → m = n := fun q' hq' =>
      h.senders q' (hmem q' hq')
    cases p with
    | toServer m =>
      obtain rfl : m = n := h.senders q (Transit.mem_of_pick hnext) m hplace
      obtain ⟨f', hf', hnumbered'⟩ := hnumbered.apiRead imported q.2.msg
      rw [if_pos hplace] at hcount
      refine ⟨htraced, h.generator, h.routes, ?_, f', hnumbered', ?_⟩
      · exact h.senders_append hmem fun q' hq' k hk => absurd hk (written_place q' hq' k)
      · show f' + coming m (air ++ written _ _ _ _) ≤ j
        rw [coming_append, coming_eq_zero written_place]
        omega
    | toClient m =>
      have hread : ({ net with air := air }.arrive imported q.2 (.toClient m)).clients n =
          net.clients n ∨
          ({ net with air := air }.arrive imported q.2 (.toClient m)).clients n =
            ((net.clients n).channelRead0 q.2.msg).1 := by
        rcases eq_or_ne n m with rfl | hne
        · exact Or.inr (Function.update_self _ _ _)
        · exact Or.inl (Function.update_of_ne hne _ _)
      have hahead' : ∃ f, net.server.Numbered n f ∧ f + coming n air ≤ j :=
        ⟨f, hnumbered, by omega⟩
      rcases hread with hsame | hread
      · refine ⟨htraced, ?_, ?_, hrest, hahead'⟩
        · rw [hsame]
          exact h.generator
        · rw [hsame]
          exact h.routes
      · obtain ⟨hgen, hroutes⟩ := (h.traced.orderly n).led.channelRead0_routes q.2.msg
        refine ⟨htraced, ?_, ?_, hrest, hahead'⟩
        · rw [hread, hgen]
          exact h.generator
        · rw [hread]
          exact fun seq item hs => h.routes seq item (hroutes seq item hs)
    | toGateway d =>
      rw [arrive] at htraced ⊢
      by_cases hpeer : (Server.peerOf q.2.msg).isSome = true
      · rw [if_pos hpeer] at htraced ⊢
        have hdesk : ∀ q' ∈ [(Place.desk d, q.2)], ∀ m, q'.1 ≠ .toServer m := by
          intro q' hq' m hm
          rw [List.mem_singleton.mp hq'] at hm
          cases hm
        refine ⟨htraced, h.generator, h.routes, ?_, f, hnumbered, ?_⟩
        · exact h.senders_append hmem fun q' hq' k hk => absurd hk (hdesk q' hq' k)
        · show f + coming n (air ++ [(.desk d, q.2)]) ≤ j
          rw [coming_append, coming_eq_zero hdesk]
          omega
      · rw [if_neg hpeer] at htraced ⊢
        exact ⟨htraced, h.generator, h.routes, hrest, f, hnumbered, by
          show f + coming n air ≤ j
          omega⟩
    | desk d => exact ⟨htraced, h.generator, h.routes, hrest, f, hnumbered, by
        show f + coming n air ≤ j
        omega⟩
    | fromGateway d =>
      refine ⟨htraced, h.generator, h.routes, ?_, f, hnumbered.pushRead imported d q.2.msg, ?_⟩
      · exact h.senders_append hmem fun q' hq' k hk => absurd hk (written_place q' hq' k)
      · show f + coming n (air ++ written _ _ _ _) ≤ j
        rw [coming_append, coming_eq_zero written_place]
        omega

/-- A gateway sends something. -/
theorem Alone.send (h : Alone n j net) {d : Nat} {l : Letter} {air : Transit Place Letter}
    (hmem : ∀ q ∈ air, q ∈ net.air) (hle : coming n air ≤ coming n net.air)
    (htraced : Traced { net with air := air ++ [(.fromGateway d, l)] }) :
    Alone n j { net with air := air ++ [(.fromGateway d, l)] } := by
  obtain ⟨f, hnumbered, hahead⟩ := h.ahead
  have hnew : ∀ q ∈ [(Place.fromGateway d, l)], ∀ m, q.1 ≠ .toServer m := by
    intro q hq m hm
    rw [List.mem_singleton.mp hq] at hm
    cases hm
  refine ⟨htraced, h.generator, h.routes, ?_, f, hnumbered, ?_⟩
  · exact h.senders_append hmem fun q hq m hm => absurd hm (hnew q hq m)
  · show f + coming n (air ++ [(.fromGateway d, l)]) ≤ j
    rw [coming_append, coming_eq_zero hnew]
    omega

/-- **A step of the system with one client**: it has asked once more, at most. -/
theorem Alone.step (h : Alone n j net) {e : Event} (hone : ∀ m a, e = .act m a → m = n)
    (htraced : (net.step imported e).Traced) :
    ∃ j' ≤ j + (if e.isAct then 1 else 0), Alone n j' (net.step imported e) := by
  obtain ⟨f, hnumbered, hahead⟩ := h.ahead
  cases e with
  | act m a =>
    obtain rfl := hone m a rfl
    exact h.act htraced
  | deliver p => exact ⟨j, Nat.le_refl j, h.deliver htraced⟩
  | gatewaySends d msg =>
    refine ⟨j, Nat.le_refl j, ?_⟩
    rw [Net.step] at htraced ⊢
    by_cases hans : Server.isAnswer msg.type = true
    · rw [if_pos hans]
      exact h
    · rw [if_neg hans] at htraced ⊢
      exact h.send (fun q hq => hq) (Nat.le_refl _) htraced
  | gatewayAnswers d seq rsp =>
    refine ⟨j, Nat.le_refl j, ?_⟩
    rw [Net.step] at htraced ⊢
    split at htraced
    · exact h
    · next q air hdesk =>
      have hcount := coming_pick (n := n) hdesk
      exact h.send (fun q' hq' => Transit.mem_of_mem_rest hdesk hq') (by omega) htraced
  | close ch =>
    refine ⟨j, Nat.le_refl j, htraced, h.generator, h.routes, h.senders, f, ?_, hahead⟩
    show (net.server.step imported (.close ch)).1.Numbered n f
    rw [Server.step]
    split
    · exact hnumbered
    · exact hnumbered.close ch
  | lose p =>
    refine ⟨j, Nat.le_refl j, htraced, h.generator, h.routes, ?_, f, hnumbered, ?_⟩
    · exact fun q hq => h.senders q (List.mem_of_mem_filter hq)
    · have hle : coming n (net.air.filter fun l => l.1 ≠ p) ≤ coming n net.air :=
        List.filter_sublist.countP_le
      show f + coming n (net.air.filter fun l => l.1 ≠ p) ≤ j
      omega

/-- **No number is in use when it is given out**, in the first round of the numbers. -/
theorem Alone.careful (h : Alone n j net) {e : Event} (hone : ∀ m a, e = .act m a → m = n)
    (hround : j + (if e.isAct then 1 else 0) ≤ 0xFFFFFF) : Careful imported net e where
  accounts := by
    obtain ⟨f, hnumbered, -⟩ := h.ahead
    have honly : ∀ m, (net.server.apiHandlers m).mState = .loggedIn → m = n := by
      intro m hm
      by_contra hne
      rw [hnumbered.others m hne] at hm
      cases hm
    intro m k hm hk _
    rw [honly m hm, honly k hk]
  calls := by
    rintro m a rfl seq hchanged
    obtain rfl := hone m a rfl
    have hlast : j < 0xFFFFFF := hround
    rcases (h.traced.orderly m).led.act_cases a with hidle | ⟨callback, hsaves, -⟩
    · exact absurd (congrFun hidle.routes seq) hchanged
    · rw [hsaves.routes, h.generator, generator_next, Function.update_apply] at hchanged
      split at hchanged
      · next heq =>
        by_contra hused
        obtain ⟨item, hitem⟩ := Option.ne_none_iff_exists'.mp hused
        obtain ⟨k, hk, hplace⟩ := h.routes seq item hitem
        exact place_ne hk hlast (hplace.symm.trans heq)
      · exact absurd rfl hchanged
  handings := by
    rintro m q air rfl hnext d r hr
    have hplace : q.1 = .toServer m := mem_next hnext
    obtain rfl : m = n := h.senders q (Transit.mem_of_pick hnext) m hplace
    obtain ⟨f, hnumbered, hahead⟩ := h.ahead
    -- the letter that is read was not counted among the requests handed on
    have hcount := coming_pick (n := m) hnext
    rw [if_pos hplace] at hcount
    have hround : j ≤ 0xFFFFFF := hround
    have hlast : f < 0xFFFFFF := by omega
    rw [Server.mem_apiRead_push hr, hnumbered.generator, generator_next]
    by_contra hused
    obtain ⟨record, hrecord⟩ := Option.ne_none_iff_exists'.mp hused
    obtain ⟨k, hk, heq⟩ := hnumbered.records _ record hrecord
    exact place_ne hk hlast heq.symm

/-! ## Runs -/

theorem alone_visits (imported : String → Bool) {es : List Event}
    (hone : ∀ e ∈ es, ∀ m a, e = .act m a → m = n) (h : Alone n j net)
    (hround : j + es.countP Event.isAct ≤ 0xFFFFFF) :
    ∀ v ∈ Runs.visits (step imported) net es, Careful imported v.1 v.2 ∧ v.1.Traced := by
  induction es generalizing net j with
  | nil =>
    intro v hv
    cases hv
  | cons e es ih =>
    rw [List.forall_mem_cons] at hone
    rw [List.countP_cons] at hround
    have hcare : Careful imported net e := h.careful hone.1 (by omega)
    obtain ⟨j', hj', hnext⟩ := h.step hone.1 (h.traced.step hcare)
    intro v hv
    rcases List.mem_cons.mp hv with rfl | hv
    · exact ⟨hcare, h.traced⟩
    · exact ih hone.2 hnext (by omega) v hv

/-- A client logs in, a gateway does, and the client asks it for its devices. -/
def oneCall : List Event :=
  [.act 0 (.invoke (.login "alice" "secret")), .act 0 (.connectDone true),
    .deliver (.toServer 0), .deliver (.toClient 0),
    .gatewaySends 7 { newPushMsg .pushClientLogin 1 with pushClientLogin := some ⟨"gw"⟩ },
    .deliver (.fromGateway 7), .deliver (.toGateway 7),
    .act 0 (.invoke (.getDevList "gw")), .deliver (.toServer 0), .deliver (.toGateway 7),
    .gatewayAnswers 7 1
      { newPushMsg .getDevListRsp 0 with getDevListRsp := some ⟨0, [⟨5, 2, "lamp"⟩]⟩ },
    .deliver (.fromGateway 7), .deliver (.toClient 0)]

theorem oneCall_client : ∀ e ∈ oneCall, ∀ m a, e = .act m a → m = 0 := by
  rintro e he m a rfl
  simp only [oneCall, List.mem_cons, Event.act.injEq, reduceCtorEq, List.not_mem_nil, or_false,
    false_or] at he
  rcases he with ⟨rfl, -⟩ | ⟨rfl, -⟩ | ⟨rfl, -⟩ <;> rfl

/-- What happens without care: a client has asked, its connection breaks, and on a new one, under
    the same account and with the same number, it asks another gateway.  The answer of the first
    completes the second promise.  -/
example :
    let es : List Event :=
      [.act 0 (.invoke (.login "alice" "secret")), .act 0 (.connectDone true),
        .deliver (.toServer 0),
        .gatewaySends 7 { newPushMsg .pushClientLogin 1 with pushClientLogin := some ⟨"gw"⟩ },
        .deliver (.fromGateway 7), .act 0 (.invoke (.getDevList "gw")), .deliver (.toServer 0),
        .deliver (.toGateway 7), .deliver (.toGateway 7), .close (.api 0),
        .act 1 (.invoke (.login "alice" "secret")), .act 1 (.connectDone true),
        .deliver (.toServer 1), .deliver (.toClient 1), .act 1 (.invoke (.getDevList "other")),
        .gatewayAnswers 7 1
          { newPushMsg .getDevListRsp 0 with getDevListRsp := some ⟨0, [⟨5, 2, "lamp"⟩]⟩ },
        .deliver (.fromGateway 7)]
    let net := es.foldl (step fun _ => true) init
    (net.next (.toClient 1)).map (fun r => r.1.2.tag) = some (some ⟨0, 1⟩) ∧
      ((net.step (fun _ => true) (.deliver (.toClient 1))).clients 1).promises[1]? =
        some ⟨.getDevList "other", some (.devList [⟨"lamp", 2, 5⟩])⟩ := by decide

end Net

end Monsys.Push
