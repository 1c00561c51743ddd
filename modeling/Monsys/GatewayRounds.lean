/-
  Rounds of the gateway's main loop (`server/fgw.cc`).

  A request of the server goes into the serial module's queue when libevent reads it.  In the same
  round the serial module replies to it, and the client sends the reply up.

  1. **The serial module's queue** — `checkSerial`: every request is replied to.
  2. **The client's queue** — `checkClient`: every reply ends the session that waits for it.
  3. **At rest** — `at_rest`: between two rounds nothing waits inside the gateway.
-/
import Monsys.GatewayCallbacks

namespace Monsys

open Push

/-! ## The serial module's queue -/

/-- What the serial module replies to a message in its queue. -/
def ZZBDevManager.replyTo (m : ZZBDevManager) (msg : ZInnerMsg) : List ZInnerMsg :=
  (m.reply msg.body).toList.map fun rsp => ⟨{}, msg.srcAddr, msg.seq, rsp⟩

theorem ZZBDevManager.replyTo_eq {m : ZZBDevManager} {msg : ZInnerMsg} {rsp : InnerBody}
    (h : m.reply msg.body = some rsp) :
    m.replyTo msg = [⟨{}, msg.srcAddr, msg.seq, rsp⟩] := by
  rw [replyTo, h]
  rfl

namespace ZDispatcher

variable {σ ε : Type} {onInnerMsg : σ → ZInnerMsg → Except ε (σ × List ZInnerMsg)} {type : Int}

theorem withQueue_types (d : ZDispatcher) (type : Int) (f : List ZInnerMsg → List ZInnerMsg) :
    (d.withQueue type f).moduleList.map ZModule.type = d.moduleList.map ZModule.type := by
  rw [withQueue, List.map_map]
  refine List.map_congr_left fun m _ => ?_
  rw [Function.comp_apply]
  split <;> rfl

theorem sendAll_types (d : ZDispatcher) (msgs : List ZInnerMsg) :
    (d.sendAll msgs).moduleList.map ZModule.type = d.moduleList.map ZModule.type := by
  induction msgs generalizing d with
  | nil => rfl
  | cons msg msgs ih => exact (ih (d.sendDirect msg).2).trans (Gateway.sendDirect_types d msg)

/-- What waits for a module is its queue. -/
theorem mail_of_mem {d : ZDispatcher} {m : ZModule} (hm : m ∈ d.moduleList) :
    d.mail m.type = some m.innerMsgQueue := by
  rw [mail]
  cases hfind : d.findModule m.type with
  | none =>
    rw [findModule, List.find?_eq_none] at hfind
    exact absurd (decide_eq_true rfl) (hfind m hm)
  | some m' =>
    have hmem : m' ∈ d.moduleList := List.mem_of_find?_eq_some hfind
    rw [List.inj_on_of_nodup_map d.types_nodup hmem hm (findModule_type hfind)]
    rfl

/-- Whoever checks a queue, the modules stay registered. -/
theorem checkMsgQueue_types {n : Nat} {s : σ} {d : ZDispatcher}
    {r : (σ × ZDispatcher) × List (ZInnerMsg × List ZInnerMsg)}
    (h : checkMsgQueue onInnerMsg type n s d = .ok r) :
    r.1.2.moduleList.map ZModule.type = d.moduleList.map ZModule.type := by
  induction n generalizing s d r with
  | zero => cases h
  | succ n ih =>
    rw [checkMsgQueue] at h
    split at h
    · obtain rfl := Except.ok.inj h
      rfl
    · split at h
      · cases h
      · next s' sent hsent =>
        cases hrest : checkMsgQueue onInnerMsg type n s'
            ((d.sendAll sent).withQueue type List.tail) with
        | error e =>
          rw [hrest] at h
          cases h
        | ok r' =>
          rw [hrest] at h
          obtain rfl := Except.ok.inj h
          exact (ih hrest).trans ((withQueue_types _ _ _).trans (sendAll_types d sent))

end ZDispatcher

namespace Modules

theorem skip_zero (m : Modules) : m.skip 0 = m := by
  rw [skip]
  simp only [Nat.zero_add]

theorem skip_skip (m : Modules) (a b : Nat) : (m.skip a).skip b = m.skip (a + b) := by
  simp only [skip, Nat.add_assoc]

theorem foldl_skip (m : Modules) (q : List ZInnerMsg) :
    q.foldl (fun m _ => m.skip 1) m = m.skip q.length := by
  induction q generalizing m with
  | nil => exact m.skip_zero.symm
  | cons msg q ih => rw [List.foldl_cons, ih, skip_skip, List.length_cons, Nat.add_comm]

/-- The serial module replies, and nothing else changes. -/
theorem onInnerMsg_serial (pb : Protobuf) {m : Modules} (hu : m.serial.handler.Unasked)
    {msg : ZInnerMsg} {rsp : InnerBody}
    (hrsp : m.serial.handler.devManager.reply msg.body = some rsp) :
    m.onInnerMsg pb moduleSerial msg =
      .ok (m.skip 1, m.serial.handler.devManager.replyTo msg) := by
  rw [Modules.onInnerMsg, if_pos rfl]
  dsimp only
  rw [hu.onInnerMsg hrsp, ZZBDevManager.replyTo_eq hrsp]
  show Except.ok ({ m with put := m.put ++ [] }.skip 1, _) = _
  rw [List.append_nil]
  rfl

end Modules

namespace Gateway

variable {pb : Protobuf} {g g' : Gateway} {h : FGWClientHandler}

/-- **The serial module checks its queue**: what it replies goes to the client, in order. -/
theorem Steady.checkSerial (pb : Protobuf) (hg : g.Steady h) {q c : List ZInnerMsg}
    (hq : g.dispatcher.mail moduleSerial = some q) (hc : g.dispatcher.mail moduleFgwClient = some c)
    (hreq : ∀ m ∈ q, m.srcAddr = clientAddr ∧
      ∃ rsp, g.modules.serial.handler.devManager.reply m.body = some rsp)
    {fuel : Nat} (hfuel : q.length < fuel) :
    ∃ d, g.checkQueue pb moduleSerial fuel = .ok ⟨g.modules.skip q.length, d⟩ ∧
      Steady ⟨g.modules.skip q.length, d⟩ h ∧ d.mail moduleSerial = some [] ∧
      d.mail moduleFgwClient =
        some (c ++ q.flatMap g.modules.serial.handler.devManager.replyTo) := by
  let mgr := g.modules.serial.handler.devManager
  let P := fun m : Modules => m.serial = g.modules.serial
  let Q := fun m : ZInnerMsg => m.srcAddr = clientAddr ∧ ∃ rsp, mgr.reply m.body = some rsp
  have hhandle : ∀ m msg, P m → Q msg →
      ZDispatcher.handle (Modules.onInnerMsg pb moduleSerial) m msg =
        .ok (m.skip 1, (mgr.replyTo msg).map ZDispatcher.addr) := by
    intro m msg hm ⟨_, rsp, hrsp⟩
    have hserial : m.serial = g.modules.serial := hm
    rw [ZDispatcher.handle, Modules.onInnerMsg_serial pb (by rw [hserial]; exact hg.unasked)
      (by rw [hserial]; exact hrsp), hserial]
    rfl
  have hself : ∀ m msg m' ps, P m → Q msg →
      ZDispatcher.handle (Modules.onInnerMsg pb moduleSerial) m msg = .ok (m', ps) →
        P m' ∧ ∀ p ∈ ps, p.1 ≠ moduleSerial := by
    intro m msg m' ps hm hmsg hok
    rw [hhandle m msg hm hmsg] at hok
    obtain ⟨rfl, rfl⟩ := Prod.mk.inj (Except.ok.inj hok)
    refine ⟨hm, List.forall_mem_map.mpr fun m hm => ?_⟩
    obtain ⟨hsrc, rsp, hrsp⟩ := hmsg
    rw [ZZBDevManager.replyTo_eq hrsp] at hm
    rw [List.mem_singleton.mp hm]
    show msg.srcAddr.moduleType ≠ moduleSerial
    rw [hsrc]
    decide
  have hkept : ∀ m msg, P m → Q msg → P (m.skip 1) := fun _ _ hm _ => hm
  have hstart : P g.modules := rfl
  have hall := Mail.handleAll_eq hkept hhandle hstart hreq
  rw [Modules.foldl_skip, Mail.answers_const] at hall
  obtain ⟨mail', trace, hdrain, hempty, hother⟩ := Mail.drain_eq hself hstart hreq hq hfuel hall
  rw [ZDispatcher.check_drains] at hdrain
  cases hcheck : ZDispatcher.checkMsgQueue (Modules.onInnerMsg pb moduleSerial) moduleSerial fuel
      g.modules g.dispatcher with
  | error e =>
    rw [hcheck] at hdrain
    cases hdrain
  | ok r =>
    obtain ⟨⟨m', d⟩, tr⟩ := r
    rw [hcheck] at hdrain
    obtain ⟨hfst, -⟩ := Prod.mk.inj (Except.ok.inj hdrain)
    obtain ⟨rfl, rfl⟩ := Prod.mk.inj hfst
    refine ⟨d, by rw [checkQueue, hcheck], ⟨?_, hg.unasked, hg.handler⟩, hempty, ?_⟩
    · exact (ZDispatcher.checkMsgQueue_types hcheck).trans hg.registered
    · have hall : ∀ p ∈ (q.flatMap mgr.replyTo).map ZDispatcher.addr, p.1 = moduleFgwClient := by
        refine List.forall_mem_map.mpr fun rsp hrsp => ?_
        obtain ⟨msg, hmsg, hrsp⟩ := List.mem_flatMap.mp hrsp
        obtain ⟨hsrc, body, hbody⟩ := hreq msg hmsg
        rw [ZZBDevManager.replyTo_eq hbody] at hrsp
        rw [List.mem_singleton.mp hrsp]
        show msg.srcAddr.moduleType = moduleFgwClient
        rw [hsrc]
        rfl
      rw [hother moduleFgwClient (by decide), Mail.postAll_apply, hc, Option.map_some,
        ← List.map_flatMap, Mail.addressed_of_eq hall, List.map_map]
      exact congrArg (fun l => some (c ++ l)) (List.map_id _)

end Gateway

/-! ## The client's queue -/

namespace FGWClientHandler

variable {pb : Protobuf} {h : FGWClientHandler}

/-- One `onInnerMsg` after the other. -/
def onInnerMsgs (pb : Protobuf) (h : FGWClientHandler) :
    List ZInnerMsg → FGWClientHandler × List Output
  | [] => (h, [])
  | msg :: msgs =>
    let (h, out) := h.onInnerMsg pb msg
    let (h, outs) := h.onInnerMsgs pb msgs
    (h, out ++ outs)

theorem onInnerMsgs_cons (h : FGWClientHandler) (msg : ZInnerMsg) (msgs : List ZInnerMsg) :
    h.onInnerMsgs pb (msg :: msgs) =
      (((h.onInnerMsg pb msg).1.onInnerMsgs pb msgs).1,
        (h.onInnerMsg pb msg).2 ++ ((h.onInnerMsg pb msg).1.onInnerMsgs pb msgs).2) := rfl

/-- Every session waits for its answer. -/
def AllWait (h : FGWClientHandler) : Prop :=
  ∀ k s, h.sessionCtrl.pairing.value k = some s →
    ∃ external touchTime, s = .waiting k external touchTime

/-- The answer that goes up for the session a message from inside finds. -/
def answersTo (pb : Protobuf) (h : FGWClientHandler) (msg : ZInnerMsg) : List Output :=
  match h.sessionCtrl.pairing.value msg.seq with
  | none => []
  | some s => (FGWClientForwardSession.answer pb msg.body s.externalKey).toList.map (.send h.fd)

/-- **What an answer from inside does**, whether a session waits for it or not. -/
theorem AllWait.onInnerMsg (hw : h.AllWait) (pb : Protobuf) (msg : ZInnerMsg) :
    (h.onInnerMsg pb msg).1.sessionCtrl.pairing = h.sessionCtrl.pairing.unpair msg.seq ∧
      (h.onInnerMsg pb msg).1.idGenerator = h.idGenerator ∧ (h.onInnerMsg pb msg).1.fd = h.fd ∧
      (h.onInnerMsg pb msg).2 = h.answersTo pb msg := by
  rw [answersTo]
  cases hk : h.sessionCtrl.pairing.value msg.seq with
  | none =>
    have hnone : h.sessionCtrl.findByKey1 msg.seq = none := hk
    rw [onInnerMsg_none hnone, Pairing.unpair_of_none _ ((Pairing.value_eq_none_iff _ _).mp hk)]
    exact ⟨rfl, rfl, rfl, rfl⟩
  | some s =>
    obtain ⟨external, touchTime, rfl⟩ := hw msg.seq s hk
    rw [onInnerMsg_waiting hk]
    exact ⟨SessionTable.removeByKey1_pairing _ _, rfl, rfl, rfl⟩

theorem AllWait.unpair (hw : h.AllWait) {h' : FGWClientHandler} {k : UInt32}
    (hp : h'.sessionCtrl.pairing = h.sessionCtrl.pairing.unpair k) : h'.AllWait := by
  intro j s hj
  rw [hp, Pairing.unpair_value] at hj
  split at hj
  · cases hj
  · exact hw j s hj

/-- **A row of answers** ends the sessions under their numbers. -/
theorem AllWait.onInnerMsgs (hw : h.AllWait) (pb : Protobuf) (msgs : List ZInnerMsg) :
    (∀ k, (h.onInnerMsgs pb msgs).1.sessionCtrl.pairing.value k =
        if k ∈ msgs.map ZInnerMsg.seq then none else h.sessionCtrl.pairing.value k) ∧
      (h.onInnerMsgs pb msgs).1.idGenerator = h.idGenerator := by
  induction msgs generalizing h with
  | nil => exact ⟨fun k => (if_neg List.not_mem_nil).symm, rfl⟩
  | cons msg msgs ih =>
    obtain ⟨hp, hgen, -, -⟩ := hw.onInnerMsg pb msg
    obtain ⟨hvalue, hgen'⟩ := ih (hw.unpair hp)
    rw [onInnerMsgs_cons]
    refine ⟨fun k => ?_, hgen'.trans hgen⟩
    dsimp only
    rw [hvalue, hp, Pairing.unpair_value]
    by_cases hmem : k ∈ msgs.map ZInnerMsg.seq
    · exact (if_pos hmem).trans (if_pos (List.mem_cons_of_mem _ hmem)).symm
    · rw [if_neg hmem]
      exact if_congr (List.mem_cons.trans (or_iff_left hmem)).symm rfl rfl

/-- **What goes up on a row of answers**, no two under one number: each answer to the session that
    waits for it. -/
theorem AllWait.onInnerMsgs_out (hw : h.AllWait) {msgs : List ZInnerMsg}
    (hnodup : (msgs.map ZInnerMsg.seq).Nodup) :
    (h.onInnerMsgs pb msgs).2 = msgs.flatMap (h.answersTo pb) := by
  induction msgs generalizing h with
  | nil => rfl
  | cons msg msgs ih =>
    rw [List.map_cons, List.nodup_cons] at hnodup
    obtain ⟨hp, -, hfd, hout⟩ := hw.onInnerMsg pb msg
    rw [onInnerMsgs_cons, List.flatMap_cons, hout, ih (hw.unpair hp) hnodup.2]
    refine congrArg (h.answersTo pb msg ++ ·) (List.flatMap_congr fun msg' hmsg' => ?_)
    have hne : msg'.seq ≠ msg.seq := fun heq => hnodup.1 (heq ▸ List.mem_map_of_mem hmsg')
    rw [answersTo, answersTo, hp, Pairing.unpair_value, if_neg hne, hfd]

end FGWClientHandler

namespace Modules

/-- The client hands a row of messages to its handler. -/
theorem foldl_client (pb : Protobuf) {m : Modules} {h : FGWClientHandler}
    (hh : m.client.handler = some h) (q : List ZInnerMsg) :
    q.foldl (fun m msg => (m.withClient (m.client.step pb (.inner msg))).1) m =
      { m with
        client := { m.client with handler := some (h.onInnerMsgs pb q).1 }
        put := m.put ++ Put.ofClient (h.onInnerMsgs pb q).2 } := by
  induction q generalizing m h with
  | nil =>
    show m = { m with client := { m.client with handler := some h }, put := m.put ++ [] }
    rw [← hh, List.append_nil]
  | cons msg q ih =>
    have hstep : (m.withClient (m.client.step pb (.inner msg))).1 =
        { m with
          client := { m.client with handler := some (h.onInnerMsg pb msg).1 }
          put := m.put ++ Put.ofClient (h.onInnerMsg pb msg).2 } := by
      rw [FGWClient.step, FGWClient.callHandler, hh]
      rfl
    rw [List.foldl_cons, hstep, ih rfl, FGWClientHandler.onInnerMsgs_cons]
    dsimp only
    rw [List.append_assoc, Put.ofClient, Put.ofClient, Put.ofClient, ← List.filterMap_append]

end Modules

namespace Gateway

variable {pb : Protobuf} {g g' : Gateway} {h : FGWClientHandler}

/-- **The client checks its queue**: it hands the messages to its handler. -/
theorem Steady.checkClient (pb : Protobuf) (hg : g.Steady h) {q : List ZInnerMsg}
    (hserial : g.dispatcher.mail moduleSerial = some [])
    (hq : g.dispatcher.mail moduleFgwClient = some q) {fuel : Nat} (hfuel : q.length < fuel) :
    ∃ g', g.checkQueue pb moduleFgwClient fuel = .ok g' ∧ g'.Steady (h.onInnerMsgs pb q).1 ∧
      g'.dispatcher.mail moduleSerial = some [] ∧ g'.dispatcher.mail moduleFgwClient = some [] ∧
      g'.modules.put = g.modules.put ++ Put.ofClient (h.onInnerMsgs pb q).2 := by
  have hhandle : ∀ (m : Modules) (msg : ZInnerMsg), True → True →
      ZDispatcher.handle (Modules.onInnerMsg pb moduleFgwClient) m msg =
        .ok ((m.withClient (m.client.step pb (.inner msg))).1, []) := by
    intro m msg _ _
    have hinside : Output.inside (m.client.step pb (.inner msg)).2 = [] := by
      rw [FGWClient.step, FGWClient.callHandler]
      split
      · rfl
      · exact FGWClientHandler.onInnerMsg_out pb _ msg
    rw [ZDispatcher.handle, Modules.onInnerMsg, if_neg (by decide), if_pos rfl]
    show Except.ok (_, (Output.inside _).map ZDispatcher.addr) = _
    rw [hinside]
    rfl
  have hself : ∀ (m : Modules) (msg : ZInnerMsg) m' ps, True → True →
      ZDispatcher.handle (Modules.onInnerMsg pb moduleFgwClient) m msg = .ok (m', ps) →
        True ∧ ∀ p ∈ ps, p.1 ≠ moduleFgwClient := by
    intro m msg m' ps hm hmsg hok
    rw [hhandle m msg hm hmsg] at hok
    obtain ⟨rfl, rfl⟩ := Prod.mk.inj (Except.ok.inj hok)
    exact ⟨trivial, List.forall_mem_nil _⟩
  have hall := Mail.handleAll_eq (s := g.modules) (q := q) (fun _ _ _ _ => trivial) hhandle trivial
    fun _ _ => trivial
  rw [Modules.foldl_client pb hg.handler, Mail.answers_const] at hall
  obtain ⟨mail', trace, hdrain, hempty, hother⟩ :=
    Mail.drain_eq hself trivial (fun _ _ => trivial) hq hfuel hall
  rw [ZDispatcher.check_drains] at hdrain
  cases hcheck : ZDispatcher.checkMsgQueue (Modules.onInnerMsg pb moduleFgwClient) moduleFgwClient
      fuel g.modules g.dispatcher with
  | error e =>
    rw [hcheck] at hdrain
    cases hdrain
  | ok r =>
    obtain ⟨⟨m', d⟩, tr⟩ := r
    rw [hcheck] at hdrain
    obtain ⟨hfst, -⟩ := Prod.mk.inj (Except.ok.inj hdrain)
    obtain ⟨rfl, rfl⟩ := Prod.mk.inj hfst
    refine ⟨⟨{ g.modules with
        client := { g.modules.client with handler := some (h.onInnerMsgs pb q).1 }
        put := g.modules.put ++ Put.ofClient (h.onInnerMsgs pb q).2 }, d⟩,
      by rw [checkQueue, hcheck], ⟨?_, hg.unasked, rfl⟩, ?_, hempty, rfl⟩
    · exact (ZDispatcher.checkMsgQueue_types hcheck).trans hg.registered
    · have hnone : q.flatMap (fun _ => ([] : List (Int × ZInnerMsg))) = [] :=
        List.flatMap_eq_nil_iff.mpr fun _ _ => rfl
      dsimp only
      rw [hother moduleSerial (by decide), hnone]
      exact hserial

/-! ## At rest -/

/-- **Between the callbacks**: the requests that were forwarded are in the serial module's queue,
    and every session waits for the answer to one of them.  -/
structure Gathered (g : Gateway) (h : FGWClientHandler) (q : List ZInnerMsg) : Prop
    extends g.Steady h where
  serialQueue : g.dispatcher.mail moduleSerial = some q
  clientQueue : g.dispatcher.mail moduleFgwClient = some []
  requests : ∀ m ∈ q, ∃ seq msg body, push2inner msg = some body ∧ m = forwarded seq body
  allWait : h.AllWait
  asked : ∀ k, (h.sessionCtrl.pairing.value k).isSome → k ∈ q.map ZInnerMsg.seq
  numbered : ∃ n, h.idGenerator = (HandlerIdGenerator.new 1 0xFFFFFF).after n

theorem post_forwarded (d : ZDispatcher) (seq : UInt32) (body : InnerBody) {q : List ZInnerMsg}
    (hq : d.mail moduleSerial = some q) :
    (d.sendDirect (forwarded seq body)).2.mail moduleSerial = some (q ++ [forwarded seq body]) ∧
      (d.sendDirect (forwarded seq body)).2.mail moduleFgwClient = d.mail moduleFgwClient := by
  rw [ZDispatcher.mail_sendDirect, Mail.post_apply, Mail.post_apply, hq]
  refine ⟨rfl, ?_⟩
  cases d.mail moduleFgwClient with
  | none => rfl
  | some c => exact congrArg some (List.append_nil c)

/-- What an `add` files is what was filed before, or what is added. -/
theorem add_value {t : SessionTable UInt32 UInt32 FGWClientForwardSession} {seq external k : UInt32}
    {s s' : FGWClientForwardSession} (h : (t.add seq external s).2.pairing.value k = some s') :
    (k = seq ∧ s' = s) ∨ t.pairing.value k = some s' := by
  rw [SessionTable.add_pairing] at h
  by_cases hfree : t.pairing.Free seq external
  · rw [Pairing.add_of_free _ hfree, Pairing.pair_value] at h
    split at h
    · next heq => exact Or.inl ⟨heq, (Option.some.inj h).symm⟩
    · exact Or.inr h
  · rw [Pairing.add_of_not_free _ hfree] at h
    exact Or.inr h

theorem Gathered.quiet {q : List ZInnerMsg} (hg : g.Gathered h q) {h' : FGWClientHandler}
    (hsteady : g'.Steady h') (hd : g'.dispatcher = g.dispatcher)
    (hsessions : h'.sessionCtrl = h.sessionCtrl)
    (hnum : ∃ n, h'.idGenerator = (HandlerIdGenerator.new 1 0xFFFFFF).after n) :
    g'.Gathered h' q where
  toSteady := hsteady
  serialQueue := hd ▸ hg.serialQueue
  clientQueue := hd ▸ hg.clientQueue
  requests := hg.requests
  allWait := by
    intro k s hs
    rw [hsessions] at hs
    exact hg.allWait k s hs
  asked := by
    intro k hk
    rw [hsessions] at hk
    exact hg.asked k hk
  numbered := hnum

/-- A tick closes sessions, and opens none. -/
theorem Gathered.tick {q : List ZInnerMsg} (hg : g.Gathered h q) {delta : Int}
    (hsteady : g'.Steady (h.routine delta)) (hd : g'.dispatcher = g.dispatcher) :
    g'.Gathered (h.routine delta) q where
  toSteady := hsteady
  serialQueue := hd ▸ hg.serialQueue
  clientQueue := hd ▸ hg.clientQueue
  requests := hg.requests
  allWait := by
    intro k s hs
    rw [(FGWClientHandler.routine_lookup h delta k).1, Option.bind_eq_some_iff] at hs
    obtain ⟨s₀, hs₀, htick⟩ := hs
    obtain ⟨external, touchTime, rfl⟩ := hg.allWait k s₀ hs₀
    rw [FGWClientForwardSession.tick_waiting] at htick
    split at htick
    · cases htick
    · exact ⟨external, _, (Option.some.inj htick).symm⟩
  asked := by
    intro k hk
    rw [(FGWClientHandler.routine_lookup h delta k).1] at hk
    refine hg.asked k ?_
    cases hv : h.sessionCtrl.pairing.value k with
    | none =>
      rw [hv] at hk
      cases hk
    | some s => rfl
  numbered := hg.numbered

/-- A request is forwarded, and a session opened for it if none is under its number. -/
theorem Gathered.forward {q : List ZInnerMsg} (hg : g.Gathered h q) {h' : FGWClientHandler}
    {msg : PushMsg} {body : InnerBody} {seq external : UInt32} (hsteady : g'.Steady h')
    (hbody : push2inner msg = some body)
    (hd : g'.dispatcher = (g.dispatcher.sendDirect (forwarded seq body)).2)
    (hsessions : h'.sessionCtrl = (h.sessionCtrl.add seq external (.waiting seq external 0)).2)
    (hnum : ∃ n, h'.idGenerator = (HandlerIdGenerator.new 1 0xFFFFFF).after n) :
    g'.Gathered h' (q ++ [forwarded seq body]) where
  toSteady := hsteady
  serialQueue := hd ▸ (post_forwarded g.dispatcher seq body hg.serialQueue).1
  clientQueue := hd ▸ (post_forwarded g.dispatcher seq body hg.serialQueue).2.trans hg.clientQueue
  requests := by
    intro m hm
    rcases List.mem_append.mp hm with hm | hm
    · exact hg.requests m hm
    · exact ⟨seq, msg, body, hbody, List.mem_singleton.mp hm⟩
  allWait := by
    intro k s hs
    rw [hsessions] at hs
    rcases add_value hs with ⟨rfl, rfl⟩ | hs
    · exact ⟨external, 0, rfl⟩
    · exact hg.allWait k s hs
  asked := by
    intro k hk
    obtain ⟨s, hs⟩ := Option.isSome_iff_exists.mp hk
    rw [List.map_append, List.mem_append]
    rw [hsessions] at hs
    rcases add_value hs with ⟨rfl, -⟩ | hs
    · exact Or.inr (List.mem_singleton_self _)
    · exact Or.inl (hg.asked k (by rw [hs]; rfl))
  numbered := hnum

/-- **A callback** forwards one request at most. -/
theorem Gathered.step {q : List ZInnerMsg} (hg : g.Gathered h q) {e : Event}
    (hstep : g.step pb e = .ok g') :
    ∃ h' q', g'.Gathered h' q' ∧ q'.length ≤ q.length + 1 := by
  obtain ⟨h', hsteady, htaken⟩ := hg.toSteady.step hstep
  obtain ⟨n, hn⟩ := hg.numbered
  have hnext : h'.idGenerator = h.idGenerator.next.2 →
      ∃ n, h'.idGenerator = (HandlerIdGenerator.new 1 0xFFFFFF).after n := fun hgen =>
    ⟨n + 1, by rw [hgen, hn, HandlerIdGenerator.after_succ]⟩
  cases htaken with
  | quiet he hheard hd hsessions hgen =>
    exact ⟨h', q, hg.quiet hsteady hd hsessions ⟨n, hgen.trans hn⟩, Nat.le_succ _⟩
  | dropped he hheard hfree hnone hd hsessions hgen =>
    exact ⟨h', q, hg.quiet hsteady hd hsessions (hnext hgen), Nat.le_succ _⟩
  | tick he hd hh =>
    subst hh
    exact ⟨_, q, hg.tick hsteady hd, Nat.le_succ _⟩
  | forwarded he hheard hseq hfree hbody hd hsessions hgen =>
    exact ⟨h', _, hg.forward hsteady hbody hd hsessions (hnext hgen),
      by rw [List.length_append]; exact Nat.le_refl _⟩

theorem Gathered.callbacks {q : List ZInnerMsg} (hg : g.Gathered h q) {es : List Event}
    (hrun : g.callbacks pb es = .ok g') :
    ∃ h' q', g'.Gathered h' q' ∧ q'.length ≤ q.length + es.length := by
  induction es generalizing g h q with
  | nil =>
    cases hrun
    exact ⟨h, q, hg, Nat.le_refl _⟩
  | cons e es ih =>
    rw [Gateway.callbacks, List.foldlM_cons] at hrun
    obtain ⟨g₁, hstep, hrest⟩ := Except.bind_eq_ok.mp hrun
    obtain ⟨h₁, q₁, hg₁, hlen₁⟩ := hg.step hstep
    obtain ⟨h', q', hg', hlen⟩ := ih hg₁ hrest
    refine ⟨h', q', hg', Nat.le_trans hlen ?_⟩
    rw [List.length_cons]
    omega

/-- The replies, one to each request. -/
theorem Gathered.replies {q : List ZInnerMsg} (hg : g.Gathered h q) (m : ZZBDevManager) :
    (q.flatMap m.replyTo).map ZInnerMsg.seq = q.map ZInnerMsg.seq := by
  rw [List.map_flatMap, List.map_eq_flatMap]
  refine List.flatMap_congr fun msg hmsg => ?_
  obtain ⟨seq, push, body, hbody, rfl⟩ := hg.requests msg hmsg
  obtain ⟨rsp, hrsp⟩ := push2inner_reply hbody m
  rw [ZZBDevManager.replyTo_eq hrsp]
  rfl

/-- **The queues are checked**: both are empty then, no session is left, and the replies have gone
    to the sessions that waited.  -/
theorem Gathered.check (pb : Protobuf) {q : List ZInnerMsg} (hg : g.Gathered h q) {fuel : Nat}
    (hfuel : q.length < fuel) :
    ∃ g' h', g.check pb fuel = .ok g' ∧ g'.Gathered h' [] ∧
      g'.modules.put = g.modules.put ++ Put.ofClient (h.onInnerMsgs pb
        (q.flatMap g.modules.serial.handler.devManager.replyTo)).2 := by
  have hreq : ∀ m ∈ q, m.srcAddr = clientAddr ∧
      ∃ rsp, g.modules.serial.handler.devManager.reply m.body = some rsp := by
    intro m hm
    obtain ⟨seq, push, body, hbody, rfl⟩ := hg.requests m hm
    exact ⟨rfl, push2inner_reply hbody _⟩
  obtain ⟨d, hserial, hg₁, hq₁, hc₁⟩ :=
    hg.toSteady.checkSerial pb hg.serialQueue hg.clientQueue hreq hfuel
  have hlen := congrArg List.length (hg.replies g.modules.serial.handler.devManager)
  rw [List.length_map, List.length_map] at hlen
  obtain ⟨g₂, hclient, hg₂, hq₂, hc₂, hput⟩ := hg₁.checkClient pb hq₁ hc₁ (hlen ▸ hfuel)
  obtain ⟨hvalue, hgen⟩ := hg.allWait.onInnerMsgs pb
    (q.flatMap g.modules.serial.handler.devManager.replyTo)
  have hnone : ∀ k, (h.onInnerMsgs pb
      (q.flatMap g.modules.serial.handler.devManager.replyTo)).1.sessionCtrl.pairing.value k =
        none := by
    intro k
    rw [hvalue, hg.replies]
    split
    · rfl
    · next hk => exact Option.not_isSome_iff_eq_none.mp fun hs => hk (hg.asked k hs)
  refine ⟨g₂, _, ?_, ⟨hg₂, hq₂, hc₂, List.forall_mem_nil _, ?_, ?_, ?_⟩, hput⟩
  · rw [Gateway.check, hserial]
    exact hclient
  · intro k s hs
    rw [List.nil_append, hnone] at hs
    cases hs
  · intro k hk
    rw [List.nil_append, hnone] at hk
    cases hk
  · obtain ⟨n, hn⟩ := hg.numbered
    exact ⟨n, hgen.trans hn⟩

/-- **A round** begins and ends at rest. -/
theorem Gathered.round (hg : g.Gathered h []) {es : List Event} (hround : g.round pb es = .ok g') :
    ∃ h', g'.Gathered h' [] := by
  rw [Gateway.round] at hround
  obtain ⟨g₁, hrun, hcheck⟩ := Except.bind_eq_ok.mp hround
  obtain ⟨h₁, q, hg₁, hlen⟩ := hg.callbacks hrun
  have hfuel : q.length < es.length + 1 := by
    rw [List.length_nil] at hlen
    omega
  obtain ⟨g₂, h₂, hok, hg₂, -⟩ := hg₁.check pb hfuel
  obtain rfl := Except.ok.inj (hok.symm.trans hcheck)
  exact ⟨h₂, hg₂⟩

/-- `init` of the client opens no session, whatever comes of the connect. -/
theorem init_handler (pb : Protobuf) (junk : ClientState) (sys : Sys) :
    let cls := FGWClientHandler.handlerClass pb
    ∃ h, (ZClient.init cls (FGWClient.new junk) true sys).2.1.handler = some h ∧
      h.sessionCtrl = .new ∧ h.idGenerator = .new 1 0xFFFFFF ∧
      Output.inside (ZClient.init cls (FGWClient.new junk) true sys).2.2 = [] := by
  intro cls
  rw [ZClient.init, if_neg (by decide)]
  rcases ZClient.onDisconnected_cases cls (FGWClient.new junk) (-1) sys with
    ⟨-, hc⟩ | ⟨-, hc⟩ | ⟨-, c', hc', -, hc⟩
  · rw [hc]
    have htell : ((FGWClient.new junk).connectedOver sys).tellHandler cls (-1) =
        ({ (FGWClient.new junk).connectedOver sys with
            handler :=
              some (FGWClientHandler.onConnected pb { FGWClientHandler.new with fd := -1 }).1 },
          (FGWClientHandler.onConnected pb { FGWClientHandler.new with fd := -1 }).2) := rfl
    rw [htell]
    have hframe := FGWClientHandler.fgwLogin_frame pb { FGWClientHandler.new with fd := -1 }
    exact ⟨_, rfl, hframe.1, hframe.2, (FGWClientHandler.fgwLogin_out pb _).1⟩
  · rw [hc]
    exact ⟨_, rfl, rfl, rfl, rfl⟩
  · rw [hc]
    exact ⟨.new, hc', rfl, rfl, rfl⟩

/-- What `main` does before its loop leaves the gateway at rest. -/
theorem start_gathered {port : PortState} {mem : List UInt8} {expect : Int} {junk : ClientState}
    {s : Nat → Surroundings} {opening : OpenAnswer} {sys : Sys}
    (hstart : start pb port mem expect junk s opening sys = .ok g) : ∃ h, g.Gathered h [] := by
  rw [start] at hstart
  obtain ⟨g₁, hserial, hclient⟩ := Except.bind_eq_ok.mp hstart
  have hg₁ : g₁.modules.serial.handler.Unasked ∧ g₁.modules.client = .new junk ∧
      g₁.dispatcher = (ZDispatcher.new.registerModule moduleSerial).2 := by
    rw [initSerial] at hserial
    cases hdis : (constructed port mem expect junk s).modules.serial.onDisconnected
        ((constructed port mem expect junk s).modules.surroundings 0) opening with
    | error a =>
      rw [hdis] at hserial
      cases hserial
    | ok r =>
      rw [hdis] at hserial
      obtain rfl := Except.ok.inj hserial
      obtain ⟨hu, hinside⟩ :=
        SerialModule.onDisconnected_unasked (m := .new port mem expect)
          ZZigBeeHandler.unasked_new hdis
      refine ⟨hu, rfl, ?_⟩
      dsimp only [sending, Modules.withSerial]
      rw [hinside]
      rfl
  obtain ⟨hu, hnew, hd⟩ := hg₁
  obtain ⟨h, hh, hsessions, hgen, hinside⟩ := init_handler pb junk sys
  rw [initClient, hnew, hd] at hclient
  have hregister : ((ZDispatcher.new.registerModule moduleSerial).2.registerModule
      moduleFgwClient).1 = true := rfl
  dsimp only at hclient
  rw [hregister] at hclient
  have hsome : g = sending ⟨g₁.modules,
      ((ZDispatcher.new.registerModule moduleSerial).2.registerModule moduleFgwClient).2⟩
      (g₁.modules.withClient
        (ZClient.init (FGWClientHandler.handlerClass pb) (FGWClient.new junk) true sys).2) := by
    split at hclient
    · cases hclient
    · next heq =>
      rw [heq]
      exact (Except.ok.inj hclient).symm
  have hdispatcher : g.dispatcher =
      ((ZDispatcher.new.registerModule moduleSerial).2.registerModule moduleFgwClient).2 := by
    rw [hsome]
    dsimp only [sending, Modules.withClient]
    rw [hinside]
    rfl
  refine ⟨h, ⟨by rw [hdispatcher]; rfl, by rw [hsome]; exact hu, by rw [hsome]; exact hh⟩,
    by rw [hdispatcher]; rfl, by rw [hdispatcher]; rfl, List.forall_mem_nil _, ?_, ?_, 0, hgen⟩
  · intro k s hs
    rw [hsessions, SessionTable.new_pairing] at hs
    cases hs
  · intro k hk
    rw [hsessions, SessionTable.new_pairing] at hk
    cases hk

theorem rounds_gathered (hg : g.Gathered h []) {rs : List (List Event)}
    (hrun : g.rounds pb rs = .ok g') : ∃ h', g'.Gathered h' [] := by
  induction rs generalizing g h with
  | nil =>
    cases hrun
    exact ⟨h, hg⟩
  | cons es rs ih =>
    rw [rounds, List.foldlM_cons] at hrun
    obtain ⟨g₁, hround, hrest⟩ := Except.bind_eq_ok.mp hrun
    obtain ⟨h₁, hg₁⟩ := hg.round hround
    exact ih hg₁ hrest

/-- **Between two rounds nothing waits inside the gateway.** After any number of rounds, whatever
    libevent has called in them: no message is in a queue, no request of the server's waits for an
    answer, and the wireless module has not been asked for anything. -/
theorem at_rest {port : PortState} {mem : List UInt8} {expect : Int} {junk : ClientState}
    {s : Nat → Surroundings} {opening : OpenAnswer} {sys : Sys} {g₀ : Gateway}
    (hstart : start pb port mem expect junk s opening sys = .ok g₀) {rs : List (List Event)}
    (hrun : g₀.rounds pb rs = .ok g) :
    (∀ m ∈ g.dispatcher.moduleList, m.innerMsgQueue = []) ∧
      (∃ h, g.modules.client.handler = some h ∧
        ∀ k, h.sessionCtrl.findByKey1 k = none ∧ h.sessionCtrl.findByKey2 k = none) ∧
      ∀ k, g.modules.serial.handler.sessionCtrl.findByKey1 k = none ∧
        g.modules.serial.handler.sessionCtrl.findByKey2 k = none := by
  obtain ⟨h₀, hg₀⟩ := start_gathered hstart
  obtain ⟨h, hg⟩ := rounds_gathered hg₀ hrun
  have hvalue : ∀ k, h.sessionCtrl.pairing.value k = none := fun k =>
    Option.not_isSome_iff_eq_none.mp fun hk => List.not_mem_nil (hg.asked k hk)
  refine ⟨fun m hm => ?_, ⟨h, hg.handler, fun k => ⟨hvalue k, ?_⟩⟩,
    fun k => ⟨hg.unasked.findByKey1 k, hg.unasked.findByKey2 k⟩⟩
  · have hmail := g.dispatcher.mail_of_mem hm
    have htype : m.type ∈ [moduleSerial, moduleFgwClient] := by
      rw [← hg.registered]
      exact List.mem_map_of_mem hm
    rcases List.mem_cons.mp htype with htype | htype
    · rw [htype, hg.serialQueue] at hmail
      exact (Option.some.inj hmail).symm
    · rw [List.mem_singleton.mp htype, hg.clientQueue] at hmail
      exact (Option.some.inj hmail).symm
  · rw [SessionTable.findByKey2_eq, Option.eq_none_iff_forall_ne_some]
    intro s hs
    obtain ⟨k', -, hk'⟩ := (Pairing.valueRight_eq_some_iff _).mp hs
    rw [hvalue] at hk'
    cases hk'

/-! ## A sample -/

/-- Nothing behind the bytes, and every write goes through. -/
def plain : Nat → Surroundings := fun _ => ⟨⟨0, 0, 0, 0, 0⟩, 16, []⟩

/-- Bytes of the server. -/
def received (buf : List UInt8) (h : 0 < buf.length ∧ buf.length ≤ 1024) : Event :=
  .client (.socket { ZClient.sampleSys with recv := .data buf h })

theorem loginRsp_readable : 0 < (0x0A :: loginRspBytes).length ∧
    (0x0A :: loginRspBytes).length ≤ 1024 := by decide

theorem devList_readable : 0 < (0x0D :: devListBytes).length ∧
    (0x0D :: devListBytes).length ≤ 1024 := by decide

/-- The connection comes up, the login is confirmed, and then the list of devices is asked for. -/
def loginAndRequest : List (List Event) :=
  [[.client (.socket ZClient.sampleSys)], [received (0x0A :: loginRspBytes) loginRsp_readable],
    [received (0x0D :: devListBytes) devList_readable, .routine]]

/-- The gateway before the main loop, with the port open. -/
def sampleStart : Except Halt Gateway :=
  start .sample .connected (List.replicate ZBStream.bufSize 0) 0 .connected plain
    (.opened 5 (by decide)) ZClient.sampleSys

theorem at_rest_one : ∃ g₀ g, sampleStart = .ok g₀ ∧ g₀.rounds .sample loginAndRequest = .ok g ∧
    g.modules.put.length = 3 ∧ ∀ m ∈ g.dispatcher.moduleList, m.innerMsgQueue = [] :=
  ⟨_, _, rfl, rfl, by decide,
    (@at_rest .sample _ .connected (List.replicate ZBStream.bufSize 0) 0 .connected plain
      (.opened 5 (by decide)) ZClient.sampleSys _ rfl loginAndRequest rfl).1⟩

end Gateway

end Monsys
