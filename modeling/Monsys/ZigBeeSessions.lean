/-
  Requests that the gateway hands to its ZigBee module, over whole runs of the handler.

  1. **The history** — `ModuleExchange`: the handler, with the requests that were sent and wait.
  2. **What should hold** — `Correlated`: every request that waits owns a session, and what an answer
     of the module is turned into goes to a request of its kind.
  3. **The invariant** — `InStep`: the table holds the session of the one request that waits, or is
     empty.  Only binds are ever sent, and all of them to address 0.
  4. **Runs** — `module_correlated_iff`: everything is correlated exactly if no request or answer `Clashes`.
-/
import Monsys.Lib.Runs
import Monsys.ZigBeeHandler
import Monsys.ZigBeeLayout

namespace Monsys

open Wire

/-! ## The history -/

/-- The kinds of requests that go to the module, and of its answers. -/
inductive ModuleKind
  | get
  | set
  | bind
deriving DecidableEq, Repr

/-- The kind of a request from inside. -/
def requestKind : InnerBody → Option ModuleKind
  | .getDevInfoReq _ _ => some .get
  | .setDevInfoReq _ _ => some .set
  | .bindReq => some .bind
  | _ => none

/-- The kind of an answer of the module. -/
def responseKind : ZbMsg → Option ModuleKind
  | .getRsp _ => some .get
  | .setRsp _ => some .set
  | .bindRsp _ => some .bind
  | _ => none

/-- A request that was sent to the module, and for how long it has waited. -/
structure ModuleRequest where
  kind : ModuleKind
  seq : UInt32
  srcAddr : ZInnerAddress
  dstAddr : ZInnerAddress
  elapsed : Int
deriving DecidableEq, Repr

namespace ModuleRequest

/-- The session of a request. -/
def session (r : ModuleRequest) : ZZigBeeSession :=
  ⟨r.seq, r.elapsed, zigbeeClientSessionTimeout, false, r.srcAddr, r.dstAddr⟩

/-- What a tick leaves of a request. -/
def age (delta : Int) (r : ModuleRequest) : Option ModuleRequest :=
  if r.elapsed + delta > zigbeeClientSessionTimeout then none
  else some { r with elapsed := r.elapsed + delta }

theorem session_ticked (delta : Int) (r : ModuleRequest) :
    SessionTable.ticked (ZZigBeeSession.doTimeout · delta) ZZigBeeSession.isComplete r.session =
      (r.age delta).map session := by
  have hdo : r.session.doTimeout delta =
      if r.elapsed + delta > zigbeeClientSessionTimeout then
        { r.session with touchTime := r.elapsed + delta, closed := true }
      else { r.session with touchTime := r.elapsed + delta } := rfl
  rw [SessionTable.ticked, hdo, age]
  split <;> rfl

theorem age_eq_some {delta : Int} {r r' : ModuleRequest} (h : r.age delta = some r') :
    r'.kind = r.kind ∧ r'.seq = r.seq := by
  rw [age] at h
  split at h
  · cases h
  · obtain rfl := Option.some.inj h
    exact ⟨rfl, rfl⟩

/-- A message goes to who has made the request, and under its number. -/
def Answers (m : ZInnerMsg) (r : ModuleRequest) : Prop := r.srcAddr = m.dstAddr ∧ r.seq = m.seq

instance (m : ZInnerMsg) (r : ModuleRequest) : Decidable (Answers m r) :=
  inferInstanceAs (Decidable (_ ∧ _))

end ModuleRequest

/-- The handler, and the requests that were sent and are neither answered nor timed out. -/
structure ModuleExchange where
  handler : ZZigBeeHandler
  pending : List ModuleRequest

namespace ModuleExchange

open ZZigBeeHandler

/-- The beginning. -/
def init : ModuleExchange := ⟨.new, []⟩

/-- Whether anything is written to the serial port. -/
def writes (out : List ZbOutput) : Bool :=
  out.any fun
    | .write _ _ => true
    | _ => false

/-- The messages for the inside among what was put out. -/
def dispatched (out : List ZbOutput) : List ZInnerMsg :=
  out.filterMap fun
    | .dispatch msg => some msg
    | _ => none

/-- What an event puts out. -/
def out (w : ModuleExchange) (e : ZZigBeeHandler.Event) : List ZbOutput :=
  match w.handler.step e with
  | .ok (_, out) => out
  | .error _ => []

/-- The request that a message from inside is, once its bytes are sent. -/
def request (msg : ZInnerMsg) : Option ModuleRequest :=
  (requestKind msg.body).map fun kind => ⟨kind, msg.seq, msg.srcAddr, msg.dstAddr, 0⟩

/-- One event.  A program that stops changes nothing any more. -/
def next (w : ModuleExchange) (e : ZZigBeeHandler.Event) : ModuleExchange :=
  match w.handler.step e with
  | .error _ => w
  | .ok (h, out) =>
    match e with
    | .connected _ _ _ => { w with handler := h }
    | .inner msg _ written =>
      { handler := h
        pending := if writes out ∧ 0 < written then w.pending ++ (request msg).toList else w.pending }
    | .read msg _ _ =>
      { handler := h
        pending :=
          if (responseKind msg).isSome then
            (dispatched out).foldl (fun p m => p.eraseP fun r => ModuleRequest.Answers m r) w.pending
          else w.pending }
    | .routine delta => { handler := h, pending := w.pending.filterMap (ModuleRequest.age delta) }

/-! ## What should hold -/

/-- Every request that waits owns a session of its own. -/
structure Owned (w : ModuleExchange) : Prop where
  own : (w.pending.map ModuleRequest.seq).Nodup
  filed : ∀ r ∈ w.pending, w.handler.sessionCtrl.findByKey1 r.seq = some r.session

/-- What an answer of the module is turned into goes to a request of its kind that waits. -/
def Directed (w : ModuleExchange) : ZZigBeeHandler.Event → Prop
  | .read msg j written =>
    ∀ kind, responseKind msg = some kind → ∀ m ∈ dispatched (w.out (.read msg j written)),
      ∃ r ∈ w.pending, r.kind = kind ∧ r.Answers m
  | _ => True

/-- What should hold of every event. -/
def Correlated (w : ModuleExchange) (e : ZZigBeeHandler.Event) : Prop :=
  (w.next e).Owned ∧ w.Directed e

/-- The two events that go wrong: a bind that is sent while another one waits, and an answer to a get
    or a set with address 0 while a bind waits. -/
def Clashes (w : ModuleExchange) : ZZigBeeHandler.Event → Prop
  | .inner msg _ written =>
    msg.body = .bindReq ∧ 0 < w.handler.fd ∧ 0 < written ∧ w.pending ≠ []
  | .read (.getRsp msg) _ _ => msg.addr = 0 ∧ w.pending ≠ []
  | .read (.setRsp msg) _ _ => msg.addr = 0 ∧ w.pending ≠ []
  | _ => False

/-! ## What an event does -/

/-- There is room for a request to bind. -/
theorem bindReq_encode (m : ZZBBindReq) : ¬ (m.encode bufSize).2.rv < 0 := by
  let hdr := { m.toZZigBeeMsg with len := ZZBBindReq.getBodyLen }
  have hlen : (ZZigBeeMsg.syncBytes ++ hdr.bytes).length = 14 := by
    rw [List.length_append, hdr.bytes_length]
    rfl
  have hroom : (ZZigBeeMsg.syncBytes ++ hdr.bytes).length ≤ bufSize := by
    rw [hlen]
    decide
  have hwrote := encodeCallsWith_fits (Spells.single (header_emits hdr))
    (fun n w => toInt32 (subU32 n w.room)) (by decide) hroom
  have heq : (m.encode bufSize).2 = _ := hwrote
  rw [heq, Writer.toInt32_room _ (by decide), hlen]
  show ¬ toInt32 14 < 0
  decide

theorem addrKey_eq_zero_iff (addr : UInt16) : addrKey addr = 0 ↔ addr = 0 := by
  have hlt := addr.toNat_lt
  have hnat : (addrKey addr).toNat = addr.toNat * 2 ^ 16 := by
    rw [addrKey, UInt32.or_zero, UInt32.toNat_shiftLeft, UInt16.toNat_toUInt32]
    show addr.toNat <<< 16 % 2 ^ 32 = _
    rw [Nat.shiftLeft_eq]
    omega
  rw [← UInt32.toNat_inj, ← UInt16.toNat_inj, hnat]
  show addr.toNat * 2 ^ 16 = 0 ↔ addr.toNat = 0
  omega

/-- A bind goes out if the port is open, and leaves a session if its bytes were sent. -/
theorem processBindReq_eq (h : ZZigBeeHandler) (msg : ZInnerMsg) (j : Junk) (written : Int) :
    ∃ bytes, h.processBindReq msg j written =
      if h.fd ≤ 0 then (h, [])
      else if written ≤ 0 then (h, [.write h.fd bytes])
      else
        ({ h with
            sessionCtrl :=
              (h.sessionCtrl.add msg.seq 0 (.new msg.seq msg.srcAddr msg.dstAddr)).2 },
          [.write h.fd bytes]) := by
  let req : ZZBBindReq := ⟨{ (ZZBBindReq.new j).toZZigBeeMsg with addr := 0x00 }⟩
  refine ⟨(req.encode bufSize).2.out, ?_⟩
  rw [processBindReq]
  dsimp only
  have hkey : addrKey (req.encode bufSize).1.addr = 0 := (addrKey_eq_zero_iff 0).mpr rfl
  rw [if_neg (bindReq_encode req), hkey, send]
  by_cases hfd : h.fd ≤ 0
  · rw [if_pos hfd, if_pos hfd]
    rfl
  · rw [if_neg hfd, if_neg hfd]

/-- Any other message from inside is answered at once, or dropped. -/
theorem onInnerMsg_quiet {h : ZZigBeeHandler} {msg : ZInnerMsg} (hbody : msg.body ≠ .bindReq)
    {j : Junk} {written : Int} {r : ZZigBeeHandler × List ZbOutput}
    (hr : h.onInnerMsg msg j written = .ok r) : r.1 = h ∧ writes r.2 = false := by
  rw [onInnerMsg] at hr
  split at hr
  · rw [processGetDevListReq] at hr
    cases hdevs : (h.devManager.macDevMap.toList.map Prod.snd).mapM h.devManager.deref with
    | error e =>
      rw [hdevs] at hr
      cases hr
    | ok devs =>
      rw [hdevs] at hr
      obtain rfl := Except.ok.inj hr
      exact ⟨rfl, rfl⟩
  · rw [processGetDevInfoReq] at hr
    split at hr
    · obtain rfl := Except.ok.inj hr
      exact ⟨rfl, rfl⟩
    · obtain rfl := Except.ok.inj hr
      exact ⟨rfl, rfl⟩
  · rw [processSetDevInfoReq] at hr
    split at hr
    · obtain rfl := Except.ok.inj hr
      exact ⟨rfl, rfl⟩
    · obtain rfl := Except.ok.inj hr
      exact ⟨rfl, rfl⟩
  · next hbind => exact absurd hbind hbody
  · obtain rfl := Except.ok.inj hr
    exact ⟨rfl, rfl⟩

/-- **What a message from inside does**: a bind whose bytes are sent waits from now on, with the session
    that is left if neither of its keys is taken. -/
theorem next_inner (w : ModuleExchange) (msg : ZInnerMsg) (j : Junk) (written : Int) :
    (msg.body = .bindReq ∧ 0 < w.handler.fd ∧ 0 < written ∧
      (w.next (.inner msg j written)).handler.sessionCtrl =
        (w.handler.sessionCtrl.add msg.seq 0 (.new msg.seq msg.srcAddr msg.dstAddr)).2 ∧
      (w.next (.inner msg j written)).pending =
        w.pending ++ [⟨.bind, msg.seq, msg.srcAddr, msg.dstAddr, 0⟩]) ∨
    (¬ (msg.body = .bindReq ∧ 0 < w.handler.fd ∧ 0 < written) ∧
      (w.next (.inner msg j written)).handler.sessionCtrl = w.handler.sessionCtrl ∧
      (w.next (.inner msg j written)).pending = w.pending) := by
  by_cases hbody : msg.body = .bindReq
  · obtain ⟨bytes, hbind⟩ := processBindReq_eq w.handler msg j written
    have hstep : w.handler.step (.inner msg j written) =
        .ok (w.handler.processBindReq msg j written) := by
      rw [step, onInnerMsg, hbody]
    rw [next, hstep, hbind]
    by_cases hfd : w.handler.fd ≤ 0
    · rw [if_pos hfd]
      exact Or.inr ⟨fun hc => by omega, rfl, rfl⟩
    · rw [if_neg hfd]
      by_cases hwritten : written ≤ 0
      · rw [if_pos hwritten]
        exact Or.inr ⟨fun hc => by omega, rfl, if_neg fun hc => by omega⟩
      · rw [if_neg hwritten]
        refine Or.inl ⟨hbody, by omega, by omega, rfl, ?_⟩
        dsimp only
        rw [if_pos ⟨rfl, by omega⟩, request, hbody]
        rfl
  · refine Or.inr ⟨fun hc => hbody hc.1, ?_⟩
    rw [next]
    cases hstep : w.handler.step (.inner msg j written) with
    | error e => exact ⟨rfl, rfl⟩
    | ok r =>
      obtain ⟨hhandler, hwrites⟩ := onInnerMsg_quiet hbody hstep
      dsimp only
      rw [hhandler, hwrites]
      exact ⟨rfl, if_neg fun hc => Bool.false_ne_true hc.1⟩

/-- The opening of the port leaves the sessions alone. -/
theorem onConnected_quiet {h : ZZigBeeHandler} {fd : Int} {j : Junk} {written : Int}
    {r : ZZigBeeHandler × List ZbOutput} (hr : h.step (.connected fd j written) = .ok r) :
    r.1.sessionCtrl = h.sessionCtrl := by
  rw [step, onConnected] at hr
  dsimp only at hr
  split at hr
  · cases hr
  · split at hr
    · cases hr
    · obtain rfl := Except.ok.inj hr
      rfl

/-- **What an answer of the module does.** -/
theorem step_response (h : ZZigBeeHandler) {msg : ZbMsg} {kind : ModuleKind}
    (hkind : responseKind msg = some kind) (j : Junk) (written : Int) :
    ∃ body, h.step (.read msg j written) = .ok (h.processRsp msg.header.addr body) := by
  cases msg with
  | getRsp msg => exact ⟨_, rfl⟩
  | setRsp msg => exact ⟨_, rfl⟩
  | bindRsp msg => exact ⟨_, rfl⟩
  | _ => cases hkind

/-- Whatever else the module sends leaves the sessions alone. -/
theorem onRead_quiet {h : ZZigBeeHandler} {msg : ZbMsg} (hkind : responseKind msg = none) {j : Junk}
    {written : Int} {r : ZZigBeeHandler × List ZbOutput} (hr : h.onRead msg j written = .ok r) :
    r.1.sessionCtrl = h.sessionCtrl := by
  cases msg with
  | regReq msg =>
    change h.processRegReq msg j written = .ok r at hr
    rw [ZZigBeeHandler.processRegReq] at hr
    cases hreg : h.devManager.processRegReq msg j with
    | error e =>
      rw [hreg] at hr
      cases hr
    | ok res =>
      rw [hreg] at hr
      obtain rfl := Except.ok.inj hr
      rfl
  | updateIdInfoReq msg =>
    have hr := Except.ok.inj hr
    rw [processUpdateIdInfoReq] at hr
    split at hr
    · rw [← hr]
    · dsimp only at hr
      split at hr
      · rw [← hr]
      · rw [← hr]
  | getRsp msg => cases hkind
  | setRsp msg => cases hkind
  | bindRsp msg => cases hkind
  | _ =>
    obtain rfl := Except.ok.inj hr
    rfl

/-! ## The invariant -/

/-- **The invariant**: nothing waits, or one bind does. -/
inductive InStep (w : ModuleExchange) : Prop
  | idle (hpending : w.pending = []) (htable : w.handler.sessionCtrl.pairing = .empty)
  | busy (r : ModuleRequest) (hkind : r.kind = .bind) (hpending : w.pending = [r])
      (htable : w.handler.sessionCtrl.pairing = .single r.seq 0 r.session)

theorem inStep_init : InStep init := .idle rfl SessionTable.new_pairing

variable {w : ModuleExchange}

theorem InStep.owned (h : InStep w) : w.Owned := by
  cases h with
  | idle hpending htable =>
    constructor
    · rw [hpending]
      exact List.nodup_nil
    · rw [hpending]
      intro r hr
      cases hr
  | busy r hkind hpending htable =>
    constructor
    · rw [hpending]
      exact List.nodup_singleton _
    · rw [hpending]
      intro r' hr'
      obtain rfl := List.mem_singleton.mp hr'
      rw [SessionTable.findByKey1_eq, htable, Pairing.single_value, if_pos rfl]

/-- What leaves the sessions and the requests alone keeps the invariant. -/
theorem InStep.quiet (h : InStep w) {w' : ModuleExchange}
    (htable : w'.handler.sessionCtrl = w.handler.sessionCtrl) (hpending : w'.pending = w.pending) :
    InStep w' := by
  cases h with
  | idle hp ht => exact .idle (hpending.trans hp) (by rw [htable, ht])
  | busy r hkind hp ht => exact .busy r hkind (hpending.trans hp) (by rw [htable, ht])

/-- A bind that is sent while nothing waits. -/
theorem InStep.send (hpending : w.pending = [])
    (htable : w.handler.sessionCtrl.pairing = .empty) {w' : ModuleExchange} {seq : UInt32}
    {srcAddr dstAddr : ZInnerAddress}
    (htable' : w'.handler.sessionCtrl =
      (w.handler.sessionCtrl.add seq 0 (.new seq srcAddr dstAddr)).2)
    (hpending' : w'.pending = w.pending ++ [⟨.bind, seq, srcAddr, dstAddr, 0⟩]) : InStep w' := by
  refine .busy ⟨.bind, seq, srcAddr, dstAddr, 0⟩ rfl (by rw [hpending', hpending, List.nil_append]) ?_
  rw [htable', SessionTable.add_pairing, htable,
    Pairing.add_of_free _ (Pairing.empty_free seq (0 : UInt32))]
  rfl

/-- A bind that is sent while another one waits gets no session. -/
theorem not_owned_of_busy {r : ModuleRequest} (hpending : w.pending = [r])
    (htable : w.handler.sessionCtrl.pairing = .single r.seq 0 r.session) {w' : ModuleExchange} {seq : UInt32}
    {srcAddr dstAddr : ZInnerAddress}
    (htable' : w'.handler.sessionCtrl =
      (w.handler.sessionCtrl.add seq 0 (.new seq srcAddr dstAddr)).2)
    (hpending' : w'.pending = w.pending ++ [⟨.bind, seq, srcAddr, dstAddr, 0⟩]) : ¬ w'.Owned := by
  intro howned
  have hnodup := howned.own
  rw [hpending', hpending] at hnodup
  have hne : seq ≠ r.seq := by
    rintro rfl
    exact (List.nodup_cons.mp hnodup).1 (List.mem_singleton.mpr rfl)
  have hfiled := howned.filed ⟨.bind, seq, srcAddr, dstAddr, 0⟩ (by
    rw [hpending']
    exact List.mem_append_right _ List.mem_cons_self)
  -- the second key of the session is taken, so that `add` has refused it
  have hbusy : ¬ (Pairing.single r.seq (0 : UInt32) r.session).Free seq 0 := by
    rintro ⟨-, hfree⟩
    rw [Pairing.single_symm, if_pos rfl] at hfree
    cases hfree
  rw [SessionTable.findByKey1_eq, htable', SessionTable.add_pairing, htable,
    Pairing.add_of_not_free _ hbusy, Pairing.single_value, if_neg hne] at hfiled
  cases hfiled

/-- A tick. -/
theorem InStep.tick (h : InStep w) (delta : Int) : InStep (w.next (.routine delta)) := by
  have hlookup := w.handler.sessionCtrl.tickLoop_keys_lookup (ZZigBeeSession.doTimeout · delta)
    ZZigBeeSession.isComplete
  have htable : ∀ p : Pairing UInt32 UInt32 ZZigBeeSession,
      (∀ k, p.value k = (w.handler.sessionCtrl.pairing.value k).bind
        (SessionTable.ticked (ZZigBeeSession.doTimeout · delta) ZZigBeeSession.isComplete)) →
      (∀ k, p.keys k = if (p.value k).isSome then w.handler.sessionCtrl.pairing.keys k else none) →
      (w.next (.routine delta)).handler.sessionCtrl.pairing = p := by
    intro p hvalue hkeys
    have hvalue' : ∀ k, (w.next (.routine delta)).handler.sessionCtrl.pairing.value k = p.value k :=
      fun k => (hlookup k).1.trans (hvalue k).symm
    refine Pairing.ext (PEquiv.ext fun k => ?_) (funext hvalue')
    rw [hkeys, ← hvalue']
    exact (hlookup k).2
  cases h with
  | idle hp ht =>
    refine .idle (congrArg (List.filterMap _) hp) (htable _ (fun k => ?_) fun k => ?_)
    · rw [ht, Pairing.empty_value]
      rfl
    · rw [Pairing.empty_value, Pairing.empty_keys]
      rfl
  | busy r hkind hp ht =>
    have hpending : (w.next (.routine delta)).pending = (r.age delta).toList := by
      refine (congrArg (List.filterMap (ModuleRequest.age delta)) hp).trans ?_
      cases hage : r.age delta with
      | none => exact List.filterMap_cons_none hage
      | some r' => exact List.filterMap_cons_some hage
    have hticked := r.session_ticked delta
    cases hage : r.age delta with
    | none =>
      refine .idle (by rw [hpending, hage, Option.toList_none]) (htable _ (fun k => ?_) fun k => ?_)
      · rw [ht, Pairing.single_value, Pairing.empty_value]
        split
        · rw [Option.bind_some, hticked, hage, Option.map_none]
        · rfl
      · rw [Pairing.empty_value, Pairing.empty_keys]
        rfl
    | some r' =>
      obtain ⟨hkind', hseq⟩ := ModuleRequest.age_eq_some hage
      refine .busy r' (hkind'.trans hkind) (by rw [hpending, hage, Option.toList_some])
        (htable _ (fun k => ?_) fun k => ?_)
      · rw [ht, Pairing.single_value, Pairing.single_value, hseq]
        split
        · rw [Option.bind_some, hticked, hage, Option.map_some]
        · rfl
      · rw [ht, Pairing.single_keys, Pairing.single_keys, Pairing.single_value, hseq]
        split <;> rfl

/-! ### Answers of the module -/

variable {msg : ZbMsg} {kind : ModuleKind}

/-- An answer that finds no session is dropped. -/
theorem response_dropped (hkind : responseKind msg = some kind) (j : Junk) (written : Int)
    (hnone : w.handler.sessionCtrl.findByKey2 (addrKey msg.header.addr) = none) :
    w.next (.read msg j written) = w ∧ w.out (.read msg j written) = [] := by
  obtain ⟨body, hstep⟩ := step_response w.handler hkind j written
  rw [processRsp, hnone] at hstep
  rw [next, out, hstep]
  refine ⟨?_, rfl⟩
  dsimp only
  rw [hkind]
  rfl

/-- An answer with address 0 is taken for the one to the bind that waits. -/
theorem response_answers (hkind : responseKind msg = some kind) (j : Junk) (written : Int)
    (haddr : msg.header.addr = 0) {r : ModuleRequest} (hpending : w.pending = [r])
    (htable : w.handler.sessionCtrl.pairing = .single r.seq 0 r.session) :
    (w.next (.read msg j written)).pending = [] ∧
      (w.next (.read msg j written)).handler.sessionCtrl.pairing = .empty ∧
      ∃ body, w.out (.read msg j written) = [.dispatch ⟨{}, r.srcAddr, r.seq, body⟩] := by
  obtain ⟨body, hstep⟩ := step_response w.handler hkind j written
  have hfound : w.handler.sessionCtrl.findByKey2 (addrKey msg.header.addr) = some r.session := by
    rw [SessionTable.findByKey2_eq, htable, Pairing.single_valueRight,
      if_pos ((addrKey_eq_zero_iff _).mpr haddr)]
  rw [processRsp, hfound] at hstep
  rw [next, out, hstep]
  refine ⟨?_, ?_, body, rfl⟩
  · dsimp only
    rw [hkind, hpending, if_pos Option.isSome_some]
    have hanswers : r.Answers ⟨{}, r.srcAddr, r.seq, body⟩ := ⟨rfl, rfl⟩
    exact List.eraseP_cons_of_pos (p := fun r => decide (ModuleRequest.Answers _ r))
      (decide_eq_true hanswers)
  · dsimp only
    rw [SessionTable.removeByKey1_pairing, htable]
    exact Pairing.unpair_single _ _ _

/-- Which answers clash. -/
theorem clashes_response_iff (hkind : responseKind msg = some kind) (j : Junk) (written : Int) :
    w.Clashes (.read msg j written) ↔
      kind ≠ .bind ∧ msg.header.addr = 0 ∧ w.pending ≠ [] := by
  cases msg with
  | getRsp msg =>
    obtain rfl := Option.some.inj hkind
    exact (and_iff_right (by decide)).symm
  | setRsp msg =>
    obtain rfl := Option.some.inj hkind
    exact (and_iff_right (by decide)).symm
  | bindRsp msg =>
    obtain rfl := Option.some.inj hkind
    exact ⟨fun hc => hc.elim, fun hc => hc.1 rfl⟩
  | _ => cases hkind

theorem not_clashes_of_responseKind (hkind : responseKind msg = none) (j : Junk) (written : Int) :
    ¬ w.Clashes (.read msg j written) := by
  cases msg with
  | getRsp msg => cases hkind
  | setRsp msg => cases hkind
  | _ => exact id

/-- An answer of the module. -/
theorem InStep.response_cases (h : InStep w) (hkind : responseKind msg = some kind) (j : Junk)
    (written : Int) :
    (¬ w.Clashes (.read msg j written) ∧ InStep (w.next (.read msg j written)) ∧
      w.Directed (.read msg j written)) ∨
    (w.Clashes (.read msg j written) ∧ ¬ w.Directed (.read msg j written)) := by
  have hdropped : w.handler.sessionCtrl.findByKey2 (addrKey msg.header.addr) = none →
      InStep (w.next (.read msg j written)) ∧ w.Directed (.read msg j written) := by
    intro hnone
    obtain ⟨hnext, hout⟩ := response_dropped hkind j written hnone
    refine ⟨hnext.symm ▸ h, fun _ _ m hm => ?_⟩
    rw [hout] at hm
    cases hm
  rw [clashes_response_iff hkind]
  cases h with
  | idle hp ht =>
    refine Or.inl ⟨fun hc => hc.2.2 hp, hdropped ?_⟩
    rw [SessionTable.findByKey2_eq, ht, Pairing.valueRight_eq_none_iff, Pairing.empty_symm]
  | busy r hbind hp ht =>
    by_cases haddr : msg.header.addr = 0
    · obtain ⟨hpending, htable, body, hout⟩ := response_answers hkind j written haddr hp ht
      by_cases hk : kind = .bind
      · refine Or.inl ⟨fun hc => hc.1 hk, .idle hpending htable, ?_⟩
        intro kind' hkind' m hm
        obtain rfl := Option.some.inj (hkind.symm.trans hkind')
        rw [hout] at hm
        obtain rfl := List.mem_singleton.mp hm
        exact ⟨r, by rw [hp]; exact List.mem_cons_self, hbind.trans hk.symm, rfl, rfl⟩
      · refine Or.inr ⟨⟨hk, haddr, by rw [hp]; exact List.cons_ne_nil _ _⟩, fun hdirected => ?_⟩
        -- the one request that waits is a bind
        obtain ⟨r', hr', hkind', -⟩ := hdirected kind hkind ⟨{}, r.srcAddr, r.seq, body⟩
          (by rw [hout]; exact List.mem_cons_self)
        rw [hp] at hr'
        obtain rfl := List.mem_singleton.mp hr'
        exact hk (hkind'.symm.trans hbind)
    · refine Or.inl ⟨fun hc => haddr hc.2.1, hdropped ?_⟩
      rw [SessionTable.findByKey2_eq, ht, Pairing.single_valueRight,
        if_neg fun hkey => haddr ((addrKey_eq_zero_iff _).mp hkey)]

/-! ## Runs -/

/-- **One event**: it keeps everything in step, or it clashes and something goes wrong. -/
theorem InStep.step_cases (h : InStep w) (e : ZZigBeeHandler.Event) :
    (¬ w.Clashes e ∧ InStep (w.next e) ∧ w.Directed e) ∨ (w.Clashes e ∧ ¬ w.Correlated e) := by
  cases e with
  | connected fd j written =>
    refine Or.inl ⟨id, ?_, trivial⟩
    rw [next]
    cases hstep : w.handler.step (.connected fd j written) with
    | error e => exact h
    | ok r => exact h.quiet (onConnected_quiet hstep) rfl
  | routine delta => exact Or.inl ⟨id, h.tick delta, trivial⟩
  | inner msg j written =>
    rcases next_inner w msg j written with
      ⟨hbody, hfd, hwritten, htable, hpending⟩ | ⟨hnot, htable, hpending⟩
    · cases h with
      | idle hp ht => exact Or.inl ⟨fun hc => hc.2.2.2 hp, InStep.send hp ht htable hpending, trivial⟩
      | busy r hkind hp ht =>
        have hne : w.pending ≠ [] := by
          rw [hp]
          exact List.cons_ne_nil _ _
        exact Or.inr ⟨⟨hbody, hfd, hwritten, hne⟩,
          fun hc => not_owned_of_busy hp ht htable hpending hc.1⟩
    · exact Or.inl ⟨fun hc => hnot ⟨hc.1, hc.2.1, hc.2.2.1⟩, h.quiet htable hpending, trivial⟩
  | read msg j written =>
    cases hkind : responseKind msg with
    | some kind =>
      rcases h.response_cases hkind j written with hgood | ⟨hclash, hbad⟩
      · exact Or.inl hgood
      · exact Or.inr ⟨hclash, fun hc => hbad hc.2⟩
    | none =>
      refine Or.inl ⟨not_clashes_of_responseKind hkind j written, ?_, ?_⟩
      · rw [next]
        cases hstep : w.handler.step (.read msg j written) with
        | error e => exact h
        | ok r =>
          refine h.quiet (onRead_quiet hkind hstep) ?_
          dsimp only
          rw [hkind]
          rfl
      · intro kind hkind'
        rw [hkind] at hkind'
        cases hkind'

theorem InStep.kept (h : InStep w) {e : ZZigBeeHandler.Event} (hclash : ¬ w.Clashes e) :
    InStep (w.next e) := by
  rcases h.step_cases e with ⟨-, hnext, -⟩ | ⟨hc, -⟩
  · exact hnext
  · exact absurd hc hclash

/-- **Requests and answers are correlated exactly if none of them clashes**: no bind is sent while
    another one waits, and no answer to a get or a set comes with address 0 while a bind waits. -/
theorem module_correlated_iff (es : List ZZigBeeHandler.Event) :
    (∀ v ∈ Runs.visits next init es, v.1.Correlated v.2) ↔
      ∀ v ∈ Runs.visits next init es, ¬ v.1.Clashes v.2 := by
  refine @Runs.forall_visits_iff _ _ next InStep (fun _ _ => True) Correlated
    (fun w e => ¬ w.Clashes e) ?_ ?_ init inStep_init es fun _ _ => trivial
  · intro w e h _
    rcases h.step_cases e with ⟨hclash, hnext, hdirected⟩ | ⟨hclash, hbad⟩
    · exact iff_of_true ⟨hnext.owned, hdirected⟩ hclash
    · exact iff_of_false hbad fun hnot => hnot hclash
  · exact fun w e h _ hnot => h.kept hnot

/-- The serial line is up, and a bind is sent on it. -/
def lineUp : ZZigBeeHandler.Event := .connected 5 ⟨0, 0, 0, 0, 0⟩ 16

def sendBind (seq : UInt32) : ZZigBeeHandler.Event :=
  .inner ⟨{}, {}, seq, .bindReq⟩ ⟨0, 0, 0, 0, 0⟩ 14

/-- Two binds are sent, one after the other, and the second one gets no session. -/
theorem module_correlated_fails :
    ¬ ∀ es, ∀ v ∈ Runs.visits next init es, v.1.Correlated v.2 := by
  intro hall
  have hup : InStep (init.next lineUp) := inStep_init.kept id
  have hfree : (init.next lineUp).pending = [] := by decide
  have hfirst : InStep ((init.next lineUp).next (sendBind 1)) := hup.kept fun hc => hc.2.2.2 hfree
  have hsecond := hall [lineUp, sendBind 1, sendBind 2]
    ((init.next lineUp).next (sendBind 1), sendBind 2)
    (List.mem_cons_of_mem _ (List.mem_cons_of_mem _ List.mem_cons_self))
  -- one bind waits when the other is sent
  have hclash : ((init.next lineUp).next (sendBind 1)).Clashes (sendBind 2) :=
    ⟨rfl, by decide, by decide, by decide⟩
  rcases hfirst.step_cases (sendBind 2) with ⟨hno, -⟩ | ⟨-, hbad⟩
  · exact hno hclash
  · exact hbad hsecond

end ModuleExchange

end Monsys
