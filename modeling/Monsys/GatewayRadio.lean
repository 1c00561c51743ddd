/-
  The serial side of the gateway, as the rest of it sees it.

  The server's requests to get and to set are answered by debugging code, and none of them is turned
  into a request to bind.  So the ZigBee handler never has a session, and whatever the wireless
  module answers finds nobody who waits for it.

  1. **Without sessions** — `Unasked`, which every callback of the port keeps (`event_unasked`).
  2. **Replies** — `reply`: what the handler makes of a request, without asking the module.
-/
import Monsys.Gateway
import Monsys.ZigBeeSessions

namespace Monsys

/-- What a monadic row of steps gives, if it gives anything. -/
theorem Except.bind_eq_ok {ε α β : Type} {x : Except ε α} {f : α → Except ε β} {b : β} :
    (x >>= f) = .ok b ↔ ∃ a, x = .ok a ∧ f a = .ok b := by
  cases x with
  | error e => exact ⟨nofun, fun ⟨_, h, _⟩ => nomatch h⟩
  | ok a => exact ⟨fun h => ⟨a, rfl, h⟩, fun ⟨_, h, hf⟩ => Except.ok.inj h ▸ hf⟩

namespace ZbOutput

theorem inside_append (out out' : List ZbOutput) :
    inside (out ++ out') = inside out ++ inside out' := List.filterMap_append

end ZbOutput

namespace ZZigBeeHandler

/-! ## Without sessions -/

/-- The handler has no session, and its device table is in order. -/
structure Unasked (h : ZZigBeeHandler) : Prop where
  noSession : h.sessionCtrl.pairing = .empty
  files : ∃ q p, h.devManager.Files q p

theorem unasked_new : new.Unasked := ⟨SessionTable.new_pairing, _, _, ZZBDevManager.files_new⟩

variable {h : ZZigBeeHandler} {j : Junk} {written : Int} {r : ZZigBeeHandler × List ZbOutput}

theorem Unasked.findByKey1 (hu : h.Unasked) (key : UInt32) :
    h.sessionCtrl.findByKey1 key = none := by
  rw [SessionTable.findByKey1_eq, hu.noSession]
  rfl

theorem Unasked.findByKey2 (hu : h.Unasked) (key : UInt32) :
    h.sessionCtrl.findByKey2 key = none := by
  rw [SessionTable.findByKey2_eq, hu.noSession]
  exact (Pairing.valueRight_eq_none_iff _ _).mpr rfl

/-- An answer of the module finds nobody. -/
theorem Unasked.processRsp (hu : h.Unasked) (addr : UInt16) (rsp : InnerBody) :
    h.processRsp addr rsp = (h, []) := by
  rw [ZZigBeeHandler.processRsp, hu.findByKey2]

theorem inside_send (h : ZZigBeeHandler) (bytes : List UInt8) (written : Int) :
    ZbOutput.inside (h.send bytes written).2 = [] := by
  rw [send]
  split <;> rfl

theorem processRegReq_unasked (hu : h.Unasked) {msg : ZZBRegReq}
    (hr : h.processRegReq msg j written = .ok r) : r.1.Unasked ∧ ZbOutput.inside r.2 = [] := by
  rw [processRegReq] at hr
  obtain ⟨⟨⟨rv, bytes⟩, m⟩, hreg, hr⟩ := Except.bind_eq_ok.mp hr
  obtain rfl := Except.ok.inj hr
  refine ⟨⟨hu.noSession, ?_⟩, ?_⟩
  · obtain ⟨q, p, hfiles⟩ := hu.files
    rw [ZZBDevManager.processRegReq] at hreg
    obtain ⟨⟨added, m'⟩, hadd, hreg⟩ := Except.bind_eq_ok.mp hreg
    have hcall : h.devManager.call (.add msg.mac msg.addr "dev-xxx" 1) = .ok m' := by
      rw [ZZBDevManager.call, hadd]
      rfl
    have hm : m = m' := by
      dsimp only at hreg
      generalize (if added = true then (0 : UInt8) else 0xFF) = status at hreg
      split at hreg
      · exact congrArg Prod.snd (Except.ok.inj hreg).symm
      · exact congrArg Prod.snd (Except.ok.inj hreg).symm
    rw [hm]
    exact hfiles.call hcall
  · dsimp only
    split
    · rfl
    · exact inside_send _ _ _

theorem onConnected_unasked (hu : h.Unasked) {fd : Int}
    (hr : onConnected { h with fd } j written = .ok r) :
    r.1.Unasked ∧ ZbOutput.inside r.2 = [] := by
  rw [onConnected] at hr
  dsimp only at hr
  split at hr
  · cases hr
  · split at hr
    · cases hr
    · obtain rfl := Except.ok.inj hr
      exact ⟨⟨hu.noSession, hu.files⟩, inside_send _ _ _⟩

/-- **A message of the module** says nothing that goes inside. -/
theorem onRead_unasked (hu : h.Unasked) {msg : ZbMsg} (hr : h.onRead msg j written = .ok r) :
    r.1.Unasked ∧ ZbOutput.inside r.2 = [] := by
  cases msg with
  | regReq msg => exact processRegReq_unasked hu hr
  | updateIdInfoReq msg =>
    obtain rfl := Except.ok.inj hr
    rw [processUpdateIdInfoReq]
    split
    · exact ⟨hu, rfl⟩
    · dsimp only
      split
      · exact ⟨hu, rfl⟩
      · exact ⟨hu, inside_send _ _ _⟩
  | getRsp msg =>
    obtain rfl := Except.ok.inj hr
    rw [processGetRsp, hu.processRsp]
    exact ⟨hu, rfl⟩
  | setRsp msg =>
    obtain rfl := Except.ok.inj hr
    rw [processSetRsp, hu.processRsp]
    exact ⟨hu, rfl⟩
  | bindRsp msg =>
    obtain rfl := Except.ok.inj hr
    rw [processBindRsp, hu.processRsp]
    exact ⟨hu, rfl⟩
  | _ =>
    obtain rfl := Except.ok.inj hr
    exact ⟨hu, rfl⟩

theorem onReadBytes_unasked (hu : h.Unasked) {s : Surroundings} {buf : List UInt8}
    (hr : h.onReadBytes s buf = .ok r) : r.1.Unasked ∧ ZbOutput.inside r.2 = [] := by
  rw [onReadBytes] at hr
  obtain ⟨hdr, -, hr⟩ := Except.bind_eq_ok.mp hr
  cases hdr with
  | none =>
    obtain rfl := Except.ok.inj hr
    exact ⟨hu, rfl⟩
  | some hdr =>
    dsimp only at hr
    cases hcmd : forCommand hdr.cmd s.junk with
    | none =>
      rw [hcmd] at hr
      obtain rfl := Except.ok.inj hr
      exact ⟨hu, rfl⟩
    | some msg =>
      rw [hcmd] at hr
      obtain ⟨msg', -, hr⟩ := Except.bind_eq_ok.mp hr
      cases msg' with
      | none =>
        obtain rfl := Except.ok.inj hr
        exact ⟨hu, rfl⟩
      | some msg' => exact onRead_unasked hu hr

theorem onReadCalls_unasked (hu : h.Unasked) {s : Nat → Surroundings} {bufs : List (List UInt8)}
    (hr : h.onReadCalls s bufs = .ok r) : r.1.Unasked ∧ ZbOutput.inside r.2 = [] := by
  induction bufs generalizing h s r with
  | nil =>
    obtain rfl := Except.ok.inj hr
    exact ⟨hu, rfl⟩
  | cons buf bufs ih =>
    rw [onReadCalls] at hr
    obtain ⟨⟨h₁, out⟩, hfirst, hr⟩ := Except.bind_eq_ok.mp hr
    obtain ⟨⟨h₂, outs⟩, hrest, hr⟩ := Except.bind_eq_ok.mp hr
    obtain rfl := Except.ok.inj hr
    obtain ⟨hu₁, hout⟩ := onReadBytes_unasked hu hfirst
    obtain ⟨hu₂, houts⟩ := ih hu₁ hrest
    dsimp only at hout houts ⊢
    exact ⟨hu₂, by rw [ZbOutput.inside_append, hout, houts]; rfl⟩

/-- A tick finds no session. -/
theorem Unasked.routine (hu : h.Unasked) (delta : Int) : (h.routine delta).Unasked := by
  refine ⟨?_, hu.files⟩
  have hlookup := h.sessionCtrl.tickLoop_keys_lookup (ZZigBeeSession.doTimeout · delta)
    ZZigBeeSession.isComplete
  rw [hu.noSession] at hlookup
  refine Pairing.ext (PEquiv.ext fun k => ?_) (funext fun k => (hlookup k).1)
  exact (hlookup k).2.trans (by split <;> rfl)

end ZZigBeeHandler

namespace SerialModule

variable {m : SerialModule} {s : Nat → Surroundings}

theorem received_unasked (hu : m.handler.Unasked) {bytes : List UInt8}
    {r : Nat × SerialModule × List ZbOutput} (hr : m.received s bytes = .ok r) :
    r.2.1.handler.Unasked ∧ ZbOutput.inside r.2.2 = [] := by
  rw [received] at hr
  split at hr
  · rw [onRead] at hr
    split at hr
    · cases hr
    · obtain ⟨⟨h, out⟩, hcalls, hr⟩ := Except.bind_eq_ok.mp hr
      obtain rfl := Except.ok.inj hr
      exact ZZigBeeHandler.onReadCalls_unasked hu hcalls
  · obtain rfl := Except.ok.inj hr
    exact ⟨hu, rfl⟩

theorem onDisconnected_unasked (hu : m.handler.Unasked) {s : Surroundings} {answer : OpenAnswer}
    {r : SerialModule × List ZbOutput} (hr : m.onDisconnected s answer = .ok r) :
    r.1.handler.Unasked ∧ ZbOutput.inside r.2 = [] := by
  rw [onDisconnected] at hr
  obtain ⟨⟨ok, m₁, out⟩, hconnect, hr⟩ := Except.bind_eq_ok.mp hr
  obtain rfl := Except.ok.inj hr
  cases answer with
  | failed =>
    obtain ⟨-, rfl, rfl⟩ := Except.ok.inj hconnect
    exact ⟨hu, rfl⟩
  | noEvent fd hfd =>
    obtain ⟨-, rfl, rfl⟩ := Except.ok.inj hconnect
    exact ⟨hu, rfl⟩
  | opened fd hfd =>
    rw [connect] at hconnect
    obtain ⟨⟨h, out₁⟩, hopen, hconnect⟩ := Except.bind_eq_ok.mp hconnect
    obtain ⟨-, rfl, rfl⟩ := Except.ok.inj hconnect
    exact ZZigBeeHandler.onConnected_unasked hu hopen

/-- **A callback of the port** leaves the handler without sessions, and sends nothing inside. -/
theorem event_unasked (hu : m.handler.Unasked) {answer : PortAnswer}
    {r : Nat × SerialModule × List ZbOutput} (hr : m.event s answer = .ok r) :
    r.2.1.handler.Unasked ∧ ZbOutput.inside r.2.2 = [] := by
  rw [event] at hr
  cases hstate : m.state with
  | connected =>
    rw [hstate] at hr
    obtain ⟨⟨n, m₁, out⟩, hread, hr⟩ := Except.bind_eq_ok.mp hr
    obtain rfl := Except.ok.inj hr
    have hboth := received_unasked hu hread
    dsimp only at hboth ⊢
    split
    · exact hboth
    · exact hboth
  | disconnected =>
    rw [hstate] at hr
    obtain ⟨⟨m₁, out⟩, hopen, hr⟩ := Except.bind_eq_ok.mp hr
    obtain rfl := Except.ok.inj hr
    exact onDisconnected_unasked hu hopen

end SerialModule

/-! ## Replies -/

namespace ZZBDevManager

/-- The devices, by their MACs. -/
def devices (m : ZZBDevManager) : List ZZBDevInfo :=
  m.macDevMap.toList.filterMap fun e => m.dev e.2

/-- Every pointer of the table is good. -/
theorem Files.mapM_deref {m : ZZBDevManager} {q : Pairing ZbMac UInt16 Ptr} {p : Directory}
    (h : m.Files q p) : (m.macDevMap.toList.map Prod.snd).mapM m.deref = .ok m.devices := by
  have hall : ∀ es : List (ZbMac × Ptr), (∀ e ∈ es, ∃ dev, m.dev e.2 = some dev) →
      (es.map Prod.snd).mapM m.deref = .ok (es.filterMap fun e => m.dev e.2) := by
    intro es hes
    induction es with
    | nil => rfl
    | cons e es ih =>
      obtain ⟨dev, hdev⟩ := hes e List.mem_cons_self
      rw [List.map_cons, List.mapM_cons, deref_of_dev hdev,
        ih fun e' he' => hes e' (List.mem_cons_of_mem e he'), List.filterMap_cons, hdev]
      rfl
  refine hall _ fun e he => ?_
  have hfind : m.findMac e.1 = some e.2 := Std.TreeMap.mem_toList_iff_getElem?_eq_some.mp he
  obtain ⟨dev, hdev, -⟩ := h.exists_dev ((h.mac e.1).symm.trans hfind)
  exact ⟨dev, hdev⟩

end ZZBDevManager

/-- What the gateway answers to a request of the server's: five devices that are not there and then
    those of the table; made-up values for the items that are asked for; and that all went well. -/
def ZZBDevManager.reply (m : ZZBDevManager) : InnerBody → Option InnerBody
  | .getDevListReq =>
    some (.getDevListRsp ((List.range 5).map ZZigBeeHandler.debugDev ++ m.devices))
  | .getDevInfoReq _ itemIds =>
    some (.getDevInfoRsp
      ((List.range itemIds.length).map fun i => ⟨UInt8.ofNat i, UInt16.ofNat (i * 11)⟩))
  | .setDevInfoReq _ _ => some (.setDevInfoRsp 0)
  | _ => none

/-- What the server asks for has a reply. -/
theorem push2inner_reply {msg : Push.PushMsg} {body : InnerBody} (h : push2inner msg = some body)
    (m : ZZBDevManager) : ∃ rsp, m.reply body = some rsp := by
  rw [push2inner] at h
  split at h
  · obtain ⟨_, _, rfl⟩ := Option.map_eq_some_iff.mp h
    exact ⟨_, rfl⟩
  · obtain ⟨_, _, rfl⟩ := Option.map_eq_some_iff.mp h
    exact ⟨_, rfl⟩
  · obtain ⟨_, _, rfl⟩ := Option.map_eq_some_iff.mp h
    exact ⟨_, rfl⟩
  · cases h

/-- **A request is replied to**, at once and to who has made it. -/
theorem ZZigBeeHandler.Unasked.onInnerMsg {h : ZZigBeeHandler} (hu : h.Unasked) {msg : ZInnerMsg}
    {rsp : InnerBody} (hrsp : h.devManager.reply msg.body = some rsp) (j : Junk) (written : Int) :
    h.onInnerMsg msg j written = .ok (h, [.dispatch ⟨{}, msg.srcAddr, msg.seq, rsp⟩]) := by
  rw [ZZigBeeHandler.onInnerMsg]
  cases hbody : msg.body with
  | getDevListReq =>
    rw [hbody] at hrsp
    obtain rfl := Option.some.inj hrsp
    obtain ⟨q, p, hfiles⟩ := hu.files
    dsimp only
    rw [processGetDevListReq, hfiles.mapM_deref]
    rfl
  | getDevInfoReq addr itemIds =>
    rw [hbody] at hrsp
    obtain rfl := Option.some.inj hrsp
    dsimp only
    rw [processGetDevInfoReq, hu.findByKey1]
  | setDevInfoReq addr devVals =>
    rw [hbody] at hrsp
    obtain rfl := Option.some.inj hrsp
    dsimp only
    rw [processSetDevInfoReq, hu.findByKey1]
  | _ =>
    rw [hbody] at hrsp
    cases hrsp

end Monsys
