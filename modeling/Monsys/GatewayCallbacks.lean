/-
  The callbacks of the gateway (`server/fgw.cc`): what libevent calls between two checks of the
  queues.

  1. **What the client hears** — an event of a `ZClient`, as its handler sees it, and what goes
     inside.
  2. **One callback** — `Taken`: what it does to the sessions and the queues, whatever it is.
     `Steady.step` is the case analysis on which all that follows rests.
-/
import Monsys.GatewayRadio

namespace Monsys

open Push

/-! ## What the client hears -/

namespace Output

/-- The messages of the server that are read in what is put out. -/
def read (out : List Output) : List PushMsg :=
  out.filterMap fun
    | .decoded msg => some msg
    | _ => none

end Output

/-- What an event of the client is for its handler: nothing, a connection, or bytes. -/
theorem ZClient.step_handler {H O : Type} (cls : HandlerClass H O) {c : ZClient H} {h : H}
    (hh : c.handler = some h) (e : ZClient.Event) :
    ((c.step cls e).1.handler = some h ∧ (c.step cls e).2 = []) ∨
    (∃ fd, (c.step cls e).1.handler = some (cls.onConnected (cls.setFd h fd)).1 ∧
      (c.step cls e).2 = (cls.onConnected (cls.setFd h fd)).2) ∨
    ∃ buf, buf ≠ [] ∧ (c.step cls e).1.handler = some (cls.onRead h buf).1 ∧
      (c.step cls e).2 = (cls.onRead h buf).2 := by
  have htell : ∀ (c : ZClient H) (fd : Int), c.handler = some h →
      (c.tellHandler cls fd).1.handler = some (cls.onConnected (cls.setFd h fd)).1 ∧
        (c.tellHandler cls fd).2 = (cls.onConnected (cls.setFd h fd)).2 := by
    intro c fd hc
    rw [tellHandler, hc]
    exact ⟨rfl, rfl⟩
  have hdisconnected : ∀ (c : ZClient H) (fd : Int) (sys : Sys), c.handler = some h →
      ((c.onDisconnected cls fd sys).2.1.handler = some h ∧
        (c.onDisconnected cls fd sys).2.2 = []) ∨
      ∃ n, (c.onDisconnected cls fd sys).2.1.handler =
          some (cls.onConnected (cls.setFd h n)).1 ∧
        (c.onDisconnected cls fd sys).2.2 = (cls.onConnected (cls.setFd h n)).2 := by
    intro c fd sys hc
    rcases c.onDisconnected_cases cls fd sys with ⟨-, heq⟩ | ⟨-, heq⟩ | ⟨-, c', hc', -, heq⟩
    · rw [heq]
      exact Or.inr ⟨fd, htell (c.connectedOver sys) fd (c.disconnect_handler.trans hc)⟩
    · rw [heq]
      exact Or.inl ⟨c.disconnect_handler.trans hc, rfl⟩
    · rw [heq]
      exact Or.inl ⟨hc'.trans hc, rfl⟩
  cases e with
  | socket sys =>
    rw [step]
    cases c.socketEventProxy.pending with
    | none => exact Or.inl ⟨hh, rfl⟩
    | some ev =>
      dsimp only [event]
      cases c.state with
      | waitingForConnect =>
        dsimp only [onWaitingForConnect]
        cases sys.soError with
        | clear => exact Or.inr (Or.inl ⟨ev.fd, htell _ ev.fd hh⟩)
        | inProgress => exact Or.inl ⟨hh, rfl⟩
        | failed => exact Or.inl ⟨hh, rfl⟩
      | connected =>
        dsimp only [onConnected]
        cases sys.recv with
        | closed => exact Or.inl ⟨hh, rfl⟩
        | failed => exact Or.inl ⟨hh, rfl⟩
        | data buf hbuf =>
          have hne : buf ≠ [] := List.length_pos_iff.mp hbuf.1
          dsimp only
          rw [hh]
          exact Or.inr (Or.inr ⟨buf, hne, rfl, rfl⟩)
      | disconnected =>
        exact (hdisconnected
          { c with socketEventProxy := c.socketEventProxy.fired, state := .disconnected } ev.fd sys
          hh).imp_right Or.inl
  | timeout sys =>
    rw [step]
    cases c.timeoutEventProxy.pending with
    | none => exact Or.inl ⟨hh, rfl⟩
    | some ev =>
      dsimp only [onTimeoutPrivate]
      cases c.state with
      | waitingForConnect => exact Or.inl ⟨(disconnect_handler _).trans hh, rfl⟩
      | connected => exact Or.inl ⟨hh, rfl⟩
      | disconnected =>
        exact (hdisconnected
          { c with
            timeoutEventProxy := c.timeoutEventProxy.fired.cancel, state := .disconnected } c.fd sys
          hh).imp_right Or.inl

namespace FGWClientHandler

variable {pb : Protobuf}

/-- A login says nothing inside. -/
theorem fgwLogin_out (pb : Protobuf) (h : FGWClientHandler) :
    Output.inside (fgwLogin pb h).2 = [] ∧ Output.read (fgwLogin pb h).2 = [] := by
  rw [fgwLogin]
  split
  · exact ⟨rfl, rfl⟩
  · exact ⟨rfl, rfl⟩

theorem timerCallback_out (pb : Protobuf) (h : FGWClientHandler) (id : Fin maxTimerCount) :
    Output.inside (h.timerCallback pb id).2 = [] := by
  have htimeout : Output.inside (h.onTimeout pb id).2 = [] := by
    rw [onTimeout]
    split
    · split
      · exact (fgwLogin_out pb _).1
      · rfl
    · rfl
  rw [timerCallback]
  split
  · rfl
  · exact htimeout

theorem onReadWaitForServer_out (pb : Protobuf) (h : FGWClientHandler) (buf : List UInt8) :
    Output.inside (h.onReadWaitForServer pb buf).2 = [] := by
  rw [onReadWaitForServer]
  split
  · rfl
  · split
    · rfl
    · rfl

theorem eventInner_out (pb : Protobuf) (fd : Int) (s : FGWClientForwardSession) (msg : ZInnerMsg) :
    Output.inside (s.eventInner pb fd msg).2 = [] := by
  rw [FGWClientForwardSession.eventInner]
  split
  · rfl
  · split
    · rfl
    · rfl

/-- An answer from inside makes nothing go inside. -/
theorem onInnerMsg_out (pb : Protobuf) (h : FGWClientHandler) (msg : ZInnerMsg) :
    Output.inside (h.onInnerMsg pb msg).2 = [] := by
  rw [onInnerMsg]
  split
  · rfl
  · exact eventInner_out pb h.fd _ msg

end FGWClientHandler

/-! ## One callback -/

/-- The address of the client. -/
def clientAddr : ZInnerAddress := ⟨moduleFgwClient, -1, 1⟩

/-- A request of the server on its way to the serial module. -/
def forwarded (seq : UInt32) (body : InnerBody) : ZInnerMsg :=
  ⟨clientAddr, ⟨moduleSerial, -1, anyId⟩, seq, body⟩

namespace Gateway

/-- The messages of the server that a callback reads in the registered state. -/
def heard (pb : Protobuf) (g : Gateway) : Event → List PushMsg
  | .client e =>
    if (g.modules.client.handler.map FGWClientHandler.state) = some .registered then
      Output.read (g.modules.client.step pb (.client e)).2
    else []
  | _ => []

/-- What holds of the gateway at any time: two modules are registered, nobody has asked the wireless
    module for anything, and the client has a handler. -/
structure Steady (g : Gateway) (h : FGWClientHandler) : Prop where
  registered : g.dispatcher.moduleList.map ZModule.type = [moduleSerial, moduleFgwClient]
  unasked : g.modules.serial.handler.Unasked
  handler : g.modules.client.handler = some h

/-- **What a callback does** to the sessions and the queues: nothing; a tick; or it brings a message
    of the server under a number that no session has, which is dropped, or forwarded. -/
inductive Taken (pb : Protobuf) (g : Gateway) (h : FGWClientHandler) (e : Event)
    (d' : ZDispatcher) (h' : FGWClientHandler) : Prop
  | quiet (he : e ≠ .routine)
      (hheard : ∀ msg ∈ g.heard pb e,
        (h.sessionCtrl.findByKey2 (FGWClientForwardSession.external msg)).isSome)
      (hd : d' = g.dispatcher) (hsessions : h'.sessionCtrl = h.sessionCtrl)
      (hgen : h'.idGenerator = h.idGenerator)
  | tick (he : e = .routine) (hd : d' = g.dispatcher) (hh : h' = h.routine routineInterval)
  | dropped {msg : PushMsg} (he : e ≠ .routine) (hheard : g.heard pb e = [msg])
      (hfree : h.sessionCtrl.findByKey2 (FGWClientForwardSession.external msg) = none)
      (hnone : push2inner msg = none) (hd : d' = g.dispatcher)
      (hsessions : h'.sessionCtrl = h.sessionCtrl) (hgen : h'.idGenerator = h.idGenerator.next.2)
  | forwarded {msg : PushMsg} {body : InnerBody} {seq : UInt32} (he : e ≠ .routine)
      (hheard : g.heard pb e = [msg]) (hseq : seq = UInt32.ofInt h.idGenerator.next.1)
      (hfree : h.sessionCtrl.findByKey2 (FGWClientForwardSession.external msg) = none)
      (hbody : push2inner msg = some body)
      (hd : d' = (g.dispatcher.sendDirect (Monsys.forwarded seq body)).2)
      (hsessions : h'.sessionCtrl = (h.sessionCtrl.add seq (FGWClientForwardSession.external msg)
        (.waiting seq (FGWClientForwardSession.external msg) 0)).2)
      (hgen : h'.idGenerator = h.idGenerator.next.2)

variable {pb : Protobuf} {g g' : Gateway} {h : FGWClientHandler}

theorem sendDirect_types (d : ZDispatcher) (msg : ZInnerMsg) :
    (d.sendDirect msg).2.moduleList.map ZModule.type = d.moduleList.map ZModule.type := by
  rw [ZDispatcher.sendDirect]
  split
  · rfl
  · dsimp only [ZDispatcher.withQueue]
    rw [List.map_map]
    refine List.map_congr_left fun m _ => ?_
    rw [Function.comp_apply]
    split <;> rfl

/-- The client has called its handler, which goes on as `h'`. -/
theorem Steady.withClient (hg : g.Steady h) {r : FGWClient × List Output} {h' : FGWClientHandler}
    (hr : r.1.handler = some h') (hinside : (Output.inside r.2).length ≤ 1) :
    (g.sending (g.modules.withClient r)).Steady h' := by
  refine ⟨?_, hg.unasked, hr⟩
  dsimp only [sending, Modules.withClient]
  cases hout : Output.inside r.2 with
  | nil => exact hg.registered
  | cons msg msgs =>
    rw [hout] at hinside
    obtain rfl : msgs = [] :=
      List.length_eq_zero_iff.mp (Nat.le_zero.mp (Nat.le_of_succ_le_succ hinside))
    exact (sendDirect_types g.dispatcher msg).trans hg.registered

/-- A callback in which the client's handler says nothing inside. -/
theorem Steady.quiet (hg : g.Steady h) {e : Event} {r : FGWClient × List Output}
    {h' : FGWClientHandler} (he : e ≠ .routine) (hr : r.1.handler = some h')
    (hinside : Output.inside r.2 = [])
    (hheard : ∀ msg ∈ g.heard pb e,
      (h.sessionCtrl.findByKey2 (FGWClientForwardSession.external msg)).isSome)
    (hframe : h'.sessionCtrl = h.sessionCtrl ∧ h'.idGenerator = h.idGenerator) :
    ∃ h', (g.sending (g.modules.withClient r)).Steady h' ∧
      Taken pb g h e (g.sending (g.modules.withClient r)).dispatcher h' := by
  refine ⟨h', hg.withClient hr (by rw [hinside]; exact Nat.zero_le 1),
    .quiet he hheard ?_ hframe.1 hframe.2⟩
  dsimp only [sending, Modules.withClient]
  rw [hinside]
  rfl

/-- What is heard in the registered state is what the handler reads. -/
theorem Steady.heard_client (hg : g.Steady h) (pb : Protobuf) (e : ZClient.Event) :
    g.heard pb (.client e) =
      if h.state = .registered then Output.read (g.modules.client.step pb (.client e)).2
      else [] := by
  rw [heard, hg.handler, Option.map_some]
  exact if_congr Option.some_inj rfl rfl

theorem client_ne_routine (e : ZClient.Event) : Event.client e ≠ .routine := fun h => by cases h

theorem Steady.step_client (hg : g.Steady h) (e : ZClient.Event) :
    ∃ h', (g.sending (g.modules.withClient (g.modules.client.step pb (.client e)))).Steady h' ∧
      Taken pb g h (.client e)
        (g.sending (g.modules.withClient (g.modules.client.step pb (.client e)))).dispatcher
        h' := by
  have hheard := hg.heard_client pb e
  rw [FGWClient.step] at hheard ⊢
  rcases ZClient.step_handler (FGWClientHandler.handlerClass pb) hg.handler e with
    ⟨hh, hout⟩ | ⟨fd, hh, hout⟩ | ⟨buf, hbuf, hh, hout⟩
  · refine hg.quiet (client_ne_routine e) hh (by rw [hout]; rfl) ?_ ⟨rfl, rfl⟩
    have hnone : g.heard pb (.client e) = [] := by
      rw [hheard, hout]
      split <;> rfl
    rw [hnone]
    exact List.forall_mem_nil _
  · -- a connection is up, and the handler logs in
    obtain ⟨hinside, hread⟩ :=
      FGWClientHandler.fgwLogin_out pb { h with fd := fd, state := .unregistered }
    refine hg.quiet (client_ne_routine e) hh (by rw [hout]; exact hinside) ?_
      (FGWClientHandler.fgwLogin_frame pb _)
    rw [hheard, hout]
    split
    · have hnone : Output.read ((FGWClientHandler.handlerClass pb).onConnected
          ((FGWClientHandler.handlerClass pb).setFd h fd)).2 = [] := hread
      rw [hnone]
      exact List.forall_mem_nil _
    · exact List.forall_mem_nil _
  · have hcls : (FGWClientHandler.handlerClass pb).onRead h buf = h.onRead pb buf := rfl
    rw [hcls] at hh hout
    rw [FGWClientHandler.onRead] at hh hout
    cases hst : h.state with
    | unregistered =>
      rw [hst] at hh hout hheard
      refine hg.quiet (client_ne_routine e) hh (by rw [hout]; rfl) ?_ ⟨rfl, rfl⟩
      rw [hheard]
      exact List.forall_mem_nil _
    | waitForServer =>
      rw [hst] at hh hout hheard
      refine hg.quiet (client_ne_routine e) hh
        (by rw [hout]; exact FGWClientHandler.onReadWaitForServer_out pb h buf) ?_
        (FGWClientHandler.onReadWaitForServer_frame pb h buf)
      rw [hheard]
      exact List.forall_mem_nil _
    | registered =>
      rw [hst] at hh hout hheard
      rw [if_pos rfl] at hheard
      dsimp only at hh hout
      rcases FGWClientHandler.onReadRegistered_cases pb h hbuf with
        ⟨-, heq⟩ | ⟨msg, -, ⟨hdup, heq⟩ | ⟨hfree, hnone, heq⟩ | ⟨body, hfree, hbody, heq⟩⟩
      · rw [heq] at hh hout
        refine hg.quiet (client_ne_routine e) hh (by rw [hout]; rfl) ?_ ⟨rfl, rfl⟩
        rw [hheard, hout]
        exact List.forall_mem_nil _
      · rw [heq] at hh hout
        refine hg.quiet (client_ne_routine e) hh (by rw [hout]; rfl) ?_ ⟨rfl, rfl⟩
        rw [hheard, hout]
        intro msg' hmsg'
        obtain rfl : msg' = msg := List.mem_singleton.mp hmsg'
        exact hdup
      · rw [heq] at hh hout
        refine ⟨_, hg.withClient hh (by rw [hout]; exact Nat.zero_le 1),
          .dropped (client_ne_routine e) (by rw [hheard, hout]; rfl) hfree hnone ?_ rfl rfl⟩
        dsimp only [sending, Modules.withClient]
        rw [hout]
        rfl
      · rw [heq] at hh hout
        refine ⟨_, hg.withClient hh (by rw [hout]; exact Nat.le_refl 1),
          .forwarded (client_ne_routine e) (by rw [hheard, hout]; rfl) rfl hfree hbody ?_ rfl rfl⟩
        dsimp only [sending, Modules.withClient]
        rw [hout]
        rfl

/-- `routine` of both modules. -/
theorem Steady.moduleRoutine (hg : g.Steady h) :
    ZDispatcher.moduleRoutine (Modules.routine pb routineInterval) g.modules g.dispatcher =
      { g.modules with
        serial := { g.modules.serial with
          handler := g.modules.serial.handler.routine routineInterval }
        client := { g.modules.client with handler := some (h.routine routineInterval) } } := by
  have hfold := @List.foldl_map _ _ _ ZModule.type
    (fun m type => Modules.routine pb routineInterval type m) g.dispatcher.moduleList g.modules
  rw [ZDispatcher.moduleRoutine, ← hfold, hg.registered]
  have hne : moduleFgwClient ≠ moduleSerial := by decide
  simp only [List.foldl_cons, List.foldl_nil, Modules.routine, if_pos, if_neg hne, FGWClient.step,
    FGWClient.callHandler, hg.handler, Modules.withClient, Put.ofClient, List.filterMap_nil,
    List.append_nil]

/-- **One callback.** -/
theorem Steady.step (hg : g.Steady h) {e : Event} (hstep : g.step pb e = .ok g') :
    ∃ h', g'.Steady h' ∧ Taken pb g h e g'.dispatcher h' := by
  cases e with
  | port answer =>
    rw [Gateway.step] at hstep
    cases hevent : g.modules.serial.event g.modules.surroundings answer with
    | error a =>
      rw [hevent] at hstep
      cases hstep
    | ok r =>
      rw [hevent] at hstep
      obtain rfl := Except.ok.inj hstep
      obtain ⟨hu, hinside⟩ := SerialModule.event_unasked hg.unasked hevent
      have hd : (g.sending (g.modules.withSerial r)).dispatcher = g.dispatcher := by
        dsimp only [sending, Modules.withSerial]
        rw [hinside]
        rfl
      exact ⟨h, ⟨by rw [hd]; exact hg.registered, hu, hg.handler⟩,
        .quiet (fun h => by cases h) (List.forall_mem_nil _) hd rfl rfl⟩
  | client e =>
    obtain rfl := Except.ok.inj hstep
    exact hg.step_client e
  | loginTimer id =>
    obtain rfl := Except.ok.inj hstep
    have hcall : g.modules.client.step pb (.timer id) =
        ({ g.modules.client with handler := some (h.timerCallback pb id).1 },
          (h.timerCallback pb id).2) := by
      rw [FGWClient.step, FGWClient.callHandler, hg.handler]
    rw [hcall]
    exact hg.quiet (fun h => by cases h) rfl (FGWClientHandler.timerCallback_out pb h id)
      (List.forall_mem_nil _) (FGWClientHandler.timerCallback_frame pb h id)
  | routine =>
    obtain rfl := Except.ok.inj hstep
    rw [hg.moduleRoutine]
    exact ⟨_, ⟨hg.registered, hg.unasked.routine routineInterval, rfl⟩, .tick rfl rfl rfl⟩

end Gateway

end Monsys
