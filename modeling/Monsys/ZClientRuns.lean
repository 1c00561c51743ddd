/-
  Whole runs of a `ZClient`.

  1. **Waiting** — `Live`: in every state the client waits for an event; `Moved`: what an event can do
     to such a client.
  2. **Wake-ups** — `awake_iff`: some event is pending all through, exactly if no connect runs into
     its timeout.
  3. **The handler's descriptor** — `handlerLive_iff`: it is the client's own all through, exactly if
     every connect that is done at once gets the descriptor `onDisconnected` was called with.
  4. **The client's sockets** — no other socket is open than the one of its `fd_`.
-/
import Monsys.Lib.Runs
import Monsys.ZClient

namespace Monsys

namespace ZClient

variable {H O : Type}

/-! ## Waiting -/

/-- An event of these flags is pending on the client's socket, which is open. -/
def WaitsOn (c : ZClient H) (flags : EventFlags) : Prop :=
  c.socketEventProxy.ev = some ⟨c.fd, flags, true⟩ ∧ (c.sockets.opened c.fd).isSome

instance (c : ZClient H) (flags : EventFlags) : Decidable (c.WaitsOn flags) :=
  inferInstanceAs (Decidable (_ ∧ _))

/-- The timeout is pending. -/
def TimeoutPending (c : ZClient H) : Prop := c.timeoutEventProxy.pending.isSome

instance (c : ZClient H) : Decidable c.TimeoutPending := inferInstanceAs (Decidable (_ = true))

/-- What the client waits for in each state. -/
def Live (c : ZClient H) : Prop :=
  match c.state with
  | .waitingForConnect => c.WaitsOn .write
  | .connected => c.WaitsOn .readPersist
  | .disconnected => c.TimeoutPending

/-- The connect timeout fires: the one branch that cancels and arms nothing. -/
def ConnectTimesOut (c : ZClient H) : Event → Prop
  | .socket _ => False
  | .timeout _ => c.state = .waitingForConnect ∧ c.TimeoutPending

/-- The event makes the client connect again: the descriptor `onDisconnected` is called with. -/
def reconnects (c : ZClient H) : Event → Option (Int × Sys)
  | .socket sys =>
    if c.state = .disconnected then c.socketEventProxy.pending.map fun ev => (ev.fd, sys) else none
  | .timeout sys =>
    if c.state = .disconnected then c.timeoutEventProxy.pending.map fun _ => (c.fd, sys) else none

theorem scheduleReconnect_live (c : ZClient H) : c.scheduleReconnect.Live := by
  show Option.isSome (some (Ev.mk (-1) .timeout true)) = true
  rfl

theorem onDisconnected_live (cls : HandlerClass H O) (c : ZClient H) (fd : Int) (sys : Sys) :
    (c.onDisconnected cls fd sys).2.1.Live := by
  rcases c.onDisconnected_cases cls fd sys with ⟨-, hc⟩ | ⟨-, hc⟩ | ⟨-, c', -, -, hc⟩
  · rw [hc, tellHandler_fst]
    exact ⟨rfl, c.withSocket_open sys⟩
  · rw [hc]
    exact ⟨rfl, c.withSocket_open sys⟩
  · rw [hc]
    exact c'.scheduleReconnect_live

/-- What the connect timeout leaves: a client that waits for nothing. -/
def Stuck (c : ZClient H) : Prop :=
  c.state = .waitingForConnect ∧ c.socketEventProxy.ev = none ∧ c.timeoutEventProxy.ev = none

/-- No event can fire any more. -/
theorem Stuck.step {cls : HandlerClass H O} {c : ZClient H} (hstuck : c.Stuck) (e : Event) :
    c.step cls e = (c, []) := by
  cases e with
  | socket sys => rw [ZClient.step, ZEventProxy.pending, hstuck.2.1, Option.filter_none]
  | timeout sys => rw [ZClient.step, ZEventProxy.pending, hstuck.2.2, Option.filter_none]

/-- What an event can do to a client that waits for one. -/
inductive Moved (cls : HandlerClass H O) (c : ZClient H) : Event → ZClient H × List O → Prop
  | idle {e : Event} (hre : c.reconnects e = none) (htimeout : ¬ c.ConnectTimesOut e) :
      Moved cls c e (c, [])
  | still {sys : Sys} (hstate : c.state = .waitingForConnect) :
      Moved cls c (.socket sys) ({ c with timeoutEventProxy := ⟨none⟩ }, [])
  | up {sys : Sys} (hstate : c.state = .waitingForConnect) :
      Moved cls c (.socket sys)
        ({ c with
            state := .connected
            socketEventProxy := ⟨some ⟨c.fd, .readPersist, true⟩⟩
            timeoutEventProxy := ⟨none⟩ }.tellHandler cls c.fd)
  | read {sys : Sys} {buf : List UInt8} {handler : H} (hstate : c.state = .connected)
      (hbuf : 0 < buf.length ∧ buf.length ≤ 1024) (hhandler : c.handler = some handler) :
      Moved cls c (.socket sys)
        ({ c with handler := some (cls.onRead handler buf).1 }, (cls.onRead handler buf).2)
  | ignored {e : Event} {c' : ZClient H} (hstate : c.state = .connected)
      (hc : c' = { c with timeoutEventProxy := c'.timeoutEventProxy }) : Moved cls c e (c', [])
  | lost {sys : Sys} {c' : ZClient H} (hstate : c.state ≠ .disconnected)
      (hhandler : c'.handler = c.handler)
      (hsockets : (c'.fd = c.fd ∧ c'.sockets = c.sockets) ∨ c'.sockets = c.sockets.close c.fd) :
      Moved cls c (.socket sys) (c'.scheduleReconnect, [])
  | reconnect {e : Event} {fd : Int} {sys : Sys} {c' : ZClient H} (hre : c.reconnects e = some (fd, sys))
      (hc : c'.fd = c.fd ∧ c'.sockets = c.sockets) (hhandler : c'.handler = c.handler) :
      Moved cls c e (c'.onDisconnected cls fd sys).2
  | timedOut {sys : Sys} {c' : ZClient H} (htimeout : c.ConnectTimesOut (.timeout sys))
      (hhandler : c'.handler = c.handler)
      (hsockets : (c'.fd = c.fd ∧ c'.sockets = c.sockets) ∨ c'.sockets = c.sockets.close c.fd)
      (hstuck : c'.Stuck) :
      Moved cls c (.timeout sys) (c', [])

theorem Live.moved_socket {cls : HandlerClass H O} {c : ZClient H} (hlive : c.Live) (sys : Sys) :
    c.Moved cls (.socket sys) (c.step cls (.socket sys)) := by
  rw [step]
  split
  · next hnone =>
    refine Moved.idle ?_ id
    rw [reconnects, hnone]
    split <;> rfl
  · next ev hev =>
    rw [event]
    dsimp only
    obtain ⟨fd, socketEventProxy, timeoutEventProxy, state, handler, sockets⟩ := c
    cases state with
    | waitingForConnect =>
      obtain ⟨hwaits, hopen⟩ := hlive
      obtain ⟨socketEv⟩ := socketEventProxy
      obtain rfl : socketEv = some ⟨fd, .write, true⟩ := hwaits
      obtain rfl : ⟨fd, .write, true⟩ = ev := Option.some.inj hev
      dsimp only
      rw [onWaitingForConnect]
      cases sys.soError with
      | clear => exact Moved.up rfl
      | inProgress => exact Moved.still rfl
      | failed => exact Moved.lost (fun h => by cases h) rfl (Or.inr rfl)
    | connected =>
      obtain ⟨hwaits, hopen⟩ := hlive
      obtain ⟨socketEv⟩ := socketEventProxy
      obtain rfl : socketEv = some ⟨fd, .readPersist, true⟩ := hwaits
      obtain rfl : ⟨fd, .readPersist, true⟩ = ev := Option.some.inj hev
      dsimp only
      rw [onConnected]
      cases sys.recv with
      | closed => exact Moved.lost (fun h => by cases h) rfl (Or.inl ⟨rfl, rfl⟩)
      | failed => exact Moved.lost (fun h => by cases h) rfl (Or.inr rfl)
      | data buf hbuf =>
        cases handler with
        | none => exact Moved.ignored rfl rfl
        | some handler => exact Moved.read rfl hbuf rfl
    | disconnected =>
      have hre : reconnects ⟨fd, socketEventProxy, timeoutEventProxy, .disconnected, handler, sockets⟩
          (.socket sys) = some (ev.fd, sys) := by
        rw [reconnects, if_pos rfl, hev]
        rfl
      exact Moved.reconnect hre ⟨rfl, rfl⟩ rfl

theorem Live.moved_timeout {cls : HandlerClass H O} {c : ZClient H} (hlive : c.Live) (sys : Sys) :
    c.Moved cls (.timeout sys) (c.step cls (.timeout sys)) := by
  rw [step]
  split
  · next hnone =>
    refine Moved.idle ?_ fun htimeout => ?_
    · rw [reconnects, hnone]
      split <;> rfl
    · have hpending := htimeout.2
      rw [TimeoutPending, hnone] at hpending
      cases hpending
  · next ev hev =>
    rw [onTimeoutPrivate]
    dsimp only
    obtain ⟨fd, socketEventProxy, timeoutEventProxy, state, handler, sockets⟩ := c
    cases state with
    | waitingForConnect =>
      have htimeout : ConnectTimesOut
          ⟨fd, socketEventProxy, timeoutEventProxy, .waitingForConnect, handler, sockets⟩
          (.timeout sys) := ⟨rfl, by rw [TimeoutPending, hev]; rfl⟩
      dsimp only
      rw [disconnect_eq]
      refine Moved.timedOut htimeout rfl ?_ ⟨rfl, rfl, rfl⟩
      by_cases hfd : fd ≥ 0
      · exact Or.inr (if_pos hfd)
      · exact Or.inl ⟨if_neg hfd, if_neg hfd⟩
    | connected => exact Moved.ignored rfl rfl
    | disconnected =>
      have hre : reconnects ⟨fd, socketEventProxy, timeoutEventProxy, .disconnected, handler, sockets⟩
          (.timeout sys) = some (fd, sys) := by
        rw [reconnects, if_pos rfl, hev]
        rfl
      exact Moved.reconnect hre ⟨rfl, rfl⟩ rfl

/-- **What an event does** to a client that waits for it. -/
theorem Live.moved (cls : HandlerClass H O) {c : ZClient H} (hlive : c.Live) :
    ∀ e, c.Moved cls e (c.step cls e)
  | .socket sys => hlive.moved_socket sys
  | .timeout sys => hlive.moved_timeout sys

/-- A connected client reads. -/
theorem Live.step_connected {cls : HandlerClass H O} {c : ZClient H} (hlive : c.Live)
    (hstate : c.state = .connected) (sys : Sys) :
    c.step cls (.socket sys) = c.onConnected cls c.fd sys := by
  obtain ⟨fd, ⟨socketEv⟩, timeoutEventProxy, state, handler, sockets⟩ := c
  obtain rfl : state = .connected := hstate
  obtain rfl : socketEv = some ⟨fd, .readPersist, true⟩ := hlive.1
  rfl

/-- What a connect makes of the handler. -/
theorem onDisconnected_handler (cls : HandlerClass H O) (c : ZClient H) (fd : Int) (sys : Sys) :
    (c.onDisconnected cls fd sys).2.1.handler = c.handler ∨
    (c.onDisconnected cls fd sys).2.1.handler =
      c.handler.map fun h => (cls.onConnected (cls.setFd h fd)).1 := by
  rcases c.onDisconnected_cases cls fd sys with ⟨-, hc⟩ | ⟨-, hc⟩ | ⟨-, c', hhandler, -, hc⟩
  · rw [hc, tellHandler_fst]
    exact Or.inr (congrArg (Option.map _) c.disconnect_handler)
  · rw [hc]
    exact Or.inl c.disconnect_handler
  · rw [hc]
    exact Or.inl hhandler

/-- **Every event but the connect timeout leaves the client waiting for another one.** -/
theorem Live.next {cls : HandlerClass H O} {c : ZClient H} (hlive : c.Live) {e : Event}
    (htimeout : ¬ c.ConnectTimesOut e) : (c.next cls e).Live := by
  have hmoved := hlive.moved cls e
  rw [ZClient.next]
  generalize c.step cls e = r at hmoved
  cases hmoved with
  | idle => exact hlive
  | still hstate =>
    rw [Live, hstate] at hlive
    rw [Live, hstate]
    exact hlive
  | up hstate =>
    rw [Live, hstate] at hlive
    rw [tellHandler_fst]
    exact ⟨rfl, hlive.2⟩
  | read hstate =>
    rw [Live, hstate] at hlive
    rw [Live, hstate]
    exact hlive
  | ignored hstate hc =>
    rw [Live, hstate] at hlive
    rw [hc, Live, hstate]
    exact hlive
  | lost => exact scheduleReconnect_live _
  | reconnect => exact onDisconnected_live cls _ _ _
  | timedOut hfired => exact absurd hfired htimeout

theorem ConnectTimesOut.stuck {cls : HandlerClass H O} {c : ZClient H} (hlive : c.Live) {e : Event}
    (htimeout : c.ConnectTimesOut e) : (c.next cls e).Stuck := by
  cases e with
  | socket sys => exact htimeout.elim
  | timeout sys =>
    have hmoved := hlive.moved cls (.timeout sys)
    rw [ZClient.next]
    generalize c.step cls (.timeout sys) = r at hmoved
    cases hmoved with
    | idle _ hnot => exact absurd htimeout hnot
    | ignored hstate => exact nomatch htimeout.1.symm.trans hstate
    | reconnect hre =>
      rw [reconnects, htimeout.1, if_neg nofun] at hre
      cases hre
    | timedOut _ _ _ hstuck => exact hstuck

/-- The client waits for an event, or for nothing ever more. -/
def LiveOrStuck (c : ZClient H) : Prop := c.Live ∨ c.Stuck

theorem LiveOrStuck.next {cls : HandlerClass H O} {c : ZClient H} (h : c.LiveOrStuck) (e : Event) :
    (c.next cls e).LiveOrStuck := by
  rcases h with hlive | hstuck
  · by_cases htimeout : c.ConnectTimesOut e
    · exact Or.inr (htimeout.stuck hlive)
    · exact Or.inl (hlive.next htimeout)
  · rw [ZClient.next, hstuck.step]
    exact Or.inr hstuck

/-- A connected client waits for its socket. -/
theorem LiveOrStuck.live {c : ZClient H} (h : c.LiveOrStuck) (hstate : c.state = .connected) :
    c.Live := by
  rcases h with hlive | hstuck
  · exact hlive
  · exact nomatch hstuck.1.symm.trans hstate

/-! ## Wake-ups -/

/-- A wake-up will come: an event is pending on the client's open socket, or the timeout is. -/
def Awake (c : ZClient H) : Prop := (∃ flags, c.WaitsOn flags) ∨ c.TimeoutPending

theorem Live.awake {c : ZClient H} (hlive : c.Live) : c.Awake := by
  rw [Live] at hlive
  split at hlive
  · exact Or.inl ⟨.write, hlive⟩
  · exact Or.inl ⟨.readPersist, hlive⟩
  · exact Or.inr hlive

theorem Stuck.not_awake {c : ZClient H} (hstuck : c.Stuck) : ¬ c.Awake := by
  rintro (⟨flags, hwaits, -⟩ | htimeout)
  · rw [hstuck.2.1] at hwaits
    cases hwaits
  · rw [TimeoutPending, ZEventProxy.pending, hstuck.2.2] at htimeout
    cases htimeout

/-- `init`, once the client is registered with the dispatcher. -/
theorem init_eq (cls : HandlerClass H O) (c : ZClient H) (sys : Sys) :
    c.init cls true sys =
      match c.onDisconnected cls (-1) sys with
      | (.fail, c, out) => (.fail, c, out)
      | (_, c, out) => (.ok, { c with handler := c.handler.map cls.init }, out) :=
  if_neg (by decide)

/-- What holds after the connect, and is not lost by the handler's own `init`, holds after `init`. -/
theorem init_rule {P : ZClient H → Prop} (cls : HandlerClass H O) (c : ZClient H) (sys : Sys)
    (hconnect : P (c.onDisconnected cls (-1) sys).2.1)
    (hhandler : ∀ c : ZClient H, P c → P { c with handler := c.handler.map cls.init }) :
    P (c.init cls true sys).2.1 := by
  rw [init_eq]
  split
  · next c₁ out₁ hc =>
    rw [hc] at hconnect
    exact hconnect
  · next rv c₁ out₁ hrv hc =>
    rw [hc] at hconnect
    exact hhandler c₁ hconnect

theorem init_live (cls : HandlerClass H O) (c : ZClient H) (sys : Sys) :
    (c.init cls true sys).2.1.Live :=
  init_rule cls c sys (onDisconnected_live cls c (-1) sys) fun _ hlive => hlive

/-- **The client is awake all through exactly if no connect runs into its timeout.** -/
theorem awake_iff {cls : HandlerClass H O} {junk : ClientState} {handler : Option H}
    {registered : Bool} {sys : Sys} {c : ZClient H} {out : List O}
    (hinit : (new junk handler).init cls registered sys = (.ok, c, out)) (es : List Event) :
    (c.Awake ∧ ∀ v ∈ Runs.visits (next cls) c es, (v.1.next cls v.2).Awake) ↔
      ∀ v ∈ Runs.visits (next cls) c es, ¬ v.1.ConnectTimesOut v.2 := by
  have hlive : c.Live := by
    cases registered with
    | false => cases hinit
    | true =>
      have hlive := init_live cls (new junk handler) sys
      rw [hinit] at hlive
      exact hlive
  rw [and_iff_right hlive.awake]
  refine @Runs.forall_visits_iff _ _ (next cls) Live (fun _ _ => True)
    (fun c e => (c.next cls e).Awake) (fun c e => ¬ c.ConnectTimesOut e) ?_ ?_ c hlive es
    fun _ _ => trivial
  · intro c e hlive _
    exact ⟨fun hawake htimeout => (htimeout.stuck hlive).not_awake hawake,
      fun htimeout => (hlive.next htimeout).awake⟩
  · exact fun c e hlive _ htimeout => hlive.next htimeout

/-- A connect that goes on. -/
def sampleSys : Sys := ⟨5, true, .inProgress, .clear, .closed⟩

/-- A handler that does nothing. -/
def idleClass : HandlerClass Int Unit where
  fd h := h
  setFd _ n := n
  init h := h
  onConnected h := (h, [])
  onRead h _ := (h, [])
  fd_setFd _ _ := rfl
  fd_init _ := rfl
  fd_onConnected _ := rfl
  fd_onRead _ _ := rfl

/-- The client is connected, and the server closes the connection. -/
theorem awake_iff_closed :
    let c := ((new .connected (some (-1))).init idleClass true sampleSys).2.1
    let es := [Event.socket sampleSys, Event.socket sampleSys]
    (c.Awake ∧ ∀ v ∈ Runs.visits (next idleClass) c es, (v.1.next idleClass v.2).Awake) ↔
      ∀ v ∈ Runs.visits (next idleClass) c es, ¬ v.1.ConnectTimesOut v.2 := by
  intro c es
  have hinit : (new .connected (some (-1))).init idleClass true sampleSys = (.ok, c, []) := rfl
  exact awake_iff hinit es

/-- The connect timeout fires, and the client waits for nothing. -/
theorem awake_fails :
    ¬ ∀ (sys : Sys) (c : ZClient Int) (out : List Unit),
      (new .connected (some (-1))).init idleClass true sys = (.ok, c, out) →
      ∀ es, c.Awake ∧ ∀ v ∈ Runs.visits (next idleClass) c es, (v.1.next idleClass v.2).Awake := by
  intro h
  have hawake := (h sampleSys _ [] rfl [.timeout sampleSys]).2 _ List.mem_cons_self
  exact Stuck.not_awake ⟨rfl, rfl, rfl⟩ hawake

/-! ## The handler's descriptor -/

/-- The handler writes to the client's own open socket. -/
def HandlerLive (cls : HandlerClass H O) (c : ZClient H) : Prop :=
  c.state = .connected → ∀ h ∈ c.handler, cls.fd h = c.fd ∧ (c.sockets.opened c.fd).isSome

/-- The connect is done at once, and gets another descriptor than the handler is told. -/
def Astray (c : ZClient H) (fd : Int) (sys : Sys) : Prop :=
  c.AtOnce sys ∧ c.handler.isSome ∧ sys.socket ≠ fd

/-- An event that makes a connect go astray. -/
def GoesAstray (c : ZClient H) (e : Event) : Prop :=
  ∃ fd sys, c.reconnects e = some (fd, sys) ∧ c.Astray fd sys

theorem astray_congr {c c' : ZClient H} (hc : c'.fd = c.fd ∧ c'.sockets = c.sockets)
    (hhandler : c'.handler = c.handler) (fd : Int) (sys : Sys) :
    c'.Astray fd sys ↔ c.Astray fd sys := by
  rw [Astray, Astray, AtOnce, AtOnce, Opens, Opens, disconnect_sockets, disconnect_sockets, hc.1, hc.2,
    hhandler]

/-- **A reconnect gives the handler the client's own socket, unless it goes astray.** -/
theorem onDisconnected_handlerLive_iff (cls : HandlerClass H O) (c : ZClient H) (fd : Int)
    (sys : Sys) : (c.onDisconnected cls fd sys).2.1.HandlerLive cls ↔ ¬ c.Astray fd sys := by
  rcases c.onDisconnected_cases cls fd sys with
    ⟨honce, hc⟩ | ⟨⟨-, honce⟩, hc⟩ | ⟨honce, c', -, -, hc⟩
  · rw [hc, tellHandler_fst]
    have hhandler : (c.connectedOver sys).handler = c.handler := disconnect_handler c
    constructor
    · rintro hlive ⟨-, hsome, hne⟩
      obtain ⟨h, hh⟩ := Option.isSome_iff_exists.mp hsome
      have hfd := (hlive rfl _ (by rw [Option.mem_def, hhandler, hh]; rfl)).1
      rw [cls.fd_onConnected, cls.fd_setFd] at hfd
      exact hne hfd.symm
    · intro hastray _ h' hh'
      obtain ⟨h, hh, rfl⟩ := Option.map_eq_some_iff.mp hh'
      refine ⟨?_, c.withSocket_open sys⟩
      rw [cls.fd_onConnected, cls.fd_setFd]
      by_contra hne
      rw [hhandler] at hh
      exact hastray ⟨honce, by rw [hh]; rfl, Ne.symm hne⟩
  · rw [hc]
    exact iff_of_true nofun fun hastray => honce hastray.1
  · rw [hc]
    exact iff_of_true nofun fun hastray => honce hastray.1

theorem not_goesAstray {c : ZClient H} {e : Event} (hre : c.reconnects e = none) : ¬ c.GoesAstray e := by
  rintro ⟨fd, sys, hsome, -⟩
  rw [hre] at hsome
  cases hsome

theorem not_goesAstray_of_ne {c : ZClient H} (hstate : c.state ≠ .disconnected) (e : Event) :
    ¬ c.GoesAstray e := by
  cases e with
  | socket sys => exact not_goesAstray (if_neg hstate)
  | timeout sys => exact not_goesAstray (if_neg hstate)

/-- One event, of a client that waits for it. -/
theorem Live.handlerLive_next_iff {cls : HandlerClass H O} {c : ZClient H} (hlive : c.Live)
    (hh : c.HandlerLive cls) (e : Event) : (c.next cls e).HandlerLive cls ↔ ¬ c.GoesAstray e := by
  have hmoved := hlive.moved cls e
  rw [ZClient.next]
  generalize c.step cls e = r at hmoved
  cases hmoved with
  | idle hre => exact iff_of_true hh (not_goesAstray hre)
  | still hstate =>
    refine iff_of_true (fun hconn => ?_) (not_goesAstray_of_ne (by rw [hstate]; decide) _)
    exact nomatch hstate.symm.trans hconn
  | up hstate =>
    rw [Live, hstate] at hlive
    refine iff_of_true ?_ (not_goesAstray_of_ne (by rw [hstate]; decide) _)
    rw [tellHandler_fst]
    intro _ h' hh'
    obtain ⟨h, -, rfl⟩ := Option.map_eq_some_iff.mp hh'
    exact ⟨by rw [cls.fd_onConnected, cls.fd_setFd], hlive.2⟩
  | read hstate hbuf hhandler =>
    refine iff_of_true ?_ (not_goesAstray_of_ne (by rw [hstate]; decide) _)
    intro hconn h' hh'
    obtain rfl := Option.some.inj hh'
    rw [cls.fd_onRead]
    exact hh hconn _ hhandler
  | ignored hstate hc =>
    refine iff_of_true ?_ (not_goesAstray_of_ne (by rw [hstate]; decide) _)
    rw [hc]
    exact hh
  | lost hstate => exact iff_of_true nofun (not_goesAstray_of_ne hstate _)
  | reconnect hre hc hhandler =>
    rw [onDisconnected_handlerLive_iff, astray_congr hc hhandler]
    refine not_congr ⟨fun hastray => ⟨_, _, hre, hastray⟩, ?_⟩
    rintro ⟨fd, sys, hre', hastray⟩
    obtain ⟨rfl, rfl⟩ := Prod.mk.inj (Option.some.inj (hre.symm.trans hre'))
    exact hastray
  | timedOut htimeout _ _ hstuck =>
    refine iff_of_true (fun hconn => ?_) (not_goesAstray_of_ne (by rw [htimeout.1]; decide) _)
    exact nomatch hstuck.1.symm.trans hconn

theorem LiveOrStuck.handlerLive_next_iff {cls : HandlerClass H O} {c : ZClient H} (h : c.LiveOrStuck)
    (hh : c.HandlerLive cls) (e : Event) : (c.next cls e).HandlerLive cls ↔ ¬ c.GoesAstray e := by
  rcases h with hlive | hstuck
  · exact hlive.handlerLive_next_iff hh e
  · refine iff_of_true ?_ (not_goesAstray_of_ne (by rw [hstuck.1]; decide) e)
    rw [ZClient.next, hstuck.step]
    exact hh

/-- The handler's `init` does not touch its descriptor. -/
theorem handlerLive_init_iff (cls : HandlerClass H O) (c : ZClient H) :
    HandlerLive cls { c with handler := c.handler.map cls.init } ↔ c.HandlerLive cls := by
  constructor
  · intro hh hconn h hmem
    rw [← cls.fd_init]
    exact hh hconn _ (by rw [Option.mem_def, hmem]; rfl)
  · intro hh hconn h' hmem'
    obtain ⟨h, hmem, rfl⟩ := Option.map_eq_some_iff.mp hmem'
    rw [cls.fd_init]
    exact hh hconn h hmem

/-- `init` gives the handler the client's own socket, unless its connect goes astray. -/
theorem init_handlerLive_iff (cls : HandlerClass H O) (c : ZClient H) (sys : Sys) :
    (c.init cls true sys).2.1.HandlerLive cls ↔ ¬ c.Astray (-1) sys := by
  refine init_rule (P := fun c' => c'.HandlerLive cls ↔ ¬ c.Astray (-1) sys) cls c sys
    (onDisconnected_handlerLive_iff cls c (-1) sys) fun c' hiff => ?_
  exact (handlerLive_init_iff cls c').trans hiff

/-- **The handler writes to the client's own socket all through, exactly if no connect that is done
    at once gets another descriptor than `onDisconnected` was called with.**  `init` calls it with
    -1. -/
theorem handlerLive_iff (cls : HandlerClass H O) (junk : ClientState) (handler : Option H) (sys : Sys)
    (es : List Event) :
    let c := ((new junk handler).init cls true sys).2.1
    (c.HandlerLive cls ∧ ∀ v ∈ Runs.visits (next cls) c es, (v.1.next cls v.2).HandlerLive cls) ↔
      ¬ (new junk handler).Astray (-1) sys ∧
        ∀ v ∈ Runs.visits (next cls) c es, ¬ v.1.GoesAstray v.2 := by
  intro c
  have hstart : c.HandlerLive cls ↔ ¬ (new junk handler).Astray (-1) sys :=
    init_handlerLive_iff cls (new junk handler) sys
  rw [hstart]
  refine and_congr_right fun hastray => ?_
  refine @Runs.forall_visits_iff _ _ (next cls) (fun c => c.LiveOrStuck ∧ c.HandlerLive cls)
    (fun _ _ => True) (fun c e => (c.next cls e).HandlerLive cls) (fun c e => ¬ c.GoesAstray e) ?_ ?_ c
    ⟨Or.inl (init_live cls (new junk handler) sys), hstart.mpr hastray⟩ es fun _ _ => trivial
  · rintro c e ⟨h, hh⟩ -
    exact h.handlerLive_next_iff hh e
  · rintro c e ⟨h, hh⟩ - hgoes
    exact ⟨h.next e, (h.handlerLive_next_iff hh e).mpr hgoes⟩

/-- The first connect is done at once, and the handler writes to -1. -/
theorem handlerLive_fails :
    ¬ ∀ (sys : Sys) (es : List Event),
      let c := ((new .disconnected (some (-1))).init idleClass true sys).2.1
      c.HandlerLive idleClass ∧
        ∀ v ∈ Runs.visits (next idleClass) c es, (v.1.next idleClass v.2).HandlerLive idleClass := by
  intro h
  have hlive := (h { sampleSys with connect := .connected } []).1
  have hfd : (-1 : Int) = 5 := (hlive rfl (-1) rfl).1
  exact absurd hfd (by decide)

/-! ## The client's sockets -/

/-- The client has no open socket but the one of its `fd_`. -/
def OwnSocket (c : ZClient H) : Prop :=
  ∀ n k, c.sockets.opened n = some k → n = c.fd ∧ 0 ≤ n ∧ k < c.sockets.made

theorem opened_close {s : Sockets} {fd n : Int} {k : Nat} (h : (s.close fd).opened n = some k) :
    n ≠ fd ∧ s.opened n = some k := by
  rw [Sockets.close] at h
  dsimp only at h
  rw [Function.update_apply] at h
  split at h
  · cases h
  · next hne => exact ⟨hne, h⟩

/-- Without it, none is open. -/
theorem OwnSocket.closed {c : ZClient H} (hown : c.OwnSocket) (n : Int) :
    (c.sockets.close c.fd).opened n = none := by
  by_contra hsome
  obtain ⟨k, hk⟩ := Option.ne_none_iff_exists'.mp hsome
  obtain ⟨hne, hk⟩ := opened_close hk
  exact hne (hown n k hk).1

theorem OwnSocket.kept {c c' : ZClient H} (hown : c.OwnSocket)
    (hsockets : (c'.fd = c.fd ∧ c'.sockets = c.sockets) ∨ c'.sockets = c.sockets.close c.fd) :
    c'.OwnSocket ∧ c.sockets.made ≤ c'.sockets.made ∧
      ∀ k, c'.sockets.opened c'.fd = some k → c.sockets.opened c.fd = some k := by
  rcases hsockets with ⟨hfd, hsock⟩ | hsock
  · rw [OwnSocket, hfd, hsock]
    exact ⟨hown, Nat.le_refl _, fun k hk => hk⟩
  · have hno : ∀ n k, c'.sockets.opened n ≠ some k := by
      intro n k hk
      rw [hsock, hown.closed] at hk
      cases hk
    refine ⟨fun n k hk => absurd hk (hno n k), ?_, fun k hk => absurd hk (hno _ k)⟩
    rw [hsock]
    exact Nat.le_refl _

theorem OwnSocket.disconnected {c : ZClient H} (hown : c.OwnSocket) (n : Int) :
    c.disconnect.sockets.opened n = none := by
  rw [disconnect_sockets]
  split
  · exact hown.closed n
  · next hneg =>
    by_contra hsome
    obtain ⟨k, hk⟩ := Option.ne_none_iff_exists'.mp hsome
    obtain ⟨rfl, hpos, -⟩ := hown n k hk
    exact hneg hpos

theorem made_disconnect (c : ZClient H) : c.disconnect.sockets.made = c.sockets.made := by
  rw [disconnect_sockets]
  split <;> rfl

theorem OwnSocket.withSocket {c : ZClient H} (hown : c.OwnSocket) {sys : Sys} {n : Int} {k : Nat}
    (hk : (c.withSocket sys).sockets.opened n = some k) : n = sys.socket ∧ k = c.sockets.made := by
  change Function.update c.disconnect.sockets.opened sys.socket
    (some c.disconnect.sockets.made) n = some k at hk
  rw [Function.update_apply, made_disconnect, hown.disconnected] at hk
  split at hk
  · next hn => exact ⟨hn, (Option.some.inj hk).symm⟩
  · cases hk

theorem OwnSocket.connected {c c' : ZClient H} (hown : c.OwnSocket) {sys : Sys}
    (hpos : 0 ≤ sys.socket) (hfd : c'.fd = sys.socket)
    (hsock : c'.sockets = (c.withSocket sys).sockets) :
    c'.OwnSocket ∧ c.sockets.made ≤ c'.sockets.made ∧
      ∀ n k, c'.sockets.opened n = some k → c.sockets.made ≤ k := by
  have hmade : (c.withSocket sys).sockets.made = c.sockets.made + 1 :=
    congrArg (· + 1) c.made_disconnect
  rw [OwnSocket, hfd, hsock, hmade]
  refine ⟨fun n k hk => ?_, Nat.le_succ _, fun n k hk => ?_⟩
  · obtain ⟨rfl, rfl⟩ := hown.withSocket hk
    exact ⟨rfl, hpos, Nat.lt_succ_self _⟩
  · obtain ⟨-, rfl⟩ := hown.withSocket hk
    exact Nat.le_refl _

/-- **After a connect only a new socket is open**, and it is the client's. -/
theorem OwnSocket.onDisconnected (cls : HandlerClass H O) {c : ZClient H} (hown : c.OwnSocket)
    (fd : Int) (sys : Sys) :
    (c.onDisconnected cls fd sys).2.1.OwnSocket ∧
      c.sockets.made ≤ (c.onDisconnected cls fd sys).2.1.sockets.made ∧
      ∀ n k, (c.onDisconnected cls fd sys).2.1.sockets.opened n = some k → c.sockets.made ≤ k := by
  rcases c.onDisconnected_cases cls fd sys with
    ⟨honce, hc⟩ | ⟨⟨hopens, -⟩, hc⟩ | ⟨-, c', -, hsock, hc⟩
  · rw [hc, tellHandler_fst]
    exact hown.connected honce.1.1 rfl rfl
  · rw [hc]
    exact hown.connected hopens.1 rfl rfl
  · rw [hc]
    have hnone : ∀ n, c'.sockets.opened n = none := by
      intro n
      rcases hsock with hsock | hsock
      · rw [hsock, hown.disconnected]
      · rw [hsock]
        by_contra hsome
        obtain ⟨k, hk⟩ := Option.ne_none_iff_exists'.mp hsome
        obtain ⟨hne, hk⟩ := opened_close hk
        exact hne (hown.withSocket hk).1
    have hmade : c.sockets.made ≤ c'.sockets.made := by
      rcases hsock with hsock | hsock
      · exact Nat.le_of_eq (by rw [hsock, made_disconnect])
      · rw [hsock]
        show c.sockets.made ≤ c.disconnect.sockets.made + 1
        rw [made_disconnect]
        exact Nat.le_succ _
    have hno : ∀ n k, c'.scheduleReconnect.sockets.opened n ≠ some k := by
      intro n k hk
      change c'.sockets.opened n = some k at hk
      rw [hnone] at hk
      cases hk
    exact ⟨fun n k hk => absurd hk (hno n k), hmade, fun n k hk => absurd hk (hno n k)⟩

end ZClient

end Monsys
