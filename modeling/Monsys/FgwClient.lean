/-
  `FGWClient` of `server/fgw_client.{h,cc}`: the client that keeps the gateway connected to the
  server, with its handler.

  1. **The client** — `FGWClient`, a `ZClient` whose handler is an `FGWClientHandler`.
  2. **One event** — `FGWClient.step`: the client's own events, and what reaches the handler from the
     inside, from the main loop and from its timers.
  3. **Logging in** — `retrying_iff`: while the server is connected and the gateway not logged in, a
     login timer runs; this holds all through exactly if `init` does not find the connect done at
     once.
-/
import Monsys.FgwClientHandler
import Monsys.ZClientRuns

namespace Monsys

open Push

namespace FGWClientHandler

/-! ## The client -/

variable {pb : Protobuf}

theorem fgwLogin_fd (pb : Protobuf) (h : FGWClientHandler) : (fgwLogin pb h).1.fd = h.fd := by
  rw [fgwLogin]
  split <;> rfl

theorem processLoginRsp_fd (h : FGWClientHandler) (msg : PushMsg) : (h.processLoginRsp msg).fd = h.fd := by
  rw [processLoginRsp]
  split
  · rfl
  · split <;> rfl

theorem onRead_fd (pb : Protobuf) (h : FGWClientHandler) (buf : List UInt8) :
    (h.onRead pb buf).1.fd = h.fd := by
  rw [onRead]
  split
  · rfl
  · rw [onReadWaitForServer]
    split
    · rfl
    · split
      · rfl
      · exact h.processLoginRsp_fd _
  · exact (h.onReadRegistered_frame pb buf).1

/-- The handler, as the client calls it. -/
def handlerClass (pb : Protobuf) : HandlerClass FGWClientHandler Output where
  fd := FGWClientHandler.fd
  setFd h fd := { h with fd }
  init := FGWClientHandler.init
  onConnected := FGWClientHandler.onConnected pb
  onRead := FGWClientHandler.onRead pb
  fd_setFd _ _ := rfl
  fd_init _ := rfl
  fd_onConnected h := fgwLogin_fd pb { h with state := .unregistered }
  fd_onRead := onRead_fd pb

end FGWClientHandler

/-- `FGWClient`. -/
abbrev FGWClient := ZClient FGWClientHandler

namespace FGWClient

/-- The constructor. -/
def new (junk : ClientState) : FGWClient := ZClient.new junk (some .new)

/-- `init`, registered with the dispatcher. -/
def init (pb : Protobuf) (junk : ClientState) (sys : Sys) : FGWClient :=
  (ZClient.init (FGWClientHandler.handlerClass pb) (new junk) true sys).2.1

/-! ## One event -/

/-- What can happen: an event of the client; and a message from inside, a tick of the main loop and a
    timer, which go to the handler. -/
inductive Event
  | client (e : ZClient.Event)
  | inner (msg : ZInnerMsg)
  | routine (delta : Int)
  | timer (id : Fin maxTimerCount)

/-- The handler is called. -/
def callHandler (c : FGWClient) (f : FGWClientHandler → FGWClientHandler × List Output) :
    FGWClient × List Output :=
  match c.handler with
  | none => (c, [])
  | some h => ({ c with handler := some (f h).1 }, (f h).2)

def step (pb : Protobuf) (c : FGWClient) : Event → FGWClient × List Output
  | .client e => ZClient.step (FGWClientHandler.handlerClass pb) c e
  | .inner msg => c.callHandler fun h => h.onInnerMsg pb msg
  | .routine delta => c.callHandler fun h => (h.routine delta, [])
  | .timer id => c.callHandler fun h => h.timerCallback pb id

/-- The client after an event. -/
def next (pb : Protobuf) (c : FGWClient) (e : Event) : FGWClient := (c.step pb e).1

end FGWClient

/-! ## Logging in -/

namespace ZTimer

/-- How many timers are pending. -/
def pendingTimers (t : ZTimer) : Nat := (List.finRange maxTimerCount).countP fun i => (t.evList i).isSome

/-- The id is that of a timer that is pending. -/
def IsLive (t : ZTimer) (id : Int) : Prop := ∃ i : Fin maxTimerCount, (i : Int) = id ∧ (t.evList i).isSome

/-- While fewer than sixteen are pending, a timer gets a slot that was free. -/
theorem setTimer_of_lt {t : ZTimer} (hlt : t.pendingTimers < maxTimerCount) (interval : Int)
    (isRepeat : Bool) :
    ∃ i : Fin maxTimerCount, t.evList i = none ∧ t.setTimer interval isRepeat =
      ((i : Int), ⟨Function.update t.evList i (some ⟨interval, isRepeat⟩)⟩) := by
  have hfree : t.getAvailableIndex.isSome := by
    rw [getAvailableIndex, List.find?_isSome]
    by_contra hnone
    have hall : t.pendingTimers = (List.finRange maxTimerCount).length := by
      refine List.countP_eq_length.mpr fun i hi => ?_
      by_contra hi'
      exact hnone ⟨i, hi, by rw [Option.isNone_iff_eq_none, ← Option.not_isSome_iff_eq_none]; exact hi'⟩
    rw [List.length_finRange] at hall
    omega
  obtain ⟨i, hi⟩ := Option.isSome_iff_exists.mp hfree
  have hnone : (t.evList i).isNone := by
    rw [getAvailableIndex] at hi
    exact List.find?_some (p := fun i => (t.evList i).isNone) hi
  exact ⟨i, Option.isNone_iff_eq_none.mp hnone, by rw [setTimer, hi]⟩

/-- Another timer than the one that is cancelled stays. -/
theorem IsLive.cancelTimer {t : ZTimer} {id id' : Int} (hlive : t.IsLive id) (hne : id ≠ id') :
    (t.cancelTimer id').IsLive id := by
  obtain ⟨i, rfl, hi⟩ := hlive
  refine ⟨i, rfl, ?_⟩
  show Option.isSome (if (i : Int) = id' then none else t.evList i) = true
  rw [if_neg hne]
  exact hi

end ZTimer

namespace FGWClientHandler

variable {pb : Protobuf}

/-- The handler is logged in, or waits for the server with a login timer running. -/
def Trying (h : FGWClientHandler) : Prop :=
  h.state = .registered ∨ h.state = .waitForServer ∧ h.timer.IsLive h.loginTimerId

/-- A login attempt starts a timer in a slot that was free. -/
theorem fgwLogin_eq (hlogin : (protobufEncode pb loginMsg 2048).isSome) {h : FGWClientHandler}
    (hlt : h.timer.pendingTimers < maxTimerCount) :
    ∃ i : Fin maxTimerCount, h.timer.evList i = none ∧ (fgwLogin pb h).1.state = .waitForServer ∧
      (fgwLogin pb h).1.loginTimerId = i ∧ (fgwLogin pb h).1.timer.IsLive i := by
  obtain ⟨bytes, hbytes⟩ := Option.isSome_iff_exists.mp hlogin
  obtain ⟨i, hnone, hset⟩ := ZTimer.setTimer_of_lt hlt (10 * 1000) false
  rw [fgwLogin, hbytes]
  dsimp only
  rw [hset]
  refine ⟨i, hnone, rfl, rfl, i, rfl, ?_⟩
  show Option.isSome (Function.update h.timer.evList i (some (TimerData.mk (10 * 1000) false)) i) = true
  rw [Function.update_self]
  rfl

theorem fgwLogin_trying (hlogin : (protobufEncode pb loginMsg 2048).isSome) {h : FGWClientHandler}
    (hlt : h.timer.pendingTimers < maxTimerCount) : (fgwLogin pb h).1.Trying := by
  obtain ⟨i, -, hstate, hid, hlive⟩ := fgwLogin_eq hlogin hlt
  exact Or.inr ⟨hstate, hid ▸ hlive⟩

/-- A timer that fires takes its slot along; if it is the login timer, another one has been started
    before. -/
theorem Trying.timerCallback (hlogin : (protobufEncode pb loginMsg 2048).isSome)
    {h : FGWClientHandler} (hlt : h.timer.pendingTimers < maxTimerCount) (htry : h.Trying)
    (id : Fin maxTimerCount) : (h.timerCallback pb id).1.Trying := by
  rw [FGWClientHandler.timerCallback]
  split
  · exact htry
  · next data hdata =>
    rw [onTimeout]
    rcases htry with hreg | ⟨hwait, hlive⟩
    · have hwait : ¬ h.state = .waitForServer := by
        rw [hreg]
        decide
      rw [if_neg hwait, ite_self]
      dsimp only
      split
      · exact Or.inl hreg
      · exact Or.inl hreg
    · by_cases hid : (id : Int) = h.loginTimerId
      · rw [if_pos hid, if_pos hwait]
        obtain ⟨i, hnone, hstate, hid', hlive'⟩ :=
          fgwLogin_eq (h := { h with state := .unregistered }) hlogin hlt
        have hne : (i : Int) ≠ id := by
          intro heq
          obtain rfl : i = id := Fin.ext (Int.ofNat.inj heq)
          rw [hnone] at hdata
          cases hdata
        dsimp only
        split
        · exact Or.inr ⟨hstate, hid' ▸ hlive'⟩
        · exact Or.inr ⟨hstate, hid' ▸ hlive'.cancelTimer hne⟩
      · rw [if_neg hid]
        dsimp only
        split
        · exact Or.inr ⟨hwait, hlive⟩
        · exact Or.inr ⟨hwait, hlive.cancelTimer (Ne.symm hid)⟩

theorem Trying.onRead {h : FGWClientHandler} (htry : h.Trying) (buf : List UInt8) :
    (h.onRead pb buf).1.Trying := by
  rw [FGWClientHandler.onRead]
  split
  · exact htry
  · rw [onReadWaitForServer]
    split
    · exact htry
    · split
      · exact htry
      · rw [processLoginRsp]
        split
        · exact htry
        · split
          · exact htry
          · exact Or.inl rfl
  · next hreg => exact Or.inl ((h.onReadRegistered_frame pb buf).2.trans hreg)

theorem Trying.onInnerMsg {h : FGWClientHandler} (htry : h.Trying) (msg : ZInnerMsg) :
    (h.onInnerMsg pb msg).1.Trying := by
  rw [FGWClientHandler.onInnerMsg]
  split
  · exact htry
  · exact htry

end FGWClientHandler

namespace FGWClient

variable {pb : Protobuf} {c : FGWClient}

/-- Fewer than sixteen timers are pending. -/
def TimersFree (c : FGWClient) : Prop := ∀ h ∈ c.handler, h.timer.pendingTimers < maxTimerCount

instance (c : FGWClient) : Decidable c.TimersFree :=
  inferInstanceAs (Decidable (∀ h ∈ c.handler, h.timer.pendingTimers < maxTimerCount))

/-- While the server is connected and the gateway not logged in, it waits for the answer, and a login
    timer is running. -/
def Retrying (c : FGWClient) : Prop :=
  c.state = .connected → ∀ h ∈ c.handler, h.state ≠ .registered →
    h.state = .waitForServer ∧ h.timer.IsLive h.loginTimerId

theorem retrying_iff_trying : c.Retrying ↔ (c.state = .connected → ∀ h ∈ c.handler, h.Trying) := by
  refine forall_congr' fun _ => forall_congr' fun h => forall_congr' fun _ => ?_
  exact or_iff_not_imp_left.symm

/-- A call changes the handler and nothing else. -/
theorem callHandler_fst (c : FGWClient) (f : FGWClientHandler → FGWClientHandler × List Output) :
    (c.callHandler f).1 = { c with handler := c.handler.map fun h => (f h).1 } := by
  obtain ⟨fd, socketEventProxy, timeoutEventProxy, state, handler, sockets⟩ := c
  cases handler with
  | none => rfl
  | some h => rfl

/-- A call of the handler that keeps it trying. -/
theorem Retrying.callHandler (hretry : c.Retrying)
    {f : FGWClientHandler → FGWClientHandler × List Output}
    (hf : ∀ h ∈ c.handler, h.Trying → (f h).1.Trying) : (c.callHandler f).1.Retrying := by
  rw [retrying_iff_trying] at hretry ⊢
  rw [callHandler_fst]
  intro hconn h' hh'
  obtain ⟨h, hh, rfl⟩ := Option.map_eq_some_iff.mp hh'
  exact hf h hh (hretry hconn h hh)

theorem retrying_of_ne (hstate : c.state ≠ .connected) : c.Retrying := fun hconn => absurd hconn hstate

/-- **A connection that comes up makes the handler log in.** -/
theorem tellHandler_retrying (hlogin : (protobufEncode pb FGWClientHandler.loginMsg 2048).isSome)
    (hfree : c.TimersFree) (fd : Int) :
    Retrying (ZClient.tellHandler (FGWClientHandler.handlerClass pb) c fd).1 := by
  rw [retrying_iff_trying, ZClient.tellHandler_fst]
  intro _ h' hh'
  obtain ⟨h, hh, rfl⟩ := Option.map_eq_some_iff.mp hh'
  exact FGWClientHandler.fgwLogin_trying hlogin (hfree h hh)

theorem onDisconnected_retrying (hlogin : (protobufEncode pb FGWClientHandler.loginMsg 2048).isSome)
    (hfree : c.TimersFree) (fd : Int) (sys : Sys) :
    Retrying (ZClient.onDisconnected (FGWClientHandler.handlerClass pb) c fd sys).2.1 := by
  rcases ZClient.onDisconnected_cases (FGWClientHandler.handlerClass pb) c fd sys with
    ⟨-, hc⟩ | ⟨-, hc⟩ | ⟨-, c', -, -, hc⟩
  · rw [hc]
    refine tellHandler_retrying hlogin ?_ fd
    intro h hh
    exact hfree h ((ZClient.disconnect_handler c).symm ▸ hh)
  · rw [hc]
    exact retrying_of_ne nofun
  · rw [hc]
    exact retrying_of_ne nofun

/-- **One event keeps the gateway retrying.** -/
theorem Retrying.next (hlogin : (protobufEncode pb FGWClientHandler.loginMsg 2048).isSome)
    (hlive : ZClient.LiveOrStuck c) (hfree : c.TimersFree) (hretry : c.Retrying) (e : Event) :
    (c.next pb e).Retrying := by
  cases e with
  | inner msg => exact hretry.callHandler fun h _ htry => htry.onInnerMsg msg
  | routine delta => exact hretry.callHandler fun h _ htry => htry
  | timer id => exact hretry.callHandler fun h hh htry => htry.timerCallback hlogin (hfree h hh) id
  | client e =>
    rcases hlive with hlive | hstuck
    · have hmoved := hlive.moved (FGWClientHandler.handlerClass pb) e
      rw [FGWClient.next, step]
      generalize ZClient.step (FGWClientHandler.handlerClass pb) c e = r at hmoved
      cases hmoved with
      | idle => exact hretry
      | still hstate => exact retrying_of_ne fun hconn => nomatch hstate.symm.trans hconn
      | up hstate =>
        refine tellHandler_retrying hlogin ?_ _
        exact hfree
      | read hstate hbuf hhandler =>
        rw [retrying_iff_trying] at hretry ⊢
        intro hconn h' hh'
        obtain rfl := Option.some.inj hh'
        exact (hretry hstate _ hhandler).onRead _
      | ignored hstate hc =>
        rw [hc]
        exact hretry
      | lost => exact retrying_of_ne nofun
      | reconnect hre hc hhandler =>
        refine onDisconnected_retrying hlogin ?_ _ _
        intro h hh
        exact hfree h (hhandler ▸ hh)
      | timedOut _ _ _ hstuck => exact retrying_of_ne fun hconn => nomatch hstuck.1.symm.trans hconn
    · rw [FGWClient.next, step, hstuck.step]
      exact hretry

theorem callHandler_liveOrStuck (hlive : ZClient.LiveOrStuck c)
    (f : FGWClientHandler → FGWClientHandler × List Output) :
    ZClient.LiveOrStuck (c.callHandler f).1 := by
  rw [callHandler_fst]
  exact hlive

theorem next_liveOrStuck (pb : Protobuf) (hlive : ZClient.LiveOrStuck c) (e : Event) :
    ZClient.LiveOrStuck (c.next pb e) := by
  cases e with
  | client e => exact hlive.next e
  | inner msg => exact callHandler_liveOrStuck hlive _
  | routine delta => exact callHandler_liveOrStuck hlive _
  | timer id => exact callHandler_liveOrStuck hlive _

/-- What `init` leaves is retrying, unless the connect was done at once: then the handler's own `init`
    takes back that it waits for the server. -/
theorem init_retrying_iff (junk : ClientState) (sys : Sys) :
    (init pb junk sys).Retrying ↔ ¬ ZClient.AtOnce (new junk) sys := by
  rcases ZClient.onDisconnected_cases (FGWClientHandler.handlerClass pb) (new junk) (-1) sys with
    ⟨honce, hc⟩ | ⟨⟨-, honce⟩, hc⟩ | ⟨honce, c', -, -, hc⟩
  · have hhandler : (ZClient.connectedOver (new junk) sys).handler = some .new :=
      ZClient.disconnect_handler (new junk)
    rw [init, ZClient.init_eq, hc]
    dsimp only
    rw [ZClient.tellHandler_fst]
    rw [hhandler]
    refine iff_of_false (fun hretry => ?_) (not_not.mpr honce)
    obtain ⟨hwait, -⟩ := hretry rfl _ rfl nofun
    exact nomatch hwait
  · rw [init, ZClient.init_eq, hc]
    exact iff_of_true (retrying_of_ne nofun) honce
  · rw [init, ZClient.init_eq, hc]
    exact iff_of_true (retrying_of_ne nofun) honce

/-- **The gateway is retrying all through, exactly if `init` does not find the connect done at
    once.** -/
theorem retrying_iff (hlogin : (protobufEncode pb FGWClientHandler.loginMsg 2048).isSome)
    (junk : ClientState) (sys : Sys) (es : List Event)
    (hfree : ∀ v ∈ Runs.visits (next pb) (init pb junk sys) es, v.1.TimersFree) :
    ((init pb junk sys).Retrying ∧
        ∀ v ∈ Runs.visits (next pb) (init pb junk sys) es, (v.1.next pb v.2).Retrying) ↔
      ¬ ZClient.AtOnce (new junk) sys := by
  rw [← init_retrying_iff]
  refine and_iff_left_of_imp fun hretry v hv => ?_
  have hlive : ZClient.LiveOrStuck (init pb junk sys) :=
    Or.inl (ZClient.init_live (FGWClientHandler.handlerClass pb) (new junk) sys)
  have hinv := Runs.visits_inv_of (fun c : FGWClient => ZClient.LiveOrStuck c ∧ c.Retrying)
    (fun c _ => c.TimersFree)
    (fun c e h hfree => ⟨next_liveOrStuck pb h.1 e, h.2.next hlogin h.1 hfree e⟩) ⟨hlive, hretry⟩ es hfree
  exact (hinv v hv).2.next hlogin (hinv v hv).1 (hfree v hv) v.2

/-- A login that runs into its timer, one that the server confirms, and a connection that is lost. -/
theorem retrying_iff_lost :
    let es : List Event :=
      [.client (.socket ZClient.sampleSys), .timer ⟨0, by decide⟩,
        .client (.socket { ZClient.sampleSys with recv := .data (0x0A :: loginRspBytes) (by decide) }),
        .client (.socket ZClient.sampleSys)]
    let c := init .sample .connected ZClient.sampleSys
    (c.Retrying ∧ ∀ v ∈ Runs.visits (next .sample) c es, (v.1.next .sample v.2).Retrying) ↔
      ¬ ZClient.AtOnce (new .connected) ZClient.sampleSys :=
  retrying_iff (by decide) .connected ZClient.sampleSys _ (by decide)

/-- The first connect is done at once, and the gateway does not wait for the server. -/
theorem retrying_fails :
    ¬ ∀ (pb : Protobuf), (protobufEncode pb FGWClientHandler.loginMsg 2048).isSome →
      ∀ (junk : ClientState) (sys : Sys) (es : List Event),
      (∀ v ∈ Runs.visits (next pb) (init pb junk sys) es, v.1.TimersFree) →
        (init pb junk sys).Retrying ∧
          ∀ v ∈ Runs.visits (next pb) (init pb junk sys) es, (v.1.next pb v.2).Retrying := by
  intro h
  have hlogin : (protobufEncode .sample FGWClientHandler.loginMsg 2048).isSome := by decide
  have honce : ZClient.AtOnce (new .disconnected) { ZClient.sampleSys with connect := .connected } := by
    decide
  have hretry := h .sample hlogin .disconnected { ZClient.sampleSys with connect := .connected } []
    fun v hv => absurd hv List.not_mem_nil
  exact (init_retrying_iff _ _).mp hretry.1 honce

end FGWClient

end Monsys
