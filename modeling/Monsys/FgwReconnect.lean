/-
  Sessions that outlive the connection they were opened on.

  The client connects again under the same handler; the handler's table of sessions stays.

  1. **The handler** — what its members do to the sessions, and to whether it is logged in.
  2. **The history** — `Reconnecting`: the client, with the connection every session was opened on.
  3. **The invariant** — `Sound`: while the gateway is not logged in, no session belongs to the
     connection that is open.
  4. **Runs** — `uncrossed_iff`: answers go up only on the connection of their request, and only
     requests of the same connection are duplicates, exactly if no session of an earlier connection
     is met.
-/
import Monsys.FgwClient

namespace Monsys

open Push

/-! ## The handler -/

theorem HandlerIdGenerator.next_ne {g : HandlerIdGenerator} (hopen : g.closed = false)
    (hlt : g.min < g.max) : g.next.2 ≠ g := by
  intro heq
  have hlast := congrArg HandlerIdGenerator.last heq
  rw [next, if_neg (by rw [hopen]; exact Bool.false_ne_true)] at hlast
  dsimp only at hlast
  split at hlast <;> omega

namespace FGWClientHandler

variable {pb : Protobuf} {h : FGWClientHandler}

/-- The sessions wait for their answers, and numbers are drawn. -/
structure Sound (h : FGWClientHandler) : Prop where
  waiting : ∀ key s, h.sessionCtrl.findByKey1 key = some s → ∃ ext t, s = .waiting key ext t
  isOpen : h.idGenerator.closed = false
  range : h.idGenerator.min < h.idGenerator.max

/-- `h'` has no session that `h` has not, and is logged in if `h` is. -/
def Follows (h' h : FGWClientHandler) : Prop :=
  (∀ key, (h'.sessionCtrl.findByKey1 key).isSome → (h.sessionCtrl.findByKey1 key).isSome) ∧
    (h.state = .registered → h'.state = .registered)

theorem Sound.of_eq {h' : FGWClientHandler} (hsound : h.Sound)
    (heq : h'.sessionCtrl = h.sessionCtrl ∧ h'.idGenerator = h.idGenerator) : h'.Sound where
  waiting := by
    rw [heq.1]
    exact hsound.waiting
  isOpen := by
    rw [heq.2]
    exact hsound.isOpen
  range := by
    rw [heq.2]
    exact hsound.range

theorem Sound.next_idGenerator (hsound : h.Sound) :
    Sound { h with idGenerator := h.idGenerator.next.2 } := by
  have hnext : h.idGenerator.next.2 = { h.idGenerator with last := h.idGenerator.next.2.last } := by
    rw [HandlerIdGenerator.next]
    split <;> rfl
  refine ⟨hsound.waiting, ?_, ?_⟩
  · show h.idGenerator.next.2.closed = false
    rw [hnext]
    exact hsound.isOpen
  · show h.idGenerator.next.2.min < h.idGenerator.next.2.max
    rw [hnext]
    exact hsound.range

/-- What is read leaves every session waiting. -/
theorem Sound.onRead (hsound : h.Sound) {buf : List UInt8} (hbuf : buf ≠ []) :
    (h.onRead pb buf).1.Sound := by
  rw [FGWClientHandler.onRead]
  split
  · exact hsound
  · exact hsound.of_eq (h.onReadWaitForServer_frame pb buf)
  · rcases onReadRegistered_cases pb h hbuf with
      ⟨-, heq⟩ | ⟨msg, -, ⟨-, heq⟩ | ⟨-, -, heq⟩ | ⟨body, -, -, heq⟩⟩
    · rw [heq]
      exact hsound
    · rw [heq]
      exact hsound
    · rw [heq]
      exact hsound.next_idGenerator
    · rw [heq]
      refine ⟨fun key s hs => ?_, hsound.next_idGenerator.isOpen, hsound.next_idGenerator.range⟩
      dsimp only at hs
      rw [SessionTable.findByKey1_eq, SessionTable.add_pairing, Pairing.add] at hs
      split at hs
      · rw [Pairing.pair_value] at hs
        split at hs
        · next hkey =>
          obtain rfl := Option.some.inj hs
          exact ⟨_, 0, by rw [hkey]⟩
        · exact hsound.waiting key s hs
      · exact hsound.waiting key s hs

/-- Until it is logged in, nothing that is read opens a session. -/
theorem onRead_follows (pb : Protobuf) (hstate : h.state ≠ .registered) (buf : List UInt8) :
    (h.onRead pb buf).1.Follows h := by
  rw [FGWClientHandler.onRead]
  split
  · exact ⟨fun _ hkey => hkey, id⟩
  · rw [Follows, (h.onReadWaitForServer_frame pb buf).1]
    exact ⟨fun _ hkey => hkey, fun hreg => absurd hreg hstate⟩
  · next hreg => exact absurd hreg hstate

/-- A request is decoded and no inner number drawn for it, exactly if a session has its number: said
    of what holds of all such sessions. -/
theorem Sound.rejects_iff (hsound : h.Sound) (hreg : h.state = .registered) {buf : List UInt8}
    (hbuf : buf ≠ []) (P : UInt32 → Prop) :
    (∀ h' ∈ some (h.onRead pb buf).1, h'.idGenerator = h.idGenerator →
        ∀ msg, Output.decoded msg ∈ (h.onRead pb buf).2 →
          ∃ key, h.sessionCtrl.getKey1ByKey2 (FGWClientForwardSession.external msg) = some key ∧ P key) ↔
      ∀ msg ∈ Monsys.decoded pb buf,
        ∀ key, h.sessionCtrl.getKey1ByKey2 (FGWClientForwardSession.external msg) = some key → P key := by
  have hread : h.onRead pb buf = h.onReadRegistered pb buf := by
    rw [FGWClientHandler.onRead, hreg]
  -- a request whose number no session has draws one
  have hdrawn : ∀ {h' : FGWClientHandler} {out : List Output} {msg : PushMsg},
      h.sessionCtrl.findByKey2 (FGWClientForwardSession.external msg) = none →
      h'.idGenerator = h.idGenerator.next.2 →
      ((∀ h'' ∈ some h', h''.idGenerator = h.idGenerator → ∀ msg', Output.decoded msg' ∈ out →
          ∃ key, h.sessionCtrl.getKey1ByKey2 (FGWClientForwardSession.external msg') = some key ∧ P key) ↔
        ∀ msg' ∈ some msg, ∀ key,
          h.sessionCtrl.getKey1ByKey2 (FGWClientForwardSession.external msg') = some key → P key) := by
    intro h' out msg hnew hgen
    refine iff_of_true ?_ ?_
    · intro h'' hh'' hsame
      obtain rfl := Option.some.inj hh''
      rw [hgen] at hsame
      exact absurd hsame (HandlerIdGenerator.next_ne hsound.isOpen hsound.range)
    · intro msg' hmsg' key hkey
      obtain rfl := Option.some.inj hmsg'
      rw [SessionTable.findByKey2_eq, Pairing.valueRight_eq_none_iff] at hnew
      cases hnew.symm.trans hkey
  rw [hread]
  rcases onReadRegistered_cases pb h hbuf with
    ⟨hdec, heq⟩ | ⟨msg, hdec, ⟨hdup, heq⟩ | ⟨hnew, -, heq⟩ | ⟨body, hnew, -, heq⟩⟩
  · rw [heq, hdec]
    exact iff_of_true (fun _ _ _ msg hmsg => absurd hmsg List.not_mem_nil) (fun msg hmsg => by cases hmsg)
  · rw [heq, hdec]
    obtain ⟨s, hs⟩ := Option.isSome_iff_exists.mp hdup
    rw [SessionTable.findByKey2_eq, Pairing.valueRight_eq_some_iff] at hs
    obtain ⟨key, hkey, -⟩ := hs
    have hkey : h.sessionCtrl.getKey1ByKey2 (FGWClientForwardSession.external msg) = some key :=
      (Pairing.mem_symm_iff _).mpr hkey
    constructor
    · intro hall msg' hmsg' key' hkey'
      obtain rfl := Option.some.inj hmsg'
      obtain ⟨key'', hkey'', hp⟩ := hall h rfl rfl msg (List.mem_singleton_self _)
      obtain rfl := Option.some.inj (hkey'.symm.trans hkey'')
      exact hp
    · intro hall h' _ _ msg' hmsg'
      obtain rfl := Output.decoded.inj (List.mem_singleton.mp hmsg')
      exact ⟨key, hkey, hall _ rfl key hkey⟩
  · rw [heq, hdec]
    exact hdrawn hnew rfl
  · rw [heq, hdec]
    exact hdrawn hnew rfl

/-- An answer from inside. -/
theorem Sound.onInnerMsg (pb : Protobuf) (hsound : h.Sound) (msg : ZInnerMsg) :
    (h.onInnerMsg pb msg).1.Sound ∧ (h.onInnerMsg pb msg).1.Follows h := by
  cases hk : h.sessionCtrl.findByKey1 msg.seq with
  | none =>
    rw [onInnerMsg_none hk]
    exact ⟨hsound, fun _ hkey => hkey, id⟩
  | some s =>
    obtain ⟨ext, t, rfl⟩ := hsound.waiting _ s hk
    rw [onInnerMsg_waiting hk]
    have hvalue : ∀ key s, (h.sessionCtrl.removeByKey1 msg.seq).2.findByKey1 key = some s →
        h.sessionCtrl.findByKey1 key = some s := by
      intro key s hs
      rw [SessionTable.findByKey1_eq, SessionTable.removeByKey1_pairing, Pairing.unpair_value] at hs
      split at hs
      · cases hs
      · exact hs
    refine ⟨⟨fun key s hs => hsound.waiting key s (hvalue key s hs), hsound.isOpen, hsound.range⟩,
      fun key hkey => ?_, id⟩
    obtain ⟨s, hs⟩ := Option.isSome_iff_exists.mp hkey
    rw [hvalue key s hs]
    rfl

/-- A tick. -/
theorem Sound.routine (hsound : h.Sound) (delta : Int) :
    (h.routine delta).Sound ∧ (h.routine delta).Follows h := by
  have hvalue : ∀ key s, (h.routine delta).sessionCtrl.findByKey1 key = some s →
      ∃ s', h.sessionCtrl.findByKey1 key = some s' ∧ s'.tick delta = some s := by
    intro key s hs
    rw [SessionTable.findByKey1_eq, (h.routine_lookup delta key).1] at hs
    exact Option.bind_eq_some_iff.mp hs
  refine ⟨⟨fun key s hs => ?_, hsound.isOpen, hsound.range⟩, fun key hkey => ?_, id⟩
  · obtain ⟨s', hs', htick⟩ := hvalue key s hs
    obtain ⟨ext, t, rfl⟩ := hsound.waiting key s' hs'
    rw [FGWClientForwardSession.tick_waiting] at htick
    split at htick
    · cases htick
    · exact ⟨ext, _, (Option.some.inj htick).symm⟩
  · obtain ⟨s, hs⟩ := Option.isSome_iff_exists.mp hkey
    obtain ⟨s', hs', -⟩ := hvalue key s hs
    rw [hs']
    rfl

/-- A timer. -/
theorem Sound.timerCallback (pb : Protobuf) (hsound : h.Sound) (id : Fin maxTimerCount) :
    (h.timerCallback pb id).1.Sound ∧ (h.timerCallback pb id).1.Follows h := by
  have hframe := h.timerCallback_frame pb id
  refine ⟨hsound.of_eq hframe, fun key hkey => ?_, fun hreg => ?_⟩
  · rw [hframe.1] at hkey
    exact hkey
  · have hwait : ¬ h.state = .waitForServer := by
      rw [hreg]
      decide
    rw [FGWClientHandler.timerCallback]
    split
    · exact hreg
    · rw [onTimeout, if_neg hwait, ite_self]
      dsimp only
      split
      · exact hreg
      · exact hreg

end FGWClientHandler

/-! ## The history -/

namespace FGWClient

/-- The session under an inner number. -/
def sessionAt (c : FGWClient) (key : UInt32) : Option FGWClientForwardSession :=
  c.handler.bind fun h => h.sessionCtrl.findByKey1 key

/-- The number of the socket the client reads from. -/
def connection (c : FGWClient) : Option Nat := c.sockets.opened c.fd

/-- What a connected client reads, if it is a message. -/
def received (pb : Protobuf) (c : FGWClient) (sys : Sys) : Option PushMsg :=
  if c.state = .connected then
    match sys.recv with
    | .data buf _ => decoded pb buf
    | _ => none
  else none

end FGWClient

/-- The client, and for every session the number of the socket its request was read from. -/
structure Reconnecting where
  client : FGWClient
  origin : UInt32 → Option Nat

namespace Reconnecting

/-- The client after its `init`. -/
def start (pb : Protobuf) (junk : ClientState) (sys : Sys) : Reconnecting :=
  ⟨FGWClient.init pb junk sys, fun _ => none⟩

/-- One event.  A session that was not there before belongs to the socket that was read from. -/
def step (pb : Protobuf) (w : Reconnecting) (e : FGWClient.Event) : Reconnecting where
  client := w.client.next pb e
  origin key :=
    if ((w.client.next pb e).sessionAt key).isSome ∧ w.client.sessionAt key = none then
      w.client.connection
    else w.origin key

/-- What is sent for a message from inside goes out on the connection of the request, of a gateway
    that is logged in.  On a descriptor that is not open nothing goes out. -/
def AnswersHome (pb : Protobuf) (w : Reconnecting) (msg : ZInnerMsg) : Prop :=
  ∀ h ∈ w.client.handler, ∀ fd bytes, Output.send fd bytes ∈ (w.client.step pb (.inner msg)).2 →
    ∀ k, w.client.sockets.opened fd = some k → h.state = .registered ∧ w.origin msg.seq = some k

/-- A request that is rejected, for it is decoded and no inner number drawn for it, has the number of
    a session of the same connection. -/
def RejectsOwn (pb : Protobuf) (w : Reconnecting) (sys : Sys) : Prop :=
  w.client.state = .connected →
    ∀ h ∈ w.client.handler, h.state = .registered →
    ∀ h' ∈ (w.client.next pb (.client (.socket sys))).handler, h'.idGenerator = h.idGenerator →
    ∀ msg, Output.decoded msg ∈ (w.client.step pb (.client (.socket sys))).2 →
      ∃ key, h.sessionCtrl.getKey1ByKey2 (FGWClientForwardSession.external msg) = some key ∧
        w.origin key = w.client.connection

/-- No answer and no rejection crosses a reconnect. -/
def Uncrossed (pb : Protobuf) (w : Reconnecting) : FGWClient.Event → Prop
  | .inner msg => w.AnswersHome pb msg
  | .client (.socket sys) => w.RejectsOwn pb sys
  | _ => True

/-- The event meets no session of an earlier connection: no answer that can be sent comes for one
    while a socket is open under the handler's descriptor, and no request with its number. -/
def MeetsNone (pb : Protobuf) (w : Reconnecting) : FGWClient.Event → Prop
  | .inner msg =>
    ∀ h ∈ w.client.handler, ∀ s, h.sessionCtrl.findByKey1 msg.seq = some s →
      (FGWClientForwardSession.answer pb msg.body s.externalKey).isSome →
      ∀ k, w.client.sockets.opened h.fd = some k → w.origin msg.seq = some k
  | .client (.socket sys) =>
    ∀ h ∈ w.client.handler, h.state = .registered → ∀ msg ∈ w.client.received pb sys,
      ∀ key, h.sessionCtrl.getKey1ByKey2 (FGWClientForwardSession.external msg) = some key →
        w.origin key = w.client.connection
  | _ => True

/-! ## The invariant -/

/-- **The invariant.** -/
structure Sound (w : Reconnecting) : Prop where
  live : ZClient.LiveOrStuck w.client
  own : ZClient.OwnSocket w.client
  handler : ∀ h ∈ w.client.handler, h.Sound
  early : ∀ key, (w.client.sessionAt key).isSome →
    ∃ k, w.origin key = some k ∧ k < w.client.sockets.made
  current : ∀ h ∈ w.client.handler, (w.client.state = .waitingForConnect ∨ h.state ≠ .registered) →
    ∀ k, w.client.connection = some k →
      ∀ key, (w.client.sessionAt key).isSome → w.origin key ≠ some k

variable {pb : Protobuf} {w : Reconnecting}

/-- What opens no session keeps the invariant, if the open socket is a new one, or the same as before
    and no longer in use by a gateway that is logged in. -/
theorem Sound.quiet (hsound : w.Sound) {c : FGWClient} (hlive : ZClient.LiveOrStuck c)
    (hown : ZClient.OwnSocket c) (hhandler : ∀ h ∈ c.handler, h.Sound)
    (hsession : ∀ key, (c.sessionAt key).isSome → (w.client.sessionAt key).isSome)
    (hmade : w.client.sockets.made ≤ c.sockets.made)
    (hcurrent : ∀ h' ∈ c.handler, (c.state = .waitingForConnect ∨ h'.state ≠ .registered) →
      ∀ k, c.connection = some k → w.client.sockets.made ≤ k ∨
        w.client.connection = some k ∧ ∃ h ∈ w.client.handler,
          (w.client.state = .waitingForConnect ∨ h.state ≠ .registered)) :
    Sound ⟨c, w.origin⟩ where
  live := hlive
  own := hown
  handler := hhandler
  early := by
    intro key hkey
    obtain ⟨k, hk, hlt⟩ := hsound.early key (hsession key hkey)
    exact ⟨k, hk, Nat.lt_of_lt_of_le hlt hmade⟩
  current := by
    intro h' hh' hdown k hk key hkey
    rcases hcurrent h' hh' hdown k hk with hnew | ⟨hsame, h, hh, hdown⟩
    · obtain ⟨k₀, hk₀, hlt⟩ := hsound.early key (hsession key hkey)
      intro heq
      obtain rfl : k₀ = k := Option.some.inj (hk₀.symm.trans heq)
      exact Nat.not_lt.mpr hnew hlt
    · exact hsound.current h hh hdown k hsame key (hsession key hkey)

/-- Such an event leaves the history alone. -/
theorem step_quiet {e : FGWClient.Event}
    (hsession : ∀ key, ((w.client.next pb e).sessionAt key).isSome → (w.client.sessionAt key).isSome) :
    w.step pb e = ⟨w.client.next pb e, w.origin⟩ := by
  rw [step]
  congr
  funext key
  refine if_neg fun hnew => ?_
  have hold := hsession key hnew.1
  rw [hnew.2] at hold
  cases hold

/-- The handler is called, and the client stays as it is. -/
theorem Sound.callHandler (hsound : w.Sound)
    {f : FGWClientHandler → FGWClientHandler × List Output}
    (hf : ∀ h ∈ w.client.handler, h.Sound → (f h).1.Sound ∧ (f h).1.Follows h) :
    (∀ key, ((w.client.callHandler f).1.sessionAt key).isSome → (w.client.sessionAt key).isSome) ∧
      Sound ⟨(w.client.callHandler f).1, w.origin⟩ := by
  rw [FGWClient.callHandler_fst]
  have hsession : ∀ key,
      (FGWClient.sessionAt { w.client with handler := w.client.handler.map fun h => (f h).1 } key).isSome →
        (w.client.sessionAt key).isSome := by
    intro key hkey
    rw [FGWClient.sessionAt] at hkey ⊢
    cases hh : w.client.handler with
    | none =>
      rw [hh] at hkey
      cases hkey
    | some h =>
      rw [hh] at hkey
      exact (hf h hh (hsound.handler h hh)).2.1 key hkey
  refine ⟨hsession, hsound.quiet hsound.live hsound.own ?_ hsession (Nat.le_refl _) ?_⟩
  · intro h' hh'
    obtain ⟨h, hh, rfl⟩ := Option.map_eq_some_iff.mp hh'
    exact (hf h hh (hsound.handler h hh)).1
  · intro h' hh' hdown k hk
    obtain ⟨h, hh, rfl⟩ := Option.map_eq_some_iff.mp hh'
    refine Or.inr ⟨hk, h, hh, hdown.imp_right fun hnot hreg => ?_⟩
    exact hnot ((hf h hh (hsound.handler h hh)).2.2 hreg)

/-- A message is read by a handler that is logged in: a session that is new belongs to the socket
    that was read from. -/
theorem Sound.read_registered (hsound : w.Sound) {sys : Sys} {buf : List UInt8} (hbuf : buf ≠ [])
    {h : FGWClientHandler} (hreg : h.state = .registered) (hstate : w.client.state = .connected)
    (hh : w.client.handler = some h)
    (hlive : ZClient.LiveOrStuck (w.client.next pb (.client (.socket sys))))
    (hnext : w.client.next pb (.client (.socket sys)) =
      { w.client with handler := some (h.onRead pb buf).1 }) :
    (w.step pb (.client (.socket sys))).Sound := by
  have hwaits := hsound.live.live hstate
  rw [ZClient.Live, hstate] at hwaits
  obtain ⟨k, hk⟩ : ∃ k, w.client.connection = some k := Option.isSome_iff_exists.mp hwaits.2
  have hreg' : (h.onRead pb buf).1.state = .registered := by
    rw [FGWClientHandler.onRead, hreg]
    exact (h.onReadRegistered_frame pb buf).2.trans hreg
  constructor
  · exact hlive
  · show ZClient.OwnSocket (w.client.next pb _)
    rw [hnext]
    exact hsound.own
  · show ∀ h' ∈ (w.client.next pb _).handler, h'.Sound
    rw [hnext]
    intro h' hh'
    obtain rfl := Option.some.inj hh'
    exact (hsound.handler h hh).onRead hbuf
  · intro key hkey
    show ∃ k, (if _ ∧ _ then _ else _) = some k ∧ k < (w.client.next pb _).sockets.made
    split
    · rw [hnext]
      exact ⟨k, hk, (hsound.own _ k hk).2.2⟩
    · next hold =>
      rw [hnext]
      exact hsound.early key (Option.isSome_iff_ne_none.mpr fun hnone => hold ⟨hkey, hnone⟩)
  · show ∀ h' ∈ (w.client.next pb _).handler, (w.client.next pb _).state = .waitingForConnect ∨ _ → _
    rw [hnext]
    intro h' hh' hdown
    obtain rfl := Option.some.inj hh'
    rcases hdown with hwaiting | hnot
    · rw [show w.client.state = .connected from hstate] at hwaiting
      cases hwaiting
    · exact absurd hreg' hnot

/-- A message is read by the handler of a connected client. -/
theorem Sound.read (hsound : w.Sound) {sys : Sys} {buf : List UInt8} (hbuf : buf ≠ [])
    {h : FGWClientHandler} (hstate : w.client.state = .connected) (hh : w.client.handler = some h)
    (hlive : ZClient.LiveOrStuck (w.client.next pb (.client (.socket sys))))
    (hnext : w.client.next pb (.client (.socket sys)) =
      { w.client with handler := some (h.onRead pb buf).1 }) :
    (w.step pb (.client (.socket sys))).Sound := by
  by_cases hreg : h.state = .registered
  · exact hsound.read_registered hbuf hreg hstate hh hlive hnext
  · have hfollows := FGWClientHandler.onRead_follows pb hreg buf
    have hsession : ∀ key, ((w.client.next pb (.client (.socket sys))).sessionAt key).isSome →
        (w.client.sessionAt key).isSome := by
      intro key hkey
      rw [hnext] at hkey
      rw [FGWClient.sessionAt, hh]
      exact hfollows.1 key hkey
    rw [step_quiet hsession]
    rw [hnext] at hsession hlive ⊢
    refine hsound.quiet hlive hsound.own ?_ hsession (Nat.le_refl _) ?_
    · intro h' hh'
      obtain rfl := Option.some.inj hh'
      exact (hsound.handler h hh).onRead hbuf
    · intro h' hh' _ k hk
      exact Or.inr ⟨hk, h, hh, Or.inr hreg⟩

/-- Every handler has the sessions of one before. -/
theorem Sound.framed (hsound : w.Sound) {c : FGWClient}
    (hframe : ∀ h' ∈ c.handler, ∃ h ∈ w.client.handler,
      h'.sessionCtrl = h.sessionCtrl ∧ h'.idGenerator = h.idGenerator) :
    (∀ h' ∈ c.handler, h'.Sound) ∧
      ∀ key, (c.sessionAt key).isSome → (w.client.sessionAt key).isSome := by
  constructor
  · intro h' hh'
    obtain ⟨h, hh, heq⟩ := hframe h' hh'
    exact (hsound.handler h hh).of_eq heq
  · intro key hkey
    obtain ⟨s, hs⟩ := Option.isSome_iff_exists.mp hkey
    obtain ⟨h', hh', hs⟩ := Option.bind_eq_some_iff.mp hs
    obtain ⟨h, hh, heq, -⟩ := hframe h' hh'
    rw [FGWClient.sessionAt, hh, Option.bind_some, ← heq, hs]
    rfl

/-- A handler that is told of a connection keeps its sessions. -/
theorem onConnected_frame (pb : Protobuf) (h : FGWClientHandler) (fd : Int) :
    (FGWClientHandler.onConnected pb { h with fd }).1.sessionCtrl = h.sessionCtrl ∧
      (FGWClientHandler.onConnected pb { h with fd }).1.idGenerator = h.idGenerator :=
  FGWClientHandler.fgwLogin_frame pb _

/-- The client connects again. -/
theorem Sound.reconnect (hsound : w.Sound) {e : ZClient.Event} {c : FGWClient} {fd : Int} {sys : Sys}
    (hc : c.fd = w.client.fd ∧ c.sockets = w.client.sockets) (hhandler : c.handler = w.client.handler)
    (hlive : ZClient.LiveOrStuck (w.client.next pb (.client e)))
    (hnext : w.client.next pb (.client e) =
      (ZClient.onDisconnected (FGWClientHandler.handlerClass pb) c fd sys).2.1) :
    (w.step pb (.client e)).Sound := by
  have hown : ZClient.OwnSocket c := by
    rw [ZClient.OwnSocket, hc.1, hc.2]
    exact hsound.own
  obtain ⟨hown', hmade, hnew⟩ := hown.onDisconnected (FGWClientHandler.handlerClass pb) fd sys
  rw [← hnext, hc.2] at hmade hnew
  rw [← hnext] at hown'
  have hframe : ∀ h' ∈ (w.client.next pb (.client e)).handler, ∃ h ∈ w.client.handler,
      h'.sessionCtrl = h.sessionCtrl ∧ h'.idGenerator = h.idGenerator := by
    intro h' hh'
    rw [hnext] at hh'
    rcases ZClient.onDisconnected_handler (FGWClientHandler.handlerClass pb) c fd sys with heq | heq
    · rw [heq, hhandler] at hh'
      exact ⟨h', hh', rfl, rfl⟩
    · rw [heq, hhandler] at hh'
      obtain ⟨h, hh, rfl⟩ := Option.map_eq_some_iff.mp hh'
      exact ⟨h, hh, onConnected_frame pb h fd⟩
  obtain ⟨hhandler', hsession⟩ := hsound.framed hframe
  rw [step_quiet hsession]
  exact hsound.quiet hlive hown' hhandler' hsession hmade fun h' hh' _ k hk => Or.inl (hnew _ k hk)

/-- The client changes, and the handler does not. -/
theorem Sound.sameHandler (hsound : w.Sound) {e : FGWClient.Event} {c : FGWClient}
    (hlive : ZClient.LiveOrStuck (w.client.next pb e)) (hnext : w.client.next pb e = c)
    (hhandler : c.handler = w.client.handler)
    (hsockets : (c.fd = w.client.fd ∧ c.sockets = w.client.sockets) ∨
      c.sockets = w.client.sockets.close w.client.fd)
    (hstate : c.state = .waitingForConnect → w.client.state = .waitingForConnect) :
    (w.step pb e).Sound := by
  subst hnext
  obtain ⟨hown, hmade, hsame⟩ := hsound.own.kept hsockets
  obtain ⟨hhandler', hsession⟩ := hsound.framed fun h' hh' => ⟨h', hhandler ▸ hh', rfl, rfl⟩
  rw [step_quiet hsession]
  refine hsound.quiet hlive hown hhandler' hsession hmade fun h' hh' hdown k hk => ?_
  exact Or.inr ⟨hsame k hk, h', hhandler ▸ hh', hdown.imp_left hstate⟩

/-- The connection comes up. -/
theorem Sound.up (hsound : w.Sound) {e : FGWClient.Event} {c : FGWClient}
    (hstate : w.client.state = .waitingForConnect)
    (hlive : ZClient.LiveOrStuck (w.client.next pb e))
    (hnext : w.client.next pb e =
      (ZClient.tellHandler (FGWClientHandler.handlerClass pb) c w.client.fd).1)
    (hc : c.fd = w.client.fd ∧ c.sockets = w.client.sockets)
    (hhandler : c.handler = w.client.handler) :
    (w.step pb e).Sound := by
  rw [ZClient.tellHandler_fst] at hnext
  have hframe : ∀ h' ∈ (w.client.next pb e).handler, ∃ h ∈ w.client.handler,
      h'.sessionCtrl = h.sessionCtrl ∧ h'.idGenerator = h.idGenerator := by
    intro h' hh'
    rw [hnext, hhandler] at hh'
    obtain ⟨h, hh, rfl⟩ := Option.map_eq_some_iff.mp hh'
    exact ⟨h, hh, onConnected_frame pb h _⟩
  have hsockets : (w.client.next pb e).fd = w.client.fd ∧
      (w.client.next pb e).sockets = w.client.sockets := by
    rw [hnext]
    exact hc
  obtain ⟨hown, hmade, hsame⟩ := hsound.own.kept (Or.inl hsockets)
  obtain ⟨hhandler', hsession⟩ := hsound.framed hframe
  rw [step_quiet hsession]
  refine hsound.quiet hlive hown hhandler' hsession hmade fun h' hh' _ k hk => ?_
  obtain ⟨h, hh, -⟩ := hframe h' hh'
  exact Or.inr ⟨hsame k hk, h, hh, Or.inl hstate⟩

/-- **Every event keeps the invariant.** -/
theorem Sound.step (pb : Protobuf) (hsound : w.Sound) (e : FGWClient.Event) : (w.step pb e).Sound := by
  cases e with
  | inner msg =>
    obtain ⟨hsession, hnext⟩ := hsound.callHandler fun h _ hs => hs.onInnerMsg pb msg
    rw [step_quiet (e := .inner msg) hsession]
    exact hnext
  | routine delta =>
    obtain ⟨hsession, hnext⟩ := hsound.callHandler (f := fun h => (h.routine delta, []))
      fun h _ hs => hs.routine delta
    rw [step_quiet (e := .routine delta) hsession]
    exact hnext
  | timer id =>
    obtain ⟨hsession, hnext⟩ := hsound.callHandler fun h _ hs => hs.timerCallback pb id
    rw [step_quiet (e := .timer id) hsession]
    exact hnext
  | client e =>
    have hlive := FGWClient.next_liveOrStuck pb hsound.live (.client e)
    have hnext : w.client.next pb (.client e) =
      (ZClient.step (FGWClientHandler.handlerClass pb) w.client e).1 := rfl
    rcases hsound.live with hlive₀ | hstuck
    · have hmoved := hlive₀.moved (FGWClientHandler.handlerClass pb) e
      generalize ZClient.step (FGWClientHandler.handlerClass pb) w.client e = r at hmoved hnext
      cases hmoved with
      | idle => exact hsound.sameHandler hlive hnext rfl (Or.inl ⟨rfl, rfl⟩) id
      | still => exact hsound.sameHandler hlive hnext rfl (Or.inl ⟨rfl, rfl⟩) id
      | up hstate => exact hsound.up hstate hlive hnext ⟨rfl, rfl⟩ rfl
      | read hstate hbuf hhandler =>
        exact hsound.read (List.ne_nil_of_length_pos hbuf.1) hstate hhandler hlive hnext
      | ignored hstate hc =>
        refine hsound.sameHandler hlive hnext ?_ (Or.inl ⟨?_, ?_⟩) ?_
        all_goals rw [hc]
        exact id
      | lost hstate hhandler hsockets =>
        exact hsound.sameHandler hlive hnext hhandler hsockets nofun
      | reconnect hre hc hhandler => exact hsound.reconnect hc hhandler hlive hnext
      | timedOut htimeout hhandler hsockets =>
        exact hsound.sameHandler hlive hnext hhandler hsockets fun _ => htimeout.1
    · rw [hstuck.step] at hnext
      exact hsound.sameHandler hlive hnext rfl (Or.inl ⟨rfl, rfl⟩) id

/-- No session has been opened, and no number drawn. -/
def Fresh (c : FGWClient) : Prop :=
  ∀ h ∈ c.handler, h.sessionCtrl = .new ∧ h.idGenerator = .new 1 0xFFFFFF

/-- `init` opens no session. -/
theorem init_fresh (pb : Protobuf) (junk : ClientState) (sys : Sys) :
    Fresh (FGWClient.init pb junk sys) := by
  have hconn : Fresh (ZClient.onDisconnected (FGWClientHandler.handlerClass pb) (FGWClient.new junk)
      (-1) sys).2.1 := by
    intro h hh
    rcases ZClient.onDisconnected_handler (FGWClientHandler.handlerClass pb) (FGWClient.new junk)
      (-1) sys with heq | heq
    · rw [heq] at hh
      obtain rfl : FGWClientHandler.new = h := Option.some.inj hh
      exact ⟨rfl, rfl⟩
    · rw [heq] at hh
      obtain rfl := Option.some.inj hh
      exact onConnected_frame pb .new (-1)
  refine ZClient.init_rule (FGWClientHandler.handlerClass pb) (FGWClient.new junk) sys hconn ?_
  intro c hc h' hh'
  obtain ⟨h, hh, rfl⟩ := Option.map_eq_some_iff.mp hh'
  exact hc h hh

theorem init_own (pb : Protobuf) (junk : ClientState) (sys : Sys) :
    ZClient.OwnSocket (FGWClient.init pb junk sys) := by
  have hown : ZClient.OwnSocket (FGWClient.new junk) := fun n k hk => by cases hk
  exact ZClient.init_rule (FGWClientHandler.handlerClass pb) (FGWClient.new junk) sys
    (hown.onDisconnected (FGWClientHandler.handlerClass pb) (-1) sys).1 fun _ hown => hown

theorem start_sound (pb : Protobuf) (junk : ClientState) (sys : Sys) : (start pb junk sys).Sound := by
  have hnone : ∀ key, ¬ ((FGWClient.init pb junk sys).sessionAt key).isSome := by
    intro key hkey
    obtain ⟨s, hs⟩ := Option.isSome_iff_exists.mp hkey
    obtain ⟨h, hh, hs⟩ := Option.bind_eq_some_iff.mp hs
    rw [(init_fresh pb junk sys h hh).1, SessionTable.findByKey1_eq, SessionTable.new_pairing] at hs
    cases hs
  constructor
  · exact Or.inl (ZClient.init_live (FGWClientHandler.handlerClass pb) (FGWClient.new junk) sys)
  · exact init_own pb junk sys
  · intro h hh
    obtain ⟨hsessions, hgen⟩ := init_fresh pb junk sys h hh
    refine ⟨fun key s hs => ?_, by rw [hgen]; rfl, by rw [hgen]; decide⟩
    rw [hsessions, SessionTable.findByKey1_eq, SessionTable.new_pairing] at hs
    cases hs
  · exact fun key hkey => absurd hkey (hnone key)
  · exact fun _ _ _ _ _ key hkey => absurd hkey (hnone key)

/-! ## Runs -/

/-- **An answer from inside**: it goes up if a session waits for it. -/
theorem Sound.answersHome_iff (hsound : w.Sound) (msg : ZInnerMsg) :
    w.AnswersHome pb msg ↔ w.MeetsNone pb (.inner msg) := by
  refine forall_congr' fun h => forall_congr' fun hh => ?_
  have hout : (w.client.step pb (.inner msg)).2 = (h.onInnerMsg pb msg).2 := by
    rw [FGWClient.step, FGWClient.callHandler, hh]
  rw [hout]
  cases hk : h.sessionCtrl.findByKey1 msg.seq with
  | none =>
    rw [FGWClientHandler.onInnerMsg_none hk]
    refine iff_of_true (fun _ _ hmem => absurd hmem List.not_mem_nil) fun s hs => ?_
    cases hs
  | some s =>
    obtain ⟨ext, t, rfl⟩ := (hsound.handler h hh).waiting _ s hk
    have hsession : (w.client.sessionAt msg.seq).isSome := by
      rw [FGWClient.sessionAt, hh, Option.bind_some, hk]
      rfl
    rw [FGWClientHandler.onInnerMsg_waiting hk]
    constructor
    · rintro hhome s hs hans k hopen
      obtain rfl := Option.some.inj hs
      obtain ⟨bytes, hbytes⟩ := Option.isSome_iff_exists.mp hans
      refine (hhome h.fd bytes ?_ k hopen).2
      rw [show FGWClientForwardSession.answer pb msg.body ext = some bytes from hbytes]
      exact List.mem_singleton_self _
    · intro hnone fd bytes hmem k hopen
      obtain ⟨bytes', hbytes, heq⟩ := List.mem_map.mp hmem
      obtain ⟨rfl, rfl⟩ := Output.send.inj heq
      have horigin := hnone _ rfl (Option.isSome_iff_exists.mpr ⟨_, Option.mem_toList.mp hbytes⟩) k hopen
      refine ⟨?_, horigin⟩
      -- only a gateway that is logged in has a session of the open connection
      by_contra hreg
      obtain ⟨hfd, -⟩ := hsound.own _ k hopen
      rw [hfd] at hopen
      exact hsound.current h hh (Or.inr hreg) k hopen msg.seq hsession horigin

/-- **A request**: it is rejected if a session has its number. -/
theorem Sound.rejectsOwn_iff (hsound : w.Sound) (sys : Sys) :
    w.RejectsOwn pb sys ↔ w.MeetsNone pb (.client (.socket sys)) := by
  by_cases hstate : w.client.state = .connected
  · have hlive : ZClient.Live w.client := hsound.live.live hstate
    rw [RejectsOwn, forall_prop_of_true hstate]
    refine forall_congr' fun h => forall_congr' fun hh => forall_congr' fun hreg => ?_
    have hstep : w.client.step pb (.client (.socket sys)) =
        ZClient.onConnected (FGWClientHandler.handlerClass pb) w.client w.client.fd sys :=
      hlive.step_connected hstate sys
    rw [FGWClient.next, hstep, FGWClient.received, if_pos hstate, ZClient.onConnected]
    cases sys.recv with
    | closed =>
      exact iff_of_true (fun _ _ _ msg hmsg => absurd hmsg List.not_mem_nil) (fun msg hmsg => by cases hmsg)
    | failed =>
      exact iff_of_true (fun _ _ _ msg hmsg => absurd hmsg List.not_mem_nil) (fun msg hmsg => by cases hmsg)
    | data buf hbuf =>
      rw [show w.client.handler = some h from hh]
      exact (hsound.handler h hh).rejects_iff hreg (List.ne_nil_of_length_pos hbuf.1) _
  · refine iff_of_true (fun hconn => absurd hconn hstate) ?_
    intro h hh hreg msg hmsg
    rw [FGWClient.received, if_neg hstate] at hmsg
    cases hmsg

theorem Sound.uncrossed_iff (pb : Protobuf) (hsound : w.Sound) (e : FGWClient.Event) :
    w.Uncrossed pb e ↔ w.MeetsNone pb e := by
  cases e with
  | inner msg => exact hsound.answersHome_iff msg
  | routine delta => exact Iff.rfl
  | timer id => exact Iff.rfl
  | client e =>
    cases e with
    | socket sys => exact hsound.rejectsOwn_iff sys
    | timeout sys => exact Iff.rfl

/-- **No answer and no rejection crosses a reconnect, exactly if no session of an earlier connection
    is met.** -/
theorem uncrossed_all_iff (pb : Protobuf) (junk : ClientState) (sys : Sys) (es : List FGWClient.Event) :
    (∀ v ∈ Runs.visits (step pb) (start pb junk sys) es, v.1.Uncrossed pb v.2) ↔
      ∀ v ∈ Runs.visits (step pb) (start pb junk sys) es, v.1.MeetsNone pb v.2 := by
  refine @Runs.forall_visits_iff _ _ (step pb) Sound (fun _ _ => True) (Uncrossed pb) (MeetsNone pb)
    ?_ ?_ _ (start_sound pb junk sys) es fun _ _ => trivial
  · exact fun w e hsound _ => hsound.uncrossed_iff pb e
  · exact fun w e hsound _ _ => hsound.step pb e

/-- A request is read, the connection is lost and comes up again. -/
def reconnectEvents : List FGWClient.Event :=
  [.client (.socket ZClient.sampleSys),
    .client (.socket { ZClient.sampleSys with recv := .data (0x0A :: loginRspBytes) (by decide) }),
    .client (.socket { ZClient.sampleSys with recv := .data (0x0D :: devListBytes) (by decide) }),
    .client (.socket ZClient.sampleSys), .client (.timeout ZClient.sampleSys),
    .client (.socket ZClient.sampleSys)]

/-- The answer comes then, and goes out on the new connection, before the gateway is logged in. -/
theorem uncrossed_fails :
    ¬ ∀ (pb : Protobuf) (junk : ClientState) (sys : Sys) (es : List FGWClient.Event),
      ∀ v ∈ Runs.visits (step pb) (start pb junk sys) es, v.1.Uncrossed pb v.2 := by
  intro h
  let msg : ZInnerMsg := ⟨{}, {}, 1, .getDevListRsp []⟩
  let w : Reconnecting :=
    reconnectEvents.foldl (step .sample) (start .sample .disconnected ZClient.sampleSys)
  have hvisit : (w, .inner msg) ∈ Runs.visits (step .sample)
      (start .sample .disconnected ZClient.sampleSys) (reconnectEvents ++ [.inner msg]) :=
    (Runs.mem_visits_iff _).mpr ⟨reconnectEvents, [], rfl, rfl⟩
  have hhome : w.AnswersHome .sample msg := h _ _ _ _ _ hvisit
  have hsend : Output.send 5 (0x0B :: devListRspBytes) ∈ (w.client.step .sample (.inner msg)).2 := by
    decide
  have hnew : w.client.sockets.opened 5 = some 1 := by decide
  have hold : w.origin msg.seq = some 0 := by decide
  obtain ⟨h, hh⟩ : ∃ h, w.client.handler = some h := Option.isSome_iff_exists.mp (by decide)
  have horigin := (hhome h hh 5 _ hsend 1 hnew).2
  rw [hold] at horigin
  cases horigin

end Reconnecting

end Monsys
