/-
  The clients, the push server and the gateways, with what is under way between them.

  A client is a `MonsysConnection`, a gateway whoever reads requests on the push port and answers
  them, and the server stands in between.  What one writes to another is read in its order, some
  time later, or lost with the connection; and everyone may go on meanwhile.

  1. **The system** — `Net`.  A connection has the same number at both ends.  A gateway keeps the
     requests it has read on its desk, and answers them as it likes, each once and under the number
     it came with.
  2. **Tags** — a letter that a client sends carries the promise it is for, and so does what comes
     of it: the request that the server hands on for it, the answer to that, and what the server
     writes to a client for this.  No one reads a tag.
  3. **What the server writes** — `apiRead_writes`, `pushRead_writes`.

  The tags of requests in the route map are kept beside it, in `origin`.
-/
import Monsys.Lib.Transit
import Monsys.MonsysConnection
import Monsys.PushRouting

namespace Monsys.Push

/-! ## The system -/

/-- A promise of a client. -/
structure Tag where
  client : Nat
  promise : Nat
deriving DecidableEq, Repr

/-- A message under way, with the promise it is for. -/
structure Letter where
  msg : PushMsg
  tag : Option Tag
deriving DecidableEq, Repr

/-- Where a message lies: on its way on one of the two ports, or on the desk of a gateway. -/
inductive Place
  | toServer (n : Nat)
  | toClient (n : Nat)
  | toGateway (d : Nat)
  | desk (d : Nat)
  | fromGateway (d : Nat)
deriving DecidableEq, Repr

structure Net where
  clients : Nat → MonsysConnection
  server : Server
  origin : Int → Option Tag
  air : Transit Place Letter

namespace Net

/-- The system as it starts. -/
def init : Net where
  clients := fun _ => {}
  server := Server.init
  origin := fun _ => none
  air := []

/-- What can happen. -/
inductive Event
  | act (n : Nat) (a : MonsysConnection.Act)
  | deliver (p : Place)
  | gatewaySends (d : Nat) (msg : PushMsg)
  | gatewayAnswers (d : Nat) (seq : Int) (rsp : PushMsg)
  | close (ch : Channel)
  | lose (p : Place)
deriving DecidableEq, Repr

/-- The first letter at a place, and what is under way without it. -/
def next (net : Net) (p : Place) : Option ((Place × Letter) × Transit Place Letter) :=
  net.air.pick fun l => l.1 = p

/-- The first request on a desk that came under the number, and what is under way without it. -/
def onDesk (net : Net) (d : Nat) (seq : Int) :
    Option ((Place × Letter) × Transit Place Letter) :=
  net.air.pick fun l => l.1 = .desk d ∧ l.2.msg.sequence = seq

/-- What a client sends. -/
def sent (n : Nat) (out : List Effect) : Transit Place Letter :=
  out.filterMap fun
    | .sent callback msg => some (.toServer n, ⟨msg, some ⟨n, callback.promise⟩⟩)
    | .thrown _ => none

/-- What the server writes: under the tag of the letter it read, but for a reply to a gateway
    itself.  A channel that is closed takes nothing.  -/
def written (s : Server) (tag : Option Tag) (reply : Option Tag) (out : List Write) :
    Transit Place Letter :=
  (out.filter fun w => !s.closed w.1).map fun
    | (.api n, msg) => (.toClient n, ⟨msg, tag⟩)
    | (.push d, msg) => (.toGateway d, ⟨msg, reply⟩)

/-- A letter is read where it was going.  A gateway puts requests on its desk; what is read there
    is given up. -/
def arrive (imported : String → Bool) (net : Net) (l : Letter) : Place → Net
  | .toServer n =>
    let (s, out) := net.server.step imported (.apiRead n l.msg)
    { net with
        server := s
        origin := match World.handedOn out with
          | none => net.origin
          | some m => Function.update net.origin m.sequence l.tag
        air := net.air ++ written s l.tag l.tag out }
  | .toClient n =>
    { net with
        clients := Function.update net.clients n ((net.clients n).channelRead0 l.msg).1 }
  | .toGateway d =>
    if (Server.peerOf l.msg).isSome then { net with air := net.air ++ [(.desk d, l)] } else net
  | .desk _ => net
  | .fromGateway d =>
    let (s, out) := net.server.step imported (.pushRead d l.msg)
    { net with
        server := s
        air := net.air ++ written s l.tag none out }

/-- One event.  What a gateway sends of itself is no answer. -/
def step (imported : String → Bool) (net : Net) : Event → Net
  | .act n a =>
    let (c, out) := (net.clients n).act a
    { net with
        clients := Function.update net.clients n c
        air := net.air ++ sent n out }
  | .deliver p =>
    match net.next p with
    | none => net
    | some (l, air) => { net with air := air }.arrive imported l.2 p
  | .gatewaySends d msg =>
    if Server.isAnswer msg.type then net
    else { net with air := net.air ++ [(.fromGateway d, ⟨msg, none⟩)] }
  | .gatewayAnswers d seq rsp =>
    match net.onDesk d seq with
    | none => net
    | some (l, air) =>
      { net with air := air ++ [(.fromGateway d, ⟨{ rsp with sequence := seq }, l.2.tag⟩)] }
  | .close ch => { net with server := (net.server.step imported (.close ch)).1 }
  | .lose p => { net with air := net.air.filter fun l => l.1 ≠ p }

end Net

/-! ## What the server writes -/

namespace Server

variable {s : Server} {n : Nat} {msg : PushMsg}

/-- At most one answer on the connection's own channel, under the number of the message. -/
def Replies (n : Nat) (seq : Int) (out : List Write) : Prop :=
  out = [] ∨ ∃ m : PushMsg, out = [(.api n, m)] ∧ m.sequence = seq

theorem replies_replyError (n : Nat) (msg : PushMsg) (code : Int) :
    Replies n msg.sequence (ApiServerHandler.replyError n msg code) := by
  rw [ApiServerHandler.replyError.eq_def]
  split
  all_goals first | exact Or.inr ⟨_, rfl, rfl⟩ | exact Or.inl rfl

theorem replies_convertAndRoute {g : String} (h : s.pushClientMap g = none) :
    Replies n msg.sequence (ApiServerHandler.convertAndRoute s n msg g).2 := by
  simp only [ApiServerHandler.convertAndRoute, h]
  exact replies_replyError n msg 404

theorem replies_routeByBody {β : Type} (deviceId : β → String) (body : Option β)
    (h : (body.map deviceId).bind s.pushClientMap = none) :
    Replies n msg.sequence (ApiServerHandler.routeByBody deviceId body s n msg).2 := by
  cases body with
  | none => exact Or.inl rfl
  | some body => exact replies_convertAndRoute h

/-- What a message from an API client that is not handed on writes. -/
theorem apiRead_replies (imported : String → Bool) (h : s.routeTo n msg = none) :
    Replies n msg.sequence (s.step imported (.apiRead n msg)).2 := by
  rw [Server.step]
  split
  · exact Or.inl rfl
  · next hopen =>
    rw [ApiServerHandler.channelRead0]
    split
    · rw [ApiServerHandler.onWaitForLogin.eq_def]
      split
      · rw [ApiServerHandler.handleAdminClientLogin]
        split
        · exact Or.inl rfl
        · exact Or.inr ⟨_, rfl, rfl⟩
      · exact Or.inl rfl
    · next hstate =>
      have hin : s.ApiLoggedIn n := ⟨by simpa using hopen, hstate⟩
      rw [routeTo, if_pos hin, peerOf.eq_def] at h
      rw [ApiServerHandler.onLoggedIn.eq_def]
      cases ht : msg.type <;> simp only [ht] at h ⊢
      case getFgwList =>
        rw [ApiServerHandler.handleFgwListReq]
        split
        · exact Or.inl rfl
        · exact Or.inr ⟨_, rfl, rfl⟩
      case getDevList => exact replies_routeByBody _ _ h
      case getDevInfo => exact replies_routeByBody _ _ h
      case setDevInfo => exact replies_routeByBody _ _ h
      all_goals exact Or.inl rfl

/-- What a message from a gateway that is no answer writes: a reply that names no gateway. -/
theorem pushRead_replies (imported : String → Bool) (h : ¬ s.Answers n msg) :
    (s.step imported (.pushRead n msg)).2 = [] ∨
      ∃ m : PushMsg, (s.step imported (.pushRead n msg)).2 = [(.push n, m)] ∧ peerOf m = none := by
  rw [Server.step]
  split
  · exact Or.inl rfl
  · next hopen =>
    rw [PushServerHandler.channelRead0]
    split
    · rw [PushServerHandler.onWaitingForLogin.eq_def]
      split
      · split
        · exact Or.inr ⟨_, rfl, rfl⟩
        · exact Or.inl rfl
      · exact Or.inl rfl
    · next hstate =>
      rw [pushOnLoggedIn_eq, if_neg fun hans => h ⟨⟨by simpa using hopen, hstate⟩, hans⟩]
      exact Or.inl rfl

/-- An answer writes one message at most. -/
theorem handleRsp_writes (s : Server) (msg : PushMsg) :
    (PushServerHandler.handleRsp s msg).2 = [] ∨
      ∃ w, (PushServerHandler.handleRsp s msg).2 = [w] := by
  rw [PushServerHandler.handleRsp]
  split
  · exact Or.inl rfl
  · dsimp only
    split
    · exact Or.inl rfl
    · exact Or.inr ⟨_, rfl⟩

end Server

end Monsys.Push
