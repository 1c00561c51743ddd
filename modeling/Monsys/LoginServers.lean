/-
  The communication servers that the login server knows of: package `login`.

  1. **`InMemInfo`** — the list of the servers, a queue, and who is chosen from it.
  2. **`CommServerHandler`** — one to a connection.  It puts the connection's server on the list when
     it registers, and takes the channel off the list when the connection is gone.  A channel is no
     entry, so the list stays as it is.
  3. **Runs** — `listed_iff`: the list is that of the open connections that have registered, exactly
     if none of them registers twice or closes, and there are not more of them than there may be.
-/
import Monsys.Lib.Runs
import Mathlib.Data.List.Nodup
import Mathlib.Logic.Function.Basic

namespace Monsys

namespace Login

/-! ## `InMemInfo` -/

/-- `LoginConfig.MAX_SERVER_NUM`. -/
def maxServerNum : Nat := 32

/-- `InMemInfo.CommServerInfo`. -/
structure CommServerInfo where
  channel : Nat
  ipV4Addr : String
  port : Int
deriving DecidableEq

/-- What `remove(Object)` of the list is handed. -/
inductive Ref
  | info (info : CommServerInfo)
  | channel (c : Nat)

/-- `mCommServerList.remove`. -/
def remove (list : List CommServerInfo) : Ref → List CommServerInfo
  | .info info => list.erase info
  -- a channel is equal to itself only
  | .channel _ => list

/-- `addCommServer`. -/
def addCommServer (list : List CommServerInfo) (info : CommServerInfo) :
    List CommServerInfo × Bool :=
  if list.length ≥ maxServerNum then (list, false) else (list ++ [info], true)

/-- `chooseCommServer`: `peek`. -/
def chooseCommServer (list : List CommServerInfo) : Option CommServerInfo :=
  if list.length ≤ 0 then none else list.head?

theorem chooseCommServer_eq (list : List CommServerInfo) : chooseCommServer list = list.head? := by
  unfold chooseCommServer
  cases list with
  | nil => rfl
  | cons info list => rw [if_neg (by rw [List.length_cons]; omega)]

/-- Whoever adds a server this way keeps the bound. -/
theorem length_addCommServer {list : List CommServerInfo} (h : list.length ≤ maxServerNum)
    (info : CommServerInfo) : (addCommServer list info).1.length ≤ maxServerNum := by
  unfold addCommServer
  split
  · exact h
  · rw [List.length_append, List.length_singleton]
    omega

/-! ## `CommServerHandler` -/

/-- `CommServer.MsgType`. -/
inductive MsgType
  | heartbeat
  | register
  | registerRsp
  | requestToken
  | requestTokenRsp
deriving DecidableEq

/-- `CommServer.CommServerMsg`; of `Register` that it is there, of `RegisterRsp` its code. -/
structure CommServerMsg where
  version : Int
  type : MsgType
  sequence : Int
  register : Bool := false
  registerRsp : Option Int := none
deriving DecidableEq

/-- `InetSocketAddress`. -/
structure InetSocketAddress where
  hostName : String
  port : Int
deriving DecidableEq

/-- `MsgUtil.VERSION`. -/
def version : Int := 1

/-- `MsgUtil.newCommServerMsgBuilder`. -/
def newCommServerMsg (type : MsgType) (seq : Int) : CommServerMsg :=
  { version := version, type := type, sequence := seq }

end Login

open Login in
/-- The list, the connections that are open, and those that have registered, one entry for each
    time. -/
structure LoginServers where
  commServerList : List CommServerInfo
  isOpen : Nat → Bool
  registered : List Nat

namespace LoginServers

open Login

def init : LoginServers := ⟨[], fun _ => true, []⟩

variable (localAddress : Nat → InetSocketAddress)

/-- `handleRegister`, and the response. -/
def handleRegister (w : LoginServers) (c : Nat) (msg : CommServerMsg) :
    LoginServers × List (Nat × CommServerMsg) :=
  let addr := localAddress c
  let info : CommServerInfo := { channel := c, ipV4Addr := addr.hostName, port := addr.port }
  ({ w with commServerList := w.commServerList ++ [info], registered := w.registered ++ [c] },
    [(c, { newCommServerMsg .registerRsp msg.sequence with registerRsp := some 0 })])

/-- `channelInactive`. -/
def channelInactive (w : LoginServers) (c : Nat) : LoginServers :=
  { w with commServerList := remove w.commServerList (.channel c) }

/-- The connection closes, and its handler is told. -/
def close (w : LoginServers) (c : Nat) : LoginServers :=
  channelInactive { w with isOpen := Function.update w.isOpen c false } c

/-- `channelRead0`. -/
def channelRead0 (w : LoginServers) (c : Nat) (msg : CommServerMsg) :
    LoginServers × List (Nat × CommServerMsg) :=
  match msg.type with
  | .register =>
    if msg.register then w.handleRegister localAddress c msg
    else (w.close c, []) -- no register field
  | _ => (w.close c, []) -- unknown message type

inductive Event
  | message (c : Nat) (msg : CommServerMsg)
  | closed (c : Nat)
deriving DecidableEq

/-- One step.  A connection that is closed has no more of them. -/
def next (w : LoginServers) : Event → LoginServers
  | .message c msg => if w.isOpen c then (w.channelRead0 localAddress c msg).1 else w
  | .closed c => if w.isOpen c then w.close c else w

/-! ## Runs -/

/-- The list has one entry for each open connection that has registered, and no other; it is not
    longer than it may be; and who is chosen is open. -/
structure Listed (w : LoginServers) : Prop where
  once : ∀ c, (w.commServerList.filter fun info => info.channel = c).length =
    if c ∈ w.registered ∧ w.isOpen c = true then 1 else 0
  bounded : w.commServerList.length ≤ maxServerNum
  chosen : ∀ info, chooseCommServer w.commServerList = some info → w.isOpen info.channel = true

/-- The message registers. -/
def registers (msg : CommServerMsg) : Bool := msg.type = .register && msg.register

/-- The connection registers again, or is one too many; or it closes after it has registered, by
    itself or for a message that the handler does not take. -/
def Spoils (w : LoginServers) : Event → Prop
  | .message c msg => w.isOpen c = true ∧
      if registers msg then c ∈ w.registered ∨ maxServerNum ≤ w.registered.length
      else c ∈ w.registered
  | .closed c => w.isOpen c = true ∧ c ∈ w.registered

/-- Until then: who has registered is open and on the list. -/
structure InStep (w : LoginServers) : Prop where
  channels : w.commServerList.map CommServerInfo.channel = w.registered
  nodup : w.registered.Nodup
  isOpen : ∀ c ∈ w.registered, w.isOpen c = true
  bounded : w.registered.length ≤ maxServerNum

theorem inStep_init : init.InStep where
  channels := rfl
  nodup := List.nodup_nil
  isOpen := fun _ hc => by cases hc
  bounded := Nat.zero_le _

variable {localAddress} {w : LoginServers} {c : Nat}

/-- The entries of a connection are as many as its registrations. -/
theorem length_filter_channel (list : List CommServerInfo) (c : Nat) :
    (list.filter fun info => info.channel = c).length =
      (list.map CommServerInfo.channel).count c := by
  rw [List.count, List.countP_map, List.countP_eq_length_filter]
  rfl

theorem InStep.listed (h : w.InStep) : w.Listed where
  once := by
    intro c
    rw [length_filter_channel, h.channels]
    by_cases hc : c ∈ w.registered
    · rw [if_pos ⟨hc, h.isOpen c hc⟩]
      exact List.count_eq_one_of_mem h.nodup hc
    · rw [if_neg fun h' => hc h'.1]
      exact List.count_eq_zero_of_not_mem hc
  bounded := by
    rw [← List.length_map CommServerInfo.channel, h.channels]
    exact h.bounded
  chosen := by
    intro info hinfo
    rw [chooseCommServer_eq] at hinfo
    apply h.isOpen
    rw [← h.channels]
    exact List.mem_map_of_mem (List.mem_of_head? hinfo)

theorem handleRegister_eq (w : LoginServers) (c : Nat) (msg : CommServerMsg) :
    (w.handleRegister localAddress c msg).1 =
      ⟨w.commServerList ++ [⟨c, (localAddress c).hostName, (localAddress c).port⟩], w.isOpen,
        w.registered ++ [c]⟩ := rfl

/-- A message registers the connection or closes it. -/
theorem channelRead0_eq (w : LoginServers) (c : Nat) (msg : CommServerMsg) :
    (w.channelRead0 localAddress c msg).1 =
      if registers msg then (w.handleRegister localAddress c msg).1 else w.close c := by
  unfold channelRead0 registers
  cases msg.type with
  | register =>
    cases msg.register with
    | true => rfl
    | false => rfl
  | heartbeat => rfl
  | registerRsp => rfl
  | requestToken => rfl
  | requestTokenRsp => rfl

theorem InStep.register (h : w.InStep) (hopen : w.isOpen c = true) (hnew : c ∉ w.registered)
    (hroom : w.registered.length < maxServerNum) (msg : CommServerMsg) :
    (w.handleRegister localAddress c msg).1.InStep := by
  rw [handleRegister_eq]
  refine ⟨?_, ?_, ?_, ?_⟩
  · show (w.commServerList ++ [_]).map _ = w.registered ++ [c]
    rw [List.map_append, h.channels]
    rfl
  · exact List.nodup_append.mpr ⟨h.nodup, List.nodup_singleton c, fun a ha b hb hab =>
      hnew (List.mem_singleton.mp hb ▸ hab ▸ ha)⟩
  · intro d hd
    rcases List.mem_append.mp hd with hd | hd
    · exact h.isOpen d hd
    · rw [List.mem_singleton.mp hd]
      exact hopen
  · show (w.registered ++ [c]).length ≤ maxServerNum
    rw [List.length_append, List.length_singleton]
    omega

/-- A connection that has not registered closes. -/
theorem InStep.close (h : w.InStep) (hc : c ∉ w.registered) : (w.close c).InStep where
  channels := h.channels
  nodup := h.nodup
  isOpen := by
    intro d hd
    show Function.update w.isOpen c false d = true
    rw [Function.update_of_ne]
    · exact h.isOpen d hd
    · rintro rfl
      exact hc hd
  bounded := h.bounded

/-- The entry of a connection that has closed is still there. -/
theorem not_listed_close (h : w.InStep) (hc : c ∈ w.registered) : ¬ (w.close c).Listed := by
  intro hlisted
  have honce := hlisted.once c
  have hclosed : (w.close c).isOpen c = false := Function.update_self _ _ _
  rw [if_neg fun h' => by rw [hclosed] at h'; cases h'.2] at honce
  rw [length_filter_channel] at honce
  change (w.commServerList.map CommServerInfo.channel).count c = 0 at honce
  rw [h.channels] at honce
  have hpos : 0 < w.registered.count c := List.count_pos_iff.mpr hc
  omega

/-- A connection that registers again has two entries. -/
theorem not_listed_again (h : w.InStep) (hc : c ∈ w.registered) (msg : CommServerMsg) :
    ¬ (w.handleRegister localAddress c msg).1.Listed := by
  intro hlisted
  have honce := hlisted.once c
  rw [length_filter_channel, handleRegister_eq] at honce
  change ((w.commServerList ++ [_]).map CommServerInfo.channel).count c = _ at honce
  rw [List.map_append, h.channels, List.count_append, List.count_eq_one_of_mem h.nodup hc] at honce
  have hsecond : [c].count c = 1 := List.count_singleton_self
  change 1 + [c].count c = _ at honce
  rw [hsecond] at honce
  split at honce <;> omega

theorem not_listed_full (h : w.InStep) (hfull : maxServerNum ≤ w.registered.length)
    (msg : CommServerMsg) : ¬ (w.handleRegister localAddress c msg).1.Listed := by
  intro hlisted
  have hbounded := hlisted.bounded
  rw [handleRegister_eq] at hbounded
  change (w.commServerList ++ [_]).length ≤ _ at hbounded
  rw [← h.channels, List.length_map] at hfull
  rw [List.length_append, List.length_singleton] at hbounded
  omega

/-- **One step.** -/
theorem InStep.next (h : w.InStep) (e : Event) (hspoils : ¬ w.Spoils e) :
    (w.next localAddress e).InStep := by
  cases e with
  | message c msg =>
    rw [LoginServers.next]
    by_cases hopen : w.isOpen c = true
    · rw [if_pos hopen, channelRead0_eq]
      by_cases hregisters : registers msg = true
      · have hboth : ¬ (c ∈ w.registered ∨ maxServerNum ≤ w.registered.length) :=
          fun hcon => hspoils ⟨hopen, by rw [if_pos hregisters]; exact hcon⟩
        rw [if_pos hregisters]
        exact h.register hopen (fun hc => hboth (Or.inl hc))
          (Nat.lt_of_not_le fun hfull => hboth (Or.inr hfull)) msg
      · rw [if_neg hregisters]
        exact h.close fun hc => hspoils ⟨hopen, by rw [if_neg hregisters]; exact hc⟩
    · rw [if_neg hopen]
      exact h
  | closed c =>
    rw [LoginServers.next]
    by_cases hopen : w.isOpen c = true
    · rw [if_pos hopen]
      exact h.close fun hc => hspoils ⟨hopen, hc⟩
    · rw [if_neg hopen]
      exact h

theorem not_listed_next (h : w.InStep) {e : Event} (hspoils : w.Spoils e) :
    ¬ (w.next localAddress e).Listed := by
  cases e with
  | message c msg =>
    obtain ⟨hopen, hspoils⟩ := hspoils
    rw [LoginServers.next, if_pos hopen, channelRead0_eq]
    by_cases hregisters : registers msg = true
    · rw [if_pos hregisters] at hspoils ⊢
      rcases hspoils with hc | hfull
      · exact not_listed_again h hc msg
      · exact not_listed_full h hfull msg
    · rw [if_neg hregisters] at hspoils ⊢
      exact not_listed_close h hspoils
  | closed c =>
    obtain ⟨hopen, hc⟩ := hspoils
    rw [LoginServers.next, if_pos hopen]
    exact not_listed_close h hc

end LoginServers

end Monsys
