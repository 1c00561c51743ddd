/-
  What goes through the router: the `RelayHandler`s of `monsys/handler`, in the pipelines of the
  channels that `RouterAccessServerHandler` has joined.

  1. **Relays** — `Traffic`: the router with what has happened, what the relays have taken from the
     channels, and what has been written to them.
  2. **Whatever happens** — `Sound`: what is left of the order of `RouterPairing.lean` when channels
     leave while they wait, and are then joined with, as they are here.
  3. **Channels that are let in** — `meet_cases`: nobody is there, or who was there is gone, or the
     two are joined.
  4. **Runs** — `Fair`, and what it says of all that is written to a channel
     (`relayed_from_partner`).

  A relay hands nothing on, so that of several in a pipeline the first would take all messages.
-/
import Monsys.Lib.Runs
import Monsys.RouterPairing

namespace Monsys

namespace Router

/-! ## Relays -/

/-- What is written to a channel of the access port. -/
inductive Written
  | connectRsp (code : Int)
  | relayed (msg : RouteMsg)
deriving DecidableEq

/-- What a step of the handlers writes to a channel. -/
def responses (out : List Output) (d : Nat) : List Written :=
  out.filterMap fun
    | .connectRsp c code => if c = d then some (.connectRsp code) else none
    | _ => none

/-- `read` is what the relays have taken from a channel. -/
structure Traffic where
  router : Router
  trace : List Output
  read : Nat → List RouteMsg
  written : Nat → List Written

namespace Traffic

def init : Traffic := ⟨Router.init, [], fun _ => [], fun _ => []⟩

/-- `RelayHandler.channelRead`, once the other handler is out of the pipeline. -/
def channelRead (w : Traffic) (c : Nat) (msg : RouteMsg) : Traffic :=
  let x := w.router.channels c
  match x.isOpen, x.access, x.relays with
  | true, none, relayChannel :: _ =>
    { w with
      read := Function.update w.read c (w.read c ++ [msg])
      written :=
        if (w.router.channels relayChannel).isOpen then
          Function.update w.written relayChannel (w.written relayChannel ++ [.relayed msg])
        else w.written }
  | _, _, _ => w

/-- A message goes to the one handler or the other. -/
def next (w : Traffic) (e : Event) : Traffic :=
  let w :=
    match e with
    | .access c msg => w.channelRead c msg
    | _ => w
  let (router, out) := w.router.step e
  { w with
    router := router
    trace := w.trace ++ out
    written := fun d => w.written d ++ responses out d }

end Traffic

/-! ## Whatever happens -/

/-- The token that leads to a session. -/
def tokenOf (w : Router) (r : Nat) : Option String := w.sessions[r]?.map fun s => s.key

/-- Nobody stands in two slots, and a relay leads from one slot of a session to the other. -/
structure Sound (w : Router) : Prop where
  filed : w.manager.Filed (baseOf w.sessions)
  flag : ∀ (r : Nat) (s : RouteSession) (role : ClientType), w.sessions[r]? = some s →
    (s.slot role).connected = (s.slot role).channel.isSome
  sole : ∀ r role r' role' c, w.at? r role = some c → w.at? r' role' = some c →
    r = r' ∧ role = role'
  entered : ∀ r role c, w.at? r role = some c → (w.channels c).access ≠ some .waitForConnect
  relayed : ∀ c, (w.channels c).relays = [] ∨ ∃ d r role, (w.channels c).relays = [d] ∧
    (w.channels c).access = none ∧ w.at? r role = some c ∧ w.at? r role.other = some d
  gone : ∀ c, (w.channels c).access = none → (w.channels c).relays = [] →
    (w.channels c).isOpen = false

variable {w w' : Router}

theorem sound_init : Sound init where
  filed := fun key r h => by cases h
  flag := fun r s role h => by cases h
  sole := fun r role r' role' c h => by cases h
  entered := fun r role c h => by cases h
  relayed := fun c => Or.inl rfl
  gone := fun c h => by cases h

/-- Channels lose connections and handlers. -/
theorem Sound.channels (h : w.Sound) {f : Nat → Channel}
    (hchannel : ∀ c, (f c = { w.channels c with isOpen := (f c).isOpen } ∧
        ((w.channels c).isOpen = false → (f c).isOpen = false)) ∨
      (f c).access = none ∧ (f c).relays = [] ∧ (f c).isOpen = false) :
    Sound { w with channels := f } where
  filed := h.filed
  flag := h.flag
  sole := h.sole
  entered := by
    intro r role c hc
    show (f c).access ≠ some .waitForConnect
    rcases hchannel c with ⟨hsame, -⟩ | ⟨hnone, -, -⟩
    · rw [hsame]
      exact h.entered r role c hc
    · rw [hnone]
      exact fun hcon => by cases hcon
  relayed := by
    intro c
    rcases hchannel c with ⟨hsame, -⟩ | ⟨-, hrelays, -⟩
    · have hold := h.relayed c
      show (f c).relays = [] ∨ _
      rw [hsame]
      rcases hold with hold | ⟨d, r, role, hd, haccess, hc, hpeer⟩
      · exact Or.inl hold
      · refine Or.inr ⟨d, r, role, ?_, ?_, hc, hpeer⟩
        · show (f c).relays = [d]
          rw [hsame]
          exact hd
        · show (f c).access = none
          rw [hsame]
          exact haccess
    · exact Or.inl hrelays
  gone := by
    intro c haccess hrelays
    rcases hchannel c with ⟨hsame, hclosed⟩ | ⟨-, -, hclosed⟩
    · change (f c).access = none at haccess
      change (f c).relays = [] at hrelays
      rw [hsame] at haccess hrelays
      exact hclosed (h.gone c haccess hrelays)
    · exact hclosed

theorem Sound.close (h : w.Sound) (c : Nat) : (w.close c).Sound := by
  refine h.channels fun d => Or.inl ?_
  split
  · exact ⟨rfl, fun _ => rfl⟩
  · exact ⟨rfl, id⟩

theorem Sound.unregistered (h : w.Sound) (c : Nat) : (w.step (.unregistered c)).1.Sound := by
  rw [step]
  split
  · exact h
  · next hopen =>
    refine h.channels fun d => ?_
    by_cases hd : d = c
    · subst hd
      rw [Function.update_self]
      exact Or.inr ⟨rfl, rfl, Bool.eq_false_iff.mpr hopen⟩
    · rw [Function.update_of_ne hd]
      exact Or.inl ⟨rfl, id⟩

/-- Entries of the map are lost, and empty sessions come in. -/
theorem Sound.resession (h : w.Sound) (sessions : List RouteSession)
    (manager : SessionManager String) (hfiled : manager.Filed (baseOf sessions))
    (hflag : ∀ (r : Nat) (s : RouteSession) (role : ClientType), sessions[r]? = some s →
      (s.slot role).connected = (s.slot role).channel.isSome)
    (hat : ∀ r role, at? ⟨sessions, manager, w.channels⟩ r role = w.at? r role) :
    Sound ⟨sessions, manager, w.channels⟩ where
  filed := hfiled
  flag := hflag
  sole := by
    intro r role r' role' c hc hc'
    rw [hat] at hc hc'
    exact h.sole r role r' role' c hc hc'
  entered := by
    intro r role c hc
    rw [hat] at hc
    exact h.entered r role c hc
  relayed := by
    intro c
    rcases h.relayed c with hc | ⟨d, r, role, hd, haccess, hc, hpeer⟩
    · exact Or.inl hc
    · exact Or.inr ⟨d, r, role, hd, haccess, (hat r role).trans hc, (hat r role.other).trans hpeer⟩
  gone := h.gone

theorem Sound.checkTimeout (h : w.Sound) (current : Int) :
    (w.step (.checkTimeout current)).1.Sound := by
  refine h.resession _ _ ?_ h.flag fun _ _ => rfl
  intro key r hr
  rw [SessionManager.find_checkTimeout h.filed] at hr
  exact h.filed key r (Option.eq_some_of_filter_eq_some hr)

theorem Sound.allocateRead (h : w.Sound) (msg : RouteMsg) (now : Int) :
    (w.allocateRead msg now).Sound := by
  unfold Router.allocateRead Router.processTokenRequest
  split
  · cases msg.reqToken with
    | none => exact h
    | some token =>
      refine h.resession _ _ ?_ ?_ fun r role => at?_append w.sessions token now r role
      · intro key r hr
        rw [SessionManager.find_add] at hr
        split at hr
        · next hkey =>
          obtain rfl := Option.some.inj hr
          refine ⟨⟨token, now⟩, ?_, hkey.symm⟩
          rw [baseOf, List.getElem?_concat_length]
          rfl
        · obtain ⟨b, hb, hkey⟩ := h.filed key r hr
          obtain ⟨s, hs, rfl⟩ := Option.map_eq_some_iff.mp hb
          refine ⟨s.toBaseSession, ?_, hkey⟩
          rw [baseOf, List.getElem?_append_left (List.getElem?_eq_some_iff.mp hs).1, hs]
          rfl
      · intro r s role hs
        rcases List.mem_append.mp (List.mem_of_getElem? hs) with hmem | hmem
        · obtain ⟨q, hq⟩ := List.mem_iff_getElem?.mp hmem
          exact h.flag q s role hq
        · rw [List.mem_singleton.mp hmem]
          cases role <;> rfl
  · exact h

/-! ## Channels that are let in -/

/-- A channel that can be let in stands nowhere, and the slot is free. -/
theorem Sound.at_none (h : w.Sound) {r : Nat} {s : RouteSession} {role : ClientType} {c : Nat}
    (he : w.Enters r s role c) : w.at? r role = none ∧ ∀ q role', w.at? q role' ≠ some c := by
  have hflag := h.flag r s role he.session
  rw [he.free] at hflag
  refine ⟨?_, fun q role' hat => h.entered q role' c hat he.access⟩
  rw [at?, he.session, Option.bind_some]
  exact Option.not_isSome_iff_eq_none.mp (by rw [← hflag]; decide)

/-- The channel waits in its slot. -/
theorem Sound.wait (h : w.Sound) {r : Nat} {s : RouteSession} {role : ClientType} {c : Nat}
    (he : w.Enters r s role c) : (w.wait c role r s).Sound := by
  have hat : ∀ q role', (w.wait c role r s).at? q role' =
      if q = r ∧ role' = role then some c else w.at? q role' :=
    fun q role' => at?_set he.session rfl q role'
  obtain ⟨hnone, hnot⟩ := h.at_none he
  have hlt : r < w.sessions.length := (List.getElem?_eq_some_iff.mp he.session).1
  -- who stood in a slot stands there
  have hkept : ∀ q role' d, w.at? q role' = some d → (w.wait c role r s).at? q role' = some d := by
    intro q role' d hd
    rw [hat, if_neg]
    · exact hd
    · rintro ⟨rfl, rfl⟩
      rw [hnone] at hd
      cases hd
  have hself : (w.wait c role r s).channels c =
      { w.channels c with access := some .waitForPeer } := Function.update_self _ _ _
  have hother : ∀ d, d ≠ c → (w.wait c role r s).channels d = w.channels d :=
    fun d hd => Function.update_of_ne hd _ _
  refine ⟨?_, ?_, ?_, ?_, ?_, ?_⟩
  · intro key q hq
    obtain ⟨b, hb, hkey⟩ := h.filed key q hq
    refine ⟨b, ?_, hkey⟩
    show (w.sessions.set r (s.withSlot role ⟨true, some c⟩))[q]?.map _ = some b
    by_cases hqr : q = r
    · subst hqr
      rw [baseOf, he.session] at hb
      rw [List.getElem?_set_self hlt, Option.map_some, RouteSession.withSlot_base]
      exact hb
    · rw [List.getElem?_set_ne (Ne.symm hqr)]
      exact hb
  · intro q s' role' hs'
    change (w.sessions.set r (s.withSlot role ⟨true, some c⟩))[q]? = some s' at hs'
    by_cases hqr : q = r
    · subst hqr
      rw [List.getElem?_set_self hlt] at hs'
      obtain rfl := Option.some.inj hs'
      rcases ClientType.eq_or_other role role' with rfl | rfl
      · rw [RouteSession.slot_withSlot]
        rfl
      · rw [RouteSession.slot_withSlot_other]
        exact h.flag q s role.other he.session
    · rw [List.getElem?_set_ne (Ne.symm hqr)] at hs'
      exact h.flag q s' role' hs'
  · intro q role₁ q' role₂ d hd hd'
    rw [hat] at hd hd'
    split at hd
    · next h₁ =>
      obtain rfl := Option.some.inj hd
      split at hd'
      · next h₂ => exact ⟨h₁.1.trans h₂.1.symm, h₁.2.trans h₂.2.symm⟩
      · exact absurd hd' (hnot q' role₂)
    · split at hd'
      · obtain rfl := Option.some.inj hd'
        exact absurd hd (hnot q role₁)
      · exact h.sole q role₁ q' role₂ d hd hd'
  · intro q role' d hd
    by_cases hdc : d = c
    · subst hdc
      rw [hself]
      exact fun hcon => by cases hcon
    · rw [hother d hdc]
      rw [hat] at hd
      split at hd
      · exact absurd (Option.some.inj hd).symm hdc
      · exact h.entered q role' d hd
  · intro d
    by_cases hdc : d = c
    · subst hdc
      rw [hself]
      refine Or.inl ?_
      rcases h.relayed d with hd | ⟨e, q, role', -, haccess, -⟩
      · exact hd
      · rw [he.access] at haccess
        cases haccess
    · rw [hother d hdc]
      rcases h.relayed d with hd | ⟨e, q, role', hd, haccess, hd', he'⟩
      · exact Or.inl hd
      · exact Or.inr ⟨e, q, role', hd, haccess, hkept q role' d hd', hkept q role'.other e he'⟩
  · intro d haccess hrelays
    by_cases hdc : d = c
    · subst hdc
      rw [hself] at haccess
      cases haccess
    · rw [hother d hdc] at haccess hrelays ⊢
      exact h.gone d haccess hrelays

/-- A relay is put into a pipeline, to the channel in the other slot. -/
theorem Sound.putRelay (h : w.Sound) {r c d : Nat} (role : ClientType)
    (hc : w.at? r role = some c) (hd : w.at? r role.other = some d) (hput : w.putRelay c d = some w') : w'.Sound := by
  unfold Router.putRelay at hput
  cases haccess : (w.channels c).access with
  | none =>
    rw [haccess] at hput
    cases hput
  | some state =>
    rw [haccess] at hput
    obtain rfl := Option.some.inj hput
    -- the handler was there, so that no relay was
    have hnone : (w.channels c).relays = [] := by
      rcases h.relayed c with hc' | ⟨e, q, role', -, hgone, -⟩
      · exact hc'
      · rw [haccess] at hgone
        cases hgone
    have hself : (w.setChannel c { w.channels c with
        access := none, relays := (w.channels c).relays ++ [d] }).channels c =
        { w.channels c with access := none, relays := [d] } := by
      rw [hnone]
      exact Function.update_self _ _ _
    have hother : ∀ e, e ≠ c → (w.setChannel c { w.channels c with
        access := none, relays := (w.channels c).relays ++ [d] }).channels e = w.channels e :=
      fun e he => Function.update_of_ne he _ _
    refine ⟨h.filed, h.flag, h.sole, ?_, ?_, ?_⟩
    · intro q role' e he
      by_cases hec : e = c
      · subst hec
        rw [hself]
        exact fun hcon => by cases hcon
      · rw [hother e hec]
        exact h.entered q role' e he
    · intro e
      by_cases hec : e = c
      · subst hec
        rw [hself]
        exact Or.inr ⟨d, r, role, rfl, rfl, hc, hd⟩
      · rw [hother e hec]
        exact h.relayed e
    · intro e haccess' hrelays
      by_cases hec : e = c
      · subst hec
        rw [hself] at hrelays
        cases hrelays
      · rw [hother e hec] at haccess' hrelays ⊢
        exact h.gone e haccess' hrelays

/-- What is done when two channels meet that both have their handlers. -/
def meeting (w : Router) (r client fgw : Nat) : List Output :=
  [.paired r client fgw, .relay client fgw, .relay fgw client] ++
    w.sendConnectRsp client success ++ w.sendConnectRsp fgw success

theorem sendConnectRsp_congr {c : Nat} (h : (w'.channels c).isOpen = (w.channels c).isOpen)
    (code : Int) : w'.sendConnectRsp c code = w.sendConnectRsp c code := by
  rw [sendConnectRsp, sendConnectRsp, h]

theorem pair_joined {client fgw : Nat} (hne : client ≠ fgw)
    (hc : (w.channels client).access ≠ none) (hf : (w.channels fgw).access ≠ none) (r : Nat)
    (s : RouteSession) :
    w.pair r s client fgw =
      (⟨w.sessions, w.manager.remove s.key, joined w.channels client fgw⟩,
        w.meeting r client fgw) := by
  have hfgw : (Function.update w.channels client { w.channels client with
      access := none, relays := (w.channels client).relays ++ [fgw] }) fgw = w.channels fgw :=
    Function.update_of_ne hne.symm _ _
  have hsecond := putRelay_eq (w := w.setChannel client { w.channels client with
    access := none, relays := (w.channels client).relays ++ [fgw] }) (c := fgw)
    (by show (Function.update w.channels client _ fgw).access ≠ none; rw [hfgw]; exact hf) client
  unfold pair meeting
  rw [putRelay_eq hc]
  simp only
  rw [hsecond]
  simp only [setChannel, hfgw]
  rw [sendConnectRsp_congr (w := w) (c := client) (by
      show (joined w.channels client fgw client).isOpen = _
      rw [joined_left _ hne]),
    sendConnectRsp_congr (w := w) (c := fgw) (by
      show (joined w.channels client fgw fgw).isOpen = _
      rw [joined_right])]
  rfl

/-- The handler of the gateway's channel is gone: a relay leads there, and that is all. -/
theorem pair_half {client fgw : Nat} (hc : (w.channels client).access ≠ none) (hne : client ≠ fgw)
    (hf : (w.channels fgw).access = none) (r : Nat) (s : RouteSession) :
    ∃ w', w.putRelay client fgw = some w' ∧ w.pair r s client fgw = (w', [.relay client fgw]) := by
  refine ⟨_, putRelay_eq hc fgw, ?_⟩
  have hsecond : (w.setChannel client { w.channels client with
      access := none, relays := (w.channels client).relays ++ [fgw] }).putRelay fgw client =
      none := by
    unfold putRelay
    rw [show ((w.setChannel client _).channels fgw).access = none from
      (congrArg Channel.access (Function.update_of_ne hne.symm _ _)).trans hf]
  unfold pair
  rw [putRelay_eq hc]
  simp only [hsecond]

theorem pair_none {client : Nat} (hc : (w.channels client).access = none) (r : Nat)
    (s : RouteSession) (fgw : Nat) : w.pair r s client fgw = (w, []) := by
  have hput : w.putRelay client fgw = none := by
    unfold putRelay
    rw [hc]
  rw [pair, hput]

/-- `meet`, by the peer's slot. -/
theorem meet_at (h : w.Sound) {r : Nat} {s : RouteSession} {role : ClientType} {c : Nat}
    (he : w.Enters r s role c) (token : String) :
    w.meet c ⟨role, token⟩ r (s.withSlot role ⟨true, some c⟩) =
      match w.at? r role.other with
      | none => (w.wait c role r s, [.accepted c role token r])
      | some d =>
        let (w', out) := (w.wait c role r s).pair r (s.withSlot role ⟨true, some c⟩)
          (role.clientOf c d) (role.clientOf d c)
        (w', .accepted c role token r :: out) := by
  have hat : w.at? r role.other = (s.slot role.other).channel := by
    rw [at?, he.session, Option.bind_some]
  have hflag := h.flag r s role.other he.session
  rw [hat]
  cases hpeer : (s.slot role.other).channel with
  | none =>
    rw [hpeer] at hflag
    cases role with
    | client =>
      change s.fgw.connected = false at hflag
      simp only [meet, RouteSession.withSlot, hflag]
      rfl
    | fgw =>
      change s.client.connected = false at hflag
      simp only [meet, RouteSession.withSlot, hflag]
      rfl
  | some d =>
    rw [hpeer] at hflag
    cases role with
    | client =>
      change s.fgw.connected = true at hflag
      change s.fgw.channel = some d at hpeer
      simp only [meet, RouteSession.withSlot, hflag, hpeer]
      rfl
    | fgw =>
      change s.client.connected = true at hflag
      change s.client.channel = some d at hpeer
      simp only [meet, RouteSession.withSlot, hflag, hpeer]
      rfl

/-- **What becomes of a channel that is let in**: nobody is there and it waits; or who was there has
    gone, and nothing is written to anybody; or the two are joined, and those told that are open. -/
theorem meet_cases (h : w.Sound) {r : Nat} {s : RouteSession} {role : ClientType} {c : Nat}
    (he : w.Enters r s role c) (token : String) :
    (w.at? r role.other = none ∧
      w.meet c ⟨role, token⟩ r (s.withSlot role ⟨true, some c⟩) =
        (w.wait c role r s, [.accepted c role token r])) ∨
    (∃ d w' out, w.at? r role.other = some d ∧ d ≠ c ∧ (w.channels d).isOpen = false ∧
      w.meet c ⟨role, token⟩ r (s.withSlot role ⟨true, some c⟩) =
        (w', .accepted c role token r :: out) ∧
      (w' = w.wait c role r s ∧ out = [] ∨
        (w.wait c role r s).putRelay c d = some w' ∧ out = [.relay c d])) ∨
    ∃ d, w.at? r role.other = some d ∧ d ≠ c ∧ (w.channels d).access ≠ none ∧
      w.meet c ⟨role, token⟩ r (s.withSlot role ⟨true, some c⟩) =
        (w.join c role r s d, .accepted c role token r ::
          w.meeting r (role.clientOf c d) (role.clientOf d c)) := by
  obtain ⟨hnone, hnot⟩ := h.at_none he
  rw [meet_at h he]
  cases hpeer : w.at? r role.other with
  | none => exact Or.inl ⟨rfl, rfl⟩
  | some d =>
    have hdc : d ≠ c := fun hcon => hnot r role.other (hcon ▸ hpeer)
    have hself : (w.wait c role r s).channels c =
        { w.channels c with access := some .waitForPeer } := Function.update_self _ _ _
    have hd : (w.wait c role r s).channels d = w.channels d := Function.update_of_ne hdc _ _
    have hc : ((w.wait c role r s).channels c).access ≠ none := by
      rw [hself]
      exact fun hcon => by cases hcon
    refine Or.inr ?_
    by_cases haccess : (w.channels d).access = none
    · refine Or.inl ?_
      -- the peer has no relay: the slot was free until now
      have hrelays : (w.channels d).relays = [] := by
        rcases h.relayed d with hold | ⟨e, q, role', -, -, hat, hat'⟩
        · exact hold
        · obtain ⟨rfl, rfl⟩ := h.sole r role.other q role' d hpeer hat
          rw [ClientType.other_other, hnone] at hat'
          cases hat'
      have hclosed := h.gone d haccess hrelays
      have hgone : ((w.wait c role r s).channels d).access = none := by rw [hd]; exact haccess
      cases role with
      | client =>
        obtain ⟨w', hput, hpair⟩ := pair_half (s := s.withSlot .client ⟨true, some c⟩) hc hdc.symm
          hgone r
        exact ⟨d, w', [.relay c d], rfl, hdc, hclosed, by simp only [ClientType.clientOf, hpair],
          Or.inr ⟨hput, rfl⟩⟩
      | fgw =>
        exact ⟨d, _, [], rfl, hdc, hclosed, by simp only [ClientType.clientOf, pair_none hgone],
          Or.inl ⟨rfl, rfl⟩⟩
    · refine Or.inr ⟨d, rfl, hdc, haccess, ?_⟩
      have hthere : ((w.wait c role r s).channels d).access ≠ none := by rw [hd]; exact haccess
      have hrsp : ∀ e, (w.wait c role r s).sendConnectRsp e success =
          w.sendConnectRsp e success := by
        intro e
        refine sendConnectRsp_congr ?_ success
        by_cases hec : e = c
        · subst hec
          rw [hself]
        · exact congrArg Channel.isOpen (Function.update_of_ne hec _ _)
      have hmeeting : ∀ a b, (w.wait c role r s).meeting r a b = w.meeting r a b := by
        intro a b
        rw [meeting, meeting, hrsp, hrsp]
      cases role with
      | client =>
        simp only [ClientType.clientOf]
        rw [pair_joined hdc.symm hc hthere, hmeeting]
        simp only [Router.join, Router.wait]
        rw [joined_setAccess _ hdc.symm]
        rfl
      | fgw =>
        simp only [ClientType.clientOf]
        rw [pair_joined hdc hthere hc, hmeeting]
        simp only [Router.join, Router.wait]
        rw [joined_comm _ hdc, joined_setAccess _ hdc.symm]
        rfl

/-- Both are joined, as two relays that are put into the pipelines. -/
theorem Sound.join (h : w.Sound) {r : Nat} {s : RouteSession} {role : ClientType} {c d : Nat}
    (he : w.Enters r s role c) (hd : w.at? r role.other = some d) (hdc : d ≠ c)
    (haccess : (w.channels d).access ≠ none) : (w.join c role r s d).Sound := by
  have hwait := h.wait he
  have hat : ∀ q role', (w.wait c role r s).at? q role' =
      if q = r ∧ role' = role then some c else w.at? q role' :=
    fun q role' => at?_set he.session rfl q role'
  have hatc : (w.wait c role r s).at? r role = some c := by rw [hat, if_pos ⟨rfl, rfl⟩]
  have hatd : (w.wait c role r s).at? r role.other = some d := by
    rw [hat, if_neg fun hcon => ClientType.other_ne role hcon.2]
    exact hd
  have hself : (w.wait c role r s).channels c =
      { w.channels c with access := some .waitForPeer } := Function.update_self _ _ _
  have hone := hwait.putRelay role hatc hatd (putRelay_eq (by
    rw [hself]
    exact fun hcon => by cases hcon) d)
  have htwo := hone.putRelay (c := d) (d := c) (r := r) role.other hatd (by
    rw [ClientType.other_other]
    exact hatc) (putRelay_eq (by
    show (Function.update (w.wait c role r s).channels c _ d).access ≠ none
    rw [Function.update_of_ne hdc]
    show (Function.update w.channels c _ d).access ≠ none
    rw [Function.update_of_ne hdc]
    exact haccess) c)
  have hchannels : joined w.channels c d = joined (w.wait c role r s).channels c d :=
    (joined_setAccess w.channels hdc.symm (some .waitForPeer)).symm
  have hsame := htwo.resession (w.sessions.set r (s.withSlot role ⟨true, some c⟩))
    (w.manager.remove s.key) ?_ hwait.flag fun _ _ => rfl
  · unfold Router.join
    rw [hchannels]
    convert hsame using 2
    unfold joined
    simp only [setChannel]
    rw [Function.update_of_ne hdc]
  · intro key q hq
    rw [SessionManager.find_remove] at hq
    split at hq
    · cases hq
    · exact hwait.filed key q hq

/-- What a message on a channel of the access port can do. -/
theorem Sound.accessRead (h : w.Sound) (c : Nat) (msg : RouteMsg) :
    w.accessRead c msg = (w, []) ∨ w.accessRead c msg = (w.close c, []) ∨
    ∃ r s role, w.Enters r s role c ∧
      w.accessRead c msg = w.meet c ⟨role, s.key⟩ r (s.withSlot role ⟨true, some c⟩) := by
  unfold Router.accessRead
  split
  · next hopen haccess =>
    split
    · unfold processConnectRequest
      cases msg.connect with
      | none => exact Or.inl rfl
      | some connect =>
        cases hfind : w.manager.find connect.token with
        | none => exact Or.inl (by simp only [hfind])
        | some r =>
          obtain ⟨b, hb, hkey⟩ := h.filed connect.token r hfind
          obtain ⟨s, hs, rfl⟩ := Option.map_eq_some_iff.mp hb
          simp only [hfind, hs]
          split
          · exact Or.inr (Or.inl rfl)
          · next hfree =>
            have he : w.Enters r s connect.clientType c :=
              ⟨⟨_, hfind⟩, hs, Bool.eq_false_iff.mpr hfree, hopen, haccess⟩
            refine Or.inr (Or.inr ⟨r, s, connect.clientType, he, ?_⟩)
            rw [hkey]
    · exact Or.inr (Or.inl rfl)
  · exact Or.inl rfl

theorem responses_sendConnectRsp (w : Router) (c d : Nat) (code : Int) :
    responses (w.sendConnectRsp c code) d =
      if c = d ∧ (w.channels c).isOpen then [.connectRsp code] else [] := by
  unfold sendConnectRsp responses
  by_cases hopen : (w.channels c).isOpen = true
  · rw [if_pos hopen]
    by_cases hcd : c = d
    · subst hcd
      simp [hopen]
    · simp [hcd]
  · rw [if_neg hopen, if_neg fun h => hopen h.2]
    rfl

theorem responses_meeting (w : Router) (r : Nat) {client fgw : Nat} (hne : client ≠ fgw) (d : Nat) :
    responses (w.meeting r client fgw) d =
      if (client = d ∨ fgw = d) ∧ (w.channels d).isOpen then [.connectRsp success] else [] := by
  have happend : ∀ xs ys, responses (xs ++ ys) d = responses xs d ++ responses ys d :=
    fun xs ys => List.filterMap_append
  rw [meeting, happend, happend, responses_sendConnectRsp, responses_sendConnectRsp]
  show [] ++ _ ++ _ = _
  by_cases hc : client = d
  · subst hc
    simp [hne.symm]
  · by_cases hf : fgw = d
    · subst hf
      simp [hc]
    · simp [hc, hf]

/-! ## Runs -/

namespace Traffic

/-- What is written to a channel is told by who stands in the other slot of its session. -/
structure Fair (w : Traffic) : Prop where
  sound : w.router.Sound
  accepted : ∀ c role token r, .accepted c role token r ∈ w.trace ↔
    w.router.at? r role = some c ∧ w.router.tokenOf r = some token
  fresh : ∀ c, (w.router.channels c).access ≠ none → w.read c = [] ∧ w.written c = []
  greeted : ∀ c d, (w.router.channels c).relays = [d] → (w.router.channels d).isOpen = true →
    w.written d ≠ []
  told : ∀ d, w.written d = [] ∨ ∃ r role c msgs, w.router.at? r role = some d ∧
    w.router.at? r role.other = some c ∧
    w.written d = .connectRsp success :: msgs.map .relayed ∧ msgs <+: w.read c ∧
    ((w.router.channels d).isOpen = true → msgs = w.read c)

theorem fair_init : Fair init where
  sound := sound_init
  accepted := by
    intro c role token r
    constructor
    · intro h; cases h
    · rintro ⟨h, -⟩; cases h
  fresh := fun c _ => ⟨rfl, rfl⟩
  greeted := fun c d h => by cases h
  told := fun d => Or.inl rfl

variable {w : Traffic}

/-- The channels stay, or lose connections and handlers, and nobody is let in. -/
theorem Fair.quiet (h : w.Fair) {router : Router} (hsound : router.Sound)
    (hat : ∀ r role, router.at? r role = w.router.at? r role)
    (hkey : ∀ r role c, w.router.at? r role = some c →
      router.tokenOf r = w.router.tokenOf r)
    (haccess : ∀ c, (router.channels c).access ≠ none → (w.router.channels c).access ≠ none)
    (hrelays : ∀ c d, (router.channels c).relays = [d] → (w.router.channels c).relays = [d])
    (hopen : ∀ c, (router.channels c).isOpen = true → (w.router.channels c).isOpen = true) :
    Fair { w with router := router } where
  sound := hsound
  accepted := by
    intro c role token r
    rw [h.accepted c role token r]
    show _ ↔ router.at? r role = some c ∧ router.tokenOf r = some token
    rw [hat]
    constructor
    · rintro ⟨hc, htoken⟩
      exact ⟨hc, (hkey r role c hc).trans htoken⟩
    · rintro ⟨hc, htoken⟩
      exact ⟨hc, (hkey r role c hc).symm.trans htoken⟩
  fresh := fun c hc => h.fresh c (haccess c hc)
  greeted := fun c d hd hdopen => h.greeted c d (hrelays c d hd) (hopen d hdopen)
  told := by
    intro d
    rcases h.told d with hd | ⟨r, role, c, msgs, hd, hc, hwritten, hread, hall⟩
    · exact Or.inl hd
    · exact Or.inr ⟨r, role, c, msgs, (hat r role).trans hd, (hat r role.other).trans hc, hwritten,
        hread, fun hdopen => hall (hopen d hdopen)⟩

theorem Fair.close (h : w.Fair) (c : Nat) : Fair { w with router := w.router.close c } := by
  have hchannel : ∀ d, ((w.router.close c).channels d).access = (w.router.channels d).access ∧
      ((w.router.close c).channels d).relays = (w.router.channels d).relays ∧
      (((w.router.close c).channels d).isOpen = true → (w.router.channels d).isOpen = true) := by
    intro d
    unfold Router.close
    simp only
    split
    · exact ⟨rfl, rfl, fun hcon => by cases hcon⟩
    · exact ⟨rfl, rfl, id⟩
  exact h.quiet (h.sound.close c) (fun _ _ => rfl) (fun _ _ _ _ => rfl)
    (fun d hd => (hchannel d).1 ▸ hd) (fun d _ hd => (hchannel d).2.1 ▸ hd)
    fun d => (hchannel d).2.2

/-- A relay takes a message. -/
theorem Fair.channelRead (h : w.Fair) (c : Nat) (msg : RouteMsg) : (w.channelRead c msg).Fair := by
  unfold Traffic.channelRead
  simp only
  split
  · next peer rest hopen haccess hrelays =>
    obtain ⟨d, r, role, hd, -, hatc, hatd⟩ := (h.sound.relayed c).resolve_left (by
      rw [hrelays]
      exact fun hcon => by cases hcon)
    rw [hrelays] at hd
    obtain ⟨rfl, rfl⟩ := List.cons.inj hd
    -- only the peer has this channel for its partner
    have honly : ∀ (x q : Nat) (role' : ClientType), w.router.at? q role' = some x →
        w.router.at? q role'.other = some c → x = peer := by
      intro x q role' hx hc
      obtain ⟨rfl, rfl⟩ := h.sound.sole q role'.other r role c hc hatc
      rw [ClientType.other_other, hx] at hatd
      exact Option.some.inj hatd
    by_cases hpeer : (w.router.channels peer).isOpen = true
    · rw [if_pos hpeer]
      have hgreeted := h.greeted c peer hrelays hpeer
      refine ⟨h.sound, h.accepted, ?_, ?_, ?_⟩
      · intro x hx
        have hxc : x ≠ c := fun hcon => hx (hcon ▸ haccess)
        have hxpeer : x ≠ peer := fun hcon => hgreeted (hcon ▸ (h.fresh x hx).2)
        show Function.update w.read c _ x = [] ∧ Function.update w.written peer _ x = []
        rw [Function.update_of_ne hxc, Function.update_of_ne hxpeer]
        exact h.fresh x hx
      · intro x y hy hyopen
        show Function.update w.written peer _ y ≠ []
        by_cases hyp : y = peer
        · subst hyp
          rw [Function.update_self]
          exact List.append_ne_nil_of_right_ne_nil _ (List.cons_ne_nil _ _)
        · rw [Function.update_of_ne hyp]
          exact h.greeted x y hy hyopen
      · intro x
        show Function.update w.written peer _ x = [] ∨ ∃ r role c' msgs, _ ∧ _ ∧
          Function.update w.written peer _ x = _ ∧ msgs <+: Function.update w.read c _ c' ∧
          (_ → msgs = Function.update w.read c _ c')
        by_cases hxp : x = peer
        · subst hxp
          obtain ⟨q, role', c', msgs, hx, hc', hwritten, -, hall⟩ :=
            (h.told x).resolve_left hgreeted
          obtain ⟨rfl, rfl⟩ := h.sound.sole q role' r role.other x hx hatd
          rw [ClientType.other_other, hatc] at hc'
          obtain rfl := Option.some.inj hc'
          refine Or.inr ⟨q, role.other, c, msgs ++ [msg], hx, ?_, ?_, ?_, fun _ => ?_⟩
          · rw [ClientType.other_other]
            exact hatc
          · rw [Function.update_self, hwritten, List.map_append]
            rfl
          · rw [Function.update_self]
            exact hall hpeer ▸ List.prefix_rfl
          · rw [Function.update_self, hall hpeer]
        · rw [Function.update_of_ne hxp]
          rcases h.told x with hx | ⟨q, role', c', msgs, hx, hc', htold⟩
          · exact Or.inl hx
          · have hc : c' ≠ c := fun hcon => hxp (honly x q role' hx (hcon ▸ hc'))
            refine Or.inr ⟨q, role', c', msgs, hx, hc', ?_⟩
            rw [Function.update_of_ne hc]
            exact htold
    · rw [if_neg hpeer]
      refine ⟨h.sound, h.accepted, ?_, h.greeted, ?_⟩
      · intro x hx
        have hxc : x ≠ c := fun hcon => hx (hcon ▸ haccess)
        show Function.update w.read c _ x = [] ∧ w.written x = []
        rw [Function.update_of_ne hxc]
        exact h.fresh x hx
      · intro x
        show w.written x = [] ∨ ∃ r role c' msgs, _ ∧ _ ∧ w.written x = _ ∧
          msgs <+: Function.update w.read c _ c' ∧ (_ → msgs = Function.update w.read c _ c')
        rcases h.told x with hx | ⟨q, role', c', msgs, hx, hc', hwritten, hread, hall⟩
        · exact Or.inl hx
        · refine Or.inr ⟨q, role', c', msgs, hx, hc', hwritten, ?_, ?_⟩
          · by_cases hcc : c' = c
            · subst hcc
              rw [Function.update_self]
              exact hread.trans (List.prefix_append _ _)
            · rw [Function.update_of_ne hcc]
              exact hread
          · intro hxopen
            by_cases hcc : c' = c
            · subst hcc
              -- it is the peer, which is closed
              obtain rfl := honly x q role' hx hc'
              exact absurd hxopen hpeer
            · rw [Function.update_of_ne hcc]
              exact hall hxopen
  · exact h

/-- A channel is let in: who is greeted then has had his handler until now, as has his partner. -/
structure Greets (w : Traffic) (r : Nat) (s : RouteSession) (role : ClientType) (c : Nat)
    (router : Router) (out : List Output) : Prop where
  enters : w.router.Enters r s role c
  sound : router.Sound
  sessions : router.sessions = w.router.sessions.set r (s.withSlot role ⟨true, some c⟩)
  isOpen : ∀ d, (router.channels d).isOpen = (w.router.channels d).isOpen
  accepted : ∀ c' role' token r', .accepted c' role' token r' ∈ out ↔
    c' = c ∧ role' = role ∧ token = s.key ∧ r' = r
  access : ∀ d, (router.channels d).access ≠ none →
    (w.router.channels d).access ≠ none ∧ responses out d = []
  relays : ∀ d e, (router.channels d).relays = [e] → (router.channels e).isOpen = true →
    (w.router.channels d).relays = [e] ∨ responses out e ≠ []
  greeted : ∀ d, responses out d = [] ∨ responses out d = [.connectRsp success] ∧
    (w.router.channels d).access ≠ none ∧ ∃ role' e, router.at? r role' = some d ∧
      router.at? r role'.other = some e ∧ (w.router.channels e).access ≠ none

theorem Fair.letIn (h : w.Fair) {r c : Nat} {s : RouteSession} {role : ClientType} {router : Router}
    {out : List Output} (hg : w.Greets r s role c router out) :
    Fair ⟨router, w.trace ++ out, w.read, fun d => w.written d ++ responses out d⟩ := by
  have hat : ∀ q role', router.at? q role' =
      if q = r ∧ role' = role then some c else w.router.at? q role' :=
    fun q role' => at?_set hg.enters.session hg.sessions q role'
  obtain ⟨hnone, hnot⟩ := h.sound.at_none hg.enters
  have hlt : r < w.router.sessions.length := (List.getElem?_eq_some_iff.mp hg.enters.session).1
  have hkept : ∀ {q role' d}, w.router.at? q role' = some d → router.at? q role' = some d := by
    intro q role' d hd
    rw [hat, if_neg]
    · exact hd
    · rintro ⟨rfl, rfl⟩
      rw [hnone] at hd
      cases hd
  -- sessions keep their keys
  have hkey : ∀ q, router.tokenOf q = w.router.tokenOf q := by
    intro q
    rw [tokenOf, tokenOf, hg.sessions]
    by_cases hqr : q = r
    · subst hqr
      rw [List.getElem?_set_self hlt, hg.enters.session, Option.map_some, Option.map_some]
      exact congrArg (fun b : BaseSession String => some b.key) (s.withSlot_base role _)
    · rw [List.getElem?_set_ne (Ne.symm hqr)]
  refine ⟨hg.sound, ?_, ?_, ?_, ?_⟩
  · intro c' role' token r'
    show _ ∈ w.trace ++ out ↔ router.at? r' role' = some c' ∧ router.tokenOf r' = some token
    rw [List.mem_append, h.accepted, hg.accepted, hkey, hat]
    constructor
    · rintro (⟨hc', htoken⟩ | ⟨rfl, rfl, rfl, rfl⟩)
      · rw [if_neg]
        · exact ⟨hc', htoken⟩
        · rintro ⟨rfl, rfl⟩
          rw [hnone] at hc'
          cases hc'
      · rw [if_pos ⟨rfl, rfl⟩, tokenOf, hg.enters.session]
        exact ⟨rfl, rfl⟩
    · rintro ⟨hc', htoken⟩
      split at hc'
      · next heq =>
        obtain ⟨rfl, rfl⟩ := heq
        rw [tokenOf, hg.enters.session] at htoken
        exact Or.inr ⟨(Option.some.inj hc').symm, rfl, (Option.some.inj htoken).symm, rfl⟩
      · exact Or.inl ⟨hc', htoken⟩
  · intro d hd
    obtain ⟨hold, hout⟩ := hg.access d hd
    obtain ⟨hread, hwritten⟩ := h.fresh d hold
    refine ⟨hread, ?_⟩
    show w.written d ++ responses out d = []
    rw [hwritten, hout, List.append_nil]
  · intro d e he hopen
    show w.written e ++ responses out e ≠ []
    rcases hg.relays d e he hopen with hold | hout
    · refine List.append_ne_nil_of_left_ne_nil (h.greeted d e hold ?_) _
      rw [← hg.isOpen]
      exact hopen
    · exact List.append_ne_nil_of_right_ne_nil _ hout
  · intro d
    show w.written d ++ responses out d = [] ∨ ∃ q role' c' msgs, router.at? q role' = some d ∧
      router.at? q role'.other = some c' ∧ w.written d ++ responses out d = _ ∧ msgs <+: w.read c' ∧
      ((router.channels d).isOpen = true → msgs = w.read c')
    rw [hg.isOpen]
    rcases hg.greeted d with hout | ⟨hout, hd, role', e, hatd, hate, he⟩
    · rw [hout, List.append_nil]
      rcases h.told d with hwritten | ⟨q, role', c', msgs, hd, hc', htold⟩
      · exact Or.inl hwritten
      · exact Or.inr ⟨q, role', c', msgs, hkept hd, hkept hc', htold⟩
    · refine Or.inr ⟨r, role', e, [], hatd, hate, ?_⟩
      rw [(h.fresh d hd).2, hout, (h.fresh e he).1]
      exact ⟨rfl, List.prefix_rfl, fun _ => rfl⟩

/-- The channel waits, and nobody is greeted. -/
theorem Fair.greets_wait (h : w.Fair) {r c : Nat} {s : RouteSession} {role : ClientType}
    (he : w.router.Enters r s role c) :
    w.Greets r s role c (w.router.wait c role r s) [.accepted c role s.key r] := by
  have hself : (w.router.wait c role r s).channels c =
      { w.router.channels c with access := some .waitForPeer } := Function.update_self _ _ _
  have hother : ∀ d, d ≠ c → (w.router.wait c role r s).channels d = w.router.channels d :=
    fun d hd => Function.update_of_ne hd _ _
  refine ⟨he, h.sound.wait he, rfl, ?_, ?_, ?_, ?_, fun d => Or.inl rfl⟩
  · intro d
    by_cases hd : d = c
    · subst hd
      rw [hself]
    · rw [hother d hd]
  · intro c' role' token r'
    rw [List.mem_singleton, Output.accepted.injEq]
  · intro d hd
    refine ⟨?_, rfl⟩
    by_cases hdc : d = c
    · subst hdc
      rw [he.access]
      exact fun hcon => by cases hcon
    · rw [hother d hdc] at hd
      exact hd
  · intro d e hd _
    refine Or.inl ?_
    by_cases hdc : d = c
    · subst hdc
      rw [hself] at hd
      exact hd
    · rw [hother d hdc] at hd
      exact hd

/-- A relay leads to a channel that is gone, and nobody is greeted. -/
theorem Fair.greets_half (h : w.Fair) {r c d : Nat} {s : RouteSession} {role : ClientType}
    {router : Router} (he : w.router.Enters r s role c) (hd : w.router.at? r role.other = some d)
    (hclosed : (w.router.channels d).isOpen = false)
    (hput : (w.router.wait c role r s).putRelay c d = some router) :
    w.Greets r s role c router [.accepted c role s.key r, .relay c d] := by
  have hg := h.greets_wait he
  have hat : ∀ q role', (w.router.wait c role r s).at? q role' =
      if q = r ∧ role' = role then some c else w.router.at? q role' :=
    fun q role' => at?_set he.session rfl q role'
  have hsound : router.Sound := by
    refine hg.sound.putRelay (r := r) (c := c) (d := d) role ?_ ?_ hput
    · rw [hat, if_pos ⟨rfl, rfl⟩]
    · rw [hat, if_neg fun hcon => ClientType.other_ne role hcon.2]
      exact hd
  have hself : (w.router.wait c role r s).channels c =
      { w.router.channels c with access := some .waitForPeer } := Function.update_self _ _ _
  rw [putRelay_eq (by rw [hself]; exact fun hcon => by cases hcon)] at hput
  obtain rfl := Option.some.inj hput
  have hother : ∀ x e, e ≠ c → ((w.router.wait c role r s).setChannel c x).channels e =
      (w.router.wait c role r s).channels e := fun x e hec => Function.update_of_ne hec _ _
  have hat' : ∀ x, ((w.router.wait c role r s).setChannel c x).channels c = x :=
    fun x => Function.update_self _ _ _
  refine ⟨he, hsound, rfl, ?_, ?_, ?_, ?_, fun e => Or.inl rfl⟩
  · intro e
    rw [← hg.isOpen]
    by_cases hec : e = c
    · subst hec
      rw [hat']
    · rw [hother _ e hec]
  · intro c' role' token r'
    rw [List.mem_cons, Output.accepted.injEq, List.mem_singleton]
    exact or_iff_left fun hcon => by cases hcon
  · intro e hacc
    by_cases hec : e = c
    · subst hec
      rw [hat'] at hacc
      exact absurd rfl hacc
    · rw [hother _ e hec] at hacc
      exact ⟨(hg.access e hacc).1, rfl⟩
  · intro e f hrel hopen
    by_cases hec : e = c
    · subst hec
      rw [hat', hself] at hrel
      -- the relay leads to the closed channel
      obtain ⟨-, hdf⟩ := List.append_eq_singleton_iff.mp hrel |>.resolve_right (fun hcon => by
        cases hcon.2)
      obtain rfl := List.singleton_inj.mp hdf
      have hdc : d ≠ e := fun hcon => (h.sound.at_none he).2 r role.other (hcon ▸ hd)
      rw [hother _ d hdc] at hopen
      change (Function.update w.router.channels e _ d).isOpen = true at hopen
      rw [Function.update_of_ne hdc, hclosed] at hopen
      cases hopen
    · rw [hother _ e hec] at hrel
      refine hg.relays e f hrel ?_ |>.imp_right fun hout => absurd rfl hout
      · by_cases hfc : f = c
        · subst hfc
          rw [hat'] at hopen
          exact hopen
        · rw [hother _ f hfc] at hopen
          exact hopen

/-- The two are joined, and greeted if they are open. -/
theorem Fair.greets_join (h : w.Fair) {r c d : Nat} {s : RouteSession} {role : ClientType}
    (he : w.router.Enters r s role c) (hd : w.router.at? r role.other = some d) (hdc : d ≠ c)
    (haccess : (w.router.channels d).access ≠ none) :
    w.Greets r s role c (w.router.join c role r s d)
      (.accepted c role s.key r :: w.router.meeting r (role.clientOf c d) (role.clientOf d c)) := by
  have hat : ∀ q role', (w.router.join c role r s d).at? q role' =
      if q = r ∧ role' = role then some c else w.router.at? q role' :=
    fun q role' => at?_set he.session rfl q role'
  have hatc : (w.router.join c role r s d).at? r role = some c := by rw [hat, if_pos ⟨rfl, rfl⟩]
  have hatd : (w.router.join c role r s d).at? r role.other = some d := by
    rw [hat, if_neg fun hcon => ClientType.other_ne role hcon.2]
    exact hd
  have hcaccess : (w.router.channels c).access ≠ none := by
    rw [he.access]
    exact fun hcon => by cases hcon
  have hresponses : ∀ e, responses (.accepted c role s.key r ::
      w.router.meeting r (role.clientOf c d) (role.clientOf d c)) e =
      if (e = c ∨ e = d) ∧ (w.router.channels e).isOpen = true then [.connectRsp success]
      else [] := by
    intro e
    show responses (w.router.meeting r (role.clientOf c d) (role.clientOf d c)) e = _
    cases role with
    | client =>
      show responses (w.router.meeting r c d) e = _
      rw [responses_meeting _ _ hdc.symm]
      simp only [@eq_comm _ e]
    | fgw =>
      show responses (w.router.meeting r d c) e = _
      rw [responses_meeting _ _ hdc]
      simp only [@eq_comm _ e, @or_comm (c = e)]
  refine ⟨he, h.sound.join he hd hdc haccess, rfl, ?_, ?_, ?_, ?_, ?_⟩
  · intro e
    show (joined w.router.channels c d e).isOpen = _
    by_cases hec : e = c
    · subst hec
      rw [joined_left _ hdc.symm]
    · by_cases hed : e = d
      · subst hed
        rw [joined_right]
      · rw [joined_of_ne _ hec hed]
  · intro c' role' token r'
    rw [List.mem_cons, Output.accepted.injEq]
    refine or_iff_left fun hcon => ?_
    unfold meeting sendConnectRsp at hcon
    split at hcon <;> split at hcon <;> simp at hcon
  · intro e haccess'
    change (joined w.router.channels c d e).access ≠ none at haccess'
    have hec : e ≠ c := by
      rintro rfl
      rw [joined_left _ hdc.symm] at haccess'
      exact haccess' rfl
    have hed : e ≠ d := by
      rintro rfl
      rw [joined_right] at haccess'
      exact haccess' rfl
    rw [joined_of_ne _ hec hed] at haccess'
    rw [hresponses, if_neg fun hcon => hcon.1.elim hec hed]
    exact ⟨haccess', rfl⟩
  · intro e f hrelays hopen
    change (joined w.router.channels c d e).relays = [f] at hrelays
    change (joined w.router.channels c d f).isOpen = true at hopen
    have hnil : ∀ x, (w.router.channels x).access ≠ none → (w.router.channels x).relays = [] := by
      intro x hx
      rcases h.sound.relayed x with hrel | ⟨y, q, role', -, hnone, -⟩
      · exact hrel
      · exact absurd hnone hx
    by_cases hec : e = c
    · subst hec
      rw [joined_left _ hdc.symm, hnil e hcaccess] at hrelays
      obtain rfl := List.singleton_inj.mp hrelays
      rw [joined_right] at hopen
      exact Or.inr (by rw [hresponses, if_pos ⟨Or.inr rfl, hopen⟩]; exact List.cons_ne_nil _ _)
    · by_cases hed : e = d
      · subst hed
        rw [joined_right, hnil e haccess] at hrelays
        obtain rfl := List.singleton_inj.mp hrelays
        rw [joined_left _ hdc.symm] at hopen
        exact Or.inr (by rw [hresponses, if_pos ⟨Or.inl rfl, hopen⟩]; exact List.cons_ne_nil _ _)
      · rw [joined_of_ne _ hec hed] at hrelays
        exact Or.inl hrelays
  · intro e
    rw [hresponses]
    by_cases hmem : (e = c ∨ e = d) ∧ (w.router.channels e).isOpen = true
    · rw [if_pos hmem]
      refine Or.inr ⟨rfl, ?_⟩
      rcases hmem.1 with rfl | rfl
      · exact ⟨hcaccess, role, d, hatc, hatd, haccess⟩
      · exact ⟨haccess, role.other, c, hatd, by rw [ClientType.other_other]; exact hatc, hcaccess⟩
    · rw [if_neg hmem]
      exact Or.inl rfl

/-- A message that no relay takes. -/
theorem Fair.accessRead (h : w.Fair) (c : Nat) (msg : RouteMsg) :
    Fair ⟨(w.router.accessRead c msg).1, w.trace ++ (w.router.accessRead c msg).2, w.read,
      fun d => w.written d ++ responses (w.router.accessRead c msg).2 d⟩ := by
  have hnothing :
      Fair ⟨w.router, w.trace ++ [], w.read, fun d => w.written d ++ responses [] d⟩ := by
    rw [List.append_nil]
    have hwritten : (fun d => w.written d ++ responses [] d) = w.written :=
      funext fun d => List.append_nil _
    rw [hwritten]
    exact h
  rcases h.sound.accessRead c msg with heq | heq | ⟨r, s, role, he, heq⟩
  · rw [heq]
    exact hnothing
  · rw [heq]
    exact hnothing.close c
  · rw [heq]
    rcases meet_cases h.sound he s.key with
      ⟨-, hmeet⟩ | ⟨d, router, out, hd, -, hclosed, hmeet, hout⟩ | ⟨d, hd, hdc, haccess, hmeet⟩
    · rw [hmeet]
      exact h.letIn (h.greets_wait he)
    · rw [hmeet]
      rcases hout with ⟨rfl, rfl⟩ | ⟨hput, rfl⟩
      · exact h.letIn (h.greets_wait he)
      · exact h.letIn (h.greets_half he hd hclosed hput)
    · rw [hmeet]
      exact h.letIn (h.greets_join he hd hdc haccess)

/-- **All steps** keep what is written fair. -/
theorem Fair.next (h : w.Fair) (e : Event) : (w.next e).Fair := by
  have hquiet : ∀ {router : Router}, Fair { w with router := router } →
      Fair ⟨router, w.trace ++ [], w.read, fun d => w.written d ++ responses [] d⟩ := by
    intro router hfair
    rw [List.append_nil]
    have hwritten : (fun d => w.written d ++ responses [] d) = w.written :=
      funext fun d => List.append_nil _
    rw [hwritten]
    exact hfair
  cases e with
  | allocate msg now =>
    refine hquiet (h.quiet (h.sound.allocateRead msg now) (at?_allocateRead msg now) ?_ ?_ ?_ ?_)
    · intro r role c hc
      obtain ⟨s, hs, -⟩ := Option.bind_eq_some_iff.mp hc
      unfold tokenOf Router.allocateRead processTokenRequest
      split
      · cases msg.reqToken with
        | none => rfl
        | some token =>
          show ((w.router.sessions ++ [_])[r]?).map _ = _
          rw [List.getElem?_append_left (List.getElem?_eq_some_iff.mp hs).1]
      · rfl
    all_goals
      have hchannels : (w.router.allocateRead msg now).channels = w.router.channels := by
        unfold Router.allocateRead processTokenRequest
        split
        · cases msg.reqToken <;> rfl
        · rfl
    · intro c hc
      exact hchannels ▸ hc
    · intro c d hd
      exact hchannels ▸ hd
    · intro c hc
      exact hchannels ▸ hc
  | access c msg => exact (h.channelRead c msg).accessRead c msg
  | checkTimeout current =>
    exact hquiet (h.quiet (h.sound.checkTimeout current) (fun _ _ => rfl) (fun _ _ _ _ => rfl)
      (fun _ => id) (fun _ _ => id) (fun _ => id))
  | closed c =>
    exact hquiet (h.close c)
  | unregistered c =>
    have hsound := h.sound.unregistered c
    show Fair ⟨(w.router.step (.unregistered c)).1, w.trace ++ (w.router.step (.unregistered c)).2,
      w.read, fun d => w.written d ++ responses (w.router.step (.unregistered c)).2 d⟩
    by_cases hopen : (w.router.channels c).isOpen = true
    · rw [Router.step, if_pos hopen]
      exact hquiet h
    · rw [Router.step, if_neg hopen] at hsound ⊢
      refine hquiet (h.quiet hsound (fun _ _ => rfl) (fun _ _ _ _ => rfl) ?_ ?_ ?_)
      all_goals
        intro d
        by_cases hd : d = c
        · subst hd
          simp [setChannel]
        · simp [setChannel, hd]

/-- **What the router writes to a channel**, whoever comes, leaves or sends whatever, and in
    whatever order: nothing; or one response, and then what its partner has sent since, in order and
    with nothing left out as long as the channel is open.  The two have presented one token, in the
    two roles; nobody else has been let into their session, and they into no other. -/
theorem relayed_from_partner (es : List Event) (d : Nat) :
    (es.foldl next init).written d = [] ∨
    ∃ r role token c msgs, c ≠ d ∧
      (∀ c' role' token' r', .accepted c' role' token' r' ∈ (es.foldl next init).trace →
        (r' = r ∨ c' = d ∨ c' = c) → r' = r ∧ token' = token ∧
          (c' = d ∧ role' = role ∨ c' = c ∧ role' = role.other)) ∧
      .accepted d role token r ∈ (es.foldl next init).trace ∧
      .accepted c role.other token r ∈ (es.foldl next init).trace ∧
      (es.foldl next init).written d = .connectRsp success :: msgs.map .relayed ∧
      msgs <+: (es.foldl next init).read c ∧
      (((es.foldl next init).router.channels d).isOpen = true →
        msgs = (es.foldl next init).read c) := by
  have hfair := Runs.foldl_inv_of Fair (fun _ _ => True) (fun _ e hw _ => hw.next e) fair_init es
    fun _ _ => trivial
  generalize es.foldl next init = w at hfair ⊢
  rcases hfair.told d with hd | ⟨r, role, c, msgs, hd, hc, hwritten, hread, hall⟩
  · exact Or.inl hd
  obtain ⟨s, hs, -⟩ := Option.bind_eq_some_iff.mp hd
  have htoken : w.router.tokenOf r = some s.key := by
    rw [tokenOf, hs]
    rfl
  have hne : c ≠ d := by
    rintro rfl
    exact ClientType.other_ne role (hfair.sound.sole r role.other r role c hc hd).2
  refine Or.inr ⟨r, role, s.key, c, msgs, hne, ?_, (hfair.accepted d role s.key r).mpr ⟨hd, htoken⟩,
    (hfair.accepted c role.other s.key r).mpr ⟨hc, htoken⟩, hwritten, hread, hall⟩
  intro c' role' token' r' hacc hone
  obtain ⟨hc', htoken'⟩ := (hfair.accepted c' role' token' r').mp hacc
  have hr : r' = r := by
    rcases hone with hr | rfl | rfl
    · exact hr
    · exact (hfair.sound.sole r' role' r role c' hc' hd).1
    · exact (hfair.sound.sole r' role' r role.other c' hc' hc).1
  subst hr
  refine ⟨rfl, Option.some.inj (htoken'.symm.trans htoken), ?_⟩
  rcases ClientType.eq_or_other role role' with rfl | rfl
  · exact Or.inl ⟨Option.some.inj (hc'.symm.trans hd), rfl⟩
  · exact Or.inr ⟨Option.some.inj (hc'.symm.trans hc), rfl⟩

/-- A client leaves while it waits.  The gateway is joined with it all the same, and what it sends is
    lost; a second client's token is not known any more. -/
example :
    let es : List Event :=
      [.allocate { type := .reqToken, reqToken := some "token" } 0,
        .access 0 { type := .connect, connect := some ⟨.client, "token"⟩ }, .closed 0,
        .access 1 { type := .connect, connect := some ⟨.fgw, "token"⟩ },
        .access 1 { type := .connectRsp },
        .access 2 { type := .connect, connect := some ⟨.client, "token"⟩ }]
    let w := es.foldl next init
    w.written 0 = [] ∧ w.written 1 = [.connectRsp 0] ∧ w.read 1 = [{ type := .connectRsp }] ∧
      (w.router.channels 2).isOpen = true ∧ w.written 2 = [] := by decide

end Traffic

end Router

end Monsys
