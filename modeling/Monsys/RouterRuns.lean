/-
  Whom the router joins, over whole runs.

  1. **Pairings** — `Routing`, the router with all that has happened.  What has happened to a channel
     is told by the slot it stands in (`Told`), and so is what a pairing was (`pairings_joined`).
  2. **Channels that leave** — `usable_iff`: both channels of every pairing are open and a slot that
     was left can be taken again, exactly if nobody leaves.
-/
import Monsys.Lib.Runs
import Monsys.RouterPairing

namespace Monsys

namespace Router

/-! ## Pairings -/

/-- What happens to a channel. -/
def Output.about (c : Nat) : Output → Bool
  | .accepted c' _ _ _ => c' = c
  | .paired _ client fgw => client = c || fgw = c
  | .relay c' _ => c' = c
  | .connectRsp c' _ => c' = c

/-- A pairing of a session. -/
def Output.pairs (r : Nat) : Output → Bool
  | .paired r' _ _ => r' = r
  | _ => false

/-- What has happened to a channel that stands in a slot, by who stands in the other one. -/
def told (c : Nat) (role : ClientType) (token : String) (r : Nat) (peer : Option Nat) : List Output :=
  .accepted c role token r ::
    match peer with
    | none => []
    | some d => [.paired r (role.clientOf c d) (role.clientOf d c), .relay c d, .connectRsp c success]

/-- The pairings of a session, by who stands in its slots. -/
def toldPairs (r : Nat) (client fgw : Option Nat) : List Output :=
  match client, fgw with
  | some c, some d => [.paired r c d]
  | _, _ => []

theorem toldPairs_none (r : Nat) (client : Option Nat) : toldPairs r client none = [] := by
  cases client <;> rfl

/-- A pairing joins who stands in the slots. -/
theorem mem_toldPairs {r a b : Nat} {client fgw : Option Nat}
    (h : .paired r a b ∈ toldPairs r client fgw) : client = some a ∧ fgw = some b := by
  cases client with
  | none => cases h
  | some c =>
    cases fgw with
    | none => cases h
    | some d =>
      obtain ⟨-, rfl, rfl⟩ := Output.paired.inj (List.mem_singleton.mp h)
      exact ⟨rfl, rfl⟩

theorem about_accepted (c d : Nat) (role : ClientType) (token : String) (r : Nat)
    (out : List Output) :
    (Output.accepted c role token r :: out).filter (Output.about d) =
      if d = c then .accepted c role token r :: out.filter (Output.about d)
      else out.filter (Output.about d) := by
  rw [List.filter_cons]
  simp only [Output.about, decide_eq_true_eq, @eq_comm Nat c d]

theorem about_pairing (r : Nat) {client fgw : Nat} (hne : client ≠ fgw) (e : Nat) :
    (pairing r client fgw).filter (Output.about e) =
      if e = client then [.paired r client fgw, .relay client fgw, .connectRsp client success]
      else if e = fgw then [.paired r client fgw, .relay fgw client, .connectRsp fgw success]
      else [] := by
  by_cases hc : e = client
  · subst hc
    simp [pairing, Output.about, hne.symm]
  · by_cases hf : e = fgw
    · subst hf
      simp [pairing, Output.about, hne, hc]
    · simp [pairing, Output.about, hc, hf, Ne.symm hc, Ne.symm hf]

/-- The router, and what has happened. -/
structure Routing where
  router : Router
  trace : List Output

namespace Routing

def init : Routing := ⟨Router.init, []⟩

def next (w : Routing) (e : Event) : Routing :=
  ⟨(w.router.step e).1, w.trace ++ (w.router.step e).2⟩

structure Told (w : Routing) : Prop where
  order : w.router.InOrder
  stranger : ∀ c, (∀ r role, w.router.at? r role ≠ some c) → w.trace.filter (Output.about c) = []
  story : ∀ (r : Nat) (s : RouteSession) role c, w.router.sessions[r]? = some s → w.router.at? r role = some c →
    w.trace.filter (Output.about c) = told c role s.key r (w.router.at? r role.other)
  pairs : ∀ r, w.trace.filter (Output.pairs r) =
    toldPairs r (w.router.at? r .client) (w.router.at? r .fgw)

theorem told_init : Told init where
  order := inOrder_init
  stranger := fun _ _ => rfl
  story := fun r s role c h => by cases h
  pairs := fun r => rfl

variable {w : Routing}

/-- A step in which nobody is let in. -/
theorem Told.quiet (h : w.Told) {e : Event} (horder : (w.router.step e).1.InOrder)
    (hout : (w.router.step e).2 = [])
    (hat : ∀ r role, (w.router.step e).1.at? r role = w.router.at? r role)
    (hkey : ∀ (r : Nat) (s : RouteSession) role c, (w.router.step e).1.sessions[r]? = some s →
      w.router.at? r role = some c →
      ∃ s' : RouteSession, w.router.sessions[r]? = some s' ∧ s'.key = s.key) :
    (w.next e).Told := by
  have htrace : (w.next e).trace = w.trace := by rw [next, hout, List.append_nil]
  refine ⟨horder, ?_, ?_, ?_⟩
  · intro c hc
    rw [htrace]
    exact h.stranger c fun r role hcon => hc r role ((hat r role).trans hcon)
  · intro r s role c hs hc
    rw [htrace]
    change (w.router.step e).1.at? r role = some c at hc
    rw [hat] at hc
    obtain ⟨s', hs', hkey'⟩ := hkey r s role c hs hc
    rw [← hkey']
    show _ = told c role s'.key r ((w.router.step e).1.at? r role.other)
    rw [hat]
    exact h.story r s' role c hs' hc
  · intro r
    rw [htrace]
    show _ = toldPairs r ((w.router.step e).1.at? r .client) ((w.router.step e).1.at? r .fgw)
    rw [hat, hat]
    exact h.pairs r

/-- A channel is let into a slot: what becomes of the sessions, and what happens to the channel and
    to its peer, and in the session. -/
structure Admits (w : Routing) (r : Nat) (s : RouteSession) (role : ClientType) (c : Nat)
    (router : Router) (out : List Output) : Prop where
  enters : w.router.Enters r s role c
  sessions : router.sessions = w.router.sessions.set r (s.withSlot role ⟨true, some c⟩)
  order : router.InOrder
  own : out.filter (Output.about c) = told c role s.key r (w.router.at? r role.other)
  peer : ∀ d, w.router.at? r role.other = some d →
    .accepted d role.other s.key r :: out.filter (Output.about d) =
      told d role.other s.key r (some c)
  others : ∀ d, d ≠ c → w.router.at? r role.other ≠ some d → out.filter (Output.about d) = []
  pairs : out.filter (Output.pairs r) = toldPairs r (router.at? r .client) (router.at? r .fgw)
  otherPairs : ∀ q, q ≠ r → out.filter (Output.pairs q) = []

variable {r c : Nat} {s : RouteSession} {role : ClientType} {router : Router} {out : List Output}

theorem Admits.at?_eq (ha : w.Admits r s role c router out) (q : Nat) (role' : ClientType) :
    router.at? q role' = if q = r ∧ role' = role then some c else w.router.at? q role' :=
  at?_set ha.enters.session ha.sessions q role'

/-- A session keeps its key. -/
theorem Admits.key_eq (ha : w.Admits r s role c router out) {q : Nat} {s' : RouteSession}
    (hs' : router.sessions[q]? = some s') :
    ∃ s'' : RouteSession, w.router.sessions[q]? = some s'' ∧ s''.key = s'.key := by
  have hs := ha.enters.session
  rw [ha.sessions] at hs'
  by_cases hq : q = r
  · subst hq
    rw [List.getElem?_set_self (List.getElem?_eq_some_iff.mp hs).1] at hs'
    obtain rfl := Option.some.inj hs'
    exact ⟨s, hs, by rw [RouteSession.withSlot_base]⟩
  · rw [List.getElem?_set_ne (Ne.symm hq)] at hs'
    exact ⟨s', hs', rfl⟩

theorem Admits.stranger (ha : w.Admits r s role c router out) (h : w.Told) {d : Nat}
    (hd : ∀ q role', router.at? q role' ≠ some d) :
    (w.trace ++ out).filter (Output.about d) = [] := by
  have hdc : d ≠ c := by
    rintro rfl
    exact hd r role (by rw [ha.at?_eq, if_pos ⟨rfl, rfl⟩])
  have hold : ∀ q role', w.router.at? q role' ≠ some d := by
    intro q role' hcon
    by_cases hq : q = r ∧ role' = role
    · obtain ⟨rfl, rfl⟩ := hq
      rw [ha.enters.at_none h.order] at hcon
      cases hcon
    · exact hd q role' (by rw [ha.at?_eq, if_neg hq]; exact hcon)
  rw [List.filter_append, h.stranger d hold, ha.others d hdc (hold r role.other)]
  rfl

theorem Admits.story (ha : w.Admits r s role c router out) (h : w.Told) {q : Nat}
    {s' : RouteSession} {role' : ClientType} {d : Nat} (hs' : router.sessions[q]? = some s')
    (hd : router.at? q role' = some d) :
    (w.trace ++ out).filter (Output.about d) = told d role' s'.key q (router.at? q role'.other) := by
  have hs := ha.enters.session
  have hnot := ha.enters.not_at h.order
  obtain ⟨s'', hs'', hkey⟩ := ha.key_eq hs'
  rw [List.filter_append, ← hkey]
  by_cases hq : q = r ∧ role' = role
  · -- it is the channel itself
    obtain ⟨rfl, rfl⟩ := hq
    rw [ha.at?_eq, if_pos ⟨rfl, rfl⟩] at hd
    obtain rfl := Option.some.inj hd
    obtain rfl := Option.some.inj (hs.symm.trans hs'')
    rw [h.stranger c hnot, ha.at?_eq, if_neg fun h' => ClientType.other_ne role' h'.2, ha.own]
    rfl
  · rw [ha.at?_eq, if_neg hq] at hd
    rw [h.story q s'' role' d hs'' hd]
    by_cases hqr : q = r
    · -- it is the peer
      subst hqr
      obtain rfl := Option.some.inj (hs.symm.trans hs'')
      rcases ClientType.eq_or_other role role' with rfl | rfl
      · exact absurd ⟨rfl, rfl⟩ hq
      · rw [ClientType.other_other, ha.enters.at_none h.order, ha.at?_eq, if_pos ⟨rfl, rfl⟩,
          ← ha.peer d hd]
        rfl
    · rw [ha.at?_eq, if_neg fun h' => hqr h'.1, ha.others d]
      · exact List.append_nil _
      · rintro rfl
        exact hnot q role' hd
      · intro hpeer
        exact hqr (h.order.sole q role' r role.other d hd hpeer).1

theorem Admits.toldPairs (ha : w.Admits r s role c router out) (h : w.Told) (q : Nat) :
    (w.trace ++ out).filter (Output.pairs q) =
      toldPairs q (router.at? q .client) (router.at? q .fgw) := by
  rw [List.filter_append, h.pairs q]
  by_cases hq : q = r
  · subst hq
    -- the session had a slot free
    have hnone : Router.toldPairs q (w.router.at? q .client) (w.router.at? q .fgw) = [] := by
      have hfree := ha.enters.at_none h.order
      cases role with
      | client => rw [hfree]; rfl
      | fgw => rw [hfree, toldPairs_none]
    rw [ha.pairs, hnone]
    rfl
  · rw [ha.otherPairs q hq, ha.at?_eq, ha.at?_eq, if_neg fun h' => hq h'.1,
      if_neg fun h' => hq h'.1]
    exact List.append_nil _

/-- What was told of the channels that stand in slots before, and the step, tell it of those that
    stand in them now. -/
theorem Told.admit (h : w.Told) (ha : w.Admits r s role c router out) :
    Told ⟨router, w.trace ++ out⟩ where
  order := ha.order
  stranger := fun _ hd => ha.stranger h hd
  story := fun _ _ _ _ hs' hd => ha.story h hs' hd
  pairs := fun q => ha.toldPairs h q

theorem admits_wait (h : w.Told) (he : w.router.Enters r s role c)
    (hnone : w.router.at? r role.other = none) :
    w.Admits r s role c (w.router.wait c role r s) [.accepted c role s.key r] := by
  have hat : ∀ q role', (w.router.wait c role r s).at? q role' =
      if q = r ∧ role' = role then some c else w.router.at? q role' := at?_set he.session rfl
  refine ⟨he, rfl, h.order.wait he hnone, ?_, ?_, ?_, ?_, ?_⟩
  · rw [hnone, about_accepted, if_pos rfl]
    rfl
  · intro d hd
    rw [hnone] at hd
    cases hd
  · intro d hd _
    rw [about_accepted, if_neg hd]
    rfl
  · have hother : (w.router.wait c role r s).at? r role.other = none := by
      rw [hat, if_neg fun h' => ClientType.other_ne role h'.2, hnone]
    cases role with
    | client =>
      change (w.router.wait c .client r s).at? r .fgw = none at hother
      rw [hother, toldPairs_none]
      rfl
    | fgw =>
      change (w.router.wait c .fgw r s).at? r .client = none at hother
      rw [hother]
      rfl
  · exact fun q _ => rfl

theorem admits_join (h : w.Told) (he : w.router.Enters r s role c) {d : Nat}
    (hd : w.router.at? r role.other = some d) :
    w.Admits r s role c (w.router.join c role r s d)
      (.accepted c role s.key r :: pairing r (role.clientOf c d) (role.clientOf d c)) := by
  have hne : c ≠ d := fun hcd => he.not_at h.order r role.other (hcd ▸ hd)
  have hat : ∀ q role', (w.router.join c role r s d).at? q role' =
      if q = r ∧ role' = role then some c else w.router.at? q role' := at?_set he.session rfl
  have hown := hat r role
  have hpeer := hat r role.other
  rw [if_pos ⟨rfl, rfl⟩] at hown
  rw [if_neg fun h' => ClientType.other_ne role h'.2, hd] at hpeer
  have hends : role.clientOf c d ≠ role.clientOf d c := by
    cases role with
    | client => exact hne
    | fgw => exact hne.symm
  refine ⟨he, rfl, h.order.join he hd, ?_, ?_, ?_, ?_, ?_⟩
  · rw [about_accepted, if_pos rfl, about_pairing r hends, hd]
    cases role with
    | client => exact congrArg _ (if_pos rfl)
    | fgw => exact congrArg _ ((if_neg hne).trans (if_pos rfl))
  · intro d' hd'
    obtain rfl := Option.some.inj (hd.symm.trans hd')
    rw [about_accepted, if_neg hne.symm, about_pairing r hends]
    cases role with
    | client => exact congrArg _ ((if_neg hne.symm).trans (if_pos rfl))
    | fgw => exact congrArg _ (if_pos rfl)
  · intro e hec hed
    rw [hd] at hed
    have hed : e ≠ d := fun h' => hed (h' ▸ rfl)
    rw [about_accepted, if_neg hec, about_pairing r hends]
    cases role with
    | client => exact (if_neg hec).trans (if_neg hed)
    | fgw => exact (if_neg hed).trans (if_neg hec)
  · cases role with
    | client =>
      change (w.router.join c .client r s d).at? r .fgw = some d at hpeer
      rw [hown, hpeer]
      simp [Router.toldPairs, pairing, Output.pairs, ClientType.clientOf]
    | fgw =>
      change (w.router.join c .fgw r s d).at? r .client = some d at hpeer
      rw [hown, hpeer]
      simp [Router.toldPairs, pairing, Output.pairs, ClientType.clientOf]
  · intro q hq
    simp [pairing, Output.pairs, Ne.symm hq]

/-- **One step.** -/
theorem Told.next (h : w.Told) (e : Event) (hleaves : ¬ w.router.Leaves e) : (w.next e).Told := by
  have horder := h.order.step e hleaves
  have hsame : ∀ (r : Nat) (s : RouteSession) (role : ClientType) (c : Nat),
      w.router.sessions[r]? = some s → w.router.at? r role = some c →
      ∃ s' : RouteSession, w.router.sessions[r]? = some s' ∧ s'.key = s.key :=
    fun _ s _ _ hs _ => ⟨s, hs, rfl⟩
  cases e with
  | allocate msg now =>
    refine h.quiet horder rfl ?_ ?_
    · exact fun r role => at?_allocateRead msg now r role
    · exact fun r s role c hs hc => sessions_allocateRead msg now hs hc
  | access c msg =>
    rcases accessRead_cases h.order c msg with heq | ⟨-, heq⟩ | ⟨r, s, role, he, -, heq⟩
    · have hstep : w.router.step (.access c msg) = (w.router, []) := heq
      refine h.quiet horder (by rw [hstep]) ?_ ?_
      · intro r role
        rw [hstep]
      · rw [hstep]
        exact hsame
    · have hstep : w.router.step (.access c msg) = (w.router.close c, []) := heq
      refine h.quiet horder (by rw [hstep]) ?_ ?_
      · intro r role
        rw [hstep]
        rfl
      · rw [hstep]
        exact hsame
    · show Told ⟨(w.router.accessRead c msg).1, w.trace ++ (w.router.accessRead c msg).2⟩
      rw [heq, letIn]
      cases hd : w.router.at? r role.other with
      | none => exact h.admit (admits_wait h he hd)
      | some d => exact h.admit (admits_join h he hd)
  | checkTimeout current => exact h.quiet horder rfl (fun _ _ => rfl) hsame
  | closed c => exact h.quiet horder rfl (fun _ _ => rfl) hsame
  | unregistered c =>
    have hstep : (w.router.step (.unregistered c)).2 = [] ∧
        (w.router.step (.unregistered c)).1.sessions = w.router.sessions := by
      rw [step]
      split <;> exact ⟨rfl, rfl⟩
    refine h.quiet horder hstep.1 ?_ ?_
    · intro r role
      rw [at?, at?, hstep.2]
    · rw [hstep.2]
      exact hsame

theorem told_of_run {es : List Event}
    (h : ∀ v ∈ Runs.visits next init es, ¬ v.1.router.Leaves v.2) : (es.foldl next init).Told :=
  Runs.foldl_inv_of Told (fun w e => ¬ w.router.Leaves e) (fun _ e hw he => hw.next e he) told_init
    es h

/-- `CONNECT`, in a role and with a token. -/
def connectMsg (role : ClientType) (token : String) : RouteMsg :=
  { type := .connect, connect := some ⟨role, token⟩ }

/-- A token is requested, and a client and a gateway present it. -/
def twoMeet : List Event :=
  [.allocate { type := .reqToken, reqToken := some "token" } 0,
    .access 0 (connectMsg .client "token"), .access 1 (connectMsg .fgw "token")]

end Routing

/-! ## Channels that leave -/

/-- The router alone. -/
def next (w : Router) (e : Event) : Router := (w.step e).1

/-- Channels that are paired are open. -/
def PairsOpen (w : Router) (e : Event) : Prop :=
  ∀ r a b, .paired r a b ∈ (w.step e).2 →
    (w.channels a).isOpen = true ∧ (w.channels b).isOpen = true

/-- The slot of a channel that is closed can be taken by another one, as long as the session is
    found. -/
def Usable (w : Router) : Prop :=
  ∀ key r role c d, w.manager.find key = some r → w.at? r role = some c →
    (w.channels c).isOpen = false → (w.channels d).isOpen = true →
    (w.channels d).access = some .waitForConnect →
    .accepted d role key r ∈ (w.step (.access d (Routing.connectMsg role key))).2

variable {w : Router}

/-- Who waits is open, so no slot is that of a closed channel. -/
theorem InOrder.usable (h : w.InOrder) : w.Usable := by
  intro key r role c d hfind hat hclosed
  rw [(h.waiting r role c ⟨key, hfind⟩ hat).1] at hclosed
  cases hclosed

theorem InOrder.pairsOpen (h : w.InOrder) (e : Event) : w.PairsOpen e := by
  intro r a b hmem
  cases e with
  | access c msg =>
    change _ ∈ (w.accessRead c msg).2 at hmem
    rcases accessRead_cases h c msg with heq | ⟨-, heq⟩ | ⟨q, s, role, he, -, heq⟩
    · rw [heq] at hmem
      cases hmem
    · rw [heq] at hmem
      cases hmem
    · rw [heq, letIn] at hmem
      cases hd : w.at? q role.other with
      | none =>
        rw [hd] at hmem
        cases List.mem_singleton.mp hmem
      | some d =>
        rw [hd] at hmem
        obtain ⟨-, hclient, hfgw⟩ :
            r = q ∧ a = role.clientOf c d ∧ b = role.clientOf d c := by
          simpa [pairing] using hmem
        have hopen := (h.waiting q role.other d he.registered hd).1
        cases role with
        | client => exact ⟨hclient ▸ he.isOpen, hfgw ▸ hopen⟩
        | fgw => exact ⟨hclient ▸ hopen, hfgw ▸ he.isOpen⟩
  | unregistered c =>
    rw [Router.step] at hmem
    split at hmem <;> cases hmem
  | allocate msg now => cases hmem
  | checkTimeout current => cases hmem
  | closed c => cases hmem

/-- The slot of a channel that has left stays taken. -/
theorem not_usable_of_leaves (h : w.InOrder) {e : Event} (hleaves : w.Leaves e) :
    ¬ (w.next e).Usable := by
  intro husable
  cases e with
  | closed c =>
    obtain ⟨r, role, ⟨key, hfind⟩, hat⟩ := hleaves
    -- a channel that nobody has heard of comes
    obtain ⟨n, hn⟩ := h.few
    have hfresh : (w.close c).channels (max n (c + 1)) = {} := by
      show (if _ then _ else _) = _
      rw [if_neg, hn _ (by omega)]
      rintro (heq | hmem)
      · omega
      · obtain ⟨q, role', hq, -⟩ := h.relayed c _ hmem
        exact h.entered q role' _ hq (by rw [hn _ (by omega)])
    have hclosed : ((w.close c).channels c).isOpen = false := by
      show (if _ then _ else _ : Channel).isOpen = false
      rw [if_pos (Or.inl rfl)]
    have haccepted := husable key r role c (max n (c + 1)) hfind hat hclosed
      (by rw [next, step, hfresh]) (by rw [next, step, hfresh])
    obtain ⟨s, hs, hchannel⟩ := Option.bind_eq_some_iff.mp hat
    have htaken : (s.slot role).connected = true := by
      rw [h.flag r s role hs, hchannel]
      rfl
    have hrefused : ((w.close c).accessRead (max n (c + 1)) (Routing.connectMsg role key)).2 = [] := by
      unfold accessRead
      rw [hfresh]
      show ((w.close c).processConnectRequest _ _).2 = []
      have hfind' : (w.close c).manager.find key = some r := hfind
      have hs' : (w.close c).sessions[r]? = some s := hs
      simp only [processConnectRequest, Routing.connectMsg, hfind', hs', htaken, if_true]
    change _ ∈ ((w.close c).accessRead _ _).2 at haccepted
    rw [hrefused] at haccepted
    cases haccepted
  | allocate msg now => exact hleaves
  | access c msg => exact hleaves
  | checkTimeout current => exact hleaves
  | unregistered c => exact hleaves

end Router

end Monsys
