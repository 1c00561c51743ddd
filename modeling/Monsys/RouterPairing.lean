/-
  What a step of the router does.

  1. **Slots** — who stands where; who waits (`Waits`), and who leaves (`Leaves`).
  2. **Order** — `InOrder`: no channel stands in two slots, a session that can be found has a slot
     free, and who waits in it is open and still has his handler.
  3. **Handlers** — what each of them does to it; a message is dropped, or its channel is closed,
     or its channel is let in (`accessRead_cases`), to wait or to be joined with the one that waits.
  4. **Steps** — all keep the order but those in which a channel leaves (`InOrder.step`).
-/
import Monsys.Router

namespace Monsys

namespace Router

variable {w w' : Router}

/-! ## Slots -/

theorem ClientType.other_other (role : ClientType) : role.other.other = role := by
  cases role <;> rfl

theorem ClientType.eq_or_other (role role' : ClientType) : role' = role ∨ role' = role.other := by
  cases role <;> cases role' <;> decide

theorem ClientType.other_ne (role : ClientType) : role.other ≠ role := by cases role <;> decide

@[simp] theorem RouteSession.slot_withSlot (s : RouteSession) (role : ClientType) (x : Slot) :
    (s.withSlot role x).slot role = x := by cases role <;> rfl

@[simp] theorem RouteSession.slot_withSlot_other (s : RouteSession) (role : ClientType) (x : Slot) :
    (s.withSlot role x).slot role.other = s.slot role.other := by cases role <;> rfl

@[simp] theorem RouteSession.withSlot_base (s : RouteSession) (role : ClientType) (x : Slot) :
    (s.withSlot role x).toBaseSession = s.toBaseSession := by cases role <;> rfl

/-- The channel in a slot of a session. -/
def at? (w : Router) (r : Nat) (role : ClientType) : Option Nat :=
  w.sessions[r]?.bind fun s => (s.slot role).channel

/-- The session can be found. -/
def Registered (w : Router) (r : Nat) : Prop := ∃ key, w.manager.find key = some r

/-- The channel stands in a slot of a session that can be found. -/
def Waits (w : Router) (c : Nat) : Prop := ∃ r role, w.Registered r ∧ w.at? r role = some c

/-- A channel closes while it waits. -/
def Leaves (w : Router) : Event → Prop
  | .closed c => w.Waits c
  | _ => False

/-! ## Order -/

structure InOrder (w : Router) : Prop where
  filed : w.manager.Filed (baseOf w.sessions)
  flag : ∀ (r : Nat) (s : RouteSession) (role : ClientType), w.sessions[r]? = some s →
    (s.slot role).connected = (s.slot role).channel.isSome
  sole : ∀ r role r' role' c, w.at? r role = some c → w.at? r' role' = some c →
    r = r' ∧ role = role'
  entered : ∀ r role c, w.at? r role = some c → (w.channels c).access ≠ some .waitForConnect
  room : ∀ r, w.Registered r → ∃ role, w.at? r role = none
  waiting : ∀ r role c, w.Registered r → w.at? r role = some c →
    (w.channels c).isOpen = true ∧ (w.channels c).access = some .waitForPeer
  relayed : ∀ c d, d ∈ (w.channels c).relays → ∃ r role, w.at? r role = some d ∧ ¬ w.Registered r
  few : ∃ n, ∀ c, n ≤ c → w.channels c = {}

theorem inOrder_init : InOrder init where
  filed := fun key r h => by cases h
  flag := fun r s role h => by cases h
  sole := fun r role r' role' c h => by cases h
  entered := fun r role c h => by cases h
  room := fun r h => by obtain ⟨key, h⟩ := h; cases h
  waiting := fun r role c h => by obtain ⟨key, h⟩ := h; cases h
  relayed := fun c d h => by cases h
  few := ⟨0, fun c _ => rfl⟩

/-- A session that is found is there. -/
theorem InOrder.registered (h : w.InOrder) {r : Nat} (hr : w.Registered r) :
    ∃ s, w.sessions[r]? = some s ∧ w.manager.find s.key = some r := by
  obtain ⟨key, hkey⟩ := hr
  obtain ⟨b, hb, hbkey⟩ := h.filed key r hkey
  obtain ⟨s, hs, rfl⟩ := Option.map_eq_some_iff.mp hb
  exact ⟨s, hs, hbkey ▸ hkey⟩

/-- Channels lose handlers and connections: those that do not wait. -/
theorem InOrder.channels (h : w.InOrder) {f : Nat → Channel}
    (hrelays : ∀ c d, d ∈ (f c).relays → d ∈ (w.channels c).relays)
    (haccess : ∀ c, (f c).access = (w.channels c).access ∨ (f c).access = none)
    (hkept : ∀ c, w.Waits c → f c = w.channels c)
    (hfew : ∃ n, ∀ c, n ≤ c → f c = w.channels c) : InOrder { w with channels := f } where
  filed := h.filed
  flag := h.flag
  sole := h.sole
  entered := by
    intro r role c hc
    show (f c).access ≠ some .waitForConnect
    rcases haccess c with hc' | hc'
    · rw [hc']
      exact h.entered r role c hc
    · rw [hc']
      exact fun hcon => by cases hcon
  room := h.room
  waiting := by
    intro r role c hr hc
    show (f c).isOpen = true ∧ (f c).access = some .waitForPeer
    rw [hkept c ⟨r, role, hr, hc⟩]
    exact h.waiting r role c hr hc
  relayed := fun c d hd => h.relayed c d (hrelays c d hd)
  few := by
    obtain ⟨n, hn⟩ := h.few
    obtain ⟨k, hk⟩ := hfew
    refine ⟨max n k, fun c hc => ?_⟩
    show f c = {}
    rw [hk c (by omega), hn c (by omega)]

/-- Sessions are lost from the map, and empty ones come in. -/
theorem InOrder.resession (h : w.InOrder) {sessions : List RouteSession}
    {manager : SessionManager String} (hfiled : manager.Filed (baseOf sessions))
    (hflag : ∀ (r : Nat) (s : RouteSession) (role : ClientType), sessions[r]? = some s →
      (s.slot role).connected = (s.slot role).channel.isSome)
    (hat : ∀ r role, at? ⟨sessions, manager, w.channels⟩ r role = w.at? r role)
    (hreg : ∀ r, Registered ⟨sessions, manager, w.channels⟩ r →
      w.Registered r ∨ ∀ role, w.at? r role = none) :
    InOrder ⟨sessions, manager, w.channels⟩ where
  filed := hfiled
  flag := hflag
  sole := by
    intro r role r' role' c hc hc'
    rw [hat] at hc hc'
    exact h.sole r role r' role' c hc hc'
  entered := by
    intro r role c hc
    rw [hat] at hc
    exact h.entered r role c hc
  room := by
    intro r hr
    rcases hreg r hr with hr | hnone
    · obtain ⟨role, hrole⟩ := h.room r hr
      exact ⟨role, (hat r role).trans hrole⟩
    · exact ⟨.client, (hat r .client).trans (hnone .client)⟩
  waiting := by
    intro r role c hr hc
    rw [hat] at hc
    rcases hreg r hr with hr | hnone
    · exact h.waiting r role c hr hc
    · rw [hnone] at hc
      cases hc
  relayed := by
    intro c d hd
    obtain ⟨r, role, hd, hnot⟩ := h.relayed c d hd
    refine ⟨r, role, (hat r role).trans hd, fun hr => ?_⟩
    rcases hreg r hr with hr | hnone
    · exact hnot hr
    · rw [hnone] at hd
      cases hd
  few := h.few

/-! ## Handlers -/

/-- Closing a channel that does not wait closes nobody who does. -/
theorem InOrder.close (h : w.InOrder) {c : Nat} (hc : ¬ w.Waits c) : (w.close c).InOrder := by
  have hpeer : ∀ d ∈ (w.channels c).relays, ¬ w.Waits d := by
    rintro d hd ⟨r, role, hr, hat⟩
    obtain ⟨r', role', hat', hnot⟩ := h.relayed c d hd
    obtain ⟨rfl, -⟩ := h.sole r role r' role' d hat hat'
    exact hnot hr
  refine h.channels ?_ ?_ ?_ ?_
  · intro d e he
    split at he <;> exact he
  · intro d
    split <;> exact Or.inl rfl
  · intro d hd
    rw [if_neg]
    rintro (rfl | hmem)
    · exact hc hd
    · exact hpeer d hmem hd
  · -- who stands in a slot has been heard of
    obtain ⟨n, hn⟩ := h.few
    refine ⟨max n (c + 1), fun d hd => ?_⟩
    rw [if_neg]
    rintro (rfl | hmem)
    · omega
    · obtain ⟨r, role, hat, -⟩ := h.relayed c d hmem
      exact h.entered r role d hat (by rw [hn d (by omega)])

theorem InOrder.unregistered (h : w.InOrder) (c : Nat) : (w.step (.unregistered c)).1.InOrder := by
  rw [step]
  split
  · exact h
  · next hopen =>
    refine h.channels ?_ ?_ ?_ ?_
    · intro d e he
      rw [Function.update_apply] at he
      split at he
      · cases he
      · exact he
    · intro d
      rw [Function.update_apply]
      split
      · exact Or.inr rfl
      · exact Or.inl rfl
    · rintro d ⟨r, role, hr, hd⟩
      rw [Function.update_of_ne]
      rintro rfl
      exact hopen (h.waiting r role d hr hd).1
    · refine ⟨c + 1, fun d hd => ?_⟩
      rw [Function.update_of_ne (by omega)]

theorem InOrder.checkTimeout (h : w.InOrder) (current : Int) :
    (w.step (.checkTimeout current)).1.InOrder := by
  have hfind : ∀ key r, (w.manager.checkTimeout (baseOf w.sessions) current).find key = some r →
      w.manager.find key = some r := by
    intro key r hr
    rw [SessionManager.find_checkTimeout h.filed] at hr
    exact Option.eq_some_of_filter_eq_some hr
  refine h.resession (fun key r hr => h.filed key r (hfind key r hr)) h.flag (fun _ _ => rfl) ?_
  rintro r ⟨key, hkey⟩
  exact Or.inl ⟨key, hfind key r hkey⟩

/-- A session that was there is there, and one that is made has no channels. -/
theorem at?_append (sessions : List RouteSession) (token : String) (now : Int)
    {manager manager' : SessionManager String} {channels channels' : Nat → Channel} (r : Nat)
    (role : ClientType) :
    at? ⟨sessions ++ [{ key := token, lastTouchedTime := now }], manager, channels⟩ r role =
      at? ⟨sessions, manager', channels'⟩ r role := by
  unfold at?
  rcases Nat.lt_trichotomy r sessions.length with hlt | rfl | hgt
  · rw [List.getElem?_append_left hlt]
  · rw [List.getElem?_concat_length, List.getElem?_eq_none (Nat.le_refl _)]
    cases role <;> rfl
  · rw [List.getElem?_eq_none (by rw [List.length_append]; exact hgt),
      List.getElem?_eq_none (Nat.le_of_lt hgt)]

theorem at?_allocateRead (msg : RouteMsg) (now : Int) (r : Nat) (role : ClientType) :
    (w.allocateRead msg now).at? r role = w.at? r role := by
  unfold allocateRead processTokenRequest
  split
  · cases msg.reqToken with
    | none => rfl
    | some token => exact at?_append w.sessions token now r role
  · rfl

/-- A session with a channel was there before. -/
theorem sessions_allocateRead (msg : RouteMsg) (now : Int) {r : Nat} {s : RouteSession}
    {role : ClientType} {c : Nat} (hs : (w.allocateRead msg now).sessions[r]? = some s)
    (hc : w.at? r role = some c) :
    ∃ s' : RouteSession, w.sessions[r]? = some s' ∧ s'.key = s.key := by
  refine ⟨s, ?_, rfl⟩
  have hlt : r < w.sessions.length := by
    obtain ⟨s', hs', -⟩ := Option.bind_eq_some_iff.mp hc
    exact (List.getElem?_eq_some_iff.mp hs').1
  unfold allocateRead processTokenRequest at hs
  split at hs
  · cases htoken : msg.reqToken with
    | none =>
      rw [htoken] at hs
      exact hs
    | some token =>
      rw [htoken] at hs
      exact (List.getElem?_append_left hlt).symm.trans hs
  · exact hs

theorem InOrder.allocateRead (h : w.InOrder) (msg : RouteMsg) (now : Int) :
    (w.allocateRead msg now).InOrder := by
  unfold Router.allocateRead Router.processTokenRequest
  split
  · cases msg.reqToken with
    | none => exact h
    | some token =>
      have hfind : ∀ {key : String} {r : Nat},
          (w.manager.add token w.sessions.length).find key = some r →
          (key = token ∧ r = w.sessions.length) ∨ w.manager.find key = some r := by
        intro key r hr
        rw [SessionManager.find_add] at hr
        split at hr
        · exact Or.inl ⟨‹_›, (Option.some.inj hr).symm⟩
        · exact Or.inr hr
      refine h.resession ?_ ?_ ?_ ?_
      · intro key r hr
        rcases hfind hr with ⟨rfl, rfl⟩ | hr
        · refine ⟨⟨key, now⟩, ?_, rfl⟩
          rw [baseOf, List.getElem?_concat_length]
          rfl
        · obtain ⟨b, hb, hkey⟩ := h.filed key r hr
          obtain ⟨s, hs, rfl⟩ := Option.map_eq_some_iff.mp hb
          refine ⟨s.toBaseSession, ?_, hkey⟩
          rw [baseOf, List.getElem?_append_left (List.getElem?_eq_some_iff.mp hs).1, hs]
          rfl
      · intro r s role hs
        rcases List.mem_append.mp (List.mem_of_getElem? hs) with hmem | hmem
        · obtain ⟨q, hq⟩ := List.mem_iff_getElem?.mp hmem
          exact h.flag q s role hq
        · rw [List.mem_singleton.mp hmem]
          cases role <;> rfl
      · exact fun r role => at?_append w.sessions token now r role
      · rintro r ⟨key, hr⟩
        rcases hfind hr with ⟨-, rfl⟩ | hr
        · exact Or.inr fun role => by rw [at?, List.getElem?_eq_none (Nat.le_refl _)]; rfl
        · exact Or.inl ⟨key, hr⟩
  · exact h

/-- A channel that is let into a slot. -/
structure Enters (w : Router) (r : Nat) (s : RouteSession) (role : ClientType) (c : Nat) : Prop where
  registered : w.Registered r
  session : w.sessions[r]? = some s
  free : (s.slot role).connected = false
  isOpen : (w.channels c).isOpen = true
  access : (w.channels c).access = some .waitForConnect

theorem Enters.not_at {r : Nat} {s : RouteSession} {role : ClientType} {c : Nat}
    (he : w.Enters r s role c) (h : w.InOrder) (r' : Nat) (role' : ClientType) :
    w.at? r' role' ≠ some c := fun hat => h.entered r' role' c hat he.access

theorem Enters.at_none {r : Nat} {s : RouteSession} {role : ClientType} {c : Nat}
    (he : w.Enters r s role c) (h : w.InOrder) : w.at? r role = none := by
  have hflag := h.flag r s role he.session
  rw [he.free] at hflag
  rw [at?, he.session, Option.bind_some]
  exact Option.not_isSome_iff_eq_none.mp (by rw [← hflag]; decide)

/-- The slots once the channel is in its own. -/
theorem at?_set {r : Nat} {s : RouteSession} (hs : w.sessions[r]? = some s) {role : ClientType}
    {c : Nat} (hsessions : w'.sessions = w.sessions.set r (s.withSlot role ⟨true, some c⟩))
    (r' : Nat) (role' : ClientType) :
    w'.at? r' role' = if r' = r ∧ role' = role then some c else w.at? r' role' := by
  have hlt : r < w.sessions.length := (List.getElem?_eq_some_iff.mp hs).1
  unfold at?
  rw [hsessions]
  by_cases hr : r' = r
  · subst hr
    rw [List.getElem?_set_self hlt, Option.bind_some, hs, Option.bind_some]
    rcases ClientType.eq_or_other role role' with rfl | rfl
    · rw [RouteSession.slot_withSlot, if_pos ⟨rfl, rfl⟩]
    · rw [RouteSession.slot_withSlot_other, if_neg fun h => ClientType.other_ne role h.2]
  · rw [List.getElem?_set_ne (Ne.symm hr), if_neg fun h => hr h.1]

/-- A channel takes its slot.  If that was the last one, the session cannot be found any more and
    relays lead to its channels; else the channel waits. -/
structure Takes (w : Router) (r : Nat) (s : RouteSession) (role : ClientType) (c : Nat)
    (w' : Router) : Prop where
  enters : w.Enters r s role c
  sessions : w'.sessions = w.sessions.set r (s.withSlot role ⟨true, some c⟩)
  find : ∀ key q, w'.manager.find key = some q → w.manager.find key = some q
  last : w'.Registered r → w.at? r role.other = none ∧ (w'.channels c).isOpen = true ∧
    (w'.channels c).access = some .waitForPeer
  access : ∀ d, (w'.channels d).access ≠ some .waitForConnect ∨
    (w'.channels d = w.channels d ∧ d ≠ c)
  kept : ∀ d, d ≠ c → w.at? r role.other ≠ some d → w'.channels d = w.channels d
  relays : ∀ d e, e ∈ (w'.channels d).relays → e ∈ (w.channels d).relays ∨
    (¬ w'.Registered r ∧ (e = c ∨ w.at? r role.other = some e))

section Takes

variable {r c : Nat} {s : RouteSession} {role : ClientType}

theorem Takes.at?_eq (ht : w.Takes r s role c w') (q : Nat) (role' : ClientType) :
    w'.at? q role' = if q = r ∧ role' = role then some c else w.at? q role' :=
  at?_set ht.enters.session ht.sessions q role'

theorem Takes.registered (ht : w.Takes r s role c w') {q : Nat} (hq : w'.Registered q) :
    w.Registered q := by
  obtain ⟨key, hkey⟩ := hq
  exact ⟨key, ht.find key q hkey⟩

/-- A session is the one that was there, with the channel in its slot if it is the channel's. -/
theorem Takes.session (ht : w.Takes r s role c w') {q : Nat} {s' : RouteSession}
    (hs' : w'.sessions[q]? = some s') :
    (q = r ∧ s' = s.withSlot role ⟨true, some c⟩) ∨ (q ≠ r ∧ w.sessions[q]? = some s') := by
  rw [ht.sessions] at hs'
  by_cases hq : q = r
  · subst hq
    rw [List.getElem?_set_self (List.getElem?_eq_some_iff.mp ht.enters.session).1] at hs'
    exact Or.inl ⟨rfl, (Option.some.inj hs').symm⟩
  · rw [List.getElem?_set_ne (Ne.symm hq)] at hs'
    exact Or.inr ⟨hq, hs'⟩

theorem Takes.filed (ht : w.Takes r s role c w') (h : w.InOrder) :
    w'.manager.Filed (baseOf w'.sessions) := by
  intro key q hq
  obtain ⟨b, hb, hkey⟩ := h.filed key q (ht.find key q hq)
  refine ⟨b, ?_, hkey⟩
  rw [baseOf, ht.sessions]
  by_cases hqr : q = r
  · subst hqr
    rw [baseOf, ht.enters.session] at hb
    rw [List.getElem?_set_self (List.getElem?_eq_some_iff.mp ht.enters.session).1,
      Option.map_some, RouteSession.withSlot_base]
    exact hb
  · rw [List.getElem?_set_ne (Ne.symm hqr)]
    exact hb

theorem Takes.flag (ht : w.Takes r s role c w') (h : w.InOrder) (q : Nat) (s' : RouteSession)
    (role' : ClientType) (hs' : w'.sessions[q]? = some s') :
    (s'.slot role').connected = (s'.slot role').channel.isSome := by
  rcases ht.session hs' with ⟨rfl, rfl⟩ | ⟨-, hs'⟩
  · rcases ClientType.eq_or_other role role' with rfl | rfl
    · rw [RouteSession.slot_withSlot]
      rfl
    · rw [RouteSession.slot_withSlot_other]
      exact h.flag q s role.other ht.enters.session
  · exact h.flag q s' role' hs'

theorem Takes.sole (ht : w.Takes r s role c w') (h : w.InOrder) (q : Nat) (role₁ : ClientType)
    (q' : Nat) (role₂ : ClientType) (d : Nat) (hd : w'.at? q role₁ = some d)
    (hd' : w'.at? q' role₂ = some d) : q = q' ∧ role₁ = role₂ := by
  have hnot := ht.enters.not_at h
  rw [ht.at?_eq] at hd hd'
  split at hd
  · next h₁ =>
    obtain rfl := Option.some.inj hd
    split at hd'
    · next h₂ => exact ⟨h₁.1.trans h₂.1.symm, h₁.2.trans h₂.2.symm⟩
    · exact absurd hd' (hnot q' role₂)
  · split at hd'
    · obtain rfl := Option.some.inj hd'
      exact absurd hd (hnot q role₁)
    · exact h.sole q role₁ q' role₂ d hd hd'

theorem Takes.entered (ht : w.Takes r s role c w') (h : w.InOrder) (q : Nat) (role' : ClientType)
    (d : Nat) (hd : w'.at? q role' = some d) :
    (w'.channels d).access ≠ some .waitForConnect := by
  rw [ht.at?_eq] at hd
  rcases ht.access d with hd' | ⟨hsame, hne⟩
  · exact hd'
  · rw [hsame]
    split at hd
    · exact absurd (Option.some.inj hd).symm hne
    · exact h.entered q role' d hd

theorem Takes.room (ht : w.Takes r s role c w') (h : w.InOrder) (q : Nat) (hq : w'.Registered q) :
    ∃ role', w'.at? q role' = none := by
  by_cases hqr : q = r
  · subst hqr
    refine ⟨role.other, ?_⟩
    rw [ht.at?_eq, if_neg fun h' => ClientType.other_ne role h'.2]
    exact (ht.last hq).1
  · obtain ⟨role', hrole'⟩ := h.room q (ht.registered hq)
    refine ⟨role', ?_⟩
    rw [ht.at?_eq, if_neg fun h' => hqr h'.1]
    exact hrole'

theorem Takes.waiting (ht : w.Takes r s role c w') (h : w.InOrder) (q : Nat) (role' : ClientType)
    (d : Nat) (hq : w'.Registered q) (hd : w'.at? q role' = some d) :
    (w'.channels d).isOpen = true ∧ (w'.channels d).access = some .waitForPeer := by
  rw [ht.at?_eq] at hd
  split at hd
  · next h' =>
    obtain rfl := Option.some.inj hd
    obtain ⟨rfl, -⟩ := h'
    exact (ht.last hq).2
  · rw [ht.kept d]
    · exact h.waiting q role' d (ht.registered hq) hd
    · rintro rfl
      exact ht.enters.not_at h q role' hd
    · -- the peer's slot is of a session that is gone now
      intro hpeer
      obtain ⟨rfl, rfl⟩ := h.sole q role' r role.other d hd hpeer
      exact absurd ((ht.last hq).1.symm.trans hpeer) (fun hcon => by cases hcon)

theorem Takes.relayed (ht : w.Takes r s role c w') (h : w.InOrder) (d e : Nat)
    (hmem : e ∈ (w'.channels d).relays) : ∃ q role', w'.at? q role' = some e ∧ ¬ w'.Registered q := by
  rcases ht.relays d e hmem with hold | ⟨hgone, rfl | hpeer⟩
  · obtain ⟨q, role', hq, hnotreg⟩ := h.relayed d e hold
    refine ⟨q, role', ?_, fun hq' => hnotreg (ht.registered hq')⟩
    rw [ht.at?_eq, if_neg]
    · exact hq
    · rintro ⟨rfl, -⟩
      exact hnotreg ht.enters.registered
  · exact ⟨r, role, by rw [ht.at?_eq, if_pos ⟨rfl, rfl⟩], hgone⟩
  · refine ⟨r, role.other, ?_, hgone⟩
    rw [ht.at?_eq, if_neg fun h' => ClientType.other_ne role h'.2]
    exact hpeer

theorem InOrder.takes (h : w.InOrder) (ht : w.Takes r s role c w') : w'.InOrder where
  filed := ht.filed h
  flag := ht.flag h
  sole := ht.sole h
  entered := ht.entered h
  room := ht.room h
  waiting := ht.waiting h
  relayed := ht.relayed h
  few := by
    obtain ⟨n, hn⟩ := h.few
    refine ⟨max n (c + 1), fun d hd => ?_⟩
    rw [ht.kept d (by omega), hn d (by omega)]
    intro hpeer
    exact h.entered r role.other d hpeer (by rw [hn d (by omega)])

end Takes

/-! ### Meeting -/

/-- The channels with relays between the two. -/
def joined (f : Nat → Channel) (client fgw : Nat) : Nat → Channel :=
  Function.update
    (Function.update f client
      { f client with access := none, relays := (f client).relays ++ [fgw] })
    fgw { f fgw with access := none, relays := (f fgw).relays ++ [client] }

/-- The channel in the `client` slot, if `c` is in that of its role and `d` in the other. -/
def ClientType.clientOf (role : ClientType) (c d : Nat) : Nat :=
  match role with
  | client => c
  | fgw => d

/-- What happens when two channels meet. -/
def pairing (r client fgw : Nat) : List Output :=
  [.paired r client fgw, .relay client fgw, .relay fgw client, .connectRsp client success,
    .connectRsp fgw success]

theorem joined_comm (f : Nat → Channel) {c d : Nat} (hne : c ≠ d) : joined f c d = joined f d c := by
  unfold joined
  rw [Function.update_comm hne]

theorem joined_of_ne (f : Nat → Channel) {c d e : Nat} (hc : e ≠ c) (hd : e ≠ d) :
    joined f c d e = f e := by
  rw [joined, Function.update_of_ne hd, Function.update_of_ne hc]

theorem joined_left (f : Nat → Channel) {c d : Nat} (hne : c ≠ d) :
    joined f c d c = { f c with access := none, relays := (f c).relays ++ [d] } := by
  rw [joined, Function.update_of_ne hne, Function.update_self]

theorem joined_right (f : Nat → Channel) (c d : Nat) :
    joined f c d d = { f d with access := none, relays := (f d).relays ++ [c] } := by
  rw [joined, Function.update_self]

theorem putRelay_eq {c : Nat} (h : (w.channels c).access ≠ none) (peer : Nat) :
    w.putRelay c peer = some (w.setChannel c
      { w.channels c with access := none, relays := (w.channels c).relays ++ [peer] }) := by
  unfold putRelay
  cases haccess : (w.channels c).access with
  | none => exact absurd haccess h
  | some state => rfl

theorem sendConnectRsp_eq {c : Nat} (h : (w.channels c).isOpen = true) (code : Int) :
    w.sendConnectRsp c code = [.connectRsp c code] := by
  rw [sendConnectRsp, if_pos h]

/-- Two open channels that have their handlers are paired. -/
theorem pair_eq {client fgw : Nat} (hne : client ≠ fgw)
    (hc : (w.channels client).access ≠ none) (hf : (w.channels fgw).access ≠ none)
    (hcopen : (w.channels client).isOpen = true) (hfopen : (w.channels fgw).isOpen = true)
    (r : Nat) (s : RouteSession) :
    w.pair r s client fgw =
      (⟨w.sessions, w.manager.remove s.key, joined w.channels client fgw⟩, pairing r client fgw) := by
  have hfgw : (Function.update w.channels client { w.channels client with
      access := none, relays := (w.channels client).relays ++ [fgw] }) fgw = w.channels fgw :=
    Function.update_of_ne hne.symm _ _
  have hsecond := putRelay_eq (w := w.setChannel client { w.channels client with
    access := none, relays := (w.channels client).relays ++ [fgw] }) (c := fgw)
    (by show (Function.update w.channels client _ fgw).access ≠ none; rw [hfgw]; exact hf) client
  unfold pair
  rw [putRelay_eq hc]
  simp only
  rw [hsecond]
  simp only [setChannel, hfgw]
  rw [sendConnectRsp_eq (c := client) (by
      show (joined w.channels client fgw client).isOpen = true
      rw [joined_left _ hne]
      exact hcopen),
    sendConnectRsp_eq (c := fgw) (by
      show (joined w.channels client fgw fgw).isOpen = true
      rw [joined_right]
      exact hfopen)]
  rfl

/-- The channel is let in, and the peer is not there. -/
def wait (w : Router) (c : Nat) (role : ClientType) (r : Nat) (s : RouteSession) : Router :=
  ⟨w.sessions.set r (s.withSlot role ⟨true, some c⟩), w.manager,
    Function.update w.channels c { w.channels c with access := some .waitForPeer }⟩

/-- The channel is let in, and `d` is there. -/
def join (w : Router) (c : Nat) (role : ClientType) (r : Nat) (s : RouteSession) (d : Nat) :
    Router :=
  ⟨w.sessions.set r (s.withSlot role ⟨true, some c⟩), w.manager.remove s.key,
    joined w.channels c d⟩

/-- What becomes of a channel that is let in: the peer's slot decides. -/
def letIn (w : Router) (c : Nat) (role : ClientType) (r : Nat) (s : RouteSession) (token : String) :
    Router × List Output :=
  match w.at? r role.other with
  | none => (w.wait c role r s, [.accepted c role token r])
  | some d =>
    (w.join c role r s d,
      .accepted c role token r :: pairing r (role.clientOf c d) (role.clientOf d c))

/-- The state that a channel had before is of no matter once its handler is out. -/
theorem joined_setAccess (f : Nat → Channel) {c d : Nat} (hne : c ≠ d) (state : Option State) :
    joined (Function.update f c { f c with access := state }) c d = joined f c d := by
  funext e
  by_cases hc : e = c
  · subst hc
    rw [joined_left _ hne, joined_left _ hne, Function.update_self]
  · by_cases hd : e = d
    · subst hd
      rw [joined_right, joined_right, Function.update_of_ne hc]
    · rw [joined_of_ne _ hc hd, joined_of_ne _ hc hd, Function.update_of_ne hc]

/-- A channel that is let in is ready to be joined, and so is the one that waits for it. -/
theorem InOrder.ready_wait (h : w.InOrder) {r : Nat} {s : RouteSession} {role : ClientType} {c : Nat}
    (he : w.Enters r s role c) {d : Nat} (hd : w.at? r role.other = some d) {e : Nat}
    (hmem : e = c ∨ e = d) :
    ((Function.update w.channels c { w.channels c with access := some .waitForPeer }) e).access ≠
      none ∧
    ((Function.update w.channels c { w.channels c with access := some .waitForPeer }) e).isOpen =
      true := by
  by_cases hc : e = c
  · subst hc
    rw [Function.update_self]
    exact ⟨nofun, he.isOpen⟩
  · obtain rfl := hmem.resolve_left hc
    obtain ⟨hopen, haccess⟩ := h.waiting r role.other e he.registered hd
    rw [Function.update_of_ne hc]
    rw [haccess]
    exact ⟨nofun, hopen⟩

theorem meet_eq (h : w.InOrder) {r : Nat} {s : RouteSession} {role : ClientType} {c : Nat}
    (he : w.Enters r s role c) (token : String) :
    w.meet c ⟨role, token⟩ r (s.withSlot role ⟨true, some c⟩) = w.letIn c role r s token := by
  have hat : w.at? r role.other = (s.slot role.other).channel := by
    rw [at?, he.session, Option.bind_some]
  have hflag := h.flag r s role.other he.session
  rw [letIn, hat]
  cases hpeer : (s.slot role.other).channel with
  | none =>
    rw [hpeer] at hflag
    cases role with
    | client =>
      change s.fgw.connected = false at hflag
      simp only [meet, RouteSession.withSlot, hflag]
      rfl
    | fgw =>
      change s.client.connected = false at hflag
      simp only [meet, RouteSession.withSlot, hflag]
      rfl
  | some d =>
    rw [hpeer] at hflag
    rw [hpeer] at hat
    have hne : c ≠ d := fun hcd => he.not_at h r role.other (hcd ▸ hat)
    have hc := h.ready_wait he hat (Or.inl rfl)
    have hd := h.ready_wait he hat (Or.inr rfl)
    cases role with
    | client =>
      change s.fgw.connected = true at hflag
      change s.fgw.channel = some d at hpeer
      simp only [meet, RouteSession.withSlot, hflag, hpeer]
      rw [pair_eq hne hc.1 hd.1 hc.2 hd.2]
      simp only [setChannel, setSession]
      rw [joined_setAccess _ hne]
      rfl
    | fgw =>
      change s.client.connected = true at hflag
      change s.client.channel = some d at hpeer
      simp only [meet, RouteSession.withSlot, hflag, hpeer]
      rw [pair_eq hne.symm hd.1 hc.1 hd.2 hc.2]
      simp only [setChannel, setSession]
      rw [joined_comm _ hne.symm, joined_setAccess _ hne]
      rfl

/-- What a message on a channel can do: nothing, or close the channel, or let it in. -/
theorem accessRead_cases (h : w.InOrder) (c : Nat) (msg : RouteMsg) :
    w.accessRead c msg = (w, []) ∨
    (¬ w.Waits c ∧ w.accessRead c msg = (w.close c, [])) ∨
    ∃ r s role, w.Enters r s role c ∧ w.manager.find s.key = some r ∧
      w.accessRead c msg = w.letIn c role r s s.key := by
  unfold accessRead
  split
  · next hopen haccess =>
    have hwaits : ¬ w.Waits c := by
      rintro ⟨r, role, -, hat⟩
      exact h.entered r role c hat haccess
    split
    · unfold processConnectRequest
      cases msg.connect with
      | none => exact Or.inl rfl
      | some connect =>
        cases hfind : w.manager.find connect.token with
        | none => exact Or.inl (by simp only [hfind])
        | some r =>
          obtain ⟨b, hb, hkey⟩ := h.filed connect.token r hfind
          obtain ⟨s, hs, rfl⟩ := Option.map_eq_some_iff.mp hb
          simp only [hfind, hs]
          split
          · exact Or.inr (Or.inl ⟨hwaits, rfl⟩)
          · next hfree =>
            have he : w.Enters r s connect.clientType c :=
              ⟨⟨_, hfind⟩, hs, Bool.eq_false_iff.mpr hfree, hopen, haccess⟩
            refine Or.inr (Or.inr ⟨r, s, connect.clientType, he, hkey ▸ hfind, ?_⟩)
            rw [hkey]
            exact meet_eq h he connect.token
    · exact Or.inr (Or.inl ⟨hwaits, rfl⟩)
  · exact Or.inl rfl

theorem InOrder.wait (h : w.InOrder) {r : Nat} {s : RouteSession} {role : ClientType} {c : Nat}
    (he : w.Enters r s role c) (hnone : w.at? r role.other = none) :
    (w.wait c role r s).InOrder := by
  have hself : (w.wait c role r s).channels c =
      { w.channels c with access := some .waitForPeer } := Function.update_self _ _ _
  refine h.takes ⟨he, rfl, fun _ _ hq => hq, fun _ => ⟨hnone, ?_, ?_⟩, ?_, ?_, ?_⟩
  · rw [hself]
    exact he.isOpen
  · rw [hself]
  · intro d
    by_cases hd : d = c
    · subst hd
      rw [hself]
      exact Or.inl fun hcon => by cases hcon
    · exact Or.inr ⟨Function.update_of_ne hd _ _, hd⟩
  · exact fun d hd _ => Function.update_of_ne hd _ _
  · intro d e hmem
    change e ∈ (Function.update w.channels c _ d).relays at hmem
    rw [Function.update_apply] at hmem
    split at hmem
    · next hd =>
      subst hd
      exact Or.inl hmem
    · exact Or.inl hmem

theorem InOrder.join (h : w.InOrder) {r : Nat} {s : RouteSession} {role : ClientType} {c d : Nat}
    (he : w.Enters r s role c) (hd : w.at? r role.other = some d) :
    (w.join c role r s d).InOrder := by
  have hne : c ≠ d := fun hcd => he.not_at h r role.other (hcd ▸ hd)
  have hgone : ¬ (w.join c role r s d).Registered r := by
    rintro ⟨key, hkey⟩
    change (w.manager.remove s.key).find key = some r at hkey
    rw [SessionManager.find_remove] at hkey
    split at hkey
    · cases hkey
    · next hother =>
      obtain ⟨b, hb, hbkey⟩ := h.filed key r hkey
      rw [baseOf, he.session, Option.map_some] at hb
      exact hother (by rw [← hbkey, ← Option.some.inj hb])
  have hleft : (w.join c role r s d).channels c = _ := joined_left w.channels hne
  have hright : (w.join c role r s d).channels d = _ := joined_right w.channels c d
  have hothers : ∀ {e : Nat}, e ≠ c → e ≠ d → (w.join c role r s d).channels e = w.channels e :=
    fun hc hed => joined_of_ne w.channels hc hed
  refine h.takes ⟨he, rfl, ?_, fun hr => absurd hr hgone, ?_, ?_, ?_⟩
  · intro key q hq
    change (w.manager.remove s.key).find key = some q at hq
    rw [SessionManager.find_remove] at hq
    split at hq
    · cases hq
    · exact hq
  · intro e
    by_cases hc : e = c
    · subst hc
      rw [hleft]
      exact Or.inl fun hcon => by cases hcon
    · by_cases hed : e = d
      · subst hed
        rw [hright]
        exact Or.inl fun hcon => by cases hcon
      · exact Or.inr ⟨hothers hc hed, hc⟩
  · exact fun e hc hpeer => hothers hc fun hed => hpeer (hed ▸ hd)
  · intro x e hmem
    by_cases hc : x = c
    · subst hc
      rw [hleft] at hmem
      rcases List.mem_append.mp hmem with hold | hnew
      · exact Or.inl hold
      · exact Or.inr ⟨hgone, Or.inr (by rw [List.mem_singleton.mp hnew, hd])⟩
    · by_cases hxd : x = d
      · subst hxd
        rw [hright] at hmem
        rcases List.mem_append.mp hmem with hold | hnew
        · exact Or.inl hold
        · exact Or.inr ⟨hgone, Or.inl (List.mem_singleton.mp hnew)⟩
      · rw [hothers hc hxd] at hmem
        exact Or.inl hmem

/-! ## Steps -/

/-- **One step.** -/
theorem InOrder.step (h : w.InOrder) (e : Event) (hleaves : ¬ w.Leaves e) :
    (w.step e).1.InOrder := by
  cases e with
  | allocate msg now => exact h.allocateRead msg now
  | access c msg =>
    show (w.accessRead c msg).1.InOrder
    rcases accessRead_cases h c msg with heq | ⟨hc, heq⟩ | ⟨r, s, role, he, -, heq⟩
    · rw [heq]
      exact h
    · rw [heq]
      exact h.close hc
    · rw [heq, letIn]
      cases hd : w.at? r role.other with
      | none => exact h.wait he hd
      | some d => exact h.join he hd
  | checkTimeout current => exact h.checkTimeout current
  | closed c => exact h.close hleaves
  | unregistered c => exact h.unregistered c

end Router

end Monsys
