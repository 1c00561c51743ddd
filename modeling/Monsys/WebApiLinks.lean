/-
  The sessions of a gateway's handler of the Python server (`fgw_server.py`), and the requests of
  web clients that they were opened for (`webapi_server.py`).

  1. **Traces** — the last request that a gateway was sent under a key (`LastAsked`); an answer that
     was taken after it (`Heard`).
  2. **A gateway's handler** — what a step does to the sessions: it keeps what they are (`Kept`),
     opens one, or sends the request of one.
  3. **Links** — `Linked`: what stands in the table of a gateway's handler was asked last under its
     key, and nobody has been told of it.  What each step of the handler puts out: `Moves`.

  A session can stay in the table when it is closed, if `check_timeout` raises; but it is found
  under its own key alone.
-/
import Monsys.WebApiServer

namespace Monsys

namespace Center

open FgwServer (Cmd Session SessionCtrl FgwHandler Served Request Row)

variable {κ β : Type}

/-! ## Traces -/

/-- A request to the gateway under the key. -/
def Output.Asks (m k : Nat) : Output κ β → Prop
  | .asked m' _ _ seq _ => m' = m ∧ seq = k
  | _ => False

/-- An answer for the session of the gateway. -/
def Output.Tells (m r : Nat) : Output κ β → Prop
  | .told _ m' r' _ _ _ _ => m' = m ∧ r' = r
  | _ => False

/-- The last request under the key was that of the session, and a web client's before. -/
def LastAsked (trace : List (Output κ β)) (m k r : Nat) (cmd : Cmd) (a : Asked β) : Prop :=
  ∃ before after, trace = before ++ .asked m r cmd k a :: after ∧
    .got a.client cmd a.fgw a.data ∈ before ∧ ∀ o ∈ after, ¬ o.Asks m k

/-- An answer was taken, and was one to the last request under its key. -/
def Heard (trace : List (Output κ β)) (m k r : Nat) (cmd : Cmd) (a : Asked β) (data : β) : Prop :=
  ∃ before after, trace = before ++ .heard m cmd k data :: after ∧ LastAsked before m k r cmd a

def NotTold (trace : List (Output κ β)) (m r : Nat) : Prop := ∀ o ∈ trace, ¬ o.Tells m r

section Traces

variable {trace out : List (Output κ β)} {m k r : Nat} {cmd : Cmd} {a : Asked β} {data : β}

theorem LastAsked.append (h : LastAsked trace m k r cmd a) (hout : ∀ o ∈ out, ¬ o.Asks m k) :
    LastAsked (trace ++ out) m k r cmd a := by
  obtain ⟨before, after, rfl, hgot, hafter⟩ := h
  refine ⟨before, after ++ out, by rw [List.append_assoc, List.cons_append], hgot, fun o ho => ?_⟩
  rcases List.mem_append.mp ho with ho | ho
  · exact hafter o ho
  · exact hout o ho

theorem Heard.append (h : Heard trace m k r cmd a data) (out : List (Output κ β)) :
    Heard (trace ++ out) m k r cmd a data := by
  obtain ⟨before, after, rfl, hlast⟩ := h
  exact ⟨before, after ++ out, by rw [List.append_assoc, List.cons_append], hlast⟩

theorem LastAsked.heard (h : LastAsked trace m k r cmd a) (data : β) (out : List (Output κ β)) :
    Heard (trace ++ .heard m cmd k data :: out) m k r cmd a data := ⟨trace, out, rfl, h⟩

theorem NotTold.append (h : NotTold trace m r) (hout : NotTold out m r) :
    NotTold (trace ++ out) m r := fun o ho => (List.mem_append.mp ho).elim (h o) (hout o)

end Traces

/-! ## A gateway's handler -/

end Center

namespace FgwServer

variable {κ : Type}

/-- What does not change while a session waits. -/
def Session.traits (s : Session κ) : Nat × Cmd × Nat := (s.key, s.cmd, s.state)

def FgwHandler.traits (h : FgwHandler κ) (r : Nat) : Option (Nat × Cmd × Nat) :=
  h.sessions[r]?.map Session.traits

theorem FgwHandler.traits_lt {h : FgwHandler κ} {r : Nat} {t : Nat × Cmd × Nat}
    (ht : h.traits r = some t) : r < h.sessions.length := by
  obtain ⟨s, hs, -⟩ := Option.map_eq_some_iff.mp ht
  exact (List.getElem?_eq_some_iff.mp hs).1

theorem FgwHandler.traits_eq {h : FgwHandler κ} {r : Nat} {s : Session κ}
    (hs : h.sessions[r]? = some s) : h.traits r = some s.traits := by
  rw [traits, hs]
  rfl

theorem map_traits_set {sessions : List (Session κ)} {r : Nat} {s : Session κ}
    (s' : Session κ) (hs : sessions[r]? = some s) (r' : Nat) :
    (sessions.set r s')[r']?.map Session.traits =
      if r' = r then some s'.traits else sessions[r']?.map Session.traits := by
  by_cases hr : r' = r
  · subst hr
    rw [if_pos rfl, List.getElem?_set_self (List.getElem?_eq_some_iff.mp hs).1, Option.map_some]
  · rw [if_neg hr, List.getElem?_set_ne (Ne.symm hr)]

/-- The sessions stay what they are, and the table and the calls gain nothing; a session whose query
    is out is left alone. -/
structure FgwHandler.Kept (h h' : FgwHandler κ) : Prop where
  traits : ∀ r, h'.traits r = h.traits r
  length : h'.sessions.length = h.sessions.length
  find : ∀ k r, h'.ctrl.find k = some r → h.ctrl.find k = some r
  calls : ∀ g r, h'.calls g = some r → h.calls g = some r ∧ h'.sessions[r]? = h.sessions[r]?
  loggedIn : h'.loggedIn = h.loggedIn

namespace FgwHandler

variable {h h' : FgwHandler κ}

theorem kept_frame (hsessions : h'.sessions = h.sessions) (hctrl : h'.ctrl = h.ctrl)
    (hcalls : h'.calls = h.calls) (hlogged : h'.loggedIn = h.loggedIn) : h.Kept h' where
  traits := fun r => by rw [FgwHandler.traits, FgwHandler.traits, hsessions]
  length := by rw [hsessions]
  find := fun k r hr => hctrl ▸ hr
  calls := fun g r hr => ⟨hcalls ▸ hr, by rw [hsessions]⟩
  loggedIn := hlogged

/-- A session is closed, and the table gains nothing. -/
theorem kept_set {r : Nat} {s : Session κ} (s' : Session κ) (hs : h.sessions[r]? = some s)
    (hsame : s'.traits = s.traits)
    (hsessions : h'.sessions = h.sessions.set r s')
    (hfind : ∀ k r, h'.ctrl.find k = some r → h.ctrl.find k = some r)
    (hcalls : ∀ g r', h'.calls g = some r' → h.calls g = some r' ∧ r' ≠ r)
    (hlogged : h'.loggedIn = h.loggedIn) : h.Kept h' where
  traits := by
    intro r'
    rw [FgwHandler.traits, hsessions, map_traits_set s' hs]
    split
    · next hr => rw [hr, traits_eq hs, hsame]
    · rfl
  length := by rw [hsessions, List.length_set]
  find := hfind
  calls := by
    intro g r' hr'
    obtain ⟨hold, hne⟩ := hcalls g r' hr'
    rw [hsessions, List.getElem?_set_ne hne.symm]
    exact ⟨hold, rfl⟩
  loggedIn := hlogged

theorem Session.checkTimeout_traits (s : Session κ) (timeout curTime : Int) :
    (s.checkTimeout timeout curTime).traits = s.traits := by
  unfold Session.checkTimeout
  split
  · rfl
  · split <;> rfl

/-- The first loop of `check_timeout` only closes sessions. -/
theorem traits_timeoutLoop (timeout curTime : Int) :
    ∀ (entries : List (Sigma fun _ : Nat => Nat)) (sessions : List (Session κ)) (r : Nat),
      (SessionCtrl.timeoutLoop timeout curTime entries sessions).2[r]?.map Session.traits =
        sessions[r]?.map Session.traits := by
  intro entries
  induction entries with
  | nil => exact fun _ _ => rfl
  | cons e entries ih =>
    intro sessions r
    unfold SessionCtrl.timeoutLoop
    split
    · exact ih sessions r
    · next s hs =>
      refine (ih _ r).trans ?_
      rw [map_traits_set _ hs]
      split
      · next hr =>
        rw [hr, hs, Session.checkTimeout_traits]
        rfl
      · rfl

/-- It leaves alone whom it does not meet. -/
theorem untouched_timeoutLoop (timeout curTime : Int) (r : Nat) :
    ∀ (entries : List (Sigma fun _ : Nat => Nat)) (sessions : List (Session κ)),
      (∀ e ∈ entries, e.2 ≠ r) →
      (SessionCtrl.timeoutLoop timeout curTime entries sessions).2[r]? = sessions[r]? := by
  intro entries
  induction entries with
  | nil => exact fun _ _ => rfl
  | cons e entries ih =>
    intro sessions hentries
    rw [List.forall_mem_cons] at hentries
    unfold SessionCtrl.timeoutLoop
    split
    · exact ih sessions hentries.2
    · exact (ih _ hentries.2).trans (List.getElem?_set_ne hentries.1)

variable [DecidableEq κ] {hashable : κ → Bool}

/-- Sessions whose query is out are not in the table. -/
theorem kept_routine (hashable : κ → Bool) (h : FgwHandler κ) (curTime : Int)
    (hout : ∀ g r k, h.calls g = some r → h.ctrl.find k ≠ some r) :
    h.Kept (h.next hashable (.routine curTime)) := by
  rw [FgwHandler.next]
  split
  · refine ⟨fun r => traits_timeoutLoop 1000 curTime _ h.sessions r, ?_, ?_, ?_, rfl⟩
    · exact (SessionCtrl.timeoutLoop_spec 1000 curTime _ h.sessions).2.1
    · exact fun k r hr => SessionCtrl.find_popLoop hashable _ h.ctrl k r hr
    · intro g r hr
      refine ⟨hr, untouched_timeoutLoop 1000 curTime r _ h.sessions fun e he hcon => ?_⟩
      have hmem : e ∈ h.ctrl.sessionMap.entries := List.mem_reverse.mp he
      exact hout g r e.1 hr (hcon ▸ AList.mem_lookup_iff.mpr hmem)
  · exact kept_frame rfl rfl rfl rfl

/-- The session is closed, and nothing stands under the key any more. -/
theorem kept_closeSession (h : FgwHandler κ) (seq : Nat) {r : Nat} {s : Session κ}
    (hs : h.sessions[r]? = some s) (hcalls : ∀ g, h.calls g ≠ some r) :
    h.Kept (h.closeSession seq r) ∧ ∀ k, (h.closeSession seq r).ctrl.find k =
      if k = seq then none else h.ctrl.find k := by
  have hfind : ∀ k, (h.closeSession seq r).ctrl.find k =
      if k = seq then none else h.ctrl.find k := by
    intro k
    unfold FgwHandler.closeSession
    simp only [hs]
    exact SessionCtrl.find_remove h.ctrl _ seq k
  refine ⟨?_, hfind⟩
  refine kept_set s.close hs rfl ?_ ?_ ?_ ?_
  · simp only [FgwHandler.closeSession, hs]
  · intro k r' hr'
    rw [hfind] at hr'
    split at hr'
    · cases hr'
    · exact hr'
  · intro g r' hr'
    have hold : h.calls g = some r' := by simpa only [FgwHandler.closeSession, hs] using hr'
    exact ⟨hold, fun hcon => hcalls g (hcon ▸ hold)⟩
  · simp only [FgwHandler.closeSession, hs]

omit [DecidableEq κ] in
/-- A session is made. -/
theorem traits_draw (h : FgwHandler κ) (s : Session κ) (r : Nat) :
    (h.draw s).traits r = if r = h.sessions.length then some s.traits else h.traits r := by
  unfold traits draw
  rcases Nat.lt_trichotomy r h.sessions.length with hlt | rfl | hgt
  · rw [if_neg (by omega), List.getElem?_append_left hlt]
  · rw [if_pos rfl, List.getElem?_concat_length, Option.map_some]
  · rw [if_neg (by omega), List.getElem?_eq_none (by rw [List.length_append]; exact hgt),
      List.getElem?_eq_none (Nat.le_of_lt hgt)]

/-- A session has sent its request: it waits, and stands under its key unless it is closed. -/
theorem traits_addSession {r : Nat} {s : Session κ} (hs : h.sessions[r]? = some s) (r' : Nat) :
    (h.addSession hashable r s).traits r' =
      if r' = r then some (s.key, s.cmd, 2) else h.traits r' := by
  have hset := map_traits_set { s with state := 2 } hs r'
  unfold FgwHandler.addSession traits
  simp only
  split <;> exact hset

theorem find_addSession (h : FgwHandler κ) (r : Nat) (s : Session κ) (k r' : Nat)
    (hr' : (h.addSession hashable r s).ctrl.find k = some r') :
    k = s.key ∧ r' = r ∨ k ≠ s.key ∧ h.ctrl.find k = some r' ∨ s.closed = true ∧
      h.ctrl.find k = some r' := by
  unfold FgwHandler.addSession at hr'
  simp only at hr'
  split at hr'
  · next hclosed => exact Or.inr (Or.inr ⟨hclosed, hr'⟩)
  · rw [SessionCtrl.find_add] at hr'
    split at hr'
    · next hk => exact Or.inl ⟨hk, (Option.some.inj hr').symm⟩
    · next hk => exact Or.inr (Or.inl ⟨hk, hr'⟩)

theorem addSession_rest (hashable : κ → Bool) (h : FgwHandler κ) (r : Nat) (s : Session κ) :
    (h.addSession hashable r s).sessions.length = h.sessions.length ∧
    (h.addSession hashable r s).calls = h.calls ∧
    (h.addSession hashable r s).loggedIn = h.loggedIn ∧
    (h.addSession hashable r s).eventLoop = h.eventLoop := by
  unfold FgwHandler.addSession
  simp only
  split <;> exact ⟨List.length_set, rfl, rfl, rfl⟩

end FgwHandler

end FgwServer

namespace Center

open FgwServer (Cmd Session SessionCtrl FgwHandler Served Request Row)

variable {κ β : Type}

/-! ## Links -/

/-- The event loop is in the queries of a binding. -/
def Busy (h : FgwHandler κ) (seq r : Nat) : Prop :=
  h.eventLoop = .selecting seq r ∨ h.eventLoop = .updating seq r

/-- What the sessions of a gateway's handler are to those who have asked. -/
structure Linked (c : Center κ β) (m : Nat) (f : Fgw κ β) : Prop where
  length : f.asked.length = f.handler.sessions.length
  table : ∀ k r, f.handler.ctrl.find k = some r → ∃ cmd a, f.handler.traits r = some (k, cmd, 2) ∧
    f.asked[r]? = some a ∧ LastAsked c.trace m k r cmd a ∧ NotTold c.trace m r
  calls : ∀ g r, f.handler.calls g = some r → ∃ s, f.handler.sessions[r]? = some s ∧ s.state = 1 ∧
    s.closed = false
  sole : ∀ g g' r, f.handler.calls g = some r → f.handler.calls g' = some r → g = g'
  loop : ∀ k r, Busy f.handler k r → ∃ a data, f.handler.traits r = some (k, .bind, 2) ∧
    f.asked[r]? = some a ∧ f.answer = some data ∧ Heard c.trace m k r .bind a data ∧
    NotTold c.trace m r
  asked : ∀ r k cmd state a, f.handler.traits r = some (k, cmd, state) → f.asked[r]? = some a →
    f.fgwId = some a.fgw ∧ .got a.client cmd a.fgw a.data ∈ c.trace ∧
    ∃ w, c.webs[a.client]? = some w ∧ w.id = a.srcAddr
  told : ∀ r, (∀ k cmd, f.handler.traits r ≠ some (k, cmd, 2)) → NotTold c.trace m r
  waits : f.handler.loggedIn = false → f.fgwId = none

variable {c c' : Center κ β} {m : Nat} {f f' : Fgw κ β} {out : List (Output κ β)}

/-- Web clients come and end, and keep their addresses. -/
def WebsGrow (c c' : Center κ β) : Prop :=
  ∀ (n : Nat) (w : Web), c.webs[n]? = some w → ∃ w', c'.webs[n]? = some w' ∧ w'.id = w.id ∧
    (w.running = false → w'.running = false)

theorem websGrow_of_eq (h : c'.webs = c.webs) : WebsGrow c c' :=
  fun n w hw => ⟨w, by rw [h]; exact hw, rfl, id⟩

/-- What goes on elsewhere is of no matter. -/
theorem Linked.frame (h : Linked c m f) (hwebs : WebsGrow c c') (htrace : c'.trace = c.trace ++ out)
    (hasks : ∀ k, ∀ o ∈ out, ¬ o.Asks m k) (htells : ∀ r, NotTold out m r) : Linked c' m f where
  length := h.length
  table := by
    intro k r hr
    obtain ⟨cmd, a, ht, ha, hlast, hnot⟩ := h.table k r hr
    rw [htrace]
    exact ⟨cmd, a, ht, ha, hlast.append (hasks k), hnot.append (htells r)⟩
  calls := h.calls
  sole := h.sole
  loop := by
    intro k r hr
    obtain ⟨a, data, ht, ha, hanswer, hheard, hnot⟩ := h.loop k r hr
    rw [htrace]
    exact ⟨a, data, ht, ha, hanswer, hheard.append out, hnot.append (htells r)⟩
  asked := by
    intro r k cmd state a ht ha
    obtain ⟨hfgw, hgot, w, hw, hid⟩ := h.asked r k cmd state a ht ha
    obtain ⟨w', hw', hid', -⟩ := hwebs a.client w hw
    rw [htrace]
    exact ⟨hfgw, List.mem_append_left _ hgot, w', hw', hid'.trans hid⟩
  told := by
    intro r hr
    rw [htrace]
    exact (h.told r hr).append (htells r)
  waits := h.waits

/-- Nor is what puts nothing out. -/
theorem Linked.still (h : Linked c m f) (hwebs : c'.webs = c.webs) (htrace : c'.trace = c.trace) :
    Linked c' m f :=
  h.frame (websGrow_of_eq hwebs) (htrace.trans (List.append_nil _).symm)
    (fun _ => List.forall_mem_nil _) fun _ => List.forall_mem_nil _

/-- A session whose query is out is not in the table. -/
theorem Linked.out_of_table (h : Linked c m f) {g r : Nat} (hr : f.handler.calls g = some r)
    (k : Nat) : f.handler.ctrl.find k ≠ some r := by
  intro hk
  obtain ⟨s, hs, hstate, -⟩ := h.calls g r hr
  obtain ⟨cmd, a, ht, -⟩ := h.table k r hk
  rw [FgwHandler.traits_eq hs] at ht
  have htwo : s.state = 2 := congrArg (fun t => t.2.2) (Option.some.inj ht)
  omega

theorem Linked.not_called (h : Linked c m f) {r k : Nat} {cmd : Cmd}
    (ht : f.handler.traits r = some (k, cmd, 2)) (g : Nat) : f.handler.calls g ≠ some r := by
  intro hr
  obtain ⟨s, hs, hstate, -⟩ := h.calls g r hr
  rw [FgwHandler.traits_eq hs] at ht
  have htwo : s.state = 2 := congrArg (fun t => t.2.2) (Option.some.inj ht)
  omega

/-- **The sessions stay what they are**: who is told of, if anybody, has waited, and is found
    nowhere any more; and the event loop goes into queries with the answer it has just taken, if it
    does.  -/
theorem Linked.keep (h : Linked c m f) (hkept : f.handler.Kept f'.handler)
    (hasked : f'.asked = f.asked) (hfgwId : f'.fgwId = f.fgwId)
    (hasks : ∀ k, ∀ o ∈ out, ¬ o.Asks m k)
    (htells : ∀ r, ¬ NotTold out m r → (∃ k cmd, f.handler.traits r = some (k, cmd, 2)) ∧
      (∀ k, f'.handler.ctrl.find k ≠ some r) ∧ ∀ k, ¬ Busy f'.handler k r)
    (hloop : ∀ k r, Busy f'.handler k r → Busy f.handler k r ∧ f'.answer = f.answer ∨
      f.handler.ctrl.find k = some r ∧ (∃ k' state, f.handler.traits r = some (k', .bind, state)) ∧
        ∃ data out', f'.answer = some data ∧ out = .heard m .bind k data :: out') :
    Linked (c.put out) m f' where
  length := by rw [hasked, hkept.length, h.length]
  table := by
    intro k r hr
    obtain ⟨cmd, a, ht, ha, hlast, hnot⟩ := h.table k r (hkept.find k r hr)
    have htold : NotTold out m r := by
      by_contra hcon
      exact (htells r hcon).2.1 k hr
    exact ⟨cmd, a, (hkept.traits r).trans ht, hasked ▸ ha, hlast.append (hasks k),
      hnot.append htold⟩
  calls := by
    intro g r hr
    obtain ⟨hold, hsame⟩ := hkept.calls g r hr
    rw [hsame]
    exact h.calls g r hold
  sole := fun g g' r hr hr' => h.sole g g' r (hkept.calls g r hr).1 (hkept.calls g' r hr').1
  loop := by
    intro k r hr
    have htold : NotTold out m r := by
      by_contra hcon
      exact (htells r hcon).2.2 k hr
    rcases hloop k r hr with ⟨hold, hanswer⟩ | ⟨hfind, ⟨k', state, ht'⟩, data, out', hanswer, hout⟩
    · obtain ⟨a, data, ht, ha, hdata, hheard, hnot⟩ := h.loop k r hold
      exact ⟨a, data, (hkept.traits r).trans ht, hasked ▸ ha, hanswer.trans hdata,
        hheard.append out, hnot.append htold⟩
    · obtain ⟨cmd, a, ht, ha, hlast, hnot⟩ := h.table k r hfind
      obtain rfl : Cmd.bind = cmd :=
        congrArg (fun t => t.2.1) (Option.some.inj (ht'.symm.trans ht))
      refine ⟨a, data, (hkept.traits r).trans ht, hasked ▸ ha, hanswer, ?_, hnot.append htold⟩
      show Heard (c.trace ++ out) m k r .bind a data
      rw [hout]
      exact hlast.heard data out'
  asked := by
    intro r k cmd state a ht ha
    rw [hkept.traits] at ht
    rw [hasked] at ha
    obtain ⟨hfgw, hgot, hweb⟩ := h.asked r k cmd state a ht ha
    exact ⟨hfgwId.trans hfgw, List.mem_append_left _ hgot, hweb⟩
  told := by
    intro r hr
    have hr' : ∀ k cmd, f.handler.traits r ≠ some (k, cmd, 2) := by
      intro k cmd
      rw [← hkept.traits]
      exact hr k cmd
    have htold : NotTold out m r := by
      by_contra hcon
      obtain ⟨k, cmd, ht⟩ := (htells r hcon).1
      exact hr' k cmd ht
    exact (h.told r hr').append htold
  waits := by
    intro hlogged
    rw [hfgwId]
    exact h.waits (hkept.loggedIn.symm.trans hlogged)

/-- **A session is opened** for a request that was taken, and its query may be sent. -/
theorem Linked.opened (h : Linked c m f) {s : Session κ} {a : Asked β} (hstate : s.state = 1)
    (hclosed : s.closed = false) (calls : Nat → Option Nat)
    (hcalls : ∀ g r, calls g = some r → f.handler.calls g = some r ∨ r = f.handler.sessions.length)
    (hsole : ∀ g g', calls g = some f.handler.sessions.length →
      calls g' = some f.handler.sessions.length → g = g')
    (hfgw : f.fgwId = some a.fgw) (hgot : .got a.client s.cmd a.fgw a.data ∈ c.trace)
    (hweb : ∃ w, c.webs[a.client]? = some w ∧ w.id = a.srcAddr) :
    Linked c m { f with
      handler := { f.handler.draw s with calls := calls }
      asked := f.asked ++ [a] } := by
  have htraits : ∀ r, ({ f.handler.draw s with calls := calls } : FgwHandler κ).traits r =
      if r = f.handler.sessions.length then some s.traits else f.handler.traits r :=
    fun r => f.handler.traits_draw s r
  have hold : ∀ {r : Nat} {t : Nat × Cmd × Nat}, f.handler.traits r = some t →
      ({ f.handler.draw s with calls := calls } : FgwHandler κ).traits r = some t := by
    intro r t ht
    have hlt := FgwHandler.traits_lt ht
    rw [htraits, if_neg (by omega)]
    exact ht
  have hasked : ∀ {r : Nat} {a' : Asked β}, f.asked[r]? = some a' →
      (f.asked ++ [a])[r]? = some a' := by
    intro r a' ha'
    rw [List.getElem?_append_left (List.getElem?_eq_some_iff.mp ha').1]
    exact ha'
  have hlt : ∀ {g r : Nat}, f.handler.calls g = some r → r < f.handler.sessions.length := by
    intro g r hr
    obtain ⟨s', hs', -⟩ := h.calls g r hr
    exact (List.getElem?_eq_some_iff.mp hs').1
  refine ⟨?_, ?_, ?_, ?_, ?_, ?_, ?_, h.waits⟩
  · show (f.asked ++ [a]).length = (f.handler.sessions ++ [s]).length
    rw [List.length_append, List.length_append, h.length]
    rfl
  · intro k r hr
    obtain ⟨cmd, a', ht, ha', hlast⟩ := h.table k r hr
    exact ⟨cmd, a', hold ht, hasked ha', hlast⟩
  · intro g r hr
    show ∃ s', (f.handler.sessions ++ [s])[r]? = some s' ∧ _
    rcases hcalls g r hr with hr | rfl
    · rw [List.getElem?_append_left (hlt hr)]
      exact h.calls g r hr
    · exact ⟨s, List.getElem?_concat_length, hstate, hclosed⟩
  · intro g g' r hr hr'
    by_cases hnew : r = f.handler.sessions.length
    · subst hnew
      exact hsole g g' hr hr'
    · exact h.sole g g' r ((hcalls g r hr).resolve_right hnew)
        ((hcalls g' r hr').resolve_right hnew)
  · intro k r hr
    obtain ⟨a', data, ht, ha', hloop⟩ := h.loop k r hr
    exact ⟨a', data, hold ht, hasked ha', hloop⟩
  · intro r k cmd state a' ht ha'
    rw [htraits] at ht
    split at ht
    · next hr =>
      change (f.asked ++ [a])[r]? = some a' at ha'
      rw [hr, ← h.length, List.getElem?_concat_length] at ha'
      obtain rfl := Option.some.inj ha'
      obtain rfl : s.cmd = cmd := congrArg (fun t => t.2.1) (Option.some.inj ht)
      exact ⟨hfgw, hgot, hweb⟩
    · change (f.asked ++ [a])[r]? = some a' at ha'
      have hr := FgwHandler.traits_lt ht
      rw [List.getElem?_append_left (by rw [h.length]; exact hr)] at ha'
      exact h.asked r k cmd state a' ht ha'
  · intro r hr
    refine h.told r fun k cmd ht => hr k cmd (hold ht)

/-- **The request of a session is sent**: it is the last one under its key from now on. -/
theorem Linked.sent [DecidableEq κ] (hashable : κ → Bool) (h : Linked c m f) {r : Nat}
    {s : Session κ} (hs : f.handler.sessions[r]? = some s) (hstate : s.state = 1)
    (hclosed : s.closed = false) (hcalls : ∀ g, f.handler.calls g ≠ some r)
    (hf' : f' = { f with handler := f.handler.addSession hashable r s }) :
    Linked (c.put (requestOf m f' r)) m f' := by
  subst hf'
  have htraits : ∀ r', (f.handler.addSession hashable r s).traits r' =
      if r' = r then some (s.key, s.cmd, 2) else f.handler.traits r' :=
    FgwHandler.traits_addSession hs
  have hone : f.handler.traits r = some (s.key, s.cmd, 1) := by
    rw [FgwHandler.traits_eq hs, Session.traits, hstate]
  obtain ⟨hlength, hcallsEq, hloggedEq, hloopEq⟩ :=
    f.handler.addSession_rest hashable r s
  obtain ⟨a, ha⟩ : ∃ a, f.asked[r]? = some a := by
    have hlt : r < f.asked.length := by
      rw [h.length]
      exact (List.getElem?_eq_some_iff.mp hs).1
    exact ⟨f.asked[r], List.getElem?_eq_getElem hlt⟩
  have hout : requestOf m { f with handler := f.handler.addSession hashable r s } r =
      [.asked m r s.cmd s.key a] := by
    have htwo := htraits r
    rw [if_pos rfl] at htwo
    obtain ⟨s', hs', hsame⟩ := Option.map_eq_some_iff.mp htwo
    obtain ⟨hkey, hcmd, -⟩ : s'.key = s.key ∧ s'.cmd = s.cmd ∧ s'.state = 2 := by
      simpa [Session.traits] using hsame
    unfold requestOf
    simp only [hs', ha, hkey, hcmd]
  rw [hout]
  obtain ⟨-, hgot, -⟩ := h.asked r s.key s.cmd 1 a hone ha
  have htold : ∀ q, NotTold ([.asked m r s.cmd s.key a] : List (Output κ β)) m q := by
    intro q o ho
    rw [List.mem_singleton.mp ho]
    exact id
  have hnot : NotTold c.trace m r := by
    refine h.told r fun k cmd ht => ?_
    rw [hone] at ht
    cases ht
  -- who waits is another one
  have hother : ∀ {q k : Nat} {cmd : Cmd}, f.handler.traits q = some (k, cmd, 2) →
      (f.handler.addSession hashable r s).traits q = some (k, cmd, 2) := by
    intro q k cmd hq
    rw [htraits, if_neg]
    · exact hq
    · rintro rfl
      rw [hone] at hq
      cases hq
  refine ⟨?_, ?_, ?_, ?_, ?_, ?_, ?_, ?_⟩
  · exact h.length.trans hlength.symm
  · intro k q hq
    rcases f.handler.find_addSession r s k q hq with ⟨rfl, rfl⟩ | ⟨hk, hold⟩ | ⟨hcon, -⟩
    · refine ⟨s.cmd, a, ?_, ha, ⟨c.trace, [], rfl, hgot, List.forall_mem_nil _⟩,
        hnot.append (htold q)⟩
      show (f.handler.addSession hashable q s).traits q = _
      rw [htraits, if_pos rfl]
    · obtain ⟨cmd, a', ht, ha', hlast, hnot'⟩ := h.table k q hold
      refine ⟨cmd, a', hother ht, ha', hlast.append fun o ho => ?_, hnot'.append (htold q)⟩
      rw [List.mem_singleton.mp ho]
      exact fun hcon => hk hcon.2.symm
    · rw [hclosed] at hcon
      cases hcon
  · intro g q hq
    change (f.handler.addSession hashable r s).calls g = some q at hq
    rw [hcallsEq] at hq
    obtain ⟨s', hs', hwaits⟩ := h.calls g q hq
    refine ⟨s', ?_, hwaits⟩
    have hne : r ≠ q := fun hcon => hcalls g (hcon ▸ hq)
    show (f.handler.addSession hashable r s).sessions[q]? = some s'
    unfold FgwHandler.addSession
    simp only
    split <;> exact (List.getElem?_set_ne hne).trans hs'
  · intro g g' q hq hq'
    change (f.handler.addSession hashable r s).calls g = some q at hq
    change (f.handler.addSession hashable r s).calls g' = some q at hq'
    rw [hcallsEq] at hq hq'
    exact h.sole g g' q hq hq'
  · intro k q hq
    have hold : Busy f.handler k q := by
      unfold Busy at hq ⊢
      rw [← hloopEq]
      exact hq
    obtain ⟨a', data, ht, ha', hanswer, hheard, hnot'⟩ := h.loop k q hold
    exact ⟨a', data, hother ht, ha', hanswer, hheard.append _, hnot'.append (htold q)⟩
  · intro q k cmd state a' ht ha'
    change (f.handler.addSession hashable r s).traits q = _ at ht
    have hstill : ∃ state', f.handler.traits q = some (k, cmd, state') := by
      rw [htraits] at ht
      split at ht
      · next hq =>
        subst hq
        obtain ⟨rfl, hrest⟩ := Prod.mk.inj (Option.some.inj ht)
        obtain ⟨rfl, -⟩ := Prod.mk.inj hrest
        exact ⟨1, hone⟩
      · exact ⟨state, ht⟩
    obtain ⟨state', hq⟩ := hstill
    obtain ⟨hfgw, hgot', hweb⟩ := h.asked q k cmd state' a' hq ha'
    exact ⟨hfgw, List.mem_append_left _ hgot', hweb⟩
  · intro q hq
    refine (h.told q fun k cmd ht => hq k cmd (hother ht)).append (htold q)
  · intro hlogged
    change (f.handler.addSession hashable r s).loggedIn = false at hlogged
    rw [hloggedEq] at hlogged
    exact h.waits hlogged

/-! ### Steps of a gateway's handler -/

/-- What a step of the gateway's handler puts out is about its own sessions; and who is told has the
    address that the request of the session came from, and hears the answer to it for the first
    time. -/
structure Moves (c : Center κ β) (m : Nat) (f f' : Fgw κ β) (out : List (Output κ β)) : Prop where
  id : f'.id = f.id
  running : f'.running = f.running
  fgwId : f'.fgwId = f.fgwId
  linked : Linked (c.put out) m f'
  own : ∀ o ∈ out, ∀ m' k, m' ≠ m → ¬ o.Asks m' k ∧ ¬ o.Tells m' k
  told : ∀ before after n m' r cmd seq key data,
    out = before ++ .told n m' r cmd seq key data :: after → m' = m ∧
      ∃ a, f.asked[r]? = some a ∧ c.webMap a.srcAddr = some n ∧
        Heard (c.trace ++ before) m seq r cmd a data ∧ NotTold (c.trace ++ before) m r

theorem put_nil (c : Center κ β) : c.put [] = c := by
  unfold put
  rw [List.append_nil]

/-- Nothing is put out. -/
theorem Moves.quiet (hid : f'.id = f.id) (hrunning : f'.running = f.running)
    (hfgwId : f'.fgwId = f.fgwId) (hlinked : Linked c m f') : Moves c m f f' [] where
  id := hid
  running := hrunning
  fgwId := hfgwId
  linked := by
    rw [put_nil]
    exact hlinked
  own := List.forall_mem_nil _
  told := by
    intro before after n m' r cmd seq key data hout
    cases before <;> cases hout

/-- The web client to whom the answer for a session goes. -/
theorem tell_eq (c : Center κ β) {m : Nat} {f : Fgw κ β} {r : Nat} {a : Asked β}
    (ha : f.asked[r]? = some a) (cmd : Cmd) (seq : Nat) (key : Option κ) (data : β) :
    c.tell m f r cmd seq key data =
      match c.webMap a.srcAddr with
      | some n => [.told n m r cmd seq key data]
      | none => [] := by
  have hbind : (f.asked[r]?.bind fun a => c.webMap a.srcAddr) = c.webMap a.srcAddr := by
    rw [ha, Option.bind_some]
  exact congrArg (fun o : Option Nat => match o with
    | some n => [Output.told n m r cmd seq key data]
    | none => []) hbind

theorem sends_eq (c : Center κ β) {f : Fgw κ β} {r : Nat} {a : Asked β}
    (ha : f.asked[r]? = some a) : (c.served f).sends r = (c.webMap a.srcAddr).isSome := by
  unfold Served.sends served
  simp only
  rw [List.getElem?_map, ha]
  rfl

/-- The sessions stay what they are, and nobody is asked or told. -/
theorem Linked.moves_kept (h : Linked c m f) {handler : FgwHandler κ} {out : List (Output κ β)}
    (answer : Option β) (hkept : f.handler.Kept handler)
    (hbusy : ∀ q r, Busy handler q r → Busy f.handler q r ∧ answer = f.answer)
    (hquiet : ∀ o ∈ out, ∀ m' k', ¬ o.Asks m' k' ∧ ¬ o.Tells m' k') :
    Moves c m f { f with handler := handler, answer := answer } out := by
  refine ⟨rfl, rfl, rfl, ?_, fun o ho m' k' _ => hquiet o ho m' k', ?_⟩
  · refine h.keep hkept rfl rfl (fun k' o ho => (hquiet o ho m k').1) (fun r hcon => ?_)
      fun q r hq => Or.inl (hbusy q r hq)
    exact absurd (fun o ho => (hquiet o ho m r).2) hcon
  · intro before after n m' r cmd seq key data hout
    refine absurd ⟨rfl, rfl⟩ (hquiet (.told n m' r cmd seq key data) ?_ m' r).2
    rw [hout]
    exact List.mem_append_right _ List.mem_cons_self

/-- Nor is the event loop in any query. -/
theorem Linked.moves_heard (h : Linked c m f) {handler : FgwHandler κ} {out : List (Output κ β)}
    {answer : Option β} (hkept : f.handler.Kept handler) (hbusy : ∀ q r, ¬ Busy handler q r)
    (hquiet : ∀ o ∈ out, ∀ m' k', ¬ o.Asks m' k' ∧ ¬ o.Tells m' k') :
    Moves c m f { f with handler := handler, answer := answer } out :=
  h.moves_kept answer hkept (fun q r hq => absurd hq (hbusy q r)) hquiet

/-- The answer for a waiting session goes to its client, and the session is found nowhere then. -/
theorem Linked.moves_told (h : Linked c m f) {r k : Nat} {cmd : Cmd} {a : Asked β} {data : β}
    (out : List (Output κ β)) {key : Option κ} {n : Nat}
    (ht : f.handler.traits r = some (k, cmd, 2)) (ha : f.asked[r]? = some a)
    (hn : c.webMap a.srcAddr = some n) (hheard : Heard (c.trace ++ out) m k r cmd a data)
    (hnot : NotTold c.trace m r) (hkept : f.handler.Kept f'.handler)
    (hfind : ∀ q, f'.handler.ctrl.find q ≠ some r) (hbusy : ∀ q r', ¬ Busy f'.handler q r')
    (hasked : f'.asked = f.asked) (hfgwId : f'.fgwId = f.fgwId) (hid : f'.id = f.id)
    (hrunning : f'.running = f.running)
    (hquiet : ∀ o ∈ out, ∀ m' k', ¬ o.Asks m' k' ∧ ¬ o.Tells m' k') :
    Moves c m f f' (out ++ [.told n m r cmd k key data]) := by
  have hown : ∀ o ∈ out ++ [.told n m r cmd k key data], ∀ m' k',
      ¬ o.Asks m' k' ∧ (o.Tells m' k' → m' = m ∧ k' = r) := by
    intro o ho m' k'
    rcases List.mem_append.mp ho with ho | ho
    · exact ⟨(hquiet o ho m' k').1, fun hcon => absurd hcon (hquiet o ho m' k').2⟩
    · rw [List.mem_singleton.mp ho]
      exact ⟨id, fun hcon => ⟨hcon.1.symm, hcon.2.symm⟩⟩
  refine ⟨hid, hrunning, hfgwId, ?_, ?_, ?_⟩
  · refine h.keep hkept hasked hfgwId (fun k' o ho => (hown o ho m k').1) ?_
      fun q r' hq => absurd hq (hbusy q r')
    intro r' hcon
    obtain rfl : r' = r := by
      by_contra hne
      exact hcon fun o ho htells => hne ((hown o ho m r').2 htells).2
    exact ⟨⟨k, cmd, ht⟩, hfind, fun q => hbusy q r'⟩
  · exact fun o ho m' k' hm' => ⟨(hown o ho m' k').1, fun hcon => hm' ((hown o ho m' k').2 hcon).1⟩
  · intro before after n' m' r' cmd' seq' key' data' hout
    -- it is the last one of what is put out
    have hlast : before = out ∧ after = [] := by
      rcases List.append_eq_append_iff.mp hout with ⟨xs, hxs, hrest⟩ | ⟨xs, hxs, hrest⟩
      · cases xs with
        | nil =>
          rw [List.append_nil] at hxs
          exact ⟨hxs, ((List.cons.inj hrest).2).symm⟩
        | cons x xs =>
          obtain ⟨-, hnil⟩ := List.cons.inj hrest
          cases xs <;> cases hnil
      · cases xs with
        | nil =>
          rw [List.append_nil] at hxs
          exact ⟨hxs.symm, (List.cons.inj hrest).2⟩
        | cons x xs =>
          obtain ⟨rfl, -⟩ := List.cons.inj hrest
          have hmem : .told n' m' r' cmd' seq' key' data' ∈ out := by
            rw [hxs]
            exact List.mem_append_right _ List.mem_cons_self
          exact absurd ⟨rfl, rfl⟩ (hquiet _ hmem m' r').2
    obtain ⟨rfl, rfl⟩ := hlast
    obtain ⟨rfl, rfl, rfl, rfl, rfl, -, rfl⟩ :=
      Output.told.inj (List.singleton_inj.mp (List.append_cancel_left hout)).symm
    exact ⟨rfl, a, ha, hn, hheard, hnot.append fun o ho => (hquiet o ho m' r').2⟩

variable [DecidableEq κ] (hashable : κ → Bool)

/-- **An answer of the gateway is taken.** -/
theorem Linked.moves_answer (h : Linked c m f) (hready : f.handler.eventLoop = .ready)
    (hlogged : f.handler.loggedIn = true) (cmd : Option Cmd) (seq : Option Nat) (data : β) :
    ∃ f' out, c.answer hashable m f cmd seq data = (c.setFgw m f').put out ∧
      Moves c m f f' out := by
  have hnext : ((c.served f).next hashable (.message cmd seq)).handler =
      (c.served f).eventLoggedIn cmd seq := by
    rw [Served.next, if_pos ⟨hready, hlogged⟩]
  refine ⟨_, _, rfl, ?_⟩
  rw [hnext]
  have hfree : ∀ k r, ¬ Busy f.handler k r := by
    intro k r hbusy
    unfold Busy at hbusy
    rw [hready] at hbusy
    rcases hbusy with hcon | hcon <;> cases hcon
  have hdead : ∀ k r, ¬ Busy { f.handler with eventLoop := .dead } k r := by
    intro k r hbusy
    rcases hbusy with hcon | hcon <;> cases hcon
  have hkept : ∀ eventLoop, f.handler.Kept { f.handler with eventLoop := eventLoop } :=
    fun _ => FgwHandler.kept_frame rfl rfl rfl rfl
  cases cmd with
  | none =>
    cases seq with
    | none => exact h.moves_heard (hkept f.handler.eventLoop) hfree (List.forall_mem_nil _)
    | some k => exact h.moves_heard (hkept f.handler.eventLoop) hfree (List.forall_mem_nil _)
  | some cmd =>
    cases seq with
    | none => exact h.moves_heard (hkept .dead) hdead (List.forall_mem_nil _)
    | some k =>
      have hquiet : ∀ o ∈ ([.heard m cmd k data] : List (Output κ β)), ∀ m' k',
          ¬ o.Asks m' k' ∧ ¬ o.Tells m' k' := by
        intro o ho m' k'
        rw [List.mem_singleton.mp ho]
        exact ⟨id, id⟩
      simp only [Served.eventLoggedIn, FgwHandler.eventLoggedIn, Served.find, Option.bind_some]
      cases hfind : f.handler.ctrl.find k with
      | none =>
        have hserved : (c.served f).handler.ctrl.find k = none := hfind
        simp only [hserved, Option.bind_none]
        exact h.moves_heard (hkept .dead) hdead hquiet
      | some r =>
        have hserved : (c.served f).handler.ctrl.find k = some r := hfind
        obtain ⟨cmd', a, ht, ha, hlast, hnot⟩ := h.table k r hfind
        obtain ⟨s, hs, hsame⟩ := Option.map_eq_some_iff.mp ht
        obtain ⟨-, hcmd', hstate⟩ : s.key = k ∧ s.cmd = cmd' ∧ s.state = 2 := by
          simpa [Session.traits] using hsame
        subst hcmd'
        have hservedSession : (c.served f).handler.sessions[r]? = some s := hs
        obtain ⟨hclose, hgone⟩ := f.handler.kept_closeSession k hs (h.not_called ht)
        -- the session is in the table under its own key alone
        have hnowhere : ∀ q, (f.handler.closeSession k r).ctrl.find q ≠ some r := by
          intro q hq
          rw [hgone] at hq
          split at hq
          · cases hq
          · next hne =>
            obtain ⟨cmd'', a', ht', -⟩ := h.table q r hq
            rw [ht] at ht'
            exact hne (congrArg Prod.fst (Option.some.inj ht')).symm
        have hcloseFree : ∀ q r', ¬ Busy (f.handler.closeSession k r) q r' := by
          intro q r' hbusy
          refine hfree q r' ?_
          unfold Busy at hbusy ⊢
          unfold FgwHandler.closeSession at hbusy
          simpa only [hs] using hbusy
        simp only [hserved, hservedSession, hs, Option.bind_some, Option.map_some, Option.any_some,
          sends_eq c ha, tell_eq c ha]
        by_cases hmatch : s.cmd = cmd
        · subst hmatch
          have hwaits : s.state = 2 ∧ s.cmd = s.cmd := ⟨hstate, rfl⟩
          by_cases hbind : s.cmd = .bind
          · -- the event loop is in the queries now, with this answer
            have hheld : ¬ (s.state = 2 ∧ s.cmd = s.cmd ∧ s.cmd ≠ .bind) :=
              fun hcon => hcon.2.2 hbind
            rw [if_pos hwaits, if_pos hbind, if_neg hheld]
            refine ⟨rfl, rfl, rfl, ?_, fun o ho m' k' _ => hquiet o ho m' k', ?_⟩
            · refine h.keep (hkept _) rfl rfl (fun k' o ho => (hquiet o ho m k').1)
                (fun r' hcon => absurd (fun o ho => (hquiet o ho m r').2) hcon) ?_
              intro q r' hbusy
              obtain ⟨rfl, rfl⟩ : k = q ∧ r = r' := by
                rcases hbusy with hcon | hcon
                · exact FgwServer.EventLoop.selecting.inj hcon
                · cases hcon
              refine Or.inr ⟨hfind, ⟨k, 2, hbind ▸ ht⟩, data, [], rfl, ?_⟩
              rw [hbind]
            · intro before after n m' r' cmd' seq key data' hout
              cases before with
              | nil => cases hout
              | cons o before =>
                obtain ⟨-, hcon⟩ := List.cons.inj hout
                cases before <;> cases hcon
          · have hgoes : s.state = 2 ∧ s.cmd = s.cmd ∧ s.cmd ≠ .bind := ⟨hstate, rfl, hbind⟩
            rw [if_pos hwaits, if_neg hbind, if_pos hgoes]
            cases hn : c.webMap a.srcAddr with
            | none => exact h.moves_heard (hkept .dead) hdead hquiet
            | some n =>
              exact h.moves_told [.heard m s.cmd k data] ht ha hn (hlast.heard data [])
                hnot hclose hnowhere hcloseFree rfl rfl rfl rfl hquiet
        · have hwrong : ¬ (s.state = 2 ∧ s.cmd = cmd) := fun hcon => hmatch hcon.2
          have hstays : ¬ (s.state = 2 ∧ s.cmd = cmd ∧ cmd ≠ .bind) := fun hcon => hmatch hcon.2.1
          rw [if_neg hwrong, if_neg hstays]
          exact h.moves_heard hclose hcloseFree hquiet

omit [DecidableEq κ] in
theorem kept_eventLoop (h : FgwHandler κ) (eventLoop : FgwServer.EventLoop) :
    h.Kept { h with eventLoop := eventLoop } := FgwHandler.kept_frame rfl rfl rfl rfl

/-- The second query of a binding comes back. -/
theorem Linked.moves_updated (h : Linked c m f) (committed : Bool) :
    ∃ f' out, c.updated hashable m f committed = (c.setFgw m f').put out ∧ Moves c m f f' out := by
  refine ⟨_, _, rfl, ?_⟩
  have hdead : ∀ k r, ¬ Busy { f.handler with eventLoop := .dead } k r := by
    intro k r hbusy
    rcases hbusy with hcon | hcon <;> cases hcon
  have hserved : (c.served f).handler = f.handler := rfl
  cases hloop : f.handler.eventLoop with
  | ready | selecting | dead =>
    simp only [Served.next, hserved, hloop]
    exact h.moves_kept f.answer (FgwHandler.kept_frame rfl rfl rfl rfl)
      (fun _ _ hq => ⟨hq, rfl⟩) (List.forall_mem_nil _)
  | updating k r =>
    obtain ⟨a, data, ht, ha, hanswer, hheard, hnot⟩ := h.loop k r (Or.inr hloop)
    obtain ⟨s, hs, hsame⟩ := Option.map_eq_some_iff.mp ht
    simp only [Served.next, FgwHandler.next, hserved, hloop, hanswer, sends_eq c ha]
    cases committed with
    | false => exact h.moves_heard (kept_eventLoop f.handler .dead) hdead (List.forall_mem_nil _)
    | true =>
      simp only [hs, tell_eq c ha]
      cases hn : c.webMap a.srcAddr with
      | none => exact h.moves_heard (kept_eventLoop f.handler .dead) hdead (List.forall_mem_nil _)
      | some n =>
        obtain ⟨hclose, hgone⟩ := f.handler.kept_closeSession k hs (h.not_called ht)
        simp only [Bool.true_and, Option.isSome_some, if_true]
        refine h.moves_told [] ht ha hn (hheard.append []) hnot
          ⟨hclose.traits, hclose.length, hclose.find, hclose.calls, hclose.loggedIn⟩ ?_ ?_ rfl rfl
          rfl rfl (List.forall_mem_nil _)
        · intro q hq
          change (f.handler.closeSession k r).ctrl.find q = some r at hq
          rw [hgone] at hq
          split at hq
          · cases hq
          · next hne =>
            obtain ⟨cmd, a', ht', -⟩ := h.table q r hq
            rw [ht] at ht'
            exact hne (congrArg Prod.fst (Option.some.inj ht')).symm
        · intro q r' hbusy
          rcases hbusy with hcon | hcon <;> cases hcon

/-- The first query of a binding comes back. -/
theorem Linked.moves_selected (h : Linked c m f) (row : Row) :
    ∃ f' out, c.quietly hashable m f (.selected row) = (c.setFgw m f').put out ∧
      Moves c m f f' out := by
  refine ⟨{ f with handler := f.handler.next hashable (.selected row) }, [], (put_nil _).symm, ?_⟩
  have hkept : f.handler.Kept (f.handler.next hashable (.selected row)) := by
    unfold FgwHandler.next
    simp only
    split
    · split <;> exact FgwHandler.kept_frame rfl rfl rfl rfl
    · exact FgwHandler.kept_frame rfl rfl rfl rfl
  refine h.moves_kept f.answer hkept (fun q r hbusy => ⟨?_, rfl⟩)
    (List.forall_mem_nil _)
  unfold FgwHandler.next at hbusy
  simp only at hbusy
  split at hbusy
  · next seq r' hloop =>
    split at hbusy
    · rcases hbusy with hcon | hcon
      · cases hcon
      · obtain ⟨rfl, rfl⟩ := FgwServer.EventLoop.updating.inj hcon
        exact Or.inl hloop
    · rcases hbusy with hcon | hcon <;> cases hcon
  · exact hbusy

theorem Linked.moves_routine (h : Linked c m f) (curTime : Int) :
    ∃ f' out, c.quietly hashable m f (.routine curTime) = (c.setFgw m f').put out ∧
      Moves c m f f' out := by
  refine ⟨{ f with handler := f.handler.next hashable (.routine curTime) }, [],
    (put_nil _).symm, ?_⟩
  have hkept := f.handler.kept_routine hashable curTime
    fun g r k hr => h.out_of_table hr k
  refine h.moves_kept f.answer hkept (fun q r hbusy => ⟨?_, rfl⟩)
    (List.forall_mem_nil _)
  unfold FgwHandler.next at hbusy
  simp only at hbusy
  split at hbusy <;> exact hbusy

omit [DecidableEq κ] in
/-- A request that is sent is one to this gateway. -/
theorem own_requestOf (m : Nat) (f : Fgw κ β) (r : Nat) :
    ∀ o ∈ requestOf m f r, ∀ m' k, (m' ≠ m → ¬ o.Asks m' k) ∧ ¬ o.Tells m' k := by
  intro o ho m' k
  unfold requestOf at ho
  split at ho
  · rw [List.mem_singleton.mp ho]
    exact ⟨fun hne hcon => hne hcon.1.symm, id⟩
  · cases ho

omit [DecidableEq κ] in
theorem Moves.request (hid : f'.id = f.id) (hrunning : f'.running = f.running)
    (hfgwId : f'.fgwId = f.fgwId) {r : Nat} (hlinked : Linked (c.put (requestOf m f' r)) m f') :
    Moves c m f f' (requestOf m f' r) where
  id := hid
  running := hrunning
  fgwId := hfgwId
  linked := hlinked
  own := fun o ho m' k hm' =>
    ⟨(own_requestOf m f' r o ho m' k).1 hm', (own_requestOf m f' r o ho m' k).2⟩
  told := by
    intro before after n m' r' cmd seq key data hout
    refine absurd ⟨rfl, rfl⟩ (own_requestOf m f' r (.told n m' r' cmd seq key data) ?_ m' r').2
    rw [hout]
    exact List.mem_append_right _ List.mem_cons_self

omit [DecidableEq κ] in
/-- A session's query is out no more. -/
theorem Linked.back (h : Linked c m f) (g : Nat) :
    Linked c m { f with
      handler := { f.handler with calls := Function.update f.handler.calls g none } } := by
  have hkept : f.handler.Kept
      { f.handler with calls := Function.update f.handler.calls g none } := by
    refine ⟨fun _ => rfl, rfl, fun _ _ hr => hr, fun g' r hr => ⟨?_, rfl⟩, rfl⟩
    change Function.update f.handler.calls g none g' = some r at hr
    by_cases hg : g' = g
    · subst hg
      rw [Function.update_self] at hr
      cases hr
    · rw [Function.update_of_ne hg] at hr
      exact hr
  have hmoves := h.moves_kept f.answer hkept (fun _ _ hq => ⟨hq, rfl⟩)
    (List.forall_mem_nil _)
  have hlinked := hmoves.linked
  rw [put_nil] at hlinked
  exact hlinked

omit [DecidableEq κ] in
theorem update_calls {calls : Nat → Option Nat} {g g' q r : Nat}
    (h : Function.update calls g (some q) g' = some r) : g' = g ∧ r = q ∨ calls g' = some r := by
  by_cases hg : g' = g
  · subst hg
    rw [Function.update_self] at h
    exact Or.inl ⟨rfl, (Option.some.inj h).symm⟩
  · rw [Function.update_of_ne hg] at h
    exact Or.inr h

/-- **A web client's request** gets into a gateway's handler. -/
theorem Linked.moves_onInner (h : Linked c m f) {n : Nat} {w : Web} (hw : c.webs[n]? = some w)
    {cmd : Cmd} {fgw : String} {msg : WebMsg κ β} (hgot : .got n cmd fgw msg.data ∈ c.trace)
    (hfgw : f.fgwId = some fgw) (seq : κ) (now : Int) :
    ∃ f' out eventLoop, c.onInner hashable n w m f cmd fgw seq msg now =
      ((c.setFgw m f').put out).setWeb n { w with eventLoop := eventLoop } ∧
      Moves c m f f' out := by
  refine ⟨_, _, _, rfl, ?_⟩
  have hserved : ((c.served f).next hashable
      (.onInner w.id ⟨some cmd, seq, msg.account, msg.fgw⟩ now)).handler =
      if (c.webMap w.id).isSome then
        f.handler.next hashable (.onInner w.id ⟨some cmd, seq, msg.account, msg.fgw⟩ now)
      else f.handler := by
    rw [Served.next]
    show Served.handler (if (c.webMap w.id).isSome = true then _ else _) = _
    split <;> rfl
  rw [hserved]
  -- nothing is opened
  have hsame : ∀ handler, handler = f.handler → Moves c m f
      { f with
        handler := handler
        asked :=
          if decide (f.handler.sessions.length < handler.sessions.length) then
            f.asked ++ [⟨n, w.id, fgw, msg.data⟩]
          else f.asked }
      (if decide (f.handler.sessions.length < handler.sessions.length) && !cmd.queries then
        requestOf m { f with
          handler := handler
          asked :=
            if decide (f.handler.sessions.length < handler.sessions.length) then
              f.asked ++ [⟨n, w.id, fgw, msg.data⟩]
            else f.asked } f.handler.sessions.length
      else []) := by
    intro handler heq
    subst heq
    simp only [Nat.lt_irrefl, decide_false, Bool.false_and, Bool.false_eq_true, if_false]
    exact Moves.quiet rfl rfl rfl h
  split
  case isFalse => exact hsame _ rfl
  case isTrue =>
    rcases @FgwHandler.next_onInner_cases κ _ hashable f.handler w.id
      ⟨some cmd, seq, msg.account, msg.fgw⟩ now with heq | ⟨hcall, -, -, cmd', hcmd, heq⟩
    · rw [heq]
      exact hsame _ rfl
    obtain rfl := Option.some.inj hcmd
    rw [heq]
    have hlt : ∀ {g r : Nat}, f.handler.calls g = some r → r < f.handler.sessions.length := by
      intro g r hr
      obtain ⟨s', hs', -⟩ := h.calls g r hr
      exact (List.getElem?_eq_some_iff.mp hs').1
    cases hqueries : cmd.queries with
    | true =>
      -- the query is sent, or the session raises
      have hopen : ∃ calls, FgwHandler.openSession hashable f.handler w.id
          ⟨some cmd, seq, msg.account, msg.fgw⟩ cmd now =
          { f.handler.draw (f.handler.createSession seq cmd now) with calls := calls } ∧
          (calls = f.handler.calls ∨
            calls = Function.update f.handler.calls w.id (some f.handler.sessions.length)) := by
        unfold FgwHandler.openSession
        simp only [hqueries, if_true]
        split
        · exact ⟨_, rfl, Or.inr rfl⟩
        · exact ⟨_, rfl, Or.inl rfl⟩
      obtain ⟨calls, hopen, hcalls⟩ := hopen
      rw [hopen]
      have hlength : f.handler.sessions.length <
          (f.handler.draw (f.handler.createSession seq cmd now)).sessions.length := by
        rw [FgwHandler.draw, List.length_append]
        exact Nat.lt_succ_self _
      simp only [hlength, decide_true, Bool.not_true, Bool.and_false, Bool.false_eq_true, if_false,
        if_true]
      refine Moves.quiet rfl rfl rfl (h.opened rfl rfl _ ?_ ?_ hfgw hgot ⟨w, hw, rfl⟩)
      · intro g r hr
        rcases hcalls with rfl | rfl
        · exact Or.inl hr
        · exact (update_calls hr).elim (fun hnew => Or.inr hnew.2) Or.inl
      · intro g g' hg hg'
        rcases hcalls with rfl | rfl
        · exact absurd (hlt hg) (Nat.lt_irrefl _)
        · rcases update_calls hg with ⟨rfl, -⟩ | hold
          · rcases update_calls hg' with ⟨rfl, -⟩ | hold
            · rfl
            · exact absurd (hlt hold) (Nat.lt_irrefl _)
          · exact absurd (hlt hold) (Nat.lt_irrefl _)
    | false =>
      rw [FgwHandler.openSession_add f.handler w.id _ hqueries now]
      have hopened := h.opened (s := f.handler.createSession seq cmd now)
        (a := ⟨n, w.id, fgw, msg.data⟩) rfl rfl f.handler.calls (fun _ _ => Or.inl)
        (fun g _ hg => absurd (hlt hg) (Nat.lt_irrefl _)) hfgw hgot ⟨w, hw, rfl⟩
      have hnew : (f.handler.draw (f.handler.createSession seq cmd now)).sessions[
          f.handler.sessions.length]? = some (f.handler.createSession seq cmd now) :=
        List.getElem?_concat_length
      have hlength : f.handler.sessions.length <
          ((f.handler.draw (f.handler.createSession seq cmd now)).addSession hashable
            f.handler.sessions.length (f.handler.createSession seq cmd now)).sessions.length := by
        rw [(FgwHandler.addSession_rest _ _ _ _).1, FgwHandler.draw, List.length_append]
        exact Nat.lt_succ_self _
      simp only [hlength, decide_true, Bool.not_false, Bool.and_self, if_true]
      refine Moves.request ?_ ?_ ?_ (hopened.sent hashable hnew rfl rfl
        (fun g hg => absurd (hlt hg) (Nat.lt_irrefl _)) ?_) <;> rfl

/-- The query of a session comes back. -/
theorem Linked.moves_answered (h : Linked c m f) (n : Nat) (w : Web) (row : Row) :
    c.answered hashable n w m f row = c ∨
    ∃ f' out eventLoop, c.answered hashable n w m f row =
      ((c.setFgw m f').put out).setWeb n { w with eventLoop := eventLoop } ∧
      Moves c m f f' out := by
  unfold Center.answered
  cases hcall : f.handler.calls w.id with
  | none => exact Or.inl rfl
  | some r =>
    refine Or.inr ⟨_, _, _, rfl, ?_⟩
    obtain ⟨s, hs, hstate, hclosed⟩ := h.calls w.id r hcall
    have hback := h.back w.id
    have hserved : ((c.served f).next hashable (.answered w.id row)).handler =
        FgwHandler.answered hashable f.handler w.id row := rfl
    have hothers : ∀ g q, Function.update f.handler.calls w.id none g = some q →
        f.handler.calls g = some q ∧ q ≠ r := by
      intro g q hq
      by_cases hg : g = w.id
      · subst hg
        rw [Function.update_self] at hq
        cases hq
      · rw [Function.update_of_ne hg] at hq
        exact ⟨hq, fun hcon => hg (h.sole g w.id r (hcon ▸ hq) hcall)⟩
    rw [hserved]
    unfold FgwHandler.answered
    simp only [hcall, hs]
    cases row with
    | found =>
      refine Moves.request ?_ ?_ ?_ (hback.sent hashable hs hstate hclosed
        (fun g hg => (hothers g r hg).2 rfl) ?_) <;> rfl
    | none =>
      have hkept : f.handler.Kept { f.handler with
          calls := Function.update f.handler.calls w.id none
          sessions := f.handler.sessions.set r s.close } :=
        FgwHandler.kept_set s.close hs rfl rfl (fun _ _ hk => hk) hothers rfl
      cases c.webMap w.id with
      | none =>
        exact h.moves_kept f.answer hkept (fun _ _ hq => ⟨hq, rfl⟩)
          (List.forall_mem_nil _)
      | some n' =>
        refine h.moves_kept f.answer hkept (fun _ _ hq => ⟨hq, rfl⟩) fun o ho _ _ => ?_
        rw [List.mem_singleton.mp ho]
        exact ⟨id, id⟩
    | error => exact Moves.quiet rfl rfl rfl hback

end Center

end Monsys
