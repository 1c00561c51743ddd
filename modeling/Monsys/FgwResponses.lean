/-
  Answers of a gateway that nobody waits for: `event_logged_in` of `fgw_server.py`, with the web
  clients' handlers and `send` of `dispatcher.py`.

  1. **Clients** — `Served`: the gateway's handler, the clients' handlers that the dispatcher has, and
     who has asked for which session.  Whether an answer can be sent is no event any more.
  2. **Sessions in the table** — they are there, and have sent their request (`Waiting`), in every
     state that is reached, also after the tables have got out of step.
  3. **What a step is to do** — `Survives`, and what ends the event loop (`Strays`).
  4. **Runs** — `answers_survived_iff`; and a client that is not there has gone (`gone_removed`).

  A `seq` of an answer that is equal to no number of a key is `none`.  In JSON it can be anything; a
  float or `true` can be equal to a key.
-/
import Monsys.FgwServerRuns

namespace Monsys

namespace FgwServer

/-! ## Clients -/

/-- `srcAddr` are the `src_addr` of the sessions. -/
structure Served (κ : Type) where
  handler : FgwHandler κ
  handlerMap : Nat → Bool
  srcAddr : List Nat

namespace Served

variable {κ : Type}

def init : Served κ := ⟨.init, fun _ => false, []⟩

inductive Event (κ : Type)
  | login
  | add (g : Nat)
  | remove (g : Nat)
  | onInner (g : Nat) (msg : Request κ) (now : Int)
  | answered (g : Nat) (row : Row)
  | message (cmd : Option Cmd) (seq : Option Nat)
  | selected (row : Row)
  | updated (committed : Bool)
  | routine (curTime : Int)

/-- Whether `Dispatcher.send` finds the client of the session; else it raises. -/
def sends (w : Served κ) (r : Nat) : Bool := w.srcAddr[r]?.any w.handlerMap

/-- The session that an answer is for. -/
def find (w : Served κ) (seq : Option Nat) : Option Nat := seq.bind w.handler.ctrl.find

variable [DecidableEq κ]

def eventLoggedIn (w : Served κ) (cmd : Option Cmd) : Option Nat → FgwHandler κ
  | some seq => w.handler.eventLoggedIn ⟨cmd, seq⟩ ((w.find (some seq)).any w.sends)
  | none =>
    match cmd with
    | none => w.handler -- unknown message
    | some _ => { w.handler with eventLoop := .dead }

variable (hashable : κ → Bool)

def next (w : Served κ) : Event κ → Served κ
  | .login => { w with handler := w.handler.next hashable .login }
  | .add g => { w with handlerMap := Function.update w.handlerMap g true }
  | .remove g =>
    -- the handler ends when its greenlets have
    if (w.handler.calls g).isSome then w
    else { w with handlerMap := Function.update w.handlerMap g false }
  | .onInner g msg now =>
    if w.handlerMap g then
      let handler := w.handler.next hashable (.onInner g msg now)
      { w with
        handler := handler
        srcAddr :=
          if w.handler.sessions.length < handler.sessions.length then w.srcAddr ++ [g]
          else w.srcAddr }
    else w
  | .answered g row => { w with handler := w.handler.next hashable (.answered g row) }
  | .message cmd seq =>
    if w.handler.eventLoop = .ready ∧ w.handler.loggedIn = true then
      { w with handler := w.eventLoggedIn cmd seq }
    else w
  | .selected row => { w with handler := w.handler.next hashable (.selected row) }
  | .updated committed =>
    match w.handler.eventLoop with
    | .updating _ r =>
      { w with handler := w.handler.next hashable (.updated (committed && w.sends r)) }
    | _ => w
  | .routine curTime => { w with handler := w.handler.next hashable (.routine curTime) }

end Served

/-! ## Sessions in the table -/

/-- A session that has sent its request is still there. -/
def Stay {κ : Type} (sessions sessions' : List (Session κ)) : Prop :=
  ∀ (r : Nat) (session : Session κ), sessions[r]? = some session → session.state = 2 →
    ∃ session', sessions'[r]? = some session' ∧ session'.state = 2

section Stay

variable {κ : Type} {sessions sessions' sessions'' : List (Session κ)}

theorem stay_refl (sessions : List (Session κ)) : Stay sessions sessions :=
  fun _ session hs hstate => ⟨session, hs, hstate⟩

theorem Stay.trans (h : Stay sessions sessions') (h' : Stay sessions' sessions'') :
    Stay sessions sessions'' := by
  intro r session hs hstate
  obtain ⟨session', hs', hstate'⟩ := h r session hs hstate
  exact h' r session' hs' hstate'

theorem stay_append (sessions : List (Session κ)) (session : Session κ) :
    Stay sessions (sessions ++ [session]) := by
  intro r old hs hstate
  refine ⟨old, ?_, hstate⟩
  rw [List.getElem?_append_left (List.getElem?_eq_some_iff.mp hs).1]
  exact hs

/-- A session changes, and goes on waiting if it does. -/
theorem stay_set {r : Nat} {session session' : Session κ} (hs : sessions[r]? = some session)
    (hstate : session.state = 2 → session'.state = 2) : Stay sessions (sessions.set r session') := by
  intro r' old hold hwaits
  by_cases hr : r' = r
  · subst hr
    obtain rfl : session = old := Option.some.inj (hs.symm.trans hold)
    exact ⟨session', List.getElem?_set_self (List.getElem?_eq_some_iff.mp hs).1, hstate hwaits⟩
  · refine ⟨old, ?_, hwaits⟩
    rw [List.getElem?_set_ne (Ne.symm hr)]
    exact hold

theorem Session.checkTimeout_state (s : Session κ) (timeout curTime : Int) :
    (s.checkTimeout timeout curTime).state = s.state := by
  unfold Session.checkTimeout
  split
  · rfl
  · split <;> rfl

theorem SessionCtrl.stay_timeoutLoop (timeout curTime : Int) :
    ∀ (entries : List (Sigma fun _ : Nat => Nat)) (sessions : List (Session κ)),
      Stay sessions (timeoutLoop timeout curTime entries sessions).2 := by
  intro entries
  induction entries with
  | nil => exact stay_refl
  | cons e entries ih =>
    intro sessions
    unfold timeoutLoop
    split
    · exact ih sessions
    · next session hs =>
      -- `check_timeout` may close the session, but does not touch its state
      have hset := stay_set hs fun hstate =>
        (session.checkTimeout_state timeout curTime).trans hstate
      exact hset.trans (ih _)

variable [DecidableEq κ]

/-- The second loop only takes entries out, however it ends. -/
theorem SessionCtrl.find_popLoop (hashable : κ → Bool) :
    ∀ (tobeDeleted : List (Nat × κ)) (c : SessionCtrl κ) (k r : Nat),
      (popLoop hashable tobeDeleted c).1.find k = some r → c.find k = some r := by
  intro tobeDeleted
  induction tobeDeleted with
  | nil => exact fun _ _ _ h => h
  | cons p tobeDeleted ih =>
    intro c k r hr
    -- whatever has become of the other table by then
    have hpop : ∀ ext : AList fun _ : κ => Nat,
        SessionCtrl.find ⟨ext, c.sessionMap.erase p.1, c.lastKey⟩ k = some r →
        c.find k = some r := by
      intro ext hk
      by_cases hp : k = p.1
      · rw [SessionCtrl.find, hp, AList.lookup_erase] at hk
        cases hk
      · rw [SessionCtrl.find, AList.lookup_erase_ne hp] at hk
        exact hk
    unfold popLoop at hr
    split at hr
    · simp only at hr
      split at hr
      · split at hr
        · exact hpop _ (ih _ k r hr)
        · exact hpop _ hr
      · exact hpop _ hr
    · exact hr

end Stay

/-- The sessions of the first table are there, and have sent their request. -/
def FgwHandler.Waiting {κ : Type} (w : FgwHandler κ) : Prop :=
  ∀ k r, w.ctrl.find k = some r → ∃ session, w.sessions[r]? = some session ∧ session.state = 2

namespace FgwHandler

variable {κ : Type} {w w' w'' : FgwHandler κ}

theorem waiting_init : (init : FgwHandler κ).Waiting := fun k r h => by cases h

/-- What a step can do to sessions and table: who waits stays, whoever is new in the table waits, and
    so many sessions are opened. -/
structure Follows (n : Nat) (w w' : FgwHandler κ) : Prop where
  stay : Stay w.sessions w'.sessions
  table : ∀ k r, w'.ctrl.find k = some r → w.ctrl.find k = some r ∨
    ∃ session, w'.sessions[r]? = some session ∧ session.state = 2
  length : w'.sessions.length = w.sessions.length + n

theorem Follows.waiting {n : Nat} (h : Follows n w w') (hw : w.Waiting) : w'.Waiting := by
  intro k r hr
  rcases h.table k r hr with hold | hnew
  · obtain ⟨session, hs, hstate⟩ := hw k r hold
    exact h.stay r session hs hstate
  · exact hnew

theorem Follows.trans {n m : Nat} (h : Follows n w w') (h' : Follows m w' w'') :
    Follows (n + m) w w'' where
  stay := h.stay.trans h'.stay
  table := by
    intro k r hr
    rcases h'.table k r hr with hmid | hnew
    · refine (h.table k r hmid).imp_right ?_
      rintro ⟨session, hs, hstate⟩
      exact h'.stay r session hs hstate
    · exact Or.inr hnew
  length := by rw [h'.length, h.length, Nat.add_assoc]

theorem follows_frame (hctrl : w'.ctrl = w.ctrl) (hsessions : w'.sessions = w.sessions) :
    Follows 0 w w' where
  stay := by
    rw [hsessions]
    exact stay_refl w.sessions
  table := by
    intro k r hr
    rw [hctrl] at hr
    exact Or.inl hr
  length := by rw [hsessions, Nat.add_zero]

theorem Follows.frame {n : Nat} (h : Follows n w w') (hctrl : w''.ctrl = w'.ctrl)
    (hsessions : w''.sessions = w'.sessions) : Follows n w w'' :=
  h.trans (follows_frame hctrl hsessions)

/-- A session changes, and the table gains nothing. -/
theorem follows_set {r : Nat} {session session' : Session κ} (hs : w.sessions[r]? = some session)
    (hstate : session.state = 2 → session'.state = 2)
    (hsessions : w'.sessions = w.sessions.set r session')
    (hfind : ∀ k r, w'.ctrl.find k = some r → w.ctrl.find k = some r) : Follows 0 w w' where
  stay := by
    rw [hsessions]
    exact stay_set hs hstate
  table := fun k r hr => Or.inl (hfind k r hr)
  length := by rw [hsessions, List.length_set, Nat.add_zero]

theorem follows_draw (w : FgwHandler κ) (session : Session κ) : Follows 1 w (w.draw session) where
  stay := stay_append w.sessions session
  table := fun _ _ hr => Or.inl hr
  length := List.length_append

variable [DecidableEq κ] {hashable : κ → Bool}

theorem follows_addSession {r : Nat} {session : Session κ} (hs : w.sessions[r]? = some session) :
    Follows 0 w (w.addSession hashable r session) := by
  unfold FgwHandler.addSession
  simp only
  split
  · exact follows_set hs (fun _ => rfl) rfl fun _ _ hr => hr
  · -- the one new entry is that of the session, which has just sent its request
    refine ⟨stay_set hs fun _ => rfl, fun k r' hr' => ?_, List.length_set⟩
    rw [SessionCtrl.find_add] at hr'
    split at hr'
    · obtain rfl := Option.some.inj hr'
      exact Or.inr ⟨_, List.getElem?_set_self (List.getElem?_eq_some_iff.mp hs).1, rfl⟩
    · exact Or.inl hr'

theorem follows_closeSession (w : FgwHandler κ) (seq r : Nat) :
    Follows 0 w (w.closeSession seq r) := by
  unfold FgwHandler.closeSession
  cases hs : w.sessions[r]? with
  | none => exact follows_frame rfl rfl
  | some session =>
    have hstate : session.state = 2 → session.close.state = 2 := id
    exact follows_set hs hstate rfl (SessionCtrl.shrinks_remove w.ctrl _ seq).find

theorem follows_eventLoggedIn (w : FgwHandler κ) (msg : Response) (sent : Bool) :
    Follows 0 w (w.eventLoggedIn msg sent) := by
  unfold FgwHandler.eventLoggedIn
  cases msg.cmd with
  | none => exact follows_frame rfl rfl
  | some cmd =>
    simp only
    split
    · exact follows_frame rfl rfl
    · split
      · exact follows_frame rfl rfl
      · split
        · split
          · exact follows_frame rfl rfl
          · split
            · exact w.follows_closeSession _ _
            · exact follows_frame rfl rfl
        · exact w.follows_closeSession _ _

theorem follows_answered (w : FgwHandler κ) (g : Nat) (row : Row) :
    Follows 0 w (w.next hashable (.answered g row)) := by
  show Follows 0 w (FgwHandler.answered hashable w g row)
  unfold FgwHandler.answered
  split
  · exact follows_frame rfl rfl
  · -- the greenlet is back from its query before anything else happens
    have hends : Follows 0 w { w with calls := Function.update w.calls g none } :=
      follows_frame rfl rfl
    simp only
    split
    · exact hends
    · next session hs =>
      cases row with
      | found => exact hends.trans (follows_addSession hs)
      | none =>
        have hstate : session.state = 2 → session.close.state = 2 := id
        exact follows_set hs hstate rfl fun _ _ hr => hr
      | error => exact hends

/-- A request opens one session or none. -/
theorem follows_onInner (w : FgwHandler κ) (g : Nat) (msg : Request κ) (now : Int) :
    Follows 0 w (w.next hashable (.onInner g msg now)) ∨
      Follows 1 w (w.next hashable (.onInner g msg now)) := by
  rcases next_onInner_cases w g msg now with heq | ⟨-, -, -, cmd, -, heq⟩
  · rw [heq]
    exact Or.inl (follows_frame rfl rfl)
  · refine Or.inr ?_
    have hdraw := w.follows_draw (w.createSession msg.seq cmd now)
    rw [heq]
    cases hqueries : cmd.queries with
    | true =>
      rw [openSession, hqueries]
      simp only [if_true]
      split
      · exact hdraw.frame rfl rfl
      · exact hdraw
    | false =>
      rw [openSession_add w g msg hqueries now]
      exact hdraw.trans (follows_addSession (sessions_draw w _))

/-- **No other step opens one**, whatever it does to the tables. -/
theorem follows_next (w : FgwHandler κ) {e : Event κ} (he : ∀ g msg now, e ≠ .onInner g msg now) :
    Follows 0 w (w.next hashable e) := by
  cases e with
  | login =>
    rw [FgwHandler.next]
    split <;> exact follows_frame rfl rfl
  | onInner g msg now => exact absurd rfl (he g msg now)
  | answered g row => exact w.follows_answered g row
  | message msg sent =>
    rw [FgwHandler.next]
    split
    · exact w.follows_eventLoggedIn msg sent
    · exact follows_frame rfl rfl
  | selected row =>
    rw [FgwHandler.next]
    split
    · split <;> exact follows_frame rfl rfl
    · exact follows_frame rfl rfl
  | updated sent =>
    rw [FgwHandler.next]
    split
    · next seq r _ =>
      split
      · exact (w.follows_closeSession seq r).frame rfl rfl
      · exact follows_frame rfl rfl
    · exact follows_frame rfl rfl
  | routine curTime =>
    rw [FgwHandler.next]
    split
    · refine ⟨SessionCtrl.stay_timeoutLoop 1000 curTime _ w.sessions, fun k r hr => ?_, ?_⟩
      · exact Or.inl (SessionCtrl.find_popLoop hashable _ w.ctrl k r hr)
      · exact (SessionCtrl.timeoutLoop_spec 1000 curTime _ w.sessions).2.1
    · exact follows_frame rfl rfl

end FgwHandler

/-- What goes on in the clients' greenlets leaves the event loop as it is. -/
theorem FgwHandler.eventLoop_addSession {κ : Type} [DecidableEq κ] (hashable : κ → Bool)
    (w : FgwHandler κ) (r : Nat) (session : Session κ) :
    (w.addSession hashable r session).eventLoop = w.eventLoop := by
  unfold FgwHandler.addSession
  simp only
  split <;> rfl

theorem FgwHandler.eventLoop_onInner {κ : Type} [DecidableEq κ] {hashable : κ → Bool}
    (w : FgwHandler κ) (g : Nat) (msg : Request κ) (now : Int) :
    (w.next hashable (.onInner g msg now)).eventLoop = w.eventLoop := by
  rcases next_onInner_cases w g msg now with heq | ⟨-, -, -, cmd, -, heq⟩
  · rw [heq]
  · rw [heq]
    cases hqueries : cmd.queries with
    | true =>
      rw [openSession, hqueries]
      simp only [if_true]
      split <;> rfl
    | false =>
      rw [openSession_add w g msg hqueries now, eventLoop_addSession]
      rfl

theorem FgwHandler.eventLoop_answered {κ : Type} [DecidableEq κ] {hashable : κ → Bool}
    (w : FgwHandler κ) (g : Nat) (row : Row) :
    (w.next hashable (.answered g row)).eventLoop = w.eventLoop := by
  show (FgwHandler.answered hashable w g row).eventLoop = w.eventLoop
  unfold FgwHandler.answered
  split
  · rfl
  · simp only
    split
    · rfl
    · cases row with
      | found => exact eventLoop_addSession hashable _ _ _
      | none => rfl
      | error => rfl

namespace Served

variable {κ : Type} [DecidableEq κ]

/-! ## What a step is to do -/

/-- The event loop goes on, and an answer for no session leaves the tables as they are. -/
def Survives (hashable : κ → Bool) (w : Served κ) (e : Event κ) : Prop :=
  (w.next hashable e).handler.eventLoop ≠ .dead ∧
    ∀ cmd seq, e = .message cmd seq → w.find seq = none →
      (w.next hashable e).handler.ctrl = w.handler.ctrl

omit [DecidableEq κ] in
/-- An answer is for no session, or the client who has asked for it is gone; or a binding does not
    find the account's list, or is not committed, or its client is gone by then. -/
def Strays (w : Served κ) : Event κ → Prop
  | .message (some cmd) seq => w.handler.eventLoop = .ready ∧ w.handler.loggedIn = true ∧
      ∀ r session, w.find seq = some r → w.handler.sessions[r]? = some session →
        session.cmd = cmd ∧ cmd ≠ .bind ∧ w.sends r = false
  | .selected row => (∃ seq r, w.handler.eventLoop = .selecting seq r) ∧ row ≠ .found
  | .updated committed => ∃ seq r, w.handler.eventLoop = .updating seq r ∧
      (committed = false ∨ w.sends r = false)
  | _ => False

/-- What the run so far has kept: the loop goes on, and the sessions of the table are waiting. -/
structure Goes (w : Served κ) : Prop where
  alive : w.handler.eventLoop ≠ .dead
  waiting : w.handler.Waiting

section Steps

variable {hashable : κ → Bool} {w : Served κ}

omit [DecidableEq κ] in
theorem goes_init : Goes (init : Served κ) := ⟨nofun, FgwHandler.waiting_init⟩

/-- An answer for no session ends the loop, and that is all. -/
theorem eventLoggedIn_unknown {seq : Option Nat} (hfind : w.find seq = none) (cmd : Cmd) :
    w.eventLoggedIn (some cmd) seq = { w.handler with eventLoop := .dead } := by
  cases seq with
  | none => rfl
  | some seq =>
    have hnone : w.handler.ctrl.find seq = none := hfind
    rw [eventLoggedIn, FgwHandler.eventLoggedIn]
    simp only [hnone]

/-- An answer for a session: it is closed, or the answer cannot be sent, or a binding goes on. -/
theorem eventLoggedIn_found {seq : Option Nat} {r : Nat} {session : Session κ}
    (hfind : w.find seq = some r) (hs : w.handler.sessions[r]? = some session)
    (hstate : session.state = 2) (cmd : Cmd) :
    (w.eventLoggedIn (some cmd) seq).eventLoop =
      if session.cmd = cmd then
        if cmd = .bind then .selecting (seq.getD 0) r
        else if w.sends r then w.handler.eventLoop else .dead
      else w.handler.eventLoop := by
  have hclose : ∀ key, (w.handler.closeSession key r).eventLoop = w.handler.eventLoop := by
    intro key
    simp only [FgwHandler.closeSession, hs]
  cases seq with
  | none => cases hfind
  | some seq =>
    have hsome : w.handler.ctrl.find seq = some r := hfind
    rw [eventLoggedIn, FgwHandler.eventLoggedIn]
    simp only [hsome, hs, hstate, true_and, hfind, Option.any_some]
    split
    · split
      · rfl
      · split
        · exact hclose seq
        · rfl
    · exact hclose seq

/-- **What an answer brings.** -/
theorem Goes.message_iff (h : w.Goes) (cmd : Option Cmd) (seq : Option Nat) :
    w.Survives hashable (.message cmd seq) ↔ ¬ w.Strays (.message cmd seq) := by
  have hctrl : ∀ cmd' seq', (Event.message cmd seq : Event κ) = .message cmd' seq' →
      w.find seq' = none →
      (w.next hashable (.message cmd seq)).handler.ctrl = w.handler.ctrl := by
    rintro cmd' seq' heq hfind
    cases heq
    rw [next]
    split
    · cases cmd with
      | none => cases seq <;> rfl
      | some cmd => rw [eventLoggedIn_unknown hfind]
    · rfl
  rw [Survives, and_iff_left hctrl, next]
  by_cases hready : w.handler.eventLoop = .ready ∧ w.handler.loggedIn = true
  · rw [if_pos hready]
    cases cmd with
    | none =>
      refine iff_of_true ?_ not_false
      cases seq <;> exact h.alive
    | some cmd =>
      cases hfind : w.find seq with
      | none =>
        -- no session: `find` has returned `None`, and nobody looks
        rw [eventLoggedIn_unknown hfind]
        refine iff_of_false (fun hne => hne rfl) fun hnot => hnot ⟨hready.1, hready.2, ?_⟩
        intro r session hr
        rw [hfind] at hr
        cases hr
      | some r =>
        -- it is the session's second message, for it has sent its request
        obtain ⟨session, hs, hstate⟩ : ∃ session, w.handler.sessions[r]? = some session ∧
            session.state = 2 := by
          cases seq with
          | none => cases hfind
          | some seq => exact h.waiting seq r hfind
        have hstrays : w.Strays (.message (some cmd) seq) ↔
            session.cmd = cmd ∧ cmd ≠ .bind ∧ w.sends r = false := by
          constructor
          · exact fun hall => hall.2.2 r session hfind hs
          · intro hthis
            refine ⟨hready.1, hready.2, fun r' session' hr' hs' => ?_⟩
            obtain rfl : r = r' := Option.some.inj (hfind.symm.trans hr')
            obtain rfl : session = session' := Option.some.inj (hs.symm.trans hs')
            exact hthis
        rw [hstrays]
        show (w.eventLoggedIn (some cmd) seq).eventLoop ≠ .dead ↔ _
        rw [eventLoggedIn_found hfind hs hstate]
        by_cases hcmd : session.cmd = cmd
        · rw [if_pos hcmd]
          by_cases hbind : cmd = .bind
          · rw [if_pos hbind]
            exact iff_of_true (fun hdead => by cases hdead) fun hall => hall.2.1 hbind
          · rw [if_neg hbind]
            cases hsends : w.sends r with
            | true => exact iff_of_true h.alive fun hall => Bool.noConfusion hall.2.2
            | false => exact iff_of_false (fun hne => hne rfl) fun hnot => hnot ⟨hcmd, hbind, rfl⟩
        · rw [if_neg hcmd]
          exact iff_of_true h.alive fun hall => hcmd hall.1
  · rw [if_neg hready]
    refine iff_of_true h.alive fun hstrays => hready ?_
    cases cmd with
    | none => exact hstrays.elim
    | some cmd => exact ⟨hstrays.1, hstrays.2.1⟩

/-- The first query of a binding. -/
theorem Goes.selected_iff (h : w.Goes) (row : Row) :
    (w.next hashable (.selected row)).handler.eventLoop ≠ .dead ↔ ¬ w.Strays (.selected row) := by
  show (w.handler.next hashable (.selected row)).eventLoop ≠ .dead ↔ _
  rw [FgwHandler.next]
  cases hloop : w.handler.eventLoop with
  | selecting seq r =>
    have hstrays : w.Strays (.selected row) ↔ row ≠ .found := and_iff_right ⟨seq, r, hloop⟩
    rw [hstrays]
    cases row with
    | found => exact iff_of_true (fun hdead => by cases hdead) fun hne => hne rfl
    | none | error =>
      exact iff_of_false (fun hne => hne rfl) fun hnot => hnot fun hrow => by cases hrow
  | ready =>
    refine iff_of_true h.alive ?_
    rintro ⟨⟨seq, r, hcon⟩, -⟩
    rw [hloop] at hcon
    cases hcon
  | updating seq r =>
    refine iff_of_true h.alive ?_
    rintro ⟨⟨seq', r', hcon⟩, -⟩
    rw [hloop] at hcon
    cases hcon
  | dead => exact absurd hloop h.alive

/-- The second one, and the answer to the client. -/
theorem Goes.updated_iff (h : w.Goes) (committed : Bool) :
    (w.next hashable (.updated committed)).handler.eventLoop ≠ .dead ↔
      ¬ w.Strays (.updated committed) := by
  cases hloop : w.handler.eventLoop with
  | updating seq r =>
    have hstrays : w.Strays (.updated committed) ↔ committed = false ∨ w.sends r = false := by
      constructor
      · rintro ⟨seq', r', hcon, hbad⟩
        rw [hloop] at hcon
        cases hcon
        exact hbad
      · exact fun hbad => ⟨seq, r, hloop, hbad⟩
    have hnext : (w.next hashable (.updated committed)).handler.eventLoop =
        if committed && w.sends r then .ready else .dead := by
      rw [next]
      simp only [hloop, FgwHandler.next]
      split <;> rfl
    rw [hstrays, hnext, ← Bool.and_eq_false_iff]
    cases committed && w.sends r with
    | true => exact iff_of_true (fun hdead => by cases hdead) Bool.noConfusion
    | false => exact iff_of_false (fun hne => hne rfl) fun hnot => hnot rfl
  | ready | selecting seq r =>
    refine iff_of_true ?_ ?_
    · rw [next]
      simp only [hloop]
      exact fun hdead => by cases hdead
    · rintro ⟨seq', r', hcon, -⟩
      rw [hloop] at hcon
      cases hcon
  | dead => exact absurd hloop h.alive

/-- A step that is no answer has to keep the loop going. -/
theorem survives_of_ne {e : Event κ} (hne : ∀ cmd seq, e ≠ .message cmd seq) :
    w.Survives hashable e ↔ (w.next hashable e).handler.eventLoop ≠ .dead :=
  and_iff_left fun cmd seq he => absurd he (hne cmd seq)

/-- **What a step brings.** -/
theorem Goes.survives_iff (h : w.Goes) (e : Event κ) : w.Survives hashable e ↔ ¬ w.Strays e := by
  have hquiet : (∀ cmd seq, e ≠ .message cmd seq) → ¬ w.Strays e →
      (w.next hashable e).handler.eventLoop = w.handler.eventLoop →
      (w.Survives hashable e ↔ ¬ w.Strays e) := by
    intro hne hnot heq
    rw [survives_of_ne hne, heq]
    exact iff_of_true h.alive hnot
  cases e with
  | message cmd seq => exact h.message_iff cmd seq
  | selected row => exact (survives_of_ne fun _ _ he => by cases he).trans (h.selected_iff row)
  | updated committed =>
    exact (survives_of_ne fun _ _ he => by cases he).trans (h.updated_iff committed)
  | login =>
    refine hquiet (fun _ _ he => by cases he) not_false ?_
    show (w.handler.next hashable .login).eventLoop = _
    rw [FgwHandler.next]
    split <;> rfl
  | add g => exact hquiet (fun _ _ he => by cases he) not_false rfl
  | remove g =>
    refine hquiet (fun _ _ he => by cases he) not_false ?_
    rw [next]
    split <;> rfl
  | onInner g msg now =>
    refine hquiet (fun _ _ he => by cases he) not_false ?_
    rw [next]
    split
    · exact w.handler.eventLoop_onInner g msg now
    · rfl
  | answered g row => exact hquiet (fun _ _ he => by cases he) not_false (w.handler.eventLoop_answered g row)
  | routine curTime =>
    refine hquiet (fun _ _ he => by cases he) not_false ?_
    show (w.handler.next hashable (.routine curTime)).eventLoop = _
    rw [FgwHandler.next]
    split <;> rfl

/-- What a step does to the handler's sessions; for each that is opened there is who has asked. -/
theorem next_follows (w : Served κ) (e : Event κ) :
    ∃ n, w.handler.Follows n (w.next hashable e).handler ∧
      (w.next hashable e).srcAddr.length = w.srcAddr.length + n := by
  have hnone : w.handler.Follows 0 w.handler := FgwHandler.follows_frame rfl rfl
  cases e with
  | login | answered _ _ | selected _ | routine _ =>
    rw [next]
    dsimp only
    refine ⟨0, w.handler.follows_next ?_, rfl⟩
    intro _ _ _ he
    cases he
  | add g => exact ⟨0, hnone, rfl⟩
  | remove g =>
    rw [next]
    split <;> exact ⟨0, hnone, rfl⟩
  | onInner g msg now =>
    rw [next]
    split
    · simp only
      rcases @FgwHandler.follows_onInner κ _ hashable w.handler g msg now with hfollows | hfollows
      · refine ⟨0, hfollows, ?_⟩
        rw [if_neg (by rw [hfollows.length]; omega), Nat.add_zero]
      · refine ⟨1, hfollows, ?_⟩
        rw [if_pos (by rw [hfollows.length]; omega), List.length_append, List.length_singleton]
    · exact ⟨0, hnone, rfl⟩
  | message cmd seq =>
    rw [next]
    split
    · refine ⟨0, ?_, rfl⟩
      cases seq with
      | some seq => exact w.handler.follows_eventLoggedIn ⟨cmd, seq⟩ _
      | none => cases cmd <;> exact FgwHandler.follows_frame rfl rfl
    · exact ⟨0, hnone, rfl⟩
  | updated committed =>
    rw [next]
    split
    · dsimp only
      refine ⟨0, w.handler.follows_next ?_, rfl⟩
      intro _ _ _ he
      cases he
    · exact ⟨0, hnone, rfl⟩

end Steps

/-! ## Runs -/

/-- **The event loop survives every answer exactly as long as none strays**: whatever comes in
    between, in every order. -/
theorem answers_survived_iff (hashable : κ → Bool) (es : List (Event κ)) :
    (∀ v ∈ Runs.visits (next hashable) init es, v.1.Survives hashable v.2) ↔
      ∀ v ∈ Runs.visits (next hashable) init es, ¬ v.1.Strays v.2 := by
  refine @Runs.forall_visits_iff _ _ (next hashable) Goes (fun _ _ => True)
    (fun w e => w.Survives hashable e) (fun w e => ¬ w.Strays e) ?_ ?_ init goes_init es
    fun _ _ => trivial
  · exact fun w e h _ => h.survives_iff e
  · intro w e h _ hnot
    obtain ⟨n, hfollows, -⟩ := next_follows w e
    exact ⟨((h.survives_iff e).mpr hnot).1, hfollows.waiting h.waiting⟩

/-- An answer comes to nobody's request, and ends the event loop. -/
theorem unasked_answer_ends :
    ¬ ∀ (hashable : Nat → Bool) (es : List (Event Nat)),
      ∀ v ∈ Runs.visits (next hashable) init es, v.1.Survives hashable v.2 := by
  intro hall
  have hes := hall (fun _ => true) [.login, .message (some .getDevList) (some 1)] _
    (List.mem_cons_of_mem _ List.mem_cons_self)
  exact hes.1 rfl

section Clients

variable {hashable : κ → Bool} {w : Served κ} {e : Event κ} {g : Nat}

/-- Only a client that is there asks. -/
theorem asked_next (h : g ∈ (w.next hashable e).srcAddr) :
    g ∈ w.srcAddr ∨ w.handlerMap g = true := by
  cases e with
  | login | add _ | answered _ _ | selected _ | routine _ => exact Or.inl h
  | remove g' =>
    rw [next] at h
    split at h <;> exact Or.inl h
  | onInner g' msg now =>
    rw [next] at h
    split at h
    · next hthere =>
      simp only at h
      split at h
      · rcases List.mem_append.mp h with hold | hnew
        · exact Or.inl hold
        · rw [List.mem_singleton.mp hnew]
          exact Or.inr hthere
      · exact Or.inl h
    · exact Or.inl h
  | message cmd seq =>
    rw [next] at h
    split at h <;> exact Or.inl h
  | updated committed =>
    rw [next] at h
    split at h <;> exact Or.inl h

/-- Only its own removal takes a client away. -/
theorem gone_next (h : (w.next hashable e).handlerMap g = false) :
    e = .remove g ∨ w.handlerMap g = false := by
  cases e with
  | login | answered _ _ | selected _ | routine _ => exact Or.inr h
  | add g' =>
    have h : Function.update w.handlerMap g' true g = false := h
    rw [Function.update_apply] at h
    split at h
    · cases h
    · exact Or.inr h
  | remove g' =>
    rw [next] at h
    split at h
    · exact Or.inr h
    · have h : Function.update w.handlerMap g' false g = false := h
      rw [Function.update_apply] at h
      split at h
      · next hg => exact Or.inl (hg ▸ rfl)
      · exact Or.inr h
  | onInner g' msg now =>
    rw [next] at h
    split at h <;> exact Or.inr h
  | message cmd seq =>
    rw [next] at h
    split at h <;> exact Or.inr h
  | updated committed =>
    rw [next] at h
    split at h <;> exact Or.inr h

/-- Each session has been asked for by one client. -/
theorem srcAddr_foldl (es : List (Event κ)) (h : w.srcAddr.length = w.handler.sessions.length) :
    (es.foldl (next hashable) w).srcAddr.length =
      (es.foldl (next hashable) w).handler.sessions.length := by
  induction es generalizing w with
  | nil => exact h
  | cons e es ih =>
    obtain ⟨n, hfollows, hlength⟩ := @next_follows κ _ hashable w e
    exact ih (by rw [hlength, hfollows.length, h])

theorem gone_removed_from {es : List (Event κ)}
    (hasked : g ∈ (es.foldl (next hashable) w).srcAddr)
    (hgone : (es.foldl (next hashable) w).handlerMap g = false) :
    .remove g ∈ es ∨ (g ∈ w.srcAddr ∧ w.handlerMap g = false) := by
  induction es generalizing w with
  | nil => exact Or.inr ⟨hasked, hgone⟩
  | cons e es ih =>
    rcases ih hasked hgone with hmem | ⟨hasked, hgone⟩
    · exact Or.inl (List.mem_cons_of_mem e hmem)
    rcases gone_next hgone with rfl | hgone
    · exact Or.inl List.mem_cons_self
    · -- it had been gone before the step, so that it cannot have asked in it
      refine Or.inr ⟨(asked_next hasked).resolve_right fun hthere => ?_, hgone⟩
      rw [hgone] at hthere
      cases hthere

/-- **A client that an answer does not find has gone**: its handler was there when it asked, and has
    been removed. -/
theorem gone_removed {es : List (Event κ)} {r : Nat}
    (hr : r < (es.foldl (next hashable) init).handler.sessions.length)
    (hgone : (es.foldl (next hashable) init).sends r = false) :
    ∃ g, (es.foldl (next hashable) init).srcAddr[r]? = some g ∧ .remove g ∈ es := by
  rw [← srcAddr_foldl es rfl] at hr
  have hasked := List.getElem?_eq_getElem hr
  refine ⟨_, hasked, ?_⟩
  rw [sends, hasked] at hgone
  exact (gone_removed_from (List.getElem_mem hr) hgone).resolve_right fun h => List.not_mem_nil h.1

end Clients

end Served

end FgwServer

end Monsys
