/-
  From the socket to `event`: `simple_handler.py`, with `decode` of `FGWHandler`.

  1. **The two loops** — `recvLoop` puts what `decode` makes of a chunk into the queue, and `None`
     when the connection ends; `eventLoop` calls `event` with what it takes out, up to a `None`.
  2. **Schedules** — the loops are greenlets: any of them can be next.
  3. **What is to be** — `Serves`, and that the event loop comes to its end (`Fair`).
  4. **When it is so** — `serves_iff`.

  What `json.loads` says to a chunk, and which calls of `event` return, is given.  The other two
  queues, their loops and the routine are left out.
-/
import Mathlib.Data.List.Basic

namespace Monsys

/-- `socket` are the chunks that are to come before the connection ends, `events` the calls of
    `event`. -/
structure SimpleHandler (χ μ : Type) where
  socket : List χ
  inQueue : List (Option μ)
  isRunning : Bool
  eventLoop : Bool
  events : List μ
deriving DecidableEq, Repr

namespace SimpleHandler

variable {χ μ : Type}

/-! ## The two loops -/

/-- `start`. -/
def start (chunks : List χ) : SimpleHandler χ μ := ⟨chunks, [], true, true, []⟩

def close (w : SimpleHandler χ μ) : SimpleHandler χ μ :=
  { w with inQueue := w.inQueue ++ [none], isRunning := false }

variable (loads : χ → Except String (Option μ))

/-- `decode`.  `null` is a JSON value, and `None` in Python. -/
def decode (data : χ) : Option μ :=
  match loads data with
  | .ok msg => msg
  | .error _ => none

/-- A round of `_recv_loop`, which is over once it has closed. -/
def recvLoop (w : SimpleHandler χ μ) : SimpleHandler χ μ :=
  if w.isRunning then
    match w.socket with
    | [] => w.close
    | data :: rest => { w with socket := rest, inQueue := w.inQueue ++ [decode loads data] }
  else w

variable (returns : Nat → Bool)

/-- A round of `_event_loop`, if there is something to get.  A call of `event` that raises ends it. -/
def eventRound (w : SimpleHandler χ μ) : SimpleHandler χ μ :=
  if w.eventLoop then
    match w.inQueue with
    | [] => w
    | none :: rest => { w with inQueue := rest, eventLoop := false }
    | some msg :: rest =>
      { w with inQueue := rest, events := w.events ++ [msg], eventLoop := returns w.events.length }
  else w

/-! ## Schedules -/

inductive Greenlet
  | recv
  | event
deriving DecidableEq, Repr

def next (w : SimpleHandler χ μ) : Greenlet → SimpleHandler χ μ
  | .recv => w.recvLoop loads
  | .event => w.eventRound returns

/-- The state after so many rounds. -/
def after (chunks : List χ) (s : Nat → Greenlet) : Nat → SimpleHandler χ μ
  | 0 => start chunks
  | n + 1 => (after chunks s n).next loads returns (s n)

/-- Each greenlet comes again and again. -/
def Fair (s : Nat → Greenlet) : Prop := ∀ g n, ∃ m, n ≤ m ∧ s m = g

/-- They take turns. -/
def alternate (n : Nat) : Greenlet := if n % 2 = 0 then .recv else .event

/-! ## What is to be -/

/-- The calls of `event` are those for the chunks that can be decoded, in their order; and when the
    event loop has ended the connection is closed, and none of them is missing. -/
structure Serves (chunks : List χ) (w : SimpleHandler χ μ) : Prop where
  inOrder : w.events <+: chunks.filterMap (decode loads)
  ended : w.eventLoop = false →
    w.isRunning = false ∧ w.events = chunks.filterMap (decode loads)

/-- What the rounds keep where every chunk can be decoded: a `None` stands at the end of the queue
    only, once the connection is closed. -/
structure InStep (chunks : List χ) (w : SimpleHandler χ μ) : Prop where
  decodes : ∀ data ∈ w.socket, decode loads data ≠ none
  closed : w.isRunning = false → w.socket = []
  queue : w.eventLoop = true → ∃ msgs : List μ,
    w.inQueue = msgs.map some ++ (if w.isRunning then [] else [none]) ∧
      w.events ++ msgs ++ w.socket.filterMap (decode loads) = chunks.filterMap (decode loads)
  ended : w.eventLoop = false →
    w.isRunning = false ∧ w.events = chunks.filterMap (decode loads)

/-- What is left to do. -/
def left (w : SimpleHandler χ μ) : Nat :=
  2 * w.socket.length + w.inQueue.length + if w.isRunning then 2 else 0

section Steps

variable {loads returns} {chunks : List χ} {w : SimpleHandler χ μ}

theorem recvLoop_over (h : w.isRunning = false) : w.recvLoop loads = w := by
  rw [recvLoop, h]
  exact if_neg Bool.false_ne_true

theorem recvLoop_end (h : w.isRunning = true) (hs : w.socket = []) :
    w.recvLoop loads = w.close := by
  rw [recvLoop, if_pos h]
  simp only [hs]

theorem recvLoop_data (h : w.isRunning = true) {data : χ} {rest : List χ}
    (hs : w.socket = data :: rest) :
    w.recvLoop loads =
      { w with socket := rest, inQueue := w.inQueue ++ [decode loads data] } := by
  rw [recvLoop, if_pos h]
  simp only [hs]

theorem eventRound_over (h : w.eventLoop = false) : w.eventRound returns = w := by
  rw [eventRound, h]
  exact if_neg Bool.false_ne_true

theorem eventRound_waits (hq : w.inQueue = []) : w.eventRound returns = w := by
  unfold eventRound
  split
  · simp only [hq]
  · rfl

theorem eventRound_none (h : w.eventLoop = true) {rest : List (Option μ)}
    (hq : w.inQueue = none :: rest) :
    w.eventRound returns = { w with inQueue := rest, eventLoop := false } := by
  rw [eventRound, if_pos h]
  simp only [hq]

theorem eventRound_event (h : w.eventLoop = true) {msg : μ} {rest : List (Option μ)}
    (hq : w.inQueue = some msg :: rest) :
    w.eventRound returns =
      { w with
        inQueue := rest
        events := w.events ++ [msg]
        eventLoop := returns w.events.length } := by
  rw [eventRound, if_pos h]
  simp only [hq]

theorem InStep.serves (h : w.InStep loads chunks) : w.Serves loads chunks where
  inOrder := by
    cases hloop : w.eventLoop with
    | true =>
      obtain ⟨msgs, -, hall⟩ := h.queue hloop
      rw [← hall, List.append_assoc]
      exact List.prefix_append _ _
    | false => exact ⟨[], (List.append_nil _).trans (h.ended hloop).2⟩
  ended := h.ended

theorem inStep_start (hdecodes : ∀ data ∈ chunks, decode loads data ≠ none) :
    (start chunks : SimpleHandler χ μ).InStep loads chunks where
  decodes := hdecodes
  closed := nofun
  queue := fun _ => ⟨[], rfl, rfl⟩
  ended := nofun

/-- The event loop goes on as long as the connection is open. -/
theorem InStep.goes (h : w.InStep loads chunks) (hrunning : w.isRunning = true) :
    w.eventLoop = true := by
  cases hloop : w.eventLoop with
  | true => rfl
  | false =>
    rw [(h.ended hloop).1] at hrunning
    cases hrunning

/-- **A chunk, or the end of the connection.** -/
theorem InStep.recv (h : w.InStep loads chunks) : (w.recvLoop loads).InStep loads chunks := by
  rcases Bool.eq_false_or_eq_true w.isRunning with hrunning | hclosed
  · have hloop := h.goes hrunning
    have hdecodes := h.decodes
    obtain ⟨msgs, hqueue, hall⟩ := h.queue hloop
    rw [if_pos hrunning, List.append_nil] at hqueue
    cases hsocket : w.socket with
    | nil =>
      -- the mark is put behind all messages
      rw [recvLoop_end hrunning hsocket]
      refine ⟨hdecodes, fun _ => hsocket, fun _ => ⟨msgs, ?_, hall⟩, fun hended => ?_⟩
      · show w.inQueue ++ [none] = _
        rw [hqueue]
        rfl
      · exact absurd (hloop.symm.trans hended) nofun
    | cons data rest =>
      rw [hsocket, List.forall_mem_cons] at hdecodes
      obtain ⟨msg, hmsg⟩ := Option.ne_none_iff_exists'.mp hdecodes.1
      rw [hsocket, List.filterMap_cons_some hmsg] at hall
      rw [recvLoop_data hrunning hsocket]
      refine ⟨hdecodes.2, fun hclosed => ?_, fun _ => ⟨msgs ++ [msg], ?_, ?_⟩, fun hended => ?_⟩
      · exact absurd (hrunning.symm.trans hclosed) nofun
      · show w.inQueue ++ [decode loads data] = _ ++ if w.isRunning then [] else [none]
        rw [hqueue, hmsg, if_pos hrunning, List.append_nil, List.map_append, List.map_singleton]
      · rw [← hall, List.append_assoc, List.append_assoc, List.append_assoc, List.singleton_append]
      · exact absurd (hloop.symm.trans hended) nofun
  · rw [recvLoop_over hclosed]
    exact h

/-- **A call of `event`, or the end of the loop.** -/
theorem InStep.event (h : w.InStep loads chunks)
    (hreturns : ∀ n < chunks.length, returns n = true) :
    (w.eventRound returns).InStep loads chunks := by
  rcases Bool.eq_false_or_eq_true w.eventLoop with hloop | hover
  · obtain ⟨msgs, hqueue, hall⟩ := h.queue hloop
    cases msgs with
    | nil =>
      rcases Bool.eq_false_or_eq_true w.isRunning with hrunning | hclosed
      · rw [if_pos hrunning] at hqueue
        rw [eventRound_waits hqueue]
        exact h
      · -- the `None` is that of `close`, and nothing is left in front of it
        rw [hclosed] at hqueue
        rw [eventRound_none hloop hqueue]
        refine ⟨h.decodes, h.closed, nofun, fun _ => ⟨hclosed, ?_⟩⟩
        rw [h.closed hclosed, List.append_nil, List.filterMap_nil, List.append_nil] at hall
        exact hall
    | cons msg msgs =>
      rw [eventRound_event hloop hqueue]
      -- there are no more calls than chunks
      have hlt : w.events.length < chunks.length := by
        have hle : (chunks.filterMap (decode loads)).length ≤ chunks.length :=
          List.length_filterMap_le _ _
        rw [← hall, List.length_append, List.length_append, List.length_cons] at hle
        omega
      refine ⟨h.decodes, h.closed, fun _ => ⟨msgs, rfl, ?_⟩, fun hended => ?_⟩
      · rw [← hall, List.append_assoc w.events, List.singleton_append]
      · exact absurd ((hreturns _ hlt).symm.trans hended) nofun
  · rw [eventRound_over hover]
    exact h

theorem InStep.next (h : w.InStep loads chunks) (hreturns : ∀ n < chunks.length, returns n = true)
    (g : Greenlet) : (w.next loads returns g).InStep loads chunks := by
  cases g with
  | recv => exact h.recv
  | event => exact h.event hreturns

/-- A round does nothing, or leaves less to do. -/
theorem next_left (w : SimpleHandler χ μ) (g : Greenlet) :
    w.next loads returns g = w ∨ (w.next loads returns g).left < w.left := by
  cases g with
  | recv =>
    rcases Bool.eq_false_or_eq_true w.isRunning with hrunning | hclosed
    · refine Or.inr ?_
      show (w.recvLoop loads).left < w.left
      cases hsocket : w.socket with
      | nil =>
        rw [recvLoop_end hrunning hsocket, left, left, if_pos hrunning]
        show _ + (w.inQueue ++ [none]).length + 0 < _
        rw [List.length_append, List.length_singleton]
        exact Nat.lt_succ_self _
      | cons data rest =>
        rw [recvLoop_data hrunning hsocket, left, left, hsocket]
        show 2 * rest.length + (w.inQueue ++ [decode loads data]).length +
          (if w.isRunning then 2 else 0) < _
        rw [List.length_append, List.length_singleton, List.length_cons]
        omega
    · exact Or.inl (recvLoop_over hclosed)
  | event =>
    rcases Bool.eq_false_or_eq_true w.eventLoop with hloop | hover
    · cases hqueue : w.inQueue with
      | nil => exact Or.inl (eventRound_waits hqueue)
      | cons item rest =>
        refine Or.inr ?_
        show (w.eventRound returns).left < w.left
        have hless : 2 * w.socket.length + rest.length + (if w.isRunning then 2 else 0) < w.left := by
          rw [left, hqueue, List.length_cons]
          omega
        cases item with
        | none =>
          rw [eventRound_none hloop hqueue]
          exact hless
        | some msg =>
          rw [eventRound_event hloop hqueue]
          exact hless
    · exact Or.inl (eventRound_over hover)

/-- One of the loops has something to do as long as the event loop goes on. -/
theorem InStep.moves (h : w.InStep loads chunks) (hloop : w.eventLoop = true) :
    ∃ g, w.next loads returns g ≠ w := by
  rcases Bool.eq_false_or_eq_true w.isRunning with hrunning | hclosed
  · refine ⟨.recv, fun heq => ?_⟩
    have hqueue : (w.recvLoop loads).inQueue = w.inQueue := congrArg inQueue heq
    cases hsocket : w.socket with
    | nil =>
      rw [recvLoop_end hrunning hsocket] at hqueue
      exact List.cons_ne_nil _ _ (List.append_right_eq_self.mp hqueue)
    | cons data rest =>
      rw [recvLoop_data hrunning hsocket] at hqueue
      exact List.cons_ne_nil _ _ (List.append_right_eq_self.mp hqueue)
  · obtain ⟨msgs, hqueue, -⟩ := h.queue hloop
    refine ⟨.event, fun heq => ?_⟩
    have hsame : (w.eventRound returns).inQueue = w.inQueue := congrArg inQueue heq
    cases msgs with
    | nil =>
      rw [hclosed] at hqueue
      rw [eventRound_none hloop hqueue, hqueue] at hsame
      cases hsame
    | cons msg msgs =>
      rw [eventRound_event hloop hqueue, hqueue] at hsame
      exact List.cons_ne_self _ _ hsame.symm

end Steps

/-! ## When it is so -/

section Runs

variable {loads returns} {chunks : List χ} {s : Nat → Greenlet}

theorem inStep_after (hdecodes : ∀ data ∈ chunks, decode loads data ≠ none)
    (hreturns : ∀ n < chunks.length, returns n = true) (s : Nat → Greenlet) (n : Nat) :
    (after loads returns chunks s n).InStep loads chunks := by
  induction n with
  | zero => exact inStep_start hdecodes
  | succ n ih => exact ih.next hreturns (s n)

/-- Nothing has been done since, or less is left to do. -/
theorem after_left (n d : Nat) :
    after loads returns chunks s (n + d) = after loads returns chunks s n ∨
      (after loads returns chunks s (n + d)).left < (after loads returns chunks s n).left := by
  induction d with
  | zero => exact Or.inl rfl
  | succ d ih =>
    rcases next_left (after loads returns chunks s (n + d)) (s (n + d)) with hsame | hless
    · exact ih.imp hsame.trans (Nat.lt_of_le_of_lt (Nat.le_of_eq (congrArg left hsame)))
    · refine Or.inr (Nat.lt_of_lt_of_le hless ?_)
      rcases ih with hsame | hlt
      · exact Nat.le_of_eq (congrArg left hsame)
      · exact Nat.le_of_lt hlt

/-- In a fair schedule something is done while the event loop goes on. -/
theorem fair_left (hfair : Fair s) {n : Nat}
    (hin : (after loads returns chunks s n).InStep loads chunks)
    (hloop : (after loads returns chunks s n).eventLoop = true) :
    ∃ m, (after loads returns chunks s m).left < (after loads returns chunks s n).left := by
  obtain ⟨g, hmoves⟩ : ∃ g, (after loads returns chunks s n).next loads returns g ≠ _ :=
    hin.moves hloop
  obtain ⟨m, hm, hturn⟩ := hfair g n
  obtain ⟨d, rfl⟩ := Nat.exists_eq_add_of_le hm
  rcases after_left n d with hsame | hless
  · -- nothing has been done up to the greenlet's turn, so that it still has something to do
    refine ⟨n + d + 1, ?_⟩
    rw [after, hturn, hsame]
    exact (next_left _ g).resolve_left hmoves
  · exact ⟨n + d, hless⟩

/-- **The event loop comes to its end** in every fair schedule. -/
theorem fair_ends (hdecodes : ∀ data ∈ chunks, decode loads data ≠ none)
    (hreturns : ∀ n < chunks.length, returns n = true) (hfair : Fair s) :
    ∃ n, (after loads returns chunks s n).eventLoop = false := by
  have hall : ∀ k n, (after loads returns chunks s n).left = k →
      ∃ m, (after loads returns chunks s m).eventLoop = false := by
    intro k
    induction k using Nat.strongRecOn with
    | ind k ih =>
      intro n hk
      rcases Bool.eq_false_or_eq_true (after loads returns chunks s n).eventLoop with hloop | hover
      · obtain ⟨m, hless⟩ := fair_left hfair (inStep_after hdecodes hreturns s n) hloop
        exact ih _ (hk ▸ hless) m rfl
      · exact ⟨n, hover⟩
  exact hall _ 0 rfl

/-- A turn of both, with a chunk that is there and nothing in the queue. -/
theorem turn_some (data : χ) (rest : List χ) (events : List μ) {msg : μ}
    (hmsg : decode loads data = some msg) :
    ((⟨data :: rest, [], true, true, events⟩ : SimpleHandler χ μ).recvLoop loads).eventRound returns =
      ⟨rest, [], true, returns events.length, events ++ [msg]⟩ := by
  rw [recvLoop_data rfl rfl, hmsg]
  exact eventRound_event rfl rfl

theorem turn_none (data : χ) (rest : List χ) (events : List μ) (hmsg : decode loads data = none) :
    ((⟨data :: rest, [], true, true, events⟩ : SimpleHandler χ μ).recvLoop loads).eventRound returns =
      ⟨rest, [], true, false, events⟩ := by
  rw [recvLoop_data rfl rfl, hmsg]
  exact eventRound_none rfl rfl

/-- Where the greenlets take turns, the chunks go through one after the other, up to the first that
    cannot be decoded or whose call raises. -/
theorem turns (hserves : ∀ n, (after loads returns chunks alternate n).Serves loads chunks) :
    ∀ k ≤ chunks.length, ∃ events : List μ, events.length = k ∧
      after loads returns chunks alternate (2 * k) = ⟨chunks.drop k, [], true, true, events⟩ ∧
      (∀ data ∈ chunks.take k, decode loads data ≠ none) ∧ ∀ n < k, returns n = true := by
  intro k
  induction k with
  | zero => exact fun _ => ⟨[], rfl, rfl, List.forall_mem_nil _, fun n hn => by cases hn⟩
  | succ k ih =>
    intro hk
    obtain ⟨events, hlength, hafter, hdecodes, hreturns⟩ := ih (Nat.le_of_lt hk)
    have hturn : after loads returns chunks alternate (2 * (k + 1)) =
        ((⟨chunks[k] :: chunks.drop (k + 1), [], true, true, events⟩ :
          SimpleHandler χ μ).recvLoop loads).eventRound returns := by
      have hrecv : alternate (2 * k) = .recv := if_pos (by omega)
      have hevent : alternate (2 * k + 1) = .event := if_neg (by omega)
      rw [← List.drop_eq_getElem_cons hk, ← hafter]
      show ((after loads returns chunks alternate (2 * k)).next loads returns
        (alternate (2 * k))).next loads returns (alternate (2 * k + 1)) = _
      rw [hrecv, hevent]
      rfl
    have hended := (hserves (2 * (k + 1))).ended
    cases hmsg : decode loads chunks[k] with
    | none =>
      -- the loop would have ended with the connection open
      rw [turn_none _ _ events hmsg] at hturn
      rw [hturn] at hended
      exact absurd (hended rfl).1 nofun
    | some msg =>
      rw [turn_some _ _ events hmsg, hlength] at hturn
      cases hgoes : returns k with
      | false =>
        rw [hgoes] at hturn
        rw [hturn] at hended
        exact absurd (hended rfl).1 nofun
      | true =>
        rw [hgoes] at hturn
        refine ⟨events ++ [msg], ?_, hturn, ?_, fun n hn => ?_⟩
        · rw [List.length_append, hlength, List.length_singleton]
        · rw [List.take_succ_eq_append_getElem hk, List.forall_mem_append,
            List.forall_mem_singleton, hmsg]
          exact ⟨hdecodes, Option.some_ne_none msg⟩
        · rcases Nat.lt_succ_iff_lt_or_eq.mp hn with hlt | rfl
          · exact hreturns n hlt
          · exact hgoes

end Runs

/-- **`event` is called once for each chunk that can be decoded, and the loop ends behind the
    connection, exactly if every chunk can be decoded and no call raises**: in every schedule, and to
    the end of every fair one. -/
theorem serves_iff (loads : χ → Except String (Option μ)) (returns : Nat → Bool) (chunks : List χ) :
    (∀ s : Nat → Greenlet, (∀ n, (after loads returns chunks s n).Serves loads chunks) ∧
      (Fair s → ∃ n, (after loads returns chunks s n).eventLoop = false)) ↔
    (∀ data ∈ chunks, decode loads data ≠ none) ∧ ∀ n < chunks.length, returns n = true := by
  constructor
  · intro hall
    obtain ⟨events, -, -, hdecodes, hreturns⟩ := turns (hall alternate).1 chunks.length (Nat.le_refl _)
    rw [List.take_length] at hdecodes
    exact ⟨hdecodes, hreturns⟩
  · rintro ⟨hdecodes, hreturns⟩ s
    exact ⟨fun n => (inStep_after hdecodes hreturns s n).serves, fair_ends hdecodes hreturns⟩

/-- What is no JSON ends the loop as the end of the connection does. -/
theorem no_json_ends :
    ¬ ∀ (loads : String → Except String (Option Unit)) (returns : Nat → Bool) (chunks : List String)
      (s : Nat → Greenlet),
      (∀ n, (after loads returns chunks s n).Serves loads chunks) ∧
        (Fair s → ∃ n, (after loads returns chunks s n).eventLoop = false) := by
  intro hall
  have hserves := (hall (fun _ => .error "No JSON object could be decoded") (fun _ => true) ["x"]
    alternate).1 2
  exact absurd (hserves.ended rfl).1 nofun

end SimpleHandler

end Monsys
