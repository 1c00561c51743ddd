/-
  `ZServerHandler::event` of `libframework/zserver_handler.cc`: what a server's handler does when its
  socket can be read.

  1. **The loop** — `recvLoop`, over what the calls of `recv` give; it asks for 1024 bytes each time,
     wherever in the buffer it stands.
  2. **Bounds** — exactly when every call and the terminating zero stay inside the buffer.
  3. **Delivery** — exactly when what came is handed on.
-/
import Mathlib.Data.List.TakeWhile

namespace Monsys

namespace ZServerHandler

/-! ## The loop -/

/-- `sizeof(buf_)`. -/
def bufSize : Nat := 1 <<< 10

/-- What a call of `recv` for `bufSize` bytes gives. -/
inductive RecvResult
  | data (bytes : List UInt8) (h : 0 < bytes.length ∧ bytes.length ≤ bufSize)
  | closed
  | again
  | failed
deriving DecidableEq

/-- What an event does; `recv` with the range of the buffer it is given. -/
inductive Action
  | recv (offset length : Nat)
  | zero (index : Nat)
  | onRead (bytes : List UInt8)
  | close
deriving DecidableEq, Repr

/-- The loop, with the bytes `buf` received so far: the calls it makes, and how it ends, if the
    results suffice.  `buf_idx` is the number of the bytes. -/
def recvLoop (buf : List UInt8) : List RecvResult → List Action × Option (List UInt8 × RecvResult)
  | [] => ([.recv buf.length bufSize], none)
  | .data bytes h :: results =>
    if (buf ++ bytes).length ≤ bufSize then
      let (actions, ended) := recvLoop (buf ++ bytes) results
      (.recv buf.length bufSize :: actions, ended)
    else ([.recv buf.length bufSize], some (buf ++ bytes, .data bytes h))
  | last :: _ => ([.recv buf.length bufSize], some (buf, last))

/-- `event`, with what it returns. -/
def event (results : List RecvResult) : List Action × Option Int :=
  match recvLoop [] results with
  | (actions, none) => (actions, none)
  | (actions, some (buf, last)) =>
    match last with
    | .failed => (actions ++ [.close], some (-1))
    | .closed => (actions ++ [.close], some (-1))
    | _ =>
      if buf.length > 0 then (actions ++ [.zero buf.length, .onRead buf], some 0)
      else (actions, some 0)

/-! ## Bounds -/

/-- Inside the buffer. -/
def Action.InBounds : Action → Prop
  | .recv offset length => offset + length ≤ bufSize
  | .zero index => index < bufSize
  | _ => True

/-- The first call brings nothing. -/
def NothingFirst : List RecvResult → Prop
  | .data _ _ :: _ => False
  | _ => True

theorem recvLoop_head (buf : List UInt8) (results : List RecvResult) :
    .recv buf.length bufSize ∈ (recvLoop buf results).1 := by
  cases results with
  | nil => exact List.mem_singleton_self _
  | cons r results =>
    cases r with
    | data bytes h =>
      rw [recvLoop]
      split
      · exact List.mem_cons_self
      · exact List.mem_singleton_self _
    | closed => exact List.mem_singleton_self _
    | again => exact List.mem_singleton_self _
    | failed => exact List.mem_singleton_self _

theorem recvLoop_subset_event (results : List RecvResult) :
    ∀ a ∈ (recvLoop [] results).1, a ∈ (event results).1 := by
  intro a ha
  rw [event]
  cases hloop : recvLoop [] results with
  | mk actions ended =>
    rw [hloop] at ha
    cases ended with
    | none => exact ha
    | some e =>
      obtain ⟨buf, last⟩ := e
      cases last with
      | failed => exact List.mem_append_left _ ha
      | closed => exact List.mem_append_left _ ha
      | again =>
        dsimp only
        split
        · exact List.mem_append_left _ ha
        · exact ha
      | data bytes h =>
        dsimp only
        split
        · exact List.mem_append_left _ ha
        · exact ha

/-- **In bounds** is exactly an event whose first call brings nothing: once there are bytes, the next
    call asks for more than there is room for. -/
theorem event_inBounds_iff (results : List RecvResult) :
    (∀ a ∈ (event results).1, a.InBounds) ↔ NothingFirst results := by
  have hfirst : (Action.recv 0 bufSize).InBounds := Nat.le_of_eq (Nat.zero_add bufSize)
  cases results with
  | nil => exact iff_of_true (List.forall_mem_singleton.mpr hfirst) trivial
  | cons r results =>
    cases r with
    | data bytes h =>
      refine iff_of_false (fun hall => ?_) id
      have hmem : .recv bytes.length bufSize ∈ (recvLoop [] (.data bytes h :: results)).1 := by
        rw [recvLoop, List.nil_append, if_pos h.2]
        exact List.mem_cons_of_mem _ (recvLoop_head bytes results)
      have hover : bytes.length + bufSize ≤ bufSize := hall _ (recvLoop_subset_event _ _ hmem)
      omega
    | again => exact iff_of_true (List.forall_mem_singleton.mpr hfirst) trivial
    | closed =>
      refine iff_of_true (List.forall_mem_cons.mpr ⟨hfirst, ?_⟩) trivial
      exact List.forall_mem_singleton.mpr trivial
    | failed =>
      refine iff_of_true (List.forall_mem_cons.mpr ⟨hfirst, ?_⟩) trivial
      exact List.forall_mem_singleton.mpr trivial

/-- One byte, and then nothing more for now: the second call is given the bytes 1 to 1024. -/
theorem second_recv_oversteps :
    ¬ ∀ results : List RecvResult, ∀ a ∈ (event results).1, a.InBounds := by
  intro hall
  have h := (event_inBounds_iff [.data [65] ⟨by decide, by decide⟩, .again]).mp (hall _)
  exact h

/-! ## Delivery -/

/-- The bytes of a call that brings any. -/
structure Chunk where
  bytes : List UInt8
  size : 0 < bytes.length ∧ bytes.length ≤ bufSize

/-- How a row of calls ends. -/
inductive Ending
  | closed
  | again
  | failed
deriving DecidableEq, Repr

def Ending.result : Ending → RecvResult
  | closed => .closed
  | again => .again
  | failed => .failed

/-- The results of a row of calls: some chunks, and the end. -/
def row (chunks : List Chunk) (ending : Ending) : List RecvResult :=
  chunks.map (fun c => .data c.bytes c.size) ++ [ending.result]

/-- What the chunks bring. -/
def received (chunks : List Chunk) : List UInt8 := (chunks.map Chunk.bytes).flatten

/-- The bytes handed to `onRead`. -/
def Action.read? : Action → Option (List UInt8)
  | onRead bytes => some bytes
  | _ => none

/-- What was received is handed on, once, if it is anything; and before the handler is closed. -/
def Delivers (bytes : List UInt8) (actions : List Action) : Prop :=
  actions.filterMap Action.read? = (if bytes = [] then [] else [bytes]) ∧
    (actions.takeWhile fun a => a ≠ .close).filterMap Action.read? = actions.filterMap Action.read?

/-- The loop takes in all chunks for which there is room. -/
theorem recvLoop_row (chunks : List Chunk) (ending : Ending) (buf : List UInt8)
    (h : buf.length + (received chunks).length ≤ bufSize) :
    ∃ calls, (∀ a ∈ calls, a.read? = none ∧ a ≠ .close) ∧
      recvLoop buf (row chunks ending) = (calls, some (buf ++ received chunks, ending.result)) := by
  induction chunks generalizing buf with
  | nil =>
    refine ⟨[.recv buf.length bufSize], List.forall_mem_singleton.mpr ⟨rfl, nofun⟩, ?_⟩
    rw [received, List.map_nil, List.flatten_nil, List.append_nil]
    cases ending <;> rfl
  | cons c chunks ih =>
    have hsplit : received (c :: chunks) = c.bytes ++ received chunks := by
      rw [received, List.map_cons, List.flatten_cons]
      rfl
    rw [hsplit, List.length_append] at h
    have hfits : (buf ++ c.bytes).length ≤ bufSize := by
      rw [List.length_append]
      omega
    obtain ⟨calls, hcalls, hloop⟩ := ih (buf ++ c.bytes) (by rw [List.length_append]; omega)
    refine ⟨.recv buf.length bufSize :: calls, List.forall_mem_cons.mpr ⟨⟨rfl, nofun⟩, hcalls⟩, ?_⟩
    show recvLoop buf (.data c.bytes c.size :: row chunks ending) = _
    rw [recvLoop, if_pos hfits, hloop, hsplit, List.append_assoc]

/-- What an event does behind the calls, with the bytes received and the end of the row. -/
def after (bytes : List UInt8) : Ending → List Action
  | .again => if bytes = [] then [] else [.zero bytes.length, .onRead bytes]
  | _ => [.close]

theorem event_row (chunks : List Chunk) (ending : Ending)
    (h : (received chunks).length ≤ bufSize) :
    ∃ calls, (∀ a ∈ calls, a.read? = none ∧ a ≠ .close) ∧
      (event (row chunks ending)).1 = calls ++ after (received chunks) ending := by
  obtain ⟨calls, hcalls, hloop⟩ := recvLoop_row chunks ending []
    (by rw [List.length_nil, Nat.zero_add]; exact h)
  refine ⟨calls, hcalls, ?_⟩
  rw [event, hloop, List.nil_append]
  cases ending with
  | closed => rfl
  | failed => rfl
  | again =>
    dsimp only [Ending.result]
    rw [after]
    by_cases hnone : received chunks = []
    · rw [hnone, if_pos rfl, List.append_nil]
      rfl
    · rw [if_neg hnone, if_pos (List.length_pos_iff.mpr hnone)]

/-- The calls themselves deliver nothing. -/
theorem delivers_append {calls : List Action} (hcalls : ∀ a ∈ calls, a.read? = none ∧ a ≠ .close)
    (bytes : List UInt8) (rest : List Action) :
    Delivers bytes (calls ++ rest) ↔ Delivers bytes rest := by
  have hread : calls.filterMap Action.read? = [] :=
    List.filterMap_eq_nil_iff.mpr fun a ha => (hcalls a ha).1
  have htake : (calls ++ rest).takeWhile (fun a => a ≠ .close) =
      calls ++ rest.takeWhile fun a => a ≠ .close :=
    List.takeWhile_append_of_pos fun a ha => decide_eq_true (hcalls a ha).2
  rw [Delivers, Delivers, htake, List.filterMap_append, List.filterMap_append, hread,
    List.nil_append, List.nil_append]

/-- **Delivered** is exactly what comes before an `EAGAIN`: an end of the stream, or an error, loses
    what came before it. -/
theorem received_delivered_iff (chunks : List Chunk) (ending : Ending)
    (h : (received chunks).length ≤ 1023) :
    Delivers (received chunks) (event (row chunks ending)).1 ↔ chunks = [] ∨ ending = .again := by
  obtain ⟨calls, hcalls, heq⟩ := event_row chunks ending (Nat.le_trans h (by decide))
  have hnone : received chunks = [] ↔ chunks = [] := by
    constructor
    · intro hr
      cases chunks with
      | nil => rfl
      | cons c chunks =>
        have hlen := congrArg List.length hr
        rw [received, List.map_cons, List.flatten_cons, List.length_append, List.length_nil] at hlen
        have := c.size.1
        omega
    · rintro rfl
      rfl
  rw [heq, delivers_append hcalls]
  by_cases hempty : received chunks = []
  · rw [hempty]
    refine iff_of_true ?_ (Or.inl (hnone.mp hempty))
    cases ending <;> exact ⟨rfl, rfl⟩
  · have hne : chunks ≠ [] := fun hc => hempty (hnone.mpr hc)
    cases ending with
    | again =>
      refine iff_of_true ?_ (Or.inr rfl)
      rw [after, if_neg hempty, Delivers, if_neg hempty]
      exact ⟨rfl, rfl⟩
    | closed =>
      refine iff_of_false (fun hd => ?_) (by rintro (hc | hc); exact hne hc; cases hc)
      have hread := hd.1
      rw [if_neg hempty] at hread
      cases hread
    | failed =>
      refine iff_of_false (fun hd => ?_) (by rintro (hc | hc); exact hne hc; cases hc)
      have hread := hd.1
      rw [if_neg hempty] at hread
      cases hread

/-- One byte. -/
def oneByte : Chunk := ⟨[65], by decide, by decide⟩

theorem received_delivered_oneByte :
    Delivers [65] (event (row [oneByte] .again)).1 ↔ [oneByte] = [] ∨ Ending.again = .again :=
  received_delivered_iff [oneByte] .again (by decide)

/-- A byte, and then the peer closes. -/
theorem last_byte_lost :
    ¬ ∀ (chunks : List Chunk) (ending : Ending), (received chunks).length ≤ 1023 →
      Delivers (received chunks) (event (row chunks ending)).1 := by
  intro hall
  have h := (received_delivered_iff [oneByte] .closed (by decide)).mp
    (hall [oneByte] .closed (by decide))
  rcases h with h | h
  · cases h
  · cases h

end ZServerHandler

end Monsys
