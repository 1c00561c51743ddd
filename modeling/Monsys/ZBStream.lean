/-
  The serial receiver: `server/syn_byte_matcher.h` and `server/zb_stream.{h,cc}`.

  `ZBStream` cuts frames out of the bytes a serial port delivers.  It hunts for eight 'Z', collects
  three bytes of header, adds the length declared there to `HEAD_LEN` in 16 bits, collects as many
  bytes as that says, and queues the frame.  `feed` is a loop over a switch on the state; each of
  the three handlers eats some of the bytes and returns how many.

  Modelling choices:

  * `none` is a run that goes wrong: a failed `assert`, or a copy with a negative length.
  * What `new char[4 << 10]` contains and what `expect_data_len_` is before its first assignment
    (the constructor does not set it) are parameters of `ZBStream.new`.
  * The handlers write what they log about a header, and the lengths they hand to `buf_.put`, into
    a list of `Event`s beside their result.
  * A queued `stream_data_t` is the list of the bytes not read yet.  `last_feed_time_` and the two
    empty timing methods are left out.
-/
import Monsys.DataBuffer
import Monsys.Codec

namespace Monsys

open Wire

/-! ## The matcher of synchronisation bytes -/

/-- `ZB_SYN_BYTES`. -/
def zbSynBytes : List UInt8 := List.replicate 8 0x5A

/-- `SynBytesMatcher`. -/
structure SynBytesMatcher where
  synBytes : List UInt8
  idx : Nat
  idx_le : idx ≤ synBytes.length

namespace SynBytesMatcher

def new (bytes : List UInt8) : SynBytesMatcher := ⟨bytes, 0, Nat.zero_le _⟩

def finished (m : SynBytesMatcher) : Bool := m.synBytes.length ≤ m.idx

/-- `int feed(char c)`. -/
def feed (m : SynBytesMatcher) (c : UInt8) : Int × SynBytesMatcher :=
  if h : m.idx < m.synBytes.length then
    if c ≠ m.synBytes[m.idx] then (-1, m)
    else (1, ⟨m.synBytes, m.idx + 1, h⟩)
  else (0, m)

def reset (m : SynBytesMatcher) : SynBytesMatcher := ⟨m.synBytes, 0, Nat.zero_le _⟩

end SynBytesMatcher

/-! ## The stream -/

/-- `state_t`. -/
inductive StreamState
  | init
  | waitingForHead
  | waitingForData
deriving DecidableEq, Repr

/-- `MIN_HEAD_LEN`: version and length. -/
def minHeadLen : Int := 1 + 2

/-- `HEAD_LEN`: version, length, command and address. -/
def headLen : UInt16 := 1 + 2 + 1 + 2

structure ZBStream where
  state : StreamState
  buf : ZDataBuffer UInt8
  synMatcher : SynBytesMatcher
  expectDataLen : Int
  receivedDataList : List (List UInt8)

/-- What the handlers log and hand on: `expect_data_len_` on entry to a handler that waits, the
    length given to `buf_.put`, and the length decoded from a header with the `expect_data_len_`
    computed from it. -/
inductive Event
  | waiting (expect : Int)
  | put (len : Int)
  | decoded (msgLen : UInt16) (expect : Int)
deriving DecidableEq, Repr

/-- What a handler returns. -/
structure Handled where
  rv : Int
  stream : ZBStream
  log : List Event

namespace ZBStream

/-- `ZBStream()`, on memory that contains `mem` and `junk`. -/
def new (mem : List UInt8) (junk : Int) : ZBStream where
  state := .init
  buf := ZDataBuffer.new mem
  synMatcher := SynBytesMatcher.new zbSynBytes
  expectDataLen := junk
  receivedDataList := []

/-- `buf_(4 << 10)`. -/
def bufSize : Nat := 4 <<< 10

/-- The loop of `doInit` over the bytes from index `i` on: the matcher, the index where the loop
    ended, and whether it returned at a byte that does not match. -/
def syncLoop (m : SynBytesMatcher) (i : Nat) : List UInt8 → SynBytesMatcher × Nat × Bool
  | [] => (m, i, false)
  | c :: cs =>
    let (rv, m') := m.feed c
    if rv < 0 then (m'.reset, i + 1, true)
    else if rv = 0 then (m', i, false)
    else syncLoop m' (i + 1) cs

/-- `doInit`. -/
def doInit (s : ZBStream) (buf : List UInt8) : Option Handled :=
  let (m, i, mismatch) := syncLoop s.synMatcher 0 buf
  if mismatch then some ⟨i, { s with synMatcher := m }, []⟩
  else if m.finished then
    some ⟨i, { s with synMatcher := m, expectDataLen := minHeadLen, state := .waitingForHead }, []⟩
  else if i = buf.length then some ⟨i, { s with synMatcher := m }, []⟩
  else none  -- assert(buf_len == 0)

/-- `doWaitingForHead`. -/
def doWaitingForHead (s : ZBStream) (buf : List UInt8) : Option Handled :=
  if (buf.length : Int) < s.expectDataLen then
    (s.buf.put buf buf.length).map fun (_, b) =>
      ⟨buf.length, { s with buf := b, expectDataLen := s.expectDataLen - buf.length },
        [.waiting s.expectDataLen, .put buf.length]⟩
  else
    (s.buf.put buf s.expectDataLen).bind fun (_, b) =>
      match zDecodeByte b.buf b.remaining with
      | .error _ => none  -- assert(rv1 == 1)
      | .ok _ =>
        match zDecodeInteger16 (b.buf.drop 1) (b.remaining - 1) with
        | .error _ => none  -- assert(rv1 == 2)
        | .ok (_, msgLen) =>
          -- msg_len is a uint16_t: the sum with HEAD_LEN wraps
          let expect : Int := (msgLen + headLen).toNat - minHeadLen
          some ⟨s.expectDataLen,
            { s with buf := b, expectDataLen := expect, state := .waitingForData },
            [.waiting s.expectDataLen, .put s.expectDataLen, .decoded msgLen expect]⟩

/-- `doWaitingForData`. -/
def doWaitingForData (s : ZBStream) (buf : List UInt8) : Option Handled :=
  if (buf.length : Int) < s.expectDataLen then
    (s.buf.put buf buf.length).map fun (_, b) =>
      ⟨buf.length, { s with buf := b, expectDataLen := s.expectDataLen - buf.length },
        [.waiting s.expectDataLen, .put buf.length]⟩
  else
    (s.buf.put buf s.expectDataLen).bind fun (_, b) =>
      (b.flip.get b.flip.remaining).bind fun (data, b') =>
        if b'.remaining = 0 then
          some ⟨s.expectDataLen,
            { s with
              buf := b'.clear
              synMatcher := s.synMatcher.reset
              receivedDataList := s.receivedDataList ++ [data]
              state := .init },
            [.waiting s.expectDataLen, .put s.expectDataLen]⟩
        else none  -- assert(buf_.remaining() == 0)

/-- The switch on the state. -/
def handle (s : ZBStream) (buf : List UInt8) : Option Handled :=
  match s.state with
  | .init => s.doInit buf
  | .waitingForHead => s.doWaitingForHead buf
  | .waitingForData => s.doWaitingForData buf

/-! ### The loop of `feed` ends

  An iteration that eats nothing moves on to another state, and never in a circle. -/

/-- How many iterations may pass before a byte is eaten. -/
def rank (s : ZBStream) : Nat :=
  match s.state with
  | .init => 1
  | .waitingForHead => if 0 < s.expectDataLen then 0 else 3
  | .waitingForData => 2

/-- The loop of `doInit` eats something, unless the matcher has finished before it or there is
    nothing to eat. -/
theorem syncLoop_stall : ∀ (buf : List UInt8) (m : SynBytesMatcher) (i : Nat),
    ∃ m' k mis, syncLoop m i buf = (m', i + k, mis) ∧
      (k = 0 → buf ≠ [] → m.finished = true ∧ mis = false ∧ m' = m) := by
  intro buf
  induction buf with
  | nil => intro m i; exact ⟨m, 0, false, rfl, fun _ h => absurd rfl h⟩
  | cons c cs ih =>
    intro m i
    by_cases hidx : m.idx < m.synBytes.length
    · by_cases hc : c ≠ m.synBytes[m.idx]
      · -- a byte that does not match is eaten all the same
        have hfeed : m.feed c = (-1, m) := by
          rw [SynBytesMatcher.feed, dif_pos hidx, if_pos hc]
        refine ⟨m.reset, 1, true, ?_, by omega⟩
        rw [syncLoop, hfeed]
        rfl
      · have hfeed : m.feed c = (1, ⟨m.synBytes, m.idx + 1, hidx⟩) := by
          rw [SynBytesMatcher.feed, dif_pos hidx, if_neg hc]
        obtain ⟨m', k, mis, heq, _⟩ := ih ⟨m.synBytes, m.idx + 1, hidx⟩ (i + 1)
        refine ⟨m', k + 1, mis, ?_, by omega⟩
        rw [syncLoop, hfeed]
        show syncLoop _ (i + 1) cs = _
        rw [heq, Nat.add_assoc, Nat.add_comm 1 k]
    · -- the only way to eat nothing
      have hfeed : m.feed c = (0, m) := by
        rw [SynBytesMatcher.feed, dif_neg hidx]
      refine ⟨m, 0, false, ?_, fun _ _ => ⟨decide_eq_true (Nat.not_lt.mp hidx), rfl, rfl⟩⟩
      rw [syncLoop, hfeed]
      rfl

theorem doInit_decreases {s : ZBStream} {buf : List UInt8} {r : Handled} (h : s.doInit buf = some r)
    (hrv : r.rv = 0) (hbuf : buf ≠ []) : r.stream.rank = 0 := by
  obtain ⟨m, k, mis, heq, hstall⟩ := syncLoop_stall buf s.synMatcher 0
  simp only [doInit, heq, Nat.zero_add] at h
  split at h
  · rename_i hmis
    obtain rfl := Option.some.inj h
    have hk : k = 0 := Int.ofNat_eq_zero.mp hrv
    rw [(hstall hk hbuf).2.1] at hmis
    exact absurd hmis (by decide)
  · rename_i hmis
    split at h
    · obtain rfl := Option.some.inj h
      rfl
    · rename_i hfin
      split at h
      · obtain rfl := Option.some.inj h
        have hk : k = 0 := Int.ofNat_eq_zero.mp hrv
        obtain ⟨hfin', _, rfl⟩ := hstall hk hbuf
        exact absurd hfin' hfin
      · cases h

theorem doWaitingForHead_decreases {s : ZBStream} {buf : List UInt8} {r : Handled}
    (h : s.doWaitingForHead buf = some r) (hrv : r.rv = 0) (hbuf : buf ≠ []) :
    r.stream.rank = 2 ∧ s.expectDataLen = 0 := by
  have hlen : 0 < buf.length := List.length_pos_iff.mpr hbuf
  rw [doWaitingForHead] at h
  split at h
  · obtain ⟨⟨n, b⟩, _, rfl⟩ := Option.map_eq_some_iff.mp h
    have hrv' : (buf.length : Int) = 0 := hrv
    omega
  · obtain ⟨⟨n, b⟩, _, h⟩ := Option.bind_eq_some_iff.mp h
    simp only at h
    split at h
    · cases h
    · split at h
      · cases h
      · obtain rfl := Option.some.inj h
        exact ⟨rfl, hrv⟩

theorem doWaitingForData_decreases {s : ZBStream} {buf : List UInt8} {r : Handled}
    (h : s.doWaitingForData buf = some r) (hrv : r.rv = 0) (hbuf : buf ≠ []) :
    r.stream.rank = 1 := by
  have hlen : 0 < buf.length := List.length_pos_iff.mpr hbuf
  rw [doWaitingForData] at h
  split at h
  · obtain ⟨⟨n, b⟩, _, rfl⟩ := Option.map_eq_some_iff.mp h
    have hrv' : (buf.length : Int) = 0 := hrv
    omega
  · obtain ⟨⟨n, b⟩, _, h⟩ := Option.bind_eq_some_iff.mp h
    obtain ⟨⟨data, b'⟩, _, h⟩ := Option.bind_eq_some_iff.mp h
    simp only at h
    split at h
    · obtain rfl := Option.some.inj h
      rfl
    · cases h

/-- **Progress.**  An iteration that eats nothing of a buffer with something in it lowers the
    rank. -/
theorem handle_decreases {s : ZBStream} {buf : List UInt8} {r : Handled}
    (h : s.handle buf = some r) (hrv : r.rv = 0) (hbuf : buf ≠ []) : r.stream.rank < s.rank := by
  cases hs : s.state with
  | init =>
    simp only [handle, hs] at h
    rw [doInit_decreases h hrv hbuf, rank, hs]
    exact Nat.one_pos
  | waitingForHead =>
    simp only [handle, hs] at h
    obtain ⟨hrank, hexp⟩ := doWaitingForHead_decreases h hrv hbuf
    rw [hrank, rank, hs, hexp]
    decide
  | waitingForData =>
    simp only [handle, hs] at h
    rw [doWaitingForData_decreases h hrv hbuf, rank, hs]
    exact Nat.one_lt_two

/-! ## Feeding and reading -/

/-- The loop of `feed`: the stream, the bytes not eaten, and the log.  A negative value ends the
    loop; so does the end of the bytes. -/
def feedLoop (s : ZBStream) (buf : List UInt8) : Option (ZBStream × List UInt8 × List Event) :=
  match _hh : s.handle buf with
  | none => none
  | some r =>
    if r.rv < 0 then some (r.stream, buf, r.log)
    else if _hrest : buf.drop r.rv.toNat = [] then some (r.stream, [], r.log)
    else (feedLoop r.stream (buf.drop r.rv.toNat)).map fun (s', rest, log) =>
      (s', rest, r.log ++ log)
termination_by (buf.length, s.rank)
decreasing_by
  rename_i hneg
  have hbuf : buf ≠ [] := by
    rintro rfl
    exact _hrest List.drop_nil
  by_cases hrv : r.rv = 0
  · -- nothing was eaten: the state has moved on instead
    have hdrop : buf.drop r.rv.toNat = buf := by rw [hrv]; rfl
    rw [hdrop]
    exact Prod.Lex.right _ (handle_decreases _hh hrv hbuf)
  · apply Prod.Lex.left
    have hlen : 0 < buf.length := List.length_pos_iff.mpr hbuf
    rw [List.length_drop]
    omega

/-- `feed`. -/
def feed (s : ZBStream) (buf : List UInt8) : Option Handled :=
  (feedLoop s buf).map fun (s', rest, log) => ⟨buf.length - rest.length, s', log⟩

/-- `read`: the bytes copied out; their number is the value returned. -/
def read (s : ZBStream) (bufLen : Int) : Option (List UInt8 × ZBStream) :=
  match s.receivedDataList with
  | [] => some ([], s)
  | data :: rest =>
    if data = [] then none  -- assert(data->data_len > 0)
    else if (data.length : Int) > bufLen then
      if bufLen < 0 then none  -- memcpy of a negative length
      else some (data.take bufLen.toNat,
        { s with receivedDataList := data.drop bufLen.toNat :: rest })
    else some (data, { s with receivedDataList := rest })

/-- `read` touches the queue only. -/
theorem read_queue {s s' : ZBStream} {bufLen : Int} {out : List UInt8}
    (h : s.read bufLen = some (out, s')) : ∃ q, s' = { s with receivedDataList := q } := by
  rw [read] at h
  split at h
  · exact ⟨_, (Prod.mk.inj (Option.some.inj h)).2.symm⟩
  · split at h
    · cases h
    · split at h
      · split at h
        · cases h
        · exact ⟨_, (Prod.mk.inj (Option.some.inj h)).2.symm⟩
      · exact ⟨_, (Prod.mk.inj (Option.some.inj h)).2.symm⟩

/-- **`read` loses and repeats nothing**: what it gives out and what stays queued are what was
    queued. -/
theorem read_flatten {s s' : ZBStream} {bufLen : Int} {out : List UInt8}
    (h : s.read bufLen = some (out, s')) :
    out ++ s'.receivedDataList.flatten = s.receivedDataList.flatten := by
  rw [read] at h
  split at h <;> rename_i hq
  · obtain ⟨rfl, rfl⟩ := Prod.mk.inj (Option.some.inj h)
    rfl
  · rename_i data rest
    rw [hq, List.flatten_cons]
    split at h
    · cases h
    · split at h
      · split at h
        · cases h
        · obtain ⟨rfl, rfl⟩ := Prod.mk.inj (Option.some.inj h)
          rw [List.flatten_cons, ← List.append_assoc, List.take_append_drop]
      · obtain ⟨rfl, rfl⟩ := Prod.mk.inj (Option.some.inj h)
        rfl

/-! ## Runs -/

/-- What a row of calls to `feed` leaves: the values returned, the stream, the log. -/
structure Fed where
  rvs : List Int
  stream : ZBStream
  log : List Event

/-- One `feed` for each chunk. -/
def feedAll (s : ZBStream) : List (List UInt8) → Option Fed
  | [] => some ⟨[], s, []⟩
  | c :: cs => (s.feed c).bind fun r =>
    (feedAll r.stream cs).map fun f => ⟨r.rv :: f.rvs, f.stream, r.log ++ f.log⟩

/-- The streams a program can come to by feeding and reading, whatever the memory held. -/
inductive Reachable : ZBStream → Prop
  | new (mem : List UInt8) (junk : Int) (h : mem.length = bufSize) : Reachable (new mem junk)
  | feed {s : ZBStream} {buf : List UInt8} {r : Handled} (hs : Reachable s) (hbuf : buf ≠ [])
      (h : s.feed buf = some r) : Reachable r.stream
  | read {s s' : ZBStream} {bufLen : Int} {out : List UInt8} (hs : Reachable s)
      (h : s.read bufLen = some (out, s')) : Reachable s'

/-- What a stream shows: its frames, its state, the matched sync bytes, the bytes held, and
    `expect_data_len_` where it means something. -/
structure View where
  frames : List (List UInt8)
  state : StreamState
  matched : Nat
  held : List UInt8
  expect : Option Int
deriving DecidableEq, Repr

def view (s : ZBStream) : View where
  frames := s.receivedDataList
  state := s.state
  matched := s.synMatcher.idx
  held := s.buf.held
  expect := if s.state = .init then none else some s.expectDataLen

end ZBStream

end Monsys
