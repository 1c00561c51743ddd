/-
  Reading a `ZBStream` in pieces, while it is fed.

  `ZBStream.lean` has a queued `stream_data_t` as the list of the bytes not read yet.  In memory it
  is a block and a length: a short `read` copies from the front of the block, moves the rest down
  in place, one byte after the other, and lowers the length.

  1. **Blocks** — `StreamData`, the loop `shiftDown`, and `read` on a queue of blocks.
  2. **A stream and its blocks** — `StreamMem`: the blocks hold what `ZBStream` has in its queue.
     `StreamMem.read_refines`: reading the blocks is `ZBStream.read`.
  3. **Runs** — calls to `feed` and `read` in any order.  `Ran` remembers what the reads gave out and
     which frames the feeds queued.
  4. **Nothing is lost or repeated** — `reads_account`.
-/
import Monsys.SerialLine

namespace Monsys

open Framing

namespace ZBStream

/-! ## Blocks -/

/-- `stream_data_t`: a block of memory, of which the first `data_len` bytes count. -/
structure StreamData where
  data : List UInt8
  dataLen : Nat
  dataLen_le : dataLen ≤ data.length

/-- `for (..; n more times; ++i) data[i] = data[off + i];` -/
def shiftDown (off : Nat) (data : List UInt8) (i : Nat) :
    (n : Nat) → off + i + n ≤ data.length → List UInt8
  | 0, _ => data
  | n + 1, h => shiftDown off (data.set i data[off + i]) (i + 1) n (by rw [List.length_set]; omega)

theorem shiftDown_length (off : Nat) : ∀ (n i : Nat) (data : List UInt8)
    (h : off + i + n ≤ data.length), (shiftDown off data i n h).length = data.length := by
  intro n
  induction n with
  | zero => intro i data h; rfl
  | succ n ih =>
    intro i data h
    rw [shiftDown, ih, List.length_set]

/-- What the loop leaves at the front: the bytes below `i`, then `n` bytes from further up. -/
theorem shiftDown_take (off : Nat) : ∀ (n i : Nat) (data : List UInt8)
    (h : off + i + n ≤ data.length),
    (shiftDown off data i n h).take (i + n) = data.take i ++ (data.drop (off + i)).take n := by
  intro n
  induction n with
  | zero => intro i data h; rw [shiftDown, List.take_zero, List.append_nil, Nat.add_zero]
  | succ n ih =>
    intro i data h
    have hi : i < data.length := by omega
    have hlast : (data.set i data[off + i]).take (i + 1) = data.take i ++ [data[off + i]] := by
      rw [List.take_succ_eq_append_getElem (by rw [List.length_set]; exact hi),
        List.getElem_set_self, List.take_set_of_le (Nat.le_refl i)]
    have hrest : (data.set i data[off + i]).drop (off + (i + 1)) = data.drop (off + i + 1) := by
      rw [List.drop_set_of_lt (by omega)]
      rfl
    rw [shiftDown, Nat.add_comm n 1, ← Nat.add_assoc, ih, hlast, hrest, List.append_assoc,
      List.singleton_append, Nat.add_comm 1 n, ← List.take_succ_cons,
      ← List.drop_eq_getElem_cons (by omega)]

namespace StreamData

/-- The bytes not read yet. -/
def contents (d : StreamData) : List UInt8 := d.data.take d.dataLen

/-- `new stream_data_t` with the bytes of a frame. -/
def new (frame : List UInt8) : StreamData := ⟨frame, frame.length, Nat.le_refl _⟩

/-- What a short read of `n` bytes does to a block: `data_len` first, then the loop. -/
def shift (d : StreamData) (n : Nat) (h : n ≤ d.dataLen) : StreamData where
  data := shiftDown n d.data 0 (d.dataLen - n) (by have := d.dataLen_le; omega)
  dataLen := d.dataLen - n
  dataLen_le := by
    have := d.dataLen_le
    rw [shiftDown_length]
    omega

theorem contents_new (frame : List UInt8) : (new frame).contents = frame := List.take_length

theorem contents_length (d : StreamData) : d.contents.length = d.dataLen := by
  rw [contents, List.length_take, Nat.min_eq_left d.dataLen_le]

/-- Moving the bytes down in place is dropping those that were read. -/
theorem shift_contents (d : StreamData) (n : Nat) (h : n ≤ d.dataLen) :
    (d.shift n h).contents = d.contents.drop n := by
  have hle := d.dataLen_le
  have hfront := shiftDown_take n (d.dataLen - n) 0 d.data (by omega)
  rw [Nat.zero_add, List.take_zero, List.nil_append] at hfront
  rw [contents, contents, List.drop_take]
  exact hfront

end StreamData

/-- `read` on a queue of blocks: the bytes copied out, and the queue. -/
def readBlocks (q : List StreamData) (bufLen : Int) : Option (List UInt8 × List StreamData) :=
  match q with
  | [] => some ([], [])
  | d :: rest =>
    if d.dataLen = 0 then none  -- assert(data->data_len > 0)
    else if h : (d.dataLen : Int) > bufLen then
      if bufLen < 0 then none  -- memcpy of a negative length
      else some (d.data.take bufLen.toNat, d.shift bufLen.toNat (by omega) :: rest)
    else some (d.data.take d.dataLen, rest)

/-! ## A stream and its blocks -/

/-- Whatever the handlers do, they only add to the queue. -/
theorem handle_queue {s : ZBStream} {buf : List UInt8} {r : Handled} (h : s.handle buf = some r) :
    s.receivedDataList <+: r.stream.receivedDataList := by
  cases hs : s.state with
  | init =>
    simp only [handle, hs, doInit] at h
    split at h
    · obtain rfl := Option.some.inj h
      exact List.prefix_refl _
    · split at h
      · obtain rfl := Option.some.inj h
        exact List.prefix_refl _
      · split at h
        · obtain rfl := Option.some.inj h
          exact List.prefix_refl _
        · cases h
  | waitingForHead =>
    simp only [handle, hs, doWaitingForHead] at h
    split at h
    · obtain ⟨_, _, rfl⟩ := Option.map_eq_some_iff.mp h
      exact List.prefix_refl _
    · obtain ⟨_, _, h⟩ := Option.bind_eq_some_iff.mp h
      split at h
      · cases h
      · split at h
        · cases h
        · obtain rfl := Option.some.inj h
          exact List.prefix_refl _
  | waitingForData =>
    simp only [handle, hs, doWaitingForData] at h
    split at h
    · obtain ⟨_, _, rfl⟩ := Option.map_eq_some_iff.mp h
      exact List.prefix_refl _
    · obtain ⟨_, _, h⟩ := Option.bind_eq_some_iff.mp h
      obtain ⟨_, _, h⟩ := Option.bind_eq_some_iff.mp h
      split at h
      · obtain rfl := Option.some.inj h
        exact List.prefix_append _ _
      · cases h

theorem feedLoop_queue (s : ZBStream) (buf : List UInt8) {s' : ZBStream} {rest : List UInt8}
    {log : List Event} (h : feedLoop s buf = some (s', rest, log)) :
    s.receivedDataList <+: s'.receivedDataList := by
  induction s, buf using feedLoop.induct generalizing log with
  | case1 s buf hh =>
    rw [feedLoop, hh] at h
    cases h
  | case2 s buf r hh hneg =>
    rw [feedLoop, hh] at h
    simp only [if_pos hneg] at h
    obtain ⟨rfl, _⟩ := Prod.mk.inj (Option.some.inj h)
    exact handle_queue hh
  | case3 s buf r hh hneg hrest =>
    rw [feedLoop, hh] at h
    simp only [if_neg hneg, dif_pos hrest] at h
    obtain ⟨rfl, _⟩ := Prod.mk.inj (Option.some.inj h)
    exact handle_queue hh
  | case4 s buf r hh hneg hrest ih =>
    rw [feedLoop, hh] at h
    simp only [if_neg hneg, dif_neg hrest] at h
    obtain ⟨⟨u, rest', log'⟩, hloop, heq⟩ := Option.map_eq_some_iff.mp h
    simp only [Prod.mk.injEq] at heq
    obtain ⟨rfl, rfl, _⟩ := heq
    exact (handle_queue hh).trans (ih hloop)

theorem feed_queue {s : ZBStream} {buf : List UInt8} {r : Handled} (h : s.feed buf = some r) :
    s.receivedDataList <+: r.stream.receivedDataList := by
  obtain ⟨⟨s', rest, log⟩, hloop, rfl⟩ := Option.map_eq_some_iff.mp h
  exact feedLoop_queue s buf hloop

/-- A stream, and the blocks that its queue stands in. -/
structure StreamMem where
  stream : ZBStream
  blocks : List StreamData
  shows : stream.receivedDataList = blocks.map StreamData.contents

namespace StreamMem

/-- `ZBStream()`: no block. -/
def new (mem : List UInt8) (junk : Int) : StreamMem := ⟨ZBStream.new mem junk, [], rfl⟩

/-- The frames that a call to `feed` has queued. -/
def pushed (m : StreamMem) (r : Handled) : List (List UInt8) :=
  r.stream.receivedDataList.drop m.blocks.length

theorem queue_pushed {m : StreamMem} {buf : List UInt8} {r : Handled}
    (h : m.stream.feed buf = some r) :
    r.stream.receivedDataList = m.stream.receivedDataList ++ m.pushed r := by
  obtain ⟨q, hq⟩ := feed_queue h
  have hlen : m.blocks.length = m.stream.receivedDataList.length := by rw [m.shows, List.length_map]
  rw [pushed, hlen, ← hq, List.drop_left]

/-- `feed`: a block for every frame it queues. -/
def feed (m : StreamMem) (buf : List UInt8) : Option StreamMem :=
  match h : m.stream.feed buf with
  | none => none
  | some r => some ⟨r.stream, m.blocks ++ (m.pushed r).map StreamData.new, by
      have hnew : (m.pushed r).map (StreamData.contents ∘ StreamData.new) = m.pushed r :=
        List.map_id'' StreamData.contents_new _
      rw [queue_pushed h, m.shows, List.map_append, List.map_map, hnew]⟩

theorem feed_eq {m : StreamMem} {buf : List UInt8} {r : Handled} (h : m.stream.feed buf = some r) :
    ∃ m', m.feed buf = some m' ∧ m'.stream = r.stream ∧
      m'.blocks = m.blocks ++ (m.pushed r).map StreamData.new := by
  unfold feed
  split
  · rename_i hnone
    rw [h] at hnone
    cases hnone
  · rename_i r' hr
    obtain rfl := Option.some.inj (h.symm.trans hr)
    exact ⟨_, rfl, rfl, rfl⟩

/-- `read`: the bytes copied out; their number is the value returned. -/
def read (m : StreamMem) (bufLen : Int) : Option (List UInt8 × StreamMem) :=
  (readBlocks m.blocks bufLen).map fun (out, bs) =>
    (out, ⟨{ m.stream with receivedDataList := bs.map StreamData.contents }, bs, rfl⟩)

/-- **Reading the blocks is `ZBStream.read`.** -/
theorem read_refines (m : StreamMem) (bufLen : Int) :
    (m.read bufLen).map (fun p => (p.1, p.2.stream)) = m.stream.read bufLen := by
  obtain ⟨s, blocks, hshows⟩ := m
  cases blocks with
  | nil =>
    simp only [List.map_nil] at hshows
    have hsame : { s with receivedDataList := [] } = s := by
      rw [← hshows]
    simp only [read, readBlocks, ZBStream.read, hshows]
    exact congrArg (fun t => some (([] : List UInt8), t)) hsame
  | cons d rest =>
    have hempty : d.contents = [] ↔ d.dataLen = 0 := by
      rw [← List.length_eq_zero_iff, d.contents_length]
    simp only [List.map_cons] at hshows
    simp only [read, readBlocks, ZBStream.read, hshows, hempty, d.contents_length]
    by_cases h0 : d.dataLen = 0
    · rw [if_pos h0, if_pos h0]
      rfl
    · rw [if_neg h0, if_neg h0]
      by_cases hlt : (d.dataLen : Int) > bufLen
      · -- a short read: the front of the block, and the rest moved down
        rw [dif_pos hlt, if_pos hlt]
        by_cases hneg : bufLen < 0
        · rw [if_pos hneg, if_pos hneg]
          rfl
        · rw [if_neg hneg, if_neg hneg]
          have htake : d.contents.take bufLen.toNat = d.data.take bufLen.toNat := by
            rw [StreamData.contents, List.take_take, Nat.min_eq_left (by omega)]
          simp only [Option.map_some, List.map_cons]
          rw [htake, StreamData.shift_contents]
      · rw [dif_neg hlt, if_neg hlt]
        rfl

/-- A read touches the queue only. -/
theorem read_stream {m m' : StreamMem} {bufLen : Int} {out : List UInt8}
    (h : m.read bufLen = some (out, m')) :
    ∃ q, m'.stream = { m.stream with receivedDataList := q } := by
  obtain ⟨⟨out', bs⟩, _, heq⟩ := Option.map_eq_some_iff.mp h
  obtain ⟨_, rfl⟩ := Prod.mk.inj heq
  exact ⟨_, rfl⟩

/-- What a read gives out and what it leaves is what was queued. -/
theorem read_balance {m m' : StreamMem} {bufLen : Int} {out : List UInt8}
    (h : m.read bufLen = some (out, m')) :
    out ++ (m'.blocks.map StreamData.contents).flatten =
      (m.blocks.map StreamData.contents).flatten := by
  have hread := m.read_refines bufLen
  rw [h, Option.map_some] at hread
  rw [← m.shows, ← m'.shows]
  exact read_flatten hread.symm

/-- What a read of `bufLen` bytes gives out: all that fits of the oldest frame. -/
structure Serves (m : StreamMem) (bufLen : Int) (out : List UInt8) : Prop where
  empty_iff : out.length = 0 ↔ m.blocks = []
  oldest : ∀ d rest, m.blocks = d :: rest →
    out <+: d.contents ∧ (out.length : Int) = min bufLen d.dataLen

/-- A read into a buffer with something in it never goes wrong on a queue without empty frames. -/
theorem read_serves {m : StreamMem} {bufLen : Int} (hpos : 0 < bufLen)
    (hne : ∀ g ∈ m.blocks.map StreamData.contents, g ≠ []) :
    ∃ out m', m.read bufLen = some (out, m') ∧ m.Serves bufLen out ∧
      ∀ g ∈ m'.blocks.map StreamData.contents, g ≠ [] := by
  obtain ⟨s, blocks, hshows⟩ := m
  cases blocks with
  | nil =>
    exact ⟨[], _, rfl, ⟨⟨fun _ => rfl, fun _ => rfl⟩, fun d rest h => (by cases h)⟩, hne⟩
  | cons d rest =>
    have hlen := d.contents_length
    have hdne : d.dataLen ≠ 0 := fun h0 =>
      hne d.contents List.mem_cons_self (List.length_eq_zero_iff.mp (hlen.trans h0))
    have hrest : ∀ g ∈ rest.map StreamData.contents, g ≠ [] :=
      fun g hg => hne g (List.mem_cons_of_mem _ hg)
    simp only [StreamMem.read, readBlocks, if_neg hdne]
    by_cases hlt : (d.dataLen : Int) > bufLen
    · -- the buffer is too small: the front of the frame
      rw [dif_pos hlt, if_neg (by omega), Option.map_some]
      have htake : d.data.take bufLen.toNat = d.contents.take bufLen.toNat := by
        rw [StreamData.contents, List.take_take, Nat.min_eq_left (by omega)]
      have hout : (d.data.take bufLen.toNat).length = bufLen.toNat := by
        rw [htake, List.length_take, hlen]
        omega
      have hleft := d.shift_contents bufLen.toNat (by omega)
      refine ⟨_, _, rfl, ⟨⟨fun h0 => ?_, fun h => by cases h⟩, ?_⟩, ?_⟩
      · have hzero := hout.symm.trans h0
        omega
      · rintro d' rest' heq
        obtain ⟨rfl, rfl⟩ := List.cons.inj heq
        refine ⟨htake ▸ List.take_prefix _ _, ?_⟩
        show ((d.data.take bufLen.toNat).length : Int) = _
        omega
      · refine List.forall_mem_cons.mpr ⟨fun hnil => ?_, hrest⟩
        have hsome := congrArg List.length (hleft.symm.trans hnil)
        rw [List.length_drop, hlen, List.length_nil] at hsome
        omega
    · -- the whole of the frame
      rw [dif_neg hlt, Option.map_some]
      refine ⟨_, _, rfl, ⟨⟨fun h0 => absurd (hlen.symm.trans h0) hdne, fun h => by cases h⟩, ?_⟩,
        hrest⟩
      rintro d' rest' heq
      obtain ⟨rfl, rfl⟩ := List.cons.inj heq
      exact ⟨List.prefix_refl _, by rw [← StreamData.contents, hlen]; omega⟩

end StreamMem

/-! ## Runs -/

/-- A call to the stream. -/
inductive Op
  | feed (buf : List UInt8)
  | read (bufLen : Int)
deriving DecidableEq

/-- The bytes that a call brings. -/
def Op.fed : Op → List UInt8
  | feed buf => buf
  | read _ => []

/-- What calls have led to: the stream, what each read gave out, and the frames that were queued. -/
structure Ran where
  mem : StreamMem
  outs : List (List UInt8)
  queued : List (List UInt8)

namespace Ran

def start (mem : List UInt8) (junk : Int) : Ran := ⟨.new mem junk, [], []⟩

def step (t : Ran) : Op → Option Ran
  | .feed buf => (t.mem.feed buf).map fun m =>
    { t with
      mem := m
      queued := t.queued ++ m.stream.receivedDataList.drop t.mem.blocks.length }
  | .read bufLen => (t.mem.read bufLen).map fun (out, m) =>
    { t with mem := m, outs := t.outs ++ [out] }

def run (t : Ran) (ops : List Op) : Option Ran := ops.foldlM step t

theorem run_concat (t : Ran) (ops : List Op) (op : Op) :
    t.run (ops ++ [op]) = (t.run ops).bind fun u => u.step op := by
  rw [run, List.foldlM_append, run]
  cases ops.foldlM step t with
  | none => rfl
  | some u =>
    show (u.step op >>= fun v => pure v) = u.step op
    exact bind_pure _

/-- What is still queued. -/
def unread (t : Ran) : List (List UInt8) := t.mem.blocks.map StreamData.contents

/-- The account: the reads gave out, and the queue still holds, what was queued; and what was
    queued are the frames on the line, cut to `buf_`. -/
structure Account (bytes : List UInt8) (t : Ran) : Prop where
  balance : t.outs.flatten ++ t.unread.flatten = t.queued.flatten
  queued_eq : t.queued = (framesOn bytes).map (clip streamFormat.cap)

end Ran

/-! ## Nothing is lost or repeated -/

/-- Headers that fit: the line is cut as it is meant, and the stream always waits for something. -/
theorem run_of_headersOn {bytes : List UInt8} (h : ∀ n ∈ headersOn bytes, n ≤ 65529) :
    ∃ t, streamFormat.run Format.start bytes = some t ∧ streamFormat.PhaseOk t.phase ∧
      t.frames = (framesOn bytes).map (clip streamFormat.cap) := by
  obtain ⟨t, ht, htok, hheaders⟩ := wireFormat_run bytes
  rw [hheaders] at h
  have hrun : streamFormat.unbounded.run Format.start bytes = some t :=
    Format.run_alike alike_wire.symm ht fun n hn =>
      ((restLen_eq_iff (Nat.lt_succ_of_le (Nat.le_trans (h n hn) (by decide)))).mpr (h n hn)).symm
  have hclip := @Format.run_clip UInt8 _ streamFormat Format.start trivial bytes
  rw [hrun] at hclip
  refine ⟨t.clip streamFormat.cap, hclip, ?_, ?_⟩
  · rw [Framer.clip]
    cases hph : t.phase with
    | hunt k => trivial
    | head held => rw [hph] at htok; exact htok
    | body held missing => rw [hph] at htok; exact htok
  · rw [framesOn, hrun]
    rfl

/-- A frame on the line has its header, also when it is cut. -/
theorem framesOn_clip_ne {bytes g : List UInt8}
    (hg : g ∈ (framesOn bytes).map (clip streamFormat.cap)) : g ≠ [] := by
  obtain ⟨f, hf, rfl⟩ := List.mem_map.mp hg
  rw [framesOn] at hf
  split at hf
  · rename_i t ht
    have hhead : 3 ≤ f.length := ((streamFormat.unbounded.run_carries rfl ht).2 f hf).1.head_le
    intro hnil
    have hlen : (f.take 4096).length = 0 := by rw [show f.take 4096 = [] from hnil, List.length_nil]
    rw [List.length_take] at hlen
    omega
  · exact absurd hf List.not_mem_nil

/-- The invariant of a run that has fed `bytes`: the framer on the line is the stream, with all the
    frames ever queued in the place of those that are left. -/
structure Accounted (bytes : List UInt8) (t : Ran) : Prop where
  wf : Wf t.mem.stream
  line : ∃ ls, streamFormat.run Format.start bytes =
    some { t.mem.stream.framer ls with frames := t.queued }
  balance : t.outs.flatten ++ t.unread.flatten = t.queued.flatten
  unread_ne : ∀ g ∈ t.unread, g ≠ []

theorem Accounted.start {mem : List UInt8} (hmem : mem.length = bufSize) (junk : Int) :
    Accounted [] (.start mem junk) where
  wf := wf_new hmem junk
  line := ⟨[], rfl⟩
  balance := rfl
  unread_ne := fun _ hg => absurd hg List.not_mem_nil

theorem Accounted.queued_eq {bytes : List UInt8} {t : Ran} (h : Accounted bytes t)
    (hfit : ∀ n ∈ headersOn bytes, n ≤ 65529) :
    t.queued = (framesOn bytes).map (clip streamFormat.cap) := by
  obtain ⟨u, hu, _, hframes⟩ := run_of_headersOn hfit
  obtain ⟨ls, hline⟩ := h.line
  obtain rfl := Option.some.inj (hu.symm.trans hline)
  exact hframes

theorem Accounted.waits {bytes : List UInt8} {t : Ran} (h : Accounted bytes t)
    (hfit : ∀ n ∈ headersOn bytes, n ≤ 65529) : t.mem.stream.Waits := by
  obtain ⟨u, hu, hok, _⟩ := run_of_headersOn hfit
  obtain ⟨ls, hline⟩ := h.line
  obtain rfl := Option.some.inj (hu.symm.trans hline)
  intro hst
  simp only [framer, hst] at hok
  exact hok

/-- A feed keeps the account. -/
theorem Accounted.feed {bytes : List UInt8} {t : Ran} (h : Accounted bytes t) {buf : List UInt8}
    (hfit : ∀ n ∈ headersOn (bytes ++ buf), n ≤ 65529) :
    ∃ t', t.step (.feed buf) = some t' ∧ Accounted (bytes ++ buf) t' := by
  have hwaits := h.waits fun n hn => hfit n (headersOn_append bytes buf n hn)
  obtain ⟨ls, hline⟩ := h.line
  obtain ⟨u, hu, _, hframes⟩ := run_of_headersOn hfit
  rw [streamFormat.run_append_of_eq_some hline] at hu
  -- the frames queued before, or still there, do not matter to the framer
  let fresh : Framer UInt8 := { t.mem.stream.framer ls with frames := [] }
  have hline' := streamFormat.run_behind t.queued fresh buf
  have hleft := streamFormat.run_behind t.mem.stream.receivedDataList fresh buf
  simp only [Framer.behind, fresh, List.append_nil] at hline' hleft
  obtain ⟨v, hv, rfl⟩ := Option.map_eq_some_iff.mp (hline'.symm.trans hu)
  rw [hv] at hleft
  have hleft' : streamFormat.run (t.mem.stream.framer ls) buf = _ := hleft
  rcases feed_refines h.wf (Or.inr hwaits) ls with ⟨_, hnone⟩ | ⟨r, hr, hok⟩
  · rw [hleft'] at hnone
    cases hnone
  · have hfr := Option.some.inj (hleft'.symm.trans hok.run_eq)
    have hqueue : t.mem.stream.receivedDataList ++ v.frames = r.stream.receivedDataList :=
      congrArg Framer.frames hfr
    have hpushed : t.mem.pushed r = v.frames :=
      List.append_cancel_left ((StreamMem.queue_pushed hr).symm.trans hqueue.symm)
    obtain ⟨m, hm, hstream, _⟩ := StreamMem.feed_eq hr
    have hdrop : m.stream.receivedDataList.drop t.mem.blocks.length = v.frames := by
      rw [hstream]
      exact hpushed
    have hunread : m.blocks.map StreamData.contents = t.unread ++ v.frames := by
      rw [← m.shows, hstream, ← hqueue, t.mem.shows]
      rfl
    refine ⟨⟨m, t.outs, t.queued ++ v.frames⟩, ?_, ?_, ?_, ?_, ?_⟩
    · rw [Ran.step, hm, Option.map_some, hdrop]
    · rw [hstream]
      exact hok.wf
    · refine ⟨ls ++ decodedLens r.log, ?_⟩
      rw [streamFormat.run_append_of_eq_some hline, hline', hv, hstream, ← hfr]
      rfl
    · show t.outs.flatten ++ (m.blocks.map StreamData.contents).flatten = _
      rw [hunread, List.flatten_append, ← List.append_assoc, h.balance, List.flatten_append]
    · intro g hg
      rcases List.mem_append.mp (hunread ▸ hg : g ∈ t.unread ++ v.frames) with hg | hg
      · exact h.unread_ne g hg
      · have hframes' : t.queued ++ v.frames = (framesOn (bytes ++ buf)).map (clip streamFormat.cap) :=
          hframes
        exact framesOn_clip_ne (hframes' ▸ List.mem_append_right t.queued hg)

/-- A read keeps the account, and serves the oldest frame. -/
theorem Accounted.read {bytes : List UInt8} {t : Ran} (h : Accounted bytes t) {bufLen : Int}
    (hpos : 0 < bufLen) :
    ∃ out m, t.mem.read bufLen = some (out, m) ∧ t.mem.Serves bufLen out ∧
      Accounted bytes { t with mem := m, outs := t.outs ++ [out] } := by
  obtain ⟨out, m, hread, hserves, hne⟩ := StreamMem.read_serves hpos h.unread_ne
  obtain ⟨q, hq⟩ := StreamMem.read_stream hread
  have hbalance := StreamMem.read_balance hread
  refine ⟨out, m, hread, hserves, ?_, ?_, ?_, hne⟩
  · rw [hq]
    exact ⟨h.wf.limit_eq, h.wf.capability_eq, h.wf.synBytes_eq, h.wf.stateOk⟩
  · rw [hq]
    exact h.line
  · show (t.outs ++ [out]).flatten ++ (m.blocks.map StreamData.contents).flatten = _
    rw [List.flatten_append, List.flatten_singleton, List.append_assoc, hbalance]
    exact h.balance

/-- Calls with headers that fit and buffers with something in them keep the account. -/
theorem run_accounted {mem : List UInt8} (hmem : mem.length = bufSize) (junk : Int) (ops : List Op)
    (hfit : ∀ n ∈ headersOn (ops.flatMap Op.fed), n ≤ 65529)
    (hpos : ∀ bufLen, Op.read bufLen ∈ ops → 0 < bufLen) :
    ∃ t, (Ran.start mem junk).run ops = some t ∧ Accounted (ops.flatMap Op.fed) t := by
  induction ops using List.reverseRecOn with
  | nil => exact ⟨_, rfl, .start hmem junk⟩
  | append_singleton ops op ih =>
    rw [List.flatMap_append] at hfit
    obtain ⟨t, ht, hacc⟩ := ih (fun n hn => hfit n (headersOn_append _ _ n hn))
      fun n hn => hpos n (List.mem_append_left _ hn)
    rw [Ran.run_concat, ht, Option.bind_some, List.flatMap_append]
    cases op with
    | feed buf =>
      rw [List.flatMap_singleton] at hfit ⊢
      exact hacc.feed hfit
    | read bufLen =>
      obtain ⟨out, m, hread, _, hacc'⟩ := hacc.read (hpos bufLen (by simp))
      refine ⟨_, by rw [Ran.step, hread, Option.map_some], ?_⟩
      rw [List.flatMap_singleton, Op.fed, List.append_nil]
      exact hacc'

/-- **Nothing is lost or repeated.**  Whatever the order of feeds and reads, with headers that declare
    at most 65529: no call goes wrong; what the reads gave out and what is still queued are what was
    queued, in order; and each read gives out as much as fits of the oldest frame. -/
theorem reads_account {mem : List UInt8} (hmem : mem.length = bufSize) (junk : Int) (ops : List Op)
    (hfit : ∀ n ∈ headersOn (ops.flatMap Op.fed), n ≤ 65529)
    (hpos : ∀ bufLen, Op.read bufLen ∈ ops → 0 < bufLen) :
    (∃ t, (Ran.start mem junk).run ops = some t ∧ t.Account (ops.flatMap Op.fed)) ∧
    ∀ before bufLen after, ops = before ++ Op.read bufLen :: after →
      ∃ t out m, (Ran.start mem junk).run before = some t ∧ t.mem.read bufLen = some (out, m) ∧
        t.mem.Serves bufLen out := by
  constructor
  · obtain ⟨t, ht, hacc⟩ := run_accounted hmem junk ops hfit hpos
    exact ⟨t, ht, hacc.balance, hacc.queued_eq hfit⟩
  · rintro before bufLen after rfl
    rw [List.flatMap_append] at hfit
    obtain ⟨t, ht, hacc⟩ := run_accounted hmem junk before
      (fun n hn => hfit n (headersOn_append _ _ n hn)) fun n hn => hpos n (List.mem_append_left _ hn)
    obtain ⟨out, m, hread, hserves, _⟩ := hacc.read (hpos bufLen (by simp))
    exact ⟨t, out, m, ht, hread, hserves⟩

/-- A frame of seven bytes read in three pieces, with another fed in between. -/
theorem reads_account_pieces :
    let ops := [.feed (zbSynBytes ++ [1, 0, 1, 7, 0, 9, 42]), .read 3,
      .feed (zbSynBytes ++ [1, 0, 0, 7, 0, 9]), .read 3, .read 3, .read 100]
    (∃ t, (Ran.start (List.replicate bufSize 0) 0).run ops = some t ∧
        t.Account (ops.flatMap Op.fed)) ∧
      ∀ before bufLen after, ops = before ++ Op.read bufLen :: after →
        ∃ t out m, (Ran.start (List.replicate bufSize 0) 0).run before = some t ∧
          t.mem.read bufLen = some (out, m) ∧ t.mem.Serves bufLen out :=
  reads_account List.length_replicate 0 _ (by decide) (by simp)

end ZBStream

end Monsys
