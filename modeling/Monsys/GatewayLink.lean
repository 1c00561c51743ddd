/-
  The link between gateway and wireless module, from end to end: encoders, the serial line, the
  stream, decoders.

  Three pieces written apart have to agree.  The encoder puts sync bytes and a length field in
  front; the stream trusts the length field; the decoder trusts the frame.  The encoders' side is
  `ZigBeeLayout.lean`, the stream's `SerialLine.lean`.

  1. **Reading a queue** — `readEach_queue`: with buffers of 4096 bytes a read gives a frame.
  2. **From end to end** — `link_round_trip`.
-/
import Mathlib.Data.List.Forall2
import Monsys.SerialLine
import Monsys.ZigBeeLayout

namespace Monsys

open Wire

namespace ZBStream

/-! ## Reading a queue -/

/-- One `read` for each buffer size: what they give out. -/
def readEach (s : ZBStream) : List Int → Option (List (List UInt8) × ZBStream)
  | [] => some ([], s)
  | n :: ns => (s.read n).bind fun (out, s') =>
    (readEach s' ns).map fun (outs, t) => (out :: outs, t)

/-- A read into a buffer that a frame fits takes the frame off the queue. -/
theorem read_whole {s : ZBStream} {g : List UInt8} {rest : List (List UInt8)}
    (hq : s.receivedDataList = g :: rest) (hg : g ≠ []) {n : Int} (hn : g.length ≤ n) :
    s.read n = some (g, { s with receivedDataList := rest }) := by
  simp only [read, hq, if_neg hg]
  rw [if_neg (by omega)]

/-- **Reading a queue.**  With as many buffers as frames, each large enough, the frames come out one
    by one. -/
theorem readEach_queue (s : ZBStream) (ns : List Int) (hg : ∀ g ∈ s.receivedDataList, g ≠ [])
    (hlen : ns.length = s.receivedDataList.length)
    (hn : ∀ n ∈ ns, ∀ g ∈ s.receivedDataList, (g.length : Int) ≤ n) :
    s.readEach ns = some (s.receivedDataList, { s with receivedDataList := [] }) := by
  induction ns generalizing s with
  | nil =>
    have hq := List.length_eq_zero_iff.mp hlen.symm
    rw [readEach, hq, ← hq]
  | cons n ns ih =>
    obtain ⟨g, rest, hq⟩ : ∃ g rest, s.receivedDataList = g :: rest :=
      List.exists_cons_of_length_eq_add_one hlen.symm
    rw [hq] at hg hlen hn
    have hhead := hn n List.mem_cons_self g List.mem_cons_self
    rw [readEach, read_whole hq (hg g List.mem_cons_self) hhead, Option.bind_some, hq]
    show Option.map _ (readEach { s with receivedDataList := rest } ns) = _
    rw [ih { s with receivedDataList := rest } (fun c hc => hg c (List.mem_cons_of_mem g hc))
      (Nat.succ.inj hlen)
      (fun k hk c hc => hn k (List.mem_cons_of_mem n hk) c (List.mem_cons_of_mem g hc))]
    rfl

end ZBStream

/-! ## From end to end -/

/-- A message of the seven classes that round-trip over the link, and a buffer that is large
    enough for it. -/
structure LinkMsg where
  msg : ZbMsg
  bufLen : Nat
  codable : msg.Codable
  not_getRsp : ∀ g, msg ≠ .getRsp g
  room : 14 + msg.body.length ≤ bufLen
  bufLen_lt : bufLen < 2 ^ 32

namespace LinkMsg

/-- The bytes the encoder writes. -/
def written (m : LinkMsg) : List UInt8 := (m.msg.encode m.bufLen).2.out

/-- The message as a frame on the line. -/
def serialFrame (m : LinkMsg) : ZBStream.SerialFrame where
  ver := m.msg.header.ver
  cmd := m.msg.header.cmd
  addr := m.msg.header.addr
  body := m.msg.body
  body_le := Nat.le_trans (ZbMsg.body_length_le m.codable) (by decide)

theorem serialFrame_bytes (m : LinkMsg) :
    m.serialFrame.bytes = m.msg.sized.header.bytes ++ m.msg.body := by
  rw [m.msg.header_sized]
  rfl

theorem written_eq (m : LinkMsg) : m.written = zbSynBytes ++ m.serialFrame.bytes := by
  rw [written, ZbMsg.encode_out m.codable m.bufLen_lt m.room fun g hg => absurd hg (m.not_getRsp g),
    serialFrame_bytes, ZbMsg.frame, List.append_assoc]
  rfl

/-- The frame decodes in a fresh object of the message's class, to its last byte, and gives the
    message with its `len_` set. -/
def ComesFrom (m : LinkMsg) (frame : List UInt8) : Prop :=
  ∀ j, (m.msg.fresh j).decode frame frame.length = .ok (frame.length, m.msg.sized)

theorem comesFrom_serialFrame (m : LinkMsg) : m.ComesFrom m.serialFrame.bytes := by
  intro j
  have hlt : m.serialFrame.bytes.length < 2 ^ 32 := by
    have hle := m.serialFrame.body_le
    rw [m.serialFrame.bytes_length]
    omega
  have hread := ZbMsg.decode_reads m.codable j [] m.serialFrame.bytes.length hlt
  rw [List.append_nil, ← m.serialFrame_bytes] at hread
  exact hread (Nat.le_refl _)

end LinkMsg

/-- **From end to end.**  Messages are encoded, put on the line one behind the other, received in
    any pieces and read: there is one frame for each message, and it decodes to it. -/
theorem link_round_trip {mem : List UInt8} (hmem : mem.length = ZBStream.bufSize) (junk : Int)
    (msgs : List LinkMsg) (chunks : List (List UInt8)) (hne : ∀ c ∈ chunks, c ≠ [])
    (hbytes : chunks.flatten = msgs.flatMap LinkMsg.written)
    (sizes : List Int) (hsizes : sizes.length = msgs.length) (hbig : ∀ n ∈ sizes, 4096 ≤ n) :
    ∃ f frames t, (ZBStream.new mem junk).feedAll chunks = some f ∧
      f.stream.readEach sizes = some (frames, t) ∧ t.receivedDataList = [] ∧
      List.Forall₂ LinkMsg.ComesFrom msgs frames := by
  obtain ⟨k, ls, hrun⟩ := ZBStream.run_onLine (msgs.map fun m => ([], m.serialFrame)) []
    (List.forall_mem_map.mpr fun _ _ => ZBStream.noise_nil) (by decide)
  have hline : (msgs.map fun m => (([] : List UInt8), m.serialFrame)).flatMap ZBStream.onLine ++
      [] = chunks.flatten := by
    rw [hbytes, List.append_nil, List.flatMap_map]
    exact List.flatMap_congr fun m _ => m.written_eq.symm
  rw [hline, List.map_map] at hrun
  obtain ⟨f, hf, _, hfr⟩ := ZBStream.feedAll_of_run hmem junk hne hrun
  have hqueue : f.stream.receivedDataList = msgs.map fun m => m.serialFrame.bytes :=
    congrArg Framing.Framer.frames hfr
  have hread := f.stream.readEach_queue sizes ?_ ?_ ?_
  · refine ⟨f, _, _, hf, hread, rfl, ?_⟩
    rw [hqueue, List.forall₂_map_right_iff, List.forall₂_same]
    exact fun m _ => m.comesFrom_serialFrame
  · rw [hqueue]
    refine List.forall_mem_map.mpr fun m _ h => ?_
    have hlen := congrArg List.length h
    rw [m.serialFrame.bytes_length, List.length_nil] at hlen
    omega
  · rw [hqueue, List.length_map, hsizes]
  · intro n hn
    rw [hqueue]
    refine List.forall_mem_map.mpr fun m _ => ?_
    have hle := m.serialFrame.body_le
    have hbn := hbig n hn
    rw [m.serialFrame.bytes_length]
    omega

/-- A request for two items, in a buffer of 100 bytes. -/
def getTwoItems : LinkMsg :=
  ⟨.getReq ⟨⟨1, 0, zIdZbGetReq, 9⟩, [3, 4]⟩, 100, by show 2 ≤ 255; decide, by simp, by decide,
    by decide⟩

/-- Two messages in two pieces. -/
theorem link_two_messages :
    ∃ f frames t, (ZBStream.new (List.replicate ZBStream.bufSize 0) 0).feedAll
        [zbSynBytes ++ [1, 0],
          [3, 2, 0, 9, 2, 3, 4] ++ zbSynBytes ++ [1, 0, 3, 2, 0, 9, 2, 3, 4]] = some f ∧
      f.stream.readEach [4096, 5000] = some (frames, t) ∧ t.receivedDataList = [] ∧
      List.Forall₂ LinkMsg.ComesFrom [getTwoItems, getTwoItems] frames :=
  link_round_trip List.length_replicate 0 [getTwoItems, getTwoItems]
    [zbSynBytes ++ [1, 0], [3, 2, 0, 9, 2, 3, 4] ++ zbSynBytes ++ [1, 0, 3, 2, 0, 9, 2, 3, 4]]
    (by decide) (by decide) [4096, 5000] (by decide) (by decide)

end Monsys
