/-
  `ZBStream` is a sync-word receiver.

  The stream of `ZBStream.lean` eats as much as it can in each of three handlers; the framer of
  `Lib/Framing.lean` eats one byte.  Here the first is shown to be the second, whatever the pieces:

  1. **The two formats** — `streamFormat` is what the code cuts: 16-bit arithmetic on the declared
     length and a store of 4096 bytes.  `wireFormat` is what the sender puts on the line: a frame
     is six bytes of header and as many more as it declares.
  2. **The view as a framer** — `framer` forgets the matcher, the cursor and `expect_data_len_`,
     which `Wf` determines.
  3. **Refinement** — `handle_refines` for one handler, `feed_refines` for a call to `feed`,
     `feedAll_run` for a row of calls: the run of the framer over the bytes is the run of the code.
  4. **Consequences** — what `feed` returns, what it logs, and that the cuts do not matter.
-/
import Monsys.Lib.Framing
import Monsys.ZBStream

namespace Monsys

open Framing

/-! ## The two formats -/

/-- The two length bytes of a header. -/
def declaredLen : List UInt8 → Nat
  | _ :: hi :: lo :: _ => (Wire.ofBe16 hi lo).toNat
  | _ => 0

/-- What the code cuts: the sum of the length and `HEAD_LEN` wraps, and the store is `buf_`. -/
def streamFormat : Format UInt8 where
  sync := 0x5A
  syncLen := 8
  headLen := 3
  lenOf := declaredLen
  restLen := fun n => ((n + 6) % 2 ^ 16 : Nat) - 3
  cap := some ZBStream.bufSize
  syncLen_pos := by decide
  headLen_pos := by decide
  head_fits := fun _ h => Option.some.inj h ▸ by decide

/-- What the sender means: a frame is as long as it says. -/
def wireFormat : Format UInt8 where
  sync := 0x5A
  syncLen := 8
  headLen := 3
  lenOf := declaredLen
  restLen := fun n => n + 3
  cap := none
  syncLen_pos := by decide
  headLen_pos := by decide
  head_fits := fun _ h => absurd h (by simp)

/-- The two differ in the store and in the count. -/
theorem alike_wire : Format.Alike streamFormat.unbounded wireFormat := ⟨rfl, rfl, rfl, rfl, rfl⟩

theorem wireFormat_restLen_pos (n : Nat) : 0 < wireFormat.restLen n := by
  show (0 : Int) < n + 3
  omega

theorem declaredLen_lt (l : List UInt8) : declaredLen l < 2 ^ 16 := by
  rcases l with _ | ⟨v, _ | ⟨hi, _ | ⟨lo, l⟩⟩⟩
  · exact Nat.two_pow_pos 16
  · exact Nat.two_pow_pos 16
  · exact Nat.two_pow_pos 16
  · exact (Wire.ofBe16 hi lo).toNat_lt

/-- The code counts right behind a declared length exactly if the sum does not wrap. -/
theorem restLen_eq_iff {n : Nat} (hn : n < 2 ^ 16) :
    streamFormat.restLen n = wireFormat.restLen n ↔ n ≤ 65529 := by
  show ((n + 6) % 2 ^ 16 : Nat) - 3 = (n : Int) + 3 ↔ _
  omega

/-! ## The view as a framer -/

/-- The lengths decoded in a log. -/
def decodedLens (log : List Event) : List Nat :=
  log.filterMap fun
    | .decoded msgLen _ => some msgLen.toNat
    | _ => none

@[simp] theorem decodedLens_append (l r : List Event) :
    decodedLens (l ++ r) = decodedLens l ++ decodedLens r := List.filterMap_append

/-- A matcher that has finished opens the header. -/
def SynBytesMatcher.phase (m : SynBytesMatcher) : Phase UInt8 :=
  if m.idx < 8 then .hunt m.idx else .head []

namespace ZBStream

/-- The stream as a framer that was told the lengths `lens`. -/
def framer (s : ZBStream) (lens : List Nat) : Framer UInt8 where
  phase := match s.state with
    | .init => .hunt s.synMatcher.idx
    | .waitingForHead => .head s.buf.held
    | .waitingForData => .body s.buf.held s.expectDataLen
  frames := s.receivedDataList
  lens := lens

/-- What holds in each state between two iterations. -/
def StateOk (s : ZBStream) : Prop :=
  match s.state with
  | .init => s.synMatcher.idx < 8 ∧ s.buf.pos = 0
  | .waitingForHead =>
    s.synMatcher.idx = 8 ∧ s.buf.pos + s.expectDataLen = 3 ∧ 0 < s.expectDataLen
  | .waitingForData => s.synMatcher.idx = 8 ∧ 3 ≤ s.buf.pos ∧
    (0 < s.expectDataLen ∨
      s.buf.pos = 3 ∧ s.expectDataLen = streamFormat.restLen (declaredLen s.buf.held))

/-- The invariant of a stream. -/
structure Wf (s : ZBStream) : Prop where
  limit_eq : s.buf.limit = bufSize
  capability_eq : s.buf.capability = bufSize
  synBytes_eq : s.synMatcher.synBytes = zbSynBytes
  stateOk : s.StateOk

/-- If the stream waits for the rest of a frame, something is missing of it. -/
def Waits (s : ZBStream) : Prop := s.state = .waitingForData → 0 < s.expectDataLen

theorem wf_new {mem : List UInt8} (h : mem.length = bufSize) (junk : Int) : Wf (new mem junk) where
  limit_eq := h
  capability_eq := h
  synBytes_eq := rfl
  stateOk := ⟨by show 0 < 8; omega, rfl⟩

theorem framer_new (mem : List UInt8) (junk : Int) (lens : List Nat) :
    (new mem junk).framer lens = ⟨.hunt 0, [], lens⟩ := rfl

/-- The framer determines what the stream shows. -/
theorem view_of_framer {s t : ZBStream} (hs : Wf s) (ht : Wf t) {ls ls' : List Nat}
    (h : s.framer ls = t.framer ls') : s.view = t.view := by
  have hfr : s.receivedDataList = t.receivedDataList := congrArg Framer.frames h
  have hph := congrArg Framer.phase h
  have hs' := hs.stateOk
  have ht' := ht.stateOk
  have hlens := s.buf.held_length
  have hlent := t.buf.held_length
  cases hss : s.state <;> cases hts : t.state <;>
    simp only [framer, hss, hts, StateOk, reduceCtorEq, Phase.hunt.injEq, Phase.head.injEq,
      Phase.body.injEq] at hph hs' ht'
  · have hheld : s.buf.held = t.buf.held := by
      rw [List.length_eq_zero_iff.mp (hlens.trans hs'.2),
        List.length_eq_zero_iff.mp (hlent.trans ht'.2)]
    simp only [view, hfr, hss, hts, hph, hheld, if_pos]
  · have hexp : s.expectDataLen = t.expectDataLen := by
      rw [hph] at hlens
      omega
    simp only [view, hfr, hss, hts, hs'.1, ht'.1, hph, hexp]
  · simp only [view, hfr, hss, hts, hs'.1, ht'.1, hph.1, hph.2]

/-! ## One handler -/

/-- The hunt of the code is the hunt of the framer. -/
theorem syncLoop_run (fs : List (List UInt8)) (ls : List Nat) :
    ∀ (buf : List UInt8) (m : SynBytesMatcher) (i : Nat), m.synBytes = zbSynBytes →
    ∃ m' k mis, syncLoop m i buf = (m', i + k, mis) ∧ k ≤ buf.length ∧
      m'.synBytes = zbSynBytes ∧ (mis = true → m'.idx = 0) ∧
      (mis = false → m'.idx < 8 → k = buf.length) ∧
      streamFormat.run ⟨m.phase, fs, ls⟩ buf =
        streamFormat.run ⟨m'.phase, fs, ls⟩ (buf.drop k) := by
  intro buf
  induction buf with
  | nil => intro m i hm; exact ⟨m, 0, false, rfl, Nat.le_refl _, hm, by simp, fun _ _ => rfl, rfl⟩
  | cons c cs ih =>
    intro m i hm
    have hlen : m.synBytes.length = 8 := by rw [hm]; rfl
    by_cases hidx : m.idx < m.synBytes.length
    · have hget : m.synBytes[m.idx] = 0x5A := by simp only [hm, zbSynBytes, List.getElem_replicate]
      have hph : m.phase = .hunt m.idx := by
        rw [SynBytesMatcher.phase, if_pos (by omega)]
      by_cases hc : c ≠ m.synBytes[m.idx]
      · -- the loop returns behind this byte
        have hfeed : m.feed c = (-1, m) := by
          rw [SynBytesMatcher.feed, dif_pos hidx, if_pos hc]
        have hstep : streamFormat.step ⟨m.phase, fs, ls⟩ c = some ⟨.hunt 0, fs, ls⟩ := by
          rw [hget] at hc
          rw [hph]
          show some (⟨streamFormat.hunted m.idx c, fs, ls⟩ : Framer UInt8) = _
          rw [streamFormat.hunted_ne hc]
        refine ⟨m.reset, 1, true, ?_, by rw [List.length_cons]; omega, hm, fun _ => rfl,
          by simp, ?_⟩
        · rw [syncLoop, hfeed]
          rfl
        · rw [Format.run_cons, hstep]
          rfl
      · -- one more 'Z': the loop goes on with the next byte
        have hfeed : m.feed c = (1, ⟨m.synBytes, m.idx + 1, hidx⟩) := by
          rw [SynBytesMatcher.feed, dif_pos hidx, if_neg hc]
        have hstep : streamFormat.step ⟨m.phase, fs, ls⟩ c =
            some ⟨SynBytesMatcher.phase ⟨m.synBytes, m.idx + 1, hidx⟩, fs, ls⟩ := by
          rw [hget, not_not] at hc
          subst hc
          rw [hph]
          exact congrArg (fun p => some (⟨p, fs, ls⟩ : Framer UInt8))
            (streamFormat.hunted_sync m.idx)
        obtain ⟨m', k, mis, heq, hk, hm', hmis, hend, hrun⟩ :=
          ih ⟨m.synBytes, m.idx + 1, hidx⟩ (i + 1) hm
        refine ⟨m', k + 1, mis, ?_, by rw [List.length_cons]; omega, hm', hmis,
          fun h1 h2 => by rw [hend h1 h2, List.length_cons], ?_⟩
        · rw [syncLoop, hfeed]
          show syncLoop _ (i + 1) cs = _
          rw [heq, Nat.add_assoc, Nat.add_comm 1 k]
        · rw [Format.run_cons, hstep, Option.bind_some, hrun, List.drop_succ_cons]
    · -- the matcher had finished: the loop breaks before this byte
      have hfeed : m.feed c = (0, m) := by
        rw [SynBytesMatcher.feed, dif_neg hidx]
      refine ⟨m, 0, false, ?_, Nat.zero_le _, hm, by simp, fun _ h => ?_, rfl⟩
      · rw [syncLoop, hfeed]
        rfl
      · exact absurd h (by omega)

/-- What a log entry promises: no negative count, and the 16-bit sum behind a header. -/
def EventOk : Event → Prop
  | .waiting expect => 0 ≤ expect
  | .put len => 0 ≤ len
  | .decoded msgLen expect => expect = streamFormat.restLen msgLen.toNat

/-- One iteration on `buf` from `s`, as seen by the framer. -/
structure Handles (s : ZBStream) (buf : List UInt8) (ls : List Nat) (r : Handled) : Prop where
  rv_nonneg : 0 ≤ r.rv
  rv_le : r.rv ≤ buf.length
  wf : Wf r.stream
  log_ok : ∀ e ∈ r.log, EventOk e
  run_eq : streamFormat.run (s.framer ls) buf =
    streamFormat.run (r.stream.framer (ls ++ decodedLens r.log)) (buf.drop r.rv.toNat)

theorem doInit_refines {s : ZBStream} (hw : Wf s) (hs : s.state = .init) (buf : List UInt8)
    (ls : List Nat) : ∃ r, s.doInit buf = some r ∧ Handles s buf ls r := by
  have hok := hw.stateOk
  simp only [StateOk, hs] at hok
  obtain ⟨m, k, mis, heq, hk, hm, hmis, hend, hrun⟩ :=
    syncLoop_run s.receivedDataList ls buf s.synMatcher 0 hw.synBytes_eq
  have hfr : s.framer ls = ⟨s.synMatcher.phase, s.receivedDataList, ls⟩ := by
    rw [SynBytesMatcher.phase, if_pos hok.1]
    simp only [framer, hs]
  have hheld : s.buf.held = [] := List.length_eq_zero_iff.mp (s.buf.held_length.trans hok.2)
  have hlen : m.synBytes.length = 8 := by rw [hm]; rfl
  have hle := m.idx_le
  simp only [doInit, heq, Nat.zero_add]
  by_cases hmi : mis = true
  · -- a byte that does not match: the matcher starts again
    rw [if_pos hmi]
    refine ⟨_, rfl, by simp, by simpa using hk, ⟨hw.limit_eq, hw.capability_eq, hm, ?_⟩, by simp, ?_⟩
    · simp only [StateOk, hs, hmis hmi]
      exact ⟨by omega, hok.2⟩
    · rw [hfr, hrun, SynBytesMatcher.phase, if_pos (by rw [hmis hmi]; omega)]
      simp only [framer, hs, Int.toNat_natCast, decodedLens, List.filterMap_nil, List.append_nil]
  · rw [if_neg hmi]
    by_cases hfin : m.idx < 8
    · -- the bytes have run out
      have hnf : ¬ m.finished = true := by
        simp only [SynBytesMatcher.finished, decide_eq_true_eq]; omega
      rw [if_neg hnf, if_pos (hend (by simpa using hmi) hfin)]
      refine ⟨_, rfl, by simp, by simpa using hk, ⟨hw.limit_eq, hw.capability_eq, hm, ?_⟩, by simp, ?_⟩
      · simp only [StateOk, hs]
        exact ⟨hfin, hok.2⟩
      · rw [hfr, hrun, SynBytesMatcher.phase, if_pos hfin]
        simp only [framer, hs, Int.toNat_natCast, decodedLens, List.filterMap_nil, List.append_nil]
    · -- the eighth 'Z'
      have hf : m.finished = true := by
        simp only [SynBytesMatcher.finished, decide_eq_true_eq]; omega
      rw [if_pos hf]
      refine ⟨_, rfl, by simp, by simpa using hk, ⟨hw.limit_eq, hw.capability_eq, hm, ?_⟩, by simp, ?_⟩
      · refine ⟨by show m.idx = 8; omega, ?_, by show (0 : Int) < minHeadLen; decide⟩
        show (s.buf.pos : Int) + minHeadLen = 3
        rw [hok.2]
        rfl
      · rw [hfr, hrun, SynBytesMatcher.phase, if_neg hfin]
        simp only [framer, hheld, Int.toNat_natCast, decodedLens, List.filterMap_nil, List.append_nil]

/-- Three bytes at the front of the buffer decode to the length they declare. -/
theorem decode_header {b : ZDataBuffer UInt8} (hpos : b.pos = 3) (hlim : b.limit = bufSize) :
    ∃ v hi lo, b.held = [v, hi, lo] ∧ zDecodeByte b.buf b.remaining = .ok (1, v) ∧
      zDecodeInteger16 (b.buf.drop 1) (b.remaining - 1) = .ok (2, Wire.ofBe16 hi lo) := by
  have hheld : b.held.length = 3 := b.held_length.trans hpos
  obtain ⟨v, hi, lo, hthree⟩ := List.length_eq_three.mp hheld
  have hbuf : b.buf = [v, hi, lo] ++ b.buf.drop b.pos := by
    rw [← hthree]
    exact (List.take_append_drop b.pos b.buf).symm
  have hrem : b.remaining = 4093 := by
    rw [ZDataBuffer.remaining, hpos, hlim]
    rfl
  refine ⟨v, hi, lo, hthree, ?_, ?_⟩
  · rw [hbuf, hrem]
    rfl
  · rw [hbuf, hrem]
    rfl

theorem doWaitingForHead_refines {s : ZBStream} (hw : Wf s) (hs : s.state = .waitingForHead)
    (buf : List UInt8) (ls : List Nat) :
    ∃ r, s.doWaitingForHead buf = some r ∧ Handles s buf ls r := by
  have hok := hw.stateOk
  simp only [StateOk, hs] at hok
  obtain ⟨hidx, hsum, hpos⟩ := hok
  obtain ⟨n, hn⟩ := Int.eq_ofNat_of_zero_le (Int.le_of_lt hpos)
  have hfr : s.framer ls = ⟨.head s.buf.held, s.receivedDataList, ls⟩ := by
    simp only [framer, hs]
  have hheld := s.buf.held_length
  by_cases hlt : (buf.length : Int) < s.expectDataLen
  · -- part of the header
    obtain ⟨_, b, hput, hb, hblim, hbcap⟩ := s.buf.put_held (Nat.le_refl buf.length)
    have hb' : b.held = s.buf.held ++ buf := by
      rw [hb, List.take_length, hw.limit_eq]
      apply List.take_of_length_le
      rw [List.length_append, hheld, bufSize]
      omega
    have hbpos : b.pos = s.buf.pos + buf.length := by
      rw [← b.held_length, hb', List.length_append, hheld]
    rw [doWaitingForHead, if_pos hlt, hput]
    refine ⟨_, rfl, by simp, Int.le_refl _, ⟨hblim.trans hw.limit_eq, hbcap.trans hw.capability_eq,
      hw.synBytes_eq, ?_⟩, ?_, ?_⟩
    · simp only [StateOk, hs]
      refine ⟨hidx, ?_, ?_⟩ <;> omega
    · simp only [List.forall_mem_cons, EventOk]
      refine ⟨?_, ?_, by simp⟩ <;> omega
    · rw [hfr, streamFormat.run_head_lt _ _ _ _ (by rw [hheld]; show _ < 3; omega)]
      simp only [framer, hs, hb', decodedLens, Int.toNat_natCast, List.drop_length, List.append_nil,
        List.filterMap_cons, List.filterMap_nil, Format.run_nil]
  · -- the header is complete
    have hnle : n ≤ buf.length := by omega
    obtain ⟨_, b, hput, hb, hblim, hbcap⟩ := s.buf.put_held hnle
    have hb' : b.held = s.buf.held ++ buf.take n := by
      rw [hb, hw.limit_eq]
      apply List.take_of_length_le
      rw [List.length_append, hheld, List.length_take, bufSize]
      omega
    have hbpos : b.pos = 3 := by
      rw [← b.held_length, hb', List.length_append, hheld, List.length_take]
      omega
    obtain ⟨v, hi, lo, hthree, hver, hmsg⟩ := decode_header hbpos (hblim.trans hw.limit_eq)
    have hrest : ((Wire.ofBe16 hi lo + headLen).toNat : Int) - minHeadLen =
        streamFormat.restLen (Wire.ofBe16 hi lo).toNat := by
      rw [UInt16.toNat_add]
      rfl
    have hdecl : declaredLen b.held = (Wire.ofBe16 hi lo).toNat := by rw [hthree]; rfl
    rw [doWaitingForHead, if_neg hlt, hn, hput]
    simp only [Option.bind_some, hver, hmsg]
    refine ⟨_, rfl, by simp, by show (n : Int) ≤ _; omega, ⟨hblim.trans hw.limit_eq,
      hbcap.trans hw.capability_eq, hw.synBytes_eq, ?_⟩, ?_, ?_⟩
    · refine ⟨hidx, Nat.le_of_eq hbpos.symm, Or.inr ⟨hbpos, ?_⟩⟩
      show _ = streamFormat.restLen (declaredLen b.held)
      rw [hdecl]
      exact hrest
    · simp only [List.forall_mem_cons, EventOk]
      exact ⟨by omega, by omega, hrest, by simp⟩
    · have hne : buf.take n ≠ [] := by
        intro h
        have := congrArg List.length h
        rw [List.length_take, List.length_nil] at this
        omega
      have hhead := streamFormat.run_head s.receivedDataList ls s.buf.held (buf.take n) hne
        (by rw [hheld, List.length_take]; show _ = 3; omega)
      conv_lhs => rw [← List.take_append_drop n buf]
      rw [hfr, streamFormat.run_append_of_eq_some hhead, ← hb']
      show streamFormat.run ⟨.body b.held (streamFormat.restLen (declaredLen b.held)), _,
        ls ++ [declaredLen b.held]⟩ _ = _
      rw [hdecl]
      simp only [framer, hrest, decodedLens, Int.toNat_natCast, List.filterMap_cons,
        List.filterMap_nil]

theorem doWaitingForData_refines {s : ZBStream} (hw : Wf s) (hs : s.state = .waitingForData)
    {buf : List UInt8} (hbuf : buf ≠ [] ∨ 0 < s.expectDataLen) (ls : List Nat) :
    (s.doWaitingForData buf = none ∧ streamFormat.run (s.framer ls) buf = none) ∨
      ∃ r, s.doWaitingForData buf = some r ∧ Handles s buf ls r := by
  have hok := hw.stateOk
  simp only [StateOk, hs] at hok
  obtain ⟨hidx, hpos, hexp⟩ := hok
  have hfr : s.framer ls = ⟨.body s.buf.held s.expectDataLen, s.receivedDataList, ls⟩ := by
    simp only [framer, hs]
  have hheld := s.buf.held_length
  have hkept : clip streamFormat.cap s.buf.held = s.buf.held := clip_eq_self fun c hc => by
    obtain rfl := Option.some.inj hc
    rw [hheld, ← hw.limit_eq]
    exact s.buf.pos_le
  rcases Int.lt_or_le s.expectDataLen 0 with hneg | hge
  · -- the sum has wrapped: a copy of a negative length
    have hpos3 : s.buf.pos = 3 := by omega
    have hrem : s.buf.remaining ≠ 0 := by
      rw [ZDataBuffer.remaining, hpos3, hw.limit_eq]
      decide
    refine Or.inl ⟨?_, ?_⟩
    · rw [doWaitingForData, if_neg (by omega), s.buf.put_neg buf hneg hrem]
      rfl
    · rw [hfr]
      exact streamFormat.run_body_neg _ _ _ hneg (hbuf.resolve_right (by omega))
  · obtain ⟨n, hn⟩ := Int.eq_ofNat_of_zero_le hge
    refine Or.inr ?_
    by_cases hlt : (buf.length : Int) < s.expectDataLen
    · -- part of the rest
      obtain ⟨_, b, hput, hb, hblim, hbcap⟩ := s.buf.put_held (Nat.le_refl buf.length)
      have hb' : b.held = clip streamFormat.cap (s.buf.held ++ buf) := by
        rw [hb, List.take_length, hw.limit_eq]
        rfl
      have hbpos : s.buf.pos ≤ b.pos := by
        rw [← b.held_length, hb, List.length_take, List.length_append, hheld]
        exact Nat.le_min.mpr ⟨s.buf.pos_le, Nat.le_add_right _ _⟩
      rw [doWaitingForData, if_pos hlt, hput]
      refine ⟨_, rfl, by simp, Int.le_refl _, ⟨hblim.trans hw.limit_eq,
        hbcap.trans hw.capability_eq, hw.synBytes_eq, ?_⟩, ?_, ?_⟩
      · simp only [StateOk, hs]
        exact ⟨hidx, by omega, Or.inl (by omega)⟩
      · simp only [List.forall_mem_cons, EventOk]
        exact ⟨by omega, by omega, by simp⟩
      · rw [hfr, streamFormat.run_body_lt _ _ _ _ _ hkept hlt, ← hb']
        simp only [framer, hs, decodedLens, Int.toNat_natCast, List.drop_length, List.append_nil,
          List.filterMap_cons, List.filterMap_nil, Format.run_nil]
    · -- the frame is complete
      have hnle : n ≤ buf.length := by omega
      obtain ⟨_, b, hput, hb, hblim, hbcap⟩ := s.buf.put_held hnle
      obtain ⟨b', hget, hrem, hcap⟩ := b.get_flip
      have hb' : b.held = clip streamFormat.cap (s.buf.held ++ buf.take n) := by
        rw [hb, hw.limit_eq]
        rfl
      have hcap' : b'.capability = bufSize := hcap.trans (hbcap.trans hw.capability_eq)
      rw [doWaitingForData, if_neg hlt, hn, hput]
      simp only [Option.bind_some, hget, if_pos hrem]
      refine ⟨_, rfl, by simp, by show (n : Int) ≤ _; omega, ⟨hcap', hcap', hw.synBytes_eq, ?_⟩,
        ?_, ?_⟩
      · exact ⟨Nat.zero_lt_succ 7, rfl⟩
      · simp only [List.forall_mem_cons, EventOk]
        exact ⟨by omega, by omega, by simp⟩
      · have hbody : streamFormat.run ⟨.body s.buf.held s.expectDataLen, s.receivedDataList, ls⟩
            buf = streamFormat.run ⟨.hunt 0, s.receivedDataList ++ [b.held], ls⟩ (buf.drop n) := by
          rw [hn]
          rcases Nat.eq_zero_or_pos n with rfl | hnpos
          · -- nothing was missing: no byte is eaten, and the next is hunted
            rw [List.take_zero, List.append_nil, hkept] at hb'
            rw [Int.natCast_zero, streamFormat.run_body_zero _ _ _ (hbuf.resolve_right (by omega)),
              hb', List.drop_zero]
          · have hrun := streamFormat.run_body s.receivedDataList ls s.buf.held (buf.take n) n hkept
              (by omega) (by rw [List.length_take]; omega)
            conv_lhs => rw [← List.take_append_drop n buf]
            rw [streamFormat.run_append_of_eq_some hrun, ← hb']
        rw [hfr, hbody]
        simp only [framer, SynBytesMatcher.reset, decodedLens, Int.toNat_natCast,
          List.filterMap_cons, List.filterMap_nil, List.append_nil]

/-- **One iteration of `feed` refines the framer.**  Either both go wrong, or the bytes the code
    ate took the framer to the view of the code's new state. -/
theorem handle_refines {s : ZBStream} (hw : Wf s) {buf : List UInt8}
    (hbuf : buf ≠ [] ∨ s.Waits) (ls : List Nat) :
    (s.handle buf = none ∧ streamFormat.run (s.framer ls) buf = none) ∨
      ∃ r, s.handle buf = some r ∧ Handles s buf ls r := by
  cases hs : s.state with
  | init =>
    simp only [handle, hs]
    exact Or.inr (doInit_refines hw hs buf ls)
  | waitingForHead =>
    simp only [handle, hs]
    exact Or.inr (doWaitingForHead_refines hw hs buf ls)
  | waitingForData =>
    simp only [handle, hs]
    exact doWaitingForData_refines hw hs (hbuf.imp_right fun h => h hs) ls

/-! ## Calls to `feed` -/

/-- The loop of `feed` by induction on its own recursion: every iteration hands the rest of the
    bytes on with the framer's run unchanged. -/
theorem feedLoop_refines (s : ZBStream) (buf : List UInt8) (hw : Wf s)
    (hbuf : buf ≠ [] ∨ s.Waits) (ls : List Nat) :
    (feedLoop s buf = none ∧ streamFormat.run (s.framer ls) buf = none) ∨
      ∃ s' log, feedLoop s buf = some (s', [], log) ∧ Wf s' ∧ (∀ e ∈ log, EventOk e) ∧
        streamFormat.run (s.framer ls) buf = some (s'.framer (ls ++ decodedLens log)) := by
  induction s, buf using feedLoop.induct generalizing ls with
  | case1 s buf hh =>
    -- the handler went wrong
    rcases handle_refines hw hbuf ls with ⟨_, hrun⟩ | ⟨r, hr, _⟩
    · exact Or.inl ⟨by rw [feedLoop, hh], hrun⟩
    · rw [hh] at hr; cases hr
  | case2 s buf r hh hneg =>
    -- no handler returns a negative value
    rcases handle_refines hw hbuf ls with ⟨hnone, _⟩ | ⟨r', hr', hok⟩
    · rw [hh] at hnone; cases hnone
    · obtain rfl := Option.some.inj (hh.symm.trans hr')
      exact absurd hok.rv_nonneg (Int.not_le.mpr hneg)
  | case3 s buf r hh hneg hrest =>
    -- all bytes are eaten
    rcases handle_refines hw hbuf ls with ⟨hnone, _⟩ | ⟨r', hr', hok⟩
    · rw [hh] at hnone; cases hnone
    · obtain rfl := Option.some.inj (hh.symm.trans hr')
      refine Or.inr ⟨r.stream, r.log, ?_, hok.wf, hok.log_ok, ?_⟩
      · rw [feedLoop, hh]
        simp only [if_neg hneg, dif_pos hrest]
      · rw [hok.run_eq, hrest]
        rfl
  | case4 s buf r hh hneg hrest ih =>
    -- another iteration on what is left
    rcases handle_refines hw hbuf ls with ⟨hnone, _⟩ | ⟨r', hr', hok⟩
    · rw [hh] at hnone; cases hnone
    · obtain rfl := Option.some.inj (hh.symm.trans hr')
      rcases ih hok.wf (Or.inl hrest) (ls ++ decodedLens r.log) with ⟨hnone, hrun⟩ |
        ⟨s', log, hloop, hw', hlog, hrun⟩
      · refine Or.inl ⟨?_, hok.run_eq.trans hrun⟩
        rw [feedLoop, hh]
        simp only [if_neg hneg, dif_neg hrest, hnone, Option.map_none]
      · refine Or.inr ⟨s', r.log ++ log, ?_, hw', ?_, ?_⟩
        · rw [feedLoop, hh]
          simp only [if_neg hneg, dif_neg hrest, hloop, Option.map_some]
        · exact List.forall_mem_append.mpr ⟨hok.log_ok, hlog⟩
        · rw [hok.run_eq, hrun, decodedLens_append, List.append_assoc]

/-- A call to `feed` that went well, as seen by the framer. -/
structure Feeds (s : ZBStream) (buf : List UInt8) (ls : List Nat) (r : Handled) : Prop where
  rv_eq : r.rv = buf.length
  wf : Wf r.stream
  log_ok : ∀ e ∈ r.log, EventOk e
  run_eq : streamFormat.run (s.framer ls) buf = some (r.stream.framer (ls ++ decodedLens r.log))

/-- **`feed` refines the framer**, and eats all it is given. -/
theorem feed_refines {s : ZBStream} (hw : Wf s) {buf : List UInt8}
    (hbuf : buf ≠ [] ∨ s.Waits) (ls : List Nat) :
    (s.feed buf = none ∧ streamFormat.run (s.framer ls) buf = none) ∨
      ∃ r, s.feed buf = some r ∧ Feeds s buf ls r := by
  rcases feedLoop_refines s buf hw hbuf ls with ⟨hnone, hrun⟩ | ⟨s', log, hloop, hw', hlog, hrun⟩
  · exact Or.inl ⟨by rw [feed, hnone]; rfl, hrun⟩
  · refine Or.inr ⟨⟨buf.length, s', log⟩, ?_, rfl, hw', hlog, hrun⟩
    rw [feed, hloop]
    simp

/-- Every reachable stream satisfies the invariant. -/
theorem Reachable.wf {s : ZBStream} (h : Reachable s) : Wf s := by
  induction h with
  | new mem junk hmem => exact wf_new hmem junk
  | feed _ hbuf hfeed ih =>
    rcases feed_refines ih (Or.inl hbuf) [] with ⟨hnone, _⟩ | ⟨r, hr, hok⟩
    · rw [hfeed] at hnone; cases hnone
    · obtain rfl := Option.some.inj (hfeed.symm.trans hr)
      exact hok.wf
  | read _ hread ih =>
    obtain ⟨q, rfl⟩ := read_queue hread
    exact ⟨ih.limit_eq, ih.capability_eq, ih.synBytes_eq, ih.stateOk⟩

/-- A row of calls to `feed` that went well, as seen by the framer. -/
structure FedAll (s : ZBStream) (chunks : List (List UInt8)) (ls : List Nat) (f : Fed) : Prop where
  rvs_eq : f.rvs = chunks.map fun c => (c.length : Int)
  wf : Wf f.stream
  log_ok : ∀ e ∈ f.log, EventOk e
  run_eq : streamFormat.run (s.framer ls) chunks.flatten =
    some (f.stream.framer (ls ++ decodedLens f.log))

/-- **A row of calls refines the framer** over the bytes of all its chunks. -/
theorem feedAll_refines {s : ZBStream} (hw : Wf s) {chunks : List (List UInt8)}
    (hne : ∀ c ∈ chunks, c ≠ []) (ls : List Nat) :
    (s.feedAll chunks = none ∧ streamFormat.run (s.framer ls) chunks.flatten = none) ∨
      ∃ f, s.feedAll chunks = some f ∧ FedAll s chunks ls f := by
  induction chunks generalizing s ls with
  | nil => exact Or.inr ⟨_, rfl, rfl, hw, by simp, by simp [decodedLens]⟩
  | cons c cs ih =>
    have hc := hne c List.mem_cons_self
    have hcs : ∀ c ∈ cs, c ≠ [] := fun d hd => hne d (List.mem_cons_of_mem c hd)
    rw [List.flatten_cons, Format.run_append]
    rcases feed_refines hw (Or.inl hc) ls with ⟨hnone, hrun⟩ | ⟨r, hr, hok⟩
    · exact Or.inl ⟨by rw [feedAll, hnone]; rfl, by rw [hrun]; rfl⟩
    · rcases ih hok.wf hcs (ls ++ decodedLens r.log) with ⟨hnone, hrun⟩ | ⟨f, hf, hfok⟩
      · refine Or.inl ⟨?_, ?_⟩
        · rw [feedAll, hr, Option.bind_some, hnone]
          rfl
        · rw [hok.run_eq]
          exact hrun
      · refine Or.inr ⟨⟨r.rv :: f.rvs, f.stream, r.log ++ f.log⟩, ?_, ?_, hfok.wf, ?_, ?_⟩
        · rw [feedAll, hr, Option.bind_some, hf]
          rfl
        · rw [List.map_cons, hok.rv_eq, hfok.rvs_eq]
        · exact List.forall_mem_append.mpr ⟨hok.log_ok, hfok.log_ok⟩
        · rw [List.flatten_cons, streamFormat.run_append_of_eq_some hok.run_eq, decodedLens_append,
            ← List.append_assoc]
          exact hfok.run_eq

/-- Where the framer has a result, so has the code. -/
theorem feedAll_of_run {mem : List UInt8} (hmem : mem.length = bufSize) (junk : Int)
    {chunks : List (List UInt8)} (hne : ∀ c ∈ chunks, c ≠ []) {t : Framer UInt8}
    (ht : streamFormat.run Format.start chunks.flatten = some t) :
    ∃ f, (new mem junk).feedAll chunks = some f ∧ FedAll (new mem junk) chunks [] f ∧
      f.stream.framer (decodedLens f.log) = t := by
  rcases feedAll_refines (wf_new hmem junk) hne [] with ⟨_, hnone⟩ | ⟨f, hf, hfok⟩
  · rw [framer_new] at hnone
    exact absurd (ht.symm.trans hnone) (by simp)
  · exact ⟨f, hf, hfok, Option.some.inj (hfok.run_eq.symm.trans ht)⟩

/-- Where the code has a result, so has the framer. -/
theorem run_of_feedAll {mem : List UInt8} (hmem : mem.length = bufSize) (junk : Int)
    {chunks : List (List UInt8)} (hne : ∀ c ∈ chunks, c ≠ []) {f : Fed}
    (hf : (new mem junk).feedAll chunks = some f) :
    FedAll (new mem junk) chunks [] f ∧
      streamFormat.run Format.start chunks.flatten =
        some (f.stream.framer (decodedLens f.log)) := by
  rcases feedAll_refines (wf_new hmem junk) hne [] with ⟨hnone, _⟩ | ⟨f', hf', hfok⟩
  · rw [hf] at hnone
    cases hnone
  · obtain rfl := Option.some.inj (hf.symm.trans hf')
    exact ⟨hfok, hfok.run_eq⟩

/-- A framer inside the rest of a frame is a stream that waits for data. -/
theorem framer_body {s : ZBStream} {ls : List Nat} {held : List UInt8} {missing : Int}
    (h : (s.framer ls).phase = .body held missing) :
    s.state = .waitingForData ∧ s.expectDataLen = missing := by
  rw [framer] at h
  cases hs : s.state with
  | init => simp only [hs] at h; cases h
  | waitingForHead => simp only [hs] at h; cases h
  | waitingForData =>
    simp only [hs, Phase.body.injEq] at h
    exact ⟨rfl, h.2⟩

end ZBStream

end Monsys
