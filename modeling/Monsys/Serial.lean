/-
  The serial module: `ZSerial::onRead` of `server/zserial.cc`.

  What arrives on the port is fed to the stream, and then the stream is read dry: every read that
  gives something is handed to the ZigBee handler.  The buffer the stream is read into has 1024
  bytes, a quarter of what the stream can hold of one frame, and `read` gives a longer frame out in
  pieces.

  1. **The loop** — `drain`, with what it hands on (`drain_spec`).
  2. **Runs** — `onReadAll`: one `onRead` for each piece that arrives.
  3. **One dispatch per frame** — `onReadAll_dispatch_iff`: exactly if no body is longer than 1018.

  The handler is not part of this module: the calls to `handler_->onRead` are the list of the bytes
  they are given.  The file descriptor, the state of the connection and the timers are left out.
-/
import Monsys.SerialLine

namespace Monsys

open Framing

/-- `ZSerial`: the stream.  `buf_` is filled afresh before every use. -/
structure ZSerial where
  stream : ZBStream

namespace ZSerial

/-- `sizeof(buf_)`, with `char buf_[1 << 10]`. -/
def bufSize : Nat := 1 <<< 10

/-- A serial module that has received nothing. -/
def new (mem : List UInt8) (junk : Int) : ZSerial := ⟨ZBStream.new mem junk⟩

/-! ## The loop -/

/-- The loop of `onRead`: the calls to `handler_->onRead`, and the stream. -/
def drain (s : ZBStream) : Option (List (List UInt8) × ZBStream) :=
  match _hr : s.read bufSize with
  | none => none
  | some (out, s') =>
    if _hout : out.length ≤ 0 then some ([], s')
    else (drain s').map fun (calls, t) => (out :: calls, t)
termination_by s.receivedDataList.flatten.length
decreasing_by
  have hlen := congrArg List.length (ZBStream.read_flatten _hr)
  rw [List.length_append] at hlen
  omega

/-- `onRead`. -/
def onRead (z : ZSerial) (buf : List UInt8) : Option (List (List UInt8) × ZSerial) :=
  (z.stream.feed buf).bind fun r =>
    if r.rv = buf.length then (drain r.stream).map fun (calls, s) => (calls, ⟨s⟩)
    else none  -- assert(rv == (int)buf_len)

/-- The stream with nothing queued. -/
def dry (s : ZBStream) : ZBStream := { s with receivedDataList := [] }

theorem dry_wf {s : ZBStream} (h : s.Wf) : (dry s).Wf :=
  ⟨h.limit_eq, h.capability_eq, h.synBytes_eq, h.stateOk⟩

theorem framer_behind_dry (s : ZBStream) (ls : List Nat) :
    s.framer ls = ((dry s).framer ls).behind s.receivedDataList := by
  show _ = (⟨_, _ ++ [], _⟩ : Framer UInt8)
  rw [List.append_nil]
  rfl

/-- What the loop hands on of a queue: all its bytes, in pieces that fit `buf_`; the frames
    themselves if these fit. -/
structure Drains (queue calls : List (List UInt8)) : Prop where
  flatten_eq : calls.flatten = queue.flatten
  le_bufSize : ∀ c ∈ calls, c.length ≤ bufSize
  eq_of_fits : (∀ g ∈ queue, g.length ≤ bufSize) → calls = queue

/-- What one `read` of a frame gives. -/
theorem read_cons {s : ZBStream} {g : List UInt8} {rest : List (List UInt8)}
    (hq : s.receivedDataList = g :: rest) (hg : g ≠ []) :
    (g.length ≤ bufSize ∧ s.read bufSize = some (g, { s with receivedDataList := rest })) ∨
      (bufSize < g.length ∧ s.read bufSize = some (g.take bufSize,
        { s with receivedDataList := g.drop bufSize :: rest })) := by
  rcases Nat.lt_or_ge bufSize g.length with hlt | hle
  · refine Or.inr ⟨hlt, ?_⟩
    simp only [ZBStream.read, hq, if_neg hg]
    rw [if_pos (by omega), if_neg (by omega), Int.toNat_natCast]
  · refine Or.inl ⟨hle, ?_⟩
    simp only [ZBStream.read, hq, if_neg hg]
    rw [if_neg (by omega)]

/-- **The loop reads the stream dry.**  By induction on its own recursion. -/
theorem drain_spec (s : ZBStream) (hq : ∀ g ∈ s.receivedDataList, g ≠ []) :
    ∃ calls, drain s = some (calls, dry s) ∧ Drains s.receivedDataList calls := by
  induction s using drain.induct with
  | case1 s hr =>
    -- a read that goes wrong: not with frames that are not empty
    cases hl : s.receivedDataList with
    | nil => simp only [ZBStream.read, hl] at hr; cases hr
    | cons g rest =>
      rcases read_cons hl (hq g (by rw [hl]; exact List.mem_cons_self)) with ⟨_, h⟩ | ⟨_, h⟩ <;>
        (rw [hr] at h; cases h)
  | case2 s out s' hr hout =>
    -- the read gave nothing, so nothing was queued
    cases hl : s.receivedDataList with
    | nil =>
      simp only [ZBStream.read, hl] at hr
      obtain ⟨rfl, rfl⟩ := Prod.mk.inj (Option.some.inj hr)
      refine ⟨[], ?_, rfl, by simp, fun _ => rfl⟩
      have hread : s.read bufSize = some ([], s) := by simp only [ZBStream.read, hl]
      have hdry : dry s = s := by rw [dry, ← hl]
      rw [drain, hread, hdry]
      rfl
    | cons g rest =>
      have hg := hq g (by rw [hl]; exact List.mem_cons_self)
      have hpos := List.length_pos_iff.mpr hg
      rcases read_cons hl hg with ⟨_, h⟩ | ⟨hlt, h⟩
      · obtain ⟨rfl, _⟩ := Prod.mk.inj (Option.some.inj (hr.symm.trans h))
        omega
      · obtain ⟨rfl, _⟩ := Prod.mk.inj (Option.some.inj (hr.symm.trans h))
        have hsize : bufSize = 1024 := rfl
        rw [List.length_take] at hout
        omega
  | case3 s out s' hr hout ih =>
    have hdrain : ∀ calls t, drain s' = some (calls, t) → drain s = some (out :: calls, t) := by
      intro calls t h
      rw [drain, hr]
      simp only [dif_neg hout, h, Option.map_some]
    cases hl : s.receivedDataList with
    | nil =>
      simp only [ZBStream.read, hl] at hr
      obtain ⟨rfl, _⟩ := Prod.mk.inj (Option.some.inj hr)
      exact absurd (Nat.le_refl 0) hout
    | cons g rest =>
      rw [hl] at hq
      have hrest : ∀ c ∈ rest, c ≠ [] := fun c hc => hq c (List.mem_cons_of_mem g hc)
      rcases read_cons hl (hq g List.mem_cons_self) with ⟨hle, h⟩ | ⟨hlt, h⟩
      · -- the frame fits: one call
        obtain ⟨rfl, rfl⟩ := Prod.mk.inj (Option.some.inj (hr.symm.trans h))
        obtain ⟨calls, hcalls, hd⟩ := ih hrest
        refine ⟨out :: calls, hdrain _ _ hcalls, ?_, ?_, ?_⟩
        · rw [List.flatten_cons, List.flatten_cons, hd.flatten_eq]
        · exact List.forall_mem_cons.mpr ⟨hle, hd.le_bufSize⟩
        · intro hfits
          rw [hd.eq_of_fits fun c hc => hfits c (List.mem_cons_of_mem out hc)]
      · -- the frame is longer than `buf_`: a first piece of it
        obtain ⟨rfl, rfl⟩ := Prod.mk.inj (Option.some.inj (hr.symm.trans h))
        have hdrop : g.drop bufSize ≠ [] := by
          rw [ne_eq, List.drop_eq_nil_iff]
          omega
        obtain ⟨calls, hcalls, hd⟩ := ih (List.forall_mem_cons.mpr ⟨hdrop, hrest⟩)
        refine ⟨g.take bufSize :: calls, hdrain _ _ hcalls, ?_, ?_, ?_⟩
        · rw [List.flatten_cons, hd.flatten_eq, List.flatten_cons, List.flatten_cons,
            ← List.append_assoc, List.take_append_drop]
        · exact List.forall_mem_cons.mpr ⟨List.length_take_le _ _, hd.le_bufSize⟩
        · intro hfits
          exact absurd (hfits g List.mem_cons_self) (by omega)

/-! ## Runs -/

/-- One `onRead` for each piece that arrives: all calls to the handler. -/
def onReadAll (z : ZSerial) : List (List UInt8) → Option (List (List UInt8) × ZSerial)
  | [] => some ([], z)
  | c :: cs => (z.onRead c).bind fun (calls, z') =>
    (onReadAll z' cs).map fun (calls', z'') => (calls ++ calls', z'')

theorem Drains.append {queue calls queue' calls' : List (List UInt8)} (h : Drains queue calls)
    (h' : Drains queue' calls') : Drains (queue ++ queue') (calls ++ calls') where
  flatten_eq := by rw [List.flatten_append, List.flatten_append, h.flatten_eq, h'.flatten_eq]
  le_bufSize := List.forall_mem_append.mpr ⟨h.le_bufSize, h'.le_bufSize⟩
  eq_of_fits := fun hfits => by
    have hboth := List.forall_mem_append.mp hfits
    rw [h.eq_of_fits hboth.1, h'.eq_of_fits hboth.2]

/-- **What a row of reads hands on**: what the loop would hand on of all the frames the framer
    finds.  Between two reads nothing is queued. -/
theorem onReadAll_drains {z : ZSerial} (hw : z.stream.Wf) (hempty : z.stream.receivedDataList = [])
    {chunks : List (List UInt8)} (hne : ∀ c ∈ chunks, c ≠ []) (ls : List Nat) {t : Framer UInt8}
    (ht : streamFormat.run (z.stream.framer ls) chunks.flatten = some t)
    (hframes : ∀ g ∈ t.frames, g ≠ []) :
    ∃ calls z', z.onReadAll chunks = some (calls, z') ∧ Drains t.frames calls := by
  induction chunks generalizing z ls t with
  | nil =>
    obtain rfl := Option.some.inj ht
    refine ⟨[], z, rfl, ?_⟩
    show Drains z.stream.receivedDataList []
    rw [hempty]
    exact ⟨rfl, by simp, fun _ => rfl⟩
  | cons c cs ih =>
    have hc := hne c List.mem_cons_self
    rw [List.flatten_cons] at ht
    rcases ZBStream.feed_refines hw (Or.inl hc) ls with ⟨_, hnone⟩ | ⟨r, hr, hok⟩
    · rw [Format.run_append, hnone] at ht
      cases ht
    · -- the frames of this piece are handed on, and the rest runs from an empty queue
      rw [streamFormat.run_append_of_eq_some hok.run_eq, framer_behind_dry,
        Format.run_behind] at ht
      obtain ⟨u, hu, rfl⟩ := Option.map_eq_some_iff.mp ht
      have hboth := List.forall_mem_append.mp hframes
      obtain ⟨calls, hcalls, hd⟩ := drain_spec r.stream hboth.1
      obtain ⟨calls', z', hcalls', hd'⟩ := @ih ⟨dry r.stream⟩ (dry_wf hok.wf) rfl
        (fun d hdm => hne d (List.mem_cons_of_mem c hdm)) _ u hu hboth.2
      refine ⟨calls ++ calls', z', ?_, hd.append hd'⟩
      have hone : z.onRead c = some (calls, ⟨dry r.stream⟩) := by
        rw [onRead, hr, Option.bind_some, if_pos hok.rv_eq, hcalls]
        rfl
      rw [onReadAll, hone, Option.bind_some]
      show Option.map _ (onReadAll ⟨dry r.stream⟩ cs) = _
      rw [hcalls']
      rfl

/-! ## One dispatch per frame -/

/-- What a row of reads hands on of frames without noise between them. -/
theorem onReadAll_frames {mem : List UInt8} (hmem : mem.length = ZBStream.bufSize) (junk : Int)
    (frames : List ZBStream.SerialFrame) {chunks : List (List UInt8)} (hne : ∀ c ∈ chunks, c ≠ [])
    (hbytes : chunks.flatten = frames.flatMap fun fr => zbSynBytes ++ fr.bytes) :
    ∃ calls z, (new mem junk).onReadAll chunks = some (calls, z) ∧
      Drains (frames.map ZBStream.SerialFrame.bytes) calls := by
  obtain ⟨k, ls, hrun⟩ := ZBStream.run_onLine (frames.map fun fr => ([], fr)) []
    (List.forall_mem_map.mpr fun _ _ => ZBStream.noise_nil) (by decide)
  have hline : (frames.map fun fr => (([] : List UInt8), fr)).flatMap ZBStream.onLine ++ [] =
      chunks.flatten := by
    rw [hbytes, List.append_nil, List.flatMap_map]
    rfl
  rw [hline, List.map_map] at hrun
  exact @onReadAll_drains (new mem junk) (ZBStream.wf_new hmem junk) rfl _ hne [] _ hrun
    (List.forall_mem_map.mpr fun fr _ h => absurd (congrArg List.length h)
      (by rw [Function.comp, fr.bytes_length, List.length_nil]; omega))

/-- **One dispatch per frame.**  The handler is called once for each frame, in order and with just
    its bytes, exactly if every body has at most 1018 bytes: then a frame fits `buf_`. -/
theorem onReadAll_dispatch_iff {mem : List UInt8} (hmem : mem.length = ZBStream.bufSize)
    (junk : Int) (frames : List ZBStream.SerialFrame) (chunks : List (List UInt8))
    (hne : ∀ c ∈ chunks, c ≠ [])
    (hbytes : chunks.flatten = frames.flatMap fun fr => zbSynBytes ++ fr.bytes) :
    (∃ z, (new mem junk).onReadAll chunks = some (frames.map ZBStream.SerialFrame.bytes, z)) ↔
      ∀ fr ∈ frames, fr.body.length ≤ 1018 := by
  obtain ⟨calls, z, hcalls, hd⟩ := onReadAll_frames hmem junk frames hne hbytes
  constructor
  · rintro ⟨z', hz'⟩ fr hfr
    obtain ⟨rfl, _⟩ := Prod.mk.inj (Option.some.inj (hcalls.symm.trans hz'))
    have hle := hd.le_bufSize _ (List.mem_map_of_mem hfr)
    rw [fr.bytes_length] at hle
    have hsize : bufSize = 1024 := rfl
    omega
  · intro h
    refine ⟨z, ?_⟩
    rw [hcalls, hd.eq_of_fits]
    refine List.forall_mem_map.mpr fun fr hfr => ?_
    rw [fr.bytes_length]
    have hfit := h fr hfr
    show 6 + fr.body.length ≤ 1024
    omega

/-- A frame with a body of 1019 bytes. -/
def wideFrame : ZBStream.SerialFrame :=
  ⟨1, 7, 9, List.replicate 1019 0, by rw [List.length_replicate]; decide⟩

/-- One byte too many for `buf_`: the handler is not called with the frame. -/
theorem onReadAll_splits :
    ¬ ∃ z, (new (List.replicate ZBStream.bufSize 0) 0).onReadAll
      [zbSynBytes ++ wideFrame.bytes.take 1016, wideFrame.bytes.drop 1016] =
        some ([wideFrame.bytes], z) := by
  have hlen : wideFrame.bytes.length = 1025 := by
    have hbody : wideFrame.body.length = 1019 := List.length_replicate
    rw [wideFrame.bytes_length, hbody]
  have hdrop : wideFrame.bytes.drop 1016 ≠ [] := by
    rw [ne_eq, List.drop_eq_nil_iff, hlen]
    decide
  obtain ⟨calls, z, hcalls, hd⟩ := @onReadAll_frames (List.replicate ZBStream.bufSize 0)
    List.length_replicate 0 [wideFrame]
    [zbSynBytes ++ wideFrame.bytes.take 1016, wideFrame.bytes.drop 1016]
    (List.forall_mem_cons.mpr ⟨List.append_ne_nil_of_left_ne_nil (by decide) _,
      List.forall_mem_singleton.mpr hdrop⟩)
    (by simp [List.take_append_drop])
  rintro ⟨z', hz'⟩
  obtain ⟨rfl, _⟩ := Prod.mk.inj (Option.some.inj (hcalls.symm.trans hz'))
  have hle := hd.le_bufSize _ (List.mem_singleton_self _)
  rw [hlen] at hle
  exact absurd hle (by decide)

/-- Two frames without a body, cut in the middle of the first. -/
theorem onReadAll_dispatch_two :
    ∃ z, (new (List.replicate ZBStream.bufSize 0) 0).onReadAll
      [zbSynBytes ++ [1, 0], [0, 7, 0, 9] ++ zbSynBytes ++ [1, 0, 0, 8, 0, 9]] =
        some ([[1, 0, 0, 7, 0, 9], [1, 0, 0, 8, 0, 9]], z) :=
  (onReadAll_dispatch_iff List.length_replicate 0
    [⟨1, 7, 9, [], by decide⟩, ⟨1, 8, 9, [], by decide⟩]
    [zbSynBytes ++ [1, 0], [0, 7, 0, 9] ++ zbSynBytes ++ [1, 0, 0, 8, 0, 9]]
    (by decide) (by decide)).mpr (by decide)

end ZSerial

end Monsys
