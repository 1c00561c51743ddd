/-
  The registration of wireless modules, from the bytes on the line to the table of devices.

  The stream cuts frames out of what arrives, the serial module hands them on, the handler decodes
  them, the table takes the devices in, and the module gets its answer.

  1. **The port** — `receivedAll`: one read of the port after the other.  What the handler is called
     with does not depend on how the reads fall (`receivedAll_eq`).
  2. **One request** — `onReadBytes_announced`: the frame of a request is a call of the table.
  3. **All of them** — `registers_over_the_line`: the gateway goes through with the requests on the
     line exactly if no known module announces the address of another; then the table holds the
     modules as they have registered, and each one has got its answer, in order.
-/
import Monsys.Gateway
import Monsys.GatewayLink
import Monsys.GatewayRadio

namespace Monsys

open Wire

/-! ## The port -/

namespace ZZigBeeHandler

/-- The calls for two rows of frames. -/
theorem onReadCalls_append (h : ZZigBeeHandler) (s : Nat → Surroundings) (a b : List (List UInt8)) :
    h.onReadCalls s (a ++ b) = (h.onReadCalls s a).bind fun r =>
      (r.1.onReadCalls (fun n => s (n + a.length)) b).map fun r' => (r'.1, r.2 ++ r'.2) := by
  induction a generalizing h s with
  | nil =>
    show h.onReadCalls s b = Except.map _ (h.onReadCalls s b)
    cases h.onReadCalls s b <;> rfl
  | cons buf a ih =>
    rw [List.cons_append, onReadCalls, onReadCalls]
    cases h.onReadBytes (s 0) buf with
    | error e => rfl
    | ok r =>
      show Except.bind (r.1.onReadCalls (fun n => s (n + 1)) (a ++ b)) _ = _
      rw [ih]
      show _ = Except.bind (Except.bind (r.1.onReadCalls (fun n => s (n + 1)) a) _) _
      cases r.1.onReadCalls (fun n => s (n + 1)) a with
      | error e => rfl
      | ok r' =>
        have hshift : (fun n => s (n + a.length + 1)) = fun n => s (n + (buf :: a).length) := rfl
        show Except.bind (Except.map _ (r'.1.onReadCalls (fun n => s (n + a.length + 1)) b)) _ =
          Except.map _ (r'.1.onReadCalls (fun n => s (n + (buf :: a).length)) b)
        rw [hshift]
        cases r'.1.onReadCalls (fun n => s (n + (buf :: a).length)) b with
        | error e => rfl
        | ok r'' =>
          show Except.ok (_, r.2 ++ (r'.2 ++ r''.2)) = Except.ok (_, r.2 ++ r'.2 ++ r''.2)
          rw [List.append_assoc]

end ZZigBeeHandler

namespace SerialModule

/-- One read of the port after the other. -/
def receivedAll (m : SerialModule) (s : Nat → Surroundings) :
    List (List UInt8) → Except Abort (SerialModule × List ZbOutput)
  | [] => .ok (m, [])
  | chunk :: chunks => do
    let (n, m, out) ← m.received s chunk
    let (m, outs) ← m.receivedAll (fun k => s (k + n)) chunks
    return (m, out ++ outs)

/-- **Reads of the port are calls of the handler**, as the stream gives the frames out. -/
theorem receivedAll_eq (m : SerialModule) (s : Nat → Surroundings) {chunks : List (List UInt8)}
    (hne : ∀ c ∈ chunks, c ≠ []) {calls : List (List UInt8)} {z : ZSerial}
    (hcalls : m.stream.onReadAll chunks = some (calls, z)) :
    m.receivedAll s chunks =
      (m.handler.onReadCalls s calls).map fun r =>
        ({ m with stream := z, handler := r.1 }, r.2) := by
  induction chunks generalizing m s calls with
  | nil =>
    obtain ⟨rfl, rfl⟩ := Prod.mk.inj (Option.some.inj hcalls)
    rfl
  | cons c cs ih =>
    rw [List.forall_mem_cons] at hne
    rw [ZSerial.onReadAll] at hcalls
    obtain ⟨⟨first, z₁⟩, hfirst, hcalls⟩ := Option.bind_eq_some_iff.mp hcalls
    obtain ⟨⟨others, z₂⟩, hothers, heq⟩ := Option.map_eq_some_iff.mp hcalls
    obtain ⟨rfl, rfl⟩ := Prod.mk.inj heq
    have hread : m.received s c = (m.handler.onReadCalls s first).map fun r =>
        (first.length, { m with stream := z₁, handler := r.1 }, r.2) := by
      rw [received, if_pos hne.1, onRead, hfirst]
      show Except.bind (m.handler.onReadCalls s first) _ = _
      cases m.handler.onReadCalls s first <;> rfl
    rw [receivedAll, hread, ZZigBeeHandler.onReadCalls_append]
    cases m.handler.onReadCalls s first with
    | error e => rfl
    | ok r =>
      show Except.bind (receivedAll { m with stream := z₁, handler := r.1 }
        (fun k => s (k + first.length)) cs) _ =
        Except.map _ (Except.map _ (r.1.onReadCalls _ others))
      rw [ih { m with stream := z₁, handler := r.1 } _ hne.2 hothers]
      dsimp only
      cases r.1.onReadCalls (fun n => s (n + first.length)) others <;> rfl

end SerialModule

/-! ## One request -/

/-- A register request, as a wireless module puts it on the line. -/
structure Announcement where
  req : ZZBRegReq
  cmd_eq : req.cmd = zIdZbRegReq

namespace Announcement

/-- The request with its length field set, as it is decoded. -/
def sized (a : Announcement) : ZZBRegReq := { a.req with len := ZZBRegReq.getBodyLen }

theorem body_length (a : Announcement) : (ZbMsg.regReq a.req).body.length = 10 := by
  rw [ZbMsg.body, List.length_append, a.req.mac.length_eq]
  rfl

/-- The request in a buffer of 1024 bytes. -/
def link (a : Announcement) : LinkMsg where
  msg := .regReq a.req
  bufLen := ZZigBeeHandler.bufSize
  codable := trivial
  not_getRsp := fun g h => by cases h
  room := by
    rw [a.body_length]
    decide
  bufLen_lt := by decide

/-- The bytes on the line. -/
def written (a : Announcement) : List UInt8 := a.link.written

/-- What the stream makes of them. -/
def frame (a : Announcement) : List UInt8 := a.link.serialFrame.bytes

theorem frame_eq (a : Announcement) :
    a.frame = a.sized.toZZigBeeMsg.bytes ++ (ZbMsg.regReq a.req).body := by
  rw [frame, LinkMsg.serialFrame_bytes]
  show ZZigBeeMsg.bytes (ZbMsg.sized (.regReq a.req)).header ++ _ = _
  rw [ZbMsg.header_sized, a.body_length]
  rfl

theorem frame_length (a : Announcement) : a.frame.length = 16 := by
  rw [frame_eq, List.length_append, ZZigBeeMsg.bytes_length, a.body_length]

end Announcement

namespace ZZigBeeHandler

theorem decodedBy_ok {β : Type} {d : Decoder β} {mem : List UInt8} {n : Nat} {k : Int} {b : β}
    (h : d mem n = .ok (k, b)) (hk : 0 ≤ k) : decodedBy d mem n = .ok (some b) := by
  rw [decodedBy, h]
  dsimp only
  rw [if_neg (by omega)]

/-- A frame that is decoded goes to the switch. -/
theorem onReadBytes_decoded {h : ZZigBeeHandler} {s : Surroundings} {buf : List UInt8}
    {hdr : ZZigBeeMsg} {object msg : ZbMsg}
    (hhead : decodedBy ZZigBeeMsg.decode (buf ++ s.behind) buf.length = .ok (some hdr))
    (hcmd : forCommand hdr.cmd s.junk = some object)
    (hmsg : decodedBy object.decode (buf ++ s.behind) buf.length = .ok (some msg)) :
    h.onReadBytes s buf = h.onRead msg s.junk s.written := by
  rw [onReadBytes, hhead]
  dsimp only [bind, Except.bind]
  rw [hcmd]
  dsimp only
  rw [hmsg]

/-- **The frame of a request is a call of the table**, whatever lies behind it in memory. -/
theorem onReadBytes_announced (h : ZZigBeeHandler) (s : Surroundings) (a : Announcement) :
    h.onReadBytes s a.frame = h.processRegReq a.sized s.junk s.written := by
  have hhead : ZZigBeeMsg.decode (a.frame ++ s.behind) a.frame.length =
      .ok (6, a.sized.toZZigBeeMsg) := by
    have hle : a.sized.toZZigBeeMsg.bytes.length ≤ a.frame.length := by
      rw [a.frame_length, ZZigBeeMsg.bytes_length]
      decide
    have hread := header_reads a.sized.toZZigBeeMsg ((ZbMsg.regReq a.req).body ++ s.behind)
      a.frame.length (by rw [a.frame_length]; decide) hle
    rw [← List.append_assoc, ← a.frame_eq] at hread
    exact hread
  have hmsg : (ZbMsg.regReq (.new s.junk)).decode (a.frame ++ s.behind) a.frame.length =
      .ok (16, .regReq a.sized) := by
    have hread := ZbMsg.decode_reads (m := .regReq a.req) trivial s.junk s.behind a.frame.length
      (by rw [a.frame_length]; decide)
    rw [ZbMsg.sized, a.body_length] at hread
    have hbytes : (ZbMsg.withLen 10 (.regReq a.req)).header.bytes ++ (ZbMsg.regReq a.req).body =
        a.frame := a.frame_eq.symm
    rw [show UInt16.ofNat 10 = 10 from rfl, hbytes] at hread
    have hok := hread (Nat.le_refl _)
    rw [a.frame_length] at hok ⊢
    exact hok
  have hcmd : forCommand a.sized.cmd s.junk = some (.regReq (.new s.junk)) := by
    rw [show a.sized.cmd = zIdZbRegReq from a.cmd_eq]
    rfl
  exact onReadBytes_decoded (decodedBy_ok hhead (by decide)) hcmd (decodedBy_ok hmsg (by decide))

end ZZigBeeHandler

/-! ## All of them -/

/-- What a request does to the directory of the devices. -/
def enrolled (p : Directory) (a : Announcement) : Directory :=
  (p.enter a.req.mac a.req.addr "dev-xxx" 1).2

/-- What a module gets: an answer with its address, and 0 for a status unless another module has
    the address. -/
def Answered (fd : Int) (v : Directory × Announcement) (o : ZbOutput) : Prop :=
  ∃ bytes, ∃ rsp : ZZBRegRsp, o = .write fd (zbSynBytes ++ bytes) ∧
    ZZBRegRsp.decode bytes bytes.length = .ok (7, rsp) ∧ rsp.addr = v.2.req.addr ∧
    rsp.status = if v.1.FreeFor v.2.req.mac v.2.req.addr then 0 else 0xFF

/-- The bytes of a response in a buffer of 1024 bytes. -/
theorem regRsp_encode (rsp : ZZBRegRsp) :
    (rsp.encode (1 <<< 10)).2 =
      ⟨15, ZbMsg.frame { rsp.toZZigBeeMsg with len := ZZBRegRsp.getBodyLen } [rsp.status]⟩ := by
  have hfits := encodeCallsWith_fits
    (message_spells { rsp.toZZigBeeMsg with len := ZZBRegRsp.getBodyLen }
      (Spells.single (zEncodeByte_emits rsp.status)))
    (fun n w => toInt32 (subU32 n w.room)) (n := 1 <<< 10) (by decide)
    (by rw [ZbMsg.frame_length, List.length_singleton]; decide)
  have hcount : toInt32 (subU32 (1 <<< 10) (subU32 (1 <<< 10) (14 + 1))) = 15 := by decide
  refine hfits.trans ?_
  rw [Writer.at, ZbMsg.frame_length, List.length_singleton]
  dsimp only
  rw [hcount]

/-- Behind its sync word the response decodes. -/
theorem regRsp_decode (rsp : ZZBRegRsp) (h : rsp.len = ZZBRegRsp.getBodyLen) :
    ZZBRegRsp.decode (rsp.toZZigBeeMsg.bytes ++ [rsp.status])
      (rsp.toZZigBeeMsg.bytes ++ [rsp.status]).length = .ok (7, rsp) := by
  have hread := regRsp_reads rsp (by rw [h]; rfl) [] 7 (by decide) (Nat.le_refl 7)
  rw [List.append_nil] at hread
  exact hread

namespace ZZigBeeHandler

variable {h : ZZigBeeHandler} {q : Pairing ZbMac UInt16 Ptr} {p : Directory}

/-- **A request that is heard**: without a conflict the table takes the module in, or refuses it,
    and it is answered. -/
theorem onReadBytes_answered (hfd : 0 < h.fd) (hf : h.devManager.Files q p) (s : Surroundings)
    {a : Announcement} (hc : ¬ p.Conflict a.req.mac a.req.addr) :
    ∃ m q' o, h.onReadBytes s a.frame = .ok ({ h with devManager := m }, [o]) ∧
      m.Files q' (enrolled p a) ∧ Answered h.fd (p, a) o := by
  obtain ⟨m, q', hadd, hfiles⟩ := hf.add hc "dev-xxx" 1
  let rsp : ZZBRegRsp := { ZZBRegRsp.new s.junk with
    status := if (p.enter a.req.mac a.req.addr "dev-xxx" 1).1 then 0 else 0xFF
    addr := a.req.addr }
  let sized : ZZBRegRsp := { rsp with len := ZZBRegRsp.getBodyLen }
  have hreg : h.devManager.processRegReq a.sized s.junk =
      .ok ((0, ZbMsg.frame sized.toZZigBeeMsg [rsp.status]), m) := by
    rw [ZZBDevManager.processRegReq]
    show Except.bind (h.devManager.add a.req.mac a.req.addr "dev-xxx" 1) _ = _
    rw [hadd]
    show (if (rsp.encode (1 <<< 10)).2.rv < 0 then Except.ok ((-1, []), m)
      else Except.ok ((0, (rsp.encode (1 <<< 10)).2.out), m)) = _
    rw [regRsp_encode]
    dsimp only
    rw [if_neg (by decide)]
  refine ⟨m, q', .write h.fd (ZbMsg.frame sized.toZZigBeeMsg [rsp.status]), ?_, hfiles,
    sized.toZZigBeeMsg.bytes ++ [rsp.status], sized, ?_, regRsp_decode sized rfl, rfl, ?_⟩
  · rw [onReadBytes_announced, ZZigBeeHandler.processRegReq, hreg]
    dsimp only [bind, Except.bind, pure, Except.pure]
    rw [if_neg (by decide), send, if_neg (by dsimp only; omega)]
  · rw [ZbMsg.frame, List.append_assoc]
    rfl
  · show (if (p.enter a.req.mac a.req.addr "dev-xxx" 1).1 = true then (0 : UInt8) else 0xFF) = _
    exact if_congr (ZZBDevManager.enter_fst p) rfl rfl

/-- A known module that announces the address of another stops the gateway. -/
theorem onReadBytes_conflict (hf : h.devManager.Files q p) (s : Surroundings) {a : Announcement}
    (hc : p.Conflict a.req.mac a.req.addr) : h.onReadBytes s a.frame = .error .assert := by
  rw [onReadBytes_announced, ZZigBeeHandler.processRegReq, ZZBDevManager.processRegReq]
  show Except.bind (Except.bind (h.devManager.add a.req.mac a.req.addr "dev-xxx" 1) _) _ = _
  rw [hf.add_conflict hc]
  rfl

/-- **A row of requests**, one frame after the other. -/
theorem onReadCalls_announced (hfd : 0 < h.fd) (hf : h.devManager.Files q p)
    (s : Nat → Surroundings) (as : List Announcement) :
    ((∀ v ∈ Runs.visits enrolled p as, ¬ v.1.Conflict v.2.req.mac v.2.req.addr) ∧
      ∃ m q' out, h.onReadCalls s (as.map Announcement.frame) =
          .ok ({ h with devManager := m }, out) ∧
        m.Files q' (as.foldl enrolled p) ∧
        List.Forall₂ (Answered h.fd) (Runs.visits enrolled p as) out) ∨
    ((∃ v ∈ Runs.visits enrolled p as, v.1.Conflict v.2.req.mac v.2.req.addr) ∧
      h.onReadCalls s (as.map Announcement.frame) = .error .assert) := by
  induction as generalizing h q p s with
  | nil =>
    exact Or.inl ⟨List.forall_mem_nil _, h.devManager, q, [], rfl, hf, List.Forall₂.nil⟩
  | cons a as ih =>
    rw [Runs.visits_cons, List.map_cons, onReadCalls]
    by_cases hc : p.Conflict a.req.mac a.req.addr
    · refine Or.inr ⟨⟨(p, a), List.mem_cons_self, hc⟩, ?_⟩
      rw [onReadBytes_conflict hf (s 0) hc]
      rfl
    · obtain ⟨m, q', o, hread, hfiles, hanswered⟩ := onReadBytes_answered hfd hf (s 0) hc
      rw [hread]
      dsimp only [bind, Except.bind]
      rcases @ih { h with devManager := m } q' (enrolled p a) hfd hfiles (fun n => s (n + 1)) with
        ⟨hclear, m', q'', out, hrest, hfiles', hrow⟩ | ⟨⟨v, hv, hconflict⟩, hrest⟩
      · refine Or.inl ⟨List.forall_mem_cons.mpr ⟨hc, hclear⟩, m', q'', o :: out, ?_, hfiles',
          List.Forall₂.cons hanswered hrow⟩
        rw [hrest]
        rfl
      · refine Or.inr ⟨⟨v, List.mem_cons_of_mem _ hv, hconflict⟩, ?_⟩
        rw [hrest]

end ZZigBeeHandler

namespace SerialModule

/-- The line: noise and requests. -/
def onLine (p : List UInt8 × Announcement) : List UInt8 := p.1 ++ p.2.written

/-- The serial module, when it has opened the port. -/
def opened (fd : Int) (mem : List UInt8) (junk : Int) : SerialModule where
  fd := fd
  state := .connected
  stream := .new mem junk
  handler := { ZZigBeeHandler.new with fd }

/-- What the handler is called with: the frames of the requests. -/
theorem onReadAll_announced {mem : List UInt8} (hmem : mem.length = ZBStream.bufSize) (junk : Int)
    (line : List (List UInt8 × Announcement)) (trailing : List UInt8)
    (hnoise : ∀ p ∈ line, ZBStream.Noise p.1) (htrailing : ¬ zbSynBytes <:+: trailing)
    {chunks : List (List UInt8)} (hne : ∀ c ∈ chunks, c ≠ [])
    (hbytes : chunks.flatten = line.flatMap onLine ++ trailing) :
    ∃ z, (ZSerial.new mem junk).onReadAll chunks =
      some (line.map fun p => p.2.frame, z) := by
  obtain ⟨k, ls, hrun⟩ := ZBStream.run_onLine
    (line.map fun p => (p.1, p.2.link.serialFrame)) trailing
    (List.forall_mem_map.mpr hnoise) htrailing
  have hline : (line.map fun p => (p.1, p.2.link.serialFrame)).flatMap ZBStream.onLine ++
      trailing = chunks.flatten := by
    rw [hbytes, List.flatMap_map]
    refine congrArg (fun bytes => bytes ++ trailing) (List.flatMap_congr fun p _ => ?_)
    rw [onLine, Announcement.written, p.2.link.written_eq]
    rfl
  rw [hline, List.map_map] at hrun
  have hlength : ∀ g ∈ line.map fun p => p.2.frame, g.length = 16 :=
    List.forall_mem_map.mpr fun p _ => p.2.frame_length
  obtain ⟨calls, z, hcalls, hd⟩ := @ZSerial.onReadAll_drains (.new mem junk)
    (ZBStream.wf_new hmem junk) rfl _ hne [] _ hrun fun g hg hnil => by
      have hlen := hlength g hg
      rw [hnil] at hlen
      cases hlen
  refine ⟨z, ?_⟩
  rw [hcalls, hd.eq_of_fits fun g hg => ?_]
  · rfl
  · rw [hlength g hg]
    decide

/-- **Registration over the line.**  Wireless modules register, with noise between their frames, and
    the bytes are read in any pieces: the gateway goes through with them exactly if no known module
    announces the address of another one, whatever is in its memory; and then the table holds the
    modules as they have registered, one after the other, and every one has got its answer. -/
theorem registers_over_the_line {mem : List UInt8} (hmem : mem.length = ZBStream.bufSize)
    (junk : Int) {fd : Int} (hfd : 0 < fd) (s : Nat → Surroundings)
    (line : List (List UInt8 × Announcement)) (trailing : List UInt8)
    (hnoise : ∀ p ∈ line, ZBStream.Noise p.1) (htrailing : ¬ zbSynBytes <:+: trailing)
    (chunks : List (List UInt8)) (hne : ∀ c ∈ chunks, c ≠ [])
    (hbytes : chunks.flatten = line.flatMap onLine ++ trailing) :
    ((∃ r, (opened fd mem junk).receivedAll s chunks = .ok r) ↔
      ∀ v ∈ Runs.visits enrolled .empty (line.map Prod.snd),
        ¬ v.1.Conflict v.2.req.mac v.2.req.addr) ∧
    ∀ m out, (opened fd mem junk).receivedAll s chunks = .ok (m, out) →
      (∃ q, m.handler.devManager.Files q ((line.map Prod.snd).foldl enrolled .empty)) ∧
      List.Forall₂ (Answered fd) (Runs.visits enrolled .empty (line.map Prod.snd)) out := by
  obtain ⟨z, hcalls⟩ := onReadAll_announced hmem junk line trailing hnoise htrailing hne hbytes
  have hframes : (line.map fun p => p.2.frame) =
      (line.map Prod.snd).map Announcement.frame := by rw [List.map_map]; rfl
  rw [receivedAll_eq (opened fd mem junk) s hne hcalls, hframes]
  rcases ZZigBeeHandler.onReadCalls_announced (h := (opened fd mem junk).handler) hfd
      ZZBDevManager.files_new s (line.map Prod.snd) with
    ⟨hclear, m, q, out, hread, hfiles, hrow⟩ | ⟨⟨v, hv, hconflict⟩, hread⟩
  · rw [hread]
    refine ⟨iff_of_true ⟨_, rfl⟩ hclear, fun m' out' heq => ?_⟩
    cases heq
    exact ⟨⟨q, hfiles⟩, hrow⟩
  · rw [hread]
    refine ⟨iff_of_false (fun ⟨r, hr⟩ => (nomatch hr)) fun hclear => hclear v hv hconflict,
      fun m' out' heq => ?_⟩
    cases heq

/-- A module that registers at an address. -/
def atAddr (addr : UInt16) : Announcement :=
  ⟨⟨⟨1, 10, zIdZbRegReq, addr⟩, ZZBDevManager.macOf 1, 2⟩, rfl⟩

/-- It registers at two addresses, the second time with noise before its frame, in three reads. -/
theorem registers_twice :
    ∃ m out, (opened 5 (List.replicate ZBStream.bufSize 0) 0).receivedAll
        (fun _ => ⟨⟨0, 0, 0, 0, 0⟩, 15, []⟩)
        [(atAddr 7).written.take 3, (atAddr 7).written.drop 3 ++ [1, 2], (atAddr 8).written] =
          .ok (m, out) ∧
      (∃ q, m.handler.devManager.Files q ([atAddr 7, atAddr 8].foldl enrolled .empty)) ∧
      List.Forall₂ (Answered 5) (Runs.visits enrolled .empty [atAddr 7, atAddr 8]) out := by
  obtain ⟨hiff, hok⟩ := @registers_over_the_line (List.replicate ZBStream.bufSize 0)
    List.length_replicate 0 5 (by decide) (fun _ => ⟨⟨0, 0, 0, 0, 0⟩, 15, []⟩)
    [([], atAddr 7), ([1, 2], atAddr 8)] []
    (List.forall_mem_cons.mpr ⟨ZBStream.noise_nil,
      List.forall_mem_singleton.mpr (by rw [ZBStream.Noise]; decide)⟩)
    (by decide)
    [(atAddr 7).written.take 3, (atAddr 7).written.drop 3 ++ [1, 2], (atAddr 8).written]
    (by decide) (by decide)
  obtain ⟨⟨m, out⟩, hr⟩ := hiff.mpr (by decide)
  exact ⟨m, out, hr, hok m out hr⟩

end SerialModule

end Monsys
