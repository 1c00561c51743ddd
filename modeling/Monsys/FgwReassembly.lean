/-
  The byte stream of the server, cut into the buffers of `recv`.

  The server sends every message behind the count of its bytes.  The gateway takes each buffer for
  one message, whatever the count says.

  1. **Buffers** — what a buffer decodes to.
  2. **Streams** — `Whole`: the cuts that leave every message in one buffer; `filterMap_decoded_iff`:
     these, and no others, give the messages back.
  3. **Runs** — `reassembled_iff`: the same of a connected client that reads the buffers.
-/
import Monsys.FgwClient

namespace Monsys

open Push

variable {pb : Protobuf}

/-! ## Buffers -/

/-- A buffer that decodes to a message is the message behind some varint. -/
theorem eq_append_of_decoded (hvar : pb.UsesVarints) {buf : List UInt8} {msg : PushMsg}
    (h : decoded pb buf = some msg) :
    ∃ v rest, buf = v ++ rest ∧ Varint.IsVarint v ∧ pb.parse rest = some msg := by
  rw [decoded, protobufDecode, hvar.read] at h
  cases hread : Varint.read 10 buf with
  | none =>
    rw [hread] at h
    cases h
  | some r =>
    obtain ⟨v, rest, rfl, hv, hlen⟩ := Varint.eq_append_of_read hread
    rw [hread, Option.map_some] at h
    dsimp only at h
    rw [← hlen, List.drop_left] at h
    cases hparse : pb.parse rest with
    | none =>
      rw [hparse] at h
      cases h
    | some msg' =>
      rw [hparse] at h
      dsimp only at h
      split at h
      · cases h
      · exact ⟨v, rest, rfl, hv, hparse.trans h⟩

/-- A message behind a short varint is decoded, whatever the varint says. -/
theorem decoded_append (hvar : pb.UsesVarints) {v rest : List UInt8} {msg : PushMsg}
    (hv : Varint.IsVarint v) (hlen : v.length ≤ 2) (hparse : pb.parse rest = some msg) :
    decoded pb (v ++ rest) = some msg := by
  have hvalue : Varint.value v < 128 ^ 2 :=
    Nat.lt_of_lt_of_le (Varint.value_lt v) (Nat.pow_le_pow_right (by decide) hlen)
  have hsmall : Varint.value v % 2 ^ 32 = Varint.value v := Nat.mod_eq_of_lt (by omega)
  have hrv : ¬ (v.length + Varint.value v : Int).bmod (2 ^ 32) < 0 := by
    rw [Int.bmod_eq_of_le (by omega) (by omega)]
    omega
  rw [decoded, protobufDecode, hvar.read, Varint.read_append hv (by omega), Option.map_some]
  dsimp only
  rw [hsmall, List.drop_left, hparse]
  exact if_neg hrv

/-- A buffer in which every byte has its high bit set decodes to nothing. -/
theorem decoded_eq_none (hvar : pb.UsesVarints) {buf : List UInt8} (h : ∀ b ∈ buf, 128 ≤ b.toNat) :
    decoded pb buf = none := by
  rw [decoded, protobufDecode, hvar.read, Varint.read_eq_none h]
  rfl

/-! ## Streams -/

/-- The count of a message. -/
def countOf (pb : Protobuf) (msg : PushMsg) : List UInt8 := pb.writeVarint32 (pb.serialize msg).length

/-- What the server sends. -/
def stream (pb : Protobuf) (ms : List PushMsg) : List UInt8 :=
  ms.flatMap fun msg => countOf pb msg ++ pb.serialize msg

/-- Every message comes in one buffer, behind the last bytes of its count and before nothing else;
    the first bytes of the count may have come alone. -/
inductive Whole (pb : Protobuf) : List PushMsg → List (List UInt8) → Prop
  | nil : Whole pb [] []
  | cons {msg : PushMsg} {ms : List PushMsg} {pieces rest : List (List UInt8)} {s : List UInt8}
      (hs : s ≠ []) (hcount : pieces.flatten ++ s = countOf pb msg) (hrest : Whole pb ms rest) :
      Whole pb (msg :: ms) (pieces ++ (s ++ pb.serialize msg) :: rest)

/-- One byte over and over. -/
def Uniform (bs : List UInt8) : Prop := ∃ c, ∀ b ∈ bs, b = c

/-- What begins with itself, one byte later, is uniform. -/
theorem eq_of_shift {bs s r : List UInt8} {c : UInt8} (h : bs ++ s = c :: (bs ++ r)) :
    ∀ b ∈ bs, b = c := by
  induction bs generalizing c with
  | nil => exact nofun
  | cons b bs ih =>
    obtain ⟨rfl, htail⟩ := List.cons.inj h
    intro b' hb'
    rcases List.mem_cons.mp hb' with rfl | hb'
    · rfl
    · exact ih htail b' hb'

/-- What is assumed of the messages: their bytes parse back and are no other bytes' message, and are
    not uniform. -/
structure Parses (pb : Protobuf) (msg : PushMsg) : Prop where
  iff : ∀ bytes, pb.parse bytes = some msg ↔ bytes = pb.serialize msg
  varied : ¬ Uniform (pb.serialize msg)

/-- The count of a message that fits into a buffer. -/
theorem countOf_spec (hvar : pb.UsesVarints) {msg : PushMsg} (hlen : (pb.serialize msg).length ≤ 1024) :
    Varint.IsVarint (countOf pb msg) ∧ (countOf pb msg).length ≤ 2 := by
  rw [countOf, hvar.write _ (by omega)]
  exact ⟨Varint.write_isVarint (by omega) (by decide), Varint.write_length_le (by omega)⟩

/-- **Whole messages are decoded**, each once and in order. -/
theorem Whole.filterMap_decoded (hvar : pb.UsesVarints) {ms : List PushMsg} {bufs : List (List UInt8)}
    (h : Whole pb ms bufs) (hparse : ∀ msg ∈ ms, Parses pb msg) (hbufs : ∀ buf ∈ bufs, buf.length ≤ 1024) :
    bufs.filterMap (decoded pb) = ms := by
  induction h with
  | nil => rfl
  | @cons msg ms pieces rest s hs hcount hrest ih =>
    have hlen : (s ++ pb.serialize msg).length ≤ 1024 :=
      hbufs _ (List.mem_append_right _ List.mem_cons_self)
    rw [List.length_append] at hlen
    obtain ⟨hvarint, htwo⟩ := countOf_spec hvar (show (pb.serialize msg).length ≤ 1024 by omega)
    rw [← hcount] at hvarint htwo
    rw [List.length_append] at htwo
    obtain ⟨hvs, hhigh⟩ := hvarint.of_append hs
    have hpieces : pieces.filterMap (decoded pb) = [] := by
      rw [List.filterMap_eq_nil_iff]
      intro piece hpiece
      exact decoded_eq_none hvar fun b hb => hhigh b (List.mem_flatten.mpr ⟨piece, hpiece, hb⟩)
    have hmsg : decoded pb (s ++ pb.serialize msg) = some msg :=
      decoded_append hvar hvs (by omega) ((hparse msg List.mem_cons_self).iff _ |>.mpr rfl)
    rw [List.filterMap_append, hpieces, List.filterMap_cons_some hmsg,
      ih (fun m hm => hparse m (List.mem_cons_of_mem _ hm))
        (fun buf hbuf => hbufs buf (List.mem_append_right _ (List.mem_cons_of_mem _ hbuf)))]
    rfl

theorem stream_cons (pb : Protobuf) (msg : PushMsg) (ms : List PushMsg) :
    stream pb (msg :: ms) = countOf pb msg ++ (pb.serialize msg ++ stream pb ms) := by
  rw [stream, List.flatMap_cons, List.append_assoc]
  rfl

/-- The rest of what follows a message, if the message comes again a little later. -/
theorem exists_append_of_shift {a bs s r : List UInt8} (h : bs ++ s = a ++ (bs ++ r)) :
    ∃ w, s = w ++ r ∧ w.length = a.length := by
  have hlen := congrArg List.length h
  simp only [List.length_append] at hlen
  rw [← List.append_assoc] at h
  rcases List.append_eq_append_iff.mp h with ⟨w, hw, hs⟩ | ⟨w, hw, hr⟩
  · have hw := congrArg List.length hw
    simp only [List.length_append] at hw
    exact ⟨w, hs, by omega⟩
  · have hw := congrArg List.length hw
    have hr' := congrArg List.length hr
    simp only [List.length_append] at hw hr'
    obtain rfl : w = [] := List.length_eq_zero_iff.mp (by omega)
    exact ⟨[], hr.symm, by rw [List.length_nil]; omega⟩

/-- **Only whole messages are all decoded.**  `u` is what a buffer before has taken of the first
    message; the induction shows that it is one byte at most, and with none of it the first message
    that is decoded stands where it was sent. -/
theorem whole_of_filterMap (hvar : pb.UsesVarints) {ms : List PushMsg} {bufs : List (List UInt8)}
    {u : List UInt8} (hparse : ∀ msg ∈ ms, Parses pb msg)
    (hbufs : ∀ buf ∈ bufs, buf ≠ [] ∧ buf.length ≤ 1024) (hcut : stream pb ms = u ++ bufs.flatten)
    (hlog : bufs.filterMap (decoded pb) = ms) : u.length ≤ 1 ∧ (u = [] → Whole pb ms bufs) := by
  induction ms generalizing bufs u with
  | nil =>
    obtain ⟨rfl, hnil⟩ := List.append_eq_nil_iff.mp hcut.symm
    refine ⟨Nat.zero_le 1, fun _ => ?_⟩
    cases bufs with
    | nil => exact .nil
    | cons buf bufs =>
      rw [List.flatten_cons] at hnil
      exact absurd (List.append_eq_nil_iff.mp hnil).1 (hbufs buf List.mem_cons_self).1
  | cons msg ms ih =>
    obtain ⟨pieces, buf, rest, rfl, hpieces, hbuf, hrest⟩ := List.filterMap_eq_cons_iff.mp hlog
    have hmsg := hparse msg List.mem_cons_self
    obtain ⟨v, body, rfl, hv, hbody⟩ := eq_append_of_decoded hvar hbuf
    obtain rfl := (hmsg.iff body).mp hbody
    have hlen : (v ++ pb.serialize msg).length ≤ 1024 :=
      (hbufs _ (List.mem_append_right _ List.mem_cons_self)).2
    rw [List.length_append] at hlen
    have htwo := (countOf_spec hvar (show (pb.serialize msg).length ≤ 1024 by omega)).2
    have hvpos := hv.length_pos
    have hih : ∀ w, stream pb ms = w ++ rest.flatten → w.length ≤ 1 ∧ (w = [] → Whole pb ms rest) :=
      fun w hw => ih (fun m hm => hparse m (List.mem_cons_of_mem _ hm))
        (fun b hb => hbufs b (List.mem_append_right _ (List.mem_cons_of_mem _ hb))) hw hrest
    have heq : countOf pb msg ++ (pb.serialize msg ++ stream pb ms) =
        (u ++ pieces.flatten ++ v) ++ (pb.serialize msg ++ rest.flatten) := by
      rw [← stream_cons, hcut, List.flatten_append, List.flatten_cons]
      simp only [List.append_assoc]
    -- a message one byte off its place would be uniform, and it cannot be further off
    have hplace : u ++ pieces.flatten ++ v = countOf pb msg ∧ stream pb ms = rest.flatten := by
      rcases List.append_eq_append_iff.mp heq with ⟨a, ha, hshift⟩ | ⟨a, ha, hshift⟩
      · obtain ⟨w, hw, hwlen⟩ := exists_append_of_shift hshift
        have hone := (hih w hw).1
        cases a with
        | nil =>
          obtain rfl : w = [] := List.length_eq_zero_iff.mp hwlen
          exact ⟨ha.trans (List.append_nil _), hw⟩
        | cons c a =>
          obtain rfl : a = [] := List.length_eq_zero_iff.mp (by rw [List.length_cons] at hwlen; omega)
          exact absurd ⟨c, eq_of_shift hshift⟩ hmsg.varied
      · have hcount := congrArg List.length ha
        simp only [List.length_append] at hcount
        cases a with
        | nil =>
          exact ⟨(ha.trans (List.append_nil _)).symm, (List.append_cancel_left hshift).symm⟩
        | cons c a =>
          obtain rfl : a = [] := List.length_eq_zero_iff.mp (by rw [List.length_cons] at hcount; omega)
          exact absurd ⟨c, eq_of_shift hshift⟩ hmsg.varied
    have hcount := congrArg List.length hplace.1
    rw [List.length_append, List.length_append] at hcount
    refine ⟨by omega, ?_⟩
    rintro rfl
    exact .cons (List.length_pos_iff.mp hvpos) hplace.1 ((hih [] hplace.2).2 rfl)

/-- **The buffers give the messages back exactly if every message comes whole.** -/
theorem filterMap_decoded_iff (hvar : pb.UsesVarints) {ms : List PushMsg} {bufs : List (List UInt8)}
    (hparse : ∀ msg ∈ ms, Parses pb msg) (hbufs : ∀ buf ∈ bufs, buf ≠ [] ∧ buf.length ≤ 1024)
    (hcut : bufs.flatten = stream pb ms) : bufs.filterMap (decoded pb) = ms ↔ Whole pb ms bufs := by
  constructor
  · intro hlog
    exact (whole_of_filterMap (u := []) hvar hparse hbufs hcut.symm hlog).2 rfl
  · exact fun hwhole => hwhole.filterMap_decoded hvar hparse fun buf hbuf => (hbufs buf hbuf).2

/-! ## Runs -/

/-- The messages that were decoded. -/
def decodedMsgs (out : List Output) : List PushMsg :=
  out.filterMap fun
    | .decoded msg => some msg
    | _ => none

/-- What `recv` has put into the buffer. -/
abbrev RecvBuf := {buf : List UInt8 // 0 < buf.length ∧ buf.length ≤ 1024}

namespace FGWClientHandler

variable {h : FGWClientHandler}

/-- The handler takes a buffer for one message, in either state in which it decodes. -/
theorem decodedMsgs_onRead (pb : Protobuf) (hstate : h.state ≠ .unregistered) {buf : List UInt8}
    (hbuf : buf ≠ []) : decodedMsgs (h.onRead pb buf).2 = (Monsys.decoded pb buf).toList ∧
      (h.onRead pb buf).1.state ≠ .unregistered := by
  rw [onRead]
  split
  · next hun => exact absurd hun hstate
  · next hwait =>
    rw [onReadWaitForServer]
    cases Monsys.decoded pb buf with
    | none => exact ⟨rfl, hstate⟩
    | some msg =>
      dsimp only
      split
      · exact ⟨rfl, hstate⟩
      · refine ⟨rfl, ?_⟩
        rw [processLoginRsp]
        split
        · exact hstate
        · split
          · exact hstate
          · intro hun
            cases hun
  · next hreg =>
    rcases onReadRegistered_cases pb h hbuf with
      ⟨hdec, heq⟩ | ⟨msg, hdec, ⟨-, heq⟩ | ⟨-, -, heq⟩ | ⟨body, -, -, heq⟩⟩
    · rw [heq, hdec]
      exact ⟨rfl, hstate⟩
    · rw [heq, hdec]
      exact ⟨rfl, hstate⟩
    · rw [heq, hdec]
      exact ⟨rfl, hstate⟩
    · rw [heq, hdec]
      exact ⟨rfl, hstate⟩

end FGWClientHandler

namespace FGWClient

/-- What the client puts out over a row of events. -/
def outputs (pb : Protobuf) (c : FGWClient) : List Event → List Output
  | [] => []
  | e :: es => (c.step pb e).2 ++ outputs pb (c.next pb e) es

/-- A buffer is read; the answers of the other system calls do not matter. -/
def readEvent (sys : Sys) (buf : RecvBuf) : Event :=
  .client (.socket { sys with recv := .data buf.1 buf.2 })

/-- A connected client hands the buffer to its handler. -/
theorem step_readEvent (pb : Protobuf) {c : FGWClient} {h : FGWClientHandler} (hlive : ZClient.Live c)
    (hconn : c.state = .connected) (hh : c.handler = some h) (sys : Sys) (buf : RecvBuf) :
    c.step pb (readEvent sys buf) =
      ({ c with handler := some (h.onRead pb buf.1).1 }, (h.onRead pb buf.1).2) := by
  have hstep : c.step pb (readEvent sys buf) =
      ZClient.onConnected (FGWClientHandler.handlerClass pb) c c.fd
        { sys with recv := .data buf.1 buf.2 } :=
    hlive.step_connected hconn _
  rw [hstep, ZClient.onConnected]
  dsimp only
  rw [hh]
  rfl

/-- **Every buffer is decoded by itself**, by a handler that decodes at all. -/
theorem decodedMsgs_outputs (pb : Protobuf) {c : FGWClient} {h : FGWClientHandler}
    (hlive : ZClient.Live c) (hconn : c.state = .connected) (hh : c.handler = some h) (sys : Sys)
    (bufs : List RecvBuf) :
    decodedMsgs (c.outputs pb (bufs.map (readEvent sys))) =
      if h.state = .unregistered then [] else (bufs.map Subtype.val).filterMap (decoded pb) := by
  induction bufs generalizing c h with
  | nil => exact (ite_self _).symm
  | cons buf bufs ih =>
    have hstep := step_readEvent pb hlive hconn hh sys buf
    have hlive' : ZClient.Live { c with handler := some (h.onRead pb buf.1).1 } := hlive
    have hnext := ih hlive' hconn rfl
    rw [List.map_cons, outputs, next, hstep, decodedMsgs, List.filterMap_append]
    change decodedMsgs (h.onRead pb buf.1).2 ++ decodedMsgs (outputs pb _ _) = _
    rw [hnext]
    by_cases hstate : h.state = .unregistered
    · have hread : h.onRead pb buf.1 = h.onReadUnregistered := by
        rw [FGWClientHandler.onRead, hstate]
      rw [hread, if_pos hstate]
      exact if_pos hstate
    · obtain ⟨hmsgs, hstate'⟩ :=
        FGWClientHandler.decodedMsgs_onRead pb hstate (List.ne_nil_of_length_pos buf.2.1)
      rw [hmsgs, if_neg hstate, if_neg hstate', List.map_cons, List.filterMap_cons]
      cases decoded pb buf.1 <;> rfl

/-- **The messages of the server are decoded once each and in order, exactly if each comes whole**,
    and the handler is not in the state in which it decodes nothing. -/
theorem reassembled_iff (hvar : pb.UsesVarints) {c : FGWClient} {h : FGWClientHandler}
    (hlive : ZClient.Live c) (hconn : c.state = .connected) (hh : c.handler = some h) (sys : Sys)
    {ms : List PushMsg} (hparse : ∀ msg ∈ ms, Parses pb msg) {bufs : List RecvBuf}
    (hcut : (bufs.map Subtype.val).flatten = stream pb ms) :
    decodedMsgs (c.outputs pb (bufs.map (readEvent sys))) = ms ↔
      (h.state = .unregistered → ms = []) ∧ Whole pb ms (bufs.map Subtype.val) := by
  have hbufs : ∀ buf ∈ bufs.map Subtype.val, buf ≠ [] ∧ buf.length ≤ 1024 := by
    intro buf hbuf
    obtain ⟨b, -, rfl⟩ := List.mem_map.mp hbuf
    exact ⟨List.ne_nil_of_length_pos b.2.1, b.2.2⟩
  have hiff := filterMap_decoded_iff hvar hparse hbufs hcut
  rw [decodedMsgs_outputs pb hlive hconn hh]
  split
  · next hstate =>
    constructor
    · rintro rfl
      refine ⟨fun _ => rfl, hiff.mp (List.filterMap_eq_nil_iff.mpr fun buf hbuf => ?_)⟩
      have hnil := List.flatten_eq_nil_iff.mp hcut buf hbuf
      exact absurd hnil (hbufs buf hbuf).1
    · exact fun hall => (hall.1 hstate).symm
  · next hstate => rw [hiff, and_iff_right fun hun => absurd hun hstate]

/-- The sample's messages parse back. -/
theorem sample_parses {msg : PushMsg} (hmsg : msg = loginRspMsg ∨ msg = devListMsg) :
    Parses .sample msg := by
  rcases hmsg with rfl | rfl
  · refine ⟨Protobuf.ofTable_parse_iff (by decide) (by decide) (by decide), ?_⟩
    rintro ⟨c, hc⟩
    have h₁ : (0x08 : UInt8) = c := hc _ (by decide)
    have h₂ : (0x01 : UInt8) = c := hc _ (by decide)
    exact absurd (h₁.trans h₂.symm) (by decide)
  · refine ⟨Protobuf.ofTable_parse_iff (by decide) (by decide) (by decide), ?_⟩
    rintro ⟨c, hc⟩
    have h₁ : (0x08 : UInt8) = c := hc _ (by decide)
    have h₂ : (0x01 : UInt8) = c := hc _ (by decide)
    exact absurd (h₁.trans h₂.symm) (by decide)

/-- A client that has connected and sent its login message. -/
def sampleClient : FGWClient :=
  next .sample (init .sample .disconnected ZClient.sampleSys) (.client (.socket ZClient.sampleSys))

theorem sampleClient_live : ZClient.Live sampleClient :=
  (ZClient.init_live (FGWClientHandler.handlerClass .sample) (new .disconnected) ZClient.sampleSys).next
    id

/-- The answer to the login and a request come in a buffer each. -/
theorem reassembled_iff_two :
    decodedMsgs (sampleClient.outputs .sample ([⟨0x0A :: loginRspBytes, by decide⟩,
        ⟨0x0D :: devListBytes, by decide⟩].map (readEvent ZClient.sampleSys))) =
      [loginRspMsg, devListMsg] := by
  obtain ⟨h, hh⟩ : ∃ h, sampleClient.handler = some h := Option.isSome_iff_exists.mp (by decide)
  have hwait : ∀ h ∈ sampleClient.handler, h.state ≠ .unregistered := by decide
  have hwhole : Whole .sample [loginRspMsg, devListMsg]
      [0x0A :: loginRspBytes, 0x0D :: devListBytes] :=
    @Whole.cons _ _ _ [] _ [0x0A] nofun rfl (@Whole.cons _ _ _ [] _ [0x0D] nofun rfl .nil)
  have hparse : ∀ msg ∈ [loginRspMsg, devListMsg], Parses .sample msg := by
    intro msg hmsg
    rw [List.mem_cons, List.mem_singleton] at hmsg
    exact sample_parses hmsg
  refine (reassembled_iff (Protobuf.ofTable_usesVarints _) sampleClient_live rfl hh _ hparse rfl).mpr
    ⟨fun hun => absurd hun (hwait h hh), hwhole⟩

/-- A request comes in two buffers, and is lost. -/
theorem reassembled_fails :
    ¬ ∀ (pb : Protobuf), pb.UsesVarints →
      ∀ (c : FGWClient) (h : FGWClientHandler), ZClient.Live c → c.state = .connected →
      c.handler = some h → ∀ (sys : Sys) (ms : List PushMsg), (∀ msg ∈ ms, Parses pb msg) →
      ∀ bufs : List RecvBuf, (bufs.map Subtype.val).flatten = stream pb ms →
        decodedMsgs (c.outputs pb (bufs.map (readEvent sys))) = ms := by
  intro hall
  obtain ⟨h, hh⟩ : ∃ h, sampleClient.handler = some h := Option.isSome_iff_exists.mp (by decide)
  have hparse : ∀ msg ∈ [loginRspMsg], Parses .sample msg := by
    intro msg hmsg
    exact sample_parses (Or.inl (List.mem_singleton.mp hmsg))
  have hlog := hall .sample (Protobuf.ofTable_usesVarints _) sampleClient h sampleClient_live rfl hh
    ZClient.sampleSys [loginRspMsg] hparse
    [⟨[0x0A, 0x08, 0x01, 0x10], by decide⟩, ⟨[0x65, 0x18, 0x00, 0x5A, 0x02, 0x08, 0x00], by decide⟩] rfl
  exact absurd hlog (by decide)

end FGWClient

end Monsys
