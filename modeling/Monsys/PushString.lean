/-
  The string codec of `server/push_codec.h`.

  A `std::string` stands behind a two-byte count.  `encode` swaps the count before `putInt16` swaps
  it again, so that its low byte comes first, and `decode` undoes both.

  To take the bytes, `decode` calls `v.assign(raw, pos, len)`, where `raw` already points to the
  position `pos` of the block.  That is `assign` of a string: the bytes from `raw` up to a NUL become
  one, and `len` bytes of it are taken from `pos` on, as if it had begun with the block.  The string
  that comes back is so the bytes that stand `pos` behind those that were sent, and the target of an
  empty string is not touched.

  1. **The codec** — `encodeString`, `decodeString`.
  2. **What `assign` takes** — `taken_iff`.
  3. **Round trip** — `string_comes_back_iff`.
-/
import Monsys.PushRoundTrip
import Mathlib.Data.List.Infix

namespace Monsys

open Wire (Stop be16 ofBe16)

namespace PushCodec

open ZByteBuffer

/-! ## The codec -/

/-- `htons`, and `ntohs`. -/
def htons (v : UInt16) : UInt16 :=
  ofBe16 (UInt8.ofNat (v.toNat % 256)) (UInt8.ofNat (v.toNat / 256))

/-- `encode(const std::string &v, ZByteBuffer &buf)`. -/
def encodeString (v : List UInt8) : Code Int := do
  let len := UInt16.ofNat v.length
  failIf fun b => b.remaining < len.toNat + 2
  let _ ← putInt16 (htons len)
  if 0 < len then do
    let _ ← put v len.toNat
    return len.toNat + 2
  else return len.toNat + 2

/-- `std::string(raw)`: the bytes up to the first NUL.  Where the block has none behind `raw`, the
    search for it leaves the block. -/
def cString (raw : List UInt8) : Option (List UInt8) :=
  if 0 ∈ raw then some (raw.takeWhile (· ≠ 0)) else none

/-- `assign(str, pos, len)`; `none` is `std::out_of_range`. -/
def substr (str : List UInt8) (pos len : Nat) : Option (List UInt8) :=
  if pos ≤ str.length then some ((str.drop pos).take len) else none

/-- `if (buf.remaining() < len) { return -1; }`, then `v.assign(raw, pos, len)` and
    `buf.setPos(pos + len)`. -/
def assign (len : Nat) : Code (Option (List UInt8)) := fun b =>
  if h : len ≤ b.remaining then
    match cString (b.buf.drop b.pos) with
    | none => .error .fault
    | some str =>
      match substr str b.pos len with
      | none => .ok (none, b)
      | some v => .ok (some v, (b.fetch len h).2)
  else .error (.err (-1))

/-- `decode(std::string &v, ZByteBuffer &buf)`, with what `v` is after it; `none` where
    `std::out_of_range` leaves the function. -/
def decodeString (v : List UInt8) : Code (Option (Int × List UInt8)) := do
  failIf fun b => b.remaining < 2
  let len := htons (← getInt16)
  if 0 < len then do
    match ← assign len.toNat with
    | none => return none
    | some v => return some ((len.toNat : Int) + 2, v)
  else return some ((len.toNat : Int) + 2, v)

/-! ## What `assign` takes -/

/-- The bytes stand once more, `pos` behind the first of them, and no NUL comes before their end
    there; one comes later. -/
structure StandsAgain (s : List UInt8) (pos : Nat) (raw : List UInt8) : Prop where
  again : s <+: raw.drop pos
  noNul : 0 ∉ raw.take (pos + s.length)
  nul : 0 ∈ raw.drop (pos + s.length)

theorem cString_eq_some {raw str : List UInt8} :
    cString raw = some str ↔ 0 ∈ raw ∧ raw.takeWhile (· ≠ 0) = str := by
  unfold cString
  split
  · rename_i hmem
    rw [Option.some.injEq]
    exact ⟨fun h => ⟨hmem, h⟩, fun h => h.2⟩
  · rename_i hmem
    exact iff_of_false nofun fun h => hmem h.1

theorem substr_eq_some {str v : List UInt8} {pos len : Nat} :
    substr str pos len = some v ↔ pos ≤ str.length ∧ (str.drop pos).take len = v := by
  unfold substr
  split
  · rename_i hpos
    rw [Option.some.injEq]
    exact ⟨fun h => ⟨hpos, h⟩, fun h => h.2⟩
  · rename_i hpos
    exact iff_of_false nofun fun h => hpos h.1

theorem mem_takeWhile_ne {raw : List UInt8} : 0 ∉ raw.takeWhile (· ≠ 0) := by
  intro h
  have hne := List.all_eq_true.mp List.all_takeWhile 0 h
  exact absurd hne (by decide)

/-- Whatever `assign` took stands `pos` behind `raw`, before the first NUL. -/
theorem standsAgain_of_taken {s raw str : List UInt8} {pos : Nat} (hs : s ≠ [])
    (hstr : cString raw = some str) (htake : substr str pos s.length = some s) :
    StandsAgain s pos raw := by
  obtain ⟨hmem, rfl⟩ := cString_eq_some.mp hstr
  obtain ⟨hpos, hs'⟩ := substr_eq_some.mp htake
  have hlen := congrArg List.length hs'
  rw [List.length_take, List.length_drop] at hlen
  have hpositive := List.length_pos_iff.mpr hs
  obtain ⟨rest, hraw⟩ := List.takeWhile_prefix (l := raw) (· ≠ 0)
  have hfront : raw.take (pos + s.length) = (raw.takeWhile (· ≠ 0)).take (pos + s.length) := by
    conv => lhs; rw [← hraw]
    exact List.take_append_of_le_length (by omega)
  have hnone : 0 ∉ raw.take (pos + s.length) := by
    rw [hfront]
    exact fun h => mem_takeWhile_ne (List.mem_of_mem_take h)
  constructor
  · -- what is taken is the front of what stands there in the string, and so in the block
    have hthere : s <+: (raw.takeWhile (· ≠ 0)).drop pos :=
      List.prefix_iff_eq_take.mpr hs'.symm
    exact hthere.trans (List.IsPrefix.drop (List.takeWhile_prefix _) pos)
  · exact hnone
  · rw [← List.take_append_drop (pos + s.length) raw] at hmem
    exact (List.mem_append.mp hmem).resolve_left hnone

/-- The bytes up to the end of where it stands again belong to the C string. -/
theorem taken_of_standsAgain {s raw : List UInt8} {pos : Nat} (h : StandsAgain s pos raw) :
    ∃ str, cString raw = some str ∧ substr str pos s.length = some s := by
  have hlong : pos + s.length < raw.length := by
    have hpositive := List.length_pos_of_mem h.nul
    rw [List.length_drop] at hpositive
    omega
  have hmem : 0 ∈ raw := List.mem_of_mem_drop h.nul
  have hsplit : raw.takeWhile (· ≠ 0) =
      raw.take (pos + s.length) ++ (raw.drop (pos + s.length)).takeWhile (· ≠ 0) := by
    conv => lhs; rw [← List.take_append_drop (pos + s.length) raw]
    apply List.takeWhile_append_of_pos
    intro a ha
    exact decide_eq_true fun h0 => h.noNul (h0 ▸ ha)
  have hfront : (raw.take (pos + s.length)).length = pos + s.length :=
    List.length_take_of_le (Nat.le_of_lt hlong)
  refine ⟨_, cString_eq_some.mpr ⟨hmem, hsplit⟩, substr_eq_some.mpr ⟨?_, ?_⟩⟩
  · rw [List.length_append, hfront]
    omega
  · calc ((raw.take (pos + s.length) ++ (raw.drop (pos + s.length)).takeWhile (· ≠ 0)).drop
          pos).take s.length
        = ((raw.take (pos + s.length)).drop pos).take s.length := by
          rw [List.drop_append_of_le_length (by omega),
            List.take_append_of_le_length (by rw [List.length_drop]; omega)]
      _ = (raw.drop pos).take s.length := by
          rw [List.drop_take, Nat.add_sub_cancel_left, List.take_take, Nat.min_self]
      _ = s := (List.prefix_iff_eq_take.mp h.again).symm

/-- **What `assign` takes** is what was sent exactly where that stands again. -/
theorem taken_iff {s raw : List UInt8} {pos : Nat} (hs : s ≠ []) :
    (∃ str, cString raw = some str ∧ substr str pos s.length = some s) ↔ StandsAgain s pos raw :=
  ⟨fun ⟨_, hstr, htake⟩ => standsAgain_of_taken hs hstr htake, taken_of_standsAgain⟩

/-! ## Round trip -/

theorem htons_toNat (v : UInt16) : (htons v).toNat = v.toNat % 256 * 256 + v.toNat / 256 := by
  have hlt := v.toNat_lt
  rw [htons, Wire.ofBe16_toNat, UInt8.toNat_ofNat', UInt8.toNat_ofNat']
  omega

/-- Swapped twice, the count is itself. -/
theorem htons_htons (v : UInt16) : htons (htons v) = v := by
  have hlt := v.toNat_lt
  rw [← UInt16.toNat_inj, htons_toNat, htons_toNat]
  omega

/-- A string in the buffer. -/
def stringWire (s : List UInt8) : List UInt8 := be16 (htons (UInt16.ofNat s.length)) ++ s

theorem stringWire_length (s : List UInt8) : (stringWire s).length = s.length + 2 := by
  rw [stringWire, List.length_append, Wire.be16_length, Nat.add_comm]

theorem count_pos {s : List UInt8} (h : s.length ≤ 65535) :
    0 < UInt16.ofNat s.length ↔ s ≠ [] := by
  rw [UInt16.lt_iff_toNat_lt, lengthOfNat h]
  exact List.length_pos_iff

/-- The encoder writes the string, given that its length fits the count. -/
theorem writes_encodeString {s : List UInt8} (h : s.length ≤ 65535) :
    writing.Passes (encodeString s) (stringWire s) ((s.length : Int) + 2) := by
  refine .check (fun b hready => ?_) ?_
  · have hroom : (stringWire s).length ≤ b.remaining := hready
    rw [stringWire_length] at hroom
    rw [lengthOfNat h]
    exact decide_eq_false (by omega)
  · refine .bind (writes_putInt16 _) ?_
    rw [lengthOfNat h]
    by_cases hs : s = []
    · rw [if_neg (mt (count_pos h).mp (not_not.mpr hs)), hs]
      exact .ret _
    · rw [if_pos ((count_pos h).mpr hs)]
      exact (writes_put s).last

/-- A read of two bytes moves the position over them and leaves the rest as it is. -/
theorem getInt16_at {b : ZByteBuffer} {v : UInt16} {tail : List UInt8} (hroom : 2 ≤ b.remaining)
    (hat : b.buf.drop b.pos = be16 v ++ tail) :
    getInt16 b = .ok (v, (b.fetch 2 hroom).2) := by
  have hcopy : ZDataBuffer.copyLen b.remaining 2 = 2 := by
    unfold ZDataBuffer.copyLen; split <;> omega
  have hget : ZByteBuffer.get 2 b = .ok (be16 v, (b.fetch 2 hroom).2) := by
    unfold ZByteBuffer.get ZDataBuffer.get
    rw [if_pos (by rw [hcopy]; decide)]
    simp only [hcopy]
    apply congrArg Except.ok
    apply Prod.ext
    · show (b.buf.drop b.pos).take 2 = be16 v
      rw [hat]
      rfl
    · rfl
  have hcheck : failIf (fun b => b.remaining < 2) b = .ok ((), b) := by
    unfold failIf Tape.failIf
    rw [if_neg (by rw [decide_eq_true_eq]; omega)]
  show (failIf (fun b => b.remaining < 2) b >>= fun p => _) = _
  rw [hcheck]
  show (ZByteBuffer.get 2 b >>= fun p => _) = _
  rw [hget]
  show Except.ok (ofBe16 _ _, _) = _
  rw [Wire.ofBe16_be16]

/-- The decoder behind the count. -/
def decodeBytes (v : List UInt8) (len : UInt16) : Code (Option (Int × List UInt8)) := do
  if 0 < len then do
    match ← assign len.toNat with
    | none => return none
    | some v => return some ((len.toNat : Int) + 2, v)
  else return some ((len.toNat : Int) + 2, v)

theorem decodeString_eq (v : List UInt8) : decodeString v = (do
    failIf fun b => b.remaining < 2
    let len ← getInt16
    decodeBytes v (htons len)) := rfl

/-- At a string the decoder comes to its bytes. -/
theorem decodeString_at {v s after : List UInt8} {d : ZByteBuffer}
    (hat : d.buf.drop d.pos = stringWire s ++ after) (hroom : 2 ≤ d.remaining) :
    decodeString v d = decodeBytes v (UInt16.ofNat s.length) (d.fetch 2 hroom).2 := by
  have hcount : d.buf.drop d.pos = be16 (htons (UInt16.ofNat s.length)) ++ (s ++ after) := by
    rw [hat, stringWire, List.append_assoc]
  rw [decodeString_eq]
  show (failIf (fun b => b.remaining < 2) d >>= fun p => _) = _
  rw [failIf, Tape.failIf, if_neg (by rw [decide_eq_true_eq]; omega)]
  show (getInt16 d >>= fun p => _) = _
  rw [getInt16_at hroom hcount]
  show decodeBytes v (htons (htons _)) _ = _
  rw [htons_htons]

/-- Behind the count of a string that is not empty, the string is decoded where it stands again. -/
theorem decodeBytes_iff {v s : List UInt8} {d : ZByteBuffer} (h : s.length ≤ 65535) (hs : s ≠ [])
    (hroom : s.length ≤ d.remaining) :
    (∃ d', decodeBytes v (UInt16.ofNat s.length) d = .ok (some ((s.length : Int) + 2, s), d') ∧
      d'.pos = d.pos + s.length) ↔ StandsAgain s d.pos (d.buf.drop d.pos) := by
  rw [← taken_iff hs, decodeBytes, if_pos ((count_pos h).mpr hs), lengthOfNat h]
  show (∃ d', (assign s.length d >>= fun p => _) = _ ∧ _) ↔ _
  rw [assign, dif_pos hroom]
  constructor
  · rintro ⟨d', hrun, -⟩
    cases hstr : cString (d.buf.drop d.pos) with
    | none =>
      rw [hstr] at hrun
      cases hrun
    | some str =>
      rw [hstr] at hrun
      cases htake : substr str d.pos s.length with
      | none =>
        simp only [htake] at hrun
        cases hrun
      | some v' =>
        simp only [htake] at hrun
        cases hrun
        exact ⟨str, rfl, htake⟩
  · rintro ⟨str, hstr, htake⟩
    refine ⟨(d.fetch s.length hroom).2, ?_, rfl⟩
    rw [hstr]
    simp only [htake]
    rfl

/-- The string is encoded, and decoded where it was encoded, into a target that was `old`;
    `after` is what the block has behind it by then. -/
def RoundTrips (s old : List UInt8) (b : ZByteBuffer) (after : List UInt8) : Prop :=
  ∃ b', encodeString s b = .ok ((s.length : Int) + 2, b') ∧ b'.pos = b.pos + (s.length + 2) ∧
    ∀ d : ZByteBuffer, d.buf = b'.held ++ after → d.pos = b.pos → b'.pos ≤ d.limit →
      ∃ d', decodeString old d = .ok (some ((s.length : Int) + 2, s), d') ∧
        d'.pos = b.pos + (s.length + 2)

/-- An empty string for an empty target; any other one that stands again as far behind its first
    byte as that is from the start of the block. -/
def Retrievable (s old : List UInt8) (pos : Nat) (after : List UInt8) : Prop :=
  (s = [] ∧ old = []) ∨ (s ≠ [] ∧ StandsAgain s (pos + 2) (s ++ after))

/-- What the decoder makes of a string that was put where it starts. -/
theorem decodeString_iff {s old after : List UInt8} {d : ZByteBuffer} (h : s.length ≤ 65535)
    (hat : d.buf.drop d.pos = stringWire s ++ after) (hroom : s.length + 2 ≤ d.remaining) :
    (∃ d', decodeString old d = .ok (some ((s.length : Int) + 2, s), d') ∧
      d'.pos = d.pos + (s.length + 2)) ↔ Retrievable s old d.pos after := by
  have htwo : 2 ≤ d.remaining := by omega
  rw [decodeString_at hat htwo]
  by_cases hs : s = []
  · subst hs
    constructor
    · rintro ⟨d', hrun, -⟩
      cases hrun
      exact .inl ⟨rfl, rfl⟩
    · rintro (⟨-, hold⟩ | ⟨hne, -⟩)
      · subst hold
        exact ⟨_, rfl, rfl⟩
      · exact absurd rfl hne
  · have hrest : s.length ≤ (d.fetch 2 htwo).2.remaining := by
      show s.length ≤ d.limit - (d.pos + 2)
      unfold ZDataBuffer.remaining at hroom
      omega
    have hbytes : d.buf.drop (d.pos + 2) = s ++ after := by
      rw [← List.drop_drop, hat, stringWire, List.append_assoc]
      rfl
    have hbehind := decodeBytes_iff (v := old) h hs hrest
    have hiff : Retrievable s old d.pos after ↔ StandsAgain s (d.pos + 2) (s ++ after) :=
      ⟨fun hr => (hr.resolve_left fun he => hs he.1).2, fun hr => .inr ⟨hs, hr⟩⟩
    rw [hiff, ← hbytes]
    have hpos : d.pos + (s.length + 2) = d.pos + 2 + s.length := by omega
    rw [hpos]
    exact hbehind

/-- Whatever follows, the string stands at the position that it was put at. -/
theorem stands_at {s after : List UInt8} {b b' d : ZByteBuffer}
    (hheld : b'.held = b.held ++ stringWire s) (hbuf : d.buf = b'.held ++ after)
    (hpos : d.pos = b.pos) (hlimit : b'.pos ≤ d.limit) :
    d.buf.drop d.pos = stringWire s ++ after ∧ s.length + 2 ≤ d.remaining := by
  constructor
  · have hfront : d.pos = b.held.length := by rw [hpos, ZDataBuffer.held_length]
    rw [hbuf, hheld, List.append_assoc, hfront, List.drop_left]
  · have hmoved := pos_of_held hheld
    rw [stringWire_length] at hmoved
    show s.length + 2 ≤ d.limit - d.pos
    omega

theorem roundTrips_of_retrievable {s old after : List UInt8} {b : ZByteBuffer}
    (h : s.length ≤ 65535) (hroom : s.length + 2 ≤ b.remaining)
    (hr : Retrievable s old b.pos after) : RoundTrips s old b after := by
  rw [← stringWire_length] at hroom
  obtain ⟨b', hrun, hheld, -⟩ := writes_encodeString h b hroom
  refine ⟨b', hrun, ?_, fun d hbuf hpos hlimit => ?_⟩
  · rw [pos_of_held hheld, stringWire_length]
  · obtain ⟨hat, hleft⟩ := stands_at hheld hbuf hpos hlimit
    rw [← hpos] at hr ⊢
    exact (decodeString_iff h hat hleft).mpr hr

theorem retrievable_of_roundTrips {s old after : List UInt8} {b : ZByteBuffer}
    (h : s.length ≤ 65535) (hroom : s.length + 2 ≤ b.remaining)
    (hr : RoundTrips s old b after) : Retrievable s old b.pos after := by
  rw [← stringWire_length] at hroom
  obtain ⟨b', hrun, hheld, -⟩ := writes_encodeString h b hroom
  obtain ⟨b'', hrun', hpos, hback⟩ := hr
  have hsame : b'' = b' := by
    rw [hrun] at hrun'
    cases hrun'
    rfl
  subst hsame
  -- a buffer with what was put, what follows, and a limit right behind the string
  let d : ZByteBuffer := ⟨b''.held ++ after, b.pos, b''.pos, by omega, by
    rw [List.length_append, ZDataBuffer.held_length]
    omega⟩
  obtain ⟨hat, hleft⟩ := stands_at (d := d) hheld rfl rfl (Nat.le_refl _)
  exact (decodeString_iff h hat hleft).mp (hback d rfl rfl (Nat.le_refl _))

/-- **Round trip**: exactly the retrievable strings come back. -/
theorem string_comes_back_iff {s : List UInt8} (old : List UInt8) {b : ZByteBuffer}
    (after : List UInt8) (h : s.length ≤ 65535) (hroom : s.length + 2 ≤ b.remaining) :
    RoundTrips s old b after ↔ Retrievable s old b.pos after :=
  ⟨retrievable_of_roundTrips h hroom, roundTrips_of_retrievable h hroom⟩

/-- `A`, which stands again as the third byte, before a NUL. -/
theorem string_comes_back_periodic :
    RoundTrips [65] [] (ZDataBuffer.new (List.replicate 8 0)) [66, 65, 0] := by
  apply (string_comes_back_iff [] [66, 65, 0] (by decide) (by decide)).mpr
  refine .inr ⟨by decide, ?_, by decide, by decide⟩
  exact List.prefix_append [65] [0]

/-- `A` in a block of zeros. -/
theorem string_lost : ¬ ∀ (s old : List UInt8) (b : ZByteBuffer) (after : List UInt8),
    s.length ≤ 65535 → s.length + 2 ≤ b.remaining → RoundTrips s old b after := by
  intro hall
  have hback := hall [65] [] (ZDataBuffer.new (List.replicate 8 0)) (List.replicate 5 0)
    (by decide) (by decide)
  rcases retrievable_of_roundTrips (by decide) (by decide) hback with ⟨hs, -⟩ | ⟨-, hstands⟩
  · cases hs
  · exact absurd hstands.again (by decide)

end PushCodec

end Monsys
