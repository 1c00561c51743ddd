/-
  Encoders and the room they are given.

  `Wire.lean` says what an encoder writes where there is room.  This says when there is.

  1. **Pokes** — where a write of some bytes at a position ends.
  2. **Bounds** — `Bounded e size edges`: in a buffer of `n` bytes the encoder takes `size` of them
     and stays inside, or fails and stays inside; except at the sizes `edges`, where it writes
     behind the end.  The edges of a row of calls are those of its members, moved by what is
     written before them.
  3. **Turns** — `Leaves e bs stray A`: the encoder succeeds exactly with a room that `A` admits,
     and leaves `bs` and, behind the bytes it counts, perhaps a stray one.  A row succeeds exactly
     if each member is admitted when its turn comes.
  4. **Plain encoders** — those that check for exactly what they write.
-/
import Monsys.Lib.Wire

namespace Wire

/-! ## Pokes -/

theorem poke_length {out : List UInt8} {pos : Nat} (h : pos ≤ out.length) (new : List UInt8) :
    (poke out pos new).length = max out.length (pos + new.length) := by
  unfold poke
  simp only [List.length_append, List.length_take, List.length_drop]
  omega

/-- A poke never shortens what is there. -/
theorem le_poke_length (out new : List UInt8) (pos : Nat) :
    out.length ≤ (poke out pos new).length := by
  unfold poke
  simp only [List.length_append, List.length_take, List.length_drop]
  omega

/-- The bytes that calls have left, also where one has failed. -/
def outOf : Except Wrote Writer → List UInt8
  | .ok w => w.out
  | .error r => r.out

theorem outOf_call (w : Writer) (e : Encoder) :
    outOf (w.call e) = poke w.out w.pos (e w.room).out := by
  unfold Writer.call
  simp only
  split <;> rfl

/-- Calls never shorten what is there. -/
theorem le_outOf_calls (es : List Encoder) (w : Writer) :
    w.out.length ≤ (outOf (w.calls es)).length := by
  induction es generalizing w with
  | nil => exact Nat.le_refl _
  | cons e es ih =>
    have hcall := le_poke_length w.out (e w.room).out w.pos
    rw [← outOf_call] at hcall
    rw [Writer.calls]
    cases hc : w.call e with
    | error r => rw [hc] at hcall; exact hcall
    | ok w' => rw [hc] at hcall; exact Nat.le_trans hcall (ih w')

theorem encodeCallsWith_out (ret : Nat → Writer → Int) (es : List Encoder) (n : Nat) :
    (encodeCallsWith ret es n).out = outOf ((Writer.start n).calls es) := by
  rw [encodeCallsWith]
  cases (Writer.start n).calls es <;> rfl

/-! ## Bounds -/

/-- The encoder returns no more than the buffer's size, and writes only inside of it. -/
def Inside (e : Encoder) (n : Nat) : Prop := (e n).rv ≤ n ∧ (e n).out.length ≤ n

/-- Where the encoder stays inside the buffer, and where it does not. -/
structure Bounded (e : Encoder) (size : Nat) (edges : List Nat) : Prop where
  /-- There is room: it takes it. -/
  fits : ∀ n, n < 2 ^ 32 → n ∉ edges → size ≤ n →
    (e n).rv = toInt32 size ∧ size ≤ (e n).out.length ∧ (e n).out.length ≤ n
  /-- There is too little: it fails. -/
  fails : ∀ n, n < 2 ^ 32 → n ∉ edges → n < size → (e n).rv < 0 ∧ (e n).out.length ≤ n
  /-- It writes behind the end. -/
  oversteps : ∀ n, n < 2 ^ 32 → n ∈ edges → n < (e n).out.length

theorem toInt32_le (n : Nat) : toInt32 n ≤ n := by
  unfold toInt32
  split <;> omega

theorem Bounded.inside_iff {e : Encoder} {size : Nat} {edges : List Nat} (h : Bounded e size edges)
    {n : Nat} (hn : n < 2 ^ 32) : Inside e n ↔ n ∉ edges := by
  constructor
  · rintro ⟨_, hout⟩ hmem
    have hover := h.oversteps n hn hmem
    omega
  · intro hmem
    rcases Nat.lt_or_ge n size with hlt | hge
    · obtain ⟨hrv, hout⟩ := h.fails n hn hmem hlt
      exact ⟨by omega, hout⟩
    · obtain ⟨hrv, _, hout⟩ := h.fits n hn hmem hge
      have hle := toInt32_le size
      exact ⟨by omega, hout⟩

theorem toInt32_neg_iff (n : Nat) : toInt32 n < 0 ↔ 2 ^ 31 ≤ n % 2 ^ 32 := by
  unfold toInt32
  split <;> omega

/-- An encoder without edges fails for want of room, or returns a size that is no `int`. -/
theorem Bounded.rv_neg_iff {e : Encoder} {size : Nat} (h : Bounded e size []) {n : Nat}
    (hn : n < 2 ^ 32) : (e n).rv < 0 ↔ n < size ∨ 2 ^ 31 ≤ size := by
  rcases Nat.lt_or_ge n size with hlt | hge
  · exact iff_of_true (h.fails n hn List.not_mem_nil hlt).1 (Or.inl hlt)
  · rw [(h.fits n hn List.not_mem_nil hge).1, toInt32_neg_iff]
    omega

/-- Sizes and edges of a row of calls. -/
inductive BoundedRow : List Encoder → Nat → List Nat → Prop
  | nil : BoundedRow [] 0 []
  | cons {e : Encoder} {es : List Encoder} {size size' : Nat} {edges edges' : List Nat}
      (he : Bounded e size edges) (hlt : size < 2 ^ 31) (hes : BoundedRow es size' edges') :
      BoundedRow (e :: es) (size + size') (edges ++ edges'.map (size + ·))

theorem BoundedRow.append {es es' : List Encoder} {size size' : Nat} (h : BoundedRow es size [])
    (h' : BoundedRow es' size' []) : BoundedRow (es ++ es') (size + size') [] := by
  generalize hedges : ([] : List Nat) = edges at h
  induction h with
  | nil => rwa [List.nil_append, Nat.zero_add]
  | @cons e es s s' ed ed' he hlt hes ih =>
    obtain ⟨rfl, hmap⟩ := List.append_eq_nil_iff.mp hedges.symm
    obtain rfl := List.map_eq_nil_iff.mp hmap
    rw [List.cons_append, Nat.add_assoc]
    exact .cons he hlt (ih rfl)

/-- A loop of some calls for each element, all of one size and without edges. -/
theorem BoundedRow.flatMap {β : Type} {es : β → List Encoder} {size : Nat}
    (he : ∀ x, BoundedRow (es x) size []) (xs : List β) :
    BoundedRow (xs.flatMap es) (xs.length * size) [] := by
  induction xs with
  | nil =>
    rw [List.length_nil, Nat.zero_mul]
    exact .nil
  | cons x xs ih =>
    rw [List.flatMap_cons, List.length_cons, Nat.succ_mul, Nat.add_comm]
    exact (he x).append ih

/-- The bookkeeping of a caller in a buffer of `n` bytes, which has written inside of it. -/
structure Writer.Holds (w : Writer) (n : Nat) : Prop where
  pos_le : w.pos ≤ w.out.length
  out_le : w.out.length ≤ n
  room_eq : w.room = n - w.pos

theorem Writer.Holds.start (n : Nat) : (Writer.start n).Holds n :=
  ⟨Nat.le_refl _, Nat.zero_le _, rfl⟩

/-- Where some calls end that found a buffer of `n` bytes with `pos` of them counted. -/
structure Ends (n pos size : Nat) (edges : List Nat) (c : Except Wrote Writer) : Prop where
  fits : n - pos ∉ edges → size ≤ n - pos → ∃ w, c = .ok w ∧ w.Holds n ∧ w.pos = pos + size
  fails : n - pos ∉ edges → n - pos < size → ∃ r, c = .error r ∧ r.rv < 0 ∧ r.out.length ≤ n
  oversteps : n - pos ∈ edges → n < (outOf c).length

theorem Bounded.call {e : Encoder} {size : Nat} {edges : List Nat} (he : Bounded e size edges)
    (hsmall : size < 2 ^ 31) {n : Nat} (hn : n < 2 ^ 32) {w : Writer} (hw : w.Holds n) :
    Ends n w.pos size edges (w.call e) := by
  have hpos := hw.pos_le
  have hout := hw.out_le
  have hlen := poke_length hpos (e (n - w.pos)).out
  refine ⟨fun hmem hge => ?_, fun hmem hlt => ?_, fun hmem => ?_⟩
  · obtain ⟨hrv, hfull, hle⟩ := he.fits (n - w.pos) (by omega) hmem hge
    rw [toInt32_of_lt hsmall] at hrv
    refine ⟨⟨poke w.out w.pos (e (n - w.pos)).out, w.pos + size, n - w.pos - size⟩, ?_,
      ⟨?_, ?_, ?_⟩, rfl⟩
    · unfold Writer.call
      simp only [hw.room_eq, hrv, Int.toNat_natCast]
      rw [if_neg (by omega), subU32_of_le (by omega) hge]
    · show w.pos + size ≤ (poke w.out w.pos (e (n - w.pos)).out).length
      omega
    · show (poke w.out w.pos (e (n - w.pos)).out).length ≤ n
      omega
    · show n - w.pos - size = n - (w.pos + size)
      omega
  · obtain ⟨hrv, hle⟩ := he.fails (n - w.pos) (by omega) hmem hlt
    refine ⟨⟨(e (n - w.pos)).rv, poke w.out w.pos (e (n - w.pos)).out⟩, ?_, hrv, ?_⟩
    · unfold Writer.call
      simp only [hw.room_eq, if_pos hrv]
    · show (poke w.out w.pos (e (n - w.pos)).out).length ≤ n
      omega
  · have hover := he.oversteps (n - w.pos) (by omega) hmem
    rw [outOf_call, hw.room_eq]
    omega

/-- One behind the other. -/
theorem Ends.calls {n pos size size' : Nat} {edges edges' : List Nat} {c : Except Wrote Writer}
    (hc : Ends n pos size edges c) {es : List Encoder}
    (hes : ∀ w : Writer, w.Holds n → Ends n w.pos size' edges' (w.calls es)) :
    Ends n pos (size + size') (edges ++ edges'.map (size + ·)) (c.bind fun w => w.calls es) := by
  have hmap : ∀ {k : Nat}, k ∈ edges'.map (size + ·) ↔ size ≤ k ∧ k - size ∈ edges' := by
    intro k
    rw [List.mem_map]
    constructor
    · rintro ⟨j, hj, rfl⟩
      exact ⟨Nat.le_add_right _ _, by rwa [Nat.add_sub_cancel_left]⟩
    · rintro ⟨hle, hk⟩
      exact ⟨k - size, hk, by omega⟩
  refine ⟨fun hmem hge => ?_, fun hmem hlt => ?_, fun hmem => ?_⟩
  · obtain ⟨hmem1, hmem2⟩ := not_or.mp (List.mem_append.not.mp hmem)
    obtain ⟨w, rfl, hw, hwpos⟩ := hc.fits hmem1 (by omega)
    have hleft : n - w.pos = n - pos - size := by omega
    have hmem' : n - w.pos ∉ edges' := by
      rw [hleft]
      exact fun hk => hmem2 (hmap.mpr ⟨by omega, hk⟩)
    obtain ⟨w', hw', hholds, hpos'⟩ := (hes w hw).fits hmem' (by omega)
    exact ⟨w', hw', hholds, by omega⟩
  · obtain ⟨hmem1, hmem2⟩ := not_or.mp (List.mem_append.not.mp hmem)
    rcases Nat.lt_or_ge (n - pos) size with hlt1 | hge1
    · obtain ⟨r, rfl, hr⟩ := hc.fails hmem1 hlt1
      exact ⟨r, rfl, hr⟩
    · obtain ⟨w, rfl, hw, hwpos⟩ := hc.fits hmem1 hge1
      have hleft : n - w.pos = n - pos - size := by omega
      have hmem' : n - w.pos ∉ edges' := by
        rw [hleft]
        exact fun hk => hmem2 (hmap.mpr ⟨hge1, hk⟩)
      exact (hes w hw).fails hmem' (by omega)
  · by_cases hmem1 : n - pos ∈ edges
    · have hover := hc.oversteps hmem1
      cases c with
      | error r => exact hover
      | ok w => exact Nat.lt_of_lt_of_le hover (le_outOf_calls es w)
    · obtain ⟨hge, hmem2⟩ := hmap.mp ((List.mem_append.mp hmem).resolve_left hmem1)
      obtain ⟨w, rfl, hw, hwpos⟩ := hc.fits hmem1 hge
      have hleft : n - w.pos = n - pos - size := by omega
      exact (hes w hw).oversteps (hleft ▸ hmem2)

/-- **A row of calls** stays inside the buffer unless the buffer ends at an edge. -/
theorem BoundedRow.calls {es : List Encoder} {size : Nat} {edges : List Nat}
    (h : BoundedRow es size edges) {n : Nat} (hn : n < 2 ^ 32) :
    ∀ w : Writer, w.Holds n → Ends n w.pos size edges (w.calls es) := by
  induction h with
  | nil =>
    intro w hw
    refine ⟨fun _ _ => ⟨w, rfl, hw, rfl⟩, fun _ hlt => absurd hlt (Nat.not_lt_zero _), ?_⟩
    exact fun hmem => absurd hmem List.not_mem_nil
  | @cons e es size size' edges edges' he hlt _ ih =>
    intro w hw
    exact (he.call hlt hn hw).calls ih

/-- An encoder made of a row of calls, with what it returns at its end. -/
theorem BoundedRow.bounded {es : List Encoder} {size : Nat} {edges : List Nat}
    (h : BoundedRow es size edges) {ret : Nat → Writer → Int}
    (hret : ∀ n w, n < 2 ^ 32 → w.Holds n → ret n w = toInt32 w.pos) :
    Bounded (encodeCallsWith ret es) size edges where
  fits := by
    intro n hn hmem hge
    obtain ⟨w, hw, hholds, hpos⟩ := (h.calls hn _ (.start n)).fits hmem hge
    have hpos' : w.pos = size := hpos.trans (Nat.zero_add _)
    rw [encodeCallsWith, hw]
    refine ⟨?_, hpos' ▸ hholds.pos_le, hholds.out_le⟩
    show ret n w = _
    rw [hret n w hn hholds, hpos']
  fails := by
    intro n hn hmem hlt
    obtain ⟨r, hr, hrv, hout⟩ := (h.calls hn _ (.start n)).fails hmem hlt
    rw [encodeCallsWith, hr]
    exact ⟨hrv, hout⟩
  oversteps := by
    intro n hn hmem
    rw [encodeCallsWith_out]
    exact (h.calls hn _ (.start n)).oversteps hmem

theorem BoundedRow.bounded_calls {es : List Encoder} {size : Nat} {edges : List Nat}
    (h : BoundedRow es size edges) : Bounded (encodeCalls es) size edges :=
  h.bounded fun _ _ _ _ => rfl

theorem BoundedRow.bounded_byRoom {es : List Encoder} {size : Nat} {edges : List Nat}
    (h : BoundedRow es size edges) : Bounded (encodeCallsByRoom es) size edges := by
  refine h.bounded fun n w hn hw => ?_
  have hpos := hw.pos_le
  have hout := hw.out_le
  rw [hw.room_eq, subU32_of_le hn (by omega)]
  congr 1
  omega

theorem Writer.calls_concat (w : Writer) (es : List Encoder) (e : Encoder) :
    w.calls (es ++ [e]) = (w.calls es).bind fun w' => w'.call e := by
  induction es generalizing w with
  | nil =>
    show (w.call e).bind Except.ok = w.call e
    cases w.call e <;> rfl
  | cons e' es ih =>
    rw [List.cons_append, Writer.calls, Writer.calls]
    cases w.call e' with
    | error r => rfl
    | ok w' => exact ih w'

/-- A call that may take more than an `int` counts: inside the buffer all the same. -/
theorem Bounded.call_inside {e : Encoder} {size : Nat} {edges : List Nat} (he : Bounded e size edges)
    {n : Nat} (hn : n < 2 ^ 32) {w : Writer} (hw : w.Holds n) (hmem : n - w.pos ∉ edges) :
    (outOf (w.call e)).length ≤ n ∧ ∀ w', w.call e = .ok w' → w'.pos ≤ n := by
  have hpos := hw.pos_le
  have hout := hw.out_le
  obtain ⟨hrv, hle⟩ := (he.inside_iff (show n - w.pos < 2 ^ 32 by omega)).mpr hmem
  constructor
  · rw [outOf_call, hw.room_eq, poke_length hpos]
    omega
  · intro w' hw'
    unfold Writer.call at hw'
    simp only [hw.room_eq] at hw'
    split at hw'
    · cases hw'
    · obtain rfl := Except.ok.inj hw'
      show w.pos + (e (n - w.pos)).rv.toNat ≤ n
      omega

/-- A row and one call more leave what that call does behind the row. -/
theorem encodeCalls_concat_out (es : List Encoder) (e : Encoder) (n : Nat) :
    (encodeCalls (es ++ [e]) n).out =
      outOf (((Writer.start n).calls es).bind fun w => w.call e) := by
  rw [← Writer.calls_concat]
  exact encodeCallsWith_out _ _ _

/-- A call behind a row that has written behind the end. -/
theorem BoundedRow.not_inside_concat {es : List Encoder} {size : Nat} {edges : List Nat}
    (h : BoundedRow es size edges) (e : Encoder) {n : Nat} (hn : n < 2 ^ 32) (hmem : n ∈ edges) :
    ¬ Inside (encodeCalls (es ++ [e])) n := by
  intro hin
  have hover := (h.calls hn _ (.start n)).oversteps hmem
  have hle := hin.2
  rw [encodeCalls_concat_out] at hle
  cases hc : (Writer.start n).calls es with
  | error r =>
    rw [hc] at hover hle
    exact absurd hover (Nat.not_lt.mpr hle)
  | ok w =>
    rw [hc] at hover hle
    have hmore : w.out.length ≤ (outOf (w.call e)).length := by
      rw [outOf_call]
      exact le_poke_length _ _ _
    exact absurd (Nat.lt_of_lt_of_le hover hmore) (Nat.not_lt.mpr hle)

/-- A call behind a row that there is no room for. -/
theorem BoundedRow.inside_concat_of_lt {es : List Encoder} {size : Nat} {edges : List Nat}
    (h : BoundedRow es size edges) (e : Encoder) {n : Nat} (hn : n < 2 ^ 32) (hmem : n ∉ edges)
    (hlt : n < size) : Inside (encodeCalls (es ++ [e])) n := by
  obtain ⟨r, hr, hrv, hrout⟩ := (h.calls hn _ (.start n)).fails hmem hlt
  rw [Inside, encodeCalls, encodeCallsWith, Writer.calls_concat, hr]
  constructor
  · show r.rv ≤ n
    omega
  · exact hrout

/-- A call behind a row that fits stays inside exactly if it does so of what the row leaves. -/
theorem BoundedRow.inside_concat_iff {es : List Encoder} {size size' : Nat}
    {edges edges' : List Nat} (h : BoundedRow es size edges) {e : Encoder}
    (he : Bounded e size' edges') {n : Nat} (hn : n < 2 ^ 32) (hmem : n ∉ edges)
    (hge : size ≤ n) : Inside (encodeCalls (es ++ [e])) n ↔ n - size ∉ edges' := by
  obtain ⟨w, hw, hholds, hpos⟩ := (h.calls hn _ (.start n)).fits hmem hge
  have hpos' : w.pos = size := hpos.trans (Nat.zero_add _)
  have hout : (encodeCalls (es ++ [e]) n).out = outOf (w.call e) := by
    rw [encodeCalls_concat_out, hw]
    rfl
  rw [← hpos']
  constructor
  · intro hin hover
    have hlong := he.oversteps (n - w.pos) (by omega) hover
    have hle := hin.2
    rw [hout, outOf_call, hholds.room_eq, poke_length hholds.pos_le] at hle
    omega
  · intro hno
    obtain ⟨hle, hposle⟩ := he.call_inside hn hholds hno
    constructor
    · rw [encodeCalls, encodeCallsWith, Writer.calls_concat, hw]
      show (wrote (w.call e >>= fun w' => pure ⟨toInt32 w'.pos, w'.out⟩)).rv ≤ n
      cases hc : w.call e with
      | error r =>
        have hrv := Writer.call_error hc
        show r.rv ≤ n
        omega
      | ok w' =>
        have hp := hposle w' hc
        have hi := toInt32_le w'.pos
        show toInt32 w'.pos ≤ n
        omega
    · rw [hout]
      exact hle

/-- A row whose last call may take more than an `int` counts. -/
theorem BoundedRow.inside_last {es : List Encoder} {size size' : Nat} {edges edges' : List Nat}
    (h : BoundedRow es size edges) {e : Encoder} (he : Bounded e size' edges') {n : Nat}
    (hn : n < 2 ^ 32) :
    Inside (encodeCalls (es ++ [e])) n ↔ n ∉ edges ++ edges'.map (size + ·) := by
  rw [List.mem_append, List.mem_map, not_or]
  by_cases hmem : n ∈ edges
  · exact iff_of_false (h.not_inside_concat e hn hmem) (fun hno => hno.1 hmem)
  · rcases Nat.lt_or_ge n size with hlt | hge
    · refine iff_of_true (h.inside_concat_of_lt e hn hmem hlt) ⟨hmem, ?_⟩
      rintro ⟨k, -, rfl⟩
      omega
    · rw [h.inside_concat_iff he hn hmem hge]
      constructor
      · intro hno
        refine ⟨hmem, ?_⟩
        rintro ⟨k, hk, rfl⟩
        exact hno (by rwa [Nat.add_sub_cancel_left])
      · exact fun hno hin => hno.2 ⟨n - size, hin, by omega⟩

/-! ## Turns -/

/-- The encoder succeeds exactly with a room that `A` admits, and then leaves `bs`, which it counts,
    and `stray` behind it. -/
structure Leaves (e : Encoder) (bs stray : List UInt8) (A : Nat → Prop) : Prop where
  writes : ∀ n, n < 2 ^ 32 → A n → e n = ⟨bs.length, bs ++ stray⟩
  fails : ∀ n, n < 2 ^ 32 → ¬ A n → (e n).rv < 0
  admits : ∀ n, n < 2 ^ 32 → bs.length ≤ n → A n
  /-- What one call strays is covered by the next. -/
  stray_le : stray.length ≤ 1
  some_bytes : 1 ≤ (bs ++ stray).length

/-- A row of calls behind a stray `z`: the bytes, what strays behind them, and the rooms with which
    every call is admitted when its turn comes. -/
inductive LeavesRow : List UInt8 → List Encoder → List UInt8 → List UInt8 → (Nat → Prop) → Prop
  | nil (z : List UInt8) : LeavesRow z [] [] z fun _ => True
  | cons {z z' z'' bs bs' : List UInt8} {e : Encoder} {es : List Encoder} {A A' : Nat → Prop}
      (he : Leaves e bs z' A) (hes : LeavesRow z' es bs' z'' A') :
      LeavesRow z (e :: es) (bs ++ bs') z'' fun n => A n ∧ A' (subU32 n bs.length)

theorem poke_stray {acc z bs z' : List UInt8} (hz : z.length ≤ (bs ++ z').length) :
    poke (acc ++ z) acc.length (bs ++ z') = acc ++ bs ++ z' := by
  unfold poke
  rw [List.take_left, List.drop_append, List.drop_eq_nil_of_le (by omega),
    List.drop_eq_nil_of_le (by omega), List.nil_append, List.append_nil, List.append_assoc]

/-- **A row of calls** succeeds exactly if each call is admitted when its turn comes. -/
theorem LeavesRow.calls {z bs z' : List UInt8} {es : List Encoder} {A : Nat → Prop}
    (h : LeavesRow z es bs z' A) {n : Nat} (hz : z.length ≤ 1) : ∀ acc : List UInt8,
    (A (subU32 n acc.length) →
      (Writer.mk (acc ++ z) acc.length (subU32 n acc.length)).calls es =
        .ok ⟨acc ++ bs ++ z', (acc ++ bs).length, subU32 n (acc ++ bs).length⟩) ∧
    (¬ A (subU32 n acc.length) →
      ∃ r, (Writer.mk (acc ++ z) acc.length (subU32 n acc.length)).calls es = .error r) := by
  induction h with
  | nil z =>
    intro acc
    refine ⟨fun _ => ?_, fun hno => absurd trivial hno⟩
    rw [List.append_nil]
    rfl
  | @cons z z' z'' bs bs' e es A A' he _ ih =>
    intro acc
    have hroom := subU32_lt n acc.length
    by_cases hA : A (subU32 n acc.length)
    · have hcall : (Writer.mk (acc ++ z) acc.length (subU32 n acc.length)).call e =
          .ok ⟨acc ++ bs ++ z', (acc ++ bs).length, subU32 n (acc ++ bs).length⟩ := by
        unfold Writer.call
        simp only [he.writes _ hroom hA, Int.toNat_natCast, subU32_subU32, List.length_append]
        rw [if_neg (by omega), poke_stray (Nat.le_trans hz he.some_bytes)]
      obtain ⟨hok, herr⟩ := ih he.stray_le (acc ++ bs)
      have hsub : subU32 n (acc ++ bs).length = subU32 (subU32 n acc.length) bs.length := by
        rw [subU32_subU32, List.length_append]
      rw [Writer.calls, hcall]
      constructor
      · rintro ⟨_, hA'⟩
        have hrest := hok (hsub ▸ hA')
        rw [List.append_assoc acc bs bs'] at hrest
        exact hrest
      · intro hno
        exact herr fun hA' => hno ⟨hA, hsub ▸ hA'⟩
    · refine ⟨fun hyes => absurd hyes.1 hA, fun _ => ?_⟩
      let r := e (subU32 n acc.length)
      refine ⟨⟨r.rv, poke (acc ++ z) acc.length r.out⟩, ?_⟩
      rw [Writer.calls]
      unfold Writer.call
      simp only [r, if_pos (he.fails _ hroom hA)]
      rfl

/-- What an encoder made of a row of calls does. -/
theorem LeavesRow.encodeCallsWith {bs z' : List UInt8} {es : List Encoder} {A : Nat → Prop}
    (h : LeavesRow [] es bs z' A) (ret : Nat → Writer → Int) {n : Nat} (hn : n < 2 ^ 32) :
    (A n → encodeCallsWith ret es n =
      ⟨ret n ⟨bs ++ z', bs.length, subU32 n bs.length⟩, bs ++ z'⟩) ∧
    (¬ A n → (encodeCallsWith ret es n).rv < 0) := by
  obtain ⟨hok, herr⟩ := h.calls (n := n) (Nat.zero_le 1) []
  rw [List.append_nil, List.length_nil, subU32_of_le hn (Nat.zero_le n), Nat.sub_zero] at hok herr
  constructor
  · intro hA
    have hrun : (Writer.start n).calls es = _ := hok hA
    rw [Wire.encodeCallsWith, hrun]
    rfl
  · intro hno
    obtain ⟨r, hr⟩ := herr hno
    have hrun : (Writer.start n).calls es = .error r := hr
    rw [Wire.encodeCallsWith, hrun]
    exact Writer.calls_error es hrun

/-- Room for all is room for each in turn. -/
theorem LeavesRow.admits {z bs z' : List UInt8} {es : List Encoder} {A : Nat → Prop}
    (h : LeavesRow z es bs z' A) : ∀ n, n < 2 ^ 32 → bs.length ≤ n → A n := by
  induction h with
  | nil z => exact fun _ _ _ => trivial
  | @cons z z' z'' bs bs' e es A A' he _ ih =>
    intro n hn hle
    rw [List.length_append] at hle
    refine ⟨he.admits n hn (by omega), ih _ (subU32_lt _ _) ?_⟩
    rw [subU32_of_le hn (by omega)]
    omega

/-- A row of calls as one encoder. -/
theorem LeavesRow.leaves {bs z' : List UInt8} {es : List Encoder} {A : Nat → Prop}
    (h : LeavesRow [] es bs z' A) (hlen : bs.length < 2 ^ 31) (hz : z'.length ≤ 1)
    (hsome : 1 ≤ (bs ++ z').length) : Leaves (encodeCalls es) bs z' A where
  writes := by
    intro n hn hA
    rw [encodeCalls, (h.encodeCallsWith _ hn).1 hA, toInt32_of_lt hlen]
  fails := fun n hn hno => (h.encodeCallsWith _ hn).2 hno
  admits := h.admits
  stray_le := hz
  some_bytes := hsome

/-- Each of a list's elements is admitted when its turn comes. -/
def RoomFor {β : Type} (A : β → Nat → Prop) (size : β → Nat) : List β → Nat → Prop
  | [], _ => True
  | x :: xs, n => A x n ∧ RoomFor A size xs (subU32 n (size x))

/-- A loop of calls, one for each element. -/
theorem LeavesRow.map {β : Type} {e : β → Encoder} {enc : β → List UInt8} {stray : List UInt8}
    {A : β → Nat → Prop} (he : ∀ x, Leaves (e x) (enc x) stray (A x)) : ∀ (xs : List β) (z : List UInt8),
    LeavesRow z (xs.map e) (xs.flatMap enc) (if xs = [] then z else stray)
      (RoomFor A (fun x => (enc x).length) xs) := by
  intro xs
  induction xs with
  | nil => exact fun z => .nil z
  | cons x xs ih =>
    intro z
    have hrest := ih stray
    rw [ite_self] at hrest
    exact .cons (he x) hrest

/-- An encoder without edges that emits its bytes. -/
theorem Bounded.leaves {e : Encoder} {bs : List UInt8} (h : Bounded e bs.length [])
    (he : Emits e bs) (hlen : 1 ≤ bs.length) : Leaves e bs [] (bs.length ≤ ·) where
  writes := by
    intro n hn hA
    rw [he.fits n hn hA, List.append_nil]
  fails := fun n hn hno => (h.fails n hn List.not_mem_nil (Nat.not_le.mp hno)).1
  admits := fun _ _ hle => hle
  stray_le := Nat.zero_le 1
  some_bytes := by rwa [List.append_nil]

/-! ## Plain encoders -/

/-- An encoder that checks for exactly the bytes it writes. -/
def plain (bs : List UInt8) : Encoder := fun n =>
  if n < bs.length then ⟨-1, []⟩ else ⟨bs.length, bs⟩

theorem plain_leaves {bs : List UInt8} (hlen : 1 ≤ bs.length) :
    Leaves (plain bs) bs [] (bs.length ≤ ·) where
  writes := by
    intro n _ hA
    rw [plain, if_neg (Nat.not_lt.mpr hA), List.append_nil]
  fails := by
    intro n _ hno
    rw [plain, if_pos (Nat.not_le.mp hno)]
    decide
  admits := fun _ _ hle => hle
  stray_le := Nat.zero_le 1
  some_bytes := by rwa [List.append_nil]

theorem plain_bounded {bs : List UInt8} (hlen : bs.length < 2 ^ 31) :
    Bounded (plain bs) bs.length [] where
  fits := by
    intro n _ _ hle
    rw [plain, if_neg (Nat.not_lt.mpr hle), toInt32_of_lt hlen]
    exact ⟨rfl, Nat.le_refl _, hle⟩
  fails := by
    intro n _ _ hlt
    rw [plain, if_pos hlt]
    exact ⟨by decide, Nat.zero_le n⟩
  oversteps := fun _ _ hmem => absurd hmem List.not_mem_nil

end Wire
