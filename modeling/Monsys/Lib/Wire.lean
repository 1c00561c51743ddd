/-
  Codecs in the C manner.

  An encoder is handed a buffer of `room` bytes and says how many it used; a decoder is handed a
  buffer and says how many it read, with the value.  A negative count is an error that every
  caller hands on.  The caller then moves its pointer forward and its `room` down, in 32-bit
  unsigned arithmetic.

  1. **Encoders** — `Encoder`, what one call leaves behind (`Wrote`), and the caller's bookkeeping
     (`Writer`, `Writer.call`).  The bytes are kept also when the call fails: they were written.
     Most encoders are a row of calls to others, `encodeCalls`.
  2. **Decoders** — `Decoder`, `Reader`, `Reader.call`.  `Stop.fault` is a read outside of the
     memory the buffer stands in, which no error code reports.
  3. **What a codec does, as a relation to a byte string** — `Writes e bs`: whenever `e` succeeds
     it wrote `bs` and returned their number (as an `int`); `Fits e bs`: it succeeds whenever there
     is room; `Reads d bs a`: `d` takes `bs` off the front, whatever follows, and yields `a`.  A row
     of calls `Spells` the bytes of its members one after the other.
  4. **Network byte order** — `be16`, `be32` and their inverses.
-/
import Mathlib.Algebra.Ring.Int.Defs
import Mathlib.Algebra.Ring.Nat
import Mathlib.Data.List.Basic
import Mathlib.Data.List.Flatten

namespace Wire

/-! ## Machine integers -/

/-- `a - b` on `uint32_t`. -/
def subU32 (a b : Nat) : Nat := (a + 2 ^ 32 - b % 2 ^ 32) % 2 ^ 32

/-- A count as the `int` it is returned in. -/
def toInt32 (n : Nat) : Int :=
  if n % 2 ^ 32 < 2 ^ 31 then (n % 2 ^ 32 : Nat) else (n % 2 ^ 32 : Nat) - 2 ^ 32

theorem subU32_of_le {a b : Nat} (ha : a < 2 ^ 32) (hb : b ≤ a) : subU32 a b = a - b := by
  unfold subU32; omega

theorem subU32_lt (a b : Nat) : subU32 a b < 2 ^ 32 := Nat.mod_lt _ (by decide)

theorem subU32_subU32 (a b c : Nat) : subU32 (subU32 a b) c = subU32 a (b + c) := by
  unfold subU32; omega

theorem subU32_self_sub {a b : Nat} (ha : a < 2 ^ 32) : subU32 a (subU32 a b) = b % 2 ^ 32 := by
  unfold subU32; omega

theorem toInt32_of_lt {n : Nat} (h : n < 2 ^ 31) : toInt32 n = n := by
  unfold toInt32; rw [Nat.mod_eq_of_lt (by omega), if_pos h]

theorem toInt32_mod (n : Nat) : toInt32 (n % 2 ^ 32) = toInt32 n := by
  unfold toInt32; rw [Nat.mod_mod]

/-! ## Encoders -/

/-- What a call to an encoder leaves: the value returned, and the bytes at the buffer's start. -/
structure Wrote where
  rv : Int
  out : List UInt8
deriving DecidableEq, Repr

/-- An encoder of one value, given the bytes of room in the buffer. -/
abbrev Encoder := Nat → Wrote

/-- Put `new` at index `pos` over the bytes already there. -/
def poke (out : List UInt8) (pos : Nat) (new : List UInt8) : List UInt8 :=
  out.take pos ++ new ++ out.drop (pos + new.length)

theorem poke_end (out new : List UInt8) : poke out out.length new = out ++ new := by
  unfold poke
  rw [List.take_length, List.drop_eq_nil_of_le (by omega), List.append_nil]

/-- The caller's bookkeeping: bytes written from the buffer's start, the pointer's distance from
    it, and the room left. -/
structure Writer where
  out : List UInt8
  pos : Nat
  room : Nat
deriving DecidableEq, Repr

/-- `rv = encode(.., buf, buf_len); if (rv < 0) return rv; buf += rv; buf_len -= rv;` -/
def Writer.call (w : Writer) (e : Encoder) : Except Wrote Writer :=
  let r := e w.room
  let out := poke w.out w.pos r.out
  if r.rv < 0 then .error ⟨r.rv, out⟩
  else .ok ⟨out, w.pos + r.rv.toNat, subU32 w.room r.rv.toNat⟩

/-- A row of calls. -/
def Writer.calls (w : Writer) : List Encoder → Except Wrote Writer
  | [] => .ok w
  | e :: es => (w.call e).bind fun w' => w'.calls es

/-- What an encoder returns, early or at its end. -/
def wrote : Except Wrote Wrote → Wrote
  | .ok r => r
  | .error r => r

/-- The bookkeeping before anything is written. -/
def Writer.start (n : Nat) : Writer := ⟨[], 0, n⟩

/-- An encoder that is a row of calls; `ret` is what it returns at its end, from the room it was
    given and its bookkeeping. -/
def encodeCallsWith (ret : Nat → Writer → Int) (es : List Encoder) : Encoder := fun n => wrote do
  let w ← (Writer.start n).calls es
  return ⟨ret n w, w.out⟩

/-- `return encode_len;` -/
def encodeCalls (es : List Encoder) : Encoder := encodeCallsWith (fun _ w => toInt32 w.pos) es

/-- `return old_buf_len - buf_len;` -/
def encodeCallsByRoom (es : List Encoder) : Encoder :=
  encodeCallsWith (fun n w => toInt32 (subU32 n w.room)) es

/-- The bookkeeping of a caller that began with `n` bytes of room and has written `bs`. -/
def Writer.at (bs : List UInt8) (n : Nat) : Writer := ⟨bs, bs.length, subU32 n bs.length⟩

theorem Writer.start_eq {n : Nat} (hn : n < 2 ^ 32) : Writer.start n = Writer.at [] n := by
  unfold Writer.start Writer.at
  rw [List.length_nil, subU32_of_le hn (Nat.zero_le n), Nat.sub_zero]

/-- The room given minus the room left, as an `int`: the bytes written. -/
theorem Writer.toInt32_room (bs : List UInt8) {n : Nat} (hn : n < 2 ^ 32) :
    toInt32 (subU32 n (Writer.at bs n).room) = toInt32 bs.length := by
  show toInt32 (subU32 n (subU32 n bs.length)) = _
  rw [subU32_self_sub hn, toInt32_mod]

/-- Whenever the encoder succeeds, it has written `bs` and returned how much that is. -/
def Writes (e : Encoder) (bs : List UInt8) : Prop :=
  ∀ n, n < 2 ^ 32 → 0 ≤ (e n).rv → e n = ⟨toInt32 bs.length, bs⟩

/-- Given room for `bs`, the encoder succeeds in writing it. -/
def Fits (e : Encoder) (bs : List UInt8) : Prop :=
  ∀ n, n < 2 ^ 32 → bs.length ≤ n → e n = ⟨bs.length, bs⟩

/-- A failed call returns something negative. -/
theorem Writer.call_error {e : Encoder} {w : Writer} {r : Wrote} (h : w.call e = .error r) :
    r.rv < 0 := by
  unfold Writer.call at h
  simp only at h
  split at h <;> rename_i hrv
  · obtain rfl := Except.error.inj h; exact hrv
  · cases h

theorem Writer.calls_error : ∀ (es : List Encoder) {w : Writer} {r : Wrote},
    w.calls es = .error r → r.rv < 0 := by
  intro es
  induction es with
  | nil => intro w r h; exact absurd h (by simp [Writer.calls])
  | cons e es ih =>
    intro w r h
    rw [Writer.calls] at h
    cases hc : w.call e with
    | error r' => rw [hc] at h; obtain rfl := Except.error.inj h; exact Writer.call_error hc
    | ok w' => rw [hc] at h; exact ih h

/-- A call that succeeds in writing the caller's last bytes, however many. -/
theorem Writer.call_out {e : Encoder} {bs new : List UInt8} {n : Nat} (he : Writes e new)
    {w' : Writer} (h : (Writer.at bs n).call e = .ok w') :
    w'.out = bs ++ new ∧ w'.pos = bs.length + (toInt32 new.length).toNat ∧
      w'.room = subU32 n (bs.length + (toInt32 new.length).toNat) := by
  unfold Writer.call at h
  simp only at h
  split at h <;> rename_i hrv
  · cases h
  · have heq : e (subU32 n bs.length) = ⟨toInt32 new.length, new⟩ :=
      he _ (subU32_lt _ _) (Int.not_lt.mp hrv)
    simp only [Writer.at, heq] at h
    obtain rfl := Except.ok.inj h
    exact ⟨poke_end bs new, rfl, subU32_subU32 _ _ _⟩

/-- A call that succeeds in writing: the caller has written that much more. -/
theorem Writer.call_writes {e : Encoder} {bs new : List UInt8} {n : Nat} (he : Writes e new)
    (hlen : new.length < 2 ^ 31) {w' : Writer} (h : (Writer.at bs n).call e = .ok w') :
    w' = Writer.at (bs ++ new) n := by
  obtain ⟨hout, hpos, hroom⟩ := Writer.call_out he h
  rw [toInt32_of_lt hlen, Int.toNat_natCast] at hpos hroom
  obtain ⟨out, pos, room⟩ := w'
  simp only at hout hpos hroom
  rw [hout, hpos, hroom, Writer.at, List.length_append]

/-- A call for which there is room. -/
theorem Writer.call_fits {e : Encoder} {bs new : List UInt8} {n : Nat} (he : Fits e new)
    (hn : n < 2 ^ 32) (hroom : bs.length + new.length ≤ n) :
    (Writer.at bs n).call e = .ok (Writer.at (bs ++ new) n) := by
  have heq : e (subU32 n bs.length) = ⟨new.length, new⟩ :=
    he _ (subU32_lt _ _) (by rw [subU32_of_le hn (by omega)]; omega)
  unfold Writer.call
  simp only [Writer.at, heq, poke_end, List.length_append, Int.toNat_natCast, subU32_subU32]
  rw [if_neg (by omega)]

/-- An encoder of short byte strings: it writes `bs`, and does so whenever there is room. -/
structure Emits (e : Encoder) (bs : List UInt8) : Prop where
  writes : Writes e bs
  fits : Fits e bs
  length_lt : bs.length < 2 ^ 31

/-- The bytes a row of calls writes. -/
inductive Spells : List Encoder → List UInt8 → Prop
  | nil : Spells [] []
  | cons {e : Encoder} {es : List Encoder} {bs rest : List UInt8} (he : Emits e bs)
      (hes : Spells es rest) : Spells (e :: es) (bs ++ rest)

theorem Spells.append {es es' : List Encoder} {bs bs' : List UInt8} (h : Spells es bs)
    (h' : Spells es' bs') : Spells (es ++ es') (bs ++ bs') := by
  induction h with
  | nil => exact h'
  | cons he _ ih =>
    rw [List.append_assoc]
    exact Spells.cons he ih

theorem Spells.single {e : Encoder} {bs : List UInt8} (he : Emits e bs) : Spells [e] bs := by
  have h := Spells.cons he Spells.nil
  rwa [List.append_nil] at h

/-- A loop of calls, one for each element. -/
theorem Spells.map {β : Type} {e : β → Encoder} {enc : β → List UInt8}
    (he : ∀ x, Emits (e x) (enc x)) : ∀ xs : List β, Spells (xs.map e) (xs.flatMap enc) := by
  intro xs
  induction xs with
  | nil => exact Spells.nil
  | cons x xs ih => exact Spells.cons (he x) ih

/-- A loop of several calls for each element. -/
theorem Spells.flatMap {β : Type} {es : β → List Encoder} {enc : β → List UInt8}
    (he : ∀ x, Spells (es x) (enc x)) :
    ∀ xs : List β, Spells (xs.flatMap es) (xs.flatMap enc) := by
  intro xs
  induction xs with
  | nil => exact Spells.nil
  | cons x xs ih => exact (he x).append ih

/-- A row of calls that succeeds has written its bytes. -/
theorem Writer.calls_writes {es : List Encoder} {bs : List UInt8} (h : Spells es bs) {n : Nat} :
    ∀ {pre : List UInt8} {w' : Writer}, (Writer.at pre n).calls es = .ok w' →
      w' = Writer.at (pre ++ bs) n := by
  induction h with
  | nil => intro pre w' h; obtain rfl := Except.ok.inj h; rw [List.append_nil]
  | @cons e es bs rest he _ ih =>
    intro pre w' h
    rw [Writer.calls] at h
    cases hc : (Writer.at pre n).call e with
    | error r => rw [hc] at h; exact absurd h (by simp [Except.bind])
    | ok w =>
      rw [hc] at h
      obtain rfl := Writer.call_writes he.writes he.length_lt hc
      rw [ih h, List.append_assoc]

/-- A row of calls whose last may write more than an `int` counts. -/
theorem Writer.calls_last {es : List Encoder} {bs : List UInt8} (h : Spells es bs) {e : Encoder}
    {new : List UInt8} (he : Writes e new) {n : Nat} :
    ∀ {pre : List UInt8} {w' : Writer}, (Writer.at pre n).calls (es ++ [e]) = .ok w' →
      w'.out = pre ++ bs ++ new ∧ w'.pos = (pre ++ bs).length + (toInt32 new.length).toNat := by
  induction h with
  | nil =>
    intro pre w' h
    rw [List.nil_append, Writer.calls] at h
    cases hc : (Writer.at pre n).call e with
    | error r => rw [hc] at h; exact absurd h (by simp [Except.bind])
    | ok w =>
      rw [hc] at h
      obtain rfl := Except.ok.inj h
      obtain ⟨hout, hpos, _⟩ := Writer.call_out he hc
      rw [List.append_nil]
      exact ⟨hout, hpos⟩
  | @cons e' es bs rest he' _ ih =>
    intro pre w' h
    rw [List.cons_append, Writer.calls] at h
    cases hc : (Writer.at pre n).call e' with
    | error r => rw [hc] at h; exact absurd h (by simp [Except.bind])
    | ok w =>
      rw [hc] at h
      obtain rfl := Writer.call_writes he'.writes he'.length_lt hc
      obtain ⟨hout, hpos⟩ := ih h
      exact ⟨by rw [hout]; simp only [List.append_assoc], by rw [hpos, List.append_assoc]⟩

/-- A row of calls for which there is room. -/
theorem Writer.calls_fits {es : List Encoder} {bs : List UInt8} (h : Spells es bs) {n : Nat}
    (hn : n < 2 ^ 32) : ∀ {pre : List UInt8}, pre.length + bs.length ≤ n →
      (Writer.at pre n).calls es = .ok (Writer.at (pre ++ bs) n) := by
  induction h with
  | nil => intro pre _; rw [List.append_nil]; rfl
  | @cons e es bs rest he _ ih =>
    intro pre hroom
    rw [List.length_append] at hroom
    rw [Writer.calls, Writer.call_fits he.fits hn (by omega)]
    show (Writer.at (pre ++ bs) n).calls es = _
    rw [ih (by rw [List.length_append]; omega), List.append_assoc]

/-- What an encoder made of a row of calls does, if it succeeds. -/
theorem encodeCallsWith_writes {es : List Encoder} {bs : List UInt8} (h : Spells es bs)
    {ret : Nat → Writer → Int} {n : Nat} (hn : n < 2 ^ 32)
    (hrv : 0 ≤ (encodeCallsWith ret es n).rv) :
    encodeCallsWith ret es n = ⟨ret n (Writer.at bs n), bs⟩ := by
  rw [encodeCallsWith, Writer.start_eq hn] at hrv ⊢
  cases hc : (Writer.at [] n).calls es with
  | error r =>
    rw [hc] at hrv
    exact absurd hrv (Int.not_le.mpr (Writer.calls_error es hc))
  | ok w =>
    obtain rfl := Writer.calls_writes h hc
    rfl

/-- An encoder made of a row of calls, where there is room. -/
theorem encodeCallsWith_fits {es : List Encoder} {bs : List UInt8} (h : Spells es bs)
    (ret : Nat → Writer → Int) {n : Nat} (hn : n < 2 ^ 32) (hroom : bs.length ≤ n) :
    encodeCallsWith ret es n = ⟨ret n (Writer.at bs n), bs⟩ := by
  have hpre : ([] : List UInt8).length + bs.length ≤ n := by rw [List.length_nil]; omega
  rw [encodeCallsWith, Writer.start_eq hn, Writer.calls_fits h hn hpre]
  rfl

theorem encodeCalls_writes {es : List Encoder} {bs : List UInt8} (h : Spells es bs) :
    Writes (encodeCalls es) bs := fun _ hn hrv => encodeCallsWith_writes h hn hrv

theorem encodeCallsByRoom_writes {es : List Encoder} {bs : List UInt8} (h : Spells es bs) :
    Writes (encodeCallsByRoom es) bs := by
  intro n hn hrv
  rw [← Writer.toInt32_room bs hn]
  exact encodeCallsWith_writes h hn hrv

theorem encodeCalls_emits {es : List Encoder} {bs : List UInt8} (h : Spells es bs)
    (hlen : bs.length < 2 ^ 31) : Emits (encodeCalls es) bs where
  writes := encodeCalls_writes h
  fits := by
    intro n hn hroom
    rw [← toInt32_of_lt hlen]
    exact encodeCallsWith_fits h _ hn hroom
  length_lt := hlen

/-! ## Decoders -/

/-- Why a decoder stops: a read outside of the buffer's memory, or a negative count returned. -/
inductive Stop
  | fault
  | err (rv : Int)
deriving DecidableEq, Repr

/-- A decoder of one value, given the memory from the buffer's start on and the buffer's length. -/
abbrev Decoder (β : Type) := List UInt8 → Nat → Except Stop (Int × β)

/-- The caller's bookkeeping: the memory from the pointer on, the room left, and the count of
    bytes read. -/
structure Reader where
  rest : List UInt8
  room : Nat
  len : Int
deriving DecidableEq, Repr

/-- The bookkeeping before anything is read. -/
def Reader.start (buf : List UInt8) (bufLen : Nat) : Reader := ⟨buf, bufLen, 0⟩

/-- `rv = decode(.., buf, buf_len); if (rv < 0) return rv; buf += rv; buf_len -= rv; len += rv;` -/
def Reader.call {β : Type} (r : Reader) (d : Decoder β) : Except Stop (β × Reader) :=
  (d r.rest r.room).bind fun (rv, v) =>
    if rv < 0 then .error (.err rv)
    else .ok (v, ⟨r.rest.drop rv.toNat, subU32 r.room rv.toNat, r.len + rv⟩)

/-- A loop of `k` calls, collecting the values behind those already there. -/
def Reader.times {β : Type} (r : Reader) (d : Decoder β) (acc : List β) :
    Nat → Except Stop (List β × Reader)
  | 0 => .ok (acc, r)
  | k + 1 => (r.call d).bind fun (v, r') => r'.times d (acc ++ [v]) k

/-- What succeeds is a success followed by another. -/
theorem ok_of_bind {ε α β : Type} {x : Except ε α} {f : α → Except ε β} {b : β}
    (h : (x >>= f) = .ok b) : ∃ a, x = .ok a ∧ f a = .ok b := by
  cases x with
  | error e => cases h
  | ok a => exact ⟨a, rfl, h⟩

theorem bind_of_ok {ε α β : Type} {x : Except ε α} {a : α} (f : α → Except ε β)
    (h : x = .ok a) : (x >>= f) = f a := by
  rw [h]
  rfl

/-- A loop that collects behind some values collects behind none, and puts them in front. -/
theorem Reader.times_acc {β : Type} (d : Decoder β) : ∀ (k : Nat) (r : Reader) (acc : List β),
    r.times d acc k = (r.times d [] k).map fun (xs, r') => (acc ++ xs, r') := by
  intro k
  induction k with
  | zero =>
    intro r acc
    show Except.ok (acc, r) = .ok (acc ++ [], r)
    rw [List.append_nil]
  | succ k ih =>
    intro r acc
    rw [Reader.times, Reader.times]
    cases r.call d with
    | error stop => rfl
    | ok p =>
      obtain ⟨v, r'⟩ := p
      show r'.times d (acc ++ [v]) k = (r'.times d ([] ++ [v]) k).map _
      rw [ih r' (acc ++ [v]), ih r' ([] ++ [v])]
      cases r'.times d [] k with
      | error stop => rfl
      | ok q => simp [Except.map, List.append_assoc]

/-- `if (c) return -1;` -/
def failIf (c : Prop) [Decidable c] : Except Stop Unit :=
  if c then .error (.err (-1)) else .ok ()

/-- The decoder takes `bs` off the front of the buffer and yields `a`, whatever follows. -/
def Reads {β : Type} (d : Decoder β) (bs : List UInt8) (a : β) : Prop :=
  ∀ rest n, n < 2 ^ 32 → bs.length ≤ n → d (bs ++ rest) n = .ok (bs.length, a)

theorem Reader.call_reads {β : Type} {d : Decoder β} {bs rest : List UInt8} {a : β} {n : Nat}
    {len : Int} (hd : Reads d bs a) (hn : n < 2 ^ 32) (hlen : bs.length ≤ n) :
    (Reader.mk (bs ++ rest) n len).call d =
      .ok (a, ⟨rest, n - bs.length, len + bs.length⟩) := by
  unfold Reader.call
  simp only [hd rest n hn hlen, Except.bind]
  rw [if_neg (by omega), Int.toNat_natCast, List.drop_left, subU32_of_le hn hlen]

theorem Reader.times_reads {β : Type} {d : Decoder β} {enc : β → List UInt8}
    {rest : List UInt8} : ∀ (xs acc : List β) (n : Nat) (len : Int),
    (∀ x ∈ xs, Reads d (enc x) x) → n < 2 ^ 32 → (xs.flatMap enc).length ≤ n →
    (Reader.mk (xs.flatMap enc ++ rest) n len).times d acc xs.length =
      .ok (acc ++ xs, ⟨rest, n - (xs.flatMap enc).length, len + (xs.flatMap enc).length⟩) := by
  intro xs
  induction xs with
  | nil =>
    intro acc n len _ _ _
    show Except.ok (acc, Reader.mk rest n len) = _
    simp
  | cons x xs ih =>
    intro acc n len hd hn hlen
    have hrest : ∀ y ∈ xs, Reads d (enc y) y := fun y hy => hd y (List.mem_cons_of_mem x hy)
    rw [List.flatMap_cons, List.length_append] at hlen
    rw [List.length_cons, Reader.times, List.flatMap_cons, List.append_assoc,
      Reader.call_reads (hd x List.mem_cons_self) hn (by omega)]
    show (Reader.mk (xs.flatMap enc ++ rest) (n - (enc x).length) _).times d (acc ++ [x])
      xs.length = _
    rw [ih (acc ++ [x]) _ _ hrest (by omega) (by omega), List.append_assoc, List.singleton_append,
      List.length_append]
    congr 3
    · omega
    · push_cast; omega

/-- The rest of a decoder's body, from a reader that stands before `bs`: it takes `bs`, returns the
    count with its length added, and yields `a`. -/
def Takes {β : Type} (body : Reader → Except Stop (Int × β)) (bs : List UInt8) (a : β) : Prop :=
  ∀ rest n len, n < 2 ^ 32 → bs.length ≤ n →
    body ⟨bs ++ rest, n, len⟩ = .ok (len + bs.length, a)

theorem Takes.ret {β : Type} (a : β) : Takes (fun r => pure (r.len, a)) [] a := by
  intro rest n len _ _
  show Except.ok (len, a) = .ok (len + ((0 : Nat) : Int), a)
  rw [Int.natCast_zero, Int.add_zero]

/-- Past a call that reads. -/
theorem Takes.call {β γ : Type} {d : Decoder γ} {bs bs' : List UInt8} {x : γ} {a : β}
    {f : γ × Reader → Except Stop (Int × β)} (hd : Reads d bs x)
    (hf : Takes (fun r => f (x, r)) bs' a) : Takes (fun r => r.call d >>= f) (bs ++ bs') a := by
  intro rest n len hn hlen
  rw [List.length_append] at hlen
  rw [List.append_assoc]
  show (Reader.mk (bs ++ (bs' ++ rest)) n len).call d >>= f = _
  rw [Reader.call_reads hd hn (by omega)]
  show (fun r => f (x, r)) ⟨bs' ++ rest, n - bs.length, len + bs.length⟩ = _
  rw [hf rest (n - bs.length) (len + bs.length) (by omega) (by omega), List.length_append]
  push_cast
  rw [Int.add_assoc]

/-- Past a check that what is to be read satisfies. -/
theorem Takes.failIf {β : Type} {bs : List UInt8} {a : β} {c : Reader → Prop}
    [∀ r, Decidable (c r)] {f : Reader → Unit → Except Stop (Int × β)}
    (hc : ∀ r : Reader, bs.length ≤ r.room → ¬ c r) (hf : Takes (fun r => f r ()) bs a) :
    Takes (fun r => Wire.failIf (c r) >>= f r) bs a := by
  intro rest n len hn hlen
  show Wire.failIf (c ⟨bs ++ rest, n, len⟩) >>= f _ = _
  rw [Wire.failIf, if_neg (hc _ hlen)]
  exact hf rest n len hn hlen

/-- Past a loop of calls that read. -/
theorem Takes.times {β γ : Type} {d : Decoder γ} {enc : γ → List UInt8} {bs' : List UInt8}
    {a : β} {f : List γ × Reader → Except Stop (Int × β)} (acc xs : List γ)
    (hd : ∀ x ∈ xs, Reads d (enc x) x) {k : Nat} (hk : k = xs.length)
    (hf : Takes (fun r => f (acc ++ xs, r)) bs' a) :
    Takes (fun r => r.times d acc k >>= f) (xs.flatMap enc ++ bs') a := by
  intro rest n len hn hlen
  rw [List.length_append] at hlen
  rw [List.append_assoc]
  show (Reader.mk (xs.flatMap enc ++ (bs' ++ rest)) n len).times d acc k >>= f = _
  rw [hk, Reader.times_reads xs acc n len hd hn (by omega)]
  show (fun r => f (acc ++ xs, r)) ⟨bs' ++ rest, n - (xs.flatMap enc).length,
    len + (xs.flatMap enc).length⟩ = _
  rw [hf rest (n - (xs.flatMap enc).length) (len + (xs.flatMap enc).length) (by omega) (by omega),
    List.length_append]
  push_cast
  rw [Int.add_assoc]

/-- A decoder that begins with a call that reads, and whose rest takes what is left. -/
theorem Reads.start {β γ : Type} {d : Decoder γ} {bs bs' : List UInt8} {x : γ} {a : β}
    {f : γ × Reader → Except Stop (Int × β)} (hd : Reads d bs x)
    (hf : Takes (fun r => f (x, r)) bs' a) :
    Reads (fun buf n => (Reader.start buf n).call d >>= f) (bs ++ bs') a := by
  intro rest n hn hlen
  show (fun r : Reader => r.call d >>= f) ⟨bs ++ bs' ++ rest, n, 0⟩ = _
  rw [Takes.call hd hf rest n 0 hn hlen, Int.zero_add]

/-! ## Network byte order -/

/-- `htons` and a copy: the two bytes of a 16-bit value on the wire. -/
def be16 (v : UInt16) : List UInt8 := [UInt8.ofNat (v.toNat / 256), UInt8.ofNat (v.toNat % 256)]

/-- A copy and `ntohs`. -/
def ofBe16 (hi lo : UInt8) : UInt16 := UInt16.ofNat (hi.toNat * 256 + lo.toNat)

@[simp] theorem be16_length (v : UInt16) : (be16 v).length = 2 := rfl

theorem ofBe16_toNat (hi lo : UInt8) : (ofBe16 hi lo).toNat = hi.toNat * 256 + lo.toNat := by
  have h1 := hi.toNat_lt
  have h2 := lo.toNat_lt
  unfold ofBe16
  rw [UInt16.toNat_ofNat', Nat.mod_eq_of_lt (by omega)]

theorem ofBe16_be16 (v : UInt16) :
    ofBe16 (UInt8.ofNat (v.toNat / 256)) (UInt8.ofNat (v.toNat % 256)) = v := by
  have h := v.toNat_lt
  rw [← UInt16.toNat_inj, ofBe16_toNat, UInt8.toNat_ofNat', UInt8.toNat_ofNat']
  omega

theorem ofNat_eq_of_toNat {n : Nat} {b : UInt8} (h : n % 256 = b.toNat) : UInt8.ofNat n = b := by
  rw [← UInt8.toNat_inj, UInt8.toNat_ofNat']
  exact h

theorem be16_ofBe16 (hi lo : UInt8) : be16 (ofBe16 hi lo) = [hi, lo] := by
  have h1 := hi.toNat_lt
  have h2 := lo.toNat_lt
  rw [be16, ofBe16_toNat, @ofNat_eq_of_toNat _ hi (by omega), @ofNat_eq_of_toNat _ lo (by omega)]

/-- `htonl` and a copy: the four bytes of a 32-bit value on the wire. -/
def be32 (v : UInt32) : List UInt8 :=
  [UInt8.ofNat (v.toNat / 2 ^ 24), UInt8.ofNat (v.toNat / 2 ^ 16 % 256),
    UInt8.ofNat (v.toNat / 2 ^ 8 % 256), UInt8.ofNat (v.toNat % 256)]

/-- A copy and `ntohl`. -/
def ofBe32 (b₃ b₂ b₁ b₀ : UInt8) : UInt32 :=
  UInt32.ofNat (b₃.toNat * 2 ^ 24 + b₂.toNat * 2 ^ 16 + b₁.toNat * 2 ^ 8 + b₀.toNat)

@[simp] theorem be32_length (v : UInt32) : (be32 v).length = 4 := rfl

theorem ofBe32_toNat (b₃ b₂ b₁ b₀ : UInt8) : (ofBe32 b₃ b₂ b₁ b₀).toNat =
    b₃.toNat * 2 ^ 24 + b₂.toNat * 2 ^ 16 + b₁.toNat * 2 ^ 8 + b₀.toNat := by
  have h₃ := b₃.toNat_lt
  have h₂ := b₂.toNat_lt
  have h₁ := b₁.toNat_lt
  have h₀ := b₀.toNat_lt
  unfold ofBe32
  rw [UInt32.toNat_ofNat', Nat.mod_eq_of_lt (by omega)]

theorem ofBe32_be32 (v : UInt32) :
    ofBe32 (UInt8.ofNat (v.toNat / 2 ^ 24)) (UInt8.ofNat (v.toNat / 2 ^ 16 % 256))
      (UInt8.ofNat (v.toNat / 2 ^ 8 % 256)) (UInt8.ofNat (v.toNat % 256)) = v := by
  have h := v.toNat_lt
  rw [← UInt32.toNat_inj, ofBe32_toNat, UInt8.toNat_ofNat', UInt8.toNat_ofNat',
    UInt8.toNat_ofNat', UInt8.toNat_ofNat']
  omega

theorem be32_ofBe32 (b₃ b₂ b₁ b₀ : UInt8) : be32 (ofBe32 b₃ b₂ b₁ b₀) = [b₃, b₂, b₁, b₀] := by
  have h₃ := b₃.toNat_lt
  have h₂ := b₂.toNat_lt
  have h₁ := b₁.toNat_lt
  have h₀ := b₀.toNat_lt
  rw [be32, ofBe32_toNat]
  rw [@ofNat_eq_of_toNat _ b₃ (by omega), @ofNat_eq_of_toNat _ b₂ (by omega),
    @ofNat_eq_of_toNat _ b₁ (by omega), @ofNat_eq_of_toNat _ b₀ (by omega)]

end Wire
