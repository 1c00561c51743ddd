/-
  Decoders and the memory they read.

  A decoder is told how long its buffer is; whether it keeps to that is another question.  Here the
  buffer is all the memory there is, so that a read behind it is a `Stop.fault`.

  1. **`InBounds d buf`** — nothing behind the buffer is read, and no more than it holds is said to
     have been.
  2. **Scans** — what of a buffer a decoder goes over, without the values: `closed`, if it stays
     inside; `short`, if it finds too little and says so; `after`, what it leaves.  `Follows d s`
     ties a decoder to one.  Scans one behind the other are `andThen`, `times` is a loop.
  3. **`SafeAt`** — a body that stays inside from some point of a buffer on.
-/
import Monsys.Lib.Wire

namespace Wire

/-- Nothing behind the buffer is read, and the value returned is no more than it holds. -/
def InBounds {β : Type} (d : Decoder β) (buf : List UInt8) : Prop :=
  d buf buf.length ≠ .error .fault ∧
    ∀ rv v, d buf buf.length = .ok (rv, v) → rv ≤ buf.length

/-! ## Scans -/

/-- What a decoder goes over. -/
structure Scan where
  /-- All of it is inside the buffer. -/
  closed : List UInt8 → Prop
  /-- The buffer ends too early, and the decoder sees that. -/
  short : List UInt8 → Prop
  /-- What is left. -/
  after : List UInt8 → List UInt8

namespace Scan

/-- Nothing. -/
def done : Scan := ⟨fun _ => True, fun _ => False, id⟩

/-- Some bytes, with a look at the room before. -/
def fixed (k : Nat) : Scan := ⟨fun _ => True, fun buf => buf.length < k, List.drop k⟩

/-- Some bytes, without. -/
def blind (k : Nat) : Scan := ⟨fun buf => k ≤ buf.length, fun _ => False, List.drop k⟩

/-- One behind the other. -/
def andThen (s s' : Scan) : Scan where
  closed buf := s.closed buf ∧ (s.short buf ∨ s'.closed (s.after buf))
  short buf := s.short buf ∨ s'.short (s.after buf)
  after buf := s'.after (s.after buf)

/-- Some times, and then another. -/
def times (s : Scan) : Nat → Scan → Scan
  | 0, s' => s'
  | k + 1, s' => s.andThen (s.times k s')

/-- A count byte, and so many times. -/
def counted (s : Scan) : Scan where
  closed
    | [] => True
    | count :: buf => (s.times count.toNat done).closed buf
  short
    | [] => True
    | count :: buf => (s.times count.toNat done).short buf
  after
    | [] => []
    | count :: buf => (s.times count.toNat done).after buf

end Scan

/-- What a scan says about the outcome of a decoder that has `len` bytes behind it. -/
inductive Meets {β : Type} (s : Scan) (buf : List UInt8) (len : Int) : Except Stop (Int × β) → Prop
  | outside (h : ¬ s.closed buf) : Meets s buf len (.error .fault)
  | short (h : s.closed buf) (hshort : s.short buf) (rv : Int) : Meets s buf len (.error (.err rv))
  | takes (h : s.closed buf) (hfull : ¬ s.short buf) (k : Nat) (hk : k ≤ buf.length)
      (hafter : s.after buf = buf.drop k) (v : β) : Meets s buf len (.ok (len + k, v))

/-- The decoder goes over what the scan says. -/
def Follows {β : Type} (d : Decoder β) (s : Scan) : Prop :=
  ∀ buf : List UInt8, buf.length < 2 ^ 32 → Meets s buf 0 (d buf buf.length)

/-- The bookkeeping of a caller that has the whole buffer left. -/
def Reader.whole (buf : List UInt8) (len : Int) : Reader := ⟨buf, buf.length, len⟩

/-- The rest of a decoder's body goes over what the scan says. -/
def Runs {β : Type} (f : Reader → Except Stop (Int × β)) (s : Scan) : Prop :=
  ∀ (buf : List UInt8) (len : Int), buf.length < 2 ^ 32 →
    Meets s buf len (f (Reader.whole buf len))

theorem Runs.follows {β : Type} {f : Reader → Except Stop (Int × β)} {s : Scan} (h : Runs f s) :
    Follows (fun buf n => f (Reader.start buf n)) s := fun buf hbuf => h buf 0 hbuf

/-- Such an outcome is no fault, and returns no more than there was, exactly if the scan is
    closed. -/
theorem Meets.inside_iff {β : Type} {s : Scan} {buf : List UInt8} {len : Int}
    {outcome : Except Stop (Int × β)} (h : Meets s buf len outcome) :
    (outcome ≠ .error .fault ∧ ∀ rv v, outcome = .ok (rv, v) → rv ≤ len + buf.length) ↔
      s.closed buf := by
  cases h with
  | outside hopen => exact iff_of_false (fun hin => hin.1 rfl) hopen
  | short hclosed _ rv => exact iff_of_true ⟨by simp, fun _ _ heq => by cases heq⟩ hclosed
  | takes hclosed _ k hk _ v =>
    refine iff_of_true ⟨by simp, fun rv v' heq => ?_⟩ hclosed
    simp only [Except.ok.injEq, Prod.mk.injEq] at heq
    omega

/-- A decoder that follows a scan is in bounds exactly if the scan is closed. -/
theorem Follows.inBounds_iff {β : Type} {d : Decoder β} {s : Scan} (h : Follows d s)
    {buf : List UInt8} (hbuf : buf.length < 2 ^ 32) : InBounds d buf ↔ s.closed buf := by
  have hinside := (h buf hbuf).inside_iff
  simp only [Int.zero_add] at hinside
  exact hinside

theorem Reader.call_whole {β : Type} (d : Decoder β) (buf : List UInt8) (len : Int) :
    (Reader.whole buf len).call d = (d buf buf.length).bind fun p =>
      if p.1 < 0 then .error (.err p.1)
      else .ok (p.2, ⟨buf.drop p.1.toNat, subU32 buf.length p.1.toNat, len + p.1⟩) := rfl

/-- What a call to a decoder that follows a scan does to the bookkeeping. -/
theorem Follows.call {β : Type} {d : Decoder β} {s : Scan} (h : Follows d s) {buf : List UInt8}
    (hbuf : buf.length < 2 ^ 32) (len : Int) :
    (¬ s.closed buf ∧ (Reader.whole buf len).call d = .error .fault) ∨
    (s.closed buf ∧ s.short buf ∧ ∃ rv, (Reader.whole buf len).call d = .error (.err rv)) ∨
    (s.closed buf ∧ ¬ s.short buf ∧ ∃ (v : β) (k : Nat), k ≤ buf.length ∧
      s.after buf = buf.drop k ∧
      (Reader.whole buf len).call d = .ok (v, Reader.whole (buf.drop k) (len + k))) := by
  have hmeets := h buf hbuf
  rw [Reader.call_whole]
  generalize d buf buf.length = outcome at hmeets
  cases hmeets with
  | outside hopen => exact Or.inl ⟨hopen, rfl⟩
  | short hclosed hshort rv => exact Or.inr (Or.inl ⟨hclosed, hshort, rv, rfl⟩)
  | takes hclosed hfull k hk hafter v =>
    refine Or.inr (Or.inr ⟨hclosed, hfull, v, k, hk, hafter, ?_⟩)
    simp only [Except.bind]
    rw [if_neg (by omega), Int.zero_add, Int.toNat_natCast, subU32_of_le hbuf hk, Reader.whole,
      List.length_drop]

theorem Runs.ret {β : Type} (v : β) : Runs (fun r => pure (r.len, v)) Scan.done := by
  intro buf len _
  have hmeets : Meets Scan.done buf len (.ok (len + (0 : Nat), v)) :=
    .takes trivial not_false 0 (Nat.zero_le _) rfl v
  rwa [Int.natCast_zero, Int.add_zero] at hmeets

/-- Past a call. -/
theorem Runs.call {β γ : Type} {d : Decoder γ} {s s' : Scan}
    {f : γ × Reader → Except Stop (Int × β)} (hd : Follows d s)
    (hf : ∀ x, Runs (fun r => f (x, r)) s') : Runs (fun r => r.call d >>= f) (s.andThen s') := by
  intro buf len hbuf
  show Meets _ buf len ((Reader.whole buf len).call d >>= f)
  rcases hd.call hbuf len with ⟨hopen, hc⟩ | ⟨hclosed, hshort, rv, hc⟩ |
    ⟨hclosed, hfull, x, k, hk, hafter, hc⟩
  · rw [hc]
    exact .outside fun h => hopen h.1
  · rw [hc]
    have hboth : (s.andThen s').closed buf := ⟨hclosed, Or.inl hshort⟩
    exact .short hboth (Or.inl hshort) rv
  · have hrest := hf x (buf.drop k) (len + k) (by rw [List.length_drop]; omega)
    rw [hc]
    change Meets _ buf len (f (x, Reader.whole (buf.drop k) (len + k)))
    simp only at hrest
    generalize f (x, Reader.whole (buf.drop k) (len + k)) = outcome at hrest
    cases hrest with
    | outside hopen =>
      refine .outside fun h => hopen ?_
      rw [← hafter]
      exact h.2.resolve_left hfull
    | short hclosed' hshort' rv =>
      rw [← hafter] at hclosed' hshort'
      have hboth : (s.andThen s').closed buf := ⟨hclosed, Or.inr hclosed'⟩
      exact .short hboth (Or.inr hshort') rv
    | takes hclosed' hfull' k' hk' hafter' v =>
      rw [← hafter] at hclosed' hfull' hafter'
      rw [List.length_drop] at hk'
      have hboth : (s.andThen s').closed buf := ⟨hclosed, Or.inr hclosed'⟩
      have hleft : (s.andThen s').after buf = buf.drop (k + k') := by
        show s'.after (s.after buf) = _
        rw [hafter', hafter, List.drop_drop]
      have hmeets : Meets (s.andThen s') buf len (.ok (len + (k + k' : Nat), v)) :=
        .takes hboth (not_or.mpr ⟨hfull, hfull'⟩) (k + k') (by omega) hleft v
      rwa [Int.natCast_add, ← Int.add_assoc] at hmeets

/-- Past a loop of calls. -/
theorem Runs.times {β γ : Type} {d : Decoder γ} {s s' : Scan}
    {f : List γ × Reader → Except Stop (Int × β)} (hd : Follows d s)
    (hf : ∀ xs, Runs (fun r => f (xs, r)) s') :
    ∀ (k : Nat) (acc : List γ), Runs (fun r => r.times d acc k >>= f) (s.times k s') := by
  intro k
  induction k with
  | zero => exact fun acc => hf acc
  | succ k ih =>
    intro acc
    have hcall : (fun r : Reader => r.times d acc (k + 1) >>= f) = fun r =>
        r.call d >>= fun p => p.2.times d (acc ++ [p.1]) k >>= f := by
      funext r
      show ((r.call d).bind _).bind f = (r.call d).bind _
      cases r.call d <;> rfl
    rw [hcall]
    exact Runs.call hd fun x => ih (acc ++ [x])

/-! ## Staying inside from some point on -/

/-- The rest of a decoder's body stays inside of what is left of the buffer. -/
def SafeAt {β : Type} (f : Reader → Except Stop (Int × β)) (buf : List UInt8) (len : Int) : Prop :=
  f (Reader.whole buf len) ≠ .error .fault ∧
    ∀ rv v, f (Reader.whole buf len) = .ok (rv, v) → rv ≤ len + buf.length

theorem SafeAt.inBounds {β : Type} {f : Reader → Except Stop (Int × β)} {buf : List UInt8}
    (h : SafeAt f buf 0) : InBounds (fun buf n => f (Reader.start buf n)) buf := by
  refine ⟨h.1, fun rv v heq => ?_⟩
  have hle := h.2 rv v heq
  omega

/-- A body that goes over what a scan says stays inside exactly if the scan is closed. -/
theorem Runs.safeAt_iff {β : Type} {f : Reader → Except Stop (Int × β)} {s : Scan} (h : Runs f s)
    {buf : List UInt8} (hbuf : buf.length < 2 ^ 32) (len : Int) :
    SafeAt f buf len ↔ s.closed buf :=
  (h buf len hbuf).inside_iff

theorem SafeAt.ret {β : Type} (v : β) (buf : List UInt8) (len : Int) :
    SafeAt (fun r => pure (r.len, v)) buf len := by
  refine ⟨by simp [pure, Except.pure], fun rv v' heq => ?_⟩
  simp only [pure, Except.pure, Except.ok.injEq, Prod.mk.injEq, Reader.whole] at heq
  omega

theorem SafeAt.failIf {β : Type} {buf : List UInt8} {len : Int} {c : Reader → Prop}
    [∀ r, Decidable (c r)] {f : Reader → Unit → Except Stop (Int × β)}
    (h : ¬ c (Reader.whole buf len) → SafeAt (fun r => f r ()) buf len) :
    SafeAt (fun r => Wire.failIf (c r) >>= f r) buf len := by
  unfold SafeAt
  by_cases hc : c (Reader.whole buf len)
  · simp only [Wire.failIf, if_pos hc]
    exact ⟨by simp [bind, Except.bind], fun _ _ heq => by cases heq⟩
  · simp only [Wire.failIf, if_neg hc]
    exact h hc

theorem SafeAt.call {β γ : Type} {d : Decoder γ} {s : Scan} (hd : Follows d s) {buf : List UInt8}
    (hbuf : buf.length < 2 ^ 32) {len : Int} (hclosed : s.closed buf)
    {f : γ × Reader → Except Stop (Int × β)}
    (hf : ∀ x k, k ≤ buf.length → SafeAt (fun r => f (x, r)) (buf.drop k) (len + k)) :
    SafeAt (fun r => r.call d >>= f) buf len := by
  unfold SafeAt
  rcases hd.call hbuf len with ⟨hopen, _⟩ | ⟨_, _, rv, hc⟩ | ⟨_, _, x, k, hk, _, hc⟩
  · exact absurd hclosed hopen
  · simp only [hc]
    exact ⟨by simp [bind, Except.bind], fun _ _ heq => by cases heq⟩
  · obtain ⟨hfault, hle⟩ := hf x k hk
    simp only [hc]
    refine ⟨hfault, fun rv v heq => ?_⟩
    have hrv := hle rv v heq
    rw [List.length_drop] at hrv
    omega

/-- A last call: it is the decoder called that is to be in bounds. -/
theorem safeAt_last_iff {β γ : Type} {d : Decoder γ} (g : γ → β) (buf : List UInt8) (len : Int) :
    SafeAt (fun r => r.call d >>= fun p => pure (p.2.len, g p.1)) buf len ↔ InBounds d buf := by
  unfold SafeAt InBounds
  simp only [Reader.call_whole]
  cases d buf buf.length with
  | error stop =>
    constructor
    · rintro ⟨hfault, _⟩
      refine ⟨fun h => hfault ?_, fun _ _ heq => by cases heq⟩
      rw [h]
      rfl
    · rintro ⟨hfault, _⟩
      refine ⟨fun h => hfault ?_, fun _ _ heq => by cases heq⟩
      obtain rfl := Except.error.inj h
      rfl
  | ok r =>
    obtain ⟨rv, v⟩ := r
    simp only [Except.bind]
    by_cases hneg : rv < 0
    · rw [if_pos hneg]
      refine iff_of_true ⟨by simp [bind, Except.bind], fun _ _ heq => by cases heq⟩
        ⟨by simp, fun rv' v' heq => ?_⟩
      simp only [Except.ok.injEq, Prod.mk.injEq] at heq
      omega
    · rw [if_neg hneg]
      refine ⟨fun ⟨_, hle⟩ => ⟨by simp, fun rv' v' heq => ?_⟩,
        fun ⟨_, hle⟩ => ⟨by simp [bind, Except.bind, pure, Except.pure], fun rv' v' heq => ?_⟩⟩
      · simp only [Except.ok.injEq, Prod.mk.injEq] at heq
        have hrv := hle (len + rv) (g v) rfl
        omega
      · simp only [bind, Except.bind, pure, Except.pure, Except.ok.injEq, Prod.mk.injEq] at heq
        have hrv := hle rv v rfl
        omega

end Wire
