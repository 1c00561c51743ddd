/-
  Sync-word framing, one symbol at a time.

  A serial line carries frames between stretches of noise.  A frame is announced by a SYNC WORD
  (one symbol repeated `syncLen` times), opens with a HEAD of `headLen` symbols that declares a
  length, and runs on for as many symbols as the declared length asks for.  The receiver may have
  only a bounded store for a frame.

  1. **The framer** — `Format` is the shape of a frame, `Framer` the receiver's state, `step` what
     one symbol does to it and `run` the fold over a stream.  `restLen` is an `Int` because a
     receiver may compute it in machine arithmetic: a negative count cannot be copied, so a
     further symbol then has no result (`none`).
  2. **Runs of a phase** — `run_head`, `run_body`: what a stretch of symbols inside one phase does.
  3. **Recovery** — `run_recover`: noise and frames in, exactly the frames out.
  4. **When a run has a result** — `run_total`: unless a count that is not positive is taken up.
  5. **A bounded store** — `run_clip`: a bounded receiver holds the unbounded one's frames, cut to
     its store.
  6. **Two ways to count** — `run_alike`: receivers that differ in what they make of a declared
     length run alike until they are told a length on which they differ.
  7. **Where frames come from** — `run_carries`: every frame of an unbounded receiver stands in
     the stream right behind a sync word.
-/
import Mathlib.Data.List.Infix
import Mathlib.Data.List.Basic

namespace Framing

variable {α : Type} [DecidableEq α]

/-! ## The framer -/

/-- The shape of a frame, and the receiver's store for it (`cap = none`: unbounded). -/
structure Format (α : Type) where
  sync : α
  syncLen : Nat
  headLen : Nat
  /-- The length a head declares. -/
  lenOf : List α → Nat
  /-- How many symbols follow a head that declares this length. -/
  restLen : Nat → Int
  cap : Option Nat
  syncLen_pos : 0 < syncLen
  headLen_pos : 0 < headLen
  head_fits : ∀ c, cap = some c → headLen ≤ c

/-- What the receiver is doing: counting sync symbols, collecting a head, collecting the rest. -/
inductive Phase (α : Type)
  | hunt (matched : Nat)
  | head (held : List α)
  | body (held : List α) (missing : Int)

/-- The receiver: its phase, the frames it has completed, and every length it was told. -/
structure Framer (α : Type) where
  phase : Phase α
  frames : List (List α)
  lens : List Nat

/-- The same receiver with frames completed before. -/
def Framer.behind (fs : List (List α)) (s : Framer α) : Framer α :=
  { s with frames := fs ++ s.frames }

/-- Cut to a store. -/
def clip : Option Nat → List α → List α
  | none, l => l
  | some n, l => l.take n

omit [DecidableEq α] in
/-- Cutting early loses nothing that a later cut would keep. -/
theorem clip_clip_append (c : Option Nat) (l r : List α) :
    clip c (clip c l ++ r) = clip c (l ++ r) := by
  cases c with
  | none => rfl
  | some n =>
    show (l.take n ++ r).take n = (l ++ r).take n
    rw [List.take_append, List.take_append, List.take_take, Nat.min_self, List.length_take]
    congr 2
    omega

omit [DecidableEq α] in
/-- What fits is kept whole. -/
theorem clip_eq_self {c : Option Nat} {l : List α} (h : ∀ n, c = some n → l.length ≤ n) :
    clip c l = l := by
  cases c with
  | none => rfl
  | some n => exact List.take_of_length_le (h n rfl)

namespace Format

variable (F : Format α)

/-- One symbol while hunting with `k` sync symbols matched. -/
def hunted (k : Nat) (b : α) : Phase α :=
  if b = F.sync then if k + 1 < F.syncLen then .hunt (k + 1) else .head [] else .hunt 0

/-- One symbol of the stream. -/
def step (s : Framer α) (b : α) : Option (Framer α) :=
  match s.phase with
  | .hunt k => some ⟨F.hunted k b, s.frames, s.lens⟩
  | .head held =>
    if held.length + 1 < F.headLen then some ⟨.head (held ++ [b]), s.frames, s.lens⟩
    else
      let n := F.lenOf (held ++ [b])
      some ⟨.body (held ++ [b]) (F.restLen n), s.frames, s.lens ++ [n]⟩
  | .body held missing =>
    if missing < 0 then none
    -- nothing was missing: the frame is given up when the next symbol arrives
    else if missing = 0 then some ⟨F.hunted 0 b, s.frames ++ [held], s.lens⟩
    else if missing = 1 then
      some ⟨.hunt 0, s.frames ++ [clip F.cap (held ++ [b])], s.lens⟩
    else some ⟨.body (clip F.cap (held ++ [b])) (missing - 1), s.frames, s.lens⟩

theorem hunted_sync (k : Nat) :
    F.hunted k F.sync = if k + 1 < F.syncLen then .hunt (k + 1) else .head [] := if_pos rfl

theorem hunted_ne {b : α} (h : b ≠ F.sync) (k : Nat) : F.hunted k b = .hunt 0 := if_neg h

/-- A stream of symbols. -/
def run (s : Framer α) (bs : List α) : Option (Framer α) := bs.foldlM F.step s

/-- A receiver that has seen nothing. -/
def start : Framer α := ⟨.hunt 0, [], []⟩

@[simp] theorem run_nil (s : Framer α) : F.run s [] = some s := rfl

theorem run_cons (s : Framer α) (b : α) (bs : List α) :
    F.run s (b :: bs) = (F.step s b).bind fun t => F.run t bs := rfl

/-- However a stream is cut in two, the run is the same. -/
theorem run_append (s : Framer α) (xs ys : List α) :
    F.run s (xs ++ ys) = (F.run s xs).bind fun t => F.run t ys := by
  unfold run
  rw [List.foldlM_append]
  rfl

theorem run_append_of_eq_some {s t : Framer α} {xs : List α} (h : F.run s xs = some t)
    (ys : List α) : F.run s (xs ++ ys) = F.run t ys := by
  rw [run_append, h]; rfl

/-- The last symbol of a stream is a step from the run before it. -/
theorem run_concat (s : Framer α) (bs : List α) (b : α) :
    F.run s (bs ++ [b]) = (F.run s bs).bind fun t => F.step t b := by
  rw [run_append]
  congr 1
  funext t
  rw [run_cons]
  cases F.step t b <;> rfl

/-- The frames completed before do not matter to a step. -/
theorem step_behind (fs : List (List α)) (s : Framer α) (b : α) :
    F.step (s.behind fs) b = (F.step s b).map (Framer.behind fs) := by
  obtain ⟨ph, gs, ls⟩ := s
  cases ph with
  | hunt k => rfl
  | head held =>
    show (if _ then _ else _) = Option.map _ (if _ then _ else _)
    split <;> rfl
  | body held m =>
    show (if _ then _ else if _ then _ else if _ then _ else _) =
      Option.map _ (if _ then _ else if _ then _ else if _ then _ else _)
    split
    · rfl
    · split
      · show some (⟨_, fs ++ gs ++ [held], ls⟩ : Framer α) = some ⟨_, fs ++ (gs ++ [held]), ls⟩
        rw [List.append_assoc]
      · split
        · show some (⟨_, fs ++ gs ++ [_], ls⟩ : Framer α) = some ⟨_, fs ++ (gs ++ [_]), ls⟩
          rw [List.append_assoc]
        · rfl

/-- The frames completed before do not matter to a run. -/
theorem run_behind (fs : List (List α)) (s : Framer α) (bs : List α) :
    F.run (s.behind fs) bs = (F.run s bs).map (Framer.behind fs) := by
  induction bs generalizing s with
  | nil => rfl
  | cons b bs ih =>
    rw [run_cons, run_cons, step_behind]
    cases F.step s b with
    | none => rfl
    | some t => exact ih t

/-! ## Runs inside one phase -/

/-- Matching on: sync symbols that do not complete the word. -/
theorem run_sync_lt (fs : List (List α)) (ls : List Nat) : ∀ (n k : Nat), k + n < F.syncLen →
    F.run ⟨.hunt k, fs, ls⟩ (List.replicate n F.sync) = some ⟨.hunt (k + n), fs, ls⟩ := by
  intro n
  induction n with
  | zero => intro k _; rfl
  | succ n ih =>
    intro k hk
    rw [List.replicate_succ, run_cons]
    have hstep : F.step ⟨.hunt k, fs, ls⟩ F.sync = some ⟨.hunt (k + 1), fs, ls⟩ := by
      simp only [step, hunted, if_pos]
      rw [if_pos (by omega)]
    rw [hstep, Option.bind_some, ih (k + 1) (by omega)]
    congr 3
    omega

/-- The whole sync word opens a head. -/
theorem run_sync (fs : List (List α)) (ls : List Nat) :
    F.run ⟨.hunt 0, fs, ls⟩ (List.replicate F.syncLen F.sync) = some ⟨.head [], fs, ls⟩ := by
  obtain ⟨n, hn⟩ := Nat.exists_eq_succ_of_ne_zero (Nat.ne_of_gt F.syncLen_pos)
  rw [hn, Nat.succ_eq_add_one, List.replicate_succ', run_concat,
    F.run_sync_lt fs ls n 0 (by omega), Option.bind_some]
  simp only [step, hunted, if_pos]
  rw [if_neg (by omega)]

/-- Inside the head: the symbols are held. -/
theorem run_head_lt (fs : List (List α)) (ls : List Nat) : ∀ (bs held : List α),
    held.length + bs.length < F.headLen →
    F.run ⟨.head held, fs, ls⟩ bs = some ⟨.head (held ++ bs), fs, ls⟩ := by
  intro bs
  induction bs with
  | nil => intro held _; rw [run_nil, List.append_nil]
  | cons b bs ih =>
    intro held hlen
    rw [List.length_cons] at hlen
    rw [run_cons]
    have hstep : F.step ⟨.head held, fs, ls⟩ b = some ⟨.head (held ++ [b]), fs, ls⟩ := by
      simp only [step]
      rw [if_pos (by omega)]
    rw [hstep, Option.bind_some,
      ih (held ++ [b]) (by rw [List.length_append, List.length_singleton]; omega),
      List.append_assoc, List.singleton_append]

/-- The symbol that completes a head: the declared length is known. -/
theorem run_head (fs : List (List α)) (ls : List Nat) (held bs : List α) (hne : bs ≠ [])
    (hlen : held.length + bs.length = F.headLen) :
    F.run ⟨.head held, fs, ls⟩ bs = some ⟨.body (held ++ bs) (F.restLen (F.lenOf (held ++ bs))),
      fs, ls ++ [F.lenOf (held ++ bs)]⟩ := by
  obtain ⟨init, b, rfl⟩ := List.eq_nil_or_concat bs |>.resolve_left hne
  rw [List.concat_eq_append] at hlen ⊢
  rw [List.length_append, List.length_singleton] at hlen
  rw [run_concat, F.run_head_lt fs ls init held (by omega), Option.bind_some]
  simp only [step]
  rw [if_neg (by rw [List.length_append]; omega), List.append_assoc]

/-- Inside the rest of a frame: the symbols are held as far as the store goes. -/
theorem run_body_lt (fs : List (List α)) (ls : List Nat) : ∀ (bs held : List α) (m : Int),
    clip F.cap held = held → (bs.length : Int) < m →
    F.run ⟨.body held m, fs, ls⟩ bs =
      some ⟨.body (clip F.cap (held ++ bs)) (m - bs.length), fs, ls⟩ := by
  intro bs
  induction bs with
  | nil =>
    intro held m hheld _
    rw [run_nil, List.append_nil, hheld]
    simp
  | cons b bs ih =>
    intro held m hheld hm
    rw [List.length_cons] at hm
    rw [run_cons]
    have hstep : F.step ⟨.body held m, fs, ls⟩ b =
        some ⟨.body (clip F.cap (held ++ [b])) (m - 1), fs, ls⟩ := by
      simp only [step]
      rw [if_neg (by omega), if_neg (by omega), if_neg (by omega)]
    have hidem : clip F.cap (clip F.cap (held ++ [b])) = clip F.cap (held ++ [b]) := by
      have := clip_clip_append F.cap (held ++ [b]) []
      rwa [List.append_nil, List.append_nil] at this
    rw [hstep, Option.bind_some, ih _ (m - 1) hidem (by omega), clip_clip_append,
      List.append_assoc, List.singleton_append, List.length_cons]
    congr 3
    push_cast
    omega

/-- The symbol that completes a frame: the frame is given up and the hunt begins anew. -/
theorem run_body (fs : List (List α)) (ls : List Nat) (held bs : List α) (m : Int)
    (hheld : clip F.cap held = held) (hpos : 0 < m) (hlen : (bs.length : Int) = m) :
    F.run ⟨.body held m, fs, ls⟩ bs =
      some ⟨.hunt 0, fs ++ [clip F.cap (held ++ bs)], ls⟩ := by
  have hne : bs ≠ [] := by rintro rfl; simp at hlen; omega
  obtain ⟨init, b, rfl⟩ := List.eq_nil_or_concat bs |>.resolve_left hne
  rw [List.concat_eq_append] at hlen ⊢
  rw [List.length_append, List.length_singleton] at hlen
  push_cast at hlen
  rw [run_concat, F.run_body_lt fs ls init held m hheld (by omega), Option.bind_some]
  simp only [step]
  rw [if_neg (by omega), if_neg (by omega), if_pos (by omega), clip_clip_append,
    List.append_assoc]

/-- A frame of which nothing was missing is given up at the next symbol, which is then hunted. -/
theorem run_body_zero (fs : List (List α)) (ls : List Nat) (held : List α) {bs : List α}
    (hne : bs ≠ []) :
    F.run ⟨.body held 0, fs, ls⟩ bs = F.run ⟨.hunt 0, fs ++ [held], ls⟩ bs := by
  cases bs with
  | nil => exact absurd rfl hne
  | cons b bs => rfl

/-- A negative count stops the receiver at the next symbol. -/
theorem run_body_neg (fs : List (List α)) (ls : List Nat) (held : List α) {m : Int} (hm : m < 0)
    {bs : List α} (hne : bs ≠ []) : F.run ⟨.body held m, fs, ls⟩ bs = none := by
  cases bs with
  | nil => exact absurd rfl hne
  | cons b bs =>
    rw [run_cons]
    simp only [step, if_pos hm, Option.bind_none]

/-! ## Recovery: noise and frames in, the frames out -/

/-- Noise: no complete sync word inside, no sync symbol at the end. -/
def Quiet (noise : List α) : Prop :=
  ¬ List.replicate F.syncLen F.sync <:+: noise ∧ noise.getLast? ≠ some F.sync

/-- A whole frame: its length is the one its head declares. -/
structure IsFrame (f : List α) : Prop where
  head_le : F.headLen ≤ f.length
  length_eq : (f.length : Int) = F.headLen + F.restLen (F.lenOf (f.take F.headLen))

/-- Hunting through symbols with no complete sync word stays a hunt.  `k` symbols are matched
    already, so the word must not be completed by them together with what follows. -/
theorem run_hunt (fs : List (List α)) (ls : List Nat) : ∀ (bs : List α) (k : Nat),
    ¬ List.replicate F.syncLen F.sync <:+: List.replicate k F.sync ++ bs →
    ∃ k', F.run ⟨.hunt k, fs, ls⟩ bs = some ⟨.hunt k', fs, ls⟩ := by
  intro bs
  induction bs with
  | nil => intro k _; exact ⟨k, rfl⟩
  | cons b bs ih =>
    intro k hno
    rw [run_cons]
    by_cases hb : b = F.sync
    · subst hb
      have hk : k + 1 < F.syncLen := by
        -- otherwise the word is complete, and stands in what was matched and this symbol
        by_contra hge
        apply hno
        have hcut : List.replicate k F.sync ++ F.sync :: bs =
            List.replicate (k + 1) F.sync ++ bs := by
          rw [List.replicate_succ', List.append_assoc]; rfl
        have hsplit : List.replicate (k + 1) F.sync =
            List.replicate F.syncLen F.sync ++ List.replicate (k + 1 - F.syncLen) F.sync := by
          rw [List.replicate_append_replicate]
          congr 1
          omega
        rw [hcut, hsplit, List.append_assoc]
        exact (List.prefix_append _ _).isInfix
      have hstep : F.step ⟨.hunt k, fs, ls⟩ F.sync = some ⟨.hunt (k + 1), fs, ls⟩ := by
        simp only [step, hunted, if_pos, if_pos hk]
      rw [hstep, Option.bind_some]
      apply ih (k + 1)
      rw [List.replicate_succ', List.append_assoc]
      exact hno
    · -- what was matched counts no more: a word behind this symbol is one in the whole
      have hstep : F.step ⟨.hunt k, fs, ls⟩ b = some ⟨.hunt 0, fs, ls⟩ := by
        simp only [step, hunted, if_neg hb]
      rw [hstep, Option.bind_some]
      apply ih 0
      intro hin
      apply hno
      have hsuf : List.replicate 0 F.sync ++ bs <:+ List.replicate k F.sync ++ b :: bs :=
        ⟨List.replicate k F.sync ++ [b], by simp⟩
      exact hin.trans hsuf.isInfix

/-- Noise leaves no trace. -/
theorem run_noise (fs : List (List α)) (ls : List Nat) {noise : List α} (hq : F.Quiet noise) :
    F.run ⟨.hunt 0, fs, ls⟩ noise = some ⟨.hunt 0, fs, ls⟩ := by
  obtain ⟨hno, hlast⟩ := hq
  rcases List.eq_nil_or_concat noise with rfl | ⟨init, b, rfl⟩
  · rfl
  · rw [List.concat_eq_append] at hno hlast ⊢
    rw [List.getLast?_concat] at hlast
    have hb : b ≠ F.sync := fun h => hlast (congrArg some h)
    obtain ⟨k, hk⟩ := F.run_hunt fs ls init 0 fun hin =>
      hno (hin.trans (List.prefix_append _ _).isInfix)
    rw [run_concat, hk, Option.bind_some]
    simp only [step, hunted, if_neg hb]

/-- A sync word and a frame behind it: the frame is given up, cut to the store. -/
theorem run_frame (fs : List (List α)) (ls : List Nat) {f : List α} (hf : F.IsFrame f)
    (hrest : 0 < F.restLen (F.lenOf (f.take F.headLen))) :
    F.run ⟨.hunt 0, fs, ls⟩ (List.replicate F.syncLen F.sync ++ f) =
      some ⟨.hunt 0, fs ++ [clip F.cap f], ls ++ [F.lenOf (f.take F.headLen)]⟩ := by
  have hhead : (f.take F.headLen).length = F.headLen := by
    rw [List.length_take]; exact Nat.min_eq_left hf.head_le
  have hne : f.take F.headLen ≠ [] := by
    intro h
    rw [h, List.length_nil] at hhead
    exact Nat.ne_of_gt F.headLen_pos hhead.symm
  have hkept : clip F.cap (f.take F.headLen) = f.take F.headLen :=
    clip_eq_self fun c hc => by rw [hhead]; exact F.head_fits c hc
  have htail : ((f.drop F.headLen).length : Int) = F.restLen (F.lenOf (f.take F.headLen)) := by
    have h1 := hf.length_eq
    have h2 := hf.head_le
    rw [List.length_drop]
    omega
  rw [F.run_append_of_eq_some (F.run_sync fs ls)]
  conv_lhs => rw [← List.take_append_drop F.headLen f]
  rw [F.run_append_of_eq_some (F.run_head fs ls [] _ hne (by rw [hhead]; simp)),
    List.nil_append, F.run_body fs _ _ _ _ hkept hrest htail, List.take_append_drop]

/-- One stretch of the line: noise, a sync word, a frame. -/
def stretch (noise f : List α) : List α := noise ++ (List.replicate F.syncLen F.sync ++ f)

/-- **Recovery.**  From a noisy line the receiver gets exactly the frames, in order, each cut to
    the store — and nothing else. -/
theorem run_recover {ι : Type} {noise frame : ι → List α} (fs : List (List α)) (ls : List Nat)
    (xs : List ι) (trailing : List α) (hq : ∀ x ∈ xs, F.Quiet (noise x))
    (hf : ∀ x ∈ xs, F.IsFrame (frame x))
    (hrest : ∀ x ∈ xs, 0 < F.restLen (F.lenOf ((frame x).take F.headLen)))
    (htr : ¬ List.replicate F.syncLen F.sync <:+: trailing) :
    ∃ k ls', F.run ⟨.hunt 0, fs, ls⟩
        ((xs.flatMap fun x => F.stretch (noise x) (frame x)) ++ trailing) =
      some ⟨.hunt k, fs ++ xs.map fun x => clip F.cap (frame x), ls'⟩ := by
  induction xs generalizing fs ls with
  | nil =>
    obtain ⟨k, hk⟩ := F.run_hunt fs ls trailing 0 htr
    exact ⟨k, ls, by simpa using hk⟩
  | cons x xs ih =>
    have hx : x ∈ x :: xs := List.mem_cons_self
    obtain ⟨k, ls', hrun⟩ := ih (fs ++ [clip F.cap (frame x)])
      (ls ++ [F.lenOf ((frame x).take F.headLen)])
      (fun y hy => hq y (List.mem_cons_of_mem x hy))
      (fun y hy => hf y (List.mem_cons_of_mem x hy))
      (fun y hy => hrest y (List.mem_cons_of_mem x hy))
    refine ⟨k, ls', ?_⟩
    have hone : F.run ⟨.hunt 0, fs, ls⟩ (F.stretch (noise x) (frame x)) =
        some ⟨.hunt 0, fs ++ [clip F.cap (frame x)],
          ls ++ [F.lenOf ((frame x).take F.headLen)]⟩ := by
      rw [stretch, F.run_append_of_eq_some (F.run_noise fs ls (hq x hx))]
      exact F.run_frame fs ls (hf x hx) (hrest x hx)
    rw [List.flatMap_cons, List.append_assoc, F.run_append_of_eq_some hone, hrun,
      List.map_cons, List.append_assoc, List.singleton_append]

/-! ## When a run has a result -/

/-- A phase that the next symbol does not stop: a head under collection is not complete, and
    something is missing of a frame. -/
def PhaseOk : Phase α → Prop
  | .hunt _ => True
  | .head held => held.length < F.headLen
  | .body _ missing => 0 < missing

theorem hunted_ok (k : Nat) (b : α) : F.PhaseOk (F.hunted k b) := by
  rw [hunted]
  split
  · split
    · trivial
    · exact F.headLen_pos
  · trivial

/-- Lengths are only ever added. -/
theorem step_lens {s t : Framer α} {b : α} (ht : F.step s b = some t) :
    ∀ n ∈ s.lens, n ∈ t.lens := by
  intro n hn
  obtain ⟨ph, fs, ls⟩ := s
  cases ph with
  | hunt k => obtain rfl := Option.some.inj ht; exact hn
  | head held =>
    simp only [step] at ht
    split at ht
    · obtain rfl := Option.some.inj ht; exact hn
    · obtain rfl := Option.some.inj ht; exact List.mem_append_left _ hn
  | body held m =>
    simp only [step] at ht
    split at ht
    · cases ht
    · split at ht
      · obtain rfl := Option.some.inj ht; exact hn
      · split at ht <;> (obtain rfl := Option.some.inj ht; exact hn)

theorem run_lens {s t : Framer α} {bs : List α} (ht : F.run s bs = some t) :
    ∀ n ∈ s.lens, n ∈ t.lens := by
  induction bs generalizing s with
  | nil => obtain rfl := Option.some.inj ht; exact fun _ h => h
  | cons b bs ih =>
    rw [run_cons] at ht
    obtain ⟨u, hu, ht⟩ := Option.bind_eq_some_iff.mp ht
    exact fun n hn => ih ht n (F.step_lens hu n hn)

/-- One symbol always has a result, and the phase stays so if no count that is not positive has
    been taken up. -/
theorem step_total {s : Framer α} (hs : F.PhaseOk s.phase) (b : α) :
    ∃ t, F.step s b = some t ∧ ((∀ n ∈ t.lens, 0 < F.restLen n) → F.PhaseOk t.phase) := by
  obtain ⟨ph, fs, ls⟩ := s
  cases ph with
  | hunt k => exact ⟨_, rfl, fun _ => F.hunted_ok k b⟩
  | head held =>
    simp only [step]
    by_cases h : held.length + 1 < F.headLen
    · rw [if_pos h]
      refine ⟨_, rfl, fun _ => ?_⟩
      show (held ++ [b]).length < _
      rw [List.length_append]
      exact h
    · rw [if_neg h]
      exact ⟨_, rfl, fun hpos => hpos _ (List.mem_append_right _ (List.mem_singleton_self _))⟩
  | body held m =>
    have hm : 0 < m := hs
    simp only [step]
    rw [if_neg (by omega), if_neg (by omega)]
    by_cases h1 : m = 1
    · rw [if_pos h1]
      exact ⟨_, rfl, fun _ => trivial⟩
    · rw [if_neg h1]
      refine ⟨_, rfl, fun _ => ?_⟩
      show 0 < m - 1
      omega

/-- **A run has a result** if every length it is told on the way leaves something to collect. -/
theorem run_total {s : Framer α} (hs : F.PhaseOk s.phase) {bs : List α}
    (hpos : ∀ p t, p <+: bs → F.run s p = some t → ∀ n ∈ t.lens, 0 < F.restLen n) :
    ∃ t, F.run s bs = some t ∧ F.PhaseOk t.phase := by
  -- from the end, so that the hypothesis on prefixes is there for every step
  induction bs using List.reverseRecOn with
  | nil => exact ⟨s, rfl, hs⟩
  | append_singleton bs b ih =>
    obtain ⟨u, hu, huok⟩ := ih fun p t hp => hpos p t (hp.trans (List.prefix_append _ _))
    obtain ⟨t, ht, htok⟩ := F.step_total huok b
    have hrun : F.run s (bs ++ [b]) = some t := by rw [run_concat, hu]; exact ht
    exact ⟨t, hrun, htok (hpos _ t (List.prefix_refl _) hrun)⟩

end Format

/-! ## A bounded store -/

/-- The same activity with a bounded store. -/
def Phase.clip (c : Option Nat) : Phase α → Phase α
  | .hunt k => .hunt k
  | .head held => .head held
  | .body held missing => .body (Framing.clip c held) missing

/-- The same receiver with a bounded store. -/
def Framer.clip (c : Option Nat) (s : Framer α) : Framer α :=
  ⟨s.phase.clip c, s.frames.map (Framing.clip c), s.lens⟩

namespace Format

variable (F : Format α)

/-- The same format with an unbounded store. -/
def unbounded : Format α := { F with cap := none, head_fits := fun _ h => absurd h (by simp) }

/-- A head under collection is not complete. -/
def HeadOk : Phase α → Prop
  | .head held => held.length < F.headLen
  | _ => True

omit [DecidableEq α] in
theorem PhaseOk.headOk {p : Phase α} (h : F.PhaseOk p) : F.HeadOk p := by
  cases p with
  | head held => exact h
  | hunt k => trivial
  | body held m => trivial

theorem step_headOk {s t : Framer α} {b : α} (ht : F.step s b = some t) : F.HeadOk t.phase := by
  obtain ⟨ph, fs, ls⟩ := s
  cases ph with
  | hunt k => obtain rfl := Option.some.inj ht; exact (F.hunted_ok k b).headOk
  | head held =>
    simp only [step] at ht
    split at ht <;> rename_i h
    · obtain rfl := Option.some.inj ht
      show (held ++ [b]).length < _
      rw [List.length_append]
      exact h
    · obtain rfl := Option.some.inj ht; trivial
  | body held m =>
    simp only [step] at ht
    split at ht
    · cases ht
    · split at ht
      · obtain rfl := Option.some.inj ht; exact (F.hunted_ok 0 b).headOk
      · split at ht <;> (obtain rfl := Option.some.inj ht; trivial)

theorem hunted_clip (c : Option Nat) (k : Nat) (b : α) :
    (F.hunted k b).clip c = F.hunted k b := by
  rw [hunted]
  split
  · split <;> rfl
  · rfl

/-- One symbol: the bounded receiver does what the unbounded one does, cut to its store. -/
theorem step_clip {s : Framer α} (hs : F.HeadOk s.phase) (b : α) :
    F.step (s.clip F.cap) b = (F.unbounded.step s b).map (Framer.clip F.cap) := by
  obtain ⟨ph, fs, ls⟩ := s
  cases ph with
  | hunt k =>
    show some (⟨F.hunted k b, fs.map _, ls⟩ : Framer α) =
      some ⟨(F.hunted k b).clip F.cap, fs.map _, ls⟩
    rw [hunted_clip]
  | head held =>
    have hlt : held.length < F.headLen := hs
    show (if held.length + 1 < F.headLen then _ else _) =
      Option.map _ (if held.length + 1 < F.headLen then _ else _)
    split
    · rfl
    · -- the head is kept whole
      have hkept : Framing.clip F.cap (held ++ [b]) = held ++ [b] := clip_eq_self fun c hc => by
        have := F.head_fits c hc
        rw [List.length_append, List.length_singleton]
        omega
      show _ = some (⟨.body (Framing.clip F.cap (held ++ [b])) _, _, _⟩ : Framer α)
      rw [hkept]
      rfl
  | body held m =>
    show (if m < 0 then none else if m = 0 then _ else if m = 1 then _ else _) =
      Option.map _ (if m < 0 then none else if m = 0 then _ else if m = 1 then _ else _)
    split
    · rfl
    · split
      · show some (⟨F.hunted 0 b, fs.map _ ++ [Framing.clip F.cap held], ls⟩ : Framer α) =
          some ⟨(F.hunted 0 b).clip F.cap, (fs ++ [held]).map _, ls⟩
        rw [hunted_clip, List.map_append, List.map_singleton]
      · -- here the cut made earlier is made good by the cut made now
        split
        · show some (⟨.hunt 0, fs.map _ ++ [Framing.clip F.cap (Framing.clip F.cap held ++ [b])],
            ls⟩ : Framer α) = some ⟨.hunt 0, (fs ++ [held ++ [b]]).map _, ls⟩
          rw [clip_clip_append, List.map_append, List.map_singleton]
        · show some (⟨.body (Framing.clip F.cap (Framing.clip F.cap held ++ [b])) (m - 1),
            fs.map _, ls⟩ : Framer α) = some ⟨.body (Framing.clip F.cap (held ++ [b])) (m - 1), _, _⟩
          rw [clip_clip_append]

/-- **Cut to the store.**  The bounded receiver runs as the unbounded one, cut to its store. -/
theorem run_clip {s : Framer α} (hs : F.HeadOk s.phase) (bs : List α) :
    F.run (s.clip F.cap) bs = (F.unbounded.run s bs).map (Framer.clip F.cap) := by
  induction bs generalizing s with
  | nil => rfl
  | cons b bs ih =>
    rw [run_cons, run_cons, F.step_clip hs b]
    cases ht : F.unbounded.step s b with
    | none => rfl
    | some t => exact ih (F.unbounded.step_headOk ht)

/-! ## Two ways to count -/

/-- Formats that differ at most in what they make of a declared length. -/
structure Alike (F G : Format α) : Prop where
  sync_eq : F.sync = G.sync
  syncLen_eq : F.syncLen = G.syncLen
  headLen_eq : F.headLen = G.headLen
  lenOf_eq : F.lenOf = G.lenOf
  cap_eq : F.cap = G.cap

omit [DecidableEq α] in
theorem Alike.symm {F G : Format α} (A : Alike F G) : Alike G F :=
  ⟨A.sync_eq.symm, A.syncLen_eq.symm, A.headLen_eq.symm, A.lenOf_eq.symm, A.cap_eq.symm⟩

theorem hunted_alike {F G : Format α} (A : Alike F G) (k : Nat) (b : α) :
    F.hunted k b = G.hunted k b := by
  rw [hunted, hunted, A.sync_eq, A.syncLen_eq]

theorem step_alike {F G : Format α} (A : Alike F G) {s t : Framer α} {b : α}
    (ht : F.step s b = some t) (hlen : ∀ n ∈ t.lens, F.restLen n = G.restLen n) :
    G.step s b = some t := by
  obtain ⟨ph, fs, ls⟩ := s
  cases ph with
  | hunt k =>
    rw [← ht]
    simp only [step, hunted_alike A]
  | head held =>
    simp only [step, A.headLen_eq, A.lenOf_eq] at ht ⊢
    split at ht <;> rename_i h
    · rw [if_pos h]
      exact ht
    · rw [if_neg h, ← ht]
      obtain rfl := Option.some.inj ht
      rw [hlen _ (List.mem_append_right _ (List.mem_singleton_self _))]
  | body held m =>
    rw [← ht]
    simp only [step, hunted_alike A, A.cap_eq]

/-- **Counting alike.**  A run that was told only lengths on which two receivers agree is a run of
    both. -/
theorem run_alike {F G : Format α} (A : Alike F G) {s t : Framer α} {bs : List α}
    (ht : F.run s bs = some t) (hlen : ∀ n ∈ t.lens, F.restLen n = G.restLen n) :
    G.run s bs = some t := by
  induction bs generalizing s with
  | nil => exact ht
  | cons b bs ih =>
    rw [run_cons] at ht
    obtain ⟨u, hu, ht⟩ := Option.bind_eq_some_iff.mp ht
    have hstep := step_alike A hu fun n hn => hlen n (F.run_lens ht n hn)
    rw [run_cons, hstep]
    exact ih ht

/-! ## Where frames come from -/

/-- `f` is a whole frame standing in the stream `w` right behind a sync word. -/
def Carries (w f : List α) : Prop :=
  F.IsFrame f ∧ ∃ pre post, w = pre ++ (List.replicate F.syncLen F.sync ++ (f ++ post))

/-- What a phase says about the end of the stream read so far. -/
def Trails (w : List α) : Phase α → Prop
  | .hunt k => k < F.syncLen ∧ ∃ pre, w = pre ++ List.replicate k F.sync
  | .head held => held.length < F.headLen ∧
      ∃ pre, w = pre ++ (List.replicate F.syncLen F.sync ++ held)
  | .body held missing => F.headLen ≤ held.length ∧
      (held.length : Int) + missing = F.headLen + F.restLen (F.lenOf (held.take F.headLen)) ∧
      ∃ pre, w = pre ++ (List.replicate F.syncLen F.sync ++ held)

omit [DecidableEq α] in
theorem Carries.append {w f : List α} (h : F.Carries w f) (more : List α) :
    F.Carries (w ++ more) f := by
  obtain ⟨hf, pre, post, rfl⟩ := h
  exact ⟨hf, pre, post ++ more, by simp only [List.append_assoc]⟩

/-- A symbol hunted behind `k` matched ones. -/
theorem trails_hunted {w : List α} {k : Nat} (hk : k < F.syncLen)
    (hw : ∃ pre, w = pre ++ List.replicate k F.sync) (b : α) :
    F.Trails (w ++ [b]) (F.hunted k b) := by
  obtain ⟨pre, rfl⟩ := hw
  by_cases hb : b = F.sync
  · subst hb
    have hjoin : pre ++ List.replicate k F.sync ++ [F.sync] =
        pre ++ List.replicate (k + 1) F.sync := by
      rw [List.replicate_succ', List.append_assoc]
    rw [hunted_sync]
    split <;> rename_i hlt
    · exact ⟨hlt, pre, hjoin⟩
    · -- the word is complete, and the head is empty yet
      have hfull : k + 1 = F.syncLen := by omega
      exact ⟨F.headLen_pos, pre, by rw [hjoin, hfull, List.append_nil]⟩
  · rw [F.hunted_ne hb]
    exact ⟨F.syncLen_pos, _, (List.append_nil _).symm⟩

/-- One symbol of an unbounded receiver: the end of the stream is still described by the phase,
    and a frame given up stands in the stream. -/
theorem step_carries (hcap : F.cap = none) {w : List α} {s t : Framer α} {b : α}
    (htr : F.Trails w s.phase) (hfr : ∀ f ∈ s.frames, F.Carries w f)
    (ht : F.step s b = some t) :
    F.Trails (w ++ [b]) t.phase ∧ ∀ f ∈ t.frames, F.Carries (w ++ [b]) f := by
  have hfr' : ∀ f ∈ s.frames, F.Carries (w ++ [b]) f := fun f hf => (hfr f hf).append F [b]
  have hjoin : ∀ pre held, pre ++ (List.replicate F.syncLen F.sync ++ held) ++ [b] =
      pre ++ (List.replicate F.syncLen F.sync ++ (held ++ [b])) := by
    intro pre held
    simp only [List.append_assoc]
  obtain ⟨ph, fs, ls⟩ := s
  cases ph with
  | hunt k =>
    obtain rfl := Option.some.inj ht
    exact ⟨F.trails_hunted htr.1 htr.2 b, hfr'⟩
  | head held =>
    obtain ⟨hlt, pre, rfl⟩ := htr
    have hlen : (held ++ [b]).length = held.length + 1 := by
      rw [List.length_append, List.length_singleton]
    simp only [step] at ht
    split at ht <;> rename_i h
    · obtain rfl := Option.some.inj ht
      exact ⟨⟨by omega, pre, hjoin pre held⟩, hfr'⟩
    · -- the head is complete: what is missing is what it declares
      obtain rfl := Option.some.inj ht
      refine ⟨⟨by omega, ?_, pre, hjoin pre held⟩, hfr'⟩
      rw [List.take_of_length_le (by omega), hlen]
      omega
  | body held m =>
    obtain ⟨hle, hsum, pre, rfl⟩ := htr
    have hhead : (held ++ [b]).take F.headLen = held.take F.headLen :=
      List.take_append_of_le_length hle
    have hlen : ((held ++ [b]).length : Int) = held.length + 1 := by
      rw [List.length_append, List.length_singleton]; push_cast; rfl
    have hle' : F.headLen ≤ (held ++ [b]).length := by
      rw [List.length_append]; omega
    simp only [step, hcap, clip] at ht
    split at ht
    · cases ht
    · split at ht <;> rename_i h0
      · -- nothing was missing: the frame ended before this symbol
        obtain rfl := Option.some.inj ht
        have hwhole : F.Carries (pre ++ (List.replicate F.syncLen F.sync ++ held)) held :=
          ⟨⟨hle, by omega⟩, pre, [], by rw [List.append_nil]⟩
        refine ⟨F.trails_hunted F.syncLen_pos ⟨_, (List.append_nil _).symm⟩ b, fun f hf => ?_⟩
        rcases List.mem_append.mp hf with hf | hf
        · exact hfr' f hf
        · obtain rfl := List.mem_singleton.mp hf
          exact hwhole.append F [b]
      · split at ht <;> rename_i h1
        · -- this symbol is the last of the frame
          obtain rfl := Option.some.inj ht
          refine ⟨⟨F.syncLen_pos, _, (List.append_nil _).symm⟩, fun f hf => ?_⟩
          rcases List.mem_append.mp hf with hf | hf
          · exact hfr' f hf
          · obtain rfl := List.mem_singleton.mp hf
            refine ⟨⟨hle', ?_⟩, pre, [], by rw [hjoin, List.append_nil]⟩
            rw [hhead, hlen]
            omega
        · -- the frame goes on
          obtain rfl := Option.some.inj ht
          refine ⟨⟨hle', ?_, pre, hjoin pre held⟩, hfr'⟩
          rw [hhead, hlen]
          omega

/-- **Frames stand in the stream.**  Every frame an unbounded receiver gives up is whole and
    follows a sync word in the stream it was fed. -/
theorem run_carries (hcap : F.cap = none) {bs : List α} {t : Framer α}
    (ht : F.run start bs = some t) :
    F.Trails bs t.phase ∧ ∀ f ∈ t.frames, F.Carries bs f := by
  induction bs using List.reverseRecOn generalizing t with
  | nil =>
    obtain rfl := Option.some.inj ht
    exact ⟨⟨F.syncLen_pos, [], rfl⟩, fun f hf => absurd hf List.not_mem_nil⟩
  | append_singleton bs b ih =>
    rw [run_concat] at ht
    obtain ⟨u, hu, ht⟩ := Option.bind_eq_some_iff.mp ht
    obtain ⟨htr, hfr⟩ := ih hu
    exact F.step_carries hcap htr hfr ht

end Format

end Framing
