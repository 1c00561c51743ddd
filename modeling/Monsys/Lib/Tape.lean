/-
  Programs that move along a tape.

  A codec that shares one cursor is a row of small programs, each of which moves the cursor over a
  few cells and returns something: it writes the cells it passes, or reads them.  What the two
  directions have in common is said once.

  1. **The tape** — `Tape σ β`: which cells a state is ready to pass (`Ready`), and when one state
     is another moved over some cells (`Moved`).  Two moves in a row are one over the cells of both,
     and `left`, the length that remains, falls by what was passed.
  2. **Programs** — `Passes c bs a`: from every state that is ready for `bs`, the program moves over
     exactly `bs` and returns `a`.  Rules for the program constructors: nothing, a value, one after
     the other, a check, a loop over a list, a loop that collects, and a program that reports by
     how much `left` has fallen.
  3. **Results** — `Yields c P`: whatever the program returns, `P` holds of it.
-/
import Mathlib.Data.List.Basic
import Mathlib.Data.List.Flatten

/-- How a cursor state `σ` moves over cells `β`. -/
structure Tape (σ β : Type) where
  Ready : List β → σ → Prop
  Moved : List β → σ → σ → Prop
  left : σ → Nat
  moved_nil : ∀ s, Moved [] s s
  ready_append : ∀ {bs bs' s}, Ready (bs ++ bs') s → Ready bs s
  ready_rest : ∀ {bs bs' s s'}, Ready (bs ++ bs') s → Moved bs s s' → Ready bs' s'
  moved_append : ∀ {bs bs' s s' s''}, Moved bs s s' → Moved bs' s' s'' → Moved (bs ++ bs') s s''
  moved_left : ∀ {bs s s'}, Moved bs s s' → left s = left s' + bs.length

namespace Tape

variable {σ β ε α γ : Type}

/-- A program over the cursor; a failure ends it. -/
abbrev Prog (σ ε α : Type) := StateT σ (Except ε) α

/-- From every state ready for `bs`, the program moves over exactly `bs` and returns `a`. -/
def Passes (T : Tape σ β) (c : Prog σ ε α) (bs : List β) (a : α) : Prop :=
  ∀ s, T.Ready bs s → ∃ s', c s = .ok (a, s') ∧ T.Moved bs s s'

/-- `if (c) return e;`, looking at the cursor. -/
def failIf (e : ε) (c : σ → Bool) : Prog σ ε Unit := fun s => if c s then .error e else .ok ((), s)

/-- `for (i = 0; i < len; ++i) { if (f() < 0) return -1; list.push_back(v); }` -/
def times (c : Prog σ ε α) (acc : List α) : Nat → Prog σ ε (List α)
  | 0 => pure acc
  | n + 1 => do
    let v ← c
    times c (acc ++ [v]) n

/-- A loop over the elements of a list. -/
def each (f : α → Prog σ ε γ) : List α → Prog σ ε Unit
  | [] => pure ()
  | x :: xs => do
    let _ ← f x
    each f xs

/-- `int before = remaining(); ..; return before - remaining();` -/
def counted (left : σ → Nat) (c : Prog σ ε α) : Prog σ ε (Int × α) := do
  let before := left (← get)
  let a ← c
  let after := left (← get)
  return ((before : Int) - after, a)

/-- A loop that collects behind some values collects behind none, and puts them in front. -/
theorem times_acc (c : Prog σ ε α) : ∀ (k : Nat) (acc : List α),
    times c acc k = do return acc ++ (← times c [] k) := by
  intro k
  induction k with
  | zero =>
    intro acc
    simp only [times, pure_bind, List.append_nil]
  | succ k ih =>
    intro acc
    simp only [times, bind_assoc]
    congr 1
    funext v
    rw [ih (acc ++ [v]), ih ([] ++ [v])]
    simp only [bind_assoc, pure_bind, List.nil_append, List.append_assoc]

namespace Passes

variable {T : Tape σ β}

theorem ret (a : α) : T.Passes (pure a : Prog σ ε α) [] a := fun s _ => ⟨s, rfl, T.moved_nil s⟩

/-- One after the other: the cells of both, in order. -/
theorem bind {c : Prog σ ε α} {f : α → Prog σ ε γ} {bs bs' : List β} {a : α} {g : γ}
    (hc : T.Passes c bs a) (hf : T.Passes (f a) bs' g) : T.Passes (c >>= f) (bs ++ bs') g := by
  intro s hready
  obtain ⟨s', hrun, hmoved⟩ := hc s (T.ready_append hready)
  obtain ⟨s'', hrun', hmoved'⟩ := hf s' (T.ready_rest hready hmoved)
  refine ⟨s'', ?_, T.moved_append hmoved hmoved'⟩
  show (c s >>= fun p => f p.1 p.2) = _
  rw [hrun]
  exact hrun'

/-- Past a value. -/
theorem given {f : α → Prog σ ε γ} {bs : List β} {a : α} {g : γ} (hf : T.Passes (f a) bs g) :
    T.Passes (pure a >>= f) bs g := hf

/-- Before something that moves nothing. -/
theorem still {c : Prog σ ε α} {f : α → Prog σ ε γ} {bs : List β} {a : α} {g : γ}
    (hc : T.Passes c bs a) (hf : T.Passes (f a) [] g) : T.Passes (c >>= f) bs g := by
  have h := hc.bind hf
  rwa [List.append_nil] at h

/-- The last of a row. -/
theorem last {c : Prog σ ε α} {f : α → γ} {bs : List β} {a : α} (hc : T.Passes c bs a) :
    T.Passes (do let v ← c; pure (f v)) bs (f a) := hc.still (ret (f a))

/-- Past a check that a state ready for the rest does not meet. -/
theorem check {e : ε} {c : σ → Bool} {f : Unit → Prog σ ε γ} {bs : List β} {g : γ}
    (hc : ∀ s, T.Ready bs s → c s = false) (hf : T.Passes (f ()) bs g) :
    T.Passes (failIf e c >>= f) bs g := by
  intro s hready
  obtain ⟨s', hrun, hmoved⟩ := hf s hready
  refine ⟨s', ?_, hmoved⟩
  show (failIf e c s >>= fun p => f p.1 p.2) = _
  rw [failIf, hc s hready]
  exact hrun

/-- A loop over a list: the cells of its elements. -/
theorem each {f : α → Prog σ ε γ} {cells : α → List β} : ∀ {xs : List α},
    (∀ x ∈ xs, ∃ r, T.Passes (f x) (cells x) r) →
      T.Passes (Tape.each f xs) (xs.flatMap cells) () := by
  intro xs
  induction xs with
  | nil => exact fun _ => ret ()
  | cons x xs ih =>
    intro h
    obtain ⟨r, hx⟩ := h x (List.mem_cons_self ..)
    exact hx.bind (ih fun y hy => h y (List.mem_cons_of_mem x hy))

/-- A loop that collects: one value for each element whose cells it passes. -/
theorem times {δ : Type} {c : Prog σ ε α} {cells : δ → List β} {val : δ → α} :
    ∀ {xs : List δ} {acc : List α}, (∀ x ∈ xs, T.Passes c (cells x) (val x)) →
      T.Passes (Tape.times c acc xs.length) (xs.flatMap cells) (acc ++ xs.map val) := by
  intro xs
  induction xs with
  | nil =>
    intro acc _
    rw [List.map_nil, List.append_nil]
    exact ret acc
  | cons x xs ih =>
    intro acc h
    have hrest := @ih (acc ++ [val x]) fun y hy => h y (List.mem_cons_of_mem x hy)
    rw [List.append_assoc, List.singleton_append] at hrest
    exact (h x (List.mem_cons_self ..)).bind hrest

/-- What has been passed is what `left` has lost. -/
theorem counted {c : Prog σ ε α} {bs : List β} {a : α} (hc : T.Passes c bs a) :
    T.Passes (Tape.counted T.left c) bs ((bs.length : Int), a) := by
  intro s hready
  obtain ⟨s', hrun, hmoved⟩ := hc s hready
  refine ⟨s', ?_, hmoved⟩
  have hleft := T.moved_left hmoved
  show (c s >>= fun p => Except.ok (((T.left s : Int) - T.left p.2, p.1), p.2)) = _
  rw [hrun]
  show Except.ok (((T.left s : Int) - T.left s', a), s') = _
  rw [show (T.left s : Int) - T.left s' = bs.length by omega]

end Passes

/-! ## What a program can return -/

/-- Whatever the program returns, `P` holds of it. -/
def Yields (c : Prog σ ε α) (P : α → Prop) : Prop := ∀ s a s', c s = .ok (a, s') → P a

namespace Yields

variable {P : α → Prop}

theorem ret {a : α} (h : P a) : Yields (pure a : Prog σ ε α) P := by
  intro s a' s' hrun
  cases hrun
  exact h

theorem error (e : ε) : Yields (throw e : Prog σ ε α) P := fun _ _ _ hrun => nomatch hrun

/-- One after the other: what the first yields is known to the second. -/
theorem bind {Q : γ → Prop} {c : Prog σ ε γ} {f : γ → Prog σ ε α} (hc : Yields c Q)
    (hf : ∀ a, Q a → Yields (f a) P) : Yields (c >>= f) P := by
  intro s a s' hrun
  replace hrun : (c s >>= fun p => f p.1 p.2) = .ok (a, s') := hrun
  cases hfirst : c s with
  | error e =>
    rw [hfirst] at hrun
    cases hrun
  | ok p =>
    rw [hfirst] at hrun
    exact hf p.1 (hc s p.1 p.2 hfirst) p.2 a s' hrun

/-- Behind something of which nothing need be known. -/
theorem behind {c : Prog σ ε γ} {f : γ → Prog σ ε α} (hf : ∀ a, Yields (f a) P) :
    Yields (c >>= f) P := bind (fun _ _ _ _ => trivial) fun a (_ : True) => hf a

theorem branch {p : Prop} [Decidable p] {c c' : Prog σ ε α} (h : Yields c P)
    (h' : Yields c' P) : Yields (if p then c else c') P := by
  split
  · exact h
  · exact h'

theorem counted {left : σ → Nat} {c : Prog σ ε α} (hc : Yields c P) :
    Yields (Tape.counted left c) fun r => P r.2 :=
  behind fun _ => bind hc fun _ h => behind fun _ => ret h

end Yields

end Tape
