/-
  Parties that post messages to each other's mailboxes.

  A party that is served takes the message in front of its mailbox, handles it, and posts what comes
  of it; the message leaves the mailbox only then.  What is posted to a name that has no mailbox is
  lost.

  1. **Mail** — `Mail`: what waits in every mailbox.  `post`, `postAll`, and what of a row of posts
     is `addressed` to a party.
  2. **The loop** — `drain`: a party is served until its mailbox is empty.
  3. **First in, first out** — `drain_fifo`: what the loop has handled is what waited, and behind it
     what was posted to the party meanwhile, in this order.
  4. **An end** — `drain_eq`: a party that posts nothing to itself handles what waits, once each.
-/
import Mathlib.Logic.Function.Basic

/-- What waits in the mailbox of every party that has one, the oldest first. -/
abbrev Mail (ι μ : Type*) := ι → Option (List μ)

namespace Mail

variable {ι μ σ ε : Type*} [DecidableEq ι]

/-! ## Mail -/

/-- A message is posted to a party. -/
def post (mail : Mail ι μ) (p : ι × μ) : Mail ι μ :=
  Function.update mail p.1 ((mail p.1).map fun q => q ++ [p.2])

/-- A row of messages is posted. -/
def postAll (mail : Mail ι μ) (ps : List (ι × μ)) : Mail ι μ := ps.foldl post mail

/-- What of a row of posts is for one party. -/
def addressed (i : ι) (ps : List (ι × μ)) : List μ :=
  (ps.filter fun p => p.1 = i).map Prod.snd

theorem addressed_append (i : ι) (ps qs : List (ι × μ)) :
    addressed i (ps ++ qs) = addressed i ps ++ addressed i qs := by
  rw [addressed, List.filter_append, List.map_append]
  rfl

theorem addressed_of_ne {i : ι} {ps : List (ι × μ)} (h : ∀ p ∈ ps, p.1 ≠ i) :
    addressed i ps = [] := by
  rw [addressed, List.filter_eq_nil_iff.mpr fun p hp => by simpa using h p hp]
  rfl

theorem addressed_of_eq {i : ι} {ps : List (ι × μ)} (h : ∀ p ∈ ps, p.1 = i) :
    addressed i ps = ps.map Prod.snd := by
  rw [addressed, List.filter_eq_self.mpr fun p hp => by simpa using h p hp]

theorem post_apply (mail : Mail ι μ) (p : ι × μ) (i : ι) :
    mail.post p i = (mail i).map fun q => q ++ addressed i [p] := by
  rw [post, Function.update_apply]
  split
  · next h =>
    subst h
    rw [addressed_of_eq (by simp)]
    rfl
  · next h =>
    rw [addressed_of_ne fun q hq => by rw [List.mem_singleton.mp hq]; exact fun heq => h heq.symm]
    simp

/-- What is posted comes behind what waits. -/
theorem postAll_apply (mail : Mail ι μ) (ps : List (ι × μ)) (i : ι) :
    mail.postAll ps i = (mail i).map fun q => q ++ addressed i ps := by
  induction ps generalizing mail with
  | nil => simp [postAll, addressed]
  | cons p ps ih =>
    have hstep : mail.postAll (p :: ps) = (mail.post p).postAll ps := rfl
    have hrow : addressed i (p :: ps) = addressed i [p] ++ addressed i ps :=
      addressed_append i [p] ps
    rw [hstep, ih, post_apply, Option.map_map, hrow]
    refine congrArg (fun f => (mail i).map f) (funext fun q => ?_)
    exact List.append_assoc _ _ _

/-- Posting one row behind another. -/
theorem postAll_append (mail : Mail ι μ) (ps qs : List (ι × μ)) :
    mail.postAll (ps ++ qs) = (mail.postAll ps).postAll qs := List.foldl_append

/-! ## The loop -/

variable (handle : σ → μ → Except ε (σ × List (ι × μ)))

/-- A party handles the message in front, which leaves its mailbox behind what this has posted. -/
def afterFront (mail : Mail ι μ) (i : ι) (ps : List (ι × μ)) : Mail ι μ :=
  Function.update (mail.postAll ps) i ((mail.postAll ps i).map List.tail)

/-- The party is served until its mailbox is empty, for so many rounds at most; with every message
    it handles goes what was posted then.  -/
def drain (i : ι) :
    Nat → σ → Mail ι μ → Except (Option ε) ((σ × Mail ι μ) × List (μ × List (ι × μ)))
  | 0, _, _ => .error none
  | n + 1, s, mail =>
    match (mail i).bind List.head? with
    | none => .ok ((s, mail), [])
    | some m =>
      match handle s m with
      | .error e => .error (some e)
      | .ok (s, ps) =>
        (drain i n s (mail.afterFront i ps)).map fun r => (r.1, (m, ps) :: r.2)

/-- A party handles a row of messages. -/
def handleAll (s : σ) : List μ → Except ε (σ × List (ι × μ))
  | [] => .ok (s, [])
  | m :: ms =>
    match handle s m with
    | .error e => .error e
    | .ok (s, ps) => (handleAll s ms).map fun r => (r.1, ps ++ r.2)

/-- What a row of messages makes a party post, that goes from state to state. -/
def answers (next : σ → μ → σ) (answer : σ → μ → List (ι × μ)) (s : σ) : List μ → List (ι × μ)
  | [] => []
  | m :: ms => answer s m ++ answers next answer (next s m) ms

/-- All that was posted in the course of the loop. -/
def posted (trace : List (μ × List (ι × μ))) : List (ι × μ) := trace.flatMap Prod.snd

variable {handle}

theorem afterFront_self {mail : Mail ι μ} {i : ι} {m : μ} {q : List μ} (h : mail i = some (m :: q))
    (ps : List (ι × μ)) : mail.afterFront i ps i = some (q ++ addressed i ps) := by
  rw [afterFront, Function.update_self, postAll_apply, h]
  rfl

theorem afterFront_of_ne {i j : ι} (hne : j ≠ i) (mail : Mail ι μ) (ps : List (ι × μ)) :
    mail.afterFront i ps j = mail.postAll ps j := by
  rw [afterFront, Function.update_of_ne hne]

/-- What the others get in the rounds to come, they get behind what they got in this one. -/
theorem postAll_afterFront {i j : ι} (hne : j ≠ i) (mail : Mail ι μ) (ps qs : List (ι × μ)) :
    (mail.afterFront i ps).postAll qs j = mail.postAll (ps ++ qs) j := by
  rw [postAll_apply, afterFront_of_ne hne, postAll_append, postAll_apply (mail.postAll ps)]

/-- One round of the loop. -/
theorem drain_cons {i : ι} {mail : Mail ι μ} {m : μ} {q : List μ} (h : mail i = some (m :: q))
    (n : Nat) (s : σ) :
    drain handle i (n + 1) s mail =
      match handle s m with
      | .error e => .error (some e)
      | .ok (s, ps) =>
        (drain handle i n s (mail.afterFront i ps)).map fun r => (r.1, (m, ps) :: r.2) := by
  rw [drain, h]
  rfl

theorem drain_nil {i : ι} {mail : Mail ι μ} (h : mail i = some []) (n : Nat) (s : σ) :
    drain handle i (n + 1) s mail = .ok ((s, mail), []) := by
  rw [drain, h]
  rfl

/-! ## First in, first out -/

/-- **First in, first out.** When the loop is through, nothing waits for the party; it has handled
    what waited and then what came to it meanwhile; and the others have got what was posted to them.
    -/
theorem drain_fifo {i : ι} {n : Nat} {s s' : σ} {mail mail' : Mail ι μ} {q : List μ}
    {trace : List (μ × List (ι × μ))} (hq : mail i = some q)
    (h : drain handle i n s mail = .ok ((s', mail'), trace)) :
    mail' i = some [] ∧ trace.map Prod.fst = q ++ addressed i (posted trace) ∧
      ∀ j, j ≠ i → mail' j = mail.postAll (posted trace) j := by
  induction n generalizing s mail q trace with
  | zero => cases h
  | succ n ih =>
    cases q with
    | nil =>
      rw [drain_nil hq] at h
      cases h
      exact ⟨hq, rfl, fun j _ => rfl⟩
    | cons m q =>
      rw [drain_cons hq] at h
      cases hhandle : handle s m with
      | error e =>
        rw [hhandle] at h
        cases h
      | ok r =>
        obtain ⟨s₁, ps⟩ := r
        rw [hhandle] at h
        dsimp only at h
        cases hdrain : drain handle i n s₁ (mail.afterFront i ps) with
        | error e =>
          rw [hdrain] at h
          cases h
        | ok r =>
          obtain ⟨r₁, rest⟩ := r
          rw [hdrain] at h
          obtain ⟨rfl, rfl⟩ := Prod.mk.inj (Except.ok.inj h)
          obtain ⟨hempty, hfst, hother⟩ := ih (afterFront_self hq ps) hdrain
          have hposted : posted ((m, ps) :: rest) = ps ++ posted rest := rfl
          refine ⟨hempty, ?_, fun j hj => ?_⟩
          · rw [List.map_cons, hfst, hposted, addressed_append, List.cons_append, List.append_assoc]
          · rw [hother j hj, hposted, postAll_afterFront hj]

/-! ## An end -/

omit [DecidableEq ι] in
theorem handleAll_cons {s s₁ s' : σ} {m : μ} {ms : List μ} {ps qs : List (ι × μ)}
    (hm : handle s m = .ok (s₁, ps)) (hms : handleAll handle s₁ ms = .ok (s', qs)) :
    handleAll handle s (m :: ms) = .ok (s', ps ++ qs) := by
  rw [handleAll, hm]
  dsimp only
  rw [hms]
  rfl

omit [DecidableEq ι] in
/-- The answers to a row of messages, if the state has no say. -/
theorem answers_const (next : σ → μ → σ) (f : μ → List (ι × μ)) (s : σ) (q : List μ) :
    answers next (fun _ m => f m) s q = q.flatMap f := by
  induction q generalizing s with
  | nil => rfl
  | cons m q ih => rw [answers, ih, List.flatMap_cons]

omit [DecidableEq ι] in
/-- A handler whose answer is known, for the states and the messages in question, handles a row of
    them. -/
theorem handleAll_eq {P : σ → Prop} {Q : μ → Prop} {next : σ → μ → σ}
    {answer : σ → μ → List (ι × μ)}
    (hP : ∀ s m, P s → Q m → P (next s m))
    (hhandle : ∀ s m, P s → Q m → handle s m = .ok (next s m, answer s m)) {s : σ} {q : List μ}
    (hs : P s) (hq : ∀ m ∈ q, Q m) :
    handleAll handle s q = .ok (q.foldl next s, answers next answer s q) := by
  induction q generalizing s with
  | nil => rfl
  | cons m q ih =>
    have hm := hq m List.mem_cons_self
    exact handleAll_cons (hhandle s m hs hm)
      (ih (hP s m hs hm) fun m' hm' => hq m' (List.mem_cons_of_mem m hm'))

/-- **A party that posts nothing to itself**, in the states and on the messages in question, handles
    what waits for it once each, given fuel for each message; and the others get what it posts. -/
theorem drain_eq {P : σ → Prop} {Q : μ → Prop} {i : ι}
    (hself : ∀ s m s' ps, P s → Q m → handle s m = .ok (s', ps) → P s' ∧ ∀ p ∈ ps, p.1 ≠ i)
    {n : Nat} {s s' : σ} {mail : Mail ι μ} {q : List μ} {ps : List (ι × μ)} (hs : P s)
    (hQ : ∀ m ∈ q, Q m) (hq : mail i = some q) (hn : q.length < n)
    (hall : handleAll handle s q = .ok (s', ps)) :
    ∃ mail' trace, drain handle i n s mail = .ok ((s', mail'), trace) ∧ mail' i = some [] ∧
      ∀ j, j ≠ i → mail' j = mail.postAll ps j := by
  suffices hdrain : ∃ mail' trace, drain handle i n s mail = .ok ((s', mail'), trace) ∧
      posted trace = ps by
    obtain ⟨mail', trace, hdrain, rfl⟩ := hdrain
    obtain ⟨hempty, -, hother⟩ := drain_fifo hq hdrain
    exact ⟨mail', trace, hdrain, hempty, hother⟩
  induction q generalizing n s mail ps with
  | nil =>
    obtain ⟨n, rfl⟩ := Nat.exists_eq_succ_of_ne_zero (Nat.ne_of_gt hn)
    cases hall
    exact ⟨mail, [], drain_nil hq n _, rfl⟩
  | cons m q ih =>
    rw [List.length_cons] at hn
    obtain ⟨n, rfl⟩ := Nat.exists_eq_succ_of_ne_zero (Nat.ne_zero_of_lt hn)
    rw [handleAll] at hall
    cases hhandle : handle s m with
    | error e =>
      rw [hhandle] at hall
      cases hall
    | ok r =>
      obtain ⟨s₁, qs⟩ := r
      obtain ⟨hs₁, hne⟩ := hself s m s₁ qs hs (hQ m List.mem_cons_self) hhandle
      have hnext : mail.afterFront i qs i = some q := by
        rw [afterFront_self hq, addressed_of_ne hne, List.append_nil]
      rw [hhandle] at hall
      dsimp only at hall
      cases hrest : handleAll handle s₁ q with
      | error e =>
        rw [hrest] at hall
        cases hall
      | ok r =>
        obtain ⟨s₂, rs⟩ := r
        rw [hrest] at hall
        obtain ⟨rfl, rfl⟩ := Prod.mk.inj (Except.ok.inj hall)
        obtain ⟨mail', trace, hdrain, hposted⟩ := ih hs₁
          (fun m' hm' => hQ m' (List.mem_cons_of_mem m hm')) hnext (Nat.lt_of_succ_lt_succ hn) hrest
        refine ⟨mail', (m, qs) :: trace, ?_, ?_⟩
        · rw [drain_cons hq, hhandle]
          dsimp only
          rw [hdrain]
          rfl
        · show qs ++ posted trace = qs ++ rs
          rw [hposted]

end Mail
