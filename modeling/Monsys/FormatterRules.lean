/-
  What the parser of a `ZFormatter` makes of a text.

  1. **Rules** — `Reads`: one rule for each way through `varFunc`, `param` and the loop over the
     arguments, in terms of the text that remains.
  2. **Each text is read in one way** — `exists_reads`, `Reads.unique`.
  3. **Scripts** — `Script`, the rounds of `compile`, and the same for them.
-/
import Monsys.Formatter

namespace Monsys

namespace ZFormatter

/-! ## Rules -/

/-- The functions that call each other. -/
inductive Part
  | func
  | param
  | params

abbrev Part.Result : Part → Type
  | .func => Option ZFunc
  | .param => Option ZFunc
  | .params => List ZFunc

def blanksOff (t : List UInt8) : List UInt8 := t.dropWhile isBlank

/-- What stands between a '$' and the byte that tells functions from variables. -/
structure Head where
  braced : Bool
  name : List UInt8
  rest : List UInt8

def head (u : List UInt8) : Head :=
  let braced := u.headD 0 == openBrace
  let v := blanksOff (if braced then u.tail else u)
  let w := v.dropWhile isIdentifierChar
  ⟨braced, v.takeWhile isIdentifierChar, if braced then blanksOff w else w⟩

/-- A variable: only the first argument is there. -/
def IsOne (name : List UInt8) : Prop := isNumber name = true ∧ atoi name = 1

instance (name : List UInt8) : Decidable (IsOne name) :=
  inferInstanceAs (Decidable (_ ∧ _))

/-- `name(` of a function, and what follows. -/
structure Opens (u : List UInt8) (g : List ZFunc → ZFunc) (r : List UInt8) : Prop where
  rest : (head u).rest = openParen :: r
  name : getFuncByName (head u).name = some g

/-- From the text, one of the functions returns a result and leaves a rest; the flag says that
    nothing that was begun, a function or a string, has gone wrong. -/
inductive Reads : (k : Part) → List UInt8 → k.Result → Bool → List UInt8 → Prop
  | noFunc {t} : t.headD 0 ≠ dollar → Reads .func t none true t
  | badVariable {u} : (head u).rest.headD 0 ≠ openParen → ¬ IsOne (head u).name →
      Reads .func (dollar :: u) none false (head u).rest
  | argument {u} : (head u).rest.headD 0 ≠ openParen → IsOne (head u).name →
      Reads .func (dollar :: u) (some .arg) true (head u).rest
  | unknown {u r} : (head u).rest = openParen :: r → getFuncByName (head u).name = none →
      Reads .func (dollar :: u) none false (blanksOff r)
  | noEnd {u r g args ok r'} : Opens u g r → Reads .params (blanksOff r) args ok r' →
      r'.headD 0 ≠ closeParen → Reads .func (dollar :: u) none false r'
  | call {u r g args ok r'} : Opens u g r →
      Reads .params (blanksOff r) args ok (closeParen :: r') → (head u).braced = false →
      Reads .func (dollar :: u) (some (g args)) ok r'
  | bracedCall {u r g args ok r' r''} : Opens u g r →
      Reads .params (blanksOff r) args ok (closeParen :: r') → (head u).braced = true →
      blanksOff r' = closeBrace :: r'' → Reads .func (dollar :: u) (some (g args)) ok r''
  | noBrace {u r g args ok r'} : Opens u g r →
      Reads .params (blanksOff r) args ok (closeParen :: r') → (head u).braced = true →
      (blanksOff r').headD 0 ≠ closeBrace → Reads .func (dollar :: u) none false (blanksOff r')
  | string {t body r} : t = quote :: (body ++ quote :: r) → quote ∉ body →
      Reads .param t (some (.stringFunc body)) true (quote :: r)
  | openString {t u} : t = quote :: u → quote ∉ u → Reads .param t none false u
  | number {t} : isDigit (t.headD 0) = true →
      Reads .param t (some (.numberFunc (atoi (t.takeWhile isDigit)))) true (t.dropWhile isDigit)
  | func {t g ok r} : t.headD 0 = dollar → Reads .func t g ok r → Reads .param t g ok r
  | noParam {t} : t.headD 0 ≠ quote → isDigit (t.headD 0) = false → t.headD 0 ≠ dollar →
      Reads .param t none true t
  | stop {t ok r} : Reads .param t none ok r → Reads .params t [] ok r
  | last {t p ok r} : Reads .param t (some p) ok r → (blanksOff r).headD 0 ≠ comma →
      Reads .params t [p] ok (blanksOff r)
  | more {t p ok r r' ps ok' r''} : Reads .param t (some p) ok r → blanksOff r = comma :: r' →
      Reads .params (blanksOff r') ps ok' r'' → Reads .params t (p :: ps) (ok && ok') r''

section Rest

variable {k : Part} {t rest : List UInt8} {r : k.Result} {ok : Bool}

theorem blanksOff_suffix (t : List UInt8) : blanksOff t <:+ t := List.dropWhile_suffix isBlank

theorem head_suffix (u : List UInt8) : (head u).rest <:+ u := by
  unfold head
  cases u.headD 0 == openBrace
  · exact (List.dropWhile_suffix isIdentifierChar).trans (blanksOff_suffix u)
  · exact (blanksOff_suffix _).trans ((List.dropWhile_suffix isIdentifierChar).trans
      ((blanksOff_suffix _).trans (List.tail_suffix u)))

theorem Opens.suffix {u r : List UInt8} {g : List ZFunc → ZFunc} (h : Opens u g r) :
    blanksOff r <:+ u :=
  (blanksOff_suffix r).trans ((List.suffix_cons openParen r).trans (h.rest ▸ head_suffix u))

theorem Opens.length_lt {u r : List UInt8} {g : List ZFunc → ZFunc} (h : Opens u g r) {n : Nat}
    (hn : (dollar :: u).length < n + 1) : (blanksOff r).length < n := by
  have hle := h.suffix.length_le
  rw [List.length_cons] at hn
  omega

/-- What is left is an end of the text. -/
theorem Reads.suffix (h : Reads k t r ok rest) : rest <:+ t := by
  induction h with
  | noFunc => exact List.suffix_refl _
  | badVariable => exact (head_suffix _).trans (List.suffix_cons ..)
  | argument => exact (head_suffix _).trans (List.suffix_cons ..)
  | @unknown u r hrest =>
    have hopen := (List.suffix_cons openParen r).trans (hrest ▸ head_suffix u)
    exact (blanksOff_suffix _).trans (hopen.trans (List.suffix_cons ..))
  | noEnd hopen _ _ ih => exact ih.trans (hopen.suffix.trans (List.suffix_cons ..))
  | call hopen _ _ ih =>
    exact (List.suffix_cons ..).trans (ih.trans (hopen.suffix.trans (List.suffix_cons ..)))
  | @bracedCall u r g args ok r' r'' hopen _ _ hclose ih =>
    have hlast := (List.suffix_cons closeBrace r'').trans (hclose ▸ blanksOff_suffix r')
    exact hlast.trans
      ((List.suffix_cons ..).trans (ih.trans (hopen.suffix.trans (List.suffix_cons ..))))
  | noBrace hopen _ _ _ ih =>
    exact (blanksOff_suffix _).trans
      ((List.suffix_cons ..).trans (ih.trans (hopen.suffix.trans (List.suffix_cons ..))))
  | string ht => exact ht ▸ (List.suffix_append ..).trans (List.suffix_cons ..)
  | openString ht => exact ht ▸ List.suffix_cons ..
  | number => exact List.dropWhile_suffix isDigit
  | func _ _ ih => exact ih
  | noParam => exact List.suffix_refl _
  | stop _ ih => exact ih
  | last _ _ ih => exact (blanksOff_suffix _).trans ih
  | @more t p ok r r' ps ok' r'' _ hcomma _ ihp ih =>
    have hbehind := (List.suffix_cons comma r').trans (hcomma ▸ blanksOff_suffix r)
    exact ih.trans ((blanksOff_suffix _).trans (hbehind.trans ihp))

theorem cons_of_headD {b : UInt8} {t : List UInt8} (h : t.headD 0 = b) (hb : b ≠ 0) :
    t = b :: t.tail := by
  cases t with
  | nil => exact absurd h.symm hb
  | cons c t => rw [← h]; rfl

/-! ## Each text is read in one way -/

theorem takeWhile_quote {body : List UInt8} (h : quote ∉ body) (r : List UInt8) :
    (body ++ quote :: r).takeWhile (· != quote) = body := by
  have hall : ∀ c ∈ body, (c != quote) = true := fun c hc => bne_iff_ne.mpr fun heq => h (heq ▸ hc)
  rw [List.takeWhile_append_of_pos hall, List.takeWhile_cons_of_neg (by decide), List.append_nil]

theorem quoted_unique {body body' r r' : List UInt8} (h : quote ∉ body) (h' : quote ∉ body')
    (heq : body' ++ quote :: r' = body ++ quote :: r) : body' = body ∧ r' = r := by
  have hbody := congrArg (List.takeWhile (· != quote)) heq
  rw [takeWhile_quote h, takeWhile_quote h'] at hbody
  rw [hbody] at heq
  exact ⟨hbody, (List.cons.inj (List.append_cancel_left heq)).2⟩

/-- A call is read in some way, if its arguments are. -/
theorem exists_reads_call {u r r' : List UInt8} {g : List ZFunc → ZFunc} {args : List ZFunc}
    {ok : Bool} (hopen : Opens u g r) (hargs : Reads .params (blanksOff r) args ok r') :
    ∃ x ok rest, Reads .func (dollar :: u) x ok rest := by
  by_cases hend : r'.headD 0 = closeParen
  · rw [cons_of_headD hend (by decide)] at hargs
    cases hbrace : (head u).braced with
    | false => exact ⟨_, _, _, .call hopen hargs hbrace⟩
    | true =>
      by_cases hclose : (blanksOff r'.tail).headD 0 = closeBrace
      · exact ⟨_, _, _, .bracedCall hopen hargs hbrace (cons_of_headD hclose (by decide))⟩
      · exact ⟨_, _, _, .noBrace hopen hargs hbrace hclose⟩
  · exact ⟨_, _, _, .noEnd hopen hargs hend⟩

theorem exists_reads_func {n : Nat}
    (ih : ∀ t : List UInt8, t.length < n → ∃ args ok r, Reads .params t args ok r)
    {t : List UInt8} (ht : t.length < n + 1) : ∃ x ok rest, Reads .func t x ok rest := by
  by_cases hdollar : t.headD 0 = dollar
  · rw [cons_of_headD hdollar (by decide)] at ht ⊢
    generalize t.tail = u at ht ⊢
    by_cases hparen : (head u).rest.headD 0 = openParen
    · have hrest := cons_of_headD hparen (by decide)
      cases hname : getFuncByName (head u).name with
      | none => exact ⟨_, _, _, .unknown hrest hname⟩
      | some g =>
        have hopen : Opens u g _ := ⟨hrest, hname⟩
        obtain ⟨args, ok, r', hargs⟩ := ih _ (hopen.length_lt ht)
        exact exists_reads_call hopen hargs
    · by_cases hone : IsOne (head u).name
      · exact ⟨_, _, _, .argument hparen hone⟩
      · exact ⟨_, _, _, .badVariable hparen hone⟩
  · exact ⟨_, _, _, .noFunc hdollar⟩

theorem exists_reads_param {t : List UInt8} (hfunc : ∃ x ok rest, Reads .func t x ok rest) :
    ∃ x ok rest, Reads .param t x ok rest := by
  by_cases hquote : t.headD 0 = quote
  · have hcons := cons_of_headD hquote (by decide)
    by_cases hend : quote ∈ t.tail
    · obtain ⟨body, r, hbody, hsplit⟩ := List.eq_append_cons_of_mem hend
      rw [hbody] at hcons
      exact ⟨_, _, _, .string hcons hsplit⟩
    · exact ⟨_, _, _, .openString hcons hend⟩
  · cases hdigit : isDigit (t.headD 0) with
    | true => exact ⟨_, _, _, .number hdigit⟩
    | false =>
      by_cases hdollar : t.headD 0 = dollar
      · obtain ⟨x, ok, rest, h⟩ := hfunc
        exact ⟨_, _, _, .func hdollar h⟩
      · exact ⟨_, _, _, .noParam hquote hdigit hdollar⟩

/-- Each text is read in some way. -/
theorem exists_reads (n : Nat) : ∀ t : List UInt8, t.length < n → ∀ k : Part,
    ∃ r ok rest, Reads k t r ok rest := by
  -- a '$' or a comma is passed before anything is read from a later text
  induction n with
  | zero => exact fun t ht => absurd ht (Nat.not_lt_zero _)
  | succ n ih =>
    intro t ht k
    have hfunc := exists_reads_func (fun t ht => ih t ht .params) ht
    cases k with
    | func => exact hfunc
    | param => exact exists_reads_param hfunc
    | params =>
      obtain ⟨p, ok, r, hp⟩ := exists_reads_param hfunc
      cases p with
      | none => exact ⟨_, _, _, .stop hp⟩
      | some p =>
        by_cases hcomma : (blanksOff r).headD 0 = comma
        · have hcons := cons_of_headD hcomma (by decide)
          have hle := ((blanksOff_suffix r).trans hp.suffix).length_le
          have hle' := (blanksOff_suffix (blanksOff r).tail).length_le
          rw [hcons, List.length_cons] at hle
          obtain ⟨ps, ok', r', hps⟩ := ih (blanksOff (blanksOff r).tail) (by omega) .params
          exact ⟨_, _, _, .more hp hcons hps⟩
        · exact ⟨_, _, _, .last hp hcomma⟩

/-- What a call comes to behind its arguments. -/
def closing (braced : Bool) (func : ZFunc) (ok : Bool) (r : List UInt8) :
    Option ZFunc × Bool × List UInt8 :=
  if r.headD 0 ≠ closeParen then (none, false, r)
  else if braced then
    if (blanksOff r.tail).headD 0 ≠ closeBrace then (none, false, blanksOff r.tail)
    else (some func, ok, (blanksOff r.tail).tail)
  else (some func, ok, r.tail)

theorem Opens.unique {u r r' : List UInt8} {g g' : List ZFunc → ZFunc} (h : Opens u g r)
    (h' : Opens u g' r') : g' = g ∧ r' = r :=
  ⟨Option.some.inj (h'.name.symm.trans h.name), (List.cons.inj (h'.rest.symm.trans h.rest)).2⟩

/-- A call is read by its arguments. -/
theorem Reads.call_cases {u r rest : List UInt8} {g : List ZFunc → ZFunc} {x : Option ZFunc}
    {ok : Bool} (hopen : Opens u g r) (h : Reads .func (dollar :: u) x ok rest) :
    ∃ args ok' r', Reads .params (blanksOff r) args ok' r' ∧
      (x, ok, rest) = closing (head u).braced (g args) ok' r' := by
  cases h with
  | noFunc ht => exact absurd rfl ht
  | badVariable hvar => rw [hopen.rest] at hvar; exact absurd rfl hvar
  | argument hvar => rw [hopen.rest] at hvar; exact absurd rfl hvar
  | unknown _ hname => rw [hopen.name] at hname; cases hname
  | noEnd hopen' hargs hend =>
    obtain ⟨rfl, rfl⟩ := hopen.unique hopen'
    exact ⟨_, _, _, hargs, (if_pos hend).symm⟩
  | call hopen' hargs hbrace =>
    obtain ⟨rfl, rfl⟩ := hopen.unique hopen'
    rw [hbrace]
    exact ⟨_, _, _, hargs, rfl⟩
  | bracedCall hopen' hargs hbrace hclose =>
    obtain ⟨rfl, rfl⟩ := hopen.unique hopen'
    refine ⟨_, _, _, hargs, ?_⟩
    rw [hbrace, closing, List.headD_cons, if_neg (not_not_intro rfl), if_pos rfl, List.tail_cons,
      hclose, List.headD_cons, if_neg (not_not_intro rfl)]
    rfl
  | noBrace hopen' hargs hbrace hclose =>
    obtain ⟨rfl, rfl⟩ := hopen.unique hopen'
    refine ⟨_, _, _, hargs, ?_⟩
    rw [hbrace, closing, List.headD_cons, if_neg (not_not_intro rfl), if_pos rfl, List.tail_cons,
      if_pos hclose]

/-- Where the arguments are read in one way, so is the call. -/
theorem Reads.call_unique {u r rest rest' r₀ : List UInt8} {g : List ZFunc → ZFunc}
    {x x' : Option ZFunc} {ok ok' ok₀ : Bool} {args : List ZFunc} (hopen : Opens u g r)
    (hargs : ∀ {a b c}, Reads .params (blanksOff r) a b c → a = args ∧ b = ok₀ ∧ c = r₀)
    (h : Reads .func (dollar :: u) x ok rest) (h' : Reads .func (dollar :: u) x' ok' rest') :
    x' = x ∧ ok' = ok ∧ rest' = rest := by
  obtain ⟨_, _, _, hown, heq⟩ := h.call_cases hopen
  obtain ⟨_, _, _, hother, heq'⟩ := h'.call_cases hopen
  obtain ⟨rfl, rfl, rfl⟩ := hargs hown
  obtain ⟨rfl, rfl, rfl⟩ := hargs hother
  have hsame := heq'.trans heq.symm
  exact ⟨congrArg (·.1) hsame, congrArg (·.2.1) hsame, congrArg (·.2.2) hsame⟩

/-- A name with no '(' behind it. -/
theorem Reads.variable_eq {u rest : List UInt8} {x : Option ZFunc} {ok : Bool}
    (hvar : (head u).rest.headD 0 ≠ openParen) (h : Reads .func (dollar :: u) x ok rest) :
    x = (if IsOne (head u).name then some .arg else none) ∧ ok = decide (IsOne (head u).name) ∧
      rest = (head u).rest := by
  cases h with
  | noFunc ht => exact absurd rfl ht
  | badVariable _ hname => exact ⟨(if_neg hname).symm, (decide_eq_false hname).symm, rfl⟩
  | argument _ hone => exact ⟨(if_pos hone).symm, (decide_eq_true hone).symm, rfl⟩
  | unknown hrest => rw [hrest] at hvar; exact absurd rfl hvar
  | noEnd hopen => rw [hopen.rest] at hvar; exact absurd rfl hvar
  | call hopen => rw [hopen.rest] at hvar; exact absurd rfl hvar
  | bracedCall hopen => rw [hopen.rest] at hvar; exact absurd rfl hvar
  | noBrace hopen => rw [hopen.rest] at hvar; exact absurd rfl hvar

/-- One that is no function's name. -/
theorem Reads.unknown_eq {u r rest : List UInt8} {x : Option ZFunc} {ok : Bool}
    (hrest : (head u).rest = openParen :: r) (hname : getFuncByName (head u).name = none)
    (h : Reads .func (dollar :: u) x ok rest) : x = none ∧ ok = false ∧ rest = blanksOff r := by
  cases h with
  | noFunc ht => exact absurd rfl ht
  | badVariable hvar => rw [hrest] at hvar; exact absurd rfl hvar
  | argument hvar => rw [hrest] at hvar; exact absurd rfl hvar
  | unknown hrest' =>
    obtain rfl := (List.cons.inj (hrest'.symm.trans hrest)).2
    exact ⟨rfl, rfl, rfl⟩
  | noEnd hopen => rw [hopen.name] at hname; cases hname
  | call hopen => rw [hopen.name] at hname; cases hname
  | bracedCall hopen => rw [hopen.name] at hname; cases hname
  | noBrace hopen => rw [hopen.name] at hname; cases hname

theorem not_isDigit_quote {t u : List UInt8} (ht : t = quote :: u) : ¬ isDigit (t.headD 0) = true := by
  rw [ht]
  exact (by decide : ¬ isDigit quote = true)

theorem headD_ne_dollar {t u : List UInt8} (ht : t = quote :: u) : t.headD 0 ≠ dollar := by
  rw [ht]
  exact (by decide : quote ≠ dollar)

/-- A string ends at the first quote there is. -/
theorem Reads.quoted_cases {u rest : List UInt8} {x : Option ZFunc} {ok : Bool}
    (h : Reads .param (quote :: u) x ok rest) :
    (∃ body r, u = body ++ quote :: r ∧ quote ∉ body ∧ x = some (.stringFunc body) ∧ ok = true ∧
      rest = quote :: r) ∨ (quote ∉ u ∧ x = none ∧ ok = false ∧ rest = u) := by
  generalize ht : quote :: u = t at h
  cases h with
  | string ht' hbody =>
    exact Or.inl ⟨_, _, (List.cons.inj (ht.trans ht')).2, hbody, rfl, rfl, rfl⟩
  | openString ht' hu =>
    obtain rfl := (List.cons.inj (ht.trans ht')).2
    exact Or.inr ⟨hu, rfl, rfl, rfl⟩
  | number hdigit => exact absurd hdigit (not_isDigit_quote ht.symm)
  | func hdollar => exact absurd hdollar (headD_ne_dollar ht.symm)
  | noParam hquote => exact absurd (ht ▸ rfl) hquote

/-- … and in no other. -/
theorem Reads.unique (h : Reads k t r ok rest) {r' : k.Result} {ok' : Bool} {rest' : List UInt8}
    (h' : Reads k t r' ok' rest') : r' = r ∧ ok' = ok ∧ rest' = rest := by
  induction h generalizing ok' rest' with
  | noFunc ht =>
    cases h' with
    | noFunc => exact ⟨rfl, rfl, rfl⟩
    | _ => exact absurd rfl ht
  | badVariable hvar hname =>
    have hread := h'.variable_eq hvar
    rwa [if_neg hname, decide_eq_false hname] at hread
  | argument hvar hone =>
    have hread := h'.variable_eq hvar
    rwa [if_pos hone, decide_eq_true hone] at hread
  | unknown hrest hname => exact h'.unknown_eq hrest hname
  | noEnd hopen hargs hend ih => exact call_unique hopen ih (.noEnd hopen hargs hend) h'
  | call hopen hargs hbrace ih => exact call_unique hopen ih (.call hopen hargs hbrace) h'
  | bracedCall hopen hargs hbrace hclose ih =>
    exact call_unique hopen ih (.bracedCall hopen hargs hbrace hclose) h'
  | noBrace hopen hargs hbrace hclose ih =>
    exact call_unique hopen ih (.noBrace hopen hargs hbrace hclose) h'
  | string ht hbody =>
    subst ht
    rcases h'.quoted_cases with ⟨body', r', hsplit, hbody', rfl, rfl, rfl⟩ | ⟨hu, -⟩
    · obtain ⟨rfl, rfl⟩ := quoted_unique hbody hbody' hsplit.symm
      exact ⟨rfl, rfl, rfl⟩
    · exact absurd (List.mem_append_right _ List.mem_cons_self) hu
  | openString ht hu =>
    subst ht
    rcases h'.quoted_cases with ⟨body', r', hsplit, -⟩ | ⟨-, hread⟩
    · rw [hsplit] at hu
      exact absurd (List.mem_append_right _ List.mem_cons_self) hu
    · exact hread
  | number hdigit =>
    cases h' with
    | string ht => exact absurd hdigit (not_isDigit_quote ht)
    | openString ht => exact absurd hdigit (not_isDigit_quote ht)
    | number => exact ⟨rfl, rfl, rfl⟩
    | func hdollar => rw [hdollar] at hdigit; exact absurd hdigit (by decide)
    | noParam _ hdigit' => rw [hdigit] at hdigit'; cases hdigit'
  | func hdollar _ ih =>
    cases h' with
    | string ht => exact absurd hdollar (headD_ne_dollar ht)
    | openString ht => exact absurd hdollar (headD_ne_dollar ht)
    | number hdigit => rw [hdollar] at hdigit; exact absurd hdigit (by decide)
    | func _ h' => exact ih h'
    | noParam _ _ hdollar' => exact absurd hdollar hdollar'
  | noParam hquote hdigit hdollar =>
    cases h' with
    | string ht => rw [ht] at hquote; exact absurd rfl hquote
    | openString ht => rw [ht] at hquote; exact absurd rfl hquote
    | number hdigit' => rw [hdigit] at hdigit'; cases hdigit'
    | func hdollar' => exact absurd hdollar' hdollar
    | noParam => exact ⟨rfl, rfl, rfl⟩
  | stop hp ih =>
    cases h' with
    | stop hp' =>
      obtain ⟨-, rfl, rfl⟩ := ih hp'
      exact ⟨rfl, rfl, rfl⟩
    | last hp' => cases (ih hp').1
    | more hp' => cases (ih hp').1
  | last hp hcomma ih =>
    cases h' with
    | stop hp' => cases (ih hp').1
    | last hp' =>
      obtain ⟨hsame, rfl, rfl⟩ := ih hp'
      cases hsame
      exact ⟨rfl, rfl, rfl⟩
    | more hp' hcomma' =>
      obtain ⟨-, -, rfl⟩ := ih hp'
      rw [hcomma'] at hcomma
      exact absurd rfl hcomma
  | more hp hcomma hps ihp ih =>
    cases h' with
    | stop hp' => cases (ihp hp').1
    | last hp' hcomma' =>
      obtain ⟨-, -, rfl⟩ := ihp hp'
      rw [hcomma] at hcomma'
      exact absurd rfl hcomma'
    | more hp' hcomma' hps' =>
      obtain ⟨hsame, rfl, rfl⟩ := ihp hp'
      cases hsame
      obtain rfl := (List.cons.inj (hcomma'.symm.trans hcomma)).2
      obtain ⟨rfl, rfl, rfl⟩ := ih hps'
      exact ⟨rfl, rfl, rfl⟩

end Rest

/-! ## Scripts -/

/-- The rounds of `compile` from a text on: the functions, whether nothing has gone wrong in them or
    in the expression that ended the rounds, and what that left. -/
inductive Script : List UInt8 → List ZFunc → Bool → List UInt8 → Prop
  | stop {t ok r} : constEnd false 0 t = 0 → Reads .func t none ok r → Script t [] ok r
  | text {w x t fs ok r} : w = x ++ t → constEnd false 0 w = x.length → x ≠ [] →
      Script t fs ok r → Script w (.stringFunc x :: fs) ok r
  | func {t g ok u fs ok' r} : constEnd false 0 t = 0 → Reads .func t (some g) ok u →
      Script u fs ok' r → Script t (g :: fs) (ok && ok') r

section Scripts

variable {s t r : List UInt8} {fs : List ZFunc} {ok : Bool}

theorem constEnd_le (t : List UInt8) : ∀ hasDollar n, constEnd hasDollar n t ≤ n + t.length := by
  induction t with
  | nil => exact fun _ n => Nat.le_refl n
  | cons c t ih =>
    intro hasDollar n
    have hstep := ih true (n + 1)
    have hclear := ih false (n + 1)
    have hkeep := ih hasDollar (n + 1)
    rw [constEnd, List.length_cons]
    split_ifs <;> omega

theorem constEnd_ge (t : List UInt8) :
    ∀ hasDollar n, n ≤ constEnd hasDollar n t + hasDollar.toNat := by
  induction t with
  | nil => exact fun _ n => Nat.le_add_right n _
  | cons c t ih =>
    intro hasDollar n
    have hstep := ih true (n + 1)
    have hclear := ih false (n + 1)
    have hkeep := ih hasDollar (n + 1)
    rw [Bool.toNat_true] at hstep
    rw [Bool.toNat_false] at hclear
    rw [constEnd]
    split_ifs with _ _ hflag
    · omega
    · rw [hflag, Bool.toNat_true]
      omega
    · omega
    · omega

/-- A function is read from at least one byte. -/
theorem Reads.length_lt {g : ZFunc} (h : Reads .func t (some g) ok r) : r.length < t.length := by
  have hsplit : ∃ u, t = dollar :: u ∧ r <:+ u := by
    cases h with
    | argument => exact ⟨_, rfl, head_suffix _⟩
    | call hopen hargs =>
      exact ⟨_, rfl, (List.suffix_cons ..).trans (hargs.suffix.trans hopen.suffix)⟩
    | @bracedCall _ _ _ _ _ r' _ hopen hargs _ hclose =>
      have hlast := (List.suffix_cons closeBrace r).trans (hclose ▸ blanksOff_suffix r')
      exact ⟨_, rfl, hlast.trans
        ((List.suffix_cons ..).trans (hargs.suffix.trans hopen.suffix))⟩
  obtain ⟨u, rfl, hu⟩ := hsplit
  exact Nat.lt_succ_of_le hu.length_le

theorem Script.suffix (h : Script t fs ok r) : r <:+ t := by
  induction h with
  | stop _ hfunc => exact hfunc.suffix
  | text hw _ _ _ ih => exact hw ▸ ih.trans (List.suffix_append ..)
  | func _ hfunc _ ih => exact ih.trans hfunc.suffix

/-- Each text is a script in some way. -/
theorem exists_script (n : Nat) : ∀ t : List UInt8, t.length < n → ∃ fs ok r, Script t fs ok r := by
  induction n with
  | zero => exact fun t ht => absurd ht (Nat.not_lt_zero _)
  | succ n ih =>
    intro t ht
    by_cases hconst : constEnd false 0 t = 0
    · obtain ⟨x, ok, u, hfunc⟩ := exists_reads (t.length + 1) t (Nat.lt_succ_self _) .func
      cases x with
      | none => exact ⟨_, _, _, .stop hconst hfunc⟩
      | some g =>
        have hless := hfunc.length_lt
        obtain ⟨fs, ok', r, h⟩ := ih u (by omega)
        exact ⟨_, _, _, .func hconst hfunc h⟩
    · have hle := constEnd_le t false 0
      have hx : (t.take (constEnd false 0 t)).length = constEnd false 0 t := by
        rw [List.length_take]
        omega
      obtain ⟨fs, ok, r, h⟩ := ih (t.drop (constEnd false 0 t)) (by rw [List.length_drop]; omega)
      refine ⟨_, _, _, .text (List.take_append_drop _ t).symm hx.symm (fun hnil => ?_) h⟩
      rw [hnil] at hx
      exact hconst hx.symm

/-- … and in no other. -/
theorem Script.unique (h : Script t fs ok r) {fs' : List ZFunc} {ok' : Bool} {r' : List UInt8}
    (h' : Script t fs' ok' r') : fs' = fs ∧ ok' = ok ∧ r' = r := by
  induction h generalizing fs' ok' r' with
  | stop hconst hfunc =>
    cases h' with
    | stop _ hfunc' =>
      obtain ⟨-, rfl, rfl⟩ := hfunc.unique hfunc'
      exact ⟨rfl, rfl, rfl⟩
    | text _ hlen hx => exact absurd (List.length_eq_zero_iff.mp (hlen.symm.trans hconst)) hx
    | func _ hfunc' => cases (hfunc.unique hfunc').1
  | text hw hlen hx _ ih =>
    cases h' with
    | stop hconst => exact absurd (List.length_eq_zero_iff.mp (hlen.symm.trans hconst)) hx
    | text hw' hlen' _ h' =>
      obtain ⟨rfl, rfl⟩ := List.append_inj (hw'.symm.trans hw) (hlen'.symm.trans hlen)
      obtain ⟨rfl, rfl, rfl⟩ := ih h'
      exact ⟨rfl, rfl, rfl⟩
    | func hconst => exact absurd (List.length_eq_zero_iff.mp (hlen.symm.trans hconst)) hx
  | func hconst hfunc _ ih =>
    cases h' with
    | stop _ hfunc' => cases (hfunc.unique hfunc').1
    | text _ hlen hx => exact absurd (List.length_eq_zero_iff.mp (hlen.symm.trans hconst)) hx
    | func _ hfunc' h' =>
      obtain ⟨hsame, rfl, rfl⟩ := hfunc.unique hfunc'
      obtain ⟨rfl, rfl, rfl⟩ := ih h'
      exact ⟨by rw [Option.some.inj hsame], rfl, rfl⟩

end Scripts

end ZFormatter

end Monsys
