/-
  The parser of a `ZFormatter` follows the rules of `FormatterRules.lean`.

  1. **Steps** — what the pieces of `varFunc` and `param` do in front of a text, one lemma for each
     way through them.
  2. **The parser follows the rules** — `Reads.runs`, one induction for the functions that call each
     other, and `Script.runs` for the rounds of `compile`.
  3. **`compile`** — what it comes to, for a script whose length is one of a `uint32_t`.
-/
import Monsys.FormatterRules

namespace Monsys

open Cursor

namespace ZFormatter

/-! ## Steps -/

def Part.run (fuel rounds : Nat) : (k : Part) → Parser k.Result
  | .func => varFunc fuel
  | .param => paramWith (varFunc fuel)
  | .params => ZFormatter.params (paramWith (varFunc fuel)) rounds

section Runs

variable {s t u r : List UInt8}

theorem skipBlank_front (h : t <:+ s) :
    skipBlank (front s t) = .ok ((), front s (blanksOff t)) := skip_front h isBlank

theorem opensBrace_front (h : t <:+ s) :
    opensBrace (front s t) = .ok (t.headD 0 == openBrace, front s t) := by
  rw [opensBrace, bind_ok (peek_front h)]
  rfl

/-- `varFunc` up to what follows the name. -/
theorem varFuncWith_front (p : Parser (List ZFunc)) (h : dollar :: u <:+ s) :
    varFuncWith p (front s (dollar :: u)) =
      funcOrVariable p (head u).braced (head u).name (front s (head u).rest) := by
  have hu := (List.suffix_cons dollar u).trans h
  rw [varFuncWith, bind_ok (peek_cons h), if_neg (fun hne => hne rfl), bind_ok (next_front h),
    bind_ok (opensBrace_front hu), head]
  cases hbrace : u.headD 0 == openBrace with
  | false =>
    have hname := (blanksOff_suffix u).trans hu
    rw [bind_ok (onlyIf_false _ _), bind_ok (skipBlank_front hu),
      bind_ok (word_front hname isIdentifierChar), bind_ok (onlyIf_false _ _)]
    rfl
  | true =>
    have hcons := cons_of_headD (beq_iff_eq.mp hbrace) (by decide)
    have htail := (List.tail_suffix u).trans hu
    have hname := (blanksOff_suffix u.tail).trans htail
    have hnext : next (front s u) = .ok ((), front s u.tail) := by
      rw [hcons] at hu ⊢
      exact next_front hu
    rw [onlyIf_true, bind_ok hnext, bind_ok (skipBlank_front htail),
      bind_ok (word_front hname isIdentifierChar), onlyIf_true,
      bind_ok (skipBlank_front ((List.dropWhile_suffix _).trans hname))]
    rfl

theorem funcOrVariable_call {p : Parser (List ZFunc)} {b : Bool} {name : List UInt8}
    {g : List ZFunc → ZFunc} (h : openParen :: r <:+ s) (hname : getFuncByName name = some g) :
    funcOrVariable p b name (front s (openParen :: r)) =
      (p >>= fun args => closeCall b (g args)) (front s (blanksOff r)) := by
  have hr := (List.suffix_cons openParen r).trans h
  rw [funcOrVariable, bind_ok (peek_cons h), if_pos rfl, bind_ok (next_front h),
    bind_ok (skipBlank_front hr), hname]

theorem funcOrVariable_unknown {p : Parser (List ZFunc)} {b : Bool} {name : List UInt8}
    (h : openParen :: r <:+ s) (hname : getFuncByName name = none) :
    funcOrVariable p b name (front s (openParen :: r)) = .ok (none, front s (blanksOff r)) := by
  have hr := (List.suffix_cons openParen r).trans h
  rw [funcOrVariable, bind_ok (peek_cons h), if_pos rfl, bind_ok (next_front h),
    bind_ok (skipBlank_front hr), hname]
  rfl

theorem funcOrVariable_variable {p : Parser (List ZFunc)} {b : Bool} {name : List UInt8}
    (h : t <:+ s) (ht : t.headD 0 ≠ openParen) :
    funcOrVariable p b name (front s t) =
      .ok (if IsOne name then some .arg else none, front s t) := by
  rw [funcOrVariable, bind_ok (peek_front h), if_neg ht]
  by_cases hnumber : isNumber name = true
  · by_cases hone : atoi name = 1
    · rw [hnumber, if_neg (by decide), if_neg (not_not_intro hone), if_pos ⟨hnumber, hone⟩]
      rfl
    · rw [hnumber, if_neg (by decide), if_pos hone, if_neg fun h => hone h.2]
      rfl
  · rw [eq_false_of_ne_true hnumber, if_pos (show (!false) = true from rfl),
      if_neg fun h => hnumber h.1]
    rfl

variable {b : Bool} {g : ZFunc}

theorem closeCall_noEnd (h : t <:+ s) (ht : t.headD 0 ≠ closeParen) :
    closeCall b g (front s t) = .ok (none, front s t) := by
  rw [closeCall, bind_ok (peek_front h), if_pos ht]
  rfl

theorem closeCall_plain (h : closeParen :: t <:+ s) :
    closeCall false g (front s (closeParen :: t)) = .ok (some g, front s t) := by
  rw [closeCall, bind_ok (peek_cons h), if_neg (not_not_intro rfl), bind_ok (next_front h),
    bind_ok (onlyIf_false _ _)]
  rfl

theorem closeCall_braced (h : closeParen :: t <:+ s) (hr : blanksOff t = closeBrace :: r) :
    closeCall true g (front s (closeParen :: t)) = .ok (some g, front s r) := by
  have ht := (List.suffix_cons closeParen t).trans h
  have hclose := (blanksOff_suffix t).trans ht
  rw [hr] at hclose
  rw [closeCall, bind_ok (peek_cons h), if_neg (not_not_intro rfl), bind_ok (next_front h),
    onlyIf_true, bind_ok (skipBlank_front ht), hr, if_pos rfl, bind_ok (peek_cons hclose),
    if_neg (not_not_intro rfl), bind_ok (next_front hclose)]
  rfl

theorem closeCall_noBrace (h : closeParen :: t <:+ s) (hr : (blanksOff t).headD 0 ≠ closeBrace) :
    closeCall true g (front s (closeParen :: t)) = .ok (none, front s (blanksOff t)) := by
  have ht := (List.suffix_cons closeParen t).trans h
  rw [closeCall, bind_ok (peek_cons h), if_neg (not_not_intro rfl), bind_ok (next_front h),
    onlyIf_true, bind_ok (skipBlank_front ht), if_pos rfl,
    bind_ok (peek_front ((blanksOff_suffix t).trans ht)), if_pos hr]
  rfl

theorem quoteStr_front {body : List UInt8} (hbody : quote ∉ body)
    (h : quote :: (body ++ quote :: r) <:+ s) :
    quoteStr (front s (quote :: (body ++ quote :: r))) =
      .ok (some (.stringFunc body), front s (quote :: r)) := by
  have hrest := (List.suffix_cons quote _).trans h
  have hahead := ahead_front hrest (n := body.length) (by rw [List.length_append]; omega)
  rw [List.drop_left, List.headD_cons] at hahead
  rw [quoteStr, bind_ok (peek_cons h), if_neg (not_not_intro rfl), bind_ok (next_front h),
    bind_ok (scan_front hrest _), takeWhile_quote hbody, bind_ok hahead,
    if_neg (not_not_intro rfl), bind_ok (move_front hrest), bind_ok (behind_front hrest)]
  rfl

theorem quoteStr_open (hu : quote ∉ u) (h : quote :: u <:+ s) :
    quoteStr (front s (quote :: u)) = .ok (none, front s u) := by
  have hrest := (List.suffix_cons quote _).trans h
  have hall : ∀ c ∈ u, (c != quote) = true := fun c hc => bne_iff_ne.mpr fun heq => hu (heq ▸ hc)
  have htake : u.takeWhile (· != quote) = u := List.takeWhile_eq_self_iff.mpr hall
  have hahead := ahead_front hrest (Nat.le_refl u.length)
  rw [List.drop_length] at hahead
  rw [quoteStr, bind_ok (peek_cons h), if_neg (not_not_intro rfl), bind_ok (next_front h),
    bind_ok (scan_front hrest _), htake, bind_ok hahead, if_pos (by decide)]
  rfl

theorem constNumber_front (h : t <:+ s) (ht : isDigit (t.headD 0) = true) :
    constNumber (front s t) =
      .ok (some (.numberFunc (atoi (t.takeWhile isDigit))), front s (t.dropWhile isDigit)) := by
  have hsplit := List.takeWhile_append_dropWhile (p := isDigit) (l := t)
  have hwhole : t.takeWhile isDigit ++ t.dropWhile isDigit <:+ s := by rwa [hsplit]
  have hmove := move_front hwhole
  rw [hsplit] at hmove
  have hsome : (t.takeWhile isDigit).length ≠ 0 := by
    cases t with
    | nil => exact absurd ht (by decide)
    | cons c t =>
      rw [List.headD_cons] at ht
      rw [List.takeWhile_cons_of_pos ht, List.length_cons]
      exact Nat.succ_ne_zero _
  rw [constNumber, bind_ok (scan_front h _), if_neg hsome, bind_ok hmove,
    bind_ok (behind_front hwhole)]
  rfl

/-- A call, up to what stands behind its arguments. -/
theorem Opens.runs {g : List ZFunc → ZFunc} {fuel : Nat} {args : List ZFunc} {ok : Bool}
    {r' : List UInt8} (hopen : Opens u g r) (hs : dollar :: u <:+ s)
    (hfuel : (dollar :: u).length < fuel) (hargs : Reads .params (blanksOff r) args ok r')
    (ih : blanksOff r <:+ s → ∀ {fuel rounds : Nat}, (blanksOff r).length < fuel →
      (blanksOff r).length < rounds →
        Part.run fuel rounds .params (front s (blanksOff r)) = .ok (args, front s r')) :
    varFunc fuel (front s (dollar :: u)) = closeCall (head u).braced (g args) (front s r') ∧
      r' <:+ s := by
  obtain ⟨fuel, rfl⟩ := Nat.exists_eq_add_one_of_ne_zero (Nat.ne_zero_of_lt hfuel)
  have hu := (List.suffix_cons dollar u).trans hs
  have hbehind := hopen.suffix.trans hu
  have hless := hopen.length_lt hfuel
  have hhead := (head_suffix u).trans hu
  have hrun : ZFormatter.params (paramWith (varFunc fuel)) fuel (front s (blanksOff r)) = _ :=
    ih hbehind hless hless
  rw [hopen.rest] at hhead
  refine ⟨?_, hargs.suffix.trans hbehind⟩
  rw [varFunc, varFuncWith_front _ hs, hopen.rest, funcOrVariable_call hhead hopen.name,
    bind_ok hrun]

/-! ## The parser follows the rules -/

/-- **The parser follows the rules**, with fuel for as many calls as there are bytes. -/
theorem Reads.runs {k : Part} {rest : List UInt8} {r : k.Result} {ok : Bool}
    (h : Reads k t r ok rest) (hs : t <:+ s) {fuel rounds : Nat} (hfuel : t.length < fuel)
    (hrounds : t.length < rounds) : k.run fuel rounds (front s t) = .ok (r, front s rest) := by
  -- one case for each way through the functions; only calls and rounds take fuel
  induction h generalizing fuel rounds with
  | noFunc ht =>
    obtain ⟨fuel, rfl⟩ := Nat.exists_eq_add_one_of_ne_zero (Nat.ne_zero_of_lt hfuel)
    show varFuncWith _ _ = _
    rw [varFuncWith, bind_ok (peek_front hs), if_pos ht]
    rfl
  | @badVariable u hvar hname =>
    obtain ⟨fuel, rfl⟩ := Nat.exists_eq_add_one_of_ne_zero (Nat.ne_zero_of_lt hfuel)
    have hhead := (head_suffix u).trans ((List.suffix_cons dollar u).trans hs)
    show varFuncWith _ _ = _
    rw [varFuncWith_front _ hs, funcOrVariable_variable hhead hvar, if_neg hname]
  | @argument u hvar hname =>
    obtain ⟨fuel, rfl⟩ := Nat.exists_eq_add_one_of_ne_zero (Nat.ne_zero_of_lt hfuel)
    have hhead := (head_suffix u).trans ((List.suffix_cons dollar u).trans hs)
    show varFuncWith _ _ = _
    rw [varFuncWith_front _ hs, funcOrVariable_variable hhead hvar, if_pos hname]
  | @unknown u r hrest hname =>
    obtain ⟨fuel, rfl⟩ := Nat.exists_eq_add_one_of_ne_zero (Nat.ne_zero_of_lt hfuel)
    have hhead := (head_suffix u).trans ((List.suffix_cons dollar u).trans hs)
    rw [hrest] at hhead
    show varFuncWith _ _ = _
    rw [varFuncWith_front _ hs, hrest, funcOrVariable_unknown hhead hname]
  | noEnd hopen hargs hend ih =>
    obtain ⟨hrun, hbehind⟩ := hopen.runs hs hfuel hargs ih
    exact hrun.trans (closeCall_noEnd hbehind hend)
  | call hopen hargs hbrace ih =>
    obtain ⟨hrun, hbehind⟩ := hopen.runs hs hfuel hargs ih
    rw [hbrace] at hrun
    exact hrun.trans (closeCall_plain hbehind)
  | bracedCall hopen hargs hbrace hclose ih =>
    obtain ⟨hrun, hbehind⟩ := hopen.runs hs hfuel hargs ih
    rw [hbrace] at hrun
    exact hrun.trans (closeCall_braced hbehind hclose)
  | noBrace hopen hargs hbrace hclose ih =>
    obtain ⟨hrun, hbehind⟩ := hopen.runs hs hfuel hargs ih
    rw [hbrace] at hrun
    exact hrun.trans (closeCall_noBrace hbehind hclose)
  | string ht hbody =>
    subst ht
    show paramWith _ _ = _
    rw [paramWith, bind_ok (peek_cons hs), if_pos rfl, quoteStr_front hbody hs]
  | openString ht hu =>
    subst ht
    show paramWith _ _ = _
    rw [paramWith, bind_ok (peek_cons hs), if_pos rfl, quoteStr_open hu hs]
  | @number t ht =>
    have hquote : t.headD 0 ≠ quote := fun heq => by rw [heq] at ht; exact absurd ht (by decide)
    show paramWith _ _ = _
    rw [paramWith, bind_ok (peek_front hs), if_neg hquote, if_pos ht, constNumber_front hs ht]
  | func ht _ ih =>
    show paramWith _ _ = _
    rw [paramWith, bind_ok (peek_front hs), ht, if_neg (by decide), if_neg (by decide), if_pos rfl]
    exact ih hs hfuel hfuel
  | noParam hquote hdigit hdollar =>
    show paramWith _ _ = _
    rw [paramWith, bind_ok (peek_front hs), if_neg hquote, hdigit, if_neg Bool.false_ne_true,
      if_neg hdollar]
    rfl
  | stop _ ih =>
    obtain ⟨rounds, rfl⟩ := Nat.exists_eq_add_one_of_ne_zero (Nat.ne_zero_of_lt hrounds)
    have hparam : paramWith (varFunc fuel) (front s _) = _ := ih hs hfuel hfuel
    show ZFormatter.params _ _ _ = _
    rw [ZFormatter.params, bind_ok hparam]
    rfl
  | @last t p ok r hp hcomma ih =>
    obtain ⟨rounds, rfl⟩ := Nat.exists_eq_add_one_of_ne_zero (Nat.ne_zero_of_lt hrounds)
    have hparam : paramWith (varFunc fuel) (front s t) = _ := ih hs hfuel hfuel
    have hr := hp.suffix.trans hs
    show ZFormatter.params _ _ _ = _
    rw [ZFormatter.params, bind_ok hparam]
    show (skipBlank >>= _) _ = _
    rw [bind_ok (skipBlank_front hr), bind_ok (peek_front ((blanksOff_suffix r).trans hr)),
      if_pos hcomma]
    rfl
  | @more t p ok r r' ps ok' r'' hp hcomma _ ihp ih =>
    obtain ⟨rounds, rfl⟩ := Nat.exists_eq_add_one_of_ne_zero (Nat.ne_zero_of_lt hrounds)
    have hparam : paramWith (varFunc fuel) (front s t) = _ := ihp hs hfuel hfuel
    have hr := hp.suffix.trans hs
    have hat := (blanksOff_suffix r).trans hr
    rw [hcomma] at hat
    have hbehind := (List.suffix_cons comma r').trans hat
    -- a comma has been passed
    have hless : (blanksOff r').length < t.length := by
      have hle := ((blanksOff_suffix r).trans hp.suffix).length_le
      have hle' := (blanksOff_suffix r').length_le
      rw [hcomma, List.length_cons] at hle
      omega
    have hrest : ZFormatter.params (paramWith (varFunc fuel)) rounds _ = _ :=
      ih ((blanksOff_suffix r').trans hbehind) (by omega) (by omega)
    have hstay : skipBlank (front s (comma :: r')) = .ok ((), front s (comma :: r')) :=
      skipBlank_front hat
    show ZFormatter.params _ _ _ = _
    rw [ZFormatter.params, bind_ok hparam]
    show (skipBlank >>= _) _ = _
    rw [bind_ok (skipBlank_front hr), hcomma, bind_ok (peek_cons hat), if_neg (not_not_intro rfl),
      bind_ok hstay, bind_ok (next_front hat), bind_ok (skipBlank_front hbehind), bind_ok hrest]
    rfl

end Runs

/-! ## `compile` -/

section Scripts

variable {s t r : List UInt8} {fs : List ZFunc} {ok : Bool}

theorem constStr_none {c : Cursor} (h : constEnd false 0 c.rest = 0) :
    constStr c = .ok (none, c) := by
  have hscan : constScan c = .ok (constEnd false 0 c.rest, c) := rfl
  rw [constStr, bind_ok hscan, if_pos h]
  rfl

theorem constStr_text {x : List UInt8} (ht : x ++ t <:+ s) (hx : x ≠ [])
    (h : constEnd false 0 (x ++ t) = x.length) :
    constStr (front s (x ++ t)) = .ok (some (.stringFunc x), front s t) := by
  have hscan : constScan (front s (x ++ t)) = .ok (x.length, front s (x ++ t)) := by
    unfold constScan
    rw [front_rest ht, h]
  rw [constStr, bind_ok hscan, if_neg (mt List.length_eq_zero_iff.mp hx), bind_ok (move_front ht),
    bind_ok (behind_front ht)]
  rfl

theorem segment_func {x : Option ZFunc} {fuel : Nat} (ht : t <:+ s) (hfuel : s.length < fuel)
    (hconst : constEnd false 0 t = 0) (h : Reads .func t x ok r) :
    segment fuel (front s t) = .ok (x, front s r) := by
  have hle := ht.length_le
  have hrun : Part.run fuel fuel .func (front s t) = .ok (x, front s r) :=
    h.runs ht (by omega) (by omega)
  rw [segment, bind_ok (constStr_none ((front_rest ht).symm ▸ hconst))]
  exact hrun

/-- The rounds of `compile` follow. -/
theorem Script.runs (h : Script t fs ok r) (ht : t <:+ s) {fuel rounds : Nat}
    (hfuel : s.length < fuel) (hrounds : t.length < rounds) :
    segments (segment fuel) rounds (front s t) = .ok (fs, front s r) := by
  induction h generalizing rounds with
  | @stop t ok r hconst hfunc =>
    obtain ⟨rounds, rfl⟩ := Nat.exists_eq_add_one_of_ne_zero (Nat.ne_zero_of_lt hrounds)
    rw [segments, bind_ok (segment_func ht hfuel hconst hfunc)]
    rfl
  | @text w x t fs ok r hw hlen hx _ ih =>
    subst hw
    obtain ⟨rounds, rfl⟩ := Nat.exists_eq_add_one_of_ne_zero (Nat.ne_zero_of_lt hrounds)
    have hless := List.length_pos_of_ne_nil hx
    rw [List.length_append] at hrounds
    have hsegment : segment fuel (front s (x ++ t)) = .ok (some (.stringFunc x), front s t) := by
      rw [segment, bind_ok (constStr_text ht hx hlen)]
      rfl
    have hrest : segments (segment fuel) rounds _ = _ :=
      ih ((List.suffix_append x t).trans ht) (by omega)
    rw [segments, bind_ok hsegment]
    show (segments _ _ >>= _) _ = _
    rw [bind_ok hrest]
    rfl
  | @func t g ok u fs ok' r hconst hfunc _ ih =>
    obtain ⟨rounds, rfl⟩ := Nat.exists_eq_add_one_of_ne_zero (Nat.ne_zero_of_lt hrounds)
    have hless := hfunc.length_lt
    have hrest : segments (segment fuel) rounds _ = _ := ih (hfunc.suffix.trans ht) (by omega)
    rw [segments, bind_ok (segment_func ht hfuel hconst hfunc)]
    show (segments _ _ >>= _) _ = _
    rw [bind_ok hrest]
    rfl

theorem Compiles.unique {f : ZFormatter} {script : List UInt8} {r r' : Bool × ZFormatter}
    (h : Compiles f script r) (h' : Compiles f script r') : r' = r :=
  Except.ok.inj ((h' _ (Nat.lt_succ_self _)).symm.trans (h _ (Nat.lt_succ_self _)))

theorem compiles_nil (f : ZFormatter) : Compiles f [] (false, f) := fun _ _ => rfl

/-- **What `compile` comes to**: it returns whether anything is left. -/
theorem Script.compiles (h : Script s fs ok r) (f : ZFormatter) (hs : s ≠ [])
    (hlen : s.length < 2 ^ 32) :
    Compiles f s (decide (r = []), ⟨front s r, f.funcList ++ fs⟩) := by
  intro fuel hfuel
  have hstart : Cursor.mk s (s.length % 2 ^ 32) 0 = front s s := by
    rw [front, Nat.mod_eq_of_lt hlen, Nat.sub_self]
  have hpos := front_pos h.suffix
  have hstop : (front s r).stop = s.length := rfl
  have hsome : ¬ s.length ≤ 0 := fun hle => hs (List.length_eq_zero_iff.mp (Nat.le_zero.mp hle))
  rw [compile, if_neg hsome, hstart, h.runs (List.suffix_refl s) hfuel hfuel]
  show (if (front s r).pos ≠ (front s r).stop then _ else _) = _
  by_cases hr : r = []
  · subst hr
    rw [List.length_nil] at hpos
    rw [if_neg (by omega), decide_eq_true rfl]
    rfl
  · have hleft := List.length_pos_of_ne_nil hr
    rw [if_pos (by omega), peek_front h.suffix, decide_eq_false hr]
    rfl

end Scripts

end ZFormatter

end Monsys
