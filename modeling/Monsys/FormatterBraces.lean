/-
  The braces around a function expression.

  `varFunc` takes a '{' behind the '$', and the '}' that belongs to it behind the arguments of a
  function.  A variable returns before it looks for one.

  1. **More text** — what is read in front of a rest is read in front of a longer one
     (`Reads.extend`).
  2. **Places** — `InCall`: the texts of a call, of whichever depth, that has one of two texts as an
     argument.  What is read alike is read alike in a call (`Agree`), and where the reading stands
     still in an argument, it does in the call (`Jams`).
  3. **Expressions** — `braces_optional_iff`.
-/
import Monsys.FormatterGrammar

namespace Monsys

namespace ZFormatter

/-! ## More text -/

section Extend

variable {k : Part} {t u x rest : List UInt8} {r : k.Result} {ok : Bool}

theorem span_extend {p : UInt8 → Bool} (h : t.dropWhile p ≠ []) :
    (t ++ x).takeWhile p = t.takeWhile p ∧ (t ++ x).dropWhile p = t.dropWhile p ++ x := by
  induction t with
  | nil => exact absurd rfl h
  | cons c t ih =>
    rw [List.cons_append]
    by_cases hc : p c = true
    · rw [List.dropWhile_cons_of_pos hc] at h
      obtain ⟨htake, hdrop⟩ := ih h
      rw [List.takeWhile_cons_of_pos hc, List.takeWhile_cons_of_pos hc, List.dropWhile_cons_of_pos hc,
        List.dropWhile_cons_of_pos hc, htake, hdrop]
      exact ⟨rfl, rfl⟩
    · rw [List.takeWhile_cons_of_neg hc, List.takeWhile_cons_of_neg hc, List.dropWhile_cons_of_neg hc,
        List.dropWhile_cons_of_neg hc]
      exact ⟨rfl, rfl⟩

theorem blanksOff_extend (h : blanksOff t ≠ []) : blanksOff (t ++ x) = blanksOff t ++ x :=
  (span_extend h).2

theorem headD_extend (h : t ≠ []) (d : UInt8) : (t ++ x).headD d = t.headD d := by
  cases t with
  | nil => exact absurd rfl h
  | cons c t => rfl

theorem ne_nil_of_suffix (h : t <:+ u) (ht : t ≠ []) : u ≠ [] := by
  rintro rfl
  exact ht (List.suffix_nil.mp h)

theorem ne_nil_of_blanksOff (h : blanksOff t ≠ []) : t ≠ [] := ne_nil_of_suffix (blanksOff_suffix t) h

theorem ne_nil_of_headD {b : UInt8} (h : t.headD 0 = b) (hb : b ≠ 0) : t ≠ [] := by
  rintro rfl
  exact hb h.symm

theorem head_extend (h : (head u).rest ≠ []) :
    head (u ++ x) = ⟨(head u).braced, (head u).name, (head u).rest ++ x⟩ := by
  have hu := ne_nil_of_suffix (head_suffix u) h
  unfold head at h ⊢
  rw [headD_extend hu]
  cases hbrace : u.headD 0 == openBrace with
  | false =>
    rw [hbrace] at h
    have hname : (blanksOff u).dropWhile isIdentifierChar ≠ [] := h
    have hblank := ne_nil_of_suffix (List.dropWhile_suffix _) hname
    have hspan := span_extend (x := x) hname
    show Head.mk false _ _ = Head.mk false _ _
    rw [if_neg Bool.false_ne_true, if_neg Bool.false_ne_true, blanksOff_extend hblank, hspan.1,
      hspan.2]
    rfl
  | true =>
    rw [hbrace] at h
    have hrest : blanksOff ((blanksOff u.tail).dropWhile isIdentifierChar) ≠ [] := h
    have hname := ne_nil_of_blanksOff hrest
    have hblank := ne_nil_of_suffix (List.dropWhile_suffix _) hname
    have hspan := span_extend (x := x) hname
    have htail : (u ++ x).tail = u.tail ++ x := List.tail_append_of_ne_nil hu
    show Head.mk true _ _ = Head.mk true _ _
    rw [if_pos rfl, if_pos rfl, htail, blanksOff_extend hblank, hspan.1, hspan.2]
    exact congrArg (Head.mk true _) (blanksOff_extend hrest)

theorem Opens.extend {g : List ZFunc → ZFunc} {v : List UInt8} (h : Opens u g v) :
    Opens (u ++ x) g (v ++ x) ∧ (head (u ++ x)).braced = (head u).braced := by
  have hhead := head_extend (x := x) (h.rest ▸ List.cons_ne_nil openParen v)
  rw [hhead]
  exact ⟨⟨by rw [hhead, h.rest]; rfl, by rw [hhead]; exact h.name⟩, rfl⟩

/-- **What is read in front of a rest is read in front of a longer one**, if nothing goes wrong. -/
theorem Reads.extend (h : Reads k t r ok rest) (hok : ok = true) (hrest : rest ≠ []) :
    Reads k (t ++ x) r true (rest ++ x) := by
  induction h with
  | noFunc ht => exact .noFunc (headD_extend hrest 0 ▸ ht)
  | badVariable => cases hok
  | @argument u hvar hone =>
    have hhead := head_extend (x := x) hrest
    have hreads := @Reads.argument (u ++ x)
    rw [hhead] at hreads
    exact hreads (headD_extend hrest 0 ▸ hvar) hone
  | unknown => cases hok
  | noEnd => cases hok
  | @call u v g args ok r' hopen hargs hbrace ih =>
    obtain ⟨hopen', hbrace'⟩ := hopen.extend (x := x)
    have hargs' := ih hok (List.cons_ne_nil closeParen r')
    rw [← blanksOff_extend (ne_nil_of_suffix hargs.suffix (List.cons_ne_nil _ _))] at hargs'
    exact .call hopen' hargs' (hbrace'.trans hbrace)
  | @bracedCall u v g args ok r' r'' hopen hargs hbrace hclose ih =>
    obtain ⟨hopen', hbrace'⟩ := hopen.extend (x := x)
    have hargs' := ih hok (List.cons_ne_nil closeParen r')
    rw [← blanksOff_extend (ne_nil_of_suffix hargs.suffix (List.cons_ne_nil _ _))] at hargs'
    refine .bracedCall hopen' hargs' (hbrace'.trans hbrace) ?_
    show blanksOff (r' ++ x) = _
    rw [blanksOff_extend (hclose ▸ List.cons_ne_nil closeBrace r''), hclose]
    rfl
  | noBrace => cases hok
  | @string t body r ht hbody =>
    refine .string ?_ hbody
    rw [ht, List.cons_append, List.append_assoc]
    rfl
  | openString => cases hok
  | @number t ht =>
    have ht' := ne_nil_of_suffix (List.dropWhile_suffix _) hrest
    have hspan := span_extend (x := x) hrest
    have hreads := Reads.number (headD_extend (x := x) ht' 0 ▸ ht)
    rw [hspan.1, hspan.2] at hreads
    exact hreads
  | func ht _ ih =>
    have ht' := ne_nil_of_headD ht (by decide)
    exact .func (headD_extend ht' 0 ▸ ht) (ih hok hrest)
  | noParam hquote hdigit hdollar =>
    rw [← headD_extend (x := x) hrest] at hquote hdigit hdollar
    exact .noParam hquote hdigit hdollar
  | stop _ ih => exact .stop (ih hok hrest)
  | last _ hcomma ih =>
    have hlast := Reads.last (ih hok (ne_nil_of_blanksOff hrest))
    rw [blanksOff_extend hrest, headD_extend hrest] at hlast
    exact hlast hcomma
  | @more t p ok r r' ps ok' r'' hp hcomma hps ihp ih =>
    obtain ⟨rfl, rfl⟩ := Bool.and_eq_true_iff.mp hok
    have hr : blanksOff r ≠ [] := hcomma ▸ List.cons_ne_nil comma r'
    have hr' := ne_nil_of_suffix hps.suffix hrest
    have hbehind := ih rfl hrest
    rw [← blanksOff_extend hr'] at hbehind
    refine .more (ihp rfl (ne_nil_of_blanksOff hr)) ?_ hbehind
    rw [blanksOff_extend hr, hcomma]
    rfl

end Extend

/-! ## Places -/

/-- Behind an argument. -/
def EndsArgument (post : List UInt8) : Prop :=
  (blanksOff post).headD 0 = comma ∨ (blanksOff post).headD 0 = closeParen

/-- The arguments of a call, one of them `$e` in the first text and `${e}` in the second one, or a
    call that has it among its own. -/
inductive InArgs (e : List UInt8) : List UInt8 → List UInt8 → Prop
  | here {post} : EndsArgument post → InArgs e (dollar :: (e ++ post)) (dollar :: (embrace true e ++ post))
  | later {a p v t t'} (b : Blanks) : Reads .param a (some p) true v → blanksOff v = [comma] →
      InArgs e t t' → InArgs e (a ++ (b.1 ++ t)) (a ++ (b.1 ++ t'))
  | inner {o g t t'} (b : Blanks) : Opens o g [] → InArgs e t t' →
      InArgs e (dollar :: (o ++ (b.1 ++ t))) (dollar :: (o ++ (b.1 ++ t')))

/-- Scripts that differ in the braces of an expression: it stands on its own, or in a call. -/
inductive Place (e : List UInt8) : List UInt8 → List UInt8 → Prop
  | own : Place e (dollar :: e) (dollar :: embrace true e)
  | inCall {o g t t'} (b : Blanks) : Opens o g [] →
      o.headD 0 = openBrace ∨ isIdentifierChar (o.headD 0) = true → InArgs e t t' →
      Place e (dollar :: (o ++ (b.1 ++ t))) (dollar :: (o ++ (b.1 ++ t')))

section Places

variable {k : Part} {e t t' u u' v v' rest : List UInt8} {r : k.Result} {ok : Bool}

/-- A call, from its arguments. -/
theorem closing_reads {g : List ZFunc → ZFunc} {args : List ZFunc} (hopen : Opens u g v)
    (hargs : Reads .params (blanksOff v) args ok rest) {x : Option ZFunc} {ok' : Bool}
    {rest' : List UInt8} (heq : (x, ok', rest') = closing (head u).braced (g args) ok rest) :
    Reads .func (dollar :: u) x ok' rest' := by
  unfold closing at heq
  split_ifs at heq with hend hbrace hclose
  · cases heq
    exact .noEnd hopen hargs hend
  · cases heq
    rw [cons_of_headD (not_not.mp hend) (by decide)] at hargs
    exact .noBrace hopen hargs hbrace hclose
  · cases heq
    rw [cons_of_headD (not_not.mp hend) (by decide)] at hargs
    exact .bracedCall hopen hargs hbrace (cons_of_headD (not_not.mp hclose) (by decide))
  · cases heq
    rw [cons_of_headD (not_not.mp hend) (by decide)] at hargs
    exact .call hopen hargs (eq_false_of_ne_true hbrace)

/-- The one text is read as the other one. -/
def Agree (k : Part) (t t' : List UInt8) : Prop :=
  ∀ ⦃r ok rest⦄, Reads k t r ok rest → Reads k t' r ok rest

theorem agree_of_reads (h : Reads k t r ok rest) (h' : Reads k t' r ok rest) : Agree k t t' := by
  intro r' ok' rest' hread
  obtain ⟨rfl, rfl, rfl⟩ := h.unique hread
  exact h'

theorem Agree.param (ht : t.headD 0 = dollar) (ht' : t'.headD 0 = dollar)
    (h : Agree .func t t') : Agree .param t t' := by
  intro r ok rest hread
  cases hread with
  | string hquote => exact absurd ht (headD_ne_dollar hquote)
  | openString hquote => exact absurd ht (headD_ne_dollar hquote)
  | number hdigit => rw [ht] at hdigit; exact absurd hdigit (by decide)
  | func _ hfunc => exact .func ht' (h hfunc)
  | noParam _ _ hdollar => exact absurd ht hdollar

theorem Agree.params (h : Agree .param t t') : Agree .params t t' := by
  intro r ok rest hread
  cases hread with
  | stop hp => exact .stop (h hp)
  | last hp hcomma => exact .last (h hp) hcomma
  | more hp hcomma hps => exact .more (h hp) hcomma hps

/-- Behind an argument and its comma. -/
theorem Agree.later {a : List UInt8} {p : ZFunc} (ha : Reads .param a (some p) true v)
    (hv : blanksOff v = [comma]) (h : Agree .params (blanksOff t) (blanksOff t')) :
    Agree .params (a ++ t) (a ++ t') := by
  have hsome : blanksOff v ≠ [] := hv ▸ List.cons_ne_nil comma []
  have hfirst : ∀ x, Reads .param (a ++ x) (some p) true (v ++ x) :=
    fun x => ha.extend rfl (ne_nil_of_blanksOff hsome)
  have hcomma : ∀ x, blanksOff (v ++ x) = comma :: x := by
    intro x
    rw [blanksOff_extend hsome, hv]
    rfl
  intro r ok rest hread
  cases hread with
  | stop hp => cases ((hfirst t).unique hp).1
  | last hp hlast =>
    obtain ⟨-, -, rfl⟩ := (hfirst t).unique hp
    rw [hcomma] at hlast
    exact absurd rfl hlast
  | more hp hmore hps =>
    obtain ⟨hsame, rfl, rfl⟩ := (hfirst t).unique hp
    cases hsame
    obtain rfl := (List.cons.inj ((hcomma t).symm.trans hmore)).2
    exact .more (hfirst t') (hcomma t') (h hps)

theorem Agree.call {g : List ZFunc → ZFunc} (hopen : Opens u g v) (hopen' : Opens u' g v')
    (hbrace : (head u').braced = (head u).braced)
    (h : Agree .params (blanksOff v) (blanksOff v')) :
    Agree .func (dollar :: u) (dollar :: u') := by
  intro x ok rest hread
  obtain ⟨args, ok', r', hargs, heq⟩ := hread.call_cases hopen
  exact closing_reads hopen' (h hargs) (hbrace ▸ heq)

/-- The reading of the arguments stands still. -/
def Jams (t : List UInt8) : Prop := ∃ args ok r, Reads .params t args ok r ∧ Stuck r

theorem Jams.call {g : List ZFunc → ZFunc} (hopen : Opens u g v) (h : Jams (blanksOff v)) :
    ∃ r, Reads .func (dollar :: u) none false r ∧ Stuck r := by
  obtain ⟨args, ok, r, hargs, hstuck⟩ := h
  exact ⟨r, .noEnd hopen hargs hstuck.ne_closeParen, hstuck⟩

theorem Jams.later {a : List UInt8} {p : ZFunc} (ha : Reads .param a (some p) true v)
    (hv : blanksOff v = [comma]) (h : Jams (blanksOff t)) : Jams (a ++ t) := by
  have hsome : blanksOff v ≠ [] := hv ▸ List.cons_ne_nil comma []
  have hfirst : Reads .param (a ++ t) (some p) true (v ++ t) :=
    ha.extend rfl (ne_nil_of_blanksOff hsome)
  have hcomma : blanksOff (v ++ t) = comma :: t := by
    rw [blanksOff_extend hsome, hv]
    rfl
  obtain ⟨args, ok, r, hargs, hstuck⟩ := h
  exact ⟨_, _, r, .more hfirst hcomma hargs, hstuck⟩

/-- An argument does not begin with a blank. -/
theorem Reads.isBlank_param {p : ZFunc} (h : Reads .param t (some p) ok rest) :
    isBlank (t.headD 0) = false := by
  cases h with
  | string ht => rw [ht]; exact (by decide : isBlank quote = false)
  | number hdigit => exact isBlank_of_identifierChar (isIdentifierChar_of_digit hdigit)
  | func hdollar => rw [hdollar]; decide

theorem InArgs.isBlank (h : InArgs e t t') :
    ZFormatter.isBlank (t.headD 0) = false ∧ ZFormatter.isBlank (t'.headD 0) = false := by
  have hdollar : ZFormatter.isBlank dollar = false := by decide
  cases h with
  | here => exact ⟨hdollar, hdollar⟩
  | later b ha hv =>
    have hsome : _ ≠ [] := ne_nil_of_suffix ha.suffix
      (ne_nil_of_blanksOff (hv ▸ List.cons_ne_nil comma []))
    rw [headD_extend hsome, headD_extend hsome]
    exact ⟨ha.isBlank_param, ha.isBlank_param⟩
  | inner => exact ⟨hdollar, hdollar⟩

/-- Behind blanks. -/
theorem InArgs.behind_blanks (h : InArgs e t t') (b : Blanks) :
    blanksOff (b.1 ++ t) = t ∧ blanksOff (b.1 ++ t') = t' :=
  ⟨blanksOff_append b h.isBlank.1, blanksOff_append b h.isBlank.2⟩

end Places

/-! ## Expressions -/

/-- A function is called. -/
def IsCall (e : List UInt8) : Prop := (head e).rest.headD 0 = openParen

instance (e : List UInt8) : Decidable (IsCall e) :=
  inferInstanceAs (Decidable ((head e).rest.headD 0 = openParen))

/-- A variable or function expression without braces, which is compiled behind a '$'. -/
structure Expression (e : List UInt8) (g : ZFunc) : Prop where
  bare : e.headD 0 ≠ openBrace
  reads : Reads .func (dollar :: e) (some g) true []
  compiles : ∃ f, Compiles new (dollar :: e) (true, f) ∧ f.funcList = [g]

section Expressions

variable {e t t' post : List UInt8} {g : ZFunc}

theorem braced_bare (he : e.headD 0 ≠ openBrace) : (head e).braced = false :=
  beq_eq_false_iff_ne.mpr he

/-- With a brace in front. -/
theorem head_openBrace (he : e.headD 0 ≠ openBrace) :
    head (openBrace :: e) = ⟨true, (head e).name, blanksOff (head e).rest⟩ := by
  have hbrace : (e.headD 0 == openBrace) = false := beq_eq_false_iff_ne.mpr he
  unfold head
  rw [hbrace]
  rfl

/-- An expression is a call or a variable. -/
theorem Expression.cases (h : Expression e g) :
    (IsCall e ∧ ∃ func v args, Opens e func v ∧
        Reads .params (blanksOff v) args true [closeParen] ∧ g = func args) ∨
      (¬ IsCall e ∧ g = .arg ∧ IsOne (head e).name ∧ (head e).rest = []) := by
  by_cases hcall : IsCall e
  · have hrest := cons_of_headD hcall (by decide)
    cases hname : getFuncByName (head e).name with
    | none => cases (h.reads.unknown_eq hrest hname).1
    | some func =>
      have hopen : Opens e func _ := ⟨hrest, hname⟩
      obtain ⟨args, ok, r, hargs, heq⟩ := h.reads.call_cases hopen
      rw [braced_bare h.bare] at heq
      by_cases hend : r.headD 0 = closeParen
      · have hsplit := cons_of_headD hend (by decide)
        rw [hsplit, closing, List.headD_cons, if_neg (not_not_intro rfl),
          if_neg Bool.false_ne_true, List.tail_cons] at heq
        obtain ⟨hg, hmore⟩ := Prod.mk.inj heq
        obtain ⟨rfl, htail⟩ := Prod.mk.inj hmore
        rw [hsplit, ← htail] at hargs
        exact Or.inl ⟨hcall, func, _, args, hopen, hargs, Option.some.inj hg⟩
      · rw [closing, if_pos hend] at heq
        cases heq
  · obtain ⟨hg, hok, hrest⟩ := h.reads.variable_eq hcall
    have hone : IsOne (head e).name := of_decide_eq_true hok.symm
    rw [if_pos hone] at hg
    exact Or.inr ⟨hcall, Option.some.inj hg, hone, hrest.symm⟩

/-- A call, with something behind it. -/
theorem call_reads_front {func : List ZFunc → ZFunc} {v : List UInt8} {args : List ZFunc}
    (he : e.headD 0 ≠ openBrace) (hopen : Opens e func v)
    (hargs : Reads .params (blanksOff v) args true [closeParen]) (post : List UInt8) :
    Reads .func (dollar :: (e ++ post)) (some (func args)) true post ∧
      Reads .func (dollar :: (embrace true e ++ post)) (some (func args)) true post := by
  have hmore : ∀ x, Reads .params (blanksOff (v ++ x)) args true (closeParen :: x) := by
    intro x
    rw [blanksOff_extend (ne_nil_of_suffix hargs.suffix (List.cons_ne_nil closeParen []))]
    exact hargs.extend rfl (List.cons_ne_nil closeParen [])
  refine ⟨?_, ?_⟩
  · obtain ⟨hopen', hbrace⟩ := hopen.extend (x := post)
    exact .call hopen' (hmore post) (hbrace.trans (braced_bare he))
  · obtain ⟨hopen', -⟩ := hopen.extend (x := closeBrace :: post)
    have hsome : e ≠ [] := ne_nil_of_suffix (head_suffix e) (hopen.rest ▸ List.cons_ne_nil _ _)
    have hhead := head_openBrace (headD_extend (x := closeBrace :: post) hsome 0 ▸ he)
    have hparen : blanksOff (openParen :: (v ++ closeBrace :: post)) = _ :=
      blanksOff_cons (by decide) _
    rw [hopen'.rest, hparen] at hhead
    have hbraced : Opens (openBrace :: (e ++ closeBrace :: post)) func (v ++ closeBrace :: post) :=
      ⟨by rw [hhead], by rw [hhead]; exact hopen'.name⟩
    have htext : embrace true e ++ post = openBrace :: (e ++ closeBrace :: post) := by
      rw [embrace, if_pos rfl, List.cons_append, List.append_assoc]
      rfl
    rw [htext]
    exact .bracedCall hbraced (hmore _) (by rw [hhead]) (blanksOff_cons (by decide) post)

/-- A variable, in front of what does not go on with its name. -/
theorem variable_head (he : e.headD 0 ≠ openBrace) (hone : IsOne (head e).name)
    (hrest : (head e).rest = []) (hpost : isIdentifierChar (post.headD 0) = false) :
    head (e ++ post) = ⟨false, (head e).name, post⟩ := by
  have hbrace : (e.headD 0 == openBrace) = false := beq_eq_false_iff_ne.mpr he
  have hname : (head e).name = (blanksOff e).takeWhile isIdentifierChar := by
    unfold head
    rw [hbrace]
    rfl
  have hdrop : (blanksOff e).dropWhile isIdentifierChar = [] := by
    unfold head at hrest
    rw [hbrace] at hrest
    exact hrest
  have hall : ∀ c ∈ blanksOff e, isIdentifierChar c = true := List.dropWhile_eq_nil_iff.mp hdrop
  have hwhole : (blanksOff e).takeWhile isIdentifierChar = blanksOff e :=
    List.takeWhile_eq_self_iff.mpr hall
  have hsome : blanksOff e ≠ [] := by
    intro hnil
    rw [hname, hnil] at hone
    exact absurd hone (by decide)
  have hspan := span_append hall hpost
  have hbrace' : ((e ++ post).headD 0 == openBrace) = false := by
    rw [headD_extend (ne_nil_of_blanksOff hsome), hbrace]
  rw [hname, hwhole, head, hbrace', if_neg Bool.false_ne_true, if_neg Bool.false_ne_true,
    blanksOff_extend hsome, hspan.1, hspan.2]

/-- A variable; in braces it leaves the closing one. -/
theorem variable_reads_front (he : e.headD 0 ≠ openBrace) (hone : IsOne (head e).name)
    (hrest : (head e).rest = []) :
    (Ends post → Reads .func (dollar :: (e ++ post)) (some .arg) true post) ∧
      Reads .func (dollar :: (embrace true e ++ post)) (some .arg) true (closeBrace :: post) := by
  refine ⟨fun hpost => ?_, ?_⟩
  · have hhead := variable_head he hone hrest hpost.1
    have hreads := @Reads.argument (e ++ post)
    rw [hhead] at hreads
    exact hreads hpost.2 hone
  · have hclose : isIdentifierChar closeBrace = false := by decide
    have hbare : head (e ++ closeBrace :: post) = _ := variable_head he hone hrest hclose
    have hsome : e ≠ [] := by
      rintro rfl
      exact absurd hone (by decide)
    have hhead := head_openBrace (headD_extend (x := closeBrace :: post) hsome 0 ▸ he)
    have hblank : blanksOff (closeBrace :: post) = closeBrace :: post := blanksOff_cons (by decide) post
    rw [hbare, hblank] at hhead
    have htext : embrace true e ++ post = openBrace :: (e ++ closeBrace :: post) := by
      rw [embrace, if_pos rfl, List.cons_append, List.append_assoc]
      rfl
    -- only the branch of a call looks for the closing brace: here it stays in the text
    have hreads := @Reads.argument (openBrace :: (e ++ closeBrace :: post))
    rw [hhead] at hreads
    rw [htext]
    exact hreads (show closeBrace ≠ openParen by decide) hone

theorem EndsArgument.ends (h : EndsArgument post) : Ends post := by
  have hfirst : isBlank (post.headD 0) = true ∨ post.headD 0 = comma ∨ post.headD 0 = closeParen := by
    cases hblank : isBlank (post.headD 0) with
    | true => exact Or.inl rfl
    | false =>
      rw [EndsArgument, blanksOff_of_headD hblank] at h
      exact Or.inr h
  rcases hfirst with hblank | hcomma | hparen
  · refine ⟨?_, ?_⟩
    · by_contra hchar
      rw [isBlank_of_identifierChar ((Bool.not_eq_false _).mp hchar)] at hblank
      cases hblank
    · intro heq
      rw [heq] at hblank
      exact absurd hblank (by decide)
  · rw [Ends, hcomma]
    decide
  · rw [Ends, hparen]
    decide

/-- With the braces of a call, the arguments are read as without them. -/
theorem InArgs.agree (he : Expression e g) (hcall : IsCall e) (h : InArgs e t t') :
    Agree .params t t' := by
  -- on where the expression stands: `later` and `inner` put what is in front of it back
  induction h with
  | @here post =>
    rcases he.cases with ⟨-, func, v, args, hopen, hargs, rfl⟩ | ⟨hvar, -⟩
    · obtain ⟨hbare, hbraced⟩ := call_reads_front he.bare hopen hargs post
      exact ((agree_of_reads hbare hbraced).param rfl rfl).params
    · exact absurd hcall hvar
  | later b ha hv hin ih =>
    obtain ⟨hblank, hblank'⟩ := hin.behind_blanks b
    exact Agree.later ha hv (by rwa [hblank, hblank'])
  | @inner o func t t' b ho hin ih =>
    obtain ⟨hblank, hblank'⟩ := hin.behind_blanks b
    obtain ⟨hopen, hbrace⟩ := ho.extend (x := b.1 ++ t)
    obtain ⟨hopen', hbrace'⟩ := ho.extend (x := b.1 ++ t')
    have hparams : Agree .params (blanksOff ([] ++ (b.1 ++ t))) (blanksOff ([] ++ (b.1 ++ t'))) := by
      rwa [List.nil_append, List.nil_append, hblank, hblank']
    exact ((Agree.call hopen hopen' (hbrace'.trans hbrace.symm) hparams).param rfl rfl).params

/-- At the closing brace of a variable the reading of the arguments stands still. -/
theorem InArgs.jams (he : Expression e g) (hvar : ¬ IsCall e) (h : InArgs e t t') : Jams t' := by
  induction h with
  | @here post =>
    rcases he.cases with ⟨hcall, -⟩ | ⟨-, -, hone, hrest⟩
    · exact absurd hcall hvar
    · obtain ⟨-, hreads⟩ := variable_reads_front he.bare hone hrest
      exact params_stick (.func rfl hreads) (Or.inr rfl)
  | later b ha hv hin ih =>
    obtain ⟨-, hblank⟩ := hin.behind_blanks b
    exact Jams.later ha hv (by rwa [hblank])
  | @inner o func t t' b ho hin ih =>
    obtain ⟨-, hblank⟩ := hin.behind_blanks b
    obtain ⟨hopen, -⟩ := ho.extend (x := b.1 ++ t')
    have hjams : Jams (blanksOff ([] ++ (b.1 ++ t'))) := by rwa [List.nil_append, hblank]
    obtain ⟨r, hreads, hstuck⟩ := hjams.call hopen
    exact params_stick (.func rfl hreads) hstuck

end Expressions

/-! ### Scripts -/

section Scripts

variable {e s s' r : List UInt8} {g : ZFunc} {fs : List ZFunc} {ok : Bool} {f f₁ : ZFormatter}

/-- Behind a '$' and a name or a brace there is no constant string. -/
theorem constEnd_dollar {u : List UInt8}
    (hu : u.headD 0 = openBrace ∨ isIdentifierChar (u.headD 0) = true) :
    constEnd false 0 (dollar :: u) = 0 := by
  have hsome : u ≠ [] := by
    rintro rfl
    exact absurd hu (by decide)
  obtain ⟨b, u, rfl⟩ := List.exists_cons_of_ne_nil hsome
  exact constEnd_append (x := []) List.not_mem_nil (Or.inr ⟨b, u, rfl, hu⟩) 0

/-- A call begins with a '$' and what `constStr` stops at. -/
theorem constEnd_opener {o : List UInt8} {func : List ZFunc → ZFunc} (ho : Opens o func [])
    (hfirst : o.headD 0 = openBrace ∨ isIdentifierChar (o.headD 0) = true) (x : List UInt8) :
    constEnd false 0 (dollar :: (o ++ x)) = 0 := by
  have hsome : o ≠ [] := ne_nil_of_suffix (head_suffix o) (ho.rest ▸ List.cons_ne_nil openParen [])
  exact constEnd_dollar (by rwa [headD_extend hsome])

theorem Script.agree (hs : constEnd false 0 s = 0) (hs' : constEnd false 0 s' = 0)
    (h : Agree .func s s') (hscript : Script s fs ok r) : Script s' fs ok r := by
  cases hscript with
  | stop _ hfunc => exact .stop hs' (h hfunc)
  | text _ hlen hx => exact absurd (List.length_eq_zero_iff.mp (hlen.symm.trans hs)) hx
  | func _ hfunc hrest => exact .func hs' (h hfunc) hrest

/-- What begins with a '$' is read. -/
theorem Compiles.seen (h : Compiles f s (true, f₁)) (hs : s.headD 0 = dollar) :
    s.length < 2 ^ 32 ∧ ∃ fs ok, Script s fs ok [] ∧ f₁.funcList = f.funcList ++ fs := by
  have hlen := h.short_or_unseen.resolve_right fun hunseen => hunseen.2 hs
  exact h.listed.resolve_right fun hlong => absurd hlen (not_lt.mpr hlong.1)

theorem compiles_true_iff (hs : s.headD 0 = dollar) :
    (∃ f₂, Compiles f s (true, f₂) ∧ f₂.funcList = f.funcList ++ fs) ↔
      s.length < 2 ^ 32 ∧ ∃ ok, Script s fs ok [] := by
  constructor
  · rintro ⟨f₂, htrue, hlist⟩
    obtain ⟨hlen, fs', ok, hscript, hlist'⟩ := htrue.seen hs
    obtain rfl := List.append_cancel_left (hlist.symm.trans hlist')
    exact ⟨hlen, ok, hscript⟩
  · rintro ⟨hlen, ok, hscript⟩
    exact ⟨_, hscript.compiles f (ne_nil_of_headD hs (by decide)) hlen, rfl⟩

theorem getFuncByName_ne {name : List UInt8} {func : List ZFunc → ZFunc}
    (h : getFuncByName name = some func) (args : List ZFunc) (x : List UInt8) :
    func args ≠ .stringFunc x := by
  unfold getFuncByName at h
  split_ifs at h
  · obtain rfl := Option.some.inj h
    exact nofun
  · obtain rfl := Option.some.inj h
    exact nofun

/-- An expression on its own is one function. -/
theorem Expression.constEnd (h : Expression e g) : constEnd false 0 (dollar :: e) = 0 := by
  obtain ⟨f, htrue, hlist⟩ := h.compiles
  obtain ⟨-, ok, hscript⟩ := (compiles_true_iff (f := new) rfl).mp ⟨f, htrue, hlist⟩
  cases hscript with
  | text =>
    rcases h.cases with ⟨-, func, v, args, hopen, -, hg⟩ | ⟨-, hg, -⟩
    · exact absurd hg.symm (getFuncByName_ne hopen.name args _)
    · cases hg
  | func hconst => exact hconst

/-- **A script with the braces of a call** is read as without them. -/
theorem Place.script (he : Expression e g) (hcall : IsCall e) (h : Place e s s')
    (hscript : Script s fs ok r) : Script s' fs ok r := by
  cases h with
  | own =>
    rcases he.cases with ⟨-, func, v, args, hopen, hargs, rfl⟩ | ⟨hvar, -⟩
    · obtain ⟨hbare, hbraced⟩ := call_reads_front he.bare hopen hargs []
      rw [List.append_nil] at hbare hbraced
      exact hscript.agree he.constEnd (constEnd_dollar (Or.inl rfl)) (agree_of_reads hbare hbraced)
    · exact absurd hcall hvar
  | @inCall o func t t' b ho hfirst hin =>
    obtain ⟨hblank, hblank'⟩ := hin.behind_blanks b
    obtain ⟨hopen, hbrace⟩ := ho.extend (x := b.1 ++ t)
    obtain ⟨hopen', hbrace'⟩ := ho.extend (x := b.1 ++ t')
    have hparams : Agree .params (blanksOff ([] ++ (b.1 ++ t))) (blanksOff ([] ++ (b.1 ++ t'))) := by
      rw [List.nil_append, List.nil_append, hblank, hblank']
      exact hin.agree he hcall
    exact hscript.agree (constEnd_opener ho hfirst _) (constEnd_opener ho hfirst _)
      (Agree.call hopen hopen' (hbrace'.trans hbrace.symm) hparams)

/-- With those of a variable it is not. -/
theorem Place.not_script (he : Expression e g) (hvar : ¬ IsCall e) (h : Place e s s')
    (hscript : Script s fs ok []) {ok' : Bool} : ¬ Script s' fs ok' [] := by
  intro hscript'
  cases h with
  | own =>
    rcases he.cases with ⟨hcall, -⟩ | ⟨-, rfl, hone, hrest⟩
    · exact hvar hcall
    · obtain ⟨-, hreads⟩ := @variable_reads_front e [] he.bare hone hrest
      rw [List.append_nil] at hreads
      -- on its own the variable is one function; in braces the brace behind it is a text of its own
      have hempty : Script [] [] true [] := .stop rfl (.noFunc (by decide))
      have hown := Script.func he.constEnd he.reads hempty
      have hbrace : Script [closeBrace] [.stringFunc [closeBrace]] true [] :=
        .text rfl rfl (List.cons_ne_nil closeBrace []) hempty
      have hbraced := Script.func (constEnd_dollar (Or.inl rfl)) hreads hbrace
      have hsame := (hown.unique hscript).1.symm.trans (hbraced.unique hscript').1
      cases hsame
  | @inCall o func t t' b ho hfirst hin =>
    obtain ⟨-, hblank⟩ := hin.behind_blanks b
    obtain ⟨hopen, -⟩ := ho.extend (x := b.1 ++ t')
    have hjams : Jams (blanksOff ([] ++ (b.1 ++ t'))) := by
      rw [List.nil_append, hblank]
      exact hin.jams he hvar
    -- among arguments the brace stops the call, and with it the script
    obtain ⟨r, hreads, hstuck⟩ := hjams.call hopen
    have hstop := Script.stop (constEnd_opener ho hfirst _) hreads
    obtain ⟨-, -, rfl⟩ := hscript'.unique hstop
    rcases hstuck with hquote | hbrace
    · exact absurd hquote (by decide)
    · exact absurd hbrace (by decide)

theorem Place.headD (h : Place e s s') : s.headD 0 = dollar ∧ s'.headD 0 = dollar := by
  cases h with
  | own => exact ⟨rfl, rfl⟩
  | inCall => exact ⟨rfl, rfl⟩

/-- **Braces are optional** around a call, and not around a variable. -/
theorem braces_optional_iff (he : Expression e g) (h : Place e s s')
    (hs : Compiles f s (true, f₁)) :
    (∃ f₂, Compiles f s' (true, f₂) ∧ f₂.funcList = f₁.funcList) ↔
      IsCall e ∧ s'.length < 2 ^ 32 := by
  obtain ⟨hdollar, hdollar'⟩ := h.headD
  obtain ⟨-, fs, ok, hscript, hlist⟩ := hs.seen hdollar
  rw [hlist, compiles_true_iff hdollar', and_comm]
  refine and_congr_left fun _ => ⟨?_, fun hcall => ⟨ok, h.script he hcall hscript⟩⟩
  rintro ⟨ok', hscript'⟩
  by_contra hvar
  exact h.not_script he hvar hscript hscript'

/-- What is read as an expression is compiled. -/
theorem Expression.of_reads (hfirst : isIdentifierChar (e.headD 0) = true)
    (hlen : (dollar :: e).length < 2 ^ 32) (h : Reads .func (dollar :: e) (some g) true []) :
    Expression e g where
  bare := by
    intro heq
    rw [heq] at hfirst
    exact absurd hfirst (by decide)
  reads := h
  compiles := by
    have hempty : Script [] [] true [] := .stop rfl (.noFunc (by decide))
    have hscript := Script.func (constEnd_dollar (Or.inr hfirst)) h hempty
    exact ⟨_, hscript.compiles new (List.cons_ne_nil dollar e) hlen, rfl⟩

end Scripts

/-- "multi()" -/
def emptyMulti : List UInt8 := FuncName.multi.bytes ++ [openParen, closeParen]

theorem emptyMulti_expression : Expression emptyMulti (.multiFunc []) :=
  .of_reads (by decide) (by decide) (call_reads false .multi emptyParams_reads [])

/-- "$multi($multi())", and "$multi(${multi()})" -/
def nestedMulti (braced : Bool) : List UInt8 :=
  dollar :: (FuncName.multi.bytes ++ [openParen] ++
    (noBlanks.1 ++ dollar :: (embrace braced emptyMulti ++ [closeParen])))

theorem nestedMulti_place : Place emptyMulti (nestedMulti false) (nestedMulti true) :=
  .inCall noBlanks ⟨rfl, rfl⟩ (Or.inr (by decide)) (.here (Or.inr rfl))

def nestedDerivation : Derivation where
  items := [.func (.call false .multi (.one (.func (.emptyCall false .multi))))]
  some := List.cons_ne_nil _ _
  proper := ⟨nofun, trivial⟩

theorem nestedMulti_braces : ∃ f₁ f₂, Compiles new (nestedMulti false) (true, f₁) ∧
    Compiles new (nestedMulti true) (true, f₂) ∧ f₂.funcList = f₁.funcList := by
  have hplain : Plain nestedDerivation.items := ⟨trivial, trivial, nofun, trivial⟩
  obtain ⟨f₁, htrue, -⟩ := (compiled_iff_plain new (by decide)).mpr hplain
  obtain ⟨f₂, htrue', hsame⟩ := (braces_optional_iff emptyMulti_expression nestedMulti_place
    htrue).mpr ⟨by decide, by decide⟩
  exact ⟨f₁, f₂, htrue, htrue', hsame⟩

/-- "${1}" is compiled, but not into the variable alone. -/
theorem variable_braces_kept : ¬ ∀ e g s s' f f₁, Expression e g → Place e s s' →
    Compiles f s (true, f₁) → ∃ f₂, Compiles f s' (true, f₂) ∧ f₂.funcList = f₁.funcList := by
  intro hall
  have he : Expression ['1'.toUInt8] .arg :=
    .of_reads (by decide) (by decide) (argument_reads ⟨by decide, by decide⟩)
  obtain ⟨f₁, htrue, hlist⟩ := he.compiles
  obtain ⟨-, ok, hscript⟩ := (compiles_true_iff (f := new) rfl).mp ⟨f₁, htrue, hlist⟩
  obtain ⟨f₂, htrue', hlist'⟩ := hall _ _ _ _ _ _ he .own htrue
  obtain ⟨-, ok', hscript'⟩ :=
    (compiles_true_iff (f := new) rfl).mp ⟨f₂, htrue', hlist'.trans hlist⟩
  exact Place.not_script he (by decide) .own hscript hscript'

end ZFormatter

end Monsys
