/-
  The language that `server/zformatter.h` documents.

  1. **The grammar** — `Phrase`: a function expression, an argument or a list of arguments, with the
     text it is written as and the function it stands for; `Derivation`, a row of constant strings
     and function expressions.  A text between two expressions is one constant string.
  2. **Names and texts** — how `varFunc` finds a name, and `constStr` its end.
  3. **Phrases** — one that is `Solid` is read to its end (`Phrase.reads`); of one that has a string
     in quotes or a variable in braces as an argument, the reading stands still there
     (`Phrase.sticks`).
  4. **Derivations** — `derivation_compiles_iff`.
-/
import Monsys.FormatterBounds

namespace Monsys

namespace ZFormatter

/-! ## The grammar -/

inductive Production
  | func
  | param
  | params

/-- The functions that `getFuncByName` knows. -/
inductive FuncName
  | div
  | multi
deriving DecidableEq, Repr

def FuncName.bytes : FuncName → List UInt8
  | .div => ['d', 'i', 'v'].map Char.toUInt8
  | .multi => ['m', 'u', 'l', 't', 'i'].map Char.toUInt8

def FuncName.func : FuncName → List ZFunc → ZFunc
  | .div => .divFunc
  | .multi => .multiFunc

/-- A decimal number. -/
abbrev Digits := { d : List UInt8 // d ≠ [] ∧ ∀ c ∈ d, isDigit c = true }

abbrev Blanks := { b : List UInt8 // ∀ c ∈ b, isBlank c = true }

/-- What may stand in quotes. -/
abbrev Quotable := { q : List UInt8 // quote ∉ q }

/-- `func : '$' '{'? ('1' | name '(' params? ')') '}'?`, with both braces or none,
    `param : func | number | '"' string '"'` and `params : param (blanks ',' blanks param)*`. -/
inductive Phrase : Production → Type
  | argument (braced : Bool) : Phrase .func
  | emptyCall (braced : Bool) (name : FuncName) : Phrase .func
  | call (braced : Bool) (name : FuncName) (params : Phrase .params) : Phrase .func
  | func (f : Phrase .func) : Phrase .param
  | number (digits : Digits) : Phrase .param
  | string (str : Quotable) : Phrase .param
  | one (p : Phrase .param) : Phrase .params
  | more (p : Phrase .param) (before after : Blanks) (ps : Phrase .params) : Phrase .params

/-- A pair of braces, or none. -/
def embrace (braced : Bool) (t : List UInt8) : List UInt8 :=
  if braced then openBrace :: (t ++ [closeBrace]) else t

theorem embrace_false (t : List UInt8) : embrace false t = t := rfl

abbrev Production.Value : Production → Type
  | .func => ZFunc
  | .param => ZFunc
  | .params => List ZFunc

namespace Phrase

def text : {p : Production} → Phrase p → List UInt8
  | _, argument braced => dollar :: embrace braced ['1'.toUInt8]
  | _, emptyCall braced name => dollar :: embrace braced (name.bytes ++ [openParen, closeParen])
  | _, call braced name params =>
    dollar :: embrace braced (name.bytes ++ openParen :: (params.text ++ [closeParen]))
  | _, func f => f.text
  | _, number digits => digits.1
  | _, string str => quote :: (str.1 ++ [quote])
  | _, one p => p.text
  | _, more p before after ps => p.text ++ (before.1 ++ comma :: (after.1 ++ ps.text))

/-- What a phrase stands for, where digits stand for what `num` says. -/
def denoteBy (num : List UInt8 → Int) : {p : Production} → Phrase p → p.Value
  | _, argument _ => .arg
  | _, emptyCall _ name => name.func []
  | _, call _ name params => name.func (params.denoteBy num)
  | _, func f => f.denoteBy num
  | _, number digits => .numberFunc (num digits.1)
  | _, string str => .stringFunc str.1
  | _, one p => [p.denoteBy num]
  | _, more p _ _ ps => p.denoteBy num :: ps.denoteBy num

/-- The functions that a phrase denotes. -/
def denote {p : Production} (x : Phrase p) : p.Value := x.denoteBy fun d => decimal d

/-- No string in quotes, and no variable in braces. -/
def Solid : {p : Production} → Phrase p → Prop
  | _, argument braced => braced = false
  | _, emptyCall _ _ => True
  | _, call _ _ params => params.Solid
  | _, func f => f.Solid
  | _, number _ => True
  | _, string _ => False
  | _, one p => p.Solid
  | _, more p _ _ ps => p.Solid ∧ ps.Solid

/-- All numbers are those of an `int`. -/
def Small : {p : Production} → Phrase p → Prop
  | _, argument _ => True
  | _, emptyCall _ _ => True
  | _, call _ _ params => params.Small
  | _, func f => f.Small
  | _, number digits => decimal digits.1 < 2 ^ 31
  | _, string _ => True
  | _, one p => p.Small
  | _, more p _ _ ps => p.Small ∧ ps.Small

end Phrase

/-- A constant string, or a function expression. -/
inductive Item
  | text (t : List UInt8)
  | func (f : Phrase .func)

namespace Item

def bytes : Item → List UInt8
  | text t => t
  | func f => f.text

def denote : Item → ZFunc
  | text t => .stringFunc t
  | func f => f.denote

end Item

def textOf (items : List Item) : List UInt8 := items.flatMap Item.bytes

/-- A constant string is not empty, has no '$' and is not followed by another one; one behind a
    variable without braces does not go on with the name. -/
def Proper : List Item → Prop
  | [] => True
  | .text t :: items => t ≠ [] ∧ dollar ∉ t ∧ (∀ t', items.head? ≠ some (.text t')) ∧ Proper items
  | .func f :: items =>
    (f = .argument false → isIdentifierChar ((textOf items).headD 0) = false) ∧ Proper items

/-- `expr : (const_string | func)+` -/
structure Derivation where
  items : List Item
  some : items ≠ []
  proper : Proper items

/-- What a `ZFormatter` can read: no string in quotes, no variable in braces, no number too large
    for an `int`, and no '(' behind a variable. -/
def Plain : List Item → Prop
  | [] => True
  | .text _ :: items => Plain items
  | .func f :: items =>
    f.Solid ∧ f.Small ∧ (f = .argument false → (textOf items).headD 0 ≠ openParen) ∧ Plain items

/-! ## Names and texts -/

section Names

variable {x r : List UInt8}

theorem span_append {p : UInt8 → Bool} (hx : ∀ c ∈ x, p c = true) (hr : p (r.headD 0) = false) :
    (x ++ r).takeWhile p = x ∧ (x ++ r).dropWhile p = r := by
  rw [List.takeWhile_append_of_pos hx, List.dropWhile_append_of_pos hx]
  cases r with
  | nil => exact ⟨List.append_nil x, rfl⟩
  | cons c r =>
    have hc : ¬ p c = true := ne_true_of_eq_false hr
    rw [List.takeWhile_cons_of_neg hc, List.dropWhile_cons_of_neg hc, List.append_nil]
    exact ⟨rfl, rfl⟩

theorem blanksOff_append (b : Blanks) (hr : isBlank (r.headD 0) = false) :
    blanksOff (b.1 ++ r) = r := (span_append b.2 hr).2

theorem blanksOff_of_headD (hr : isBlank (r.headD 0) = false) : blanksOff r = r :=
  blanksOff_append ⟨[], List.forall_mem_nil _⟩ hr

theorem blanksOff_cons {c : UInt8} (hc : isBlank c = false) (r : List UInt8) :
    blanksOff (c :: r) = c :: r := blanksOff_of_headD hc

/-- A byte of a name is no blank. -/
theorem isBlank_of_identifierChar {c : UInt8} (h : isIdentifierChar c = true) :
    isBlank c = false := by
  by_contra hblank
  rw [Bool.not_eq_false, isBlank, Bool.or_eq_true, beq_iff_eq, beq_iff_eq] at hblank
  rcases hblank with rfl | rfl
  · exact absurd h (by decide)
  · exact absurd h (by decide)

/-- A name in front of something else. -/
structure Named (name r : List UInt8) : Prop where
  some : name ≠ []
  chars : ∀ c ∈ name, isIdentifierChar c = true
  ends : isIdentifierChar (r.headD 0) = false

theorem Named.headD (h : Named x r) : isIdentifierChar ((x ++ r).headD 0) = true := by
  cases x with
  | nil => exact absurd rfl h.some
  | cons c x => exact h.chars c List.mem_cons_self

theorem Named.split (h : Named x r) :
    (blanksOff (x ++ r)).takeWhile isIdentifierChar = x ∧
      (blanksOff (x ++ r)).dropWhile isIdentifierChar = r := by
  rw [blanksOff_of_headD (isBlank_of_identifierChar h.headD)]
  exact span_append h.chars h.ends

theorem head_bare (h : Named x r) : head (x ++ r) = ⟨false, x, r⟩ := by
  have hbrace : ((x ++ r).headD 0 == openBrace) = false := by
    rw [beq_eq_false_iff_ne]
    intro heq
    have hchar := h.headD
    rw [heq] at hchar
    exact absurd hchar (by decide)
  rw [head, hbrace]
  exact congrArg₂ (Head.mk false) h.split.1 h.split.2

theorem head_braced (h : Named x r) : head (openBrace :: (x ++ r)) = ⟨true, x, blanksOff r⟩ := by
  have hrest := congrArg blanksOff h.split.2
  exact congrArg₂ (Head.mk true) h.split.1 hrest

theorem FuncName.named (name : FuncName) (r : List UInt8) : Named name.bytes (openParen :: r) where
  some := by cases name <;> decide
  chars := by cases name <;> exact List.all_eq_true.mp rfl
  ends := show isIdentifierChar openParen = false by decide

/-- What stands behind the arguments of a call and belongs to it. -/
def tailOf (braced : Bool) : List UInt8 := if braced then [closeBrace] else []

theorem getFuncByName_bytes (name : FuncName) : getFuncByName name.bytes = some name.func := by
  cases name <;> rfl

/-- The text of a call opens it, in braces or not. -/
theorem call_opens (braced : Bool) (name : FuncName) (x rest : List UInt8) :
    Opens (embrace braced (name.bytes ++ openParen :: (x ++ [closeParen])) ++ rest) name.func
        (x ++ closeParen :: (tailOf braced ++ rest)) ∧
      (head (embrace braced (name.bytes ++ openParen :: (x ++ [closeParen])) ++ rest)).braced =
        braced := by
  have hnamed := name.named (x ++ closeParen :: (tailOf braced ++ rest))
  cases braced with
  | false =>
    have htext : embrace false (name.bytes ++ openParen :: (x ++ [closeParen])) ++ rest =
        name.bytes ++ openParen :: (x ++ closeParen :: (tailOf false ++ rest)) := by
      rw [embrace_false, List.append_assoc, List.cons_append, List.append_assoc]
      rfl
    rw [htext]
    have hhead := head_bare hnamed
    exact ⟨⟨by rw [hhead], by rw [hhead]; exact getFuncByName_bytes name⟩, by rw [hhead]⟩
  | true =>
    have htext : embrace true (name.bytes ++ openParen :: (x ++ [closeParen])) ++ rest =
        openBrace :: (name.bytes ++ openParen :: (x ++ closeParen :: (tailOf true ++ rest))) := by
      rw [embrace, if_pos rfl, List.cons_append, List.append_assoc, List.append_assoc,
        List.cons_append, List.append_assoc]
      rfl
    rw [htext]
    have hhead := head_braced hnamed
    have hopen : blanksOff (openParen :: (x ++ closeParen :: (tailOf true ++ rest))) = _ :=
      blanksOff_cons (by decide) _
    exact ⟨⟨by rw [hhead, hopen], by rw [hhead]; exact getFuncByName_bytes name⟩, by rw [hhead]⟩

/-- `constStr` takes a text without '$' up to a '$' with a name behind it, or to the end. -/
theorem constEnd_append (hx : dollar ∉ x)
    (hr : r = [] ∨ ∃ b u, r = dollar :: b :: u ∧ (b = openBrace ∨ isIdentifierChar b = true)) :
    ∀ n, constEnd false n (x ++ r) = n + x.length := by
  induction x with
  | nil =>
    intro n
    rcases hr with rfl | ⟨b, u, rfl, hb⟩
    · rfl
    · have hne : b ≠ dollar := by
        rintro rfl
        exact absurd hb (by decide)
      rw [List.nil_append, constEnd, if_pos rfl, constEnd, if_neg hne, if_pos hb, if_pos rfl]
      rfl
  | cons c x ih =>
    intro n
    rw [List.mem_cons, not_or] at hx
    rw [List.cons_append, constEnd, if_neg (Ne.symm hx.1), if_neg Bool.false_ne_true, ite_self,
      ih hx.2, List.length_cons]
    omega

end Names

/-! ## Phrases -/

section Phrases

/-- Behind an argument: nothing that goes on with a name, and no '('. -/
def Ends (rest : List UInt8) : Prop :=
  isIdentifierChar (rest.headD 0) = false ∧ rest.headD 0 ≠ openParen

/-- The reading stands still here. -/
def Stuck (rest : List UInt8) : Prop := rest.headD 0 = quote ∨ rest.headD 0 = closeBrace

/-- The text is read to its end. -/
def ReadsFine : (p : Production) → Phrase p → Prop
  | .func, x => ∀ rest, (x = .argument false → Ends rest) →
    Reads .func (x.text ++ rest) (some (x.denoteBy atoi)) true rest
  | .param, x => ∀ rest, Ends rest →
    Reads .param (x.text ++ rest) (some (x.denoteBy atoi)) true rest
  | .params, x => ∀ rest,
    Reads .params (x.text ++ closeParen :: rest) (x.denoteBy atoi) true (closeParen :: rest)

/-- The text is read up to where the reading stands still. -/
def Sticks : (p : Production) → Phrase p → Prop
  | .func, x => x = .argument true ∨
    ∀ rest, ∃ r, Reads .func (x.text ++ rest) none false r ∧ Stuck r
  | .param, x => ∀ rest, ∃ g ok r, Reads .param (x.text ++ rest) g ok r ∧ Stuck r
  | .params, x => ∀ rest, ∃ args ok r,
    Reads .params (x.text ++ closeParen :: rest) args ok r ∧ Stuck r

variable {r rest x : List UInt8} {args : List ZFunc} {ok : Bool}

theorem Stuck.isBlank (h : Stuck r) : isBlank (r.headD 0) = false := by
  rcases h with h | h <;> rw [h] <;> decide

theorem Stuck.ne_comma (h : Stuck r) : r.headD 0 ≠ comma := by
  rcases h with h | h <;> rw [h] <;> decide

theorem Stuck.ne_closeParen (h : Stuck r) : r.headD 0 ≠ closeParen := by
  rcases h with h | h <;> rw [h] <;> decide

theorem isIdentifierChar_of_digit {c : UInt8} (h : isDigit c = true) :
    isIdentifierChar c = true := by
  rw [isIdentifierChar, h, Bool.or_true, Bool.true_or]

theorem digits_headD (digits : Digits) (rest : List UInt8) :
    isDigit ((digits.1 ++ rest).headD 0) = true := by
  obtain ⟨d, hsome, hdigits⟩ := digits
  cases d with
  | nil => exact absurd rfl hsome
  | cons c d => exact hdigits c List.mem_cons_self

/-- No phrase begins with a blank. -/
theorem Phrase.text_cons {p : Production} (x : Phrase p) :
    ∃ c u, x.text = c :: u ∧ ZFormatter.isBlank c = false := by
  induction x with
  | argument => exact ⟨_, _, rfl, by decide⟩
  | emptyCall => exact ⟨_, _, rfl, by decide⟩
  | call => exact ⟨_, _, rfl, by decide⟩
  | func f ih => exact ih
  | number digits =>
    obtain ⟨d, hsome, hdigits⟩ := digits
    cases d with
    | nil => exact absurd rfl hsome
    | cons c d =>
      have hchar := isIdentifierChar_of_digit (hdigits c List.mem_cons_self)
      exact ⟨c, d, rfl, isBlank_of_identifierChar hchar⟩
  | string => exact ⟨_, _, rfl, by decide⟩
  | one p ih => exact ih
  | more p before after ps ih =>
    obtain ⟨c, u, htext, hc⟩ := ih
    exact ⟨c, _, by rw [text, htext, List.cons_append], hc⟩

theorem Phrase.isBlank_text {p : Production} (x : Phrase p) (rest : List UInt8) :
    ZFormatter.isBlank ((x.text ++ rest).headD 0) = false := by
  obtain ⟨c, u, htext, hc⟩ := x.text_cons
  rw [htext]
  exact hc

theorem Phrase.blanksOff_text {p : Production} (x : Phrase p) (rest : List UInt8) :
    blanksOff (x.text ++ rest) = x.text ++ rest := blanksOff_of_headD (x.isBlank_text rest)

/-- A call whose arguments are read is read, with its brace. -/
theorem call_reads (braced : Bool) (name : FuncName)
    (hargs : ∀ rest, Reads .params (blanksOff (x ++ closeParen :: rest)) args true
      (closeParen :: rest)) (rest : List UInt8) :
    Reads .func (dollar :: (embrace braced (name.bytes ++ openParen :: (x ++ [closeParen])) ++ rest))
      (some (name.func args)) true rest := by
  obtain ⟨hopen, hbrace⟩ := call_opens braced name x rest
  cases braced with
  | false => exact .call hopen (hargs _) hbrace
  | true =>
    exact .bracedCall hopen (hargs _) hbrace
      (blanksOff_cons (by decide) rest)

/-- Where the reading of the arguments stands still, that of the call does. -/
theorem call_sticks (braced : Bool) (name : FuncName)
    (hargs : ∀ rest, ∃ args ok r, Reads .params (blanksOff (x ++ closeParen :: rest)) args ok r ∧
      Stuck r) (rest : List UInt8) :
    ∃ r, Reads .func
      (dollar :: (embrace braced (name.bytes ++ openParen :: (x ++ [closeParen])) ++ rest)) none false
      r ∧ Stuck r := by
  obtain ⟨hopen, hbrace⟩ := call_opens braced name x rest
  obtain ⟨args, ok, r, hreads, hstuck⟩ := hargs (tailOf braced ++ rest)
  exact ⟨r, .noEnd hopen hreads hstuck.ne_closeParen, hstuck⟩

theorem one_named (h : isIdentifierChar (rest.headD 0) = false) : Named ['1'.toUInt8] rest where
  some := List.cons_ne_nil _ _
  chars := List.all_eq_true.mp rfl
  ends := h

theorem isOne_one : IsOne ['1'.toUInt8] := by decide

/-- A variable without braces. -/
theorem argument_reads (h : Ends rest) :
    Reads .func (dollar :: '1'.toUInt8 :: rest) (some .arg) true rest := by
  have hhead : head ('1'.toUInt8 :: rest) = _ := head_bare (one_named h.1)
  have hreads := @Reads.argument ('1'.toUInt8 :: rest)
  rw [hhead] at hreads
  exact hreads h.2 isOne_one

/-- A variable in braces: the closing one is left. -/
theorem bracedArgument_reads (rest : List UInt8) :
    Reads .func (dollar :: openBrace :: '1'.toUInt8 :: closeBrace :: rest) (some .arg) true
      (closeBrace :: rest) := by
  have hnamed : Named ['1'.toUInt8] (closeBrace :: rest) :=
    one_named (show isIdentifierChar closeBrace = false by decide)
  have hblank : blanksOff (closeBrace :: rest) = closeBrace :: rest :=
    blanksOff_cons (by decide) rest
  have hhead : head (openBrace :: '1'.toUInt8 :: closeBrace :: rest) = _ := head_braced hnamed
  have hreads := @Reads.argument (openBrace :: '1'.toUInt8 :: closeBrace :: rest)
  rw [hhead, hblank] at hreads
  exact hreads (show closeBrace ≠ openParen by decide) isOne_one

/-- Arguments are read behind a '(' as they are. -/
theorem emptyParams_reads (rest : List UInt8) :
    Reads .params (blanksOff ([] ++ closeParen :: rest)) [] true (closeParen :: rest) := by
  rw [List.nil_append, blanksOff_cons (by decide)]
  exact .stop (.noParam (show closeParen ≠ quote by decide)
    (show isDigit closeParen = false by decide) (show closeParen ≠ dollar by decide))

theorem ends_closeParen (rest : List UInt8) : Ends (closeParen :: rest) :=
  ⟨show isIdentifierChar closeParen = false by decide, show closeParen ≠ openParen by decide⟩

/-- In front of a comma there may be blanks. -/
theorem ends_comma (before : Blanks) (rest : List UInt8) : Ends (before.1 ++ comma :: rest) := by
  obtain ⟨b, hb⟩ := before
  cases b with
  | nil => exact ⟨show isIdentifierChar comma = false by decide, show comma ≠ openParen by decide⟩
  | cons c b =>
    have hc := hb c List.mem_cons_self
    refine ⟨?_, ?_⟩
    · by_contra hchar
      have hchar : isIdentifierChar c = true := (Bool.not_eq_false _).mp hchar
      rw [isBlank_of_identifierChar hchar] at hc
      cases hc
    · rintro (rfl : c = openParen)
      exact absurd hc (by decide)

theorem Phrase.more_text (p : Phrase .param) (before after : Blanks) (ps : Phrase .params)
    (rest : List UInt8) : (more p before after ps).text ++ rest =
      p.text ++ (before.1 ++ comma :: (after.1 ++ (ps.text ++ rest))) := by
  rw [text, List.append_assoc, List.append_assoc, List.cons_append, List.append_assoc]

/-- **A solid phrase is read to its end.** -/
theorem Phrase.reads {p : Production} (x : Phrase p) (h : x.Solid) : ReadsFine p x := by
  induction x with
  | argument braced =>
    obtain rfl : braced = false := h
    exact fun rest hends => argument_reads (hends rfl)
  | emptyCall braced name =>
    exact fun rest _ => call_reads braced name emptyParams_reads rest
  | call braced name params ih =>
    have hargs : ∀ rest, Reads .params (blanksOff (params.text ++ closeParen :: rest))
        (params.denoteBy atoi) true (closeParen :: rest) := by
      intro rest
      rw [params.blanksOff_text]
      exact ih h rest
    exact fun rest _ => call_reads braced name hargs rest
  | func f ih =>
    intro rest hends
    have hhead : (f.text ++ rest).headD 0 = dollar := by cases f <;> rfl
    exact .func hhead (ih h rest fun _ => hends)
  | number digits =>
    intro rest hends
    have hstop : isDigit (rest.headD 0) = false := by
      by_contra hdigit
      exact absurd (isIdentifierChar_of_digit ((Bool.not_eq_false _).mp hdigit))
        (ne_true_of_eq_false hends.1)
    have hspan := span_append digits.2.2 hstop
    have hreads := Reads.number (digits_headD digits rest)
    rw [hspan.1, hspan.2] at hreads
    exact hreads
  | string => exact h.elim
  | one p ih =>
    intro rest
    have hlast := Reads.last (ih h _ (ends_closeParen rest))
    rw [blanksOff_cons (by decide)] at hlast
    exact hlast (show closeParen ≠ comma by decide)
  | more p before after ps ihp ih =>
    intro rest
    have hp := ihp h.1 (before.1 ++ comma :: (after.1 ++ (ps.text ++ closeParen :: rest)))
      (ends_comma before _)
    have hcomma : blanksOff (before.1 ++ comma :: (after.1 ++ (ps.text ++ closeParen :: rest))) = _ :=
      blanksOff_append before (show isBlank comma = false by decide)
    have hps := ih h.2 rest
    rw [← blanksOff_append after (ps.isBlank_text _)] at hps
    rw [more_text]
    exact .more hp hcomma hps

/-- Where an argument stands still, so does the list of them. -/
theorem params_stick {t : List UInt8} {g : Option ZFunc} (h : Reads .param t g ok r)
    (hstuck : Stuck r) : ∃ args ok' r', Reads .params t args ok' r' ∧ Stuck r' := by
  cases g with
  | none => exact ⟨_, _, _, .stop h, hstuck⟩
  | some g =>
    have hlast := Reads.last h
    rw [blanksOff_of_headD hstuck.isBlank] at hlast
    exact ⟨_, _, _, hlast hstuck.ne_comma, hstuck⟩

/-- **Any other phrase is read up to a quote or a brace**, and there the reading stands still. -/
theorem Phrase.sticks {p : Production} (x : Phrase p) (h : ¬ x.Solid) : Sticks p x := by
  induction x with
  | argument braced =>
    cases braced with
    | false => exact absurd rfl h
    | true => exact Or.inl rfl
  | emptyCall => exact absurd trivial h
  | call braced name params ih =>
    refine Or.inr (call_sticks braced name fun rest => ?_)
    rw [params.blanksOff_text]
    exact ih h rest
  | func f ih =>
    intro rest
    have hhead : (f.text ++ rest).headD 0 = dollar := by cases f <;> rfl
    rcases ih h with hbraced | hstuck
    · -- an argument, but its brace is left
      subst hbraced
      exact ⟨_, _, _, .func rfl (bracedArgument_reads rest), Or.inr rfl⟩
    · obtain ⟨r, hreads, hr⟩ := hstuck rest
      exact ⟨_, _, r, .func hhead hreads, hr⟩
  | number => exact absurd trivial h
  | string str =>
    intro rest
    have htext : (string str).text ++ rest = quote :: (str.1 ++ quote :: rest) := by
      rw [text, List.cons_append, List.append_assoc]
      rfl
    exact ⟨_, _, _, .string htext str.2, Or.inl rfl⟩
  | one p ih =>
    intro rest
    obtain ⟨g, ok, r, hreads, hr⟩ := ih h (closeParen :: rest)
    exact params_stick hreads hr
  | more p before after ps ihp ih =>
    intro rest
    rw [more_text]
    by_cases hp : p.Solid
    · -- the first one is passed, and a later one stands still
      have hps : ¬ ps.Solid := fun hps => h ⟨hp, hps⟩
      obtain ⟨args, ok, r, hreads, hr⟩ := ih hps rest
      rw [← blanksOff_append after (ps.isBlank_text _)] at hreads
      have hfirst := p.reads hp (before.1 ++ comma :: (after.1 ++ (ps.text ++ closeParen :: rest)))
        (ends_comma before _)
      exact ⟨_, _, r, .more hfirst
        (blanksOff_append before (show ZFormatter.isBlank comma = false by decide)) hreads, hr⟩
    · obtain ⟨g, ok, r, hreads, hr⟩ :=
        ihp hp (before.1 ++ comma :: (after.1 ++ (ps.text ++ closeParen :: rest)))
      exact params_stick hreads hr

/-- `atoi` of digits is their number as long as that is one of an `int`. -/
theorem atoi_eq_iff (digits : List UInt8) :
    atoi digits = decimal digits ↔ decimal digits < 2 ^ 31 := by
  unfold atoi
  constructor
  · intro h
    have hlt := @Int.bmod_lt (strtol digits) (2 ^ 32) (by decide)
    rw [h] at hlt
    omega
  · intro h
    have hlong : strtol digits = decimal digits := if_pos (by omega)
    rw [hlong]
    exact Int.bmod_eq_of_le (by omega) (by omega)

theorem FuncName.func_inj (name : FuncName) {args args' : List ZFunc} :
    name.func args = name.func args' ↔ args = args' := by
  cases name
  · exact ⟨fun h => ZFunc.divFunc.inj h, congrArg _⟩
  · exact ⟨fun h => ZFunc.multiFunc.inj h, congrArg _⟩

/-- Two readings of the digits that agree on small numbers only. -/
theorem Phrase.denoteBy_iff {num num' : List UInt8 → Int}
    (hnum : ∀ d, num d = num' d ↔ decimal d < 2 ^ 31) {p : Production} (x : Phrase p) :
    x.denoteBy num = x.denoteBy num' ↔ x.Small := by
  induction x with
  | argument => exact iff_of_true rfl trivial
  | emptyCall => exact iff_of_true rfl trivial
  | call braced name params ih => exact name.func_inj.trans ih
  | func f ih => exact ih
  | number digits =>
    rw [Small, ← hnum]
    exact ⟨fun h => ZFunc.numberFunc.inj h, congrArg _⟩
  | string => exact iff_of_true rfl trivial
  | one p ih =>
    exact ⟨fun h => ih.mp (List.cons.inj h).1, fun h => congrArg (fun f => [f]) (ih.mpr h)⟩
  | more p before after ps ihp ih =>
    exact ⟨fun h => ⟨ihp.mp (List.cons.inj h).1, ih.mp (List.cons.inj h).2⟩,
      fun h => congrArg₂ List.cons (ihp.mpr h.1) (ih.mpr h.2)⟩

/-- A phrase is compiled into what it denotes exactly if its numbers are small. -/
theorem Phrase.denoteBy_atoi_iff {p : Production} (x : Phrase p) :
    x.denoteBy atoi = x.denote ↔ x.Small := denoteBy_iff atoi_eq_iff x

end Phrases

/-! ## Derivations -/

section Derivations

variable {r : List UInt8} {ok : Bool} {items : List Item}

/-- What is in braces or begins with a name. -/
theorem embrace_cons {name : List UInt8} (hname : isIdentifierChar (name.headD 0) = true)
    (braced : Bool) (t rest : List UInt8) :
    ∃ b u, embrace braced (name ++ t) ++ rest = b :: u ∧
      (b = openBrace ∨ isIdentifierChar b = true) := by
  cases braced with
  | true => exact ⟨_, _, rfl, Or.inl rfl⟩
  | false =>
    cases name with
    | nil => exact absurd hname (by decide)
    | cons b u => exact ⟨b, _, rfl, Or.inr hname⟩

/-- A function expression begins with a '$' and what `constStr` stops at. -/
theorem func_text_cons (f : Phrase .func) (rest : List UInt8) :
    ∃ b u, f.text ++ rest = dollar :: b :: u ∧ (b = openBrace ∨ isIdentifierChar b = true) := by
  have hname : ∀ name : FuncName, isIdentifierChar (name.bytes.headD 0) = true := by
    intro name
    cases name <;> decide
  have hone : isIdentifierChar (List.headD ['1'.toUInt8] 0) = true := by decide
  cases f with
  | argument braced =>
    obtain ⟨b, u, htext, hb⟩ := embrace_cons hone braced [] rest
    exact ⟨b, u, congrArg (List.cons dollar) htext, hb⟩
  | emptyCall braced name =>
    obtain ⟨b, u, htext, hb⟩ := embrace_cons (hname name) braced [openParen, closeParen] rest
    exact ⟨b, u, congrArg (List.cons dollar) htext, hb⟩
  | call braced name params =>
    obtain ⟨b, u, htext, hb⟩ :=
      embrace_cons (hname name) braced (openParen :: (params.text ++ [closeParen])) rest
    exact ⟨b, u, congrArg (List.cons dollar) htext, hb⟩

/-- What stands behind a constant string. -/
theorem behind_text {t : List UInt8} (h : Proper (.text t :: items)) :
    textOf items = [] ∨
      ∃ b u, textOf items = dollar :: b :: u ∧ (b = openBrace ∨ isIdentifierChar b = true) := by
  cases items with
  | nil => exact Or.inl rfl
  | cons i items =>
    cases i with
    | text t' => exact absurd rfl (h.2.2.1 t')
    | func f => exact Or.inr (func_text_cons f (textOf items))

theorem constEnd_func (f : Phrase .func) (rest : List UInt8) :
    constEnd false 0 (f.text ++ rest) = 0 :=
  constEnd_append (x := []) List.not_mem_nil (Or.inr (func_text_cons f rest)) 0

/-- Behind a variable without braces. -/
theorem ends_textOf {f : Phrase .func} (h : Proper (.func f :: items))
    (hplain : f = .argument false → (textOf items).headD 0 ≠ openParen) :
    f = .argument false → Ends (textOf items) := fun hf => ⟨h.1 hf, hplain hf⟩

/-- **A plain derivation is read to its end**, into what it denotes. -/
theorem plain_script (h : Proper items) (hplain : Plain items) :
    Script (textOf items) (items.map Item.denote) true [] := by
  induction items with
  | nil => exact .stop rfl (.noFunc (by decide))
  | cons i items ih =>
    cases i with
    | text t =>
      have hend := constEnd_append h.2.1 (behind_text h) 0
      rw [Nat.zero_add] at hend
      exact .text rfl hend h.1 (ih h.2.2.2 hplain)
    | func f =>
      obtain ⟨hsolid, hsmall, hparen, hrest⟩ := hplain
      have hreads := f.reads hsolid (textOf items) (ends_textOf h hparen)
      rw [f.denoteBy_atoi_iff.mpr hsmall] at hreads
      exact .func (constEnd_func f _) hreads (ih h.2 hrest)

/-- Behind a constant string the script goes on. -/
theorem script_text {t w : List UInt8} {fs : List ZFunc} {g : ZFunc}
    (hend : constEnd false 0 (t ++ w) = t.length) (ht : t ≠ [])
    (h : Script (t ++ w) (g :: fs) ok r) : Script w fs ok r := by
  cases h with
  | text hw hlen hx h =>
    obtain ⟨rfl, rfl⟩ := List.append_inj hw (hend.symm.trans hlen)
    exact h
  | func hconst => exact absurd (List.length_eq_zero_iff.mp (hend.symm.trans hconst)) ht

/-- Where a function expression stands, it is read first. -/
theorem script_func {f : Phrase .func} {w : List UInt8} {fs : List ZFunc} {g : ZFunc}
    (h : Script (f.text ++ w) (g :: fs) ok r) :
    ∃ ok' u ok'', Reads .func (f.text ++ w) (some g) ok' u ∧ Script u fs ok'' r := by
  cases h with
  | text _ hlen hx =>
    exact absurd (List.length_eq_zero_iff.mp (hlen.symm.trans (constEnd_func f w))) hx
  | func _ hreads h => exact ⟨_, _, _, hreads, h⟩

/-- Where a constant string stands, it is taken first. -/
theorem script_const {w : List UInt8} {fs : List ZFunc} (hw : constEnd false 0 w ≠ 0)
    (h : Script w fs ok r) :
    ∃ x fs', constEnd false 0 w = x.length ∧ fs = .stringFunc x :: fs' := by
  cases h with
  | stop hconst => exact absurd hconst hw
  | text _ hlen => exact ⟨_, _, hlen, rfl⟩
  | func hconst => exact absurd hconst hw

theorem func_denote_ne (f : Phrase .func) (x : List UInt8) : f.denote ≠ .stringFunc x := by
  have hname : ∀ (name : FuncName) args, name.func args ≠ .stringFunc x := by
    intro name args
    cases name <;> exact nofun
  cases f with
  | argument => exact nofun
  | emptyCall _ name => exact hname name []
  | call _ name params => exact hname name _

/-- A brace that is left becomes a constant string that nobody wrote. -/
theorem not_script_brace (h : Proper items) :
    ¬ Script (closeBrace :: textOf items) (items.map Item.denote) ok r := by
  intro hscript
  have hge := constEnd_ge (textOf items) false (0 + 1)
  have hbrace : constEnd false 0 (closeBrace :: textOf items) =
      constEnd false (0 + 1) (textOf items) := rfl
  rw [Bool.toNat_false] at hge
  obtain ⟨x, fs, hlen, hfs⟩ := script_const (by omega) hscript
  cases items with
  | nil => cases hfs
  | cons i items =>
    cases i with
    | text t =>
      have ht : t = x := ZFunc.stringFunc.inj (List.cons.inj hfs).1
      have hdollar : dollar ∉ closeBrace :: t :=
        List.not_mem_cons_of_ne_of_not_mem (by decide) h.2.1
      have hend := constEnd_append hdollar (behind_text h) 0
      have htext : closeBrace :: t ++ textOf items = closeBrace :: textOf (.text t :: items) := rfl
      rw [htext, hlen, ht, List.length_cons] at hend
      omega
    | func f => exact func_denote_ne f x (List.cons.inj hfs).1

/-- A variable in front of a '(' is taken for a function. -/
theorem argument_paren {w : List UInt8} (hw : w.headD 0 = openParen) :
    ∃ u, Reads .func (dollar :: '1'.toUInt8 :: w) none false u := by
  have hcons := cons_of_headD hw (by decide)
  have hnamed : Named ['1'.toUInt8] w := one_named (by rw [hw]; decide)
  have hhead : head ('1'.toUInt8 :: w) = _ := head_bare hnamed
  exact ⟨_, .unknown (by rw [hhead]; exact hcons) (by rw [hhead]; rfl)⟩

/-- If what is read is what the derivation denotes, it is plain. -/
theorem plain_of_script (h : Proper items)
    (hscript : Script (textOf items) (items.map Item.denote) ok r) : Plain items := by
  induction items generalizing ok with
  | nil => exact trivial
  | cons i items ih =>
    cases i with
    | text t =>
      have hend := constEnd_append h.2.1 (behind_text h) 0
      rw [Nat.zero_add] at hend
      exact ih h.2.2.2 (script_text hend h.1 hscript)
    | func f =>
      obtain ⟨ok', u, ok'', hfunc, hrest⟩ := script_func hscript
      by_cases hsolid : f.Solid
      · have hparen : f = .argument false → (textOf items).headD 0 ≠ openParen := by
          rintro rfl hhead
          obtain ⟨u', hnone⟩ := argument_paren hhead
          cases (hfunc.unique hnone).1
        obtain ⟨hsame, -, rfl⟩ :=
          hfunc.unique (f.reads hsolid (textOf items) (ends_textOf h hparen))
        have hsmall := f.denoteBy_atoi_iff.mp (Option.some.inj hsame)
        exact ⟨hsolid, hsmall, hparen, ih h.2 hrest⟩
      · rcases f.sticks hsolid with rfl | hstuck
        · obtain ⟨-, -, rfl⟩ := hfunc.unique (bracedArgument_reads (textOf items))
          exact absurd hrest (not_script_brace h.2)
        · obtain ⟨u', hnone, -⟩ := hstuck (textOf items)
          cases (hfunc.unique hnone).1

theorem textOf_ne_nil (d : Derivation) : textOf d.items ≠ [] := by
  obtain ⟨items, hsome, hproper⟩ := d
  cases items with
  | nil => exact absurd rfl hsome
  | cons i items =>
    cases i with
    | text t => exact fun h => hproper.1 (List.append_eq_nil_iff.mp h).1
    | func f =>
      obtain ⟨b, u, htext, -⟩ := func_text_cons f (textOf items)
      exact fun h => List.cons_ne_nil _ _ (htext.symm.trans h)

end Derivations

/-- `compile` accepts the script of a derivation, and lists the functions that it denotes. -/
def Compiled (f : ZFormatter) (d : Derivation) : Prop :=
  ∃ f', Compiles f (textOf d.items) (true, f') ∧
    f'.funcList = f.funcList ++ d.items.map Item.denote

/-- The functions of a derivation are some. -/
theorem compiled_short {f : ZFormatter} {d : Derivation} (h : Compiled f d) :
    (textOf d.items).length < 2 ^ 32 := by
  obtain ⟨f', htrue, hlist⟩ := h
  rcases htrue.short_or_unseen with hlen | hunseen
  · exact hlen
  · cases (compiles_unseen f (textOf_ne_nil d) hunseen).unique htrue
    exact absurd (List.map_eq_nil_iff.mp (List.append_right_eq_self.mp hlist.symm)) d.some

theorem compiled_iff_plain (f : ZFormatter) {d : Derivation}
    (hlen : (textOf d.items).length < 2 ^ 32) : Compiled f d ↔ Plain d.items := by
  have hnil := textOf_ne_nil d
  constructor
  · rintro ⟨f', htrue, hlist⟩
    obtain ⟨fs, ok, r, hscript⟩ := exists_script _ (textOf d.items) (Nat.lt_succ_self _)
    have hsame := htrue.unique (hscript.compiles f hnil hlen)
    have hfuncs : f.funcList ++ fs = f'.funcList := congrArg (fun p => p.2.funcList) hsame
    rw [hlist] at hfuncs
    rw [List.append_cancel_left hfuncs] at hscript
    exact plain_of_script d.proper hscript
  · intro hplain
    exact ⟨_, (plain_script d.proper hplain).compiles f hnil hlen, rfl⟩

/-- **`compile` accepts the documented language**, but for what is not `Plain`. -/
theorem derivation_compiled_iff (f : ZFormatter) (d : Derivation) :
    Compiled f d ↔ (textOf d.items).length < 2 ^ 32 ∧ Plain d.items :=
  ⟨fun h => ⟨compiled_short h, (compiled_iff_plain f (compiled_short h)).mp h⟩,
    fun h => (compiled_iff_plain f h.1).mpr h.2⟩

def ten : Digits :=
  ⟨['1', '0'].map Char.toUInt8, List.cons_ne_nil _ _, List.all_eq_true.mp rfl⟩

def noBlanks : Blanks := ⟨[], List.forall_mem_nil _⟩

/-- "$div($1,10)" -/
def tenth : Derivation where
  items := [.func (.call false .div
    (.more (.func (.argument false)) noBlanks noBlanks (.one (.number ten))))]
  some := List.cons_ne_nil _ _
  proper := ⟨nofun, trivial⟩

example : textOf tenth.items =
    ['$', 'd', 'i', 'v', '(', '$', '1', ',', '1', '0', ')'].map Char.toUInt8 := by decide

/-- "${1}" -/
def inBraces : Derivation where
  items := [.func (.argument true)]
  some := List.cons_ne_nil _ _
  proper := ⟨nofun, trivial⟩

/-- The closing brace of "${1}" becomes a constant string. -/
theorem brace_left_over : ¬ Compiled new inBraces := by
  rw [compiled_iff_plain new (by decide)]
  rintro ⟨hsolid, -⟩
  cases hsolid

end ZFormatter

end Monsys
