/-
  What the servers write of themselves into the registry: `SuperRouterServiceInfo` of
  `monsys/route/SuperRouterServer.java`, and `CenterServiceInfo` of
  `monsys/center/CenterServer.java`.

  1. **The platform** — the default charset of `String` and the digits of `Character`, of which only
     what they do with ASCII is said; and on them `Integer.parseInt`.
  2. **Records** — a host and some ports.  The two classes differ in their ports only.
  3. **There and back** — an encoded record is decoded into any other one.
  4. **What is refused** — `refuses_iff`: `decode` has no answer for a port that is no number, and
     it does not see the bars that a text ends with.  The host has been overwritten by then.
-/
import Mathlib.Algebra.Ring.Int.Defs
import Monsys.Lib.Separated

namespace Monsys

namespace ServiceInfo

open Separated

/-! ## The platform -/

/-- The default charset, and `Character.digit(c, 10)`. -/
structure Platform where
  getBytes : List Char → List UInt8
  newString : List UInt8 → List Char
  digit : Char → Option Nat
  newString_nil : newString [] = []
  newString_getBytes : ∀ s, (∀ c ∈ s, c.toNat < 128) → newString (getBytes s) = s
  digit_ascii : ∀ c, c.toNat < 128 →
    digit c = if c.isDigit then some (c.toNat - '0'.toNat) else none

/-- `StringBuilder.append(int)`. -/
def decimal (v : Int32) : List Char :=
  if v.toInt < 0 then '-' :: Nat.toDigits 10 v.toInt.natAbs else Nat.toDigits 10 v.toInt.natAbs

/-- An `int`, if it is one. -/
def int (v : Int) : Option Int32 := if -2 ^ 31 ≤ v ∧ v < 2 ^ 31 then some (Int32.ofInt v) else none

/-- `String.split("\\|")`: a text without a match is returned as it is. -/
def split (s : List Char) : List (List Char) := if '|' ∈ s then trimmed '|' s else [s]

namespace Platform

variable (P : Platform)

/-- The value of some digits. -/
def number (s : List Char) : Option Nat :=
  if s = [] then none else s.foldlM (fun n c => (P.digit c).map (10 * n + ·)) 0

/-- `Integer.parseInt`, without a result where it throws a `NumberFormatException`. -/
def parseInt (s : List Char) : Option Int32 :=
  if s.head? = some '-' then (P.number s.tail).bind fun n => int (-n)
  else if s.head? = some '+' then (P.number s.tail).bind fun n => int n
  else (P.number s).bind fun n => int n

end Platform

/-! ## Records -/

/-- A port, and its setter. -/
structure Port (σ : Type) where
  get : σ → Int32
  set : Int32 → σ → σ

/-- All ports of `x`, set in `y`. -/
def copyPorts {σ : Type} (ports : List (Port σ)) (x y : σ) : σ :=
  ports.foldl (fun y port => port.set (port.get x) y) y

/-- A class of records: its host and its ports are all there is of it. -/
structure Layout (σ : Type) where
  host : σ → Option (List Char)
  setHost : List Char → σ → σ
  ports : List (Port σ)
  ports_some : ports ≠ []
  host_set : ∀ h y, host (setHost h y) = some h
  host_kept : ∀ port ∈ ports, ∀ v y, host (port.set v y) = host y
  whole : ∀ x y h, host x = some h → copyPorts ports x (setHost h y) = x

inductive Outcome
  | returned (b : Bool)
  /-- `NumberFormatException` -/
  | thrown
deriving DecidableEq, Repr

section Records

variable (P : Platform) {σ : Type}

/-- The text of a record; of no host there is "null". -/
def text (L : Layout σ) (x : σ) : List Char :=
  joined '|' ((L.host x).getD ['n', 'u', 'l', 'l']) (L.ports.map fun port => decimal (port.get x))

def encode (L : Layout σ) (x : σ) : List UInt8 := P.getBytes (text L x)

/-- `set..Port(Integer.parseInt(fields[i]));` for one port after the other, and `return true;` -/
def setPorts : List (Port σ) → List (List Char) → σ → Outcome × σ
  | port :: ports, field :: fields, y =>
    match P.parseInt field with
    | none =>
      -- the host, and the ports in front of this one, have been set
      (.thrown, y)
    | some v => setPorts ports fields (port.set v y)
  | _, _, y => (.returned true, y)

/-- What `decode` does, and what has become of its object then. -/
def decode (L : Layout σ) (data : Option (List UInt8)) (y : σ) : Outcome × σ :=
  match data with
  | none => (.returned false, y)
  | some data =>
    if data.length ≤ 0 then (.returned false, y)
    else
      let fields := split (P.newString data)
      if fields.length ≠ L.ports.length + 1 then (.returned false, y)
      else setPorts P L.ports fields.tail (L.setHost (fields.headD []) y)

end Records

structure SuperRouterServiceInfo where
  mHost : Option (List Char) := none
  mAllocatePort : Int32 := -1
  mAccessPort : Int32 := -1
deriving DecidableEq, Repr

namespace SuperRouterServiceInfo

def setHost (host : List Char) (x : SuperRouterServiceInfo) : SuperRouterServiceInfo :=
  { x with mHost := some host }

def setAllocatePort (port : Int32) (x : SuperRouterServiceInfo) : SuperRouterServiceInfo :=
  { x with mAllocatePort := port }

def setAccessPort (port : Int32) (x : SuperRouterServiceInfo) : SuperRouterServiceInfo :=
  { x with mAccessPort := port }

def layout : Layout SuperRouterServiceInfo where
  host := mHost
  setHost := setHost
  ports := [⟨mAllocatePort, setAllocatePort⟩, ⟨mAccessPort, setAccessPort⟩]
  ports_some := List.cons_ne_nil _ _
  host_set _ _ := rfl
  host_kept := List.forall_mem_cons.mpr
    ⟨fun _ _ => rfl, List.forall_mem_singleton.mpr fun _ _ => rfl⟩
  whole := by
    rintro ⟨host, allocate, access⟩ y h hhost
    cases hhost
    rfl

def encode (P : Platform) (x : SuperRouterServiceInfo) : List UInt8 := ServiceInfo.encode P layout x

def decode (P : Platform) (data : Option (List UInt8)) (y : SuperRouterServiceInfo) :
    Outcome × SuperRouterServiceInfo := ServiceInfo.decode P layout data y

end SuperRouterServiceInfo

structure CenterServiceInfo where
  mHost : Option (List Char) := none
  mAccessPort : Int32 := -1
deriving DecidableEq, Repr

namespace CenterServiceInfo

def setHost (host : List Char) (x : CenterServiceInfo) : CenterServiceInfo :=
  { x with mHost := some host }

def setAccessPort (port : Int32) (x : CenterServiceInfo) : CenterServiceInfo :=
  { x with mAccessPort := port }

def layout : Layout CenterServiceInfo where
  host := mHost
  setHost := setHost
  ports := [⟨mAccessPort, setAccessPort⟩]
  ports_some := List.cons_ne_nil _ _
  host_set _ _ := rfl
  host_kept := List.forall_mem_singleton.mpr fun _ _ => rfl
  whole := by
    rintro ⟨host, access⟩ y h hhost
    cases hhost
    rfl

def encode (P : Platform) (x : CenterServiceInfo) : List UInt8 := ServiceInfo.encode P layout x

def decode (P : Platform) (data : Option (List UInt8)) (y : CenterServiceInfo) :
    Outcome × CenterServiceInfo := ServiceInfo.decode P layout data y

end CenterServiceInfo

/-! ## There and back -/

section Numbers

variable {P : Platform} {s : List Char} {c : Char}

theorem toNat_of_isDigit (h : c.isDigit = true) : c.toNat < 128 := by
  have hrange : '0'.toNat ≤ c.toNat ∧ c.toNat ≤ '9'.toNat := by
    rw [Char.isDigit, Bool.and_eq_true, decide_eq_true_eq, decide_eq_true_eq] at h
    exact h
  have hnine : '9'.toNat = 57 := rfl
  omega

/-- Digits are read as what they are worth. -/
theorem foldlM_digits (h : ∀ c ∈ s, c.isDigit = true) (n : Nat) :
    s.foldlM (fun n c => (P.digit c).map (10 * n + ·)) n = some (Nat.ofDigitChars 10 s n) := by
  induction s generalizing n with
  | nil => rfl
  | cons c s ih =>
    rw [List.forall_mem_cons] at h
    have hdigit := P.digit_ascii c (toNat_of_isDigit h.1)
    rw [if_pos h.1] at hdigit
    rw [List.foldlM_cons, hdigit, Nat.ofDigitChars_cons]
    exact ih h.2 _

theorem digits_of_toDigits (n : Nat) : ∀ c ∈ Nat.toDigits 10 n, c.isDigit = true :=
  fun _ hc => Nat.isDigit_of_mem_toDigits (by decide) (by decide) hc

theorem number_toDigits (P : Platform) (n : Nat) : P.number (Nat.toDigits 10 n) = some n := by
  rw [Platform.number, if_neg Nat.toDigits_ne_nil, foldlM_digits (digits_of_toDigits n),
    Nat.ofDigitChars_ten_toDigits]

theorem int_toInt (v : Int32) : int v.toInt = some v := by
  rw [int, if_pos ⟨v.le_toInt, v.toInt_lt⟩, Int32.ofInt_toInt]

/-- A number is read as it was written. -/
theorem parseInt_decimal (P : Platform) (v : Int32) : P.parseInt (decimal v) = some v := by
  unfold decimal
  by_cases hneg : v.toInt < 0
  · have habs : -((v.toInt.natAbs : Nat) : Int) = v.toInt := by omega
    rw [if_pos hneg, Platform.parseInt, List.head?_cons, if_pos rfl, List.tail_cons,
      number_toDigits, Option.bind_some, habs, int_toInt]
  · -- a digit is taken for no sign
    have habs : ((v.toInt.natAbs : Nat) : Int) = v.toInt := by omega
    have hsign : ∀ c : Char, c.isDigit = false →
        (Nat.toDigits 10 v.toInt.natAbs).head? ≠ some c := by
      intro c hc hhead
      rw [digits_of_toDigits _ c (List.mem_of_head? hhead)] at hc
      cases hc
    rw [if_neg hneg, Platform.parseInt, if_neg (hsign '-' rfl), if_neg (hsign '+' rfl),
      number_toDigits, Option.bind_some, habs, int_toInt]

/-- What a number is written with. -/
theorem decimal_chars (v : Int32) (hc : c ∈ decimal v) : c.toNat < 128 ∧ c ≠ '|' := by
  have hdigits : c ∈ Nat.toDigits 10 v.toInt.natAbs → c.toNat < 128 ∧ c ≠ '|' := by
    intro hc
    have hdigit := digits_of_toDigits _ c hc
    refine ⟨toNat_of_isDigit hdigit, ?_⟩
    rintro rfl
    cases hdigit
  unfold decimal at hc
  split at hc
  · rcases List.mem_cons.mp hc with rfl | hc
    · decide
    · exact hdigits hc
  · exact hdigits hc

theorem decimal_ne_nil (v : Int32) : decimal v ≠ [] := by
  unfold decimal
  split
  · exact List.cons_ne_nil _ _
  · exact Nat.toDigits_ne_nil

end Numbers

/-- An encoded record is decoded into any object, which is the same then. -/
def ComesBack {σ : Type} (host : σ → Option (List Char)) (encode : σ → List UInt8)
    (decode : Option (List UInt8) → σ → Outcome × σ) : Prop :=
  ∀ x h, host x = some h → (∀ c ∈ h, c.toNat < 128 ∧ c ≠ '|') →
    ∀ y, decode (some (encode x)) y = (.returned true, x)

section There

variable {P : Platform} {σ : Type} {L : Layout σ} {x : σ} {h : List Char}

theorem setPorts_decimals (P : Platform) (ports : List (Port σ)) (x y : σ) :
    setPorts P ports (ports.map fun port => decimal (port.get x)) y =
      (.returned true, copyPorts ports x y) := by
  induction ports generalizing y with
  | nil => rfl
  | cons port ports ih =>
    rw [List.map_cons, setPorts, parseInt_decimal]
    exact ih _

theorem text_of_host (hhost : L.host x = some h) :
    text L x = joined '|' h (L.ports.map fun port => decimal (port.get x)) := by
  rw [text, hhost]
  rfl

theorem text_ascii (hhost : L.host x = some h) (hchars : ∀ c ∈ h, c.toNat < 128 ∧ c ≠ '|') :
    ∀ c ∈ text L x, c.toNat < 128 := by
  intro c hc
  rw [text_of_host hhost, joined, List.mem_append, List.mem_flatMap] at hc
  rcases hc with hc | ⟨port, hport, hc⟩
  · exact (hchars c hc).1
  · obtain ⟨p, -, rfl⟩ := List.mem_map.mp hport
    rcases List.mem_cons.mp hc with rfl | hc
    · decide
    · exact (decimal_chars _ hc).1

theorem split_text (hhost : L.host x = some h) (hchars : ∀ c ∈ h, c.toNat < 128 ∧ c ≠ '|') :
    split (text L x) = h :: L.ports.map fun port => decimal (port.get x) := by
  have hsome : (L.ports.map fun port => decimal (port.get x)) ≠ [] :=
    fun hnil => L.ports_some (List.map_eq_nil_iff.mp hnil)
  have hbars : '|' ∈ text L x := by
    rw [text_of_host hhost]
    obtain ⟨field, fields, hfields⟩ := List.exists_cons_of_ne_nil hsome
    rw [hfields, joined_cons]
    exact List.mem_append_right h List.mem_cons_self
  rw [split, if_pos hbars, text_of_host hhost]
  refine trimmed_joined (fun hbar => (hchars '|' hbar).2 rfl) hsome ?_
  intro field hfield
  obtain ⟨port, -, rfl⟩ := List.mem_map.mp hfield
  exact ⟨fun hbar => (decimal_chars _ hbar).2 rfl, decimal_ne_nil _⟩

/-- **There and back**, of any class of records. -/
theorem comesBack (P : Platform) (L : Layout σ) : ComesBack L.host (encode P L) (decode P L) := by
  intro x h hhost hchars y
  have hback : P.newString (encode P L x) = text L x :=
    P.newString_getBytes _ (text_ascii hhost hchars)
  have hlen : ¬ (encode P L x).length ≤ 0 := by
    intro hle
    rw [List.eq_nil_of_length_eq_zero (Nat.le_zero.mp hle), P.newString_nil] at hback
    have hsplit := split_text hhost hchars
    rw [← hback] at hsplit
    exact L.ports_some (List.map_eq_nil_iff.mp (List.cons.inj hsplit).2.symm)
  rw [decode]
  dsimp only
  rw [if_neg hlen, hback, split_text hhost hchars, List.length_cons, List.length_map,
    if_neg (not_not_intro rfl), List.tail_cons, List.headD_cons, setPorts_decimals,
    L.whole x y h hhost]

end There

/-! ## What is refused -/

/-- A host and so many ports, with bars between them. -/
def WellFormed (P : Platform) (n : Nat) (s : List Char) : Prop :=
  ∃ host ports, s.splitOn '|' = host :: ports ∧ ports.length = n ∧
    ∀ port ∈ ports, (P.parseInt port).isSome = true

/-- Anything else is answered with false, and changes nothing. -/
def Refuses {σ : Type} (P : Platform) (n : Nat)
    (decode : Option (List UInt8) → σ → Outcome × σ) (data : List UInt8) (y : σ) : Prop :=
  ¬ WellFormed P n (P.newString data) → decode (some data) y = (.returned false, y)

/-- It is well formed, or has another number of bars in front of its last character that is none. -/
def Told (P : Platform) (n : Nat) (data : List UInt8) : Prop :=
  WellFormed P n (P.newString data) ∨ inFront '|' (P.newString data) ≠ n

section Refused

variable {P : Platform} {σ : Type} {L : Layout σ} {s : List Char} {n : Nat}

/-- The bars that are counted are those. -/
theorem length_split (hn : 0 < n) : (split s).length = n + 1 ↔ inFront '|' s = n := by
  unfold split
  by_cases hbar : '|' ∈ s
  · rw [if_pos hbar, length_trimmed]
    split
    · next hnil =>
      -- nothing but bars: no field is left at all
      have hnone : inFront '|' s = 0 := by
        rw [inFront, hnil]
        rfl
      omega
    · omega
  · rw [if_neg hbar, List.length_singleton, inFront_of_not_mem hbar]
    omega

theorem setPorts_ne_false (P : Platform) (ports : List (Port σ)) (fields : List (List Char))
    (y : σ) : (setPorts P ports fields y).1 ≠ .returned false := by
  induction ports generalizing fields y with
  | nil => exact fun h => by cases h
  | cons port ports ih =>
    cases fields with
    | nil => exact fun h => by cases h
    | cons field fields =>
      rw [setPorts]
      split
      · exact fun h => by cases h
      · exact ih fields _

theorem setPorts_host {ports : List (Port σ)} (hports : ∀ port ∈ ports, port ∈ L.ports)
    (fields : List (List Char)) (y : σ) : L.host (setPorts P ports fields y).2 = L.host y := by
  induction ports generalizing fields y with
  | nil => rfl
  | cons port ports ih =>
    rw [List.forall_mem_cons] at hports
    cases fields with
    | nil => rfl
    | cons field fields =>
      rw [setPorts]
      split
      · rfl
      · next v hv =>
        rw [ih hports.2]
        exact L.host_kept port hports.1 v y

/-- With the right number of bars, the ports are set. -/
theorem decode_counted {data : List UInt8} (h : inFront '|' (P.newString data) = L.ports.length)
    (y : σ) : decode P L (some data) y =
      setPorts P L.ports (split (P.newString data)).tail
        (L.setHost ((split (P.newString data)).headD []) y) := by
  have hpos := List.length_pos_of_ne_nil L.ports_some
  have hlen : ¬ data.length ≤ 0 := by
    intro hle
    rw [List.eq_nil_of_length_eq_zero (Nat.le_zero.mp hle), P.newString_nil] at h
    have hnone : inFront '|' ([] : List Char) = 0 := rfl
    omega
  rw [decode]
  dsimp only
  rw [if_neg hlen, if_neg (not_not_intro ((length_split hpos).mpr h))]

/-- **The host is overwritten** then, whatever becomes of the ports. -/
theorem decode_host {data : List UInt8} (h : inFront '|' (P.newString data) = L.ports.length)
    (y : σ) :
    L.host (decode P L (some data) y).2 = some ((split (P.newString data)).headD []) := by
  rw [decode_counted h, setPorts_host fun _ hport => hport]
  exact L.host_set _ y

/-- With another number, it is. -/
theorem decode_miscounted {data : List UInt8}
    (h : inFront '|' (P.newString data) ≠ L.ports.length) (y : σ) :
    decode P L (some data) y = (.returned false, y) := by
  have hpos := List.length_pos_of_ne_nil L.ports_some
  rw [decode]
  dsimp only
  by_cases hlen : data.length ≤ 0
  · rw [if_pos hlen]
  · rw [if_neg hlen, if_pos fun heq => h ((length_split hpos).mp heq)]

/-- **What is refused**, of any class of records. -/
theorem refuses_iff (P : Platform) (L : Layout σ) (data : List UInt8) (y : σ) :
    Refuses P L.ports.length (decode P L) data y ↔ Told P L.ports.length data := by
  constructor
  · intro h
    by_contra htold
    obtain ⟨hbad, hcount⟩ := not_or.mp htold
    have hfalse := congrArg Prod.fst (h hbad)
    rw [decode_counted (not_not.mp hcount)] at hfalse
    exact setPorts_ne_false P L.ports _ _ hfalse
  · rintro (hgood | hcount) hbad
    · exact absurd hgood hbad
    · exact decode_miscounted hcount y

end Refused

/-- **Both classes of records**: all records come back, and what is not well formed is refused where
    its bars tell. -/
theorem serviceInfo_refuses_iff (P : Platform) :
    ComesBack SuperRouterServiceInfo.mHost (SuperRouterServiceInfo.encode P)
        (SuperRouterServiceInfo.decode P) ∧
      ComesBack CenterServiceInfo.mHost (CenterServiceInfo.encode P) (CenterServiceInfo.decode P) ∧
      (∀ data y, Refuses P 2 (SuperRouterServiceInfo.decode P) data y ↔ Told P 2 data) ∧
      ∀ data y, Refuses P 1 (CenterServiceInfo.decode P) data y ↔ Told P 1 data :=
  ⟨comesBack P SuperRouterServiceInfo.layout, comesBack P CenterServiceInfo.layout,
    refuses_iff P SuperRouterServiceInfo.layout, refuses_iff P CenterServiceInfo.layout⟩

/-- ISO-8859-1, and the digits of ASCII. -/
def latin1 : Platform where
  getBytes s := s.map fun c => if c.toNat < 256 then UInt8.ofNat c.toNat else '?'.toUInt8
  newString data := data.map fun b => Char.ofNat b.toNat
  digit c := if c.isDigit then some (c.toNat - '0'.toNat) else none
  newString_nil := rfl
  newString_getBytes := by
    intro s hs
    rw [List.map_map]
    refine (List.map_congr_left fun c hc => ?_).trans (List.map_id s)
    have hlt : c.toNat < 256 := Nat.lt_trans (hs c hc) (by decide)
    show Char.ofNat (if c.toNat < 256 then UInt8.ofNat c.toNat else '?'.toUInt8).toNat = c
    rw [if_pos hlt, UInt8.toNat_ofNat_of_lt' hlt, Char.ofNat_toNat]
  digit_ascii _ _ := rfl

/-- "h|x" -/
def badPort : List UInt8 := ['h', '|', 'x'].map Char.toUInt8

theorem bad_port_thrown :
    ¬ ∀ (P : Platform),
      ComesBack SuperRouterServiceInfo.mHost (SuperRouterServiceInfo.encode P)
        (SuperRouterServiceInfo.decode P) ∧
      ComesBack CenterServiceInfo.mHost (CenterServiceInfo.encode P) (CenterServiceInfo.decode P) ∧
      (∀ data y, Refuses P 2 (SuperRouterServiceInfo.decode P) data y) ∧
      ∀ data y, Refuses P 1 (CenterServiceInfo.decode P) data y := by
  intro hall
  have hrefused := (hall latin1).2.2.2 badPort {} ?_
  · exact absurd hrefused (by decide)
  · rintro ⟨host, ports, hsplit, -, hports⟩
    have hparts : (latin1.newString badPort).splitOn '|' = [['h'], ['x']] := rfl
    obtain ⟨-, rfl⟩ := List.cons.inj (hparts.symm.trans hsplit)
    exact absurd (hports ['x'] List.mem_cons_self) (by decide)

end ServiceInfo

end Monsys
