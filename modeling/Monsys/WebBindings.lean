/-
  Bindings of gateways to accounts on the web site: `BindHandler` of `web/python/monsys.py`.

  1. **`post`** — one request, from the check of its argument to the answer.  The list is read
     without its empty parts, and written back with bars between its elements.
  2. **One binding** — `appends_iff`: when what is stored is read as the list before and the id.
  3. **Rows of bindings** — `bound_lists_iff`.

  The requests are handled one after the other.  `deviceId` is what `get_argument` returns.  Of an
  account there is its `fgw_list`, null or a string.
-/
import Mathlib.Data.List.DropRight
import Monsys.BindSessions

namespace Monsys

namespace WebBinding

open Binding

/-! ## `post` -/

/-- The blanks of `unicode.strip`. -/
def isSpace (c : Char) : Bool :=
  (9 ≤ c.toNat && c.toNat ≤ 13) || (28 ≤ c.toNat && c.toNat ≤ 32) || c.toNat == 0x85 ||
    c.toNat == 0xa0 || c.toNat == 0x1680 || c.toNat == 0x180e ||
    (0x2000 ≤ c.toNat && c.toNat ≤ 0x200a) || c.toNat == 0x2028 || c.toNat == 0x2029 ||
    c.toNat == 0x202f || c.toNat == 0x205f || c.toNat == 0x3000

def strip (s : String) : String := String.ofList ((s.toList.dropWhile isSpace).rdropWhile isSpace)

example : strip " gw 1\t" = "gw 1" := by decide +kernel

/-- The parts of a list that are not empty. -/
def parse (fgwList : String) : List String := (split fgwList).filter fun x => 0 < x.length

/-- `account_info.get("fgw_list") or ""`, as a list. -/
def gatewaysOf (row : Option String) : List String := parse (row.getD "")

inductive Answer
  | badArguments
  | noAccount
  | alreadyThere
  /-- The handler has raised an exception. -/
  | raised
  | ok
deriving DecidableEq, Repr

abbrev Accounts := String → Option (Option String)

structure Request where
  account : Option String
  deviceId : String

/-- What a value that is too long for its column comes to: in strict mode an error, else it is cut. -/
def cut (strict : Bool) (value : String) : Option String :=
  if value.length ≤ columnSize then some value
  else if strict then none
  else some (String.ofList (value.toList.take columnSize))

/-- `update account_info set fgw_list=.. where account=..`, and the answer. -/
def store (strict : Bool) (w : Accounts) (account value : String) : Answer × Accounts :=
  match cut strict value with
  | none => (.raised, w)
  | some stored => (.ok, Function.update w account (some (some stored)))

def post (strict : Bool) (w : Accounts) (e : Request) : Answer × Accounts :=
  match e.account with
  | none => (.badArguments, w)
  | some account =>
    if e.deviceId.length ≤ 0 then (.badArguments, w)
    else
      match w account with
      | none => (.noAccount, w)
      | some row =>
        let deviceId := strip e.deviceId
        if deviceId ∈ gatewaysOf row then (.alreadyThere, w)
        else store strict w account (join (gatewaysOf row ++ [deviceId]))

/-- The list of an account. -/
def gateways (w : Accounts) (account : String) : List String :=
  match w account with
  | none => []
  | some row => gatewaysOf row

/-! ## One binding -/

section Parse

variable {ids : List String} {id s : String}

/-- The parts of a list hold all of it but the separators. -/
theorem flatten_splitOn {α : Type} [BEq α] [LawfulBEq α] (a : α) (xs : List α) :
    (xs.splitOn a).flatten = xs.filter (· != a) := by
  induction xs with
  | nil => rfl
  | cons x xs ih =>
    rw [List.splitOn_cons_eq_if_modifyHead, List.filter_cons]
    by_cases hx : (x == a) = true
    · rw [if_pos hx, bne, hx, if_neg (by decide), List.flatten_cons, List.nil_append]
      exact ih
    · rw [if_neg hx, bne, eq_false_of_ne_true hx, if_pos (by decide), ← ih]
      cases hparts : xs.splitOn a with
      | nil => exact absurd hparts (List.splitOn_ne_nil a xs)
      | cons part parts => rfl

/-- The text of some ids, without anything between them. -/
def chars (ids : List String) : List Char := (ids.map String.toList).flatten

theorem chars_filter (ids : List String) : chars (ids.filter fun x => 0 < x.length) = chars ids := by
  induction ids with
  | nil => rfl
  | cons id ids ih =>
    rw [List.filter_cons]
    split
    · exact congrArg (id.toList ++ ·) ih
    · next hempty =>
      rw [decide_eq_true_eq, Nat.not_lt, Nat.le_zero, String.length_eq_zero_iff] at hempty
      rw [ih, hempty]
      rfl

theorem chars_parse (s : String) : chars (parse s) = s.toList.filter (· != '|') := by
  have htoList : String.toList ∘ String.ofList = id := funext fun l => String.toList_ofList
  rw [parse, chars_filter, chars, split, List.map_map, htoList, List.map_id]
  exact flatten_splitOn '|' s.toList

theorem ne_empty_of_mem_parse (h : id ∈ parse s) : id ≠ "" := by
  have hlen := of_decide_eq_true (List.mem_filter.mp h).2
  rintro rfl
  exact absurd hlen (by decide)

theorem not_barred_of_mem_parse (h : id ∈ parse s) : ¬ Barred id :=
  not_barred_of_mem_split (List.mem_of_mem_filter h)

/-- **What has been read is read again**, with one more element if that can be one. -/
theorem parse_append_iff (s id : String) :
    parse (join (parse s ++ [id])) = parse s ++ [id] ↔ id ≠ "" ∧ ¬ Barred id := by
  constructor
  · intro h
    have hmem : id ∈ parse (join (parse s ++ [id])) := by
      rw [h]
      exact List.mem_append_right _ List.mem_cons_self
    exact ⟨ne_empty_of_mem_parse hmem, not_barred_of_mem_parse hmem⟩
  · rintro ⟨hsome, hbar⟩
    have hne : parse s ++ [id] ≠ [] := List.append_ne_nil_of_right_ne_nil _ (List.cons_ne_nil _ _)
    have hbars : ∀ x ∈ parse s ++ [id], ¬ Barred x := by
      intro x hx
      rcases List.mem_append.mp hx with hx | hx
      · exact not_barred_of_mem_parse hx
      · rwa [List.mem_singleton.mp hx]
    rw [parse, split_join hne hbars, List.filter_eq_self]
    intro x hx
    rw [decide_eq_true_eq, Nat.pos_iff_ne_zero, Ne, String.length_eq_zero_iff]
    rcases List.mem_append.mp hx with hx | hx
    · exact ne_empty_of_mem_parse hx
    · rwa [List.mem_singleton.mp hx]

/-- What is joined ends with the last element. -/
theorem join_append (ids : List String) (id : String) :
    ∃ front, (join (ids ++ [id])).toList = front ++ id.toList := by
  rw [join, String.toList_ofList, List.map_append]
  induction ids.map String.toList with
  | nil => exact ⟨[], List.append_nil _⟩
  | cons x xs ih =>
    obtain ⟨front, hfront⟩ := ih
    have hne : xs ++ [id].map String.toList ≠ [] :=
      List.append_ne_nil_of_right_ne_nil _ (List.cons_ne_nil _ _)
    refine ⟨x ++ (['|'] ++ front), ?_⟩
    rw [List.cons_append, List.intercalate_cons_of_ne_nil hne, hfront, List.append_assoc,
      List.append_assoc, List.append_assoc]

theorem getLast_mem_drop {front l : List Char} (hl : l ≠ []) {n : Nat}
    (hn : n < (front ++ l).length) : l.getLast hl ∈ (front ++ l).drop n := by
  have hdrop : (front ++ l).drop n ≠ [] := by
    rw [Ne, List.drop_eq_nil_iff]
    omega
  have hend := List.getLast_mem hdrop
  rwa [List.getLast_drop, List.getLast_append_right hl] at hend

/-- A list that is cut is another one. -/
theorem parse_take_ne {n : Nat} (hn : n < (join (parse s ++ [id])).length) (hid : id ≠ "")
    (hbar : ¬ Barred id) :
    parse (String.ofList ((join (parse s ++ [id])).toList.take n)) ≠ parse s ++ [id] := by
  intro heq
  obtain ⟨front, hfront⟩ := join_append (parse s) id
  have hwhole := (parse_append_iff s id).mpr ⟨hid, hbar⟩
  -- as many characters that are no bars as in the whole
  have hcut := chars_parse (String.ofList ((join (parse s ++ [id])).toList.take n))
  have hall := chars_parse (join (parse s ++ [id]))
  rw [heq, String.toList_ofList] at hcut
  rw [hwhole, hcut, ← List.take_append_drop n (join (parse s ++ [id])).toList, List.filter_append,
    List.take_append_drop] at hall
  have hnone := List.append_right_eq_self.mp hall.symm
  have hlast : id.toList ≠ [] := fun hnil => hid (String.toList_eq_nil_iff.mp hnil)
  have hmem : id.toList.getLast hlast ∈ (join (parse s ++ [id])).toList.drop n := by
    rw [← String.length_toList, hfront] at hn
    rw [hfront]
    exact getLast_mem_drop hlast hn
  have hbars := List.filter_eq_nil_iff.mp hnone _ hmem
  rw [bne_iff_ne, not_not] at hbars
  have hlastMem := List.getLast_mem hlast
  rw [hbars] at hlastMem
  exact hbar hlastMem

end Parse

/-- A request that is not refused: the account has such a row, and the id is not in its list. -/
structure Takes (w : Accounts) (e : Request) (account : String) (row : Option String) : Prop where
  sender : e.account = some account
  nonempty : e.deviceId ≠ ""
  stored : w account = some row
  fresh : strip e.deviceId ∉ gatewaysOf row

/-- What is to be stored. -/
def newList (row : Option String) (e : Request) : String :=
  join (gatewaysOf row ++ [strip e.deviceId])

section Post

variable {strict : Bool} {w : Accounts} {e : Request} {account : String} {row : Option String}

theorem Takes.post_eq (h : Takes w e account row) :
    post strict w e = store strict w account (newList row e) := by
  have hlen : ¬ e.deviceId.length ≤ 0 := by
    rw [Nat.le_zero, String.length_eq_zero_iff]
    exact h.nonempty
  unfold post
  simp only [h.sender, if_neg hlen, h.stored, if_neg h.fresh]
  rfl

/-- Any other request is refused. -/
theorem post_refused (h : ∀ account row, ¬ Takes w e account row) (strict : Bool) :
    (post strict w e).1 ≠ .ok ∧ (post strict w e).2 = w := by
  unfold post
  cases haccount : e.account with
  | none => exact ⟨nofun, rfl⟩
  | some account =>
    dsimp only
    split
    · exact ⟨nofun, rfl⟩
    · next hlen =>
      rw [Nat.le_zero, String.length_eq_zero_iff] at hlen
      cases hrow : w account with
      | none => exact ⟨nofun, rfl⟩
      | some row =>
        dsimp only
        split
        · exact ⟨nofun, rfl⟩
        · next hnew => exact absurd ⟨haccount, hlen, hrow, hnew⟩ (h account row)

theorem store_ok {value stored : String} (h : cut strict value = some stored) :
    store strict w account value = (.ok, Function.update w account (some (some stored))) := by
  rw [store, h]

theorem store_raised {value : String} (h : cut strict value = none) :
    store strict w account value = (.raised, w) := by
  rw [store, h]

end Post

/-- The answer is OK, and the list that is stored is read as the one before with the stripped id. -/
def Appends (strict : Bool) (w : Accounts) (e : Request) : Prop :=
  ∀ account, e.account = some account → (post strict w e).1 = .ok →
    gateways (post strict w e).2 account = gateways w account ++ [strip e.deviceId]

/-- An id that cannot be an element is taken, or one with which the list gets too long, and is cut. -/
def Garbles (strict : Bool) (w : Accounts) (e : Request) : Prop :=
  ∃ account row, Takes w e account row ∧
    ((newList row e).length ≤ columnSize ∧ (strip e.deviceId = "" ∨ Barred (strip e.deviceId)) ∨
      columnSize < (newList row e).length ∧ strict = false)

section Post

variable {strict : Bool} {w : Accounts} {e : Request} {account : String} {row : Option String}

theorem gateways_of_row (h : w account = some row) : gateways w account = gatewaysOf row := by
  rw [gateways, h]

theorem gateways_update (w : Accounts) (account stored : String) :
    gateways (Function.update w account (some (some stored))) account = parse stored := by
  rw [gateways_of_row (Function.update_self account (some (some stored)) w)]
  rfl

/-- A list that fits is stored as it is. -/
theorem Takes.post_fits (h : Takes w e account row) (hfits : (newList row e).length ≤ columnSize) :
    post strict w e = (.ok, Function.update w account (some (some (newList row e)))) := by
  rw [h.post_eq]
  exact store_ok (if_pos hfits)

theorem Takes.post_strict (h : Takes w e account row) (hlong : columnSize < (newList row e).length) :
    post true w e = (.raised, w) := by
  rw [h.post_eq]
  exact store_raised (by rw [cut, if_neg (Nat.not_le.mpr hlong), if_pos rfl])

theorem Takes.post_cut (h : Takes w e account row) (hlong : columnSize < (newList row e).length) :
    post false w e = (.ok, Function.update w account
      (some (some (String.ofList ((newList row e).toList.take columnSize))))) := by
  rw [h.post_eq]
  exact store_ok (by rw [cut, if_neg (Nat.not_le.mpr hlong), if_neg Bool.false_ne_true])

theorem Takes.unique (h : Takes w e account row) {account' : String} {row' : Option String}
    (h' : Takes w e account' row') : account' = account ∧ row' = row := by
  obtain rfl := Option.some.inj (h'.sender.symm.trans h.sender)
  exact ⟨rfl, Option.some.inj (h'.stored.symm.trans h.stored)⟩

/-- An element of a list is neither empty nor barred. -/
theorem element_of_parse {t id : String} {ids : List String} (h : parse t = ids ++ [id]) :
    id ≠ "" ∧ ¬ Barred id := by
  have hmem : id ∈ parse t := by
    rw [h]
    exact List.mem_append_right _ List.mem_cons_self
  exact ⟨ne_empty_of_mem_parse hmem, not_barred_of_mem_parse hmem⟩

theorem Takes.appends_iff (h : Takes w e account row) {stored : String}
    (hpost : post strict w e = (.ok, Function.update w account (some (some stored)))) :
    Appends strict w e ↔ parse stored = gatewaysOf row ++ [strip e.deviceId] := by
  constructor
  · intro happends
    have hlist := happends account h.sender (by rw [hpost])
    rwa [hpost, gateways_update, gateways_of_row h.stored] at hlist
  · intro hparse account' haccount _
    obtain rfl := Option.some.inj (haccount.symm.trans h.sender)
    rw [hpost, gateways_update, gateways_of_row h.stored, hparse]

/-- **One binding.** -/
theorem appends_iff (strict : Bool) (w : Accounts) (e : Request) :
    Appends strict w e ↔ ¬ Garbles strict w e := by
  by_cases htakes : ∃ account row, Takes w e account row
  · obtain ⟨account, row, h⟩ := htakes
    have hgarbles : Garbles strict w e ↔
        ((newList row e).length ≤ columnSize ∧
            (strip e.deviceId = "" ∨ Barred (strip e.deviceId)) ∨
          columnSize < (newList row e).length ∧ strict = false) := by
      constructor
      · rintro ⟨account', row', h', hcase⟩
        obtain ⟨rfl, rfl⟩ := h.unique h'
        exact hcase
      · exact fun hcase => ⟨account, row, h, hcase⟩
    rw [hgarbles]
    -- a list that is too long is refused by a strict database and cut by another
    rcases Nat.lt_or_ge columnSize (newList row e).length with hlong | hfits
    · cases strict with
      | true =>
        refine iff_of_true (fun _ _ hok => ?_) ?_
        · rw [h.post_strict hlong] at hok
          cases hok
        · rintro (⟨hfits, -⟩ | ⟨-, hcon⟩)
          · omega
          · cases hcon
      | false =>
        rw [h.appends_iff (h.post_cut hlong)]
        refine iff_of_false (fun hparse => ?_) (not_not_intro (Or.inr ⟨hlong, rfl⟩))
        obtain ⟨hsome, hbar⟩ := element_of_parse hparse
        exact parse_take_ne hlong hsome hbar hparse
    · rw [h.appends_iff (h.post_fits hfits), newList, gatewaysOf, parse_append_iff]
      constructor
      · rintro ⟨hsome, hbar⟩ (⟨-, hempty | hbarred⟩ | ⟨hlong, -⟩)
        · exact hsome hempty
        · exact hbar hbarred
        · exact absurd hlong (Nat.not_lt.mpr hfits)
      · intro hnot
        exact ⟨fun hempty => hnot (Or.inl ⟨hfits, Or.inl hempty⟩),
          fun hbarred => hnot (Or.inl ⟨hfits, Or.inr hbarred⟩)⟩
  · have hnone : ∀ account row, ¬ Takes w e account row := fun account row h => htakes ⟨account, row, h⟩
    refine iff_of_true (fun _ _ hok => absurd hok (post_refused hnone strict).1) ?_
    exact fun ⟨account, row, h, _⟩ => hnone account row h

end Post

/-! ## Rows of bindings -/

/-- The ids that are bound to an account in a run. -/
def bound (strict : Bool) (account : String) : Accounts → List Request → List String
  | _, [] => []
  | w, e :: es =>
    if e.account = some account ∧ (post strict w e).1 = .ok then
      strip e.deviceId :: bound strict account (post strict w e).2 es
    else bound strict account (post strict w e).2 es

def step (strict : Bool) (w : Accounts) (e : Request) : Accounts := (post strict w e).2

/-- Every account has the list that it had, and the ids that have been bound to it, each of them once. -/
def ListsBound (strict : Bool) (w : Accounts) (es : List Request) : Prop :=
  ∀ account, gateways (es.foldl (step strict) w) account =
      gateways w account ++ bound strict account w es ∧
    (bound strict account w es).Nodup ∧ ∀ id ∈ bound strict account w es, id ∉ gateways w account

section Rows

variable {strict : Bool} {w : Accounts} {e : Request} {account : String}

/-- Only the list of the account that is bound to changes. -/
theorem gateways_step_other (strict : Bool) (w : Accounts) (e : Request)
    (h : ¬ (e.account = some account ∧ (post strict w e).1 = .ok)) :
    gateways (step strict w e) account = gateways w account := by
  by_cases htakes : ∃ account row, Takes w e account row
  · obtain ⟨account', row, htake⟩ := htakes
    rw [step, htake.post_eq]
    rw [htake.post_eq] at h
    cases hcut : cut strict (newList row e) with
    | none => rw [store_raised hcut]
    | some stored =>
      rw [store_ok hcut] at h ⊢
      have hother : account ≠ account' := by
        rintro rfl
        exact h ⟨htake.sender, rfl⟩
      have hsame : Function.update w account' (some (some stored)) account = w account :=
        Function.update_of_ne hother _ _
      show gateways (Function.update w account' (some (some stored))) account = _
      rw [gateways, hsame]
      rfl
  · rw [step, (post_refused (fun account row h => htakes ⟨account, row, h⟩) strict).2]

/-- What is bound was not there. -/
theorem not_mem_of_ok (haccount : e.account = some account) (hok : (post strict w e).1 = .ok) :
    strip e.deviceId ∉ gateways w account := by
  by_cases htakes : ∃ account row, Takes w e account row
  · obtain ⟨account', row, h⟩ := htakes
    obtain rfl := Option.some.inj (haccount.symm.trans h.sender)
    rw [gateways_of_row h.stored]
    exact h.fresh
  · exact absurd hok (post_refused (fun account row h => htakes ⟨account, row, h⟩) strict).1

/-- Where each binding appends its id, the lists are those that are bound. -/
theorem listsBound_of_appends (w : Accounts) (es : List Request)
    (h : ∀ v ∈ Runs.visits (step strict) w es, Appends strict v.1 v.2) : ListsBound strict w es := by
  induction es generalizing w with
  | nil =>
    intro account
    exact ⟨(List.append_nil _).symm, List.nodup_nil, List.forall_mem_nil _⟩
  | cons e es ih =>
    rw [Runs.visits_cons, List.forall_mem_cons] at h
    intro account
    -- from the lists behind the first binding, which is in front of the others
    obtain ⟨hlist, hnodup, hfresh⟩ := ih (step strict w e) h.2 account
    rw [List.foldl_cons, bound]
    split
    · next hbound =>
      have happends : gateways (step strict w e) account = _ := h.1 account hbound.1 hbound.2
      rw [happends] at hlist hfresh
      refine ⟨?_, List.nodup_cons.mpr ⟨fun hmem => ?_, hnodup⟩, List.forall_mem_cons.mpr ⟨?_, ?_⟩⟩
      · rw [hlist, List.append_assoc]
        rfl
      · exact hfresh _ hmem (List.mem_append_right _ List.mem_cons_self)
      · exact not_mem_of_ok hbound.1 hbound.2
      · exact fun id hid hmem => hfresh id hid (List.mem_append_left _ hmem)
    · next hbound =>
      rw [gateways_step_other strict w e hbound] at hlist hfresh
      exact ⟨hlist, hnodup, hfresh⟩

/-- **Rows of bindings**: the lists stay parseable all through exactly if no request garbles one. -/
theorem bound_lists_iff (strict : Bool) (w : Accounts) (es : List Request) :
    ((∀ v ∈ Runs.visits (step strict) w es, Appends strict v.1 v.2) ∧ ListsBound strict w es) ↔
      ∀ v ∈ Runs.visits (step strict) w es, ¬ Garbles strict v.1 v.2 := by
  have hsteps : (∀ v ∈ Runs.visits (step strict) w es, Appends strict v.1 v.2) ↔
      ∀ v ∈ Runs.visits (step strict) w es, ¬ Garbles strict v.1 v.2 :=
    forall_congr' fun v => imp_congr_right fun _ => appends_iff strict v.1 v.2
  rw [← hsteps]
  exact and_iff_left_of_imp fun h => listsBound_of_appends w es h

end Rows

/-- The id "a|b" is bound to an account without gateways. -/
def twoInOne : Request := ⟨some "z", "a|b"⟩

theorem barred_id_garbles :
    ¬ ∀ (strict : Bool) (w : Accounts) (es : List Request),
      (∀ v ∈ Runs.visits (step strict) w es, Appends strict v.1 v.2) ∧ ListsBound strict w es := by
  intro hall
  have happends := (hall true (fun _ => some (some "")) [twoInOne]).1
    (fun _ => some (some ""), twoInOne) List.mem_cons_self
  refine (appends_iff _ _ _).mp happends ⟨"z", some "", ⟨rfl, ?_, rfl, ?_⟩, Or.inl ⟨?_, Or.inr ?_⟩⟩
  all_goals decide +kernel

end WebBinding

end Monsys
