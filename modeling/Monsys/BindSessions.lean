/-
  Bindings of gateways to accounts: `BindSession` of `fgw_server.py`.

  An account's gateways are one string in the database, `fgw_list`, with bars between them.  A
  session reads the string, puts its gateway at the end and writes the string back; each query runs
  in a greenlet of its own, and others run until it is done.

  1. **Lists in a string** — `split` and `join`.
  2. **`BindSession`** — the pieces of its `event`, from one query to the next.
  3. **Runs** — `bindings_kept`: no binding is lost as long as no session writes over one that it has
     not read, no gateway has a bar in its name, and the lists fit their column.

  A session that times out meanwhile is closed, and goes on all the same.  Of an account there is its
  `fgw_list`; what a failed query leaves behind, the transactions and the answers are left out.
-/
import Monsys.Lib.Runs
import Mathlib.Data.List.Basic
import Mathlib.Logic.Function.Basic

namespace Monsys

namespace Binding

/-! ## Lists in a string -/

/-- `s.split("|")`. -/
def split (s : String) : List String := (s.toList.splitOn '|').map String.ofList

/-- `"|".join(ids)`. -/
def join (ids : List String) : String :=
  String.ofList (['|'].intercalate (ids.map String.toList))

/-- The name has a bar in it. -/
def Barred (id : String) : Prop := '|' ∈ id.toList

instance (id : String) : Decidable (Barred id) := inferInstanceAs (Decidable (_ ∈ _))

theorem not_mem_of_mem_splitOn {α : Type} [BEq α] [LawfulBEq α] (a : α) {l : List α} :
    ∀ {xs : List α}, l ∈ xs.splitOn a → a ∉ l := by
  intro xs
  induction xs generalizing l with
  | nil =>
    intro hl
    rw [List.splitOn_nil, List.mem_singleton] at hl
    rw [hl]
    exact List.not_mem_nil
  | cons x xs ih =>
    intro hl
    rw [List.splitOn_cons_eq_if_modifyHead] at hl
    split at hl
    · rcases List.mem_cons.mp hl with rfl | hl
      · exact List.not_mem_nil
      · exact ih hl
    · next hx =>
      -- the first part is longer by the element that is no separator
      cases hparts : xs.splitOn a with
      | nil => exact absurd hparts (List.splitOn_ne_nil a xs)
      | cons part parts =>
        rw [hparts] at hl ih
        rcases List.mem_cons.mp hl with rfl | hl
        · rw [List.mem_cons, not_or]
          exact ⟨fun ha => hx (beq_iff_eq.mpr ha.symm), ih List.mem_cons_self⟩
        · exact ih (List.mem_cons_of_mem part hl)

theorem not_barred_of_mem_split {id s : String} (h : id ∈ split s) : ¬ Barred id := by
  rw [split] at h
  obtain ⟨l, hl, rfl⟩ := List.mem_map.mp h
  rw [Barred, String.toList_ofList]
  exact not_mem_of_mem_splitOn '|' hl

theorem split_join {ids : List String} (hne : ids ≠ []) (h : ∀ id ∈ ids, ¬ Barred id) :
    split (join ids) = ids := by
  have hparts : ∀ l ∈ ids.map String.toList, '|' ∉ l := by
    intro l hl
    obtain ⟨id, hid, rfl⟩ := List.mem_map.mp hl
    exact h id hid
  rw [split, join, String.toList_ofList, List.splitOn_intercalate '|' hparts
    fun hnil => hne (List.map_eq_nil_iff.mp hnil), List.map_map]
  exact List.map_id'' (fun id => String.ofList_toList) ids

/-! ## `BindSession` -/

/-- How far `event` has come: a query is out, or there is nothing to do before the gateway answers.
    `failed` is an error, or an account that is not there. -/
inductive Stage
  | checking
  | waiting
  | selecting
  | updating (row : String)
  | updated
  | completed
  | failed
deriving DecidableEq

structure BindSession where
  account : String
  fgw : String
  stage : Stage
deriving DecidableEq

/-- `if fgw not in fgw_list: fgw_list.append(fgw)`. -/
def append (row : String) (fgw : String) : List String :=
  if fgw ∈ split row then split row else split row ++ [fgw]

/-- `fgw_list varchar(1024)`. -/
def columnSize : Nat := 1024

end Binding

open Binding in
/-- The accounts with their `fgw_list`, which can be null, and the sessions. -/
structure Bindings where
  accounts : String → Option (Option String)
  sessions : List BindSession

namespace Bindings

open Binding

def init (accounts : String → Option (Option String)) : Bindings := ⟨accounts, []⟩

/-- `checked`, `selected` and `updated` are a query that is done, with what the session does until
    its next one; `bindRsp` is the answer of the gateway.  What is sent at last can fail. -/
inductive Event
  | bind (account fgw : String)
  | checked (r : Nat)
  | bindRsp (r : Nat)
  | selected (r : Nat)
  | updated (r : Nat)
  | sent (r : Nat) (ok : Bool)
deriving DecidableEq

/-- `row = cur.fetchone()`. -/
def fetch (w : Bindings) (account : String) : Option String := (w.accounts account).join

def setStage (w : Bindings) (r : Nat) (s : BindSession) (stage : Stage) : Bindings :=
  { w with sessions := w.sessions.set r { s with stage := stage } }

-- what the column holds once a list has been written that is too long for it, by what it held before
variable (overflow : String → String → String)

/-- `UPDATE account_info SET fgw_list = ... WHERE account = ...`. -/
def update (w : Bindings) (account fgwList : String) : Bindings :=
  { w with
    accounts := Function.update w.accounts account
      ((w.accounts account).map fun old =>
        some (if fgwList.length ≤ columnSize then fgwList else overflow (old.getD "") fgwList)) }

/-- One step. -/
def next (w : Bindings) : Event → Bindings
  | .bind account fgw => { w with sessions := w.sessions ++ [⟨account, fgw, .checking⟩] }
  | .checked r =>
    match w.sessions[r]? with
    | some ⟨account, fgw, .checking⟩ =>
      let s : BindSession := ⟨account, fgw, .checking⟩
      match w.fetch account with
      | none => w.setStage r s .failed
      | some _ => w.setStage r s .waiting
    | _ => w
  | .bindRsp r =>
    match w.sessions[r]? with
    | some ⟨account, fgw, .waiting⟩ => w.setStage r ⟨account, fgw, .waiting⟩ .selecting
    | _ => w
  | .selected r =>
    match w.sessions[r]? with
    | some ⟨account, fgw, .selecting⟩ =>
      let s : BindSession := ⟨account, fgw, .selecting⟩
      match w.fetch account with
      | none => w.setStage r s .failed
      | some row => w.setStage r s (.updating row)
    | _ => w
  | .updated r =>
    match w.sessions[r]? with
    | some ⟨account, fgw, .updating row⟩ =>
      (w.update overflow account (join (append row fgw))).setStage r
        ⟨account, fgw, .updating row⟩ .updated
    | _ => w
  | .sent r ok =>
    match w.sessions[r]? with
    | some ⟨account, fgw, .updated⟩ =>
      w.setStage r ⟨account, fgw, .updated⟩ (if ok then .completed else .failed)
    | _ => w

/-! ## Runs -/

/-- The gateways of an account. -/
def ids (accounts : String → Option (Option String)) (account : String) : List String :=
  match (accounts account).join with
  | none => []
  | some row => split row

/-- No session is at work whose gateway has answered. -/
def Quiet (w : Bindings) : Prop :=
  ∀ s ∈ w.sessions, s.stage = .checking ∨ s.stage = .waiting ∨ s.stage = .completed ∨
    s.stage = .failed

/-- Every account has the gateways it had, and those that sessions have bound to it. -/
def Kept (accounts : String → Option (Option String)) (w : Bindings) : Prop :=
  ∀ account id, id ∈ ids accounts account ∨ ⟨account, id, .completed⟩ ∈ w.sessions →
    id ∈ ids w.accounts account

/-- A session writes its list: over a gateway that it has not read, or with one that has a bar in its
    name, or the list is too long. -/
def Loses (w : Bindings) : Event → Prop
  | .updated r => ∃ account fgw row, w.sessions[r]? = some ⟨account, fgw, .updating row⟩ ∧
      ((∃ id ∈ ids w.accounts account, id ∉ split row ∧ id ≠ fgw) ∨ Barred fgw ∨
        columnSize < (join (append row fgw)).length)
  | _ => False

/-- What is kept from step to step. -/
structure InStep (accounts : String → Option (Option String)) (w : Bindings) : Prop where
  kept : ∀ account id, id ∈ ids accounts account → id ∈ ids w.accounts account
  bound : ∀ s ∈ w.sessions, s.stage = .updated ∨ s.stage = .completed →
    s.fgw ∈ ids w.accounts s.account
  stored : ∀ s ∈ w.sessions, ∀ row, s.stage = .updating row → (w.accounts s.account).isSome = true

variable {accounts : String → Option (Option String)} {w : Bindings}
  {overflow : String → String → String}

theorem inStep_init (accounts : String → Option (Option String)) :
    InStep accounts (init accounts) where
  kept := fun _ _ hid => hid
  bound := fun _ hs => by cases hs
  stored := fun _ hs => by cases hs

theorem InStep.toKept (h : InStep accounts w) : Kept accounts w := by
  rintro account id (hid | hs)
  · exact h.kept account id hid
  · exact h.bound _ hs (Or.inr rfl)

/-- A session gets on. -/
theorem InStep.setStage (h : InStep accounts w) (r : Nat) {s : BindSession} {stage : Stage}
    (hbound : stage = .updated ∨ stage = .completed → s.fgw ∈ ids w.accounts s.account)
    (hstored : ∀ row, stage = .updating row → (w.accounts s.account).isSome = true) :
    InStep accounts (w.setStage r s stage) where
  kept := h.kept
  bound := by
    intro s' hs'
    rcases List.mem_or_eq_of_mem_set hs' with hs' | rfl
    · exact h.bound s' hs'
    · exact hbound
  stored := by
    intro s' hs'
    rcases List.mem_or_eq_of_mem_set hs' with hs' | rfl
    · exact h.stored s' hs'
    · exact hstored

/-- Of no matter where it gets on to, unless it is a stage that says something of the account. -/
theorem InStep.setStage_plain (h : InStep accounts w) (r : Nat) (s : BindSession) {stage : Stage}
    (hstage : stage = .waiting ∨ stage = .selecting ∨ stage = .failed) :
    InStep accounts (w.setStage r s stage) := by
  refine h.setStage r ?_ ?_
  · rintro (rfl | rfl)
    · rcases hstage with hstage | hstage | hstage <;> cases hstage
    · rcases hstage with hstage | hstage | hstage <;> cases hstage
  · rintro row rfl
    rcases hstage with hstage | hstage | hstage <;> cases hstage

theorem InStep.bind (h : InStep accounts w) (account fgw : String) :
    InStep accounts (w.next overflow (.bind account fgw)) where
  kept := h.kept
  bound := by
    intro s hs hstage
    rcases List.mem_append.mp hs with hs | hs
    · exact h.bound s hs hstage
    · rw [List.mem_singleton.mp hs] at hstage
      rcases hstage with hstage | hstage <;> cases hstage
  stored := by
    intro s hs row hstage
    rcases List.mem_append.mp hs with hs | hs
    · exact h.stored s hs row hstage
    · rw [List.mem_singleton.mp hs] at hstage
      cases hstage

theorem mem_append_self (row fgw : String) : fgw ∈ append row fgw := by
  unfold append
  split
  · assumption
  · exact List.mem_append_right _ List.mem_cons_self

theorem mem_append_of_mem {row fgw id : String} (h : id ∈ split row) : id ∈ append row fgw := by
  unfold append
  split
  · exact h
  · exact List.mem_append_left _ h

/-- A list that is written back is read again. -/
theorem split_join_append {row fgw : String} (h : ¬ Barred fgw) :
    split (join (append row fgw)) = append row fgw := by
  refine split_join (List.ne_nil_of_mem (mem_append_self row fgw)) ?_
  intro id hid
  unfold append at hid
  split at hid
  · exact not_barred_of_mem_split hid
  · rcases List.mem_append.mp hid with hid | hid
    · exact not_barred_of_mem_split hid
    · rw [List.mem_singleton.mp hid]
      exact h

theorem ids_update {account fgwList : String} (hstored : (w.accounts account).isSome = true)
    (hfits : fgwList.length ≤ columnSize) (account' : String) :
    ids (w.update overflow account fgwList).accounts account' =
      if account' = account then split fgwList else ids w.accounts account' := by
  obtain ⟨old, hold⟩ := Option.isSome_iff_exists.mp hstored
  unfold ids
  simp only [update, hold, Option.map_some, if_pos hfits, Function.update_apply]
  by_cases haccount : account' = account
  · rw [if_pos haccount, if_pos haccount]
    rfl
  · rw [if_neg haccount, if_neg haccount]

/-- A session writes back what it has read, with its own gateway. -/
theorem InStep.updated (h : InStep accounts w) {r : Nat} {account fgw row : String}
    (hs : w.sessions[r]? = some ⟨account, fgw, .updating row⟩)
    (hread : ∀ id ∈ ids w.accounts account, id ∈ split row ∨ id = fgw) (hbar : ¬ Barred fgw)
    (hfits : (join (append row fgw)).length ≤ columnSize) :
    InStep accounts ((w.update overflow account (join (append row fgw))).setStage r
      ⟨account, fgw, .updating row⟩ .updated) := by
  have hstored := h.stored _ (List.mem_of_getElem? hs) row rfl
  have hids := @ids_update w overflow account _ hstored hfits
  rw [split_join_append hbar] at hids
  -- nothing that is stored gets lost
  have hmono : ∀ account' id, id ∈ ids w.accounts account' →
      id ∈ ids (w.update overflow account (join (append row fgw))).accounts account' := by
    intro account' id hid
    rw [hids]
    split
    · next haccount =>
      subst haccount
      rcases hread id hid with hrow | rfl
      · exact mem_append_of_mem hrow
      · exact mem_append_self row id
    · exact hid
  have hupdate : InStep accounts (w.update overflow account (join (append row fgw))) := by
    refine ⟨?_, ?_, ?_⟩
    · exact fun account' id hid => hmono account' id (h.kept account' id hid)
    · exact fun s hs hstage => hmono s.account s.fgw (h.bound s hs hstage)
    · intro s hs row' hstage
      have hsome := h.stored s hs row' hstage
      show (Function.update w.accounts account _ s.account).isSome = true
      rw [Function.update_apply]
      split
      · rw [Option.isSome_map]
        exact hstored
      · exact hsome
  refine hupdate.setStage r (fun _ => ?_) (fun row' hcon => by cases hcon)
  show fgw ∈ ids _ account
  rw [hids, if_pos rfl]
  exact mem_append_self row fgw

theorem not_loses {r : Nat} {account fgw row : String}
    (hs : w.sessions[r]? = some ⟨account, fgw, .updating row⟩) (h : ¬ w.Loses (.updated r)) :
    (∀ id ∈ ids w.accounts account, id ∈ split row ∨ id = fgw) ∧ ¬ Barred fgw ∧
      (join (append row fgw)).length ≤ columnSize := by
  refine ⟨?_, ?_, ?_⟩
  · intro id hid
    by_contra hnot
    rw [not_or] at hnot
    exact h ⟨account, fgw, row, hs, Or.inl ⟨id, hid, hnot⟩⟩
  · exact fun hcon => h ⟨account, fgw, row, hs, Or.inr (Or.inl hcon)⟩
  · exact Nat.le_of_not_lt fun hcon => h ⟨account, fgw, row, hs, Or.inr (Or.inr hcon)⟩

/-- **One step.** -/
theorem InStep.next (h : InStep accounts w) (e : Event) (hloses : ¬ w.Loses e) :
    InStep accounts (w.next overflow e) := by
  cases e with
  | bind account fgw => exact h.bind account fgw
  | checked r =>
    rw [Bindings.next]
    split
    · split
      · exact h.setStage_plain r _ (Or.inr (Or.inr rfl))
      · exact h.setStage_plain r _ (Or.inl rfl)
    · exact h
  | bindRsp r =>
    rw [Bindings.next]
    split
    · exact h.setStage_plain r _ (Or.inr (Or.inl rfl))
    · exact h
  | selected r =>
    rw [Bindings.next]
    split
    · next account fgw hs =>
      split
      · exact h.setStage_plain r _ (Or.inr (Or.inr rfl))
      · next row hrow =>
        refine h.setStage r ?_ ?_
        · rintro (hcon | hcon) <;> cases hcon
        · intro _ _
          show (w.accounts account).isSome = true
          cases hrow' : w.accounts account with
          | none =>
            rw [fetch, hrow'] at hrow
            cases hrow
          | some old => rfl
    · exact h
  | updated r =>
    rw [Bindings.next]
    split
    · next account fgw row hs =>
      obtain ⟨hread, hbar, hfits⟩ := not_loses hs hloses
      exact h.updated hs hread hbar hfits
    · exact h
  | sent r ok =>
    rw [Bindings.next]
    split
    · next account fgw hs =>
      refine h.setStage r (fun _ => ?_) ?_
      · exact h.bound _ (List.mem_of_getElem? hs) (Or.inl rfl)
      · intro row hcon
        cases ok <;> cases hcon
    · exact h

/-- **No binding is lost** in a run in which no session writes over a gateway that it has not read,
    none binds a gateway with a bar in its name, and no list gets too long. -/
theorem bindings_kept (overflow : String → String → String)
    (accounts : String → Option (Option String)) (es : List Event)
    (h : ∀ v ∈ Runs.visits (next overflow) (init accounts) es, ¬ v.1.Loses v.2) :
    ∀ v ∈ Runs.visits (next overflow) (init accounts) es, Kept accounts (v.1.next overflow v.2) := by
  have hinv := Runs.visits_inv_of (InStep accounts) (fun w e => ¬ w.Loses e)
    (fun _ e hw hloses => hw.next e hloses) (inStep_init accounts) es h
  exact fun v hv => ((hinv v hv).next v.2 (h v hv)).toKept

/-- A gateway is bound to an account that has one. -/
def oneBinds : List Event :=
  [.bind "a" "y", .checked 0, .bindRsp 0, .selected 0, .updated 0, .sent 0 true]

theorem oneBinds_keeps : ∀ v ∈ Runs.visits (next fun old _ => old) (init fun _ => some (some "x"))
    oneBinds, ¬ v.1.Loses v.2 := by
  have hupdate : ∀ w : Bindings, w.sessions[0]? = some ⟨"a", "y", .updating "x"⟩ →
      ids w.accounts "a" = ["x"] → ¬ w.Loses (.updated 0) := by
    rintro w hs hids ⟨account, fgw, row, hs', h⟩
    obtain ⟨rfl, rfl, hstage⟩ := BindSession.mk.inj (Option.some.inj (hs.symm.trans hs'))
    obtain rfl := Stage.updating.inj hstage
    rw [hids] at h
    exact absurd h (by decide +kernel)
  refine List.forall_mem_cons.mpr ⟨id, List.forall_mem_cons.mpr ⟨id, List.forall_mem_cons.mpr
    ⟨id, List.forall_mem_cons.mpr ⟨id, List.forall_mem_cons.mpr ⟨hupdate _ ?_ ?_,
      List.forall_mem_cons.mpr ⟨id, fun _ hv => (by cases hv)⟩⟩⟩⟩⟩⟩
  · decide +kernel
  · decide +kernel

theorem bindings_kept_oneBinds :
    Kept (fun _ => some (some "x"))
      (oneBinds.foldl (next fun old _ => old) (init fun _ => some (some "x"))) :=
  bindings_kept (fun old _ => old) (fun _ => some (some "x")) oneBinds oneBinds_keeps
    ((oneBinds.dropLast).foldl (next fun old _ => old) (init fun _ => some (some "x")),
      .sent 0 true) ((Runs.mem_visits_iff _).mpr ⟨oneBinds.dropLast, [], rfl, rfl⟩)

/-- Two sessions read the list of an account before either of them has written it. -/
def twoBind : List Event :=
  [.bind "a" "y", .bind "a" "z", .checked 0, .checked 1, .bindRsp 0, .bindRsp 1, .selected 0,
    .selected 1, .updated 0, .updated 1, .sent 0 true]

theorem twoBind_ids :
    ids ((twoBind.foldl (next fun old _ => old) (init fun _ => some (some "x"))).next
      (fun old _ => old) (.sent 1 true)).accounts "a" = ["x", "z"] := by decide +kernel

theorem twoBind_sessions :
    ((twoBind.foldl (next fun old _ => old) (init fun _ => some (some "x"))).next
      (fun old _ => old) (.sent 1 true)).sessions =
      [⟨"a", "y", .completed⟩, ⟨"a", "z", .completed⟩] := by decide +kernel

theorem bindings_lost :
    ¬ ∀ (overflow : String → String → String) (accounts : String → Option (Option String))
      (es : List Event), ∀ v ∈ Runs.visits (next overflow) (init accounts) es,
        (v.1.next overflow v.2).Quiet → Kept accounts (v.1.next overflow v.2) := by
  intro hall
  have hkept := hall (fun old _ => old) (fun _ => some (some "x")) (twoBind ++ [.sent 1 true])
    (twoBind.foldl (next fun old _ => old) (init fun _ => some (some "x")), .sent 1 true)
    ((Runs.mem_visits_iff _).mpr ⟨twoBind, [], rfl, rfl⟩)
  rw [Quiet, twoBind_sessions] at hkept
  have hmem := hkept (by decide) "a" "y" (Or.inr (by rw [twoBind_sessions]; decide))
  rw [twoBind_ids] at hmem
  exact absurd hmem (by decide)

end Bindings

end Monsys
