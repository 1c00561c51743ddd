/-
  Requests to the exchange and their answers: `ExchangeService` of `monsys/service`, with its
  `SequenceGenerator`.

  1. **The service** — `requestForExchange` puts a record under the next sequence and publishes;
     `handleDelivery` finds the record and calls back.  It does not take the record out.
  2. **What a run is to keep** — `Once` and `Resent`, and the steps that do not (`Again`).
  3. **Runs** — `callbacks_once_iff`.
  4. **After a round** — once every sequence has been drawn nothing is sent any more.

  Calls and deliveries come one after the other, in any order.  What a request is is left out; a
  callback is known by the number of its request.
-/
import Mathlib.Data.List.Nodup
import Mathlib.Logic.Function.Basic
import Monsys.Lib.Runs
import Monsys.SequenceGenerator

namespace Monsys

/-- `ExchangeMsg`: the sequence, and all else. -/
structure ExchangeMsg (β : Type) where
  sequence : Int
  body : β

structure RouteItem where
  sequence : Int
  callback : Option Nat

/-- The record table and the generator; and the history: the sequence of each request, the calls of
    `onResponse`, each with the request whose callback it was, and for which sequences a record has
    been found. -/
structure ExchangeService (β : Type) where
  mRouteRecordMap : Int → Option RouteItem
  mSequenceGenerate : SequenceGenerator
  drawn : List Int
  calls : List (Nat × ExchangeMsg β)
  answered : Int → Bool

namespace ExchangeService

variable {β : Type}

/-! ## The service -/

def create : ExchangeService β where
  mRouteRecordMap := fun _ => none
  mSequenceGenerate := .new 0 0xFFFFFF
  drawn := []
  calls := []
  answered := fun _ => false

def saveRoute (w : ExchangeService β) (sequence : Int) (callback : Option Nat) :
    Bool × ExchangeService β :=
  if (w.mRouteRecordMap sequence).isSome then (false, w)
  else
    (true, { w with
      mRouteRecordMap := Function.update w.mRouteRecordMap sequence (some ⟨sequence, callback⟩) })

/-- How `send` ends: without a record, in an exception of `basicPublish`, or at its end. -/
inductive Sending
  | notSaved
  | failed
  | written
deriving DecidableEq, Repr

def send (w : ExchangeService β) (sequence : Int) (callback : Option Nat) (published : Bool) :
    Sending × ExchangeService β :=
  let (saved, w) := w.saveRoute sequence callback
  if !saved then (.notSaved, w)
  else (if published then .written else .failed, w)

def requestForExchange (w : ExchangeService β) (callback published : Bool) :
    Sending × ExchangeService β :=
  let (sequence, generator) := w.mSequenceGenerate.next
  let request := w.drawn.length
  send { w with mSequenceGenerate := generator, drawn := w.drawn ++ [sequence] } sequence
    (if callback then some request else none) published

def findRouteItem (w : ExchangeService β) (msg : ExchangeMsg β) : Option RouteItem :=
  w.mRouteRecordMap msg.sequence

/-- With what the body of a delivery is parsed into, if it is. -/
def handleDelivery (w : ExchangeService β) : Option (ExchangeMsg β) → ExchangeService β
  | none => w
  | some msg =>
    match w.findRouteItem msg with
    | none => w
    | some item =>
      { w with
        calls := w.calls ++ (item.callback.map fun request => (request, msg)).toList
        answered := Function.update w.answered msg.sequence true }

inductive Event (β : Type)
  | request (callback published : Bool)
  | delivery (msg : Option (ExchangeMsg β))

def next (w : ExchangeService β) : Event β → ExchangeService β
  | .request callback published => (w.requestForExchange callback published).2
  | .delivery msg => w.handleDelivery msg

/-! ## What a run is to keep -/

/-- No callback is called twice, and each with a message that bears the sequence of its request. -/
def Once (w : ExchangeService β) : Prop :=
  (w.calls.map Prod.fst).Nodup ∧ ∀ c ∈ w.calls, w.drawn[c.1]? = some c.2.sequence

/-- A request that draws the sequence of an answered one is sent. -/
def Resent (w : ExchangeService β) (e : Event β) : Prop :=
  ∀ callback published, e = .request callback published →
    w.answered w.mSequenceGenerate.pending = true →
    (w.requestForExchange callback published).1 ≠ .notSaved

/-- A message comes for a request that has been answered and has a callback, or a request draws the
    sequence of an answered one. -/
def Again (w : ExchangeService β) : Event β → Prop
  | .request _ _ => w.answered w.mSequenceGenerate.pending = true
  | .delivery none => False
  | .delivery (some msg) => w.answered msg.sequence = true ∧
      ∃ request, w.mRouteRecordMap msg.sequence = some ⟨msg.sequence, some request⟩

/-- What is kept by the steps that are not. -/
structure InStep (w : ExchangeService β) : Prop where
  once : w.Once
  record : ∀ n item, w.mRouteRecordMap n = some item →
    item.sequence = n ∧ ∀ r, item.callback = some r → w.drawn[r]? = some n
  found : ∀ n, w.answered n = true → w.mRouteRecordMap n ≠ none
  called_iff : ∀ n r, w.mRouteRecordMap n = some ⟨n, some r⟩ →
    (w.answered n = true ↔ r ∈ w.calls.map Prod.fst)

section Steps

variable {w : ExchangeService β}

theorem inStep_create : InStep (create : ExchangeService β) where
  once := ⟨List.nodup_nil, List.forall_mem_nil _⟩
  record := fun _ _ h => by cases h
  found := fun _ h => by cases h
  called_iff := fun _ _ h => by cases h

/-- The service once `nextSequence` has drawn, before `send`. -/
def draw (w : ExchangeService β) : ExchangeService β :=
  { w with
    mSequenceGenerate := w.mSequenceGenerate.next.2
    drawn := w.drawn ++ [w.mSequenceGenerate.pending] }

theorem saveRoute_taken {n : Int} (h : w.mRouteRecordMap n ≠ none) (callback : Option Nat) :
    w.saveRoute n callback = (false, w) := if_pos (Option.isSome_iff_ne_none.mpr h)

theorem saveRoute_free {n : Int} (h : w.mRouteRecordMap n = none) (callback : Option Nat) :
    w.saveRoute n callback = (true, { w with
      mRouteRecordMap := Function.update w.mRouteRecordMap n (some ⟨n, callback⟩) }) := by
  rw [saveRoute, h]
  rfl

/-- The sequence is taken: nothing is sent, and only the draw stays. -/
theorem request_taken (h : w.mRouteRecordMap w.mSequenceGenerate.pending ≠ none)
    (callback published : Bool) :
    w.requestForExchange callback published = (.notSaved, w.draw) := by
  show send w.draw w.mSequenceGenerate.pending (if callback then some w.drawn.length else none)
    published = _
  rw [send, saveRoute_taken (w := w.draw) h]
  rfl

/-- The sequence is free: the request gets a record, and is sent. -/
theorem request_free (h : w.mRouteRecordMap w.mSequenceGenerate.pending = none)
    (callback published : Bool) :
    w.requestForExchange callback published =
      (if published then .written else .failed, { w.draw with
        mRouteRecordMap := Function.update w.mRouteRecordMap w.mSequenceGenerate.pending
          (some ⟨w.mSequenceGenerate.pending, if callback then some w.drawn.length else none⟩) }) := by
  show send w.draw w.mSequenceGenerate.pending (if callback then some w.drawn.length else none)
    published = _
  rw [send, saveRoute_free (w := w.draw) h]
  rfl

/-- A request calls nothing back, and the sequences drawn before stay what they were. -/
theorem request_keeps (w : ExchangeService β) (callback published : Bool) :
    (w.next (.request callback published)).calls = w.calls ∧
      (w.next (.request callback published)).answered = w.answered ∧
      (w.next (.request callback published)).drawn = w.drawn ++ [w.mSequenceGenerate.pending] := by
  show (w.requestForExchange callback published).2.calls = _ ∧
    (w.requestForExchange callback published).2.answered = _ ∧
    (w.requestForExchange callback published).2.drawn = _
  by_cases h : w.mRouteRecordMap w.mSequenceGenerate.pending = none
  · rw [request_free h]
    exact ⟨rfl, rfl, rfl⟩
  · rw [request_taken h]
    exact ⟨rfl, rfl, rfl⟩

theorem delivery_unknown {msg : ExchangeMsg β} (h : w.mRouteRecordMap msg.sequence = none) :
    w.next (.delivery (some msg)) = w := by
  show (match w.mRouteRecordMap msg.sequence with | none => w | some item => _) = w
  rw [h]

theorem delivery_found {msg : ExchangeMsg β} {item : RouteItem}
    (h : w.mRouteRecordMap msg.sequence = some item) :
    w.next (.delivery (some msg)) = { w with
      calls := w.calls ++ (item.callback.map fun request => (request, msg)).toList
      answered := Function.update w.answered msg.sequence true } := by
  show (match w.mRouteRecordMap msg.sequence with | none => w | some item => _) = _
  rw [h]

/-- A request is counted as drawn before any callback of it. -/
theorem Once.lt_length (h : w.Once) {r : Nat} (hr : r ∈ w.calls.map Prod.fst) :
    r < w.drawn.length := by
  obtain ⟨c, hc, rfl⟩ := List.mem_map.mp hr
  exact (List.getElem?_eq_some_iff.mp (h.2 c hc)).1

/-- Drawing once more does not touch what was drawn. -/
theorem Once.drawn_append (h : w.Once) (n : Int) :
    ∀ c ∈ w.calls, (w.drawn ++ [n])[c.1]? = some c.2.sequence := by
  intro c hc
  have hlt : c.1 < w.drawn.length := h.lt_length (List.mem_map_of_mem hc)
  rw [List.getElem?_append_left hlt]
  exact h.2 c hc

/-- **What a request brings**: only one that draws an answered sequence goes wrong, for its record
    is still there. -/
theorem InStep.request_iff (hw : w.InStep) (callback published : Bool) :
    (w.next (.request callback published)).Once ∧ w.Resent (.request callback published) ↔
      ¬ w.Again (.request callback published) := by
  obtain ⟨hcalls, -, hdrawn⟩ := request_keeps w callback published
  have honce : (w.next (.request callback published)).Once := by
    rw [Once, hcalls, hdrawn]
    exact ⟨hw.once.1, hw.once.drawn_append _⟩
  constructor
  · rintro ⟨-, hsent⟩ hagain
    have hagain : w.answered w.mSequenceGenerate.pending = true := hagain
    refine hsent callback published rfl hagain ?_
    -- an answered sequence has a record, as nothing takes one out
    rw [request_taken (hw.found _ hagain)]
  · intro hnot
    refine ⟨honce, fun _ _ _ hanswered => ?_⟩
    exact absurd hanswered hnot

/-- **What a delivery brings**: only one for an answered request calls a second time. -/
theorem InStep.delivery_iff (hw : w.InStep) (msg : Option (ExchangeMsg β)) :
    (w.next (.delivery msg)).Once ∧ w.Resent (.delivery msg) ↔ ¬ w.Again (.delivery msg) := by
  have hresent : w.Resent (.delivery msg) := fun _ _ he => by cases he
  rw [and_iff_left hresent]
  rcases msg with _ | msg
  · exact iff_of_true hw.once not_false
  rcases hitem : w.mRouteRecordMap msg.sequence with _ | item
  · rw [delivery_unknown hitem]
    refine iff_of_true hw.once ?_
    rintro ⟨-, request, hsome⟩
    rw [hitem] at hsome
    cases hsome
  obtain ⟨sequence, callback⟩ := item
  obtain ⟨hsequence, hdrawn⟩ := hw.record _ _ hitem
  obtain rfl : sequence = msg.sequence := hsequence
  rw [delivery_found hitem]
  rcases callback with _ | r
  · have hkeep : w.calls ++ ((none : Option Nat).map fun request => (request, msg)).toList = w.calls :=
      List.append_nil _
    refine iff_of_true ?_ ?_
    · rw [Once, hkeep]
      exact hw.once
    · rintro ⟨-, request, hsome⟩
      rw [hitem] at hsome
      cases hsome
  · have hagain : w.Again (.delivery (some msg)) ↔ r ∈ w.calls.map Prod.fst := by
      rw [← hw.called_iff _ r hitem]
      exact and_iff_left ⟨r, hitem⟩
    rw [hagain, Once]
    show ((w.calls ++ [(r, msg)]).map Prod.fst).Nodup ∧
      (∀ c ∈ w.calls ++ [(r, msg)], w.drawn[c.1]? = some c.2.sequence) ↔ _
    -- the new call is with the message of its own request in any case
    have hbear : ∀ c ∈ w.calls ++ [(r, msg)], w.drawn[c.1]? = some c.2.sequence := by
      rw [List.forall_mem_append, List.forall_mem_singleton]
      exact ⟨hw.once.2, hdrawn r rfl⟩
    rw [and_iff_left hbear, List.map_append, List.map_singleton, List.nodup_append_comm]
    exact List.nodup_cons.trans (and_iff_left hw.once.1)

/-- A request that draws no answered sequence leaves all in step. -/
theorem InStep.request (hw : w.InStep) {callback published : Bool}
    (hnot : ¬ w.Again (.request callback published)) :
    (w.next (.request callback published)).InStep := by
  obtain ⟨hcalls, hanswered, hdrawn⟩ := request_keeps w callback published
  have honce : (w.next (.request callback published)).Once :=
    ((hw.request_iff callback published).mpr hnot).1
  -- what was drawn before is still there, at its place
  have hold : ∀ n item, w.mRouteRecordMap n = some item →
      item.sequence = n ∧ ∀ r, item.callback = some r →
        (w.drawn ++ [w.mSequenceGenerate.pending])[r]? = some n := by
    intro n item hitem
    obtain ⟨hsequence, hat⟩ := hw.record n item hitem
    refine ⟨hsequence, fun r hr => ?_⟩
    have hr := hat r hr
    rw [List.getElem?_append_left (List.getElem?_eq_some_iff.mp hr).1]
    exact hr
  by_cases hfree : w.mRouteRecordMap w.mSequenceGenerate.pending = none
  · have hmap : (w.next (.request callback published)).mRouteRecordMap =
        Function.update w.mRouteRecordMap w.mSequenceGenerate.pending
          (some ⟨w.mSequenceGenerate.pending, if callback then some w.drawn.length else none⟩) :=
      congrArg (fun p => p.2.mRouteRecordMap) (request_free hfree callback published)
    refine ⟨honce, ?_, ?_, ?_⟩
    · intro n item hitem
      rw [hmap] at hitem
      rw [hdrawn]
      by_cases hn : n = w.mSequenceGenerate.pending
      · subst hn
        rw [Function.update_self] at hitem
        cases hitem
        refine ⟨rfl, fun r hr => ?_⟩
        cases callback
        · cases hr
        · cases hr
          exact List.getElem?_concat_length
      · rw [Function.update_of_ne hn] at hitem
        exact hold n item hitem
    · intro n hn
      rw [hanswered] at hn
      rw [hmap]
      by_cases hpending : n = w.mSequenceGenerate.pending
      · subst hpending
        rw [Function.update_self]
        exact Option.some_ne_none _
      · rw [Function.update_of_ne hpending]
        exact hw.found n hn
    · intro n r hr
      rw [hmap] at hr
      rw [hanswered, hcalls]
      by_cases hpending : n = w.mSequenceGenerate.pending
      · -- the new request: neither answered nor called back
        subst hpending
        rw [Function.update_self] at hr
        obtain ⟨-, hr⟩ := RouteItem.mk.inj (Option.some.inj hr)
        cases callback
        · cases hr
        · cases hr
          refine iff_of_false hnot fun hmem => ?_
          exact Nat.lt_irrefl _ (hw.once.lt_length hmem)
      · rw [Function.update_of_ne hpending] at hr
        exact hw.called_iff n r hr
  · have hmap : (w.next (.request callback published)).mRouteRecordMap = w.mRouteRecordMap :=
      congrArg (fun p => p.2.mRouteRecordMap) (request_taken hfree callback published)
    refine ⟨honce, ?_, ?_, ?_⟩
    · rw [hmap, hdrawn]
      exact hold
    · rw [hmap, hanswered]
      exact hw.found
    · rw [hmap, hanswered, hcalls]
      exact hw.called_iff

/-- A delivery that comes for no answered request leaves all in step. -/
theorem InStep.delivery (hw : w.InStep) {msg : Option (ExchangeMsg β)}
    (hnot : ¬ w.Again (.delivery msg)) : (w.next (.delivery msg)).InStep := by
  have honce : (w.next (.delivery msg)).Once := ((hw.delivery_iff msg).mpr hnot).1
  rcases msg with _ | msg
  · exact hw
  rcases hitem : w.mRouteRecordMap msg.sequence with _ | item
  · rw [delivery_unknown hitem]
    exact hw
  rw [delivery_found hitem] at honce ⊢
  refine ⟨honce, hw.record, ?_, ?_⟩
  · intro n hn
    by_cases h : n = msg.sequence
    · rw [h]
      exact Option.ne_none_iff_exists'.mpr ⟨item, hitem⟩
    · refine hw.found n ?_
      rw [← hn]
      exact (Function.update_of_ne h true w.answered).symm
  · intro n r hr
    show Function.update w.answered msg.sequence true n = true ↔
      r ∈ (w.calls ++ (item.callback.map fun request => (request, msg)).toList).map Prod.fst
    rw [List.map_append, List.mem_append]
    by_cases h : n = msg.sequence
    · subst h
      rw [hitem] at hr
      cases hr
      rw [Function.update_self]
      exact iff_of_true rfl (Or.inr (List.mem_singleton_self r))
    · rw [Function.update_of_ne h, hw.called_iff n r hr]
      refine (or_iff_left fun hmem => h ?_).symm
      -- the callback is that of the message's own request, which drew its sequence
      obtain ⟨hsequence, hat⟩ := hw.record _ _ hitem
      rcases hcallback : item.callback with _ | r'
      · rw [hcallback] at hmem
        cases hmem
      · rw [hcallback] at hmem
        obtain rfl : r = r' := List.mem_singleton.mp hmem
        have hmine := (hw.record n _ hr).2 r rfl
        rw [hat r hcallback] at hmine
        exact (Option.some.inj hmine).symm

end Steps

/-! ## Runs -/

/-- **Callbacks are called once, and answered sequences used again, exactly as long as nothing comes
    twice**: whatever the requests and the deliveries, in every order. -/
theorem callbacks_once_iff (es : List (Event β)) :
    (∀ v ∈ Runs.visits next create es, (v.1.next v.2).Once ∧ v.1.Resent v.2) ↔
      ∀ v ∈ Runs.visits next create es, ¬ v.1.Again v.2 := by
  refine @Runs.forall_visits_iff _ _ next InStep (fun _ _ => True)
    (fun w e => (w.next e).Once ∧ w.Resent e) (fun w e => ¬ w.Again e) ?_ ?_ _ inStep_create es
    fun _ _ => trivial
  · intro w e hw _
    cases e with
    | request callback published => exact hw.request_iff callback published
    | delivery msg => exact hw.delivery_iff msg
  · intro w e hw _ hnot
    cases e with
    | request callback published => exact hw.request hnot
    | delivery msg => exact hw.delivery hnot

/-- The answer to the first request comes twice, and calls `onResponse` twice. -/
theorem answer_twice_called_twice :
    ¬ ∀ es : List (Event Unit), ∀ v ∈ Runs.visits next create es,
      (v.1.next v.2).Once ∧ v.1.Resent v.2 := by
  intro h
  have hes := h [.request true true, .delivery (some ⟨0, ()⟩), .delivery (some ⟨0, ()⟩)] _
    (List.mem_cons_of_mem _ (List.mem_cons_of_mem _ List.mem_cons_self))
  have hcalls : ¬ ([0, 0] : List Nat).Nodup := by decide
  exact hcalls hes.1.1

/-! ## After a round -/

/-- What the table and the generator keep in every run: a record for each sequence drawn, and the
    draws those of the generator. -/
structure Counted (w : ExchangeService β) : Prop where
  generator : w.mSequenceGenerate = (SequenceGenerator.new 0 0xFFFFFF).after w.drawn.length
  recorded : ∀ k < w.drawn.length,
    w.mRouteRecordMap ((SequenceGenerator.new 0 0xFFFFFF).after k).pending ≠ none

theorem counted_create : Counted (create : ExchangeService β) :=
  ⟨rfl, fun k hk => absurd hk (Nat.not_lt_zero k)⟩

/-- A draw keeps it, if no record is taken away and the sequence drawn has one then. -/
theorem Counted.draw {w w' : ExchangeService β} (hw : w.Counted)
    (hlength : w'.drawn.length = w.drawn.length + 1)
    (hnext : w'.mSequenceGenerate = w.mSequenceGenerate.next.2)
    (hkeep : ∀ k, w.mRouteRecordMap k ≠ none → w'.mRouteRecordMap k ≠ none)
    (hnew : w'.mRouteRecordMap w.mSequenceGenerate.pending ≠ none) : w'.Counted where
  generator := by
    rw [hnext, hlength, SequenceGenerator.after_succ, hw.generator]
  recorded := by
    intro k hk
    rw [hlength] at hk
    rcases Nat.lt_succ_iff_lt_or_eq.mp hk with hlt | rfl
    · exact hkeep _ (hw.recorded k hlt)
    · rwa [← hw.generator]

theorem Counted.request {w : ExchangeService β} (hw : w.Counted) (callback published : Bool) :
    (w.next (.request callback published)).Counted := by
  have hdrawn := (request_keeps w callback published).2.2
  have hlength : (w.next (.request callback published)).drawn.length = w.drawn.length + 1 := by
    rw [hdrawn, List.length_append, List.length_singleton]
  by_cases hfree : w.mRouteRecordMap w.mSequenceGenerate.pending = none
  · have hnext := congrArg Prod.snd (request_free hfree callback published)
    have hmap : (w.next (.request callback published)).mRouteRecordMap = _ :=
      congrArg mRouteRecordMap hnext
    refine hw.draw hlength (congrArg mSequenceGenerate hnext) (fun k hk => ?_) ?_
    · have hother : k ≠ w.mSequenceGenerate.pending := fun heq => hk (heq ▸ hfree)
      rw [hmap]
      show Function.update w.mRouteRecordMap _ _ _ ≠ none
      rwa [Function.update_of_ne hother]
    · rw [hmap]
      show Function.update w.mRouteRecordMap _ _ _ ≠ none
      rw [Function.update_self]
      exact Option.some_ne_none _
  · -- the sequence was taken already
    have hnext := congrArg Prod.snd (request_taken hfree callback published)
    have hmap : (w.next (.request callback published)).mRouteRecordMap = w.draw.mRouteRecordMap :=
      congrArg mRouteRecordMap hnext
    refine hw.draw hlength (congrArg mSequenceGenerate hnext) (fun k hk => ?_) ?_
    · rw [hmap]
      exact hk
    · rw [hmap]
      exact hfree

theorem Counted.delivery {w : ExchangeService β} (hw : w.Counted) (msg : Option (ExchangeMsg β)) :
    (w.next (.delivery msg)).Counted := by
  rcases msg with _ | msg
  · exact hw
  rcases hitem : w.mRouteRecordMap msg.sequence with _ | item
  · rw [delivery_unknown hitem]
    exact hw
  · rw [delivery_found hitem]
    exact ⟨hw.generator, hw.recorded⟩

/-- **After a round nothing is sent any more**, whatever has been answered: each sequence has been
    drawn, and its record stays. -/
theorem nothing_sent_after_round (es : List (Event β))
    (hround : 2 ^ 24 ≤ (es.foldl next (create : ExchangeService β)).drawn.length)
    (callback published : Bool) :
    ((es.foldl next create).requestForExchange callback published).1 = .notSaved := by
  have hcounted : (es.foldl next (create : ExchangeService β)).Counted := by
    refine Runs.foldl_inv_of Counted (fun _ _ => True) (fun w e hw _ => ?_)
      counted_create es fun _ _ => trivial
    cases e with
    | request callback published => exact hw.request callback published
    | delivery msg => exact hw.delivery msg
  generalize es.foldl next create = w at hround hcounted
  have hcircle := SequenceGenerator.after_next (show (-2 ^ 31 : Int) ≤ 0 by decide)
    (show (0 : Int) ≤ 0xFFFFFF by decide) (show (0xFFFFFF : Int) < 2 ^ 31 - 1 by decide)
  have hsize : ((0xFFFFFF : Int) - 0 + 1).toNat = 2 ^ 24 := by decide
  rw [hsize] at hcircle
  have hlt : w.drawn.length % 2 ^ 24 < w.drawn.length :=
    Nat.lt_of_lt_of_le (Nat.mod_lt _ (by decide)) hround
  -- the same place of an earlier round
  have hsame : ((SequenceGenerator.new 0 0xFFFFFF).after (w.drawn.length % 2 ^ 24)).pending =
      w.mSequenceGenerate.pending := by
    rw [hcounted.generator]
    refine (hcircle _).trans ((hcircle _).trans ?_).symm
    rw [Nat.mod_mod]
  have htaken : w.mRouteRecordMap w.mSequenceGenerate.pending ≠ none := by
    rw [← hsame]
    exact hcounted.recorded _ hlt
  rw [request_taken htaken]

end ExchangeService

end Monsys
