/-
  Who is told what, by the Python server (`webapi_server.py`, `fgw_server.py`, `dispatcher.py`).

  1. **Connections** — `Mapped`: the dispatcher's maps lead to handlers that run, and `fgw_manager`
     to those that have logged in with the id.  `Fair`: who was told is who has asked, or has come
     by his address.
  2. **Runs** — `answers_reach_askers`.
-/
import Monsys.Lib.Runs
import Monsys.WebApiLinks

namespace Monsys

namespace Center

open FgwServer (Cmd Session SessionCtrl FgwHandler Served Request Row)

variable {κ β : Type} {c c' : Center κ β} {m : Nat} {f f' : Fgw κ β} {out : List (Output κ β)}

/-! ## Connections -/

/-- The dispatcher's maps, and `fgw_manager`'s. -/
structure Mapped (c : Center κ β) : Prop where
  webMap : ∀ g n, c.webMap g = some n → ∃ w, c.webs[n]? = some w ∧ w.id = g ∧ w.running = true
  running : ∀ (n : Nat) (w : Web), c.webs[n]? = some w → w.running = true →
    c.webMap w.id = some n
  earlier : ∀ (n n' : Nat) (w w' : Web), c.webs[n]? = some w → c.webs[n']? = some w' → n < n' →
    w.id = w'.id → w.running = false
  fgwMap : ∀ g m, c.fgwMap g = some m → ∃ f, c.fgws[m]? = some f ∧ f.id = g
  fgwRunning : ∀ (m : Nat) (f : Fgw κ β), c.fgws[m]? = some f → f.running = true →
    c.fgwMap f.id = some m
  manager : ∀ dev g, c.manager.findHandler dev = some g → ∃ m f, c.fgwMap g = some m ∧
    c.fgws[m]? = some f ∧ f.fgwId = some dev

/-- Who is told is who has asked, or has his address since he is gone; and the request went to the
    gateway that was named. -/
def Right (c : Center κ β) (before : List (Output κ β)) (n m r : Nat) (cmd : Cmd) (seq : Nat)
    (data : β) : Prop :=
  ∃ a, Heard before m seq r cmd a data ∧ NotTold before m r ∧
    (∃ w w', c.webs[n]? = some w ∧ c.webs[a.client]? = some w' ∧ w'.id = w.id ∧
      (a.client = n ∨ a.client < n ∧ w'.running = false)) ∧
    ∃ f, c.fgws[m]? = some f ∧ f.fgwId = some a.fgw

structure Fair (c : Center κ β) : Prop where
  mapped : c.Mapped
  linked : ∀ m f, c.fgws[m]? = some f → Linked c m f
  told : ∀ before after n m r cmd seq key data,
    c.trace = before ++ .told n m r cmd seq key data :: after → Right c before n m r cmd seq data

theorem fair_init : (init : Center κ β).Fair where
  mapped := ⟨fun g n h => (by cases h), fun n w h => (by cases h), fun n n' w w' h => (by cases h),
    fun g m h => (by cases h), fun m f h => (by cases h), fun dev g h => (by cases h)⟩
  linked := fun m f h => by cases h
  told := by
    intro before after n m r cmd seq key data h
    cases before <;> cases h

/-- Gateways come, and stay who they are once they have logged in. -/
def FgwsGrow (c c' : Center κ β) : Prop :=
  ∀ (m : Nat) (f : Fgw κ β), c.fgws[m]? = some f → ∃ f', c'.fgws[m]? = some f' ∧
    ∀ dev, f.fgwId = some dev → f'.fgwId = some dev

theorem Right.grow (hwebs : WebsGrow c c') (hfgws : FgwsGrow c c') {before : List (Output κ β)}
    {n m r : Nat} {cmd : Cmd} {seq : Nat} {data : β} (h : Right c before n m r cmd seq data) :
    Right c' before n m r cmd seq data := by
  obtain ⟨a, hheard, hnot, ⟨w, w', hw, hw', hid, hclient⟩, f, hf, hfgw⟩ := h
  obtain ⟨v, hv, hvid, -⟩ := hwebs n w hw
  obtain ⟨v', hv', hvid', hgone⟩ := hwebs a.client w' hw'
  obtain ⟨f', hf', hfgw'⟩ := hfgws m f hf
  exact ⟨a, hheard, hnot, ⟨v, v', hv, hv', hvid'.trans (hid.trans hvid.symm),
    hclient.imp_right fun ⟨hlt, hrunning⟩ => ⟨hlt, hgone hrunning⟩⟩, f', hf', hfgw' _ hfgw⟩

/-- What a step has to see to. -/
theorem Fair.step (h : c.Fair) (hmapped : c'.Mapped) (hwebs : WebsGrow c c') (hfgws : FgwsGrow c c')
    (htrace : c'.trace = c.trace ++ out) (hlinked : ∀ m f, c'.fgws[m]? = some f → Linked c' m f)
    (htold : ∀ before after n m r cmd seq key data,
      out = before ++ .told n m r cmd seq key data :: after →
      Right c' (c.trace ++ before) n m r cmd seq data) : c'.Fair where
  mapped := hmapped
  linked := hlinked
  told := by
    intro before after n m r cmd seq key data heq
    rw [htrace] at heq
    rcases List.append_eq_append_iff.mp heq with ⟨xs, rfl, hout⟩ | ⟨xs, hold, hrest⟩
    · exact htold xs after n m r cmd seq key data hout
    · cases xs with
      | nil =>
        rw [List.append_nil] at hold
        rw [List.nil_append] at hrest
        have hnew := htold [] after n m r cmd seq key data hrest.symm
        rw [List.append_nil, hold] at hnew
        exact hnew
      | cons x xs =>
        obtain ⟨rfl, rfl⟩ := List.cons.inj hrest
        exact (h.told before xs n m r cmd seq key data hold).grow hwebs hfgws

/-- Nobody is asked or told, and the gateways' handlers stay as they are. -/
theorem Fair.frame (h : c.Fair) (hmapped : c'.Mapped) (hwebs : WebsGrow c c')
    (hfgws : c'.fgws = c.fgws) (htrace : c'.trace = c.trace ++ out)
    (hquiet : ∀ o ∈ out, ∀ m k, ¬ o.Asks m k ∧ ¬ o.Tells m k) : c'.Fair := by
  refine h.step hmapped hwebs (fun m f hf => ⟨f, by rw [hfgws]; exact hf, fun _ => id⟩) htrace ?_ ?_
  · intro m f hf
    rw [hfgws] at hf
    exact (h.linked m f hf).frame hwebs htrace (fun k o ho => (hquiet o ho m k).1)
      fun r o ho => (hquiet o ho m r).2
  · intro before after n m r cmd seq key data hout
    refine absurd ⟨rfl, rfl⟩ (hquiet (.told n m r cmd seq key data) ?_ m r).2
    rw [hout]
    exact List.mem_append_right _ List.mem_cons_self

theorem Fair.put_quiet (h : c.Fair)
    (hquiet : ∀ o ∈ out, ∀ m k, ¬ o.Asks m k ∧ ¬ o.Tells m k) : (c.put out).Fair :=
  h.frame ⟨h.mapped.webMap, h.mapped.running, h.mapped.earlier, h.mapped.fgwMap,
    h.mapped.fgwRunning, h.mapped.manager⟩ (websGrow_of_eq rfl) rfl rfl hquiet

theorem getElem?_set_cases {α : Type} {xs : List α} {i j : Nat} {x y : α}
    (h : (xs.set i x)[j]? = some y) : j = i ∧ y = x ∨ j ≠ i ∧ xs[j]? = some y := by
  by_cases hj : j = i
  · subst hj
    have hlt : j < xs.length := by
      have := (List.getElem?_eq_some_iff.mp h).1
      rwa [List.length_set] at this
    rw [List.getElem?_set_self hlt] at h
    exact Or.inl ⟨rfl, (Option.some.inj h).symm⟩
  · rw [List.getElem?_set_ne (Ne.symm hj)] at h
    exact Or.inr ⟨hj, h⟩

theorem websGrow_set {n : Nat} {w : Web} (w' : Web) (hw : c.webs[n]? = some w) (hid : w'.id = w.id)
    (hrunning : w.running = false → w'.running = false) (hwebs : c'.webs = c.webs.set n w') :
    WebsGrow c c' := by
  intro n' v hv
  rw [hwebs]
  by_cases hn : n' = n
  · subst hn
    obtain rfl := Option.some.inj (hw.symm.trans hv)
    exact ⟨w', List.getElem?_set_self (List.getElem?_eq_some_iff.mp hw).1, hid, hrunning⟩
  · exact ⟨v, by rw [List.getElem?_set_ne (Ne.symm hn)]; exact hv, rfl, id⟩

/-- A web client's event loop goes on, or does not. -/
theorem Fair.setWeb (h : c.Fair) {n : Nat} {w : Web} (hw : c.webs[n]? = some w)
    (eventLoop : Greenlet) : (c.setWeb n { w with eventLoop := eventLoop }).Fair := by
  have hset : ∀ {n' : Nat} {v : Web},
      (c.webs.set n { w with eventLoop := eventLoop })[n']? = some v →
      ∃ v', c.webs[n']? = some v' ∧ v'.id = v.id ∧ v'.running = v.running := by
    intro n' v hv
    rcases getElem?_set_cases hv with ⟨rfl, rfl⟩ | ⟨-, hv⟩
    · exact ⟨w, hw, rfl, rfl⟩
    · exact ⟨v, hv, rfl, rfl⟩
  have hgrow : WebsGrow c (c.setWeb n { w with eventLoop := eventLoop }) :=
    websGrow_set { w with eventLoop := eventLoop } hw rfl id rfl
  refine h.frame ⟨?_, ?_, ?_, h.mapped.fgwMap, h.mapped.fgwRunning, h.mapped.manager⟩ hgrow rfl
    (List.append_nil _).symm (List.forall_mem_nil _)
  · intro g n' hn'
    obtain ⟨v, hv, hid, hrunning⟩ := h.mapped.webMap g n' hn'
    by_cases hn : n' = n
    · subst hn
      obtain rfl := Option.some.inj (hw.symm.trans hv)
      exact ⟨{ w with eventLoop := eventLoop },
        List.getElem?_set_self (List.getElem?_eq_some_iff.mp hw).1, hid, hrunning⟩
    · exact ⟨v, (List.getElem?_set_ne (Ne.symm hn)).trans hv, hid, hrunning⟩
  · intro n' v hv hrunning
    obtain ⟨v', hv', hid, hsame⟩ := hset hv
    rw [← hid]
    exact h.mapped.running n' v' hv' (hsame.trans hrunning)
  · intro n₁ n₂ v₁ v₂ hv₁ hv₂ hlt hid
    obtain ⟨v₁', hv₁', hid₁, hsame⟩ := hset hv₁
    obtain ⟨v₂', hv₂', hid₂, -⟩ := hset hv₂
    rw [← hsame]
    exact h.mapped.earlier n₁ n₂ v₁' v₂' hv₁' hv₂' hlt (hid₁.trans (hid.trans hid₂.symm))

theorem Fair.webConnect (h : c.Fair) (id : Nat) : (c.webConnect id).Fair := by
  unfold Center.webConnect
  split
  · exact h
  · next hfree =>
    rw [Bool.not_eq_true, Option.isSome_eq_false_iff, Option.isNone_iff_eq_none] at hfree
    have hnew : ∀ {n : Nat} {w : Web}, (c.webs ++ [{ id := id }])[n]? = some w →
        n = c.webs.length ∧ w = { id := id } ∨ n < c.webs.length ∧ c.webs[n]? = some w := by
      intro n w hw
      rcases Nat.lt_trichotomy n c.webs.length with hlt | rfl | hgt
      · rw [List.getElem?_append_left hlt] at hw
        exact Or.inr ⟨hlt, hw⟩
      · rw [List.getElem?_concat_length] at hw
        exact Or.inl ⟨rfl, (Option.some.inj hw).symm⟩
      · rw [List.getElem?_eq_none (by rw [List.length_append]; exact hgt)] at hw
        cases hw
    have hold : ∀ {n : Nat} {w : Web}, c.webs[n]? = some w →
        (c.webs ++ [{ id := id }])[n]? = some w := by
      intro n w hw
      rw [List.getElem?_append_left (List.getElem?_eq_some_iff.mp hw).1]
      exact hw
    -- nobody who runs has the address
    have haway : ∀ {n : Nat} {w : Web}, c.webs[n]? = some w → w.id = id → w.running = false := by
      intro n w hw hid
      by_contra hrunning
      have hmap := h.mapped.running n w hw (Bool.not_eq_false _ ▸ hrunning)
      rw [hid, hfree] at hmap
      cases hmap
    refine h.frame ⟨?_, ?_, ?_, h.mapped.fgwMap, h.mapped.fgwRunning, h.mapped.manager⟩
      (fun n w hw => ⟨w, hold hw, rfl, fun hr => hr⟩) rfl (List.append_nil _).symm
      (List.forall_mem_nil _)
    · intro g n hn
      change Function.update c.webMap id _ g = some n at hn
      by_cases hg : g = id
      · subst hg
        rw [Function.update_self] at hn
        obtain rfl := Option.some.inj hn
        exact ⟨{ id := g }, List.getElem?_concat_length, rfl, rfl⟩
      · rw [Function.update_of_ne hg] at hn
        obtain ⟨w, hw, hrest⟩ := h.mapped.webMap g n hn
        exact ⟨w, hold hw, hrest⟩
    · intro n w hw hrunning
      show Function.update c.webMap id _ w.id = some n
      rcases hnew hw with ⟨rfl, rfl⟩ | ⟨-, hw⟩
      · exact Function.update_self _ _ _
      · rw [Function.update_of_ne]
        · exact h.mapped.running n w hw hrunning
        · intro hid
          rw [haway hw hid] at hrunning
          cases hrunning
    · intro n n' w w' hw hw' hlt hid
      rcases hnew hw with ⟨rfl, rfl⟩ | ⟨-, hw⟩
      · rcases hnew hw' with ⟨rfl, -⟩ | ⟨hlt', -⟩ <;> omega
      · rcases hnew hw' with ⟨rfl, rfl⟩ | ⟨-, hw'⟩
        · exact haway hw hid
        · exact h.mapped.earlier n n' w w' hw hw' hlt hid

theorem Fair.webEnd (h : c.Fair) {n : Nat} {w : Web} (hw : c.webs[n]? = some w)
    (hrun : w.running = true) : (c.webEnd n w).Fair := by
  have hown := h.mapped.running n w hw hrun
  have hset : ∀ {n' : Nat} {v : Web}, (c.webs.set n { w with running := false })[n']? = some v →
      ∃ v', c.webs[n']? = some v' ∧ v'.id = v.id ∧ (v'.running = false → v.running = false) := by
    intro n' v hv
    rcases getElem?_set_cases hv with ⟨rfl, rfl⟩ | ⟨-, hv⟩
    · exact ⟨w, hw, rfl, fun _ => rfl⟩
    · exact ⟨v, hv, rfl, fun hr => hr⟩
  refine h.frame ⟨?_, ?_, ?_, h.mapped.fgwMap, h.mapped.fgwRunning, h.mapped.manager⟩
    (websGrow_set { w with running := false } hw rfl (fun _ => rfl) rfl) rfl
    (List.append_nil _).symm (List.forall_mem_nil _)
  · intro g n' hn'
    change Function.update c.webMap w.id none g = some n' at hn'
    by_cases hg : g = w.id
    · rw [hg, Function.update_self] at hn'
      cases hn'
    · rw [Function.update_of_ne hg] at hn'
      obtain ⟨v, hv, hid, hrunning⟩ := h.mapped.webMap g n' hn'
      refine ⟨v, ?_, hid, hrunning⟩
      show (c.webs.set n _)[n']? = some v
      rw [List.getElem?_set_ne]
      · exact hv
      · rintro rfl
        obtain rfl := Option.some.inj (hw.symm.trans hv)
        exact hg hid.symm
  · intro n' v hv hrunning
    show Function.update c.webMap w.id none v.id = some n'
    rcases getElem?_set_cases hv with ⟨rfl, rfl⟩ | ⟨hne, hv⟩
    · cases hrunning
    · have hmap := h.mapped.running n' v hv hrunning
      rw [Function.update_of_ne]
      · exact hmap
      · intro hid
        rw [hid, hown] at hmap
        exact hne (Option.some.inj hmap).symm
  · intro n₁ n₂ v₁ v₂ hv₁ hv₂ hlt hid
    obtain ⟨v₁', hv₁', hid₁, hsame⟩ := hset hv₁
    obtain ⟨v₂', hv₂', hid₂, -⟩ := hset hv₂
    exact hsame (h.mapped.earlier n₁ n₂ v₁' v₂' hv₁' hv₂' hlt (hid₁.trans (hid.trans hid₂.symm)))

theorem fgwsGrow_set {m : Nat} {f : Fgw κ β} (f' : Fgw κ β) (hf : c.fgws[m]? = some f)
    (hfgwId : ∀ dev, f.fgwId = some dev → f'.fgwId = some dev)
    (hfgws : c'.fgws = c.fgws.set m f') : FgwsGrow c c' := by
  intro m' v hv
  rw [hfgws]
  by_cases hm : m' = m
  · subst hm
    obtain rfl := Option.some.inj (hf.symm.trans hv)
    exact ⟨f', List.getElem?_set_self (List.getElem?_eq_some_iff.mp hf).1, hfgwId⟩
  · exact ⟨v, by rw [List.getElem?_set_ne (Ne.symm hm)]; exact hv, fun _ => id⟩

/-- A gateway's handler that stays where it is, as far as the maps are concerned. -/
theorem Mapped.setFgw (h : c.Mapped) {m : Nat} {f : Fgw κ β} (f' : Fgw κ β)
    (hf : c.fgws[m]? = some f) (hid : f'.id = f.id) (hrunning : f'.running = true → f.running = true)
    (hfgwId : ∀ dev, f.fgwId = some dev → f'.fgwId = some dev) : (c.setFgw m f').Mapped where
  webMap := h.webMap
  running := h.running
  earlier := h.earlier
  fgwMap := by
    intro g m' hm'
    obtain ⟨v, hv, hgid⟩ := h.fgwMap g m' hm'
    by_cases hm : m' = m
    · subst hm
      obtain rfl := Option.some.inj (hf.symm.trans hv)
      exact ⟨f', List.getElem?_set_self (List.getElem?_eq_some_iff.mp hf).1, hid.trans hgid⟩
    · exact ⟨v, (List.getElem?_set_ne (Ne.symm hm)).trans hv, hgid⟩
  fgwRunning := by
    intro m' v hv hrun
    rcases getElem?_set_cases hv with ⟨rfl, rfl⟩ | ⟨-, hv⟩
    · rw [hid]
      exact h.fgwRunning m' f hf (hrunning hrun)
    · exact h.fgwRunning m' v hv hrun
  manager := by
    intro dev g hg
    obtain ⟨m', v, hm', hv, hdev⟩ := h.manager dev g hg
    have hgrow : FgwsGrow c (c.setFgw m f') := fgwsGrow_set f' hf hfgwId rfl
    obtain ⟨v', hv', hdev'⟩ := hgrow m' v hv
    exact ⟨m', v', hm', hv', hdev' dev hdev⟩

/-- **A step of a gateway's handler.** -/
theorem Fair.moves (h : c.Fair) {m : Nat} {f f' : Fgw κ β} (hf : c.fgws[m]? = some f)
    (hmoves : Moves c m f f' out) : ((c.setFgw m f').put out).Fair := by
  have hlinked := h.linked m f hf
  have hsame : ∀ dev, f.fgwId = some dev → f'.fgwId = some dev :=
    fun dev hdev => hmoves.fgwId.trans hdev
  have hmapped := h.mapped.setFgw _ hf hmoves.id (fun hr => hmoves.running.symm.trans hr) hsame
  refine h.step ⟨hmapped.webMap, hmapped.running, hmapped.earlier, hmapped.fgwMap,
    hmapped.fgwRunning, hmapped.manager⟩ (websGrow_of_eq rfl)
    (fgwsGrow_set _ hf hsame rfl) rfl ?_ ?_
  · intro m' v hv
    rcases getElem?_set_cases hv with ⟨rfl, rfl⟩ | ⟨hne, hv⟩
    · exact hmoves.linked.still rfl rfl
    · exact (h.linked m' v hv).frame (websGrow_of_eq rfl) rfl
        (fun k o ho => (hmoves.own o ho m' k hne).1) fun r o ho => (hmoves.own o ho m' r hne).2
  · intro before after n m' r cmd seq key data hout
    obtain ⟨rfl, a, ha, hn, hheard, hnot⟩ := hmoves.told before after n m' r cmd seq key data hout
    have hlt : r < f.handler.sessions.length := by
      rw [← hlinked.length]
      exact (List.getElem?_eq_some_iff.mp ha).1
    have ht := FgwHandler.traits_eq (List.getElem?_eq_getElem hlt)
    obtain ⟨hfgw, -, w', hw', hid'⟩ := hlinked.asked r _ _ _ a ht ha
    obtain ⟨w, hw, hid, hrunning⟩ := h.mapped.webMap a.srcAddr n hn
    refine ⟨a, hheard, hnot, ⟨w, w', hw, hw', hid'.trans hid.symm, ?_⟩, f', ?_, hsame _ hfgw⟩
    · rcases Nat.lt_trichotomy a.client n with hlt | heq | hgt
      · exact Or.inr ⟨hlt, h.mapped.earlier a.client n w' w hw' hw hlt (hid'.trans hid.symm)⟩
      · exact Or.inl heq
      · -- whoever has come later has another address
        have hgone := h.mapped.earlier n a.client w w' hw hw' hgt (hid.trans hid'.symm)
        rw [hrunning] at hgone
        cases hgone
    · exact List.getElem?_set_self (List.getElem?_eq_some_iff.mp hf).1

theorem Fair.fgwConnect (h : c.Fair) (id : Nat) : (c.fgwConnect id).Fair := by
  unfold Center.fgwConnect
  split
  · exact h
  · next hfree =>
    rw [Bool.not_eq_true, Option.isSome_eq_false_iff, Option.isNone_iff_eq_none] at hfree
    have hnew : ∀ {m : Nat} {f : Fgw κ β}, (c.fgws ++ [{ id := id }])[m]? = some f →
        m = c.fgws.length ∧ f = { id := id } ∨ c.fgws[m]? = some f := by
      intro m f hf
      rcases Nat.lt_trichotomy m c.fgws.length with hlt | rfl | hgt
      · rw [List.getElem?_append_left hlt] at hf
        exact Or.inr hf
      · rw [List.getElem?_concat_length] at hf
        exact Or.inl ⟨rfl, (Option.some.inj hf).symm⟩
      · rw [List.getElem?_eq_none (by rw [List.length_append]; exact hgt)] at hf
        cases hf
    have hold : ∀ {m : Nat} {f : Fgw κ β}, c.fgws[m]? = some f →
        (c.fgws ++ [{ id := id }])[m]? = some f := by
      intro m f hf
      rw [List.getElem?_append_left (List.getElem?_eq_some_iff.mp hf).1]
      exact hf
    refine h.step ⟨h.mapped.webMap, h.mapped.running, h.mapped.earlier, ?_, ?_, ?_⟩
      (websGrow_of_eq rfl) (fun m f hf => ⟨f, hold hf, fun _ hd => hd⟩) (List.append_nil _).symm
      ?_ ?_
    · intro g m hm
      change Function.update c.fgwMap id _ g = some m at hm
      by_cases hg : g = id
      · subst hg
        rw [Function.update_self] at hm
        obtain rfl := Option.some.inj hm
        exact ⟨{ id := g }, List.getElem?_concat_length, rfl⟩
      · rw [Function.update_of_ne hg] at hm
        obtain ⟨f, hf, hid⟩ := h.mapped.fgwMap g m hm
        exact ⟨f, hold hf, hid⟩
    · intro m f hf hrunning
      show Function.update c.fgwMap id _ f.id = some m
      rcases hnew hf with ⟨rfl, rfl⟩ | hf
      · exact Function.update_self _ _ _
      · have hmap := h.mapped.fgwRunning m f hf hrunning
        rw [Function.update_of_ne]
        · exact hmap
        · intro hid
          rw [hid, hfree] at hmap
          cases hmap
    · intro dev g hg
      obtain ⟨m, f, hm, hf, hdev⟩ := h.mapped.manager dev g hg
      refine ⟨m, f, ?_, hold hf, hdev⟩
      show Function.update c.fgwMap id _ g = some m
      rw [Function.update_of_ne]
      · exact hm
      · rintro rfl
        rw [hfree] at hm
        cases hm
    · intro m f hf
      rcases hnew hf with ⟨rfl, rfl⟩ | hf
      · -- nobody was told of its sessions, as it had not come
        refine ⟨rfl, fun k r hr => (by cases hr), fun g r hr => (by cases hr),
          fun g g' r hr => (by cases hr), ?_, fun r k cmd state a ht => (by cases ht), ?_,
          fun _ => rfl⟩
        · intro k r hr
          rcases hr with hr | hr <;> cases hr
        · intro r _ o ho htells
          cases o with
          | told n m' r' cmd seq key data =>
            obtain ⟨rfl, rfl⟩ := htells
            obtain ⟨before, after, htrace⟩ := List.append_of_mem ho
            obtain ⟨-, -, -, -, f', hf', -⟩ := h.told before after _ _ _ _ _ _ _ htrace
            exact absurd (List.getElem?_eq_some_iff.mp hf').1 (Nat.lt_irrefl _)
          | _ => exact htells
      · exact (h.linked m f hf).still rfl rfl
    · intro before after n m r cmd seq key data hout
      cases before <;> cases hout

/-- What the sessions are does not depend on whether the handler runs. -/
theorem Linked.stop (h : Linked c m f) : Linked c m { f with running := false } :=
  ⟨h.length, h.table, h.calls, h.sole, h.loop, h.asked, h.told, h.waits⟩

/-- The gateway that ends is the one that its id led to, if it led to any handler. -/
theorem Fair.fgwEnd (h : c.Fair) {m : Nat} {f : Fgw κ β} (hf : c.fgws[m]? = some f)
    (hrun : f.running = true) : (c.fgwEnd m f).Fair := by
  have hown := h.mapped.fgwRunning m f hf hrun
  have hmapped := h.mapped.setFgw { f with running := false } hf rfl
    (fun hr => by cases hr) fun _ hd => hd
  have hgrow : FgwsGrow c (c.fgwEnd m f) :=
    fgwsGrow_set { f with running := false } hf (fun _ hd => hd) rfl
  refine h.step ⟨hmapped.webMap, hmapped.running, hmapped.earlier, ?_, ?_, ?_⟩
    (websGrow_of_eq rfl) hgrow (List.append_nil _).symm ?_ ?_
  · intro g m' hm'
    change Function.update c.fgwMap f.id none g = some m' at hm'
    by_cases hg : g = f.id
    · rw [hg, Function.update_self] at hm'
      cases hm'
    · rw [Function.update_of_ne hg] at hm'
      exact hmapped.fgwMap g m' hm'
  · intro m' v hv hrunning
    show Function.update c.fgwMap f.id none v.id = some m'
    rcases getElem?_set_cases hv with ⟨rfl, rfl⟩ | ⟨hne, hv⟩
    · cases hrunning
    · have hmap := h.mapped.fgwRunning m' v hv hrunning
      rw [Function.update_of_ne]
      · exact hmap
      · intro hid
        rw [hid, hown] at hmap
        exact hne (Option.some.inj hmap).symm
  · intro dev g hg
    -- an entry that is left is not that of the gateway that ends
    have hleft : c.manager.findHandler dev = some g ∧ f.fgwId ≠ some dev := by
      unfold Center.fgwEnd at hg
      dsimp only at hg
      cases hfgwId : f.fgwId with
      | none =>
        rw [hfgwId] at hg
        exact ⟨hg, fun hcon => by cases hcon⟩
      | some id =>
        rw [hfgwId] at hg
        by_cases hthere : (c.manager.findHandler id).isSome = true
        · obtain ⟨manager, hremove, hfind⟩ := FgwManager.removeHandler_some hthere
          rw [hremove] at hg
          simp only [hfind] at hg
          split at hg
          · cases hg
          · next hne => exact ⟨hg, fun hcon => hne (Option.some.inj hcon).symm⟩
        · rw [FgwManager.removeHandler, if_neg hthere] at hg
          refine ⟨hg, fun hcon => hthere ?_⟩
          rw [Option.some.inj hcon]
          exact Option.isSome_of_eq_some hg
    obtain ⟨m', v, hm', hv, hdev⟩ := h.mapped.manager dev g hleft.1
    have hgid : g ≠ f.id := by
      rintro rfl
      obtain rfl := Option.some.inj (hown.symm.trans hm')
      obtain rfl := Option.some.inj (hf.symm.trans hv)
      exact hleft.2 hdev
    obtain ⟨v', hv', hdev'⟩ := hgrow m' v hv
    exact ⟨m', v', (Function.update_of_ne hgid _ _).trans hm', hv', hdev' dev hdev⟩
  · intro m' v hv
    rcases getElem?_set_cases hv with ⟨rfl, rfl⟩ | ⟨-, hv⟩
    · exact (h.linked m' f hf).stop.still rfl rfl
    · exact (h.linked m' v hv).still rfl rfl
  · intro before after n m' r cmd seq key data hout
    cases before <;> cases hout

/-- A handler that has not logged in has no sessions whose request it took, and is free to say who
    it is.  -/
theorem Linked.logIn (h : Linked c m f) (hlogged : f.handler.loggedIn = false) (devId : String) :
    Linked c m { f with handler := { f.handler with loggedIn := true }, fgwId := some devId } where
  length := h.length
  table := h.table
  calls := h.calls
  sole := h.sole
  loop := h.loop
  asked := by
    intro r k cmd state a ht ha
    obtain ⟨hfgw, -⟩ := h.asked r k cmd state a ht ha
    rw [h.waits hlogged] at hfgw
    cases hfgw
  told := h.told
  waits := fun hcon => by cases hcon

section Runs

variable [DecidableEq κ] (hashable : κ → Bool)

theorem Fair.login (h : c.Fair) {m : Nat} {f : Fgw κ β} (hf : c.fgws[m]? = some f)
    (hrun : f.running = true) (hready : f.handler.eventLoop = .ready)
    (hlogged : f.handler.loggedIn = false) (msg : LoginMsg String) (row : Counted) :
    (c.login hashable m f msg row).Fair := by
  have hlinked := h.linked m f hf
  have hraised : (c.setFgw m { f with handler := { f.handler with eventLoop := .dead } }).Fair := by
    have hmoves : Moves c m f { f with handler := { f.handler with eventLoop := .dead } } [] :=
      hlinked.moves_heard (kept_eventLoop f.handler .dead)
        (fun k r hbusy => by rcases hbusy with hcon | hcon <;> cases hcon) (List.forall_mem_nil _)
    have hfair := h.moves hf hmoves
    rw [put_nil] at hfair
    exact hfair
  have hrsp : ∀ o : Output κ β, (∀ m' k, ¬ o.Asks m' k ∧ ¬ o.Tells m' k) → (c.put [o]).Fair := by
    intro o ho
    refine h.put_quiet fun o' ho' => ?_
    rw [List.mem_singleton.mp ho']
    exact ho
  unfold Center.login
  simp only
  split
  · split
    · next devId _ _ =>
      cases row with
      | none => exact hrsp _ fun _ _ => ⟨id, id⟩
      | error => exact hraised
      | count k =>
        simp only
        split
        · have hnext : f.handler.next hashable .login = { f.handler with loggedIn := true } := by
            rw [FgwHandler.next, if_pos hready]
          rw [hnext]
          have hnone := hlinked.waits hlogged
          have hfree : ∀ dev, f.fgwId = some dev → (some devId : Option String) = some dev := by
            intro dev hdev
            rw [hnone] at hdev
            cases hdev
          have hmapped := h.mapped.setFgw { f with
            handler := { f.handler with loggedIn := true }, fgwId := some devId } hf rfl
            (fun hr => hr) hfree
          have hown := h.mapped.fgwRunning m f hf hrun
          refine h.step ⟨hmapped.webMap, hmapped.running, hmapped.earlier,
            hmapped.fgwMap, hmapped.fgwRunning, ?_⟩ (websGrow_of_eq rfl)
            (fgwsGrow_set _ hf hfree rfl) rfl ?_ ?_
          · intro dev g hg
            change (c.manager.addHandler devId f.id).findHandler dev = some g at hg
            rw [FgwManager.findHandler_addHandler] at hg
            by_cases hdev : dev = devId
            · subst hdev
              rw [Function.update_self] at hg
              obtain rfl := Option.some.inj hg
              exact ⟨m, _, hown, List.getElem?_set_self (List.getElem?_eq_some_iff.mp hf).1, rfl⟩
            · rw [Function.update_of_ne hdev] at hg
              exact hmapped.manager dev g hg
          · intro m' v hv
            have hone : ∀ o ∈ ([.loginRsp m 0] : List (Output κ β)), ∀ m' k,
                ¬ o.Asks m' k ∧ ¬ o.Tells m' k := by
              intro o ho m' k
              rw [List.mem_singleton.mp ho]
              exact ⟨id, id⟩
            rcases getElem?_set_cases hv with ⟨rfl, rfl⟩ | ⟨-, hv⟩
            · exact (hlinked.logIn hlogged devId).frame (websGrow_of_eq rfl) rfl
                (fun k o ho => (hone o ho m' k).1) fun r o ho => (hone o ho m' r).2
            · exact (h.linked m' v hv).frame (websGrow_of_eq rfl) rfl
                (fun k o ho => (hone o ho m' k).1) fun r o ho => (hone o ho m' r).2
          · intro before after n m' r cmd seq key data hout
            cases before with
            | nil => cases hout
            | cons o before =>
              obtain ⟨-, hcon⟩ := List.cons.inj hout
              cases before <;> cases hcon
        · exact hrsp _ fun _ _ => ⟨id, id⟩
    · exact hraised
  · exact h

/-- **A web client's message** is taken. -/
theorem Fair.webEvent (h : c.Fair) {n : Nat} {w : Web} (hw : c.webs[n]? = some w)
    (msg : WebMsg κ β) (now : Int) : (c.webEvent hashable n w msg now).Fair := by
  unfold Center.webEvent
  simp only
  split
  · exact h
  · exact h
  · split
    · exact h.setWeb hw _
    · exact h.setWeb hw _
  · next cmd _ =>
    split
    · exact h.setWeb hw _
    · next fgw _ =>
      split
      · exact h
      · next id hid =>
        split
        · exact h.setWeb hw _
        · next m hm =>
          split
          · exact h
          · exact h.setWeb hw _
          · next f seq hf _ =>
            have hgot : (c.put [.got n cmd fgw msg.data]).Fair := by
              refine h.put_quiet fun o ho m' k => ?_
              rw [List.mem_singleton.mp ho]
              exact ⟨fun hcon => hcon, fun hcon => hcon⟩
            -- the handler that the manager leads to is that of the gateway
            have hfgw : f.fgwId = some fgw := by
              obtain ⟨m', f', hm', hf', hdev⟩ := h.mapped.manager fgw id hid
              obtain rfl := Option.some.inj (hm.symm.trans hm')
              obtain rfl := Option.some.inj (hf.symm.trans hf')
              exact hdev
            obtain ⟨f', out, eventLoop, heq, hmoves⟩ :=
              (hgot.linked m f hf).moves_onInner hashable hw
                (List.mem_append_right _ List.mem_cons_self) hfgw seq now
            rw [heq]
            exact (hgot.moves hf hmoves).setWeb hw eventLoop

/-- **Every step** tells only those who have asked. -/
theorem Fair.next (h : c.Fair) (e : Event κ β) : (c.next hashable e).Fair := by
  cases e with
  | webConnect id => exact h.webConnect id
  | fgwConnect id => exact h.fgwConnect id
  | webEnd n =>
    simp only [Center.next]
    split
    · next w hw =>
      split
      · next hends => exact h.webEnd hw hends.1
      · exact h
    · exact h
  | webMessage n msg now =>
    simp only [Center.next]
    split
    · next w hw =>
      split
      · exact h.webEvent hashable hw msg now
      · exact h
    · exact h
  | answered n row =>
    simp only [Center.next]
    split
    · next w hw =>
      split
      · next m _ =>
        split
        · next f hf =>
          rcases (h.linked m f hf).moves_answered hashable n w row with
            heq | ⟨f', out, loop, heq, hmoves⟩
          · rw [heq]
            exact h
          · rw [heq]
            exact (h.moves hf hmoves).setWeb hw loop
        · exact h
      · exact h
    · exact h
  | listed n row =>
    simp only [Center.next]
    split
    · next w hw =>
      split
      · have hone : ∀ (o : Output κ β) (loop : Greenlet),
            (∀ m' k, ¬ o.Asks m' k ∧ ¬ o.Tells m' k) →
            ((c.setWeb n { w with eventLoop := loop }).put [o]).Fair := by
          intro o loop ho
          refine (h.setWeb hw loop).put_quiet fun o' ho' => ?_
          rw [List.mem_singleton.mp ho']
          exact ho
        cases row with
        | error => exact h.setWeb hw _
        | none => exact hone _ _ fun _ _ => ⟨id, id⟩
        | text s => exact hone _ _ fun _ _ => ⟨id, id⟩
      · exact h
    · exact h
  | fgwEnd m =>
    simp only [Center.next]
    split
    · next f hf =>
      split
      · next hends => exact h.fgwEnd hf hends.1
      · exact h
    · exact h
  | login m msg row =>
    simp only [Center.next]
    split
    · next f hf =>
      split
      · next hwaits => exact h.login hashable hf hwaits.1 hwaits.2.1 hwaits.2.2 msg row
      · exact h
    · exact h
  | answer m cmd seq data =>
    simp only [Center.next]
    split
    · next f hf =>
      split
      · next hready =>
        obtain ⟨f', out, heq, hmoves⟩ :=
          (h.linked m f hf).moves_answer hashable hready.2.1 hready.2.2 cmd seq data
        rw [heq]
        exact h.moves hf hmoves
      · exact h
    · exact h
  | selected m row =>
    simp only [Center.next]
    split
    · next f hf =>
      obtain ⟨f', out, heq, hmoves⟩ := (h.linked m f hf).moves_selected hashable row
      rw [heq]
      exact h.moves hf hmoves
    · exact h
  | updated m committed =>
    simp only [Center.next]
    split
    · next f hf =>
      obtain ⟨f', out, heq, hmoves⟩ := (h.linked m f hf).moves_updated hashable committed
      rw [heq]
      exact h.moves hf hmoves
    · exact h
  | routine m curTime =>
    simp only [Center.next]
    split
    · next f hf =>
      split
      · obtain ⟨f', out, heq, hmoves⟩ := (h.linked m f hf).moves_routine hashable curTime
        rw [heq]
        exact h.moves hf hmoves
      · exact h
    · exact h

/-- **Answers reach who has asked**, whoever comes and ends, whatever they send, and however the
    queries interleave: an answer that a web client is told of was taken from the gateway after a
    request had been sent there, the last one under that number; the gateway had logged in with the
    id that the request names; the request had been taken from this web client, or from one that is
    gone and had the same address for its handler; and no answer was told for the session before. -/
theorem answers_reach_askers (es : List (Event κ β)) (before after : List (Output κ β))
    (n m r : Nat) (cmd : Cmd) (seq : Nat) (key : Option κ) (data : β)
    (h : (es.foldl (next hashable) init).trace =
      before ++ .told n m r cmd seq key data :: after) :
    ∃ a first mid last, before =
        first ++ .asked m r cmd seq a :: mid ++ .heard m cmd seq data :: last ∧
      .got a.client cmd a.fgw a.data ∈ first ∧
      (∀ r' cmd' a', .asked m r' cmd' seq a' ∉ mid) ∧
      (∀ n' cmd' seq' key' data', .told n' m r cmd' seq' key' data' ∉ before) ∧
      (∃ w w', (es.foldl (next hashable) init).webs[n]? = some w ∧
        (es.foldl (next hashable) init).webs[a.client]? = some w' ∧ w'.id = w.id ∧
        (a.client = n ∨ a.client < n ∧ w'.running = false)) ∧
      ∃ f, (es.foldl (next hashable) init).fgws[m]? = some f ∧ f.fgwId = some a.fgw := by
  have hfair : (es.foldl (next hashable) (init : Center κ β)).Fair :=
    Runs.foldl_inv_of Fair (fun _ _ => True) (fun _ e hc _ => hc.next hashable e) fair_init es
      fun _ _ => trivial
  obtain ⟨a, ⟨first, last, rfl, before', mid, rfl, hgot, hmid⟩, hnot, hweb, hfgw⟩ :=
    hfair.told before after n m r cmd seq key data h
  exact ⟨a, before', mid, last, rfl, hgot, fun r' cmd' a' hmem => hmid _ hmem ⟨rfl, rfl⟩,
    fun n' cmd' seq' key' data' hmem => hnot _ hmem ⟨rfl, rfl⟩, hweb, hfgw⟩

/-- A gateway logs in and two web clients connect.  The first asks and leaves, and a third one comes
    who has his address; the second asks too, under the same number. -/
def threeClients : List (Event Nat String) :=
  [.fgwConnect 7, .login 0 ⟨some "login", some "key", some "gw"⟩ (.count 1), .webConnect 3,
    .webConnect 4,
    .webMessage 0
      { cmd := some (.session .getDevList), seq := some 1, fgw := some "gw", data := "first" } 0,
    .webEnd 0, .webConnect 3,
    .webMessage 1
      { cmd := some (.session .setDevInfo), seq := some 2, fgw := some "gw", data := "second" } 0,
    .answer 0 (some .setDevInfo) (some 2) "done", .answer 0 (some .getDevList) (some 1) "lamp"]

/-- What happens before the last of them is told. -/
def beforeThird : List (Output Nat String) :=
  [.loginRsp 0 0, .got 0 .getDevList "gw" "first",
    .asked 0 0 .getDevList 1 ⟨0, 3, "gw", "first"⟩, .got 1 .setDevInfo "gw" "second",
    .asked 0 1 .setDevInfo 2 ⟨1, 4, "gw", "second"⟩, .heard 0 .setDevInfo 2 "done",
    .told 1 0 1 .setDevInfo 2 none "done", .heard 0 .getDevList 1 "lamp"]

/-- The second client is told of its own answer, and the third of the first one's, which is gone. -/
theorem answers_reach_askers_three :
    ∃ a : Asked String, .asked 0 0 .getDevList 1 a ∈ beforeThird ∧
      ∃ w w', (threeClients.foldl (next fun _ => true) init).webs[2]? = some w ∧
        (threeClients.foldl (next fun _ => true) init).webs[a.client]? = some w' ∧ w'.id = w.id ∧
        (a.client = 2 ∨ a.client < 2 ∧ w'.running = false) := by
  have htrace : (threeClients.foldl (next fun _ => true) init).trace =
      beforeThird ++ .told 2 0 0 .getDevList 1 none "lamp" :: [] := by decide
  obtain ⟨a, first, mid, last, hbefore, -, -, -, hweb, -⟩ :=
    answers_reach_askers (fun _ => true) threeClients beforeThird [] 2 0 0 .getDevList 1 none "lamp"
      htrace
  refine ⟨a, ?_, hweb⟩
  rw [hbefore]
  exact List.mem_append_left _ (List.mem_append_right _ List.mem_cons_self)

end Runs

end Center

end Monsys
