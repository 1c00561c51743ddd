/-
  What a web API message is after it went through JSON.

  1. **Fields and lists** — a field of a width that JSON's integers hold comes back; a list does as
     far as its encoder's loop goes.
  2. **What arrives** — `received`, class by class, and that a message is delivered as nothing else
     (`delivers_iff`).  One status of three is sent, a value travels under a key that nobody looks
     for, and the counters of the loops have 32 bits.
  3. **Responses and requests** — exactly which come back as they were.
-/
import Monsys.WebApiMsg
import Mathlib.Data.List.TakeWhile

namespace Monsys

namespace WebApi

open CountUp

/-! ## Fields and lists -/

/-- A string without NUL. -/
def Plain (s : String) : Prop := ∀ c ∈ s.toList, c ≠ Char.ofNat 0

theorem cStr_plain {s : String} (h : Plain s) : cStr s = s := by
  have hall : s.toList.takeWhile (fun c => decide (c ≠ Char.ofNat 0)) = s.toList := by
    rw [List.takeWhile_eq_self_iff]
    exact fun c hc => decide_eq_true (h c hc)
  rw [cStr, hall, String.ofList_toList]

theorem toU8_json (v : UInt8) : toU8 v.toUInt64.toInt64 = v := by
  rw [toU8, UInt64.toUInt64_toInt64, UInt8.toUInt8_toUInt64]

theorem toU16_json (v : UInt16) : toU16 v.toUInt64.toInt64 = v := by
  rw [toU16, UInt64.toUInt64_toInt64, UInt16.toUInt16_toUInt64]

/-- The value of an `int`. -/
def IsInt (i : Int) : Prop := -2 ^ 31 ≤ i ∧ i < 2 ^ 31

theorem int_json {i : Int} (h : IsInt i) : (Int64.ofInt i).toInt32.toInt = i := by
  rw [Int64.toInt32_ofInt, Int32.toInt_ofInt_of_le h.1 h.2]

/-- A 16-bit address survives being an `int`. -/
theorem narrowed_json (v : UInt16) : v.toUInt64.toInt64.toInt32.toUInt32.toUInt16 = v := by
  rw [UInt16.eq_iff_toBitVec_eq]
  simp [BitVec.signExtend_eq_setWidth_of_le]

/-- And `& 0xFFFF` leaves it whole. -/
theorem masked_json (v : UInt16) :
    (v.toUInt64.toInt64.toInt32 &&& 0xFFFF).toUInt32.toUInt16 = v := by
  have hmask : (0xFFFF : Int32).toUInt32.toUInt16 = -1 := by decide
  rw [Int32.toUInt32_and, UInt32.toUInt16_and, narrowed_json, hmask]
  simp

/-- An encoder's loop that ends: the elements up to its bound. -/
theorem jsonArray_settles {α : Type} (elem : α → Json) {xs : List α} {n : Nat}
    (hn : n ≤ xs.length) (hlt : n < 2 ^ 32) :
    Settles (jsonArray elem n xs) (.array ((xs.take n).map elem)) := by
  have hlen : ((xs.take n).map elem).length = n := by
    rw [List.length_map, List.length_take, Nat.min_eq_left hn]
  have hbody : ∀ i acc (h : i < ((xs.take n).map elem).length),
      (xs[i]?.map fun x => acc ++ [elem x]) = some (acc ++ [((xs.take n).map elem)[i]]) := by
    intro i acc hi
    rw [List.getElem?_eq_getElem (show i < xs.length by omega), List.getElem_map,
      List.getElem_take]
    rfl
  have hloop := loop_collects (by omega) hbody
  rw [hlen] at hloop
  exact hloop.bind rfl

/-- One over all of its elements. -/
theorem jsonArray_whole {α : Type} (elem : α → Json) {xs : List α} (hlt : xs.length < 2 ^ 32) :
    Settles (jsonArray elem xs.length xs) (.array (xs.map elem)) := by
  have h := jsonArray_settles elem (Nat.le_refl xs.length) hlt
  rwa [List.take_length] at h

/-- One over as many as 32 bits count. -/
theorem jsonArray_cut {α : Type} (elem : α → Json) (xs : List α) :
    Settles (jsonArray elem (UInt32.ofNat xs.length).toNat xs)
      (.array ((xs.take (xs.length % 2 ^ 32)).map elem)) := by
  rw [UInt32.toNat_ofNat']
  exact jsonArray_settles elem (Nat.mod_le _ _) (Nat.mod_lt _ (by decide))

/-- An encoder's loop whose counter is narrower than what it counts never ends. -/
theorem jsonArray_over {α : Type} (elem : α → Json) {xs : List α} (h : 2 ^ 32 ≤ xs.length)
    (fuel : Nat) : jsonArray elem xs.length xs fuel = none := by
  have hloop : loop xs.length (fun i acc => xs[i]?.map fun x => acc ++ [elem x]) fuel 0 [] = none :=
    loop_over h (fun i acc hi => ⟨_, by rw [List.getElem?_eq_getElem (by omega)]; rfl⟩) fuel 0 []
  rw [jsonArray, hloop]
  rfl

/-- A decoder's loop over an array of so many elements, each of which it makes something of. -/
theorem decoded_settles {α β : Type} {val : α → β} {xs : List α}
    {body : Nat → List β → Option (List β)} {bound : Nat} (hlt : xs.length < 2 ^ 32)
    (hbound : bound = xs.length)
    (hbody : ∀ i acc (h : i < xs.length), body i acc = some (acc ++ [val xs[i]])) :
    Settles (fun fuel => loop bound body fuel 0 []) (some (xs.map val)) := by
  have hlen : (xs.map val).length = xs.length := List.length_map val
  have hbody' : ∀ i acc (h : i < (xs.map val).length), body i acc = some (acc ++ [(xs.map val)[i]]) := by
    intro i acc hi
    rw [List.getElem_map]
    exact hbody i acc (by omega)
  have hloop := loop_collects (by omega) hbody'
  rw [hlen, ← hbound] at hloop
  exact hloop

theorem at?_map {α : Type} (elem : α → Json) {xs : List α} {i : Nat} (h : i < xs.length) :
    (Json.array (xs.map elem)).at? i = some (elem xs[i]) := by
  rw [Json.at?, List.getElem?_eq_getElem (by rw [List.length_map]; exact h), List.getElem_map]

/-- The size of an array, cut to 32 bits, where it fits. -/
theorem size_map {α : Type} (elem : α → Json) {xs : List α} (h : xs.length < 2 ^ 32) :
    (UInt32.ofNat (Json.array (xs.map elem)).size).toNat = xs.length := by
  rw [Json.size, List.length_map, UInt32.toNat_ofNat', Nat.mod_eq_of_lt h]

/-! ## What arrives -/

/-- The message without what JSON has no field for, the macs of the devices. -/
def InnerBody.content : InnerBody → InnerBody
  | .getDevListRsp status infoList =>
    .getDevListRsp status (infoList.map fun info => { info with mac := ZbMac.zero })
  | m => m

/-- The strings have no NUL, and the states are values of an `int`. -/
def InnerBody.Proper : InnerBody → Prop
  | .getDevListReq uid fgw => Plain uid ∧ Plain fgw
  | .getDevListRsp _ infoList => ∀ info ∈ infoList, Plain info.name ∧ IsInt info.state
  | .getDevInfoReq fgw uid _ _ => Plain fgw ∧ Plain uid
  | .setDevInfoReq fgw uid _ _ => Plain fgw ∧ Plain uid
  | .preBindReq fgw => Plain fgw
  | .bindReq fgw => Plain fgw
  | _ => True

/-- The message is turned into JSON, and that into the message `m'`. -/
def Delivers (seq : UInt32) (fresh : Fresh) (m m' : InnerBody) : Prop :=
  ∃ fuel j, inner2Json fuel seq m = some j ∧ json2Inner fuel fresh j = some (some m')

/-- What becomes of a message; nothing where a loop does not end. -/
def received (fresh : Fresh) : InnerBody → Option InnerBody
  | .getDevListRsp _ infoList =>
    if infoList.length < 2 ^ 32 then
      some (.getDevListRsp 0 (infoList.map fun info => { info with mac := ZbMac.zero }))
    else none
  | .getDevInfoReq fgw uid addr itemIds =>
    some (.getDevInfoReq fgw uid addr (itemIds.take (itemIds.length % 2 ^ 32)))
  | .getDevInfoRsp _ devInfos =>
    if devInfos.length < 2 ^ 32 then
      some (.getDevInfoRsp fresh.status (devInfos.map fun pair => { pair with val := 0 }))
    else none
  | .setDevInfoReq fgw uid addr devVals =>
    some (.setDevInfoReq fgw uid addr (devVals.take (devVals.length % 2 ^ 32)))
  | m => some m

/-- A message whose JSON, and what that is turned into, are known. -/
theorem delivers_of_settles {seq : UInt32} {fresh : Fresh} {m r m' : InnerBody} {j : Json}
    (hj : Settles (fun fuel => inner2Json fuel seq m) j)
    (hr : Settles (fun fuel => json2Inner fuel fresh j) (some r)) :
    Delivers seq fresh m m' ↔ some r = some m' := by
  constructor
  · rintro ⟨fuel, j', hj', hm'⟩
    rw [hj.only fuel j' hj'] at hm'
    exact (hr.only fuel _ hm').symm
  · intro h
    obtain ⟨fuel, hf, hg⟩ := hj.both hr
    exact ⟨fuel, j, hf, hg.trans (congrArg some h)⟩

/-- A message that no JSON is made of. -/
theorem delivers_of_never {seq : UInt32} {fresh : Fresh} {m m' : InnerBody}
    (h : ∀ fuel, inner2Json fuel seq m = none) : Delivers seq fresh m m' ↔ none = some m' := by
  refine ⟨?_, fun h => by cases h⟩
  rintro ⟨fuel, j, hj, _⟩
  rw [h fuel] at hj
  cases hj

section

variable {seq : UInt32} {fresh : Fresh} {m' : InnerBody}

theorem json2DevInfo_devInfo2Json {info : ZZBDevInfo} (hname : Plain info.name)
    (hstate : IsInt info.state) :
    json2DevInfo (devInfo2Json info) = some { info with mac := ZbMac.zero } := by
  show some (ZZBDevInfo.mk (toU16 info.addr.toUInt64.toInt64) (cStr (cStr info.name))
    (Int64.ofInt info.state).toInt32.toInt ZbMac.zero (toU16 info.type.toUInt64.toInt64)) = _
  rw [toU16_json, toU16_json, cStr_plain hname, cStr_plain hname, int_json hstate]

theorem json2Val_val2Json (pair : ZItemPair) : json2Val (val2Json pair) = some pair := by
  show some (ZItemPair.mk (toU8 pair.id.toUInt64.toInt64) (toU16 pair.val.toUInt64.toInt64)) = _
  rw [toU8_json, toU16_json]

/-- The value stands under `"val"`, and is looked for under `"value"`. -/
theorem json2IdInfo_idInfo2Json (pair : ZItemPair) :
    json2IdInfo (some (idInfo2Json pair)) = { pair with val := 0 } := by
  show ZItemPair.mk (toU8 pair.id.toUInt64.toInt64) (toU16 0) = _
  rw [toU8_json]
  rfl

/-! ### From the objects with a list -/

theorem getDevListRsp_settles {infoList : List ZZBDevInfo} (hlt : infoList.length < 2 ^ 32)
    (h : ∀ info ∈ infoList, Plain info.name ∧ IsInt info.state) :
    Settles (fun fuel => json2Inner fuel fresh
        (getDevListRspObject (.array (infoList.map devInfo2Json))))
      (some (.getDevListRsp 0 (infoList.map fun info => { info with mac := ZbMac.zero }))) := by
  have hbody : ∀ i acc (hi : i < infoList.length),
      (do return acc ++ [← json2DevInfo (← (Json.array (infoList.map devInfo2Json)).at? i)]) =
        some (acc ++ [{ infoList[i] with mac := ZbMac.zero }]) := by
    intro i acc hi
    have hmem := h _ (List.getElem_mem hi)
    rw [at?_map devInfo2Json hi]
    show (do return acc ++ [← json2DevInfo (devInfo2Json infoList[i])] : Option _) = _
    rw [json2DevInfo_devInfo2Json hmem.1 hmem.2]
    rfl
  exact (decoded_settles hlt (size_map devInfo2Json hlt) hbody).map _

theorem getDevInfoReq_settles {fgw uid : String} {addr : UInt16} {ids : List UInt8}
    (hlt : ids.length < 2 ^ 32) (h : Plain fgw ∧ Plain uid) :
    Settles (fun fuel => json2Inner fuel fresh
        (getDevInfoReqObject seq fgw uid addr (.array (ids.map jsonU8))))
      (some (.getDevInfoReq fgw uid addr ids)) := by
  have hbody : ∀ i acc (hi : i < ids.length),
      (do return acc ++ [toU8 (← (← (Json.array (ids.map jsonU8)).at? i).integer?)]) =
        some (acc ++ [id ids[i]]) := by
    intro i acc hi
    rw [at?_map jsonU8 hi]
    show some (acc ++ [toU8 ids[i].toUInt64.toInt64]) = _
    rw [toU8_json]
    rfl
  have hr : Settles (fun fuel => json2Inner fuel fresh
        (getDevInfoReqObject seq fgw uid addr (.array (ids.map jsonU8))))
      (some (.getDevInfoReq (cStr (cStr fgw)) (cStr (cStr uid))
        (addr.toUInt64.toInt64.toInt32 &&& 0xFFFF).toUInt32.toUInt16 (ids.map id))) :=
    (decoded_settles hlt (size_map jsonU8 hlt) hbody).map _
  rwa [List.map_id, masked_json, cStr_plain h.1, cStr_plain h.1, cStr_plain h.2,
    cStr_plain h.2] at hr

theorem getDevInfoRsp_settles {pairs : List ZItemPair} (n : Nat) (hlt : pairs.length < 2 ^ 32) :
    Settles (fun fuel => json2Inner fuel fresh
        (getDevInfoRspObject n (.array (pairs.map idInfo2Json))))
      (some (.getDevInfoRsp fresh.status (pairs.map fun pair => { pair with val := 0 }))) := by
  have hbody : ∀ i acc (hi : i < pairs.length),
      some (acc ++ [json2IdInfo ((Json.array (pairs.map idInfo2Json)).at? i)]) =
        some (acc ++ [{ pairs[i] with val := 0 }]) := by
    intro i acc hi
    rw [at?_map idInfo2Json hi, json2IdInfo_idInfo2Json]
  exact (decoded_settles hlt (size_map idInfo2Json hlt) hbody).map _

theorem setDevInfoReq_settles {fgw uid : String} {addr : UInt16} {pairs : List ZItemPair}
    (hlt : pairs.length < 2 ^ 32) (h : Plain fgw ∧ Plain uid) :
    Settles (fun fuel => json2Inner fuel fresh
        (setDevInfoReqObject seq fgw uid addr (.array (pairs.map val2Json))))
      (some (.setDevInfoReq fgw uid addr pairs)) := by
  have hbody : ∀ i acc (hi : i < pairs.length),
      (do return acc ++ [← json2Val (← (Json.array (pairs.map val2Json)).at? i)]) =
        some (acc ++ [id pairs[i]]) := by
    intro i acc hi
    rw [at?_map val2Json hi]
    show (do return acc ++ [← json2Val (val2Json pairs[i])] : Option _) = _
    rw [json2Val_val2Json]
    rfl
  have hr : Settles (fun fuel => json2Inner fuel fresh
        (setDevInfoReqObject seq fgw uid addr (.array (pairs.map val2Json))))
      (some (.setDevInfoReq (cStr (cStr fgw)) (cStr (cStr uid))
        addr.toUInt64.toInt64.toInt32.toUInt32.toUInt16 (pairs.map id))) :=
    (decoded_settles hlt (List.length_map val2Json) hbody).map _
  rwa [List.map_id, narrowed_json, cStr_plain h.1, cStr_plain h.1, cStr_plain h.2,
    cStr_plain h.2] at hr

/-- **What arrives** of a message is `received`, and nothing else is ever delivered. -/
theorem delivers_iff {m : InnerBody} (h : m.Proper) :
    Delivers seq fresh m m' ↔ received fresh m = some m' := by
  cases m with
  | getDevListReq uid fgw =>
    have hr : Settles (fun fuel => json2Inner fuel fresh (getDevListReq2Json seq uid fgw))
        (some (.getDevListReq (cStr (cStr uid)) (cStr (cStr fgw)))) := .const _
    rw [cStr_plain h.1, cStr_plain h.1, cStr_plain h.2, cStr_plain h.2] at hr
    exact delivers_of_settles (.const _) hr
  | getDevListRsp status infoList =>
    by_cases hlt : infoList.length < 2 ^ 32
    · rw [received, if_pos hlt]
      exact delivers_of_settles ((jsonArray_whole devInfo2Json hlt).map _)
        (getDevListRsp_settles hlt h)
    · rw [received, if_neg hlt]
      refine delivers_of_never fun fuel => ?_
      show (jsonArray devInfo2Json infoList.length infoList fuel).map _ = none
      rw [jsonArray_over devInfo2Json (by omega)]
      rfl
  | getDevInfoReq fgw uid addr itemIds =>
    have hlt : (itemIds.take (itemIds.length % 2 ^ 32)).length < 2 ^ 32 := by
      rw [List.length_take]; omega
    exact delivers_of_settles ((jsonArray_cut jsonU8 itemIds).map _) (getDevInfoReq_settles hlt h)
  | getDevInfoRsp status devInfos =>
    by_cases hlt : devInfos.length < 2 ^ 32
    · rw [received, if_pos hlt]
      exact delivers_of_settles ((jsonArray_whole idInfo2Json hlt).map _)
        (getDevInfoRsp_settles devInfos.length hlt)
    · rw [received, if_neg hlt]
      refine delivers_of_never fun fuel => ?_
      show (jsonArray idInfo2Json devInfos.length devInfos fuel).map _ = none
      rw [jsonArray_over idInfo2Json (by omega)]
      rfl
  | setDevInfoReq fgw uid addr devVals =>
    have hlt : (devVals.take (devVals.length % 2 ^ 32)).length < 2 ^ 32 := by
      rw [List.length_take]; omega
    exact delivers_of_settles ((jsonArray_cut val2Json devVals).map _) (setDevInfoReq_settles hlt h)
  | setDevInfoRsp status =>
    have hr : Settles (fun fuel => json2Inner fuel fresh (setDevInfoRsp2Json status))
        (some (.setDevInfoRsp (toU8 status.toUInt64.toInt64))) := .const _
    rw [toU8_json] at hr
    exact delivers_of_settles (.const _) hr
  | preBindReq fgw =>
    have hr : Settles (fun fuel => json2Inner fuel fresh (preBindReq2Json seq fgw))
        (some (.preBindReq (cStr (cStr fgw)))) := .const _
    rw [cStr_plain h, cStr_plain h] at hr
    exact delivers_of_settles (.const _) hr
  | preBindRsp result =>
    have hr : Settles (fun fuel => json2Inner fuel fresh (preBindRsp2Json seq result))
        (some (.preBindRsp (toU8 result.toUInt64.toInt64))) := .const _
    rw [toU8_json] at hr
    exact delivers_of_settles (.const _) hr
  | bindReq fgw =>
    have hr : Settles (fun fuel => json2Inner fuel fresh (bindReq2Json seq fgw))
        (some (.bindReq (cStr (cStr fgw)))) := .const _
    rw [cStr_plain h, cStr_plain h] at hr
    exact delivers_of_settles (.const _) hr
  | bindRsp result =>
    have hr : Settles (fun fuel => json2Inner fuel fresh (bindRsp2Json seq result))
        (some (.bindRsp (toU8 result.toUInt64.toInt64))) := .const _
    rw [toU8_json] at hr
    exact delivers_of_settles (.const _) hr

/-! ## Responses and requests -/

/-- The message comes back with its type and all of its content. -/
def RoundTrips (seq : UInt32) (fresh : Fresh) (m : InnerBody) : Prop :=
  ∃ m', Delivers seq fresh m m' ∧ m'.content = m.content

theorem roundTrips_iff {m : InnerBody} (h : m.Proper) :
    RoundTrips seq fresh m ↔ (received fresh m).map InnerBody.content = some m.content := by
  rw [Option.map_eq_some_iff]
  constructor
  · rintro ⟨m', hm', hcontent⟩
    exact ⟨m', (delivers_iff h).mp hm', hcontent⟩
  · rintro ⟨m', hm', hcontent⟩
    exact ⟨m', (delivers_iff h).mpr hm', hcontent⟩

namespace InnerBody

def IsRsp : InnerBody → Prop
  | .getDevListRsp .. | .getDevInfoRsp .. | .setDevInfoRsp .. | .preBindRsp .. | .bindRsp .. => True
  | _ => False

def IsReq : InnerBody → Prop
  | .getDevListReq .. | .getDevInfoReq .. | .setDevInfoReq .. | .preBindReq .. | .bindReq .. => True
  | _ => False

/-- A list of devices is sent with status 0, a list of values with nothing in it that is not lost,
    and either with fewer entries than the counter counts. -/
def Returnable (fresh : Fresh) : InnerBody → Prop
  | .getDevListRsp status infoList => status = 0 ∧ infoList.length < 2 ^ 32
  | .getDevInfoRsp status devInfos =>
    status = fresh.status ∧ (∀ pair ∈ devInfos, pair.val = 0) ∧ devInfos.length < 2 ^ 32
  | _ => True

/-- No list is longer than its counter counts. -/
def Countable : InnerBody → Prop
  | .getDevInfoReq _ _ _ itemIds => itemIds.length < 2 ^ 32
  | .setDevInfoReq _ _ _ devVals => devVals.length < 2 ^ 32
  | _ => True

end InnerBody

/-- The macs are not part of the content. -/
theorem content_noMac (status : Int32) (infoList : List ZZBDevInfo) :
    InnerBody.content (.getDevListRsp status
      (infoList.map fun info => { info with mac := ZbMac.zero })) =
      .getDevListRsp status (infoList.map fun info => { info with mac := ZbMac.zero }) := by
  rw [InnerBody.content, List.map_map]
  rfl

/-- A map that leaves a list as it is leaves each of its elements. -/
theorem zeroed_eq_iff (pairs : List ZItemPair) :
    (pairs.map fun pair => { pair with val := 0 }) = pairs ↔ ∀ pair ∈ pairs, pair.val = 0 := by
  have hid : (pairs.map fun pair => { pair with val := 0 }) = pairs.map id ↔
      ∀ pair ∈ pairs, ({ pair with val := 0 } : ZItemPair) = pair := List.map_inj_left
  rw [List.map_id] at hid
  refine hid.trans (forall₂_congr fun pair _ => ⟨fun h => ?_, fun h => ?_⟩)
  · exact (congrArg ZItemPair.val h).symm
  · rw [← h]

/-- A list that is cut to what 32 bits count. -/
theorem take_mod_eq_iff {α : Type} (xs : List α) :
    xs.take (xs.length % 2 ^ 32) = xs ↔ xs.length < 2 ^ 32 := by
  rw [List.take_eq_self_iff]
  omega

theorem getDevInfoReq_roundTrips_iff {fgw uid : String} {addr : UInt16} {itemIds : List UInt8}
    (h : Plain fgw ∧ Plain uid) :
    RoundTrips seq fresh (.getDevInfoReq fgw uid addr itemIds) ↔ itemIds.length < 2 ^ 32 := by
  have hproper : (InnerBody.getDevInfoReq fgw uid addr itemIds).Proper := h
  rw [roundTrips_iff hproper, received, Option.map_some, Option.some.injEq]
  show InnerBody.getDevInfoReq _ _ _ _ = InnerBody.getDevInfoReq _ _ _ _ ↔ _
  rw [InnerBody.getDevInfoReq.injEq, take_mod_eq_iff]
  exact ⟨fun h => h.2.2.2, fun h => ⟨rfl, rfl, rfl, h⟩⟩

/-- **Responses**: exactly these come back as they were. -/
theorem response_round_trips_iff {m : InnerBody} (hm : m.IsRsp) (h : m.Proper) :
    RoundTrips seq fresh m ↔ m.Returnable fresh := by
  rw [roundTrips_iff h]
  cases m with
  | getDevListRsp status infoList =>
    by_cases hlt : infoList.length < 2 ^ 32
    · rw [received, if_pos hlt, Option.map_some, content_noMac, Option.some.injEq]
      show InnerBody.getDevListRsp _ _ = InnerBody.getDevListRsp _ _ ↔ _
      rw [InnerBody.getDevListRsp.injEq]
      exact ⟨fun h => ⟨h.1.symm, hlt⟩, fun h => ⟨h.1.symm, rfl⟩⟩
    · rw [received, if_neg hlt]
      exact iff_of_false (fun h => by cases h) fun h => hlt h.2
  | getDevInfoRsp status devInfos =>
    by_cases hlt : devInfos.length < 2 ^ 32
    · rw [received, if_pos hlt, Option.map_some, Option.some.injEq]
      show InnerBody.getDevInfoRsp _ _ = InnerBody.getDevInfoRsp _ _ ↔ _
      rw [InnerBody.getDevInfoRsp.injEq, zeroed_eq_iff]
      exact ⟨fun h => ⟨h.1.symm, h.2, hlt⟩, fun h => ⟨h.1.symm, h.2.1⟩⟩
    · rw [received, if_neg hlt]
      exact iff_of_false (fun h => by cases h) fun h => hlt h.2.2
  | setDevInfoRsp status => exact iff_of_true rfl trivial
  | preBindRsp result => exact iff_of_true rfl trivial
  | bindRsp result => exact iff_of_true rfl trivial
  | getDevListReq uid fgw => cases hm
  | getDevInfoReq fgw uid addr itemIds => cases hm
  | setDevInfoReq fgw uid addr devVals => cases hm
  | preBindReq fgw => cases hm
  | bindReq fgw => cases hm

/-- A response of one device, in state 0. -/
def lampRsp : InnerBody := .getDevListRsp 0 [⟨258, "lamp", 0, ZbMac.zero, 1⟩]

theorem response_round_trips_lampRsp : RoundTrips 7 ⟨0⟩ lampRsp ↔ lampRsp.Returnable ⟨0⟩ := by
  refine response_round_trips_iff trivial fun info hinfo => ?_
  obtain rfl := List.mem_singleton.mp hinfo
  exact ⟨by simp [Plain], by unfold IsInt; decide⟩

/-- The value 23 of item 1 comes back as 0. -/
theorem response_round_trip_fails :
    ¬ ∀ (seq : UInt32) (fresh : Fresh) (m : InnerBody), m.IsRsp → m.Proper →
      RoundTrips seq fresh m := by
  intro h
  have hproper : (InnerBody.getDevInfoRsp 0 [⟨1, 23⟩]).Proper := trivial
  have hlost := (roundTrips_iff hproper).mp (h 1 ⟨0⟩ _ trivial hproper)
  exact absurd hlost (by decide)

/-- **Requests**: exactly these come back as they were. -/
theorem request_round_trips_iff {m : InnerBody} (hm : m.IsReq) (h : m.Proper) :
    RoundTrips seq fresh m ↔ m.Countable := by
  cases m with
  | getDevInfoReq fgw uid addr itemIds => exact getDevInfoReq_roundTrips_iff h
  | setDevInfoReq fgw uid addr devVals =>
    rw [roundTrips_iff h, received, Option.map_some, Option.some.injEq]
    show InnerBody.setDevInfoReq _ _ _ _ = InnerBody.setDevInfoReq _ _ _ _ ↔ _
    rw [InnerBody.setDevInfoReq.injEq, take_mod_eq_iff]
    exact ⟨fun h => h.2.2.2, fun h => ⟨rfl, rfl, rfl, h⟩⟩
  | getDevListReq uid fgw => exact (roundTrips_iff h).trans (iff_of_true rfl trivial)
  | preBindReq fgw => exact (roundTrips_iff h).trans (iff_of_true rfl trivial)
  | bindReq fgw => exact (roundTrips_iff h).trans (iff_of_true rfl trivial)
  | getDevListRsp status infoList => cases hm
  | getDevInfoRsp status devInfos => cases hm
  | setDevInfoRsp status => cases hm
  | preBindRsp result => cases hm
  | bindRsp result => cases hm

/-- A request that sets two items. -/
def setReq : InnerBody := .setDevInfoReq "gateway" "user" 258 [⟨1, 23⟩, ⟨2, 65535⟩]

theorem request_round_trips_setReq : RoundTrips 7 ⟨0⟩ setReq ↔ setReq.Countable :=
  request_round_trips_iff trivial ⟨by simp [Plain], by simp [Plain]⟩

/-- Of 2^32 items none is sent. -/
theorem request_round_trip_fails :
    ¬ ∀ (seq : UInt32) (fresh : Fresh) (m : InnerBody), m.IsReq → m.Proper →
      RoundTrips seq fresh m := by
  intro h
  have hplain : Plain "" ∧ Plain "" := ⟨by simp [Plain], by simp [Plain]⟩
  have hlost := h 1 ⟨0⟩ (.getDevInfoReq "" "" 0 (List.replicate (2 ^ 32) 0)) trivial hplain
  rw [getDevInfoReq_roundTrips_iff hplain, List.length_replicate] at hlost
  exact Nat.lt_irrefl _ hlost

end

end WebApi

end Monsys
