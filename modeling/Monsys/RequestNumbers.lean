/-
  The numbers of a request, from the push server or in JSON, and those of the inner request made of
  it.

  1. **Numbers** — the address of the device, the items, and the values they are set to.  The fields
     of the inner messages have 16, 8 and 16 bits; `cut` is what is left of wider numbers.
  2. **From the push server** — `push2inner` looks at no number.
  3. **In JSON** — neither does `json2Inner`, and its counters have 32 bits: of a longer `"id-list"`
     it takes a part, a longer `"vals"` it never gets to the end of.
  4. **Kept** — exactly which requests are rejected or keep their numbers.
-/
import Monsys.GatewayMessages
import Monsys.WebApiRoundTrip

namespace Monsys

/-! ## Numbers -/

/-- The device, and the items with the values they are set to, where the request sets any. -/
structure Numbers where
  addr : Int
  items : List (Int × Option Int)
deriving DecidableEq

namespace Numbers

def Fits (n : Numbers) : Prop :=
  (0 ≤ n.addr ∧ n.addr < 2 ^ 16) ∧
    ∀ item ∈ n.items, (0 ≤ item.1 ∧ item.1 < 2 ^ 8) ∧ ∀ v ∈ item.2, 0 ≤ v ∧ v < 2 ^ 16

/-- An item in fields of 8 and 16 bits. -/
def cutItem (item : Int × Option Int) : Int × Option Int :=
  (item.1 % 2 ^ 8, item.2.map fun v => v % 2 ^ 16)

def cut (n : Numbers) : Numbers := ⟨n.addr % 2 ^ 16, n.items.map cutItem⟩

theorem emod_eq_iff (v : Int) {m : Int} (hm : 0 < m) : v % m = v ↔ 0 ≤ v ∧ v < m := by
  constructor
  · intro h
    rw [← h]
    exact ⟨Int.emod_nonneg v (by omega), Int.emod_lt_of_pos v hm⟩
  · rintro ⟨hlo, hhi⟩
    exact Int.emod_eq_of_lt hlo hhi

theorem cutItem_eq_iff (item : Int × Option Int) :
    cutItem item = item ↔ (0 ≤ item.1 ∧ item.1 < 2 ^ 8) ∧ ∀ v ∈ item.2, 0 ≤ v ∧ v < 2 ^ 16 := by
  obtain ⟨id, val⟩ := item
  have hid := emod_eq_iff id (show (0 : Int) < 2 ^ 8 by decide)
  rw [cutItem, Prod.mk.injEq, hid]
  cases val with
  | none => exact ⟨fun h => ⟨h.1, fun v hv => by cases hv⟩, fun h => ⟨h.1, rfl⟩⟩
  | some v =>
    have hval := emod_eq_iff v (show (0 : Int) < 2 ^ 16 by decide)
    rw [Option.map_some, Option.some.injEq, hval]
    constructor
    · rintro ⟨hi, hv⟩
      exact ⟨hi, fun w hw => by cases hw; exact hv⟩
    · rintro ⟨hi, hv⟩
      exact ⟨hi, hv v rfl⟩

/-- Exactly the numbers that fit are left as they are. -/
theorem cut_eq_iff (n : Numbers) : n.cut = n ↔ n.Fits := by
  obtain ⟨addr, items⟩ := n
  have haddr := emod_eq_iff addr (show (0 : Int) < 2 ^ 16 by decide)
  have hitems : items.map cutItem = items.map id ↔ ∀ item ∈ items, cutItem item = item :=
    List.map_inj_left
  rw [List.map_id] at hitems
  rw [cut, Numbers.mk.injEq, haddr, hitems]
  exact and_congr_right fun _ => forall₂_congr fun item _ => cutItem_eq_iff item

end Numbers

/-! ## From the push server -/

/-- The numbers of a request for the values of items, or to set them. -/
def Push.PushMsg.numbers (msg : Push.PushMsg) : Option Numbers :=
  match msg.type with
  | .getDevInfo => msg.getDevInfo.map fun body => ⟨body.addr, body.itemIds.map fun id => (id, none)⟩
  | .setDevInfo => msg.setDevInfo.map fun body =>
    ⟨body.addr, body.idValuePairs.map fun pair => (pair.id, some pair.value)⟩
  | _ => none

def InnerBody.numbers : InnerBody → Option Numbers
  | .getDevInfoReq addr itemIds => some ⟨addr.toNat, itemIds.map fun id => (id.toNat, none)⟩
  | .setDevInfoReq addr devVals =>
    some ⟨addr.toNat, devVals.map fun pair => (pair.id.toNat, some (pair.val.toNat : Int))⟩
  | _ => none

theorem toNat_ofInt16 (v : Int) : ((UInt16.ofInt v).toNat : Int) = v % 2 ^ 16 := by
  have hlo := Int.emod_nonneg v (show (2 ^ 16 : Int) ≠ 0 by decide)
  have hhi := Int.emod_lt_of_pos v (show (0 : Int) < 2 ^ 16 by decide)
  rw [UInt16.ofInt, UInt16.toNat_ofNat', Nat.mod_eq_of_lt (by omega), Int.toNat_of_nonneg hlo]

theorem toNat_ofInt8 (v : Int) : ((UInt8.ofInt v).toNat : Int) = v % 2 ^ 8 := by
  have hlo := Int.emod_nonneg v (show (2 ^ 8 : Int) ≠ 0 by decide)
  have hhi := Int.emod_lt_of_pos v (show (0 : Int) < 2 ^ 8 by decide)
  rw [UInt8.ofInt, UInt8.toNat_ofNat', Nat.mod_eq_of_lt (by omega), Int.toNat_of_nonneg hlo]

/-- The two requests that this is about. -/
def Push.PushMsg.IsDevInfo (msg : Push.PushMsg) : Prop :=
  msg.type = .getDevInfo ∨ msg.type = .setDevInfo

/-- What is made of such a request is its numbers, cut; nothing is made of one without a body. -/
theorem push2inner_numbers {msg : Push.PushMsg} (h : msg.IsDevInfo) :
    (push2inner msg).map InnerBody.numbers = msg.numbers.map fun n => some n.cut := by
  rcases h with h | h
  · rw [push2inner, Push.PushMsg.numbers, h]
    show (msg.getDevInfo.map getDevInfo2inner).map InnerBody.numbers = _
    cases msg.getDevInfo with
    | none => rfl
    | some body =>
      show some (some (Numbers.mk _ _)) = some (some (Numbers.mk _ _))
      rw [toNat_ofInt16, List.map_map, List.map_map]
      congr 3
      exact List.map_congr_left fun id _ => Prod.ext (toNat_ofInt8 id) rfl
  · rw [push2inner, Push.PushMsg.numbers, h]
    show (msg.setDevInfo.map setDevInfo2inner).map InnerBody.numbers = _
    cases msg.setDevInfo with
    | none => rfl
    | some body =>
      show some (some (Numbers.mk _ _)) = some (some (Numbers.mk _ _))
      rw [toNat_ofInt16, List.map_map, List.map_map]
      congr 3
      exact List.map_congr_left fun pair _ =>
        Prod.ext (toNat_ofInt8 pair.id) (congrArg some (toNat_ofInt16 pair.value))

/-- The request is rejected, or what is made of it has its numbers. -/
def Push.PushMsg.Kept (msg : Push.PushMsg) : Prop :=
  ∀ body, push2inner msg = some body → body.numbers = msg.numbers

/-- The request has no body, or its numbers fit. -/
def Push.PushMsg.Fits (msg : Push.PushMsg) : Prop := ∀ n, msg.numbers = some n → n.Fits

theorem push_kept_iff {msg : Push.PushMsg} (h : msg.IsDevInfo) : msg.Kept ↔ msg.Fits := by
  have hmade := push2inner_numbers h
  rw [Push.PushMsg.Kept, Push.PushMsg.Fits]
  cases hn : msg.numbers with
  | none =>
    rw [hn, Option.map_none, Option.map_eq_none_iff] at hmade
    rw [hmade]
    constructor
    · intro _ n hn'
      cases hn'
    · intro _ body hb
      cases hb
  | some n =>
    rw [hn] at hmade
    obtain ⟨body, hbody, hcut⟩ := Option.map_eq_some_iff.mp hmade
    rw [hbody]
    have hcut' : body.numbers = some n ↔ n.Fits := by
      rw [hcut, Option.some.injEq, Numbers.cut_eq_iff]
    constructor
    · intro hk m hm
      obtain rfl := Option.some.inj hm
      exact hcut'.mp (hk body rfl)
    · intro hf b hb
      obtain rfl := Option.some.inj hb
      exact hcut'.mpr (hf n rfl)

/-! ## In JSON -/

namespace WebApi

open CountUp

def InnerBody.numbers : InnerBody → Option Numbers
  | .getDevInfoReq _ _ addr itemIds =>
    some ⟨addr.toNat, itemIds.map fun id => (id.toNat, none)⟩
  | .setDevInfoReq _ _ addr devVals =>
    some ⟨addr.toNat, devVals.map fun pair => (pair.id.toNat, some (pair.val.toNat : Int))⟩
  | _ => none

/-- The two commands that this is about. -/
inductive Command
  | getDevInfo
  | setDevInfo

namespace Command

def name : Command → String
  | getDevInfo => "get-dev-info"
  | setDevInfo => "set-dev-info"

def Of (c : Command) (j : Json) : Prop := (j.getString "cmd").map cStr = some c.name

/-- The items; the ids need not be in an array. -/
def list (j : Json) : Command → Option Json
  | getDevInfo => j.get "id-list"
  | setDevInfo => j.getArray "vals"

/-- The item that is to be set. -/
def pair? (j : Json) : Option (Int64 × Int64) := do
  let id ← j.getInteger "id"
  let val ← j.getInteger "val"
  return (id, val)

/-- The first `k` items of the list; nothing where one is malformed. -/
def items (list : Json) (k : Nat) : Command → Option (List (Int × Option Int))
  | getDevInfo =>
    (readFrom (fun i => (list.at? i).bind Json.integer?) 0 k).map
      (List.map fun id => (id.toInt, none))
  | setDevInfo =>
    (readFrom (fun i => (list.at? i).bind pair?) 0 k).map
      (List.map fun pair => (pair.1.toInt, some pair.2.toInt))

/-- What comes before the items: `"fgw"`, `"uid"`, `"addr"` and the list. -/
def head (c : Command) (j : Json) : Option (String × String × Int64 × Json) := do
  let fgw ← j.getString "fgw"
  let uid ← j.getString "uid"
  let addr ← j.getInteger "addr"
  let list ← c.list j
  return (fgw, uid, addr, list)

/-- How many items there are. -/
def size (c : Command) (j : Json) : Nat := ((c.list j).map Json.size).getD 0

/-- The request up to its `k`th item; nothing where it is malformed. -/
def numbers (c : Command) (j : Json) (k : Nat) : Option Numbers := do
  let h ← c.head j
  let items ← c.items h.2.2.2 k
  return ⟨h.2.2.1.toInt, items⟩

/-- How many items are looked at: as many as the size comes to in 32 bits, or as the counter
    counts. -/
def lookedAt (j : Json) : Command → Nat
  | getDevInfo => getDevInfo.size j % 2 ^ 32
  | setDevInfo => min (setDevInfo.size j) (2 ^ 32)

/-- The request is rejected, or what is made of it has its numbers. -/
def Kept (c : Command) (fresh : Fresh) (j : Json) : Prop :=
  ∃ fuel r, json2Inner fuel fresh j = some r ∧
    ∀ body, r = some body → body.numbers = c.numbers j (c.size j)

/-- The part that is looked at is malformed, or it is the whole and the numbers fit. -/
def Fits (c : Command) (j : Json) : Prop :=
  ∀ n, c.numbers j (c.lookedAt j) = some n → n.Fits ∧ c.size j < 2 ^ 32

/-! ### What the two functions come to -/

theorem emod_toUInt64 (v : Int64) (n : Nat) (hn : n ∣ 2 ^ 64) :
    ((v.toUInt64.toNat % n : Nat) : Int) = v.toInt % n := by
  have h : v.toInt = (v.toUInt64.toNat : Int).bmod (2 ^ 64) := by
    show v.toBitVec.toInt = _
    rw [BitVec.toInt_eq_toNat_bmod]
    rfl
  have hdvd : (n : Int) ∣ (2 ^ 64 : Nat) := Int.natCast_dvd_natCast.mpr hn
  rw [h, ← Int.emod_emod_of_dvd _ hdvd, Int.bmod_emod, Int.emod_emod_of_dvd _ hdvd]
  rfl

theorem toU8_toNat (v : Int64) : ((toU8 v).toNat : Int) = v.toInt % 2 ^ 8 := by
  rw [toU8, UInt64.toNat_toUInt8]
  exact emod_toUInt64 v (2 ^ 8) (by decide)

theorem toU16_toNat (v : Int64) : ((toU16 v).toNat : Int) = v.toInt % 2 ^ 16 := by
  rw [toU16, UInt64.toNat_toUInt16]
  exact emod_toUInt64 v (2 ^ 16) (by decide)

/-- Through an `int` an address is cut all the same. -/
theorem narrowed_toU16 (v : Int64) : v.toInt32.toUInt32.toUInt16 = toU16 v := by
  rw [UInt16.eq_iff_toBitVec_eq, toU16]
  simp [BitVec.signExtend_eq_setWidth_of_le]

theorem masked_toU16 (v : Int64) : (v.toInt32 &&& 0xFFFF).toUInt32.toUInt16 = toU16 v := by
  have hmask : (0xFFFF : Int32).toUInt32.toUInt16 = -1 := by decide
  rw [Int32.toUInt32_and, UInt32.toUInt16_and, narrowed_toU16, hmask, UInt16.and_neg_one]

/-- Either function goes on where the command says so. -/
theorem json2Inner_of {c : Command} {j : Json} (h : c.Of j) (fuel : Nat) (fresh : Fresh) :
    json2Inner fuel fresh j =
      match c with
      | getDevInfo => json2InnerGetDevInfoReq fuel j
      | setDevInfo => json2InnerSetDevInfoReq fuel j := by
  obtain ⟨s, hs, hname⟩ := Option.map_eq_some_iff.mp h
  rw [json2Inner, hs]
  cases c with
  | getDevInfo => simp [hname, name]
  | setDevInfo => simp [hname, name]

theorem checkCmd_of {c : Command} {j : Json} (h : c.Of j) : checkCmd j c.name = some () := by
  obtain ⟨s, hs, hname⟩ := Option.map_eq_some_iff.mp h
  have hpre : startsWith s c.name = true := by
    rw [startsWith, hname, List.isPrefixOf_iff_prefix]
  rw [checkCmd, hs]
  show (if startsWith s c.name = true then some () else none) = _
  rw [if_pos hpre]

/-- A request that is malformed before its items is rejected. -/
theorem json2Inner_malformed {c : Command} {j : Json} (h : c.Of j) (hhead : c.head j = none)
    (fuel : Nat) (fresh : Fresh) : json2Inner fuel fresh j = some none := by
  rw [json2Inner_of h]
  cases c with
  | getDevInfo =>
    show json2InnerGetDevInfoReq fuel j = some none
    have hcmd : checkCmd j "get-dev-info" = some () := checkCmd_of (c := getDevInfo) h
    rw [json2InnerGetDevInfoReq, hcmd]
    split
    · rfl
    · rename_i heq
      cases hhead.symm.trans heq
  | setDevInfo =>
    show json2InnerSetDevInfoReq fuel j = some none
    have hcmd : checkCmd j "set-dev-info" = some () := checkCmd_of (c := setDevInfo) h
    rw [json2InnerSetDevInfoReq, hcmd]
    split
    · rfl
    · rename_i heq
      cases hhead.symm.trans heq

section

variable {j list : Json} {fgw uid : String} {addr : Int64} {fresh : Fresh}

/-- What the loop over `"id-list"` reads. -/
theorem getDevInfo_eq (h : getDevInfo.Of j) (hhead : getDevInfo.head j = some (fgw, uid, addr, list))
    (fuel : Nat) :
    json2Inner fuel fresh j =
      Run.andThen
        (loop (UInt32.ofNat list.size).toNat
          (fun i acc => (((list.at? i).bind Json.integer?).map toU8).map fun y => acc ++ [y])
          fuel 0 [])
        (.getDevInfoReq (cStr fgw) (cStr uid) (toU16 addr)) := by
  have hcmd : checkCmd j "get-dev-info" = some () := checkCmd_of (c := getDevInfo) h
  rw [json2Inner_of h]
  show json2InnerGetDevInfoReq fuel j = _
  rw [json2InnerGetDevInfoReq, hcmd]
  split
  · rename_i heq
    cases hhead.symm.trans heq
  · rename_i heq
    cases hhead.symm.trans heq
    rw [masked_toU16]
    congr 2
    funext i acc
    cases list.at? i with
    | none => rfl
    | some e => cases e <;> rfl

/-- What the loop over `"vals"` reads. -/
theorem setDevInfo_eq (h : setDevInfo.Of j) (hhead : setDevInfo.head j = some (fgw, uid, addr, list))
    (fuel : Nat) :
    json2Inner fuel fresh j =
      Run.andThen
        (loop list.size
          (fun i acc => (((list.at? i).bind pair?).map fun p => ZItemPair.mk (toU8 p.1) (toU16 p.2)).map
            fun y => acc ++ [y]) fuel 0 [])
        (.setDevInfoReq (cStr fgw) (cStr uid) (toU16 addr)) := by
  have hcmd : checkCmd j "set-dev-info" = some () := checkCmd_of (c := setDevInfo) h
  rw [json2Inner_of h]
  show json2InnerSetDevInfoReq fuel j = _
  rw [json2InnerSetDevInfoReq, hcmd]
  split
  · rename_i heq
    cases hhead.symm.trans heq
  · rename_i heq
    cases hhead.symm.trans heq
    rw [narrowed_toU16]
    congr 2
    funext i acc
    cases hat : list.at? i with
    | none => rfl
    | some e =>
      show (json2Val e).bind _ = _
      rw [json2Val, Option.bind_some, pair?]
      cases e.getInteger "id" with
      | none => rfl
      | some id => cases e.getInteger "val" <;> rfl

end

/-- The items of a list are as many as are looked at. -/
theorem items_length {c : Command} {list : Json} {k : Nat} {items : List (Int × Option Int)}
    (h : c.items list k = some items) : items.length = k := by
  cases c with
  | getDevInfo =>
    obtain ⟨ids, hids, rfl⟩ := Option.map_eq_some_iff.mp h
    rw [List.length_map, readFrom_length hids]
  | setDevInfo =>
    obtain ⟨pairs, hpairs, rfl⟩ := Option.map_eq_some_iff.mp h
    rw [List.length_map, readFrom_length hpairs]

theorem size_of_head {c : Command} {j : Json} {fgw uid : String} {addr : Int64} {list : Json}
    (hhead : c.head j = some (fgw, uid, addr, list)) : c.size j = list.size := by
  obtain ⟨f, -, h⟩ := Option.bind_eq_some_iff.mp hhead
  obtain ⟨u, -, h⟩ := Option.bind_eq_some_iff.mp h
  obtain ⟨a, -, h⟩ := Option.bind_eq_some_iff.mp h
  obtain ⟨l, hl, h⟩ := Option.bind_eq_some_iff.mp h
  cases Option.some.inj h
  rw [size, hl]
  rfl

/-- The inner request made of the first `k` items, or none. -/
def made (list : Json) (fgw uid : String) (addr : Int64) (k : Nat) : Command → Option InnerBody
  | getDevInfo =>
    (readFrom (fun i => ((list.at? i).bind Json.integer?).map toU8) 0 k).map
      (.getDevInfoReq (cStr fgw) (cStr uid) (toU16 addr))
  | setDevInfo =>
    (readFrom (fun i => ((list.at? i).bind pair?).map fun p => ZItemPair.mk (toU8 p.1) (toU16 p.2))
      0 k).map (.setDevInfoReq (cStr fgw) (cStr uid) (toU16 addr))

/-- Its numbers are those of the items, cut. -/
theorem made_numbers (c : Command) (list : Json) (fgw uid : String) (addr : Int64) (k : Nat) :
    (c.made list fgw uid addr k).map InnerBody.numbers =
      (c.items list k).map fun items => some (Numbers.cut ⟨addr.toInt, items⟩) := by
  cases c with
  | getDevInfo =>
    rw [made, items, readFrom_map]
    cases readFrom (fun i => (list.at? i).bind Json.integer?) 0 k with
    | none => rfl
    | some ids =>
      show some (some (Numbers.mk _ _)) = some (some (Numbers.mk _ _))
      rw [toU16_toNat, List.map_map, List.map_map]
      congr 3
      exact List.map_congr_left fun id _ => Prod.ext (toU8_toNat id) rfl
  | setDevInfo =>
    rw [made, items, readFrom_map]
    cases readFrom (fun i => (list.at? i).bind pair?) 0 k with
    | none => rfl
    | some pairs =>
      show some (some (Numbers.mk _ _)) = some (some (Numbers.mk _ _))
      rw [toU16_toNat, List.map_map, List.map_map]
      congr 3
      exact List.map_congr_left fun pair _ =>
        Prod.ext (toU8_toNat pair.1) (congrArg some (toU16_toNat pair.2))

section

variable {c : Command} {j list : Json} {fgw uid : String} {addr : Int64} (fresh : Fresh)

/-- A function whose loop has few enough rounds comes to what is made of the items looked at. -/
theorem settles_made (h : c.Of j) (hhead : c.head j = some (fgw, uid, addr, list))
    (hsize : c = getDevInfo ∨ c.size j < 2 ^ 32) :
    Settles (fun fuel => json2Inner fuel fresh j) (c.made list fgw uid addr (c.lookedAt j)) := by
  cases c with
  | getDevInfo =>
    have hlooked : (UInt32.ofNat list.size).toNat = getDevInfo.lookedAt j := by
      rw [lookedAt, size_of_head hhead, UInt32.toNat_ofNat']
    have hlt : getDevInfo.lookedAt j < 2 ^ 32 := Nat.mod_lt _ (by decide)
    rw [funext (getDevInfo_eq h hhead), hlooked]
    exact (loop_reads hlt).map _
  | setDevInfo =>
    have hlt : setDevInfo.size j < 2 ^ 32 := by
      rcases hsize with h | h
      · cases h
      · exact h
    have hlooked : list.size = setDevInfo.lookedAt j := by
      rw [lookedAt, Nat.min_eq_left (Nat.le_of_lt hlt), size_of_head hhead]
    rw [funext (setDevInfo_eq h hhead), hlooked]
    rw [size_of_head hhead, hlooked] at hlt
    exact (loop_reads hlt).map _

/-- The loop over more values than its counter counts only ends at a malformed one. -/
theorem settles_over (h : setDevInfo.Of j) (hhead : setDevInfo.head j = some (fgw, uid, addr, list))
    (hsize : 2 ^ 32 ≤ setDevInfo.size j) :
    (setDevInfo.made list fgw uid addr (2 ^ 32) = none →
      Settles (fun fuel => json2Inner fuel fresh j) none) ∧
    (setDevInfo.made list fgw uid addr (2 ^ 32) ≠ none →
      ∀ fuel, json2Inner fuel fresh j = none) := by
  rw [size_of_head hhead] at hsize
  rw [made, ne_eq, Option.map_eq_none_iff]
  constructor
  · intro hnone
    rw [funext (setDevInfo_eq h hhead)]
    exact (loop_reads_over hsize hnone).map _
  · intro hsome fuel
    obtain ⟨ys, hys⟩ := Option.ne_none_iff_exists'.mp hsome
    rw [setDevInfo_eq h hhead, loop_over hsize]
    · rfl
    · intro i s hi
      obtain ⟨y, hy⟩ := readFrom_some hys (Nat.zero_le i) (by omega)
      exact ⟨s ++ [y], by rw [hy]; rfl⟩

end

/-! ## Kept -/

theorem numbers_of_head {c : Command} {j list : Json} {fgw uid : String} {addr : Int64}
    (hhead : c.head j = some (fgw, uid, addr, list)) (k : Nat) :
    c.numbers j k = (c.items list k).map fun items => ⟨addr.toInt, items⟩ := by
  rw [numbers, hhead]
  show (c.items list k).bind _ = _
  cases c.items list k <;> rfl

theorem made_eq_none_iff (c : Command) (list : Json) (fgw uid : String) (addr : Int64) (k : Nat) :
    c.made list fgw uid addr k = none ↔ c.items list k = none := by
  have h := congrArg Option.isNone (made_numbers c list fgw uid addr k)
  rw [Option.isNone_map, Option.isNone_map] at h
  rw [← Option.isNone_iff_eq_none, ← Option.isNone_iff_eq_none, h]

theorem kept_of_settles {c : Command} {fresh : Fresh} {j : Json} {r : Option InnerBody}
    (h : Settles (fun fuel => json2Inner fuel fresh j) r) :
    c.Kept fresh j ↔ ∀ body, r = some body → body.numbers = c.numbers j (c.size j) := by
  constructor
  · rintro ⟨fuel, r', hr', hkept⟩
    rwa [h.only fuel r' hr'] at hkept
  · intro hkept
    obtain ⟨n, hn⟩ := h.enough
    exact ⟨n + 1, r, hn _ (Nat.lt_succ_self n), hkept⟩

/-- The numbers of a list that was cut short are not those of the list. -/
theorem numbers_ne {c : Command} {j list : Json} {fgw uid : String} {addr : Int64}
    (hhead : c.head j = some (fgw, uid, addr, list)) {n : Numbers}
    (hn : n.items.length ≠ c.size j) : some n ≠ c.numbers j (c.size j) := by
  rw [numbers_of_head hhead]
  intro h
  obtain ⟨items, hitems, rfl⟩ := Option.map_eq_some_iff.mp h.symm
  exact hn (items_length hitems)

/-- What is made of the items looked at, where the function returns. -/
theorem kept_iff_of_returns {c : Command} {j list : Json} {fgw uid : String} {addr : Int64}
    (h : c.Of j) (hhead : c.head j = some (fgw, uid, addr, list)) (fresh : Fresh)
    (hsize : c = getDevInfo ∨ c.size j < 2 ^ 32) : c.Kept fresh j ↔ c.Fits j := by
  have hmade := made_numbers c list fgw uid addr (c.lookedAt j)
  rw [kept_of_settles (settles_made fresh h hhead hsize), Fits, numbers_of_head hhead (c.lookedAt j)]
  cases hitems : c.items list (c.lookedAt j) with
  | none =>
    rw [(made_eq_none_iff c list fgw uid addr _).mpr hitems]
    simp only [Option.map_none, reduceCtorEq, false_imp_iff, implies_true]
  | some items =>
    rw [hitems] at hmade
    obtain ⟨body, hbody, hcut⟩ := Option.map_eq_some_iff.mp hmade
    replace hcut : body.numbers = some (Numbers.cut ⟨addr.toInt, items⟩) := hcut
    rw [hbody]
    simp only [Option.map_some, Option.some.injEq, forall_eq']
    rw [hcut]
    by_cases hlt : c.size j < 2 ^ 32
    · -- the whole list was looked at
      have hlooked : c.lookedAt j = c.size j := by
        cases c with
        | getDevInfo => exact Nat.mod_eq_of_lt hlt
        | setDevInfo => exact Nat.min_eq_left (Nat.le_of_lt hlt)
      rw [hlooked] at hitems
      rw [numbers_of_head hhead, hitems, Option.map_some, Option.some.injEq, Numbers.cut_eq_iff]
      exact ⟨fun hf => ⟨hf, hlt⟩, fun hf => hf.1⟩
    · -- only a part of it was
      have hget : c = getDevInfo := hsize.resolve_right hlt
      have hmod : c.lookedAt j < 2 ^ 32 := by
        rw [hget]
        exact Nat.mod_lt _ (by decide)
      have hcutlen : (Numbers.cut ⟨addr.toInt, items⟩).items.length = c.lookedAt j := by
        rw [Numbers.cut, List.length_map, items_length hitems]
      exact iff_of_false (numbers_ne hhead (by rw [hcutlen]; omega)) fun hf => hlt hf.2

/-- The other requests are those with more values than the counter counts. -/
theorem kept_iff_of_over {j list : Json} {fgw uid : String} {addr : Int64}
    (h : setDevInfo.Of j) (hhead : setDevInfo.head j = some (fgw, uid, addr, list)) (fresh : Fresh)
    (hsize : 2 ^ 32 ≤ setDevInfo.size j) : setDevInfo.Kept fresh j ↔ setDevInfo.Fits j := by
  have hlooked : setDevInfo.lookedAt j = 2 ^ 32 := Nat.min_eq_right hsize
  obtain ⟨hrejected, hnever⟩ := settles_over fresh h hhead hsize
  rw [Fits, numbers_of_head hhead, hlooked]
  cases hitems : setDevInfo.items list (2 ^ 32) with
  | none =>
    rw [kept_of_settles (hrejected ((made_eq_none_iff _ list fgw uid addr _).mpr hitems))]
    simp only [Option.map_none, reduceCtorEq, false_imp_iff, implies_true]
  | some items =>
    have hmade : setDevInfo.made list fgw uid addr (2 ^ 32) ≠ none := by
      rw [ne_eq, made_eq_none_iff, hitems]
      exact Option.some_ne_none items
    refine iff_of_false ?_ fun hf => absurd (hf _ rfl).2 (by omega)
    rintro ⟨fuel, r, hr, -⟩
    rw [hnever hmade fuel] at hr
    cases hr

theorem json_kept_iff {c : Command} {j : Json} (h : c.Of j) (fresh : Fresh) :
    c.Kept fresh j ↔ c.Fits j := by
  cases hhead : c.head j with
  | none =>
    have hfits : c.Fits j := by
      intro n hn
      rw [numbers, hhead] at hn
      cases hn
    exact iff_of_true ⟨0, none, json2Inner_malformed h hhead 0 fresh, fun _ hb => by cases hb⟩ hfits
  | some before =>
    obtain ⟨fgw, uid, addr, list⟩ := before
    rcases Nat.lt_or_ge (c.size j) (2 ^ 32) with hlt | hge
    · exact kept_iff_of_returns h hhead fresh (Or.inr hlt)
    · cases c with
      | getDevInfo => exact kept_iff_of_returns h hhead fresh (Or.inl rfl)
      | setDevInfo => exact kept_iff_of_over h hhead fresh hge

end Command

end WebApi

/-- **Numbers are kept** of a push request, and of one in JSON, exactly if they fit into the fields
    of the inner message and no list is longer than its counter counts. -/
theorem numbers_kept_iff {msg : Push.PushMsg} (hmsg : msg.IsDevInfo) {c : WebApi.Command} {j : Json}
    (hj : c.Of j) (fresh : WebApi.Fresh) :
    (msg.Kept ↔ msg.Fits) ∧ (c.Kept fresh j ↔ c.Fits j) :=
  ⟨push_kept_iff hmsg, WebApi.Command.json_kept_iff hj fresh⟩

/-- A request to set one item. -/
def setLamp (addr : Int) : Push.PushMsg :=
  { Push.newPushMsg .setDevInfo 1 with setDevInfo := some ⟨"gateway", addr, [⟨1, 23⟩]⟩ }

/-- The same, as the web API has it. -/
def setLampJson (addr : Int64) : Json :=
  .object [("cmd", .string "set-dev-info"), ("fgw", .string "gateway"), ("uid", .string "user"),
    ("addr", .integer addr), ("vals", .array [.object [("id", .integer 1), ("val", .integer 23)]])]

theorem numbers_kept_lamp :
    ((setLamp 258).Kept ↔ (setLamp 258).Fits) ∧
      (WebApi.Command.setDevInfo.Kept ⟨0⟩ (setLampJson 258) ↔
        WebApi.Command.setDevInfo.Fits (setLampJson 258)) :=
  numbers_kept_iff (Or.inr rfl) (by unfold WebApi.Command.Of; decide) ⟨0⟩

/-- A request for the device 65537 goes to the device 1. -/
theorem other_device_addressed :
    ¬ ((∀ msg : Push.PushMsg, msg.IsDevInfo → msg.Kept) ∧
      ∀ (c : WebApi.Command) (fresh : WebApi.Fresh) (j : Json), c.Of j → c.Kept fresh j) := by
  rintro ⟨hpush, -⟩
  have h := hpush (setLamp 65537) (Or.inr rfl) _ rfl
  exact absurd h (by decide)

end Monsys
