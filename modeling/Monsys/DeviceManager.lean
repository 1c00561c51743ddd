/-
  The device table of the gateway: `ZZBDevManager` of `server/zbdevice_manager.{h,cc}`, and the
  handler of `server/zzigbee_handler.cc` that registers devices in it.

  Two maps lead to one set of device records that are changed in place: by MAC and by address.

  1. **The manager** — as the source has it; a map holds pointers into a heap.  A failed assertion
     and the use of a dead pointer stop the program, each in its own way (`Abort`).
  2. **The directory** — what the table is for: a partial bijection of MACs and addresses with a
     record for every pair.  `enter` puts a MAC at an address unless another MAC is there.
  3. **Refinement** — `Files`: the maps and the heap hold the directory.  `add` does what `enter`
     does, but for a `Conflict`: a known MAC that announces the address of another known MAC.
  4. **Runs** — the two indexes agree in every state (`run_indexed`), and a row of registrations
     goes through exactly if it has no conflict (`registerAll_iff`).

  Modelling choices: `char` is signed, as on the machines the gateway is built for; allocation
  never gives out a pointer twice.
-/
import Monsys.ZigBeeMessage
import Monsys.Lib.Pairing
import Monsys.Lib.Runs

namespace Monsys

/-! ## The manager -/

/-- `ZB_DEV_STATE_ACTIVE`. -/
def zbDevStateActive : Int := 0

structure ZZBDevInfo where
  addr : UInt16
  name : String
  state : Int
  mac : ZbMac
  type : UInt16
deriving DecidableEq

/-- The loop of `ZBMacComp`. -/
def macCompLoop : List UInt8 → List UInt8 → Bool
  | a :: v1, b :: v2 =>
    if a.toInt8 < b.toInt8 then true else if b.toInt8 < a.toInt8 then false else macCompLoop v1 v2
  | _, _ => false

/-- `ZBMacComp`. -/
def zbMacComp (v1 v2 : ZbMac) : Bool := macCompLoop v1.data v2.data

/-- The order that `std::map` makes of `ZBMacComp`. -/
def macOrder (v1 v2 : ZbMac) : Ordering :=
  if zbMacComp v1 v2 then .lt else if zbMacComp v2 v1 then .gt else .eq

/-- Where a record is kept. -/
abbrev Ptr := Nat

/-- Why the program stops: an assertion fails, or a dead pointer is used. -/
inductive Abort
  | assert
  | fault
deriving DecidableEq, Repr

structure ZZBDevManager where
  macDevMap : Std.TreeMap ZbMac Ptr macOrder
  addrDevMap : Std.TreeMap UInt16 Ptr
  heap : List (Option ZZBDevInfo)

namespace ZZBDevManager

def new : ZZBDevManager := ⟨∅, ∅, []⟩

/-- The record a pointer leads to. -/
def dev (m : ZZBDevManager) (info : Ptr) : Option ZZBDevInfo := m.heap[info]?.join

/-- `find(mac)`. -/
def findMac (m : ZZBDevManager) (mac : ZbMac) : Option Ptr := m.macDevMap[mac]?

/-- `find(addr)`. -/
def findAddr (m : ZZBDevManager) (addr : UInt16) : Option Ptr := m.addrDevMap[addr]?

/-- The deletes of `reset`. -/
def deleteAll (heap : List (Option ZZBDevInfo)) : List Ptr → Except Abort (List (Option ZZBDevInfo))
  | [] => .ok heap
  | info :: infos =>
    if heap[info]?.join = none then .error .fault else deleteAll (heap.set info none) infos

def reset (m : ZZBDevManager) : Except Abort ZZBDevManager := do
  let heap ← deleteAll m.heap (m.macDevMap.toList.map Prod.snd)
  return ⟨∅, ∅, heap⟩

/-- `info->...`. -/
def deref (m : ZZBDevManager) (info : Ptr) : Except Abort ZZBDevInfo :=
  match m.dev info with
  | none => .error .fault
  | some dev => .ok dev

def assert (b : Bool) : Except Abort Unit := if b then .ok () else .error .assert

def add (m : ZZBDevManager) (mac : ZbMac) (addr : UInt16) (name : String) (type : UInt16) :
    Except Abort (Bool × ZZBDevManager) :=
  match m.findMac mac, m.findAddr addr with
  | some infoFromMac, none => do
    -- mac already exists, but addr is changed
    let dev ← m.deref infoFromMac
    assert (m.addrDevMap[dev.addr]? ≠ none)
    assert (m.addrDevMap[dev.addr]? = some infoFromMac)
    return (true,
      { m with
        heap := m.heap.set infoFromMac (some { dev with name, type, addr })
        addrDevMap := (m.addrDevMap.erase dev.addr).insert addr infoFromMac })
  | none, some _ =>
    -- XXX: should we kick the old one out?
    return (false, m)
  | some infoFromMac, some infoFromAddr => do
    -- mac and addr are already exist, update info only
    assert (infoFromMac = infoFromAddr)
    let dev ← m.deref infoFromMac
    return (true, { m with heap := m.heap.set infoFromMac (some { dev with name, type }) })
  | none, none =>
    let infoFromMac := m.heap.length
    return (true,
      { heap := m.heap ++ [some ⟨addr, name, zbDevStateActive, mac, type⟩]
        addrDevMap := m.addrDevMap.insert addr infoFromMac
        macDevMap := m.macDevMap.insert mac infoFromMac })

end ZZBDevManager

/-! ### The order of MACs -/

/-- The loop compares the bytes as signed ones, the first difference decides. -/
theorem macCompLoop_eq {v1 v2 : List UInt8} (h : v1.length = v2.length) :
    (if macCompLoop v1 v2 then .lt else if macCompLoop v2 v1 then .gt else .eq) =
      compare (v1.map UInt8.toInt8) (v2.map UInt8.toInt8) := by
  rw [List.compare_eq_compareLex]
  induction v1 generalizing v2 with
  | nil =>
    obtain rfl := List.length_eq_zero_iff.mp h.symm
    rfl
  | cons a v1 ih =>
    obtain ⟨b, v2, rfl⟩ := List.exists_cons_of_length_eq_add_one h.symm
    rw [List.map_cons, List.map_cons, List.compareLex_cons_cons, ← ih (Nat.succ.inj h),
      macCompLoop, macCompLoop]
    show _ = (compareOfLessAndEq a.toInt8 b.toInt8).then _
    rw [compareOfLessAndEq]
    by_cases hlt : a.toInt8 < b.toInt8
    · simp [hlt]
    · by_cases hgt : b.toInt8 < a.toInt8
      · have hne : a.toInt8 ≠ b.toInt8 := fun heq => Int8.lt_irrefl (heq ▸ hgt)
        simp [hlt, hgt, hne]
      · have heq : a.toInt8 = b.toInt8 := Int8.le_antisymm (Int8.not_lt.mp hgt) (Int8.not_lt.mp hlt)
        simp [heq]

theorem toInt8_injective : Function.Injective UInt8.toInt8 := by
  intro a b h
  exact UInt8.toBitVec_inj.mp (congrArg Int8.toBitVec h)

theorem macOrder_eq (v1 v2 : ZbMac) :
    macOrder v1 v2 = compareOn (fun v : ZbMac => v.data.map UInt8.toInt8) v1 v2 :=
  macCompLoop_eq (v1.length_eq.trans v2.length_eq.symm)

/-- `ZBMacComp` is an order, as `std::map` asks of it. -/
instance : Std.TransCmp macOrder := by
  rw [show macOrder = _ from funext fun v1 => funext (macOrder_eq v1)]
  infer_instance

theorem macOrder_eq_iff {v1 v2 : ZbMac} : macOrder v1 v2 = .eq ↔ v2 = v1 := by
  rw [macOrder_eq, compareOn, Std.LawfulEqOrd.compare_eq_iff_eq,
    (List.map_injective_iff.mpr toInt8_injective).eq_iff]
  constructor
  · intro h
    cases v1; cases v2
    cases h
    rfl
  · rintro rfl
    rfl

instance : Std.LawfulEqCmp macOrder where
  eq_of_compare h := (macOrder_eq_iff.mp h).symm

/-! ## The directory -/

/-- The devices: where each MAC is, and the record of its device. -/
abbrev Directory := Pairing ZbMac UInt16 ZZBDevInfo

namespace Directory

/-- The record of a MAC that registers: a known device keeps its state, a new one is active. -/
def record (p : Directory) (mac : ZbMac) (addr : UInt16) (name : String) (type : UInt16) :
    ZZBDevInfo :=
  ⟨addr, name, ((p.value mac).map ZZBDevInfo.state).getD zbDevStateActive, mac, type⟩

/-- A MAC registers at an address. -/
def enter (p : Directory) (mac : ZbMac) (addr : UInt16) (name : String) (type : UInt16) :
    Bool × Directory :=
  if h : p.FreeFor mac addr then (true, p.move mac addr (p.record mac addr name type) h)
  else (false, p)

/-- A known MAC announces the address of another known MAC. -/
def Conflict (p : Directory) (mac : ZbMac) (addr : UInt16) : Prop :=
  p.keys mac ≠ none ∧ ¬ p.FreeFor mac addr

instance (p : Directory) (mac : ZbMac) (addr : UInt16) : Decidable (p.Conflict mac addr) :=
  inferInstanceAs (Decidable (_ ∧ _))

end Directory

/-! ## Refinement -/

namespace ZZBDevManager

variable {m : ZZBDevManager} {q : Pairing ZbMac UInt16 Ptr} {p : Directory}

/-- The maps hold the pointers `q`, and these lead to the records of the directory `p`. -/
structure Files (m : ZZBDevManager) (q : Pairing ZbMac UInt16 Ptr) (p : Directory) : Prop where
  mac : ∀ mac, m.findMac mac = q.value mac
  addr : ∀ addr, m.findAddr addr = q.valueRight addr
  keys : q.keys = p.keys
  dev : ∀ mac info, q.value mac = some info → m.dev info = p.value mac
  own : ∀ mac dev, p.value mac = some dev → dev.mac = mac ∧ p.keys mac = some dev.addr

theorem files_new : new.Files .empty .empty where
  mac := fun _ => Std.TreeMap.getElem?_emptyc
  addr := fun _ => Std.TreeMap.getElem?_emptyc
  keys := rfl
  dev := nofun
  own := nofun

/-- A pointer of the maps leads to a record. -/
theorem Files.exists_dev (h : m.Files q p) {mac : ZbMac} {info : Ptr} (hi : q.value mac = some info) :
    ∃ dev, m.dev info = some dev ∧ p.value mac = some dev := by
  obtain ⟨addr, hkeys⟩ := q.exists_right hi
  rw [h.keys] at hkeys
  obtain ⟨dev, hdev⟩ := p.exists_value hkeys
  exact ⟨dev, (h.dev mac info hi).trans hdev, hdev⟩

/-- Two MACs do not share a record. -/
theorem Files.mac_unique (h : m.Files q p) {mac mac' : ZbMac} {info : Ptr}
    (hi : q.value mac = some info) (hi' : q.value mac' = some info) : mac = mac' := by
  obtain ⟨dev, hdev, hp⟩ := h.exists_dev hi
  obtain ⟨dev', hdev', hp'⟩ := h.exists_dev hi'
  obtain rfl : dev = dev' := Option.some.inj (hdev.symm.trans hdev')
  exact (h.own mac dev hp).1.symm.trans (h.own mac' dev hp').1

theorem lt_of_dev {info : Ptr} {dev : ZZBDevInfo} (h : m.dev info = some dev) :
    info < m.heap.length := by
  by_contra hlt
  rw [ZZBDevManager.dev, List.getElem?_eq_none (Nat.le_of_not_lt hlt)] at h
  cases h

/-- One device gets the record `dev` and moves to `addr`, the others stay as they are. -/
theorem Files.move (h : m.Files q p) {m' : ZZBDevManager} {mac : ZbMac} {addr : UInt16} {info : Ptr}
    {dev : ZZBDevInfo} (hq : q.FreeFor mac addr) (hp : p.FreeFor mac addr)
    (hmac : ∀ mac', m'.findMac mac' = (q.move mac addr info hq).value mac')
    (haddr : ∀ addr', m'.findAddr addr' = (q.move mac addr info hq).valueRight addr')
    (hinfo : m'.dev info = some dev)
    (hframe : ∀ mac' info', mac' ≠ mac → q.value mac' = some info' → m'.dev info' = m.dev info')
    (hown : dev.mac = mac ∧ dev.addr = addr) :
    m'.Files (q.move mac addr info hq) (p.move mac addr dev hp) where
  mac := hmac
  addr := haddr
  keys := by
    refine PEquiv.ext fun mac' => ?_
    rw [Pairing.move_keys, Pairing.move_keys, h.keys]
  dev := by
    intro mac' info' hi
    rw [Pairing.move_value] at hi ⊢
    split at hi
    · next heq =>
      obtain rfl := Option.some.inj hi
      rw [if_pos heq, hinfo]
    · next hne => rw [if_neg hne, hframe mac' info' hne hi, h.dev mac' info' hi]
  own := by
    intro mac' dev' hdev
    rw [Pairing.move_value] at hdev
    rw [Pairing.move_keys]
    split at hdev
    · next heq =>
      obtain rfl := Option.some.inj hdev
      rw [if_pos heq, heq, hown.1, hown.2]
      exact ⟨rfl, rfl⟩
    · next hne =>
      rw [if_neg hne]
      exact h.own mac' dev' hdev

theorem deref_of_dev {info : Ptr} {dev : ZZBDevInfo} (h : m.dev info = some dev) :
    m.deref info = .ok dev := by
  rw [deref, h]

theorem assert_of {P : Prop} [Decidable P] (h : P) : assert (decide P) = .ok () := by
  rw [decide_eq_true h]
  rfl

theorem assert_of_not {P : Prop} [Decidable P] (h : ¬ P) : assert (decide P) = .error .assert := by
  rw [decide_eq_false h]
  rfl

theorem addr_eq_iff {addr addr' : UInt16} : compare addr addr' = .eq ↔ addr' = addr := by
  rw [Std.LawfulEqOrd.compare_eq_iff_eq, eq_comm]

theorem dev_set (m : ZZBDevManager) {info : Ptr} {dev : ZZBDevInfo} (h : m.dev info = some dev)
    (new : ZZBDevInfo) (info' : Ptr) :
    (m.heap.set info (some new))[info']?.join = if info' = info then some new else m.dev info' := by
  rw [List.getElem?_set]
  split
  · next heq =>
    rw [if_pos (lt_of_dev h), if_pos heq.symm]
    rfl
  · next hne =>
    rw [if_neg (Ne.symm hne)]
    rfl

/-- An update in place leaves the records of the other MACs alone. -/
theorem Files.frame (h : m.Files q p) {mac mac' : ZbMac} {info info' : Ptr} {dev : ZZBDevInfo}
    (hi : q.value mac = some info) (hdev : m.dev info = some dev) (hne : mac' ≠ mac)
    (hi' : q.value mac' = some info') (new : ZZBDevInfo) :
    (m.heap.set info (some new))[info']?.join = m.dev info' := by
  rw [dev_set m hdev, if_neg]
  rintro rfl
  exact hne (h.mac_unique hi' hi)

/-- The first case of `add`: a known MAC has a new address. -/
theorem Files.add_moved (h : m.Files q p) {mac : ZbMac} {addr : UInt16} {info : Ptr}
    (hi : q.value mac = some info) (hfree : q.keys.symm addr = none) (hq : q.FreeFor mac addr)
    (hp : p.FreeFor mac addr) (name : String) (type : UInt16) :
    ∃ m', m.add mac addr name type = .ok (true, m') ∧
      m'.Files (q.move mac addr info hq) (p.move mac addr (p.record mac addr name type) hp) := by
  obtain ⟨dev, hdev, hval⟩ := h.exists_dev hi
  obtain ⟨hmac, hold⟩ := h.own mac dev hval
  have hfrom : m.findMac mac = some info := (h.mac mac).trans hi
  have hat : m.findAddr addr = none := (h.addr addr).trans ((q.valueRight_eq_none_iff addr).mpr hfree)
  have hkey : q.keys mac = some dev.addr := by rw [h.keys]; exact hold
  have hentry : m.addrDevMap[dev.addr]? = some info :=
    (h.addr dev.addr).trans (q.valueRight_eq_some_iff.mpr ⟨mac, hkey, hi⟩)
  have hrecord : p.record mac addr name type = { dev with name, type, addr } := by
    rw [Directory.record, hval, ← hmac]
    rfl
  refine ⟨{ m with
      heap := m.heap.set info (some { dev with name, type, addr })
      addrDevMap := (m.addrDevMap.erase dev.addr).insert addr info }, ?_, ?_⟩
  · rw [add, hfrom, hat]
    dsimp only
    rw [deref_of_dev hdev]
    dsimp only [bind, Except.bind]
    rw [hentry, assert_of (Option.some_ne_none info), assert_of rfl]
    rfl
  · rw [hrecord]
    refine h.move hq hp (fun mac' => ?_) (fun addr' => ?_) ?_ (fun mac' info' hne hi' => ?_) ⟨hmac, rfl⟩
    · rw [Pairing.move_value, ← h.mac]
      split
      · next heq => rw [heq]; exact hfrom
      · rfl
    · show ((m.addrDevMap.erase dev.addr).insert addr info)[addr']? = _
      rw [Std.TreeMap.getElem?_insert, Std.TreeMap.getElem?_erase, Pairing.move_valueRight, ← h.addr]
      refine if_congr addr_eq_iff rfl (if_congr ?_ rfl rfl)
      rw [addr_eq_iff, q.mem_symm_iff, hkey, Option.some_inj, eq_comm]
    · exact (dev_set m hdev _ info).trans (if_pos rfl)
    · exact h.frame hi hdev hne hi' _

/-- The third case of `add`: a known MAC at its own address. -/
theorem Files.add_again (h : m.Files q p) {mac : ZbMac} {addr : UInt16} {info : Ptr}
    (hi : q.value mac = some info) (hown : q.keys.symm addr = some mac) (hq : q.FreeFor mac addr)
    (hp : p.FreeFor mac addr) (name : String) (type : UInt16) :
    ∃ m', m.add mac addr name type = .ok (true, m') ∧
      m'.Files (q.move mac addr info hq) (p.move mac addr (p.record mac addr name type) hp) := by
  obtain ⟨dev, hdev, hval⟩ := h.exists_dev hi
  obtain ⟨hmac, hold⟩ := h.own mac dev hval
  have hkey : q.keys mac = some addr := q.mem_symm_iff.mp hown
  have haddr : dev.addr = addr := Option.some.inj (hold.symm.trans (h.keys ▸ hkey))
  have hfrom : m.findMac mac = some info := (h.mac mac).trans hi
  have hat : m.findAddr addr = some info :=
    (h.addr addr).trans (q.valueRight_eq_some_iff.mpr ⟨mac, hkey, hi⟩)
  have hrecord : p.record mac addr name type = { dev with name, type } := by
    rw [Directory.record, hval, ← hmac, ← haddr]
    rfl
  refine ⟨{ m with heap := m.heap.set info (some { dev with name, type }) }, ?_, ?_⟩
  · rw [add, hfrom, hat]
    dsimp only
    rw [assert_of rfl, deref_of_dev hdev]
    rfl
  · rw [hrecord]
    refine h.move hq hp (fun mac' => ?_) (fun addr' => ?_) ?_ (fun mac' info' hne hi' => ?_)
      ⟨hmac, haddr⟩
    · rw [Pairing.move_value, ← h.mac]
      split
      · next heq => rw [heq]; exact hfrom
      · rfl
    · rw [Pairing.move_valueRight, ← h.addr]
      split
      · next heq => rw [heq]; exact hat
      · next hne =>
        rw [if_neg]
        · rfl
        · intro hmem
          exact hne (Option.some.inj ((q.mem_symm_iff.mp hmem).symm.trans hkey))
    · exact (dev_set m hdev _ info).trans (if_pos rfl)
    · exact h.frame hi hdev hne hi' _

theorem dev_append (m : ZZBDevManager) (new : ZZBDevInfo) (info : Ptr) :
    (m.heap ++ [some new])[info]?.join = if info = m.heap.length then some new else m.dev info := by
  rw [List.getElem?_append]
  split
  · next hlt =>
    rw [if_neg (Nat.ne_of_lt hlt)]
    rfl
  · next hge =>
    split
    · next heq =>
      rw [heq, Nat.sub_self]
      rfl
    · next hne =>
      rw [dev, List.getElem?_eq_none (Nat.le_of_not_lt hge), List.getElem?_eq_none]
      exact Nat.sub_pos_of_lt (Nat.lt_of_le_of_ne (Nat.le_of_not_lt hge) (Ne.symm hne))

/-- The last case of `add`: a new device. -/
theorem Files.add_fresh (h : m.Files q p) {mac : ZbMac} {addr : UInt16} (hunknown : q.value mac = none)
    (hfree : q.keys.symm addr = none) (hq : q.FreeFor mac addr) (hp : p.FreeFor mac addr)
    (name : String) (type : UInt16) :
    ∃ m', m.add mac addr name type = .ok (true, m') ∧
      m'.Files (q.move mac addr m.heap.length hq)
        (p.move mac addr (p.record mac addr name type) hp) := by
  have hfrom : m.findMac mac = none := (h.mac mac).trans hunknown
  have hat : m.findAddr addr = none := (h.addr addr).trans ((q.valueRight_eq_none_iff addr).mpr hfree)
  have hkey : q.keys mac = none := (q.value_eq_none_iff mac).mp hunknown
  have hrecord : p.record mac addr name type = ⟨addr, name, zbDevStateActive, mac, type⟩ := by
    rw [Directory.record, (p.value_eq_none_iff mac).mpr (by rw [← h.keys]; exact hkey)]
    rfl
  refine ⟨{
      heap := m.heap ++ [some ⟨addr, name, zbDevStateActive, mac, type⟩]
      addrDevMap := m.addrDevMap.insert addr m.heap.length
      macDevMap := m.macDevMap.insert mac m.heap.length }, ?_, ?_⟩
  · rw [add, hfrom, hat]
    rfl
  · rw [hrecord]
    refine h.move hq hp (fun mac' => ?_) (fun addr' => ?_) ?_ (fun mac' info' _ hi' => ?_) ⟨rfl, rfl⟩
    · show (m.macDevMap.insert mac m.heap.length)[mac']? = _
      rw [Std.TreeMap.getElem?_insert, Pairing.move_value, ← h.mac]
      exact if_congr macOrder_eq_iff rfl rfl
    · show (m.addrDevMap.insert addr m.heap.length)[addr']? = _
      rw [Std.TreeMap.getElem?_insert, Pairing.move_valueRight, ← h.addr, if_neg (c := _ = some mac)]
      · exact if_congr addr_eq_iff rfl rfl
      · rw [q.mem_symm_iff, hkey]
        exact Option.some_ne_none _ ∘ Eq.symm
    · exact (dev_append m _ _).trans (if_pos rfl)
    · obtain ⟨dev, hdev, -⟩ := h.exists_dev hi'
      exact (dev_append m _ _).trans (if_neg (Nat.ne_of_lt (lt_of_dev hdev)))

/-- An address that is not free for a MAC has a device, which is not the MAC's own. -/
theorem Files.exists_other (h : m.Files q p) {mac : ZbMac} {addr : UInt16} (hp : ¬ p.FreeFor mac addr) :
    ∃ info', m.findAddr addr = some info' ∧ q.value mac ≠ some info' := by
  rw [Pairing.FreeFor, ← h.keys, not_or] at hp
  obtain ⟨other, hother⟩ := Option.ne_none_iff_exists'.mp hp.1
  obtain ⟨info', hi'⟩ := q.exists_value (q.mem_symm_iff.mp hother)
  refine ⟨info', ?_, fun hi => ?_⟩
  · exact (h.addr addr).trans (q.valueRight_eq_some_iff.mpr ⟨other, q.mem_symm_iff.mp hother, hi'⟩)
  · obtain rfl := h.mac_unique hi hi'
    exact hp.2 hother

/-- In a conflict the assertion of `add` fails. -/
theorem Files.add_conflict (h : m.Files q p) {mac : ZbMac} {addr : UInt16}
    (hc : p.Conflict mac addr) (name : String) (type : UInt16) :
    m.add mac addr name type = .error .assert := by
  obtain ⟨info', hat, hne⟩ := h.exists_other hc.2
  obtain ⟨at', hkey⟩ := Option.ne_none_iff_exists'.mp hc.1
  obtain ⟨info, hi⟩ := q.exists_value (h.keys ▸ hkey)
  rw [ZZBDevManager.add, h.mac, hi, hat]
  dsimp only
  rw [assert_of_not fun heq => hne (by rw [hi, heq])]
  rfl

/-- **`add` is `enter`**, but for a conflict. -/
theorem Files.add (h : m.Files q p) {mac : ZbMac} {addr : UInt16} (hc : ¬ p.Conflict mac addr)
    (name : String) (type : UInt16) :
    ∃ m' q', m.add mac addr name type = .ok ((p.enter mac addr name type).1, m') ∧
      m'.Files q' (p.enter mac addr name type).2 := by
  rw [Directory.enter]
  by_cases hp : p.FreeFor mac addr
  · have hq : q.FreeFor mac addr := by rw [Pairing.FreeFor, h.keys]; exact hp
    rw [dif_pos hp]
    cases hi : q.value mac with
    | none =>
      have hfree : q.keys.symm addr = none := by
        refine hq.resolve_right fun hown => ?_
        rw [q.mem_symm_iff, (q.value_eq_none_iff mac).mp hi] at hown
        cases hown
      obtain ⟨m', heq, hfiles⟩ := h.add_fresh hi hfree hq hp name type
      exact ⟨m', _, heq, hfiles⟩
    | some info =>
      rcases hq with hfree | hown
      · obtain ⟨m', heq, hfiles⟩ := h.add_moved hi hfree (Or.inl hfree) hp name type
        exact ⟨m', _, heq, hfiles⟩
      · obtain ⟨m', heq, hfiles⟩ := h.add_again hi hown (Or.inr hown) hp name type
        exact ⟨m', _, heq, hfiles⟩
  · obtain ⟨info', hat, -⟩ := h.exists_other hp
    have hunknown : p.keys mac = none := not_not.mp fun hknown => hc ⟨hknown, hp⟩
    have hfrom : m.findMac mac = none := by
      rw [h.mac, q.value_eq_none_iff, h.keys]
      exact hunknown
    refine ⟨m, q, ?_, by rw [dif_neg hp]; exact h⟩
    rw [dif_neg hp, ZZBDevManager.add, hfrom, hat]
    rfl

/-- The deletes go through if no pointer is there twice and all are live. -/
theorem deleteAll_ok {heap : List (Option ZZBDevInfo)} {infos : List Ptr} (hnodup : infos.Nodup)
    (hlive : ∀ info ∈ infos, heap[info]?.join ≠ none) : ∃ heap', deleteAll heap infos = .ok heap' := by
  induction infos generalizing heap with
  | nil => exact ⟨heap, rfl⟩
  | cons info infos ih =>
    obtain ⟨hfresh, hnodup⟩ := List.nodup_cons.mp hnodup
    rw [deleteAll, if_neg (hlive info List.mem_cons_self)]
    refine ih hnodup fun info' hmem => ?_
    have hne : info ≠ info' := by
      rintro rfl
      exact hfresh hmem
    rw [List.getElem?_set_ne hne]
    exact hlive info' (List.mem_cons_of_mem _ hmem)

/-- **`reset`** frees every record once. -/
theorem Files.reset (h : m.Files q p) : ∃ m', m.reset = .ok m' ∧ m'.Files .empty .empty := by
  have hentry : ∀ e ∈ m.macDevMap.toList, q.value e.1 = some e.2 := by
    intro e he
    rw [← h.mac]
    exact Std.TreeMap.mem_toList_iff_getElem?_eq_some.mp he
  have hnodup : (m.macDevMap.toList.map Prod.snd).Nodup := by
    rw [List.Nodup, List.pairwise_map]
    refine m.macDevMap.distinct_keys_toList.imp_of_mem fun {e e'} he he' hne heq => hne ?_
    exact macOrder_eq_iff.mpr (h.mac_unique (hentry e' he') (by rw [← heq]; exact hentry e he))
  have hlive : ∀ info ∈ m.macDevMap.toList.map Prod.snd, m.heap[info]?.join ≠ none := by
    intro info hmem
    obtain ⟨e, he, rfl⟩ := List.mem_map.mp hmem
    obtain ⟨dev, hdev, -⟩ := h.exists_dev (hentry e he)
    exact fun hnone => nomatch hdev.symm.trans hnone
  obtain ⟨heap, heq⟩ := deleteAll_ok hnodup hlive
  refine ⟨⟨∅, ∅, heap⟩, by rw [ZZBDevManager.reset, heq]; rfl, ⟨?_, ?_, rfl, nofun, nofun⟩⟩
  · exact fun _ => Std.TreeMap.getElem?_emptyc
  · exact fun _ => Std.TreeMap.getElem?_emptyc

/-! ## Runs -/

/-- A call of the manager. -/
inductive Call
  | add (mac : ZbMac) (addr : UInt16) (name : String) (type : UInt16)
  | reset

def call (m : ZZBDevManager) : Call → Except Abort ZZBDevManager
  | .add mac addr name type => do
    let (_, m) ← m.add mac addr name type
    return m
  | .reset => m.reset

/-- A row of calls. -/
def run (m : ZZBDevManager) (calls : List Call) : Except Abort ZZBDevManager :=
  calls.foldlM call m

/-- A call that does not stop the program leaves maps and heap with a directory. -/
theorem Files.call (h : m.Files q p) {c : Call} {m' : ZZBDevManager} (hcall : m.call c = .ok m') :
    ∃ q' p', m'.Files q' p' := by
  cases c with
  | add mac addr name type =>
    by_cases hc : p.Conflict mac addr
    · rw [ZZBDevManager.call, h.add_conflict hc] at hcall
      cases hcall
    · obtain ⟨m₁, q₁, heq, h₁⟩ := h.add hc name type
      rw [ZZBDevManager.call, heq] at hcall
      cases hcall
      exact ⟨q₁, _, h₁⟩
  | reset =>
    obtain ⟨m₁, heq, h₁⟩ := h.reset
    rw [ZZBDevManager.call, heq] at hcall
    cases hcall
    exact ⟨_, _, h₁⟩

theorem Files.run (h : m.Files q p) {calls : List Call} {m' : ZZBDevManager}
    (hrun : m.run calls = .ok m') : ∃ q' p', m'.Files q' p' := by
  induction calls generalizing m q p with
  | nil =>
    cases hrun
    exact ⟨q, p, h⟩
  | cons c calls ih =>
    rw [ZZBDevManager.run, List.foldlM_cons] at hrun
    cases hcall : m.call c with
    | error e =>
      rw [hcall] at hrun
      cases hrun
    | ok m₁ =>
      rw [hcall] at hrun
      obtain ⟨q₁, p₁, h₁⟩ := h.call hcall
      exact ih h₁ hrun

/-- The two maps are indexes of one set of devices. -/
structure Indexed (m : ZZBDevManager) : Prop where
  mac : ∀ mac info, m.findMac mac = some info →
    ∃ dev, m.dev info = some dev ∧ dev.mac = mac ∧ m.findAddr dev.addr = some info
  addr : ∀ addr info, m.findAddr addr = some info →
    ∃ dev, m.dev info = some dev ∧ dev.addr = addr ∧ m.findMac dev.mac = some info

theorem Files.indexed (h : m.Files q p) : m.Indexed where
  mac := by
    intro mac info hfrom
    have hi : q.value mac = some info := (h.mac mac).symm.trans hfrom
    obtain ⟨dev, hdev, hval⟩ := h.exists_dev hi
    obtain ⟨hmac, hkey⟩ := h.own mac dev hval
    refine ⟨dev, hdev, hmac, ?_⟩
    rw [h.addr, q.valueRight_eq_some_iff]
    exact ⟨mac, by rw [h.keys]; exact hkey, hi⟩
  addr := by
    intro addr info hat
    rw [h.addr, q.valueRight_eq_some_iff] at hat
    obtain ⟨mac, hkey, hi⟩ := hat
    obtain ⟨dev, hdev, hval⟩ := h.exists_dev hi
    obtain ⟨hmac, hold⟩ := h.own mac dev hval
    rw [h.keys] at hkey
    refine ⟨dev, hdev, Option.some.inj (hold.symm.trans hkey), ?_⟩
    rw [hmac, h.mac]
    exact hi

theorem enter_fst (p : Directory) {mac : ZbMac} {addr : UInt16} {name : String} {type : UInt16} :
    (p.enter mac addr name type).1 = true ↔ p.FreeFor mac addr := by
  rw [Directory.enter]
  split
  · next hfree => exact iff_of_true rfl hfree
  · next hfree => exact iff_of_false Bool.false_ne_true hfree

/-- A registration is refused exactly if the MAC is unknown and the address is taken. -/
theorem Files.add_refused_iff (h : m.Files q p) {mac : ZbMac} {addr : UInt16} {name : String}
    {type : UInt16} {m' : ZZBDevManager} :
    m.add mac addr name type = .ok (false, m') ↔
      m.findMac mac = none ∧ m.findAddr addr ≠ none ∧ m' = m := by
  constructor
  · intro hadd
    have hc : ¬ p.Conflict mac addr := by
      intro hc
      rw [h.add_conflict hc] at hadd
      cases hadd
    have hp : ¬ p.FreeFor mac addr := by
      intro hp
      obtain ⟨m₁, q₁, heq, -⟩ := h.add hc name type
      rw [hadd, (enter_fst p).mpr hp] at heq
      cases heq
    have hfrom : m.findMac mac = none := by
      rw [h.mac, q.value_eq_none_iff, h.keys]
      exact not_not.mp fun hknown => hc ⟨hknown, hp⟩
    obtain ⟨info', hat, -⟩ := h.exists_other hp
    rw [ZZBDevManager.add, hfrom, hat] at hadd
    cases hadd
    exact ⟨hfrom, by rw [hat]; exact Option.some_ne_none _, rfl⟩
  · rintro ⟨hfrom, hat, rfl⟩
    obtain ⟨info', hat⟩ := Option.ne_none_iff_exists'.mp hat
    rw [ZZBDevManager.add, hfrom, hat]
    rfl

/-- A device that has moved is no longer found at its old address. -/
theorem Files.add_leaves (h : m.Files q p) {mac : ZbMac} {addr : UInt16} {name : String}
    {type : UInt16} {m' : ZZBDevManager} (hadd : m.add mac addr name type = .ok (true, m'))
    {info : Ptr} {dev : ZZBDevInfo} (hfrom : m.findMac mac = some info)
    (hdev : m.dev info = some dev) (hne : dev.addr ≠ addr) : m'.findAddr dev.addr = none := by
  have hc : ¬ p.Conflict mac addr := by
    intro hc
    rw [h.add_conflict hc] at hadd
    cases hadd
  obtain ⟨m₁, q₁, heq, h₁⟩ := h.add hc name type
  rw [hadd] at heq
  obtain ⟨hret, rfl⟩ := Prod.mk.inj (Except.ok.inj heq)
  have hp : p.FreeFor mac addr := (enter_fst p).mp hret.symm
  have hi : q.value mac = some info := (h.mac mac).symm.trans hfrom
  have hval : p.value mac = some dev := (h.dev mac info hi).symm.trans hdev
  have hkey : p.keys.symm dev.addr = some mac := p.mem_symm_iff.mpr (h.own mac dev hval).2
  rw [h₁.addr, q₁.valueRight_eq_none_iff, h₁.keys, Directory.enter, dif_pos hp, Pairing.move_symm,
    if_neg hne, if_pos hkey]

/-- **The device table is consistent.**  After any row of calls that no assertion stops, the two
    maps are indexes of one set of devices, a registration is refused exactly if its MAC is unknown
    and its address taken, and then nothing changes, and a device that moves leaves its old
    address. -/
theorem run_indexed (calls : List Call) (m : ZZBDevManager) (hrun : new.run calls = .ok m) :
    m.Indexed ∧
    (∀ mac addr name type m', m.add mac addr name type = .ok (false, m') ↔
      m.findMac mac = none ∧ m.findAddr addr ≠ none ∧ m' = m) ∧
    ∀ mac addr name type m' info dev, m.add mac addr name type = .ok (true, m') →
      m.findMac mac = some info → m.dev info = some dev → dev.addr ≠ addr →
        m'.findAddr dev.addr = none := by
  obtain ⟨q, p, h⟩ := files_new.run hrun
  exact ⟨h.indexed, fun _ _ _ _ _ => h.add_refused_iff, fun _ _ _ _ _ _ _ hadd => h.add_leaves hadd⟩

/-- A MAC by its last byte. -/
def macOf (b : UInt8) : ZbMac := ⟨[0, 0, 0, 0, 0, 0, 0, b], rfl⟩

/-- A device moves, another one takes its old address, and a third one is refused. -/
theorem run_indexed_moved :
    ∃ m, new.run [.add (macOf 1) 7 "dev-xxx" 1, .add (macOf 1) 8 "dev-xxx" 1,
      .add (macOf 0x82) 7 "dev-xxx" 1, .add (macOf 3) 7 "dev-xxx" 1] = .ok m ∧ m.Indexed := by
  have hok : (new.run [.add (macOf 1) 7 "dev-xxx" 1, .add (macOf 1) 8 "dev-xxx" 1,
      .add (macOf 0x82) 7 "dev-xxx" 1, .add (macOf 3) 7 "dev-xxx" 1]).isOk := by decide
  cases hrun : new.run [.add (macOf 1) 7 "dev-xxx" 1, .add (macOf 1) 8 "dev-xxx" 1,
      .add (macOf 0x82) 7 "dev-xxx" 1, .add (macOf 3) 7 "dev-xxx" 1] with
  | error e =>
    rw [hrun] at hok
    cases hok
  | ok m => exact ⟨m, rfl, (run_indexed _ m hrun).1⟩

/-! ## Registrations -/

/-- `processMsg(ZZBRegReq&)`: what it returns, what it sends, and the table. -/
def processRegReq (m : ZZBDevManager) (msg : ZZBRegReq) (j : Junk) :
    Except Abort ((Int × List UInt8) × ZZBDevManager) := do
  let (added, m) ← m.add msg.mac msg.addr "dev-xxx" 1
  let rsp := { ZZBRegRsp.new j with status := if added then 0 else 0xFF, addr := msg.addr }
  let (_, wrote) := rsp.encode (1 <<< 10)
  if wrote.rv < 0 then return ((-1, []), m)
  return ((0, wrote.out), m)

/-- Register requests one after the other. -/
def registerAll (m : ZZBDevManager) :
    List (ZZBRegReq × Junk) → Except Abort (List (Int × List UInt8) × ZZBDevManager)
  | [] => .ok ([], m)
  | (msg, j) :: reqs => do
    let (r, m) ← m.processRegReq msg j
    let (rs, m) ← m.registerAll reqs
    return (r :: rs, m)

/-- What a register request does to the directory. -/
def registered (p : Directory) (req : ZZBRegReq × Junk) : Directory :=
  (p.enter req.1.mac req.1.addr "dev-xxx" 1).2

/-- A registration without a conflict is answered: status 0 if it is accepted. -/
theorem Files.processRegReq (h : m.Files q p) {req : ZZBRegReq × Junk}
    (hc : ¬ p.Conflict req.1.mac req.1.addr) :
    ∃ r m' q', m.processRegReq req.1 req.2 = .ok (r, m') ∧ m'.Files q' (registered p req) := by
  obtain ⟨m', q', heq, h'⟩ := h.add hc "dev-xxx" 1
  rw [ZZBDevManager.processRegReq, heq]
  generalize (p.enter req.1.mac req.1.addr "dev-xxx" 1).1 = added
  dsimp only [bind, Except.bind]
  by_cases hrv : ({ ZZBRegRsp.new req.2 with
      status := if added then 0 else 0xFF, addr := req.1.addr }.encode (1 <<< 10)).2.rv < 0
  · exact ⟨_, m', q', if_pos hrv, h'⟩
  · exact ⟨_, m', q', if_neg hrv, h'⟩

theorem Files.registerAll_ok_iff (h : m.Files q p) (reqs : List (ZZBRegReq × Junk)) :
    m.registerAll reqs ≠ .error .assert ↔
      ∀ v ∈ Runs.visits registered p reqs, ¬ v.1.Conflict v.2.1.mac v.2.1.addr := by
  induction reqs generalizing m q p with
  | nil => exact ⟨fun _ v hv => (nomatch hv), fun _ heq => nomatch heq⟩
  | cons req reqs ih =>
    rw [Runs.visits_cons, List.forall_mem_cons, ZZBDevManager.registerAll]
    by_cases hc : p.Conflict req.1.mac req.1.addr
    · rw [ZZBDevManager.processRegReq, h.add_conflict hc]
      exact iff_of_false (fun hne => hne rfl) fun hall => hall.1 hc
    · obtain ⟨r, m₁, q₁, heq, h₁⟩ := h.processRegReq hc
      rw [heq, ← ih h₁]
      dsimp only [bind, Except.bind]
      cases m₁.registerAll reqs with
      | error e => exact ⟨fun hne => ⟨hc, hne⟩, fun hne => hne.2⟩
      | ok res => exact iff_of_true nofun ⟨hc, nofun⟩

/-- **A row of registrations goes through exactly if it has no conflict**: no known MAC announces
    the address of another known MAC. -/
theorem registerAll_iff (reqs : List (ZZBRegReq × Junk)) :
    new.registerAll reqs ≠ .error .assert ↔
      ∀ v ∈ Runs.visits registered .empty reqs, ¬ v.1.Conflict v.2.1.mac v.2.1.addr :=
  files_new.registerAll_ok_iff reqs

/-- A register request. -/
def regReq (mac : ZbMac) (addr : UInt16) : ZZBRegReq × Junk :=
  ({ ZZBRegReq.new ⟨0, 0, 0, 0, 0⟩ with mac, addr }, ⟨0, 0, 0, 0, 0⟩)

/-- Two devices register, and the first one announces the address of the second. -/
theorem registerAll_aborts :
    new.registerAll [regReq (macOf 1) 7, regReq (macOf 2) 8, regReq (macOf 1) 8] =
      .error .assert := by
  rw [← not_ne_iff, files_new.registerAll_ok_iff]
  decide

end ZZBDevManager

end Monsys
