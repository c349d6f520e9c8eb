import KernelModules.Lib.Table
import Mathlib.Tactic

/-!
# Interrupts of the VMOD/IO carriers

A VMOD/IO carrier has four slots, each with its own VME interrupt vector.  The vectors of a carrier
are computed from that of its first slot, and an interrupt finds the carrier by the upper nibble of
its vector and the slot by the lower one.

* `vmodioInit` configures the carriers, `Driver.registerIsr`, `Driver.getAddressSpace` and
  `Driver.fire` are a registration, a request for an address and an interrupt;
* `Routes` is what the mezzanine drivers rely on;
* `routes_iff` says for which lists of carriers it holds.

A store outside `lun_slot_to_irq` is dropped and noted in `bounds`; an access outside
`mezzanines_callback` has no outcome.  The registration with the carrier register succeeds.
-/

namespace KernelModules.Vmod

open Function KernelModules.Lib

/-- `MAX_DEVICES` and `VMODIO_SLOTS`. -/
def maxDevices : ℕ := 16
def vmodioSlots : ℕ := 4

/-- The vector of a slot: `base_irq - (0xe - (~(1<<slot) & 0xf))`. -/
def vmodioIrqShift (baseIrq : ℤ) (slot : ℕ) : ℤ :=
  baseIrq - (0xe - ((0xf ^^^ 1 <<< slot) &&& 0xf : ℕ))

/-- `0xf & (byte >> 4)`. -/
def upperNibbleOf (byte : ℤ) : ℕ := (byte / 16 % 16).toNat

/-- `interrupt_to_slot`. -/
def interruptToSlot : List ℤ :=
  [-1, -1, -1, -1,
   -1, -1, -1, 3,
   -1, -1, -1, 2,
   -1, 1, 0, -1]

def irqToSlot (irq : ℤ) : ℤ := interruptToSlot.getD (irq % 16).toNat 0

/-- `struct vmodio`. -/
structure Vmodio where
  lun : ℤ
  vmeAddr : BitVec 64
  vaddr : BitVec 64
  irq : ℕ → ℤ

/-- `struct mz_callback`: two addresses. -/
structure MzCallback where
  callback : ℕ
  dev : ℕ
  deriving DecidableEq

/-- Whose handler a VME vector has: another driver's, or that of a slot of a device. -/
inductive Owner
  | other
  | slot (device i : ℕ)

/-- The driver's tables, and the table of the VME vectors. -/
structure Driver where
  deviceTable : ℕ → Vmodio
  irqToLun : ℕ → ℤ
  lunSlotToIrq : ℤ × ℕ → ℤ
  mezzaninesCallback : ℤ × ℤ → MzCallback
  vmeIrqTable : ℤ → Option Owner
  bounds : Bool

/-- A carrier in the parameters of the module. -/
structure Carrier where
  lun : ℤ
  baseAddress : BitVec 64
  irq : ℤ

/-- The number is an index of a table of `MAX_DEVICES`. -/
def InTable (lun : ℤ) : Prop := 0 ≤ lun ∧ lun < maxDevices

instance (lun : ℤ) : Decidable (InTable lun) := inferInstanceAs (Decidable (_ ∧ _))

/-- `vme_request_irq`. -/
def Driver.requestIrq (s : Driver) (vec : ℤ) (o : Owner) : Option Driver :=
  if 0 ≤ vec ∧ vec < 256 ∧ (s.vmeIrqTable vec).isNone then
    some { s with vmeIrqTable := update s.vmeIrqTable vec (some o) }
  else none

/-- `lun_to_dev`. -/
def Driver.lunToDev (s : Driver) (lun : ℤ) : Option Vmodio :=
  ((List.range maxDevices).map s.deviceTable).find? fun dev => dev.lun = lun

def Driver.withinBounds (s : Driver) (board position : ℤ) : Bool :=
  match s.lunToDev board with
  | none => false
  | some dev => 0 ≤ dev.lun && 0 ≤ position && position < vmodioSlots

/-- `struct carrier_as`. -/
structure CarrierAs where
  address : BitVec 64
  width : ℤ
  size : ℤ
  isBigEndian : ℤ

/-- `vmodio_offsets`. -/
def vmodioOffsets : List (BitVec 64) := [0x0000, 0x0200, 0x0400, 0x0600]

def Driver.getAddressSpace (s : Driver) (board position space : ℤ) : ℤ × Option CarrierAs :=
  if space ≠ 1 then (-1, none)
  else
    match s.lunToDev board with
    | none => (-1, none)
    | some dev =>
      if position < 0 ∨ vmodioSlots ≤ position then (-1, none)
      else (0, some ⟨dev.vaddr + vmodioOffsets.getD position.toNat 0, 16, 0x200, 1⟩)

/-- A call of `register_isr`. -/
structure Registration where
  entry : MzCallback
  board : ℤ
  position : ℤ

def Driver.registerIsr (s : Driver) (r : Registration) : Option (ℤ × Driver) :=
  if s.withinBounds r.board r.position = false then some (-1, s)
  else if InTable r.board then
    some (0, { s with
      mezzaninesCallback := update s.mezzaninesCallback (r.board, r.position) r.entry })
  else none

/-- Registrations that all succeed. -/
def Driver.registerAll (s : Driver) : List Registration → Option Driver
  | [] => some s
  | r :: rs =>
    match s.registerIsr r with
    | some (0, t) => t.registerAll rs
    | _ => none

/-- `vmodio_interrupt`: the callback that it calls, if any. -/
def Driver.interrupt (s : Driver) (irqno : ℤ) : Option (Option MzCallback) :=
  let carrier := s.irqToLun (upperNibbleOf irqno)
  let position := irqToSlot irqno
  if s.withinBounds carrier position = false then some none
  else if InTable carrier then
    let entry := s.mezzaninesCallback (carrier, position)
    some (if entry.callback = 0 then none else some entry)
  else none

/-- A VME interrupt with a vector of this driver. -/
def Driver.fire (s : Driver) (vec : ℤ) : Option (Option MzCallback) :=
  match s.vmeIrqTable vec with
  | some (.slot device i) => s.interrupt ((s.deviceTable device).irq i)
  | _ => none

/-- One round of the loop in `device_init`. -/
def Driver.slotInit (device : ℕ) (c : Carrier) (s : Driver) (i : ℕ) : Option Driver :=
  let slotIrq := vmodioIrqShift c.irq i
  let dev := s.deviceTable device
  Driver.requestIrq
    { s with
      deviceTable := update s.deviceTable device { dev with irq := update dev.irq i slotIrq }
      lunSlotToIrq := if InTable c.lun then update s.lunSlotToIrq (c.lun, i) slotIrq
        else s.lunSlotToIrq
      bounds := s.bounds && InTable c.lun }
    slotIrq (.slot device i)

/-- `device_init`, where `map` is `vmodio_map`. -/
def Driver.deviceInit (map : BitVec 64 → BitVec 64) (s : Driver) (device : ℕ) (c : Carrier) :
    Option Driver :=
  if map c.baseAddress = -1 then none
  else
    (List.range vmodioSlots).foldlM (Driver.slotInit device c)
      { s with
        deviceTable := update s.deviceTable device
          ⟨c.lun, c.baseAddress, map c.baseAddress, (s.deviceTable device).irq⟩
        irqToLun := update s.irqToLun (upperNibbleOf c.irq) c.lun }

/-- The loop over the devices. -/
def Driver.initFrom (map : BitVec 64 → BitVec 64) : ℕ → List Carrier → Driver → Option Driver
  | _, [], s => some s
  | device, c :: cs, s => (s.deviceInit map device c).bind (Driver.initFrom map (device + 1) cs)

/-- The tables before the loop; the vectors in `taken` belong to other drivers. -/
def Driver.start (taken : ℤ → Bool) : Driver where
  deviceTable _ := ⟨0, 0, 0, fun _ => 0⟩
  irqToLun _ := -1
  lunSlotToIrq _ := -1
  mezzaninesCallback _ := ⟨0, 0⟩
  vmeIrqTable vec := if taken vec then some .other else none
  bounds := true

/-- The carriers of the three lists of parameters. -/
def carriers (lun : List ℤ) (baseAddress : List (BitVec 64)) (irq : List ℤ) : List Carrier :=
  List.zipWith3 Carrier.mk lun baseAddress irq

/-- `vmodio_init`: the tables when it succeeds. -/
def vmodioInit (map : BitVec 64 → BitVec 64) (taken : ℤ → Bool) (lun : List ℤ)
    (baseAddress : List (BitVec 64)) (irq : List ℤ) : Option Driver :=
  if maxDevices ≤ lun.length then none
  else if lun.length ≠ baseAddress.length ∨ lun.length ≠ irq.length then none
  else Driver.initFrom map 0 (carriers lun baseAddress irq) (Driver.start taken)

/-- The callback last registered for a slot, if it is one. -/
def lastRegistered (rs : List Registration) (board position : ℤ) : Option MzCallback :=
  ((rs.filter fun r => r.board = board ∧ r.position = position).getLast?.map
    Registration.entry).filter fun e => e.callback ≠ 0

/-- A carrier of the list has the number, and the position is a slot. -/
def Configured (cs : List Carrier) (board position : ℤ) : Prop :=
  (∃ c ∈ cs, c.lun = board) ∧ 0 ≤ position ∧ position < vmodioSlots

/-- What the drivers of the mezzanines rely on: every index is within its table, only configured
slots are accepted, and the vector of a slot calls what was registered last for the slot. -/
structure Routes (cs : List Carrier) (s : Driver) : Prop where
  bounds : s.bounds = true
  register : ∀ rs t, s.registerAll rs = some t → ∀ r, ∃ cc u, t.registerIsr r = some (cc, u) ∧
    (cc = 0 → Configured cs r.board r.position)
  address : ∀ board position space, (s.getAddressSpace board position space).1 = 0 →
    Configured cs board position
  interrupt : ∀ rs t, s.registerAll rs = some t → ∀ c ∈ cs, ∀ i < vmodioSlots,
    t.fire (vmodioIrqShift c.irq i) = some (lastRegistered rs c.lun i)

/-- The carriers have numbers below 16, number 0 is among them, and the vector of a first slot ends
in `0xe`. -/
def Sound (cs : List Carrier) : Prop :=
  (∀ c ∈ cs, InTable c.lun ∧ c.irq % 16 = 0xe) ∧ ∃ c ∈ cs, c.lun = 0

/-! ### Vectors -/

theorem vmodioIrqShift_eq (baseIrq : ℤ) :
    vmodioIrqShift baseIrq 0 = baseIrq ∧ vmodioIrqShift baseIrq 1 = baseIrq - 1 ∧
      vmodioIrqShift baseIrq 2 = baseIrq - 3 ∧ vmodioIrqShift baseIrq 3 = baseIrq - 7 := by
  have hshift : ∀ i, vmodioIrqShift baseIrq i =
      baseIrq - (0xe - ((0xf ^^^ 1 <<< i) &&& 0xf : ℕ)) := fun _ => rfl
  have hzero : ((0xf ^^^ 1 <<< 0) &&& 0xf : ℕ) = 14 := by decide
  have hone : ((0xf ^^^ 1 <<< 1) &&& 0xf : ℕ) = 13 := by decide
  have htwo : ((0xf ^^^ 1 <<< 2) &&& 0xf : ℕ) = 11 := by decide
  have hthree : ((0xf ^^^ 1 <<< 3) &&& 0xf : ℕ) = 7 := by decide
  simp only [hshift, hzero, hone, htwo, hthree]
  omega

theorem irqToSlot_eq {irq : ℤ} {n : ℕ} (h : irq % 16 = n) :
    irqToSlot irq = interruptToSlot.getD n 0 := by
  rw [irqToSlot, h, Int.toNat_natCast]

theorem irqToSlot_eq_zero {irq : ℤ} (h : irqToSlot irq = 0) : irq % 16 = 0xe := by
  obtain ⟨n, hn⟩ : ∃ n : ℕ, irq % 16 = n := ⟨(irq % 16).toNat, by omega⟩
  have hlt : n < 16 := by omega
  rw [irqToSlot_eq hn] at h
  have htable : ∀ n < 16, interruptToSlot.getD n 0 = 0 → n = 0xe := by decide
  have hlast := htable n hlt h
  omega

theorem decode_shift {baseIrq : ℤ} (h : baseIrq % 16 = 0xe) {i : ℕ} (hi : i < vmodioSlots) :
    irqToSlot (vmodioIrqShift baseIrq i) = i ∧
      upperNibbleOf (vmodioIrqShift baseIrq i) = upperNibbleOf baseIrq := by
  obtain ⟨hzero, hone, htwo, hthree⟩ := vmodioIrqShift_eq baseIrq
  have hcases : i = 0 ∨ i = 1 ∨ i = 2 ∨ i = 3 := by
    change i < 4 at hi
    omega
  unfold upperNibbleOf
  rcases hcases with rfl | rfl | rfl | rfl
  · rw [hzero]
    exact ⟨irqToSlot_eq (n := 14) (by omega), rfl⟩
  · rw [hone]
    exact ⟨irqToSlot_eq (n := 13) (by omega), by omega⟩
  · rw [htwo]
    exact ⟨irqToSlot_eq (n := 11) (by omega), by omega⟩
  · rw [hthree]
    exact ⟨irqToSlot_eq (n := 7) (by omega), by omega⟩

/-! ### The carriers -/

theorem requestIrq_some {s s' : Driver} {vec : ℤ} {o : Owner} (h : s.requestIrq vec o = some s') :
    (0 ≤ vec ∧ vec < 256) ∧ s.vmeIrqTable vec = none ∧
      s' = { s with vmeIrqTable := update s.vmeIrqTable vec (some o) } := by
  unfold Driver.requestIrq at h
  split at h
  · rename_i hfree
    obtain ⟨hlo, hhi, hnone⟩ := hfree
    cases h
    exact ⟨⟨hlo, hhi⟩, Option.isNone_iff_eq_none.mp hnone, rfl⟩
  · cases h

/-- What the first `k` rounds of the loop over the slots of a device do. -/
structure SlotsOf (s s' : Driver) (device : ℕ) (c : Carrier) (k : ℕ) : Prop where
  lun : (s'.deviceTable device).lun = (s.deviceTable device).lun
  irq : ∀ i < k, (s'.deviceTable device).irq i = vmodioIrqShift c.irq i
  others : ∀ e, e ≠ device → s'.deviceTable e = s.deviceTable e
  irqToLun : s'.irqToLun = s.irqToLun
  callbacks : s'.mezzaninesCallback = s.mezzaninesCallback
  bounds : s'.bounds = (s.bounds && (decide (k = 0) || decide (InTable c.lun)))
  vectors : ∀ i < k, (0 ≤ vmodioIrqShift c.irq i ∧ vmodioIrqShift c.irq i < 256) ∧
    s.vmeIrqTable (vmodioIrqShift c.irq i) = none ∧
    s'.vmeIrqTable (vmodioIrqShift c.irq i) = some (.slot device i)
  kept : ∀ v o, s.vmeIrqTable v = some o → s'.vmeIrqTable v = some o

theorem slots_init {s s' : Driver} {device : ℕ} {c : Carrier} {k : ℕ}
    (h : (List.range k).foldlM (Driver.slotInit device c) s = some s') :
    SlotsOf s s' device c k := by
  induction k generalizing s' with
  | zero =>
    cases h
    exact ⟨rfl, fun i hi => absurd hi i.not_lt_zero, fun _ _ => rfl, rfl, rfl, by simp,
      fun i hi => absurd hi i.not_lt_zero, fun _ _ h => h⟩
  | succ k ih =>
    rw [List.range_succ, List.foldlM_append] at h
    obtain ⟨t, ht, hlast⟩ := Option.bind_eq_some_iff.mp h
    have hfirst := ih ht
    simp only [List.foldlM_cons, List.foldlM_nil] at hlast
    obtain ⟨u, hu, hsame⟩ := Option.bind_eq_some_iff.mp hlast
    cases hsame
    obtain ⟨hrange, hfree, rfl⟩ := requestIrq_some hu
    have hnew : ∀ v o, t.vmeIrqTable v = some o → v ≠ vmodioIrqShift c.irq k := by
      rintro v o hv rfl
      exact absurd (hfree.symm.trans hv) (by simp)
    refine ⟨?_, fun i hi => ?_, fun e he => ?_, hfirst.irqToLun, hfirst.callbacks, ?_,
      fun i hi => ?_, fun v o hv => ?_⟩
    · change (update t.deviceTable device _ device).lun = _
      rw [update_self]
      exact hfirst.lun
    · change (update t.deviceTable device _ device).irq i = _
      rw [update_self]
      rcases Nat.lt_succ_iff_lt_or_eq.mp hi with hlt | rfl
      · exact (update_of_ne hlt.ne ..).trans (hfirst.irq i hlt)
      · exact update_self ..
    · exact (update_of_ne he ..).trans (hfirst.others e he)
    · change (t.bounds && decide (InTable c.lun)) = _
      rw [hfirst.bounds]
      cases s.bounds <;> cases decide (InTable c.lun) <;> simp
    · rcases Nat.lt_succ_iff_lt_or_eq.mp hi with hlt | rfl
      · obtain ⟨hin, hwas, hnow⟩ := hfirst.vectors i hlt
        exact ⟨hin, hwas, (update_of_ne (hnew _ _ hnow) ..).trans hnow⟩
      · refine ⟨hrange, ?_, update_self ..⟩
        by_contra hsome
        obtain ⟨o, ho⟩ := Option.ne_none_iff_exists'.mp hsome
        exact hnew _ _ (hfirst.kept _ o ho) rfl
    · have hold := hfirst.kept v o hv
      exact (update_of_ne (hnew _ _ hold) ..).trans hold

/-- What the driver's tables hold after the carriers `cs`. -/
structure InitInv (cs : List Carrier) (s : Driver) : Prop where
  devices : ∀ d c, cs[d]? = some c → (s.deviceTable d).lun = c.lun ∧
    ∀ i < vmodioSlots, (s.deviceTable d).irq i = vmodioIrqShift c.irq i
  unused : ∀ d, cs.length ≤ d → (s.deviceTable d).lun = 0
  vectors : ∀ d c, cs[d]? = some c → ∀ i < vmodioSlots,
    (0 ≤ vmodioIrqShift c.irq i ∧ vmodioIrqShift c.irq i < 256) ∧
      s.vmeIrqTable (vmodioIrqShift c.irq i) = some (.slot d i)
  nibbles : (∀ c ∈ cs, c.irq % 16 = 0xe) → ∀ c ∈ cs, s.irqToLun (upperNibbleOf c.irq) = c.lun
  bounds : s.bounds = true ↔ ∀ c ∈ cs, InTable c.lun
  callbacks : s.mezzaninesCallback = fun _ => ⟨0, 0⟩

theorem InitInv.start (taken : ℤ → Bool) : InitInv [] (Driver.start taken) where
  devices d c h := by simp at h
  unused _ _ := rfl
  vectors d c h := by simp at h
  nibbles _ c hc := absurd hc List.not_mem_nil
  bounds := iff_of_true rfl fun c hc => absurd hc List.not_mem_nil
  callbacks := rfl

theorem upperNibble_ne {v w : ℤ} (hv : 0 ≤ v ∧ v < 256) (hw : 0 ≤ w ∧ w < 256)
    (hvlow : v % 16 = 0xe) (hwlow : w % 16 = 0xe) (hne : v ≠ w) :
    upperNibbleOf v ≠ upperNibbleOf w := by
  unfold upperNibbleOf
  omega

variable {map : BitVec 64 → BitVec 64}

theorem InitInv.deviceInit {cs : List Carrier} {s s' : Driver} {c : Carrier} (hs : InitInv cs s)
    (h : s.deviceInit map cs.length c = some s') : InitInv (cs ++ [c]) s' := by
  unfold Driver.deviceInit at h
  split at h
  · cases h
  have hslots := slots_init h
  have hlast : ∀ {d e}, (cs ++ [c])[d]? = some e → (d < cs.length ∧ cs[d]? = some e) ∨
      (d = cs.length ∧ e = c) := by
    intro d e hd
    rcases lt_trichotomy d cs.length with hlt | rfl | hgt
    · rw [List.getElem?_append_left hlt] at hd
      exact .inl ⟨hlt, hd⟩
    · rw [List.getElem?_concat_length] at hd
      cases hd
      exact .inr ⟨rfl, rfl⟩
    · rw [List.getElem?_eq_none (by simp; omega)] at hd
      cases hd
  have hold : ∀ {d}, d ≠ cs.length → s'.deviceTable d = s.deviceTable d := fun hd =>
    (hslots.others _ hd).trans (update_of_ne hd ..)
  have hlun : (s'.deviceTable cs.length).lun = c.lun := by
    rw [hslots.lun]
    change (update s.deviceTable cs.length _ cs.length).lun = _
    rw [update_self]
  have hfour : 0 < vmodioSlots := by decide
  refine ⟨fun d e hd => ?_, fun d hd => ?_, fun d e hd i hi => ?_, fun hlow e he => ?_, ?_,
    hslots.callbacks.trans hs.callbacks⟩
  · rcases hlast hd with ⟨hlt, hd⟩ | ⟨rfl, rfl⟩
    · rw [hold hlt.ne]
      exact hs.devices d e hd
    · exact ⟨hlun, hslots.irq⟩
  · rw [List.length_append, List.length_singleton] at hd
    rw [hold (by omega)]
    exact hs.unused d (by omega)
  · rcases hlast hd with ⟨hlt, hd⟩ | ⟨rfl, rfl⟩
    · obtain ⟨hrange, hv⟩ := hs.vectors d e hd i hi
      exact ⟨hrange, hslots.kept _ _ hv⟩
    · exact ⟨(hslots.vectors i hi).1, (hslots.vectors i hi).2.2⟩
  · rw [hslots.irqToLun]
    change update s.irqToLun (upperNibbleOf c.irq) c.lun (upperNibbleOf e.irq) = e.lun
    rcases List.mem_append.mp he with hmem | hmem
    · obtain ⟨d, hd⟩ := List.mem_iff_getElem?.mp hmem
      have hzero := (vmodioIrqShift_eq e.irq).1
      have hmine := (vmodioIrqShift_eq c.irq).1
      obtain ⟨hrange, hv⟩ := hs.vectors d e hd 0 hfour
      obtain ⟨hrange', hfree, -⟩ := hslots.vectors 0 hfour
      have hne : e.irq ≠ c.irq := by
        intro heq
        rw [heq] at hv
        exact absurd (hfree.symm.trans hv) (by simp)
      rw [hzero] at hrange
      rw [hmine] at hrange'
      have hnibble := upperNibble_ne hrange hrange' (hlow e he)
        (hlow c (List.mem_append_right _ List.mem_cons_self)) hne
      rw [update_of_ne hnibble]
      exact hs.nibbles (fun x hx => hlow x (List.mem_append_left _ hx)) e hmem
    · cases List.mem_singleton.mp hmem
      exact update_self ..
  · rw [hslots.bounds]
    change (s.bounds && (decide (vmodioSlots = 0) || decide (InTable c.lun))) = true ↔ _
    rw [Bool.and_eq_true, hs.bounds, Bool.or_eq_true, decide_eq_true_eq, decide_eq_true_eq]
    constructor
    · rintro ⟨hall, hzero | hin⟩ e he
      · exact absurd hzero hfour.ne'
      · rcases List.mem_append.mp he with hmem | hmem
        · exact hall e hmem
        · cases List.mem_singleton.mp hmem
          exact hin
    · intro hall
      exact ⟨fun e he => hall e (List.mem_append_left _ he),
        .inr (hall c (List.mem_append_right _ List.mem_cons_self))⟩

theorem InitInv.initFrom {pre cs : List Carrier} {s s' : Driver} (hs : InitInv pre s)
    (h : Driver.initFrom map pre.length cs s = some s') : InitInv (pre ++ cs) s' := by
  induction cs generalizing pre s with
  | nil =>
    cases h
    rwa [List.append_nil]
  | cons c cs ih =>
    obtain ⟨t, ht, hrest⟩ := Option.bind_eq_some_iff.mp h
    have hnext := ih (hs.deviceInit ht) (by rw [List.length_append]; exact hrest)
    rwa [List.append_assoc] at hnext

/-! ### Registrations and interrupts -/

/-- Other callbacks. -/
def Driver.withCallbacks (s : Driver) (cb : ℤ × ℤ → MzCallback) : Driver :=
  { s with mezzaninesCallback := cb }

/-- The callbacks after some registrations. -/
def storeAll (rs : List Registration) (cb : ℤ × ℤ → MzCallback) : ℤ × ℤ → MzCallback :=
  rs.foldl (fun g r => update g (r.board, r.position) r.entry) cb

theorem registerAll_eq {s t : Driver} {rs : List Registration} (h : s.registerAll rs = some t) :
    t = s.withCallbacks (storeAll rs s.mezzaninesCallback) := by
  induction rs generalizing s with
  | nil =>
    cases h
    rfl
  | cons r rs ih =>
    rw [Driver.registerAll] at h
    split at h
    · rename_i u hr
      rw [Driver.registerIsr] at hr
      split at hr
      · cases hr
      · split at hr
        · cases hr
          exact ih h
        · cases hr
    · cases h

theorem interrupt_eq (s : Driver) (cb : ℤ × ℤ → MzCallback) (irq : ℤ) :
    (s.withCallbacks cb).interrupt irq =
      if s.withinBounds (s.irqToLun (upperNibbleOf irq)) (irqToSlot irq) = false then some none
      else if InTable (s.irqToLun (upperNibbleOf irq)) then
        some (if (cb (s.irqToLun (upperNibbleOf irq), irqToSlot irq)).callback = 0 then none
          else some (cb (s.irqToLun (upperNibbleOf irq), irqToSlot irq)))
      else none := rfl

section Configured

variable {cs : List Carrier} {s : Driver}

theorem InitInv.lunToDev_isSome (hs : InitInv cs s) (hlen : cs.length < maxDevices) (lun : ℤ) :
    (s.lunToDev lun).isSome = true ↔ (∃ c ∈ cs, c.lun = lun) ∨ lun = 0 := by
  rw [Driver.lunToDev, List.find?_isSome]
  constructor
  · rintro ⟨dev, hmem, hlun⟩
    obtain ⟨d, hd, rfl⟩ := List.mem_map.mp hmem
    have hlun : (s.deviceTable d).lun = lun := by simpa using hlun
    by_cases hlt : d < cs.length
    · refine .inl ⟨cs[d], List.getElem_mem hlt, ?_⟩
      rw [← hlun, (hs.devices d _ (List.getElem?_eq_getElem hlt)).1]
    · right
      rw [← hlun, hs.unused d (by omega)]
  · rintro (⟨c, hc, rfl⟩ | rfl)
    · obtain ⟨d, hd⟩ := List.mem_iff_getElem?.mp hc
      have hlt : d < cs.length := (List.getElem?_eq_some_iff.mp hd).1
      refine ⟨s.deviceTable d, List.mem_map.mpr ⟨d, List.mem_range.mpr (by omega), rfl⟩, ?_⟩
      simpa using (hs.devices d c hd).1
    · refine ⟨s.deviceTable cs.length,
        List.mem_map.mpr ⟨cs.length, List.mem_range.mpr hlen, rfl⟩, ?_⟩
      simpa using hs.unused cs.length le_rfl

theorem InitInv.withinBounds_iff (hs : InitInv cs s) (hlen : cs.length < maxDevices)
    (board position : ℤ) :
    s.withinBounds board position = true ↔ ((∃ c ∈ cs, c.lun = board) ∨ board = 0) ∧
      0 ≤ board ∧ 0 ≤ position ∧ position < vmodioSlots := by
  rw [← hs.lunToDev_isSome hlen, Driver.withinBounds]
  cases hdev : s.lunToDev board with
  | none => simp
  | some dev =>
    have hlun : dev.lun = board := by
      have hfound := List.find?_some hdev
      simpa using hfound
    simp [hlun, and_assoc]

theorem InitInv.fire_eq (hs : InitInv cs s) {c : Carrier} (hc : c ∈ cs) {i : ℕ}
    (hi : i < vmodioSlots) (cb : ℤ × ℤ → MzCallback) :
    (s.withCallbacks cb).fire (vmodioIrqShift c.irq i) =
      (s.withCallbacks cb).interrupt (vmodioIrqShift c.irq i) := by
  obtain ⟨d, hd⟩ := List.mem_iff_getElem?.mp hc
  have hvec : (s.withCallbacks cb).vmeIrqTable (vmodioIrqShift c.irq i) = some (.slot d i) :=
    (hs.vectors d c hd i hi).2
  have hirq : ((s.withCallbacks cb).deviceTable d).irq i = vmodioIrqShift c.irq i :=
    (hs.devices d c hd).2 i hi
  rw [Driver.fire, hvec]
  change Driver.interrupt _ _ = _
  rw [hirq]

theorem InitInv.callbacks_eq (hs : InitInv cs s) (rs : List Registration) (board position : ℤ) :
    (if (storeAll rs s.mezzaninesCallback (board, position)).callback = 0 then none
      else some (storeAll rs s.mezzaninesCallback (board, position))) =
        lastRegistered rs board position := by
  have hlast : storeAll rs s.mezzaninesCallback (board, position) = _ :=
    foldl_update (fun r : Registration => (r.board, r.position)) Registration.entry rs
      s.mezzaninesCallback (board, position)
  have hfilter : (rs.filter fun r => (r.board, r.position) = (board, position)) =
      rs.filter fun r => r.board = board ∧ r.position = position :=
    List.filter_congr fun r _ => by simp only [Prod.mk.injEq]
  rw [hfilter] at hlast
  rw [hlast, hs.callbacks, lastRegistered]
  cases (rs.filter fun r => decide (r.board = board ∧ r.position = position)).getLast? with
  | none => rfl
  | some r =>
    by_cases hr : r.entry.callback = 0
    · simp [Option.filter, hr]
    · simp [Option.filter, hr]

theorem InitInv.routes (hs : InitInv cs s) (hlen : cs.length < maxDevices) (hsound : Sound cs) :
    Routes cs s := by
  obtain ⟨hall, czero, hczero, hlunzero⟩ := hsound
  have hfound : ∀ lun, ((∃ c ∈ cs, c.lun = lun) ∨ lun = 0) → ∃ c ∈ cs, c.lun = lun := by
    rintro lun (h | rfl)
    · exact h
    · exact ⟨czero, hczero, hlunzero⟩
  have hin : ∀ board position, s.withinBounds board position = true →
      Configured cs board position ∧ InTable board := by
    intro board position hb
    obtain ⟨hlun, -, hpos⟩ := (hs.withinBounds_iff hlen board position).mp hb
    obtain ⟨c, hc, rfl⟩ := hfound board hlun
    exact ⟨⟨⟨c, hc, rfl⟩, hpos⟩, (hall c hc).1⟩
  refine ⟨hs.bounds.mpr fun c hc => (hall c hc).1, fun rs t ht r => ?_,
    fun board position space hcc => ?_, fun rs t ht c hc i hi => ?_⟩
  · have htb : t.withinBounds = s.withinBounds := by
      rw [registerAll_eq ht]
      rfl
    rw [Driver.registerIsr, htb]
    by_cases hb : s.withinBounds r.board r.position = true
    · obtain ⟨hconf, htable⟩ := hin _ _ hb
      rw [if_neg (by simp [hb]), if_pos htable]
      exact ⟨0, _, rfl, fun _ => hconf⟩
    · rw [if_pos (by simpa using hb)]
      exact ⟨-1, t, rfl, fun h => absurd h (by decide)⟩
  · rw [Driver.getAddressSpace] at hcc
    split at hcc
    · cases hcc
    · cases hdev : s.lunToDev board with
      | none =>
        rw [hdev] at hcc
        cases hcc
      | some dev =>
        rw [hdev] at hcc
        have hlun := (hs.lunToDev_isSome hlen board).mp (by rw [hdev]; rfl)
        by_cases hpos : position < 0 ∨ vmodioSlots ≤ position
        · simp only [if_pos hpos] at hcc
          cases hcc
        · exact ⟨hfound board hlun, by omega, by omega⟩
  · rw [registerAll_eq ht, hs.fire_eq hc hi]
    obtain ⟨hslot, hnibble⟩ := decode_shift (hall c hc).2 hi
    have hcarrier : s.irqToLun (upperNibbleOf (vmodioIrqShift c.irq i)) = c.lun := by
      rw [hnibble]
      exact hs.nibbles (fun e he => (hall e he).2) c hc
    have hb : s.withinBounds c.lun i = true := by
      refine (hs.withinBounds_iff hlen _ _).mpr ⟨.inl ⟨c, hc, rfl⟩, (hall c hc).1.1, by omega, ?_⟩
      exact_mod_cast hi
    rw [← hs.callbacks_eq]
    rw [interrupt_eq, hcarrier, hslot, if_neg (by simp [hb]), if_pos (hall c hc).1]

theorem InitInv.sound (hs : InitInv cs s) (hlen : cs.length < maxDevices) (hr : Routes cs s) :
    Sound cs := by
  have hin : ∀ c ∈ cs, InTable c.lun := hs.bounds.mp hr.bounds
  refine ⟨fun c hc => ⟨hin c hc, ?_⟩, ?_⟩
  · -- the callback of the first slot is found
    have hb : s.withinBounds c.lun 0 = true :=
      (hs.withinBounds_iff hlen _ _).mpr ⟨.inl ⟨c, hc, rfl⟩, (hin c hc).1, le_rfl, by decide⟩
    have hreg : s.registerAll [⟨⟨1, 0⟩, c.lun, 0⟩] =
        some (s.withCallbacks (update s.mezzaninesCallback (c.lun, 0) ⟨1, 0⟩)) := by
      simp [Driver.registerAll, Driver.registerIsr, hb, hin c hc, Driver.withCallbacks]
    have hfour : 0 < vmodioSlots := by decide
    have hfire := hr.interrupt _ _ hreg c hc 0 hfour
    have hlast : lastRegistered [⟨⟨1, 0⟩, c.lun, 0⟩] c.lun (0 : ℕ) = some ⟨1, 0⟩ := by
      simp [lastRegistered]
    rw [hs.fire_eq hc hfour, (vmodioIrqShift_eq c.irq).1, hlast, interrupt_eq] at hfire
    refine irqToSlot_eq_zero ?_
    by_contra hne
    have hentry : update s.mezzaninesCallback (c.lun, 0) ⟨1, 0⟩
        (s.irqToLun (upperNibbleOf c.irq), irqToSlot c.irq) = ⟨0, 0⟩ := by
      rw [update_of_ne fun h => hne (congrArg Prod.snd h), hs.callbacks]
    rw [hentry] at hfire
    split at hfire
    · cases hfire
    · split at hfire
      · cases hfire
      · cases hfire
  · -- zero is always accepted
    have hb : s.withinBounds 0 0 = true :=
      (hs.withinBounds_iff hlen _ _).mpr ⟨.inr rfl, le_rfl, le_rfl, by decide⟩
    obtain ⟨cc, u, hcc, hconf⟩ := hr.register [] s rfl ⟨⟨0, 0⟩, 0, 0⟩
    have hzero : ∃ t, s.registerIsr ⟨⟨0, 0⟩, 0, 0⟩ = some (0, t) :=
      ⟨_, by rw [Driver.registerIsr, if_neg (by simp [hb]), if_pos ⟨le_rfl, by decide⟩]⟩
    obtain ⟨t, ht⟩ := hzero
    rw [ht] at hcc
    cases hcc
    exact (hconf rfl).1

end Configured

theorem length_carriers (lun : List ℤ) (baseAddress : List (BitVec 64)) (irq : List ℤ) :
    (carriers lun baseAddress irq).length ≤ lun.length := by
  unfold carriers
  induction lun generalizing baseAddress irq with
  | nil => exact le_rfl
  | cons l lun ih =>
    rcases baseAddress with _ | ⟨b, baseAddress⟩
    · exact Nat.zero_le _
    · rcases irq with _ | ⟨v, irq⟩
      · exact Nat.zero_le _
      · exact Nat.succ_le_succ (ih baseAddress irq)

/-- **Interrupt routing.**  The carriers that `vmodio_init` accepts are routed exactly when they are
sound. -/
theorem routes_iff {map : BitVec 64 → BitVec 64} {taken : ℤ → Bool} {lun : List ℤ}
    {baseAddress : List (BitVec 64)} {irq : List ℤ} {s : Driver}
    (h : vmodioInit map taken lun baseAddress irq = some s) :
    Routes (carriers lun baseAddress irq) s ↔ Sound (carriers lun baseAddress irq) := by
  unfold vmodioInit at h
  split at h
  · cases h
  · rename_i hcount
    split at h
    · cases h
    · have hlen : (carriers lun baseAddress irq).length < maxDevices :=
        (length_carriers lun baseAddress irq).trans_lt (not_le.mp hcount)
      have hinv := (InitInv.start taken).initFrom h
      rw [List.nil_append] at hinv
      exact ⟨hinv.sound hlen, hinv.routes hlen⟩

/-- One carrier, with number 0 and vectors from 0x7e on. -/
theorem routes_iff_first :
    ∃ s, vmodioInit (fun _ => 0) (fun _ => false) [0] [0x1200] [0x7e] = some s ∧
      (Routes (carriers [0] [0x1200] [0x7e]) s ↔ Sound (carriers [0] [0x1200] [0x7e])) := by
  obtain ⟨s, hs⟩ : ∃ s, vmodioInit (fun _ => 0) (fun _ => false) [0] [0x1200] [0x7e] = some s :=
    ⟨_, rfl⟩
  exact ⟨s, hs, routes_iff hs⟩

/-- Without carriers number 0 is accepted; with number 16 a store is outside its table; and with a
first vector of 0x80 the first slot gets no interrupt. -/
theorem routing_broken :
    (∃ s, vmodioInit (fun _ => 0) (fun _ => false) [] [] [] = some s ∧
      (∃ t, s.registerIsr ⟨⟨1, 0⟩, 0, 0⟩ = some (0, t)) ∧ (s.getAddressSpace 0 0 1).1 = 0 ∧
      ¬ Routes [] s) ∧
    (∃ s, vmodioInit (fun _ => 0) (fun _ => false) [16] [0x1200] [0x7e] = some s ∧
      s.bounds = false ∧ s.registerIsr ⟨⟨1, 0⟩, 16, 0⟩ = none ∧
      ¬ Routes (carriers [16] [0x1200] [0x7e]) s) ∧
    ∃ s t, vmodioInit (fun _ => 0) (fun _ => false) [0] [0x1200] [0x80] = some s ∧
      s.registerAll [⟨⟨1, 0⟩, 0, 0⟩] = some t ∧ t.fire 0x80 = some none ∧
      lastRegistered [⟨⟨1, 0⟩, 0, 0⟩] 0 0 = some ⟨1, 0⟩ ∧
      ¬ Routes (carriers [0] [0x1200] [0x80]) s := by
  refine ⟨⟨_, rfl, ⟨_, rfl⟩, rfl, fun h => ?_⟩, ⟨_, rfl, rfl, rfl, fun h => ?_⟩,
    ⟨_, _, rfl, rfl, rfl, rfl, fun h => ?_⟩⟩
  · obtain ⟨⟨c, hc, -⟩, -⟩ := h.address 0 0 1 rfl
    exact absurd hc List.not_mem_nil
  · exact absurd h.bounds (by decide)
  · have hfire := h.interrupt [⟨⟨1, 0⟩, 0, 0⟩] _ rfl ⟨0, 0x1200, 0x80⟩ List.mem_cons_self 0
      (by decide)
    exact absurd hfire (by decide)

end KernelModules.Vmod
