import Mathlib.Tactic
import KernelModules.Ctr.CardedClients
import KernelModules.Ctr.PtimAllocation

/-!
# The indices into the tables

Module, trigger, source and counter numbers come from the callers, and every one of them is an
index into a table of a fixed size.

* `Access` is an index used into one of the tables, and `Access.Inside` says that it is one of its
  entries;
* `connectAccesses`, `disConnectAccesses`, `disConnectAllAccesses`, `writeAccesses` and
  `setConfigAccesses` list the accesses of the functions of these names, in the order in which they
  are made, and `Request.accesses` those of a request by a client;
* `Request.Bounded` is the condition on the state and the request under which they all lie inside.

`DisableInterrupts` gets the number of a trigger or of a source in one parameter, and looks it up in
the table of the sources in both cases.
-/

namespace KernelModules.Ctr

open Function KernelModules.Lib

/-- The tables whose indices are looked at. -/
inductive IndexedTable
  | moduleContexts
  | hardClients
  | clients
  | trigs
  | configs
  | counters
  deriving DecidableEq, Repr

def IndexedTable.size : IndexedTable → ℕ
  | .moduleContexts => 16
  | .hardClients => interruptSources
  | .clients => ramTableSize
  | .trigs => ramTableSize
  | .configs => ramTableSize
  | .counters => KernelModules.Ctr.counters

/-- An index into a table. -/
structure Access where
  table : IndexedTable
  index : ℤ
  deriving DecidableEq, Repr

def Access.Inside (a : Access) : Prop := 0 ≤ a.index ∧ a.index < a.table.size

instance Access.decidableInside (a : Access) : Decidable a.Inside := inferInstanceAs (Decidable (_ ∧ _))

/-! ### What the functions access -/

/-- The loop of `DisableInterrupts`, with `n` triggers left from trigger `i` on. -/
def scanAccesses (m : ModuleContext) (c cmsk : U32) : ℕ → ℕ → List Access
  | 0, _ => []
  | n + 1, i =>
    ⟨.trigs, i⟩ ::
      if (m.trigs i).counter = c then
        ⟨.clients, i⟩ :: if m.clients i &&& ~~~cmsk ≠ 0 then [] else scanAccesses m c cmsk n (i + 1)
      else scanAccesses m c cmsk n (i + 1)

/-- `DisableInterrupts`. -/
def disableAccesses (midx : ℤ) (m : ModuleContext) (tndx : ℕ) (clss : ConnectionClass)
    (cmsk : U32) : List Access :=
  [⟨.moduleContexts, midx⟩] ++ (if clss ≠ .hard then [⟨.trigs, tndx⟩] else []) ++
    match disableCounter m tndx clss with
    | none => [⟨.hardClients, tndx⟩]
    | some c =>
      ⟨.hardClients, c.toInt⟩ ::
        if m.readHardClients c &&& ~~~cmsk ≠ 0 then []
        else scanAccesses m c cmsk ramTableSize 0 ++
          if triggerKept m c cmsk then [] else [⟨.hardClients, tndx⟩]

/-- `DisConnectOne` for a trigger. -/
def disConnectTriggerAccesses (midx : ℤ) (m : ModuleContext) (tndx : ℕ) (clss : ConnectionClass)
    (cmsk : U32) : List Access :=
  [⟨.moduleContexts, midx⟩, ⟨.clients, tndx⟩] ++
    if cmsk &&& m.clients tndx ≠ 0 then
      let m := { m with clients := update m.clients tndx (m.clients tndx &&& ~~~cmsk) }
      [⟨.clients, tndx⟩, ⟨.clients, tndx⟩] ++
        if m.clients tndx = 0 then
          disableAccesses midx m tndx clss cmsk ++
            if m.eqpClass tndx = .ctim then [⟨.trigs, tndx⟩, ⟨.configs, tndx⟩]
            else [⟨.configs, tndx⟩, ⟨.configs, tndx⟩]
        else []
    else []

/-- `DisConnectOne` for a hardware interrupt. -/
def disConnectHardAccesses (midx : ℤ) (m : ModuleContext) (tndx : ℕ) (cmsk : U32) : List Access :=
  [⟨.moduleContexts, midx⟩, ⟨.hardClients, tndx⟩] ++
    if m.readHardClients (BitVec.ofNat 32 tndx) ≠ 0 then
      let m := { m with hardClients := update m.hardClients tndx (m.hardClients tndx &&& ~~~cmsk) }
      [⟨.hardClients, tndx⟩, ⟨.hardClients, tndx⟩] ++
        if m.hardClients tndx = 0 then disableAccesses midx m tndx .hard cmsk else []
    else []

/-- `DisConnectOne`. -/
def disConnectOneAccesses (midx : ℤ) (m : ModuleContext) (tndx : ℕ) (clss : ConnectionClass)
    (cmsk : U32) : List Access :=
  match clss with
  | .ctim => disConnectTriggerAccesses midx m tndx .ctim cmsk
  | .ptim => disConnectTriggerAccesses midx m tndx .ptim cmsk
  | .hard => disConnectHardAccesses midx m tndx cmsk
  | .other _ => [⟨.moduleContexts, midx⟩]

/-- The loop of `DisConnect` over the triggers. -/
def disConnectTriggersAccesses (midx : ℤ) (m : ModuleContext) (conx : Connection) (cmsk : U32) :
    List Access :=
  loopTrace
    (fun i m => if conx.eqpNum = m.eqpNum i ∧ conx.eqpClass = m.eqpClass i then
      disConnectOne m i conx.eqpClass cmsk else some m)
    (fun i m => if conx.eqpNum = m.eqpNum i ∧ conx.eqpClass = m.eqpClass i then
      disConnectOneAccesses midx m i conx.eqpClass cmsk else []) ramTableSize m

/-- The loop over the hardware interrupts. -/
def disConnectSourcesAccesses (midx : ℤ) (m : ModuleContext) (cmsk : U32) : List Access :=
  loopTrace (fun i m => disConnectOne m i .hard cmsk)
    (fun i m => disConnectOneAccesses midx m i .hard cmsk) interruptSources m

/-- `DisConnect`.  What an index outside the module contexts leads to is not known. -/
def disConnectAccesses (s : WorkingArea) (conx : Connection) (ccon : ClientContext) :
    List Access :=
  ⟨.moduleContexts, (conx.module - 1).toInt⟩ ::
    if 1 ≤ conx.module.toNat ∧ conx.module.toNat ≤ 16 then
      let m := s.moduleContexts (conx.module.toNat - 1)
      if conx.eqpClass ≠ .hard then
        disConnectTriggersAccesses (conx.module - 1).toInt m conx ccon.mask
      else disConnectSourcesAccesses (conx.module - 1).toInt m ccon.mask
    else []

/-- The first loop of `DisConnectAll` on one module. -/
def disConnectOwnedAccesses (midx : ℤ) (m : ModuleContext) (cmsk : U32) : List Access :=
  loopTrace
    (fun i m => if m.eqpNum i ≠ 0 then disConnectOne m i (m.eqpClass i) cmsk else some m)
    (fun i m => if m.eqpNum i ≠ 0 then disConnectOneAccesses midx m i (m.eqpClass i) cmsk else [])
    ramTableSize m

/-- `DisConnectAll` on one module. -/
def disConnectModuleAccesses (midx : ℕ) (m : ModuleContext) (cmsk : U32) : List Access :=
  ⟨.moduleContexts, midx⟩ :: disConnectOwnedAccesses midx m cmsk ++
    match disConnectOwned m cmsk with
    | none => []
    | some m => disConnectSourcesAccesses midx m cmsk

/-- `DisConnectAll`. -/
def disConnectAllAccesses (s : WorkingArea) (ccon : ClientContext) : List Access :=
  loopTrace
    (fun midx s => (disConnectOwned (s.moduleContexts midx) ccon.mask).bind fun m =>
      (disConnectSources m ccon.mask).map (s.setModule midx))
    (fun midx s => disConnectModuleAccesses midx (s.moduleContexts midx) ccon.mask) s.modules s

/-- The loop of `Connect` for a PTIM. -/
def connectPtimAccesses (m : ModuleContext) (eqpNum cmsk : U32) : List Access :=
  loopTrace
    (fun i (count, m) =>
      if eqpNum = m.eqpNum i ∧ .ptim = m.eqpClass i then
        (connectSlot m i cmsk (sourceMask (m.trigs i).counter)).map fun m => (count + 1, m)
      else some (count, m))
    (fun i (_, m) =>
      if eqpNum = m.eqpNum i ∧ .ptim = m.eqpClass i then
        [⟨.clients, i⟩, ⟨.trigs, i⟩, ⟨.configs, i⟩, ⟨.configs, i⟩]
      else []) ramTableSize (0, m)

/-- `Connect` for a CTIM. -/
def connectCtimAccesses (s : WorkingArea) (m : ModuleContext) (eqpNum : U32) : List Access :=
  match findSlot fun i => eqpNum = m.eqpNum i ∧ .ctim = m.eqpClass i with
  | some i => [⟨.clients, i⟩, ⟨.configs, i⟩, ⟨.configs, i⟩]
  | none =>
    match s.ctim.find? fun o => eqpNum = o.eqpNum with
    | none => []
    | some o =>
      if frameHeader o.frame ≠ 0 then
        match findSlot fun i => m.eqpNum i = 0 with
        | none => []
        | some i => [⟨.trigs, i⟩, ⟨.configs, i⟩, ⟨.trigs, i⟩, ⟨.configs, i⟩, ⟨.clients, i⟩]
      else []

/-- The loop of `Connect` for hardware interrupts. -/
def connectHardAccesses (eqpNum : U32) : List Access :=
  (List.range interruptSources).flatMap fun i =>
    if eqpNum &&& 1#32 <<< i ≠ 0 then [⟨.hardClients, Int.ofNat i⟩] else []

/-- `Connect`. -/
def connectAccesses (s : WorkingArea) (conx : Connection) (ccon : ClientContext) : List Access :=
  let midx := conx.moduleOr ccon.moduleIndex
  ⟨.moduleContexts, midx⟩ ::
    match conx.eqpClass with
    | .ptim =>
      match getPtimModule s conx.eqpNum with
      | none => []
      | some midx =>
        ⟨.moduleContexts, midx⟩ ::
          connectPtimAccesses (s.moduleContexts midx) conx.eqpNum ccon.mask
    | .ctim => connectCtimAccesses s (s.moduleContexts midx) conx.eqpNum
    | _ => connectHardAccesses conx.eqpNum

/-- `CtrDrvrWrite`, with the `TriggerNumber` of the buffer. -/
def writeAccesses (s : WorkingArea) (conx : Connection) (triggerNumber : U32) : List Access :=
  if 1 ≤ conx.module.toNat ∧ conx.module.toNat ≤ 16 then
    let midx := conx.module.toNat - 1
    let m := s.moduleContexts midx
    ⟨.moduleContexts, midx⟩ ::
      if conx.eqpClass ≠ .hard then
        if triggerNumber = 0 then
          match findSlot fun i => m.eqpNum i = conx.eqpNum ∧ m.eqpClass i = conx.eqpClass with
          | none => []
          | some i => [⟨.clients, i⟩, ⟨.trigs, i⟩, ⟨.trigs, i⟩, ⟨.trigs, i⟩]
        else
          let tndx := (triggerNumber - 1).toInt
          [⟨.clients, tndx⟩, ⟨.trigs, tndx⟩, ⟨.trigs, tndx⟩, ⟨.trigs, tndx⟩]
      else connectHardAccesses conx.eqpNum
  else []

/-- The body of `SET_CONFIG`: the lock bit of the counter is read before its number is checked. -/
def setConfigAccesses (counter : U32) (lockConfig : Bool) : List Access :=
  ⟨.counters, counter.toNat⟩ ::
    if lockConfig ∧ counter.toNat ≤ 8 then [⟨.counters, counter.toNat⟩] else []

/-! ### Requests -/

/-- The requests of clients that carry such numbers. -/
inductive Request
  | connect (cnum : ℕ) (conx : Connection)
  | disconnect (cnum : ℕ) (conx : Connection)
  | close (cnum : ℕ)
  | setConfig (cnum : ℕ) (counter : U32) (lockConfig : Bool)
  | write (conx : Connection) (triggerNumber : U32)

/-- The way of an ioctl through `CtrDrvrIoctl`: it fails for a client that is not open, and on a
module that is not in use or is locked. -/
def ioctlAccesses (s : WorkingArea) (cnum : ℕ) (body : ClientContext → List Access) :
    List Access :=
  if h : cnum < 16 then
    let ccon := s.clientContexts ⟨cnum, h⟩
    if ccon.inUse = false then []
    else ⟨.moduleContexts, ccon.moduleIndex⟩ :: if s.Serves cnum then body ccon else []
  else []

/-- The accesses of a request. -/
def Request.accesses (s : WorkingArea) : Request → List Access
  | .connect cnum conx => ioctlAccesses s cnum fun ccon => connectAccesses s conx ccon
  | .disconnect cnum conx => ioctlAccesses s cnum fun ccon =>
    if conx.eqpNum ≠ 0 then disConnectAccesses s conx ccon else disConnectAllAccesses s ccon
  | .close cnum =>
    if h : cnum < 16 then
      let ccon := s.clientContexts ⟨cnum, h⟩
      disConnectAllAccesses { s with
        clientContexts := update s.clientContexts ⟨cnum, h⟩ { ccon with inUse := false } } ccon
    else []
  | .setConfig cnum counter lockConfig => ioctlAccesses s cnum fun _ =>
    setConfigAccesses counter lockConfig
  | .write conx triggerNumber => writeAccesses s conx triggerNumber

/-! ### The condition -/

/-- `DisableInterrupts` for trigger `i` stays inside `HardClients`: with the counter of the trigger,
and with the number of the trigger unless it has returned before. -/
def ReadsInside (m : ModuleContext) (cmsk : U32) (i : ℕ) : Prop :=
  if (m.trigs i).counter = 0xFFFFFFFF then i < interruptSources
  else (m.trigs i).counter.toNat < interruptSources ∧
    (m.readHardClients (m.trigs i).counter &&& ~~~cmsk ≠ 0
      ∨ triggerKept m (m.trigs i).counter cmsk = true ∨ i < interruptSources)

/-- Taking the client off trigger `i` stays inside. -/
def SlotBounded (m : ModuleContext) (cmsk : U32) (i : ℕ) : Prop :=
  Releases m cmsk i → ReadsInside m cmsk i

/-- Taking the client off everything on a module stays inside. -/
def OwnedBounded (m : ModuleContext) (cmsk : U32) : Prop :=
  ∀ i < ramTableSize, m.eqpNum i ≠ 0 →
    (TriggerClass m i → SlotBounded m cmsk i) ∧ (m.eqpClass i = .hard → i < interruptSources)

/-- The requests that stay inside all tables. -/
def Request.Bounded (s : WorkingArea) : Request → Prop
  | .connect _ _ => True
  | .disconnect cnum conx => s.Serves cnum →
    if conx.eqpNum ≠ 0 then
      (1 ≤ conx.module.toNat ∧ conx.module.toNat ≤ 16) ∧
        ∀ i, NamedSlot (s.moduleContexts (conx.module.toNat - 1)) conx i →
          SlotBounded (s.moduleContexts (conx.module.toNat - 1)) (s.clientMask cnum) i
    else ∀ midx < s.modules, OwnedBounded (s.moduleContexts midx) (s.clientMask cnum)
  | .close cnum => cnum < 16 →
    ∀ midx < s.modules, OwnedBounded (s.moduleContexts midx) (s.clientMask cnum)
  | .setConfig cnum counter _ => s.Serves cnum → counter.toNat < counters
  | .write conx triggerNumber =>
    1 ≤ conx.module.toNat ∧ conx.module.toNat ≤ 16 → conx.eqpClass ≠ .hard →
      triggerNumber.toNat ≤ ramTableSize

/-! ### One slot -/

theorem inside_ofNat (t : IndexedTable) (i : ℕ) : Access.Inside ⟨t, i⟩ ↔ i < t.size := by
  simp [Access.Inside]

theorem inside_toInt {t : IndexedTable} (ht : t.size ≤ 2 ^ 31) (c : U32) :
    Access.Inside ⟨t, c.toInt⟩ ↔ c.toNat < t.size := by
  have hc := c.isLt
  rw [Access.Inside, BitVec.toInt_eq_toNat_cond]
  dsimp only
  split <;> constructor <;> intro h <;> omega

theorem scanAccesses_inside (m : ModuleContext) (c cmsk : U32) {n i : ℕ}
    (hi : i + n ≤ ramTableSize) : ∀ a ∈ scanAccesses m c cmsk n i, a.Inside := by
  induction n generalizing i with
  | zero => exact fun a ha => by cases ha
  | succ n ih =>
    have htrigs : Access.Inside ⟨.trigs, i⟩ :=
      (inside_ofNat _ _).mpr (Nat.lt_of_lt_of_le (by omega) hi)
    have hclients : Access.Inside ⟨.clients, i⟩ :=
      (inside_ofNat _ _).mpr (Nat.lt_of_lt_of_le (by omega) hi)
    have hrest := ih (i := i + 1) (by omega)
    simp only [scanAccesses, List.forall_mem_cons]
    refine ⟨htrigs, ?_⟩
    split
    · rw [List.forall_mem_cons]
      refine ⟨hclients, ?_⟩
      split
      · exact fun a ha => by cases ha
      · exact hrest
    · exact hrest

section Slot

variable {m : ModuleContext} {cmsk : U32} {midx : ℤ} {i : ℕ}

theorem disableAccesses_trigger (hmidx : Access.Inside ⟨.moduleContexts, midx⟩)
    (hi : i < ramTableSize) {clss : ConnectionClass} (hclss : clss ≠ .hard) :
    (∀ a ∈ disableAccesses midx m i clss cmsk, a.Inside) ↔ ReadsInside m cmsk i := by
  have htrig : Access.Inside ⟨.trigs, i⟩ := (inside_ofNat _ _).mpr hi
  have hnumber : Access.Inside ⟨.hardClients, i⟩ ↔ i < interruptSources := inside_ofNat _ _
  have hcounter : Access.Inside ⟨.hardClients, (m.trigs i).counter.toInt⟩ ↔
      (m.trigs i).counter.toNat < interruptSources := inside_toInt (by decide) _
  have hscan := scanAccesses_inside m (m.trigs i).counter cmsk (Nat.le_of_eq (Nat.zero_add _))
  unfold disableAccesses disableCounter ReadsInside
  rw [if_pos hclss, if_pos hclss]
  by_cases hnone : (m.trigs i).counter = 0xFFFFFFFF
  · rw [if_pos hnone, if_pos hnone]
    simp [hmidx, htrig, hnumber]
  · rw [if_neg hnone, if_neg hnone]
    have hrest : (∀ a ∈ scanAccesses m (m.trigs i).counter cmsk ramTableSize 0 ++
        (if triggerKept m (m.trigs i).counter cmsk then [] else [⟨.hardClients, (i : ℤ)⟩]),
          a.Inside) ↔ triggerKept m (m.trigs i).counter cmsk = true ∨ i < interruptSources := by
      rw [List.forall_mem_append, and_iff_right hscan]
      cases triggerKept m (m.trigs i).counter cmsk <;> simp [hnumber]
    rw [List.forall_mem_append, List.forall_mem_append,
      and_iff_right ⟨by simpa using hmidx, by simpa using htrig⟩]
    dsimp only
    rw [List.forall_mem_cons, hcounter]
    refine and_congr_right fun _ => ?_
    by_cases hkept : m.readHardClients (m.trigs i).counter &&& ~~~cmsk ≠ 0
    · rw [if_pos hkept]
      exact iff_of_true (fun _ h => by cases h) (.inl hkept)
    · rw [if_neg hkept, hrest]
      exact ⟨.inr, fun h => h.resolve_left hkept⟩

theorem disableAccesses_hard (hmidx : Access.Inside ⟨.moduleContexts, midx⟩)
    (hi : i < interruptSources) :
    ∀ a ∈ disableAccesses midx m i .hard cmsk, a.Inside := by
  have hnumber : Access.Inside ⟨.hardClients, i⟩ := (inside_ofNat _ _).mpr hi
  have hcounter : Access.Inside ⟨.hardClients, (BitVec.ofNat 32 i).toInt⟩ := by
    rw [inside_toInt (by decide), BitVec.toNat_ofNat]
    exact Nat.lt_of_le_of_lt (Nat.mod_le _ _) hi
  have hscan := scanAccesses_inside m (BitVec.ofNat 32 i) cmsk (Nat.le_of_eq (Nat.zero_add _))
  unfold disableAccesses disableCounter
  rw [if_neg (not_not_intro rfl), if_neg (not_not_intro rfl)]
  by_cases hle : i ≤ counters
  · rw [if_pos hle]
    rw [List.forall_mem_append, List.forall_mem_append]
    refine ⟨⟨by simpa using hmidx, fun _ h => by cases h⟩, ?_⟩
    dsimp only
    rw [List.forall_mem_cons]
    refine ⟨hcounter, ?_⟩
    split
    · exact fun _ h => by cases h
    · rw [List.forall_mem_append]
      refine ⟨hscan, ?_⟩
      split
      · exact fun _ h => by cases h
      · simpa using hnumber
  · rw [if_neg hle]
    simp [hmidx, hnumber]

theorem readsInside_congr {m m' : ModuleContext} (htrigs : m'.trigs = m.trigs)
    (hclients : ∀ j, m'.clients j &&& ~~~cmsk = m.clients j &&& ~~~cmsk)
    (hread : ∀ c, m'.readHardClients c &&& ~~~cmsk = m.readHardClients c &&& ~~~cmsk) :
    ReadsInside m' cmsk i ↔ ReadsInside m cmsk i := by
  unfold ReadsInside triggerKept
  simp only [htrigs, hclients, hread]

theorem disConnectTriggerAccesses_iff (hmidx : Access.Inside ⟨.moduleContexts, midx⟩)
    (hi : i < ramTableSize) {clss : ConnectionClass} (hclss : clss ≠ .hard) :
    (∀ a ∈ disConnectTriggerAccesses midx m i clss cmsk, a.Inside) ↔ SlotBounded m cmsk i := by
  have hclient : Access.Inside ⟨.clients, i⟩ := (inside_ofNat _ _).mpr hi
  have htrig : Access.Inside ⟨.trigs, i⟩ := (inside_ofNat _ _).mpr hi
  have hconfig : Access.Inside ⟨.configs, i⟩ := (inside_ofNat _ _).mpr hi
  have hreads : ReadsInside { m with clients := update m.clients i (m.clients i &&& ~~~cmsk) }
      cmsk i ↔ ReadsInside m cmsk i :=
    readsInside_congr rfl (update_dropped_others m.clients i cmsk) fun _ => rfl
  unfold disConnectTriggerAccesses SlotBounded Releases
  simp only [List.forall_mem_append, List.forall_mem_cons, hmidx, hclient]
  by_cases hmine : cmsk &&& m.clients i ≠ 0
  · rw [if_pos hmine]
    simp only [List.forall_mem_append, List.forall_mem_cons, hclient, update_self]
    by_cases hlast : m.clients i &&& ~~~cmsk = 0
    · rw [if_pos hlast, imp_iff_right ⟨hmine, hlast⟩]
      simp only [List.forall_mem_append, disableAccesses_trigger hmidx hi hclss, hreads]
      split <;> simp [htrig, hconfig]
    · rw [if_neg hlast]
      exact iff_of_true (by simp) fun h => absurd h.2 hlast
  · rw [if_neg hmine]
    exact iff_of_true (by simp) fun h => absurd h.1 hmine

theorem disConnectHardAccesses_iff (hmidx : Access.Inside ⟨.moduleContexts, midx⟩) :
    (∀ a ∈ disConnectHardAccesses midx m i cmsk, a.Inside) ↔ i < interruptSources := by
  have hsource : Access.Inside ⟨.hardClients, i⟩ ↔ i < interruptSources := inside_ofNat _ _
  unfold disConnectHardAccesses
  simp only [List.forall_mem_append, List.forall_mem_cons, hmidx, hsource]
  constructor
  · exact fun h => h.1.2.1
  · intro hi
    refine ⟨⟨trivial, hi, fun _ h => by cases h⟩, ?_⟩
    split
    · simp only [List.forall_mem_append, List.forall_mem_cons, hsource]
      refine ⟨⟨hi, hi, fun _ h => by cases h⟩, ?_⟩
      split
      · exact disableAccesses_hard hmidx hi
      · exact fun _ h => by cases h
    · exact fun _ h => by cases h

theorem disConnectOneAccesses_iff (hmidx : Access.Inside ⟨.moduleContexts, midx⟩)
    (hi : i < ramTableSize) (clss : ConnectionClass) :
    (∀ a ∈ disConnectOneAccesses midx m i clss cmsk, a.Inside) ↔
      (clss = .ctim ∨ clss = .ptim → SlotBounded m cmsk i) ∧
        (clss = .hard → i < interruptSources) := by
  cases clss with
  | ctim =>
    rw [disConnectOneAccesses, disConnectTriggerAccesses_iff hmidx hi (by simp)]
    simp
  | ptim =>
    rw [disConnectOneAccesses, disConnectTriggerAccesses_iff hmidx hi (by simp)]
    simp
  | hard =>
    rw [disConnectOneAccesses, disConnectHardAccesses_iff hmidx]
    simp
  | other v => simpa [disConnectOneAccesses] using hmidx

theorem disConnectOne_returns (hm : Carded m) {clss : ConnectionClass}
    (hi : clss = .hard → i < interruptSources) :
    ∃ m', disConnectOne m i clss cmsk = some m' ∧ Carded m' := by
  cases clss with
  | ctim => exact disConnectTrigger_returns cmsk hm i .ctim
  | ptim => exact disConnectTrigger_returns cmsk hm i .ptim
  | hard => exact disConnectHard_returns cmsk hm (hi rfl)
  | other v => exact ⟨m, rfl, hm⟩

end Slot

/-! ### The sweeps -/

section Sweeps

variable {m : ModuleContext} {cmsk : U32} {midx : ℤ}

theorem disConnectSourcesAccesses_inside (hmidx : Access.Inside ⟨.moduleContexts, midx⟩)
    (m : ModuleContext) (cmsk : U32) :
    ∀ a ∈ disConnectSourcesAccesses midx m cmsk, a.Inside :=
  forall_mem_loopTrace _ _ fun _ hi _ => (disConnectHardAccesses_iff hmidx).mpr hi

theorem slotBounded_dropped {t : ModuleContext} {T H : ℕ → Prop} (h : Dropped m t T H cmsk) {i : ℕ}
    (hi : ¬ T i) : SlotBounded t cmsk i ↔ SlotBounded m cmsk i := by
  unfold SlotBounded
  rw [h.releases_iff, readsInside_congr h.trigs h.clients_others h.readHardClients_others]
  simp [hi]

theorem disConnectTriggersAccesses_iff (hmidx : Access.Inside ⟨.moduleContexts, midx⟩)
    (hm : Carded m) {conx : Connection} (hclss : conx.eqpClass ≠ .hard) :
    (∀ a ∈ disConnectTriggersAccesses midx m conx cmsk, a.Inside) ↔
      ∀ i, NamedSlot m conx i → SlotBounded m cmsk i := by
  have hloop : (∀ a ∈ disConnectTriggersAccesses midx m conx cmsk, a.Inside) ↔
      ∀ i < ramTableSize, (m.eqpNum i = conx.eqpNum ∧ m.eqpClass i = conx.eqpClass ∧
        TriggerClass m i → SlotBounded m cmsk i) := by
    refine loopTrace_iff (P := fun i t => Dropped m t (fun j => j < i ∧ m.eqpNum j = conx.eqpNum
      ∧ m.eqpClass j = conx.eqpClass ∧ TriggerClass m j) (fun _ => False) cmsk ∧ Carded t)
      ⟨(Dropped.refl m cmsk).congr (by simp) (by simp), hm⟩ ?_
    rintro i hi t ⟨ht, hcarded⟩
    have hnew : ¬ (i < i ∧ m.eqpNum i = conx.eqpNum ∧ m.eqpClass i = conx.eqpClass
      ∧ TriggerClass m i) := fun h => absurd h.1 (Nat.lt_irrefl i)
    obtain ⟨hnum, hcls, -⟩ := ht.kept i fun h => hnew h.1
    have hslot := slotBounded_dropped ht hnew
    constructor
    · rw [hnum, hcls]
      by_cases hhit : conx.eqpNum = m.eqpNum i ∧ conx.eqpClass = m.eqpClass i
      · rw [if_pos hhit, disConnectOneAccesses_iff hmidx hi, hslot, hhit.2]
        simp [TriggerClass, hhit.1, ← hhit.2, hclss]
      · rw [if_neg hhit]
        exact iff_of_true (fun _ h => by cases h) fun h => absurd ⟨h.1.symm, h.2.1.symm⟩ hhit
    · intro _
      have hback : ∃ t', (if conx.eqpNum = t.eqpNum i ∧ conx.eqpClass = t.eqpClass i then
          disConnectOne t i conx.eqpClass cmsk else some t) = some t' ∧ Carded t' := by
        split
        · exact disConnectOne_returns hcarded fun h => absurd h hclss
        · exact ⟨t, rfl, hcarded⟩
      obtain ⟨t', hround, hcarded'⟩ := hback
      exact ⟨t', hround, namedSlot_dropped hclss ht hround, hcarded'⟩
  rw [hloop]
  exact ⟨fun h i hi => h i hi.1 hi.2, fun h i hi hslot => h i ⟨hi, hslot⟩⟩

/-- Where the loop of `DisConnectAll` has come to slot `i`. -/
def OwnedSwept (m : ModuleContext) (cmsk : U32) (i : ℕ) (t : ModuleContext) : Prop :=
  Dropped m t (fun j => j < i ∧ m.eqpNum j ≠ 0 ∧ TriggerClass m j)
    (fun j => j < i ∧ m.eqpNum j ≠ 0 ∧ m.eqpClass j = .hard ∧ j < interruptSources) cmsk ∧ Carded t

theorem ownedSwept_zero (hm : Carded m) : OwnedSwept m cmsk 0 m :=
  ⟨(Dropped.refl m cmsk).congr (by simp) (by simp), hm⟩

theorem OwnedSwept.round {t : ModuleContext} {i : ℕ} (h : OwnedSwept m cmsk i t)
    (hi : m.eqpNum i ≠ 0 → m.eqpClass i = .hard → i < interruptSources) :
    ∃ t', (if t.eqpNum i ≠ 0 then disConnectOne t i (t.eqpClass i) cmsk else some t) = some t' ∧
      OwnedSwept m cmsk (i + 1) t' := by
  obtain ⟨ht, hcarded⟩ := h
  obtain ⟨hnum, hcls, -⟩ := ht.kept i fun h => absurd h.1.1 (Nat.lt_irrefl i)
  have hback : ∃ t', (if t.eqpNum i ≠ 0 then disConnectOne t i (t.eqpClass i) cmsk
      else some t) = some t' ∧ Carded t' := by
    rw [hnum, hcls]
    split
    · exact disConnectOne_returns hcarded (hi ‹_›)
    · exact ⟨t, rfl, hcarded⟩
  obtain ⟨t', hround, hcarded'⟩ := hback
  exact ⟨t', hround, ownedSlot_dropped ht hround, hcarded'⟩

theorem disConnectOwnedAccesses_iff (hmidx : Access.Inside ⟨.moduleContexts, midx⟩)
    (hm : Carded m) :
    (∀ a ∈ disConnectOwnedAccesses midx m cmsk, a.Inside) ↔ OwnedBounded m cmsk := by
  refine loopTrace_iff (P := OwnedSwept m cmsk) (ownedSwept_zero hm) fun i hi t ht =>
    ⟨?_, fun hc => ht.round fun hown => (hc hown).2⟩
  have hnew : ¬ (i < i ∧ m.eqpNum i ≠ 0 ∧ TriggerClass m i) :=
    fun h => absurd h.1 (Nat.lt_irrefl i)
  obtain ⟨hnum, hcls, -⟩ := ht.1.kept i fun h => hnew h.1
  rw [hnum, hcls]
  by_cases hown : m.eqpNum i ≠ 0
  · rw [if_pos hown, disConnectOneAccesses_iff hmidx hi, slotBounded_dropped ht.1 hnew,
      imp_iff_right hown]
    rfl
  · rw [if_neg hown]
    exact iff_of_true (fun _ h => by cases h) fun h => absurd h hown

theorem disConnectOwned_returns (hm : Carded m) (h : OwnedBounded m cmsk) :
    ∃ m', disConnectOwned m cmsk = some m' ∧ Carded m' := by
  obtain ⟨m', hm'⟩ : ∃ m', disConnectOwned m cmsk = some m' :=
    loop_returns (P := OwnedSwept m cmsk) (ownedSwept_zero hm) fun i hi t ht =>
      ht.round fun hown => (h i hi hown).2
  exact ⟨m', hm', disConnectOwned_carded hm hm'⟩

theorem disConnectModuleAccesses_iff {midx : ℕ} (hmidx : midx < 16) (hm : Carded m) :
    (∀ a ∈ disConnectModuleAccesses midx m cmsk, a.Inside) ↔ OwnedBounded m cmsk := by
  have hmidx : Access.Inside ⟨.moduleContexts, midx⟩ := (inside_ofNat _ _).mpr hmidx
  unfold disConnectModuleAccesses
  rw [List.forall_mem_append, List.forall_mem_cons, disConnectOwnedAccesses_iff hmidx hm]
  constructor
  · exact fun h => h.1.2
  · intro h
    refine ⟨⟨hmidx, h⟩, ?_⟩
    split
    · exact fun _ h => by cases h
    · exact disConnectSourcesAccesses_inside hmidx _ cmsk

theorem disConnectAllAccesses_iff {s : WorkingArea} (hs : s.Sound) (ccon : ClientContext) :
    (∀ a ∈ disConnectAllAccesses s ccon, a.Inside) ↔
      ∀ midx < s.modules, OwnedBounded (s.moduleContexts midx) ccon.mask := by
  refine loopTrace_iff (P := fun midx t =>
    (∀ j, midx ≤ j → t.moduleContexts j = s.moduleContexts j) ∧ ∀ j, Carded (t.moduleContexts j))
    ⟨fun _ _ => rfl, hs.carded⟩ ?_
  rintro midx hmidx t ⟨hsame, hcarded⟩
  constructor
  · rw [disConnectModuleAccesses_iff (Nat.lt_of_lt_of_le hmidx hs.few) (hcarded midx),
      hsame midx (Nat.le_refl midx)]
  · intro hc
    rw [← hsame midx (Nat.le_refl midx)] at hc
    obtain ⟨m₁, hm₁, hcarded₁⟩ := disConnectOwned_returns (hcarded midx) hc
    obtain ⟨m₂, hm₂⟩ : ∃ m₂, disConnectSources m₁ ccon.mask = some m₂ :=
      loop_returns (P := fun _ t => Carded t) hcarded₁ fun i hi t ht =>
        disConnectHard_returns ccon.mask ht hi
    refine ⟨t.setModule midx m₂, by rw [hm₁, Option.bind_some, hm₂]; rfl, fun j hj => ?_, fun j => ?_⟩
    · exact (update_of_ne (Nat.ne_of_gt hj) _ _).trans (hsame j (Nat.le_of_succ_le hj))
    · by_cases hj : j = midx
      · subst hj
        rw [show (t.setModule j m₂).moduleContexts j = m₂ from update_self ..]
        exact disConnectSources_carded hcarded₁ hm₂
      · rw [show (t.setModule midx m₂).moduleContexts j = t.moduleContexts j from
          update_of_ne hj _ _]
        exact hcarded j

end Sweeps

/-! ### Connecting -/

theorem ptim_modules_of_reach {s : WorkingArea} (h : ctrDriver.Reach s) :
    ∀ o ∈ s.ptim, o.moduleIndex.toNat < 16 := by
  induction h with
  | init hinit =>
    rw [hinit.ptim]
    exact fun o ho => by cases ho
  | step hreach _ hstep ih =>
    have hfew := (sound_of_reach hreach).few
    cases effect_of_step hstep with
    | quiet hptim => rwa [hptim]
    | disconnectAll _ _ hptim => rwa [hptim]
    | createPtim _ hmod =>
      intro o ho
      obtain ho | ho := List.mem_append.mp ho
      · exact ih o ho
      · rw [List.mem_singleton.mp ho]
        exact Nat.lt_of_lt_of_le hmod hfew
    | destroyPtim => exact fun o ho => ih o (mem_of_mem_removeFirst ho)
    | _ => exact ih

section Connect

variable {s : WorkingArea} {conx : Connection}

theorem connectHardAccesses_inside (eqpNum : U32) :
    ∀ a ∈ connectHardAccesses eqpNum, a.Inside := by
  intro a ha
  obtain ⟨i, hi, ha⟩ := List.mem_flatMap.mp ha
  split at ha
  · rw [List.mem_singleton] at ha
    rw [ha]
    exact (inside_ofNat _ _).mpr (List.mem_range.mp hi)
  · cases ha

theorem connectPtimAccesses_inside (m : ModuleContext) (eqpNum cmsk : U32) :
    ∀ a ∈ connectPtimAccesses m eqpNum cmsk, a.Inside := by
  refine forall_mem_loopTrace _ _ fun i hi ⟨_, m⟩ => ?_
  dsimp only
  split
  · simp [inside_ofNat, IndexedTable.size, hi]
  · exact fun _ h => by cases h

theorem connectCtimAccesses_inside (s : WorkingArea) (m : ModuleContext) (eqpNum : U32) :
    ∀ a ∈ connectCtimAccesses s m eqpNum, a.Inside := by
  unfold connectCtimAccesses
  split
  · rename_i i hslot
    simp [inside_ofNat, IndexedTable.size, (findSlot_some hslot).1]
  · split
    · exact fun _ h => by cases h
    · split
      · split
        · exact fun _ h => by cases h
        · rename_i i hslot
          simp [inside_ofNat, IndexedTable.size, (findSlot_some hslot).1]
      · exact fun _ h => by cases h

theorem connectAccesses_inside (hptim : ∀ o ∈ s.ptim, o.moduleIndex.toNat < 16)
    {ccon : ClientContext} (hccon : ccon.moduleIndex < 16) :
    ∀ a ∈ connectAccesses s conx ccon, a.Inside := by
  have hmodule : Access.Inside ⟨.moduleContexts, conx.moduleOr ccon.moduleIndex⟩ := by
    refine (inside_ofNat _ _).mpr ?_
    show conx.moduleOr ccon.moduleIndex < 16
    unfold Connection.moduleOr
    split <;> omega
  unfold connectAccesses
  rw [List.forall_mem_cons]
  refine ⟨hmodule, ?_⟩
  split
  · split
    · exact fun _ h => by cases h
    · rename_i midx hfound
      obtain ⟨o, ho, rfl⟩ := Option.map_eq_some_iff.mp hfound
      rw [List.forall_mem_cons]
      exact ⟨(inside_ofNat _ _).mpr (hptim o (List.mem_of_find?_eq_some ho)),
        connectPtimAccesses_inside _ _ _⟩
  · exact connectCtimAccesses_inside _ _ _
  · exact connectHardAccesses_inside _

theorem inside_module (conx : Connection) :
    Access.Inside ⟨.moduleContexts, (conx.module - 1).toInt⟩ ↔
      1 ≤ conx.module.toNat ∧ conx.module.toNat ≤ 16 := by
  rw [inside_toInt (by decide), IndexedTable.size]
  constructor
  · intro h
    bv_omega
  · intro h
    bv_omega

theorem writeAccesses_iff (triggerNumber : U32) :
    (∀ a ∈ writeAccesses s conx triggerNumber, a.Inside) ↔
      (1 ≤ conx.module.toNat ∧ conx.module.toNat ≤ 16 → conx.eqpClass ≠ .hard →
        triggerNumber.toNat ≤ ramTableSize) := by
  unfold writeAccesses
  by_cases hmodule : 1 ≤ conx.module.toNat ∧ conx.module.toNat ≤ 16
  · have hmidx : Access.Inside ⟨.moduleContexts, (conx.module.toNat - 1 : ℕ)⟩ :=
      (inside_ofNat _ _).mpr (show _ < 16 by omega)
    rw [if_pos hmodule, imp_iff_right hmodule, List.forall_mem_cons, and_iff_right hmidx]
    by_cases hclass : conx.eqpClass ≠ .hard
    · rw [if_pos hclass, imp_iff_right hclass]
      by_cases hzero : triggerNumber = 0
      · rw [if_pos hzero, hzero]
        refine iff_of_true ?_ (Nat.zero_le _)
        split
        · exact fun _ h => by cases h
        · rename_i i hslot
          simp [inside_ofNat, IndexedTable.size, (findSlot_some hslot).1]
      · rw [if_neg hzero]
        have htoNat : (triggerNumber - 1).toNat < ramTableSize ↔
            triggerNumber.toNat ≤ ramTableSize := by
          unfold ramTableSize
          constructor <;> intro h <;> bv_omega
        have hclients : Access.Inside ⟨.clients, (triggerNumber - 1).toInt⟩ ↔ _ :=
          (inside_toInt (by decide) _).trans htoNat
        have htrigs : Access.Inside ⟨.trigs, (triggerNumber - 1).toInt⟩ ↔ _ :=
          (inside_toInt (by decide) _).trans htoNat
        simp only [List.forall_mem_cons, hclients, htrigs]
        exact ⟨And.left, fun h => ⟨h, h, h, h, fun _ h => by cases h⟩⟩
    · rw [if_neg hclass]
      exact iff_of_true (connectHardAccesses_inside _) fun h => absurd h hclass
  · rw [if_neg hmodule]
    exact iff_of_true (fun _ h => by cases h) fun h => absurd h hmodule

theorem setConfigAccesses_iff (counter : U32) (lockConfig : Bool) :
    (∀ a ∈ setConfigAccesses counter lockConfig, a.Inside) ↔ counter.toNat < counters := by
  have hcounter : Access.Inside ⟨.counters, counter.toNat⟩ ↔ counter.toNat < counters :=
    inside_ofNat _ _
  unfold setConfigAccesses
  rw [List.forall_mem_cons, hcounter]
  refine ⟨And.left, fun h => ⟨h, ?_⟩⟩
  split
  · simpa [hcounter] using h
  · exact fun _ h => by cases h

theorem disConnectAccesses_iff (hs : s.Sound) (ccon : ClientContext) :
    (∀ a ∈ disConnectAccesses s conx ccon, a.Inside) ↔
      (1 ≤ conx.module.toNat ∧ conx.module.toNat ≤ 16) ∧
        ∀ i, NamedSlot (s.moduleContexts (conx.module.toNat - 1)) conx i →
          SlotBounded (s.moduleContexts (conx.module.toNat - 1)) ccon.mask i := by
  unfold disConnectAccesses
  rw [List.forall_mem_cons, inside_module]
  refine and_congr_right fun hmodule => ?_
  have hmidx := (inside_module conx).mpr hmodule
  rw [if_pos hmodule]
  by_cases hclass : conx.eqpClass ≠ .hard
  · rw [if_pos hclass]
    exact disConnectTriggersAccesses_iff hmidx (hs.carded _) hclass
  · rw [if_neg hclass]
    refine iff_of_true (disConnectSourcesAccesses_inside hmidx _ _) fun i hi => ?_
    obtain ⟨-, -, hclass', htrigger⟩ := hi
    rw [TriggerClass, hclass', not_not.mp hclass] at htrigger
    simp at htrigger

theorem ioctlAccesses_iff (hs : s.Sound) (cnum : ℕ) {body : ClientContext → List Access}
    {C : Prop} (hbody : ∀ h : cnum < 16,
      (∀ a ∈ body (s.clientContexts ⟨cnum, h⟩), a.Inside) ↔ C) :
    (∀ a ∈ ioctlAccesses s cnum body, a.Inside) ↔ (s.Serves cnum → C) := by
  unfold ioctlAccesses
  by_cases hcnum : cnum < 16
  · rw [dif_pos hcnum]
    by_cases hopen : (s.clientContexts ⟨cnum, hcnum⟩).inUse = false
    · rw [if_pos hopen]
      refine iff_of_true (fun _ h => by cases h) fun ⟨_, hin, _⟩ => ?_
      rw [hopen] at hin
      cases hin
    · rw [if_neg hopen, List.forall_mem_cons,
        and_iff_right ((inside_ofNat _ _).mpr (hs.modules ⟨cnum, hcnum⟩))]
      by_cases hserves : s.Serves cnum
      · rw [if_pos hserves, imp_iff_right hserves, hbody hcnum]
      · rw [if_neg hserves]
        exact iff_of_true (fun _ h => by cases h) fun h => absurd h hserves
  · rw [dif_neg hcnum]
    exact iff_of_true (fun _ h => by cases h) fun h => absurd h.1 hcnum

theorem disconnect_inside_iff (hs : s.Sound) (cnum : ℕ) (conx : Connection) :
    (∀ a ∈ (Request.disconnect cnum conx).accesses s, a.Inside) ↔
      (Request.disconnect cnum conx).Bounded s := by
  rw [Request.accesses, Request.Bounded]
  refine ioctlAccesses_iff hs cnum fun hcnum => ?_
  rw [WorkingArea.clientMask, dif_pos hcnum]
  split
  · exact disConnectAccesses_iff hs _
  · exact disConnectAllAccesses_iff hs _

end Connect

/-- **All indices lie inside their tables** if and only if the request is bounded, in every state
the driver reaches. -/
theorem accesses_inside_iff {s : WorkingArea} (h : ctrDriver.Reach s) (r : Request) :
    (∀ a ∈ r.accesses s, a.Inside) ↔ r.Bounded s := by
  have hs := sound_of_reach h
  cases r with
  | connect cnum conx =>
    rw [Request.accesses, Request.Bounded]
    rw [ioctlAccesses_iff (C := True) hs cnum fun hcnum => iff_of_true
      (connectAccesses_inside (ptim_modules_of_reach h) (hs.modules _)) trivial, imp_true_iff]
  | disconnect cnum conx => exact disconnect_inside_iff hs cnum conx
  | close cnum =>
    rw [Request.accesses, Request.Bounded]
    by_cases hcnum : cnum < 16
    · have hclosed : WorkingArea.Sound { s with
          clientContexts := update s.clientContexts ⟨cnum, hcnum⟩
            { s.clientContexts ⟨cnum, hcnum⟩ with inUse := false } } :=
        hs.withClient (fun hin => by cases hin) (hs.modules _)
      rw [dif_pos hcnum, imp_iff_right hcnum, WorkingArea.clientMask, dif_pos hcnum]
      exact disConnectAllAccesses_iff hclosed _
    · rw [dif_neg hcnum]
      exact iff_of_true (fun _ h => by cases h) fun h => absurd h hcnum
  | setConfig cnum counter lockConfig =>
    rw [Request.accesses, Request.Bounded]
    exact ioctlAccesses_iff hs cnum fun _ => setConfigAccesses_iff counter lockConfig
  | write conx triggerNumber =>
    rw [Request.accesses, Request.Bounded]
    exact writeAccesses_iff triggerNumber

/-! ### A PTIM of fifteen triggers -/

/-- A trigger number that is in the table. -/
theorem accesses_inside_iff_last :
    ctrDriver.Reach oneModule ∧
      ∀ a ∈ (Request.write ⟨1, .ctim, 5⟩ 2048).accesses oneModule, a.Inside :=
  ⟨.init oneModule_installed,
    (accesses_inside_iff (.init oneModule_installed) _).mpr fun _ _ => Nat.le_refl _⟩

/-- One card and one open client. -/
def opened : WorkingArea :=
  { oneModule with
    clientContexts := update oneModule.clientContexts firstClient.clientIndex firstClient }

theorem opened_reach : ctrDriver.Reach opened := by
  have hopen : oneModule.step (.open 0) = some opened := rfl
  exact (System.Reach.init oneModule_installed).step hopen

/-- The slots 0 to 14, all with counter 1. -/
def fifteenTriggers : PtimBinding := ⟨7, 0, 1, 15, 0⟩

theorem connectPtim_returns {m : ModuleContext} (hmap : m.map = true) (eqpNum cmsk : U32) :
    ∃ count m', connectPtim m eqpNum cmsk = some (count, m') ∧
      (m'.map = true ∧ m'.inUse = m.inUse ∧ m'.upLock = m.upLock) := by
  have hround : ∀ i (t : ℕ × ModuleContext),
      (t.2.map = true ∧ t.2.inUse = m.inUse ∧ t.2.upLock = m.upLock) → ∃ t',
        (if eqpNum = t.2.eqpNum i ∧ .ptim = t.2.eqpClass i then
          (connectSlot t.2 i cmsk (sourceMask (t.2.trigs i).counter)).map fun m => (t.1 + 1, m)
          else some t) = some t' ∧
        (t'.2.map = true ∧ t'.2.inUse = m.inUse ∧ t'.2.upLock = m.upLock) := by
    intro i t ht
    split
    · rw [connectSlot, if_pos ht.1]
      exact ⟨_, rfl, ht⟩
    · exact ⟨t, rfl, ht⟩
  obtain ⟨⟨count, m'⟩, hp⟩ : ∃ p, connectPtim m eqpNum cmsk = some p :=
    loop_returns (P := fun _ (t : ℕ × ModuleContext) =>
      t.2.map = true ∧ t.2.inUse = m.inUse ∧ t.2.upLock = m.upLock) ⟨hmap, rfl, rfl⟩
      fun i _ t ht => hround i t ht
  refine ⟨count, m', hp, ?_⟩
  refine loop_invariant (P := fun _ (t : ℕ × ModuleContext) =>
    t.2.map = true ∧ t.2.inUse = m.inUse ∧ t.2.upLock = m.upLock) hp ⟨hmap, rfl, rfl⟩ ?_
  intro i _ t t' ht hs
  obtain ⟨t'', ht'', hkept⟩ := hround i t ht
  obtain rfl : t' = t'' := Option.some.inj (hs.symm.trans ht'')
  exact hkept

/-- The only client of the driver is connected to the fifteen triggers. -/
structure OnFifteen (s : WorkingArea) : Prop where
  serves : s.Serves 0
  mask : s.clientMask 0 = 1
  named : ∀ i < 15, NamedSlot (s.moduleContexts 0) ⟨1, .ptim, 7⟩ i
  counter : ∀ i < 15, ((s.moduleContexts 0).trigs i).counter = 1
  mine : ∀ i < 15, (s.moduleContexts 0).clients i = 1
  free : ∀ i, ¬ i < 15 → (s.moduleContexts 0).clients i = 0
  sources : ∀ c, (s.moduleContexts 0).hardClients c = 0

theorem onFifteen_reached : ∃ s, ctrDriver.Reach s ∧ OnFifteen s := by
  have hserves : opened.Serves 0 := ⟨by decide, rfl, rfl, rfl⟩
  have hroom : Room (opened.moduleContexts 0) 15 0 := ⟨by decide, fun _ _ _ => rfl⟩
  obtain ⟨-, hnone⟩ | ⟨start, s₁, hcreate, hcreated, hleast⟩ :=
    @createPtim_cases opened fifteenTriggers (fun o ho => by cases ho) (by decide) (by decide)
      (by decide)
  · exact absurd hroom (hnone 0)
  obtain rfl : start = 0 := Nat.le_zero.mp (hleast.2 hroom)
  have hreach₁ : ctrDriver.Reach s₁ := by
    refine opened_reach.step (a := .ioctl 0 (.createPtim fifteenTriggers)) ?_
    show opened.step _ = some s₁
    rw [step_served (show Ioctl.Guarded (.createPtim _) from trivial) hserves]
    exact congrArg (Option.map Prod.snd) hcreate
  have hrest : s₁.moduleContexts 0 = { opened.moduleContexts 0 with
      eqpNum := (s₁.moduleContexts 0).eqpNum
      eqpClass := (s₁.moduleContexts 0).eqpClass
      trigs := (s₁.moduleContexts 0).trigs } := hcreated.slots.rest
  have hclients₁ : s₁.clientContexts = opened.clientContexts := by rw [hcreated.state]
  have hslot : ∀ i < 15, (s₁.moduleContexts 0).eqpNum i = 7 ∧ (s₁.moduleContexts 0).eqpClass i = .ptim
      ∧ ((s₁.moduleContexts 0).trigs i).counter = 1 := fun i hi =>
    hcreated.slots.hits i ⟨Nat.zero_le i, by simpa [fifteenTriggers] using hi⟩
  have hother : ∀ i, ¬ i < 15 → (s₁.moduleContexts 0).eqpNum i = 0 := fun i hi =>
    (hcreated.slots.misses i fun h => hi (by simpa [fifteenTriggers] using h.2)).1
  have hserves₁ : s₁.Serves 0 := by
    refine ⟨by decide, ?_, ?_, ?_⟩
    · rw [hclients₁]
      rfl
    · rw [hclients₁]
      show (s₁.moduleContexts 0).inUse = true
      rw [hrest]
      rfl
    · rw [hclients₁]
      show (s₁.moduleContexts 0).upLock = false
      rw [hrest]
      rfl
  have hmap₁ : (s₁.moduleContexts 0).map = true := by
    rw [hrest]
    rfl
  obtain ⟨count, m, hconnect, hmap, hused, hlock⟩ := connectPtim_returns hmap₁ 7 1
  have hconn := connectPtim_connected hconnect
  obtain ⟨r, s₂, hfinish⟩ : ∃ r s₂, finishConnect s₁ 0 count m = some (r, s₂) := by
    unfold finishConnect enableInterrupts
    rw [if_pos hmap]
    split <;> exact ⟨_, _, rfl⟩
  have hrun : connect s₁ ⟨1, .ptim, 7⟩ (s₁.clientContexts 0) = some (r, s₂) := by
    have hfind : getPtimModule s₁ 7 = some 0 := by
      rw [hcreated.state]
      rfl
    have hmask : (s₁.clientContexts 0).mask = 1 := by
      rw [hclients₁]
      rfl
    unfold connect
    dsimp only
    rw [hfind, hmask]
    dsimp only
    rw [hconnect]
    exact hfinish
  have hreach₂ : ctrDriver.Reach s₂ := by
    refine hreach₁.step (a := .ioctl 0 (.connect ⟨1, .ptim, 7⟩)) ?_
    show s₁.step _ = some s₂
    rw [step_served (show Ioctl.Guarded (.connect _) from trivial) hserves₁]
    exact congrArg (Option.map Prod.snd) hrun
  obtain ⟨hw, hs₂⟩ := finishConnect_spec hfinish
  obtain ⟨t, ht, rfl⟩ : ∃ t, t = { m with hwInterruptEnable := hw } ∧ s₂ = s₁.setModule 0 t :=
    ⟨_, rfl, hs₂⟩
  have hmodule : (s₁.setModule 0 t).moduleContexts 0 = { m with hwInterruptEnable := hw } := by
    rw [← ht]
    show update s₁.moduleContexts 0 t 0 = t
    rw [update_self]
  obtain ⟨hcnum, hopen₁, hused₁, hlock₁⟩ := hserves₁
  have hptim : ∀ i < 15, PtimSlot (s₁.moduleContexts 0) 7 i := fun i hi =>
    ⟨Nat.lt_of_lt_of_le hi (by decide), (hslot i hi).1, (hslot i hi).2.1⟩
  have hclients : ∀ i, (s₁.moduleContexts 0).clients i = 0 := fun i => by
    rw [hrest]
    rfl
  have hown : ((s₁.setModule 0 t).clientContexts ⟨0, hcnum⟩).moduleIndex = 0 := by
    show (s₁.clientContexts ⟨0, hcnum⟩).moduleIndex = 0
    rw [hclients₁]
    rfl
  refine ⟨_, hreach₂, ⟨hcnum, hopen₁, ?_, ?_⟩, ?_, ?_, ?_, ?_, ?_, ?_⟩
  · rw [hown, hmodule]
    refine hused.trans ?_
    rw [hrest]
    rfl
  · rw [hown, hmodule]
    refine hlock.trans ?_
    rw [hrest]
    rfl
  · show s₁.clientMask 0 = 1
    rw [WorkingArea.clientMask, dif_pos hcnum, hclients₁]
    rfl
  · intro i hi
    obtain ⟨hlt, hnum, hclass⟩ := hptim i hi
    rw [hmodule, NamedSlot, TriggerClass]
    dsimp only
    rw [hconn.eqpNum, hconn.eqpClass]
    exact ⟨hlt, hnum, hclass, .inr hclass⟩
  · intro i hi
    rw [hmodule]
    dsimp only
    rw [hconn.trigs]
    exact (hslot i hi).2.2
  · intro i hi
    rw [hmodule]
    dsimp only
    rw [(hconn.hits i (hptim i hi)).1, hclients i]
    rfl
  · intro i hi
    rw [hmodule]
    dsimp only
    rw [(hconn.misses i fun h => ?_).1, hclients i]
    have hzero := hother i hi
    rw [h.2.1] at hzero
    cases hzero
  · intro c
    rw [hmodule]
    dsimp only
    rw [hconn.hardClients, hrest]
    rfl

/-- **Outside the tables**: a trigger number behind the last trigger, a counter number behind the
last counter, the module number 0, and number 14 of a trigger as that of a source. -/
theorem accesses_outside :
    (∃ a ∈ (Request.write ⟨1, .ctim, 5⟩ 2049).accesses opened, ¬ a.Inside) ∧
      (∃ a ∈ (Request.setConfig 0 9 false).accesses opened, ¬ a.Inside) ∧
      (∃ a ∈ (Request.disconnect 0 ⟨0, .ctim, 5⟩).accesses opened, ¬ a.Inside) ∧
      ∃ s, ctrDriver.Reach s ∧
        ∃ a ∈ (Request.disconnect 0 ⟨1, .ptim, 7⟩).accesses s, ¬ a.Inside := by
  have hserves : opened.Serves 0 := ⟨by decide, rfl, rfl, rfl⟩
  refine ⟨⟨⟨.clients, 2048⟩, ?_, by decide⟩, ⟨⟨.counters, 9⟩, ?_, by decide⟩,
    ⟨⟨.moduleContexts, -1⟩, ?_, by decide⟩, ?_⟩
  · decide
  · decide
  · decide
  · obtain ⟨s, hreach, hs⟩ := onFifteen_reached
    refine ⟨s, hreach, ?_⟩
    by_contra hall
    have hinside : ∀ a ∈ (Request.disconnect 0 ⟨1, .ptim, 7⟩).accesses s, a.Inside := fun a ha =>
      not_not.mp fun hout => hall ⟨a, ha, hout⟩
    obtain ⟨-, hslots⟩ := (disconnect_inside_iff (sound_of_reach hreach) 0 _).mp hinside hs.serves
    -- the last of the fifteen triggers: nobody else is connected to anything
    have hlast : SlotBounded (s.moduleContexts 0) 1 14 := by
      have hslot := hslots 14 (hs.named 14 (by decide))
      rwa [hs.mask] at hslot
    have hmine := hs.mine 14 (by decide)
    have hreads := hlast ⟨by rw [hmine]; decide, by rw [hmine]; decide⟩
    rw [ReadsInside, hs.counter 14 (by decide), if_neg (by decide)] at hreads
    obtain ⟨-, hkept | hkept | hlt⟩ := hreads
    · refine hkept ?_
      rw [ModuleContext.readHardClients, if_pos (by decide), hs.sources]
      rfl
    · obtain ⟨i, -, -, hothers⟩ := (triggerKept_iff _ _ _).mp hkept
      by_cases hi : i < 15
      · exact hothers (by rw [hs.mine i hi]; decide)
      · exact hothers (by rw [hs.free i hi]; decide)
    · exact absurd hlt (by decide)

end KernelModules.Ctr
