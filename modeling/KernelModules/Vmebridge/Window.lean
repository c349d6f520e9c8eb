import Mathlib.Logic.Function.Basic
import KernelModules.Vmebridge.Tsi148Window

/-!
# The window table of the VME bridge

`vme_window.c` keeps a table of eight hardware windows, each with its own lock, the
descriptor it was created with, the logical mappings made on top of it and a user count.
This file embeds the operations on that table.  What a window's lock guards is one
definition, so that the sequential calls here and the interleaved callers of
`WindowCallers` run the same code:

* `vmeCreateWindow` and `vmeDestroyWindow` are one section each;
* `findInWindow` is one pass of the search loop of `__vme_find_mapping`, and `finishFind`
  is what that function does after `vme_create_window` has returned;
* `releaseSection` is the locked part of `__vme_release_mapping`, which either finishes or
  goes on to destroy the window with the lock dropped;
* `closeWindow` is one pass of the loop of `vme_window_release`.

An environment record stands for what the kernel decides: interrupted lock waits, bus
regions, mapped addresses and allocations.
-/

namespace KernelModules.Vmebridge

open Function

/-- Index into the window table (`TSI148_NUM_OUT_WINDOWS` entries). -/
abbrev WindowIdx := Fin 8

/-- An open file description. -/
abbrev FileId := ℕ

/-- `struct mapping`: the descriptor and the owner, `none` for the kernel. -/
structure Mapping where
  desc : VmeMapping
  file : Option FileId
  deriving DecidableEq, Repr

/-- `struct window`. -/
structure Window where
  active : Bool
  desc : VmeMapping
  mappings : List Mapping
  users : ℤ
  deriving DecidableEq, Repr

/-- The window table and the outbound window registers of the chip. -/
@[ext] structure Bridge where
  window : WindowIdx → Window
  otrans : WindowIdx → Otrans

/-- The result code (with the descriptor handed back) and the state after a call. -/
abbrev Outcome := Except Errno VmeMapping × Bridge

/-- Bounds check on a window number taken from a caller. -/
def windowIndex (n : ℤ) : Option WindowIdx :=
  if h : 0 ≤ n ∧ n < 8 then some ⟨n.toNat, by omega⟩ else none

def Bridge.setWindow (s : Bridge) (i : WindowIdx) (w : Window) : Bridge :=
  { s with window := update s.window i w }

def Bridge.setOtrans (s : Bridge) (i : WindowIdx) (o : Otrans) : Bridge :=
  { s with otrans := update s.otrans i o }

@[simp] theorem Bridge.setWindow_window_self (s : Bridge) (i : WindowIdx) (w : Window) :
    (s.setWindow i w).window i = w := by
  simp [Bridge.setWindow]

theorem Bridge.setWindow_window_ne (s : Bridge) {i j : WindowIdx} (w : Window) (h : j ≠ i) :
    (s.setWindow i w).window j = s.window j := by
  simp [Bridge.setWindow, h]

@[simp] theorem Bridge.setWindow_otrans (s : Bridge) (i : WindowIdx) (w : Window) :
    (s.setWindow i w).otrans = s.otrans := rfl

@[simp] theorem Bridge.setOtrans_window (s : Bridge) (i : WindowIdx) (o : Otrans) :
    (s.setOtrans i o).window = s.window := rfl

@[simp] theorem Bridge.setOtrans_otrans_self (s : Bridge) (i : WindowIdx) (o : Otrans) :
    (s.setOtrans i o).otrans i = o := by
  simp [Bridge.setOtrans]

theorem Bridge.setOtrans_otrans_ne (s : Bridge) {i j : WindowIdx} (o : Otrans) (h : j ≠ i) :
    (s.setOtrans i o).otrans j = s.otrans j := by
  simp [Bridge.setOtrans, h]

/-! ### Creating a window -/

/-- What the kernel answers during `vme_create_window`: an interrupted lock wait, the bus
region (`none` when there is none) and the mapped address (0 for a failed `ioremap`). -/
structure CreateEnv where
  interrupted : Bool
  region : Option U32
  ioremap : BitVec 64
  deriving DecidableEq, Repr

/-- The address and size rounding at the head of `vme_create_window`.  The address is
replaced before the size is adjusted, so the adjustment adds zero. -/
def roundWindow (desc : VmeMapping) : VmeMapping :=
  let desc := if desc.vmeAddrl &&& 0xffff#32 ≠ 0 then
      let lowaddr := desc.vmeAddrl &&& ~~~0xffff#32
      let desc := { desc with vmeAddrl := lowaddr }
      { desc with sizel := desc.sizel + (desc.vmeAddrl - lowaddr) }
    else desc
  if desc.sizel &&& 0xffff#32 ≠ 0 then
    { desc with sizel := (desc.sizel + 0x10000#32) &&& ~~~0xffff#32 }
  else desc

/-- `vme_create_window`. -/
def vmeCreateWindow (env : CreateEnv) (desc : VmeMapping) (s : Bridge) : Outcome :=
  match windowIndex desc.windowNum with
  | none => (.error .EINVAL, s)
  | some i =>
    if desc.sizel = 0 then (.error .EINVAL, s)
    else
      let desc := roundWindow desc
      if env.interrupted then (.error .ERESTARTSYS, s)
      else if (s.window i).active then (.error .EBUSY, s)
      else
        match env.region with
        | none => (.error .ENOMEM, s)
        | some start =>
          if env.ioremap = 0 then (.error .ENOMEM, s)
          else
            let desc := { desc with kernelVa := env.ioremap, pciAddrl := start }
            match tsi148CreateWindow desc with
            | none => (.error .EINVAL, s)
            | some (desc, regs) =>
              (.ok desc,
                (s.setOtrans i regs).setWindow i
                  { s.window i with desc := desc, active := true })

/-! ### Mappings -/

/-- `add_mapping`; `none` when the allocation fails (`-ENOMEM`). -/
def addMapping (kzalloc : Bool) (w : Window) (desc : VmeMapping) (file : Option FileId) :
    Option Window :=
  if kzalloc then
    some { w with mappings := w.mappings ++ [⟨desc, file⟩], users := w.users + 1 }
  else none

/-- The match test of `remove_mapping`: a release without a file matches any owner. -/
def Mapping.releasedBy (desc : VmeMapping) (file : Option FileId) (m : Mapping) : Bool :=
  m.desc.vmeAddru == desc.vmeAddru && m.desc.vmeAddrl == desc.vmeAddrl
    && m.desc.sizeu == desc.sizeu && m.desc.sizel == desc.sizel
    && m.desc.kernelVa == desc.kernelVa && (file == none || m.file == file)

/-- `remove_mapping`: the first match is unlinked; `none` is `-EINVAL`. -/
def removeMapping (w : Window) (desc : VmeMapping) (file : Option FileId) : Option Window :=
  if w.mappings.any (Mapping.releasedBy desc file) then
    some { w with
      mappings := w.mappings.eraseP (Mapping.releasedBy desc file), users := w.users - 1 }
  else none

/-! ### Destroying a window -/

/-- The mapping list and user count after "remove all mappings". -/
def Window.dropMappings (w : Window) : Window :=
  if w.users > 0 then { w with mappings := [], users := w.users - w.mappings.length } else w

/-- `vme_destroy_window`.  The registers are wiped at the number stored in the window's
descriptor. -/
def vmeDestroyWindow (interrupted : Bool) (n : ℤ) (s : Bridge) : Except Errno Unit × Bridge :=
  match windowIndex n with
  | none => (.error .EINVAL, s)
  | some i =>
    if interrupted then (.error .ERESTARTSYS, s)
    else if (s.window i).active then
      let w := { (s.window i).dropMappings with active := false }
      let removed := tsi148RemoveWindow { w.desc with kernelVa := 0 }
      let s := s.setWindow i { w with desc := removed.1 }
      match windowIndex w.desc.windowNum with
      | none => (.ok (), s)
      | some j => (.ok (), s.setOtrans j removed.2)
    else (.error .EINVAL, s)

/-! ### Finding a mapping -/

/-- The tests of the search loop of `__vme_find_mapping` on one window.  The end addresses
are 32-bit sums. -/
def Window.accepts (w : Window) (mtch : VmeMapping) : Bool :=
  w.active && w.desc.windowEnabled
    && (w.desc.vmeAddru == 0 && w.desc.sizeu == 0)
    && (w.desc.am == mtch.am && w.desc.dataWidth == mtch.dataWidth)
    && !(decide (mtch.vmeAddrl < w.desc.vmeAddrl)
      || decide (w.desc.vmeAddrl + w.desc.sizel < mtch.vmeAddrl + mtch.sizel))
    && !(w.desc.am == .v2e6U && !(w.desc.v2esstMode == mtch.v2esstMode))

/-- The fields a window gives to a mapping placed on it. -/
def Window.place (w : Window) (i : WindowIdx) (mtch : VmeMapping) : VmeMapping :=
  let offset := mtch.vmeAddrl - w.desc.vmeAddrl
  { mtch with
    kernelVa := w.desc.kernelVa + offset.setWidth 64
    pciAddrl := w.desc.pciAddrl + offset
    windowNum := i.val }

/-- Place the mapping on window `i` and link it there; the tail of both paths of
`__vme_find_mapping`. -/
def finishFind (kzalloc : Bool) (i : WindowIdx) (mtch : VmeMapping) (file : Option FileId)
    (s : Bridge) : Outcome :=
  let placed := (s.window i).place i mtch
  match addMapping kzalloc (s.window i) placed file with
  | none => (.error .ENOMEM, s)
  | some w => (.ok placed, s.setWindow i w)

/-- One pass of the search loop: the section under `window->lock`. -/
def findInWindow (kzalloc : Bool) (i : WindowIdx) (mtch : VmeMapping) (file : Option FileId)
    (s : Bridge) : Option Outcome :=
  if (s.window i).accepts mtch then some (finishFind kzalloc i mtch file s) else none

/-- What the kernel answers during `__vme_find_mapping`. -/
structure FindEnv where
  interrupted : WindowIdx → Bool
  kzalloc : Bool
  create : CreateEnv

/-- The search loop over the windows still to be looked at. -/
def findExisting (env : FindEnv) (mtch : VmeMapping) (file : Option FileId) (s : Bridge) :
    List WindowIdx → Option Outcome
  | [] => none
  | i :: is =>
    if env.interrupted i then some (.error .ERESTARTSYS, s)
    else
      match findInWindow env.kzalloc i mtch file s with
      | some r => some r
      | none => findExisting env mtch file s is

/-- "Get the first unused window". -/
def firstUnused (s : Bridge) : Option WindowIdx :=
  (List.finRange 8).find? fun i => !(s.window i).active

/-- The private descriptor `__vme_find_mapping` creates a window from. -/
def windowFor (mtch : VmeMapping) (i : WindowIdx) : VmeMapping :=
  vmeOptimizeWindowSize { mtch with windowNum := i.val }

/-- `__vme_find_mapping`. -/
def vmeFindMapping (env : FindEnv) (mtch : VmeMapping) (force : Bool) (file : Option FileId)
    (s : Bridge) : Outcome :=
  if vmeMappingSanityCheck mtch then
    match findExisting env mtch file s (List.finRange 8) with
    | some r => r
    | none =>
      if force then
        match firstUnused s with
        | none => (.error .EBUSY, s)
        | some i =>
          match vmeCreateWindow env.create (windowFor mtch i) s with
          | (.error e, s) => (.error e, s)
          | (.ok _, s) => finishFind env.kzalloc i mtch file s
      else (.error .EBUSY, s)
  else (.error .EINVAL, s)

/-! ### Releasing a mapping, closing a file -/

/-- How the locked part of `__vme_release_mapping` ends: with a result, or by unlocking and
calling `vme_destroy_window`. -/
inductive ReleaseNext
  | done (rc : Except Errno Unit)
  | destroy (n : ℤ)
  deriving DecidableEq

/-- The locked part of `__vme_release_mapping`. -/
def releaseSection (interrupted : Bool) (desc : VmeMapping) (force : Bool)
    (file : Option FileId) (s : Bridge) : ReleaseNext × Bridge :=
  match windowIndex desc.windowNum with
  | none => (.done (.error .EINVAL), s)
  | some i =>
    if interrupted then (.done (.error .ERESTARTSYS), s)
    else if (s.window i).active then
      match removeMapping (s.window i) desc file with
      | none => (.done (.error .EINVAL), s)
      | some w =>
        if w.users = 0 ∧ force then (.destroy desc.windowNum, s.setWindow i w)
        else (.done (.ok ()), s.setWindow i w)
    else (.done (.error .EINVAL), s)

/-- `__vme_release_mapping`. -/
def vmeReleaseMapping (interrupted interruptedDestroy : Bool) (desc : VmeMapping) (force : Bool)
    (file : Option FileId) (s : Bridge) : Except Errno Unit × Bridge :=
  match releaseSection interrupted desc force file s with
  | (.done rc, s) => (rc, s)
  | (.destroy n, s) => vmeDestroyWindow interruptedDestroy n s

/-- One pass of `vme_window_release`: every mapping of the file on window `i` is unlinked. -/
def closeWindow (file : FileId) (i : WindowIdx) (s : Bridge) : Bridge :=
  let w := s.window i
  if w.active && !w.mappings.isEmpty then
    s.setWindow i { w with
      mappings := w.mappings.filter fun m => !(m.file == some file)
      users := w.users - (w.mappings.filter fun m => m.file == some file).length }
  else s

/-- `vme_window_release`: the loop stops at an interrupted lock wait. -/
def vmeWindowRelease (interrupted : WindowIdx → Bool) (file : FileId) :
    List WindowIdx → Bridge → Except Errno Unit × Bridge
  | [], s => (.ok (), s)
  | i :: is, s =>
    if interrupted i then (.error .ERESTARTSYS, s)
    else vmeWindowRelease interrupted file is (closeWindow file i s)

/-! ### The table after `vme_window_init` -/

/-- A zeroed descriptor. -/
def VmeMapping.zero : VmeMapping where
  windowNum := 0
  kernelVa := 0
  windowEnabled := false
  dataWidth := .other 0
  am := .a64Mblt
  readPrefetchEnabled := false
  readPrefetchSize := 0
  v2esstMode := .sst160
  bcastSelect := 0
  pciAddru := 0
  pciAddrl := 0
  sizeu := 0
  sizel := 0
  vmeAddru := 0
  vmeAddrl := 0

/-- A request for user data in A32, with everything the caller may leave open at zero. -/
def userRequest (vmeAddrl sizel : U32) : VmeMapping :=
  { VmeMapping.zero with am := .a32UserDataSct, dataWidth := .d32, vmeAddrl, sizel }

/-- The static table after `vme_window_init`, on a chip with wiped windows. -/
def Bridge.initial : Bridge where
  window _ := ⟨false, VmeMapping.zero, [], 0⟩
  otrans _ := Otrans.zero

/-! ### What each section can do

One lemma per section says everything it can do to the table; the invariants of the
following files are derived from these and never unfold the operations again. -/

theorem windowIndex_eq_some {n : ℤ} {i : WindowIdx} (h : windowIndex n = some i) :
    n = i.val := by
  unfold windowIndex at h
  split at h
  · simp only [Option.some.injEq] at h
    subst h
    simp only
    omega
  · cases h

@[simp] theorem windowIndex_val (i : WindowIdx) : windowIndex (i.val : ℤ) = some i := by
  have hi := i.isLt
  rw [windowIndex, dif_pos (by omega)]
  simp

/-- The state after a successful `vme_create_window` on window `i`. -/
def Bridge.created (s : Bridge) (i : WindowIdx) (desc : VmeMapping) (regs : Otrans) : Bridge :=
  (s.setOtrans i regs).setWindow i { s.window i with desc := desc, active := true }

theorem vmeCreateWindow_cases (env : CreateEnv) (desc : VmeMapping) (s : Bridge) :
    (∃ e, vmeCreateWindow env desc s = (.error e, s)) ∨
    ∃ i start d regs, windowIndex desc.windowNum = some i ∧ desc.sizel ≠ 0 ∧
      (s.window i).active = false ∧ env.region = some start ∧
      tsi148CreateWindow { roundWindow desc with kernelVa := env.ioremap, pciAddrl := start }
        = some (d, regs) ∧
      vmeCreateWindow env desc s = (.ok d, s.created i d regs) := by
  unfold vmeCreateWindow
  split
  · exact .inl ⟨_, rfl⟩
  rename_i i hi
  split
  · exact .inl ⟨_, rfl⟩
  rename_i hsize
  simp only
  split
  · exact .inl ⟨_, rfl⟩
  split
  · exact .inl ⟨_, rfl⟩
  rename_i hact
  split
  · exact .inl ⟨_, rfl⟩
  rename_i start hstart
  split
  · exact .inl ⟨_, rfl⟩
  split
  · exact .inl ⟨_, rfl⟩
  rename_i d regs hregs
  exact .inr ⟨i, start, d, regs, hi, hsize, by simpa using hact, hstart, hregs, rfl⟩

/-- The window after it has been destroyed. -/
def Window.destroyed (w : Window) : Window :=
  { w.dropMappings with
    active := false, desc := { w.desc with kernelVa := 0, windowEnabled := false } }

theorem Window.dropMappings_desc (w : Window) : w.dropMappings.desc = w.desc := by
  unfold Window.dropMappings
  split <;> rfl

theorem vmeDestroyWindow_cases (interrupted : Bool) (n : ℤ) (s : Bridge) :
    (∃ e, vmeDestroyWindow interrupted n s = (.error e, s)) ∨
    ∃ i, windowIndex n = some i ∧ (s.window i).active = true ∧
      (vmeDestroyWindow interrupted n s).1 = .ok () ∧
      (vmeDestroyWindow interrupted n s).2.window
        = (s.setWindow i (s.window i).destroyed).window ∧
      ((s.window i).desc.windowNum = i.val →
        (vmeDestroyWindow interrupted n s).2.otrans = (s.setOtrans i Otrans.zero).otrans) := by
  unfold vmeDestroyWindow
  split
  · exact .inl ⟨_, rfl⟩
  rename_i i hi
  split
  · exact .inl ⟨_, rfl⟩
  split
  · rename_i hact
    refine .inr ⟨i, hi, hact, ?_⟩
    simp only [Window.dropMappings_desc, tsi148RemoveWindow]
    have hw : ({ (s.window i).dropMappings with
        active := false
        desc := { (s.window i).desc with kernelVa := 0, windowEnabled := false } } : Window)
        = (s.window i).destroyed := rfl
    rw [hw]
    refine ⟨?_, ?_, ?_⟩
    · split <;> rfl
    · split <;> rfl
    · intro hnum
      rw [hnum, windowIndex_val]
      rfl
  · exact .inl ⟨_, rfl⟩

/-- The window with one more mapping. -/
def Window.withMapping (w : Window) (m : Mapping) : Window :=
  { w with mappings := w.mappings ++ [m], users := w.users + 1 }

theorem finishFind_cases (kzalloc : Bool) (i : WindowIdx) (mtch : VmeMapping)
    (file : Option FileId) (s : Bridge) :
    finishFind kzalloc i mtch file s = (.error .ENOMEM, s) ∨
    finishFind kzalloc i mtch file s = (.ok ((s.window i).place i mtch),
      s.setWindow i ((s.window i).withMapping ⟨(s.window i).place i mtch, file⟩)) := by
  cases kzalloc
  · exact .inl rfl
  · exact .inr rfl

/-- The window with the first mapping that a release matches taken out. -/
def Window.withoutMapping (w : Window) (desc : VmeMapping) (file : Option FileId) : Window :=
  { w with mappings := w.mappings.eraseP (Mapping.releasedBy desc file), users := w.users - 1 }

theorem releaseSection_cases (interrupted : Bool) (desc : VmeMapping) (force : Bool)
    (file : Option FileId) (s : Bridge) :
    (∃ e, releaseSection interrupted desc force file s = (.done (.error e), s)) ∨
    ∃ i, windowIndex desc.windowNum = some i ∧ (s.window i).active = true ∧
      (s.window i).mappings.any (Mapping.releasedBy desc file) = true ∧
      (releaseSection interrupted desc force file s).2
        = s.setWindow i ((s.window i).withoutMapping desc file) ∧
      (((s.window i).withoutMapping desc file).users = 0 ∧ force = true ∧
          (releaseSection interrupted desc force file s).1 = .destroy desc.windowNum ∨
        (releaseSection interrupted desc force file s).1 = .done (.ok ())) := by
  unfold releaseSection
  split
  · exact .inl ⟨_, rfl⟩
  rename_i i hi
  split
  · exact .inl ⟨_, rfl⟩
  split
  · rename_i hact
    unfold removeMapping
    by_cases hany : (s.window i).mappings.any (Mapping.releasedBy desc file) = true
    · rw [if_pos hany]
      refine .inr ⟨i, hi, hact, hany, ?_⟩
      simp only
      split
      · rename_i hdes
        exact ⟨rfl, .inl ⟨hdes.1, by simpa using hdes.2, rfl⟩⟩
      · exact ⟨rfl, .inr rfl⟩
    · rw [if_neg hany]
      exact .inl ⟨_, rfl⟩
  · exact .inl ⟨_, rfl⟩

/-- The window with every mapping of a file taken out. -/
def Window.withoutFile (w : Window) (file : FileId) : Window :=
  { w with
    mappings := w.mappings.filter fun m => !(m.file == some file)
    users := w.users - (w.mappings.filter fun m => m.file == some file).length }

theorem closeWindow_cases (file : FileId) (i : WindowIdx) (s : Bridge) :
    closeWindow file i s = s ∨
    (s.window i).active = true ∧
      closeWindow file i s = s.setWindow i ((s.window i).withoutFile file) := by
  unfold closeWindow
  simp only
  split
  · rename_i h
    rw [Bool.and_eq_true] at h
    exact .inr ⟨h.1, rfl⟩
  · exact .inl rfl

end KernelModules.Vmebridge
