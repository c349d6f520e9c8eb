import KernelModules.Lib.Transition
import KernelModules.Vmebridge.Window

/-!
# What a found mapping translates

`vme_find_mapping` promises its caller that the bytes it hands back reach the VME addresses
asked for.  Three places have to agree for that: the boundary tests against an existing
window, the size optimisation and 64K rounding of a new one, and the split 64-bit register
arithmetic of the chip.

* `Call` and `calls` are the sequential system of the five entry points, from the table that
  `vme_window_init` leaves and any register contents;
* `WindowOk` is what every active window keeps along every run: its descriptor is aligned,
  its PCI region does not wrap, and the chip holds it (`tableOk_of_callable`);
* `Translated` is the promise, and `Fits` the condition under which the code keeps it:
  the 32-bit boundary sums do not wrap against an existing window, and a new window is not
  smaller than the request once the start has been rounded down.
-/

namespace KernelModules.Vmebridge

open KernelModules.Lib KernelModules.Lib.Word

/-! ### The sequential system -/

/-- A call of one of the entry points, with what the kernel answers during it. -/
inductive Call
  | create (env : CreateEnv) (desc : VmeMapping)
  | destroy (interrupted : Bool) (n : ℤ)
  | find (env : FindEnv) (mtch : VmeMapping) (force : Bool) (file : Option FileId)
  | release (interrupted interruptedDestroy : Bool) (desc : VmeMapping) (force : Bool)
      (file : Option FileId)
  | close (interrupted : WindowIdx → Bool) (file : FileId)

/-- The table and the registers after a call. -/
def Call.run : Call → Bridge → Bridge
  | .create env desc, s => (vmeCreateWindow env desc s).2
  | .destroy intr n, s => (vmeDestroyWindow intr n s).2
  | .find env mtch force file, s => (vmeFindMapping env mtch force file s).2
  | .release intr intr' desc force file, s => (vmeReleaseMapping intr intr' desc force file s).2
  | .close intr file, s => (vmeWindowRelease intr file (List.finRange 8) s).2

/-- `pci_bus_alloc_resource` hands out a 64K-aligned region of the size asked for that does
not wrap. -/
def CreateEnv.Allocates (env : CreateEnv) (desc : VmeMapping) : Prop :=
  ∀ start, env.region = some start →
    start.toNat % 65536 = 0 ∧ start.toNat + (roundWindow desc).sizel.toNat ≤ 2 ^ 32

/-- The bus keeps its promise during a call. -/
def Call.BusOk : Call → Prop
  | .create env desc => env.Allocates desc
  | .find env mtch _ _ => ∀ i, env.create.Allocates (windowFor mtch i)
  | _ => True

/-- Sequential calls on the bridge.  `tsi148_quiesce` disables the windows without wiping
their address registers, so the register contents at the start are arbitrary. -/
def calls : System Bridge Call where
  init s := s.window = Bridge.initial.window
  step s c s' := c.run s = s'

/-- The states reached by sequences of calls. -/
def Callable (s : Bridge) : Prop := calls.ReachUnder (fun _ c => c.BusOk) s

/-! ### The invariant of an active window -/

/-- Descriptor and registers of an active window. -/
structure WindowOk (i : WindowIdx) (desc : VmeMapping) (o : Otrans) : Prop where
  num : desc.windowNum = i.val
  vmeAligned : desc.vmeAddrl.toNat % 65536 = 0
  sizeAligned : desc.sizel.toNat % 65536 = 0
  pciAligned : desc.pciAddrl.toNat % 65536 = 0
  fits : desc.pciAddrl.toNat + desc.sizel.toNat ≤ 2 ^ 32
  programmed : Programmed desc o

/-- Every active window is in order. -/
def TableOk (s : Bridge) : Prop :=
  ∀ i, (s.window i).active = true → WindowOk i (s.window i).desc (s.otrans i)

/-- Nothing but mapping lists and user counts differs. -/
structure SameWindows (s s' : Bridge) : Prop where
  active : ∀ i, (s'.window i).active = (s.window i).active
  desc : ∀ i, (s'.window i).desc = (s.window i).desc
  otrans : s'.otrans = s.otrans

theorem TableOk.of_same {s s' : Bridge} (h : TableOk s) (hs : SameWindows s s') : TableOk s' := by
  intro i hi
  rw [hs.desc, hs.otrans]
  exact h i (by rw [← hs.active i, hi])

theorem SameWindows.refl (s : Bridge) : SameWindows s s := ⟨fun _ => rfl, fun _ => rfl, rfl⟩

theorem SameWindows.trans {s t u : Bridge} (h : SameWindows s t) (h' : SameWindows t u) :
    SameWindows s u :=
  ⟨fun i => (h'.active i).trans (h.active i), fun i => (h'.desc i).trans (h.desc i),
    h'.otrans.trans h.otrans⟩

theorem sameWindows_setWindow {s : Bridge} {i : WindowIdx} {w : Window}
    (ha : w.active = (s.window i).active) (hd : w.desc = (s.window i).desc) :
    SameWindows s (s.setWindow i w) := by
  refine ⟨fun j => ?_, fun j => ?_, rfl⟩ <;> by_cases hj : j = i
  · rw [hj, Bridge.setWindow_window_self, ha]
  · rw [Bridge.setWindow_window_ne s w hj]
  · rw [hj, Bridge.setWindow_window_self, hd]
  · rw [Bridge.setWindow_window_ne s w hj]

theorem sameWindows_finishFind (kzalloc : Bool) (i : WindowIdx) (mtch : VmeMapping)
    (file : Option FileId) (s : Bridge) :
    SameWindows s (finishFind kzalloc i mtch file s).2 := by
  obtain h | h := finishFind_cases kzalloc i mtch file s
  · rw [h]
    exact SameWindows.refl s
  · rw [h]
    exact sameWindows_setWindow rfl rfl

theorem sameWindows_releaseSection (interrupted : Bool) (desc : VmeMapping) (force : Bool)
    (file : Option FileId) (s : Bridge) :
    SameWindows s (releaseSection interrupted desc force file s).2 := by
  obtain ⟨e, h⟩ | ⟨i, -, -, -, h, -⟩ := releaseSection_cases interrupted desc force file s
  · rw [h]
    exact SameWindows.refl s
  · rw [h]
    exact sameWindows_setWindow rfl rfl

theorem sameWindows_closeWindow (file : FileId) (i : WindowIdx) (s : Bridge) :
    SameWindows s (closeWindow file i s) := by
  obtain h | ⟨-, h⟩ := closeWindow_cases file i s
  · rw [h]
    exact SameWindows.refl s
  · rw [h]
    exact sameWindows_setWindow rfl rfl

theorem sameWindows_vmeWindowRelease (interrupted : WindowIdx → Bool) (file : FileId)
    (is : List WindowIdx) (s : Bridge) :
    SameWindows s (vmeWindowRelease interrupted file is s).2 := by
  induction is generalizing s with
  | nil => exact SameWindows.refl s
  | cons i is ih =>
    rw [vmeWindowRelease]
    split
    · exact SameWindows.refl s
    · exact (sameWindows_closeWindow file i s).trans (ih _)

/-! ### Rounding -/

theorem roundWindow_eq (desc : VmeMapping) :
    roundWindow desc =
      { desc with vmeAddrl := desc.vmeAddrl &&& ~~~0xffff#32, sizel := alignUp desc.sizel } := by
  unfold roundWindow alignUp
  by_cases hv : desc.vmeAddrl &&& 0xffff#32 ≠ 0
  · simp only [if_pos hv, BitVec.sub_self, BitVec.add_zero]
    split <;> rfl
  · have hself : desc.vmeAddrl &&& ~~~0xffff#32 = desc.vmeAddrl := by
      rw [and_ffff_ne_zero_iff, not_not] at hv
      apply BitVec.eq_of_toNat_eq
      rw [toNat_and_not_ffff]
      omega
    simp only [if_neg hv, hself]
    split <;> rfl

theorem windowOk_created {env : CreateEnv} {desc d : VmeMapping} {i : WindowIdx} {start : U32}
    {regs : Otrans} (hi : windowIndex desc.windowNum = some i) (hbus : env.Allocates desc)
    (hstart : env.region = some start)
    (h : tsi148CreateWindow { roundWindow desc with kernelVa := env.ioremap, pciAddrl := start }
      = some (d, regs)) :
    d = { roundWindow desc with
      kernelVa := env.ioremap, pciAddrl := start, windowEnabled := true } ∧
      WindowOk i d regs := by
  have hv : (roundWindow desc).vmeAddrl.toNat % 65536 = 0 := by
    rw [roundWindow_eq, toNat_and_not_ffff]
    omega
  have hs : (roundWindow desc).sizel.toNat % 65536 = 0 := by
    rw [roundWindow_eq]
    exact alignUp_mod desc.sizel
  obtain ⟨rfl, hp, hprog⟩ := tsi148CreateWindow_programmed (by exact hv) (by exact hs) h
  refine ⟨rfl, ?_⟩
  exact
    { num := by
        rw [roundWindow_eq]
        exact windowIndex_eq_some hi
      vmeAligned := hv
      sizeAligned := hs
      pciAligned := hp
      fits := (hbus start hstart).2
      programmed := hprog }

/-! ### Every call keeps the table in order -/

theorem tableOk_created {s : Bridge} (h : TableOk s) {i : WindowIdx} {d : VmeMapping}
    {regs : Otrans} (hok : WindowOk i d regs) : TableOk (s.created i d regs) := by
  intro j hj
  by_cases hji : j = i
  · subst hji
    simpa [Bridge.created] using hok
  · rw [Bridge.created, Bridge.setWindow_window_ne _ _ hji, Bridge.setOtrans_window] at hj ⊢
    rw [Bridge.setWindow_otrans, Bridge.setOtrans_otrans_ne _ _ hji]
    exact h j hj

theorem tableOk_vmeCreateWindow {s : Bridge} (h : TableOk s) {env : CreateEnv}
    {desc : VmeMapping} (hbus : env.Allocates desc) :
    TableOk (vmeCreateWindow env desc s).2 := by
  obtain ⟨e, he⟩ | ⟨i, start, d, regs, hi, -, -, hstart, hregs, he⟩ :=
    vmeCreateWindow_cases env desc s
  · rw [he]
    exact h
  · rw [he]
    exact tableOk_created h (windowOk_created hi hbus hstart hregs).2

theorem tableOk_vmeDestroyWindow {s : Bridge} (h : TableOk s) (interrupted : Bool) (n : ℤ) :
    TableOk (vmeDestroyWindow interrupted n s).2 := by
  obtain ⟨e, he⟩ | ⟨i, -, hact, -, hwin, hregs⟩ := vmeDestroyWindow_cases interrupted n s
  · rw [he]
    exact h
  · intro j hj
    rw [hwin] at hj ⊢
    rw [hregs (h i hact).num]
    by_cases hji : j = i
    · subst hji
      rw [Bridge.setWindow_window_self] at hj
      exact absurd hj Bool.false_ne_true
    · rw [Bridge.setWindow_window_ne _ _ hji] at hj ⊢
      rw [Bridge.setOtrans_otrans_ne _ _ hji]
      exact h j hj

theorem findExisting_cases (env : FindEnv) (mtch : VmeMapping) (file : Option FileId) (s : Bridge)
    (is : List WindowIdx) :
    (findExisting env mtch file s is = none ∧
        is.find? (fun i => (s.window i).accepts mtch) = none) ∨
      (∃ e, findExisting env mtch file s is = some (.error e, s)) ∨
      ∃ i, is.find? (fun i => (s.window i).accepts mtch) = some i ∧
        findExisting env mtch file s is = some (finishFind env.kzalloc i mtch file s) := by
  induction is with
  | nil => exact .inl ⟨rfl, rfl⟩
  | cons i is ih =>
    rw [findExisting]
    split
    · exact .inr (.inl ⟨_, rfl⟩)
    · by_cases hacc : (s.window i).accepts mtch = true
      · exact .inr (.inr ⟨i, by simp [hacc], by simp [findInWindow, hacc]⟩)
      · simpa [findInWindow, hacc] using ih

/-- The first existing window that passes the tests of the search loop. -/
def firstAccepting (s : Bridge) (mtch : VmeMapping) : Option WindowIdx :=
  (List.finRange 8).find? fun i => (s.window i).accepts mtch

theorem vmeFindMapping_cases (env : FindEnv) (mtch : VmeMapping) (force : Bool)
    (file : Option FileId) (s : Bridge) :
    (∃ e, vmeFindMapping env mtch force file s = (.error e, s)) ∨
    (∃ i, firstAccepting s mtch = some i ∧
      vmeFindMapping env mtch force file s = finishFind env.kzalloc i mtch file s) ∨
    ∃ i d s', firstAccepting s mtch = none ∧ firstUnused s = some i ∧
      vmeCreateWindow env.create (windowFor mtch i) s = (.ok d, s') ∧
      vmeFindMapping env mtch force file s = finishFind env.kzalloc i mtch file s' := by
  unfold vmeFindMapping
  split
  swap
  · exact .inl ⟨_, rfl⟩
  obtain ⟨h, hnone⟩ | ⟨e, h⟩ | ⟨i, hi, h⟩ :=
    findExisting_cases env mtch file s (List.finRange 8) <;> rw [h]
  · simp only
    split
    swap
    · exact .inl ⟨_, rfl⟩
    split
    · exact .inl ⟨_, rfl⟩
    rename_i i hi
    obtain ⟨e, he⟩ | ⟨_, _, d, regs, -, -, -, -, -, he⟩ :=
      vmeCreateWindow_cases env.create (windowFor mtch i) s
    · rw [he]
      exact .inl ⟨_, rfl⟩
    · rw [he]
      exact .inr (.inr ⟨i, _, _, hnone, hi, he, rfl⟩)
  · exact .inl ⟨_, rfl⟩
  · exact .inr (.inl ⟨i, hi, rfl⟩)

theorem tableOk_vmeFindMapping {s : Bridge} (h : TableOk s) {env : FindEnv} {mtch : VmeMapping}
    (hbus : ∀ i, env.create.Allocates (windowFor mtch i)) (force : Bool)
    (file : Option FileId) : TableOk (vmeFindMapping env mtch force file s).2 := by
  obtain ⟨e, he⟩ | ⟨i, -, he⟩ | ⟨i, d, s', -, -, hcreate, he⟩ :=
    vmeFindMapping_cases env mtch force file s
  · rw [he]
    exact h
  · rw [he]
    exact h.of_same (sameWindows_finishFind _ _ _ _ _)
  · have hs' : TableOk s' := by
      have hnew := tableOk_vmeCreateWindow h (hbus i)
      rwa [hcreate] at hnew
    rw [he]
    exact hs'.of_same (sameWindows_finishFind _ _ _ _ _)

theorem tableOk_vmeReleaseMapping {s : Bridge} (h : TableOk s)
    (interrupted interruptedDestroy : Bool) (desc : VmeMapping) (force : Bool)
    (file : Option FileId) :
    TableOk (vmeReleaseMapping interrupted interruptedDestroy desc force file s).2 := by
  have hsec := h.of_same (sameWindows_releaseSection interrupted desc force file s)
  unfold vmeReleaseMapping
  split <;> rename_i he <;> rw [he] at hsec
  · exact hsec
  · exact tableOk_vmeDestroyWindow hsec _ _

theorem tableOk_run {s : Bridge} (h : TableOk s) {c : Call} (hbus : c.BusOk) :
    TableOk (c.run s) := by
  cases c with
  | create env desc => exact tableOk_vmeCreateWindow h hbus
  | destroy intr n => exact tableOk_vmeDestroyWindow h intr n
  | find env mtch force file => exact tableOk_vmeFindMapping h hbus force file
  | release intr intr' desc force file => exact tableOk_vmeReleaseMapping h _ _ _ _ _
  | close intr file => exact h.of_same (sameWindows_vmeWindowRelease intr file _ s)

theorem tableOk_of_callable {s : Bridge} (h : Callable s) : TableOk s := by
  refine System.ReachUnder.invariant (S := calls) ?_ ?_ h
  · intro s hs i hi
    rw [show s.window = Bridge.initial.window from hs] at hi
    exact absurd hi Bool.false_ne_true
  · rintro s c s' hs hbus rfl
    exact tableOk_run hs hbus

/-! ### The promise of `vme_find_mapping` -/

/-- The mapping handed back reaches the bytes asked for through window `i`. -/
structure Translated (s : Bridge) (i : WindowIdx) (mtch placed : VmeMapping) : Prop where
  num : placed.windowNum = i.val
  am : (s.window i).desc.am = mtch.am
  dataWidth : (s.window i).desc.dataWidth = mtch.dataWidth
  attributes : (s.otrans i).HasAttributes mtch.dataWidth mtch.am
  start : (s.window i).desc.vmeAddrl.toNat ≤ mtch.vmeAddrl.toNat
  kernelVa : placed.kernelVa = (s.window i).desc.kernelVa
    + BitVec.ofNat 64 (mtch.vmeAddrl.toNat - (s.window i).desc.vmeAddrl.toNat)
  covers : ∀ k < mtch.sizel.toNat, (s.otrans i).Covers (placed.pciAddrl.toNat + k)
  translate : ∀ k < mtch.sizel.toNat,
    (s.otrans i).translate (placed.pciAddrl.toNat + k) = mtch.vmeAddrl.toNat + k

/-- When the window a request lands on holds it.  Against an existing window the boundary
sums must not wrap.  A new A16 or A24 window has the whole space; any other is rounded, and
the request must end in the 64K blocks counted from the rounded start. -/
def Fits (s : Bridge) (mtch : VmeMapping) : Prop :=
  match firstAccepting s mtch with
  | some i => (s.window i).desc.pciAddru = 0 ∧
      (mtch.vmeAddrl.toNat + mtch.sizel.toNat < 2 ^ 32 ∨
        2 ^ 32 ≤ (s.window i).desc.vmeAddrl.toNat + (s.window i).desc.sizel.toNat)
  | none => mtch.pciAddru = 0 ∧
      match mtch.am.space.resize with
      | some whole => mtch.vmeAddrl.toNat + mtch.sizel.toNat ≤ whole.toNat
      | none => mtch.vmeAddru = 0 ∧ mtch.sizel.toNat ≤ 0xffff0000 ∧
          mtch.vmeAddrl.toNat % 65536 + (mtch.sizel.toNat - 1) % 65536 < 65536

/-- A window that holds the request in its 32-bit range. -/
structure Holds (desc mtch : VmeMapping) : Prop where
  am : desc.am = mtch.am
  dataWidth : desc.dataWidth = mtch.dataWidth
  vmeAddru : desc.vmeAddru = 0
  pciAddru : desc.pciAddru = 0
  start : desc.vmeAddrl.toNat ≤ mtch.vmeAddrl.toNat
  stop : 0 < mtch.sizel.toNat →
    mtch.vmeAddrl.toNat + mtch.sizel.toNat ≤ desc.vmeAddrl.toNat + desc.sizel.toNat

theorem Holds.translated {s : Bridge} {i : WindowIdx} {mtch : VmeMapping}
    (hw : WindowOk i (s.window i).desc (s.otrans i)) (h : Holds (s.window i).desc mtch) :
    Translated s i mtch ((s.window i).place i mtch) := by
  have hstart := h.start
  have hoff : (mtch.vmeAddrl - (s.window i).desc.vmeAddrl).toNat
      = mtch.vmeAddrl.toNat - (s.window i).desc.vmeAddrl.toNat := by
    rw [BitVec.toNat_sub_of_le]
    exact hstart
  have hfits := hw.fits
  -- the offset into the window does not carry the PCI address over the end of the region
  have hpci : 0 < mtch.sizel.toNat → ((s.window i).place i mtch).pciAddrl.toNat
      = (s.window i).desc.pciAddrl.toNat
        + (mtch.vmeAddrl.toNat - (s.window i).desc.vmeAddrl.toNat) := by
    intro hpos
    have hstop := h.stop hpos
    rw [Window.place, BitVec.toNat_add, hoff]
    omega
  refine
    { num := rfl
      am := h.am
      dataWidth := h.dataWidth
      attributes := ?_
      start := hstart
      kernelVa := ?_
      covers := ?_
      translate := ?_ }
  · rw [← h.am, ← h.dataWidth]
    exact hw.programmed.attributes
  · rw [← hoff, BitVec.ofNat_toNat]
    rfl
  · intro k hk
    have hstop := h.stop (by omega)
    rw [hpci (by omega)]
    exact hw.programmed.covers h.pciAddru hw.pciAligned hw.sizeAligned hfits (by omega) (by omega)
  · intro k hk
    have hstop := h.stop (by omega)
    have hvl := mtch.vmeAddrl.isLt
    have hsl := mtch.sizel.isLt
    rw [hpci (by omega), hw.programmed.translate_eq h.pciAddru (by omega), h.vmeAddru,
      show (0 : U32).toNat = 0 from rfl]
    omega

/-- The window has a region strictly inside the 32-bit PCI range.  At the upper end the carry into
`OTEAU` doubles the window. -/
structure VmeMapping.Inside (desc : VmeMapping) : Prop where
  sizeu : desc.sizeu = 0
  pos : 0 < desc.pciAddrl.toNat
  stop : desc.pciAddrl.toNat + desc.sizel.toNat < 2 ^ 32

theorem Translated.holds {s : Bridge} {i : WindowIdx} {mtch : VmeMapping}
    (hw : WindowOk i (s.window i).desc (s.otrans i)) (hin : (s.window i).desc.Inside)
    (hpos : 0 < mtch.sizel.toNat) (h : Translated s i mtch ((s.window i).place i mtch)) :
    Holds (s.window i).desc mtch := by
  have hstart := h.start
  have hfits := hin.stop
  have hvl := mtch.vmeAddrl.isLt
  have hpl := ((s.window i).place i mtch).pciAddrl.isLt
  have hoff : (mtch.vmeAddrl - (s.window i).desc.vmeAddrl).toNat
      = mtch.vmeAddrl.toNat - (s.window i).desc.vmeAddrl.toNat := by
    rw [BitVec.toNat_sub_of_le]
    exact hstart
  have hpci : ((s.window i).place i mtch).pciAddrl.toNat = ((s.window i).desc.pciAddrl.toNat
      + (mtch.vmeAddrl.toNat - (s.window i).desc.vmeAddrl.toNat)) % 2 ^ 32 := by
    rw [Window.place, BitVec.toNat_add, hoff]
  have hbounds := fun k hk => hw.programmed.bounds hin.sizeu hw.pciAligned hw.sizeAligned hin.pos
    hin.stop (h.covers k hk)
  have hfirst := hbounds 0 hpos
  have hlast := hbounds (mtch.sizel.toNat - 1) (by omega)
  -- the first byte lies in the window, so its upper PCI address is zero
  have hu : (s.window i).desc.pciAddru.toNat = 0 := by omega
  have hpu : (s.window i).desc.pciAddru = 0 := BitVec.eq_of_toNat_eq hu
  have htr := h.translate 0 hpos
  rw [hw.programmed.translate_eq hpu (by omega)] at htr
  refine ⟨h.am, h.dataWidth, BitVec.eq_of_toNat_eq ?_, hpu, hstart, fun _ => ?_⟩
  · rw [show (0 : U32).toNat = 0 from rfl]
    have hvu := (s.window i).desc.vmeAddru.isLt
    omega
  · omega

theorem Holds.of_accepts {w : Window} {mtch : VmeMapping} (h : w.accepts mtch = true)
    (hu : w.desc.pciAddru = 0)
    (hwrap : mtch.vmeAddrl.toNat + mtch.sizel.toNat < 2 ^ 32 ∨
      2 ^ 32 ≤ w.desc.vmeAddrl.toNat + w.desc.sizel.toNat) : Holds w.desc mtch := by
  simp only [Window.accepts, Bool.and_eq_true, beq_iff_eq, Bool.not_eq_true', Bool.or_eq_false_iff,
    decide_eq_false_iff_not] at h
  obtain ⟨⟨⟨⟨-, hvu, -⟩, ham, hdw⟩, hlo, hhi⟩, -⟩ := h
  rw [BitVec.lt_def] at hlo hhi
  rw [BitVec.toNat_add, BitVec.toNat_add] at hhi
  have h1 := mtch.vmeAddrl.isLt
  have h2 := mtch.sizel.isLt
  have h3 := w.desc.vmeAddrl.isLt
  have h4 := w.desc.sizel.isLt
  exact
    { am := ham
      dataWidth := hdw
      vmeAddru := hvu
      pciAddru := hu
      start := by omega
      stop := fun _ => by omega }

theorem AddressSpace.alignUp_resize {space : AddressSpace} {whole : U32}
    (h : space.resize = some whole) : alignUp whole = whole := by
  apply alignUp_eq_self
  cases space <;> simp only [AddressSpace.resize, reduceCtorEq, Option.some.injEq] at h
  · rw [← h]
    rfl
  · rw [← h]
    rfl

theorem Holds.of_rounded {mtch : VmeMapping} {i : WindowIdx} (hsize : (windowFor mtch i).sizel ≠ 0)
    (hpu : mtch.pciAddru = 0)
    (hfit : match mtch.am.space.resize with
      | some whole => mtch.vmeAddrl.toNat + mtch.sizel.toNat ≤ whole.toNat
      | none => mtch.vmeAddru = 0 ∧ mtch.sizel.toNat ≤ 0xffff0000 ∧
          mtch.vmeAddrl.toNat % 65536 + (mtch.sizel.toNat - 1) % 65536 < 65536) :
    Holds (roundWindow (windowFor mtch i)) mtch := by
  rw [roundWindow_eq]
  unfold windowFor vmeOptimizeWindowSize at hsize ⊢
  cases hres : mtch.am.space.resize with
  | none =>
    simp only [hres] at hfit hsize ⊢
    have hpos : 0 < mtch.sizel.toNat := by
      rw [Nat.pos_iff_ne_zero]
      exact fun h0 => hsize (BitVec.eq_of_toNat_eq h0)
    refine ⟨rfl, rfl, hfit.1, hpu, ?_, fun _ => ?_⟩
    · simp only [toNat_and_not_ffff]
      omega
    · simp only [toNat_and_not_ffff, alignUp_toNat]
      rw [if_neg (by omega)]
      omega
  | some whole =>
    simp only [hres] at hfit ⊢
    refine ⟨rfl, rfl, rfl, hpu, ?_, fun _ => ?_⟩
    · simp
    · rw [AddressSpace.alignUp_resize hres]
      simpa using hfit

theorem Holds.rounded {mtch : VmeMapping} {i : WindowIdx} (hpos : 0 < mtch.sizel.toNat)
    (h : Holds (roundWindow (windowFor mtch i)) mtch) :
    mtch.pciAddru = 0 ∧
      match mtch.am.space.resize with
      | some whole => mtch.vmeAddrl.toNat + mtch.sizel.toNat ≤ whole.toNat
      | none => mtch.vmeAddru = 0 ∧ mtch.sizel.toNat ≤ 0xffff0000 ∧
          mtch.vmeAddrl.toNat % 65536 + (mtch.sizel.toNat - 1) % 65536 < 65536 := by
  rw [roundWindow_eq] at h
  unfold windowFor vmeOptimizeWindowSize at h
  cases hres : mtch.am.space.resize with
  | none =>
    simp only [hres] at h ⊢
    have hstop := h.stop hpos
    simp only [toNat_and_not_ffff, alignUp_toNat] at hstop
    refine ⟨h.pciAddru, h.vmeAddru, ?_⟩
    split at hstop <;> omega
  | some whole =>
    simp only [hres] at h ⊢
    have hstop := h.stop hpos
    simp only [AddressSpace.alignUp_resize hres] at hstop
    exact ⟨h.pciAddru, by simpa using hstop⟩

/-- Where a request that is granted lands: on the first window that accepts it, or on a window
created in table `t`. -/
inductive Lands (s : Bridge) (mtch : VmeMapping) (i : WindowIdx) : Bridge → Prop
  | existing (hacc : firstAccepting s mtch = some i) : Lands s mtch i s
  | created {t : Bridge} {kernelVa : BitVec 64} {start : U32} (hnone : firstAccepting s mtch = none)
      (hsize : (windowFor mtch i).sizel ≠ 0)
      (hdesc : (t.window i).desc = { roundWindow (windowFor mtch i) with
        kernelVa := kernelVa, pciAddrl := start, windowEnabled := true }) : Lands s mtch i t

theorem vmeFindMapping_ok {s s' : Bridge} {env : FindEnv} {mtch placed : VmeMapping} {force : Bool}
    {file : Option FileId} (htab : TableOk s) (hbus : (Call.find env mtch force file).BusOk)
    (hok : vmeFindMapping env mtch force file s = (.ok placed, s')) :
    ∃ i t, Lands s mtch i t ∧ WindowOk i (t.window i).desc (t.otrans i) ∧
      (t.window i).active = true ∧ placed = (t.window i).place i mtch ∧ SameWindows t s' := by
  have hplaced : ∀ (t : Bridge) (i : WindowIdx),
      finishFind env.kzalloc i mtch file t = (.ok placed, s') →
        placed = (t.window i).place i mtch ∧ SameWindows t s' := by
    intro t i hfin
    have hsame := sameWindows_finishFind env.kzalloc i mtch file t
    rw [hfin] at hsame
    obtain h | h := finishFind_cases env.kzalloc i mtch file t
    · rw [h] at hfin
      cases hfin
    · rw [h, Prod.mk.injEq, Except.ok.injEq] at hfin
      exact ⟨hfin.1.symm, hsame⟩
  obtain ⟨e, he⟩ | ⟨i, hacc, he⟩ | ⟨i, d, t, hacc, hun, hcreate, he⟩ :=
    vmeFindMapping_cases env mtch force file s
  · rw [he] at hok
    cases hok
  · have hpass := List.find?_some hacc
    have hact : (s.window i).active = true := by
      simp only [Window.accepts, Bool.and_eq_true] at hpass
      exact hpass.1.1.1.1.1
    obtain ⟨hp, hsame⟩ := hplaced s i (he ▸ hok)
    exact ⟨i, s, .existing hacc, htab i hact, hact, hp, hsame⟩
  · obtain ⟨e, h⟩ | ⟨j, start, d', regs, hj, hsize, -, hstart, hregs, h⟩ :=
      vmeCreateWindow_cases env.create (windowFor mtch i) s
    · rw [h] at hcreate
      cases hcreate
    · rw [h, Prod.mk.injEq, Except.ok.injEq] at hcreate
      obtain ⟨rfl, rfl⟩ := hcreate
      obtain ⟨hd, hwok⟩ := windowOk_created hj (hbus i) hstart hregs
      have hji : j = i := by
        have hnum : (windowFor mtch i).windowNum = i.val := by
          unfold windowFor vmeOptimizeWindowSize
          split <;> rfl
        rw [hnum, windowIndex_val, Option.some.injEq] at hj
        exact hj.symm
      subst hji
      have hwin : ((s.created j d' regs).window j).desc = d' := by
        rw [Bridge.created, Bridge.setWindow_window_self]
      have hact : ((s.created j d' regs).window j).active = true := by
        rw [Bridge.created, Bridge.setWindow_window_self]
      obtain ⟨hp, hsame⟩ := hplaced _ j (he ▸ hok)
      exact ⟨j, _, .created hacc hsize (hwin.trans hd), tableOk_created htab hwok j hact, hact, hp,
        hsame⟩

theorem Lands.holds {s t : Bridge} {mtch : VmeMapping} {i : WindowIdx} (h : Lands s mtch i t)
    (hfits : Fits s mtch) : Holds (t.window i).desc mtch := by
  unfold Fits at hfits
  cases h with
  | existing hacc =>
    have hpass := List.find?_some hacc
    rw [hacc] at hfits
    exact .of_accepts hpass hfits.1 hfits.2
  | created hnone hsize hdesc =>
    rw [hnone] at hfits
    have hround := Holds.of_rounded hsize hfits.1 hfits.2
    rw [hdesc]
    exact
      { am := hround.am
        dataWidth := hround.dataWidth
        vmeAddru := hround.vmeAddru
        pciAddru := hround.pciAddru
        start := hround.start
        stop := hround.stop }

theorem Lands.fits {s t : Bridge} {mtch : VmeMapping} {i : WindowIdx} (h : Lands s mtch i t)
    (hpos : 0 < mtch.sizel.toNat) (hholds : Holds (t.window i).desc mtch) : Fits s mtch := by
  unfold Fits
  cases h with
  | existing hacc =>
    rw [hacc]
    refine ⟨hholds.pciAddru, ?_⟩
    have hstop := hholds.stop hpos
    omega
  | created hnone hsize hdesc =>
    rw [hnone]
    rw [hdesc] at hholds
    refine Holds.rounded (i := i) hpos ?_
    exact
      { am := hholds.am
        dataWidth := hholds.dataWidth
        vmeAddru := hholds.vmeAddru
        pciAddru := hholds.pciAddru
        start := hholds.start
        stop := hholds.stop }

theorem Translated.of_same {s s' : Bridge} {i : WindowIdx} {mtch placed : VmeMapping}
    (h : Translated s i mtch placed) (hsame : SameWindows s s') : Translated s' i mtch placed where
  num := h.num
  am := by rw [hsame.desc]; exact h.am
  dataWidth := by rw [hsame.desc]; exact h.dataWidth
  attributes := by rw [hsame.otrans]; exact h.attributes
  start := by rw [hsame.desc]; exact h.start
  kernelVa := by rw [hsame.desc]; exact h.kernelVa
  covers := by rw [hsame.otrans]; exact h.covers
  translate := by rw [hsame.otrans]; exact h.translate

theorem SameWindows.symm {s s' : Bridge} (h : SameWindows s s') : SameWindows s' s :=
  ⟨fun i => (h.active i).symm, fun i => (h.desc i).symm, h.otrans.symm⟩

/-- **End-to-end translation.**  From every state reached by any calls, a request that fits
and is granted is reachable byte by byte at the VME addresses asked for.  Where the windows lie
inside the PCI range, a request for at least one byte is reachable in no other case. -/
theorem vmeFindMapping_translated {s s' : Bridge} {env : FindEnv} {mtch placed : VmeMapping}
    {force : Bool} {file : Option FileId} (hreach : Callable s)
    (hbus : (Call.find env mtch force file).BusOk)
    (hok : vmeFindMapping env mtch force file s = (.ok placed, s')) :
    (Fits s mtch → ∃ i, Translated s' i mtch placed) ∧
    (0 < mtch.sizel.toNat → (∀ i, (s'.window i).active = true → (s'.window i).desc.Inside) →
      ((∃ i, Translated s' i mtch placed) ↔ Fits s mtch)) := by
  obtain ⟨i, t, hlands, hw, hact, rfl, hsame⟩ :=
    vmeFindMapping_ok (tableOk_of_callable hreach) hbus hok
  have hif : Fits s mtch → ∃ j, Translated s' j mtch ((t.window i).place i mtch) := fun hfits =>
    ⟨i, (Holds.translated hw (hlands.holds hfits)).of_same hsame⟩
  refine ⟨hif, fun hpos hin => ⟨?_, hif⟩⟩
  rintro ⟨j, htr⟩
  -- the number handed back is that of the window the request landed on
  obtain rfl : i = j := by
    have hnum := htr.num
    simp only [Window.place] at hnum
    exact Fin.ext (by exact_mod_cast hnum)
  have hins : (t.window i).desc.Inside := by
    rw [← hsame.desc]
    exact hin i (by rw [hsame.active, hact])
  exact hlands.fits hpos (Translated.holds hw hins hpos (htr.of_same hsame.symm))

/-- A kernel that grants everything, with the bus region at `0x80000000`. -/
def grantAll : FindEnv where
  interrupted _ := false
  kzalloc := true
  create := ⟨false, some 0x80000000#32, 0x1000#64⟩

theorem userRequest_busOk {env : FindEnv} {start vmeAddrl sizel : U32}
    (hregion : env.create.region = some start) (haligned : start.toNat % 65536 = 0)
    (h : start.toNat + (alignUp sizel).toNat ≤ 2 ^ 32) (force : Bool) (file : Option FileId) :
    (Call.find env (userRequest vmeAddrl sizel) force file).BusOk := by
  intro i start' hstart
  cases hregion.symm.trans hstart
  rw [roundWindow_eq]
  exact ⟨haligned, h⟩

theorem grantAll_busOk {vmeAddrl sizel : U32} (h : (alignUp sizel).toNat ≤ 2 ^ 31) (force : Bool)
    (file : Option FileId) :
    (Call.find grantAll (userRequest vmeAddrl sizel) force file).BusOk := by
  have hregion : grantAll.create.region = some 0x80000000#32 := rfl
  refine userRequest_busOk hregion rfl ?_ force file
  show 2 ^ 31 + (alignUp sizel).toNat ≤ 2 ^ 32
  omega

/-- One page at `0x20000` of the empty table: the translation theorem applies. -/
theorem vmeFindMapping_translated_page :
    ∃ i, Translated (vmeFindMapping grantAll (userRequest 0x20000 0x1000) true none .initial).2 i
      (userRequest 0x20000 0x1000)
      { userRequest 0x20000 0x1000 with kernelVa := 0x1000, pciAddrl := 0x80000000 } :=
  (vmeFindMapping_translated (System.ReachUnder.init rfl) (grantAll_busOk (by decide) true none)
    rfl).1 ⟨rfl, rfl, And.intro (by decide) (by decide)⟩

/-- The rounded start of a request at `0x1fff0` costs it its second 64K block: byte `0x10` of
the mapping handed back lies behind the end of the window. -/
theorem vmeFindMapping_not_translated :
    ¬ ∀ (s s' : Bridge) (env : FindEnv) (mtch placed : VmeMapping) (force : Bool)
      (file : Option FileId), Callable s → (Call.find env mtch force file).BusOk →
      vmeFindMapping env mtch force file s = (.ok placed, s') →
      ∃ i, Translated s' i mtch placed := by
  intro h
  obtain ⟨i, hi⟩ := h .initial _ grantAll (userRequest 0x1fff0 0x10000) _ true none
    (System.ReachUnder.init rfl) (grantAll_busOk (by decide) _ _) rfl
  have h0 : i = 0 := by
    have hnum := hi.num
    apply Fin.ext
    simp [Window.place] at hnum
    omega
  subst h0
  have hcov := hi.covers 0x10 (by decide)
  revert hcov
  decide

end KernelModules.Vmebridge
