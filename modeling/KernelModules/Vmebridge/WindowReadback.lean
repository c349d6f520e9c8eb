import KernelModules.Vmebridge.WindowTranslation

/-!
# Reading a window back

`tsi148_get_window_attr` turns the registers of an outbound window into a descriptor again: the
attribute word into address modifier, data width, transfer speed and prefetch setting, the start,
end and offset registers into PCI address, size and VME address.  It is the decoder to
`tsi148_create_window`, written by hand a second time.

* `attrToAm` and `tsi148GetWindowAttr` follow the source; `attrToAm_amToAttr` and
  `attributes_readback` are the two ladders taken there and back;
* `Readback` lists what comes back from a created window, and `vmeCreateWindow_readback` says that
  it does, whatever the descriptor that is filled in holds before;
* `RoundTrip` is what should come back.  The end register names the last 64K block and not the
  block after it, so the size is 64K short for every window; `windowAttr_not_roundTrip`.
-/

namespace KernelModules.Vmebridge

open KernelModules.Lib.Word

/-! ### The decoder -/

/-- `attr_to_am`; `none` where it leaves the initial `-1`. -/
def attrToAm (addrSize transferMode : U32) (super prog : Bool) : Option AddressModifier :=
  if addrSize = 0 then some (if super then .a16Sup else .a16User)
  else if addrSize = 1 then
    if super then
      if transferMode = 0 then some (if prog then .a24SupPrgSct else .a24SupDataSct)
      else if transferMode = 1 then some .a24SupBlt
      else if transferMode = 2 then some .a24SupMblt
      else none
    else
      if transferMode = 0 then some (if prog then .a24UserPrgSct else .a24UserDataSct)
      else if transferMode = 1 then some .a24UserBlt
      else if transferMode = 2 then some .a24UserMblt
      else none
  else if addrSize = 2 then
    if super then
      if transferMode = 0 then some (if prog then .a32SupPrgSct else .a32SupDataSct)
      else if transferMode = 1 then some .a32SupBlt
      else if transferMode = 2 then some .a32SupMblt
      else none
    else
      if transferMode = 0 then some (if prog then .a32UserPrgSct else .a32UserDataSct)
      else if transferMode = 1 then some .a32UserBlt
      else if transferMode = 2 then some .a32UserMblt
      else none
  else if addrSize = 4 then
    if transferMode = 0 then some .a64Sct
    else if transferMode = 1 then some .a64Blt
    else if transferMode = 2 then some .a64Mblt
    else none
  else if addrSize = 5 then some .crCsr
  else none

/-- The speed field of the attribute word as a value of the enumeration. -/
def SstMode.ofField (field : U32) : SstMode :=
  if field = 0 then .sst160
  else if field = 1 then .sst267
  else if field = 2 then .sst320
  else .other field.toNat

/-- The `switch` on the data width field.  The field has been shifted down and the two labels,
`TSI148_LCSR_OTAT_DBW_16` and `TSI148_LCSR_OTAT_DBW_32`, have not. -/
def DataWidth.ofField (field : U32) (before : DataWidth) : DataWidth :=
  if field = 0#32 <<< 6 then .d16
  else if field = 1#32 <<< 6 then .d32
  else before

/-- `tsi148_get_window_attr` on the registers of the window; `desc` is the descriptor it fills in.
The two flags are set and never cleared. -/
def tsi148GetWindowAttr (o : Otrans) (desc : VmeMapping) : VmeMapping :=
  let addrSize := o.otat &&& 0xf#32
  let transferMode := (o.otat &&& (7#32 <<< 8)) >>> 8
  { desc with
    windowEnabled := if o.otat &&& otatEn ≠ 0 then true else desc.windowEnabled
    readPrefetchEnabled := if o.otat &&& otatMrpfd = 0 then true else desc.readPrefetchEnabled
    readPrefetchSize := (o.otat &&& (3#32 <<< 16)) >>> 16
    v2esstMode := SstMode.ofField ((o.otat &&& (7#32 <<< 11)) >>> 11)
    dataWidth := DataWidth.ofField ((o.otat &&& (3#32 <<< 6)) >>> 6) desc.dataWidth
    bcastSelect := o.otbs
    am := (attrToAm addrSize transferMode (o.otat &&& (1#32 <<< 5) ≠ 0)
      (o.otat &&& (1#32 <<< 4) ≠ 0)).getD (.other 0xffffffff)
    pciAddrl := o.otsal
    pciAddru := o.otsau
    sizel := o.oteal - o.otsal
    sizeu := sub64hi o.oteal o.oteau o.otsal o.otsau
    vmeAddrl := o.otofl + o.otsal
    vmeAddru := if addrSize = 4 then add64hi o.otofl o.otofu o.otsal o.otsau else 0 }

/-! ### The attribute word there and back -/

theorem attrToAm_amToAttr {am : AddressModifier} {attr : Attr} (h : amToAttr am = some attr) :
    attrToAm attr.addrSize.code attr.transferMode.code attr.super attr.prog = some am := by
  cases am <;> cases h <;> rfl

theorem SstMode.ofField_code {mode : SstMode} {code : U32} (h : mode.code = some code) :
    SstMode.ofField (((code <<< 11) &&& (7#32 <<< 11)) >>> 11) = mode := by
  cases mode <;> cases h <;> rfl

theorem DataWidth.field_code {dataWidth : DataWidth} {code : U32}
    (h : dataWidth.code = some code) : ((code <<< 6) &&& (3#32 <<< 6)) >>> 6 = code := by
  cases dataWidth <;> cases h <;> rfl

theorem TransferMode.field_code (t : TransferMode) :
    ((t.code <<< 8) &&& (7#32 <<< 8)) >>> 8 = t.code := by
  cases t <;> rfl

theorem AddrSize.field_code (a : AddrSize) : a.code &&& 0xf#32 = a.code := by
  cases a <;> rfl

/-- What the low half of a register holds after `tsi148_setup_window_attributes`. -/
structure Attributes (mode : SstMode) (dataWidth : DataWidth) (am : AddressModifier) (otat : U32) :
    Prop where
  mode : SstMode.ofField ((otat &&& (7#32 <<< 11)) >>> 11) = mode
  width : ∃ code, dataWidth.code = some code ∧ (otat &&& (3#32 <<< 6)) >>> 6 = code
  attr : ∃ attr, amToAttr am = some attr ∧ otat &&& 0xf#32 = attr.addrSize.code ∧
    attrToAm (otat &&& 0xf#32) ((otat &&& (7#32 <<< 8)) >>> 8) (otat &&& (1#32 <<< 5) ≠ 0)
      (otat &&& (1#32 <<< 4) ≠ 0) = some am

theorem attributes_and (m d t a mask : U32) (super prog : Bool) :
    (((m <<< 11) &&& (7#32 <<< 11)) ||| ((d <<< 6) &&& (3#32 <<< 6)) ||| ((t <<< 8) &&& (7#32 <<< 8))
      ||| (if super then 1#32 <<< 5 else 0) ||| (if prog then 1#32 <<< 4 else 0)
      ||| (a &&& 0xf#32)) &&& mask =
    ((m <<< 11) &&& (7#32 <<< 11 &&& mask)) ||| ((d <<< 6) &&& (3#32 <<< 6 &&& mask))
      ||| ((t <<< 8) &&& (7#32 <<< 8 &&& mask)) ||| (if super then 1#32 <<< 5 &&& mask else 0)
      ||| (if prog then 1#32 <<< 4 &&& mask else 0) ||| (a &&& (0xf#32 &&& mask)) := by
  have hif : ∀ (b : Bool) (x : U32), (if b then x else 0) &&& mask = if b then x &&& mask else 0 := by
    intro b x
    cases b
    · exact BitVec.zero_and
    · rfl
  simp only [BitVec.and_or_distrib_right, BitVec.and_assoc, hif]

theorem attributes_readback {mode : SstMode} {dataWidth : DataWidth} {am : AddressModifier}
    {attrs : U32} (h : tsi148SetupWindowAttributes mode dataWidth am = some attrs) :
    Attributes mode dataWidth am attrs := by
  simp only [tsi148SetupWindowAttributes, Option.bind_eq_bind, Option.bind_eq_some_iff,
    Option.pure_def, Option.some.injEq] at h
  obtain ⟨m, hm, d, hd, attr, hattr, hattrs⟩ := h
  have hsize : attrs &&& 0xf#32 = attr.addrSize.code := by
    rw [← hattrs, attributes_and]
    simpa using attr.addrSize.field_code
  have htransfer : (attrs &&& (7#32 <<< 8)) >>> 8 = attr.transferMode.code := by
    rw [← hattrs, attributes_and]
    simpa using attr.transferMode.field_code
  have hsuper : decide (attrs &&& (1#32 <<< 5) ≠ 0) = attr.super := by
    rw [← hattrs, attributes_and]
    cases attr.super <;> simp
  have hprog : decide (attrs &&& (1#32 <<< 4) ≠ 0) = attr.prog := by
    rw [← hattrs, attributes_and]
    cases attr.prog <;> simp
  refine ⟨?_, ⟨d, hd, ?_⟩, attr, hattr, hsize, ?_⟩
  · rw [← hattrs, attributes_and]
    simpa using SstMode.ofField_code hm
  · rw [← hattrs, attributes_and]
    simpa using DataWidth.field_code hd
  · rw [hsize, htransfer, hsuper, hprog]
    exact attrToAm_amToAttr hattr

theorem Attributes.of_low {mode : SstMode} {dataWidth : DataWidth} {am : AddressModifier}
    {attrs otat : U32} (h : Attributes mode dataWidth am attrs) (hlow : otat &&& 0xffff#32 = attrs) :
    Attributes mode dataWidth am otat := by
  have hmask : ∀ mask : U32, 0xffff#32 &&& mask = mask → attrs &&& mask = otat &&& mask := by
    intro mask hmask
    rw [← hlow, BitVec.and_assoc, hmask]
  obtain ⟨hmode, hwidth, hattr⟩ := h
  rw [hmask _ (by decide)] at hmode hwidth
  rw [hmask _ (by decide), hmask _ (by decide), hmask _ (by decide), hmask _ (by decide)] at hattr
  exact ⟨hmode, hwidth, hattr⟩

/-! ### The prefetch setting and the address registers -/

theorem otat_prefetch {attrs : U32} (h : attrs &&& 0xffff#32 = attrs) (p : U32) (pf : Bool) :
    ((if pf then ((attrs ||| otatEn) &&& ~~~otatMrpfd) ||| ((p <<< 16) &&& (3#32 <<< 16))
      else (attrs ||| otatEn) ||| otatMrpfd) &&& otatMrpfd = 0 ↔ pf = true) ∧
    (pf = true → ((if pf then ((attrs ||| otatEn) &&& ~~~otatMrpfd) ||| ((p <<< 16) &&& (3#32 <<< 16))
      else (attrs ||| otatEn) ||| otatMrpfd) &&& (3#32 <<< 16)) >>> 16 = p &&& 3#32) := by
  have hhigh : ∀ mask : U32, 0xffff#32 &&& mask = 0 → attrs &&& mask = 0 := by
    intro mask hmask
    rw [← h, BitVec.and_assoc, hmask]
    exact BitVec.and_zero
  have hsize : ((p <<< 16) &&& (3#32 <<< 16)) >>> 16 = p &&& 3#32 := by
    have hle : (p &&& 3#32).toNat ≤ 3 := by
      rw [BitVec.toNat_and]
      exact Nat.and_le_right
    apply BitVec.eq_of_toNat_eq
    rw [← BitVec.shiftLeft_and_distrib, BitVec.toNat_ushiftRight, BitVec.toNat_shiftLeft,
      Nat.shiftRight_eq_div_pow, Nat.shiftLeft_eq]
    omega
  cases pf with
  | false =>
    refine ⟨iff_of_false ?_ (by simp), fun hf => by cases hf⟩
    simp only [Bool.false_eq_true, if_false, BitVec.and_or_distrib_right, hhigh otatMrpfd (by decide)]
    decide
  | true =>
    simp only [if_true, BitVec.and_or_distrib_right, BitVec.and_assoc]
    refine ⟨iff_of_true ?_ trivial, fun _ => ?_⟩
    · rw [hhigh _ (by decide), show otatEn &&& (~~~otatMrpfd &&& otatMrpfd) = 0 by decide,
        show (3#32 <<< 16 &&& otatMrpfd : U32) = 0 by decide]
      simp
    · rw [hhigh _ (by decide), show otatEn &&& (~~~otatMrpfd &&& 3#32 <<< 16) = 0 by decide,
        show (3#32 <<< 16 &&& 3#32 <<< 16 : U32) = 3#32 <<< 16 by decide]
      simpa using hsize

theorem sub_one_and_not_ffff {x : U32} (h : x.toNat % 65536 = 0) :
    (x - 1) &&& ~~~0xffff#32 = x - 0x10000#32 := by
  apply BitVec.eq_of_toNat_eq
  rw [toNat_and_not_ffff, BitVec.toNat_sub, BitVec.toNat_sub, show (1 : U32).toNat = 1 from rfl,
    show (0x10000#32).toNat = 65536 from rfl]
  omega

theorem add64hi_sub64hi (vl vu pl pu : U32) :
    add64hi (vl - pl) (sub64hi vl vu pl pu) pl pu = vu := by
  unfold add64hi sub64hi
  rw [BitVec.sub_add_cancel]
  by_cases hlt : vl < pl
  · rw [if_pos hlt, if_pos hlt]
    bv_omega
  · rw [if_neg hlt, if_neg hlt, BitVec.sub_add_cancel]

/-! ### What comes back -/

/-- The descriptor that should come back from a window created as `d`. -/
structure RoundTrip (d r : VmeMapping) : Prop where
  enabled : r.windowEnabled = true
  vmeAddr : r.vmeAddru = d.vmeAddru ∧ r.vmeAddrl = d.vmeAddrl
  size : r.sizeu = d.sizeu ∧ r.sizel = d.sizel
  pciAddr : r.pciAddru = d.pciAddru ∧ r.pciAddrl = d.pciAddrl
  am : r.am = d.am
  dataWidth : r.dataWidth = d.dataWidth
  prefetch : r.readPrefetchEnabled = d.readPrefetchEnabled
  mode : r.v2esstMode = d.v2esstMode
  bcastSelect : r.bcastSelect = d.bcastSelect

/-- The descriptor that does come back when `probe` is filled in: the size is one block short, a
data width of 32 bits is not recognised, and the upper half of the VME address is kept in the
64-bit address space only. -/
structure Readback (d probe r : VmeMapping) : Prop where
  enabled : r.windowEnabled = true
  vmeAddrl : r.vmeAddrl = d.vmeAddrl
  vmeAddru : r.vmeAddru =
    if (amToAttr d.am).map Attr.addrSize = some .a64 then d.vmeAddru else 0
  sizel : r.sizel = d.sizel - 0x10000#32
  pciAddr : r.pciAddru = d.pciAddru ∧ r.pciAddrl = d.pciAddrl
  am : r.am = d.am
  dataWidth : r.dataWidth = if d.dataWidth = .d16 then .d16 else probe.dataWidth
  prefetch : r.readPrefetchEnabled = (d.readPrefetchEnabled || probe.readPrefetchEnabled)
  prefetchSize : d.readPrefetchEnabled = true → r.readPrefetchSize = d.readPrefetchSize &&& 3#32
  mode : r.v2esstMode = d.v2esstMode
  bcastSelect : r.bcastSelect = d.bcastSelect &&& 0xfffff#32

theorem Readback.not_roundTrip {d probe r : VmeMapping} (h : Readback d probe r) :
    ¬ RoundTrip d r := by
  intro hround
  have hshort := h.sizel.symm.trans hround.size.2
  have hnat := congrArg BitVec.toNat hshort
  rw [BitVec.toNat_sub, show (0x10000#32).toNat = 65536 from rfl] at hnat
  have hlt := d.sizel.isLt
  omega

theorem tsi148CreateWindow_readback {desc d : VmeMapping} {o : Otrans}
    (hv : desc.vmeAddrl.toNat % 65536 = 0) (hs : desc.sizel.toNat % 65536 = 0)
    (h : tsi148CreateWindow desc = some (d, o)) (probe : VmeMapping) :
    Readback d probe (tsi148GetWindowAttr o probe) := by
  obtain ⟨hd, hp, hprog⟩ := tsi148CreateWindow_programmed hv hs h
  have hv' : ¬ (desc.vmeAddrl &&& 0xffff#32 ≠ 0) := by rw [and_ffff_ne_zero_iff]; omega
  have hs' : ¬ (desc.sizel &&& 0xffff#32 ≠ 0) := by rw [and_ffff_ne_zero_iff]; omega
  have hp' : ¬ (desc.pciAddrl &&& 0xffff#32 ≠ 0) := by rw [and_ffff_ne_zero_iff]; omega
  simp only [tsi148CreateWindow, if_neg hv', if_neg hs', if_neg hp'] at h
  split at h
  · cases h
  rename_i attrs hattrs
  simp only [Option.some.injEq, Prod.mk.injEq] at h
  obtain ⟨-, ho⟩ := h
  have hlow := tsi148SetupWindowAttributes_low hattrs
  obtain ⟨hpf, hpfs⟩ := otat_prefetch hlow desc.readPrefetchSize desc.readPrefetchEnabled
  have hotat := congrArg Otrans.otat ho
  have hotbs := congrArg Otrans.otbs ho
  dsimp only at hotat hotbs
  rw [hotat] at hpf hpfs
  have hlow' : o.otat &&& 0xffff#32 = attrs := by
    rw [← hotat]
    exact otat_low attrs desc.readPrefetchSize desc.readPrefetchEnabled hlow
  obtain ⟨hmode, ⟨code, hcode, hwidth⟩, attr, hattr, hsize, ham⟩ :=
    (attributes_readback hattrs).of_low hlow'
  subst hd
  refine
    { enabled := if_pos hprog.enabled
      vmeAddrl := ?_
      vmeAddru := ?_
      sizel := ?_
      pciAddr := ⟨hprog.otsau, hprog.otsal⟩
      am := ?_
      dataWidth := ?_
      prefetch := ?_
      prefetchSize := hpfs
      mode := hmode
      bcastSelect := hotbs.symm }
  · show o.otofl + o.otsal = desc.vmeAddrl
    rw [hprog.otofl, hprog.otsal, BitVec.sub_add_cancel]
  · show (if o.otat &&& 0xf#32 = 4 then add64hi o.otofl o.otofu o.otsal o.otsau else 0) = _
    rw [hsize, hprog.otofl, hprog.otofu, hprog.otsal, hprog.otsau, add64hi_sub64hi, hattr,
      Option.map_some]
    cases attr.addrSize <;> rfl
  · show o.oteal - o.otsal = desc.sizel - 0x10000#32
    have hsum : (desc.pciAddrl + desc.sizel).toNat % 65536 = 0 := by
      rw [BitVec.toNat_add]
      omega
    rw [hprog.oteal, hprog.otsal, sub_one_and_not_ffff hsum]
    bv_omega
  · show (attrToAm _ _ _ _).getD _ = desc.am
    rw [ham, Option.getD_some]
  · show DataWidth.ofField ((o.otat &&& (3#32 <<< 6)) >>> 6) probe.dataWidth = _
    rw [hwidth]
    cases hw : desc.dataWidth <;> rw [hw] at hcode <;> cases hcode <;> rfl
  · show (if o.otat &&& otatMrpfd = 0 then true else probe.readPrefetchEnabled) = _
    by_cases hon : desc.readPrefetchEnabled = true
    · rw [if_pos (hpf.2 hon), hon, Bool.true_or]
    · rw [if_neg fun hoff => hon (hpf.1 hoff), Bool.eq_false_iff.2 hon, Bool.false_or]

/-- **No window reads back as it was created.**  Whatever descriptor `tsi148_get_window_attr` fills
in, it returns the `Readback` of the window that `vme_create_window` made, and the size in it is
64K short. -/
theorem windowAttr_not_roundTrip {env : CreateEnv} {desc d : VmeMapping} {s s' : Bridge}
    {i : WindowIdx} (hi : windowIndex desc.windowNum = some i)
    (h : vmeCreateWindow env desc s = (.ok d, s')) (probe : VmeMapping) :
    Readback d probe (tsi148GetWindowAttr (s'.otrans i) probe) ∧
      ¬ RoundTrip d (tsi148GetWindowAttr (s'.otrans i) probe) := by
  have hback : Readback d probe (tsi148GetWindowAttr (s'.otrans i) probe) := by
    rcases vmeCreateWindow_cases env desc s with ⟨e, he⟩ | ⟨j, start, d', regs, hj, -, -, -, hregs, hok⟩
    · rw [he] at h
      cases h
    · rw [hok] at h
      cases h
      cases hj.symm.trans hi
      have hv : (roundWindow desc).vmeAddrl.toNat % 65536 = 0 := by
        rw [roundWindow_eq, toNat_and_not_ffff]
        omega
      have hs : (roundWindow desc).sizel.toNat % 65536 = 0 := by
        rw [roundWindow_eq]
        exact alignUp_mod desc.sizel
      rw [Bridge.created, Bridge.setWindow_otrans, Bridge.setOtrans_otrans_self]
      exact tsi148CreateWindow_readback (by exact hv) (by exact hs) hregs probe
  exact ⟨hback, hback.not_roundTrip⟩

/-- A kernel that grants everything, with the region at `0x80000000`. -/
def grantWindow : CreateEnv := ⟨false, some 0x80000000#32, 1#64⟩

/-- The state of a table with one window of 128K at VME address `0x20000`. -/
def oneWindow : Bridge := (vmeCreateWindow grantWindow (userRequest 0x20000 0x20000) .initial).2

theorem windowAttr_not_roundTrip_oneWindow :
    (tsi148GetWindowAttr (oneWindow.otrans 0) VmeMapping.zero).sizel = 0x10000#32 ∧
      ¬ RoundTrip (oneWindow.window 0).desc
        (tsi148GetWindowAttr (oneWindow.otrans 0) VmeMapping.zero) := by
  have hcreated : vmeCreateWindow grantWindow (userRequest 0x20000 0x20000) .initial =
      (.ok (oneWindow.window 0).desc, oneWindow) := rfl
  exact ⟨by decide, (windowAttr_not_roundTrip rfl hcreated VmeMapping.zero).2⟩

/-- A window created with 128K is read back with 64K. -/
theorem not_roundTrip_oneWindow :
    ¬ ∀ (env : CreateEnv) (desc d : VmeMapping) (s s' : Bridge) (i : WindowIdx),
      windowIndex desc.windowNum = some i → vmeCreateWindow env desc s = (.ok d, s') →
        RoundTrip d (tsi148GetWindowAttr (s'.otrans i) (s'.window i).desc) := by
  intro h
  have hround := h grantWindow (userRequest 0x20000 0x20000) (oneWindow.window 0).desc .initial
    oneWindow 0 rfl rfl
  have hshort : (tsi148GetWindowAttr (oneWindow.otrans 0) (oneWindow.window 0).desc).sizel
      ≠ (oneWindow.window 0).desc.sizel := by decide
  exact hshort hround.size.2

end KernelModules.Vmebridge
