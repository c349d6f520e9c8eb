import KernelModules.Lib.Word
import KernelModules.Vmebridge.Mapping

/-!
# Outbound windows of the TSI148

The register level of `tsi148.c`: the eight registers of an outbound translation window,
the attribute word built from address modifier and data width, and the programming and
wiping of a window.  The 64-bit start, end and offset registers are pairs of 32-bit words
computed separately (`add64hi`, `sub64hi`), so the last section states what a window
translates: `Otrans.Covers` and `Otrans.translate` read the registers as the chip does,
`tsi148CreateWindow_programmed` says what creating a window leaves in them, and
`Programmed.covers` and `Programmed.translate_eq` what the programmed values amount to.
-/

namespace KernelModules.Vmebridge

open KernelModules.Lib.Word

/-! ### Attribute words -/

/-- TSI148 address modes. -/
inductive AddrSize
  | a16 | a24 | a32 | a64 | crcsr
  deriving DecidableEq, Repr

def AddrSize.code : AddrSize → U32
  | .a16 => 0
  | .a24 => 1
  | .a32 => 2
  | .a64 => 4
  | .crcsr => 5

/-- TSI148 transfer protocols an address modifier can stand for. -/
inductive TransferMode
  | sct | blt | mblt
  deriving DecidableEq, Repr

def TransferMode.code : TransferMode → U32
  | .sct => 0
  | .blt => 1
  | .mblt => 2

/-- The attributes `am_to_attr` splits an address modifier into. -/
structure Attr where
  addrSize : AddrSize
  transferMode : TransferMode
  super : Bool
  prog : Bool
  deriving DecidableEq, Repr

/-- `am_to_attr`; `none` is its `-1`. -/
def amToAttr : AddressModifier → Option Attr
  | .a16User => some ⟨.a16, .sct, false, false⟩
  | .a16Sup => some ⟨.a16, .sct, true, false⟩
  | .a24UserMblt => some ⟨.a24, .mblt, false, false⟩
  | .a24UserDataSct => some ⟨.a24, .sct, false, false⟩
  | .a24UserPrgSct => some ⟨.a24, .sct, false, true⟩
  | .a24UserBlt => some ⟨.a24, .blt, false, false⟩
  | .a24SupMblt => some ⟨.a24, .mblt, true, false⟩
  | .a24SupDataSct => some ⟨.a24, .sct, true, false⟩
  | .a24SupPrgSct => some ⟨.a24, .sct, true, true⟩
  | .a24SupBlt => some ⟨.a24, .blt, true, false⟩
  | .a32UserMblt => some ⟨.a32, .mblt, false, false⟩
  | .a32UserDataSct => some ⟨.a32, .sct, false, false⟩
  | .a32UserPrgSct => some ⟨.a32, .sct, false, true⟩
  | .a32UserBlt => some ⟨.a32, .blt, false, false⟩
  | .a32SupMblt => some ⟨.a32, .mblt, true, false⟩
  | .a32SupDataSct => some ⟨.a32, .sct, true, false⟩
  | .a32SupPrgSct => some ⟨.a32, .sct, true, true⟩
  | .a32SupBlt => some ⟨.a32, .blt, true, false⟩
  | .a64Sct => some ⟨.a64, .sct, true, false⟩
  | .a64Blt => some ⟨.a64, .blt, true, false⟩
  | .a64Mblt => some ⟨.a64, .mblt, true, false⟩
  | .crCsr => some ⟨.crcsr, .sct, false, false⟩
  | _ => none

/-- The 2eSST speed field; `none` for a value outside the enumeration. -/
def SstMode.code : SstMode → Option U32
  | .sst160 => some 0
  | .sst267 => some 1
  | .sst320 => some 2
  | .other _ => none

/-- The data width field: only D16 and D32 are accepted. -/
def DataWidth.code : DataWidth → Option U32
  | .d16 => some 0
  | .d32 => some 1
  | _ => none

/-- `tsi148_setup_window_attributes`; `none` is `-EINVAL`. -/
def tsi148SetupWindowAttributes (v2esstMode : SstMode) (dataWidth : DataWidth)
    (am : AddressModifier) : Option U32 := do
  let mode ← v2esstMode.code
  let dbw ← dataWidth.code
  let attr ← amToAttr am
  return ((mode <<< 11) &&& (7#32 <<< 11)) ||| ((dbw <<< 6) &&& (3#32 <<< 6))
    ||| ((attr.transferMode.code <<< 8) &&& (7#32 <<< 8))
    ||| (if attr.super then 1#32 <<< 5 else 0) ||| (if attr.prog then 1#32 <<< 4 else 0)
    ||| (attr.addrSize.code &&& 0xf#32)

/-! ### Window registers -/

/-- `struct tsi148_otrans`. -/
structure Otrans where
  otsau : U32
  otsal : U32
  oteau : U32
  oteal : U32
  otofu : U32
  otofl : U32
  otbs : U32
  otat : U32
  deriving DecidableEq, Repr

/-- A wiped window. -/
def Otrans.zero : Otrans := ⟨0, 0, 0, 0, 0, 0, 0, 0⟩

/-- `TSI148_LCSR_OTAT_EN`. -/
def otatEn : U32 := 1#32 <<< 31

/-- `TSI148_LCSR_OTAT_MRPFD`. -/
def otatMrpfd : U32 := 1#32 <<< 18

/-- `sub64hi`: upper half of a 64-bit difference. -/
def sub64hi (lo0 hi0 lo1 hi1 : U32) : U32 :=
  if lo0 < lo1 then hi0 - hi1 - 1 else hi0 - hi1

/-- `add64hi`: upper half of a 64-bit sum. -/
def add64hi (lo0 hi0 lo1 hi1 : U32) : U32 :=
  if lo0 + lo1 < lo1 then hi0 + hi1 + 1 else hi0 + hi1

/-- `tsi148_create_window`: the descriptor as the function leaves it and the registers it
programs.  The size branch adds the address the way the source does; its callers pass an
aligned size, so that it is not taken. -/
def tsi148CreateWindow (desc : VmeMapping) : Option (VmeMapping × Otrans) :=
  let addr := if desc.vmeAddrl &&& 0xffff#32 ≠ 0 then desc.vmeAddrl &&& ~~~0xffff#32
    else desc.vmeAddrl
  let size := if desc.sizel &&& 0xffff#32 ≠ 0 then
      (desc.vmeAddrl + desc.sizel + 0x10000#32) &&& ~~~0xffff#32
    else desc.sizel
  let desc := { desc with vmeAddrl := addr, sizel := size }
  if desc.pciAddrl &&& 0xffff#32 ≠ 0 then none
  else
    match tsi148SetupWindowAttributes desc.v2esstMode desc.dataWidth desc.am with
    | none => none
    | some attrs =>
      let otat := attrs ||| otatEn
      let otat := if desc.readPrefetchEnabled then
          (otat &&& ~~~otatMrpfd) ||| ((desc.readPrefetchSize <<< 16) &&& (3#32 <<< 16))
        else otat ||| otatMrpfd
      some ({ desc with windowEnabled := true },
        { otbs := desc.bcastSelect &&& 0xfffff#32
          otsal := desc.pciAddrl &&& (0xffff#32 <<< 16)
          otsau := desc.pciAddru
          oteal := (desc.pciAddrl + desc.sizel - 1) &&& ~~~0xffff#32
          oteau := add64hi desc.pciAddrl desc.pciAddru desc.sizel desc.sizeu
          otofl := desc.vmeAddrl - desc.pciAddrl
          otofu := sub64hi desc.vmeAddrl desc.vmeAddru desc.pciAddrl desc.pciAddru
          otat := otat })

/-- `tsi148_remove_window`: the attribute word first, then every other register. -/
def tsi148RemoveWindow (desc : VmeMapping) : VmeMapping × Otrans :=
  ({ desc with windowEnabled := false }, Otrans.zero)

/-! ### What a programmed window translates -/

/-- The window is enabled and the PCI address lies in `[OTSA, OTEA|0xffff]`. -/
def Otrans.Covers (o : Otrans) (pci : ℕ) : Prop :=
  o.otat &&& otatEn ≠ 0 ∧ join o.otsau o.otsal ≤ pci ∧
    pci ≤ join o.oteau (o.oteal ||| 0xffff#32)

instance (o : Otrans) (pci : ℕ) : Decidable (o.Covers pci) := by
  unfold Otrans.Covers
  infer_instance

/-- The VME address the chip drives: the PCI address plus the 64-bit offset register. -/
def Otrans.translate (o : Otrans) (pci : ℕ) : ℕ := (pci + join o.otofu o.otofl) % 2 ^ 64

/-- The attribute word carries this data width and address modifier (for some 2eSST speed
and prefetch setting). -/
def Otrans.HasAttributes (o : Otrans) (dataWidth : DataWidth) (am : AddressModifier) : Prop :=
  ∃ mode attrs, tsi148SetupWindowAttributes mode dataWidth am = some attrs ∧
    o.otat &&& 0xffff#32 = attrs

/-- The registers hold what `tsi148_create_window` writes for this descriptor. -/
structure Programmed (desc : VmeMapping) (o : Otrans) : Prop where
  otsau : o.otsau = desc.pciAddru
  otsal : o.otsal = desc.pciAddrl
  oteal : o.oteal = (desc.pciAddrl + desc.sizel - 1) &&& ~~~0xffff#32
  oteau : o.oteau = add64hi desc.pciAddrl desc.pciAddru desc.sizel desc.sizeu
  otofl : o.otofl = desc.vmeAddrl - desc.pciAddrl
  otofu : o.otofu = sub64hi desc.vmeAddrl desc.vmeAddru desc.pciAddrl desc.pciAddru
  attributes : o.HasAttributes desc.dataWidth desc.am
  enabled : o.otat &&& otatEn ≠ 0

theorem and_high_eq_self {x : U32} (h : x.toNat % 65536 = 0) : x &&& (0xffff#32 <<< 16) = x := by
  apply BitVec.eq_of_toNat_eq
  rw [show (0xffff#32 <<< 16 : U32) = ~~~0xffff#32 from rfl, toNat_and_not_ffff]
  omega

theorem and_mask_mask {x m n k : U32} (h : m &&& n = k) : x &&& m &&& n = x &&& k := by
  rw [BitVec.and_assoc, h]

theorem otat_low (attrs p : U32) (pf : Bool) (h : attrs &&& 0xffff#32 = attrs) :
    (if pf then ((attrs ||| otatEn) &&& ~~~otatMrpfd) ||| ((p <<< 16) &&& (3#32 <<< 16))
      else (attrs ||| otatEn) ||| otatMrpfd) &&& 0xffff#32 = attrs := by
  cases pf
  · simp only [Bool.false_eq_true, if_false, BitVec.and_or_distrib_right, h]
    rw [show otatEn &&& 0xffff#32 = 0 from rfl, show otatMrpfd &&& 0xffff#32 = 0 from rfl]
    simp
  · simp only [if_true, BitVec.and_or_distrib_right]
    rw [show otatEn &&& ~~~otatMrpfd &&& 0xffff#32 = 0 from rfl,
      and_mask_mask (k := 0xffff#32) rfl, and_mask_mask (k := 0) rfl, h]
    simp

theorem otat_en (attrs p : U32) (pf : Bool) :
    (if pf then ((attrs ||| otatEn) &&& ~~~otatMrpfd) ||| ((p <<< 16) &&& (3#32 <<< 16))
      else (attrs ||| otatEn) ||| otatMrpfd) &&& otatEn ≠ 0 := by
  intro h0
  have hbit := congrArg (fun x : U32 => x.getLsbD 31) h0
  cases pf <;> simp [otatEn, otatMrpfd] at hbit

theorem tsi148SetupWindowAttributes_low {mode : SstMode} {dw : DataWidth} {am : AddressModifier}
    {attrs : U32} (h : tsi148SetupWindowAttributes mode dw am = some attrs) :
    attrs &&& 0xffff#32 = attrs := by
  simp only [tsi148SetupWindowAttributes, Option.bind_eq_bind, Option.bind_eq_some_iff,
    Option.pure_def, Option.some.injEq] at h
  obtain ⟨m, -, d, -, attr, -, rfl⟩ := h
  have hsup : (if attr.super then 1#32 <<< 5 else 0) &&& 0xffff#32
      = (if attr.super then 1#32 <<< 5 else 0) := by
    cases attr.super <;> rfl
  have hpgm : (if attr.prog then 1#32 <<< 4 else 0) &&& 0xffff#32
      = (if attr.prog then 1#32 <<< 4 else 0) := by
    cases attr.prog <;> rfl
  simp only [BitVec.and_or_distrib_right, hsup, hpgm]
  rw [and_mask_mask (k := 7#32 <<< 11) rfl, and_mask_mask (k := 3#32 <<< 6) rfl,
    and_mask_mask (k := 7#32 <<< 8) rfl, and_mask_mask (k := 0xf#32) rfl]

theorem tsi148CreateWindow_programmed {desc d : VmeMapping} {o : Otrans}
    (hv : desc.vmeAddrl.toNat % 65536 = 0) (hs : desc.sizel.toNat % 65536 = 0)
    (h : tsi148CreateWindow desc = some (d, o)) :
    d = { desc with windowEnabled := true } ∧ desc.pciAddrl.toNat % 65536 = 0 ∧
      Programmed d o := by
  have hv' : ¬ (desc.vmeAddrl &&& 0xffff#32 ≠ 0) := by rw [and_ffff_ne_zero_iff]; omega
  have hs' : ¬ (desc.sizel &&& 0xffff#32 ≠ 0) := by rw [and_ffff_ne_zero_iff]; omega
  simp only [tsi148CreateWindow, if_neg hv', if_neg hs'] at h
  split at h
  · cases h
  · rename_i hp
    rw [and_ffff_ne_zero_iff, not_not] at hp
    split at h
    · cases h
    · rename_i attrs hattrs
      simp only [Option.some.injEq, Prod.mk.injEq] at h
      obtain ⟨rfl, rfl⟩ := h
      refine ⟨rfl, hp, ?_⟩
      have hlow := tsi148SetupWindowAttributes_low hattrs
      exact
        { otsau := rfl
          otsal := and_high_eq_self hp
          oteal := rfl
          oteau := rfl
          otofl := rfl
          otofu := rfl
          attributes := ⟨_, attrs, hattrs, otat_low attrs _ _ hlow⟩
          enabled := otat_en attrs _ _ }

theorem Programmed.covers {desc : VmeMapping} {o : Otrans} (h : Programmed desc o)
    (hu : desc.pciAddru = 0) (hp : desc.pciAddrl.toNat % 65536 = 0)
    (hs : desc.sizel.toNat % 65536 = 0)
    (hend : desc.pciAddrl.toNat + desc.sizel.toNat ≤ 2 ^ 32) {pci : ℕ}
    (hlo : desc.pciAddrl.toNat ≤ pci) (hhi : pci < desc.pciAddrl.toNat + desc.sizel.toNat) :
    o.Covers pci := by
  refine ⟨h.enabled, ?_, ?_⟩
  · rw [h.otsau, h.otsal, hu, join_zero]
    exact hlo
  · have hpos : 0 < desc.sizel.toNat := by omega
    have hlast : (desc.pciAddrl + desc.sizel - 1).toNat
        = desc.pciAddrl.toNat + desc.sizel.toNat - 1 := by
      rw [BitVec.toNat_sub, BitVec.toNat_add]
      rw [show (1 : U32).toNat = 1 from rfl]
      omega
    have hteal : o.oteal.toNat = desc.pciAddrl.toNat + desc.sizel.toNat - 65536 := by
      rw [h.oteal, toNat_and_not_ffff, hlast]
      omega
    have hor := or_ffff_toNat o.oteal (by omega)
    unfold join
    omega

theorem Programmed.bounds {desc : VmeMapping} {o : Otrans} (h : Programmed desc o)
    (hsizeu : desc.sizeu = 0) (hp : desc.pciAddrl.toNat % 65536 = 0)
    (hs : desc.sizel.toNat % 65536 = 0) (hpos : 0 < desc.pciAddrl.toNat)
    (hend : desc.pciAddrl.toNat + desc.sizel.toNat < 2 ^ 32) {pci : ℕ} (hc : o.Covers pci) :
    desc.pciAddru.toNat * 2 ^ 32 + desc.pciAddrl.toNat ≤ pci ∧
      pci < desc.pciAddru.toNat * 2 ^ 32 + desc.pciAddrl.toNat + desc.sizel.toNat := by
  obtain ⟨-, hlo, hhi⟩ := hc
  have hcarry : ¬ desc.pciAddrl + desc.sizel < desc.sizel := by
    rw [BitVec.lt_def, BitVec.toNat_add_of_lt hend]
    omega
  have hlast : (desc.pciAddrl + desc.sizel - 1).toNat
      = desc.pciAddrl.toNat + desc.sizel.toNat - 1 := by
    rw [BitVec.toNat_sub, BitVec.toNat_add]
    rw [show (1 : U32).toNat = 1 from rfl]
    omega
  have hteal : o.oteal.toNat = (desc.pciAddrl.toNat + desc.sizel.toNat - 1) / 65536 * 65536 := by
    rw [h.oteal, toNat_and_not_ffff, hlast]
  have hor := or_ffff_toNat o.oteal (by omega)
  have hteau : o.oteau = desc.pciAddru := by
    rw [h.oteau, add64hi, if_neg hcarry, hsizeu]
    exact BitVec.add_zero _
  rw [h.otsau, h.otsal] at hlo
  rw [hteau] at hhi
  unfold join at hlo hhi
  omega

theorem Programmed.translate_eq {desc : VmeMapping} {o : Otrans} (h : Programmed desc o)
    (hu : desc.pciAddru = 0) {pci : ℕ} (hlo : desc.pciAddrl.toNat ≤ pci) :
    o.translate pci = (desc.vmeAddru.toNat * 2 ^ 32 + desc.vmeAddrl.toNat
      + (pci - desc.pciAddrl.toNat)) % 2 ^ 64 := by
  have hvl := desc.vmeAddrl.isLt
  have hvu := desc.vmeAddru.isLt
  have hpl := desc.pciAddrl.isLt
  rw [Otrans.translate, h.otofu, h.otofl, hu, join, sub64hi, BitVec.toNat_sub]
  by_cases hlt : desc.vmeAddrl < desc.pciAddrl
  · rw [if_pos hlt]
    rw [BitVec.lt_def] at hlt
    rw [BitVec.toNat_sub, BitVec.toNat_sub, show (0 : U32).toNat = 0 from rfl,
      show (1 : U32).toNat = 1 from rfl]
    omega
  · rw [if_neg hlt]
    rw [BitVec.lt_def] at hlt
    rw [BitVec.toNat_sub, show (0 : U32).toNat = 0 from rfl]
    omega

end KernelModules.Vmebridge
