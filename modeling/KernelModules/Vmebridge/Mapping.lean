import Mathlib.Tactic

/-!
# The mapping descriptor of the VME bridge driver

The public data model of `vmebus.h`: address modifiers, data widths, transfer speeds and
`struct vme_mapping`, which describes both a hardware window and a logical mapping on top
of one.  Enumerations that reach the driver from user space can hold any integer, so each
has an `other` value next to the named ones.

`vmeMappingSanityCheck` and `vmeOptimizeWindowSize` are the two address-space rules of
`vme_window.c`: which addresses a request may name, and how a window for an A16 or A24
request is widened to the whole address space.
-/

namespace KernelModules.Vmebridge

/-- `unsigned int`. -/
abbrev U32 := BitVec 32

/-- The error codes the driver returns (as negative numbers). -/
inductive Errno
  | EINVAL | EBUSY | ENOMEM | ERESTARTSYS | EINTR | EDEADLK | EFAULT
  deriving DecidableEq, Repr

/-- `enum vme_address_modifier`. -/
inductive AddressModifier
  | a64Mblt | a64Sct | a64Blt | a64Lck | a32Lck
  | a32UserMblt | a32UserDataSct | a32UserPrgSct | a32UserBlt
  | a32SupMblt | a32SupDataSct | a32SupPrgSct | a32SupBlt
  | v2e6U | v2e3U
  | a16User | a16Lck | a16Sup | crCsr
  | a40Sct | a40Lck | a40Blt
  | a24UserMblt | a24UserDataSct | a24UserPrgSct | a24UserBlt
  | a24SupMblt | a24SupDataSct | a24SupPrgSct | a24SupBlt
  | other (code : ℕ)
  deriving DecidableEq, Repr

/-- `enum vme_data_width`. -/
inductive DataWidth
  | d8 | d16 | d32 | d64
  | other (code : ℕ)
  deriving DecidableEq, Repr

/-- `enum vme_2esst_mode`. -/
inductive SstMode
  | sst160 | sst267 | sst320
  | other (code : ℕ)
  deriving DecidableEq, Repr

/-- `struct vme_mapping`, without the two fields reserved for user space. -/
structure VmeMapping where
  windowNum : ℤ
  kernelVa : BitVec 64
  windowEnabled : Bool
  dataWidth : DataWidth
  am : AddressModifier
  readPrefetchEnabled : Bool
  readPrefetchSize : U32
  v2esstMode : SstMode
  bcastSelect : U32
  pciAddru : U32
  pciAddrl : U32
  sizeu : U32
  sizel : U32
  vmeAddru : U32
  vmeAddrl : U32
  deriving DecidableEq, Repr

/-- The address spaces whose width the driver treats specially. -/
inductive AddressSpace
  | a16 | a24 | a32 | a40 | unchecked
  deriving DecidableEq, Repr

/-- The `switch` labels shared by the sanity check and by the size optimisation. -/
def AddressModifier.space : AddressModifier → AddressSpace
  | a16User | a16Lck | a16Sup => .a16
  | a24UserMblt | a24UserDataSct | a24UserPrgSct | a24UserBlt => .a24
  | a24SupMblt | a24SupDataSct | a24SupPrgSct | a24SupBlt => .a24
  | a32Lck | a32UserMblt | a32UserDataSct | a32UserPrgSct | a32UserBlt => .a32
  | a32SupMblt | a32SupDataSct | a32SupPrgSct | a32SupBlt => .a32
  | a40Sct | a40Lck | a40Blt => .a40
  | _ => .unchecked

/-- `vme_mapping_sanity_check`: true when the start address fits its address space. -/
def vmeMappingSanityCheck (mapping : VmeMapping) : Bool :=
  match mapping.am.space with
  | .a16 => mapping.vmeAddru == 0 && mapping.vmeAddrl &&& ~~~0xffff#32 == 0
  | .a24 => mapping.vmeAddru == 0 && mapping.vmeAddrl &&& ~~~0xffffff#32 == 0
  | .a32 => mapping.vmeAddru == 0
  | .a40 => mapping.vmeAddru &&& ~~~0xff#32 == 0
  | .unchecked => true

/-- The size `vme_optimize_window_size` gives a window: the whole space for A16 and A24. -/
def AddressSpace.resize : AddressSpace → Option U32
  | .a24 => some 0x1000000#32
  | .a16 => some 0x10000#32
  | _ => none

/-- `vme_optimize_window_size`. -/
def vmeOptimizeWindowSize (desc : VmeMapping) : VmeMapping :=
  match desc.am.space.resize with
  | none => desc
  | some resize => { desc with sizeu := 0, sizel := resize, vmeAddru := 0, vmeAddrl := 0 }

end KernelModules.Vmebridge
