import KernelModules.Vmebridge.WindowMmap

/-!
# The user library maps what the driver placed

`libvmebus` asks the driver for a mapping and then maps its pages: `vme_mmap` rounds the PCI
address down to a page, extends the length by what that adds and leaves the rounding up to the
kernel; `vme_munmap` takes the same way back from `user_va`.  The driver accepts a range only if it
is, page for page, the range of one of the caller's mappings.

* `pageAddr`, `pageAlignedSize` and `pageAlignedSizeIncr` follow the library on a 64-bit machine
  with pages of 4K, and `MmapEnv` is the kernel's part of `mmap`;
* `MmapAgrees` is the agreement of library and driver on one mapping;
* `Mappable` says which mappings inside a window can be mapped, and `vmeMmap_agrees_iff` that
  these are the ones on which the two agree.  The end of a range is a 32-bit sum on both sides, so
  a window that ends at 4G is out of reach.
-/

namespace KernelModules.Vmebridge

open KernelModules.Lib KernelModules.Lib.Word

/-! ### The library and the kernel -/

/-- `__page_addr`. -/
def pageAddr (address : BitVec 64) : BitVec 64 := address &&& ~~~0xfff#64

/-- `__page_aligned_size`: the sum is one of `unsigned int`s. -/
def pageAlignedSize (desc : VmeMapping) : BitVec 64 :=
  (desc.pciAddrl + desc.sizel).setWidth 64 - pageAddr (desc.pciAddrl.setWidth 64)

/-- `__page_aligned_size_incr`. -/
def pageAlignedSizeIncr (desc : VmeMapping) : BitVec 64 :=
  desc.pciAddrl.setWidth 64 - pageAddr (desc.pciAddrl.setWidth 64)

/-- `PAGE_ALIGN` of the kernel. -/
def pageAlign (len : BitVec 64) : BitVec 64 := (len + 0xfff#64) &&& ~~~0xfff#64

/-- What the kernel decides in `mmap`: where a range of pages goes in the address space of the
process. -/
structure MmapEnv where
  taskSize : ℕ
  place : BitVec 64 → BitVec 64
  room : 2 ^ 33 ≤ taskSize ∧ taskSize ≤ 2 ^ 47
  aligned : ∀ len, (place len).toNat % 4096 = 0
  fits : ∀ len, len.toNat ≤ taskSize → (place len).toNat + len.toNat ≤ taskSize

/-- The checks of `mmap` before the file's own `mmap` runs: an empty range, one that does not fit
into the address space and an offset inside a page are refused. -/
def MmapEnv.mmap (k : MmapEnv) (len off : BitVec 64) : Option Vma :=
  if len = 0 ∨ pageAlign len = 0 ∨ k.taskSize < (pageAlign len).toNat ∨ off &&& 0xfff#64 ≠ 0 then
    none
  else some ⟨k.place (pageAlign len), k.place (pageAlign len) + pageAlign len, off >>> 12⟩

/-- The `mmap` that `vme_mmap` issues. -/
def vmeMmap (k : MmapEnv) (desc : VmeMapping) : Option Vma :=
  k.mmap (pageAlignedSize desc) (pageAddr (desc.pciAddrl.setWidth 64))

/-- The `user_va` that `vme_mmap` stores. -/
def userVa (vma : Vma) (desc : VmeMapping) : BitVec 64 := vma.vmStart + pageAlignedSizeIncr desc

/-- First byte and length of what `vme_munmap` has the kernel unmap. -/
def vmeMunmap (va : BitVec 64) (desc : VmeMapping) : BitVec 64 × BitVec 64 :=
  (va - pageAlignedSizeIncr desc, pageAlign (pageAlignedSize desc))

/-! ### Agreement -/

/-- The physical address behind a user address of a remapped range. -/
def Remap.phys (r : Remap) (va : BitVec 64) : ℕ := r.start + (va - r.addr).toNat

/-- Library and driver agree on the mapping `desc` of a file on window `i`: the driver's check
accepts the library's range, the range is remapped, `user_va` is in it and addresses the first byte
of the mapping, and unmapping hands back the range that was mapped. -/
def MmapAgrees (k : MmapEnv) (s : Bridge) (file : FileId) (i : WindowIdx) (desc : VmeMapping) :
    Prop :=
  ∃ vma, vmeMmap k desc = some vma ∧
    vmeCheckMmapRegion (s.window i).desc desc ((vma.vmPgoff <<< 12).setWidth 32)
      ((vma.vmEnd - vma.vmStart).setWidth 32) = true ∧
    vmeWindowMmap (fun _ => false) file vma s (List.finRange 8) = .ok (vmeRemapPfnRange vma) ∧
    vma.vmStart.toNat ≤ (userVa vma desc).toNat ∧ (userVa vma desc).toNat < vma.vmEnd.toNat ∧
    (vmeRemapPfnRange vma).phys (userVa vma desc) = desc.pciAddrl.toNat ∧
    vmeMunmap (userVa vma desc) desc = (vma.vmStart, vma.vmEnd - vma.vmStart)

/-- The PCI range of a mapping lies in that of its window. -/
def InWindow (window desc : VmeMapping) : Prop :=
  window.pciAddrl.toNat ≤ desc.pciAddrl.toNat ∧
    desc.pciAddrl.toNat + desc.sizel.toNat ≤ window.pciAddrl.toNat + window.sizel.toNat

/-- The mappings that can be mapped: there is a page to map, and the window ends below 4G or the
mapping ends inside the last page before it. -/
def Mappable (window desc : VmeMapping) : Prop :=
  ¬ (desc.sizel.toNat = 0 ∧ desc.pciAddrl.toNat % 4096 = 0) ∧
    (window.pciAddrl.toNat + window.sizel.toNat < 2 ^ 32 ∨
      2 ^ 32 - 4096 < desc.pciAddrl.toNat + desc.sizel.toNat ∧
        desc.pciAddrl.toNat + desc.sizel.toNat < 2 ^ 32)

/-! ### Page arithmetic -/

section Pages

variable {desc : VmeMapping}

theorem pageAddr_toNat (address : BitVec 64) :
    (pageAddr address).toNat = address.toNat / 4096 * 4096 :=
  toNat_and_not_low address 12

theorem pageAlign_toNat {len : BitVec 64} (h : len.toNat < 2 ^ 63) :
    (pageAlign len).toNat = (len.toNat + 4095) / 4096 * 4096 := by
  have hmask : (pageAlign len).toNat = (len + 0xfff#64).toNat / 4096 * 4096 :=
    toNat_and_not_low (len + 0xfff#64) 12
  rw [hmask, BitVec.toNat_add, show (0xfff#64).toNat = 4095 from rfl]
  omega

theorem pageAlignedSizeIncr_toNat (desc : VmeMapping) :
    (pageAlignedSizeIncr desc).toNat = desc.pciAddrl.toNat % 4096 := by
  have hlt := desc.pciAddrl.isLt
  rw [pageAlignedSizeIncr, BitVec.toNat_sub, pageAddr_toNat, BitVec.toNat_setWidth]
  omega

theorem pageAlignedSize_toNat (h : desc.pciAddrl.toNat + desc.sizel.toNat < 2 ^ 32) :
    (pageAlignedSize desc).toNat = desc.pciAddrl.toNat % 4096 + desc.sizel.toNat := by
  rw [pageAlignedSize, BitVec.toNat_sub, pageAddr_toNat, BitVec.toNat_setWidth,
    BitVec.toNat_setWidth, BitVec.toNat_add]
  omega

theorem pageAlignedSize_wraps (h : desc.pciAddrl.toNat + desc.sizel.toNat = 2 ^ 32)
    (hpage : 4096 ≤ desc.pciAddrl.toNat) :
    (pageAlignedSize desc).toNat = 2 ^ 64 - desc.pciAddrl.toNat / 4096 * 4096 := by
  have hlt := desc.pciAddrl.isLt
  rw [pageAlignedSize, BitVec.toNat_sub, pageAddr_toNat, BitVec.toNat_setWidth,
    BitVec.toNat_setWidth, BitVec.toNat_add]
  omega

theorem pageAddr_and_low (address : BitVec 64) : ¬ (pageAddr address &&& 0xfff#64 ≠ 0) := by
  have hlow := and_low_ne_zero_iff (pageAddr address) 12 (by omega)
  rw [show BitVec.ofNat 64 (2 ^ 12 - 1) = 0xfff#64 from rfl, pageAddr_toNat] at hlow
  rw [hlow]
  omega

theorem pageAddr_shift (address : BitVec 64) :
    pageAddr address >>> 12 <<< 12 = pageAddr address := by
  apply BitVec.eq_of_toNat_eq
  have hlt := (pageAddr address).isLt
  have hpage := pageAddr_toNat address
  rw [BitVec.toNat_shiftLeft, BitVec.toNat_ushiftRight, Nat.shiftRight_eq_div_pow, Nat.shiftLeft_eq]
  omega

end Pages

/-! ### The range the library asks for -/

/-- The pages from the one the mapping starts in to the one it ends in. -/
def pagesOf (desc : VmeMapping) : ℕ :=
  (desc.pciAddrl.toNat % 4096 + desc.sizel.toNat + 4095) / 4096 * 4096

theorem vmeMmap_eq_some (k : MmapEnv) {desc : VmeMapping}
    (hend : desc.pciAddrl.toNat + desc.sizel.toNat < 2 ^ 32)
    (hpage : ¬ (desc.sizel.toNat = 0 ∧ desc.pciAddrl.toNat % 4096 = 0)) :
    ∃ vma, vmeMmap k desc = some vma ∧
      vma.vmPgoff = pageAddr (desc.pciAddrl.setWidth 64) >>> 12 ∧
      vma.vmEnd - vma.vmStart = pageAlign (pageAlignedSize desc) ∧
      (pageAlign (pageAlignedSize desc)).toNat = pagesOf desc ∧
      vma.vmStart.toNat + pagesOf desc = vma.vmEnd.toNat := by
  have hsize := pageAlignedSize_toNat hend
  have hlen : (pageAlign (pageAlignedSize desc)).toNat = pagesOf desc := by
    rw [pageAlign_toNat (by omega), hsize, pagesOf]
  have hroom := k.room
  have hle : pagesOf desc ≤ k.taskSize := by
    rw [pagesOf]
    omega
  have hfits := k.fits (pageAlign (pageAlignedSize desc)) (by omega)
  have hne : ∀ {x : BitVec 64}, x.toNat ≠ 0 → x ≠ 0 := fun hx h0 => hx (by rw [h0]; rfl)
  refine ⟨⟨k.place (pageAlign (pageAlignedSize desc)), _, _⟩, if_neg ?_, rfl, ?_, hlen, ?_⟩
  · rintro (h0 | h0 | h0 | h0)
    · exact hne (by omega) h0
    · exact hne (by rw [hlen, pagesOf]; omega) h0
    · omega
    · exact pageAddr_and_low _ h0
  · dsimp only
    rw [BitVec.add_comm, BitVec.add_sub_cancel]
  · dsimp only
    rw [BitVec.toNat_add_of_lt (by omega), hlen]

theorem vmeMmap_empty (k : MmapEnv) {desc : VmeMapping} (hsize : desc.sizel.toNat = 0)
    (haligned : desc.pciAddrl.toNat % 4096 = 0) : vmeMmap k desc = none := by
  have hlt := desc.pciAddrl.isLt
  have hzero : pageAlignedSize desc = 0 := by
    apply BitVec.eq_of_toNat_eq
    rw [pageAlignedSize_toNat (by omega)]
    show desc.pciAddrl.toNat % 4096 + desc.sizel.toNat = 0
    omega
  rw [vmeMmap, MmapEnv.mmap, if_pos (Or.inl hzero)]

theorem vmeMmap_wraps (k : MmapEnv) {desc : VmeMapping}
    (hend : desc.pciAddrl.toNat + desc.sizel.toNat = 2 ^ 32) (hpage : 4096 ≤ desc.pciAddrl.toNat) :
    vmeMmap k desc = none := by
  have hlt := desc.pciAddrl.isLt
  have hroom := k.room.2
  have hsize := pageAlignedSize_wraps hend hpage
  have hmask : (pageAlign (pageAlignedSize desc)).toNat
      = (pageAlignedSize desc + 0xfff#64).toNat / 4096 * 4096 :=
    toNat_and_not_low (pageAlignedSize desc + 0xfff#64) 12
  rw [BitVec.toNat_add, hsize, show (0xfff#64).toNat = 4095 from rfl] at hmask
  rw [vmeMmap, MmapEnv.mmap, if_pos (Or.inr (Or.inr (Or.inl (by omega))))]

theorem vmeCheckMmapRegion_iff {window desc : VmeMapping} {addr size : U32}
    (hp : window.pciAddrl.toNat % 65536 = 0) (hs : window.sizel.toNat % 65536 = 0)
    (hfits : window.pciAddrl.toNat + window.sizel.toNat ≤ 2 ^ 32) (hin : InWindow window desc)
    (hend : desc.pciAddrl.toNat + desc.sizel.toNat < 2 ^ 32)
    (haddr : addr.toNat = desc.pciAddrl.toNat / 4096 * 4096)
    (hsize : size.toNat = pagesOf desc % 2 ^ 32) :
    vmeCheckMmapRegion window desc addr size = true ↔
      window.pciAddrl.toNat + window.sizel.toNat < 2 ^ 32 ∨
        2 ^ 32 - 4096 < desc.pciAddrl.toNat + desc.sizel.toNat := by
  obtain ⟨hlo, hhi⟩ := hin
  have hlt := desc.pciAddrl.isLt
  have hstart : desc.pciAddrl &&& pageMask = addr := by
    apply BitVec.eq_of_toNat_eq
    rw [haddr]
    exact toNat_and_not_low desc.pciAddrl 12
  have hstop : (desc.pciAddrl + desc.sizel).toNat = desc.pciAddrl.toNat + desc.sizel.toNat :=
    BitVec.toNat_add_of_lt hend
  have hrange : (addr + size).toNat
      = (desc.pciAddrl.toNat / 4096 * 4096 + pagesOf desc % 2 ^ 32) % 2 ^ 32 := by
    rw [BitVec.toNat_add, haddr, hsize]
  have haligned : (if desc.pciAddrl + desc.sizel &&& ~~~pageMask ≠ 0 then
      (desc.pciAddrl + desc.sizel &&& pageMask) + 0x1000#32 else desc.pciAddrl + desc.sizel)
        = addr + size := by
    have hlow : desc.pciAddrl + desc.sizel &&& ~~~pageMask ≠ 0 ↔
        (desc.pciAddrl + desc.sizel).toNat % 4096 ≠ 0 := by
      rw [show ~~~pageMask = 0xfff#32 from rfl]
      exact and_low_ne_zero_iff _ 12 (by omega)
    have hmask : (desc.pciAddrl + desc.sizel &&& pageMask).toNat
        = (desc.pciAddrl + desc.sizel).toNat / 4096 * 4096 :=
      toNat_and_not_low (desc.pciAddrl + desc.sizel) 12
    apply BitVec.eq_of_toNat_eq
    rw [hrange, pagesOf]
    by_cases hpart : desc.pciAddrl + desc.sizel &&& ~~~pageMask ≠ 0
    · rw [if_pos hpart, BitVec.toNat_add, hmask, hstop, show (0x1000#32).toNat = 4096 from rfl]
      rw [hlow, hstop] at hpart
      omega
    · rw [if_neg hpart, hstop]
      rw [hlow, hstop, not_not] at hpart
      omega
  have hcond : (addr < window.pciAddrl ∨ window.pciAddrl + window.sizel < addr + size) ↔
      ¬ (window.pciAddrl.toNat + window.sizel.toNat < 2 ^ 32 ∨
        2 ^ 32 - 4096 < desc.pciAddrl.toNat + desc.sizel.toNat) := by
    rw [BitVec.lt_def, BitVec.lt_def, hrange, haddr, BitVec.toNat_add, pagesOf]
    omega
  rw [vmeCheckMmapRegion]
  by_cases hout : addr < window.pciAddrl ∨ window.pciAddrl + window.sizel < addr + size
  · rw [if_pos hout]
    exact iff_of_false (by simp) (hcond.1 hout)
  · rw [if_neg hout]
    simp only [hstart, haligned, beq_self_eq_true, Bool.and_self, true_iff]
    exact not_not.1 fun hn => hout (hcond.2 hn)

/-! ### Mapping and unmapping -/

theorem vmeWindowMmap_of_listed {file : FileId} {vma : Vma} {s : Bridge} {i : WindowIdx}
    {desc : VmeMapping} (hact : (s.window i).active = true)
    (hmem : ⟨desc, some file⟩ ∈ (s.window i).mappings)
    (hcheck : vmeCheckMmapRegion (s.window i).desc desc ((vma.vmPgoff <<< 12).setWidth 32)
      ((vma.vmEnd - vma.vmStart).setWidth 32) = true) {is : List WindowIdx} (hi : i ∈ is) :
    vmeWindowMmap (fun _ => false) file vma s is = .ok (vmeRemapPfnRange vma) := by
  induction is with
  | nil => cases hi
  | cons j is ih =>
    rw [vmeWindowMmap, if_neg (by simp)]
    dsimp only
    by_cases hj : j = i
    · subst hj
      rw [if_pos]
      simp only [Bool.and_eq_true, List.any_eq_true]
      exact ⟨hact, _, hmem, beq_self_eq_true _, hcheck⟩
    · have hrest : i ∈ is := by
        rcases List.mem_cons.1 hi with hh | hh
        · exact absurd hh.symm hj
        · exact hh
      split
      · rfl
      · exact ih hrest

theorem vmeFindMapping_listed {s s' : Bridge} {env : FindEnv} {mtch placed : VmeMapping}
    {force : Bool} {file : FileId} (hreach : Callable s)
    (hbus : (Call.find env mtch force (some file)).BusOk)
    (hok : vmeFindMapping env mtch force (some file) s = (.ok placed, s')) :
    Callable s' ∧ ∃ i, (s'.window i).active = true ∧
      ⟨placed, some file⟩ ∈ (s'.window i).mappings := by
  have hreach' : Callable s' := by
    refine System.ReachUnder.step (a := .find env mtch force (some file)) hreach hbus ?_
    show (vmeFindMapping env mtch force (some file) s).2 = s'
    rw [hok]
  refine ⟨hreach', ?_⟩
  have hlisted : ∀ (t : Bridge) (i : WindowIdx), (t.window i).active = true →
      finishFind env.kzalloc i mtch (some file) t = (.ok placed, s') →
        (s'.window i).active = true ∧ ⟨placed, some file⟩ ∈ (s'.window i).mappings := by
    intro t i hact hfin
    obtain h | h := finishFind_cases env.kzalloc i mtch (some file) t
    · rw [h] at hfin
      cases hfin
    · rw [h] at hfin
      cases hfin
      rw [Bridge.setWindow_window_self]
      exact ⟨hact, by simp [Window.withMapping]⟩
  obtain ⟨e, he⟩ | ⟨i, hacc, he⟩ | ⟨i, d, t, hacc, hun, hcreate, he⟩ :=
    vmeFindMapping_cases env mtch force (some file) s
  · rw [he] at hok
    cases hok
  · have hpass := List.find?_some hacc
    simp only [Window.accepts, Bool.and_eq_true] at hpass
    exact ⟨i, hlisted s i hpass.1.1.1.1.1 (he ▸ hok)⟩
  · refine ⟨i, hlisted t i ?_ (he ▸ hok)⟩
    obtain ⟨e, h⟩ | ⟨j, start, d', regs, hj, -, -, -, -, h⟩ :=
      vmeCreateWindow_cases env.create (windowFor mtch i) s
    · rw [h] at hcreate
      cases hcreate
    · rw [h] at hcreate
      cases hcreate
      have hnum : (windowFor mtch i).windowNum = i.val := by
        unfold windowFor vmeOptimizeWindowSize
        split <;> rfl
      rw [hnum, windowIndex_val] at hj
      cases hj
      rw [Bridge.created, Bridge.setWindow_window_self]

/-- **Library and driver on one mapping.**  In every state the calls reach, a mapping that a file
was granted, with its range inside its window, is mapped and unmapped as the library means it
exactly when it is mappable; and every granted request is such a mapping of the file. -/
theorem vmeMmap_agrees_iff (k : MmapEnv) {s : Bridge} (hreach : Callable s) (file : FileId) :
    (∀ i desc, (s.window i).active = true → ⟨desc, some file⟩ ∈ (s.window i).mappings →
      InWindow (s.window i).desc desc →
        (MmapAgrees k s file i desc ↔ Mappable (s.window i).desc desc)) ∧
    ∀ env mtch force placed s', (Call.find env mtch force (some file)).BusOk →
      vmeFindMapping env mtch force (some file) s = (.ok placed, s') →
        Callable s' ∧ ∃ i, (s'.window i).active = true ∧
          ⟨placed, some file⟩ ∈ (s'.window i).mappings := by
  refine ⟨?_, fun env mtch force placed s' hbus hok => vmeFindMapping_listed hreach hbus hok⟩
  intro i desc hact hmem hin
  have hw := tableOk_of_callable hreach i hact
  have hlt := desc.pciAddrl.isLt
  have hsizeu := (s.window i).desc.sizel.isLt
  by_cases hempty : desc.sizel.toNat = 0 ∧ desc.pciAddrl.toNat % 4096 = 0
  · refine iff_of_false ?_ fun hmap => hmap.1 hempty
    rintro ⟨vma, hvma, -⟩
    rw [vmeMmap_empty k hempty.1 hempty.2] at hvma
    cases hvma
  by_cases hwrap : desc.pciAddrl.toNat + desc.sizel.toNat = 2 ^ 32
  · have hfits := hw.fits
    have hpci := hw.pciAligned
    have hsize := hw.sizeAligned
    obtain ⟨hlo, hhi⟩ := hin
    refine iff_of_false ?_ fun hmap => ?_
    · rintro ⟨vma, hvma, -⟩
      rw [vmeMmap_wraps k hwrap (by omega)] at hvma
      cases hvma
    · have hcond := hmap.2
      omega
  have hend : desc.pciAddrl.toNat + desc.sizel.toNat < 2 ^ 32 := by
    have hfits := hw.fits
    have hhi := hin.2
    omega
  obtain ⟨vma, hvma, hoff, hlen, hpages, hstop⟩ := vmeMmap_eq_some k hend hempty
  have hcheck : vmeCheckMmapRegion (s.window i).desc desc ((vma.vmPgoff <<< 12).setWidth 32)
      ((vma.vmEnd - vma.vmStart).setWidth 32) = true ↔
        (s.window i).desc.pciAddrl.toNat + (s.window i).desc.sizel.toNat < 2 ^ 32 ∨
          2 ^ 32 - 4096 < desc.pciAddrl.toNat + desc.sizel.toNat := by
    refine vmeCheckMmapRegion_iff hw.pciAligned hw.sizeAligned hw.fits hin hend ?_ ?_
    · rw [hoff, pageAddr_shift, BitVec.toNat_setWidth, pageAddr_toNat, BitVec.toNat_setWidth]
      omega
    · rw [hlen, BitVec.toNat_setWidth, hpages]
  constructor
  · rintro ⟨vma', hsome, hok, -⟩
    cases hvma.symm.trans hsome
    have hcond := hcheck.1 hok
    exact ⟨hempty, by omega⟩
  · intro hmap
    have hok := hcheck.2 (hmap.2.imp_right And.left)
    have hincr := pageAlignedSizeIncr_toNat desc
    have hinside : desc.pciAddrl.toNat % 4096 < pagesOf desc := by
      rw [pagesOf]
      omega
    have hva : (userVa vma desc).toNat = vma.vmStart.toNat + desc.pciAddrl.toNat % 4096 := by
      have hltEnd := vma.vmEnd.isLt
      rw [userVa, BitVec.toNat_add_of_lt (by omega), hincr]
    refine ⟨vma, hvma, hok, vmeWindowMmap_of_listed hact hmem hok (List.mem_finRange i),
      by omega, by omega, ?_, ?_⟩
    · have hoffset : userVa vma desc - vma.vmStart = pageAlignedSizeIncr desc := by
        rw [userVa, BitVec.add_comm, BitVec.add_sub_cancel]
      show (vma.vmPgoff <<< 12).toNat + (userVa vma desc - vma.vmStart).toNat = _
      rw [hoffset, hincr, hoff, pageAddr_shift, pageAddr_toNat, BitVec.toNat_setWidth]
      omega
    · rw [vmeMunmap, userVa, BitVec.add_sub_cancel, hlen]

/-- An address space of 128T in which ranges up to 1T go to its top. -/
def highPlace : MmapEnv where
  taskSize := 2 ^ 47
  place len := if len.toNat ≤ 2 ^ 40 then 0x7f0000000000#64 else 0#64
  room := by omega
  aligned len := by
    split
    · rfl
    · rfl
  fits len hlen := by
    split
    · show 2 ^ 47 - 2 ^ 40 + len.toNat ≤ 2 ^ 47
      omega
    · show 0 + len.toNat ≤ 2 ^ 47
      omega

/-- The page that file 7 was granted. -/
def pageDesc : VmeMapping :=
  { userRequest 0x20000 0x1000 with kernelVa := 0x1000, pciAddrl := 0x80000000 }

theorem vmeMmap_agrees_iff_page : MmapAgrees highPlace pageMapped 7 0 pageDesc :=
  ((vmeMmap_agrees_iff highPlace pageMapped_callable 7).1 0 pageDesc rfl (List.mem_singleton.2 rfl)
    ⟨by decide, by decide⟩).2 ⟨by decide, Or.inl (by decide)⟩

/-- A bus whose free region is the last 64K below 4G. -/
def grantTop : FindEnv := { grantAll with create := ⟨false, some 0xffff0000#32, 0x1000#64⟩ }

/-- A table on which file 7 has one page mapped in that region. -/
def topMapped : Bridge :=
  (vmeFindMapping grantTop (userRequest 0x20000 0x1000) true (some 7) .initial).2

/-- A page in a window that ends at 4G: the driver compares with a window end of zero. -/
theorem not_mmapAgrees_topWindow :
    ¬ ∀ (k : MmapEnv) (s : Bridge) (file : FileId) (i : WindowIdx) (desc : VmeMapping),
      Callable s → (s.window i).active = true → ⟨desc, some file⟩ ∈ (s.window i).mappings →
      InWindow (s.window i).desc desc → MmapAgrees k s file i desc := by
  intro h
  have hregion : grantTop.create.region = some 0xffff0000#32 := rfl
  have hbus : (Call.find grantTop (userRequest 0x20000 0x1000) true (some 7)).BusOk :=
    userRequest_busOk hregion rfl (by decide) _ _
  have hreach : Callable topMapped :=
    System.ReachUnder.step (a := .find grantTop (userRequest 0x20000 0x1000) true (some 7))
      (System.ReachUnder.init (s := Bridge.initial) rfl) hbus rfl
  obtain ⟨vma, hvma, hcheck, -⟩ := h highPlace topMapped 7 0
    { pageDesc with pciAddrl := 0xffff0000 } hreach rfl (List.mem_singleton.2 rfl)
    ⟨by decide, by decide⟩
  have hsome : vmeMmap highPlace { pageDesc with pciAddrl := 0xffff0000 }
      = some ⟨0x7f0000000000, 0x7f0000001000, 0xffff0⟩ := by decide
  cases hsome.symm.trans hvma
  revert hcheck
  decide

end KernelModules.Vmebridge
