import KernelModules.Vmebridge.WindowTranslation

/-!
# Mapping a window into user space

`vme_window_mmap` looks for a mapping of the calling file whose pages are the ones asked
for, and then hands the request to `io_remap_pfn_range`.  The check works on `unsigned int`
copies of the offset and the size; the remapping takes the 64-bit values.

* `vmeCheckMmapRegion` and `vmeWindowMmap` follow the source, and `Remap` is what reaches
  `io_remap_pfn_range`;
* `Contained` says that the range remapped lies in an active window on which the file has a
  mapping;
* `vmeWindowMmap_contained` shows that an accepted request is contained when it ends below
  4G, and that this is exact up to the one window that ends there.
-/

namespace KernelModules.Vmebridge

open KernelModules.Lib

/-- What `vme_window_mmap` reads of a `struct vm_area_struct`. -/
structure Vma where
  vmStart : BitVec 64
  vmEnd : BitVec 64
  vmPgoff : BitVec 64
  deriving DecidableEq, Repr

/-- The user address, page frame and size handed to `io_remap_pfn_range`. -/
structure Remap where
  addr : BitVec 64
  pfn : BitVec 64
  size : BitVec 64
  deriving DecidableEq, Repr

/-- First physical byte: the page frame shifted by `PAGE_SHIFT`. -/
def Remap.start (r : Remap) : ℕ := (r.pfn <<< 12).toNat

/-- One past the last physical byte. -/
def Remap.stop (r : Remap) : ℕ := r.start + r.size.toNat

/-- `PAGE_MASK`, as it acts on an `unsigned int`. -/
def pageMask : U32 := ~~~0xfff#32

/-- `vme_check_mmap_region`. -/
def vmeCheckMmapRegion (window mapping : VmeMapping) (addr size : U32) : Bool :=
  if addr < window.pciAddrl ∨ window.pciAddrl + window.sizel < addr + size then false
  else
    let alignedStart := mapping.pciAddrl &&& pageMask
    let stop := mapping.pciAddrl + mapping.sizel
    let alignedEnd := if stop &&& ~~~pageMask ≠ 0 then (stop &&& pageMask) + 0x1000#32 else stop
    alignedStart == addr && alignedEnd == addr + size

/-- `vme_remap_pfn_range`. -/
def vmeRemapPfnRange (vma : Vma) : Remap := ⟨vma.vmStart, vma.vmPgoff, vma.vmEnd - vma.vmStart⟩

/-- `vme_window_mmap` over the windows still to be looked at.  `addr` and `size` are
`unsigned int` variables. -/
def vmeWindowMmap (interrupted : WindowIdx → Bool) (file : FileId) (vma : Vma) (s : Bridge) :
    List WindowIdx → Except Errno Remap
  | [] => .error .EINVAL
  | i :: is =>
    if interrupted i then .error .ERESTARTSYS
    else
      let w := s.window i
      let addr := (vma.vmPgoff <<< 12).setWidth 32
      let size := (vma.vmEnd - vma.vmStart).setWidth 32
      if w.active && w.mappings.any fun m =>
          m.file == some file && vmeCheckMmapRegion w.desc m.desc addr size then
        .ok (vmeRemapPfnRange vma)
      else vmeWindowMmap interrupted file vma s is

/-! ### Containment -/

/-- Window `i` is active and carries a mapping of the file. -/
def Bridge.UsedBy (s : Bridge) (file : FileId) (i : WindowIdx) : Prop :=
  (s.window i).active = true ∧ ∃ m ∈ (s.window i).mappings, m.file = some file

/-- The remapped range lies in the PCI range of a window used by the file. -/
def Contained (s : Bridge) (file : FileId) (r : Remap) : Prop :=
  ∃ i, s.UsedBy file i ∧ (s.window i).desc.pciAddrl.toNat ≤ r.start ∧
    r.stop ≤ (s.window i).desc.pciAddrl.toNat + (s.window i).desc.sizel.toNat

/-- No active window runs over the 4G boundary. -/
def NoWindowWraps (s : Bridge) : Prop :=
  ∀ i, (s.window i).active = true →
    (s.window i).desc.pciAddrl.toNat + (s.window i).desc.sizel.toNat ≤ 2 ^ 32

theorem noWindowWraps_of_callable {s : Bridge} (h : Callable s) : NoWindowWraps s :=
  fun i hi => (tableOk_of_callable h i hi).fits

theorem vmeWindowMmap_ok {interrupted : WindowIdx → Bool} {file : FileId} {vma : Vma} {s : Bridge}
    {is : List WindowIdx} {r : Remap} (h : vmeWindowMmap interrupted file vma s is = .ok r) :
    r = vmeRemapPfnRange vma ∧ ∃ i, s.UsedBy file i ∧ ∃ mapping,
      vmeCheckMmapRegion (s.window i).desc mapping ((vma.vmPgoff <<< 12).setWidth 32)
        ((vma.vmEnd - vma.vmStart).setWidth 32) = true := by
  induction is with
  | nil => cases h
  | cons i is ih =>
    simp only [vmeWindowMmap] at h
    split at h
    · cases h
    · split at h
      · rename_i hacc
        cases h
        simp only [Bool.and_eq_true, List.any_eq_true, beq_iff_eq] at hacc
        obtain ⟨hact, m, hm, hfile, hcheck⟩ := hacc
        exact ⟨rfl, i, ⟨hact, m, hm, hfile⟩, m.desc, hcheck⟩
      · exact ih h

theorem vmeCheckMmapRegion_bounds {window mapping : VmeMapping} {addr size : U32}
    (h : vmeCheckMmapRegion window mapping addr size = true) :
    window.pciAddrl.toNat ≤ addr.toNat ∧
      (addr.toNat + size.toNat) % 2 ^ 32
        ≤ (window.pciAddrl.toNat + window.sizel.toNat) % 2 ^ 32 := by
  unfold vmeCheckMmapRegion at h
  split at h
  · cases h
  · rename_i hb
    rw [not_or, BitVec.lt_def, BitVec.lt_def, BitVec.toNat_add, BitVec.toNat_add] at hb
    omega

theorem contained_of_stop_lt {interrupted : WindowIdx → Bool} {file : FileId} {vma : Vma}
    {s : Bridge} {is : List WindowIdx} {r : Remap}
    (h : vmeWindowMmap interrupted file vma s is = .ok r) (hstop : r.stop < 2 ^ 32) :
    Contained s file r := by
  obtain ⟨rfl, i, hused, mapping, hcheck⟩ := vmeWindowMmap_ok h
  obtain ⟨hlo, hhi⟩ := vmeCheckMmapRegion_bounds hcheck
  rw [BitVec.toNat_setWidth] at hlo hhi
  rw [BitVec.toNat_setWidth] at hhi
  refine ⟨i, hused, ?_, ?_⟩
  · simp only [Remap.stop, Remap.start, vmeRemapPfnRange] at hstop ⊢
    omega
  · simp only [Remap.stop, Remap.start, vmeRemapPfnRange] at hstop ⊢
    omega

/-- **Containment of an accepted request.**  It holds when the range ends below 4G.  Where no
window wraps, it holds in no other case but that of a range that ends at 4G together with a
window of the file. -/
theorem vmeWindowMmap_contained {interrupted : WindowIdx → Bool} {file : FileId} {vma : Vma}
    {s : Bridge} {r : Remap}
    (h : vmeWindowMmap interrupted file vma s (List.finRange 8) = .ok r) :
    (r.stop < 2 ^ 32 → Contained s file r) ∧
    (NoWindowWraps s → (Contained s file r ↔ r.stop < 2 ^ 32 ∨ (r.stop = 2 ^ 32 ∧
      ∃ i, s.UsedBy file i ∧ (s.window i).desc.pciAddrl.toNat ≤ r.start ∧
        (s.window i).desc.pciAddrl.toNat + (s.window i).desc.sizel.toNat = 2 ^ 32))) := by
  refine ⟨contained_of_stop_lt h, fun hwrap => ⟨?_, ?_⟩⟩
  · rintro ⟨i, hused, hlo, hhi⟩
    have hend := hwrap i hused.1
    by_cases hlt : r.stop < 2 ^ 32
    · exact .inl hlt
    · exact .inr ⟨by omega, i, hused, hlo, by omega⟩
  · rintro (hlt | ⟨heq, i, hused, hlo, hend⟩)
    · exact contained_of_stop_lt h hlt
    · exact ⟨i, hused, hlo, by omega⟩

/-- A table on which file 7 has one page mapped at PCI address `0x80000000`. -/
def pageMapped : Bridge :=
  (vmeFindMapping grantAll (userRequest 0x20000 0x1000) true (some 7) .initial).2

/-- Mapping that page is accepted and contained. -/
theorem vmeWindowMmap_contained_page :
    Contained pageMapped 7 ⟨0x400000#64, 0x80000#64, 0x1000#64⟩ := by
  have hok : vmeWindowMmap (fun _ => false) 7 ⟨0x400000, 0x401000, 0x80000⟩ pageMapped
      (List.finRange 8) = .ok ⟨0x400000#64, 0x80000#64, 0x1000#64⟩ := rfl
  exact (vmeWindowMmap_contained hok).1 (by decide)

theorem pageMapped_callable : Callable pageMapped :=
  System.ReachUnder.step (a := .find grantAll (userRequest 0x20000 0x1000) true (some 7))
    (System.ReachUnder.init (s := Bridge.initial) rfl) (grantAll_busOk (by decide) _ _) rfl

/-- The same request shifted by 4G is accepted as well, and remaps a page that no window
contains. -/
theorem vmeWindowMmap_not_contained :
    ¬ ∀ (interrupted : WindowIdx → Bool) (file : FileId) (vma : Vma) (s : Bridge) (r : Remap),
      vmeWindowMmap interrupted file vma s (List.finRange 8) = .ok r → Contained s file r := by
  intro h
  obtain ⟨i, hused, -, hstop⟩ :=
    h (fun _ => false) 7 ⟨0x400000, 0x401000, 0x180000⟩ pageMapped _ rfl
  have hend := noWindowWraps_of_callable pageMapped_callable i hused.1
  rw [show (vmeRemapPfnRange ⟨0x400000, 0x401000, 0x180000⟩).stop = 0x180001000 from rfl] at hstop
  omega

end KernelModules.Vmebridge
