import KernelModules.Vmebridge.Dma

/-!
# DMA addresses beyond 4G

`tsi148_fill_dma_desc` keeps the low word of a bus address and clears the upper ones, and
`tsi148_dma_link_add` computes the end of a range of VME addresses in an `unsigned int`.  On a bus
with addresses of 64 bits and for any range of VME addresses:

* `Requested` is a request that the driver accepts, wherever its segments are mapped;
* `linkLoop_apart` and `chainLoop_apart`: what has been written is not written again;
* `chainLoop_spoiled`: a segment that starts above 4G gets a descriptor with another address, and a
  segment whose VME range does not end below 4G gets none;
* `vmeDmaSetup_addresses_iff`: the chain carries the bytes of the buffer exactly if there is no such
  segment.
-/

namespace KernelModules.Vmebridge

open Function KernelModules.Lib KernelModules.Lib.Word

/-- The segment holds the bytes of the buffer from position `p` on, and does not cross a multiple of
4G, the boundary of `dma_get_seg_boundary`. -/
structure Segment.MapsTo (byte : ℕ → ℕ) (seg : Segment) (p : ℕ) : Prop where
  pos : 0 < seg.len.toNat
  addr : ∀ j < seg.len.toNat, seg.addr.toNat + j = byte (p + j)
  boundary : (seg.addr.toNat + seg.len.toNat - 1) / 2 ^ 32 = seg.addr.toNat / 2 ^ 32

/-- A request that `__vme_do_dma` accepts.  The pages are found, and `pci_map_sg` maps the
scatterlist to segments that hold the bytes of the buffer, byte `k` at bus address `byte k`. -/
structure Requested (env : DmaEnv) (desc : VmeDma) (toUser : Bool) (byte : ℕ → ℕ) (vmeAddr : U32) :
    Prop where
  length : desc.length ≠ 0
  dir : desc.dir = .toDevice ∨ desc.dir = .fromDevice
  attributes : (tsi148DmaSetupSrc desc).isSome ∧ (tsi148DmaSetupDst desc).isSome ∧
    (tsi148DmaSetupCtl desc.ctrl).isSome
  noOverflow : ¬ desc.uaddr + desc.length.setWidth 64 < desc.uaddr
  pages : env.FindsPages desc toUser
  mapped : Tiling Segment.size (Segment.MapsTo byte) 0 (env.pciMapSg (env.sgl desc))
    desc.length.toNat
  vmeStart : getVmeaddr desc = some vmeAddr
  fresh : env.pool.Fresh

/-- The request is set up, and the chain behind the link register carries its bytes from and to
their full addresses. -/
def SetUpCarrying (env : DmaEnv) (desc : VmeDma) (toUser : Bool) (byte : ℕ → ℕ) (vmeAddr : U32)
    (ch : ChannelIdx) (s : DmaState) : Prop :=
  ∃ s', vmeDmaSetup env desc toUser ch s = (.ready (env.sgl desc), s') ∧
    Carries byte desc vmeAddr.toNat desc.length.toNat (s'.chain ch) (s'.dnlal ch)

/-- The addresses of the two buses are below 4G, and so are the ends of the VME ranges. -/
structure AddressesFit (desc : VmeDma) (vme0 q : ℕ) (segs : List Segment) : Prop where
  vme : VmeRoom desc vme0 q segs
  bus : ∀ seg ∈ segs, seg.addr.toNat < 2 ^ 32

theorem Segment.MapsTo.fits {byte : ℕ → ℕ} {seg : Segment} {p : ℕ} (h : seg.MapsTo byte p)
    (hlow : seg.addr.toNat < 2 ^ 32) : seg.Fits byte p := by
  have hpos := h.pos
  have hboundary := h.boundary
  rw [Nat.div_eq_of_lt hlow] at hboundary
  have hend : seg.addr.toNat + seg.len.toNat - 1 < 2 ^ 32 := by omega
  exact ⟨h.pos, by omega, h.addr⟩

theorem tiling_fits {byte : ℕ → ℕ} {segs : List Segment} {p q : ℕ}
    (h : Tiling Segment.size (Segment.MapsTo byte) p segs q)
    (hlow : ∀ seg ∈ segs, seg.addr.toNat < 2 ^ 32) :
    Tiling Segment.size (Segment.Fits byte) p segs q := by
  induction h with
  | nil p => exact .nil p
  | cons hseg hrest ih =>
    exact .cons (hseg.fits (hlow _ List.mem_cons_self))
      (ih fun seg hmem => hlow seg (List.mem_cons_of_mem _ hmem))

/-! ### What has been written stays -/

/-- The blocks `pre` are the first ones of the list, and hold what `mem` holds there. -/
structure Apart (pre : List DmaAddr) (mem : DmaAddr → Tsi148DmaDesc) (c : Chain) : Prop where
  list : ∃ more, c.hwDescList = pre ++ more
  used : ∀ a ∈ pre, a ∈ c.pool
  same : ∀ a ∈ pre, c.mem a = mem a

namespace Apart

variable {pre : List DmaAddr} {mem : DmaAddr → Tsi148DmaDesc} {c : Chain} {env : PoolEnv}

theorem store (h : Apart pre mem c) {a : DmaAddr} (ha : a ∉ pre) (tsi : Tsi148DmaDesc) :
    Apart pre mem (c.store a tsi) := by
  refine ⟨h.list, h.used, fun b hb => ?_⟩
  rw [Chain.store_ne c tsi fun heq : b = a => ha (heq ▸ hb)]
  exact h.same b hb

theorem take (henv : env.Fresh) (h : Apart pre mem c) {phys : DmaAddr} {c' : Chain}
    (halloc : env.alloc c.asked c.pool = some phys) (hmem : c'.mem = c.mem)
    (hlist : c'.hwDescList = c.hwDescList ++ [phys]) (hpool : c'.pool = phys :: c.pool) :
    Apart pre mem c' ∧ phys ∉ pre := by
  obtain ⟨more, hmore⟩ := h.list
  refine ⟨⟨⟨more ++ [phys], ?_⟩, fun a ha => ?_, fun a ha => ?_⟩, fun hin => ?_⟩
  · rw [hlist, hmore, List.append_assoc]
  · rw [hpool]
    exact List.mem_cons_of_mem _ (h.used a ha)
  · rw [hmem]
    exact h.same a ha
  · exact (henv _ _ _ halloc).1 (h.used phys hin)

end Apart

theorem linkLoop_apart {env : PoolEnv} (henv : env.Fresh) {desc : VmeDma} {dsat ddat : U32}
    {bshift : ℕ} {more : Bool} {vmeEnd : U32} {dmaEnd : DmaAddr} {pre : List DmaAddr}
    {mem : DmaAddr → Tsi148DmaDesc} (fuel : ℕ) {vme len : U32} {dma : DmaAddr}
    {curr next virt : Option DmaAddr} {c c' : Chain} (h : Apart pre mem c)
    (hcurr : ∀ a, curr = some a → a ∉ pre) (hnext : ∀ a, next = some a → a ∉ pre)
    (hdone : linkLoop env desc dsat ddat bshift more vmeEnd dmaEnd fuel vme dma len curr next c =
      .done virt c') :
    Apart pre mem c' ∧ ∀ a, virt = some a → a ∉ pre := by
  induction fuel generalizing vme len dma curr next c with
  | zero =>
    cases hdone
    exact ⟨h, hnext⟩
  | succ fuel ih =>
    unfold linkLoop at hdone
    split at hdone
    case isFalse =>
      cases hdone
      exact ⟨h, hnext⟩
    case isTrue =>
      cases curr with
      | none => cases hdone
      | some a =>
        have ha := hcurr a rfl
        simp only at hdone
        generalize tsi148FillDmaDesc desc vme dma _ dsat ddat (c.mem a) = tsi at hdone
        have hstore := h.store ha tsi
        split at hdone
        case isFalse => exact ih hstore hnext hnext hdone
        case isTrue =>
          obtain ⟨c'', hinit⟩ | ⟨phys, c'', hinit, halloc, hmem, hlist, hpool⟩ :=
            hwdescInit_cases env (c.store a tsi)
          · rw [hinit] at hdone
            cases hdone
          · rw [hinit] at hdone
            obtain ⟨htake, hphys⟩ := hstore.take henv halloc hmem hlist hpool
            have hnew : ∀ b, some phys = some b → b ∉ pre := fun b hb =>
              Option.some.inj hb ▸ hphys
            exact ih (htake.store ha _) hnew hnew hdone

theorem chainLoop_apart {env : PoolEnv} (henv : env.Fresh) {desc : VmeDma} {dsat ddat : U32}
    {bshift : ℕ} {pre : List DmaAddr} {mem : DmaAddr → Tsi148DmaDesc} (segs : List Segment)
    {vmeAddr : U32} {curr virt : Option DmaAddr} {c c' : Chain} (h : Apart pre mem c)
    (hcurr : ∀ a, curr = some a → a ∉ pre)
    (hdone : chainLoop env desc dsat ddat bshift segs curr vmeAddr c = .done virt c') :
    Apart pre mem c' := by
  induction segs generalizing curr vmeAddr c with
  | nil =>
    cases hdone
    exact h
  | cons seg segs ih =>
    rw [chainLoop] at hdone
    cases curr with
    | none => cases hdone
    | some a =>
      rw [tsi148DmaLinkAdd] at hdone
      split at hdone
      case h_1 curr' c'' heq =>
        obtain ⟨hapart, hcurr'⟩ := linkLoop_apart henv _ h hcurr (by simp) heq
        exact ih hapart hcurr' hdone
      case h_2 => cases hdone
      case h_3 => cases hdone

/-! ### A segment that starts above 4G -/

/-- The blocks `as` hold the pieces `ps`, and the next one holds a piece below 4G. -/
structure Truncated (dir : DmaDir) (as : List DmaAddr) (ps : List Piece) (a : DmaAddr)
    (mem : DmaAddr → Tsi148DmaDesc) : Prop where
  pieces : as.map (fun b => (mem b).piece dir) = ps
  len : 0 < ((mem a).piece dir).len
  pci : ((mem a).piece dir).pci < 2 ^ 32

theorem tsi148FillDmaDesc_low {desc : VmeDma}
    (hdir : desc.dir = .toDevice ∨ desc.dir = .fromDevice) (vme len dsat ddat : U32) (dma : DmaAddr)
    (tsi : Tsi148DmaDesc) :
    ((tsi148FillDmaDesc desc vme dma len dsat ddat tsi).piece desc.dir).len = len.toNat ∧
      ((tsi148FillDmaDesc desc vme dma len dsat ddat tsi).piece desc.dir).pci < 2 ^ 32 := by
  have hlow := (dma.setWidth 32).isLt
  obtain h | h := hdir <;> simp only [tsi148FillDmaDesc, Tsi148DmaDesc.piece, h, join_zero] <;>
    exact ⟨trivial, hlow⟩

theorem pieceLen_pos {bshift : ℕ} (hb : bshift ≤ 11) (vme : U32) {len : U32} {dma dmaEnd : DmaAddr}
    (hlt : dma < dmaEnd) (hseg : dmaEnd.toNat - dma.toNat < 2 ^ 32)
    (hlen : 0 < len.toNat) : 0 < (pieceLen bshift vme dma dmaEnd len).toNat := by
  rw [BitVec.lt_def] at hlt
  have hrest : ((dmaEnd - dma).setWidth 32 : U32).toNat = dmaEnd.toNat - dma.toNat := by
    rw [BitVec.toNat_setWidth, BitVec.toNat_sub]
    omega
  have hcut : ∀ l : U32, 0 < l.toNat →
      0 < (if dmaEnd < dma + l.setWidth 64 then (dmaEnd - dma).setWidth 32 else l : U32).toNat := by
    intro l hpos
    split
    · rw [hrest]
      omega
    · exact hpos
  unfold pieceLen
  by_cases h0 : bshift = 0
  · simp only [h0, ne_eq, not_true_eq_false, if_false]
    exact hcut len hlen
  · simp only [h0, ne_eq, not_false_eq_true, if_true]
    refine hcut _ ?_
    have hmod := Nat.mod_lt vme.toNat (Nat.two_pow_pos bshift)
    rw [blockRoom_toNat hb]
    omega

theorem linkLoop_truncated {env : PoolEnv} (henv : env.Fresh) {desc : VmeDma}
    (hdir : desc.dir = .toDevice ∨ desc.dir = .fromDevice) {dsat ddat : U32} {bshift : ℕ}
    (hb : bshift ≤ 11) {more : Bool} {vmeEnd : U32} {dmaEnd : DmaAddr} {fuel : ℕ} {vme len : U32}
    {dma curr start : DmaAddr} {virt : Option DmaAddr} {c c' : Chain} {as : List DmaAddr}
    {ps : List Piece} (h : Built desc.dir c start as ps curr) (hlen : 0 < len.toNat)
    (hseg : dmaEnd.toNat - dma.toNat < 2 ^ 32) (hcond : vme < vmeEnd ∧ dma < dmaEnd)
    (hdone : linkLoop env desc dsat ddat bshift more vmeEnd dmaEnd (fuel + 1) vme dma len
      (some curr) none c = .done virt c') :
    ∃ mem, Apart (as ++ [curr]) mem c' ∧ (∀ a, virt = some a → a ∉ as ++ [curr]) ∧
      Truncated desc.dir as ps curr mem := by
  rw [linkLoop, if_pos hcond] at hdone
  simp only at hdone
  have hpos := pieceLen_pos hb vme hcond.2 hseg hlen
  generalize pieceLen bshift vme dma dmaEnd len = pl at hdone hpos
  obtain ⟨hplen, hlow⟩ := tsi148FillDmaDesc_low hdir vme pl dsat ddat dma (c.mem curr)
  generalize tsi148FillDmaDesc desc vme dma pl dsat ddat (c.mem curr) = tsi at hdone hplen hlow
  have hused : ∀ a ∈ as ++ [curr], a ∈ c.pool := fun a ha =>
    h.sound.inUse a (by rw [h.list]; exact ha)
  have hapart : Apart (as ++ [curr]) (c.store curr tsi).mem (c.store curr tsi) :=
    ⟨⟨[], by rw [Chain.store_hwDescList, h.list, List.append_nil]⟩, hused, fun _ _ => rfl⟩
  split at hdone
  case isFalse =>
    obtain ⟨hend, hvirt⟩ := linkLoop_apart henv fuel hapart (by simp) (by simp) hdone
    refine ⟨_, hend, hvirt, h.pieces_store tsi, ?_, ?_⟩
    · rw [Chain.store_self, hplen]
      exact hpos
    · rw [Chain.store_self]
      exact hlow
  case isTrue =>
    obtain ⟨c'', hinit⟩ | ⟨phys, c'', hinit, halloc, hmem, hlist, hpool⟩ :=
      hwdescInit_cases env (c.store curr tsi)
    · rw [hinit] at hdone
      cases hdone
    · rw [hinit] at hdone
      obtain ⟨htake, hphys⟩ := hapart.take henv halloc hmem hlist hpool
      have hlinked : Apart (as ++ [curr]) (c''.store curr ((c''.mem curr).linkTo phys)).mem
          (c''.store curr ((c''.mem curr).linkTo phys)) :=
        ⟨htake.list, htake.used, fun _ _ => rfl⟩
      have hnew : ∀ b, some phys = some b → b ∉ as ++ [curr] := fun b hb =>
        Option.some.inj hb ▸ hphys
      obtain ⟨hend, hvirt⟩ := linkLoop_apart henv fuel hlinked hnew hnew hdone
      refine ⟨_, hend, hvirt, ?_, ?_, ?_⟩
      · rw [← h.pieces_store tsi]
        refine List.map_congr_left fun a ha => ?_
        rw [Chain.store_ne _ _ (h.curr_not_mem a ha), hmem]
      · rw [Chain.store_self, Tsi148DmaDesc.linkTo_piece, hmem, Chain.store_self, hplen]
        exact hpos
      · rw [Chain.store_self, Tsi148DmaDesc.linkTo_piece, hmem, Chain.store_self]
        exact hlow

/-! ### The loop over the segments -/

/-- Behind pieces that are right up to position `p` there is one at another address. -/
def Spoiled (byte : ℕ → ℕ) (desc : VmeDma) (vme0 q : ℕ) (c : Chain) : Prop :=
  ∃ as a more ps p, c.hwDescList = as ++ a :: more ∧
    as.map (fun b => (c.mem b).piece desc.dir) = ps ∧
    Tiling Piece.len (Piece.Fits byte desc vme0) 0 ps p ∧ p < q ∧
    0 < ((c.mem a).piece desc.dir).len ∧ ((c.mem a).piece desc.dir).pci ≠ byte p

theorem Truncated.spoiled {byte : ℕ → ℕ} {desc : VmeDma} {vme0 p q : ℕ} {as : List DmaAddr}
    {ps : List Piece} {a : DmaAddr} {mem : DmaAddr → Tsi148DmaDesc} {c : Chain}
    (h : Truncated desc.dir as ps a mem) (hapart : Apart (as ++ [a]) mem c)
    (htile : Tiling Piece.len (Piece.Fits byte desc vme0) 0 ps p) (hp : p < q)
    (hhigh : 2 ^ 32 ≤ byte p) : Spoiled byte desc vme0 q c := by
  obtain ⟨more, hlist⟩ := hapart.list
  have ha : c.mem a = mem a := hapart.same a (by simp)
  refine ⟨as, a, more, ps, p, by rw [hlist, List.append_assoc, List.singleton_append], ?_, htile,
    hp, ?_, ?_⟩
  · rw [← h.pieces]
    refine List.map_congr_left fun b hb => ?_
    rw [hapart.same b (List.mem_append_left _ hb)]
  · rw [ha]
    exact h.len
  · rw [ha]
    exact (h.pci.trans_le hhigh).ne

theorem Spoiled.not_carries {byte : ℕ → ℕ} {desc : VmeDma} {vme0 q : ℕ} {c : Chain}
    (h : Spoiled byte desc vme0 q c) (dnlal : U32) : ¬ Carries byte desc vme0 q c dnlal := by
  intro hcarries
  obtain ⟨as, a, more, ps, p, hlist, hps, htile, hp, hlen, hpci⟩ := h
  have hbytes := hcarries.bytes
  have hprefix : as.flatMap (fun b => ((c.mem b).piece desc.dir).pciBytes) =
      (List.range p).map byte := by
    have hflat : as.flatMap (fun b => ((c.mem b).piece desc.dir).pciBytes) =
        ps.flatMap Piece.pciBytes := by
      rw [← hps, List.flatMap_map]
    rw [hflat, htile.flatMap_eq (f := byte)]
    · simp
    · intro x k _ _ hfit
      exact List.map_congr_left fun j hj => hfit.pci j (List.mem_range.mp hj)
  obtain ⟨n, hn⟩ : ∃ n, ((c.mem a).piece desc.dir).len = n + 1 := ⟨_, (Nat.succ_pred hlen.ne').symm⟩
  rw [hlist, List.flatMap_append, hprefix, List.flatMap_cons] at hbytes
  have hat := congrArg (fun l => l[p]?) hbytes
  simp only [List.getElem?_append_right (le_of_eq (by simp : ((List.range p).map byte).length = p)),
    List.length_map, List.length_range, Nat.sub_self, List.getElem?_map, List.getElem?_range hp,
    Option.map_some, Piece.pciBytes, hn] at hat
  rw [List.range_succ_eq_map, List.map_cons, List.cons_append, List.getElem?_cons_zero] at hat
  exact hpci (Option.some.inj hat)

theorem linkLoop_stop {env : PoolEnv} {desc : VmeDma} {dsat ddat : U32} {bshift : ℕ} {more : Bool}
    {vmeEnd : U32} {dmaEnd : DmaAddr} (fuel : ℕ) {vme len : U32} {dma : DmaAddr}
    {curr next : Option DmaAddr} {c : Chain} (h : ¬ (vme < vmeEnd ∧ dma < dmaEnd)) :
    linkLoop env desc dsat ddat bshift more vmeEnd dmaEnd fuel vme dma len curr next c
      = .done next c := by
  cases fuel with
  | zero => rfl
  | succ fuel =>
    unfold linkLoop
    rw [if_neg h]

theorem noWrap_of_lt {vmeAddr len : U32} (h : vmeAddr < vmeAddr + len) :
    vmeAddr.toNat + len.toNat < 2 ^ 32 := by
  rw [BitVec.lt_def, BitVec.toNat_add] at h
  have hlen := len.isLt
  have hvme := vmeAddr.isLt
  omega

theorem AddressesFit.cons {desc : VmeDma} {vme0 p q : ℕ} {vmeAddr : U32} {seg : Segment}
    {segs : List Segment} (h : AddressesFit desc vme0 q segs)
    (hvme : vmeAddr.toNat = if desc.novmeinc = 0 then vme0 + p else vme0)
    (hroom : vmeAddr.toNat + seg.len.toNat < 2 ^ 32) (hlow : seg.addr.toNat < 2 ^ 32) :
    AddressesFit desc vme0 q (seg :: segs) := by
  refine ⟨h.vme.cons hvme hroom, fun x hx => ?_⟩
  rcases List.mem_cons.mp hx with rfl | hx
  · exact hlow
  · exact h.bus x hx

theorem chainLoop_spoiled {env : PoolEnv} (henv : env.Fresh) {desc : VmeDma}
    (hdir : desc.dir = .toDevice ∨ desc.dir = .fromDevice) (dsat ddat : U32) {byte : ℕ → ℕ}
    {vme0 : ℕ} {start : DmaAddr} {mem : DmaAddr → Tsi148DmaDesc} {segs : List Segment}
    (hne : segs ≠ []) {curr : DmaAddr} {vmeAddr : U32} {virt : Option DmaAddr} {c c' : Chain}
    {as : List DmaAddr} {ps : List Piece} {p q : ℕ}
    (htile : Tiling Segment.size (Segment.MapsTo byte) p segs q)
    (hvme : vmeAddr.toNat = if desc.novmeinc = 0 then vme0 + p else vme0)
    (hbad : ¬ AddressesFit desc vme0 q segs) (hbuilt : Built desc.dir c start as ps curr)
    (hpend : Pending mem c curr) (hps : Tiling Piece.len (Piece.Fits byte desc vme0) 0 ps p)
    (hdone : chainLoop env desc dsat ddat (tsi148GetBshift desc) segs (some curr) vmeAddr c
      = .done virt c') :
    Spoiled byte desc vme0 q c' ∨ ∃ b, Pending mem c' b := by
  induction segs generalizing curr vmeAddr c as ps p with
  | nil => exact absurd rfl hne
  | cons seg segs ih =>
    cases htile with
    | cons hseg hrest =>
      have hpos := hseg.pos
      have hle := hrest.le
      unfold Segment.size at hle
      rw [chainLoop, tsi148DmaLinkAdd] at hdone
      by_cases hcond : vmeAddr < vmeAddr + seg.len ∧ seg.addr < seg.addr + seg.len.setWidth 64
      · have hroom := noWrap_of_lt hcond.1
        have hdma : (seg.addr + seg.len.setWidth 64).toNat - seg.addr.toNat < 2 ^ 32 := by
          rw [BitVec.toNat_add, BitVec.toNat_setWidth]
          have hlen := seg.len.isLt
          omega
        by_cases hhigh : 2 ^ 32 ≤ seg.addr.toNat
        · -- the descriptor at position `p` holds the low word of the address
          have hbyte : 2 ^ 32 ≤ byte p := by
            have hfirst := hseg.addr 0 hpos
            rw [Nat.add_zero, Nat.add_zero] at hfirst
            omega
          obtain ⟨n, hn⟩ : ∃ n, seg.len.toNat = n + 1 := ⟨_, (Nat.succ_pred hpos.ne').symm⟩
          rw [hn] at hdone
          split at hdone
          case h_1 curr' c'' heq =>
            obtain ⟨mem', hapart, hvirt, htrunc⟩ := linkLoop_truncated henv hdir
              (tsi148GetBshift_le desc) hbuilt hpos hdma hcond heq
            have hend := chainLoop_apart henv segs hapart hvirt hdone
            exact .inl (htrunc.spoiled hend hps (by omega) hbyte)
          case h_2 => cases hdone
          case h_3 => cases hdone
        · -- this segment is cut as usual, and it is not the last one
          have hlow : seg.addr.toNat < 2 ^ 32 := Nat.not_le.mp hhigh
          have hfits := hseg.fits hlow
          have hend := hfits.low
          have hdend := hfits.dmaEnd
          have hbad' : ¬ AddressesFit desc vme0 q segs := fun htail =>
            hbad (htail.cons hvme hroom hlow)
          have hne' : segs ≠ [] := by
            rintro rfl
            rw [← hrest.eq_of_nil] at hbad'
            exact hbad' ⟨VmeEnds.nil hvme hroom, fun _ hx => absurd hx List.not_mem_nil⟩
          rw [show (!segs.isEmpty) = true by simpa using hne'] at hdone
          have hvend := BitVec.toNat_add_of_lt hroom
          have hcur : Cursor desc (vmeAddr + seg.len) (seg.addr + seg.len.setWidth 64) vmeAddr
              seg.addr seg.len.toNat := by
            refine ⟨hdend.symm, ?_⟩
            split <;> omega
          obtain ⟨c'', hres⟩ | ⟨new, virt', c'', hres, htile', hout⟩ :=
            linkLoop_spec henv hdir dsat ddat true (by omega) seg.len.toNat none (le_refl _) hpos
              seg.len.isLt hcur (fun _ => rfl) hseg.addr hvme hbuilt
          · rw [hres] at hdone
            cases hdone
          · obtain ⟨-, as', curr', rfl, hbuilt'⟩ := hout.resolve_right fun h => by cases h.1
            obtain ⟨c₂, hres₂⟩ | ⟨b, c₂, hres₂, hpend'⟩ :=
              @linkLoop_pending env henv desc dsat ddat (tsi148GetBshift desc) _ _ mem seg.len.toNat
                _ seg.len _ curr none c hpend (.inr ⟨hpos, hcond⟩)
            · rw [hres] at hres₂
              cases hres₂
            · rw [hres] at hres₂
              cases hres₂
              rw [hres] at hdone
              exact ih hne' hrest (vmeAddr_next hvme hroom) hbad' hbuilt' hpend'
                (hps.append htile') hdone
      · rw [linkLoop_stop _ hcond] at hdone
        cases segs with
        | nil =>
          cases hdone
          exact .inr ⟨curr, hpend⟩
        | cons seg' segs => cases hdone

theorem tsi148DmaSetupChain_spoiled {env : PoolEnv} (henv : env.Fresh) {desc : VmeDma}
    (hdir : desc.dir = .toDevice ∨ desc.dir = .fromDevice) {dsat ddat : U32} {byte : ℕ → ℕ}
    {vmeAddr : U32} (hvme : getVmeaddr desc = some vmeAddr) {segs : List Segment} (hne : segs ≠ [])
    {q : ℕ} (htile : Tiling Segment.size (Segment.MapsTo byte) 0 segs q)
    (hbad : ¬ AddressesFit desc vmeAddr.toNat q segs) {c c' : Chain} (hempty : c.hwDescList = [])
    {dnlal : U32} (hready : tsi148DmaSetupChain env desc dsat ddat segs c = (.ready dnlal, c')) :
    Spoiled byte desc vmeAddr.toNat q c' ∨ ∃ b, Pending c.mem c' b := by
  have hsound : c.Sound := by
    refine ⟨?_, ?_, ?_, ?_⟩ <;> simp [hempty]
  unfold tsi148DmaSetupChain at hready
  obtain ⟨c₁, h⟩ | ⟨start, c₁, h, halloc, hmem, hlist, hpool⟩ := hwdescInit_cases env c
  · rw [h] at hready
    cases hready
  · obtain ⟨hnew, h8, hlt⟩ := henv _ _ _ halloc
    have hbuilt : Built desc.dir c₁ start [] [] start := by
      refine ⟨hsound.append hnew h8 hlt hlist hpool, ?_, rfl, rfl⟩
      rw [hlist, hempty]
    have hpend : Pending c.mem c₁ start := by
      refine ⟨?_, ⟨c.hwDescList, hlist⟩, by rw [hmem], fun a _ => by rw [hmem]⟩
      rw [hpool]
      exact List.mem_cons_self
    rw [h, hvme] at hready
    simp only at hready
    split at hready
    case h_1 virt c₂ hdone =>
      cases hready
      exact chainLoop_spoiled henv hdir dsat ddat hne htile (by split <;> rfl) hbad hbuilt hpend
        (.nil 0) hdone
    case h_2 => cases hready
    case h_3 => cases hready

/-! ### Setting up a request -/

theorem Requested.segments_ne_nil {env : DmaEnv} {desc : VmeDma} {toUser : Bool} {byte : ℕ → ℕ}
    {vmeAddr : U32} (h : Requested env desc toUser byte vmeAddr) :
    env.pciMapSg (env.sgl desc) ≠ [] := by
  intro hnil
  have htile := h.mapped
  rw [hnil] at htile
  exact h.length (BitVec.eq_of_toNat_eq htile.eq_of_nil.symm)

theorem not_setUpCarrying {env : DmaEnv} {desc : VmeDma} {toUser : Bool} {byte : ℕ → ℕ}
    {vmeAddr : U32} (hreq : Requested env desc toUser byte vmeAddr) {ch : ChannelIdx} {s : DmaState}
    (hidle : s.hwDescList ch = [])
    (halloc : (vmeDmaSetup env desc toUser ch s).1 ≠ .error .ENOMEM)
    (hbad : ¬ AddressesFit desc vmeAddr.toNat desc.length.toNat (env.pciMapSg (env.sgl desc)))
    (hmem : ∀ a, (s.mem a).isLast = false) : ¬ SetUpCarrying env desc toUser byte vmeAddr ch s := by
  rintro ⟨s', hs', hcarries⟩
  obtain ⟨dsat, ddat, c, hempty, hsame, out, c', hchain, hends⟩ :=
    vmeDmaSetup_ends hreq.length hreq.attributes hreq.noOverflow hreq.pages hidle halloc
  rw [hs'] at hends
  cases out with
  | error e => cases hends
  | bug => cases hends
  | ready dnlal =>
    obtain ⟨-, hchain', -⟩ := hends
    rw [hchain'] at hcarries
    obtain hspoiled | ⟨b, hpend⟩ := tsi148DmaSetupChain_spoiled hreq.fresh hreq.dir hreq.vmeStart
      hreq.segments_ne_nil hreq.mapped hbad hempty hchain
    · have hspoiled' : Spoiled byte desc vmeAddr.toNat desc.length.toNat { c' with asked := 0 } :=
        hspoiled
      exact hspoiled'.not_carries _ hcarries
    · obtain ⟨as, a, hlist, hlast⟩ := hcarries.last
      obtain ⟨bs, hlist'⟩ := hpend.last
      have hlists : bs ++ [b] = as ++ [a] := hlist'.symm.trans hlist
      obtain ⟨-, hab⟩ := List.append_inj' hlists rfl
      cases hab
      rw [show (c'.mem b).isLast = (s.mem b).isLast by rw [hpend.raw, hsame], hmem b] at hlast
      cases hlast

/-- **DMA addresses.**  A request on an idle channel, with its allocations granted, is set up so
that the chain carries every byte between its full addresses, whatever the pool's memory holds,
exactly if the segments start below 4G on the bus and their VME ranges end below 4G. -/
theorem vmeDmaSetup_addresses_iff {env : DmaEnv} {desc : VmeDma} {toUser : Bool} {byte : ℕ → ℕ}
    {vmeAddr : U32} (hreq : Requested env desc toUser byte vmeAddr) {ch : ChannelIdx} {s : DmaState}
    (hidle : s.hwDescList ch = [])
    (halloc : ∀ mem, (vmeDmaSetup env desc toUser ch { s with mem := mem }).1 ≠ .error .ENOMEM) :
    (∀ mem, SetUpCarrying env desc toUser byte vmeAddr ch { s with mem := mem }) ↔
      AddressesFit desc vmeAddr.toNat desc.length.toNat (env.pciMapSg (env.sgl desc)) := by
  constructor
  · intro hall
    by_contra hbad
    have hnot := not_setUpCarrying hreq (s := { s with mem := fun _ => Tsi148DmaDesc.zero })
      hidle (halloc _) hbad fun _ => Tsi148DmaDesc.zero_isLast
    exact hnot (hall _)
  · intro hfit mem
    obtain ⟨dsat, ddat, c, hempty, -, out, c', hchain, hends⟩ :=
      vmeDmaSetup_ends hreq.length hreq.attributes hreq.noOverflow hreq.pages
        (s := { s with mem := mem }) hidle (halloc mem)
    exact hends.carries hreq.fresh hreq.dir hreq.vmeStart hreq.segments_ne_nil
      (tiling_fits hreq.mapped hfit.bus) hfit.vme hempty hchain (halloc mem)

theorem Segment.Fits.mapsTo {byte : ℕ → ℕ} {seg : Segment} {p : ℕ} (h : seg.Fits byte p) :
    seg.MapsTo byte p := by
  have hpos := h.pos
  have hlow := h.low
  refine ⟨h.pos, h.addr, ?_⟩
  rw [Nat.div_eq_of_lt (by omega), Nat.div_eq_of_lt (by omega)]

theorem blockRead_requested :
    Requested grantDma blockRead true (userByte (0x10000 * ·) 0xff8) 0x1000f0 where
  length := blockRead_accepted.length
  dir := blockRead_accepted.dir
  attributes := blockRead_accepted.attributes
  noOverflow := blockRead_accepted.noOverflow
  pages := blockRead_accepted.pages
  mapped := blockRead_accepted.tiling.imp fun _ _ h => h.1.mapsTo
  vmeStart := rfl
  fresh := smallPool_fresh

theorem vmeDmaSetup_addresses_iff_blockRead :
    SetUpCarrying grantDma blockRead true (userByte (0x10000 * ·) 0xff8) 0x1000f0 0 .idle := by
  have hfit : AddressesFit blockRead 0x1000f0 0x20 (grantDma.pciMapSg (grantDma.sgl blockRead)) :=
    ⟨(by decide : 0x1000f0 + 0x20 < 2 ^ 32), by decide⟩
  have hready : ∀ mem, (vmeDmaSetup grantDma blockRead true 0 { DmaState.idle with mem := mem }).1
      = .ready (grantDma.sgl blockRead) := fun _ => rfl
  refine (vmeDmaSetup_addresses_iff (s := .idle) blockRead_requested rfl fun mem => ?_).mpr hfit _
  rw [hready]
  simp

/-- The kernel of `grantDma` with its pages above 4G. -/
def highDma : DmaEnv :=
  { grantDma with pciMapSg := fun sgl => sgl.mapIdx fun i e => e.segment (2 ^ 32 + 0x10000 * i) }

theorem highDma_requested :
    Requested highDma blockRead true (userByte (2 ^ 32 + 0x10000 * ·) 0xff8) 0x1000f0 where
  length := blockRead_accepted.length
  dir := blockRead_accepted.dir
  attributes := blockRead_accepted.attributes
  noOverflow := blockRead_accepted.noOverflow
  pages := blockRead_accepted.pages
  mapped := by
    show Tiling Segment.size _ 0 [⟨0x100000ff8, 8⟩, ⟨0x100010000, 0x18⟩] 0x20
    exact .cons ⟨by decide, by decide, by decide⟩ (.cons ⟨by decide, by decide, by decide⟩ (.nil _))
  vmeStart := rfl
  fresh := smallPool_fresh

/-- The read of `blockRead` into a buffer above 4G goes to addresses 4G below it. -/
theorem dma_addresses_lost :
    ¬ ∀ env desc toUser byte vmeAddr ch s, Requested env desc toUser byte vmeAddr →
      s.hwDescList ch = [] → (vmeDmaSetup env desc toUser ch s).1 ≠ .error .ENOMEM →
        SetUpCarrying env desc toUser byte vmeAddr ch s := by
  intro h
  have hbad : ¬ AddressesFit blockRead 0x1000f0 0x20 (highDma.pciMapSg (highDma.sgl blockRead)) :=
    fun hfit => absurd (hfit.bus ⟨0x100000ff8, 8⟩ (by decide)) (by decide)
  exact not_setUpCarrying (s := .idle) highDma_requested rfl (by decide) hbad
    (fun _ => Tsi148DmaDesc.zero_isLast)
    (h highDma blockRead true _ _ 0 .idle highDma_requested rfl (by decide))

end KernelModules.Vmebridge
