import KernelModules.Vmebridge.Dma

/-!
# What a failed DMA request leaves behind

Setting up a transfer can fail at the scatterlist, at the page array, at the pages of the
buffer, at the attributes and at every hardware descriptor.  A failed request should leave
nothing behind.

* `Owns`: along the loops that build a chain, the blocks in use are those from before and
  those on the descriptor list, so that freeing the list gives back exactly what was taken
  (`tsi148DmaSetupChain_error`);
* `Restored` compares the resources before and after a request, and `Atomic` says that the
  request failed and left them alone;
* `FailsAt` lists the points of failure, and `vmeDoDma_atomic_iff` says at which of them the
  request is atomic: at all of them but one.  When the pages of the buffer are not found,
  `sgl_map_user_pages` still reports them as mapped.
-/

namespace KernelModules.Vmebridge

open Function

/-! ### Descriptor blocks -/

/-- The blocks taken since `c₀` are those on the descriptor list. -/
structure Owns (c₀ c : Chain) : Prop where
  pool : c.pool.Perm (c.hwDescList ++ c₀.pool)
  entries : c.entries = c₀.entries + c.hwDescList.length

theorem Owns.store {c₀ c : Chain} (h : Owns c₀ c) (a : DmaAddr) (tsi : Tsi148DmaDesc) :
    Owns c₀ (c.store a tsi) := ⟨h.pool, h.entries⟩

theorem Owns.hwdescInit {c₀ c : Chain} (h : Owns c₀ c) (env : PoolEnv) :
    Owns c₀ (hwdescInit env c).2 := by
  unfold Vmebridge.hwdescInit
  split
  · exact ⟨h.pool, h.entries⟩
  · rename_i phys _
    simp only
    split
    · refine ⟨?_, ?_⟩
      · simp only [List.append_assoc, List.singleton_append]
        exact (h.pool.cons phys).trans List.perm_middle.symm
      · simp only [List.length_append, List.length_singleton, h.entries]
        omega
    · refine ⟨?_, h.entries⟩
      simp only [List.erase_cons_head]
      exact h.pool

/-- The chain a loop ends with. -/
def LinkOut.chain : LinkOut → Chain
  | .done _ c => c
  | .nomem c => c
  | .bug c => c

theorem Owns.linkLoop {c₀ : Chain} {env : PoolEnv} {desc : VmeDma} {dsat ddat : U32} {bshift : ℕ}
    {more : Bool} {vmeEnd : U32} {dmaEnd : DmaAddr} (fuel : ℕ) {vme len : U32} {dma : DmaAddr}
    {curr next : Option DmaAddr} {c : Chain} (h : Owns c₀ c) :
    Owns c₀ (linkLoop env desc dsat ddat bshift more vmeEnd dmaEnd fuel vme dma len curr next
      c).chain := by
  induction fuel generalizing vme len dma curr next c with
  | zero => exact h
  | succ fuel ih =>
    unfold Vmebridge.linkLoop
    split
    · split
      · exact h
      · rename_i a
        simp only
        have hfill := h.store a (tsi148FillDmaDesc desc vme dma
          (pieceLen bshift vme dma dmaEnd len) dsat ddat (c.mem a))
        split
        · have hinit := hfill.hwdescInit env
          split <;> rename_i he <;> rw [he] at hinit
          · exact hinit
          · exact ih (hinit.store _ _)
        · exact ih hfill
    · exact h

theorem Owns.chainLoop {c₀ : Chain} {env : PoolEnv} {desc : VmeDma} {dsat ddat : U32} {bshift : ℕ}
    (segs : List Segment) {curr : Option DmaAddr} {vmeAddr : U32} {c : Chain} {out : LinkOut}
    (h : Owns c₀ c) (hout : chainLoop env desc dsat ddat bshift segs curr vmeAddr c = out) :
    Owns c₀ out.chain := by
  induction segs generalizing curr vmeAddr c with
  | nil =>
    subst hout
    exact h
  | cons seg segs ih =>
    have hadd : Owns c₀ (tsi148DmaLinkAdd env desc dsat ddat bshift (!segs.isEmpty) curr vmeAddr
        seg c).chain := by
      unfold tsi148DmaLinkAdd
      split
      · exact h
      · exact h.linkLoop _
    rw [Vmebridge.chainLoop] at hout
    split at hout <;> rename_i he <;> rw [he] at hadd
    · exact ih hadd hout
    · exact hout ▸ hadd
    · exact hout ▸ hadd

theorem foldl_erase_perm {α : Type*} [DecidableEq α] (l : List α) {p q : List α} (h : p.Perm q) :
    (l.foldl List.erase p).Perm (l.foldl List.erase q) := by
  induction l generalizing p q with
  | nil => exact h
  | cons a l ih => exact ih (h.erase a)

theorem foldl_erase_append {α : Type*} [DecidableEq α] (l p : List α) :
    l.foldl List.erase (l ++ p) = p := by
  induction l with
  | nil => rfl
  | cons a l ih => simpa only [List.cons_append, List.foldl_cons, List.erase_cons_head] using ih

theorem Owns.free {c₀ c : Chain} (h : Owns c₀ c) :
    (tsi148DmaFreeChain c).pool.Perm c₀.pool ∧ (tsi148DmaFreeChain c).entries = c₀.entries ∧
      (tsi148DmaFreeChain c).hwDescList = [] := by
  refine ⟨?_, ?_, rfl⟩
  · have hp := foldl_erase_perm c.hwDescList h.pool
    rwa [foldl_erase_append] at hp
  · simp only [tsi148DmaFreeChain, h.entries]
    omega

theorem hwdescInit_none {env : PoolEnv} {c c' : Chain} (h : hwdescInit env c = (none, c')) :
    c'.pool = c.pool ∧ c'.entries = c.entries ∧ c'.hwDescList = c.hwDescList := by
  unfold hwdescInit at h
  split at h
  · cases h
    exact ⟨rfl, rfl, rfl⟩
  · simp only at h
    split at h
    · cases h
    · cases h
      exact ⟨List.erase_cons_head _ _, rfl, rfl⟩

theorem tsi148DmaSetupChain_error {env : PoolEnv} {desc : VmeDma} {dsat ddat : U32}
    {segs : List Segment} {c c' : Chain} (hempty : c.hwDescList = []) {e : Errno}
    (h : tsi148DmaSetupChain env desc dsat ddat segs c = (.error e, c')) :
    c'.pool.Perm c.pool ∧ c'.entries = c.entries ∧ c'.hwDescList = [] := by
  have hstart : Owns c c := by
    refine ⟨?_, ?_⟩ <;> simp [hempty]
  have hinit := hstart.hwdescInit env
  unfold tsi148DmaSetupChain at h
  split at h <;> rename_i hi
  · cases h
    obtain ⟨hpool, hent, hlist⟩ := hwdescInit_none hi
    exact ⟨hpool ▸ List.Perm.refl _, hent, hlist.trans hempty⟩
  · rw [hi] at hinit
    split at h
    · cases h
      exact hinit.free
    · split at h <;> rename_i hl
      · cases h
      · cases h
        have hloop := hinit.chainLoop segs hl
        exact hloop.free
      · cases h

theorem tsi148DmaSetupChain_errno {env : PoolEnv} {desc : VmeDma}
    (hdir : desc.dir = .toDevice ∨ desc.dir = .fromDevice) {dsat ddat : U32} {segs : List Segment}
    {c : Chain} {e : Errno} (h : (tsi148DmaSetupChain env desc dsat ddat segs c).1 = .error e) :
    e = .ENOMEM := by
  obtain ⟨vmeAddr, hv⟩ : ∃ vmeAddr, getVmeaddr desc = some vmeAddr := by
    unfold getVmeaddr
    obtain h | h := hdir <;> rw [h] <;> exact ⟨_, rfl⟩
  unfold tsi148DmaSetupChain at h
  rw [hv] at h
  split at h
  · cases h
    rfl
  · simp only at h
    split at h <;> cases h
    rfl

/-! ### The state before and after -/

/-- The resources a request takes are as they were, and no channel was started. -/
structure Restored (s s' : DmaState) : Prop where
  sem : s'.sem = s.sem
  busy : s'.busy = s.busy
  pins : s'.pins = s.pins
  sgls : s'.sgls = s.sgls
  pool : s'.pool.Perm s.pool
  entries : s'.entries = s.entries
  hwDescList : s'.hwDescList = s.hwDescList
  starts : s'.starts = s.starts

/-- The request fails and leaves nothing behind. -/
def Atomic (env : DmaEnv) (desc : VmeDma) (toUser : Bool) (s : DmaState) : Prop :=
  ∃ e status s', vmeDoDma env desc toUser s = (.returned (.error e) status, s') ∧ Restored s s'

theorem tsi148DmaSetupCtl_noGo {ctrl : VmeDmaCtrl} {v : U32}
    (h : tsi148DmaSetupCtl ctrl = some v) : v &&& ~~~dctlMod &&& dctlDgo = 0 := by
  unfold tsi148DmaSetupCtl at h
  split at h
  · cases h
  · cases h
    have hmask : ∀ x m : U32, m &&& (~~~dctlMod &&& dctlDgo) = 0 →
        x &&& m &&& (~~~dctlMod &&& dctlDgo) = 0 := by
      intro x m hm
      rw [BitVec.and_assoc, hm]
      simp
    rw [BitVec.and_assoc]
    simp only [BitVec.and_or_distrib_right]
    rw [hmask _ _ rfl, hmask _ _ rfl, hmask _ _ rfl, hmask _ _ rfl]
    rfl

/-- The attributes or the control word of a request are not supported. -/
def AttributesFail (desc : VmeDma) : Prop :=
  tsi148DmaSetupSrc desc = none ∨ tsi148DmaSetupDst desc = none ∨
    tsi148DmaSetupCtl desc.ctrl = none

/-- One of the descriptors that the segments of this scatterlist ask for cannot be had. -/
def DescriptorFails (env : DmaEnv) (desc : VmeDma) (ch : ChannelIdx) (sgl : List SgEntry)
    (s : DmaState) : Prop :=
  ∃ dsat ddat, tsi148DmaSetupSrc desc = some dsat ∧ tsi148DmaSetupDst desc = some ddat ∧
    (tsi148DmaSetupChain env.pool desc dsat ddat (env.pciMapSg sgl) (s.chain ch)).1
      = .error .ENOMEM

theorem tsi148DmaSetup_error (env : DmaEnv) (sgl : List SgEntry) {desc : VmeDma}
    (hdir : desc.dir = .toDevice ∨ desc.dir = .fromDevice) {ch : ChannelIdx} {s : DmaState}
    (hidle : s.hwDescList ch = []) :
    ((∃ e s', tsi148DmaSetup env.pool desc ch (env.pciMapSg sgl) s = (.error e, s')) ↔
      AttributesFail desc ∨ DescriptorFails env desc ch sgl s) ∧
    ∀ e s', tsi148DmaSetup env.pool desc ch (env.pciMapSg sgl) s = (.error e, s') →
      Restored s s' := by
  unfold tsi148DmaSetup AttributesFail DescriptorFails
  cases hsrc : tsi148DmaSetupSrc desc with
  | none =>
    refine ⟨⟨fun _ => .inl (.inl rfl), fun _ => ⟨_, _, rfl⟩⟩, ?_⟩
    rintro e s' h
    cases h
    exact ⟨rfl, rfl, rfl, rfl, .refl _, rfl, rfl, rfl⟩
  | some dsat =>
    cases hdst : tsi148DmaSetupDst desc with
    | none =>
      refine ⟨⟨fun _ => .inl (.inr (.inl rfl)), fun _ => ⟨_, _, rfl⟩⟩, ?_⟩
      rintro e s' h
      cases h
      exact ⟨rfl, rfl, rfl, rfl, .refl _, rfl, rfl, rfl⟩
    | some ddat =>
      cases hctl : tsi148DmaSetupCtl desc.ctrl with
      | none =>
        refine ⟨⟨fun _ => .inl (.inr (.inr rfl)), fun _ => ⟨_, _, rfl⟩⟩, ?_⟩
        rintro e s' h
        cases h
        exact ⟨rfl, rfl, rfl, rfl, .refl _, rfl, rfl, rfl⟩
      | some dctl =>
        have hchain : (s.writeDctl ch (dctl &&& ~~~dctlMod)).chain ch = s.chain ch := rfl
        simp only [hchain]
        have hfails : ((some dsat = none ∨ some ddat = none ∨ some dctl = none) ∨
            ∃ d d', some dsat = some d ∧ some ddat = some d' ∧
              (tsi148DmaSetupChain env.pool desc d d' (env.pciMapSg sgl) (s.chain ch)).1
                = .error .ENOMEM) ↔
            (tsi148DmaSetupChain env.pool desc dsat ddat (env.pciMapSg sgl) (s.chain ch)).1
              = .error .ENOMEM := by
          simp
        rw [hfails]
        cases hr : tsi148DmaSetupChain env.pool desc dsat ddat (env.pciMapSg sgl) (s.chain ch) with
        | mk out c =>
          cases out with
          | ready dnlal => simp
          | bug => simp
          | error e =>
            have he : e = .ENOMEM := tsi148DmaSetupChain_errno hdir (by rw [hr])
            subst he
            refine ⟨⟨fun _ => rfl, fun _ => ⟨_, _, rfl⟩⟩, ?_⟩
            rintro e s' h
            cases h
            obtain ⟨hpool, hent, hlist⟩ := tsi148DmaSetupChain_error hidle hr
            refine ⟨rfl, rfl, rfl, rfl, hpool, hent, ?_, ?_⟩
            · show update s.hwDescList ch c.hwDescList = s.hwDescList
              rw [hlist, ← hidle, update_eq_self]
            · show (if dctl &&& ~~~dctlMod &&& dctlDgo ≠ 0 then ch :: s.starts else s.starts)
                = s.starts
              rw [if_neg (not_not.mpr (tsi148DmaSetupCtl_noGo hctl))]

/-! ### Pages and scatterlists -/

theorem DmaState.unpin_pin (s : DmaState) (ps : List Page) : (s.pin ps).unpin ps = s := by
  simp [DmaState.pin, DmaState.unpin]

theorem sgTail_pages (page : ℕ → Page) (n i length : ℕ) :
    (sgTail page n i length).map SgEntry.page = (List.range' i n).map page := by
  induction n generalizing i length with
  | zero => rfl
  | succ n ih => rw [sgTail, List.map_cons, ih, List.range'_succ, List.map_cons]

theorem sgFill_pages (page : ℕ → Page) {nrPages : ℕ} (h : 0 < nrPages) (off length : ℕ) :
    (sgFill page nrPages off length).map SgEntry.page = (List.range nrPages).map page := by
  obtain ⟨n, rfl⟩ : ∃ n, nrPages = n + 1 := ⟨nrPages - 1, by omega⟩
  unfold sgFill
  split
  · rw [List.map_cons, sgTail_pages, List.range_eq_range', List.range'_succ, List.map_cons]
    rfl
  · rw [show n = 0 by omega]
    rfl

/-- A freshly allocated scatterlist. -/
def DmaEnv.raw (env : DmaEnv) (desc : VmeDma) : List SgEntry :=
  (List.range desc.nrPages).map env.uninit

theorem sglMapUserPages_found {env : DmaEnv} {desc : VmeDma} {toUser : Bool}
    (halloc : env.pagesAlloc = true) (hlen : desc.length ≠ 0)
    (hpages : env.FindsPages desc toUser) (s : DmaState) :
    sglMapUserPages env desc.nrPages desc.uaddr desc.length.toNat toUser s
      = (.ok desc.nrPages, env.sgl desc,
          if toUser then s.pin ((env.sgl desc).map SgEntry.page) else s) := by
  unfold sglMapUserPages DmaEnv.FindsPages at *
  simp only [halloc, if_true]
  cases toUser
  · simp only [Bool.false_eq_true, if_false] at hpages ⊢
    rw [if_pos hpages]
    rfl
  · simp only [if_true] at hpages ⊢
    obtain ⟨n, hn, hle⟩ := hpages
    rw [hn]
    simp only [if_neg (show ¬ n < desc.nrPages by omega)]
    rw [DmaEnv.sgl, sgFill_pages _ (VmeDma.nrPages_pos hlen), Nat.min_eq_right hle]

theorem sglMapUserPages_missing {env : DmaEnv} {desc : VmeDma} {toUser : Bool}
    (halloc : env.pagesAlloc = true) (hpages : ¬ env.FindsPages desc toUser) (s : DmaState) :
    sglMapUserPages env desc.nrPages desc.uaddr desc.length.toNat toUser s
      = (.ok desc.nrPages, env.raw desc, s) := by
  unfold sglMapUserPages DmaEnv.FindsPages at *
  simp only [halloc, if_true]
  cases toUser
  · simp only [Bool.false_eq_true, if_false] at hpages ⊢
    rw [if_neg hpages]
    rfl
  · simp only [if_true] at hpages ⊢
    cases hn : env.userPages with
    | error e => rfl
    | ok n =>
      have hlt : n < desc.nrPages := by
        by_contra hle
        exact hpages ⟨n, hn, by omega⟩
      simp only [if_pos hlt, DmaState.unpin_pin]
      rfl

/-! ### Requests that reach the set-up -/

/-- The request passes the checks of `__vme_do_dma` and gets channel `ch`. -/
structure Reaches (env : DmaEnv) (desc : VmeDma) (ch : ChannelIdx) (s : DmaState) : Prop where
  length : desc.length ≠ 0
  dir : desc.dir = .toDevice ∨ desc.dir = .fromDevice
  enabled : env.disabled = false ∧ env.disabledAfter = false ∧ env.interrupted = false
  sem : 0 < s.sem
  channel : lockAvailChannel s.busy = some ch
  noOverflow : ¬ desc.uaddr + desc.length.setWidth 64 < desc.uaddr
  idle : s.hwDescList ch = []

/-- The state in which the transfer is set up. -/
def DmaState.acquired (s : DmaState) (ch : ChannelIdx) : DmaState :=
  { s with sem := s.sem - 1, busy := update s.busy ch true }

theorem vmeDoDma_of_reaches {env : DmaEnv} {desc : VmeDma} {ch : ChannelIdx} {s : DmaState}
    (h : Reaches env desc ch s) (toUser : Bool) :
    vmeDoDma env desc toUser s =
      match vmeDmaSetup env desc toUser ch (s.acquired ch) with
      | (.error e, s) => (.returned (.error e) none, vmeDmaChannelRelease ch s)
      | (.bug, s) => (.bug, s)
      | (.ready sgl, s) =>
        (.returned (if env.signalled then .error .ERESTARTSYS else .ok ()) (some env.status),
          vmeDmaChannelRelease ch (transfer env sgl toUser ch s)) := by
  have hdir : ¬ (desc.dir ≠ .fromDevice ∧ desc.dir ≠ .toDevice) := by
    rintro ⟨h1, h2⟩
    exact h.dir.elim h2 h1
  have hsem : ¬ s.sem = 0 := by
    have := h.sem
    omega
  unfold vmeDoDma
  simp only [if_neg h.length, if_neg hdir, h.enabled.1, h.enabled.2.1, h.enabled.2.2,
    Bool.false_eq_true, if_false, if_neg hsem, h.channel]
  rfl

theorem Restored.release {env : DmaEnv} {desc : VmeDma} {ch : ChannelIdx} {s s' : DmaState}
    (hreach : Reaches env desc ch s) (h : Restored (s.acquired ch) s') :
    Restored s (vmeDmaChannelRelease ch s') := by
  have hbusy : s.busy ch = false := by
    have hfind := List.find?_some hreach.channel
    simpa using hfind
  have hsem := hreach.sem
  refine ⟨?_, ?_, h.pins, h.sgls, h.pool, h.entries, h.hwDescList, h.starts⟩
  · show s'.sem + 1 = s.sem
    rw [h.sem]
    show s.sem - 1 + 1 = s.sem
    omega
  · show update s'.busy ch false = s.busy
    rw [h.busy]
    show update (update s.busy ch true) ch false = s.busy
    rw [update_idem, ← hbusy, update_eq_self]

theorem atomic_of_setup {env : DmaEnv} {desc : VmeDma} {toUser : Bool} {ch : ChannelIdx}
    {s s' : DmaState} {e : Errno} (hreach : Reaches env desc ch s)
    (h : vmeDmaSetup env desc toUser ch (s.acquired ch) = (.error e, s'))
    (hres : Restored (s.acquired ch) s') : Atomic env desc toUser s := by
  refine ⟨e, none, vmeDmaChannelRelease ch s', ?_, hres.release hreach⟩
  rw [vmeDoDma_of_reaches hreach, h]

theorem tsi148DmaSetup_starts (env : PoolEnv) (desc : VmeDma) (ch : ChannelIdx)
    (segs : List Segment) (s : DmaState) :
    (tsi148DmaSetup env desc ch segs s).2.starts = s.starts := by
  unfold tsi148DmaSetup
  split
  · rename_i dsat ddat dctl _ _ hctl
    have hgo : (s.writeDctl ch (dctl &&& ~~~dctlMod)).starts = s.starts := by
      show (if dctl &&& ~~~dctlMod &&& dctlDgo ≠ 0 then ch :: s.starts else s.starts) = s.starts
      rw [if_neg (not_not.mpr (tsi148DmaSetupCtl_noGo hctl))]
    simp only
    split <;> exact hgo
  · rfl

theorem transfer_starts (env : DmaEnv) (sgl : List SgEntry) (toUser : Bool) (ch : ChannelIdx)
    (s : DmaState) : (transfer env sgl toUser ch s).starts = ch :: s.starts := by
  have hgo : ∀ x : U32, (x ||| dctlDgo) &&& dctlDgo ≠ 0 := by
    intro x h
    have hbit := congrArg (fun v : U32 => v.getLsbD 25) h
    simp [dctlDgo] at hbit
  have hno : ∀ x : U32, (x &&& ~~~dctlDgo ||| dctlAbt) &&& dctlDgo = 0 := by
    intro x
    rw [BitVec.and_or_distrib_right, BitVec.and_assoc,
      show ~~~dctlDgo &&& dctlDgo = 0 from rfl, show dctlAbt &&& dctlDgo = 0 from rfl]
    simp
  have hstart : (tsi148DmaStart ch s).starts = ch :: s.starts := by
    show (if (s.dctl ch ||| dctlDgo) &&& dctlDgo ≠ 0 then ch :: s.starts else s.starts) = _
    rw [if_pos (hgo _)]
  have habort : ∀ t : DmaState, (tsi148DmaAbort ch t).starts = t.starts := by
    intro t
    show (if (t.dctl ch &&& ~~~dctlDgo ||| dctlAbt) &&& dctlDgo ≠ 0 then ch :: t.starts
      else t.starts) = t.starts
    rw [if_neg (not_not.mpr (hno _))]
  unfold transfer sglUnmapUserPages
  simp only
  split <;> split <;>
    simp only [tsi148DmaRelease, DmaState.setChain, DmaState.unpin, habort, hstart]

theorem not_atomic_of_ready {env : DmaEnv} {desc : VmeDma} {toUser : Bool} {ch : ChannelIdx}
    {s s' : DmaState} {sgl : List SgEntry} (hreach : Reaches env desc ch s)
    (h : vmeDmaSetup env desc toUser ch (s.acquired ch) = (.ready sgl, s'))
    (hstarts : s'.starts = s.starts) : ¬ Atomic env desc toUser s := by
  rintro ⟨e, status, t, hrun, hres⟩
  rw [vmeDoDma_of_reaches hreach, h] at hrun
  simp only [Prod.mk.injEq] at hrun
  have hlist := hres.starts
  rw [← hrun.2] at hlist
  have hgrown : (vmeDmaChannelRelease ch (transfer env sgl toUser ch s')).starts
      = ch :: s.starts := by
    show (transfer env sgl toUser ch s').starts = _
    rw [transfer_starts, hstarts]
  rw [hgrown] at hlist
  exact absurd hlist (List.cons_ne_self ch s.starts)

/-! ### The points of failure -/

/-- Where setting up a transfer can fail. -/
inductive FailPoint
  | scatterlist | pageArray | pages | attributes | descriptor
  deriving DecidableEq, Repr

/-- The set-up of a request fails first at this point. -/
inductive FailsAt (env : DmaEnv) (desc : VmeDma) (toUser : Bool) (ch : ChannelIdx) (s : DmaState) :
    FailPoint → Prop
  | scatterlist (h : env.sglAlloc = false) : FailsAt env desc toUser ch s .scatterlist
  | pageArray (hsgl : env.sglAlloc = true) (h : env.pagesAlloc = false) :
      FailsAt env desc toUser ch s .pageArray
  | pages (hsgl : env.sglAlloc = true) (harr : env.pagesAlloc = true)
      (h : ¬ env.FindsPages desc toUser) : FailsAt env desc toUser ch s .pages
  | attributes (hsgl : env.sglAlloc = true) (harr : env.pagesAlloc = true)
      (hpages : env.FindsPages desc toUser) (h : AttributesFail desc) :
      FailsAt env desc toUser ch s .attributes
  | descriptor (hsgl : env.sglAlloc = true) (harr : env.pagesAlloc = true)
      (hpages : env.FindsPages desc toUser) (h : DescriptorFails env desc ch (env.sgl desc) s) :
      FailsAt env desc toUser ch s .descriptor

theorem Restored.unmap {s s' : DmaState} (toUser : Bool) (sgl : List SgEntry)
    (h : Restored (if toUser then ({ s with sgls := s.sgls + 1 } : DmaState).pin
      (sgl.map SgEntry.page) else { s with sgls := s.sgls + 1 }) s') :
    Restored s { sglUnmapUserPages sgl toUser s' with
      sgls := (sglUnmapUserPages sgl toUser s').sgls - 1 } := by
  cases toUser
  · simp only [Bool.false_eq_true, if_false] at h
    refine ⟨h.sem, h.busy, h.pins, ?_, h.pool, h.entries, h.hwDescList, h.starts⟩
    show s'.sgls - 1 = s.sgls
    rw [h.sgls]
    rfl
  · simp only [if_true] at h
    refine ⟨h.sem, h.busy, ?_, ?_, h.pool, h.entries, h.hwDescList, h.starts⟩
    · funext p
      show s'.pins p - (sgl.map SgEntry.page).count p = s.pins p
      rw [h.pins]
      show s.pins p + _ - _ = s.pins p
      omega
    · show s'.sgls - 1 = s.sgls
      rw [h.sgls]
      rfl

theorem atomic_of_found {env : DmaEnv} {desc : VmeDma} {toUser : Bool} {ch : ChannelIdx}
    {s : DmaState} (hreach : Reaches env desc ch s) (hsgl : env.sglAlloc = true)
    (harr : env.pagesAlloc = true) (hpages : env.FindsPages desc toUser)
    (hfail : AttributesFail desc ∨ DescriptorFails env desc ch (env.sgl desc) s) :
    Atomic env desc toUser s := by
  have hmap := sglMapUserPages_found harr hreach.length hpages
    { s.acquired ch with sgls := (s.acquired ch).sgls + 1 }
  have hsetup := vmeDmaSetup_of_mapped ch hreach.length hreach.noOverflow hsgl hmap
  generalize ht : (if toUser then ({ s.acquired ch with sgls := (s.acquired ch).sgls + 1 }
    : DmaState).pin ((env.sgl desc).map SgEntry.page)
    else { s.acquired ch with sgls := (s.acquired ch).sgls + 1 }) = t at hsetup
  have hchain : t.chain ch = s.chain ch := by
    rw [← ht]
    cases toUser <;> rfl
  have hidle : t.hwDescList ch = [] := by
    have h1 := congrArg Chain.hwDescList hchain
    exact h1.trans hreach.idle
  obtain ⟨hiff, hres⟩ := tsi148DmaSetup_error env (env.sgl desc) hreach.dir hidle
  have hfail' : AttributesFail desc ∨ DescriptorFails env desc ch (env.sgl desc) t := by
    unfold DescriptorFails at hfail ⊢
    rwa [hchain]
  obtain ⟨e, s', he⟩ := hiff.mpr hfail'
  rw [he] at hsetup
  refine atomic_of_setup hreach hsetup (Restored.unmap toUser (env.sgl desc) ?_)
  rw [ht]
  exact hres e s' he

theorem atomic_of_missing_iff {env : DmaEnv} {desc : VmeDma} {toUser : Bool} {ch : ChannelIdx}
    {s : DmaState} (hreach : Reaches env desc ch s) (hsgl : env.sglAlloc = true)
    (harr : env.pagesAlloc = true) (hpages : ¬ env.FindsPages desc toUser) :
    Atomic env desc toUser s ↔
      toUser = false ∧ (AttributesFail desc ∨ DescriptorFails env desc ch (env.raw desc) s) := by
  have hmap := sglMapUserPages_missing harr hpages
    { s.acquired ch with sgls := (s.acquired ch).sgls + 1 }
  have hsetup := vmeDmaSetup_of_mapped ch hreach.length hreach.noOverflow hsgl hmap
  generalize ht : ({ s.acquired ch with sgls := (s.acquired ch).sgls + 1 } : DmaState) = t
    at hsetup
  have hchain : t.chain ch = s.chain ch := by
    rw [← ht]
    rfl
  have hidle : t.hwDescList ch = [] := by
    have h1 := congrArg Chain.hwDescList hchain
    exact h1.trans hreach.idle
  have htstarts : t.starts = s.starts := by
    rw [← ht]
    rfl
  have hstarts := tsi148DmaSetup_starts env.pool desc ch (env.pciMapSg (env.raw desc)) t
  obtain ⟨hiff, hres⟩ := tsi148DmaSetup_error env (env.raw desc) hreach.dir hidle
  have hsame : DescriptorFails env desc ch (env.raw desc) t
      = DescriptorFails env desc ch (env.raw desc) s := by
    unfold DescriptorFails
    rw [hchain]
  rw [hsame] at hiff
  rw [← hiff]
  cases he : tsi148DmaSetup env.pool desc ch (env.pciMapSg (env.raw desc)) t with
  | mk out s' =>
    rw [he] at hsetup hstarts
    cases out with
    | ready dnlal =>
      have hno := not_atomic_of_ready hreach hsetup (hstarts.trans htstarts)
      simp [hno]
    | bug =>
      constructor
      · rintro ⟨e, status, s'', hrun, -⟩
        rw [vmeDoDma_of_reaches hreach, hsetup] at hrun
        cases hrun
      · rintro ⟨-, e, s'', h⟩
        cases h
    | error e =>
      have hrest := hres e s' he
      cases toUser with
      | false =>
        constructor
        · intro _
          exact ⟨rfl, e, s', rfl⟩
        · intro _
          refine atomic_of_setup hreach hsetup (Restored.unmap false (env.raw desc) ?_)
          simp only [Bool.false_eq_true, if_false]
          rw [ht]
          exact hrest
      | true =>
        constructor
        · rintro ⟨e', status, s'', hrun, hback⟩
          rw [vmeDoDma_of_reaches hreach, hsetup] at hrun
          simp only [Prod.mk.injEq] at hrun
          have hpins := congrFun hback.pins (env.uninit 0).page
          rw [← hrun.2] at hpins
          have hcount : 0 < ((env.raw desc).map SgEntry.page).count (env.uninit 0).page := by
            rw [List.count_pos_iff, List.mem_map]
            refine ⟨env.uninit 0, ?_, rfl⟩
            exact List.mem_map_of_mem (List.mem_range.mpr (VmeDma.nrPages_pos hreach.length))
          have hval : s'.pins (env.uninit 0).page
              - ((env.raw desc).map SgEntry.page).count (env.uninit 0).page
              = s.pins (env.uninit 0).page := hpins
          rw [hrest.pins, ← ht] at hval
          have hval' : s.pins (env.uninit 0).page
              - ((env.raw desc).map SgEntry.page).count (env.uninit 0).page
              = s.pins (env.uninit 0).page := hval
          omega
        · rintro ⟨h, -⟩
          cases h

/-- **Failure atomicity.**  A request that reaches the set-up and fails there is atomic,
wherever it fails, except where the pages of the buffer were not found; there it is atomic
only for a kernel buffer, and only when the set-up fails once more further on. -/
theorem vmeDoDma_atomic_iff {env : DmaEnv} {desc : VmeDma} {toUser : Bool} {ch : ChannelIdx}
    {s : DmaState} {p : FailPoint} (hreach : Reaches env desc ch s)
    (hfail : FailsAt env desc toUser ch s p) :
    Atomic env desc toUser s ↔
      (p = .pages →
        toUser = false ∧ (AttributesFail desc ∨ DescriptorFails env desc ch (env.raw desc) s)) := by
  have hsimple : p ≠ .pages → Atomic env desc toUser s → (Atomic env desc toUser s ↔
      (p = .pages → toUser = false ∧
        (AttributesFail desc ∨ DescriptorFails env desc ch (env.raw desc) s))) :=
    fun hp hat => ⟨fun _ h => absurd h hp, fun _ => hat⟩
  cases hfail with
  | scatterlist h =>
    have hset : vmeDmaSetup env desc toUser ch (s.acquired ch)
        = (.error .ENOMEM, s.acquired ch) := by
      unfold vmeDmaSetup
      simp only [if_neg hreach.noOverflow, h, Bool.false_eq_true, if_false]
    exact hsimple (by decide)
      (atomic_of_setup hreach hset ⟨rfl, rfl, rfl, rfl, .refl _, rfl, rfl, rfl⟩)
  | pageArray hsgl h =>
    have hset : vmeDmaSetup env desc toUser ch (s.acquired ch)
        = (.error .ENOMEM, s.acquired ch) := by
      unfold vmeDmaSetup sglMapUserPages
      simp only [if_neg hreach.noOverflow, hsgl, h, Bool.false_eq_true, if_false, if_true]
      rfl
    exact hsimple (by decide)
      (atomic_of_setup hreach hset ⟨rfl, rfl, rfl, rfl, .refl _, rfl, rfl, rfl⟩)
  | pages hsgl harr h =>
    rw [atomic_of_missing_iff hreach hsgl harr h]
    exact ⟨fun h' _ => h', fun h' => h' rfl⟩
  | attributes hsgl harr hpages h =>
    exact hsimple (by decide) (atomic_of_found hreach hsgl harr hpages (.inl h))
  | descriptor hsgl harr hpages h =>
    exact hsimple (by decide) (atomic_of_found hreach hsgl harr hpages (.inr h))

theorem blockRead_reaches {env : DmaEnv}
    (h : env.disabled = false ∧ env.disabledAfter = false ∧ env.interrupted = false) :
    Reaches env blockRead 0 .idle where
  length := by decide
  dir := .inr rfl
  enabled := h
  sem := by decide
  channel := rfl
  noOverflow := by decide
  idle := rfl

/-- The second of three descriptors cannot be had. -/
def scarceDma : DmaEnv := { grantDma with pool := { smallPool with entry := fun k => k < 1 } }

theorem vmeDoDma_atomic_iff_descriptor : Atomic scarceDma blockRead true .idle := by
  have hpages : scarceDma.FindsPages blockRead true := ⟨2, rfl, by decide⟩
  have hdesc : DescriptorFails scarceDma blockRead 0 (scarceDma.sgl blockRead) .idle :=
    ⟨_, _, rfl, rfl, by decide⟩
  exact (vmeDoDma_atomic_iff (blockRead_reaches ⟨rfl, rfl, rfl⟩)
    (.descriptor rfl rfl hpages hdesc)).mpr fun h => by cases h

/-- The pages of the buffer fault; the fresh scatterlist happens to name page 5. -/
def faultyDma : DmaEnv :=
  { grantDma with userPages := .error .EFAULT, uninit := fun _ => ⟨5, 0, 16⟩ }

/-- The transfer is started on that list although `get_user_pages` failed. -/
theorem vmeDoDma_not_atomic :
    ¬ ∀ (env : DmaEnv) (desc : VmeDma) (toUser : Bool) (ch : ChannelIdx) (s : DmaState)
      (p : FailPoint), Reaches env desc ch s → FailsAt env desc toUser ch s p →
      Atomic env desc toUser s := by
  intro h
  have hmissing : ¬ faultyDma.FindsPages blockRead true := by
    rintro ⟨n, hn, -⟩
    cases hn
  obtain ⟨e, status, s', hrun, hres⟩ := h faultyDma blockRead true 0 .idle .pages
    (blockRead_reaches ⟨rfl, rfl, rfl⟩) (.pages rfl rfl hmissing)
  have hstarts := hres.starts
  rw [show s' = (vmeDoDma faultyDma blockRead true .idle).2 by rw [hrun]] at hstarts
  revert hstarts
  decide

end KernelModules.Vmebridge
