import Mathlib.Data.Fintype.Basic
import KernelModules.Sis33.Exclusion

/-!
# The memory page register of the SIS3320

The sample memory of a SIS3320 is read through a window of one page.  A transfer selects a page
with `sis3320_put_page`, which writes the page register only if the page differs from the cached
`priv->curr_page`, and reads it by DMA; one card has one register, one cache and any number of
transfers, one per segment.

* `Card.eventPages` is the pages of one event, as `sis3320_get_data_smallpage` and
  `sis3320_get_data_bigpage` walk them;
* `PageState` adds to the core's state the cache, the register and where each transfer is, and
  `pageStep` runs the transfers page by page inside the core's `FETCH`;
* the log of the reads says for each the page its transfer had selected and the page in the
  register.  `Undisturbed` asks that no transfer selects a page while another one has selected a
  different page and not read it yet.  In the runs that meet it every read finds its own page
  (`pageRegister_laws`), and a step that does not meet it makes the next read of the other transfer
  a wrong one (`misread_of_disturbed`); `two_segments_share_register` are two such fetches.
-/

namespace KernelModules.Sis33

open Function KernelModules.Lib

variable {Client Completer : Type*}

/-! ### Which pages an event is on -/

/-- `ADC_MEM_PAGE_MASK`. -/
def adcMemPageMask : BitVec 32 := 0x7

/-- `SIS3320_PAGESIZE_SAMPLES`. -/
def pagesizeSamples : BitVec 32 := 0x400000

/-- `SIS3320_PAGESHIFT`. -/
def pageshift : ℕ := 23

/-- The first sample of a segment. -/
def Card.segmentBase (card : Card) (segment : ℕ) : BitVec 32 :=
  (BitVec.ofNat 32 segment * (card.evLengths.headD 0 / BitVec.ofNat 32 card.nSegments)) &&&
    0x01fffffc

/-- The page of an event that fits on one, as `sis3320_get_offset` computes it. -/
def Card.smallPage (card : Card) (segment event : ℕ) : BitVec 32 :=
  let eventSize := (card.segments segment).nrSampPerEv * 2
  let membase := card.segmentBase segment * 2
  (membase + BitVec.ofNat 32 event * eventSize) >>> pageshift

/-- The first page of a longer event. -/
def Card.bigPage (card : Card) (segment event : ℕ) : BitVec 32 :=
  ((card.segmentBase segment +
    BitVec.ofNat 32 event * (card.segments segment).nrSampPerEv) * 2) >>> pageshift

/-- The pages `sis3320_get_data` puts for one event, in order. -/
def Card.eventPages (card : Card) (segment event : ℕ) : List (BitVec 32) :=
  let samples := (card.segments segment).nrSampPerEv
  if samples ≤ pagesizeSamples then [card.smallPage segment event]
  else
    (List.range (samples / pagesizeSamples).toNat).map fun i =>
      card.bigPage segment event + BitVec.ofNat 32 i

/-! ### Transfers page by page -/

/-- Where a transfer is: before an event, before a page of it, or between the page's selection and
its DMA read. -/
inductive TransferPc where
  | event (i : ℕ)
  | put (i : ℕ) (pages : List (BitVec 32))
  | read (i : ℕ) (page : BitVec 32) (pages : List (BitVec 32))
  deriving DecidableEq, Repr

/-- The page a transfer has selected and not read. -/
def TransferPc.selected : TransferPc → Option (BitVec 32)
  | .read _ page _ => some page
  | _ => none

/-- The core's state, the cached page, the page register, the transfers under way, and the reads
so far: the page each had selected and the page it found. -/
structure PageState (Client Completer : Type*) where
  core : CoreState Client Completer
  currPage : BitVec 32
  pageRegister : BitVec 32
  pc : Client → TransferPc
  reads : List (BitVec 32 × BitVec 32)

/-- A section of the core, or one step of a transfer. -/
inductive PageCall (Client Completer : Type*) where
  | core (a : CoreCall Client Completer)
  | beginEvent (c : Client)
  | putPage (c : Client)
  | dmaRead (c : Client)
  | endEvent (c : Client)

/-- `sis3320_device_init` writes page 0 into the register and the cache. -/
def PageState.Fresh (s : PageState Client Completer) : Prop :=
  s.core.Fresh ∧ s.currPage = 0 ∧ s.pageRegister = 0 ∧ (∀ c, s.pc c = .event 0) ∧ s.reads = []

variable [DecidableEq Client] [DecidableEq Completer]

namespace PageState

/-- `sis3320_put_page` of a page already masked. -/
def putPage (s : PageState Client Completer) (page : BitVec 32) : PageState Client Completer :=
  if page = s.currPage then s else { s with currPage := page, pageRegister := page }

omit [DecidableEq Client] [DecidableEq Completer] in
theorem putPage_frame (s : PageState Client Completer) (page : BitVec 32) :
    (s.putPage page).core = s.core ∧ (s.putPage page).pc = s.pc ∧
      (s.putPage page).reads = s.reads := by
  rw [putPage]
  split
  · exact ⟨rfl, rfl, rfl⟩
  · exact ⟨rfl, rfl, rfl⟩

def goto (s : PageState Client Completer) (c : Client) (p : TransferPc) :
    PageState Client Completer :=
  { s with pc := update s.pc c p }

/-- What the core's section does, seen from the transfers: a fetch is before its first event. -/
def afterCore (s : PageState Client Completer) (core : CoreState Client Completer) :
    CoreCall Client Completer → PageState Client Completer
  | .fetch c _ _ => { s with core := core }.goto c (.event 0)
  | .fetchRelock c => { s with core := core }.goto c (.event 0)
  | _ => { s with core := core }

/-- A transfer ends between events, or between pages when a read has failed; it never returns
between the selection of a page and its read. -/
def mayTake (s : PageState Client Completer) : CoreCall Client Completer → Bool
  | .fetchDone c => (s.pc c).selected.isNone
  | _ => true

end PageState

open PageState

/-- The steps.  Those of a transfer are taken by a client in the transfer phase of its fetch. -/
def pageStep (s : PageState Client Completer) :
    PageCall Client Completer → Option (PageState Client Completer)
  | .core a =>
    if s.mayTake a then (coreStep s.core a).map fun core => s.afterCore core a else none
  | .beginEvent c =>
    match s.core.clients c, s.pc c with
    | .transferring list _ nrEvents _, .event i =>
      if i < nrEvents then
        some (s.goto c (.put i (s.core.card.eventPages list.segment.toNat i)))
      else none
    | _, _ => none
  | .putPage c =>
    match s.core.clients c, s.pc c with
    | .transferring _ _ _ _, .put i (page :: pages) =>
      let page := page &&& adcMemPageMask
      some ((s.putPage page).goto c (.read i page pages))
    | _, _ => none
  | .dmaRead c =>
    match s.core.clients c, s.pc c with
    | .transferring _ _ _ _, .read i page pages =>
      some ({ s with reads := (page, s.pageRegister) :: s.reads }.goto c (.put i pages))
    | _, _ => none
  | .endEvent c =>
    match s.core.clients c, s.pc c with
    | .transferring _ _ _ _, .put i [] => some (s.goto c (.event (i + 1)))
    | _, _ => none

/-- Any clients fetching from any segments and channels, step by step. -/
def pageSystem (Client Completer : Type*) [DecidableEq Client] [DecidableEq Completer] :
    System (PageState Client Completer) (PageCall Client Completer) :=
  System.ofFun PageState.Fresh pageStep

/-- Every read so far found the page its own transfer had selected, and the cache is the
register. -/
def PageLaws (s : PageState Client Completer) : Prop :=
  (∀ r ∈ s.reads, r.2 = r.1) ∧ s.currPage = s.pageRegister

/-- Nothing is selected, or it is `page`. -/
def Agrees (page : BitVec 32) : Option (BitVec 32) → Prop
  | none => True
  | some q => q = page

instance (page : BitVec 32) (o : Option (BitVec 32)) : Decidable (Agrees page o) :=
  match o with
  | none => isTrue trivial
  | some q => inferInstanceAs (Decidable (q = page))

/-- Whoever else has selected a page has selected the one that comes next for this client. -/
def OthersAgree (s : PageState Client Completer) (c : Client) : TransferPc → Prop
  | .put _ (page :: _) => ∀ c', c' ≠ c → Agrees (page &&& adcMemPageMask) (s.pc c').selected
  | _ => True

instance [Fintype Client] (s : PageState Client Completer) (c : Client) (p : TransferPc) :
    Decidable (OthersAgree s c p) :=
  match p with
  | .put _ (page :: _) => inferInstanceAs
      (Decidable (∀ c', c' ≠ c → Agrees (page &&& adcMemPageMask) (s.pc c').selected))
  | .put _ [] => isTrue trivial
  | .event _ => isTrue trivial
  | .read _ _ _ => isTrue trivial

/-- No transfer selects a page while another one has selected a different one and not read it. -/
def Undisturbed (s : PageState Client Completer) : PageCall Client Completer → Prop
  | .putPage c => OthersAgree s c (s.pc c)
  | _ => True

instance [Fintype Client] (s : PageState Client Completer) (a : PageCall Client Completer) :
    Decidable (Undisturbed s a) :=
  match a with
  | .putPage c => inferInstanceAs (Decidable (OthersAgree s c (s.pc c)))
  | .core _ => isTrue trivial
  | .beginEvent _ => isTrue trivial
  | .dmaRead _ => isTrue trivial
  | .endEvent _ => isTrue trivial

/-! ### The invariant -/

/-- Every page selected and not read is in the register. -/
structure PageInv (s : PageState Client Completer) : Prop where
  laws : PageLaws s
  held : ∀ c page, (s.pc c).selected = some page → s.pageRegister = page

/-- The client is in the transfer of its fetch. -/
def ClientPhase.isTransfer : ClientPhase → Bool
  | .transferring _ _ _ _ => true
  | _ => false

/-- A page is selected only by a client in its transfer. -/
def SelectsInTransfer (s : PageState Client Completer) : Prop :=
  ∀ c, (s.pc c).selected ≠ none → (s.core.clients c).isTransfer = true

namespace PageInv

variable {s s' : PageState Client Completer}

omit [DecidableEq Client] [DecidableEq Completer] in
theorem of_selected (h : PageInv s) (hcurr : s'.currPage = s.currPage)
    (hreg : s'.pageRegister = s.pageRegister) (hreads : s'.reads = s.reads)
    (hpc : ∀ c page, (s'.pc c).selected = some page → (s.pc c).selected = some page) :
    PageInv s' where
  laws := by
    obtain ⟨hlog, hcache⟩ := h.laws
    refine ⟨?_, ?_⟩
    · rw [hreads]
      exact hlog
    · rw [hcurr, hreg]
      exact hcache
  held c page hsel := by
    rw [hreg]
    exact h.held c page (hpc c page hsel)

omit [DecidableEq Completer] in
theorem selected_goto {c c' : Client} {p : TransferPc} {page : BitVec 32}
    (h : ((s.goto c p).pc c').selected = some page) :
    (c' = c ∧ p.selected = some page) ∨ (c' ≠ c ∧ (s.pc c').selected = some page) := by
  by_cases hc : c' = c
  · subst hc
    simp only [PageState.goto, update_self] at h
    exact Or.inl ⟨rfl, h⟩
  · simp only [PageState.goto, update_of_ne hc] at h
    exact Or.inr ⟨hc, h⟩

omit [DecidableEq Completer] in
theorem goto (h : PageInv s) {c : Client} {p : TransferPc} (hp : p.selected = none) :
    PageInv (s.goto c p) := by
  refine h.of_selected rfl rfl rfl ?_
  intro c' page hsel
  rcases selected_goto hsel with ⟨-, hself⟩ | ⟨-, hother⟩
  · rw [hp] at hself
    cases hself
  · exact hother

omit [DecidableEq Client] [DecidableEq Completer] in
theorem putPage_register (h : PageInv s) (page : BitVec 32) :
    (s.putPage page).pageRegister = page ∧ (s.putPage page).currPage = page := by
  rw [PageState.putPage]
  split
  · rename_i heq
    exact ⟨(heq.trans h.laws.2).symm, heq.symm⟩
  · exact ⟨rfl, rfl⟩

omit [DecidableEq Completer] in
theorem putPage (h : PageInv s) {c : Client} {i : ℕ} {page : BitVec 32} {pages : List (BitVec 32)}
    (hothers : ∀ c', c' ≠ c → Agrees page (s.pc c').selected) :
    PageInv ((s.putPage page).goto c (.read i page pages)) := by
  obtain ⟨hreg, hcurr⟩ := h.putPage_register page
  obtain ⟨-, hpc, hreads⟩ := s.putPage_frame page
  refine ⟨⟨?_, hcurr.trans hreg.symm⟩, ?_⟩
  · show ∀ r ∈ (s.putPage page).reads, r.2 = r.1
    rw [hreads]
    exact h.laws.1
  · intro c' q hsel
    refine hreg.trans ?_
    rcases selected_goto hsel with ⟨-, hself⟩ | ⟨hne, hother⟩
    · exact Option.some.inj hself
    · rw [hpc] at hother
      have hagree := hothers c' hne
      rw [hother] at hagree
      exact hagree.symm

omit [DecidableEq Completer] in
theorem dmaRead (h : PageInv s) {c : Client} {i : ℕ} {page : BitVec 32} {pages : List (BitVec 32)}
    (hpc : s.pc c = .read i page pages) :
    PageInv ({ s with reads := (page, s.pageRegister) :: s.reads }.goto c (.put i pages)) := by
  have hpage : s.pageRegister = page := h.held c page (by rw [hpc]; rfl)
  have hlogged : PageInv { s with reads := (page, s.pageRegister) :: s.reads } := by
    refine ⟨⟨?_, h.laws.2⟩, h.held⟩
    intro r hr
    rcases List.mem_cons.1 hr with rfl | hr
    · exact hpage
    · exact h.laws.1 r hr
  exact hlogged.goto rfl

theorem step (h : PageInv s) {a : PageCall Client Completer} (hok : Undisturbed s a)
    (hs : pageStep s a = some s') : PageInv s' := by
  cases a with
  | core a =>
    rw [pageStep] at hs
    split at hs
    · rw [Option.map_eq_some_iff] at hs
      obtain ⟨core, -, rfl⟩ := hs
      have hcore : PageInv { s with core := core } :=
        h.of_selected rfl rfl rfl fun _ _ hsel => hsel
      cases a with
      | fetch c list acqs => exact hcore.goto rfl
      | fetchRelock c => exact hcore.goto rfl
      | _ => exact hcore
    · cases hs
  | beginEvent c =>
    rw [pageStep] at hs
    split at hs
    · split at hs
      · cases hs
        exact h.goto rfl
      · cases hs
    · cases hs
  | putPage c =>
    rw [pageStep] at hs
    split at hs
    · rename_i hpc
      cases hs
      rw [Undisturbed, hpc, OthersAgree] at hok
      exact h.putPage hok
    · cases hs
  | dmaRead c =>
    rw [pageStep] at hs
    split at hs
    · rename_i hpc
      cases hs
      exact h.dmaRead hpc
    · cases hs
  | endEvent c =>
    rw [pageStep] at hs
    split at hs
    · cases hs
      exact h.goto rfl
    · cases hs

omit [DecidableEq Client] [DecidableEq Completer] in
theorem of_fresh (h : s.Fresh) : PageInv s := by
  obtain ⟨-, hcurr, hreg, hpc, hreads⟩ := h
  refine ⟨⟨?_, hcurr.trans hreg.symm⟩, ?_⟩
  · intro r hr
    rw [hreads] at hr
    cases hr
  · intro c page hsel
    rw [hpc c] at hsel
    cases hsel

end PageInv

/-! ### A selection stays inside its transfer -/

section Transfer

variable {s s' : PageState Client Completer} {c : Client}

omit [DecidableEq Completer] in
theorem isTransfer_goto {s : CoreState Client Completer} {c' : Client} {p : ClientPhase}
    (hc : (s.clients c).isTransfer = true) (hc' : (s.clients c').isTransfer = false) :
    ((s.goto c' p).clients c).isTransfer = true := by
  have hne : c ≠ c' := by
    intro heq
    rw [heq, hc'] at hc
    cases hc
  simp only [CoreState.goto, update_of_ne hne]
  exact hc

omit [DecidableEq Completer] in
theorem isTransfer_mark {s : CoreState Client Completer} {c' : Client} {list : AcqList}
    {acqs : List Acq} (hc : (s.clients c).isTransfer = true)
    (hc' : (s.clients c').isTransfer = false) :
    ((s.mark c' list acqs).clients c).isTransfer = true := by
  rw [CoreState.mark]
  split
  · exact isTransfer_goto hc hc'
  · exact isTransfer_goto (s := { s with card := _ }) hc hc'

theorem isTransfer_of_coreStep {s s' : CoreState Client Completer}
    {a : CoreCall Client Completer} (hs : coreStep s a = some s')
    (hc : (s.clients c).isTransfer = true) (hne : a ≠ .fetchDone c) :
    (s'.clients c).isTransfer = true := by
  cases a with
  | acquire c' desc confEv =>
    rw [coreStep] at hs
    split at hs; · cases hs
    rename_i hidle
    rw [not_not] at hidle
    split at hs
    · cases hs
      exact hc
    · split at hs
      · cases hs
        exact hc
      · cases hs
        exact isTransfer_goto (s := { s with card := _ }) hc (by rw [hidle]; rfl)
  | acqStart c' =>
    rw [coreStep] at hs
    split at hs
    · rename_i hc'
      split at hs
      · cases hs
        exact isTransfer_goto hc (by rw [hc']; rfl)
      · cases hs
        exact isTransfer_goto hc (by rw [hc']; rfl)
    · cases hs
  | acqReturn c' =>
    rw [coreStep] at hs
    split at hs
    · rename_i hc'
      cases hs
      exact isTransfer_goto hc (by rw [hc']; rfl)
    · cases hs
  | fetch c' list acqs =>
    rw [coreStep] at hs
    split at hs; · cases hs
    rename_i hidle
    rw [not_or, not_not] at hidle
    have hfree : (s.clients c').isTransfer = false := by
      rw [hidle.1]
      rfl
    split at hs
    · cases hs
      exact hc
    · cases hs
      rw [CoreState.fetchLocked]
      split
      · exact hc
      · split
        · split
          · exact isTransfer_goto hc hfree
          · exact hc
        · exact isTransfer_mark hc hfree
  | fetchRelock c' =>
    rw [coreStep] at hs
    split at hs
    · rename_i hc'
      cases hs
      exact isTransfer_mark hc (by rw [hc']; rfl)
    · cases hs
  | fetchGiveUp c' =>
    rw [coreStep] at hs
    split at hs
    · rename_i hc'
      cases hs
      exact isTransfer_goto hc (by rw [hc']; rfl)
    · cases hs
  | fetchDone c' =>
    have hother : c ≠ c' := by
      intro heq
      exact hne (by rw [heq])
    rw [coreStep] at hs
    split at hs
    · cases hs
      simp only [CoreState.goto, update_of_ne hother]
      exact hc
    · cases hs
  | storeNSegments segments =>
    rw [coreStep] at hs
    split at hs
    · cases hs
      exact hc
    · cases hs
      exact hc
  | results i nrEvents endtime =>
    cases hs
    exact hc
  | load k =>
    cases hs
    exact hc
  | clear k =>
    rw [coreStep] at hs
    split at hs
    · cases hs
    · cases hs
      exact hc

omit [DecidableEq Completer] in
theorem SelectsInTransfer.goto (h : SelectsInTransfer s) {p : TransferPc}
    (hp : p.selected ≠ none → (s.core.clients c).isTransfer = true) :
    SelectsInTransfer (s.goto c p) := by
  intro c' hsel
  by_cases hc : c' = c
  · subst hc
    simp only [PageState.goto, update_self] at hsel
    exact hp hsel
  · simp only [PageState.goto, update_of_ne hc] at hsel
    exact h c' hsel

theorem SelectsInTransfer.step (h : SelectsInTransfer s) {a : PageCall Client Completer}
    (hs : pageStep s a = some s') : SelectsInTransfer s' := by
  cases a with
  | core a =>
    rw [pageStep] at hs
    split at hs
    · rename_i hmay
      rw [Option.map_eq_some_iff] at hs
      obtain ⟨core, hcore, rfl⟩ := hs
      have hkept : SelectsInTransfer { s with core := core } := by
        intro c hsel
        refine isTransfer_of_coreStep hcore (h c hsel) ?_
        intro heq
        rw [heq] at hmay
        exact hsel (Option.isNone_iff_eq_none.1 hmay)
      cases a with
      | fetch c list acqs => exact hkept.goto fun hsel => absurd rfl hsel
      | fetchRelock c => exact hkept.goto fun hsel => absurd rfl hsel
      | _ => exact hkept
    · cases hs
  | beginEvent c =>
    rw [pageStep] at hs
    split at hs
    · split at hs
      · cases hs
        exact h.goto fun hsel => absurd rfl hsel
      · cases hs
    · cases hs
  | putPage c =>
    rw [pageStep] at hs
    split at hs
    · rename_i page pages hc _
      cases hs
      obtain ⟨hcore, hpc, -⟩ := s.putPage_frame (page &&& adcMemPageMask)
      have hsame : SelectsInTransfer (s.putPage (page &&& adcMemPageMask)) := by
        intro c' hsel
        rw [hpc] at hsel
        rw [hcore]
        exact h c' hsel
      refine hsame.goto fun _ => ?_
      rw [hcore, hc]
      rfl
    · cases hs
  | dmaRead c =>
    rw [pageStep] at hs
    split at hs
    · cases hs
      exact SelectsInTransfer.goto (s := { s with reads := _ }) h fun hsel => absurd rfl hsel
    · cases hs
  | endEvent c =>
    rw [pageStep] at hs
    split at hs
    · cases hs
      exact h.goto fun hsel => absurd rfl hsel
    · cases hs

theorem PageInv.misread (hinv : PageInv s) (htransfer : SelectsInTransfer s)
    {a : PageCall Client Completer} (hs : pageStep s a = some s') (hok : ¬ Undisturbed s a) :
    ∃ c' s'', pageStep s' (.dmaRead c') = some s'' ∧ ¬ PageLaws s'' := by
  cases a with
  | putPage c =>
    rw [pageStep] at hs
    split at hs
    · rename_i i page pages hc hpc
      cases hs
      rw [Undisturbed, hpc, OthersAgree] at hok
      simp only [not_forall] at hok
      obtain ⟨c', hne, hdiff⟩ := hok
      cases hsel : s.pc c' with
      | event j =>
        rw [hsel] at hdiff
        exact absurd trivial hdiff
      | put j ps =>
        rw [hsel] at hdiff
        exact absurd trivial hdiff
      | read j q ps =>
        rw [hsel] at hdiff
        obtain ⟨hcore, hpcs, -⟩ := s.putPage_frame (page &&& adcMemPageMask)
        obtain ⟨hreg, -⟩ := hinv.putPage_register (page &&& adcMemPageMask)
        have hphase := htransfer c' (by simp [hsel, TransferPc.selected])
        set t := (s.putPage (page &&& adcMemPageMask)).goto c
          (.read i (page &&& adcMemPageMask) pages) with ht
        have htpc : t.pc c' = .read j q ps := by
          simp only [ht, PageState.goto, update_of_ne hne, hpcs, hsel]
        have htcore : t.core.clients c' = s.core.clients c' := congrArg (·.clients c') hcore
        refine ⟨c', { t with reads := (q, t.pageRegister) :: t.reads }.goto c' (.put j ps), ?_, ?_⟩
        · cases hclient : s.core.clients c' with
          | transferring list acqs n time => simp only [pageStep, htcore, hclient, htpc]
          | _ =>
            rw [hclient] at hphase
            cases hphase
        · intro hlaws
          have hread := hlaws.1 (q, t.pageRegister) List.mem_cons_self
          exact hdiff (hread.symm.trans hreg)
    · cases hs
  | _ => exact absurd trivial hok

end Transfer

/-! ### Whole runs -/

section Runs

variable {s : PageState Client Completer}

theorem PageInv.of_reach (h : (pageSystem Client Completer).ReachUnder Undisturbed s) :
    PageInv s := by
  refine h.invariant ?_ ?_
  · intro s₀ hs₀
    exact PageInv.of_fresh hs₀
  · intro s₀ a s₁ hinv hok hs
    exact hinv.step hok hs

theorem SelectsInTransfer.of_reach (h : (pageSystem Client Completer).Reach s) :
    SelectsInTransfer s := by
  refine h.invariant ?_ ?_
  · intro s₀ hs₀ c hsel
    rw [hs₀.2.2.2.1 c] at hsel
    exact absurd rfl hsel
  · intro s₀ a s₁ hinv hs
    exact hinv.step hs

/-- **A selection too early.**  In a run without one so far, a transfer that selects a page while
another has selected a different one makes the next read of that one a wrong one. -/
theorem misread_of_disturbed (h : (pageSystem Client Completer).ReachUnder Undisturbed s)
    {a : PageCall Client Completer} {s' : PageState Client Completer}
    (hs : pageStep s a = some s') (hok : ¬ Undisturbed s a) :
    ∃ c' s'', pageStep s' (.dmaRead c') = some s'' ∧ ¬ PageLaws s'' :=
  (PageInv.of_reach h).misread (.of_reach (h.mono fun _ _ _ => trivial)) hs hok

end Runs

/-- **The page register.**  In every run in which no transfer selects a page while another has
selected a different one and not read it, every DMA read finds the page its transfer selected, and
the cached page is the register. -/
theorem pageRegister_laws (s : PageState Client Completer)
    (h : (pageSystem Client Completer).ReachUnder Undisturbed s) : PageLaws s :=
  (PageInv.of_reach h).laws

/-- A card just registered, its memory cut into two segments of 16 Msamples. -/
def twoSegments : PageState (Fin 2) Unit :=
  { core :=
      { card :=
          { ops := ⟨true, true, true, true⟩
            maxNrEvents := 512
            nChannels := 8
            evLengths := [33554432, 64]
            nSegmentsMax := 2
            nSegmentsMin := 1
            nSegments := 2
            segments := fun _ => ⟨false, false, 0, 0, ⟨0, 0⟩⟩
            currSegment := 0 }
        clients := fun _ => .idle
        loaded := fun _ => none }
    currPage := 0
    pageRegister := 0
    pc := fun _ => .event 0
    reads := [] }

/-- One event of 64 samples is acquired into each segment, and each client fetches one. -/
def twoFetches : List (PageCall (Fin 2) Unit) :=
  [.core (.acquire 0 ⟨0, 1, 64, 1, ⟨0, 0⟩⟩ 0), .core (.acqStart 0), .core (.results 0 1 ⟨7, 0⟩),
    .core (.load ()), .core (.clear ()), .core (.acqReturn 0),
    .core (.acquire 0 ⟨1, 1, 64, 1, ⟨0, 0⟩⟩ 0), .core (.acqStart 0), .core (.results 1 1 ⟨8, 0⟩),
    .core (.load ()), .core (.clear ()), .core (.acqReturn 0),
    .core (.fetch 0 ⟨0, 0, 0, 1, 0, ⟨0, 0⟩, ⟨0, 0⟩⟩ [⟨0, 128, 0, 0, 0, 0, 0⟩]),
    .core (.fetch 1 ⟨1, 0, 0, 1, 0, ⟨0, 0⟩, ⟨0, 0⟩⟩ [⟨0, 128, 0, 0, 0, 0, 0⟩]),
    .beginEvent 0, .beginEvent 1]

theorem reach_twoSegments
    (ok : PageState (Fin 2) Unit → PageCall (Fin 2) Unit → Prop) :
    (pageSystem (Fin 2) Unit).ReachUnder ok twoSegments := by
  have hfresh : twoSegments.Fresh :=
    ⟨⟨fun _ => ⟨rfl, rfl⟩, fun _ => rfl, fun _ => rfl⟩, rfl, rfl, fun _ => rfl, rfl⟩
  exact System.ReachUnder.init hfresh

/-- Both clients transfer at once, one read after the other. -/
theorem pageRegister_laws_run :
    ∃ s : PageState (Fin 2) Unit, (pageSystem (Fin 2) Unit).ReachUnder Undisturbed s ∧
      s.reads = [(4, 4), (0, 0)] ∧ PageLaws s := by
  let s := System.runUnder pageStep Undisturbed twoSegments
    (twoFetches ++ [.putPage 0, .dmaRead 0, .putPage 1, .dmaRead 1])
  have hs : (pageSystem (Fin 2) Unit).ReachUnder Undisturbed s :=
    System.ReachUnder.runUnder (reach_twoSegments _) _
  exact ⟨s, hs, by decide, pageRegister_laws s hs⟩

theorem misread_of_disturbed_twoFetches :
    ∃ (s' : PageState (Fin 2) Unit) (c : Fin 2) (s'' : PageState (Fin 2) Unit),
      pageStep s' (.dmaRead c) = some s'' ∧ ¬ PageLaws s'' := by
  let s := System.runUnder pageStep Undisturbed twoSegments (twoFetches ++ [.putPage 0])
  have hs : (pageSystem (Fin 2) Unit).ReachUnder Undisturbed s :=
    System.ReachUnder.runUnder (reach_twoSegments _) _
  obtain ⟨s', hstep⟩ := Option.isSome_iff_exists.1
    (show (pageStep s (.putPage 1)).isSome = true by decide)
  exact ⟨s', misread_of_disturbed hs hstep (by decide)⟩

/-- The second client selects its page between the selection and the read of the first. -/
theorem two_segments_share_register :
    ¬ ∀ s : PageState (Fin 2) Unit, (pageSystem (Fin 2) Unit).Reach s → PageLaws s := by
  intro hall
  let s := System.runUnder pageStep (fun _ _ => True) twoSegments
    (twoFetches ++ [.putPage 0, .putPage 1, .dmaRead 0])
  have hs : (pageSystem (Fin 2) Unit).Reach s :=
    System.ReachUnder.runUnder (reach_twoSegments _) _
  have hlaw := (hall s hs).1 (0, 4) (by decide)
  exact absurd hlaw (by decide)

end KernelModules.Sis33
