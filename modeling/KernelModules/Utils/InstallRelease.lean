import Mathlib.Tactic
import KernelModules.Utils.InstallGrowth

/-!
# What is left of an install file that is refused

When `DoElement` gives up it frees the host that it was building, and the caller frees the host that
it got.

* `Releases` is what this is for: no block is freed twice or used after it was freed, and a file that
  is refused leaves nothing behind;
* `visited` are the elements that the walk gets to, each with the state before it; `givesUpAddress`
  are those that free an address that the module still has, `replacesHost` those that forget a host
  and `losesModule` those that allocate a module, which nothing frees;
* every element keeps the blocks a tree that the static variables point into, and makes no fault
  (`element_safe`);
* `Bare` is what holds as long as there is no module: all blocks are the host and its drivers, and an
  error exit frees them (`element_clears`);
* `doElement_ends` says how the walk ends, and `install_file_released` is the result.
-/

namespace KernelModules.Utils.Install

open Function

/-! ### What the walk meets -/

section Conditions

variable (fails : Block → Bool)

/-- An address that is freed when its attributes were read. -/
def addressGivenUp {α : Type} (missing : α → Bool) (r : LoopEnd × α × State) : Bool :=
  r.1 = .quit || r.1 = .all && missing r.2.1

/-- The element frees an address that was put into a module whose bus is known. -/
def givesUpAddress (e : Element) (s : State) : Bool :=
  match s.modld with
  | none => false
  | some m =>
    let n := s.elements
    let busType := (s.modls m).busType
    let s := { s with elements := n + 1 }
    match e.key with
    | .PCI =>
      let r := newAddress fails n m (busType ≠ .pmc && busType ≠ .pci) s
      r.1 && addressGivenUp pciMissing
        (readProps pciProps e.properties none (⟨0, 0, 0, 0, 0, 0, ""⟩, r.2))
    | .CARRIER =>
      let r := newAddress fails n m false (s.check (busType ≠ .carrier))
      r.1 && busType ≠ .notSet && addressGivenUp carMissing
        (readProps carProps e.properties none (⟨"", 0, 0, ""⟩, r.2))
    | _ => false

/-- The element starts another host. -/
def replacesHost (e : Element) (s : State) : Bool := e.key = .INSTALL && s.hostd.isSome

/-- The element allocates blocks for a module, other than those it frees itself. -/
def losesModule (e : Element) (s : State) : Bool :=
  let n := s.elements
  let r := readProps (moduleProps fails n) e.properties none
    (⟨.notSet, 0, 0, none, "", "", none, none⟩, { s with elements := n + 1 }.malloc (n, 0))
  e.key = .MODULE && s.drvrd.isSome && !fails (n, 0) && !(r.1 = .quit && !r.2.2.live (n, 1))

/-- The elements that the walk gets to, each with the state before it. -/
def visited : XmlNode → State → List (Element × State)
  | .null, _ => []
  | .other children next, s =>
    visited children s ++
      match doElement fails children s with
      | (.goes, s) => visited next s
      | _ => []
  | .element name properties children next, s =>
    (⟨name, properties⟩, s) ::
      match element fails ⟨name, properties⟩ s with
      | (.goes, s) =>
        visited children s ++
          match doElement fails children s with
          | (.goes, s) => visited next s
          | _ => []
      | _ => []

/-- No block is freed twice or used after it was freed, neither in the walk nor when the host that it
returned is freed, and a file that is refused leaves no block behind. -/
structure Releases (root : XmlNode) : Prop where
  walk : (insLibParseInstallFile fails root .fresh).2.faults = 0
  host : ∀ h, (insLibParseInstallFile fails root .fresh).1 = some h →
    (insLibFreeHost h (insLibParseInstallFile fails root .fresh).2).faults = 0
  refused : (insLibParseInstallFile fails root .fresh).1 = some none →
    ∀ b, (insLibParseInstallFile fails root .fresh).2.live b = false

end Conditions

/-! ### The elements of a file -/

/-- There is no fault; when the walk goes on, what is linked is allocated, and a host stays one. -/
def Safe (s : State) (r : Step × State) : Prop :=
  r.2.faults = s.faults ∧
    (r.1 = .goes → (∃ parent, Held parent r.2) ∧ (r.2.hostd = none → s.hostd = none))

theorem Safe.goes {parent : ℕ → Slot} {s s' : State} (h : Held parent s')
    (hkept : s'.faults = s.faults ∧ (s'.hostd = none → s.hostd = none)) : Safe s (.goes, s') :=
  ⟨hkept.1, fun _ => ⟨⟨parent, h⟩, hkept.2⟩⟩

theorem Safe.undefined {s s' : State} (hfaults : s'.faults = s.faults) : Safe s (.undefined, s') :=
  ⟨hfaults, nofun⟩

theorem giveUp_eq {parent : ℕ → Slot} {s : State} (h : Tree parent s) :
    giveUp s = (.null, remove (s.hostd.toList.flatMap (blocksOfHost s)) s) :=
  congrArg (Prod.mk Step.null) h.insLibFreeHost_eq

theorem giveUp_safe {parent : ℕ → Slot} {s s' : State} (h : Tree parent s')
    (hfaults : s'.faults = s.faults) : Safe s (giveUp s') := by
  rw [giveUp_eq h]
  exact ⟨hfaults, nofun⟩

theorem useAll_of_live {l : List ℕ} {s : State} (h : ∀ x ∈ l, s.live (x, 0) = true) :
    useAll l s = s := by
  induction l with
  | nil => rfl
  | cons x l ih =>
    show useAll l (s.use (x, 0)) = s
    rw [use_of_live (h x List.mem_cons_self)]
    exact ih fun y hy => h y (List.mem_cons_of_mem _ hy)

section Elements

variable {fails : Block → Bool} {n : ℕ} {props : List XmlAttr} {s : State} {parent : ℕ → Slot}

theorem readProps_malloc {α β : Type} {m : Option ℕ} {π : α → β} {reader : Reader (α × State)}
    (props : List XmlAttr) (hplain : ∀ k f, reader k = some f → Plain m π f) (x : α) (b : Block)
    (hlive : ∀ x ∈ m, s.live (x, 0) = true) :
    ∃ step x' s', readProps reader props none (x, s.malloc b) = (step, x', s'.malloc b) ∧
      π x' = π x ∧ Said s s' := by
  obtain ⟨hpart, hsaid⟩ := readProps_said hplain props none (x, s.malloc b)
    fun y hy => malloc_keeps (hlive y hy)
  obtain ⟨s', hs', heq⟩ := hsaid.malloc
  exact ⟨_, _, s', by rw [← heq], hpart, hs'⟩

theorem check_malloc (s : State) (b : Block) (bad : Bool) :
    (s.malloc b).check bad = (s.check bad).malloc b := by
  cases bad <;> rfl

theorem handleInstallNode_safe (h : Held parent s) (hn : New n s) :
    Safe s (handleInstallNode fails n props s) := by
  unfold handleInstallNode
  split
  · exact ⟨rfl, nofun⟩
  · obtain ⟨step, hostd, s', hrun, hnone, hsaid⟩ := readProps_malloc (m := none) (s := s)
      props (fun k f => installProps_plain) ⟨"", "", []⟩ (n, 0) nofun
    rw [hrun]
    split
    · rename_i heq
      cases heq
      exact .undefined hsaid.faults
    · rename_i heq
      cases heq
      have hall := hsaid.trans (.check s' (hostd.hostName = ""))
      dsimp only
      rw [check_malloc]
      exact .goes ((h.said hall).addHost (hn.said hall) hnone) ⟨hall.faults, nofun⟩

theorem addDriverNode_eq {hostd : ℕ} (hhost : s.live (hostd, 0) = true)
    (hdrivers : ∀ d ∈ (s.hosts hostd).drivers, s.live (d, 0) = true) :
    addDriverNode hostd n s = withDriver hostd n s := by
  unfold addDriverNode
  dsimp only
  rw [use_of_live hhost, useAll_of_live hdrivers]
  rfl

theorem handleDriverNode_safe (h : Held parent s) (hn : New n s) :
    Safe s (handleDriverNode fails n props s) := by
  unfold handleDriverNode
  split
  · exact ⟨rfl, nofun⟩
  · rename_i hostd hhost
    split
    · exact giveUp_safe (h.tree.last (s.errors + 1) none s.modld) rfl
    · obtain ⟨step, drvrd, s', hrun, hnone, hsaid⟩ := readProps_malloc (m := none) (s := s)
        props (fun k f => driverProps_plain) ⟨"", 0, 0, "", -1, 0, []⟩ (n, 0) nofun
      rw [hrun]
      split
      · rename_i heq
        cases heq
        exact .undefined hsaid.faults
      · rename_i heq
        cases heq
        have hall := hsaid.trans (.check s' (drvrd.drvrName = ""))
        have hheld := h.said hall
        have hlive : (s'.check (drvrd.drvrName = "")).live (hostd, 0) = true := by
          rw [hall.live]
          exact (h.tree.host_mem hhost).1
        have hgood := Safe.goes (s := s) (hheld.addDriver (hn.said hall) hostd hnone) hall.kept
        rw [← addDriverNode_eq] at hgood
        · dsimp only
          rw [check_malloc]
          exact hgood
        · exact malloc_keeps hlive
        · exact fun d hd => malloc_keeps ((hheld.tree.drivers hostd).live d hd)

theorem addModuleNode_eq {drvrd : ℕ} (hdrvrd : s.live (drvrd, 0) = true)
    (hmodules : ∀ m ∈ (s.drvrs drvrd).modules, s.live (m, 0) = true) :
    addModuleNode drvrd n s = withModule drvrd n s := by
  unfold addModuleNode
  dsimp only
  rw [use_of_live hdrvrd, useAll_of_live hmodules]
  rfl

/-- What the attributes of a module have done so far: its extra parameters have the number of the
module, and besides them nothing is allocated. -/
structure Loaded (n : ℕ) (s : State) (r : InsLibModlDesc × State) : Prop where
  isr : r.1.isr = none
  address : r.1.moduleAddress = none
  extra : OwnsExtra r.2.live n r.1
  first : r.1.extra ≠ none → r.2.live (n, 1) = true
  rest : ∃ errors live, r.2 = { s with errors := errors, live := live }
  kept : ∀ b, s.live b = true → r.2.live b = true
  new : ∀ b, r.2.live b = true → s.live b = true ∨ b.1 = n ∧ b.2 ≠ 0 ∧ r.2.live (n, 1) = true

namespace Loaded

variable {modld : InsLibModlDesc} {s' : State}

theorem said (h : Loaded n s (modld, s')) {m' : InsLibModlDesc} {t : State}
    (hm : m'.isr = modld.isr ∧ m'.moduleAddress = modld.moduleAddress ∧ m'.extra = modld.extra)
    (hsaid : ∃ errors, t = { s' with errors := errors }) : Loaded n s (m', t) := by
  obtain ⟨hisr, haddress, hextra⟩ := hm
  obtain ⟨errors, rfl⟩ := hsaid
  obtain ⟨errors', live, hrest⟩ := h.rest
  refine ⟨hisr.trans h.isr, haddress.trans h.address, fun x hx => h.extra x (hextra.symm.trans hx),
    fun hne => h.first (hextra ▸ hne), ⟨errors, live, ?_⟩, h.kept, h.new⟩
  dsimp only at hrest ⊢
  rw [hrest]

theorem noExtra (h : Loaded n s (modld, s')) :
    Loaded n s ({ modld with extra := none }, s'.prnterr) := by
  obtain ⟨errors, live, hrest⟩ := h.rest
  refine ⟨h.isr, h.address, nofun, fun hne => absurd rfl hne, ⟨s'.errors + 1, live, ?_⟩, h.kept,
    h.new⟩
  dsimp only at hrest
  rw [hrest]
  rfl

theorem addExtra (h : Loaded n s (modld, s')) (v : String) :
    Loaded n s ({ modld with extra := some (extraBlock n modld, v) },
      s'.malloc (extraBlock n modld)) := by
  have hfirst : (s'.malloc (extraBlock n modld)).live (n, 1) = true := by
    by_cases hnone : modld.extra = none
    · have hb : extraBlock n modld = (n, 1) := by
        unfold extraBlock
        rw [hnone]
        rfl
      rw [hb]
      exact malloc_live s' _
    · exact malloc_keeps (h.first hnone)
  obtain ⟨errors, live, hrest⟩ := h.rest
  refine ⟨h.isr, h.address, ?_, fun _ => hfirst, ⟨errors, update live (extraBlock n modld) true, ?_⟩,
    fun b hb => malloc_keeps (h.kept b hb), fun b hb => ?_⟩
  · rintro x hx
    cases hx
    exact ⟨malloc_live s' _, rfl, Nat.succ_ne_zero _⟩
  · dsimp only at hrest
    rw [hrest]
    rfl
  · rcases malloc_cases hb with hb | rfl
    · exact (h.new b hb).imp_right fun ⟨h1, h2, _⟩ => ⟨h1, h2, hfirst⟩
    · exact .inr ⟨rfl, Nat.succ_ne_zero _, hfirst⟩

theorem step {r : InsLibModlDesc × State} (h : Loaded n s r) {k : KeyWord}
    {f : Option Text → InsLibModlDesc × State → Option (Next (InsLibModlDesc × State))}
    (hf : moduleProps fails n k = some f) {v : Option Text} {next : Next (InsLibModlDesc × State)}
    (hnext : f v r = some next) : Loaded n s next.state := by
  obtain ⟨modld, s'⟩ := r
  unfold moduleProps at hf
  split at hf
  · cases hf
    obtain ⟨t, -, rfl⟩ := Option.map_eq_some_iff.mp hnext
    dsimp only
    split
    · exact h.said ⟨rfl, rfl, rfl⟩ ⟨_, rfl⟩
    · exact h.said ⟨rfl, rfl, rfl⟩ ⟨s'.errors + 1, rfl⟩
  · cases hf
    obtain ⟨t, -, rfl⟩ := Option.map_eq_some_iff.mp hnext
    dsimp only
    split
    · exact h.said ⟨rfl, rfl, rfl⟩ ⟨s'.errors + 1, rfl⟩
    · refine h.said ⟨rfl, rfl, rfl⟩ ?_
      show ∃ errors, ((s'.check _).check _) = _
      unfold State.check
      split <;> split <;> exact ⟨_, rfl⟩
  · cases hf
    obtain ⟨t, -, rfl⟩ := Option.map_eq_some_iff.mp hnext
    dsimp only
    split
    · exact h.noExtra
    · exact h.addExtra _
  · cases hf
    obtain ⟨t, -, rfl⟩ := Option.map_eq_some_iff.mp hnext
    exact h.said ⟨rfl, rfl, rfl⟩ ⟨_, rfl⟩
  · cases hf
    cases hnext
    exact h.said ⟨rfl, rfl, rfl⟩ ⟨_, rfl⟩
  · cases hf
    obtain ⟨t, -, rfl⟩ := Option.map_eq_some_iff.mp hnext
    exact h.said ⟨rfl, rfl, rfl⟩ ⟨_, rfl⟩
  · cases hf

theorem start (n : ℕ) (s : State) :
    Loaded n s (⟨.notSet, 0, 0, none, "", "", none, none⟩, s) :=
  ⟨rfl, rfl, nofun, fun hne => absurd rfl hne, ⟨s.errors, s.live, rfl⟩, fun _ hb => hb,
    fun _ hb => .inl hb⟩

end Loaded

theorem readProps_module (fails : Block → Bool) (n : ℕ) (props : List XmlAttr) (s : State) :
    Loaded n s (readProps (moduleProps fails n) props none
      (⟨.notSet, 0, 0, none, "", "", none, none⟩, s)).2 :=
  readProps_rel (R := fun r r' => Loaded n s r → Loaded n s r') (fun _ h => h)
    (fun h h' h0 => h' (h h0)) (fun _ _ hf _ _ _ hnext h => h.step hf hnext) props none _ (.start n s)

theorem Loaded.grows {r : InsLibModlDesc × State} (hr : Loaded n (s.malloc (n, 0)) r) (hn : New n s)
    (parent : ℕ → Slot) (slot : Slot) : Grows n parent (update parent n slot) s.live r.2.live where
  kept b hb := hr.kept b (malloc_keeps hb)
  same _ hx := update_of_ne hx ..
  new := hn.above

theorem Loaded.grows_freed {r : InsLibModlDesc × State} (hr : Loaded n (s.malloc (n, 0)) r)
    (hn : New n s) (parent : ℕ → Slot) :
    Grows n parent parent s.live (remove [(n, 0)] r.2).live where
  kept b hb := remove_live.mpr ⟨hr.kept b (malloc_keeps hb), fun hmem =>
    hn.above b hb (by rw [List.mem_singleton.mp hmem])⟩
  same _ _ := rfl
  new := hn.above

theorem Held.addModule (h : Held parent s) (hn : New n s) (drvrd : ℕ) {r : InsLibModlDesc × State}
    (hr : Loaded n (s.malloc (n, 0)) r) :
    Held (update parent n (.module drvrd)) (withModule drvrd n
      { r.2 with modls := update r.2.modls n r.1, modld := some n }) := by
  have hg := hr.grows hn parent (.module drvrd)
  have hnew : r.2.live (n, 0) = true := hr.kept _ (malloc_live s _)
  have hall : Held (update parent n (.module drvrd)) { s with live := r.2.live } :=
    h.grow hn hg fun b hb => (hr.new b hb).elim
      (fun hb => (malloc_cases hb).imp_right fun heq => by rw [heq]) fun hb => .inr hb.1
  obtain ⟨modld, s'⟩ := r
  obtain ⟨errors, live, hrest⟩ := hr.rest
  dsimp only at hrest
  subst hrest
  refine ⟨⟨hall.tree.host, hall.tree.drivers,
    forall_update (P := fun x (d : InsLibDrvrDesc) => Owns _ _ (.module x) d.modules)
      hall.tree.modules ?_,
    forall_update (P := fun x (d : InsLibModlDesc) => Owns _ _ (.address x) (freedAddress d))
      hall.tree.address ?_,
    forall_update (P := fun x (d : InsLibModlDesc) =>
      Owns _ _ (.isr x) ((d.isr.map Prod.fst).toList)) hall.tree.isr ?_,
    forall_update (P := OwnsExtra _) hall.tree.extra hr.extra,
    hall.tree.spaces⟩, hall.below, hall.drvrd, ?_, hall.pcima, hall.vmema, hall.carma⟩
  · exact ((h.tree.modules drvrd).add hg hnew (update_self ..)).perm
      (List.perm_append_singleton _ _)
  · have hnone : freedAddress modld = [] := by
      unfold freedAddress
      rw [show modld.moduleAddress = none from hr.address]
      split <;> rfl
    rw [hnone]
    exact .nil
  · rw [show modld.isr = none from hr.isr]
    exact .nil
  · rintro x hx
    cases hx
    exact hnew

theorem handleModuleNode_safe (h : Held parent s) (hn : New n s) :
    Safe s (handleModuleNode fails n props s) := by
  unfold handleModuleNode
  split
  · exact giveUp_safe (h.tree.said (.prnterr s)) rfl
  · rename_i drvrd hdrvrd
    split
    · exact giveUp_safe (h.tree.last (s.errors + 1) s.drvrd none) rfl
    · have hr := readProps_module fails n props (s.malloc (n, 0))
      generalize readProps (moduleProps fails n) props none
        (⟨.notSet, 0, 0, none, "", "", none, none⟩, s.malloc (n, 0)) = run at hr ⊢
      obtain ⟨step, modld, s'⟩ := run
      obtain ⟨errors, live, hrest⟩ := hr.rest
      dsimp only at hrest
      split
      · rename_i heq
        cases heq
        rw [hrest]
        exact .undefined rfl
      · rename_i heq
        cases heq
        have hnew : s'.live (n, 0) = true := hr.kept _ (malloc_live s _)
        have hg := hr.grows_freed hn parent
        dsimp only
        rw [free_of_live hnew]
        rw [hrest] at hg ⊢
        exact giveUp_safe ((h.tree.grow hg).last errors s.drvrd none) rfl
      · rename_i heq
        cases heq
        have hcheck : Loaded n (s.malloc (n, 0)) (modld, s'.check (modld.busType = .notSet)) := by
          refine hr.said ⟨rfl, rfl, rfl⟩ ?_
          unfold State.check
          split <;> exact ⟨_, rfl⟩
        obtain ⟨errors', live', hrest'⟩ := hcheck.rest
        dsimp only at hrest' ⊢
        have hgood : Safe s (.goes, _) := .goes (h.addModule hn drvrd hcheck) (by
          dsimp only
          rw [hrest']
          exact ⟨rfl, id⟩)
        dsimp only at hgood
        rw [← addModuleNode_eq] at hgood
        · exact hgood
        · exact hcheck.kept _ (malloc_keeps (h.drvrd drvrd hdrvrd))
        · intro m hm
          rw [hrest'] at hm
          exact hcheck.kept _ (malloc_keeps ((h.tree.modules drvrd).live m hm))

theorem interruptNode_safe (h : Held parent s) (hn : New n s) :
    Safe s (interruptNode fails n props s) := by
  unfold interruptNode
  split
  · exact giveUp_safe (h.tree.said (.prnterr s)) rfl
  · rename_i m hm
    split
    · exact giveUp_safe (h.tree.said (.prnterr s)) rfl
    · obtain ⟨step, isr, s', hrun, -, hsaid⟩ := readProps_malloc (m := none) (s := s)
        props (fun k f => interruptProps_plain) ⟨1, 0, 0, ""⟩ (n, 0) nofun
      rw [use_of_live (malloc_keeps (h.modld m hm)), hrun]
      split
      · rename_i heq
        cases heq
        exact .undefined hsaid.faults
      · rename_i heq
        cases heq
        exact .goes ((h.said hsaid).addIsr (hn.said hsaid) m isr) hsaid.kept

theorem Held.cursors (h : Held parent s) {pcima vmema carma : Option ℕ}
    (hpcima : ∀ x ∈ pcima, s.live (x, 0) = true) (hvmema : ∀ x ∈ vmema, s.live (x, 0) = true)
    (hcarma : ∀ x ∈ carma, s.live (x, 0) = true) :
    Held parent { s with pcima := pcima, vmema := vmema, carma := carma } where
  tree := ⟨h.tree.host, h.tree.drivers, h.tree.modules, h.tree.address, h.tree.isr, h.tree.extra,
    h.tree.spaces⟩
  below := h.below
  drvrd := h.drvrd
  modld := h.modld
  pcima := hpcima
  vmema := hvmema
  carma := hcarma

theorem New.grows_freed (hn : New n s) (parent : ℕ → Slot) :
    Grows n parent parent s.live (remove [(n, 0)] (s.malloc (n, 0))).live where
  kept b hb := remove_live.mpr ⟨malloc_keeps hb, fun hmem =>
    hn.above b hb (by rw [List.mem_singleton.mp hmem])⟩
  same _ _ := rfl
  new := hn.above

theorem Held.freed (h : Held parent s) (hn : New n s) :
    Held parent { s with live := (remove [(n, 0)] (s.malloc (n, 0))).live } := by
  refine h.grow hn (hn.grows_freed parent) fun b hb => ?_
  obtain ⟨hb, hne⟩ := remove_live.mp hb
  exact (malloc_cases hb).imp_right fun heq => absurd (List.mem_singleton.mpr heq) hne

theorem newAddress_cases (fails : Block → Bool) (h : Held parent s) (hn : New n s) {m : ℕ}
    (hm : s.modld = some m) (badBus : Bool) :
    newAddress fails n m badBus s = (true, withAddress n m (s.malloc (n, 0))) ∨
      ∃ s', newAddress fails n m badBus s = (false, s') ∧ Held parent s' ∧
        s'.faults = s.faults ∧ (s'.hostd = none → s.hostd = none) := by
  unfold newAddress
  dsimp only
  rw [use_of_live (h.modld m hm)]
  split
  · exact .inr ⟨_, rfl, h.said (.prnterr s), rfl, id⟩
  · split
    · exact .inr ⟨_, rfl, h.said (.prnterr s), rfl, id⟩
    · split
      · refine .inr ⟨_, rfl, ?_, ?_⟩
        · rw [free_of_live (s := (s.malloc (n, 0)).prnterr) (malloc_live s _)]
          exact (h.freed hn).said (.prnterr _)
        · rw [free_of_live (s := (s.malloc (n, 0)).prnterr) (malloc_live s _)]
          exact ⟨rfl, id⟩
      · exact .inl rfl

theorem Said.withAddress {m : ℕ} {s' : State}
    (h : Said (withAddress n m (s.malloc (n, 0))) s') :
    ∃ s1, Said s s1 ∧ s' = Install.withAddress n m (s1.malloc (n, 0)) := by
  obtain ⟨errors, addrs, rfl, hspaces⟩ := h
  exact ⟨_, ⟨errors, addrs, rfl, hspaces⟩, rfl⟩

theorem readProps_address {α : Type} {reader : Reader (α × State)} (props : List XmlAttr)
    (hplain : ∀ k f, reader k = some f → Plain none (fun _ => ()) f) (x : α) (m : ℕ) :
    ∃ step x' s', readProps reader props none (x, withAddress n m (s.malloc (n, 0))) =
      (step, x', withAddress n m (s'.malloc (n, 0))) ∧ Said s s' := by
  obtain ⟨-, hsaid⟩ :=
    readProps_said hplain props none (x, withAddress n m (s.malloc (n, 0))) nofun
  obtain ⟨s', hs', heq⟩ := hsaid.withAddress
  exact ⟨_, _, s', by rw [← heq], hs'⟩

theorem parsePciAddressTag_safe (h : Held parent s) (hn : New n s)
    (hkept : ∀ m, s.modld = some m →
      let r := newAddress fails n m
        ((s.modls m).busType ≠ .pmc && (s.modls m).busType ≠ .pci) s
      (r.1 && addressGivenUp pciMissing
        (readProps pciProps props none (⟨0, 0, 0, 0, 0, 0, ""⟩, r.2))) = false) :
    Safe s (parsePciAddressTag fails n props s) := by
  unfold parsePciAddressTag
  split
  · exact .goes ((h.said (.prnterr s)).cursors nofun h.vmema h.carma) ⟨rfl, id⟩
  · rename_i m hm
    have hkept := hkept m hm
    dsimp only at hkept ⊢
    rcases newAddress_cases fails h hn hm
      ((s.modls m).busType ≠ .pmc && (s.modls m).busType ≠ .pci) with heq | ⟨s', heq, hheld, hkeeps⟩
    · obtain ⟨step, a, s', hrun, hsaid⟩ := readProps_address (n := n) (s := s) props
        (fun k f => pciProps_plain) ⟨0, 0, 0, 0, 0, 0, ""⟩ m
      have hgood : Safe s (.goes, { setAddress n (.pci a) (withAddress n m (s'.malloc (n, 0))) with
          pcima := some n }) :=
        .goes (((h.said hsaid).addAddress (hn.said hsaid) m (.pci a)).cursors
          (fun x hx => by cases hx; exact malloc_live s' _)
          (fun x hx => malloc_keeps ((h.said hsaid).vmema x hx))
          (fun x hx => malloc_keeps ((h.said hsaid).carma x hx))) hsaid.kept
      rw [heq] at hkept ⊢
      dsimp only at hkept ⊢
      rw [hrun] at hkept ⊢
      unfold addressGivenUp at hkept
      cases step with
      | undefined => exact .undefined hsaid.faults
      | quit => cases hkept
      | unknown => exact hgood
      | all =>
        have hmissing : pciMissing a = false := by simpa using hkept
        dsimp only
        rw [hmissing]
        exact hgood
    · rw [heq]
      exact .goes (hheld.cursors nofun hheld.vmema hheld.carma) hkeeps

theorem parseVmeAddressTag_safe (h : Held parent s) (hn : New n s) :
    Safe s (parseVmeAddressTag fails n props s) := by
  unfold parseVmeAddressTag
  split
  · exact .goes ((h.said (.prnterr s)).cursors h.pcima nofun h.carma) ⟨rfl, id⟩
  · rename_i m hm
    rcases newAddress_cases fails h hn hm ((s.modls m).busType ≠ .vme) with
      heq | ⟨s', heq, hheld, hkeeps⟩
    · obtain ⟨step, a, s', hrun, hsaid⟩ := readProps_address (n := n) (s := s) props
        (fun k f => vmeProps_plain) ⟨""⟩ m
      rw [heq]
      dsimp only
      rw [hrun]
      split
      · rename_i heq'
        cases heq'
        exact .undefined hsaid.faults
      · rename_i heq'
        cases heq'
        exact .goes (((h.said hsaid).addAddress (hn.said hsaid) m (.vme a)).cursors
          (fun x hx => malloc_keeps ((h.said hsaid).pcima x hx))
          (fun x hx => by cases hx; exact malloc_live s' _)
          (fun x hx => malloc_keeps ((h.said hsaid).carma x hx))) hsaid.kept
    · rw [heq]
      exact .goes (hheld.cursors hheld.pcima nofun hheld.carma) hkeeps

theorem Held.dropAddress (h : Held parent s) (hn : New n s) {m : ℕ}
    (hbus : (s.modls m).busType = .notSet) :
    Held parent ((withAddress n m (s.malloc (n, 0))).free (n, 0)) := by
  rw [free_of_live (s := withAddress n m (s.malloc (n, 0))) (malloc_live s _)]
  have hall := h.freed hn
  refine ⟨⟨hall.tree.host, hall.tree.drivers, hall.tree.modules,
    forall_update (P := fun x (d : InsLibModlDesc) => Owns _ _ (.address x) (freedAddress d))
      hall.tree.address ?_,
    forall_update (P := fun x (d : InsLibModlDesc) =>
      Owns _ _ (.isr x) ((d.isr.map Prod.fst).toList)) hall.tree.isr (hall.tree.isr m),
    forall_update (P := OwnsExtra _) hall.tree.extra (hall.tree.extra m),
    hall.tree.spaces⟩, hall.below, hall.drvrd, hall.modld, hall.pcima, hall.vmema, hall.carma⟩
  have hnone : freedAddress { s.modls m with moduleAddress := some n } = [] := if_pos hbus
  show Owns _ _ _ (freedAddress { s.modls m with moduleAddress := some n })
  rw [hnone]
  exact .nil

theorem parseCarAddressTag_safe (h : Held parent s) (hn : New n s)
    (hkept : ∀ m, s.modld = some m →
      let r := newAddress fails n m false (s.check ((s.modls m).busType ≠ .carrier))
      (r.1 && (s.modls m).busType ≠ .notSet && addressGivenUp carMissing
        (readProps carProps props none (⟨"", 0, 0, ""⟩, r.2))) = false) :
    Safe s (parseCarAddressTag fails n props s) := by
  unfold parseCarAddressTag
  split
  · exact .undefined rfl
  · rename_i m hm
    have hkept := hkept m hm
    dsimp only at hkept ⊢
    have hcheck : Said s (s.check ((s.modls m).busType ≠ .carrier)) := .check s _
    have hmodld : (s.check ((s.modls m).busType ≠ .carrier)).modld = some m := by
      obtain ⟨errors, addrs, heq, -⟩ := hcheck
      rw [heq]
      exact hm
    have hmodls : (s.check ((s.modls m).busType ≠ .carrier)).modls = s.modls := by
      obtain ⟨errors, addrs, heq, -⟩ := hcheck
      rw [heq]
    have hheld := h.said hcheck
    have hnew := hn.said hcheck
    have hkeeps := hcheck.kept
    generalize s.check ((s.modls m).busType ≠ .carrier) = t at *
    rcases newAddress_cases fails hheld hnew hmodld false with
      heq | ⟨s', heq, hheld', hkeeps'⟩
    · obtain ⟨step, a, s', hrun, hsaid⟩ := readProps_address (n := n) (s := t) props
        (fun k f => carProps_plain) ⟨"", 0, 0, ""⟩ m
      have hgood : Safe s (.goes, { setAddress n (.car a) (withAddress n m (s'.malloc (n, 0))) with
          carma := some n }) :=
        .goes (((hheld.said hsaid).addAddress (hnew.said hsaid) m (.car a)).cursors
          (fun x hx => malloc_keeps ((hheld.said hsaid).pcima x hx))
          (fun x hx => malloc_keeps ((hheld.said hsaid).vmema x hx))
          (fun x hx => by cases hx; exact malloc_live s' _)) (hsaid.after hkeeps)
      have hdrop : (s.modls m).busType = .notSet → ∀ u, Said (withAddress n m (s'.malloc (n, 0))) u →
          Safe s (.goes, { u.free (n, 0) with carma := none }) := by
        intro hbus u hu
        obtain ⟨u', hu', rfl⟩ := hu.withAddress
        have hall := hsaid.trans hu'
        have hbus' : (u'.modls m).busType = .notSet := by
          obtain ⟨errors, addrs, rfl, -⟩ := hall
          show (t.modls m).busType = .notSet
          rw [hmodls]
          exact hbus
        have hdropped := (hheld.said hall).dropAddress (hnew.said hall) hbus'
        refine .goes (hdropped.cursors hdropped.pcima hdropped.vmema nofun) ?_
        rw [free_of_live (s := withAddress n m (u'.malloc (n, 0))) (malloc_live u' _)]
        exact hall.after hkeeps
      rw [heq] at hkept ⊢
      dsimp only at hkept ⊢
      rw [hrun] at hkept ⊢
      unfold addressGivenUp at hkept
      cases step with
      | undefined => exact .undefined (hsaid.faults.trans hkeeps.1)
      | quit => exact hdrop (by simpa using hkept) _ (.refl _)
      | unknown => exact hgood
      | all =>
        dsimp only
        split
        · rename_i hmissing
          exact hdrop (by simpa [hmissing] using hkept) _ (.prnterr _)
        · exact hgood
    · rw [heq]
      exact .goes (hheld'.cursors hheld'.pcima hheld'.vmema nofun)
        ⟨hkeeps'.1.trans hkeeps.1, fun hnone => hkeeps.2 (hkeeps'.2 hnone)⟩

theorem newSpace_eq (h : Held parent s) {a : ℕ} (ha : s.live (a, 0) = true) :
    newSpace n a s = s.malloc (n, 0) := by
  unfold newSpace
  rw [use_of_live (malloc_keeps ha)]
  refine useAll_of_live fun x hx => malloc_keeps ((h.tree.spaces a).live x ?_)
  obtain ⟨space, hspace, rfl⟩ := Option.map_eq_some_iff.mp (Option.mem_toList.mp hx)
  exact List.mem_map_of_mem (List.mem_of_getLast? hspace)

theorem addSpace_safe {t : State} (h : Held parent s) (hn : New n s) (a : ℕ) (space : AddressSpace)
    (hkept : s.faults = t.faults ∧ (s.hostd = none → t.hostd = none)) :
    Safe t (.goes, addSpace a (n, space) (s.malloc (n, 0))) :=
  .goes (h.addSpace hn a (List.perm_append_singleton _ _)) hkept

theorem pciSpaceNode_safe (h : Held parent s) (hn : New n s) :
    Safe s (pciSpaceNode fails n props s) := by
  unfold pciSpaceNode
  split
  · exact giveUp_safe (h.tree.said (.prnterr s)) rfl
  · rename_i a ha
    split
    · exact giveUp_safe (h.tree.said (.prnterr s)) rfl
    · obtain ⟨step, space, s', hrun, -, hsaid⟩ := readProps_malloc (m := none) (s := s)
        props (fun k f => pciSpaceProps_plain) ⟨0, 0, 0, 0, .notSet, ""⟩ (n, 0) nofun
      rw [newSpace_eq h (h.pcima a ha), hrun]
      split
      · rename_i heq
        cases heq
        exact .undefined hsaid.faults
      · rename_i heq
        cases heq
        exact addSpace_safe (h.said hsaid) (hn.said hsaid) a _ hsaid.kept

theorem carSpaceNode_safe (h : Held parent s) (hn : New n s) :
    Safe s (carSpaceNode fails n props s) := by
  unfold carSpaceNode
  split
  · exact giveUp_safe (h.tree.said (.prnterr s)) rfl
  · rename_i a ha
    split
    · exact giveUp_safe (h.tree.said (.prnterr s)) rfl
    · obtain ⟨step, space, s', hrun, -, hsaid⟩ := readProps_malloc (m := none) (s := s)
        props (fun k f => carSpaceProps_plain) ⟨0, 0, 0, 0, .notSet, ""⟩ (n, 0) nofun
      rw [newSpace_eq h (h.carma a ha), hrun]
      split
      · rename_i heq
        cases heq
        exact .undefined hsaid.faults
      · rename_i heq
        cases heq
        have hall := (hsaid.trans (.check s' (space.dataWidth = 0))).trans
          (.check _ (space.windowSize = 0))
        dsimp only
        rw [check_malloc, check_malloc]
        exact addSpace_safe (h.said hall) (hn.said hall) a _ hall.kept

theorem vmeSpaceMissing_said {m : ℕ} (p : VmeAddressSpace) (hm : s.live (m, 0) = true) :
    Said s (vmeSpaceMissing m p s) := by
  have hone : ∀ {t : State} (bad : Bool), Said s t → Said s (t.checkNaming m bad) :=
    fun bad ht => ht.trans (.checkNaming (by rw [ht.live]; exact hm) bad)
  exact hone _ (hone _ (hone _ (hone _ (.refl s))))

theorem addVmeAddrSpace_safe {t : State} (h : Held parent s) (hn : New n s) {a : ℕ}
    (ha : s.live (a, 0) = true) (p : VmeAddressSpace)
    (hkept : s.faults = t.faults ∧ (s.hostd = none → t.hostd = none)) :
    Safe t (addVmeAddrSpace a n p (s.malloc (n, 0))) := by
  have huse : useAll (((s.malloc (n, 0)).addrs a).spaces.take 1 |>.map Prod.fst)
      ((s.malloc (n, 0)).use (a, 0)) = s.malloc (n, 0) := by
    rw [use_of_live (malloc_keeps ha)]
    refine useAll_of_live fun x hx => malloc_keeps ((h.tree.spaces a).live x ?_)
    obtain ⟨space, hspace, rfl⟩ := List.mem_map.mp hx
    exact List.mem_map_of_mem (List.mem_of_mem_take hspace)
  unfold addVmeAddrSpace
  dsimp only
  rw [huse]
  split
  · exact addSpace_safe h hn a _ hkept
  · split
    · split
      · exact .undefined hkept.1
      · exact addSpace_safe h hn a _ hkept
    · exact .goes (h.addSpace hn a (List.Perm.refl _)) hkept

theorem handleVmeSpaceNode_safe (h : Held parent s) (hn : New n s) :
    Safe s (handleVmeSpaceNode fails n props s) := by
  unfold handleVmeSpaceNode
  split
  · exact giveUp_safe (h.tree.said (.prnterr s)) rfl
  · exact giveUp_safe (h.tree.said (.prnterr s)) rfl
  · rename_i a m ha hm
    split
    · exact giveUp_safe (h.tree.said (.prnterr s)) rfl
    · obtain ⟨step, space, s', hrun, -, hsaid⟩ := readProps_malloc (m := some m) (s := s)
        props (fun k f => vmeSpaceProps_plain) ⟨0, 0, 0, 0, .notSet, 0, 0, ""⟩ (n, 0)
        (fun x hx => by cases hx; exact h.modld m hm)
      rw [hrun]
      split
      · rename_i heq
        cases heq
        exact .undefined hsaid.faults
      · rename_i heq
        cases heq
        have hmodld : s'.live (m, 0) = true := by
          rw [hsaid.live]
          exact h.modld m hm
        obtain ⟨s1, hs1, heq⟩ := (vmeSpaceMissing_said space (malloc_keeps hmodld)).malloc
        have hall := hsaid.trans hs1
        dsimp only
        rw [heq]
        refine addVmeAddrSpace_safe (h.said hall) (hn.said hall) ?_ space hall.kept
        rw [hall.live]
        exact h.vmema a ha

theorem Held.next (h : Held parent s) : Held parent { s with elements := s.elements + 1 } where
  tree := ⟨h.tree.host, h.tree.drivers, h.tree.modules, h.tree.address, h.tree.isr, h.tree.extra,
    h.tree.spaces⟩
  below b hb := Nat.lt_succ_of_lt (h.below b hb)
  drvrd := h.drvrd
  modld := h.modld
  pcima := h.pcima
  vmema := h.vmema
  carma := h.carma

theorem Held.new (h : Held parent s) : New s.elements { s with elements := s.elements + 1 } where
  lt := Nat.lt_succ_self _
  above b hb := (h.below b hb).ne

theorem element_safe (h : Held parent s) (e : Element) (hkept : givesUpAddress fails e s = false) :
    Safe s (element fails e s) := by
  have hheld := h.next
  have hnew := h.new
  unfold element
  dsimp only
  split
  · exact handleInstallNode_safe hheld hnew
  · exact handleDriverNode_safe hheld hnew
  · exact handleModuleNode_safe hheld hnew
  · exact interruptNode_safe hheld hnew
  · rename_i hkey
    refine parsePciAddressTag_safe hheld hnew fun m hm => ?_
    have hm : s.modld = some m := hm
    unfold givesUpAddress at hkept
    rw [hkey] at hkept
    split at hkept
    · rw [hm] at *
      contradiction
    · rename_i m' hm'
      obtain rfl := Option.some.inj (hm.symm.trans hm')
      exact hkept
  · exact pciSpaceNode_safe hheld hnew
  · exact parseVmeAddressTag_safe hheld hnew
  · exact handleVmeSpaceNode_safe hheld hnew
  · rename_i hkey
    refine parseCarAddressTag_safe hheld hnew fun m hm => ?_
    have hm : s.modld = some m := hm
    unfold givesUpAddress at hkept
    rw [hkey] at hkept
    split at hkept
    · rw [hm] at *
      contradiction
    · rename_i m' hm'
      obtain rfl := Option.some.inj (hm.symm.trans hm')
      exact hkept
  · exact carSpaceNode_safe hheld hnew
  · exact .goes (hheld.said ((Said.prnterr _).trans (.prnterr _))) ⟨rfl, id⟩
  · exact .goes (hheld.said (.prnterr _)) ⟨rfl, id⟩

end Elements

/-! ### Files without modules -/

/-- There is no module: every block is the host or one of its drivers. -/
structure Bare (s : State) : Prop where
  live : ∀ b, s.live b = true →
    ∃ hostd, s.hostd = some hostd ∧ (b = (hostd, 0) ∨ ∃ d ∈ (s.hosts hostd).drivers, b = (d, 0))
  modld : s.modld = none
  pcima : s.pcima = none
  vmema : s.vmema = none
  carma : s.carma = none

/-- The walk goes on without a module, or nothing is left. -/
def Clears (r : Step × State) : Prop :=
  (r.1 = .goes → Bare r.2) ∧ (r.1 = .null → ∀ b, r.2.live b = false)

theorem Bare.empty {s : State} (h : Bare s) (hnone : s.hostd = none) (b : Block) :
    s.live b = false := by
  refine Bool.eq_false_iff.mpr fun hb => ?_
  obtain ⟨hostd, hhost, -⟩ := h.live b hb
  rw [hnone] at hhost
  cases hhost

theorem Bare.said {s s' : State} (h : Bare s) (hsaid : Said s s') : Bare s' := by
  obtain ⟨errors, addrs, rfl, -⟩ := hsaid
  exact ⟨h.live, h.modld, h.pcima, h.vmema, h.carma⟩

theorem giveUp_clears {parent : ℕ → Slot} {s : State} (h : Tree parent s)
    (hlive : ∀ b, s.live b = true →
      ∃ hostd, s.hostd = some hostd ∧ (b = (hostd, 0) ∨ ∃ d ∈ (s.hosts hostd).drivers, b = (d, 0))) :
    Clears (giveUp s) := by
  rw [giveUp_eq h]
  refine ⟨nofun, fun _ b => Bool.eq_false_iff.mpr fun hb => ?_⟩
  obtain ⟨hb, hnot⟩ := remove_live.mp hb
  obtain ⟨hostd, hhost, hb⟩ := hlive b hb
  rw [hhost, Option.toList_some, List.flatMap_singleton] at hnot
  rcases hb with rfl | ⟨d, hd, rfl⟩
  · exact hnot List.mem_cons_self
  · exact hnot (List.mem_cons_of_mem _ (List.mem_flatMap.mpr ⟨d, hd, List.mem_cons_self⟩))

section Bare

variable {fails : Block → Bool} {n : ℕ} {props : List XmlAttr} {s : State} {parent : ℕ → Slot}

theorem Bare.giveUp (h : Tree parent s) (hb : Bare s) : Clears (giveUp s.prnterr) :=
  giveUp_clears (h.said (.prnterr s)) hb.live

theorem handleInstallNode_clears (hb : Bare s) (hnone : s.hostd = none) :
    Clears (handleInstallNode fails n props s) := by
  unfold handleInstallNode
  split
  · exact ⟨nofun, fun _ b => hb.empty hnone b⟩
  · obtain ⟨step, hostd, s', hrun, -, hsaid⟩ := readProps_malloc (m := none) (s := s)
      props (fun k f => installProps_plain) ⟨"", "", []⟩ (n, 0) nofun
    rw [hrun]
    split
    · exact ⟨nofun, nofun⟩
    · rename_i heq
      cases heq
      have hall := hsaid.trans (.check s' (hostd.hostName = ""))
      have hbare := hb.said hall
      dsimp only
      rw [check_malloc]
      refine ⟨fun _ => ⟨fun b hlive => ⟨n, rfl, .inl ?_⟩, hbare.modld, hbare.pcima, hbare.vmema,
        hbare.carma⟩, nofun⟩
      refine (malloc_cases hlive).resolve_left fun hlive => ?_
      rw [hall.live, hb.empty hnone b] at hlive
      cases hlive

theorem handleDriverNode_clears (h : Held parent s) (hb : Bare s) :
    Clears (handleDriverNode fails n props s) := by
  unfold handleDriverNode
  split
  · rename_i hnone
    exact ⟨nofun, fun _ b => hb.empty hnone b⟩
  · rename_i hostd hhost
    split
    · exact giveUp_clears (h.tree.last (s.errors + 1) none s.modld) hb.live
    · obtain ⟨step, drvrd, s', hrun, -, hsaid⟩ := readProps_malloc (m := none) (s := s)
        props (fun k f => driverProps_plain) ⟨"", 0, 0, "", -1, 0, []⟩ (n, 0) nofun
      rw [hrun]
      split
      · exact ⟨nofun, nofun⟩
      · rename_i heq
        cases heq
        have hall := hsaid.trans (.check s' (drvrd.drvrName = ""))
        have hbare := hb.said hall
        have hheld := h.said hall
        have hhost' : (s'.check (drvrd.drvrName = "")).hostd = some hostd := by
          obtain ⟨errors, addrs, heq, -⟩ := hall
          rw [heq]
          exact hhost
        have hlive := (hheld.tree.host_mem hhost').1
        dsimp only
        rw [check_malloc]
        generalize s'.check (drvrd.drvrName = "") = t at *
        have hgood : Clears (.goes, withDriver hostd n
            { t.malloc (n, 0) with drvrs := update t.drvrs n drvrd, drvrd := some n }) := by
          refine ⟨fun _ => ⟨fun b hb => ⟨hostd, hhost', ?_⟩, hbare.modld, hbare.pcima, hbare.vmema,
            hbare.carma⟩, nofun⟩
          have hdrivers : ((withDriver hostd n { t.malloc (n, 0) with
              drvrs := update t.drvrs n drvrd, drvrd := some n }).hosts hostd).drivers =
                (t.hosts hostd).drivers ++ [n] := by
            show (update t.hosts hostd _ hostd).drivers = _
            rw [update_self]
            rfl
          rw [hdrivers]
          rcases malloc_cases hb with hb | rfl
          · obtain ⟨hostd', hsome, hb⟩ := hbare.live b hb
            obtain rfl := Option.some.inj (hhost'.symm.trans hsome)
            exact hb.imp_right fun ⟨d, hd, heq⟩ => ⟨d, List.mem_append_left _ hd, heq⟩
          · exact .inr ⟨n, List.mem_append_right _ (List.mem_singleton_self n), rfl⟩
        rw [← addDriverNode_eq] at hgood
        · exact hgood
        · exact malloc_keeps hlive
        · exact fun d hd => malloc_keeps ((hheld.tree.drivers hostd).live d hd)

theorem handleModuleNode_clears (h : Held parent s) (hn : New n s) (hb : Bare s)
    (hlost : s.drvrd ≠ none → fails (n, 0) = false →
      let r := readProps (moduleProps fails n) props none
        (⟨.notSet, 0, 0, none, "", "", none, none⟩, s.malloc (n, 0))
      r.1 = .quit ∧ r.2.2.live (n, 1) = false) :
    Clears (handleModuleNode fails n props s) := by
  unfold handleModuleNode
  split
  · exact hb.giveUp h.tree
  · rename_i drvrd hdrvrd
    split
    · exact giveUp_clears (h.tree.last (s.errors + 1) s.drvrd none) hb.live
    · rename_i hfails
      obtain ⟨hquit, hextra⟩ := hlost (by rw [hdrvrd]; exact nofun) (Bool.eq_false_iff.mpr hfails)
      have hr := readProps_module fails n props (s.malloc (n, 0))
      generalize readProps (moduleProps fails n) props none
        (⟨.notSet, 0, 0, none, "", "", none, none⟩, s.malloc (n, 0)) = run at *
      obtain ⟨step, modld, s'⟩ := run
      dsimp only at hquit hextra
      subst hquit
      obtain ⟨errors, live, hrest⟩ := hr.rest
      dsimp only at hrest ⊢
      have hnew : s'.live (n, 0) = true := hr.kept _ (malloc_live s _)
      have hg := hr.grows_freed hn parent
      have hold : ∀ b, (remove [(n, 0)] s').live b = true → s.live b = true := by
        intro b hb
        obtain ⟨hb, hne⟩ := remove_live.mp hb
        rcases hr.new b hb with hb | ⟨-, -, hfirst⟩
        · exact (malloc_cases hb).resolve_right fun heq => hne (List.mem_singleton.mpr heq)
        · exact absurd hfirst (Bool.eq_false_iff.mp hextra)
      rw [free_of_live hnew]
      rw [hrest] at hg hold ⊢
      exact giveUp_clears ((h.tree.grow hg).last errors s.drvrd none)
        fun b hlive => hb.live b (hold b hlive)

theorem element_clears (h : Held parent s) (hb : Bare s) (e : Element)
    (hhost : replacesHost e s = false) (hlost : losesModule fails e s = false) :
    Clears (element fails e s) := by
  have hheld := h.next
  have hnew := h.new
  have hbare : Bare { s with elements := s.elements + 1 } :=
    ⟨hb.live, hb.modld, hb.pcima, hb.vmema, hb.carma⟩
  unfold element
  dsimp only
  split
  · rename_i hkey
    refine handleInstallNode_clears hbare ?_
    unfold replacesHost at hhost
    rw [hkey] at hhost
    simpa using hhost
  · exact handleDriverNode_clears hheld hbare
  · rename_i hkey
    refine handleModuleNode_clears hheld hnew hbare fun hdrvrd hfails => ?_
    have hdrvrd : s.drvrd.isSome = true := Option.isSome_iff_ne_none.mpr hdrvrd
    unfold losesModule at hlost
    dsimp only at hlost
    rw [hkey, hdrvrd, hfails] at hlost
    simpa using hlost
  · unfold interruptNode
    split
    · exact hbare.giveUp hheld.tree
    · rename_i heq
      exact absurd (heq.symm.trans hbare.modld) (Option.some_ne_none _)
  · unfold parsePciAddressTag
    split
    · exact ⟨fun _ => ⟨hbare.live, hb.modld, rfl, hb.vmema, hb.carma⟩, nofun⟩
    · rename_i heq
      exact absurd (heq.symm.trans hbare.modld) (Option.some_ne_none _)
  · unfold pciSpaceNode
    split
    · exact hbare.giveUp hheld.tree
    · rename_i heq
      exact absurd (heq.symm.trans hbare.pcima) (Option.some_ne_none _)
  · unfold parseVmeAddressTag
    split
    · exact ⟨fun _ => ⟨hbare.live, hb.modld, hb.pcima, rfl, hb.carma⟩, nofun⟩
    · rename_i heq
      exact absurd (heq.symm.trans hbare.modld) (Option.some_ne_none _)
  · unfold handleVmeSpaceNode
    split
    · exact hbare.giveUp hheld.tree
    · exact hbare.giveUp hheld.tree
    · rename_i heq
      exact absurd (heq.symm.trans hbare.modld) (Option.some_ne_none _)
  · unfold parseCarAddressTag
    split
    · exact ⟨nofun, nofun⟩
    · rename_i heq
      exact absurd (heq.symm.trans hbare.modld) (Option.some_ne_none _)
  · unfold carSpaceNode
    split
    · exact hbare.giveUp hheld.tree
    · rename_i heq
      exact absurd (heq.symm.trans hbare.carma) (Option.some_ne_none _)
  · exact ⟨fun _ => hbare.said ((Said.prnterr _).trans (.prnterr _)), nofun⟩
  · exact ⟨fun _ => hbare.said (.prnterr _), nofun⟩

end Bare

/-! ### The walk -/

section Walk

variable {fails : Block → Bool}

/-- How the walk over the elements `l` ends: at the last one, without a host to return, or at an
element that stops it. -/
structure Ends (fails : Block → Bool) (I : State → Prop) (l : List (Element × State))
    (r : Step × State) : Prop where
  goes : r.1 = .goes → r.2.hostd ≠ none ∧ I r.2
  stops : r.1 ≠ .goes → (r.1 = .null ∧ r.2.hostd = none ∧ I r.2) ∨
    ∃ p ∈ l, I p.2 ∧ element fails p.1 p.2 = r

theorem Ends.mono {I : State → Prop} {l l' : List (Element × State)} {r : Step × State}
    (h : Ends fails I l r) (hsub : l ⊆ l') : Ends fails I l' r where
  goes := h.goes
  stops hr := (h.stops hr).imp_right fun ⟨p, hp, hrun⟩ => ⟨p, hsub hp, hrun⟩

theorem doElement_ends (fails : Block → Bool) {I : State → Prop} {C : Element → State → Prop}
    (hstep : ∀ e s, I s → C e s → (element fails e s).1 = .goes → I (element fails e s).2)
    (node : XmlNode) {s : State} (hs : I s) (hall : ∀ p ∈ visited fails node s, C p.1 p.2) :
    Ends fails I (visited fails node s) (doElement fails node s) := by
  induction node generalizing s with
  | null =>
    unfold doElement
    split
    · rename_i hnone
      exact ⟨(fun h => by cases h), fun _ => .inl ⟨rfl, hnone, hs⟩⟩
    · rename_i hsome
      exact ⟨fun _ => ⟨hsome, hs⟩, fun h => absurd rfl h⟩
  | other children next ihc ihn =>
    rw [visited] at hall ⊢
    rw [doElement]
    have hchildren := ihc hs fun p hp => hall p (List.mem_append_left _ hp)
    generalize doElement fails children s = run at *
    obtain ⟨step, s'⟩ := run
    cases step with
    | goes =>
      exact (ihn (hchildren.goes rfl).2 fun p hp => hall p (List.mem_append_right _ hp)).mono
        (List.subset_append_right _ _)
    | null => exact hchildren.mono (List.subset_append_left _ _)
    | undefined => exact hchildren.mono (List.subset_append_left _ _)
  | element name properties children next ihc ihn =>
    rw [visited] at hall ⊢
    rw [doElement]
    have hone := hstep ⟨name, properties⟩ s hs (hall _ List.mem_cons_self)
    generalize hrun : element fails ⟨name, properties⟩ s = run at *
    obtain ⟨step, s1⟩ := run
    cases step with
    | goes =>
      dsimp only at hall hone ⊢
      have hchildren := ihc (hone rfl) fun p hp =>
        hall p (List.mem_cons_of_mem _ (List.mem_append_left _ hp))
      generalize doElement fails children s1 = run at *
      obtain ⟨step, s2⟩ := run
      cases step with
      | goes =>
        have hnext := ihn (hchildren.goes rfl).2 fun p hp =>
          hall p (List.mem_cons_of_mem _ (List.mem_append_right _ hp))
        exact (hnext.mono (List.subset_append_right _ _)).mono (List.subset_cons_self _ _)
      | null =>
        exact (hchildren.mono (List.subset_append_left _ _)).mono (List.subset_cons_self _ _)
      | undefined =>
        exact (hchildren.mono (List.subset_append_left _ _)).mono (List.subset_cons_self _ _)
    | null => exact ⟨(fun h => by cases h), fun _ => .inr ⟨_, List.mem_cons_self, hs, hrun⟩⟩
    | undefined => exact ⟨(fun h => by cases h), fun _ => .inr ⟨_, List.mem_cons_self, hs, hrun⟩⟩

theorem held_fresh : Held (fun _ => .host) .fresh where
  tree := ⟨.nil, fun _ => .nil, fun _ => .nil, fun _ => .nil, fun _ => .nil, fun _ => nofun,
    fun _ => .nil⟩
  below := nofun
  drvrd := nofun
  modld := nofun
  pcima := nofun
  vmema := nofun
  carma := nofun

theorem bare_fresh : Bare .fresh := ⟨nofun, rfl, rfl, rfl, rfl⟩

theorem Bare.noHost (fails : Block → Bool) {parent : ℕ → Slot} {s : State} (h : Held parent s)
    (hb : Bare s) (hnone : s.hostd = none) (e : Element) :
    replacesHost e s = false ∧ losesModule fails e s = false := by
  have hdrvrd : s.drvrd = none := by
    refine Option.eq_none_iff_forall_not_mem.mpr fun d hd => ?_
    have hlive := h.drvrd d hd
    rw [hb.empty hnone] at hlive
    cases hlive
  unfold replacesHost losesModule
  dsimp only
  rw [hnone, hdrvrd]
  simp

theorem Ends.parse {I : State → Prop} {root : XmlNode} {s : State}
    (h : Ends fails I (visited fails root s) (doElement fails root s)) :
    (insLibParseInstallFile fails root s).2 = (doElement fails root s).2 ∧
      (∀ hostd, (insLibParseInstallFile fails root s).1 = some hostd →
        (doElement fails root s).1 = .goes ∧ hostd = (doElement fails root s).2.hostd ∨
          (doElement fails root s).1 = .null ∧ hostd = none) ∧
      ((insLibParseInstallFile fails root s).1 = some none → (doElement fails root s).1 = .null) := by
  unfold insLibParseInstallFile
  generalize doElement fails root s = run at *
  obtain ⟨step, s'⟩ := run
  cases step with
  | goes =>
    refine ⟨rfl, fun hostd hhost => .inl ⟨rfl, (Option.some.inj hhost).symm⟩, fun hnone => ?_⟩
    exact absurd (Option.some.inj hnone) (h.goes rfl).1
  | null => exact ⟨rfl, fun hostd hhost => .inr ⟨rfl, (Option.some.inj hhost).symm⟩, fun _ => rfl⟩
  | undefined => exact ⟨rfl, nofun, nofun⟩

end Walk

/-! ### Some files -/

/-- A driver inside the `install` element. -/
def inInstall (driver : XmlNode) : XmlNode := .element "install".toList hostProps driver .null

/-- A PCI module whose address has a bus number that is not accepted. -/
def badBusDriver : XmlNode :=
  tag "driver" [("name", "mil1553")]
    (tag "module" [("bus_type", "PCI"), ("logical_module_number", "1")]
      (tag "pci" [("bus_number", "99"), ("slot_number", "1")] .null .null)
      .null)
    .null

/-- A PCI module with a space and no address. -/
def noAddressDriver : XmlNode :=
  tag "driver" [("name", "mil1553")]
    (tag "module" [("bus_type", "PCI"), ("logical_module_number", "1")]
      (tag "pci_space" [("bar", "0")] .null .null)
      .null)
    .null

-- the module of a file that is refused stays allocated
example : (insLibParseInstallFile (fun _ => false) (inInstall noAddressDriver) .fresh).1 = some none ∧
    (insLibParseInstallFile (fun _ => false) (inInstall noAddressDriver) .fresh).2.live (2, 0) =
      true := by
  decide +kernel

end KernelModules.Utils.Install
