import Mathlib.Tactic
import KernelModules.Utils.InstallBlocks

/-!
# The blocks of a host while it is built

An element of an install file allocates a block and links it, and the static variables of
`DoElement` point at what was built last.

* `Said` is what most attributes do: a message, or a text in a block that is there; `readProps_said`
  is the loop over such attributes (`Plain`);
* `Held` is the invariant of the walk: the blocks are a tree (`Tree`) and the static variables point
  at allocated blocks;
* it is kept by every block that an element adds: `Held.addHost`, `Held.addDriver`, `Held.addIsr`,
  `Held.addAddress` and `Held.addSpace`.
-/

namespace KernelModules.Utils.Install

open Function

/-! ### Attributes that leave the blocks alone -/

/-- The state after messages and new texts in addresses, with everything else as it was. -/
def Said (s s' : State) : Prop :=
  ∃ errors addrs, s' = { s with errors := errors, addrs := addrs } ∧
    ∀ a, (addrs a).spaces = (s.addrs a).spaces

namespace Said

variable {s s' s'' : State}

theorem refl (s : State) : Said s s := ⟨s.errors, s.addrs, rfl, fun _ => rfl⟩

theorem trans (h : Said s s') (h' : Said s' s'') : Said s s'' := by
  obtain ⟨errors, addrs, rfl, hspaces⟩ := h
  obtain ⟨errors', addrs', rfl, hspaces'⟩ := h'
  exact ⟨errors', addrs', rfl, fun a => (hspaces' a).trans (hspaces a)⟩

theorem prnterr (s : State) : Said s s.prnterr := ⟨s.errors + 1, s.addrs, rfl, fun _ => rfl⟩

theorem check (s : State) (bad : Bool) : Said s (s.check bad) := by
  cases bad with
  | true => exact .prnterr s
  | false => exact .refl s

theorem checkNaming {m : ℕ} (hlive : s.live (m, 0) = true) (bad : Bool) :
    Said s (s.checkNaming m bad) := by
  cases bad with
  | true =>
    show Said s (s.use (m, 0)).prnterr
    rw [use_of_live hlive]
    exact .prnterr s
  | false => exact .refl s

theorem setCarComment (a : ℕ) (comment : String) (s : State) : Said s (setCarComment a comment s) := by
  unfold Install.setCarComment
  split
  · refine ⟨s.errors, _, rfl, fun a' => ?_⟩
    by_cases ha : a' = a
    · subst ha
      rw [update_self]
    · rw [update_of_ne ha]
  · exact .refl s

theorem live (h : Said s s') : s'.live = s.live := by
  obtain ⟨errors, addrs, rfl, -⟩ := h
  rfl

theorem faults (h : Said s s') : s'.faults = s.faults := by
  obtain ⟨errors, addrs, rfl, -⟩ := h
  rfl

theorem after {t : State} (h : Said s s')
    (hkept : s.faults = t.faults ∧ (s.hostd = none → t.hostd = none)) :
    s'.faults = t.faults ∧ (s'.hostd = none → t.hostd = none) := by
  obtain ⟨errors, addrs, rfl, -⟩ := h
  exact hkept

theorem kept (h : Said s s') : s'.faults = s.faults ∧ (s'.hostd = none → s.hostd = none) :=
  h.after ⟨rfl, id⟩

end Said

/-- An attribute that leaves the blocks alone, and the part `π` of what is built, when the module
that it names is there. -/
def Plain {α β : Type} (m : Option ℕ) (π : α → β)
    (f : Option Text → α × State → Option (Next (α × State))) : Prop :=
  ∀ v r next, (∀ x ∈ m, r.2.live (x, 0) = true) → f v r = some next →
    π next.state.1 = π r.1 ∧ Said r.2 next.state.2

section Plain

variable {α β : Type} {m : Option ℕ} {π : α → β}

theorem plain_needed {f : Text → α × State → Next (α × State)}
    (h : ∀ v r, (∀ x ∈ m, r.2.live (x, 0) = true) →
      π (f v r).state.1 = π r.1 ∧ Said r.2 (f v r).state.2) : Plain m π (needed f) := by
  intro v r next hlive hnext
  obtain ⟨t, -, rfl⟩ := Option.map_eq_some_iff.mp hnext
  exact h t r hlive

theorem plain_field {f : Text → α → α} (h : ∀ v x, π (f v x) = π x) : Plain m π (field f) :=
  plain_needed fun v r _ => ⟨h v r.1, .refl r.2⟩

theorem plain_number {check : State → Bool → State} {bad : BitVec 32 → Bool} {f : BitVec 32 → α → α}
    (hcheck : ∀ s b, (∀ x ∈ m, s.live (x, 0) = true) → Said s (check s b))
    (h : ∀ v x, π (f v x) = π x) : Plain m π (number check bad f) :=
  plain_needed fun v r hlive =>
    ⟨h _ r.1, (Said.check r.2 _).trans (hcheck _ _ fun x hx => by
      rw [(Said.check r.2 _).live]
      exact hlive x hx)⟩

theorem plain_numberOrQuit {bad : BitVec 32 → Bool} {f : BitVec 32 → α → α}
    (h : ∀ v x, π (f v x) = π x) : Plain m π (numberOrQuit bad f) := by
  refine plain_needed fun v r _ => ?_
  have hnumber : Said r.2 (getNumber v r.2).2 := .check r.2 _
  dsimp only
  split
  · exact ⟨h _ r.1, hnumber.trans (.prnterr _)⟩
  · exact ⟨h _ r.1, hnumber⟩

theorem readProps_said {reader : Reader (α × State)}
    (hplain : ∀ k f, reader k = some f → Plain m π f) (props : List XmlAttr) (pvalu : Option Text)
    (r : α × State) (hlive : ∀ x ∈ m, r.2.live (x, 0) = true) :
    π (readProps reader props pvalu r).2.1 = π r.1 ∧
      Said r.2 (readProps reader props pvalu r).2.2 := by
  refine readProps_rel (R := fun r r' : α × State => (∀ x ∈ m, r.2.live (x, 0) = true) →
    π r'.1 = π r.1 ∧ Said r.2 r'.2) (fun r _ => ⟨rfl, .refl r.2⟩) (fun h h' hm => ?_)
    (fun k f hf v r next hnext hm => hplain k f hf v r next hm hnext) props pvalu r hlive
  obtain ⟨hpart, hsaid⟩ := h hm
  obtain ⟨hpart', hsaid'⟩ := h' fun x hx => by
    rw [hsaid.live]
    exact hm x hx
  exact ⟨hpart'.trans hpart, hsaid.trans hsaid'⟩

theorem plain_check {bad : BitVec 32 → Bool} {f : BitVec 32 → α → α}
    (h : ∀ v x, π (f v x) = π x) : Plain m π (number State.check bad f) :=
  plain_number (fun s b _ => .check s b) h

end Plain

section Readers

variable {k : KeyWord} {m : Option ℕ}

theorem installProps_plain {f} (h : installProps k = some f) :
    Plain m InsLibHostDesc.drivers f := by
  unfold installProps at h
  split at h
  · cases h
    exact plain_field fun _ _ => rfl
  · cases h
    exact plain_field fun _ _ => rfl
  · cases h

theorem driverProps_plain {f} (h : driverProps k = some f) : Plain m InsLibDrvrDesc.modules f := by
  unfold driverProps at h
  split at h
  · cases h
    exact plain_field fun _ _ => rfl
  · cases h
    exact plain_field fun _ _ => rfl
  · cases h
    exact plain_check fun _ _ => rfl
  · cases h
    exact plain_check fun _ _ => rfl
  · cases h
    exact plain_field fun _ _ => rfl
  · cases h

theorem interruptProps_plain {f} (h : interruptProps k = some f) : Plain m (fun _ => ()) f := by
  unfold interruptProps at h
  split at h
  · cases h
    exact plain_check fun _ _ => rfl
  · cases h
    exact plain_check fun _ _ => rfl
  · cases h
    exact plain_field fun _ _ => rfl
  · cases h

theorem pciProps_plain {f} (h : pciProps k = some f) : Plain m (fun _ => ()) f := by
  unfold pciProps at h
  split at h
  · cases h
    exact plain_numberOrQuit fun _ _ => rfl
  · cases h
    exact plain_numberOrQuit fun _ _ => rfl
  · cases h
    exact plain_check fun _ _ => rfl
  · cases h
    exact plain_check fun _ _ => rfl
  · cases h
    exact plain_check fun _ _ => rfl
  · cases h
    exact plain_check fun _ _ => rfl
  · cases h
    exact plain_field fun _ _ => rfl
  · cases h

theorem vmeProps_plain {f} (h : vmeProps k = some f) : Plain m (fun _ => ()) f := by
  unfold vmeProps at h
  split at h
  · cases h
    exact plain_field fun _ _ => rfl
  · cases h

theorem carProps_plain {f} (h : carProps k = some f) : Plain m (fun _ => ()) f := by
  unfold carProps at h
  split at h
  · cases h
    exact plain_field fun _ _ => rfl
  · cases h
    exact plain_numberOrQuit fun _ _ => rfl
  · cases h
    exact plain_numberOrQuit fun _ _ => rfl
  · cases h
    exact plain_field fun _ _ => rfl
  · cases h

theorem pciSpaceProps_plain {f} (h : pciSpaceProps k = some f) : Plain m (fun _ => ()) f := by
  unfold pciSpaceProps at h
  split at h
  · cases h
    exact plain_check fun _ _ => rfl
  · cases h
    refine plain_needed fun v r _ => ?_
    dsimp only
    split
    · exact ⟨rfl, .refl r.2⟩
    · split
      · exact ⟨rfl, .refl r.2⟩
      · exact ⟨rfl, .prnterr r.2⟩
  · cases h
    exact plain_field fun _ _ => rfl
  · cases h

theorem vmeSpaceProps_plain {modld : ℕ} {f} (h : vmeSpaceProps modld k = some f) :
    Plain (some modld) (fun _ => ()) f := by
  have hnaming : ∀ s b, (∀ x ∈ some modld, s.live (x, 0) = true) →
      Said s (State.checkNaming modld s b) := fun s b hlive => .checkNaming (hlive _ rfl) b
  unfold vmeSpaceProps at h
  split at h
  · cases h
    exact plain_number hnaming fun _ _ => rfl
  · cases h
    exact plain_number hnaming fun _ _ => rfl
  · cases h
    exact plain_check fun _ _ => rfl
  · cases h
    exact plain_check fun _ _ => rfl
  · cases h
    exact plain_check fun _ _ => rfl
  · cases h
    exact plain_field fun _ _ => rfl
  · cases h

theorem carSpaceProps_plain {a : ℕ} {f} (h : carSpaceProps a k = some f) :
    Plain m (fun _ => ()) f := by
  unfold carSpaceProps at h
  split at h
  · cases h
    exact plain_check fun _ _ => rfl
  · cases h
    exact plain_check fun _ _ => rfl
  · cases h
    exact plain_needed fun v r _ => ⟨rfl, .setCarComment a _ r.2⟩
  · cases h

end Readers

/-! ### The tree grows -/

/-- A block of element `n` is new. -/
structure Grows (n : ℕ) (parent parent' : ℕ → Slot) (live live' : Block → Bool) : Prop where
  kept : ∀ b, live b = true → live' b = true
  same : ∀ x, x ≠ n → parent' x = parent x
  new : ∀ b, live b = true → b.1 ≠ n

namespace Owns

variable {n : ℕ} {parent parent' : ℕ → Slot} {live live' : Block → Bool} {slot : Slot} {l : List ℕ}

theorem nil : Owns parent live slot [] := ⟨List.nodup_nil, nofun, nofun⟩

theorem grow (h : Owns parent live slot l) (hg : Grows n parent parent' live live') :
    Owns parent' live' slot l where
  once := h.once
  live x hx := hg.kept _ (h.live x hx)
  parent x hx := (hg.same x (hg.new _ (h.live x hx))).trans (h.parent x hx)

theorem add (h : Owns parent live slot l) (hg : Grows n parent parent' live live')
    (hlive : live' (n, 0) = true) (hparent : parent' n = slot) : Owns parent' live' slot (n :: l) where
  once := List.nodup_cons.mpr ⟨fun hn => hg.new _ (h.live n hn) rfl, h.once⟩
  live := List.forall_mem_cons.mpr ⟨hlive, (h.grow hg).live⟩
  parent := List.forall_mem_cons.mpr ⟨hparent, (h.grow hg).parent⟩

theorem perm {l' : List ℕ} (h : Owns parent live slot l) (hperm : l'.Perm l) :
    Owns parent live slot l' where
  once := hperm.nodup_iff.mpr h.once
  live x hx := h.live x (hperm.mem_iff.mp hx)
  parent x hx := h.parent x (hperm.mem_iff.mp hx)

end Owns

/-- What is linked is allocated, and the static variables point at allocated blocks. -/
structure Held (parent : ℕ → Slot) (s : State) : Prop where
  tree : Tree parent s
  below : ∀ b, s.live b = true → b.1 < s.elements
  drvrd : ∀ x ∈ s.drvrd, s.live (x, 0) = true
  modld : ∀ x ∈ s.modld, s.live (x, 0) = true
  pcima : ∀ x ∈ s.pcima, s.live (x, 0) = true
  vmema : ∀ x ∈ s.vmema, s.live (x, 0) = true
  carma : ∀ x ∈ s.carma, s.live (x, 0) = true

/-- The number `n` is that of the element: no block has it yet. -/
structure New (n : ℕ) (s : State) : Prop where
  lt : n < s.elements
  above : ∀ b, s.live b = true → b.1 ≠ n

theorem Tree.said {parent : ℕ → Slot} {s s' : State} (h : Tree parent s) (hsaid : Said s s') :
    Tree parent s' := by
  obtain ⟨errors, addrs, rfl, hspaces⟩ := hsaid
  refine ⟨h.host, h.drivers, h.modules, h.address, h.isr, h.extra, fun a => ?_⟩
  show Owns parent s.live (.space a) ((addrs a).spaces.map Prod.fst)
  rw [hspaces]
  exact h.spaces a

theorem Held.said {parent : ℕ → Slot} {s s' : State} (h : Held parent s) (hsaid : Said s s') :
    Held parent s' := by
  have htree := h.tree.said hsaid
  obtain ⟨errors, addrs, rfl, -⟩ := hsaid
  exact ⟨htree, h.below, h.drvrd, h.modld, h.pcima, h.vmema, h.carma⟩

theorem New.said {n : ℕ} {s s' : State} (h : New n s) (hsaid : Said s s') : New n s' := by
  obtain ⟨errors, addrs, rfl, -⟩ := hsaid
  exact ⟨h.lt, h.above⟩

theorem Said.malloc {b : Block} {s s' : State} (h : Said (s.malloc b) s') :
    ∃ s1, Said s s1 ∧ s' = s1.malloc b := by
  obtain ⟨errors, addrs, rfl, hspaces⟩ := h
  exact ⟨_, ⟨errors, addrs, rfl, hspaces⟩, rfl⟩

theorem malloc_live (s : State) (b : Block) : (s.malloc b).live b = true := update_self ..

theorem malloc_keeps {s : State} {b b' : Block} (h : s.live b' = true) :
    (s.malloc b).live b' = true := by
  show update s.live b true b' = true
  by_cases hb : b' = b
  · rw [hb, update_self]
  · rw [update_of_ne hb]
    exact h

theorem New.grows {n : ℕ} {s : State} (h : New n s) (parent : ℕ → Slot) (slot : Slot) :
    Grows n parent (update parent n slot) s.live (s.malloc (n, 0)).live where
  kept _ hb := malloc_keeps hb
  same _ hx := update_of_ne hx ..
  new := h.above

section Growth

variable {n : ℕ} {parent parent' : ℕ → Slot} {s : State} {live : Block → Bool}

theorem Tree.grow (h : Tree parent s) (hg : Grows n parent parent' s.live live) :
    Tree parent' { s with live := live } where
  host := h.host.grow hg
  drivers x := (h.drivers x).grow hg
  modules x := (h.modules x).grow hg
  address x := (h.address x).grow hg
  isr x := (h.isr x).grow hg
  extra m x hx := ⟨hg.kept _ (h.extra m x hx).1, (h.extra m x hx).2⟩
  spaces x := (h.spaces x).grow hg

theorem Tree.last (h : Tree parent s) (errors : ℕ) (drvrd modld : Option ℕ) :
    Tree parent { s with errors := errors, drvrd := drvrd, modld := modld } :=
  ⟨h.host, h.drivers, h.modules, h.address, h.isr, h.extra, h.spaces⟩

theorem forall_update {α : Type} {P : ℕ → α → Prop} {f : ℕ → α} {a : ℕ} {v : α}
    (h : ∀ x, P x (f x)) (hv : P a v) (x : ℕ) : P x (update f a v x) := by
  by_cases hx : x = a
  · rw [hx, update_self]
    exact hv
  · rw [update_of_ne hx]
    exact h x

theorem Held.grow (h : Held parent s) (hn : New n s) (hg : Grows n parent parent' s.live live)
    (hlive : ∀ b, live b = true → s.live b = true ∨ b.1 = n) :
    Held parent' { s with live := live } where
  tree := h.tree.grow hg
  below b hb := (hlive b hb).elim (h.below b) fun heq => heq ▸ hn.lt
  drvrd x hx := hg.kept _ (h.drvrd x hx)
  modld x hx := hg.kept _ (h.modld x hx)
  pcima x hx := hg.kept _ (h.pcima x hx)
  vmema x hx := hg.kept _ (h.vmema x hx)
  carma x hx := hg.kept _ (h.carma x hx)

theorem malloc_cases {b b' : Block} (h : (s.malloc b).live b' = true) :
    s.live b' = true ∨ b' = b := by
  by_cases hb : b' = b
  · exact .inr hb
  · have h' : update s.live b true b' = true := h
    rw [update_of_ne hb] at h'
    exact .inl h'

theorem Held.malloc (h : Held parent s) (hn : New n s) (slot : Slot) :
    Held (update parent n slot) (s.malloc (n, 0)) :=
  h.grow hn (hn.grows parent slot) fun _ hb => (malloc_cases hb).imp_right fun heq => by rw [heq]

theorem Held.addHost (h : Held parent s) (hn : New n s) {hostd : InsLibHostDesc}
    (hnone : hostd.drivers = []) :
    Held (update parent n .host)
      { s.malloc (n, 0) with hosts := update s.hosts n hostd, hostd := some n } := by
  have hg := hn.grows parent .host
  have hall := h.malloc hn .host
  refine ⟨⟨?_, forall_update (P := fun x (d : InsLibHostDesc) => Owns _ _ (.driver x) d.drivers)
    hall.tree.drivers ?_, hall.tree.modules, hall.tree.address, hall.tree.isr, hall.tree.extra,
    hall.tree.spaces⟩, hall.below, hall.drvrd, hall.modld, hall.pcima, hall.vmema, hall.carma⟩
  · exact Owns.nil.add hg (malloc_live s _) (update_self ..)
  · rw [hnone]
    exact .nil

theorem Held.addDriver (h : Held parent s) (hn : New n s) (hostd : ℕ) {drvrd : InsLibDrvrDesc}
    (hnone : drvrd.modules = []) :
    Held (update parent n (.driver hostd)) (withDriver hostd n
      { s.malloc (n, 0) with drvrs := update s.drvrs n drvrd, drvrd := some n }) := by
  have hg := hn.grows parent (.driver hostd)
  have hall := h.malloc hn (.driver hostd)
  refine ⟨⟨hall.tree.host,
    forall_update (P := fun x (d : InsLibHostDesc) => Owns _ _ (.driver x) d.drivers)
      hall.tree.drivers ?_,
    forall_update (P := fun x (d : InsLibDrvrDesc) => Owns _ _ (.module x) d.modules)
      hall.tree.modules ?_, hall.tree.address, hall.tree.isr, hall.tree.extra,
    hall.tree.spaces⟩, hall.below, ?_, hall.modld, hall.pcima, hall.vmema, hall.carma⟩
  · exact ((h.tree.drivers hostd).add hg (malloc_live s _) (update_self ..)).perm
      (List.perm_append_singleton _ _)
  · rw [hnone]
    exact .nil
  · rintro x hx
    cases hx
    exact malloc_live s _

theorem Held.addIsr (h : Held parent s) (hn : New n s) (m : ℕ) (isr : IntrDesc) :
    Held (update parent n (.isr m)) { s.malloc (n, 0) with
      modls := update s.modls m { s.modls m with isr := some (n, isr) } } := by
  have hg := hn.grows parent (.isr m)
  have hall := h.malloc hn (.isr m)
  refine ⟨⟨hall.tree.host, hall.tree.drivers, hall.tree.modules,
    forall_update (P := fun x (d : InsLibModlDesc) => Owns _ _ (.address x) (freedAddress d))
      hall.tree.address (hall.tree.address m),
    forall_update (P := fun x (d : InsLibModlDesc) =>
      Owns _ _ (.isr x) ((d.isr.map Prod.fst).toList)) hall.tree.isr ?_,
    forall_update (P := OwnsExtra _) hall.tree.extra (hall.tree.extra m),
    hall.tree.spaces⟩, hall.below, hall.drvrd, hall.modld, hall.pcima, hall.vmema, hall.carma⟩
  exact Owns.nil.add hg (malloc_live s _) (update_self ..)

theorem Held.addAddress (h : Held parent s) (hn : New n s) (m : ℕ) (fields : AddressFields) :
    Held (update parent n (.address m)) (setAddress n fields (withAddress n m (s.malloc (n, 0)))) := by
  have hg := hn.grows parent (.address m)
  have hall := h.malloc hn (.address m)
  refine ⟨⟨hall.tree.host, hall.tree.drivers, hall.tree.modules,
    forall_update (P := fun x (d : InsLibModlDesc) => Owns _ _ (.address x) (freedAddress d))
      hall.tree.address ?_,
    forall_update (P := fun x (d : InsLibModlDesc) =>
      Owns _ _ (.isr x) ((d.isr.map Prod.fst).toList)) hall.tree.isr (hall.tree.isr m),
    forall_update (P := OwnsExtra _) hall.tree.extra (hall.tree.extra m),
    forall_update (P := fun x (d : Address) => Owns _ _ (.space x) (d.spaces.map Prod.fst))
      hall.tree.spaces .nil⟩, hall.below, hall.drvrd, hall.modld, hall.pcima, hall.vmema, hall.carma⟩
  unfold freedAddress
  split
  · exact .nil
  · exact Owns.nil.add hg (malloc_live s _) (update_self ..)

theorem Held.addSpace (h : Held parent s) (hn : New n s) (a : ℕ) {space : AddressSpace}
    {spaces : List (ℕ × AddressSpace)} (hperm : spaces.Perm ((n, space) :: (s.addrs a).spaces)) :
    Held (update parent n (.space a)) { s.malloc (n, 0) with
      addrs := update s.addrs a { s.addrs a with spaces := spaces } } := by
  have hg := hn.grows parent (.space a)
  have hall := h.malloc hn (.space a)
  refine ⟨⟨hall.tree.host, hall.tree.drivers, hall.tree.modules, hall.tree.address, hall.tree.isr,
    hall.tree.extra, forall_update (P := fun x (d : Address) =>
      Owns _ _ (.space x) (d.spaces.map Prod.fst)) hall.tree.spaces ?_⟩,
    hall.below, hall.drvrd, hall.modld, hall.pcima, hall.vmema, hall.carma⟩
  exact ((h.tree.spaces a).add hg (malloc_live s _) (update_self ..)).perm (hperm.map Prod.fst)

end Growth

end KernelModules.Utils.Install
