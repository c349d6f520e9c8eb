import Mathlib.Tactic
import KernelModules.Utils.InstallAttributes

/-!
# The host that an install file describes

The description of a host is a tree: the host, its drivers, their modules, and the interrupts,
addresses and address spaces of these.  An install file says which, by the elements that enclose each
other; `DoElement` goes by the elements it has met last.

* `Placed` is an element with the driver and the module around it, `expectedHost` the tree that the
  elements of a file stand for, and `readHost` the tree that a host in memory is;
* `InPlace` is the condition on one element: what it is put into is what was built last;
* `Built` says that the memory has what the elements so far stand for, every element keeps this
  (`element_built`), and so does the walk (`doElement_built`).
-/

namespace KernelModules.Utils.Install

open Function

/-! ### The elements of a file -/

/-- The number of elements. -/
def XmlNode.size : XmlNode → ℕ
  | .null => 0
  | .other children next => children.size + next.size
  | .element _ _ children next => children.size + next.size + 1

/-- An element of a file: its number and those of the driver and the module around it. -/
structure Placed where
  number : ℕ
  key : KeyWord
  props : List XmlAttr
  driver : Option ℕ
  module : Option ℕ
  deriving DecidableEq, Repr

/-- The elements in document order, from number `n` on, inside driver `d` and module `m`. -/
def XmlNode.placed : XmlNode → ℕ → Option ℕ → Option ℕ → List Placed
  | .null, _, _, _ => []
  | .other children next, n, d, m =>
    children.placed n d m ++ next.placed (n + children.size) d m
  | .element name props children next, n, d, m =>
    ⟨n, lookUp name, props, d, m⟩ ::
      (children.placed (n + 1) (if lookUp name = .DRIVER then some n else d)
          (if lookUp name = .MODULE then some n else m) ++
        next.placed (n + 1 + children.size) d m)

/-! ### The tree that a file describes -/

/-- An address with its spaces. -/
structure AddressTree where
  fields : AddressFields
  spaces : List AddressSpace
  deriving DecidableEq, Repr

/-- A module with its interrupts and addresses. -/
structure ModuleTree where
  desc : InsLibModlDesc
  interrupts : List IntrDesc
  addresses : List AddressTree
  deriving DecidableEq, Repr

/-- A driver with its modules. -/
structure DriverTree where
  desc : InsLibDrvrDesc
  modules : List ModuleTree
  deriving DecidableEq, Repr

/-- A host with its drivers. -/
structure HostTree where
  desc : InsLibHostDesc
  drivers : List DriverTree
  deriving DecidableEq, Repr

/-- An element is the address of a module. -/
def Placed.isAddress (p : Placed) : Bool := p.key = .PCI || p.key = .VME || p.key = .CARRIER

/-- What an address element says. -/
def Placed.fields (p : Placed) : AddressFields :=
  match p.key with
  | .PCI => .pci (pciOf p.props)
  | .VME => .vme (vmeOf p.props)
  | _ => .car (carOf p.props)

/-- The spaces of an address. -/
def spaceKey : KeyWord → KeyWord
  | .PCI => .PCI_SPACE
  | .VME => .VME_SPACE
  | _ => .CARRIER_SPACE

/-- What a space element says. -/
def Placed.space (p : Placed) : AddressSpace :=
  match p.key with
  | .PCI_SPACE => .pci (pciSpaceOf p.props)
  | .VME_SPACE => .vme (vmeSpaceOf p.props)
  | _ => .car (carSpaceOf p.props)

/-- A CR/CSR space. -/
def isCsr : AddressSpace → Bool
  | .vme p => p.addressModifier = 0x2f
  | _ => false

/-- CR/CSR spaces come first, so that they are mapped first. -/
def inOrder (spaces : List (ℕ × AddressSpace)) : List (ℕ × AddressSpace) :=
  (spaces.filter fun p => isCsr p.2).reverse ++ spaces.filter fun p => !isCsr p.2

section Expected

variable (elements : List Placed)

/-- The drivers. -/
def driversOf : List Placed := elements.filter fun p => p.key = .DRIVER

/-- The modules inside a driver. -/
def modulesOf (d : ℕ) : List Placed := elements.filter fun p => p.key = .MODULE ∧ p.driver = some d

/-- The interrupts inside a module. -/
def interruptsOf (m : ℕ) : List Placed :=
  elements.filter fun p => p.key = .INTERRUPT ∧ p.module = some m

/-- The addresses inside a module. -/
def addressesOf (m : ℕ) : List Placed :=
  elements.filter fun p => p.isAddress = true ∧ p.module = some m

/-- The spaces of the kind `k` inside the module `m`. -/
def spacesIn (k : KeyWord) (m : Option ℕ) : List Placed :=
  elements.filter fun p => p.key = k ∧ p.module = m

/-- The spaces of an address. -/
def spacesOf (a : Placed) : List (ℕ × AddressSpace) :=
  inOrder ((spacesIn elements (spaceKey a.key) a.module).map fun p => (p.number, p.space))

/-- The address that an element stands for. -/
def expectedAddress (a : Placed) : AddressTree :=
  ⟨a.fields, (spacesOf elements a).map Prod.snd⟩

/-- The module that an element stands for. -/
def expectedModule (p : Placed) : ModuleTree where
  desc := moduleOf p.props
  interrupts := (interruptsOf elements p.number).map fun i => intrOf i.props
  addresses := (addressesOf elements p.number).map (expectedAddress elements)

/-- The driver that an element stands for. -/
def expectedDriver (p : Placed) : DriverTree where
  desc := { driverOf p.props with moduleCount := (modulesOf elements p.number).length }
  modules := (modulesOf elements p.number).map (expectedModule elements)

/-- The host that the `install` element with these elements stands for. -/
def expectedHost (props : List XmlAttr) : HostTree where
  desc := hostOf props
  drivers := (driversOf elements).map (expectedDriver elements)

end Expected

/-! ### The tree in memory -/

/-- An address in memory. -/
def readAddress (s : State) (a : ℕ) : AddressTree :=
  ⟨(s.addrs a).fields, (s.addrs a).spaces.map Prod.snd⟩

/-- A module in memory. -/
def readModule (s : State) (m : ℕ) : ModuleTree where
  desc := { (s.modls m).plain with isr := none, moduleAddress := none }
  interrupts := ((s.modls m).isr.map Prod.snd).toList
  addresses := (s.modls m).moduleAddress.toList.map (readAddress s)

/-- A driver in memory. -/
def readDriver (s : State) (d : ℕ) : DriverTree where
  desc := { s.drvrs d with modules := [] }
  modules := (s.drvrs d).modules.map (readModule s)

/-- A host in memory. -/
def readHost (s : State) (h : ℕ) : HostTree where
  desc := { s.hosts h with drivers := [] }
  drivers := (s.hosts h).drivers.map (readDriver s)

/-! ### Elements in their place -/

/-- The last element of a kind. -/
def lastOf (k : KeyWord) (elements : List Placed) : Option Placed :=
  (elements.filter fun p => p.key = k).getLast?

/-- The element is inside the last module. -/
def InLastModule (before : List Placed) (p : Placed) : Prop :=
  p.module ≠ none ∧ (lastOf .MODULE before).map Placed.number = p.module

/-- The last element of a kind is in the same module. -/
def InModuleOf (k : KeyWord) (before : List Placed) (p : Placed) : Prop :=
  p.module ≠ none ∧ (lastOf k before).bind Placed.module = p.module

/-- An element that is put where it belongs: the driver around a module is the last driver, the
module around an interrupt or an address is the last module, and a space is in the module of the
last address of its kind.  There is one interrupt in a module; a VME space that is no CR/CSR space is
one of the first two of its module, and a carrier space has no comment. -/
def InPlace (before : List Placed) (p : Placed) : Prop :=
  match p.key with
  | .MODULE => p.driver ≠ none ∧ (lastOf .DRIVER before).map Placed.number = p.driver
  | .INTERRUPT => InLastModule before p ∧ spacesIn before .INTERRUPT p.module = []
  | .PCI | .VME | .CARRIER => InLastModule before p
  | .PCI_SPACE => InModuleOf .PCI before p
  | .VME_SPACE =>
    InModuleOf .VME before p ∧
      (isCsr p.space = true ∨ (spacesIn before .VME_SPACE p.module).length ≤ 1)
  | .CARRIER_SPACE =>
    InModuleOf .CARRIER before p ∧ ∀ a ∈ p.props, lookUp a.name ≠ .COMMENT
  | _ => True

/-- All elements are in their place and can be read, after those `before`. -/
def AllInPlace : List Placed → List Placed → Prop
  | _, [] => True
  | before, p :: rest =>
    (Readable (knownAttrs p.key) p.props ∧ InPlace before p) ∧ AllInPlace (before ++ [p]) rest

/-- The host that is built is the one that the file describes, unless there is a message. -/
def Describes (fails : Block → Bool) (name : Text) (props : List XmlAttr) (children next : XmlNode)
    (s : State) : Prop :=
  let r := insLibParseInstallFile fails (.element name props children next) s
  r.2.errors = s.errors → ∃ h, r.1 = some (some h) ∧
    readHost r.2 h = expectedHost (children.placed (s.elements + 1) none none) props

section Decide

instance (known : List KeyWord) (props : List XmlAttr) : Decidable (Readable known props) :=
  decidable_of_iff ((props.map XmlAttr.name).Nodup ∧
    (∀ a ∈ props, lookUp a.name ∈ known → lookUp a.name ≠ .IGNORE_INSTALL_ERRORS →
      a.value ≠ none) ∧
    ∀ a ∈ props.dropWhile fun a => lookUp a.name ∈ known, lookUp a.name ∉ known)
    ⟨fun ⟨h1, h2, h3⟩ => ⟨h1, h2, h3⟩, fun ⟨h1, h2, h3⟩ => ⟨h1, h2, h3⟩⟩

instance (before : List Placed) (p : Placed) : Decidable (InLastModule before p) :=
  inferInstanceAs (Decidable (_ ∧ _))

instance (k : KeyWord) (before : List Placed) (p : Placed) : Decidable (InModuleOf k before p) :=
  inferInstanceAs (Decidable (_ ∧ _))

instance (before : List Placed) (p : Placed) : Decidable (InPlace before p) := by
  unfold InPlace
  split <;> infer_instance

instance decidableAllInPlace : (before l : List Placed) → Decidable (AllInPlace before l)
  | _, [] => .isTrue trivial
  | before, p :: rest =>
    have := decidableAllInPlace (before ++ [p]) rest
    inferInstanceAs (Decidable (_ ∧ _))

end Decide

theorem InLastModule.last {before : List Placed} {p : Placed} (h : InLastModule before p) :
    ∃ m, lastOf .MODULE before = some m ∧ p.module = some m.number := by
  obtain ⟨hsome, hmap⟩ := h
  obtain ⟨k, hk⟩ := Option.ne_none_iff_exists'.mp hsome
  rw [hk] at hmap ⊢
  obtain ⟨m, hm, rfl⟩ := Option.map_eq_some_iff.mp hmap
  exact ⟨m, hm, rfl⟩

theorem InModuleOf.last {k : KeyWord} {before : List Placed} {p : Placed}
    (h : InModuleOf k before p) :
    p.module ≠ none ∧ ∃ a, lastOf k before = some a ∧ a.module = p.module := by
  obtain ⟨hsome, hbind⟩ := h
  refine ⟨hsome, ?_⟩
  obtain ⟨m, hm⟩ := Option.ne_none_iff_exists'.mp hsome
  rw [hm] at hbind ⊢
  exact Option.bind_eq_some_iff.mp hbind

/-! ### Messages are counted -/

@[simp] theorem prnterr_errors (s : State) : s.prnterr.errors = s.errors + 1 := rfl

@[simp] theorem use_errors (s : State) (b : Block) : (s.use b).errors = s.errors := by
  unfold State.use
  split <;> rfl

@[simp] theorem free_errors (s : State) (b : Block) : (s.free b).errors = s.errors := by
  unfold State.free
  split <;> rfl

@[simp] theorem malloc_errors (s : State) (b : Block) : (s.malloc b).errors = s.errors := rfl

@[simp] theorem useAll_errors (blocks : List ℕ) (s : State) :
    (useAll blocks s).errors = s.errors := by
  induction blocks generalizing s with
  | nil => rfl
  | cons b blocks ih => exact (ih _).trans (use_errors s _)

@[simp] theorem insLibFreeSpace_errors (spaces : List (ℕ × AddressSpace)) (s : State) :
    (insLibFreeSpace spaces s).errors = s.errors := by
  induction spaces generalizing s with
  | nil => rfl
  | cons p spaces ih => simp [insLibFreeSpace, ih]

@[simp] theorem freeParts_errors (m : InsLibModlDesc) (s : State) :
    (freeParts m s).errors = s.errors := by
  have haddress : ∀ a s, (insLibFreeAddress a s).errors = s.errors := by
    intro a s
    simp [insLibFreeAddress]
  unfold freeParts
  dsimp only
  cases m.isr <;> cases m.extra <;> cases m.busType <;> cases m.moduleAddress <;>
    simp [haddress]

@[simp] theorem insLibFreeModule_errors (modules : List ℕ) (s : State) :
    (insLibFreeModule modules s).errors = s.errors := by
  induction modules generalizing s with
  | nil => rfl
  | cons m modules ih => simp [insLibFreeModule, ih]

@[simp] theorem insLibFreeDriver_errors (drivers : List ℕ) (s : State) :
    (insLibFreeDriver drivers s).errors = s.errors := by
  induction drivers generalizing s with
  | nil => rfl
  | cons d drivers ih => simp [insLibFreeDriver, ih]

@[simp] theorem giveUp_errors (s : State) : (giveUp s).2.errors = s.errors := by
  unfold giveUp insLibFreeHost
  cases s.hostd <;> simp

theorem carSpaceProps_errors (a : ℕ) (props : List XmlAttr) (r : CarAddressSpace × State) :
    r.2.errors ≤ (readProps (carSpaceProps a) props none r).2.2.errors := by
  refine readProps_rel (R := fun r r' : CarAddressSpace × State => r.2.errors ≤ r'.2.errors)
    (fun _ => le_rfl) (fun h h' => h.trans h') (fun k f hf v r next hnext => ?_) props none r
  by_cases hk : k = .COMMENT
  · subst hk
    cases hf
    obtain ⟨t, -, rfl⟩ := Option.map_eq_some_iff.mp hnext
    show r.2.errors ≤ (setCarComment a _ r.2).errors
    unfold setCarComment
    split <;> exact le_rfl
  · by_cases hkey : k ∈ [KeyWord.DATA_WIDTH, .WINDOW_SIZE]
    · obtain ⟨f', hf', hloads⟩ := (carSpaceFields a).loads k hkey
      rw [hf] at hf'
      cases hf'
      exact (hloads.near hnext).errors
    · rw [(carSpaceFields a).unknown k (by
        simp only [knownAttrs, List.mem_cons, List.not_mem_nil, or_false] at hkey ⊢
        tauto)] at hf
      cases hf

section Errors

variable (fails : Block → Bool) (n : ℕ) (props : List XmlAttr) (s : State)

theorem handleInstallNode_errors : s.errors ≤ (handleInstallNode fails n props s).2.errors := by
  unfold handleInstallNode
  split
  · exact Nat.le_succ _
  · have hnear := readProps_near hostFields props none (⟨"", "", []⟩, s.malloc (n, 0))
    generalize readProps installProps props none (⟨"", "", []⟩, s.malloc (n, 0)) = run at hnear ⊢
    split
    · exact hnear.errors
    · exact hnear.errors.trans (Near.check _ _).errors

theorem handleDriverNode_errors : s.errors ≤ (handleDriverNode fails n props s).2.errors := by
  unfold handleDriverNode
  split
  · exact Nat.le_succ _
  · split
    · simp
    · have hnear := readProps_near driverFields props none
        (⟨"", 0, 0, "", -1, 0, []⟩, s.malloc (n, 0))
      generalize readProps driverProps props none
        (⟨"", 0, 0, "", -1, 0, []⟩, s.malloc (n, 0)) = run at hnear ⊢
      split
      · exact hnear.errors
      · simpa [addDriverNode] using hnear.errors.trans (Near.check _ _).errors

theorem handleModuleNode_errors : s.errors ≤ (handleModuleNode fails n props s).2.errors := by
  unfold handleModuleNode
  split
  · simp
  · split
    · simp
    · have hnear := readProps_near (moduleFields fails n) props none
        (⟨.notSet, 0, 0, none, "", "", none, none⟩, s.malloc (n, 0))
      generalize readProps (moduleProps fails n) props none
        (⟨.notSet, 0, 0, none, "", "", none, none⟩, s.malloc (n, 0)) = run at hnear ⊢
      split
      · exact hnear.errors
      · simpa using hnear.errors
      · simpa [addModuleNode] using hnear.errors.trans (Near.check _ _).errors

theorem interruptNode_errors : s.errors ≤ (interruptNode fails n props s).2.errors := by
  unfold interruptNode
  split
  · simp
  · split
    · simp
    · rename_i m _ _
      have hnear := readProps_near intrFields props none
        (⟨1, 0, 0, ""⟩, (s.malloc (n, 0)).use (m, 0))
      have hle := hnear.errors
      rw [use_errors, malloc_errors] at hle
      split <;> (rename_i heq; rw [heq] at hle; exact hle)

theorem newAddress_errors (m : ℕ) (badBus : Bool) :
    s.errors ≤ (newAddress fails n m badBus s).2.errors := by
  unfold newAddress
  dsimp only
  split
  · simp
  · split
    · simp
    · split <;> simp

theorem parsePciAddressTag_errors : s.errors ≤ (parsePciAddressTag fails n props s).2.errors := by
  unfold parsePciAddressTag
  split
  · exact Nat.le_succ _
  · rename_i m _
    dsimp only
    have hnew := newAddress_errors fails n s m
      ((s.modls m).busType ≠ .pmc && (s.modls m).busType ≠ .pci)
    generalize newAddress fails n m _ s = new at hnew ⊢
    split
    · exact hnew
    · rename_i s' 
      have hnear := readProps_near pciFields props none (⟨0, 0, 0, 0, 0, 0, ""⟩, s')
      generalize readProps pciProps props none (⟨0, 0, 0, 0, 0, 0, ""⟩, s') = run at hnear ⊢
      have hle := hnew.trans hnear.errors
      split
      · exact hle
      · simpa using hle
      · exact hle
      · split
        · simpa using hle.trans (Nat.le_succ _)
        · exact hle

theorem parseVmeAddressTag_errors : s.errors ≤ (parseVmeAddressTag fails n props s).2.errors := by
  unfold parseVmeAddressTag
  split
  · exact Nat.le_succ _
  · rename_i m _
    have hnew := newAddress_errors fails n s m ((s.modls m).busType ≠ .vme)
    generalize newAddress fails n m _ s = new at hnew ⊢
    split
    · exact hnew
    · rename_i s'
      have hnear := readProps_near vmeFields props none (⟨""⟩, s')
      generalize readProps vmeProps props none (⟨""⟩, s') = run at hnear ⊢
      split <;> exact hnew.trans hnear.errors

theorem parseCarAddressTag_errors : s.errors ≤ (parseCarAddressTag fails n props s).2.errors := by
  unfold parseCarAddressTag
  split
  · exact Nat.le_succ _
  · rename_i m _
    have hnew := (Near.check s ((s.modls m).busType ≠ .carrier)).errors.trans
      (newAddress_errors fails n (s.check ((s.modls m).busType ≠ .carrier)) m false)
    generalize newAddress fails n m false _ = new at hnew ⊢
    split
    · exact hnew
    · rename_i s'
      have hnear := readProps_near carFields props none (⟨"", 0, 0, ""⟩, s')
      generalize readProps carProps props none (⟨"", 0, 0, ""⟩, s') = run at hnear ⊢
      have hle := hnew.trans hnear.errors
      split
      · exact hle
      · simpa using hle
      · exact hle
      · split
        · simpa using hle.trans (Nat.le_succ _)
        · exact hle

@[simp] theorem newSpace_errors (a : ℕ) : (newSpace n a s).errors = s.errors := by
  simp [newSpace]

theorem pciSpaceNode_errors : s.errors ≤ (pciSpaceNode fails n props s).2.errors := by
  unfold pciSpaceNode
  split
  · simp
  · split
    · simp
    · rename_i a _ _
      have hle := (readProps_near pciSpaceFields props none
        (⟨0, 0, 0, 0, .notSet, ""⟩, newSpace n a s)).errors
      rw [newSpace_errors] at hle
      split <;> (rename_i heq; rw [heq] at hle; exact hle)

theorem vmeSpaceMissing_near (m : ℕ) (p : VmeAddressSpace) : Near s (vmeSpaceMissing m p s) :=
  (((Near.checkNaming m s _).trans (.checkNaming m _ _)).trans (.checkNaming m _ _)).trans
    (.checkNaming m _ _)

@[simp] theorem addVmeAddrSpace_errors (a : ℕ) (p : VmeAddressSpace) :
    (addVmeAddrSpace a n p s).2.errors = s.errors := by
  unfold addVmeAddrSpace
  dsimp only
  split
  · simp [addSpace]
  · split
    · split <;> simp [addSpace]
    · simp

theorem handleVmeSpaceNode_errors : s.errors ≤ (handleVmeSpaceNode fails n props s).2.errors := by
  unfold handleVmeSpaceNode
  split
  · simp
  · simp
  · split
    · simp
    · rename_i m _ _ _
      have hnear := readProps_near (vmeSpaceFields m) props none
        (⟨0, 0, 0, 0, .notSet, 0, 0, ""⟩, s.malloc (n, 0))
      generalize readProps (vmeSpaceProps m) props none
        (⟨0, 0, 0, 0, .notSet, 0, 0, ""⟩, s.malloc (n, 0)) = run at hnear ⊢
      split
      · exact hnear.errors
      · rw [addVmeAddrSpace_errors]
        exact hnear.errors.trans (vmeSpaceMissing_near _ m _).errors

theorem carSpaceNode_errors : s.errors ≤ (carSpaceNode fails n props s).2.errors := by
  unfold carSpaceNode
  split
  · simp
  · split
    · simp
    · rename_i a _ _
      have hle := carSpaceProps_errors a props (⟨0, 0, 0, 0, .notSet, ""⟩, newSpace n a s)
      dsimp only at hle
      rw [newSpace_errors] at hle
      split
      · rename_i heq
        rw [heq] at hle
        exact hle
      · rename_i heq
        rw [heq] at hle
        exact hle.trans ((Near.check _ _).trans (.check _ _)).errors

theorem element_errors (e : Element) : s.errors ≤ (element fails e s).2.errors := by
  unfold element
  dsimp only
  split
  · exact handleInstallNode_errors fails _ _ { s with elements := s.elements + 1 }
  · exact handleDriverNode_errors fails _ _ { s with elements := s.elements + 1 }
  · exact handleModuleNode_errors fails _ _ { s with elements := s.elements + 1 }
  · exact interruptNode_errors fails _ _ { s with elements := s.elements + 1 }
  · exact parsePciAddressTag_errors fails _ _ { s with elements := s.elements + 1 }
  · exact pciSpaceNode_errors fails _ _ { s with elements := s.elements + 1 }
  · exact parseVmeAddressTag_errors fails _ _ { s with elements := s.elements + 1 }
  · exact handleVmeSpaceNode_errors fails _ _ { s with elements := s.elements + 1 }
  · exact parseCarAddressTag_errors fails _ _ { s with elements := s.elements + 1 }
  · exact carSpaceNode_errors fails _ _ { s with elements := s.elements + 1 }
  · exact (Nat.le_succ _).trans (Nat.le_succ _)
  · exact Nat.le_succ _

theorem doElement_errors (node : XmlNode) (s : State) :
    s.errors ≤ (doElement fails node s).2.errors := by
  induction node generalizing s with
  | null => exact le_rfl
  | other children next ihc ihn =>
    rw [doElement]
    have hchildren := ihc s
    generalize doElement fails children s = run at hchildren ⊢
    obtain ⟨step, s'⟩ := run
    cases step with
    | goes => exact hchildren.trans (ihn s')
    | null => exact hchildren
    | undefined => exact hchildren
  | element name properties children next ihc ihn =>
    rw [doElement]
    have hone := element_errors fails s ⟨name, properties⟩
    generalize element fails ⟨name, properties⟩ s = run at hone ⊢
    obtain ⟨step, s1⟩ := run
    cases step with
    | goes =>
      dsimp only
      have hchildren := ihc s1
      generalize doElement fails children s1 = run at hchildren ⊢
      obtain ⟨step, s2⟩ := run
      cases step with
      | goes => exact (hone.trans hchildren).trans (ihn s2)
      | null => exact hone.trans hchildren
      | undefined => exact hone.trans hchildren
    | null => exact hone
    | undefined => exact hone

end Errors

section Quiet

variable {fails : Block → Bool} {name : Text} {properties : List XmlAttr}
  {children next : XmlNode} {s : State}

theorem element_quiet
    (herr : (doElement fails (.element name properties children next) s).2.errors = s.errors) :
    (element fails ⟨name, properties⟩ s).2.errors = s.errors := by
  have hone := element_errors fails s ⟨name, properties⟩
  rw [doElement] at herr
  generalize element fails ⟨name, properties⟩ s = run at herr hone ⊢
  obtain ⟨step, s1⟩ := run
  cases step with
  | goes =>
    have hchildren := doElement_errors fails children s1
    dsimp only at herr hone ⊢
    generalize doElement fails children s1 = run at herr hchildren
    obtain ⟨step, s2⟩ := run
    cases step with
    | goes =>
      have hrest := doElement_errors fails next s2
      dsimp only at herr hchildren
      omega
    | null =>
      dsimp only at herr hchildren
      omega
    | undefined =>
      dsimp only at herr hchildren
      omega
  | null => exact herr
  | undefined => exact herr

theorem children_quiet {s1 : State}
    (herr : (doElement fails (.element name properties children next) s).2.errors = s.errors)
    (hrun : element fails ⟨name, properties⟩ s = (.goes, s1)) :
    (doElement fails children s1).2.errors = s1.errors := by
  have hone := element_quiet herr
  rw [hrun] at hone
  rw [doElement, hrun] at herr
  dsimp only at herr hone
  have hchildren := doElement_errors fails children s1
  generalize doElement fails children s1 = run at herr hchildren ⊢
  obtain ⟨step, s2⟩ := run
  cases step with
  | goes =>
    have hrest := doElement_errors fails next s2
    dsimp only at herr hchildren ⊢
    omega
  | null => exact herr.trans hone.symm
  | undefined => exact herr.trans hone.symm

end Quiet

/-! ### Elements without messages -/

/-- A driver behind the others of a host. -/
def withDriver (h n : ℕ) (s : State) : State :=
  { s with hosts := update s.hosts h { s.hosts h with drivers := (s.hosts h).drivers ++ [n] } }

theorem addDriverNode_near (h n : ℕ) (s : State) : Near (withDriver h n s) (addDriverNode h n s) :=
  ((Near.use s (h, 0)).trans (.useAll _ _)).map (f := withDriver h n) fun _ _ _ _ => rfl

/-- A module behind the others of a driver. -/
def withModule (d n : ℕ) (s : State) : State :=
  { s with
    drvrs := update s.drvrs d { s.drvrs d with
      modules := (s.drvrs d).modules ++ [n]
      moduleCount := (s.drvrs d).moduleCount + 1 } }

theorem addModuleNode_near (d n : ℕ) (s : State) : Near (withModule d n s) (addModuleNode d n s) :=
  ((Near.use s (d, 0)).trans (.useAll _ _)).map (f := withModule d n) fun _ _ _ _ => rfl

/-- An address for a module. -/
def withAddress (n m : ℕ) (s : State) : State :=
  { s with modls := update s.modls m { s.modls m with moduleAddress := some n } }

/-- A space among the others, CR/CSR spaces in front. -/
def insertSpace (space : ℕ × AddressSpace) (spaces : List (ℕ × AddressSpace)) :
    List (ℕ × AddressSpace) :=
  if isCsr space.2 then space :: spaces else spaces ++ [space]

/-- A space for an address. -/
def withSpace (a : ℕ) (space : ℕ × AddressSpace) (s : State) : State :=
  { s with addrs := update s.addrs a { s.addrs a with
      spaces := insertSpace space (s.addrs a).spaces } }

theorem inOrder_append (spaces : List (ℕ × AddressSpace)) (space : ℕ × AddressSpace) :
    inOrder (spaces ++ [space]) = insertSpace space (inOrder spaces) := by
  unfold inOrder insertSpace
  rw [List.filter_append, List.filter_append]
  cases h : isCsr space.2 <;> simp [h]

theorem inOrder_length (spaces : List (ℕ × AddressSpace)) :
    (inOrder spaces).length = spaces.length := by
  induction spaces with
  | nil => rfl
  | cons p spaces ih =>
    unfold inOrder at ih ⊢
    cases h : isCsr p.2 <;> simp [h] at ih ⊢ <;> omega

theorem addSpace_eq {space : ℕ × AddressSpace} (h : isCsr space.2 = false) (a : ℕ) (s : State) :
    addSpace a space s = withSpace a space s := by
  unfold addSpace withSpace insertSpace
  rw [h]
  rfl

section Quietly

variable {fails : Block → Bool} {n : ℕ} {props : List XmlAttr} {s : State}

theorem readProps_quietly {α : Type} {reader : Reader (α × State)} {known keys : List KeyWord}
    {apply : KeyWord → Text → α → α} (hfields : Fields reader known keys apply)
    (hread : Readable known props)
    (hkeys : ∀ a ∈ props, lookUp a.name ∈ known → lookUp a.name ∈ keys) (x : α) (s : State) :
    ∃ step x' s', readProps reader props none (x, s) = (step, (x', s')) ∧ step ≠ .undefined ∧
      Near s s' ∧ (s'.errors = s.errors → step ≠ .quit ∧ x' = fill apply (front known props) x) := by
  obtain ⟨hdefined, hnear, hquiet⟩ := readProps_loads hfields hread hkeys none x s
  exact ⟨_, _, _, rfl, hdefined, hnear, hquiet⟩

theorem handleDriverNode_quietly {h : ℕ} (hread : Readable (knownAttrs .DRIVER) props)
    (hhost : s.hostd = some h)
    (herr : (handleDriverNode fails n props s).2.errors = s.errors) :
    ∃ s', handleDriverNode fails n props s = (.goes, s') ∧ Near (withDriver h n { s with
      drvrd := some n
      drvrs := update s.drvrs n (driverOf props) }) s' := by
  obtain ⟨step, x, s1, hrun, hdefined, hnear, hquiet⟩ := readProps_quietly driverFields hread
    (fun _ _ hk => hk) ⟨"", 0, 0, "", -1, 0, []⟩ (s.malloc (n, 0))
  have hcheck := Near.check s1 (x.drvrName = "")
  have hle := hcheck.errors
  have hle' : s.errors ≤ s1.errors := hnear.errors
  generalize hgoal : withDriver h n _ = goal
  unfold handleDriverNode at herr ⊢
  rw [hhost] at herr ⊢
  by_cases hfail : fails (n, 0) = true
  · simp [hfail] at herr
  · simp only [if_neg hfail, hrun] at herr ⊢
    cases step with
    | undefined => exact absurd rfl hdefined
    | _ =>
      simp only [addDriverNode, useAll_errors, use_errors] at herr
      obtain ⟨-, rfl⟩ := hquiet (by
        show s1.errors = s.errors
        omega)
      rw [fill_driver hread] at hcheck ⊢
      subst hgoal
      have hbefore := (Near.malloc s (n, 0)).trans (hnear.trans hcheck)
      exact ⟨_, rfl, ((hbefore.map (f := fun s => { s with
        drvrd := some n
        drvrs := update s.drvrs n (driverOf props) }) fun _ _ _ _ => rfl).map
          (f := withDriver h n) fun _ _ _ _ => rfl).trans
          (addDriverNode_near h n _)⟩

theorem handleModuleNode_quietly {d : ℕ} (hread : Readable (knownAttrs .MODULE) props)
    (hdrvr : s.drvrd = some d)
    (herr : (handleModuleNode fails n props s).2.errors = s.errors) :
    ∃ m s', handleModuleNode fails n props s = (.goes, s') ∧ m.plain = moduleOf props ∧
      Near (withModule d n { s with modld := some n, modls := update s.modls n m }) s' := by
  obtain ⟨step, x, s1, hrun, hdefined, hnear, hquiet⟩ := readProps_quietly (moduleFields fails n)
    hread (fun _ _ hk => hk) ⟨.notSet, 0, 0, none, "", "", none, none⟩ (s.malloc (n, 0))
  have hcheck := Near.check s1 (x.busType = .notSet)
  have hle := hcheck.errors
  have hle' : s.errors ≤ s1.errors := hnear.errors
  refine ⟨x, ?_⟩
  generalize hgoal : withModule d n _ = goal
  unfold handleModuleNode at herr ⊢
  rw [hdrvr] at herr ⊢
  by_cases hfail : fails (n, 0) = true
  · simp [hfail] at herr
  · simp only [if_neg hfail, hrun] at herr ⊢
    cases step with
    | undefined => exact absurd rfl hdefined
    | quit =>
      simp only [giveUp_errors, free_errors] at herr
      exact absurd rfl (hquiet herr).1
    | _ =>
      simp only [addModuleNode, useAll_errors, use_errors] at herr
      obtain ⟨-, rfl⟩ := hquiet (by
        show s1.errors = s.errors
        omega)
      subst hgoal
      have hbefore := (Near.malloc s (n, 0)).trans (hnear.trans hcheck)
      exact ⟨_, rfl, fill_module hread n, ((hbefore.map (f := fun s => { s with
        modld := some n
        modls := update s.modls n _ }) fun _ _ _ _ => rfl).map
          (f := withModule d n) fun _ _ _ _ => rfl).trans
          (addModuleNode_near d n _)⟩

theorem interruptNode_quietly {m : ℕ} (hread : Readable (knownAttrs .INTERRUPT) props)
    (hmodl : s.modld = some m) (herr : (interruptNode fails n props s).2.errors = s.errors) :
    ∃ s', interruptNode fails n props s = (.goes, s') ∧ Near { s with
      modls := update s.modls m { s.modls m with isr := some (n, intrOf props) } } s' := by
  obtain ⟨step, x, s1, hrun, hdefined, hnear, hquiet⟩ := readProps_quietly intrFields hread
    (fun _ _ hk => hk) ⟨1, 0, 0, ""⟩ ((s.malloc (n, 0)).use (m, 0))
  have hbefore := (Near.malloc s (n, 0)).trans ((Near.use _ (m, 0)).trans hnear)
  generalize hgoal : ({ s with modls := _ } : State) = goal
  unfold interruptNode at herr ⊢
  rw [hmodl] at herr ⊢
  by_cases hfail : fails (n, 0) = true
  · simp [hfail] at herr
  · simp only [if_neg hfail, hrun] at herr ⊢
    cases step with
    | undefined => exact absurd rfl hdefined
    | _ =>
      obtain ⟨-, rfl⟩ := hquiet (by
        rw [use_errors]
        exact herr)
      rw [fill_intr hread]
      subst hgoal
      exact ⟨_, rfl, hbefore.map (f := fun s => { s with
        modls := update s.modls m { s.modls m with isr := some (n, intrOf props) } })
        fun _ _ _ _ => rfl⟩

theorem newAddress_quietly {m : ℕ} {badBus : Bool}
    (herr : (newAddress fails n m badBus s).2.errors = s.errors) :
    ∃ s', newAddress fails n m badBus s = (true, s') ∧ (s.modls m).moduleAddress = none ∧
      Near (withAddress n m s) s' := by
  have huse := Near.use s (m, 0)
  unfold newAddress at herr ⊢
  cases badBus with
  | true => simp at herr
  | false =>
    by_cases hfail : fails (n, 0) = true
    · simp [hfail] at herr
    · have hmodls : (s.use (m, 0)).modls = s.modls := by rw [huse.rest]
      simp only [Bool.false_eq_true, if_false, if_neg hfail, hmodls] at herr ⊢
      cases haddr : (s.modls m).moduleAddress with
      | some a => simp [haddr] at herr
      | none =>
        refine ⟨_, rfl, rfl, ?_⟩
        exact (huse.trans (.malloc _ (n, 0))).map (f := withAddress n m) fun _ _ _ _ => rfl

theorem newAddress_done {m : ℕ} {badBus done : Bool} {s1 : State}
    (hnew : newAddress fails n m badBus s = (done, s1)) (herr : s1.errors = s.errors) :
    done = true ∧ (s.modls m).moduleAddress = none ∧ Near (withAddress n m s) s1 := by
  have herr' : (newAddress fails n m badBus s).2.errors = s.errors := by
    rw [hnew]
    exact herr
  obtain ⟨s', heq, hnone, hnear⟩ := newAddress_quietly herr'
  rw [hnew] at heq
  cases heq
  exact ⟨rfl, hnone, hnear⟩

theorem parsePciAddressTag_quietly {m : ℕ} (hread : Readable (knownAttrs .PCI) props)
    (hmodl : s.modld = some m) (herr : (parsePciAddressTag fails n props s).2.errors = s.errors) :
    ∃ s', parsePciAddressTag fails n props s = (.goes, s') ∧
      (s.modls m).moduleAddress = none ∧
      Near { setAddress n (.pci (pciOf props)) (withAddress n m s) with pcima := some n } s' := by
  generalize hgoal : ({ setAddress n _ _ with pcima := some n } : State) = goal
  unfold parsePciAddressTag at herr ⊢
  rw [hmodl] at herr ⊢
  dsimp only at herr ⊢
  have hmono := newAddress_errors fails n s m
    ((s.modls m).busType ≠ .pmc && (s.modls m).busType ≠ .pci)
  generalize hnew : newAddress fails n m
    ((s.modls m).busType ≠ .pmc && (s.modls m).busType ≠ .pci) s = new at herr hmono ⊢
  obtain ⟨done, s1⟩ := new
  obtain ⟨step, x, s2, hrun, hdefined, hnear, hquiet⟩ := readProps_quietly pciFields hread
    (fun _ _ hk => hk) ⟨0, 0, 0, 0, 0, 0, ""⟩ s1
  have hle := hnear.errors
  cases done with
  | false => cases (newAddress_done hnew herr).1
  | true =>
    simp only [hrun] at herr ⊢
    have hs2 : s2.errors = s.errors → s1.errors = s.errors ∧ s2.errors = s1.errors := by
      intro h
      dsimp only at hmono
      omega
    have hgood : s2.errors = s.errors → ∃ s', (Step.goes,
        ({ setAddress n (.pci x) s2 with pcima := some n } : State)) = (.goes, s') ∧
        (s.modls m).moduleAddress = none ∧ Near goal s' := by
      intro h
      obtain ⟨h1, h2⟩ := hs2 h
      obtain ⟨-, hnone, hlinked⟩ := newAddress_done hnew h1
      obtain ⟨-, rfl⟩ := hquiet h2
      rw [fill_pci hread]
      subst hgoal
      exact ⟨_, rfl, hnone, (hlinked.trans hnear).map (f := fun s =>
        { setAddress n (.pci (pciOf props)) s with pcima := some n }) fun _ _ _ _ => rfl⟩
    cases step with
    | undefined => exact absurd rfl hdefined
    | quit =>
      simp only [free_errors] at herr
      exact absurd rfl (hquiet (hs2 herr).2).1
    | unknown => exact hgood herr
    | all =>
      dsimp only at herr ⊢
      by_cases hmissing : pciMissing x = true
      · simp only [if_pos hmissing, free_errors, prnterr_errors] at herr
        dsimp only at hmono
        omega
      · rw [if_neg hmissing] at herr ⊢
        exact hgood herr

theorem parseVmeAddressTag_quietly {m : ℕ} (hread : Readable (knownAttrs .VME) props)
    (hmodl : s.modld = some m) (herr : (parseVmeAddressTag fails n props s).2.errors = s.errors) :
    ∃ s', parseVmeAddressTag fails n props s = (.goes, s') ∧
      (s.modls m).moduleAddress = none ∧
      Near { setAddress n (.vme (vmeOf props)) (withAddress n m s) with vmema := some n } s' := by
  generalize hgoal : ({ setAddress n _ _ with vmema := some n } : State) = goal
  unfold parseVmeAddressTag at herr ⊢
  rw [hmodl] at herr ⊢
  dsimp only at herr ⊢
  have hmono := newAddress_errors fails n s m ((s.modls m).busType ≠ .vme)
  generalize hnew : newAddress fails n m ((s.modls m).busType ≠ .vme) s = new at herr hmono ⊢
  obtain ⟨done, s1⟩ := new
  obtain ⟨step, x, s2, hrun, hdefined, hnear, hquiet⟩ := readProps_quietly vmeFields hread
    (fun _ _ hk => hk) ⟨""⟩ s1
  have hle := hnear.errors
  cases done with
  | false => cases (newAddress_done hnew herr).1
  | true =>
    simp only [hrun] at herr ⊢
    cases step with
    | undefined => exact absurd rfl hdefined
    | _ =>
      have herr' : s2.errors = s.errors := herr
      dsimp only at hmono
      obtain ⟨-, hnone, hlinked⟩ := newAddress_done hnew (by omega)
      obtain ⟨-, rfl⟩ := hquiet (by omega)
      rw [fill_vme hread]
      subst hgoal
      exact ⟨_, rfl, hnone, (hlinked.trans hnear).map (f := fun s =>
        { setAddress n (.vme (vmeOf props)) s with vmema := some n }) fun _ _ _ _ => rfl⟩

theorem parseCarAddressTag_quietly {m : ℕ} (hread : Readable (knownAttrs .CARRIER) props)
    (hmodl : s.modld = some m) (herr : (parseCarAddressTag fails n props s).2.errors = s.errors) :
    ∃ s', parseCarAddressTag fails n props s = (.goes, s') ∧
      (s.modls m).moduleAddress = none ∧
      Near { setAddress n (.car (carOf props)) (withAddress n m s) with carma := some n } s' := by
  generalize hgoal : ({ setAddress n _ _ with carma := some n } : State) = goal
  unfold parseCarAddressTag at herr ⊢
  rw [hmodl] at herr ⊢
  dsimp only at herr ⊢
  have hcheck := (Near.check s ((s.modls m).busType ≠ .carrier)).errors
  have hmono := newAddress_errors fails n (s.check ((s.modls m).busType ≠ .carrier)) m false
  generalize hnew : newAddress fails n m false (s.check ((s.modls m).busType ≠ .carrier)) = new
    at herr hmono ⊢
  obtain ⟨done, s1⟩ := new
  obtain ⟨step, x, s2, hrun, hdefined, hnear, hquiet⟩ := readProps_quietly carFields hread
    (fun _ _ hk => hk) ⟨"", 0, 0, ""⟩ s1
  have hle := hnear.errors
  have hsame : s1.errors = s.errors → s.check ((s.modls m).busType ≠ .carrier) = s := by
    intro h
    cases hbad : decide ((s.modls m).busType ≠ .carrier) with
    | false => rfl
    | true =>
      rw [hbad] at hmono
      have hmono' : s.errors + 1 ≤ s1.errors := hmono
      omega
  cases done with
  | false =>
    rw [hsame herr] at hnew
    cases (newAddress_done hnew herr).1
  | true =>
    simp only [hrun] at herr ⊢
    have hs2 : s2.errors = s.errors → s1.errors = s.errors ∧ s2.errors = s1.errors := by
      intro h
      dsimp only at hmono
      omega
    have hgood : s2.errors = s.errors → ∃ s', (Step.goes,
        ({ setAddress n (.car x) s2 with carma := some n } : State)) = (.goes, s') ∧
        (s.modls m).moduleAddress = none ∧ Near goal s' := by
      intro h
      obtain ⟨h1, h2⟩ := hs2 h
      rw [hsame h1] at hnew
      obtain ⟨-, hnone, hlinked⟩ := newAddress_done hnew h1
      obtain ⟨-, rfl⟩ := hquiet h2
      rw [fill_car hread]
      subst hgoal
      exact ⟨_, rfl, hnone, (hlinked.trans hnear).map (f := fun s =>
        { setAddress n (.car (carOf props)) s with carma := some n }) fun _ _ _ _ => rfl⟩
    cases step with
    | undefined => exact absurd rfl hdefined
    | quit =>
      simp only [free_errors] at herr
      exact absurd rfl (hquiet (hs2 herr).2).1
    | unknown => exact hgood herr
    | all =>
      dsimp only at herr ⊢
      by_cases hmissing : carMissing x = true
      · simp only [if_pos hmissing, free_errors, prnterr_errors] at herr
        dsimp only at hmono
        omega
      · rw [if_neg hmissing] at herr ⊢
        exact hgood herr

theorem newSpace_near (n a : ℕ) (s : State) : Near s (newSpace n a s) :=
  (Near.malloc s (n, 0)).trans ((Near.use _ (a, 0)).trans (.useAll _ _))

theorem pciSpaceNode_quietly {a : ℕ} (hread : Readable (knownAttrs .PCI_SPACE) props)
    (hcur : s.pcima = some a) (herr : (pciSpaceNode fails n props s).2.errors = s.errors) :
    ∃ s', pciSpaceNode fails n props s = (.goes, s') ∧
      Near (withSpace a (n, .pci (pciSpaceOf props)) s) s' := by
  obtain ⟨step, x, s1, hrun, hdefined, hnear, hquiet⟩ := readProps_quietly pciSpaceFields hread
    (fun _ _ hk => hk) ⟨0, 0, 0, 0, .notSet, ""⟩ (newSpace n a s)
  generalize hgoal : withSpace a _ s = goal
  unfold pciSpaceNode at herr ⊢
  rw [hcur] at herr ⊢
  by_cases hfail : fails (n, 0) = true
  · simp [hfail] at herr
  · simp only [if_neg hfail, hrun] at herr ⊢
    cases step with
    | undefined => exact absurd rfl hdefined
    | _ =>
      obtain ⟨-, rfl⟩ := hquiet (by
        rw [newSpace_errors]
        exact herr)
      rw [fill_pciSpace hread]
      subst hgoal
      refine ⟨_, rfl, ?_⟩
      rw [addSpace_eq rfl]
      exact ((newSpace_near n a s).trans hnear).map
        (f := withSpace a (n, .pci (pciSpaceOf props))) fun _ _ _ _ => rfl

theorem carSpaceNode_quietly {a : ℕ} (hread : Readable (knownAttrs .CARRIER_SPACE) props)
    (hno : ∀ b ∈ props, lookUp b.name ≠ .COMMENT)
    (hcur : s.carma = some a) (herr : (carSpaceNode fails n props s).2.errors = s.errors) :
    ∃ s', carSpaceNode fails n props s = (.goes, s') ∧
      Near (withSpace a (n, .car (carSpaceOf props)) s) s' := by
  obtain ⟨step, x, s1, hrun, hdefined, hnear, hquiet⟩ := readProps_quietly (carSpaceFields a)
    hread (fun b hb hk => by
      simp only [knownAttrs, List.mem_cons, List.not_mem_nil, or_false] at hk ⊢
      have hcomment := hno b hb
      tauto) ⟨0, 0, 0, 0, .notSet, ""⟩ (newSpace n a s)
  have hchecks := (Near.check s1 (x.dataWidth = 0)).trans (.check _ (x.windowSize = 0))
  have hle := hnear.errors
  rw [newSpace_errors] at hle
  have hle' := hchecks.errors
  generalize hgoal : withSpace a _ s = goal
  unfold carSpaceNode at herr ⊢
  rw [hcur] at herr ⊢
  by_cases hfail : fails (n, 0) = true
  · simp [hfail] at herr
  · simp only [if_neg hfail, hrun] at herr ⊢
    cases step with
    | undefined => exact absurd rfl hdefined
    | _ =>
      have herr' : ((s1.check (x.dataWidth = 0)).check (x.windowSize = 0)).errors = s.errors := herr
      obtain ⟨-, rfl⟩ := hquiet (by
        rw [newSpace_errors]
        omega)
      rw [fill_carSpace hread hno] at hchecks ⊢
      subst hgoal
      refine ⟨_, rfl, ?_⟩
      rw [addSpace_eq rfl]
      exact (((newSpace_near n a s).trans hnear).trans hchecks).map
        (f := withSpace a (n, .car (carSpaceOf props))) fun _ _ _ _ => rfl

theorem addVmeAddrSpace_few {a : ℕ} {p : VmeAddressSpace}
    (hfew : isCsr (.vme p) = true ∨ (s.addrs a).spaces.length ≤ 1) :
    ∃ s', addVmeAddrSpace a n p s = (.goes, s') ∧ Near (withSpace a (n, .vme p) s) s' := by
  have huse := (Near.use s (a, 0)).trans (.useAll ((s.addrs a).spaces.take 1 |>.map Prod.fst) _)
  unfold addVmeAddrSpace
  dsimp only
  generalize useAll ((s.addrs a).spaces.take 1 |>.map Prod.fst) (s.use (a, 0)) = s1 at huse ⊢
  have hspaces : (s1.addrs a).spaces = (s.addrs a).spaces := by rw [huse.rest]
  have hmap := huse.map (f := withSpace a (n, .vme p)) fun _ _ _ _ => rfl
  by_cases hempty : (s1.addrs a).spaces = []
  · rw [if_pos hempty]
    have hsame : addSpace a (n, .vme p) s1 = withSpace a (n, .vme p) s1 := by
      unfold addSpace withSpace insertSpace
      rw [hempty]
      simp
    exact ⟨_, rfl, hsame ▸ hmap⟩
  · rw [if_neg hempty]
    by_cases hmod : p.addressModifier = 0x2f
    · rw [if_neg (not_not.mpr hmod)]
      have hfront : isCsr (.vme p) = true := decide_eq_true hmod
      refine ⟨_, rfl, ?_⟩
      unfold withSpace insertSpace at hmap ⊢
      simp only [hfront, if_true] at hmap ⊢
      exact hmap
    · have hback : isCsr (.vme p) = false := decide_eq_false hmod
      have hlen : (s.addrs a).spaces.length ≤ 1 := hfew.resolve_left (by rw [hback]; decide)
      rw [if_pos hmod, hspaces, if_neg (by omega), addSpace_eq hback]
      exact ⟨_, rfl, hmap⟩

theorem handleVmeSpaceNode_quietly {a m : ℕ} (hread : Readable (knownAttrs .VME_SPACE) props)
    (hcur : s.vmema = some a) (hmodl : s.modld = some m)
    (hfew : isCsr (.vme (vmeSpaceOf props)) = true ∨ (s.addrs a).spaces.length ≤ 1)
    (herr : (handleVmeSpaceNode fails n props s).2.errors = s.errors) :
    ∃ s', handleVmeSpaceNode fails n props s = (.goes, s') ∧
      Near (withSpace a (n, .vme (vmeSpaceOf props)) s) s' := by
  obtain ⟨step, x, s1, hrun, hdefined, hnear, hquiet⟩ := readProps_quietly (vmeSpaceFields m)
    hread (fun _ _ hk => hk) ⟨0, 0, 0, 0, .notSet, 0, 0, ""⟩ (s.malloc (n, 0))
  have hmissing := vmeSpaceMissing_near s1 m x
  have hle : s.errors ≤ s1.errors := hnear.errors
  have hle' := hmissing.errors
  generalize hgoal : withSpace a _ s = goal
  unfold handleVmeSpaceNode at herr ⊢
  rw [hcur, hmodl] at herr ⊢
  by_cases hfail : fails (n, 0) = true
  · simp [hfail] at herr
  · simp only [if_neg hfail, hrun] at herr ⊢
    cases step with
    | undefined => exact absurd rfl hdefined
    | _ =>
      have herr' : (vmeSpaceMissing m x s1).errors = s.errors := by
        rw [← addVmeAddrSpace_errors n (vmeSpaceMissing m x s1) a x]
        exact herr
      obtain ⟨-, rfl⟩ := hquiet (by
        show s1.errors = s.errors
        omega)
      rw [fill_vmeSpace hread] at hmissing ⊢
      have hbefore := (Near.malloc s (n, 0)).trans (hnear.trans hmissing)
      obtain ⟨s', hs', hspace⟩ := addVmeAddrSpace_few (s := vmeSpaceMissing m (vmeSpaceOf props) s1)
        (n := n) (a := a) (p := vmeSpaceOf props) (by
          rw [hbefore.rest]
          exact hfew)
      subst hgoal
      exact ⟨s', hs', (hbefore.map (f := withSpace a (n, .vme (vmeSpaceOf props)))
        fun _ _ _ _ => rfl).trans hspace⟩

end Quietly

/-! ### What is built so far -/

/-- Numbers below `n`, none of them twice. -/
structure Numbered (n : ℕ) (l : List Placed) : Prop where
  once : (l.map Placed.number).Nodup
  below : ∀ p ∈ l, p.number < n
  driver : ∀ p ∈ l, ∀ d, p.driver = some d → d < n
  module : ∀ p ∈ l, ∀ m, p.module = some m → m < n

/-- The drivers in memory. -/
def DriversBuilt (l : List Placed) (s : State) : Prop :=
  ∀ p ∈ driversOf l, s.drvrs p.number = { driverOf p.props with
    moduleCount := (modulesOf l p.number).length
    modules := (modulesOf l p.number).map Placed.number }

/-- The modules in memory, each with its one interrupt and its one address. -/
structure ModulesBuilt (l : List Placed) (s : State) : Prop where
  module : ∀ p ∈ l, p.key = .MODULE → (s.modls p.number).plain = { moduleOf p.props with
    isr := (interruptsOf l p.number).head?.map fun i => (i.number, intrOf i.props)
    moduleAddress := (addressesOf l p.number).head?.map Placed.number }
  oneInterrupt : ∀ m, (interruptsOf l m).length ≤ 1
  oneAddress : ∀ m, (addressesOf l m).length ≤ 1

/-- The addresses in memory. -/
def AddressesBuilt (l : List Placed) (s : State) : Prop :=
  ∀ p ∈ l, p.isAddress = true → s.addrs p.number = ⟨p.fields, spacesOf l p⟩

/-- The static variables point at the last elements. -/
structure Cursors (l : List Placed) (s : State) : Prop where
  drvrd : ∀ p, lastOf .DRIVER l = some p → s.drvrd = some p.number
  modld : ∀ p, lastOf .MODULE l = some p → s.modld = some p.number
  pcima : ∀ p, lastOf .PCI l = some p → s.pcima = some p.number
  vmema : ∀ p, lastOf .VME l = some p → s.vmema = some p.number
  carma : ∀ p, lastOf .CARRIER l = some p → s.carma = some p.number

/-- An element that is no space. -/
def Placed.NoSpace (p : Placed) : Prop :=
  p.key ≠ .PCI_SPACE ∧ p.key ≠ .VME_SPACE ∧ p.key ≠ .CARRIER_SPACE

/-- Every space is in a module that has an address, and every address comes after a module. -/
structure Owned (l : List Placed) : Prop where
  space : ∀ p ∈ l, ¬ p.NoSpace → ∃ a ∈ l, a.isAddress = true ∧ a.module = p.module
  address : ∀ a ∈ l, a.isAddress = true → lastOf .MODULE l ≠ none

/-- The memory has what the elements `l` inside the `install` element `r` stand for. -/
structure Built (r : ℕ) (props : List XmlAttr) (l : List Placed) (s : State) : Prop where
  hostd : s.hostd = some r
  host : s.hosts r = { hostOf props with drivers := (driversOf l).map Placed.number }
  drivers : DriversBuilt l s
  modules : ModulesBuilt l s
  addresses : AddressesBuilt l s
  cursors : Cursors l s
  owned : Owned l

theorem Built.near {r : ℕ} {props : List XmlAttr} {l : List Placed} {s s' : State}
    (h : Built r props l s) (hnear : Near s s') : Built r props l s' := by
  rw [hnear.rest]
  exact ⟨h.hostd, h.host, h.drivers, ⟨h.modules.1, h.modules.2, h.modules.3⟩, h.addresses,
    ⟨h.cursors.1, h.cursors.2, h.cursors.3, h.cursors.4, h.cursors.5⟩, h.owned⟩

/-! ### One element more -/

section Snoc

variable {l : List Placed} {p : Placed}

theorem lastOf_mem {k : KeyWord} (h : lastOf k l = some p) : p ∈ l ∧ p.key = k := by
  have hmem := List.mem_of_getLast? h
  simpa [List.mem_filter] using hmem

theorem lastOf_snoc (l : List Placed) (p : Placed) (k : KeyWord) :
    lastOf k (l ++ [p]) = if p.key = k then some p else lastOf k l := by
  unfold lastOf
  rw [List.filter_append]
  by_cases h : p.key = k
  · simp [h]
  · simp [h]

theorem driversOf_snoc (l : List Placed) (p : Placed) :
    driversOf (l ++ [p]) = driversOf l ++ if p.key = .DRIVER then [p] else [] := by
  unfold driversOf
  rw [List.filter_append]
  by_cases h : p.key = .DRIVER <;> simp [h]

theorem modulesOf_snoc (l : List Placed) (p : Placed) (d : ℕ) : modulesOf (l ++ [p]) d =
    modulesOf l d ++ if p.key = .MODULE ∧ p.driver = some d then [p] else [] := by
  unfold modulesOf
  rw [List.filter_append]
  by_cases h : p.key = .MODULE ∧ p.driver = some d <;> simp [h]

theorem interruptsOf_snoc (l : List Placed) (p : Placed) (m : ℕ) : interruptsOf (l ++ [p]) m =
    interruptsOf l m ++ if p.key = .INTERRUPT ∧ p.module = some m then [p] else [] := by
  unfold interruptsOf
  rw [List.filter_append]
  by_cases h : p.key = .INTERRUPT ∧ p.module = some m <;> simp [h]

theorem addressesOf_snoc (l : List Placed) (p : Placed) (m : ℕ) : addressesOf (l ++ [p]) m =
    addressesOf l m ++ if p.isAddress = true ∧ p.module = some m then [p] else [] := by
  unfold addressesOf
  rw [List.filter_append]
  by_cases h : p.isAddress = true ∧ p.module = some m <;> simp [h]

theorem spacesIn_snoc (l : List Placed) (p : Placed) (k : KeyWord) (m : Option ℕ) :
    spacesIn (l ++ [p]) k m = spacesIn l k m ++ if p.key = k ∧ p.module = m then [p] else [] := by
  unfold spacesIn
  rw [List.filter_append]
  by_cases h : p.key = k ∧ p.module = m <;> simp [h]

theorem Numbered.snoc {n : ℕ} (h : Numbered n l) (hn : p.number = n)
    (hd : ∀ d, p.driver = some d → d < n) (hm : ∀ m, p.module = some m → m < n) :
    Numbered (n + 1) (l ++ [p]) where
  once := by
    rw [List.map_append, List.map_singleton, List.nodup_append]
    refine ⟨h.once, List.nodup_singleton _, fun a ha b hb hab => ?_⟩
    obtain ⟨q, hq, rfl⟩ := List.mem_map.mp ha
    have hlt := h.below q hq
    rw [List.mem_singleton] at hb
    omega
  below q hq := by
    obtain hq | hq := List.mem_append.mp hq
    · exact (h.below q hq).trans (Nat.lt_succ_self n)
    · rw [List.mem_singleton.mp hq, hn]
      exact Nat.lt_succ_self n
  driver q hq d hqd := by
    obtain hq | hq := List.mem_append.mp hq
    · exact (h.driver q hq d hqd).trans (Nat.lt_succ_self n)
    · rw [List.mem_singleton.mp hq] at hqd
      exact (hd d hqd).trans (Nat.lt_succ_self n)
  module q hq m hqm := by
    obtain hq | hq := List.mem_append.mp hq
    · exact (h.module q hq m hqm).trans (Nat.lt_succ_self n)
    · rw [List.mem_singleton.mp hq] at hqm
      exact (hm m hqm).trans (Nat.lt_succ_self n)

theorem Numbered.modulesOf_nil {n : ℕ} (h : Numbered n l) : modulesOf l n = [] :=
  List.filter_eq_nil_iff.mpr fun q hq => by
    have hlt := h.driver q hq n
    simp only [decide_eq_true_eq]
    exact fun ⟨_, hd⟩ => absurd (hlt hd) (lt_irrefl n)

theorem Numbered.interruptsOf_nil {n : ℕ} (h : Numbered n l) : interruptsOf l n = [] :=
  List.filter_eq_nil_iff.mpr fun q hq => by
    have hlt := h.module q hq n
    simp only [decide_eq_true_eq]
    exact fun ⟨_, hm⟩ => absurd (hlt hm) (lt_irrefl n)

theorem Numbered.addressesOf_nil {n : ℕ} (h : Numbered n l) : addressesOf l n = [] :=
  List.filter_eq_nil_iff.mpr fun q hq => by
    have hlt := h.module q hq n
    simp only [decide_eq_true_eq]
    exact fun ⟨_, hm⟩ => absurd (hlt hm) (lt_irrefl n)

theorem Numbered.ne {n : ℕ} (h : Numbered n l) {q : Placed} (hq : q ∈ l) : q.number ≠ n :=
  (h.below q hq).ne

theorem Numbered.inj {n : ℕ} (h : Numbered n l) {q q' : Placed} (hq : q ∈ l) (hq' : q' ∈ l)
    (heq : q.number = q'.number) : q = q' :=
  List.inj_on_of_nodup_map h.once hq hq' heq

theorem spaceKey_cases (k : KeyWord) :
    spaceKey k = .PCI_SPACE ∨ spaceKey k = .VME_SPACE ∨ spaceKey k = .CARRIER_SPACE := by
  unfold spaceKey
  split
  · exact .inl rfl
  · exact .inr (.inl rfl)
  · exact .inr (.inr rfl)

theorem spacesOf_snoc_of_noSpace (h : p.NoSpace) (q : Placed) :
    spacesOf (l ++ [p]) q = spacesOf l q := by
  have hne : ¬ (p.key = spaceKey q.key ∧ p.module = q.module) := by
    rintro ⟨hkey, -⟩
    obtain hk | hk | hk := spaceKey_cases q.key <;> rw [hk] at hkey
    · exact h.1 hkey
    · exact h.2.1 hkey
    · exact h.2.2 hkey
  rw [spacesOf, spacesIn_snoc, if_neg hne, List.append_nil, spacesOf]

/-! #### What an element leaves alone -/

section Keep

variable {s s' : State}

theorem DriversBuilt.keep (h : DriversBuilt l s) (hd : p.key ≠ .DRIVER) (hm : p.key ≠ .MODULE)
    (hs : s'.drvrs = s.drvrs) : DriversBuilt (l ++ [p]) s' := by
  intro q hq
  rw [driversOf_snoc, if_neg hd, List.append_nil] at hq
  rw [hs, modulesOf_snoc, if_neg fun hand => hm hand.1, List.append_nil]
  exact h q hq

theorem ModulesBuilt.keep (h : ModulesBuilt l s) (hm : p.key ≠ .MODULE)
    (hi : p.key ≠ .INTERRUPT) (ha : p.isAddress = false) (hs : s'.modls = s.modls) :
    ModulesBuilt (l ++ [p]) s' := by
  have hintr : ∀ m, interruptsOf (l ++ [p]) m = interruptsOf l m := by
    simp [interruptsOf_snoc, hi]
  have haddrs : ∀ m, addressesOf (l ++ [p]) m = addressesOf l m := by
    simp [addressesOf_snoc, ha]
  refine ⟨fun q hq hkey => ?_, fun m => ?_, fun m => ?_⟩
  · rw [hs, hintr, haddrs]
    obtain hq | hq := List.mem_append.mp hq
    · exact h.module q hq hkey
    · rw [List.mem_singleton.mp hq] at hkey
      exact absurd hkey hm
  · rw [hintr]
    exact h.oneInterrupt m
  · rw [haddrs]
    exact h.oneAddress m

theorem AddressesBuilt.keep (h : AddressesBuilt l s) (ha : p.isAddress = false)
    (hno : p.NoSpace) (hs : s'.addrs = s.addrs) : AddressesBuilt (l ++ [p]) s' := by
  intro q hq hkey
  rw [hs, spacesOf_snoc_of_noSpace hno]
  obtain hq | hq := List.mem_append.mp hq
  · exact h q hq hkey
  · rw [List.mem_singleton.mp hq, ha] at hkey
    cases hkey

theorem cursor_snoc {k : KeyWord} {x x' : Option ℕ}
    (h : ∀ q, lastOf k l = some q → x = some q.number)
    (hx : x' = if p.key = k then some p.number else x) (q : Placed)
    (hq : lastOf k (l ++ [p]) = some q) : x' = some q.number := by
  rw [lastOf_snoc] at hq
  by_cases hk : p.key = k
  · rw [if_pos hk] at hq hx
    cases hq
    exact hx
  · rw [if_neg hk] at hq hx
    rw [hx]
    exact h q hq

theorem Cursors.snoc (h : Cursors l s)
    (hd : s'.drvrd = if p.key = .DRIVER then some p.number else s.drvrd)
    (hm : s'.modld = if p.key = .MODULE then some p.number else s.modld)
    (hp : s'.pcima = if p.key = .PCI then some p.number else s.pcima)
    (hv : s'.vmema = if p.key = .VME then some p.number else s.vmema)
    (hc : s'.carma = if p.key = .CARRIER then some p.number else s.carma) :
    Cursors (l ++ [p]) s' :=
  ⟨cursor_snoc h.drvrd hd, cursor_snoc h.modld hm, cursor_snoc h.pcima hp,
    cursor_snoc h.vmema hv, cursor_snoc h.carma hc⟩

theorem Owned.snoc (h : Owned l)
    (hs : ¬ p.NoSpace → ∃ a ∈ l, a.isAddress = true ∧ a.module = p.module)
    (ha : p.isAddress = true → lastOf .MODULE l ≠ none) : Owned (l ++ [p]) where
  space q hq hspace := by
    obtain hq | hq := List.mem_append.mp hq
    · obtain ⟨a, ha, haddr⟩ := h.space q hq hspace
      exact ⟨a, List.mem_append_left _ ha, haddr⟩
    · rw [List.mem_singleton.mp hq] at hspace ⊢
      obtain ⟨a, ha, haddr⟩ := hs hspace
      exact ⟨a, List.mem_append_left _ ha, haddr⟩
  address q hq haddr := by
    rw [lastOf_snoc]
    split
    · exact Option.some_ne_none p
    · obtain hq | hq := List.mem_append.mp hq
      · exact h.address q hq haddr
      · rw [List.mem_singleton.mp hq] at haddr
        exact ha haddr

theorem Owned.keep (h : Owned l) (hno : p.NoSpace) (ha : p.isAddress = false) :
    Owned (l ++ [p]) :=
  h.snoc (fun hspace => absurd hno hspace) fun haddr => by
    rw [ha] at haddr
    cases haddr

end Keep

/-! #### What an element adds -/

variable {r n : ℕ} {props : List XmlAttr} {s : State}

theorem Built.addDriver (h : Built r props l s) (hnum : Numbered n l) (hp : p.number = n)
    (hkey : p.key = .DRIVER) : Built r props (l ++ [p])
      (withDriver r n { s with drvrd := some n, drvrs := update s.drvrs n (driverOf p.props) }) := by
  refine ⟨h.hostd, ?_, fun q hq => ?_, h.modules.keep (by simp [hkey]) (by simp [hkey])
    (by simp [Placed.isAddress, hkey]) rfl, h.addresses.keep (by simp [Placed.isAddress, hkey])
    (by simp [Placed.NoSpace, hkey]) rfl, h.cursors.snoc ?_ ?_ ?_ ?_ ?_,
    h.owned.keep
      (by simp [Placed.NoSpace, hkey]) (by simp [Placed.isAddress, hkey])⟩
  · show update s.hosts r _ r = _
    rw [update_self, h.host, driversOf_snoc, if_pos hkey, List.map_append, List.map_singleton, hp]
  · show update s.drvrs n _ q.number = _
    rw [modulesOf_snoc, if_neg (by simp [hkey]), List.append_nil]
    rw [driversOf_snoc, if_pos hkey] at hq
    obtain hq | hq := List.mem_append.mp hq
    · rw [update_of_ne (hnum.ne (List.mem_of_mem_filter hq)), h.drivers q hq]
    · rw [List.mem_singleton.mp hq, hp, update_self, hnum.modulesOf_nil]
      rfl
  all_goals simp [hkey, hp, withDriver]

theorem Built.addModule (h : Built r props l s) (hnum : Numbered n l) (hp : p.number = n)
    (hkey : p.key = .MODULE) {d : Placed} (hlast : lastOf .DRIVER l = some d)
    (hd : p.driver = some d.number) {m : InsLibModlDesc} (hm : m.plain = moduleOf p.props) :
    Built r props (l ++ [p])
      (withModule d.number n { s with modld := some n, modls := update s.modls n m }) := by
  have hintr : ∀ m, interruptsOf (l ++ [p]) m = interruptsOf l m := by
    simp [interruptsOf_snoc, hkey]
  have haddrs : ∀ m, addressesOf (l ++ [p]) m = addressesOf l m := by
    simp [addressesOf_snoc, Placed.isAddress, hkey]
  have hmem := lastOf_mem hlast
  refine ⟨h.hostd, ?_, fun q hq => ?_, ⟨fun q hq hq' => ?_, fun m => ?_, fun m => ?_⟩,
    h.addresses.keep (by simp [Placed.isAddress, hkey]) (by simp [Placed.NoSpace, hkey]) rfl,
    h.cursors.snoc ?_ ?_ ?_ ?_ ?_, h.owned.keep
      (by simp [Placed.NoSpace, hkey]) (by simp [Placed.isAddress, hkey])⟩
  · rw [driversOf_snoc, if_neg (by simp [hkey]), List.append_nil]
    exact h.host
  · rw [driversOf_snoc, if_neg (by simp [hkey]), List.append_nil] at hq
    show update s.drvrs d.number _ q.number = _
    by_cases heq : q.number = d.number
    · rw [heq, update_self, modulesOf_snoc, if_pos ⟨hkey, hd⟩, ← heq, h.drivers q hq,
        List.map_append, List.map_singleton, hp, List.length_append]
      rfl
    · rw [update_of_ne heq, h.drivers q hq, modulesOf_snoc, if_neg, List.append_nil]
      rintro ⟨-, hd'⟩
      rw [hd] at hd'
      exact heq (Option.some.inj hd').symm
  · show (update s.modls n m q.number).plain = _
    rw [hintr, haddrs]
    obtain hq | hq := List.mem_append.mp hq
    · rw [update_of_ne (hnum.ne hq)]
      exact h.modules.module q hq hq'
    · rw [List.mem_singleton.mp hq, hp, update_self, hm, hnum.interruptsOf_nil,
        hnum.addressesOf_nil]
      rfl
  · rw [hintr]
    exact h.modules.oneInterrupt m
  · rw [haddrs]
    exact h.modules.oneAddress m
  all_goals simp [hkey, hp, withModule]

theorem Built.addInterrupt (h : Built r props l s) (hnum : Numbered n l) (hp : p.number = n)
    (hkey : p.key = .INTERRUPT) {m : Placed} (hlast : lastOf .MODULE l = some m)
    (hm : p.module = some m.number) (hnone : spacesIn l .INTERRUPT p.module = []) :
    Built r props (l ++ [p]) { s with
      modls := update s.modls m.number
        { s.modls m.number with isr := some (n, intrOf p.props) } } := by
  have haddrs : ∀ m, addressesOf (l ++ [p]) m = addressesOf l m := by
    simp [addressesOf_snoc, Placed.isAddress, hkey]
  have hnone' : interruptsOf l m.number = [] := by
    rw [hm] at hnone
    exact hnone
  obtain ⟨hmem, hmkey⟩ := lastOf_mem hlast
  refine ⟨h.hostd, ?_, h.drivers.keep (by simp [hkey]) (by simp [hkey]) rfl,
    ⟨fun q hq hq' => ?_, fun k => ?_, fun k => ?_⟩,
    h.addresses.keep (by simp [Placed.isAddress, hkey]) (by simp [Placed.NoSpace, hkey]) rfl,
    h.cursors.snoc ?_ ?_ ?_ ?_ ?_, h.owned.keep
      (by simp [Placed.NoSpace, hkey]) (by simp [Placed.isAddress, hkey])⟩
  · rw [driversOf_snoc, if_neg (by simp [hkey]), List.append_nil]
    exact h.host
  · show (update s.modls m.number _ q.number).plain = _
    rw [haddrs, interruptsOf_snoc]
    obtain hq | hq := List.mem_append.mp hq
    · by_cases heq : q.number = m.number
      · obtain rfl := hnum.inj hq hmem heq
        rw [update_self, if_pos ⟨hkey, hm⟩, hnone', List.nil_append, List.head?_cons,
          Option.map_some, hp]
        have hold := h.modules.module q hq hq'
        have hnew : ({ s.modls q.number with isr := some (n, intrOf p.props) } :
            InsLibModlDesc).plain =
            { (s.modls q.number).plain with isr := some (n, intrOf p.props) } := rfl
        rw [hnew, hold]
      · rw [update_of_ne heq, if_neg, List.append_nil]
        · exact h.modules.module q hq hq'
        · rintro ⟨-, hm'⟩
          rw [hm] at hm'
          exact heq (Option.some.inj hm').symm
    · rw [List.mem_singleton.mp hq, hkey] at hq'
      cases hq'
  · rw [interruptsOf_snoc]
    split
    · rename_i hk
      rw [hm] at hk
      rw [← Option.some.inj hk.2, hnone']
      exact le_rfl
    · rw [List.append_nil]
      exact h.modules.oneInterrupt k
  · rw [haddrs]
    exact h.modules.oneAddress k
  all_goals simp [hkey]

theorem isAddress_iff : p.isAddress = true ↔ p.key = .PCI ∨ p.key = .VME ∨ p.key = .CARRIER := by
  simp [Placed.isAddress, or_assoc]

theorem ModulesBuilt.addressesOf_nil (h : ModulesBuilt l s) {m : Placed} (hm : m ∈ l)
    (hkey : m.key = .MODULE) (hnone : (s.modls m.number).moduleAddress = none) :
    addressesOf l m.number = [] := by
  have hold := congrArg InsLibModlDesc.moduleAddress (h.module m hm hkey)
  have hmap : (addressesOf l m.number).head?.map Placed.number = none := hold.symm.trans hnone
  rw [Option.map_eq_none_iff, List.head?_eq_none_iff] at hmap
  exact hmap

theorem Built.addAddress (h : Built r props l s) (hnum : Numbered n l) (hp : p.number = n)
    (haddr : p.isAddress = true) {m : Placed} (hlast : lastOf .MODULE l = some m)
    (hm : p.module = some m.number) (hnone : (s.modls m.number).moduleAddress = none) :
    Built r props (l ++ [p]) { setAddress n p.fields (withAddress n m.number s) with
      pcima := if p.key = .PCI then some n else s.pcima
      vmema := if p.key = .VME then some n else s.vmema
      carma := if p.key = .CARRIER then some n else s.carma } := by
  have hkey := isAddress_iff.mp haddr
  have hdriver : p.key ≠ .DRIVER := by rintro h'; simp [h'] at hkey
  have hmodule : p.key ≠ .MODULE := by rintro h'; simp [h'] at hkey
  have hinterrupt : p.key ≠ .INTERRUPT := by rintro h'; simp [h'] at hkey
  have hnospace : p.NoSpace := by
    obtain hk | hk | hk := hkey <;> simp [Placed.NoSpace, hk]
  have hintr : ∀ m, interruptsOf (l ++ [p]) m = interruptsOf l m := by
    simp [interruptsOf_snoc, hinterrupt]
  obtain ⟨hmem, hmkey⟩ := lastOf_mem hlast
  have hnil := h.modules.addressesOf_nil hmem hmkey hnone
  have hspaces : spacesOf l p = [] := by
    have hin : spacesIn l (spaceKey p.key) p.module = [] :=
      List.filter_eq_nil_iff.mpr fun q hq => by
        simp only [decide_eq_true_eq]
        rintro ⟨hqkey, hqm⟩
        have hspace : ¬ q.NoSpace := by
          rintro ⟨h1, h2, h3⟩
          obtain hk | hk | hk := spaceKey_cases p.key <;> rw [hk] at hqkey
          · exact h1 hqkey
          · exact h2 hqkey
          · exact h3 hqkey
        obtain ⟨a, ha, ha', ham⟩ := h.owned.space q hq hspace
        have hain : a ∈ addressesOf l m.number :=
          List.mem_filter.mpr ⟨ha, by simp [ha', ham, hqm, hm]⟩
        rw [hnil] at hain
        cases hain
    rw [spacesOf, hin]
    rfl
  refine ⟨h.hostd, ?_, h.drivers.keep hdriver hmodule rfl,
    ⟨fun q hq hq' => ?_, fun k => ?_, fun k => ?_⟩, fun q hq hq' => ?_,
    h.cursors.snoc ?_ ?_ (by rw [hp]) (by rw [hp]) (by rw [hp]),
    h.owned.snoc (fun hspace => absurd hnospace hspace) fun _ => by simp [hlast]⟩
  · rw [driversOf_snoc, if_neg hdriver, List.append_nil]
    exact h.host
  · show (update s.modls m.number _ q.number).plain = _
    rw [hintr, addressesOf_snoc]
    obtain hq | hq := List.mem_append.mp hq
    · by_cases heq : q.number = m.number
      · obtain rfl := hnum.inj hq hmem heq
        rw [update_self, if_pos ⟨haddr, hm⟩, hnil, List.nil_append, List.head?_cons,
          Option.map_some, hp]
        have hold := h.modules.module q hq hq'
        have hnew : ({ s.modls q.number with moduleAddress := some n } : InsLibModlDesc).plain =
            { (s.modls q.number).plain with moduleAddress := some n } := rfl
        rw [hnew, hold]
      · rw [update_of_ne heq, if_neg, List.append_nil]
        · exact h.modules.module q hq hq'
        · rintro ⟨-, hm'⟩
          rw [hm] at hm'
          exact heq (Option.some.inj hm').symm
    · rw [List.mem_singleton.mp hq] at hq'
      exact absurd hq' hmodule
  · rw [hintr]
    exact h.modules.oneInterrupt k
  · rw [addressesOf_snoc]
    split
    · rename_i hk
      rw [hm] at hk
      rw [← Option.some.inj hk.2, hnil]
      exact le_rfl
    · rw [List.append_nil]
      exact h.modules.oneAddress k
  · show update s.addrs n _ q.number = _
    rw [spacesOf_snoc_of_noSpace hnospace]
    obtain hq | hq := List.mem_append.mp hq
    · rw [update_of_ne (hnum.ne hq)]
      exact h.addresses q hq hq'
    · rw [List.mem_singleton.mp hq, hp, update_self, hspaces]
  · rw [if_neg hdriver]
    rfl
  · rw [if_neg hmodule]
    rfl

theorem Built.addSpace (h : Built r props l s) (hnum : Numbered n l) (hp : p.number = n)
    {a : Placed} (haddr : a.isAddress = true) (hkey : p.key = spaceKey a.key) (ha : a ∈ l)
    (ham : a.module = p.module) (hm : p.module ≠ none) :
    Built r props (l ++ [p]) (withSpace a.number (n, p.space) s) := by
  have hspace := spaceKey_cases a.key
  rw [← hkey] at hspace
  have hdriver : p.key ≠ .DRIVER := by rintro h'; simp [h'] at hspace
  have hmodule : p.key ≠ .MODULE := by rintro h'; simp [h'] at hspace
  have hinterrupt : p.key ≠ .INTERRUPT := by rintro h'; simp [h'] at hspace
  have hno : p.isAddress = false := by
    obtain hk | hk | hk := hspace <;> simp [Placed.isAddress, hk]
  refine ⟨h.hostd, ?_, h.drivers.keep hdriver hmodule rfl, h.modules.keep hmodule hinterrupt hno rfl,
    fun q hq hq' => ?_, h.cursors.snoc ?_ ?_ ?_ ?_ ?_,
    h.owned.snoc (fun _ => ⟨a, ha, haddr, ham⟩) fun haddr' => by simp [hno] at haddr'⟩
  · rw [driversOf_snoc, if_neg hdriver, List.append_nil]
    exact h.host
  · show update s.addrs a.number _ q.number = _
    obtain hq | hq := List.mem_append.mp hq
    · by_cases heq : q.number = a.number
      · obtain rfl := hnum.inj hq ha heq
        rw [update_self, h.addresses q hq hq', spacesOf, spacesOf, spacesIn_snoc,
          if_pos ⟨hkey, ham.symm⟩, List.map_append, List.map_singleton, inOrder_append, hp]
      · have hother : ¬ (p.key = spaceKey q.key ∧ p.module = q.module) := by
          rintro ⟨-, hqm⟩
          obtain ⟨m, hpm⟩ := Option.ne_none_iff_exists'.mp hm
          have hqin : q ∈ addressesOf l m := List.mem_filter.mpr ⟨hq, by simp [hq', ← hqm, hpm]⟩
          have hain : a ∈ addressesOf l m := List.mem_filter.mpr ⟨ha, by simp [haddr, ham, hpm]⟩
          have hone := h.modules.oneAddress m
          match hlist : addressesOf l m, hone with
          | [], _ =>
            rw [hlist] at hqin
            cases hqin
          | [b], _ =>
            rw [hlist, List.mem_singleton] at hqin hain
            exact heq (by rw [hqin, hain])
          | _ :: _ :: _, hlen =>
            simp at hlen
        rw [update_of_ne heq, h.addresses q hq hq', spacesOf, spacesOf, spacesIn_snoc, if_neg hother,
          List.append_nil]
    · rw [List.mem_singleton.mp hq, hno] at hq'
      cases hq'
  · rw [if_neg hdriver]
    rfl
  · rw [if_neg hmodule]
    rfl
  · rw [if_neg (by rintro h'; simp [h'] at hspace)]
    rfl
  · rw [if_neg (by rintro h'; simp [h'] at hspace)]
    rfl
  · rw [if_neg (by rintro h'; simp [h'] at hspace)]
    rfl

theorem Near.elements {s s' : State} (h : Near s s') : s'.elements = s.elements := by rw [h.rest]

theorem Built.next (h : Built r props l s) (k : ℕ) :
    Built r props l { s with elements := k } :=
  ⟨h.hostd, h.host, h.drivers, ⟨h.modules.1, h.modules.2, h.modules.3⟩, h.addresses,
    ⟨h.cursors.1, h.cursors.2, h.cursors.3, h.cursors.4, h.cursors.5⟩, h.owned⟩

theorem element_built {fails : Block → Bool} {e : Element} (h : Built r props l s)
    (hnum : Numbered s.elements l) (hp : p.number = s.elements) (hkey : p.key = e.key)
    (hprops : p.props = e.properties) (hread : Readable (knownAttrs p.key) p.props)
    (hplace : InPlace l p) (hno : p.key ≠ .INSTALL)
    (herr : (element fails e s).2.errors = s.errors) :
    ∃ s', element fails e s = (.goes, s') ∧ Built r props (l ++ [p]) s' ∧
      s'.elements = s.elements + 1 := by
  have hnext := h.next (s.elements + 1)
  unfold element at herr ⊢
  rw [← hkey, ← hprops] at herr ⊢
  dsimp only at herr ⊢
  generalize hn : s.elements = n at hnum hp hnext herr ⊢
  cases hk : p.key with
  | INSTALL => exact absurd hk hno
  | DRIVER =>
    rw [hk] at hread herr
    obtain ⟨s', hrun, hnear⟩ := handleDriverNode_quietly hread hnext.hostd herr
    exact ⟨s', hrun, (hnext.addDriver hnum hp hk).near hnear, hnear.elements⟩
  | MODULE =>
    rw [hk] at hread herr
    rw [InPlace, hk] at hplace
    obtain ⟨d, hlast, hd⟩ : ∃ d, lastOf .DRIVER l = some d ∧ p.driver = some d.number := by
      obtain ⟨k, hdriver⟩ := Option.ne_none_iff_exists'.mp hplace.1
      rw [hdriver] at hplace ⊢
      obtain ⟨d, hd, rfl⟩ := Option.map_eq_some_iff.mp hplace.2
      exact ⟨d, hd, rfl⟩
    obtain ⟨m, s', hrun, hm, hnear⟩ :=
      handleModuleNode_quietly hread (hnext.cursors.drvrd d hlast) herr
    exact ⟨s', hrun, (hnext.addModule hnum hp hk hlast hd hm).near hnear, hnear.elements⟩
  | INTERRUPT =>
    rw [hk] at hread herr
    rw [InPlace, hk] at hplace
    obtain ⟨hin, hnone⟩ := hplace
    obtain ⟨m, hlast, hm⟩ := hin.last
    obtain ⟨s', hrun, hnear⟩ :=
      interruptNode_quietly hread (hnext.cursors.modld m hlast) herr
    exact ⟨s', hrun, (hnext.addInterrupt hnum hp hk hlast hm hnone).near hnear, hnear.elements⟩
  | PCI =>
    rw [hk] at hread herr
    rw [InPlace, hk] at hplace
    obtain ⟨m, hlast, hm⟩ := InLastModule.last hplace
    obtain ⟨s', hrun, hnone, hnear⟩ :=
      parsePciAddressTag_quietly hread (hnext.cursors.modld m hlast) herr
    have hadd := hnext.addAddress hnum hp (isAddress_iff.mpr (.inl hk)) hlast hm hnone
    simp only [Placed.fields, hk, if_true, reduceCtorEq, if_false] at hadd
    exact ⟨s', hrun, hadd.near hnear, hnear.elements⟩
  | VME =>
    rw [hk] at hread herr
    rw [InPlace, hk] at hplace
    obtain ⟨m, hlast, hm⟩ := InLastModule.last hplace
    obtain ⟨s', hrun, hnone, hnear⟩ :=
      parseVmeAddressTag_quietly hread (hnext.cursors.modld m hlast) herr
    have hadd := hnext.addAddress hnum hp (isAddress_iff.mpr (.inr (.inl hk))) hlast hm hnone
    simp only [Placed.fields, hk, if_true, reduceCtorEq, if_false] at hadd
    exact ⟨s', hrun, hadd.near hnear, hnear.elements⟩
  | CARRIER =>
    rw [hk] at hread herr
    rw [InPlace, hk] at hplace
    obtain ⟨m, hlast, hm⟩ := InLastModule.last hplace
    obtain ⟨s', hrun, hnone, hnear⟩ :=
      parseCarAddressTag_quietly hread (hnext.cursors.modld m hlast) herr
    have hadd := hnext.addAddress hnum hp (isAddress_iff.mpr (.inr (.inr hk))) hlast hm hnone
    simp only [Placed.fields, hk, if_true, reduceCtorEq, if_false] at hadd
    exact ⟨s', hrun, hadd.near hnear, hnear.elements⟩
  | PCI_SPACE =>
    rw [hk] at hread herr
    rw [InPlace, hk] at hplace
    obtain ⟨hm, a, hlast, ham⟩ := InModuleOf.last hplace
    obtain ⟨ha, hakey⟩ := lastOf_mem hlast
    obtain ⟨s', hrun, hnear⟩ := pciSpaceNode_quietly hread (hnext.cursors.pcima a hlast) herr
    have hadd := hnext.addSpace hnum hp (isAddress_iff.mpr (.inl hakey))
      (by rw [hk, hakey]; rfl) ha ham hm
    simp only [Placed.space, hk] at hadd
    exact ⟨s', hrun, hadd.near hnear, hnear.elements⟩
  | VME_SPACE =>
    rw [hk] at hread herr
    rw [InPlace, hk] at hplace
    obtain ⟨hin, hfew⟩ := hplace
    obtain ⟨hm, a, hlast, ham⟩ := hin.last
    obtain ⟨ha, hakey⟩ := lastOf_mem hlast
    have haddr : a.isAddress = true := isAddress_iff.mpr (.inr (.inl hakey))
    obtain ⟨m, hmodl⟩ := Option.ne_none_iff_exists'.mp (h.owned.address a ha haddr)
    have hlen : (s.addrs a.number).spaces.length = (spacesIn l .VME_SPACE p.module).length := by
      rw [h.addresses a ha haddr, spacesOf, inOrder_length, List.length_map, hakey, ham]
      rfl
    have hspace : p.space = .vme (vmeSpaceOf p.props) := by rw [Placed.space, hk]
    rw [hspace, ← hlen] at hfew
    obtain ⟨s', hrun, hnear⟩ := handleVmeSpaceNode_quietly hread (hnext.cursors.vmema a hlast)
      (hnext.cursors.modld m hmodl) hfew herr
    have hadd := hnext.addSpace hnum hp haddr (by rw [hk, hakey]; rfl) ha ham hm
    rw [hspace] at hadd
    exact ⟨s', hrun, hadd.near hnear, hnear.elements⟩
  | CARRIER_SPACE =>
    rw [hk] at hread herr
    rw [InPlace, hk] at hplace
    obtain ⟨hin, hcomment⟩ := hplace
    obtain ⟨hm, a, hlast, ham⟩ := hin.last
    obtain ⟨ha, hakey⟩ := lastOf_mem hlast
    obtain ⟨s', hrun, hnear⟩ :=
      carSpaceNode_quietly hread hcomment (hnext.cursors.carma a hlast) herr
    have hadd := hnext.addSpace hnum hp (isAddress_iff.mpr (.inr (.inr hakey)))
      (by rw [hk, hakey]; rfl) ha ham hm
    simp only [Placed.space, hk] at hadd
    exact ⟨s', hrun, hadd.near hnear, hnear.elements⟩
  | EMPTY =>
    rw [hk] at herr
    simp only [prnterr_errors] at herr
    omega
  | _ =>
    rw [hk] at herr
    simp at herr

end Snoc

/-! ### Two files -/

/-- An element with its attributes. -/
def tag (name : String) (props : List (String × String)) (children next : XmlNode) : XmlNode :=
  .element name.toList (props.map fun p => ⟨p.1.toList, some p.2.toList⟩) children next

/-- Nothing was parsed yet. -/
def State.fresh : State where
  hostd := none
  drvrd := none
  modld := none
  pcima := none
  vmema := none
  carma := none
  hosts _ := ⟨"", "", []⟩
  drvrs _ := ⟨"", 0, 0, "", -1, 0, []⟩
  modls _ := ⟨.notSet, 0, 0, none, "", "", none, none⟩
  addrs _ := ⟨.vme ⟨""⟩, []⟩
  elements := 0
  live _ := false
  errors := 0
  faults := 0

/-- The driver of a VME module with an interrupt and two spaces. -/
def vmeDriver : XmlNode :=
  tag "driver" [("name", "ctrv")]
    (tag "module" [("bus_type", "VME"), ("logical_module_number", "1")]
      (tag "interrupt" [("level", "2"), ("vector", "184")] .null
        (tag "vme" [("comment", "timing")]
          (tag "vme_space" [("modifier", "0x39"), ("data_width", "32"), ("window_size", "0x10000"),
              ("address", "0xC00000")] .null
            (tag "vme_space" [("modifier", "0x2f"), ("data_width", "32"), ("window_size", "0x80000"),
              ("address", "0x80000")] .null .null))
          .null))
      .null)
    .null

/-- The driver of a module in a carrier; the address and its space have a comment each. -/
def carrierDriver : XmlNode :=
  tag "driver" [("name", "icv")]
    (tag "module" [("bus_type", "CAR"), ("logical_module_number", "1")]
      (tag "carrier" [("driver_name", "modulbus"), ("motherboard_number", "1"),
          ("slot_number", "2"), ("comment", "front")]
        (tag "carrier_space" [("data_width", "16"), ("window_size", "256"), ("comment", "registers")]
          .null .null)
        .null)
      .null)
    .null

/-- The attributes of the `install` element around them. -/
def hostProps : List XmlAttr := [⟨"host".toList, some "cs-ccr-1".toList⟩]

/-! ### The whole file -/

theorem allInPlace_append {before xs ys : List Placed} (h : AllInPlace before (xs ++ ys)) :
    AllInPlace before xs ∧ AllInPlace (before ++ xs) ys := by
  induction xs generalizing before with
  | nil => exact ⟨trivial, by rwa [List.append_nil]⟩
  | cons p xs ih =>
    obtain ⟨hp, hrest⟩ := h
    obtain ⟨hxs, hys⟩ := ih hrest
    rw [List.append_assoc, List.singleton_append] at hys
    exact ⟨⟨hp, hxs⟩, hys⟩

section File

variable {fails : Block → Bool} {r : ℕ} {props : List XmlAttr}

/-- What the walk over nodes leaves when there is no message. -/
structure Walked (fails : Block → Bool) (r : ℕ) (props : List XmlAttr) (l : List Placed)
    (node : XmlNode) (d m : Option ℕ) (s s' : State) : Prop where
  run : doElement fails node s = (.goes, s')
  built : Built r props (l ++ node.placed s.elements d m) s'
  elements : s'.elements = s.elements + node.size
  numbered : Numbered s'.elements (l ++ node.placed s.elements d m)

theorem doElement_built (node : XmlNode) {l : List Placed} {s : State} {d m : Option ℕ}
    (h : Built r props l s) (hnum : Numbered s.elements l)
    (hd : ∀ x, d = some x → x < s.elements) (hm : ∀ x, m = some x → x < s.elements)
    (hplace : AllInPlace l (node.placed s.elements d m))
    (hno : ∀ p ∈ node.placed s.elements d m, p.key ≠ .INSTALL)
    (herr : (doElement fails node s).2.errors = s.errors) :
    ∃ s', Walked fails r props l node d m s s' := by
  induction node generalizing l s d m with
  | null =>
    refine ⟨s, ?_, ?_, rfl, ?_⟩
    · rw [doElement, h.hostd]
      rfl
    · rw [XmlNode.placed, List.append_nil]
      exact h
    · rw [XmlNode.placed, List.append_nil]
      exact hnum
  | other children next ihc ihn =>
    rw [XmlNode.placed] at hplace hno
    obtain ⟨hplace1, hplace2⟩ := allInPlace_append hplace
    have hmono1 := doElement_errors fails children s
    have herr1 : (doElement fails children s).2.errors = s.errors := by
      rw [doElement] at herr
      generalize doElement fails children s = run at herr hmono1 ⊢
      obtain ⟨step, s1⟩ := run
      cases step with
      | goes =>
        have hmono2 := doElement_errors fails next s1
        dsimp only at herr hmono1 ⊢
        omega
      | null => exact herr
      | undefined => exact herr
    obtain ⟨s1, h1⟩ := ihc h hnum hd hm hplace1
      (fun p hp => hno p (List.mem_append_left _ hp)) herr1
    rw [doElement, h1.run] at herr
    rw [← h1.elements] at hplace2 hno
    have hle : s.elements ≤ s1.elements := by rw [h1.elements]; exact Nat.le_add_right _ _
    rw [h1.run] at herr1
    obtain ⟨s2, h2⟩ := ihn h1.built h1.numbered (fun x hx => (hd x hx).trans_le hle)
      (fun x hx => (hm x hx).trans_le hle) hplace2
      (fun p hp => hno p (List.mem_append_right _ hp)) (herr.trans herr1.symm)
    have hlist : l ++ (XmlNode.other children next).placed s.elements d m =
        l ++ children.placed s.elements d m ++ next.placed s1.elements d m := by
      rw [XmlNode.placed, h1.elements, List.append_assoc]
    refine ⟨s2, ?_, hlist ▸ h2.built, ?_, hlist ▸ h2.numbered⟩
    · rw [doElement, h1.run]
      exact h2.run
    · rw [h2.elements, h1.elements, XmlNode.size, Nat.add_assoc]
  | element name properties children next ihc ihn =>
    rw [XmlNode.placed] at hplace hno
    obtain ⟨⟨hread, hone⟩, hrest⟩ := hplace
    obtain ⟨hplace1, hplace2⟩ := allInPlace_append hrest
    have herr0 := element_quiet herr
    obtain ⟨s0, hrun0, hbuilt0, helements0⟩ := element_built (e := ⟨name, properties⟩) h hnum rfl
      rfl rfl hread hone (hno _ List.mem_cons_self) herr0
    have hnum0 := hnum.snoc (p := ⟨s.elements, lookUp name, properties, d, m⟩) rfl hd hm
    have herr1 := children_quiet herr hrun0
    rw [hrun0] at herr0
    rw [doElement, hrun0] at herr
    dsimp only at herr herr0
    rw [← helements0] at hplace1 hplace2 hno hnum0
    have hbelow : ∀ {k : KeyWord} {y : Option ℕ}, (∀ x, y = some x → x < s.elements) →
        ∀ x, (if lookUp name = k then some s.elements else y) = some x → x < s0.elements := by
      intro k y hy x hx
      rw [helements0]
      split at hx
      · cases hx
        exact Nat.lt_succ_self _
      · exact (hy x hx).trans (Nat.lt_succ_self _)
    obtain ⟨s1, h1⟩ := ihc hbuilt0 hnum0 (hbelow hd) (hbelow hm) hplace1
      (fun p hp => hno p (List.mem_cons_of_mem _ (List.mem_append_left _ hp))) herr1
    rw [h1.run] at herr herr1
    rw [← h1.elements] at hplace2 hno
    have hle : s.elements ≤ s1.elements := by
      rw [h1.elements, helements0]
      omega
    obtain ⟨s2, h2⟩ := ihn h1.built h1.numbered (fun x hx => (hd x hx).trans_le hle)
      (fun x hx => (hm x hx).trans_le hle) hplace2
      (fun p hp => hno p (List.mem_cons_of_mem _ (List.mem_append_right _ hp)))
      (herr.trans (herr1.trans herr0).symm)
    have hlist : l ++ (XmlNode.element name properties children next).placed s.elements d m =
        l ++ [⟨s.elements, lookUp name, properties, d, m⟩] ++
          children.placed s0.elements (if lookUp name = .DRIVER then some s.elements else d)
            (if lookUp name = .MODULE then some s.elements else m) ++
          next.placed s1.elements d m := by
      rw [XmlNode.placed, h1.elements, helements0, List.append_assoc, List.append_assoc,
        List.singleton_append]
    refine ⟨s2, ?_, hlist ▸ h2.built, ?_, hlist ▸ h2.numbered⟩
    · rw [doElement, hrun0]
      dsimp only
      rw [h1.run]
      exact h2.run
    · rw [h2.elements, h1.elements, helements0, XmlNode.size]
      omega

/-! ### The host that is returned -/

theorem doElement_empty (fails : Block → Bool) (node : XmlNode) (hsize : node.size = 0) (s : State)
    (hhost : s.hostd ≠ none) : doElement fails node s = (.goes, s) := by
  induction node with
  | null => rw [doElement, if_neg hhost]
  | other children next ihc ihn =>
    rw [XmlNode.size] at hsize
    rw [doElement, ihc (by omega)]
    exact ihn (by omega)
  | element name properties children next ihc ihn =>
    rw [XmlNode.size] at hsize
    omega

theorem handleInstallNode_built {n : ℕ} {s : State} (hread : Readable (knownAttrs .INSTALL) props)
    (herr : (handleInstallNode fails n props s).2.errors = s.errors) :
    ∃ s', handleInstallNode fails n props s = (.goes, s') ∧ Built n props [] s' ∧
      s'.elements = s.elements := by
  obtain ⟨step, x, s1, hrun, hdefined, hnear, hquiet⟩ := readProps_quietly hostFields hread
    (fun _ _ hk => hk) ⟨"", "", []⟩ (s.malloc (n, 0))
  have hcheck := Near.check s1 (x.hostName = "")
  have hle := hcheck.errors
  have hle' : s.errors ≤ s1.errors := hnear.errors
  rw [malloc_errors] at hquiet
  unfold handleInstallNode at herr ⊢
  by_cases hfail : fails (n, 0) = true
  · rw [if_pos hfail] at herr
    exact absurd herr (Nat.succ_ne_self _)
  · rw [if_neg hfail, hrun] at herr ⊢
    have hstart : s1.errors = s.errors → Built n props []
        { s1.check (x.hostName = "") with
          hosts := update (s1.check (x.hostName = "")).hosts n x, hostd := some n } := by
      intro h
      refine ⟨rfl, ?_, fun p hp => (List.not_mem_nil hp).elim,
        ⟨fun p hp => (List.not_mem_nil hp).elim, fun _ => Nat.zero_le 1, fun _ => Nat.zero_le 1⟩,
        fun p hp => (List.not_mem_nil hp).elim, ⟨?_, ?_, ?_, ?_, ?_⟩,
        ⟨fun p hp => (List.not_mem_nil hp).elim, fun p hp => (List.not_mem_nil hp).elim⟩⟩
      · dsimp only
        rw [update_self, (hquiet h).2, fill_host hread]
        rfl
      all_goals
        intro p hp
        cases hp
    have helements : (s1.check (x.hostName = "")).elements = s.elements :=
      (hnear.trans hcheck).elements
    cases step with
    | undefined => exact absurd rfl hdefined
    | quit =>
      dsimp only at herr
      exact absurd rfl (hquiet (by omega)).1
    | all =>
      dsimp only at herr
      exact ⟨_, rfl, hstart (by omega), helements⟩
    | unknown =>
      dsimp only at herr
      exact ⟨_, rfl, hstart (by omega), helements⟩

section Read

variable {n : ℕ} {l : List Placed} {s : State}

theorem short_toList {α β : Type} (l : List α) (h : l.length ≤ 1) (f : α → β) :
    (l.head?.map f).toList = l.map f := by
  match l, h with
  | [], _ => rfl
  | [_], _ => rfl
  | _ :: _ :: _, h => simp at h

theorem Built.readAddress (h : Built r props l s) {m : ℕ} {a : Placed} (ha : a ∈ addressesOf l m) :
    readAddress s a.number = expectedAddress l a := by
  obtain ⟨hmem, hkind⟩ := List.mem_filter.mp ha
  unfold Install.readAddress expectedAddress
  rw [h.addresses a hmem (of_decide_eq_true hkind).1]

theorem Built.readModule (h : Built r props l s) {d : ℕ} {p : Placed} (hp : p ∈ modulesOf l d) :
    readModule s p.number = expectedModule l p := by
  obtain ⟨hmem, hkind⟩ := List.mem_filter.mp hp
  have hplain := h.modules.module p hmem (of_decide_eq_true hkind).1
  have hisr : (s.modls p.number).isr =
      (interruptsOf l p.number).head?.map fun i => (i.number, intrOf i.props) :=
    congrArg InsLibModlDesc.isr hplain
  have haddress : (s.modls p.number).moduleAddress =
      (addressesOf l p.number).head?.map Placed.number :=
    congrArg InsLibModlDesc.moduleAddress hplain
  unfold Install.readModule expectedModule
  have haddresses : (addressesOf l p.number).map (Install.readAddress s ∘ Placed.number) =
      (addressesOf l p.number).map (expectedAddress l) :=
    List.map_congr_left fun a ha => h.readAddress ha
  rw [hplain, hisr, haddress, short_toList _ (h.modules.oneAddress _), List.map_map, Option.map_map,
    short_toList _ (h.modules.oneInterrupt _), haddresses]
  rfl

theorem Built.readDriver (h : Built r props l s) {p : Placed} (hp : p ∈ driversOf l) :
    readDriver s p.number = expectedDriver l p := by
  unfold Install.readDriver expectedDriver
  have hmodules : (modulesOf l p.number).map (Install.readModule s ∘ Placed.number) =
      (modulesOf l p.number).map (expectedModule l) :=
    List.map_congr_left fun m hm => h.readModule hm
  rw [h.drivers p hp, List.map_map, hmodules]
  rfl

theorem Built.readHost (h : Built r props l s) : readHost s r = expectedHost l props := by
  unfold Install.readHost expectedHost
  have hdrivers : (driversOf l).map (Install.readDriver s ∘ Placed.number) =
      (driversOf l).map (expectedDriver l) :=
    List.map_congr_left fun d hd => h.readDriver hd
  rw [h.host, List.map_map, hdrivers]
  rfl

end Read

theorem value_perm {props' : List XmlAttr} (hperm : props'.Perm props)
    (honce : (props.map XmlAttr.name).Nodup) {k : KeyWord} (hk : k ≠ .EMPTY) :
    value k props' = value k props := by
  have honce' : (props'.map XmlAttr.name).Nodup := ((hperm.map _).nodup_iff).mpr honce
  have hone : ∀ {a b : XmlAttr}, a ∈ props → b ∈ props → lookUp a.name = k → lookUp b.name = k →
      a = b := fun {a b} ha hb hka hkb =>
    List.inj_on_of_nodup_map honce ha hb
      (lookUp_inj (by rw [hkb]; exact hk) (hka.trans hkb.symm))
  unfold value
  congr 1
  cases hfind : props.find? fun a => lookUp a.name = k with
  | none =>
    rw [List.find?_eq_none] at hfind ⊢
    exact fun a ha => hfind a (hperm.mem_iff.mp ha)
  | some b =>
    have hb := List.find?_some hfind
    have hmem := List.mem_of_find?_eq_some hfind
    cases hfind' : props'.find? fun a => lookUp a.name = k with
    | none =>
      exact absurd hb (List.find?_eq_none.mp hfind' b (hperm.mem_iff.mpr hmem))
    | some a =>
      have ha := List.find?_some hfind'
      rw [hone (hperm.mem_iff.mp (List.mem_of_find?_eq_some hfind')) hmem (of_decide_eq_true ha)
        (of_decide_eq_true hb)]

theorem Readable.of_allInPlace {before l : List Placed} (h : AllInPlace before l) :
    ∀ p ∈ l, Readable (knownAttrs p.key) p.props := by
  induction l generalizing before with
  | nil => exact fun p hp => (List.not_mem_nil hp).elim
  | cons q l ih =>
    intro p hp
    obtain rfl | hp := List.mem_cons.mp hp
    · exact h.1.1
    · exact ih h.2 p hp

end File

end KernelModules.Utils.Install
