import KernelModules.Lib.Allocation

/-!
# Copying the description of a driver

The kernel modules copy the description of a driver, with its modules, their addresses and address
spaces, their interrupts and extra parameters, from the tree that the installer hands over.

* `DrvrDesc` is such a tree.  Its nodes carry the address where they are; over `Unit` it is the
  tree without them, and `erase` takes them away;
* `cloneSpace`, `cloneAddress`, `insLibCloneModule` and `insLibCloneOneDriver` are the copies;
* `Cloned` says what a copy should be: equal, from blocks of its own, or nothing at all.

A refused allocation below the driver node is not reported: the copy ends there and is returned as
it is.  And a module whose bus type is not set keeps the address it has, which both trees share from
then on.  `cloned_iff` says that nothing else goes wrong.
-/

namespace KernelModules.Utils

open Lib.Allocation

/-! ### The tree -/

/-- `InsLibEndian`. -/
inductive Endian where
  | notSet
  | big
  | little
  deriving DecidableEq, Repr

/-- A node and where it is. -/
structure Node (L α : Type) where
  addr : L
  val : α
  deriving DecidableEq, Repr

/-- `InsLibIntrDesc`. -/
structure IntrDesc where
  isrFlag : BitVec 32
  vector : BitVec 32
  level : BitVec 32
  comment : String
  deriving DecidableEq, Repr

/-- `InsLibCarAddressSpace`; the list it is in stands for its `Next`. -/
structure CarAddressSpace where
  mapped : ℕ
  spaceNumber : BitVec 32
  dataWidth : BitVec 32
  windowSize : BitVec 32
  endian : Endian
  comment : String
  deriving DecidableEq, Repr

/-- `InsLibVmeAddressSpace`. -/
structure VmeAddressSpace where
  mapped : ℕ
  addressModifier : BitVec 32
  windowSize : BitVec 32
  dataWidth : BitVec 32
  endian : Endian
  baseAddress : BitVec 32
  freeModifierFlag : BitVec 32
  comment : String
  deriving DecidableEq, Repr

/-- `InsLibPciAddressSpace`. -/
structure PciAddressSpace where
  mapped : ℕ
  baseAddressRegister : BitVec 32
  windowSize : BitVec 32
  dataWidth : BitVec 32
  endian : Endian
  comment : String
  deriving DecidableEq, Repr

/-- What `InsLibCarModuleAddress` has besides its address spaces. -/
structure CarModule where
  driverName : String
  motherboardNumber : BitVec 32
  slotNumber : BitVec 32
  comment : String
  deriving DecidableEq, Repr

/-- What `InsLibVmeModuleAddress` has besides its address spaces. -/
structure VmeModule where
  comment : String
  deriving DecidableEq, Repr

/-- What `InsLibPciModuleAddress` has besides its address spaces. -/
structure PciModule where
  busNumber : BitVec 32
  slotNumber : BitVec 32
  vendorId : BitVec 32
  deviceId : BitVec 32
  subVendorId : BitVec 32
  subDeviceId : BitVec 32
  comment : String
  deriving DecidableEq, Repr

/-- The address of a module on its bus. -/
structure BusAddress (M S L : Type) where
  data : M
  spaces : List (Node L S)
  deriving DecidableEq, Repr

abbrev CarModuleAddress := BusAddress CarModule CarAddressSpace
abbrev VmeModuleAddress := BusAddress VmeModule VmeAddressSpace
abbrev PciModuleAddress := BusAddress PciModule PciAddressSpace

/-- The `ModuleAddress` of a module, a pointer to what its `BusType` says; while that is not set,
what is there is not known. -/
inductive ModuleAddress (L : Type) where
  | notSet (addr : Option Addr)
  | carrier (carma : Option (Node L (CarModuleAddress L)))
  | vme (vmema : Option (Node L (VmeModuleAddress L)))
  | pmc (pcima : Option (Node L (PciModuleAddress L)))
  | pci (pcima : Option (Node L (PciModuleAddress L)))
  deriving DecidableEq, Repr

/-- `InsLibModlDesc`. -/
structure ModlDesc (L : Type) where
  address : ModuleAddress L
  moduleNumber : BitVec 32
  ignoreErrors : BitVec 32
  isr : Option (Node L IntrDesc)
  extra : Option (Node L String)
  comment : String
  moduleName : String
  deriving DecidableEq, Repr

/-- `InsLibDrvrDesc`. -/
structure DrvrDesc (L : Type) where
  modules : List (Node L (ModlDesc L))
  next : Option L
  drvrName : String
  debugFlags : BitVec 32
  emulationFlags : BitVec 32
  moduleCount : BitVec 32
  comment : String
  isdg : ℤ
  deriving DecidableEq, Repr

/-! ### The copies -/

section Clone

variable (answer : ℕ → Option Addr) {M S α : Type}

/-- The copies of the three kinds of address spaces. -/
def cloneSpace : List (Node Addr S) → StateM Heap (List (Node Addr S))
  | [] => pure []
  | as :: next => do
    let some addr ← request answer | pure []
    let next ← cloneSpace next
    pure (⟨addr, as.val⟩ :: next)

/-- `InsLibCloneCarSpace`. -/
def insLibCloneCarSpace (caras : List (Node Addr CarAddressSpace)) :
    StateM Heap (List (Node Addr CarAddressSpace)) :=
  cloneSpace answer caras

/-- `InsLibCloneVmeSpace`. -/
def insLibCloneVmeSpace (vmeas : List (Node Addr VmeAddressSpace)) :
    StateM Heap (List (Node Addr VmeAddressSpace)) :=
  cloneSpace answer vmeas

/-- `InsLibClonePciSpace`. -/
def insLibClonePciSpace (pcias : List (Node Addr PciAddressSpace)) :
    StateM Heap (List (Node Addr PciAddressSpace)) :=
  cloneSpace answer pcias

/-- The copies of the three kinds of addresses, with the copy of their spaces. -/
def cloneAddress (cloneSpace : List (Node Addr S) → StateM Heap (List (Node Addr S))) :
    Option (Node Addr (BusAddress M S Addr)) →
      StateM Heap (Option (Node Addr (BusAddress M S Addr)))
  | none => pure none
  | some ma => do
    let some addr ← request answer | pure none
    let spaces ← cloneSpace ma.val.spaces
    pure (some ⟨addr, { ma.val with spaces := spaces }⟩)

/-- `InsLibCloneCar`. -/
def insLibCloneCar : Option (Node Addr (CarModuleAddress Addr)) →
    StateM Heap (Option (Node Addr (CarModuleAddress Addr))) :=
  cloneAddress answer (insLibCloneCarSpace answer)

/-- `InsLibCloneVme`. -/
def insLibCloneVme : Option (Node Addr (VmeModuleAddress Addr)) →
    StateM Heap (Option (Node Addr (VmeModuleAddress Addr))) :=
  cloneAddress answer (insLibCloneVmeSpace answer)

/-- `InsLibClonePci`. -/
def insLibClonePci : Option (Node Addr (PciModuleAddress Addr)) →
    StateM Heap (Option (Node Addr (PciModuleAddress Addr))) :=
  cloneAddress answer (insLibClonePciSpace answer)

/-- The address of a module by its bus type. -/
def cloneModuleAddress : ModuleAddress Addr → StateM Heap (ModuleAddress Addr)
  | .carrier carma => ModuleAddress.carrier <$> insLibCloneCar answer carma
  | .vme vmema => ModuleAddress.vme <$> insLibCloneVme answer vmema
  | .pmc pcima => ModuleAddress.pmc <$> insLibClonePci answer pcima
  | .pci pcima => ModuleAddress.pci <$> insLibClonePci answer pcima
  | .notSet addr => pure (ModuleAddress.notSet addr)

/-- A block without pointers, the extra parameters or the interrupt. -/
def cloneBlock : Option (Node Addr α) → StateM Heap (Option (Node Addr α))
  | none => pure none
  | some block => do
    let some addr ← request answer | pure none
    pure (some ⟨addr, block.val⟩)

/-- `InsLibCloneModule`. -/
def insLibCloneModule : List (Node Addr (ModlDesc Addr)) →
    StateM Heap (List (Node Addr (ModlDesc Addr)))
  | [] => pure []
  | modld :: next => do
    let some addr ← request answer | pure []
    let address ← cloneModuleAddress answer modld.val.address
    let extra ← cloneBlock answer modld.val.extra
    let isr ← cloneBlock answer modld.val.isr
    let next ← insLibCloneModule next
    pure (⟨addr, { modld.val with address := address, extra := extra, isr := isr }⟩ :: next)

/-- `InsLibCloneOneDriver`. -/
def insLibCloneOneDriver : Option (Node Addr (DrvrDesc Addr)) →
    StateM Heap (Option (Node Addr (DrvrDesc Addr)))
  | none => pure none
  | some drvrd => do
    let some addr ← request answer | pure none
    let modules ← insLibCloneModule answer drvrd.val.modules
    pure (some ⟨addr, { drvrd.val with modules := modules, next := none }⟩)

end Clone

/-! ### Equal copies -/

section Erase

variable {L M S α : Type}

/-- A block without its address. -/
def Node.erase (n : Node L α) : Node Unit α := ⟨(), n.val⟩

def BusAddress.erase (ma : BusAddress M S L) : BusAddress M S Unit :=
  { data := ma.data, spaces := ma.spaces.map Node.erase }

/-- The address of a module without the addresses of its nodes. -/
def eraseAddress (ma : Option (Node L (BusAddress M S L))) :
    Option (Node Unit (BusAddress M S Unit)) :=
  ma.map (fun n => ⟨(), n.val.erase⟩)

/-- A pointer to what is not known is kept. -/
def ModuleAddress.erase : ModuleAddress L → ModuleAddress Unit
  | .notSet addr => ModuleAddress.notSet addr
  | .carrier carma => ModuleAddress.carrier (eraseAddress carma)
  | .vme vmema => ModuleAddress.vme (eraseAddress vmema)
  | .pmc pcima => ModuleAddress.pmc (eraseAddress pcima)
  | .pci pcima => ModuleAddress.pci (eraseAddress pcima)

def ModlDesc.erase (modld : ModlDesc L) : ModlDesc Unit :=
  { modld with
    address := modld.address.erase
    isr := modld.isr.map Node.erase
    extra := modld.extra.map Node.erase }

/-- A list of modules without the addresses. -/
def eraseModules (modld : List (Node L (ModlDesc L))) : List (Node Unit (ModlDesc Unit)) :=
  modld.map (fun n => ⟨(), n.val.erase⟩)

/-- The description of one driver: the next driver is not part of it. -/
def DrvrDesc.erase (drvrd : DrvrDesc L) : DrvrDesc Unit :=
  { drvrd with modules := eraseModules drvrd.modules, next := none }

/-- The blocks of the nodes, in the order in which they are copied. -/
def addressBlocks : Option (Node L (BusAddress M S L)) → List L
  | none => []
  | some ma => ma.addr :: ma.val.spaces.map Node.addr

def ModuleAddress.blocks : ModuleAddress L → List L
  | .notSet _ => []
  | .carrier carma => addressBlocks carma
  | .vme vmema => addressBlocks vmema
  | .pmc pcima => addressBlocks pcima
  | .pci pcima => addressBlocks pcima

def ModlDesc.blocks (modld : ModlDesc L) : List L :=
  modld.address.blocks ++ (modld.extra.map Node.addr).toList ++ (modld.isr.map Node.addr).toList

def moduleBlocks (modld : List (Node L (ModlDesc L))) : List L :=
  modld.flatMap (fun n => n.addr :: n.val.blocks)

/-- The blocks of a driver. -/
def blocks (drvrd : Node L (DrvrDesc L)) : List L := drvrd.addr :: moduleBlocks drvrd.val.modules

/-- The pointers of the modules whose bus type is not set. -/
def ModuleAddress.unknown : ModuleAddress L → List Addr
  | .notSet addr => addr.toList
  | _ => []

/-- The pointers to nodes of which nothing is known. -/
def unknown (drvrd : Node L (DrvrDesc L)) : List Addr :=
  drvrd.val.modules.flatMap (fun n => n.val.address.unknown)

/-- Everything that a description points to. -/
def nodes (drvrd : Node Addr (DrvrDesc Addr)) : List Addr := blocks drvrd ++ unknown drvrd

end Erase

/-- **What a copy should be**: an equal tree with no node of the source and none twice, or no tree
and no block that was allocated for it. -/
def Cloned (drvrd : Option (Node Addr (DrvrDesc Addr))) (h : Heap)
    (r : Option (Node Addr (DrvrDesc Addr)) × Heap) : Prop :=
  match r.1 with
  | some clone => ∃ src ∈ drvrd, clone.val.erase = src.val.erase ∧ (blocks clone).Nodup ∧
      ∀ a ∈ nodes clone, a ∉ nodes src
  | none => r.2.live = h.live

/-- **When it is one**: the driver node is refused, or nothing is refused and no module of unknown
bus type has an address. -/
def Clonable (answer : ℕ → Option Addr) (drvrd : Option (Node Addr (DrvrDesc Addr))) (h : Heap) :
    Prop :=
  ∀ src ∈ drvrd, answer h.requests = none ∨
    (∀ i < (blocks src).length, (answer (h.requests + i)).isSome) ∧ unknown src = []

/-! ### A copy is whole if nothing is refused -/

section Whole

variable {answer : ℕ → Option Addr} {M S α : Type}

theorem cloneSpace_succeeds (src : List (Node Addr S)) : Succeeds answer (cloneSpace answer src)
    src.length (fun c => c.map Node.erase = src.map Node.erase) := by
  induction src with
  | nil => exact Succeeds.pure rfl
  | cons as next ih =>
    rw [List.length_cons, Nat.add_comm]
    refine Succeeds.request ?_ ?_
    · intro addr
      refine ih.bind (m := 0) ?_ ?_
      · intro c hc
        exact Succeeds.pure (congrArg (List.cons as.erase) hc)
      · intro c h hc heq
        exact hc (List.cons.inj heq).2
    · intro h heq
      exact List.cons_ne_nil _ _ heq.symm

theorem cloneAddress_succeeds
    {cloneSpace : List (Node Addr S) → StateM Heap (List (Node Addr S))}
    (hspace : ∀ src, Succeeds answer (cloneSpace src) src.length
      (fun c => c.map Node.erase = src.map Node.erase))
    (ma : Option (Node Addr (BusAddress M S Addr))) :
    Succeeds answer (cloneAddress answer cloneSpace ma) (addressBlocks ma).length
      (fun c => eraseAddress c = eraseAddress ma) := by
  cases ma with
  | none => exact Succeeds.pure rfl
  | some ma =>
    have hlength : 1 + (ma.val.spaces.length + 0) = (addressBlocks (some ma)).length := by
      simp [addressBlocks, Nat.add_comm]
    have hparts : ∀ {addr : Addr} {c : List (Node Addr S)},
        eraseAddress (some ⟨addr, { ma.val with spaces := c }⟩) = eraseAddress (some ma) ↔
          c.map Node.erase = ma.val.spaces.map Node.erase := by
      intro addr c
      simp only [eraseAddress, BusAddress.erase, Option.map_some, Option.some.injEq,
        Node.mk.injEq, BusAddress.mk.injEq, true_and]
    refine Succeeds.congr (Succeeds.request ?_ ?_) hlength (fun _ => Iff.rfl)
    · intro addr
      refine (hspace ma.val.spaces).bind ?_ ?_
      · intro c hc
        exact Succeeds.pure (hparts.mpr hc)
      · intro c h hc heq
        exact hc (hparts.mp heq)
    · intro h heq
      exact Option.some_ne_none _ heq.symm

theorem cloneModuleAddress_succeeds (address : ModuleAddress Addr) :
    Succeeds answer (cloneModuleAddress answer address) address.blocks.length
      (fun c => c.erase = address.erase) := by
  cases address with
  | notSet addr => exact Succeeds.pure rfl
  | carrier carma =>
    exact (cloneAddress_succeeds cloneSpace_succeeds carma).map
      (fun _ => ModuleAddress.carrier.injEq _ _ ▸ Iff.rfl)
  | vme vmema =>
    exact (cloneAddress_succeeds cloneSpace_succeeds vmema).map
      (fun _ => ModuleAddress.vme.injEq _ _ ▸ Iff.rfl)
  | pmc pcima =>
    exact (cloneAddress_succeeds cloneSpace_succeeds pcima).map
      (fun _ => ModuleAddress.pmc.injEq _ _ ▸ Iff.rfl)
  | pci pcima =>
    exact (cloneAddress_succeeds cloneSpace_succeeds pcima).map
      (fun _ => ModuleAddress.pci.injEq _ _ ▸ Iff.rfl)

theorem cloneBlock_succeeds (block : Option (Node Addr α)) :
    Succeeds answer (cloneBlock answer block) (block.map Node.addr).toList.length
      (fun c => c.map Node.erase = block.map Node.erase) := by
  cases block with
  | none => exact Succeeds.pure rfl
  | some block =>
    refine Succeeds.request (n := 0) ?_ ?_
    · intro addr
      exact Succeeds.pure rfl
    · intro h heq
      exact Option.some_ne_none _ heq.symm

theorem insLibCloneModule_succeeds (src : List (Node Addr (ModlDesc Addr))) :
    Succeeds answer (insLibCloneModule answer src) (moduleBlocks src).length
      (fun c => eraseModules c = eraseModules src) := by
  induction src with
  | nil => exact Succeeds.pure rfl
  | cons modld next ih =>
    have hlength : 1 + (modld.val.address.blocks.length +
        ((modld.val.extra.map Node.addr).toList.length +
        ((modld.val.isr.map Node.addr).toList.length + ((moduleBlocks next).length + 0)))) =
          (moduleBlocks (modld :: next)).length := by
      simp only [moduleBlocks, List.flatMap_cons, ModlDesc.blocks, List.length_append,
        List.length_cons]
      omega
    -- each part of a module and the list behind it can be told from an equal whole
    have hparts : ∀ {addr : Addr} {address : ModuleAddress Addr} {extra isr next'},
        eraseModules (⟨addr, { modld.val with address := address, extra := extra, isr := isr }⟩
          :: next') = eraseModules (modld :: next) ↔ address.erase = modld.val.address.erase ∧
            extra.map Node.erase = modld.val.extra.map Node.erase ∧
            isr.map Node.erase = modld.val.isr.map Node.erase ∧
            eraseModules next' = eraseModules next := by
      intro addr address extra isr next'
      simp only [eraseModules, List.map_cons, List.cons.injEq, Node.mk.injEq, true_and,
        ModlDesc.erase, ModlDesc.mk.injEq, and_true]
      tauto
    refine Succeeds.congr (Succeeds.request ?_ ?_) hlength (fun _ => Iff.rfl)
    · intro addr
      refine (cloneModuleAddress_succeeds _).bind ?_ ?_
      · intro address haddress
        refine (cloneBlock_succeeds _).bind ?_ ?_
        · intro extra hextra
          refine (cloneBlock_succeeds _).bind ?_ ?_
          · intro isr hisr
            refine ih.bind ?_ ?_
            · intro next' hnext
              exact Succeeds.pure (hparts.mpr ⟨haddress, hextra, hisr, hnext⟩)
            · intro next' h hnext heq
              exact hnext (hparts.mp heq).2.2.2
          · intro isr h hisr heq
            exact hisr (hparts.mp heq).2.2.1
        · intro extra h hextra heq
          exact hextra (hparts.mp heq).2.1
      · intro address h haddress heq
        exact haddress (hparts.mp heq).1
    · intro h heq
      exact List.cons_ne_nil _ _ heq.symm

end Whole

/-! ### The blocks of a copy are new -/

section New

variable {answer : ℕ → Option Addr} {M S α : Type}
  (hdist : ∀ i j a, answer i = some a → answer j = some a → i = j)

include hdist

theorem cloneSpace_takes (src : List (Node Addr S)) :
    Takes answer [] (cloneSpace answer src) (List.map Node.addr) := by
  induction src with
  | nil => exact Takes.pure (List.Perm.refl _)
  | cons as next ih =>
    refine Takes.request hdist ?_ (Takes.pure (List.Perm.refl _))
    intro addr
    refine ih.bind hdist ?_
    intro next'
    exact Takes.pure (List.Perm.refl _)

theorem cloneAddress_takes
    {cloneSpace : List (Node Addr S) → StateM Heap (List (Node Addr S))}
    (hspace : ∀ src, Takes answer [] (cloneSpace src) (List.map Node.addr))
    (ma : Option (Node Addr (BusAddress M S Addr))) :
    Takes answer [] (cloneAddress answer cloneSpace ma) addressBlocks := by
  cases ma with
  | none => exact Takes.pure (List.Perm.refl _)
  | some ma =>
    refine Takes.request hdist ?_ (Takes.pure (List.Perm.refl _))
    intro addr
    refine (hspace ma.val.spaces).bind hdist ?_
    intro spaces
    exact Takes.pure (List.Perm.refl _)

theorem cloneModuleAddress_takes (address : ModuleAddress Addr) :
    Takes answer [] (cloneModuleAddress answer address) ModuleAddress.blocks := by
  cases address with
  | notSet addr => exact Takes.pure (List.Perm.refl _)
  | carrier carma =>
    exact (cloneAddress_takes hdist (cloneSpace_takes hdist) carma).map (fun _ => rfl)
  | vme vmema =>
    exact (cloneAddress_takes hdist (cloneSpace_takes hdist) vmema).map (fun _ => rfl)
  | pmc pcima =>
    exact (cloneAddress_takes hdist (cloneSpace_takes hdist) pcima).map (fun _ => rfl)
  | pci pcima =>
    exact (cloneAddress_takes hdist (cloneSpace_takes hdist) pcima).map (fun _ => rfl)

theorem cloneBlock_takes (block : Option (Node Addr α)) :
    Takes answer [] (cloneBlock answer block) (fun c => (c.map Node.addr).toList) := by
  cases block with
  | none => exact Takes.pure (List.Perm.refl _)
  | some block =>
    refine Takes.request hdist ?_ (Takes.pure (List.Perm.refl _))
    intro addr
    exact Takes.pure (List.Perm.refl _)

theorem insLibCloneModule_takes (src : List (Node Addr (ModlDesc Addr))) :
    Takes answer [] (insLibCloneModule answer src) moduleBlocks := by
  induction src with
  | nil => exact Takes.pure (List.Perm.refl _)
  | cons modld next ih =>
    refine Takes.request hdist ?_ (Takes.pure (List.Perm.refl _))
    intro addr
    refine (cloneModuleAddress_takes hdist _).bind hdist ?_
    intro address
    refine (cloneBlock_takes hdist _).bind hdist ?_
    intro extra
    refine (cloneBlock_takes hdist _).bind hdist ?_
    intro isr
    refine ih.bind hdist ?_
    intro next'
    refine Takes.pure ?_
    simp [moduleBlocks, ModlDesc.blocks]

theorem insLibCloneOneDriver_takes (src : Option (Node Addr (DrvrDesc Addr))) :
    Takes answer [] (insLibCloneOneDriver answer src)
      (fun c => c.toList.flatMap blocks) := by
  cases src with
  | none => exact Takes.pure (List.Perm.refl _)
  | some drvrd =>
    refine Takes.request hdist ?_ (Takes.pure (List.Perm.refl _))
    intro addr
    refine (insLibCloneModule_takes hdist _).bind hdist ?_
    intro modules
    refine Takes.pure ?_
    simp [blocks]

end New

/-! ### Copies of a driver -/

theorem unknown_of_erase {drvrd src : Node Addr (DrvrDesc Addr)}
    (h : drvrd.val.erase = src.val.erase) : unknown drvrd = unknown src := by
  have hunknown : ∀ address : ModuleAddress Addr, address.erase.unknown = address.unknown := by
    intro address
    cases address <;> rfl
  have herase : ∀ drvrd : Node Addr (DrvrDesc Addr), unknown drvrd =
      drvrd.val.erase.modules.flatMap (fun n => n.val.address.unknown) := by
    intro drvrd
    simp only [unknown, DrvrDesc.erase, eraseModules, List.flatMap_map, ModlDesc.erase, hunknown]
  rw [herase, herase, h]

theorem insLibCloneOneDriver_succeeds (answer : ℕ → Option Addr)
    (src : Node Addr (DrvrDesc Addr)) :
    Succeeds answer (insLibCloneOneDriver answer (some src)) (blocks src).length
      (fun c => ∃ clone ∈ c, clone.val.erase = src.val.erase) := by
  have hparts : ∀ {addr : Addr} {modules : List (Node Addr (ModlDesc Addr))},
      (∃ clone ∈ some (Node.mk addr { src.val with modules := modules, next := none }),
        clone.val.erase = src.val.erase) ↔
          eraseModules modules = eraseModules src.val.modules := by
    intro addr modules
    simp [DrvrDesc.erase]
  have hlength : 1 + ((moduleBlocks src.val.modules).length + 0) = (blocks src).length := by
    simp [blocks, Nat.add_comm]
  refine Succeeds.congr (Succeeds.request ?_ ?_) hlength (fun _ => Iff.rfl)
  · intro addr
    refine (insLibCloneModule_succeeds src.val.modules).bind ?_ ?_
    · intro modules hmodules
      exact Succeeds.pure (hparts.mpr hmodules)
    · intro modules h hmodules hgood
      exact hmodules (hparts.mp hgood)
  · rintro h ⟨clone, hclone, -⟩
    cases hclone

theorem insLibCloneOneDriver_refused {answer : ℕ → Option Addr} {h : Heap}
    (hanswer : answer h.requests = none) (src : Node Addr (DrvrDesc Addr)) :
    insLibCloneOneDriver answer (some src) h = (none, { h with requests := h.requests + 1 }) := by
  have hrequest : request answer h = (none, { h with requests := h.requests + 1 }) := by
    rw [request, hanswer]
  simp only [insLibCloneOneDriver, bind, StateT.bind, hrequest]
  rfl

theorem insLibCloneOneDriver_granted {answer : ℕ → Option Addr} {h : Heap} {a : Addr}
    (hanswer : answer h.requests = some a) (src : Node Addr (DrvrDesc Addr)) :
    ∃ clone, (insLibCloneOneDriver answer (some src) h).1 = some clone := by
  have hrequest : request answer h =
      (some a, { requests := h.requests + 1, live := a :: h.live }) := by
    rw [request, hanswer]
  simp only [insLibCloneOneDriver, bind, StateT.bind, hrequest]
  exact ⟨_, rfl⟩

/-- **When a copy is what it should be**, whatever the tree and the allocations that are refused. -/
theorem cloned_iff (drvrd : Option (Node Addr (DrvrDesc Addr)))
    (al : Allocator (drvrd.toList.flatMap nodes)) (h : Heap) :
    Cloned drvrd h (insLibCloneOneDriver al.answer drvrd h) ↔ Clonable al.answer drvrd h := by
  cases drvrd with
  | none => exact iff_of_true rfl (fun src hsrc => absurd hsrc (Option.not_mem_none src))
  | some src =>
    have hclonable : Clonable al.answer (some src) h ↔ al.answer h.requests = none ∨
        (∀ i < (blocks src).length, (al.answer (h.requests + i)).isSome) ∧ unknown src = [] := by
      simp [Clonable]
    rw [hclonable]
    cases hanswer : al.answer h.requests with
    | none =>
      refine iff_of_true ?_ (Or.inl rfl)
      rw [Cloned, insLibCloneOneDriver_refused hanswer]
    | some a =>
      obtain ⟨clone, hclone⟩ := insLibCloneOneDriver_granted hanswer src
      have hgood := (insLibCloneOneDriver_succeeds al.answer src).good_iff h
      obtain ⟨-, new, hperm, hnodup, hnew⟩ := insLibCloneOneDriver_takes al.distinct (some src) h
      rw [hclone] at hgood hperm
      simp only [Option.mem_some_iff, exists_eq_left'] at hgood
      simp only [Option.toList_some, List.flatMap_singleton, List.nil_append] at hperm
      -- the blocks of the copy were not in use
      have hunused : ∀ b ∈ blocks clone, b ∉ nodes src := by
        intro b hb
        obtain ⟨i, -, -, hi⟩ := hnew b (hperm.subset hb)
        simpa using al.unused i b hi
      have hsome : ∀ src' ∈ some src, src' = src := fun src' h' => (Option.mem_some_iff.mp h').symm
      rw [Cloned, hclone]
      constructor
      · rintro ⟨src', hsrc', herase, -, hapart⟩
        obtain rfl := hsome src' hsrc'
        refine Or.inr ⟨hgood.mp herase, ?_⟩
        by_contra hne
        obtain ⟨b, hb⟩ := List.exists_mem_of_ne_nil _ hne
        have hb' : b ∈ unknown clone := by
          rw [unknown_of_erase herase]
          exact hb
        exact hapart b (List.mem_append_right _ hb') (List.mem_append_right _ hb)
      · rintro (hnone | ⟨hall, hempty⟩)
        · cases hnone
        · have herase := hgood.mpr hall
          refine ⟨src, rfl, herase, hperm.nodup_iff.mpr hnodup, ?_⟩
          intro b hb
          have hunknown : unknown clone = [] := (unknown_of_erase herase).trans hempty
          rw [nodes, hunknown, List.append_nil] at hb
          exact hunused b hb

/-- A driver with one module that has an interrupt. -/
def oneModule : Node Addr (DrvrDesc Addr) where
  addr := 1
  val :=
    { modules := [⟨2, {
        address := ModuleAddress.notSet none
        moduleNumber := 1
        ignoreErrors := 0
        isr := some ⟨3, { isrFlag := 1, vector := 0xB8, level := 2, comment := "" }⟩
        extra := none
        comment := ""
        moduleName := "MTT" }⟩]
      next := none
      drvrName := "MTT"
      debugFlags := 0
      emulationFlags := 0
      moduleCount := 1
      comment := ""
      isdg := 0 }

/-- **A copy without its modules**: the second allocation is refused, and a driver is returned. -/
theorem refusedModule_not_cloned : ∃ answer : Allocator (nodes oneModule),
    ¬ Cloned (some oneModule) { requests := 0, live := [] }
      (insLibCloneOneDriver answer.answer (some oneModule) { requests := 0, live := [] }) := by
  refine ⟨
    { answer := fun i => if i = 0 then some 10 else none
      unused := ?_
      distinct := ?_ }, ?_⟩
  · intro i a ha
    split at ha
    · cases ha
      decide
    · cases ha
  · intro i j a hi hj
    split at hi
    · split at hj
      · omega
      · cases hj
    · cases hi
  · rintro ⟨src, hsrc, herase, -⟩
    cases hsrc
    revert herase
    decide +kernel

end KernelModules.Utils
