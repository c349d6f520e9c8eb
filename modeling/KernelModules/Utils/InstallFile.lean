import Mathlib.Tactic
import KernelModules.Mttn.NumberText
import KernelModules.Utils.CloneTree

/-!
# Parsing an install file

`DoElement` walks over the elements of an install file in document order and builds the description
of the host.  Where it is, it remembers in static variables: the host, the driver and the module it
has built last, and the last address of each kind.

* `XmlNode` is a node with its children and the nodes next to it, `readProps` the loop over the
  attributes of an element, which ends at the first one that the element does not know;
* `State` has the static variables, the blocks and what is in them.  A block is named by the number
  of the element it was allocated for;
* `insLibFreeHost` frees a host, `element` is what `DoElement` does with one element and `doElement`
  the walk.

What goes wrong is noted: the messages in `errors`, and in `faults` what is freed twice or used
after it was freed.
-/

namespace KernelModules.Utils.Install

open Function

/-! ### The file -/

/-- A text in the file. -/
abbrev Text := List Char

/-- The key words of an install file. -/
inductive KeyWord
  | EMPTY | INSTALL | HOST | DRIVER | NAME | DRIVERGEN | INSTALL_DEBUG_LEVEL | EMULATION_FLAG
  | COMMENT | MODULE | BUS_TYPE | LOGICAL_MODULE_NUMBER | EXTRA | PCI | BUS_NUMBER | SLOT_NUMBER
  | VENDOR_ID | DEVICE_ID | SUBVENDOR_ID | SUBDEVICE_ID | CARRIER | DRVR_NAME
  | MOTHERBOARD_NUMBER | INTERRUPT | VECTOR | LEVEL | PCI_SPACE | BAR | ENDIAN | VME_SPACE
  | MODIFIER | DATA_WIDTH | WINDOW_SIZE | ADDRESS | FREE_FLAG | CARRIER_SPACE | VME
  | IGNORE_INSTALL_ERRORS
  deriving DecidableEq, Repr

/-- `keywords`. -/
def keywords : List (KeyWord × Text) :=
  [(.EMPTY, "empty".toList), (.INSTALL, "install".toList), (.HOST, "host".toList),
    (.DRIVER, "driver".toList), (.NAME, "name".toList), (.DRIVERGEN, "drivergen".toList),
    (.INSTALL_DEBUG_LEVEL, "install_debug_level".toList),
    (.EMULATION_FLAG, "emulation_flag".toList), (.COMMENT, "comment".toList),
    (.MODULE, "module".toList), (.BUS_TYPE, "bus_type".toList),
    (.LOGICAL_MODULE_NUMBER, "logical_module_number".toList), (.EXTRA, "extra".toList),
    (.PCI, "pci".toList), (.BUS_NUMBER, "bus_number".toList),
    (.SLOT_NUMBER, "slot_number".toList), (.VENDOR_ID, "vendor_id".toList),
    (.DEVICE_ID, "device_id".toList), (.SUBVENDOR_ID, "subvendor_id".toList),
    (.SUBDEVICE_ID, "subdevice_id".toList), (.CARRIER, "carrier".toList),
    (.DRVR_NAME, "driver_name".toList), (.MOTHERBOARD_NUMBER, "motherboard_number".toList),
    (.INTERRUPT, "interrupt".toList), (.VECTOR, "vector".toList), (.LEVEL, "level".toList),
    (.PCI_SPACE, "pci_space".toList), (.BAR, "bar".toList), (.ENDIAN, "endian".toList),
    (.VME_SPACE, "vme_space".toList), (.MODIFIER, "modifier".toList),
    (.DATA_WIDTH, "data_width".toList), (.WINDOW_SIZE, "window_size".toList),
    (.ADDRESS, "address".toList), (.FREE_FLAG, "free_flag".toList),
    (.CARRIER_SPACE, "carrier_space".toList), (.VME, "vme".toList),
    (.IGNORE_INSTALL_ERRORS, "ignore_install_errors".toList)]

/-- `LookUp`. -/
def lookUp (name : Text) : KeyWord :=
  ((keywords.find? fun k => k.2 == name).map Prod.fst).getD .EMPTY

/-- `xmlAttr`; an attribute without a text has no children. -/
structure XmlAttr where
  name : Text
  value : Option Text
  deriving DecidableEq, Repr

/-- `xmlNode`, with its `children` and the `next` node.  Nodes that are no elements are texts and
comments. -/
inductive XmlNode
  | null
  | element (name : Text) (properties : List XmlAttr) (children next : XmlNode)
  | other (children next : XmlNode)
  deriving DecidableEq, Repr

/-- An element by itself. -/
structure Element where
  name : Text
  properties : List XmlAttr
  deriving DecidableEq, Repr

/-- The key word of an element. -/
def Element.key (e : Element) : KeyWord := lookUp e.name

/-! ### The description -/

/-- `strncpy` into a field of `n` characters. -/
def strncpy (n : ℕ) (v : Text) : String := String.ofList (v.take n)

/-- A block: the number of the element it is allocated for, and a number there. -/
abbrev Block := ℕ × ℕ

/-- `InsLibBusType`. -/
inductive BusType
  | notSet | carrier | vme | pmc | pci
  deriving DecidableEq, Repr

/-- `InsLibHostDesc`, with the numbers of the drivers in its list. -/
structure InsLibHostDesc where
  hostName : String
  comment : String
  drivers : List ℕ
  deriving DecidableEq, Repr

/-- `InsLibDrvrDesc`, with the numbers of the modules in its list. -/
structure InsLibDrvrDesc where
  drvrName : String
  debugFlags : BitVec 32
  emulationFlags : BitVec 32
  comment : String
  isdg : ℤ
  moduleCount : ℕ
  modules : List ℕ
  deriving DecidableEq, Repr

/-- `InsLibModlDesc`, with the numbers of its interrupt and its address. -/
structure InsLibModlDesc where
  busType : BusType
  moduleNumber : BitVec 32
  ignoreErrors : BitVec 32
  extra : Option (Block × String)
  comment : String
  moduleName : String
  isr : Option (ℕ × IntrDesc)
  moduleAddress : Option ℕ
  deriving DecidableEq, Repr

/-- What `InsLibPciModuleAddress`, `InsLibVmeModuleAddress` and `InsLibCarModuleAddress` have
besides their spaces. -/
inductive AddressFields
  | pci (pcima : PciModule)
  | vme (vmema : VmeModule)
  | car (carma : CarModule)
  deriving DecidableEq, Repr

/-- `InsLibPciAddressSpace`, `InsLibVmeAddressSpace` and `InsLibCarAddressSpace`. -/
inductive AddressSpace
  | pci (pcias : PciAddressSpace)
  | vme (vmeas : VmeAddressSpace)
  | car (caras : CarAddressSpace)
  deriving DecidableEq, Repr

/-- The address of a module, and its spaces with their numbers. -/
structure Address where
  fields : AddressFields
  spaces : List (ℕ × AddressSpace)
  deriving DecidableEq, Repr

/-- The static variables of `DoElement`, the blocks that are allocated and what is in them, the
messages so far and what was freed or used although it was not allocated. -/
structure State where
  hostd : Option ℕ
  drvrd : Option ℕ
  modld : Option ℕ
  pcima : Option ℕ
  vmema : Option ℕ
  carma : Option ℕ
  hosts : ℕ → InsLibHostDesc
  drvrs : ℕ → InsLibDrvrDesc
  modls : ℕ → InsLibModlDesc
  addrs : ℕ → Address
  elements : ℕ
  live : Block → Bool
  errors : ℕ
  faults : ℕ

namespace State

/-- `prnterr`. -/
def prnterr (s : State) : State := { s with errors := s.errors + 1 }

/-- A message on a condition. -/
def check (s : State) (bad : Bool) : State := if bad then s.prnterr else s

/-- A block is used. -/
def use (s : State) (b : Block) : State :=
  if s.live b then s else { s with faults := s.faults + 1 }

/-- A message with the name of a module. -/
def checkNaming (modld : ℕ) (s : State) (bad : Bool) : State :=
  if bad then (s.use (modld, 0)).prnterr else s

/-- `free`. -/
def free (s : State) (b : Block) : State :=
  if s.live b then { s with live := update s.live b false } else { s with faults := s.faults + 1 }

/-- `malloc`, for a block that was not refused. -/
def malloc (s : State) (b : Block) : State := { s with live := update s.live b true }

end State

/-! ### Freeing -/

/-- `InsLibFreePciSpace`, `InsLibFreeVmeSpace` and `InsLibFreeCarSpace`. -/
def insLibFreeSpace : List (ℕ × AddressSpace) → State → State
  | [], s => s
  | as :: next, s => (insLibFreeSpace next (s.use (as.1, 0))).free (as.1, 0)

/-- `InsLibFreePci`, `InsLibFreeVme` and `InsLibFreeCar`. -/
def insLibFreeAddress (a : ℕ) (s : State) : State :=
  (insLibFreeSpace (s.addrs a).spaces (s.use (a, 0))).free (a, 0)

/-- The parts of a module; the module itself is not freed. -/
def freeParts (modld : InsLibModlDesc) (s : State) : State :=
  let s := match modld.busType, modld.moduleAddress with
    | .notSet, _ => s
    | _, none => s
    | _, some a => insLibFreeAddress a s
  let s := match modld.extra with
    | some extra => s.free extra.1
    | none => s
  match modld.isr with
  | some isr => s.free (isr.1, 0)
  | none => s

/-- `InsLibFreeModule`. -/
def insLibFreeModule : List ℕ → State → State
  | [], s => s
  | m :: next, s =>
    let s := insLibFreeModule next (s.use (m, 0))
    freeParts (s.modls m) (s.use (m, 0))

/-- `InsLibFreeDriver`. -/
def insLibFreeDriver : List ℕ → State → State
  | [], s => s
  | d :: next, s =>
    let s := insLibFreeDriver next (s.use (d, 0))
    (insLibFreeModule (s.drvrs d).modules (s.use (d, 0))).free (d, 0)

/-- `InsLibFreeHost`. -/
def insLibFreeHost (hostd : Option ℕ) (s : State) : State :=
  match hostd with
  | none => s
  | some h => (insLibFreeDriver (s.hosts h).drivers (s.use (h, 0))).free (h, 0)

/-! ### Attributes -/

/-- What an attribute leads to: the next one, or an error exit. -/
inductive Next (σ : Type)
  | go (s : σ)
  | quit (s : σ)

/-- How the loop over the attributes ends: with the last one, at one that is not known, in an error
exit, or where it uses a value that is not there. -/
inductive LoopEnd
  | all | unknown | quit | undefined
  deriving DecidableEq, Repr

/-- What an element does with the attributes it knows; the value is the one `pvalu` points at. -/
abbrev Reader (σ : Type) := KeyWord → Option (Option Text → σ → Option (Next σ))

/-- An attribute whose value is needed. -/
def needed {σ : Type} (f : Text → σ → Next σ) (pvalu : Option Text) (s : σ) : Option (Next σ) :=
  pvalu.map fun v => f v s

/-- An attribute whose value goes into a field. -/
def field {α : Type} (f : Text → α → α) : Option Text → α × State → Option (Next (α × State)) :=
  needed fun v r => .go (f v r.1, r.2)

/-- The loop over the attributes.  `GetNextProp` leaves `pvalu` alone when there is no text. -/
def readProps {σ : Type} (reader : Reader σ) :
    List XmlAttr → Option Text → σ → LoopEnd × σ
  | [], _, s => (.all, s)
  | prop :: props, pvalu, s =>
    match reader (lookUp prop.name) with
    | none => (.unknown, s)
    | some f =>
      match f (prop.value.or pvalu) s with
      | none => (.undefined, s)
      | some (.quit s) => (.quit, s)
      | some (.go s) => readProps reader props (prop.value.or pvalu) s

/-- `GetNumber`. -/
def getNumber (v : Text) (s : State) : BitVec 32 × State :=
  let r := Mttn.strtoulText v
  (r.1.setWidth 32, s.check (r.2 = v))

/-- An attribute whose number goes into a field, with a message when it is a bad one. -/
def number {α : Type} (check : State → Bool → State) (bad : BitVec 32 → Bool)
    (f : BitVec 32 → α → α) : Option Text → α × State → Option (Next (α × State)) :=
  needed fun v r =>
    let x := getNumber v r.2
    .go (f x.1 r.1, check x.2 (bad x.1))

/-- A number that is good for any field. -/
def anyNumber : BitVec 32 → Bool := fun _ => false

/-- An attribute whose number goes into a field, with an error exit when it is a bad one. -/
def numberOrQuit {α : Type} (bad : BitVec 32 → Bool) (f : BitVec 32 → α → α) :
    Option Text → α × State → Option (Next (α × State)) :=
  needed fun v r =>
    let x := getNumber v r.2
    if bad x.1 then .quit (f x.1 r.1, x.2.prnterr) else .go (f x.1 r.1, x.2)

/-- The numbers outside a range. -/
def outside (low high : ℕ) : BitVec 32 → Bool := fun x => x.toNat < low || high < x.toNat

/-- The numbers that are no width of data. -/
def noWidth : BitVec 32 → Bool := fun x => x.toNat ≠ 16 && x.toNat ≠ 32

/-! ### Hosts, drivers and modules -/

/-- What `DoElement` does with an element: it goes on, it returns `NULL`, or it uses a pointer that
points nowhere. -/
inductive Step
  | goes | null | undefined
  deriving DecidableEq, Repr

/-- The attributes of an `install` element. -/
def installProps : Reader (InsLibHostDesc × State)
  | .HOST => some (field fun v h => { h with hostName := strncpy 32 v })
  | .COMMENT => some (field fun v h => { h with comment := strncpy 128 v })
  | _ => none

/-- The attributes of a `driver` element. -/
def driverProps : Reader (InsLibDrvrDesc × State)
  | .NAME => some (field fun v d => { d with drvrName := strncpy 32 v })
  | .COMMENT => some (field fun v d => { d with comment := strncpy 128 v })
  | .INSTALL_DEBUG_LEVEL =>
    some (number State.check anyNumber fun x d => { d with debugFlags := x })
  | .EMULATION_FLAG =>
    some (number State.check anyNumber fun x d => { d with emulationFlags := x })
  | .DRIVERGEN => some (field fun v d => { d with isdg := if v.head? = some 'y' then 1 else 0 })
  | _ => none

/-- The bus of a module. -/
def busTypeOf (v : Text) : Option BusType :=
  if v = "VME".toList then some .vme
  else if v = "PCI".toList then some .pci
  else if v = "PMC".toList then some .pmc
  else if v = "CAR".toList then some .carrier
  else if v = "MODULBUS".toList ∨ v = "IP".toList then some .carrier
  else none

/-- The block for the extra parameters of module `n`. -/
def extraBlock (n : ℕ) (modld : InsLibModlDesc) : Block :=
  (n, (modld.extra.map fun x => x.1.2).getD 0 + 1)

section Walk

variable (fails : Block → Bool)

/-- The attributes of a `module` element. -/
def moduleProps (n : ℕ) : Reader (InsLibModlDesc × State)
  | .BUS_TYPE => some (needed fun v r =>
      match busTypeOf v with
      | some busType => .go ({ r.1 with busType := busType }, r.2)
      | none => .go (r.1, r.2.prnterr))
  | .LOGICAL_MODULE_NUMBER => some (needed fun v r =>
      if v = [] then .quit (r.1, r.2.prnterr)
      else
        let x := getNumber v r.2
        .go ({ r.1 with moduleNumber := x.1 }, x.2.check (16 < x.1.toNat)))
  | .EXTRA => some (needed fun v r =>
      let b := extraBlock n r.1
      if fails b then .quit ({ r.1 with extra := none }, r.2.prnterr)
      else .go ({ r.1 with extra := some (b, String.ofList v) }, r.2.malloc b))
  | .COMMENT => some (field fun v m => { m with comment := strncpy 128 v })
  | .IGNORE_INSTALL_ERRORS => some fun _ r => some (.go ({ r.1 with ignoreErrors := 1 }, r.2))
  | .NAME => some (field fun v m => { m with moduleName := strncpy 32 v })
  | _ => none

/-- An error exit that frees the host. -/
def giveUp (s : State) : Step × State := (.null, insLibFreeHost s.hostd s)

/-- `handle_install_node`. -/
def handleInstallNode (n : ℕ) (props : List XmlAttr) (s : State) : Step × State :=
  if fails (n, 0) then (.null, { s.prnterr with hostd := none })
  else
    match readProps installProps props none (⟨"", "", []⟩, s.malloc (n, 0)) with
    | (.undefined, r) => (.undefined, r.2)
    | (_, r) =>
      let s := r.2.check (r.1.hostName = "")
      (.goes, { s with hosts := update s.hosts n r.1, hostd := some n })

/-- The list of the drivers is used. -/
def useAll (blocks : List ℕ) (s : State) : State := blocks.foldl (fun s b => s.use (b, 0)) s

/-- `add_driver_node`. -/
def addDriverNode (h n : ℕ) (s : State) : State :=
  let s := useAll (s.hosts h).drivers (s.use (h, 0))
  { s with hosts := update s.hosts h { s.hosts h with drivers := (s.hosts h).drivers ++ [n] } }

/-- `handle_driver_node`. -/
def handleDriverNode (n : ℕ) (props : List XmlAttr) (s : State) : Step × State :=
  match s.hostd with
  | none => (.null, s.prnterr)
  | some h =>
    if fails (n, 0) then giveUp { s.prnterr with drvrd := none }
    else
      match readProps driverProps props none (⟨"", 0, 0, "", -1, 0, []⟩, s.malloc (n, 0)) with
      | (.undefined, r) => (.undefined, r.2)
      | (_, r) =>
        let s := r.2.check (r.1.drvrName = "")
        (.goes, addDriverNode h n { s with drvrs := update s.drvrs n r.1, drvrd := some n })

/-- `add_module_node`. -/
def addModuleNode (d n : ℕ) (s : State) : State :=
  let s := useAll (s.drvrs d).modules (s.use (d, 0))
  { s with
    drvrs := update s.drvrs d { s.drvrs d with
      modules := (s.drvrs d).modules ++ [n]
      moduleCount := (s.drvrs d).moduleCount + 1 } }

/-- `handle_module_node`. -/
def handleModuleNode (n : ℕ) (props : List XmlAttr) (s : State) : Step × State :=
  match s.drvrd with
  | none => giveUp s.prnterr
  | some d =>
    if fails (n, 0) then giveUp { s.prnterr with modld := none }
    else
      match readProps (moduleProps fails n) props none
        (⟨.notSet, 0, 0, none, "", "", none, none⟩, s.malloc (n, 0)) with
      | (.undefined, r) => (.undefined, r.2)
      | (.quit, r) => giveUp { r.2.free (n, 0) with modld := none }
      | (_, r) =>
        let s := r.2.check (r.1.busType = .notSet)
        (.goes, addModuleNode d n { s with modls := update s.modls n r.1, modld := some n })

/-! ### Interrupts and addresses -/

/-- The attributes of an `interrupt` element. -/
def interruptProps : Reader (IntrDesc × State)
  | .VECTOR => some (number State.check (outside 1 255) fun x i => { i with vector := x })
  | .LEVEL => some (number State.check (outside 1 8) fun x i => { i with level := x })
  | .COMMENT => some (field fun v i => { i with comment := strncpy 128 v })
  | _ => none

/-- The case `INTERRUPT` of `DoElement`. -/
def interruptNode (n : ℕ) (props : List XmlAttr) (s : State) : Step × State :=
  match s.modld with
  | none => giveUp s.prnterr
  | some m =>
    if fails (n, 0) then giveUp s.prnterr
    else
      match readProps interruptProps props none (⟨1, 0, 0, ""⟩, (s.malloc (n, 0)).use (m, 0)) with
      | (.undefined, r) => (.undefined, r.2)
      | (_, r) =>
        (.goes, { r.2 with modls := update r.2.modls m { r.2.modls m with isr := some (n, r.1) } })

/-- The attributes of a `pci` element. -/
def pciProps : Reader (PciModule × State)
  | .BUS_NUMBER => some (numberOrQuit (outside 0 16) fun x a => { a with busNumber := x })
  | .SLOT_NUMBER => some (numberOrQuit (outside 0 16) fun x a => { a with slotNumber := x })
  | .VENDOR_ID => some (number State.check anyNumber fun x a => { a with vendorId := x })
  | .DEVICE_ID => some (number State.check anyNumber fun x a => { a with deviceId := x })
  | .SUBVENDOR_ID => some (number State.check anyNumber fun x a => { a with subVendorId := x })
  | .SUBDEVICE_ID => some (number State.check anyNumber fun x a => { a with subDeviceId := x })
  | .COMMENT => some (field fun v a => { a with comment := strncpy 128 v })
  | _ => none

/-- What an address must have when all its attributes were read. -/
def pciMissing (a : PciModule) : Bool :=
  a.busNumber = 0 || a.slotNumber = 0 || a.vendorId = 0 || a.deviceId = 0

/-- The block for the address of module `m`, when it has none yet; `badBus` tells whether its bus is
another one. -/
def newAddress (n m : ℕ) (badBus : Bool) (s : State) : Bool × State :=
  let s := s.use (m, 0)
  if badBus then (false, s.prnterr)
  else if fails (n, 0) then (false, s.prnterr)
  else if (s.modls m).moduleAddress.isSome then (false, ((s.malloc (n, 0)).prnterr).free (n, 0))
  else
    let s := s.malloc (n, 0)
    (true, { s with modls := update s.modls m { s.modls m with moduleAddress := some n } })

/-- The address is complete. -/
def setAddress (n : ℕ) (fields : AddressFields) (s : State) : State :=
  { s with addrs := update s.addrs n ⟨fields, []⟩ }

/-- `parse_pci_address_tag`: the address or nothing. -/
def parsePciAddressTag (n : ℕ) (props : List XmlAttr) (s : State) : Step × State :=
  match s.modld with
  | none => (.goes, { s.prnterr with pcima := none })
  | some m =>
    let busType := (s.modls m).busType
    match newAddress fails n m (busType ≠ .pmc && busType ≠ .pci) s with
    | (false, s) => (.goes, { s with pcima := none })
    | (true, s) =>
      match readProps pciProps props none (⟨0, 0, 0, 0, 0, 0, ""⟩, s) with
      | (.undefined, r) => (.undefined, r.2)
      | (.quit, r) => (.goes, { r.2.free (n, 0) with pcima := none })
      | (.unknown, r) => (.goes, { setAddress n (.pci r.1) r.2 with pcima := some n })
      | (.all, r) =>
        if pciMissing r.1 then (.goes, { r.2.prnterr.free (n, 0) with pcima := none })
        else (.goes, { setAddress n (.pci r.1) r.2 with pcima := some n })

/-- The attributes of a `vme` element. -/
def vmeProps : Reader (VmeModule × State)
  | .COMMENT => some (field fun v a => { a with comment := strncpy 128 v })
  | _ => none

/-- `parse_vme_address_tag`. -/
def parseVmeAddressTag (n : ℕ) (props : List XmlAttr) (s : State) : Step × State :=
  match s.modld with
  | none => (.goes, { s.prnterr with vmema := none })
  | some m =>
    match newAddress fails n m ((s.modls m).busType ≠ .vme) s with
    | (false, s) => (.goes, { s with vmema := none })
    | (true, s) =>
      match readProps vmeProps props none (⟨""⟩, s) with
      | (.undefined, r) => (.undefined, r.2)
      | (_, r) => (.goes, { setAddress n (.vme r.1) r.2 with vmema := some n })

/-- The attributes of a `carrier` element. -/
def carProps : Reader (CarModule × State)
  | .DRVR_NAME => some (field fun v a => { a with driverName := strncpy 32 v })
  | .MOTHERBOARD_NUMBER =>
    some (numberOrQuit (outside 1 16) fun x a => { a with motherboardNumber := x })
  | .SLOT_NUMBER => some (numberOrQuit (outside 1 8) fun x a => { a with slotNumber := x })
  | .COMMENT => some (field fun v a => { a with comment := strncpy 128 v })
  | _ => none

/-- What an address must have when all its attributes were read; its name is never missing. -/
def carMissing (a : CarModule) : Bool := a.motherboardNumber = 0 || a.slotNumber = 0

/-- `parse_car_address_tag`; another bus gives a message only, and so does a missing module, which
is used all the same. -/
def parseCarAddressTag (n : ℕ) (props : List XmlAttr) (s : State) : Step × State :=
  match s.modld with
  | none => (.undefined, s.prnterr)
  | some m =>
    match newAddress fails n m false (s.check ((s.modls m).busType ≠ .carrier)) with
    | (false, s) => (.goes, { s with carma := none })
    | (true, s) =>
      match readProps carProps props none (⟨"", 0, 0, ""⟩, s) with
      | (.undefined, r) => (.undefined, r.2)
      | (.quit, r) => (.goes, { r.2.free (n, 0) with carma := none })
      | (.unknown, r) => (.goes, { setAddress n (.car r.1) r.2 with carma := some n })
      | (.all, r) =>
        if carMissing r.1 then (.goes, { r.2.prnterr.free (n, 0) with carma := none })
        else (.goes, { setAddress n (.car r.1) r.2 with carma := some n })

/-! ### Address spaces -/

/-- The address and the last of its spaces are used, and the new one is put behind it. -/
def addSpace (a : ℕ) (space : ℕ × AddressSpace) (s : State) : State :=
  { s with addrs := update s.addrs a { s.addrs a with spaces := (s.addrs a).spaces ++ [space] } }

/-- The new space behind the last one of an address, which is the one that was built last. -/
def newSpace (n a : ℕ) (s : State) : State :=
  useAll (((s.addrs a).spaces.getLast?.map Prod.fst).toList) ((s.malloc (n, 0)).use (a, 0))

/-- The attributes of a `pci_space` element. -/
def pciSpaceProps : Reader (PciAddressSpace × State)
  | .BAR => some (number State.check (outside 0 6) fun x p => { p with baseAddressRegister := x })
  | .ENDIAN => some (needed fun v r =>
      if v = "BIG".toList then .go ({ r.1 with endian := .big }, r.2)
      else if v = "LITTLE".toList then .go ({ r.1 with endian := .little }, r.2)
      else .go (r.1, r.2.prnterr))
  | .COMMENT => some (field fun v p => { p with comment := strncpy 128 v })
  | _ => none

/-- The case `PCI_SPACE` of `DoElement`. -/
def pciSpaceNode (n : ℕ) (props : List XmlAttr) (s : State) : Step × State :=
  match s.pcima with
  | none => giveUp s.prnterr
  | some a =>
    if fails (n, 0) then giveUp s.prnterr
    else
      match readProps pciSpaceProps props none (⟨0, 0, 0, 0, .notSet, ""⟩, newSpace n a s) with
      | (.undefined, r) => (.undefined, r.2)
      | (_, r) => (.goes, addSpace a (n, .pci r.1) r.2)

/-- The attributes of a `vme_space` element of module `m`. -/
def vmeSpaceProps (m : ℕ) : Reader (VmeAddressSpace × State)
  | .MODIFIER =>
    some (number (State.checkNaming m) (outside 0 0xff) fun x p => { p with addressModifier := x })
  | .DATA_WIDTH => some (number (State.checkNaming m) noWidth fun x p => { p with dataWidth := x })
  | .WINDOW_SIZE => some (number State.check anyNumber fun x p => { p with windowSize := x })
  | .ADDRESS => some (number State.check anyNumber fun x p => { p with baseAddress := x })
  | .FREE_FLAG => some (number State.check anyNumber fun x p => { p with freeModifierFlag := x })
  | .COMMENT => some (field fun v p => { p with comment := strncpy 128 v })
  | _ => none

/-- The messages about what a VME space must have. -/
def vmeSpaceMissing (m : ℕ) (p : VmeAddressSpace) (s : State) : State :=
  let s := s.checkNaming m (p.addressModifier = 0)
  let s := s.checkNaming m (p.dataWidth = 0)
  let s := s.checkNaming m (p.windowSize = 0)
  s.checkNaming m (p.baseAddress = 0)

/-- `add_vme_addr_space`: the first space, any other behind the first one, or a CR/CSR space in front
of the others.  The search for the last space goes to the next place in memory instead of the next
space, so that it leaves the list when that has two already. -/
def addVmeAddrSpace (a n : ℕ) (p : VmeAddressSpace) (s : State) : Step × State :=
  let s := useAll ((s.addrs a).spaces.take 1 |>.map Prod.fst) (s.use (a, 0))
  if (s.addrs a).spaces = [] then (.goes, addSpace a (n, .vme p) s)
  else if p.addressModifier ≠ 0x2f then
    if 2 ≤ (s.addrs a).spaces.length then (.undefined, s) else (.goes, addSpace a (n, .vme p) s)
  else
    (.goes, { s with
      addrs := update s.addrs a { s.addrs a with
        spaces := (n, .vme p) :: (s.addrs a).spaces } })

/-- `handle_vme_space_node`. -/
def handleVmeSpaceNode (n : ℕ) (props : List XmlAttr) (s : State) : Step × State :=
  match s.vmema, s.modld with
  | none, _ => giveUp s.prnterr
  | some _, none => giveUp s.prnterr
  | some a, some m =>
    if fails (n, 0) then giveUp s.prnterr
    else
      match readProps (vmeSpaceProps m) props none
        (⟨0, 0, 0, 0, .notSet, 0, 0, ""⟩, s.malloc (n, 0)) with
      | (.undefined, r) => (.undefined, r.2)
      | (_, r) => addVmeAddrSpace a n r.1 (vmeSpaceMissing m r.1 r.2)

/-- The comment of a carrier address. -/
def setCarComment (a : ℕ) (comment : String) (s : State) : State :=
  match (s.addrs a).fields with
  | .car carma =>
    { s with addrs := update s.addrs a { s.addrs a with
        fields := .car { carma with comment := comment } } }
  | _ => s

/-- The attributes of a `carrier_space` element; its comment goes to the address. -/
def carSpaceProps (a : ℕ) : Reader (CarAddressSpace × State)
  | .DATA_WIDTH => some (number State.check noWidth fun x p => { p with dataWidth := x })
  | .WINDOW_SIZE => some (number State.check anyNumber fun x p => { p with windowSize := x })
  | .COMMENT => some (needed fun v r => .go (r.1, setCarComment a (strncpy 128 v) r.2))
  | _ => none

/-- The case `CARRIER_SPACE` of `DoElement`. -/
def carSpaceNode (n : ℕ) (props : List XmlAttr) (s : State) : Step × State :=
  match s.carma with
  | none => giveUp s.prnterr
  | some a =>
    if fails (n, 0) then giveUp s.prnterr
    else
      match readProps (carSpaceProps a) props none (⟨0, 0, 0, 0, .notSet, ""⟩, newSpace n a s) with
      | (.undefined, r) => (.undefined, r.2)
      | (_, r) =>
        let s := (r.2.check (r.1.dataWidth = 0)).check (r.1.windowSize = 0)
        (.goes, addSpace a (n, .car r.1) s)

/-! ### The walk -/

/-- What `DoElement` does with one element before it goes to its children. -/
def element (e : Element) (s : State) : Step × State :=
  let n := s.elements
  let s := { s with elements := n + 1 }
  match e.key with
  | .INSTALL => handleInstallNode fails n e.properties s
  | .DRIVER => handleDriverNode fails n e.properties s
  | .MODULE => handleModuleNode fails n e.properties s
  | .INTERRUPT => interruptNode fails n e.properties s
  | .PCI => parsePciAddressTag fails n e.properties s
  | .PCI_SPACE => pciSpaceNode fails n e.properties s
  | .VME => parseVmeAddressTag fails n e.properties s
  | .VME_SPACE => handleVmeSpaceNode fails n e.properties s
  | .CARRIER => parseCarAddressTag fails n e.properties s
  | .CARRIER_SPACE => carSpaceNode fails n e.properties s
  | .EMPTY => (.goes, s.prnterr.prnterr)
  | _ => (.goes, s.prnterr)

/-- `DoElement`: a walk over the nodes next to each other, each with its children.  It goes on as
long as it has a host to return. -/
def doElement : XmlNode → State → Step × State
  | .null, s => (if s.hostd = none then .null else .goes, s)
  | .other children next, s =>
    match doElement children s with
    | (.goes, s) => doElement next s
    | r => r
  | .element name properties children next, s =>
    match element fails ⟨name, properties⟩ s with
    | (.goes, s) =>
      match doElement children s with
      | (.goes, s) => doElement next s
      | r => r
    | r => r

end Walk

/-- `InsLibParseInstallFile`, for the nodes that were read: the host it returns, if it returns. -/
def insLibParseInstallFile (fails : Block → Bool) (root : XmlNode) (s : State) :
    Option (Option ℕ) × State :=
  match doElement fails root s with
  | (.goes, s) => (some s.hostd, s)
  | (.null, s) => (some none, s)
  | (.undefined, s) => (none, s)

end KernelModules.Utils.Install
