import Mathlib.Tactic
import KernelModules.Utils.InstallFile

/-!
# The attributes of an install file

The loop over the attributes of an element ends at the first one that the element does not know, and
an attribute without a text gets the text of the one before.

* `Readable` says that all that the element knows is read: the attributes have texts, and none that
  is known is behind one that is not;
* `Near` are the states that differ in messages and blocks only, `Loads` says what one attribute
  does, and `readProps_loads` what the loop does;
* every field then has the value of its attribute, in whatever order they are written
  (`Readable.field`): `hostOf`, `driverOf`, `moduleOf` and so on say which.
-/

namespace KernelModules.Utils.Install

open Function

/-! ### Attributes -/

/-- The attributes that an element knows. -/
def knownAttrs : KeyWord → List KeyWord
  | .INSTALL => [.HOST, .COMMENT]
  | .DRIVER => [.NAME, .COMMENT, .INSTALL_DEBUG_LEVEL, .EMULATION_FLAG, .DRIVERGEN]
  | .MODULE => [.BUS_TYPE, .LOGICAL_MODULE_NUMBER, .EXTRA, .COMMENT, .IGNORE_INSTALL_ERRORS, .NAME]
  | .INTERRUPT => [.VECTOR, .LEVEL, .COMMENT]
  | .PCI => [.BUS_NUMBER, .SLOT_NUMBER, .VENDOR_ID, .DEVICE_ID, .SUBVENDOR_ID, .SUBDEVICE_ID,
      .COMMENT]
  | .PCI_SPACE => [.BAR, .ENDIAN, .COMMENT]
  | .VME => [.COMMENT]
  | .VME_SPACE => [.MODIFIER, .DATA_WIDTH, .WINDOW_SIZE, .ADDRESS, .FREE_FLAG, .COMMENT]
  | .CARRIER => [.DRVR_NAME, .MOTHERBOARD_NUMBER, .SLOT_NUMBER, .COMMENT]
  | .CARRIER_SPACE => [.DATA_WIDTH, .WINDOW_SIZE, .COMMENT]
  | _ => []

/-- The text of an attribute. -/
def value (k : KeyWord) (props : List XmlAttr) : Option Text :=
  (props.find? fun a => lookUp a.name = k).bind XmlAttr.value

/-- The attributes that the loop gets to. -/
def front (known : List KeyWord) (props : List XmlAttr) : List XmlAttr :=
  props.takeWhile fun a => lookUp a.name ∈ known

/-- Attributes that are read in full: no name comes twice, those whose text is needed have one, and
none that is known is behind one that is not. -/
structure Readable (known : List KeyWord) (props : List XmlAttr) : Prop where
  once : (props.map XmlAttr.name).Nodup
  given : ∀ a ∈ props, lookUp a.name ∈ known → lookUp a.name ≠ .IGNORE_INSTALL_ERRORS →
    a.value ≠ none
  inFront : ∀ a ∈ props.dropWhile fun a => lookUp a.name ∈ known, lookUp a.name ∉ known

namespace Readable

variable {known : List KeyWord} {a : XmlAttr} {props : List XmlAttr}

theorem tail (h : Readable known (a :: props)) (ha : lookUp a.name ∈ known) :
    Readable known props where
  once := (List.nodup_cons.mp h.once).2
  given b hb := h.given b (List.mem_cons_of_mem _ hb)
  inFront b hb := h.inFront b (by rwa [List.dropWhile_cons_of_pos (by simpa using ha)])

theorem find_front (h : Readable known props) {k : KeyWord} (hk : k ∈ known) :
    (front known props).find? (fun a => lookUp a.name = k) =
      props.find? fun a => lookUp a.name = k := by
  have hrest : (props.dropWhile fun a => lookUp a.name ∈ known).find?
      (fun a => lookUp a.name = k) = none :=
    List.find?_eq_none.mpr fun a ha heq => h.inFront a ha (by
      rw [of_decide_eq_true heq]
      exact hk)
  conv_rhs =>
    rw [← List.takeWhile_append_dropWhile (p := fun a => lookUp a.name ∈ known) (l := props),
      List.find?_append, hrest, Option.or_none]
  rfl

end Readable

/-- The number of a text. -/
def toNumber (v : Text) : BitVec 32 := (Mttn.strtoulText v).1.setWidth 32

/-! ### The loop over the attributes -/

/-- The state after messages, allocations and frees, with everything else as it was. -/
structure Near (s s' : State) : Prop where
  errors : s.errors ≤ s'.errors
  rest : s' = { s with errors := s'.errors, live := s'.live, faults := s'.faults }

namespace Near

variable {s s' s'' : State}

theorem refl (s : State) : Near s s := ⟨le_rfl, rfl⟩

theorem trans (h : Near s s') (h' : Near s' s'') : Near s s'' := by
  refine ⟨h.errors.trans h'.errors, ?_⟩
  rw [h'.rest, h.rest]

theorem map {f : State → State} (h : Near s s') (hf : ∀ (s : State) e l x,
    f { s with errors := e, live := l, faults := x } =
      { f s with errors := e, live := l, faults := x }) :
    Near (f s) (f s') := by
  have herrors : ∀ s : State, (f s).errors = s.errors := by
    intro s
    have hsame := congrArg State.errors (hf s s.errors s.live s.faults)
    exact hsame
  have hs' : f s' = { f s with errors := s'.errors, live := s'.live, faults := s'.faults } := by
    rw [← hf, ← h.rest]
  refine ⟨?_, by rw [hs']⟩
  rw [herrors, herrors]
  exact h.errors

theorem prnterr (s : State) : Near s s.prnterr := ⟨Nat.le_succ _, rfl⟩

theorem check (s : State) (bad : Bool) : Near s (s.check bad) := by
  cases bad with
  | true => exact .prnterr s
  | false => exact .refl s

theorem use (s : State) (b : Block) : Near s (s.use b) := by
  unfold State.use
  split
  · exact .refl s
  · exact ⟨le_rfl, rfl⟩

theorem checkNaming (m : ℕ) (s : State) (bad : Bool) : Near s (s.checkNaming m bad) := by
  cases bad with
  | true => exact (use s _).trans (.prnterr _)
  | false => exact .refl s

theorem malloc (s : State) (b : Block) : Near s (s.malloc b) := ⟨le_rfl, rfl⟩

theorem useAll (blocks : List ℕ) (s : State) : Near s (useAll blocks s) := by
  induction blocks generalizing s with
  | nil => exact .refl s
  | cons b blocks ih => exact (use s _).trans (ih _)

end Near

/-- The state of the loop. -/
def Next.state {σ : Type} : Next σ → σ
  | .go s => s
  | .quit s => s

/-- What an element does with the attribute `k`: a message, or the field gets its value. -/
structure Loads {α : Type} (k : KeyWord) (f : Option Text → α × State → Option (Next (α × State)))
    (apply : Text → α → α) : Prop where
  missing : k ≠ .IGNORE_INSTALL_ERRORS → ∀ r, f none r = none
  given : ∀ v, (k ≠ .IGNORE_INSTALL_ERRORS → v ≠ none) → ∀ r, ∃ next, f v r = some next ∧
    Near r.2 next.state.2 ∧
      (next.state.2.errors = r.2.errors → ∃ r', next = .go r' ∧ r'.1 = apply (v.getD []) r.1)

theorem getNumber_near (v : Text) (s : State) : Near s (getNumber v s).2 := .check _ _

section Loads

variable {α : Type} {k : KeyWord} (hk : k ≠ .IGNORE_INSTALL_ERRORS)
include hk

theorem loads_needed {f : Text → α × State → Next (α × State)} {apply : Text → α → α}
    (h : ∀ v r, Near r.2 (f v r).state.2 ∧ ((f v r).state.2.errors = r.2.errors →
      ∃ r', f v r = .go r' ∧ r'.1 = apply v r.1)) : Loads k (needed f) apply where
  missing _ _ := rfl
  given v hv r := by
    obtain ⟨t, rfl⟩ := Option.ne_none_iff_exists'.mp (hv hk)
    exact ⟨f t r, rfl, h t r⟩

theorem loads_field (f : Text → α → α) : Loads k (field f) f :=
  loads_needed hk fun _ r => ⟨.refl r.2, fun _ => ⟨_, rfl, rfl⟩⟩

theorem loads_number {check : State → Bool → State} (hcheck : ∀ s b, Near s (check s b))
    (bad : BitVec 32 → Bool) (f : BitVec 32 → α → α) :
    Loads k (number check bad f) fun v => f (toNumber v) :=
  loads_needed hk fun v r =>
    ⟨(getNumber_near v r.2).trans (hcheck _ _), fun _ => ⟨_, rfl, rfl⟩⟩

theorem loads_numberOrQuit (bad : BitVec 32 → Bool) (f : BitVec 32 → α → α) :
    Loads k (numberOrQuit bad f) fun v => f (toNumber v) := by
  refine loads_needed hk fun v r => ?_
  have hnear := getNumber_near v r.2
  dsimp only
  split
  · refine ⟨hnear.trans (.prnterr _), fun h => ?_⟩
    have hle := hnear.errors
    have hsucc : (getNumber v r.2).2.errors + 1 = r.2.errors := h
    omega
  · exact ⟨hnear, fun _ => ⟨_, rfl, rfl⟩⟩

end Loads

/-- A reader whose attributes `keys` go into fields, by `apply`. -/
structure Fields {α : Type} (reader : Reader (α × State)) (known keys : List KeyWord)
    (apply : KeyWord → Text → α → α) : Prop where
  unknown : ∀ k ∉ known, reader k = none
  loads : ∀ k ∈ keys, ∃ f, reader k = some f ∧ Loads k f (apply k)
  flag : ∀ v v' x, apply .IGNORE_INSTALL_ERRORS v x = apply .IGNORE_INSTALL_ERRORS v' x

/-- The fields that attributes fill. -/
def fill {α : Type} (apply : KeyWord → Text → α → α) (props : List XmlAttr) (x : α) : α :=
  props.foldl (fun x a => apply (lookUp a.name) (a.value.getD []) x) x

theorem readProps_rel {σ : Type} {reader : Reader σ} {R : σ → σ → Prop} (hrefl : ∀ s, R s s)
    (htrans : ∀ {s s' s''}, R s s' → R s' s'' → R s s'')
    (hstep : ∀ k f, reader k = some f → ∀ v s next, f v s = some next → R s next.state)
    (props : List XmlAttr) (pvalu : Option Text) (s : σ) :
    R s (readProps reader props pvalu s).2 := by
  induction props generalizing pvalu s with
  | nil => exact hrefl s
  | cons a props ih =>
    rw [readProps]
    cases hf : reader (lookUp a.name) with
    | none => exact hrefl s
    | some f =>
      dsimp only
      cases hnext : f (a.value.or pvalu) s with
      | none => exact hrefl s
      | some next =>
        have hone := hstep _ f hf _ _ _ hnext
        cases next with
        | quit s' => exact hone
        | go s' => exact htrans hone (ih _ _)

theorem Loads.near {α : Type} {k : KeyWord} {f : Option Text → α × State → Option (Next (α × State))}
    {apply : Text → α → α} (h : Loads k f apply) {v : Option Text} {r : α × State}
    {next : Next (α × State)} (hnext : f v r = some next) : Near r.2 next.state.2 := by
  have hv : k ≠ .IGNORE_INSTALL_ERRORS → v ≠ none := by
    rintro hk rfl
    rw [h.missing hk] at hnext
    cases hnext
  obtain ⟨next', heq, hnear, -⟩ := h.given v hv r
  rw [hnext] at heq
  cases heq
  exact hnear

theorem readProps_near {α : Type} {reader : Reader (α × State)} {known : List KeyWord}
    {apply : KeyWord → Text → α → α} (hfields : Fields reader known known apply)
    (props : List XmlAttr) (pvalu : Option Text) (r : α × State) :
    Near r.2 (readProps reader props pvalu r).2.2 := by
  refine readProps_rel (R := fun r r' : α × State => Near r.2 r'.2) (fun r => .refl r.2)
    (fun h h' => h.trans h') (fun k f hf v r next hnext => ?_) props pvalu r
  by_cases hk : k ∈ known
  · obtain ⟨f', hf', hloads⟩ := hfields.loads k hk
    rw [hf] at hf'
    cases hf'
    exact hloads.near hnext
  · rw [hfields.unknown k hk] at hf
    cases hf

theorem readProps_loads {α : Type} {reader : Reader (α × State)} {known keys : List KeyWord}
    {apply : KeyWord → Text → α → α} (hfields : Fields reader known keys apply)
    {props : List XmlAttr} (hread : Readable known props)
    (hkeys : ∀ a ∈ props, lookUp a.name ∈ known → lookUp a.name ∈ keys) (pvalu : Option Text)
    (x : α) (s : State) :
    (readProps reader props pvalu (x, s)).1 ≠ .undefined ∧
      Near s (readProps reader props pvalu (x, s)).2.2 ∧
      ((readProps reader props pvalu (x, s)).2.2.errors = s.errors →
        (readProps reader props pvalu (x, s)).1 ≠ .quit ∧
          (readProps reader props pvalu (x, s)).2.1 = fill apply (front known props) x) := by
  induction props generalizing pvalu x s with
  | nil => exact ⟨nofun, .refl s, fun _ => ⟨nofun, rfl⟩⟩
  | cons a props ih =>
    by_cases hknown : lookUp a.name ∈ known
    · obtain ⟨f, hf, hloads⟩ := hfields.loads _ (hkeys a List.mem_cons_self hknown)
      have hgiven := hread.given a List.mem_cons_self hknown
      have hvalue : lookUp a.name ≠ .IGNORE_INSTALL_ERRORS → a.value.or pvalu = a.value := by
        intro hne
        obtain ⟨v, hv⟩ := Option.ne_none_iff_exists'.mp (hgiven hne)
        rw [hv, Option.some_or]
      have happly : apply (lookUp a.name) ((a.value.or pvalu).getD []) x =
          apply (lookUp a.name) (a.value.getD []) x := by
        by_cases hflag : lookUp a.name = .IGNORE_INSTALL_ERRORS
        · rw [hflag]
          exact hfields.flag _ _ _
        · rw [hvalue hflag]
      obtain ⟨next, hnext, hnear, hgo⟩ := hloads.given (a.value.or pvalu)
        (fun hne => by
          rw [hvalue hne]
          exact hgiven hne) (x, s)
      have hfront : front known (a :: props) = a :: front known props :=
        List.takeWhile_cons_of_pos (by simpa using hknown)
      rw [readProps, hf]
      dsimp only
      rw [hnext]
      cases next with
      | quit r =>
        refine ⟨nofun, hnear, fun h => ?_⟩
        obtain ⟨_, heq, _⟩ := hgo h
        cases heq
      | go r =>
        obtain ⟨x', s'⟩ := r
        obtain ⟨hdefined, hnear', hrest⟩ := ih (hread.tail hknown)
          (fun b hb => hkeys b (List.mem_cons_of_mem _ hb)) (a.value.or pvalu) x' s'
        refine ⟨hdefined, hnear.trans hnear', fun h => ?_⟩
        have hle := hnear'.errors
        have hle' : s.errors ≤ s'.errors := hnear.errors
        obtain ⟨r', heq, happ⟩ := hgo (by
          show s'.errors = s.errors
          have hall : (readProps reader props (a.value.or pvalu) (x', s')).2.2.errors = s.errors := h
          omega)
        cases heq
        obtain ⟨hend, hx⟩ := hrest (by
          have hall : (readProps reader props (a.value.or pvalu) (x', s')).2.2.errors = s.errors := h
          have hsame : s'.errors = s.errors := by omega
          rw [hsame]
          exact hall)
        refine ⟨hend, ?_⟩
        rw [hx, hfront, fill, fill, List.foldl_cons, ← happly]
        exact congrArg (fun y => List.foldl _ y (front known props)) happ
    · rw [readProps, hfields.unknown _ hknown]
      refine ⟨nofun, .refl s, fun _ => ⟨nofun, ?_⟩⟩
      rw [front, List.takeWhile_cons_of_neg (by simpa using hknown)]
      rfl

/-! ### Every field has the value of its attribute -/

theorem lookUp_inj {name name' : Text} (hname : lookUp name ≠ .EMPTY)
    (h : lookUp name' = lookUp name) : name' = name := by
  have hone : ∀ n : Text, lookUp n ≠ .EMPTY → (lookUp n, n) ∈ keywords := by
    intro n hn
    unfold lookUp at hn ⊢
    cases hfind : keywords.find? fun k => k.2 == n with
    | none => simp [hfind] at hn
    | some p =>
      have hp : p.2 = n := by simpa using List.find?_some hfind
      rw [← hp]
      exact List.mem_of_find?_eq_some hfind
  have hkeys : (keywords.map Prod.fst).Nodup := by decide
  have hmem := hone name hname
  have hmem' := hone name' (h ▸ hname)
  rw [h] at hmem'
  exact (Prod.mk.inj (List.inj_on_of_nodup_map hkeys hmem' hmem rfl)).2

section Fill

variable {α β : Type} {apply : KeyWord → Text → α → α} {π : α → β}

theorem fill_other {k : KeyWord} (hother : ∀ k' ≠ k, ∀ v x, π (apply k' v x) = π x)
    {props : List XmlAttr} (hno : ∀ a ∈ props, lookUp a.name ≠ k) (x : α) :
    π (fill apply props x) = π x := by
  induction props generalizing x with
  | nil => rfl
  | cons a props ih =>
    rw [fill, List.foldl_cons]
    exact (ih (fun b hb => hno b (List.mem_cons_of_mem _ hb)) _).trans
      (hother _ (hno a List.mem_cons_self) _ _)

theorem fill_same (hsame : ∀ k v x, π (apply k v x) = π x) (props : List XmlAttr) (x : α) :
    π (fill apply props x) = π x := by
  induction props generalizing x with
  | nil => rfl
  | cons a props ih => exact (ih _).trans (hsame _ _ _)

theorem fill_field {k : KeyWord} (hk : k ≠ .EMPTY) {g : Text → β}
    (hfield : ∀ v x, π (apply k v x) = g v)
    (hother : ∀ k' ≠ k, ∀ v x, π (apply k' v x) = π x) {props : List XmlAttr}
    (honce : (props.map XmlAttr.name).Nodup) (x : α) :
    π (fill apply props x) =
      ((props.find? fun a => lookUp a.name = k).map fun a => g (a.value.getD [])).getD (π x) := by
  induction props generalizing x with
  | nil => rfl
  | cons a props ih =>
    rw [List.map_cons, List.nodup_cons] at honce
    rw [fill, List.foldl_cons]
    by_cases ha : lookUp a.name = k
    · have hno : ∀ b ∈ props, lookUp b.name ≠ k := by
        intro b hb heq
        have hname := lookUp_inj (ha.symm ▸ hk) (heq.trans ha.symm)
        exact honce.1 (hname ▸ List.mem_map_of_mem hb)
      rw [List.find?_cons_of_pos (by simpa using ha)]
      subst ha
      exact (fill_other hother hno _).trans (hfield _ _)
    · rw [List.find?_cons_of_neg (by simpa using ha), ← hother _ ha (a.value.getD []) x]
      exact ih honce.2 _

theorem Readable.field {known : List KeyWord} {props : List XmlAttr} (h : Readable known props)
    {k : KeyWord} (hknown : k ∈ known) (hk : k ≠ .EMPTY) (hflag : k ≠ .IGNORE_INSTALL_ERRORS)
    {g : Text → β} (hfield : ∀ v x, π (apply k v x) = g v)
    (hother : ∀ k' ≠ k, ∀ v x, π (apply k' v x) = π x) (x : α) :
    π (fill apply (front known props) x) = ((value k props).map g).getD (π x) := by
  have honce : ((front known props).map XmlAttr.name).Nodup :=
    h.once.sublist ((List.takeWhile_sublist _).map _)
  rw [fill_field hk hfield hother honce, h.find_front hknown, value]
  cases hfind : props.find? fun a => lookUp a.name = k with
  | none => rfl
  | some a =>
    have ha : lookUp a.name = k := by simpa using List.find?_some hfind
    obtain ⟨v, hv⟩ := Option.ne_none_iff_exists'.mp
      (h.given a (List.mem_of_find?_eq_some hfind) (ha ▸ hknown) (ha ▸ hflag))
    rw [Option.map_some, Option.bind_some, hv]
    rfl

theorem Readable.flag {known : List KeyWord} {props : List XmlAttr} (h : Readable known props)
    (hknown : .IGNORE_INSTALL_ERRORS ∈ known) {b : β}
    (hfield : ∀ v x, π (apply .IGNORE_INSTALL_ERRORS v x) = b)
    (hother : ∀ k' ≠ .IGNORE_INSTALL_ERRORS, ∀ v x, π (apply k' v x) = π x) (x : α) :
    π (fill apply (front known props) x) =
      if props.any fun a => lookUp a.name = .IGNORE_INSTALL_ERRORS then b else π x := by
  have honce : ((front known props).map XmlAttr.name).Nodup :=
    h.once.sublist ((List.takeWhile_sublist _).map _)
  rw [fill_field (by decide) hfield hother honce, h.find_front hknown]
  cases hfind : props.find? fun a => lookUp a.name = .IGNORE_INSTALL_ERRORS with
  | none =>
    have hany : (props.any fun a => lookUp a.name = .IGNORE_INSTALL_ERRORS) = false := by
      simpa using hfind
    rw [hany]
    rfl
  | some a =>
    have hany : (props.any fun a => lookUp a.name = .IGNORE_INSTALL_ERRORS) = true :=
      List.any_eq_true.mpr ⟨a, List.mem_of_find?_eq_some hfind, by simpa using List.find?_some hfind⟩
    rw [hany]
    rfl

end Fill

/-! ### What the attributes of each element say -/

attribute [ext] InsLibHostDesc InsLibDrvrDesc InsLibModlDesc IntrDesc PciModule VmeModule CarModule
  PciAddressSpace VmeAddressSpace CarAddressSpace

/-- A text of up to `n` characters. -/
def text (n : ℕ) (k : KeyWord) (props : List XmlAttr) : String :=
  ((value k props).map (strncpy n)).getD ""

/-- A number. -/
def numeric (k : KeyWord) (props : List XmlAttr) : BitVec 32 :=
  ((value k props).map toNumber).getD 0

/-- The host of an `install` element. -/
def hostOf (props : List XmlAttr) : InsLibHostDesc :=
  ⟨text 32 .HOST props, text 128 .COMMENT props, []⟩

/-- Whether a driver was generated. -/
def isdgOf (v : Text) : ℤ := if v.head? = some 'y' then 1 else 0

/-- The driver of a `driver` element. -/
def driverOf (props : List XmlAttr) : InsLibDrvrDesc :=
  ⟨text 32 .NAME props, numeric .INSTALL_DEBUG_LEVEL props, numeric .EMULATION_FLAG props,
    text 128 .COMMENT props, ((value .DRIVERGEN props).map isdgOf).getD (-1), 0, []⟩

/-- A module without the block of its extra parameters. -/
def InsLibModlDesc.plain (m : InsLibModlDesc) : InsLibModlDesc :=
  { m with extra := m.extra.map fun x => ((0, 0), x.2) }

/-- The module of a `module` element. -/
def moduleOf (props : List XmlAttr) : InsLibModlDesc where
  busType := ((value .BUS_TYPE props).map fun v => (busTypeOf v).getD .notSet).getD .notSet
  moduleNumber := numeric .LOGICAL_MODULE_NUMBER props
  ignoreErrors := if props.any fun a => lookUp a.name = .IGNORE_INSTALL_ERRORS then 1 else 0
  extra := (value .EXTRA props).map fun v => ((0, 0), String.ofList v)
  comment := text 128 .COMMENT props
  moduleName := text 32 .NAME props
  isr := none
  moduleAddress := none

/-- The interrupt of an `interrupt` element. -/
def intrOf (props : List XmlAttr) : IntrDesc :=
  ⟨1, numeric .VECTOR props, numeric .LEVEL props, text 128 .COMMENT props⟩

/-- The address of a `pci` element. -/
def pciOf (props : List XmlAttr) : PciModule :=
  ⟨numeric .BUS_NUMBER props, numeric .SLOT_NUMBER props, numeric .VENDOR_ID props,
    numeric .DEVICE_ID props, numeric .SUBVENDOR_ID props, numeric .SUBDEVICE_ID props,
    text 128 .COMMENT props⟩

/-- The address of a `vme` element. -/
def vmeOf (props : List XmlAttr) : VmeModule := ⟨text 128 .COMMENT props⟩

/-- The address of a `carrier` element. -/
def carOf (props : List XmlAttr) : CarModule :=
  ⟨text 32 .DRVR_NAME props, numeric .MOTHERBOARD_NUMBER props, numeric .SLOT_NUMBER props,
    text 128 .COMMENT props⟩

/-- The order of bytes of a space. -/
def endianOf (v : Text) : Endian :=
  if v = "BIG".toList then .big else if v = "LITTLE".toList then .little else .notSet

/-- The space of a `pci_space` element. -/
def pciSpaceOf (props : List XmlAttr) : PciAddressSpace :=
  ⟨0, numeric .BAR props, 0, 0, ((value .ENDIAN props).map endianOf).getD .notSet,
    text 128 .COMMENT props⟩

/-- The space of a `vme_space` element. -/
def vmeSpaceOf (props : List XmlAttr) : VmeAddressSpace :=
  ⟨0, numeric .MODIFIER props, numeric .WINDOW_SIZE props, numeric .DATA_WIDTH props, .notSet,
    numeric .ADDRESS props, numeric .FREE_FLAG props, text 128 .COMMENT props⟩

/-- The space of a `carrier_space` element. -/
def carSpaceOf (props : List XmlAttr) : CarAddressSpace :=
  ⟨0, 0, numeric .DATA_WIDTH props, numeric .WINDOW_SIZE props, .notSet, text 128 .COMMENT props⟩

/-! ### The loop fills in what the attributes say -/

section Elements

variable {props : List XmlAttr}

theorem loads_endian : Loads .ENDIAN (needed fun v (r : PciAddressSpace × State) =>
      if v = "BIG".toList then .go ({ r.1 with endian := .big }, r.2)
      else if v = "LITTLE".toList then .go ({ r.1 with endian := .little }, r.2)
      else .go (r.1, r.2.prnterr)) fun v p => { p with endian := endianOf v } := by
  refine loads_needed (by decide) fun v r => ?_
  unfold endianOf
  split
  · exact ⟨.refl _, fun _ => ⟨_, rfl, rfl⟩⟩
  · split
    · exact ⟨.refl _, fun _ => ⟨_, rfl, rfl⟩⟩
    · exact ⟨.prnterr _, fun h => absurd h (Nat.succ_ne_self _)⟩

/-- The fields of a host. -/
def hostApply : KeyWord → Text → InsLibHostDesc → InsLibHostDesc
  | .HOST, v, h => { h with hostName := strncpy 32 v }
  | .COMMENT, v, h => { h with comment := strncpy 128 v }
  | _, _, h => h

theorem hostFields : Fields installProps (knownAttrs .INSTALL) (knownAttrs .INSTALL) hostApply where
  unknown k hk := by
    cases k <;> first | rfl | exact absurd (by decide) hk
  loads k hk := by
    simp only [knownAttrs, List.mem_cons, List.not_mem_nil, or_false] at hk
    obtain rfl | rfl := hk
    · exact ⟨_, rfl, loads_field (by decide) _⟩
    · exact ⟨_, rfl, loads_field (by decide) _⟩
  flag _ _ _ := rfl

theorem fill_host (h : Readable (knownAttrs .INSTALL) props) :
    fill hostApply (front (knownAttrs .INSTALL) props) ⟨"", "", []⟩ = hostOf props := by
  ext1
  · exact h.field (k := .HOST) (by decide) (by decide) (by decide) (fun _ _ => rfl)
      (fun k' hk v x => by cases k' <;> first | rfl | exact absurd rfl hk) _
  · exact h.field (k := .COMMENT) (by decide) (by decide) (by decide) (fun _ _ => rfl)
      (fun k' hk v x => by cases k' <;> first | rfl | exact absurd rfl hk) _
  · exact fill_same (fun k v x => by cases k <;> rfl) _ _

/-- The fields of a driver. -/
def driverApply : KeyWord → Text → InsLibDrvrDesc → InsLibDrvrDesc
  | .NAME, v, d => { d with drvrName := strncpy 32 v }
  | .INSTALL_DEBUG_LEVEL, v, d => { d with debugFlags := toNumber v }
  | .EMULATION_FLAG, v, d => { d with emulationFlags := toNumber v }
  | .COMMENT, v, d => { d with comment := strncpy 128 v }
  | .DRIVERGEN, v, d => { d with isdg := isdgOf v }
  | _, _, d => d

theorem driverFields :
    Fields driverProps (knownAttrs .DRIVER) (knownAttrs .DRIVER) driverApply where
  unknown k hk := by
    cases k <;> first | rfl | exact absurd (by decide) hk
  loads k hk := by
    simp only [knownAttrs, List.mem_cons, List.not_mem_nil, or_false] at hk
    obtain rfl | rfl | rfl | rfl | rfl := hk
    · exact ⟨_, rfl, loads_field (by decide) _⟩
    · exact ⟨_, rfl, loads_field (by decide) _⟩
    · exact ⟨_, rfl, loads_number (by decide) Near.check _ _⟩
    · exact ⟨_, rfl, loads_number (by decide) Near.check _ _⟩
    · exact ⟨_, rfl, loads_field (by decide) _⟩
  flag _ _ _ := rfl

theorem fill_driver (h : Readable (knownAttrs .DRIVER) props) :
    fill driverApply (front (knownAttrs .DRIVER) props) ⟨"", 0, 0, "", -1, 0, []⟩ =
      driverOf props := by
  ext1
  · exact h.field (k := .NAME) (by decide) (by decide) (by decide) (fun _ _ => rfl)
      (fun k' hk v x => by cases k' <;> first | rfl | exact absurd rfl hk) _
  · exact h.field (k := .INSTALL_DEBUG_LEVEL) (by decide) (by decide) (by decide) (fun _ _ => rfl)
      (fun k' hk v x => by cases k' <;> first | rfl | exact absurd rfl hk) _
  · exact h.field (k := .EMULATION_FLAG) (by decide) (by decide) (by decide) (fun _ _ => rfl)
      (fun k' hk v x => by cases k' <;> first | rfl | exact absurd rfl hk) _
  · exact h.field (k := .COMMENT) (by decide) (by decide) (by decide) (fun _ _ => rfl)
      (fun k' hk v x => by cases k' <;> first | rfl | exact absurd rfl hk) _
  · exact h.field (k := .DRIVERGEN) (by decide) (by decide) (by decide) (fun _ _ => rfl)
      (fun k' hk v x => by cases k' <;> first | rfl | exact absurd rfl hk) _
  · exact fill_same (fun k v x => by cases k <;> rfl) _ _
  · exact fill_same (fun k v x => by cases k <;> rfl) _ _

/-- The fields of an interrupt. -/
def intrApply : KeyWord → Text → IntrDesc → IntrDesc
  | .VECTOR, v, i => { i with vector := toNumber v }
  | .LEVEL, v, i => { i with level := toNumber v }
  | .COMMENT, v, i => { i with comment := strncpy 128 v }
  | _, _, i => i

theorem intrFields :
    Fields interruptProps (knownAttrs .INTERRUPT) (knownAttrs .INTERRUPT) intrApply where
  unknown k hk := by
    cases k <;> first | rfl | exact absurd (by decide) hk
  loads k hk := by
    simp only [knownAttrs, List.mem_cons, List.not_mem_nil, or_false] at hk
    obtain rfl | rfl | rfl := hk
    · exact ⟨_, rfl, loads_number (by decide) Near.check _ _⟩
    · exact ⟨_, rfl, loads_number (by decide) Near.check _ _⟩
    · exact ⟨_, rfl, loads_field (by decide) _⟩
  flag _ _ _ := rfl

theorem fill_intr (h : Readable (knownAttrs .INTERRUPT) props) :
    fill intrApply (front (knownAttrs .INTERRUPT) props) ⟨1, 0, 0, ""⟩ = intrOf props := by
  ext1
  · exact fill_same (fun k v x => by cases k <;> rfl) _ _
  · exact h.field (k := .VECTOR) (by decide) (by decide) (by decide) (fun _ _ => rfl)
      (fun k' hk v x => by cases k' <;> first | rfl | exact absurd rfl hk) _
  · exact h.field (k := .LEVEL) (by decide) (by decide) (by decide) (fun _ _ => rfl)
      (fun k' hk v x => by cases k' <;> first | rfl | exact absurd rfl hk) _
  · exact h.field (k := .COMMENT) (by decide) (by decide) (by decide) (fun _ _ => rfl)
      (fun k' hk v x => by cases k' <;> first | rfl | exact absurd rfl hk) _

/-- The fields of a PCI address. -/
def pciApply : KeyWord → Text → PciModule → PciModule
  | .BUS_NUMBER, v, a => { a with busNumber := toNumber v }
  | .SLOT_NUMBER, v, a => { a with slotNumber := toNumber v }
  | .VENDOR_ID, v, a => { a with vendorId := toNumber v }
  | .DEVICE_ID, v, a => { a with deviceId := toNumber v }
  | .SUBVENDOR_ID, v, a => { a with subVendorId := toNumber v }
  | .SUBDEVICE_ID, v, a => { a with subDeviceId := toNumber v }
  | .COMMENT, v, a => { a with comment := strncpy 128 v }
  | _, _, a => a

theorem pciFields : Fields pciProps (knownAttrs .PCI) (knownAttrs .PCI) pciApply where
  unknown k hk := by
    cases k <;> first | rfl | exact absurd (by decide) hk
  loads k hk := by
    simp only [knownAttrs, List.mem_cons, List.not_mem_nil, or_false] at hk
    obtain rfl | rfl | rfl | rfl | rfl | rfl | rfl := hk
    · exact ⟨_, rfl, loads_numberOrQuit (by decide) _ _⟩
    · exact ⟨_, rfl, loads_numberOrQuit (by decide) _ _⟩
    · exact ⟨_, rfl, loads_number (by decide) Near.check _ _⟩
    · exact ⟨_, rfl, loads_number (by decide) Near.check _ _⟩
    · exact ⟨_, rfl, loads_number (by decide) Near.check _ _⟩
    · exact ⟨_, rfl, loads_number (by decide) Near.check _ _⟩
    · exact ⟨_, rfl, loads_field (by decide) _⟩
  flag _ _ _ := rfl

theorem fill_pci (h : Readable (knownAttrs .PCI) props) :
    fill pciApply (front (knownAttrs .PCI) props) ⟨0, 0, 0, 0, 0, 0, ""⟩ = pciOf props := by
  ext1
  · exact h.field (k := .BUS_NUMBER) (by decide) (by decide) (by decide) (fun _ _ => rfl)
      (fun k' hk v x => by cases k' <;> first | rfl | exact absurd rfl hk) _
  · exact h.field (k := .SLOT_NUMBER) (by decide) (by decide) (by decide) (fun _ _ => rfl)
      (fun k' hk v x => by cases k' <;> first | rfl | exact absurd rfl hk) _
  · exact h.field (k := .VENDOR_ID) (by decide) (by decide) (by decide) (fun _ _ => rfl)
      (fun k' hk v x => by cases k' <;> first | rfl | exact absurd rfl hk) _
  · exact h.field (k := .DEVICE_ID) (by decide) (by decide) (by decide) (fun _ _ => rfl)
      (fun k' hk v x => by cases k' <;> first | rfl | exact absurd rfl hk) _
  · exact h.field (k := .SUBVENDOR_ID) (by decide) (by decide) (by decide) (fun _ _ => rfl)
      (fun k' hk v x => by cases k' <;> first | rfl | exact absurd rfl hk) _
  · exact h.field (k := .SUBDEVICE_ID) (by decide) (by decide) (by decide) (fun _ _ => rfl)
      (fun k' hk v x => by cases k' <;> first | rfl | exact absurd rfl hk) _
  · exact h.field (k := .COMMENT) (by decide) (by decide) (by decide) (fun _ _ => rfl)
      (fun k' hk v x => by cases k' <;> first | rfl | exact absurd rfl hk) _

/-- The fields of a VME address. -/
def vmeApply : KeyWord → Text → VmeModule → VmeModule
  | .COMMENT, v, a => { a with comment := strncpy 128 v }
  | _, _, a => a

theorem vmeFields : Fields vmeProps (knownAttrs .VME) (knownAttrs .VME) vmeApply where
  unknown k hk := by
    cases k <;> first | rfl | exact absurd (by decide) hk
  loads k hk := by
    simp only [knownAttrs, List.mem_cons, List.not_mem_nil, or_false] at hk
    subst hk
    exact ⟨_, rfl, loads_field (by decide) _⟩
  flag _ _ _ := rfl

theorem fill_vme (h : Readable (knownAttrs .VME) props) :
    fill vmeApply (front (knownAttrs .VME) props) ⟨""⟩ = vmeOf props := by
  ext1
  exact h.field (k := .COMMENT) (by decide) (by decide) (by decide) (fun _ _ => rfl)
    (fun k' hk v x => by cases k' <;> first | rfl | exact absurd rfl hk) _

/-- The fields of a carrier address. -/
def carApply : KeyWord → Text → CarModule → CarModule
  | .DRVR_NAME, v, a => { a with driverName := strncpy 32 v }
  | .MOTHERBOARD_NUMBER, v, a => { a with motherboardNumber := toNumber v }
  | .SLOT_NUMBER, v, a => { a with slotNumber := toNumber v }
  | .COMMENT, v, a => { a with comment := strncpy 128 v }
  | _, _, a => a

theorem carFields : Fields carProps (knownAttrs .CARRIER) (knownAttrs .CARRIER) carApply where
  unknown k hk := by
    cases k <;> first | rfl | exact absurd (by decide) hk
  loads k hk := by
    simp only [knownAttrs, List.mem_cons, List.not_mem_nil, or_false] at hk
    obtain rfl | rfl | rfl | rfl := hk
    · exact ⟨_, rfl, loads_field (by decide) _⟩
    · exact ⟨_, rfl, loads_numberOrQuit (by decide) _ _⟩
    · exact ⟨_, rfl, loads_numberOrQuit (by decide) _ _⟩
    · exact ⟨_, rfl, loads_field (by decide) _⟩
  flag _ _ _ := rfl

theorem fill_car (h : Readable (knownAttrs .CARRIER) props) :
    fill carApply (front (knownAttrs .CARRIER) props) ⟨"", 0, 0, ""⟩ = carOf props := by
  ext1
  · exact h.field (k := .DRVR_NAME) (by decide) (by decide) (by decide) (fun _ _ => rfl)
      (fun k' hk v x => by cases k' <;> first | rfl | exact absurd rfl hk) _
  · exact h.field (k := .MOTHERBOARD_NUMBER) (by decide) (by decide) (by decide) (fun _ _ => rfl)
      (fun k' hk v x => by cases k' <;> first | rfl | exact absurd rfl hk) _
  · exact h.field (k := .SLOT_NUMBER) (by decide) (by decide) (by decide) (fun _ _ => rfl)
      (fun k' hk v x => by cases k' <;> first | rfl | exact absurd rfl hk) _
  · exact h.field (k := .COMMENT) (by decide) (by decide) (by decide) (fun _ _ => rfl)
      (fun k' hk v x => by cases k' <;> first | rfl | exact absurd rfl hk) _

/-- The fields of a PCI space. -/
def pciSpaceApply : KeyWord → Text → PciAddressSpace → PciAddressSpace
  | .BAR, v, p => { p with baseAddressRegister := toNumber v }
  | .ENDIAN, v, p => { p with endian := endianOf v }
  | .COMMENT, v, p => { p with comment := strncpy 128 v }
  | _, _, p => p

theorem pciSpaceFields :
    Fields pciSpaceProps (knownAttrs .PCI_SPACE) (knownAttrs .PCI_SPACE) pciSpaceApply where
  unknown k hk := by
    cases k <;> first | rfl | exact absurd (by decide) hk
  loads k hk := by
    simp only [knownAttrs, List.mem_cons, List.not_mem_nil, or_false] at hk
    obtain rfl | rfl | rfl := hk
    · exact ⟨_, rfl, loads_number (by decide) Near.check _ _⟩
    · exact ⟨_, rfl, loads_endian⟩
    · exact ⟨_, rfl, loads_field (by decide) _⟩
  flag _ _ _ := rfl

theorem fill_pciSpace (h : Readable (knownAttrs .PCI_SPACE) props) :
    fill pciSpaceApply (front (knownAttrs .PCI_SPACE) props) ⟨0, 0, 0, 0, .notSet, ""⟩ =
      pciSpaceOf props := by
  ext1
  · exact fill_same (fun k v x => by cases k <;> rfl) _ _
  · exact h.field (k := .BAR) (by decide) (by decide) (by decide) (fun _ _ => rfl)
      (fun k' hk v x => by cases k' <;> first | rfl | exact absurd rfl hk) _
  · exact fill_same (fun k v x => by cases k <;> rfl) _ _
  · exact fill_same (fun k v x => by cases k <;> rfl) _ _
  · exact h.field (k := .ENDIAN) (by decide) (by decide) (by decide) (fun _ _ => rfl)
      (fun k' hk v x => by cases k' <;> first | rfl | exact absurd rfl hk) _
  · exact h.field (k := .COMMENT) (by decide) (by decide) (by decide) (fun _ _ => rfl)
      (fun k' hk v x => by cases k' <;> first | rfl | exact absurd rfl hk) _

/-- The fields of a VME space. -/
def vmeSpaceApply : KeyWord → Text → VmeAddressSpace → VmeAddressSpace
  | .MODIFIER, v, p => { p with addressModifier := toNumber v }
  | .WINDOW_SIZE, v, p => { p with windowSize := toNumber v }
  | .DATA_WIDTH, v, p => { p with dataWidth := toNumber v }
  | .ADDRESS, v, p => { p with baseAddress := toNumber v }
  | .FREE_FLAG, v, p => { p with freeModifierFlag := toNumber v }
  | .COMMENT, v, p => { p with comment := strncpy 128 v }
  | _, _, p => p

theorem vmeSpaceFields (m : ℕ) :
    Fields (vmeSpaceProps m) (knownAttrs .VME_SPACE) (knownAttrs .VME_SPACE) vmeSpaceApply where
  unknown k hk := by
    cases k <;> first | rfl | exact absurd (by decide) hk
  loads k hk := by
    simp only [knownAttrs, List.mem_cons, List.not_mem_nil, or_false] at hk
    obtain rfl | rfl | rfl | rfl | rfl | rfl := hk
    · exact ⟨_, rfl, loads_number (by decide) (Near.checkNaming m) _ _⟩
    · exact ⟨_, rfl, loads_number (by decide) (Near.checkNaming m) _ _⟩
    · exact ⟨_, rfl, loads_number (by decide) Near.check _ _⟩
    · exact ⟨_, rfl, loads_number (by decide) Near.check _ _⟩
    · exact ⟨_, rfl, loads_number (by decide) Near.check _ _⟩
    · exact ⟨_, rfl, loads_field (by decide) _⟩
  flag _ _ _ := rfl

theorem fill_vmeSpace (h : Readable (knownAttrs .VME_SPACE) props) :
    fill vmeSpaceApply (front (knownAttrs .VME_SPACE) props) ⟨0, 0, 0, 0, .notSet, 0, 0, ""⟩ =
      vmeSpaceOf props := by
  ext1
  · exact fill_same (fun k v x => by cases k <;> rfl) _ _
  · exact h.field (k := .MODIFIER) (by decide) (by decide) (by decide) (fun _ _ => rfl)
      (fun k' hk v x => by cases k' <;> first | rfl | exact absurd rfl hk) _
  · exact h.field (k := .WINDOW_SIZE) (by decide) (by decide) (by decide) (fun _ _ => rfl)
      (fun k' hk v x => by cases k' <;> first | rfl | exact absurd rfl hk) _
  · exact h.field (k := .DATA_WIDTH) (by decide) (by decide) (by decide) (fun _ _ => rfl)
      (fun k' hk v x => by cases k' <;> first | rfl | exact absurd rfl hk) _
  · exact fill_same (fun k v x => by cases k <;> rfl) _ _
  · exact h.field (k := .ADDRESS) (by decide) (by decide) (by decide) (fun _ _ => rfl)
      (fun k' hk v x => by cases k' <;> first | rfl | exact absurd rfl hk) _
  · exact h.field (k := .FREE_FLAG) (by decide) (by decide) (by decide) (fun _ _ => rfl)
      (fun k' hk v x => by cases k' <;> first | rfl | exact absurd rfl hk) _
  · exact h.field (k := .COMMENT) (by decide) (by decide) (by decide) (fun _ _ => rfl)
      (fun k' hk v x => by cases k' <;> first | rfl | exact absurd rfl hk) _

/-- The fields of a module. -/
def moduleApply (n : ℕ) : KeyWord → Text → InsLibModlDesc → InsLibModlDesc
  | .BUS_TYPE, v, m => { m with busType := (busTypeOf v).getD .notSet }
  | .LOGICAL_MODULE_NUMBER, v, m => { m with moduleNumber := toNumber v }
  | .EXTRA, v, m => { m with extra := some (extraBlock n m, String.ofList v) }
  | .COMMENT, v, m => { m with comment := strncpy 128 v }
  | .IGNORE_INSTALL_ERRORS, _, m => { m with ignoreErrors := 1 }
  | .NAME, v, m => { m with moduleName := strncpy 32 v }
  | _, _, m => m

theorem moduleFields (fails : Block → Bool) (n : ℕ) : Fields (moduleProps fails n)
    (knownAttrs .MODULE) (knownAttrs .MODULE) (moduleApply n) where
  unknown k hk := by
    cases k <;> first | rfl | exact absurd (by decide) hk
  loads k hk := by
    simp only [knownAttrs, List.mem_cons, List.not_mem_nil, or_false] at hk
    obtain rfl | rfl | rfl | rfl | rfl | rfl := hk
    · refine ⟨_, rfl, loads_needed (by decide) fun v r => ?_⟩
      dsimp only [moduleApply]
      cases busTypeOf v with
      | some busType => exact ⟨.refl _, fun _ => ⟨_, rfl, rfl⟩⟩
      | none => exact ⟨.prnterr _, fun h => absurd h (Nat.succ_ne_self _)⟩
    · refine ⟨_, rfl, loads_needed (by decide) fun v r => ?_⟩
      split
      · exact ⟨.prnterr _, fun h => absurd h (Nat.succ_ne_self _)⟩
      · exact ⟨(getNumber_near v r.2).trans (.check _ _), fun _ => ⟨_, rfl, rfl⟩⟩
    · refine ⟨_, rfl, loads_needed (by decide) fun v r => ?_⟩
      dsimp only
      split
      · exact ⟨.prnterr _, fun h => absurd h (Nat.succ_ne_self _)⟩
      · exact ⟨.malloc _ _, fun _ => ⟨_, rfl, rfl⟩⟩
    · exact ⟨_, rfl, loads_field (by decide) _⟩
    · exact ⟨_, rfl, fun h => absurd rfl h, fun v _ r => ⟨_, rfl, .refl _, fun _ => ⟨_, rfl, rfl⟩⟩⟩
    · exact ⟨_, rfl, loads_field (by decide) _⟩
  flag _ _ _ := rfl

theorem fill_module (h : Readable (knownAttrs .MODULE) props) (n : ℕ) :
    (fill (moduleApply n) (front (knownAttrs .MODULE) props)
      ⟨.notSet, 0, 0, none, "", "", none, none⟩).plain = moduleOf props := by
  ext1
  · exact h.field (k := .BUS_TYPE) (π := InsLibModlDesc.busType) (by decide) (by decide)
      (by decide) (fun _ _ => rfl)
      (fun k' hk v x => by cases k' <;> first | rfl | exact absurd rfl hk) _
  · exact h.field (k := .LOGICAL_MODULE_NUMBER) (π := InsLibModlDesc.moduleNumber) (by decide)
      (by decide) (by decide) (fun _ _ => rfl)
      (fun k' hk v x => by cases k' <;> first | rfl | exact absurd rfl hk) _
  · exact h.flag (π := InsLibModlDesc.ignoreErrors) (by decide) (fun _ _ => rfl)
      (fun k' hk v x => by cases k' <;> first | rfl | exact absurd rfl hk) _
  · refine (h.field (k := .EXTRA) (π := fun m : InsLibModlDesc => m.plain.extra)
      (g := fun v => some ((0, 0), String.ofList v)) (by decide) (by decide) (by decide)
      (fun _ _ => rfl)
      (fun k' hk v x => by cases k' <;> first | rfl | exact absurd rfl hk) _).trans ?_
    unfold moduleOf
    cases value .EXTRA props <;> rfl
  · exact h.field (k := .COMMENT) (π := InsLibModlDesc.comment) (by decide) (by decide)
      (by decide) (fun _ _ => rfl)
      (fun k' hk v x => by cases k' <;> first | rfl | exact absurd rfl hk) _
  · exact h.field (k := .NAME) (π := InsLibModlDesc.moduleName) (by decide) (by decide)
      (by decide) (fun _ _ => rfl)
      (fun k' hk v x => by cases k' <;> first | rfl | exact absurd rfl hk) _
  · exact fill_same (π := InsLibModlDesc.isr) (fun k v x => by cases k <;> rfl) _ _
  · exact fill_same (π := InsLibModlDesc.moduleAddress) (fun k v x => by cases k <;> rfl) _ _

/-- The fields of a carrier space. -/
def carSpaceApply : KeyWord → Text → CarAddressSpace → CarAddressSpace
  | .DATA_WIDTH, v, p => { p with dataWidth := toNumber v }
  | .WINDOW_SIZE, v, p => { p with windowSize := toNumber v }
  | _, _, p => p

theorem carSpaceFields (a : ℕ) : Fields (carSpaceProps a) (knownAttrs .CARRIER_SPACE)
    [.DATA_WIDTH, .WINDOW_SIZE] carSpaceApply where
  unknown k hk := by
    cases k <;> first | rfl | exact absurd (by decide) hk
  loads k hk := by
    simp only [List.mem_cons, List.not_mem_nil, or_false] at hk
    obtain rfl | rfl := hk
    · exact ⟨_, rfl, loads_number (by decide) Near.check _ _⟩
    · exact ⟨_, rfl, loads_number (by decide) Near.check _ _⟩
  flag _ _ _ := rfl

theorem fill_carSpace (h : Readable (knownAttrs .CARRIER_SPACE) props)
    (hno : ∀ a ∈ props, lookUp a.name ≠ .COMMENT) :
    fill carSpaceApply (front (knownAttrs .CARRIER_SPACE) props) ⟨0, 0, 0, 0, .notSet, ""⟩ =
      carSpaceOf props := by
  have hcomment : text 128 .COMMENT props = "" := by
    have hnone : props.find? (fun a => lookUp a.name = .COMMENT) = none :=
      List.find?_eq_none.mpr fun a ha => by simpa using hno a ha
    rw [text, value, hnone]
    rfl
  ext1
  · exact fill_same (fun k v x => by cases k <;> rfl) _ _
  · exact fill_same (fun k v x => by cases k <;> rfl) _ _
  · exact h.field (k := .DATA_WIDTH) (by decide) (by decide) (by decide) (fun _ _ => rfl)
      (fun k' hk v x => by cases k' <;> first | rfl | exact absurd rfl hk) _
  · exact h.field (k := .WINDOW_SIZE) (by decide) (by decide) (by decide) (fun _ _ => rfl)
      (fun k' hk v x => by cases k' <;> first | rfl | exact absurd rfl hk) _
  · exact fill_same (fun k v x => by cases k <;> rfl) _ _
  · exact (fill_same (fun k v x => by cases k <;> rfl) _ _).trans hcomment.symm

end Elements

end KernelModules.Utils.Install
