import Mathlib.Tactic
import KernelModules.Tg8.UserTable
import KernelModules.Lib.Transition

/-!
# Connections of devices to the rows of a TG8

A row of the user table has a mask of the devices that are connected to it, and a row that nobody is
connected to is not to interrupt.  `Row.Fits` says so of a row, for the devices that are open.

* `attachedRow_fits`, `detachedRow_fits` and their like are what each operation does to a row that fits;
* `serve_fits` is that every request keeps it of the whole table, and `closed_fits_iff` what closing a
  device needs for that: the loop that releases the rows passes those that are free, and clearing a row
  leaves its mask as it is, so that the bit of a closed device stays there;
* `connections_of_reachUnder` holds it over every run whose closes meet that condition.
-/

namespace KernelModules.Tg8.Driver

open Function KernelModules.Lib

/-! ### Bits of a control word -/

theorem and_twoPow_eq_zero_iff (x : BitVec 16) {i : ℕ} (hi : i < 16) :
    x &&& BitVec.twoPow 16 i = 0 ↔ x.getLsbD i = false := by
  have hne : BitVec.twoPow 16 i ≠ 0 := fun hzero => by
    have hbit := congrArg (BitVec.getLsbD · i) hzero
    simp [hi] at hbit
  rw [BitVec.and_twoPow]
  cases x.getLsbD i
  · exact iff_of_true rfl rfl
  · exact iff_of_false hne (fun h => by cases h)

theorem interrupt_iff (cw : BitVec 16) :
    cwIntGet cw &&& doInterrupt = 0 ↔ cw.getLsbD 15 = false := by
  refine (and_twoPow_eq_zero_iff (cwIntGet cw) (i := 1) (by decide)).trans ?_
  simp [cwIntGet]

theorem state_iff (cw : BitVec 16) : cwStateGet cw = 0 ↔ cw.getLsbD 2 = false := by
  refine (and_twoPow_eq_zero_iff (cw >>> 2) (i := 0) (by decide)).trans ?_
  simp

theorem cwIntSet_interrupt (cw v : BitVec 16) :
    (cwIntSet cw v).getLsbD 15 = (cw.getLsbD 15 || v.getLsbD 1) := by
  simp [cwIntSet]

theorem cwIntClr_interrupt (cw : BitVec 16) : (cwIntClr cw).getLsbD 15 = false := by
  simp [cwIntClr]

theorem cwIntGet_interrupt (cw : BitVec 16) : (cwIntGet cw).getLsbD 1 = cw.getLsbD 15 := by
  simp [cwIntGet]

theorem cwStateSet_state (cw : BitVec 16) : (cwStateSet cw 1).getLsbD 2 = true := by
  simp [cwStateSet]

theorem cwIntSet_state (cw v : BitVec 16) : (cwIntSet cw v).getLsbD 2 = cw.getLsbD 2 := by
  simp [cwIntSet]

/-! ### Rows -/

section Rows

variable {Dev : Type*} {r : Row Dev} {opened opened' : Finset Dev} {d : Dev}

/-- The action of a row requests an interrupt and is enabled. -/
def Row.Interrupts (r : Row Dev) : Prop :=
  r.action.uEvent ≠ 0 ∧ cwIntGet r.action.uControl &&& doInterrupt ≠ 0 ∧
    cwStateGet r.action.uControl = 0

/-- Only open devices are connected, and without one the row does not interrupt. -/
structure Row.Fits (opened : Finset Dev) (r : Row Dev) : Prop where
  sub : r.devMask ⊆ opened
  quiet : r.devMask = ∅ → ¬ r.Interrupts

theorem Row.Fits.mono (h : r.Fits opened) (hsub : opened ⊆ opened') : r.Fits opened' :=
  ⟨h.sub.trans hsub, h.quiet⟩

theorem Row.Fits.of_mem (hsub : r.devMask ⊆ opened) (hmem : d ∈ r.devMask) : r.Fits opened :=
  ⟨hsub, fun hnone => absurd (hnone ▸ hmem) (Finset.notMem_empty d)⟩

theorem Row.Fits.cleared (h : r.Fits opened) : r.cleared.Fits opened :=
  ⟨h.sub, fun _ hint => hint.1 rfl⟩

theorem Row.interrupts_iff (r : Row Dev) :
    r.Interrupts ↔ r.action.uEvent ≠ 0 ∧ r.action.uControl.getLsbD 15 = true ∧
      r.action.uControl.getLsbD 2 = false := by
  rw [Row.Interrupts, ne_eq (cwIntGet _ &&& _), interrupt_iff, state_iff, Bool.not_eq_false]

theorem clearedRow_quiet (r : Row Dev) : ¬ (clearedRow r).Interrupts := by
  rw [Row.interrupts_iff]
  rintro ⟨-, hint, hstate⟩
  simp only [clearedRow] at hint hstate
  split_ifs at hint hstate with hnone hout
  · rw [interrupt_iff, hint] at hnone
    cases hnone
  · change (cwIntSet (cwIntClr _) doOutput).getLsbD 15 = true at hint
    rw [cwIntSet_interrupt, cwIntClr_interrupt] at hint
    cases hint
  · change (cwStateSet _ 1).getLsbD 2 = false at hstate
    rw [cwStateSet_state] at hstate
    cases hstate

theorem enabledRow_devMask (r : Row Dev) : (enabledRow r).devMask = r.devMask := by
  simp only [enabledRow]
  split_ifs <;> rfl

theorem clearedRow_devMask (r : Row Dev) : (clearedRow r).devMask = r.devMask := by
  simp only [clearedRow]
  split_ifs <;> rfl

variable [DecidableEq Dev]

theorem attachedRow_fits (h : r.Fits opened) (hd : d ∈ opened) : (attachedRow d r).Fits opened := by
  have hmask : (attachedRow d r).devMask = insert d r.devMask := enabledRow_devMask _
  refine .of_mem ?_ (hmask ▸ Finset.mem_insert_self d _)
  rw [hmask]
  exact Finset.insert_subset hd h.sub

theorem detachedRow_devMask (d : Dev) (r : Row Dev) :
    (detachedRow d r).devMask = r.devMask.erase d := by
  rw [detachedRow]
  split_ifs
  · exact clearedRow_devMask _
  · rfl

theorem detachedRow_fits (h : r.devMask ⊆ opened) (d : Dev) :
    (detachedRow d r).Fits (opened.erase d) := by
  refine ⟨?_, fun hnone => ?_⟩
  · rw [detachedRow_devMask]
    exact Finset.erase_subset_erase d h
  · rw [detachedRow_devMask] at hnone
    rw [detachedRow, if_pos hnone]
    exact clearedRow_quiet _

theorem detachedRow_keeps (h : r.Fits opened) (d : Dev) : (detachedRow d r).Fits opened :=
  (detachedRow_fits h.sub d).mono (Finset.erase_subset d opened)

theorem filteredRow_fits (h : r.Fits opened) (hd : d ∈ opened) (event : BitVec 32) :
    (filteredRow d event r).Fits opened := by
  rw [filteredRow]
  split_ifs
  · exact h
  · exact attachedRow_fits h hd
  · exact detachedRow_keeps h d

theorem connectedRow_fits (h : r.Fits opened) (hd : d ∈ opened) (mask : BitVec 32) (i : ℕ) :
    (connectedRow d mask i r).Fits opened := by
  rw [connectedRow]
  split_ifs
  · exact attachedRow_fits h hd
  · exact detachedRow_keeps h d

theorem newRow_fits (h : r.Fits opened) (hd : d ∈ opened) (act : Tg8User) :
    (newRow d act r).Fits opened :=
  .of_mem (Finset.insert_subset hd h.sub) (Finset.mem_insert_self d _)

omit [DecidableEq Dev] in
theorem objectRow_fits (hd : d ∈ opened) (oid : BitVec 32) (ppm : Tg8PpmUser) (i : ℕ) (r : Row Dev) :
    (objectRow d oid ppm i r).Fits opened :=
  .of_mem (Finset.singleton_subset_iff.2 hd) (Finset.mem_singleton_self d)

omit [DecidableEq Dev] in
theorem addedRow_fits (h : r.Fits opened) {act : Tg8User} (hint : doint act = false) :
    (addedRow act r).Fits opened := by
  rw [addedRow]
  split_ifs
  · refine ⟨h.sub, fun hnone => ?_⟩
    have hquiet := h.quiet hnone
    rw [Row.interrupts_iff] at hquiet ⊢
    rintro ⟨hevent, hbit, hstate⟩
    simp only [outputRow, hint, Row.setControl, cwIntSet_interrupt, cwIntSet_state] at hbit hstate
    refine hquiet ⟨hevent, ?_, hstate⟩
    simpa [cwIntGet_interrupt, doOutput, -BitVec.getLsbD_eq_getElem] using hbit
  · exact h

theorem knownRow_fits (h : r.Fits opened) (hd : d ∈ opened) (act : Tg8User) :
    (knownRow d act r).Fits opened := by
  rw [knownRow]
  split_ifs with hint
  · have hmask : (enabledRow (addedRow act { r with devMask := insert d r.devMask })).devMask =
        insert d r.devMask := by
      rw [enabledRow_devMask, addedRow]
      split_ifs <;> rfl
    refine .of_mem ?_ (hmask ▸ Finset.mem_insert_self d _)
    rw [hmask]
    exact Finset.insert_subset hd h.sub
  · exact addedRow_fits h (by simpa using hint)

theorem releasedRow_fits_iff (h : r.Fits opened) (d : Dev) :
    (releasedRow d r).Fits (opened.erase d) ↔ (d ∈ r.devMask → r.action.uEvent ≠ 0) := by
  rw [releasedRow]
  split_ifs with hskip
  · constructor
    · exact fun hfits hmem => absurd (hfits.sub hmem) (Finset.notMem_erase d opened)
    · intro hno
      have hfree : d ∉ r.devMask := fun hmem => (hskip.resolve_right (not_not.2 hmem)) |> hno hmem
      exact ⟨Finset.subset_erase.2 ⟨h.sub, hfree⟩, h.quiet⟩
  · push Not at hskip
    exact iff_of_true (detachedRow_fits h.sub d) fun _ => hskip.1

end Rows

/-! ### Tables -/

section Tables

variable {Dev Card : Type*} {m m' : Module Dev Card} {d : Dev}

/-- Every row fits. -/
def Module.Fits (m : Module Dev Card) : Prop :=
  ∀ i < tg8Actions, (m.rows i).Fits m.devMask

variable {mailbox : MailboxOp → Card → Option Card}

theorem Module.Fits.of_rewrites {an : ℕ} {g : Row Dev → Row Dev} (h : m.Fits)
    (hs : m.Rewrites m' an g) (hg : ∀ r : Row Dev, r.Fits m.devMask → (g r).Fits m.devMask) :
    m'.Fits := by
  obtain ⟨card, rfl⟩ := hs
  intro i hi
  change (update m.rows an (g (m.rows an)) i).Fits m.devMask
  by_cases hrow : i = an
  · subst hrow
    rw [update_self]
    exact hg _ (h i hi)
  · rw [update_of_ne hrow]
    exact h i hi

theorem Module.Fits.of_loop {f : ℕ → Module Dev Card → Option (Module Dev Card)} {an n : ℕ}
    {g : ℕ → Row Dev → Row Dev} (h : m.Fits) (hf : loop f n m = some m')
    (hstep : ∀ i t t', f i t = some t' → t.Rewrites t' (an + i) (g i))
    (hg : ∀ i, ∀ r : Row Dev, r.Fits m.devMask → (g i r).Fits m.devMask) : m'.Fits := by
  obtain ⟨hrows, -, hmask⟩ := loop_rewrites hstep hf
  intro i hi
  rw [hrows, hmask]
  split_ifs
  · exact hg _ _ (h i hi)
  · exact h i hi

theorem Module.Fits.clear {row rows : ℕ} (h : m.Fits)
    (hc : clearUserTable mailbox row rows m = some m') : m'.Fits := by
  obtain ⟨card, rfl⟩ := clearUserTable_eq hc
  intro i hi
  change (if row ≤ i ∧ i < row + rows then (m.rows i).cleared else m.rows i).Fits m.devMask
  split_ifs
  · exact (h i hi).cleared
  · exact h i hi

variable [DecidableEq Dev]

theorem Module.Fits.writeOne {act : Tg8User} {rep : Reply} (h : m.Fits) (hd : d ∈ m.devMask)
    (hw : writeOne mailbox d act m = some (rep, m')) : m'.Fits ∧ m'.devMask = m.devMask := by
  rw [Driver.writeOne] at hw
  split_ifs at hw
  · obtain ⟨-, rfl⟩ := Prod.mk.inj (Option.some.inj hw)
    exact ⟨h, rfl⟩
  · split at hw
    · obtain ⟨t, ht, heq⟩ := Option.map_eq_some_iff.1 hw
      obtain ⟨-, rfl⟩ := Prod.mk.inj heq
      have hrow := writeKnown_rewrites ht
      refine ⟨h.of_rewrites hrow fun r hr => knownRow_fits hr hd act, ?_⟩
      obtain ⟨card, rfl⟩ := hrow
      rfl
    · obtain rfl | ⟨hole, card, -, rfl⟩ := writeNew_eq hw
      · exact ⟨h, rfl⟩
      · have hfits : ({ m.modify hole (newRow d act) with card := card } : Module Dev Card).Fits :=
          h.of_rewrites ⟨card, rfl⟩ fun r hr => newRow_fits hr hd act
        exact ⟨hfits, rfl⟩

theorem Module.Fits.write {actions : List Tg8User} {rep : Reply} (h : m.Fits) (hd : d ∈ m.devMask)
    (hw : tg8DrvrWrite mailbox d actions m = some (rep, m')) : m'.Fits := by
  have hkeep : m'.Fits ∧ m'.devMask = m.devMask := by
    refine tg8DrvrWrite_keeps (P := fun t => t.Fits ∧ t.devMask = m.devMask) ?_ ⟨h, rfl⟩ hw
    rintro act rep t t' ⟨ht, hmask⟩ hone
    obtain ⟨ht', hmask'⟩ := ht.writeOne (hmask ▸ hd) hone
    exact ⟨ht', hmask'.trans hmask⟩
  exact hkeep.1

omit [DecidableEq Dev] in
theorem Module.Fits.setObject {oid : BitVec 32} {ppm : Tg8PpmUser} {rep : Reply} (h : m.Fits)
    (hd : d ∈ m.devMask) (hs : setObject mailbox d oid ppm m = some (rep, m')) : m'.Fits := by
  obtain rfl | ⟨row, card, -, -, rfl⟩ := setObject_eq hs
  · exact h
  intro i hi
  change (if row ≤ i ∧ i < row + ppm.simple.dim.toNat then _ else m.rows i).Fits m.devMask
  split_ifs
  · exact objectRow_fits hd _ _ _ _
  · exact h i hi

theorem Module.Fits.connect {id mask : BitVec 32} {rep : Reply} (h : m.Fits) (hd : d ∈ m.devMask)
    (hc : connect mailbox d id mask m = some (rep, m')) : m'.Fits := by
  simp only [Driver.connect] at hc
  split at hc
  · exact (Prod.mk.inj (Option.some.inj hc)).2 ▸ h
  · obtain ⟨t, ht, heq⟩ := Option.map_eq_some_iff.1 hc
    obtain ⟨-, rfl⟩ := Prod.mk.inj heq
    exact h.of_loop ht (fun i t t' hi => connectRow_rewrites hi)
      fun i r hr => connectedRow_fits hr hd mask i

theorem Module.Fits.filterEvent {event : BitVec 32} {rep : Reply} (h : m.Fits)
    (hd : d ∈ m.devMask) (hf : filterEvent mailbox d event m = some (rep, m')) : m'.Fits := by
  obtain ⟨t, ht, heq⟩ := Option.map_eq_some_iff.1 hf
  obtain ⟨-, rfl⟩ := Prod.mk.inj heq
  refine @Module.Fits.of_loop _ _ _ _ _ 0 _ (fun _ => filteredRow d event) h ht (fun i t t' hi => ?_)
    fun i r hr => filteredRow_fits hr hd event
  exact (Nat.zero_add i).symm ▸ filterRow_rewrites hi

/-! ### Closing a device -/

/-- No row that is free, or that closing in this mode clears, has the device. -/
def CloseClean (d : Dev) (mode : OnCloseMode) (m : Module Dev Card) : Prop :=
  ∀ i < tg8Actions, d ∈ (m.rows i).devMask →
    (m.rows i).action.uEvent ≠ 0 ∧ ¬ (mode = .CLEAR ∧ i < m.size)

omit [DecidableEq Dev] in
theorem onClose_eq {mode : OnCloseMode} (h : onClose mailbox mode m = some m') :
    m'.devMask = m.devMask ∧ ∀ i, m'.rows i =
      if mode = .CLEAR ∧ i < m.size then (m.rows i).cleared else m.rows i := by
  rw [onClose] at h
  split_ifs at h with hclear
  · obtain ⟨card, rfl⟩ := clearUserTable_eq h
    refine ⟨rfl, fun i => ?_⟩
    simp [hclear]
  · obtain rfl := Option.some.inj h
    exact ⟨rfl, fun i => by simp [hclear]⟩

theorem closed_fits_iff {mode : OnCloseMode} {rep : Reply} (h : m.Fits) (hd : d ∈ m.devMask)
    (hc : tg8DrvrClose mailbox d mode m = some (rep, m')) : m'.Fits ↔ CloseClean d mode m := by
  simp only [tg8DrvrClose, if_neg (not_not.2 hd)] at hc
  obtain ⟨s, hs, heq⟩ := Option.map_eq_some_iff.1 hc
  obtain ⟨t, ht, hs⟩ := Option.bind_eq_some_iff.1 hs
  obtain ⟨-, rfl⟩ := Prod.mk.inj heq
  obtain ⟨hmask, hclosed⟩ := onClose_eq ht
  obtain ⟨hrows, -, hmask'⟩ := @loop_rewrites _ _ t s 0 _ (fun _ => releasedRow d)
    (fun i t t' hi => (Nat.zero_add i).symm ▸ releaseRow_rewrites hi) _ hs
  refine forall_congr' fun i => forall_congr' fun hi => ?_
  rw [hrows, if_pos (by omega), hmask', hmask, hclosed]
  change (releasedRow d (if mode = .CLEAR ∧ i < m.size then (m.rows i).cleared else m.rows i)).Fits
    (m.devMask.erase d) ↔ _
  split_ifs with hclear
  · rw [releasedRow_fits_iff (h i hi).cleared]
    constructor
    · exact fun hno hmem => absurd rfl (hno hmem)
    · exact fun hno hmem => absurd hclear (hno hmem).2
  · rw [releasedRow_fits_iff (h i hi)]
    exact forall_congr' fun hmem => (and_iff_left hclear).symm

/-! ### Runs -/

/-- A device is opened. -/
def Request.isOpen : Request → Bool
  | .open => true
  | _ => false

/-- The requests that connections are about. -/
def Request.connects : Request → Bool
  | .setActionState _ _ _ => false
  | .objectParam _ _ _ _ _ => false
  | _ => true

/-- A request of a device.  Only a device that is open can make another one than to be opened. -/
def connectionStep (mailbox : MailboxOp → Card → Option Card) (m : Module Dev Card)
    (a : Dev × Request) : Option (Module Dev Card) :=
  if (a.2.isOpen || a.1 ∈ m.devMask) && a.2.connects then (serve mailbox a.1 a.2 m).map Prod.snd
  else none

/-- The devices of a module with their requests, in any order. -/
def deviceRuns (mailbox : MailboxOp → Card → Option Card) :
    System (Module Dev Card) (Dev × Request) :=
  System.ofFun (fun m => ∃ card, m = installed card) (connectionStep mailbox)

/-- The condition: a device is closed when no free row has it. -/
def ClosesClean (m : Module Dev Card) : Dev × Request → Prop
  | (d, .close mode) => CloseClean d mode m
  | _ => True

theorem Module.Fits.step {a : Dev × Request} (h : m.Fits) (hok : ClosesClean m a)
    (hs : connectionStep mailbox m a = some m') : m'.Fits := by
  obtain ⟨d, req⟩ := a
  simp only [connectionStep] at hs
  split_ifs at hs with hallowed
  obtain ⟨⟨rep, t⟩, ht, rfl⟩ := Option.map_eq_some_iff.1 hs
  simp only [Bool.and_eq_true, Bool.or_eq_true, decide_eq_true_eq] at hallowed
  obtain ⟨hopen, hconnects⟩ := hallowed
  cases req with
  | «open» =>
    simp only [serve, tg8DrvrOpen] at ht
    split_ifs at ht
    · exact (Prod.mk.inj (Option.some.inj ht)).2 ▸ h
    · obtain ⟨-, rfl⟩ := Prod.mk.inj (Option.some.inj ht)
      exact fun i hi => (h i hi).mono (Finset.subset_insert _ _)
  | close mode => exact (closed_fits_iff h (hopen.resolve_left (by simp [Request.isOpen])) ht).2 hok
  | write actions => exact h.write (hopen.resolve_left (by simp [Request.isOpen])) ht
  | clearAction row cnt =>
    simp only [serve, clearAction] at ht
    split_ifs at ht
    · exact (Prod.mk.inj (Option.some.inj ht)).2 ▸ h
    · obtain ⟨s, hclear, heq⟩ := Option.map_eq_some_iff.1 ht
      obtain ⟨-, rfl⟩ := Prod.mk.inj heq
      exact h.clear hclear
  | setObject id ppm => exact h.setObject (hopen.resolve_left (by simp [Request.isOpen])) ht
  | removeObject id =>
    simp only [serve, removeObject] at ht
    split at ht
    · exact (Prod.mk.inj (Option.some.inj ht)).2 ▸ h
    · obtain ⟨s, hclear, heq⟩ := Option.map_eq_some_iff.1 ht
      obtain ⟨-, rfl⟩ := Prod.mk.inj heq
      exact h.clear hclear
  | connect id mask => exact h.connect (hopen.resolve_left (by simp [Request.isOpen])) ht
  | filterEvent event => exact h.filterEvent (hopen.resolve_left (by simp [Request.isOpen])) ht
  | setActionState row cnt state => cases hconnects
  | objectParam id line sel value aux => cases hconnects

/-- What is to hold of the connections: a device is in the mask of a row only while it is open, and a
row whose action requests an interrupt and that no open device is connected to is not enabled. -/
def Module.Connected (m : Module Dev Card) : Prop :=
  ∀ i < tg8Actions, (∀ d ∈ (m.rows i).devMask, d ∈ m.devMask) ∧
    ((∀ d ∈ m.devMask, d ∉ (m.rows i).devMask) → ¬ (m.rows i).Interrupts)

omit [DecidableEq Dev] in
theorem connected_iff : m.Connected ↔ m.Fits := by
  refine forall_congr' fun i => forall_congr' fun hi => ?_
  constructor
  · rintro ⟨hsub, hquiet⟩
    exact ⟨fun d hd => hsub d hd, fun hnone => hquiet fun d _ hd => by simp [hnone] at hd⟩
  · rintro ⟨hsub, hquiet⟩
    refine ⟨fun d hd => hsub hd, fun hnone => hquiet ?_⟩
    exact Finset.eq_empty_of_forall_notMem fun d hd => hnone d (hsub hd) hd

theorem close_returns (hm : ∀ op card, ∃ card', mailbox op card = some card') (mode : OnCloseMode)
    (hd : d ∈ m.devMask) : ∃ m', tg8DrvrClose mailbox d mode m = some (.ok, m') := by
  have hsend : ∀ (t : Module Dev Card) op, ∃ t', t.send mailbox op = some t' := by
    intro t op
    obtain ⟨card, hcard⟩ := hm op t.card
    exact ⟨_, Option.map_eq_some_iff.2 ⟨card, hcard, rfl⟩⟩
  have hopen : ∃ t, onClose mailbox mode { m with devMask := m.devMask.erase d } = some t := by
    rw [onClose]
    split_ifs
    · obtain ⟨t, ht⟩ := hsend { m with devMask := m.devMask.erase d } (.clearAction 0 m.size)
      exact ⟨_, Option.map_eq_some_iff.2 ⟨t, ht, rfl⟩⟩
    · exact ⟨_, rfl⟩
  have hrelease : ∀ i t, ∃ t', releaseRow mailbox d i t = some t' := by
    intro i t
    simp only [releaseRow, detach, clearBusInterrupt]
    split_ifs
    · exact ⟨_, rfl⟩
    · exact ⟨_, rfl⟩
    · exact hsend _ _
    · exact hsend _ _
    · exact ⟨_, rfl⟩
  obtain ⟨t, ht⟩ := hopen
  obtain ⟨s, hs⟩ : ∃ s, loop (releaseRow mailbox d) tg8Actions t = some s :=
    loop_returns (P := fun _ _ => True) trivial
      fun i _ t' _ => (hrelease i t').imp fun _ h => ⟨h, trivial⟩
  rw [tg8DrvrClose, if_neg (not_not.2 hd)]
  exact ⟨s, Option.map_eq_some_iff.2 ⟨s, Option.bind_eq_some_iff.2 ⟨t, ht, hs⟩, rfl⟩⟩

theorem fits_of_reachUnder (h : (deviceRuns mailbox).ReachUnder ClosesClean m) : m.Fits := by
  refine System.ReachUnder.invariant ?_ ?_ h
  · rintro _ ⟨card, rfl⟩ i -
    exact ⟨Finset.empty_subset _, fun _ hint => hint.1 rfl⟩
  · exact fun m a m' hm hok hs => hm.step hok hs

/-- **Connections.**  In every run, of any devices in any order, whose closes find no free row with the
device that is closed, every state is connected right. -/
theorem connections_of_reachUnder (h : (deviceRuns mailbox).ReachUnder ClosesClean m) :
    m.Connected :=
  connected_iff.2 (fits_of_reachUnder h)

end Tables

/-- An action that interrupts at a millisecond. -/
def interruptAction : Tg8User := ⟨0x01000000, 0x8000, 0⟩

/-- A module with one device that is open. -/
def openedModule : Module Unit Unit := { installed () with devMask := {()} }

/-- The device has written an action. -/
def writtenModule : Module Unit Unit :=
  { openedModule.modify 0 (newRow () interruptAction) with size := 1 }

theorem openedModule_step :
    connectionStep answering (installed ()) ((), .open) = some openedModule := by
  simp [connectionStep, serve, tg8DrvrOpen, Request.isOpen, Request.connects, installed,
    openedModule]

theorem writtenModule_step :
    connectionStep answering openedModule ((), .write [interruptAction]) = some writtenModule := by
  have hvalid : validAction interruptAction = true := by decide
  have hknown : openedModule.findAction interruptAction = none := by
    simp [Module.findAction, openedModule, installed]
  have hhole : openedModule.findHole = none := by
    simp [Module.findHole, openedModule, installed]
  have hone : writeOne answering () interruptAction openedModule = some (.ok, writtenModule) := by
    rw [writeOne, if_neg (by simp [hvalid]), hknown]
    simp only [writeNew, hhole, true_and]
    rw [if_neg (by simp [openedModule, installed, tg8Actions])]
    rfl
  have hwrite : tg8DrvrWrite answering () [interruptAction] openedModule =
      some (.ok, writtenModule) := by
    simp only [tg8DrvrWrite, hone, Option.bind_eq_bind, Option.bind_some]
  rw [connectionStep, if_pos (by decide)]
  exact Option.map_eq_some_iff.2 ⟨_, hwrite, rfl⟩

theorem writtenModule_reach : (deviceRuns answering).ReachUnder ClosesClean writtenModule := by
  have hinit : (deviceRuns answering).ReachUnder ClosesClean (installed () : Module Unit Unit) :=
    .init ⟨(), rfl⟩
  have hopen : ClosesClean (installed () : Module Unit Unit) ((), .open) := trivial
  have hwrite : ClosesClean openedModule ((), .write [interruptAction]) := trivial
  exact (hinit.step hopen openedModule_step).step hwrite writtenModule_step

theorem close_step {m : Module Unit Unit} (hd : () ∈ m.devMask) :
    ∃ m', tg8DrvrClose answering () .LEAVE m = some (.ok, m') ∧
      connectionStep answering m ((), .close .LEAVE) = some m' := by
  obtain ⟨m', hclose⟩ := close_returns (fun _ card => ⟨card, rfl⟩) .LEAVE hd
  refine ⟨m', hclose, ?_⟩
  rw [connectionStep, if_pos (by simp [hd, Request.connects])]
  exact Option.map_eq_some_iff.2 ⟨_, hclose, rfl⟩

/-- A device is opened, writes an action and is closed. -/
theorem connections_of_reachUnder_once :
    ∃ m, System.runFun (connectionStep answering) (installed () : Module Unit Unit)
      [((), .open), ((), .write [interruptAction]), ((), .close .LEAVE)] = some m ∧
      m.Connected := by
  obtain ⟨m, -, hstep⟩ := close_step (m := writtenModule) (by decide)
  have hclean : ClosesClean writtenModule ((), .close .LEAVE) := by
    rintro i - hmem
    refine ⟨?_, fun h => by cases h.1⟩
    by_cases hi : i = 0
    · subst hi
      decide
    · have hblank : writtenModule.rows i = .blank := update_of_ne hi _ _
      rw [hblank] at hmem
      cases hmem
  refine ⟨m, ?_, connections_of_reachUnder (writtenModule_reach.step hclean hstep)⟩
  simp only [System.runFun, openedModule_step, writtenModule_step, hstep, Option.bind_some]

/-- The device has cleared its action. -/
def clearedModule : Module Unit Unit :=
  { writtenModule with
    rows := fun i => if 0 ≤ i ∧ i < 0 + 1 then (writtenModule.rows i).cleared else writtenModule.rows i
    size := 0 }

theorem clearedModule_step :
    connectionStep answering writtenModule ((), .clearAction 1 1) = some clearedModule := by
  rw [connectionStep, if_pos (by decide)]
  refine Option.map_eq_some_iff.2 ⟨(.ok, clearedModule), ?_, rfl⟩
  rw [serve, clearAction, if_neg (by decide), if_neg (by decide)]
  rfl

/-- The action is cleared before the device is closed: the bit of the device stays. -/
theorem closed_device_connected :
    ∃ m, System.runFun (connectionStep answering) (installed () : Module Unit Unit)
      [((), .open), ((), .write [interruptAction]), ((), .clearAction 1 1),
        ((), .close .LEAVE)] = some m ∧ ¬ m.Connected := by
  obtain ⟨m, hclose, hstep⟩ := close_step (m := clearedModule) (by decide)
  have hclear : ClosesClean writtenModule ((), .clearAction 1 1) := trivial
  have hfits : clearedModule.Fits :=
    fits_of_reachUnder (writtenModule_reach.step hclear clearedModule_step)
  refine ⟨m, ?_, ?_⟩
  · simp only [System.runFun, openedModule_step, writtenModule_step, clearedModule_step, hstep,
      Option.bind_some]
  · rw [connected_iff, closed_fits_iff hfits (by decide) hclose]
    exact fun hclean => (hclean 0 (by decide) (by decide)).1 rfl

end KernelModules.Tg8.Driver
