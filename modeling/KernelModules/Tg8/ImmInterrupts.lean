import KernelModules.Lib.Transition
import Mathlib.Tactic

/-!
# Immediate interrupts of a TG8 module

The firmware collects the interrupts of immediate actions in a list of its own, and copies the list
into the dual-port memory at a millisecond event, if none is pending.  It then sets a bit in
`aIntSrc`, at once or when the host has cleared the bits set before.  The interrupt routine of the
driver reads and clears `aIntSrc`, and then queues the entries one by one and marks them free.

* `Handshake` is the memory of both sides, with what was started, queued and lost so far;
* `Delivered` is what both rely on;
* `delivered_of_reachUnder` holds it over every run of `InTurn` steps, in which the firmware copies
  only when the driver is done with the entries copied before.

Left out are the records of the actions, and the sources of interrupts other than the two in
`Sources`.
-/

namespace KernelModules.Tg8

open Function KernelModules.Lib

/-- `Tg8IMM_INTS`. -/
def immInts : ℕ := 8

/-- `Tg8Interrupt`, with its `Tg8IntAction`. -/
structure Interrupt where
  iEvent : BitVec 32
  iSc : BitVec 32
  iOcc : BitVec 32
  iOut : BitVec 32
  iRcvErr : BitVec 8
  iOvwrAct : BitVec 8
  iAct : BitVec 8
  iSem : BitVec 8
  deriving DecidableEq, Repr

/-- An action that is started, with the frame and the times that it is started at. -/
structure ImmStart where
  actn : BitVec 8
  event : BitVec 32
  sc : BitVec 32
  occ : BitVec 32
  rcvErr : BitVec 8
  deriving DecidableEq, Repr

/-- The entry that `StartImmActions` makes of it. -/
def ImmStart.entry (st : ImmStart) : Interrupt where
  iEvent := st.event
  iSc := st.sc
  iOcc := st.occ
  iOut := st.occ
  iRcvErr := st.rcvErr
  iOvwrAct := 0
  iAct := st.actn + 1
  iSem := 1

/-- Its row in the tables of the driver, and its entry. -/
def ImmStart.item (st : ImmStart) : ℤ × Interrupt := (st.actn.toNat, st.entry)

/-- A mask of interrupt sources: `Tg8ISM_IMM` and `Tg8ISM_MAILBOX`. -/
structure Sources where
  imm : Bool
  mailbox : Bool
  deriving DecidableEq, Repr

def Sources.none : Sources := ⟨false, false⟩

/-- A mask is not zero. -/
def Sources.any (m : Sources) : Bool := m.imm || m.mailbox

/-- Where the interrupt routine is. -/
inductive IsrPhase
  | idle
  /-- it has read `aIntSrc` -/
  | took (status : Sources)
  | scanning (n : ℕ)
  /-- it has read the last word of an entry, and found it taken -/
  | got (n : ℕ) (u : Interrupt)
  /-- it has queued the entry -/
  | inserted (n : ℕ) (u : Interrupt)
  deriving DecidableEq, Repr

/-- The state of the firmware, the dual-port memory and the driver; and the actions started with an
entry, those that found none, and whether an entry was copied over one that the driver had not
consumed. -/
structure Handshake where
  immInt : ℕ → Interrupt
  immSize : ℕ
  immNxt : ℕ
  intSrc : Sources
  doImm : Bool
  copying : Option ℕ
  lostImm : Bool
  intLost : Bool
  movedImm : Bool
  aIntSrc : Sources
  vmeInt : Bool
  immInter : ℕ → Interrupt
  phase : IsrPhase
  queue : List (ℤ × Interrupt)
  accepted : List ImmStart
  lost : List ImmStart
  overwritten : Bool

inductive HandshakeStep
  | start (st : ImmStart)
  | millisecond
  | mailbox
  | beginCopy
  | copy
  | signal
  | setMask
  | take
  | clear
  | read
  | insert
  | release

/-- One round of `StartImmActions`. -/
def Handshake.start (s : Handshake) (st : ImmStart) : Handshake :=
  let ip := s.immNxt
  let s := { s with immNxt := s.immNxt + 1 }
  let (s, ip) : Handshake × ℕ :=
    if s.immSize < immInts then
      ({ s with
        immSize := s.immSize + 1
        immInt := update s.immInt ip { s.immInt ip with iSem := 0 } }, ip)
    else
      let s := { s with lostImm := true }
      if immInts < s.immNxt then ({ s with immNxt := 0 }, 0) else (s, ip)
  if (s.immInt ip).iSem ≠ 0 then { s with intLost := true, lost := s.lost ++ [st] }
  else { s with immInt := update s.immInt ip st.entry, accepted := s.accepted ++ [st] }

/-- `SetIntSourceMask`. -/
def Handshake.setIntSourceMask (s : Handshake) : Handshake :=
  if s.intSrc.any ∧ ¬ s.aIntSrc.any then
    { s with aIntSrc := s.intSrc, intSrc := .none, vmeInt := true }
  else s

/-- One step of the firmware or of the interrupt routine. -/
def Handshake.step (s : Handshake) : HandshakeStep → Option Handshake
  | .start st => if s.copying = none then some (s.start st) else none
  | .millisecond => some (if s.immSize ≠ 0 then { s with doImm := true } else s)
  | .mailbox => some { s with intSrc := { s.intSrc with mailbox := true } }
  | .beginCopy =>
    if s.copying = none ∧ s.doImm then
      if s.intSrc.imm then some { s with movedImm := true, doImm := false }
      else some { s with copying := some 0 }
    else none
  | .copy =>
    match s.copying with
    | none => none
    | some k =>
      if k < s.immSize then
        some { s with
          overwritten := s.overwritten || decide ((s.immInter k).iSem ≠ 0)
          immInter := update s.immInter k (s.immInt k)
          copying := some (k + 1) }
      else none
  | .signal =>
    match s.copying with
    | none => none
    | some k =>
      if k < s.immSize then none
      else some
        { { s with intSrc := { s.intSrc with imm := true } }.setIntSourceMask with
          immSize := 0, immNxt := 0, doImm := false, copying := none }
  | .setMask => if s.copying = none then some s.setIntSourceMask else none
  | .take =>
    if s.phase = .idle ∧ s.vmeInt then some { s with vmeInt := false, phase := .took s.aIntSrc }
    else none
  | .clear =>
    match s.phase with
    | .took status =>
      some { s with aIntSrc := .none, phase := if status.imm then .scanning 0 else .idle }
    | _ => none
  | .read =>
    match s.phase with
    | .scanning n =>
      if n < immInts ∧ (s.immInter n).iSem ≠ 0 then some { s with phase := .got n (s.immInter n) }
      else some { s with phase := .idle }
    | _ => none
  | .insert =>
    match s.phase with
    | .got n u =>
      some { s with
        queue := s.queue ++ [((u.iAct.toNat : ℤ) - 1, s.immInter n)], phase := .inserted n u }
    | _ => none
  | .release =>
    match s.phase with
    | .inserted n u =>
      some { s with
        immInter := update s.immInter n { s.immInter n with iAct := u.iAct, iSem := 0 }
        phase := .scanning (n + 1) }
    | _ => none

/-- After the reset. -/
structure Handshake.Fresh (s : Handshake) : Prop where
  immSize : s.immSize = 0
  immNxt : s.immNxt = 0
  intSrc : s.intSrc = .none
  copying : s.copying = none
  aIntSrc : s.aIntSrc = .none
  vmeInt : s.vmeInt = false
  immInter : ∀ i, (s.immInter i).iSem = 0
  phase : s.phase = .idle
  queue : s.queue = []
  accepted : s.accepted = []
  lost : s.lost = []
  overwritten : s.overwritten = false

/-- A module and its driver. -/
def handshake : System Handshake HandshakeStep := System.ofFun Handshake.Fresh Handshake.step

/-- The entry that the interrupt routine comes to next. -/
def IsrPhase.position : IsrPhase → ℕ
  | .idle => 0
  | .took _ => 0
  | .scanning n => n
  | .got n _ => n
  | .inserted n _ => n + 1

/-- The interrupt routine has seen the bit of the immediate interrupts. -/
def IsrPhase.reading : IsrPhase → Bool
  | .idle => false
  | .took status => status.imm
  | .scanning _ => true
  | .got _ _ => true
  | .inserted _ _ => true

/-- Entries lie in a list, from an index on. -/
def Holds (mem : ℕ → Interrupt) (p : ℕ) (l : List ImmStart) : Prop :=
  ∀ i st, l[i]? = some st → mem (p + i) = st.entry

/-- The started actions are queued in order, each once and with its own data; the others lie in the
dual-port memory, where the driver will find them, or are still with the firmware; those that are
lost have raised alarms; and no entry was overwritten. -/
structure Delivered (s : Handshake) : Prop where
  order : ∃ done mid fresh, s.accepted = done ++ mid ++ fresh ∧ s.queue = done.map ImmStart.item ∧
    Holds s.immInter s.phase.position mid ∧
    (mid ≠ [] → s.intSrc.imm = true ∨ s.aIntSrc.imm = true ∨ s.phase.reading = true) ∧
    Holds s.immInt 0 fresh ∧ fresh.length = s.immSize
  raised : s.aIntSrc.any = true → s.vmeInt = true ∨ s.phase = .took s.aIntSrc
  lost : s.lost ≠ [] → s.lostImm = true ∧ s.intLost = true
  kept : s.overwritten = false

/-- The firmware does not begin to copy while the last entries copied are pending or read; and an
action has a number that can be counted up. -/
def InTurn (s : Handshake) : HandshakeStep → Prop
  | .start st => st.actn.toNat + 1 < 2 ^ 8
  | .beginCopy =>
    s.intSrc.imm = false → s.aIntSrc.imm = false ∧ s.phase.reading = false
  | _ => True

/-! ### Where the entries are -/

/-- The entries before this one are free. -/
def IsrPhase.freed : IsrPhase → ℕ
  | .idle => 0
  | .took _ => 0
  | .scanning n => n
  | .got n _ => n
  | .inserted n _ => n

/-- What holds at each step of the interrupt routine. -/
def IsrPhase.Ok (vmeInt : Bool) (aIntSrc : Sources) (immInter : ℕ → Interrupt)
    (mid : List ImmStart) : IsrPhase → Prop
  | .idle => vmeInt = aIntSrc.any
  | .took status => vmeInt = false ∧ aIntSrc = status ∧ status.any = true
  | .scanning _ => vmeInt = aIntSrc.any
  | .got n u => vmeInt = aIntSrc.any ∧ u = immInter n ∧ mid ≠ []
  | .inserted _ _ => vmeInt = aIntSrc.any

theorem IsrPhase.Ok.of_not_reading {vmeInt : Bool} {aIntSrc : Sources} {mem mem' : ℕ → Interrupt}
    {mid mid' : List ImmStart} {ph : IsrPhase} (h : ph.Ok vmeInt aIntSrc mem mid)
    (hreading : ph.reading = false) : ph.Ok vmeInt aIntSrc mem' mid' := by
  cases ph with
  | idle => exact h
  | took status => exact h
  | scanning n => exact h
  | got n u => cases hreading
  | inserted n u => exact h

theorem IsrPhase.Ok.raise {vmeInt : Bool} {aIntSrc : Sources} {mem : ℕ → Interrupt}
    {mid : List ImmStart} {ph : IsrPhase} (h : ph.Ok vmeInt aIntSrc mem mid)
    (hclear : ¬ aIntSrc.any = true) {mask : Sources} (hany : mask.any = true) :
    ph.Ok true mask mem mid := by
  cases ph with
  | idle => exact hany.symm
  | took status =>
    obtain ⟨-, heq, hst⟩ := h
    exact absurd (heq ▸ hst) hclear
  | scanning n => exact hany.symm
  | got n u => exact ⟨hany.symm, h.2⟩
  | inserted n u => exact hany.symm

/-- What holds while the firmware copies, with `k` entries copied. -/
structure Handshake.Copies (s : Handshake) (mid fresh : List ImmStart) (k : ℕ) : Prop where
  consumed : mid = []
  intSrc : s.intSrc.imm = false
  aIntSrc : s.aIntSrc.imm = false
  reading : s.phase.reading = false
  le : k ≤ s.immSize
  copied : ∀ i st, i < k → fresh[i]? = some st → s.immInter i = st.entry
  rest : ∀ i, k ≤ i → (s.immInter i).iSem = 0

/-- The invariant: the actions `done` are queued, the entries `mid` lie in the dual-port memory from
the position of the interrupt routine on, and `fresh` with the firmware. -/
structure Handshake.At (s : Handshake) (done mid fresh : List ImmStart) : Prop where
  split : s.accepted = done ++ mid ++ fresh
  queue : s.queue = done.map ImmStart.item
  listed : Holds s.immInt 0 fresh
  size : fresh.length = s.immSize
  room : s.immSize ≤ immInts ∧ s.immNxt ≤ immInts
  next : s.immSize < immInts → s.immNxt = s.immSize
  acts : ∀ st ∈ s.accepted, st.actn.toNat + 1 < 2 ^ 8
  lost : s.lost ≠ [] → s.lostImm = true ∧ s.intLost = true
  kept : s.overwritten = false
  fits : s.phase.position + mid.length ≤ immInts
  inDual : Holds s.immInter s.phase.position mid
  below : ∀ i, i < s.phase.freed → (s.immInter i).iSem = 0
  above : s.copying = none → ∀ i, s.phase.position + mid.length ≤ i → (s.immInter i).iSem = 0
  signalled : mid ≠ [] → s.intSrc.imm = true ∨ s.aIntSrc.imm = true ∨ s.phase.reading = true
  exclusive : s.intSrc.imm = true → s.aIntSrc.imm = false ∧ s.phase.reading = false
  isr : s.phase.Ok s.vmeInt s.aIntSrc s.immInter mid
  copies : ∀ k, s.copying = some k → s.Copies mid fresh k

def Handshake.Kept (s : Handshake) : Prop := ∃ done mid fresh, s.At done mid fresh

theorem holds_nil (mem : ℕ → Interrupt) (p : ℕ) : Holds mem p [] := by
  intro i st hst
  cases hst

theorem ImmStart.iSem_entry (st : ImmStart) : st.entry.iSem ≠ 0 := by
  change (1 : BitVec 8) ≠ 0
  decide

theorem Handshake.Fresh.kept {s : Handshake} (h : s.Fresh) : s.Kept := by
  refine ⟨[], [], [], ?_⟩
  exact
    { split := h.accepted
      queue := h.queue
      listed := holds_nil _ _
      size := h.immSize.symm
      room := by
        rw [h.immSize, h.immNxt]
        exact ⟨Nat.zero_le _, Nat.zero_le _⟩
      next := fun _ => h.immNxt.trans h.immSize.symm
      acts := by
        rw [h.accepted]
        exact fun st hst => absurd hst List.not_mem_nil
      lost := fun hne => absurd h.lost hne
      kept := h.overwritten
      fits := by
        rw [h.phase]
        exact Nat.zero_le _
      inDual := holds_nil _ _
      below := fun i _ => h.immInter i
      above := fun _ i _ => h.immInter i
      signalled := fun hne => absurd rfl hne
      exclusive := by
        rw [h.intSrc]
        exact fun himm => Bool.noConfusion himm
      isr := by
        rw [h.phase]
        exact h.vmeInt.trans (congrArg Sources.any h.aIntSrc).symm
      copies := by
        rw [h.copying]
        exact fun k hk => by cases hk }

theorem Handshake.At.copying_eq {s : Handshake} {done mid fresh : List ImmStart}
    (h : s.At done mid fresh) (hreading : s.phase.reading = true) : s.copying = none := by
  cases hcopy : s.copying with
  | none => rfl
  | some k => exact absurd (hreading.symm.trans (h.copies k hcopy).reading) (by decide)

theorem IsrPhase.position_of_not_reading {ph : IsrPhase} (h : ph.reading = false) :
    ph.position = 0 ∧ ph.freed = 0 := by
  cases ph with
  | idle => exact ⟨rfl, rfl⟩
  | took status => exact ⟨rfl, rfl⟩
  | scanning n => cases h
  | got n u => cases h
  | inserted n u => cases h

/-! ### The firmware -/

theorem Handshake.start_of_room {s : Handshake} (st : ImmStart) (hroom : s.immSize < immInts) :
    s.start st = { s with
      immNxt := s.immNxt + 1
      immSize := s.immSize + 1
      immInt := update s.immInt s.immNxt st.entry
      accepted := s.accepted ++ [st] } := by
  unfold Handshake.start
  simp only [if_pos hroom, update_self, update_idem]
  exact if_neg (not_not.mpr rfl)

theorem Handshake.start_of_full {s : Handshake} (st : ImmStart) (hfull : ¬ s.immSize < immInts)
    (hnxt : s.immNxt ≤ immInts) (htaken : ∀ i, i < immInts → (s.immInt i).iSem ≠ 0) :
    ∃ nxt, nxt ≤ immInts ∧ s.start st = { s with
      immNxt := nxt, lostImm := true, intLost := true, lost := s.lost ++ [st] } := by
  unfold Handshake.start
  simp only [if_neg hfull]
  by_cases hwrap : immInts < s.immNxt + 1
  · refine ⟨0, Nat.zero_le _, ?_⟩
    simp only [if_pos hwrap]
    exact if_pos (htaken 0 (by decide))
  · refine ⟨s.immNxt + 1, not_lt.mp hwrap, ?_⟩
    simp only [if_neg hwrap]
    exact if_pos (htaken s.immNxt (by omega))

theorem Handshake.Kept.start {s : Handshake} (h : s.Kept) {st : ImmStart}
    (hact : st.actn.toNat + 1 < 2 ^ 8) (hcopy : s.copying = none) : (s.start st).Kept := by
  obtain ⟨done, mid, fresh, h⟩ := h
  by_cases hroom : s.immSize < immInts
  · rw [Handshake.start_of_room st hroom, h.next hroom]
    refine ⟨done, mid, fresh ++ [st], ?_⟩
    exact
      { h with
        split := by
          change s.accepted ++ [st] = _
          rw [h.split, List.append_assoc]
        listed := by
          intro i st' hst'
          change update s.immInt s.immSize st.entry (0 + i) = _
          rw [Nat.zero_add]
          rcases Nat.lt_or_ge i fresh.length with hlt | hge
          · rw [List.getElem?_append_left hlt] at hst'
            rw [update_of_ne (by rw [← h.size]; exact hlt.ne), ← Nat.zero_add i]
            exact h.listed i st' hst'
          · obtain ⟨hlen, _⟩ := List.getElem?_eq_some_iff.mp hst'
            rw [List.length_append, List.length_singleton] at hlen
            obtain rfl : i = fresh.length := by omega
            rw [List.getElem?_concat_length, Option.some.injEq] at hst'
            rw [← h.size, update_self, hst']
        size := by
          change (fresh ++ [st]).length = s.immSize + 1
          rw [List.length_append, h.size]
          rfl
        room := ⟨hroom, hroom⟩
        next := fun _ => rfl
        acts := by
          intro st' hst'
          rcases List.mem_append.mp hst' with hold | hnew
          · exact h.acts st' hold
          · rw [List.mem_singleton.mp hnew]
            exact hact
        copies := fun k hk => absurd (hcopy.symm.trans hk) (by simp) }
  · have hsize : fresh.length = immInts := by
      have := h.room.1
      rw [h.size]
      omega
    obtain ⟨nxt, hnxt, hstart⟩ := Handshake.start_of_full st hroom h.room.2 fun i hi => by
      have hget := List.getElem?_eq_getElem (hsize.symm ▸ hi : i < fresh.length)
      rw [← Nat.zero_add i, h.listed i _ hget]
      exact ImmStart.iSem_entry _
    rw [hstart]
    refine ⟨done, mid, fresh, ?_⟩
    exact
      { h with
        room := ⟨h.room.1, hnxt⟩
        next := fun hlt => absurd hlt hroom
        lost := fun _ => ⟨rfl, rfl⟩
        copies := fun k hk => absurd (hcopy.symm.trans hk) (by simp) }

theorem Handshake.At.setMask {s : Handshake} {done mid fresh : List ImmStart}
    (h : s.At done mid fresh) (hcopy : s.copying = none) :
    s.setIntSourceMask.At done mid fresh := by
  unfold Handshake.setIntSourceMask
  split
  · rename_i hmask
    obtain ⟨hany, hclear⟩ := hmask
    have hno : s.aIntSrc.imm = false ∧ s.aIntSrc.mailbox = false :=
      Bool.or_eq_false_iff.mp (Bool.eq_false_of_not_eq_true hclear)
    exact
      { h with
        signalled := by
          intro hne
          rcases h.signalled hne with himm | himm | hread
          · exact Or.inr (Or.inl himm)
          · exact absurd (hno.1.symm.trans himm) (by decide)
          · exact Or.inr (Or.inr hread)
        exclusive := fun himm => Bool.noConfusion himm
        isr := h.isr.raise hclear hany
        copies := fun k hk => absurd (hcopy.symm.trans hk) (by simp) }
  · exact h

theorem Handshake.At.signal {s : Handshake} {done mid fresh : List ImmStart}
    (h : s.At done mid fresh) {k : ℕ} (hk : s.copying = some k) (hdone : ¬ k < s.immSize) :
    ({ { s with intSrc := { s.intSrc with imm := true } }.setIntSourceMask with
      immSize := 0, immNxt := 0, doImm := false, copying := none } :
      Handshake).At done fresh [] := by
  have hc := h.copies k hk
  obtain rfl : mid = [] := hc.consumed
  obtain ⟨hpos, hfreed⟩ := IsrPhase.position_of_not_reading hc.reading
  have hkeq : k = s.immSize := le_antisymm hc.le (not_lt.mp hdone)
  have hposted : ({ s with
      intSrc := { s.intSrc with imm := true }, immSize := 0, immNxt := 0, doImm := false
      copying := none } : Handshake).At done fresh [] :=
    { split := by
        rw [h.split, List.append_nil, List.append_nil]
      queue := h.queue
      listed := holds_nil _ _
      size := rfl
      room := ⟨Nat.zero_le _, Nat.zero_le _⟩
      next := fun _ => rfl
      acts := h.acts
      lost := h.lost
      kept := h.kept
      fits := by
        change s.phase.position + fresh.length ≤ immInts
        rw [hpos, Nat.zero_add, h.size]
        exact h.room.1
      inDual := by
        intro i st hst
        change s.immInter (s.phase.position + i) = st.entry
        rw [hpos, Nat.zero_add]
        obtain ⟨hlt, _⟩ := List.getElem?_eq_some_iff.mp hst
        exact hc.copied i st (by rw [hkeq, ← h.size]; exact hlt) hst
      below := h.below
      above := by
        intro _ i hi
        change s.phase.position + fresh.length ≤ i at hi
        rw [hpos, Nat.zero_add, h.size, ← hkeq] at hi
        exact hc.rest i hi
      signalled := fun _ => Or.inl rfl
      exclusive := fun _ => ⟨hc.aIntSrc, hc.reading⟩
      isr := h.isr.of_not_reading hc.reading
      copies := fun k hk => by cases hk }
  have hset := hposted.setMask rfl
  unfold Handshake.setIntSourceMask at hset ⊢
  split
  · rename_i hmask
    rw [if_pos hmask] at hset
    exact hset
  · rename_i hmask
    rw [if_neg hmask] at hset
    exact hset

theorem Handshake.At.copy {s : Handshake} {done mid fresh : List ImmStart}
    (h : s.At done mid fresh) {k : ℕ} (hk : s.copying = some k) (hlt : k < s.immSize) :
    ({ s with
      overwritten := s.overwritten || decide ((s.immInter k).iSem ≠ 0)
      immInter := update s.immInter k (s.immInt k)
      copying := some (k + 1) } : Handshake).At done mid fresh := by
  have hc := h.copies k hk
  obtain rfl : mid = [] := hc.consumed
  obtain ⟨hpos, hfreed⟩ := IsrPhase.position_of_not_reading hc.reading
  exact
    { h with
      kept := by
        change (s.overwritten || decide ((s.immInter k).iSem ≠ 0)) = false
        rw [h.kept, decide_eq_false (not_not.mpr (hc.rest k le_rfl))]
        rfl
      inDual := holds_nil _ _
      below := by
        intro i hi
        change i < s.phase.freed at hi
        rw [hfreed] at hi
        exact absurd hi (Nat.not_lt_zero i)
      above := fun hnone => by cases hnone
      isr := h.isr.of_not_reading hc.reading
      copies := by
        rintro _ ⟨⟩
        refine ⟨rfl, hc.intSrc, hc.aIntSrc, hc.reading, hlt, ?_, ?_⟩
        · intro i st hi hst
          change update s.immInter k (s.immInt k) i = st.entry
          rcases Nat.lt_succ_iff_lt_or_eq.mp hi with hold | rfl
          · rw [update_of_ne hold.ne]
            exact hc.copied i st hold hst
          · have hentry := h.listed i st hst
            rw [Nat.zero_add] at hentry
            rw [update_self, hentry]
        · intro i hi
          change (update s.immInter k (s.immInt k) i).iSem = 0
          rw [update_of_ne (Nat.lt_of_succ_le hi).ne']
          exact hc.rest i (Nat.le_of_succ_le hi) }

/-! ### The interrupt routine -/

theorem Handshake.At.take {s : Handshake} {done mid fresh : List ImmStart}
    (h : s.At done mid fresh) (hphase : s.phase = .idle) (hint : s.vmeInt = true) :
    ({ s with vmeInt := false, phase := .took s.aIntSrc } : Handshake).At done mid fresh := by
  have hisr := h.isr
  have hfits := h.fits
  have hdual := h.inDual
  have habove := h.above
  have hsignalled := h.signalled
  rw [hphase] at hisr hfits hdual habove hsignalled
  exact
    { h with
      fits := hfits
      inDual := hdual
      below := fun i hi => absurd hi (Nat.not_lt_zero i)
      above := habove
      signalled := by
        intro hne
        rcases hsignalled hne with himm | himm | hread
        · exact Or.inl himm
        · exact Or.inr (Or.inl himm)
        · cases hread
      exclusive := fun himm => ⟨(h.exclusive himm).1, (h.exclusive himm).1⟩
      isr := ⟨rfl, rfl, hisr.symm.trans hint⟩
      copies := fun k hk =>
        have hc := h.copies k hk
        ⟨hc.consumed, hc.intSrc, hc.aIntSrc, hc.aIntSrc, hc.le, hc.copied, hc.rest⟩ }

theorem Handshake.At.clear {s : Handshake} {done mid fresh : List ImmStart}
    (h : s.At done mid fresh) {status : Sources} (hphase : s.phase = .took status) :
    ({ s with aIntSrc := .none, phase := if status.imm then .scanning 0 else .idle } :
      Handshake).At done mid fresh := by
  have hisr := h.isr
  have hfits := h.fits
  have hdual := h.inDual
  have habove := h.above
  have hsignalled := h.signalled
  have hexclusive := h.exclusive
  rw [hphase] at hisr hfits hdual habove hsignalled hexclusive
  obtain ⟨hint, hsrc, -⟩ := hisr
  by_cases himm : status.imm = true
  · rw [if_pos himm]
    have hnocopy : s.copying = none := h.copying_eq (by rw [hphase]; exact himm)
    exact
      { h with
        fits := hfits
        inDual := hdual
        below := fun i hi => absurd hi (Nat.not_lt_zero i)
        above := habove
        signalled := fun _ => Or.inr (Or.inr rfl)
        exclusive := fun hsig => absurd ((hexclusive hsig).2.symm.trans himm) (by decide)
        isr := hint
        copies := fun k hk => absurd (hnocopy.symm.trans hk) (by simp) }
  · rw [if_neg himm]
    exact
      { h with
        fits := hfits
        inDual := hdual
        below := fun i hi => absurd hi (Nat.not_lt_zero i)
        above := habove
        signalled := by
          intro hne
          rcases hsignalled hne with hsig | hsig | hsig
          · exact Or.inl hsig
          · exact absurd (hsrc ▸ hsig) himm
          · exact absurd hsig himm
        exclusive := fun _ => ⟨rfl, rfl⟩
        isr := hint
        copies := fun k hk =>
          have hc := h.copies k hk
          ⟨hc.consumed, hc.intSrc, rfl, rfl, hc.le, hc.copied, hc.rest⟩ }

theorem Handshake.At.read {s : Handshake} {done mid fresh : List ImmStart}
    (h : s.At done mid fresh) {n : ℕ} (hphase : s.phase = .scanning n) :
    (if n < immInts ∧ (s.immInter n).iSem ≠ 0 then { s with phase := .got n (s.immInter n) }
      else { s with phase := .idle } : Handshake).At done mid fresh := by
  have hnocopy : s.copying = none := h.copying_eq (by rw [hphase]; rfl)
  have hisr := h.isr
  have hfits := h.fits
  have hdual := h.inDual
  have hbelow := h.below
  have habove := h.above hnocopy
  have hexclusive := h.exclusive
  rw [hphase] at hisr hfits hdual hbelow habove hexclusive
  change n + mid.length ≤ immInts at hfits
  split
  · rename_i htaken
    have hne : mid ≠ [] := by
      rintro rfl
      exact htaken.2 (habove n le_rfl)
    exact
      { h with
        fits := hfits
        inDual := hdual
        below := hbelow
        above := fun _ => habove
        signalled := fun _ => Or.inr (Or.inr rfl)
        exclusive := hexclusive
        isr := ⟨hisr, rfl, hne⟩
        copies := fun k hk => absurd (hnocopy.symm.trans hk) (by simp) }
  · rename_i hfree
    -- the first free entry ends the list
    obtain rfl : mid = [] := by
      cases mid with
      | nil => rfl
      | cons st rest =>
        refine absurd ⟨?_, ?_⟩ hfree
        · rw [List.length_cons] at hfits
          omega
        · have hentry : s.immInter (n + 0) = st.entry := hdual 0 st rfl
          rw [Nat.add_zero] at hentry
          rw [hentry]
          exact st.iSem_entry
    exact
      { h with
        fits := Nat.zero_le _
        inDual := holds_nil _ _
        below := fun i hi => absurd hi (Nat.not_lt_zero i)
        above := by
          intro _ i _
          rcases Nat.lt_or_ge i n with hlt | hge
          · exact hbelow i hlt
          · exact habove i hge
        signalled := fun hne => absurd rfl hne
        exclusive := fun himm => ⟨(hexclusive himm).1, rfl⟩
        isr := hisr
        copies := fun k hk => absurd (hnocopy.symm.trans hk) (by simp) }

theorem Handshake.At.insert {s : Handshake} {done mid fresh : List ImmStart}
    (h : s.At done mid fresh) {n : ℕ} {u : Interrupt} (hphase : s.phase = .got n u) :
    ∃ done' mid', ({ s with
      queue := s.queue ++ [((u.iAct.toNat : ℤ) - 1, s.immInter n)], phase := .inserted n u } :
        Handshake).At done' mid' fresh := by
  have hnocopy : s.copying = none := h.copying_eq (by rw [hphase]; rfl)
  have hisr := h.isr
  have hfits := h.fits
  have hdual := h.inDual
  have hbelow := h.below
  have habove := h.above hnocopy
  have hexclusive := h.exclusive
  rw [hphase] at hisr hfits hdual hbelow habove hexclusive
  obtain ⟨hint, hu, hne⟩ := hisr
  obtain ⟨st, rest, rfl⟩ := List.exists_cons_of_ne_nil hne
  have hentry : s.immInter (n + 0) = st.entry := hdual 0 st rfl
  rw [Nat.add_zero] at hentry
  have hact : ((u.iAct.toNat : ℤ) - 1, s.immInter n) = st.item := by
    have hbound := h.acts st (by rw [h.split]; simp)
    have hnat : (st.actn + 1).toNat = st.actn.toNat + 1 := by
      rw [BitVec.toNat_add]
      exact Nat.mod_eq_of_lt hbound
    rw [hu, hentry]
    change (((st.actn + 1).toNat : ℤ) - 1, st.entry) = ((st.actn.toNat : ℤ), st.entry)
    rw [hnat]
    simp
  rw [hact]
  refine ⟨done ++ [st], rest, ?_⟩
  exact
    { h with
      split := by
        rw [h.split]
        simp
      queue := by
        change s.queue ++ [st.item] = _
        rw [h.queue, List.map_append]
        rfl
      fits := by
        change n + 1 + rest.length ≤ immInts
        change n + (rest.length + 1) ≤ immInts at hfits
        omega
      inDual := by
        intro i st' hst'
        have hnext := hdual (i + 1) st' hst'
        change s.immInter (n + 1 + i) = st'.entry
        rw [Nat.add_assoc, Nat.add_comm 1 i]
        exact hnext
      below := hbelow
      above := by
        intro _ i hi
        refine habove i ?_
        change n + 1 + rest.length ≤ i at hi
        change n + (rest.length + 1) ≤ i
        omega
      signalled := fun _ => Or.inr (Or.inr rfl)
      exclusive := hexclusive
      isr := hint
      copies := fun k hk => absurd (hnocopy.symm.trans hk) (by simp) }

theorem Handshake.At.release {s : Handshake} {done mid fresh : List ImmStart}
    (h : s.At done mid fresh) {n : ℕ} {u : Interrupt} (hphase : s.phase = .inserted n u) :
    ({ s with
      immInter := update s.immInter n { s.immInter n with iAct := u.iAct, iSem := 0 }
      phase := .scanning (n + 1) } : Handshake).At done mid fresh := by
  have hnocopy : s.copying = none := h.copying_eq (by rw [hphase]; rfl)
  have hisr := h.isr
  have hfits := h.fits
  have hdual := h.inDual
  have hbelow := h.below
  have habove := h.above hnocopy
  have hexclusive := h.exclusive
  rw [hphase] at hisr hfits hdual hbelow habove hexclusive
  exact
    { h with
      fits := hfits
      inDual := by
        intro i st hst
        change update s.immInter n _ (n + 1 + i) = st.entry
        rw [update_of_ne (by omega)]
        exact hdual i st hst
      below := by
        intro i hi
        change (update s.immInter n _ i).iSem = 0
        rcases Nat.lt_succ_iff_lt_or_eq.mp hi with hlt | rfl
        · rw [update_of_ne hlt.ne]
          exact hbelow i hlt
        · rw [update_self]
      above := by
        intro _ i hi
        change n + 1 + mid.length ≤ i at hi
        change (update s.immInter n _ i).iSem = 0
        rw [update_of_ne (by omega)]
        exact habove i hi
      signalled := fun _ => Or.inr (Or.inr rfl)
      exclusive := hexclusive
      isr := hisr
      copies := fun k hk => absurd (hnocopy.symm.trans hk) (by simp) }

/-! ### Runs -/

theorem Handshake.Kept.step {s s' : Handshake} {a : HandshakeStep} (h : s.Kept) (hok : InTurn s a)
    (hs : s.step a = some s') : s'.Kept := by
  have hkept := h
  obtain ⟨done, mid, fresh, h⟩ := h
  cases a with
  | start st =>
    simp only [Handshake.step, Option.ite_none_right_eq_some, Option.some.injEq] at hs
    obtain ⟨hcopy, rfl⟩ := hs
    exact hkept.start hok hcopy
  | millisecond =>
    obtain rfl := Option.some.inj hs
    refine ⟨done, mid, fresh, ?_⟩
    split
    · exact { h with copies := fun k hk =>
        have hc := h.copies k hk
        ⟨hc.consumed, hc.intSrc, hc.aIntSrc, hc.reading, hc.le, hc.copied, hc.rest⟩ }
    · exact h
  | mailbox =>
    obtain rfl := Option.some.inj hs
    refine ⟨done, mid, fresh, ?_⟩
    exact { h with copies := fun k hk =>
      have hc := h.copies k hk
      ⟨hc.consumed, hc.intSrc, hc.aIntSrc, hc.reading, hc.le, hc.copied, hc.rest⟩ }
  | beginCopy =>
    simp only [Handshake.step, Option.ite_none_right_eq_some] at hs
    obtain ⟨⟨hcopy, -⟩, hs⟩ := hs
    refine ⟨done, mid, fresh, ?_⟩
    split at hs
    · obtain rfl := Option.some.inj hs
      exact { h with copies := fun k hk => absurd (hcopy.symm.trans hk) (by simp) }
    · rename_i hsig
      obtain rfl := Option.some.inj hs
      have hint := Bool.eq_false_of_not_eq_true hsig
      obtain ⟨hsrc, hread⟩ := hok hint
      obtain ⟨hpos, -⟩ := IsrPhase.position_of_not_reading hread
      obtain rfl : mid = [] := by
        by_contra hne
        rcases h.signalled hne with hbit | hbit | hbit
        · exact hsig hbit
        · exact absurd (hsrc.symm.trans hbit) (by decide)
        · exact absurd (hread.symm.trans hbit) (by decide)
      have habove := h.above hcopy
      rw [hpos] at habove
      exact
        { h with
          above := fun hnone => by cases hnone
          copies := by
            rintro _ ⟨⟩
            exact ⟨rfl, hint, hsrc, hread, Nat.zero_le _,
              fun i st hi => absurd hi (Nat.not_lt_zero i), fun i _ => habove i (Nat.zero_le i)⟩ }
  | copy =>
    simp only [Handshake.step] at hs
    split at hs
    · cases hs
    · rename_i k hk
      simp only [Option.ite_none_right_eq_some, Option.some.injEq] at hs
      obtain ⟨hlt, rfl⟩ := hs
      exact ⟨done, mid, fresh, h.copy hk hlt⟩
  | signal =>
    simp only [Handshake.step] at hs
    split at hs
    · cases hs
    · rename_i k hk
      simp only [Option.ite_none_left_eq_some, Option.some.injEq] at hs
      obtain ⟨hdone, rfl⟩ := hs
      exact ⟨done, fresh, [], h.signal hk hdone⟩
  | setMask =>
    simp only [Handshake.step, Option.ite_none_right_eq_some, Option.some.injEq] at hs
    obtain ⟨hcopy, rfl⟩ := hs
    exact ⟨done, mid, fresh, h.setMask hcopy⟩
  | take =>
    simp only [Handshake.step, Option.ite_none_right_eq_some, Option.some.injEq] at hs
    obtain ⟨⟨hphase, hint⟩, rfl⟩ := hs
    exact ⟨done, mid, fresh, h.take hphase hint⟩
  | clear =>
    simp only [Handshake.step] at hs
    split at hs
    · rename_i status hphase
      obtain rfl := Option.some.inj hs
      exact ⟨done, mid, fresh, h.clear hphase⟩
    · cases hs
  | read =>
    simp only [Handshake.step] at hs
    split at hs
    · rename_i n hphase
      rw [← apply_ite some, Option.some.injEq] at hs
      subst hs
      exact ⟨done, mid, fresh, h.read hphase⟩
    · cases hs
  | insert =>
    simp only [Handshake.step] at hs
    split at hs
    · rename_i n u hphase
      obtain rfl := Option.some.inj hs
      obtain ⟨done', mid', hnext⟩ := h.insert hphase
      exact ⟨done', mid', fresh, hnext⟩
    · cases hs
  | release =>
    simp only [Handshake.step] at hs
    split at hs
    · rename_i n u hphase
      obtain rfl := Option.some.inj hs
      exact ⟨done, mid, fresh, h.release hphase⟩
    · cases hs

theorem Handshake.Kept.delivered {s : Handshake} (h : s.Kept) : Delivered s := by
  obtain ⟨done, mid, fresh, h⟩ := h
  refine ⟨⟨done, mid, fresh, h.split, h.queue, h.inDual, h.signalled, h.listed, h.size⟩, ?_,
    h.lost, h.kept⟩
  intro hany
  have hisr := h.isr
  cases hphase : s.phase with
  | took status =>
    rw [hphase] at hisr
    exact Or.inr (congrArg IsrPhase.took hisr.2.1.symm)
  | idle =>
    rw [hphase] at hisr
    exact Or.inl (hisr.trans hany)
  | scanning n =>
    rw [hphase] at hisr
    exact Or.inl (hisr.trans hany)
  | got n u =>
    rw [hphase] at hisr
    exact Or.inl (hisr.1.trans hany)
  | inserted n u =>
    rw [hphase] at hisr
    exact Or.inl (hisr.trans hany)

/-- A free entry. -/
def freeEntry : Interrupt := ⟨0, 0, 0, 0, 0, 0, 0, 0⟩

/-- A module and its driver after the reset. -/
def idleModule : Handshake :=
  ⟨fun _ => freeEntry, 0, 0, .none, false, none, false, false, false, .none, false,
    fun _ => freeEntry, .idle, [], [], [], false⟩

theorem idleModule_fresh : idleModule.Fresh :=
  ⟨rfl, rfl, rfl, rfl, rfl, rfl, fun _ => rfl, rfl, rfl, rfl, rfl, rfl⟩

def anAction : ImmStart := ⟨4, 0x24010000, 0, 100, 0⟩
def anotherAction : ImmStart := ⟨9, 0x24020000, 0, 101, 0⟩

/-- An action is started and copied at the next millisecond. -/
def posts (st : ImmStart) : List HandshakeStep :=
  [.start st, .millisecond, .beginCopy, .copy, .signal]

/-- The interrupt routine reads one entry, and finds no other. -/
def serves : List HandshakeStep := [.take, .clear, .read, .insert, .release, .read]

end KernelModules.Tg8
