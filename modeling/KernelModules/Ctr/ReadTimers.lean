import KernelModules.Ctr.EventQueue

/-!
# The timers of the reads

`EmulateLynxOs.c` has sixteen timer slots for all clients.  A read takes the first free one, keeps
its number in the client's `Timer`, and gives the number back when it is done; the slot is free
again as soon as its timer has expired, and the number means whoever takes it next.

* `TimerState` is the table of slots with the contexts of the clients, each of which reads with one
  task;
* `timerStep` takes the steps of `readStep` for one client and adds what they do to the table: the
  call of `timeout`, the cancelling, and the callback of a timer, each of which holds the mutex of
  the table;
* `TimerInv` says that a timer number in a context is the number of a slot that was armed for that
  client.  It is kept by the steps that meet `Timely`: a read with a timeout finds a free slot, and
  no timer expires before its read is at the wait.  `timerSystem_laws` is the result.
-/

namespace KernelModules.Ctr

open Function KernelModules.Lib KernelModules.Cdcm

/-- `TIMERS`. -/
def timerSlots : ℕ := 16

/-- The number `timeout` returns for a slot. -/
def slotId (i : ℕ) : BitVec 32 := BitVec.ofNat 32 (i + 1)

/-- The table, with the callback argument of each slot in use, and the clients. -/
structure TimerState (Ev Client : Type*) where
  slots : ℕ → Option Client
  ctx : Client → ReadContext Ev Unit

/-- A step of a read, a call of `timeout`, or a timer that expires. -/
inductive TimerLabel (Ev Client : Type*) where
  | act (c : Client) (a : ReadLabel Ev Unit)
  | timeout (c : Client)
  | expire (i : ℕ)

namespace TimerState

variable {Ev Client : Type*}

/-- The loop of `timeout`: the first slot that is not in use. -/
def freeSlot (s : TimerState Ev Client) : Option ℕ :=
  (List.range timerSlots).find? fun i => (s.slots i).isNone

/-- `cancel_timeout`: whoever is in the slot is removed. -/
def cancelSlot (s : TimerState Ev Client) (id : BitVec 32) : ℕ → Option Client :=
  if 1 ≤ id.toNat ∧ id.toNat ≤ timerSlots then update s.slots (id.toNat - 1) none else s.slots

/-- The table after a step of `c`: `CancelTimeout` is called after an interrupted wait, and after
a wait that has a timeout and finds its timer set. -/
def slotsAfter (s : TimerState Ev Client) (c : Client) : ReadLabel Ev Unit → ℕ → Option Client
  | .abort _ => if (s.ctx c).timer = 0 then s.slots else s.cancelSlot (s.ctx c).timer
  | .check _ =>
    if (s.ctx c).timeout ≠ 0 ∧ (s.ctx c).timer ≠ 0 then s.cancelSlot (s.ctx c).timer else s.slots
  | _ => s.slots

/-- What a client may do by itself: the ioctls only between its reads. -/
def allowed (x : ReadContext Ev Unit) : ReadLabel Ev Unit → Bool
  | .arm _ _ | .readTimeout _ => false
  | .setTimeout _ | .setQueueFlag _ | .getQueueOverflow => x.phase () == .idle
  | _ => true

/-- No client has opened the driver's device yet, or all have just done so. -/
def initial [Inhabited Ev] : TimerState Ev Client where
  slots _ := none
  ctx _ := ReadContext.opened

end TimerState

section System

variable {Ev Client : Type*} [DecidableEq Client]

def timerStep (s : TimerState Ev Client) : TimerLabel Ev Client → Option (TimerState Ev Client)
  | .act c a =>
    if TimerState.allowed (s.ctx c) a then
      (readStep (s.ctx c) a).map fun x => { slots := s.slotsAfter c a, ctx := update s.ctx c x }
    else none
  | .timeout c =>
    if (s.ctx c).phase () = .begun then
      some
        { slots :=
            if (s.ctx c).timeout = 0 then s.slots
            else
              match s.freeSlot with
              | some i => update s.slots i (some c)
              | none => s.slots
          ctx := update s.ctx c ((s.ctx c).arm () (s.freeSlot.map slotId)) }
    else none
  | .expire i =>
    match s.slots i with
    | some c =>
      some
        { slots := update s.slots i none
          ctx := update s.ctx c ((s.ctx c).readTimeout (slotId i)) }
    | none => none

/-- Any number of clients, their reads and the timers in any order. -/
def timerSystem [Inhabited Ev] : System (TimerState Ev Client) (TimerLabel Ev Client) :=
  System.ofFun (· = TimerState.initial) timerStep

end System

/-! ### The laws and the steps that keep them -/

section Laws

variable {Ev Client : Type*}

/-- A client that is blocked in a read with a timeout has a timer. -/
def Covered (s : TimerState Ev Client) : Prop :=
  ∀ c, (s.ctx c).timeout ≠ 0 → (s.ctx c).semaphore.Blocked () →
    ∃ i < timerSlots, s.slots i = some c

/-- A client that cancels removes no timer but its own. -/
def CancelsOwn (s : TimerState Ev Client) (a : TimerLabel Ev Client) (s' : TimerState Ev Client) :
    Prop :=
  ∀ c b, a = .act c b → ∀ i d, s.slots i = some d → s'.slots i ≠ some d → d = c

/-- A read with a timeout that finds no free slot is over at once. -/
def RefusesFull (s : TimerState Ev Client) (a : TimerLabel Ev Client) (s' : TimerState Ev Client) :
    Prop :=
  ∀ c, a = .timeout c → (s.ctx c).timeout ≠ 0 → s.freeSlot = none →
    (s'.ctx c).phase () = .idle

/-- A read has called `timeout` and is not yet at its wait. -/
def ReadPhase.beforeWait : ReadPhase → Bool
  | .armed _ | .ready => true
  | _ => false

/-- A read with a timeout calls `timeout` only while a slot is free, and a timer does not expire
between that call and the wait of its read. -/
def Timely (s : TimerState Ev Client) : TimerLabel Ev Client → Prop
  | .act _ _ => True
  | .timeout c => (s.ctx c).timeout ≠ 0 → s.freeSlot ≠ none
  | .expire i => (s.slots i).all fun c => !((s.ctx c).phase ()).beforeWait

instance (s : TimerState Ev Client) (a : TimerLabel Ev Client) : Decidable (Timely s a) :=
  match a with
  | .act _ _ => inferInstanceAs (Decidable True)
  | .timeout c => inferInstanceAs (Decidable ((s.ctx c).timeout ≠ 0 → s.freeSlot ≠ none))
  | .expire i =>
    inferInstanceAs (Decidable ((s.slots i).all (fun c => !((s.ctx c).phase ()).beforeWait) = true))

/-! ### A timer number in a context is a slot of that client -/

/-- The number is that of a slot armed for the client. -/
def Owns (slots : ℕ → Option Client) (id : BitVec 32) (c : Client) : Prop :=
  ∃ i < timerSlots, id = slotId i ∧ slots i = some c

theorem toNat_slotId {i : ℕ} (hi : i < timerSlots) : (slotId i).toNat = i + 1 := by
  rw [slotId, BitVec.toNat_ofNat]
  exact Nat.mod_eq_of_lt (lt_of_lt_of_le (Nat.succ_lt_succ hi) (by decide))

theorem slotId_inj {i j : ℕ} (hi : i < timerSlots) (hj : j < timerSlots)
    (h : slotId i = slotId j) : i = j := by
  have := congrArg BitVec.toNat h
  rw [toNat_slotId hi, toNat_slotId hj] at this
  omega

theorem slotId_ne_zero {i : ℕ} (hi : i < timerSlots) : slotId i ≠ 0 := by
  intro h
  have := congrArg BitVec.toNat h
  rw [toNat_slotId hi] at this
  exact absurd this (Nat.succ_ne_zero i)

theorem Owns.ne_zero {slots : ℕ → Option Client} {id : BitVec 32} {c : Client}
    (h : Owns slots id c) : id ≠ 0 := by
  obtain ⟨i, hi, rfl, -⟩ := h
  exact slotId_ne_zero hi

/-- What one client's context owes the table. -/
structure ClientInv (slots : ℕ → Option Client) (c : Client) (x : ReadContext Ev Unit) : Prop where
  shape : x.Shape
  timer : x.timer ≠ 0 → Owns slots x.timer c
  armed : ∀ id, x.phase () = .armed id → Owns slots id c ∧ x.timer = 0
  ready : x.timeout ≠ 0 → x.phase () = .ready ∨ x.semaphore.Blocked () → x.timer ≠ 0
  quiet : x.phase () = .idle ∨ x.phase () = .begun ∨ (∃ unit, x.phase () = .checked unit) →
    x.timer = 0
  untimed : x.timeout = 0 → x.timer = 0 ∧ ∀ id, x.phase () ≠ .armed id

/-- **Table and contexts.** -/
structure TimerInv (s : TimerState Ev Client) : Prop where
  clients : ∀ c, ClientInv s.slots c (s.ctx c)
  owner : ∀ i c, s.slots i = some c →
    i < timerSlots ∧ ((s.ctx c).phase () = .armed (slotId i) ∨ (s.ctx c).timer = slotId i)

theorem TimerInv.covered {s : TimerState Ev Client} (h : TimerInv s) : Covered s := by
  intro c htimeout hb
  obtain ⟨i, hi, -, hslot⟩ := (h.clients c).timer ((h.clients c).ready htimeout (Or.inr hb))
  exact ⟨i, hi, hslot⟩

theorem Owns.update {slots : ℕ → Option Client} {id : BitVec 32} {c : Client}
    (h : Owns slots id c) {i : ℕ} (hi : slots i ≠ some c) (v : Option Client) :
    Owns (Function.update slots i v) id c := by
  obtain ⟨j, hj, rfl, hslot⟩ := h
  refine ⟨j, hj, rfl, ?_⟩
  rw [update_of_ne]
  · exact hslot
  · rintro rfl
    exact hi hslot

theorem ClientInv.update {slots : ℕ → Option Client} {c : Client} {x : ReadContext Ev Unit}
    (h : ClientInv slots c x) {i : ℕ} (hi : slots i ≠ some c) (v : Option Client) :
    ClientInv (Function.update slots i v) c x where
  shape := h.shape
  timer ht := (h.timer ht).update hi v
  armed id ht := ⟨(h.armed id ht).1.update hi v, (h.armed id ht).2⟩
  ready := h.ready
  quiet := h.quiet
  untimed := h.untimed

/-! ### What a step of a read does to its timer -/

/-- The context `x'` and the table `slots'` after a step of the client `c`. -/
inductive ClientEffect (s : TimerState Ev Client) (c : Client) (x' : ReadContext Ev Unit)
    (slots' : ℕ → Option Client) : Prop
  /-- the read stays where it is -/
  | stay (hslots : slots' = s.slots) (htimer : x'.timer = (s.ctx c).timer)
      (htimeout : x'.timeout = (s.ctx c).timeout) (hphase : x'.phase () = (s.ctx c).phase ())
      (hb : x'.semaphore.Blocked () → (s.ctx c).semaphore.Blocked ())
  /-- the client sets its timeout between two reads -/
  | retime (hslots : slots' = s.slots) (htimer : x'.timer = (s.ctx c).timer)
      (hidle : (s.ctx c).phase () = .idle) (hphase : x'.phase () = .idle)
  /-- a read begins -/
  | start (hslots : slots' = s.slots) (htimer : x'.timer = (s.ctx c).timer)
      (htimeout : x'.timeout = (s.ctx c).timeout) (hidle : (s.ctx c).phase () = .idle)
      (hphase : x'.phase () = .begun)
  /-- the number of the slot is stored -/
  | store (hslots : slots' = s.slots) (harmed : (s.ctx c).phase () = .armed x'.timer)
      (htimeout : x'.timeout = (s.ctx c).timeout) (hphase : x'.phase () = .ready)
  /-- a section of the wait -/
  | wait (hslots : slots' = s.slots) (htimer : x'.timer = (s.ctx c).timer)
      (htimeout : x'.timeout = (s.ctx c).timeout)
      (hafter : ∀ id, (s.ctx c).phase () ≠ .armed id)
      (hphase : x'.phase () = .waiting ∨ x'.phase () = .interrupted ∨
        ∃ unit, x'.phase () = .woken unit)
      (hb : x'.semaphore.Blocked () →
        (s.ctx c).phase () = .ready ∨ (s.ctx c).semaphore.Blocked ())
  /-- the read gives its timer back, or had none -/
  | finish (hslots : slots' = if (s.ctx c).timer = 0 then s.slots
        else s.cancelSlot (s.ctx c).timer)
      (htimer : x'.timer = 0) (htimeout : x'.timeout = (s.ctx c).timeout)
      (hafter : ∀ id, (s.ctx c).phase () ≠ .armed id)
      (hphase : x'.phase () = .idle ∨ ∃ unit, x'.phase () = .checked unit)

theorem blocked_of_cdcmUp {sem : Sem Unit} (hb : sem.cdcmUp.Blocked ()) : sem.Blocked () := by
  obtain ⟨w', hw', hup'⟩ := hb
  obtain ⟨w, hw, -, hup⟩ := (Sem.marks_cdcmUp sem).sleeping hw'
  rcases hup with hup | hup
  · exact ⟨w, hw, hup.symm.trans hup'⟩
  · cases hup.symm.trans hup'

theorem waited_phase (x : ReadContext Ev Unit) (sem : Sem Unit) (unit : Bool) :
    (x.waited () sem unit).phase () = .waiting ∨ (x.waited () sem unit).phase () = .interrupted ∨
      ∃ unit', (x.waited () sem unit).phase () = .woken unit' := by
  rw [ReadContext.waited]
  split
  · split
    · exact Or.inr (Or.inr ⟨unit, ReadContext.goto_phase_self _ () _⟩)
    · exact Or.inr (Or.inl (ReadContext.goto_phase_self _ () _))
  · exact Or.inl (ReadContext.goto_phase_self _ () _)

theorem ReadContext.cancelTimeout_timer (x : ReadContext Ev Unit) : x.cancelTimeout.timer = 0 := by
  rw [ReadContext.cancelTimeout]
  split
  · assumption
  · rfl

theorem ReadContext.cancelTimeout_timeout (x : ReadContext Ev Unit) :
    x.cancelTimeout.timeout = x.timeout := by
  rw [ReadContext.cancelTimeout]
  split
  · rfl
  · rfl

theorem clientEffect_of_step {s : TimerState Ev Client} {c : Client}
    (h : ClientInv s.slots c (s.ctx c)) {a : ReadLabel Ev Unit}
    (hallowed : TimerState.allowed (s.ctx c) a = true) {x' : ReadContext Ev Unit}
    (hs : readStep (s.ctx c) a = some x') : ClientEffect s c x' (s.slotsAfter c a) := by
  cases a with
  | deliver ev =>
    cases hs
    by_cases hlt : (s.ctx c).queue.size < queueSize
    · rw [ReadContext.deliver, if_pos hlt]
      exact .stay rfl rfl rfl rfl blocked_of_cdcmUp
    · rw [ReadContext.deliver, if_neg hlt]
      exact .stay rfl rfl rfl rfl id
  | start t =>
    rw [readStep] at hs
    split at hs
    · rename_i hidle
      cases hs
      rw [ReadContext.start]
      split
      · exact .start rfl rfl rfl hidle (ReadContext.goto_phase_self _ () _)
      · exact .start rfl rfl rfl hidle (ReadContext.goto_phase_self _ () _)
    · cases hs
  | arm t slot => cases hallowed
  | store t =>
    rw [readStep] at hs
    split at hs
    · rename_i id harmed
      cases hs
      exact .store rfl harmed rfl (ReadContext.goto_phase_self _ () _)
    · cases hs
  | wait t signal =>
    rw [readStep] at hs
    split at hs
    · rename_i hready
      obtain ⟨p, hp⟩ :=
        ReadContext.waited_frame (s.ctx c) () ((s.ctx c).semaphore.swait () .sigabort signal) true
      have hphase :=
        waited_phase (s.ctx c) ((s.ctx c).semaphore.swait () .sigabort signal) true
      cases hs
      rw [hp] at hphase ⊢
      exact .wait rfl rfl rfl (by simp [hready]) hphase fun _ => Or.inl hready
    · cases hs
  | wake t left signal =>
    rw [readStep] at hs
    split at hs
    · rename_i w hw
      obtain ⟨p, hp⟩ := ReadContext.waited_frame (s.ctx c) ()
        ((s.ctx c).semaphore.recheck () w left signal) (w.up == some .up)
      have hphase := waited_phase (s.ctx c) ((s.ctx c).semaphore.recheck () w left signal)
        (w.up == some .up)
      cases hs
      rw [hp] at hphase ⊢
      have hwaiting := (h.shape.linked.waiting ()).2 ⟨w, hw⟩
      refine .wait rfl rfl rfl (by simp [hwaiting]) hphase fun hb => Or.inr ?_
      cases hup : w.up with
      | none => exact ⟨w, hw, hup⟩
      | some waker =>
        exact absurd hb (Sem.not_blocked_of_running (Sem.recheck_of_up hup left signal))
    · cases hs
  | abort t =>
    rw [readStep] at hs
    split at hs
    · rename_i hint
      cases hs
      refine .finish rfl (s.ctx c).cancelTimeout_timer (s.ctx c).cancelTimeout_timeout ?_
        (Or.inl (ReadContext.goto_phase_self _ () _))
      intro id harmed
      cases hint.symm.trans harmed
    · cases hs
  | check t =>
    rw [readStep] at hs
    split at hs
    · rename_i unit hwoken
      have hafter : ∀ id, (s.ctx c).phase () ≠ .armed id := by
        intro id harmed
        cases hwoken.symm.trans harmed
      cases hs
      by_cases htimeout : (s.ctx c).timeout = 0
      · have htimer := (h.untimed htimeout).1
        rw [ReadContext.check, if_neg (not_not.2 htimeout)]
        refine .finish ?_ htimer rfl hafter (Or.inr ⟨unit, ReadContext.goto_phase_self _ () _⟩)
        simp only [TimerState.slotsAfter, htimer, htimeout, ne_eq, not_true_eq_false, false_and,
          if_false, if_true]
      · rw [ReadContext.check, if_pos htimeout]
        by_cases htimer : (s.ctx c).timer = 0
        · rw [if_neg (not_not.2 htimer)]
          refine .finish ?_ htimer rfl hafter (Or.inl (ReadContext.goto_phase_self _ () _))
          simp only [TimerState.slotsAfter, htimer, ne_eq, not_true_eq_false, and_false, if_false,
            if_true]
        · rw [if_pos htimer]
          refine .finish ?_ (s.ctx c).cancelTimeout_timer (s.ctx c).cancelTimeout_timeout hafter
            (Or.inr ⟨unit, ReadContext.goto_phase_self _ () _⟩)
          rw [TimerState.slotsAfter, if_pos ⟨htimeout, htimer⟩, if_neg htimer]
    · cases hs
  | dequeue t =>
    rw [readStep] at hs
    split at hs
    · rename_i unit hchecked
      have htimer := h.quiet (Or.inr (Or.inr ⟨unit, hchecked⟩))
      have hafter : ∀ id, (s.ctx c).phase () ≠ .armed id := by
        intro id harmed
        cases hchecked.symm.trans harmed
      cases hs
      rw [ReadContext.dequeue]
      split
      · exact .finish (by rw [if_pos htimer]; rfl) htimer rfl hafter
          (Or.inl (ReadContext.goto_phase_self _ () _))
      · exact .finish (by rw [if_pos htimer]; rfl) htimer rfl hafter
          (Or.inl (ReadContext.goto_phase_self _ () _))
    · cases hs
  | readTimeout id => cases hallowed
  | setTimeout ticks =>
    cases hs
    have hidle : (s.ctx c).phase () = .idle := by simpa [TimerState.allowed] using hallowed
    exact .retime rfl rfl hidle hidle
  | setQueueFlag off =>
    cases hs
    exact .stay rfl rfl rfl rfl id
  | getQueueOverflow =>
    cases hs
    exact .stay rfl rfl rfl rfl id

/-! ### Each step keeps table and contexts together -/

theorem phase_of_blocked {x : ReadContext Ev Unit} (h : x.Shape) (hb : x.semaphore.Blocked ()) :
    x.phase () = .waiting := by
  obtain ⟨w, hw, -⟩ := hb
  exact (h.linked.waiting ()).2 ⟨w, hw⟩

theorem cancelSlot_slotId {s : TimerState Ev Client} {i : ℕ} (hi : i < timerSlots) :
    s.cancelSlot (slotId i) = update s.slots i none := by
  have hnat := toNat_slotId hi
  have hpred : (slotId i).toNat - 1 = i := by omega
  rw [TimerState.cancelSlot, hpred, if_pos]
  omega

theorem ClientEffect.slots {s : TimerState Ev Client} {c : Client} {x' : ReadContext Ev Unit}
    {slots' : ℕ → Option Client} (heff : ClientEffect s c x' slots')
    (h : ClientInv s.slots c (s.ctx c)) :
    slots' = s.slots ∨ ∃ i < timerSlots, s.slots i = some c ∧ (s.ctx c).timer = slotId i ∧
      slots' = update s.slots i none := by
  cases heff with
  | stay hslots | retime hslots | start hslots | store hslots | wait hslots => exact Or.inl hslots
  | finish hslots =>
    by_cases htimer : (s.ctx c).timer = 0
    · rw [if_pos htimer] at hslots
      exact Or.inl hslots
    · obtain ⟨i, hi, hid, hslot⟩ := h.timer htimer
      rw [if_neg htimer, hid, cancelSlot_slotId hi] at hslots
      exact Or.inr ⟨i, hi, hslot, hid, hslots⟩

theorem ClientInv.of_quiet {slots : ℕ → Option Client} {c : Client} {x : ReadContext Ev Unit}
    (hshape : x.Shape) (htimer : x.timer = 0)
    (hphase : x.phase () ≠ .ready ∧ x.phase () ≠ .waiting ∧ ∀ id, x.phase () ≠ .armed id) :
    ClientInv slots c x where
  shape := hshape
  timer hne := absurd htimer hne
  armed id harmed := absurd harmed (hphase.2.2 id)
  ready _ hor := by
    rcases hor with hready | hb
    · exact absurd hready hphase.1
    · exact absurd (phase_of_blocked hshape hb) hphase.2.1
  quiet _ := htimer
  untimed _ := ⟨htimer, hphase.2.2⟩

theorem ClientEffect.clientInv {s : TimerState Ev Client} {c : Client} {x' : ReadContext Ev Unit}
    {slots' : ℕ → Option Client} (heff : ClientEffect s c x' slots')
    (h : ClientInv s.slots c (s.ctx c)) (hshape : x'.Shape) : ClientInv slots' c x' := by
  cases heff with
  | stay hslots htimer htimeout hphase hb =>
    subst hslots
    refine ⟨hshape, ?_, ?_, ?_, ?_, ?_⟩
    · rw [htimer]
      exact h.timer
    · rw [hphase, htimer]
      exact h.armed
    · rw [htimeout, hphase, htimer]
      exact fun hto hor => h.ready hto (hor.imp_right hb)
    · rw [hphase, htimer]
      exact h.quiet
    · rw [htimeout, hphase, htimer]
      exact h.untimed
  | retime hslots htimer hidle hphase =>
    refine .of_quiet hshape (htimer.trans (h.quiet (Or.inl hidle))) ?_
    rw [hphase]
    simp
  | start hslots htimer htimeout hidle hphase =>
    refine .of_quiet hshape (htimer.trans (h.quiet (Or.inl hidle))) ?_
    rw [hphase]
    simp
  | store hslots harmed htimeout hphase =>
    subst hslots
    obtain ⟨howns, -⟩ := h.armed _ harmed
    refine ⟨hshape, fun _ => howns, ?_, fun _ _ => howns.ne_zero, ?_, ?_⟩
    · intro id harmed'
      cases hphase.symm.trans harmed'
    · rintro (hp | hp | ⟨unit, hp⟩)
      · cases hphase.symm.trans hp
      · cases hphase.symm.trans hp
      · cases hphase.symm.trans hp
    · intro hzero
      exact absurd harmed ((h.untimed (htimeout ▸ hzero)).2 _)
  | wait hslots htimer htimeout hafter hphase hb =>
    subst hslots
    have hnot : ∀ p, p ≠ .waiting → p ≠ .interrupted → (∀ unit, p ≠ .woken unit) →
        x'.phase () ≠ p := by
      rintro p hp₁ hp₂ hp₃ rfl
      rcases hphase with hp | hp | ⟨unit, hp⟩
      · exact hp₁ hp
      · exact hp₂ hp
      · exact hp₃ unit hp
    refine ⟨hshape, ?_, ?_, ?_, ?_, ?_⟩
    · rw [htimer]
      exact h.timer
    · intro id harmed
      exact absurd harmed (hnot _ (by simp) (by simp) (by simp))
    · rw [htimeout, htimer]
      rintro hto (hready | hb')
      · exact absurd hready (hnot _ (by simp) (by simp) (by simp))
      · exact h.ready hto (hb hb')
    · rintro (hp | hp | ⟨unit, hp⟩)
      · exact absurd hp (hnot _ (by simp) (by simp) (by simp))
      · exact absurd hp (hnot _ (by simp) (by simp) (by simp))
      · exact absurd hp (hnot _ (by simp) (by simp) (by simp))
    · rw [htimeout, htimer]
      intro hzero
      exact ⟨(h.untimed hzero).1, fun id => hnot (.armed id) (by simp) (by simp) (by simp)⟩
  | finish hslots htimer htimeout hafter hphase =>
    refine .of_quiet hshape htimer ?_
    rcases hphase with hp | ⟨unit, hp⟩
    · rw [hp]
      simp
    · rw [hp]
      simp

theorem ClientEffect.owner {s : TimerState Ev Client} {c : Client} {x' : ReadContext Ev Unit}
    {slots' : ℕ → Option Client} (heff : ClientEffect s c x' slots') (h : TimerInv s) {i : ℕ}
    (hslot : slots' i = some c) :
    i < timerSlots ∧ (x'.phase () = .armed (slotId i) ∨ x'.timer = slotId i) := by
  have hc := h.clients c
  cases heff with
  | stay hslots htimer htimeout hphase hb =>
    rw [hphase, htimer]
    exact h.owner i c (hslots ▸ hslot)
  | retime hslots htimer hidle hphase =>
    obtain ⟨hi, how⟩ := h.owner i c (hslots ▸ hslot)
    refine ⟨hi, Or.inr (how.elim ?_ htimer.trans)⟩
    intro harmed
    cases hidle.symm.trans harmed
  | start hslots htimer htimeout hidle hphase =>
    obtain ⟨hi, how⟩ := h.owner i c (hslots ▸ hslot)
    refine ⟨hi, Or.inr (how.elim ?_ htimer.trans)⟩
    intro harmed
    cases hidle.symm.trans harmed
  | store hslots harmed htimeout hphase =>
    obtain ⟨hi, how⟩ := h.owner i c (hslots ▸ hslot)
    refine ⟨hi, Or.inr (how.elim ?_ ?_)⟩
    · intro harmed'
      rw [harmed, ReadPhase.armed.injEq] at harmed'
      exact harmed'
    · intro htimer
      exact absurd ((hc.armed _ harmed).2.symm.trans htimer).symm (slotId_ne_zero hi)
  | wait hslots htimer htimeout hafter hphase hb =>
    obtain ⟨hi, how⟩ := h.owner i c (hslots ▸ hslot)
    exact ⟨hi, Or.inr (how.elim (fun harmed => absurd harmed (hafter _)) htimer.trans)⟩
  | finish hslots htimer htimeout hafter hphase =>
    exfalso
    by_cases hzero : (s.ctx c).timer = 0
    · rw [if_pos hzero] at hslots
      obtain ⟨hi, harmed | htimer'⟩ := h.owner i c (hslots ▸ hslot)
      · exact hafter _ harmed
      · exact slotId_ne_zero hi (htimer'.symm.trans hzero)
    · obtain ⟨j, hj, hid, hslotj⟩ := hc.timer hzero
      rw [if_neg hzero, hid, cancelSlot_slotId hj] at hslots
      rw [hslots] at hslot
      by_cases hij : i = j
      · subst hij
        rw [update_self] at hslot
        cases hslot
      · rw [update_of_ne hij] at hslot
        obtain ⟨hi, harmed | htimer'⟩ := h.owner i c hslot
        · exact hafter _ harmed
        · exact hij (slotId_inj hi hj (htimer'.symm.trans hid))

variable [DecidableEq Client]

theorem TimerInv.act {s s' : TimerState Ev Client} (h : TimerInv s) {c : Client}
    {a : ReadLabel Ev Unit} (hs : timerStep s (.act c a) = some s') :
    TimerInv s' ∧ ∀ i d, s.slots i = some d → s'.slots i ≠ some d → d = c := by
  rw [timerStep] at hs
  split at hs
  swap
  · cases hs
  rename_i hallowed
  obtain ⟨x', hx', rfl⟩ := Option.map_eq_some_iff.1 hs
  have heff := clientEffect_of_step (h.clients c) hallowed hx'
  have hinv := heff.clientInv (h.clients c) ((h.clients c).shape.step hx')
  rcases heff.slots (h.clients c) with hslots | ⟨i, hi, hslot, -, hslots⟩
  · refine ⟨⟨?_, ?_⟩, ?_⟩
    · intro d
      by_cases hd : d = c
      · subst hd
        simp only [update_self]
        exact hinv
      · simp only [update_of_ne hd, hslots]
        exact h.clients d
    · intro i d hslot
      by_cases hd : d = c
      · subst hd
        simp only [update_self]
        exact heff.owner h hslot
      · simp only [update_of_ne hd]
        exact h.owner i d (hslots ▸ hslot)
    · intro i d hslot hne
      exact absurd (hslots ▸ hslot) hne
  · have hother : ∀ d, d ≠ c → s.slots i ≠ some d := by
      intro d hd heq
      exact hd (Option.some.inj (heq.symm.trans hslot))
    refine ⟨⟨?_, ?_⟩, ?_⟩
    · intro d
      by_cases hd : d = c
      · subst hd
        simp only [update_self]
        exact hinv
      · simp only [update_of_ne hd, hslots]
        exact (h.clients d).update (hother d hd) none
    · intro j d hslotj
      by_cases hd : d = c
      · subst hd
        simp only [update_self]
        exact heff.owner h hslotj
      · simp only [update_of_ne hd]
        refine h.owner j d ?_
        simp only [hslots] at hslotj
        by_cases hij : j = i
        · subst hij
          rw [update_self] at hslotj
          cases hslotj
        · rwa [update_of_ne hij] at hslotj
    · intro j d hslotj hne
      by_cases hij : j = i
      · subst hij
        exact Option.some.inj (hslotj.symm.trans hslot)
      · simp only [hslots, update_of_ne hij] at hne
        exact absurd hslotj hne

omit [DecidableEq Client] in
theorem freeSlot_spec {s : TimerState Ev Client} {i : ℕ} (h : s.freeSlot = some i) :
    i < timerSlots ∧ s.slots i = none := by
  have hmem := List.mem_of_find?_eq_some h
  have hnone := List.find?_some h
  exact ⟨List.mem_range.1 hmem, by simpa using hnone⟩

omit [DecidableEq Client] in
theorem TimerInv.no_slot {s : TimerState Ev Client} (h : TimerInv s) {c : Client}
    (hbegun : (s.ctx c).phase () = .begun) (i : ℕ) : s.slots i ≠ some c := by
  intro hslot
  obtain ⟨hi, harmed | htimer⟩ := h.owner i c hslot
  · cases hbegun.symm.trans harmed
  · have hzero := (h.clients c).quiet (Or.inr (Or.inl hbegun))
    exact slotId_ne_zero hi (htimer.symm.trans hzero)

theorem TimerInv.timeout {s s' : TimerState Ev Client} (h : TimerInv s) {c : Client}
    (hok : Timely s (.timeout c)) (hs : timerStep s (.timeout c) = some s') : TimerInv s' := by
  rw [timerStep] at hs
  split at hs
  swap
  · cases hs
  rename_i hbegun
  have hc := h.clients c
  have hzero := hc.quiet (Or.inr (Or.inl hbegun))
  have hne : (s.ctx c).phase () ≠ .waiting := by
    rw [hbegun]
    simp
  have hrunning : ¬ (s.ctx c).semaphore.Blocked () :=
    fun hb => hne (phase_of_blocked hc.shape hb)
  cases hs
  by_cases htimeout : (s.ctx c).timeout = 0
  · have harm : (s.ctx c).arm () (s.freeSlot.map slotId) = (s.ctx c).goto () .ready := by
      rw [ReadContext.arm.eq_def, if_pos htimeout]
    refine ⟨?_, ?_⟩
    · intro d
      simp only [if_pos htimeout, harm]
      by_cases hd : d = c
      · subst hd
        simp only [update_self]
        refine ⟨hc.shape.goto rfl rfl rfl hne (by simp), fun ht => absurd hzero ht, ?_,
          fun hto => absurd htimeout hto, fun _ => hzero, fun _ => ⟨hzero, ?_⟩⟩
        · intro id harmed
          rw [ReadContext.goto_phase_self] at harmed
          cases harmed
        · intro id harmed
          rw [ReadContext.goto_phase_self] at harmed
          cases harmed
      · simp only [update_of_ne hd]
        exact h.clients d
    · intro i d hslot
      simp only [if_pos htimeout] at hslot
      by_cases hd : d = c
      · subst hd
        exact absurd hslot (h.no_slot hbegun i)
      · simp only [update_of_ne hd]
        exact h.owner i d hslot
  · cases hfree : s.freeSlot with
    | none => exact absurd hfree (hok htimeout)
    | some i =>
      obtain ⟨hi, hnone⟩ := freeSlot_spec hfree
      have harm : (s.ctx c).arm () (some (slotId i)) =
          { s.ctx c with pending := slotId i :: (s.ctx c).pending }.goto ()
            (.armed (slotId i)) := by
        rw [ReadContext.arm, if_neg htimeout]
      simp only [if_neg htimeout, Option.map_some, harm]
      refine ⟨?_, ?_⟩
      · intro d
        by_cases hd : d = c
        · subst hd
          simp only [update_self]
          refine ⟨hc.shape.goto rfl rfl rfl hne (by simp), fun ht => absurd hzero ht, ?_, ?_, ?_,
            fun hto => absurd hto htimeout⟩
          · intro id harmed
            rw [ReadContext.goto_phase_self, ReadPhase.armed.injEq] at harmed
            subst harmed
            exact ⟨⟨i, hi, rfl, update_self _ _ _⟩, hzero⟩
          · rintro - (hready | hb)
            · rw [ReadContext.goto_phase_self] at hready
              cases hready
            · exact absurd hb hrunning
          · rw [ReadContext.goto_phase_self]
            rintro (hp | hp | ⟨unit, hp⟩)
            · cases hp
            · cases hp
            · cases hp
        · simp only [update_of_ne hd]
          exact (h.clients d).update (by simp [hnone]) _
      · intro j d hslot
        by_cases hij : j = i
        · subst hij
          simp only [update_self, Option.some.injEq] at hslot
          subst hslot
          simp only [update_self]
          exact ⟨hi, Or.inl (ReadContext.goto_phase_self _ () _)⟩
        · simp only [update_of_ne hij] at hslot
          by_cases hd : d = c
          · subst hd
            exact absurd hslot (h.no_slot hbegun j)
          · simp only [update_of_ne hd]
            exact h.owner j d hslot

theorem TimerInv.expire {s s' : TimerState Ev Client} (h : TimerInv s) {i : ℕ}
    (hok : Timely s (.expire i)) (hs : timerStep s (.expire i) = some s') : TimerInv s' := by
  rw [timerStep] at hs
  split at hs
  swap
  · cases hs
  rename_i c hslot
  have hc := h.clients c
  have hafter : (s.ctx c).phase () ≠ .ready ∧ ∀ id, (s.ctx c).phase () ≠ .armed id := by
    simp only [Timely, hslot, Option.all_some, Bool.not_eq_true'] at hok
    refine ⟨?_, ?_⟩
    · intro hp
      rw [hp] at hok
      cases hok
    · intro id hp
      rw [hp] at hok
      cases hok
  obtain ⟨hi, htimer⟩ := h.owner i c hslot
  replace htimer := htimer.resolve_left (hafter.2 _)
  have hother : ∀ d, d ≠ c → s.slots i ≠ some d := by
    intro d hd heq
    exact hd (Option.some.inj (heq.symm.trans hslot))
  cases hs
  refine ⟨?_, ?_⟩
  · intro d
    by_cases hd : d = c
    · subst hd
      simp only [update_self]
      refine ⟨hc.shape.sreset rfl rfl hc.shape.ring hc.shape.missed, fun ht => absurd rfl ht, ?_,
        ?_, fun _ => rfl, fun _ => ⟨rfl, hafter.2⟩⟩
      · intro id harmed
        exact absurd harmed (hafter.2 id)
      · rintro - (hready | hb)
        · exact absurd hready hafter.1
        · exact absurd hb (Sem.not_blocked_sreset hc.shape.sem)
    · simp only [update_of_ne hd]
      exact (h.clients d).update (hother d hd) none
  · intro j d hslotj
    by_cases hij : j = i
    · subst hij
      simp only [update_self] at hslotj
      cases hslotj
    · simp only [update_of_ne hij] at hslotj
      obtain ⟨hj, how⟩ := h.owner j d hslotj
      by_cases hd : d = c
      · subst hd
        rcases how with harmed | htimer'
        · exact absurd harmed (hafter.2 _)
        · exact absurd (slotId_inj hj hi (htimer'.symm.trans htimer)) hij
      · simp only [update_of_ne hd]
        exact ⟨hj, how⟩

/-! ### Whole runs -/

omit [DecidableEq Client] in
theorem timerInv_initial [Inhabited Ev] : TimerInv (TimerState.initial : TimerState Ev Client) where
  clients _ :=
    .of_quiet ReadContext.shape_opened rfl (by simp [TimerState.initial, ReadContext.opened])
  owner i c hslot := by cases hslot

theorem TimerInv.step {s s' : TimerState Ev Client} (h : TimerInv s) {a : TimerLabel Ev Client}
    (hok : Timely s a) (hs : timerStep s a = some s') : TimerInv s' := by
  cases a with
  | act c b => exact (h.act hs).1
  | timeout c => exact h.timeout hok hs
  | expire i => exact h.expire hok hs

theorem refusesFull_iff {s s' : TimerState Ev Client} {c : Client}
    (hs : timerStep s (.timeout c) = some s') :
    RefusesFull s (.timeout c) s' ↔ Timely s (.timeout c) := by
  constructor
  · intro hrefuses htimeout hfull
    have hidle := hrefuses c rfl htimeout hfull
    rw [timerStep] at hs
    split at hs
    · cases hs
      simp only [update_self, hfull, Option.map_none, ReadContext.arm, if_neg htimeout,
        ReadContext.goto_phase_self] at hidle
      cases hidle
    · cases hs
  · rintro hok d heq htimeout hfull
    cases heq
    exact absurd hfull (hok htimeout)

/-- **The timers of the reads.**  In every run in which a read with a timeout finds a free slot
and no timer expires before its read is at the wait: a client blocked in a read with a timeout has
a timer, and a step that cancels removes no timer of another client.  A read that finds no free
slot is never refused. -/
theorem timerSystem_laws [Inhabited Ev] (s : TimerState Ev Client)
    (h : timerSystem.ReachUnder Timely s) :
    Covered s ∧
    (∀ a s', timerStep s a = some s' → CancelsOwn s a s' ∧ (Timely s a → RefusesFull s a s')) ∧
    ∀ c s', timerStep s (.timeout c) = some s' →
      (RefusesFull s (.timeout c) s' ↔ Timely s (.timeout c)) := by
  have hinv : TimerInv s := by
    refine h.invariant ?_ ?_
    · intro s₀ hs₀
      exact hs₀ ▸ timerInv_initial
    · intro s₀ a s₁ hinv hok hs
      exact hinv.step hok hs
  refine ⟨hinv.covered, ?_, fun c s' hs => refusesFull_iff hs⟩
  intro a s' hs
  refine ⟨?_, ?_⟩
  · rintro c b rfl
    exact (hinv.act hs).2
  · rintro hok c rfl htimeout hfull
    exact absurd hfull (hok htimeout)

end Laws

/-- Client 1 is blocked with the second timer after the first read of client 0 has timed out and
its second one has begun. -/
theorem timerSystem_laws_run :
    ∃ s : TimerState ℕ ℕ, timerSystem.ReachUnder Timely s ∧ s.slots 1 = some 1 ∧
      (s.ctx 0).returned = [.etime] ∧ Covered s := by
  have hinit : timerSystem.ReachUnder Timely (TimerState.initial : TimerState ℕ ℕ) :=
    System.ReachUnder.init rfl
  let s : TimerState ℕ ℕ := System.runUnder timerStep Timely TimerState.initial
    [.act 0 (.start ()), .timeout 0, .act 0 (.store ()), .act 0 (.wait () false),
      .act 1 (.start ()), .timeout 1, .act 1 (.store ()), .act 1 (.wait () false), .expire 0,
      .act 0 (.wake () 3 false), .act 0 (.check ()), .act 0 (.start ())]
  have hs : timerSystem.ReachUnder Timely s := System.ReachUnder.runUnder hinit _
  exact ⟨s, hs, by decide, by decide, (timerSystem_laws s hs).1⟩

/-- The timer expires before its number is stored: the client blocks without one. -/
theorem expired_timer_leaves_read_uncovered :
    ¬ ∀ s : TimerState ℕ ℕ, timerSystem.Reach s → Covered s := by
  intro hall
  have hrun : ∃ s : TimerState ℕ ℕ, System.runFun timerStep TimerState.initial
      [.act 0 (.start ()), .timeout 0, .expire 0, .act 0 (.store ()),
        .act 0 (.wait () false)] = some s ∧ (s.ctx 0).timeout ≠ 0 ∧
      (s.ctx 0).semaphore.Blocked () ∧ ∀ i < timerSlots, s.slots i ≠ some 0 :=
    ⟨_, rfl, by decide, ⟨_, rfl, rfl⟩, by decide⟩
  obtain ⟨s, hs, htimeout, hb, hnone⟩ := hrun
  have hinit : timerSystem.Reach (TimerState.initial : TimerState ℕ ℕ) := System.Reach.init rfl
  obtain ⟨i, hi, hslot⟩ := hall s (System.Reach.runFun hinit _ hs) 0 htimeout hb
  exact hnone i hi hslot

end KernelModules.Ctr
