import Mathlib.Tactic
import KernelModules.Lib.Transition
import KernelModules.Sis33.SizeCheck

/-!
# The number of events of a SIS3300 acquisition

The SIS3300 goes on sampling events until its bank is full.  The driver ends an acquisition on an
event interrupt once the requested number is there, on the last-event interrupt, or when it is
cancelled, and each of the three makes the number of events from the event counter, which is one
ahead while an event is being sampled.

* `EventCount` is the bank, the driver and the history of one card, `countStep` the steps: those of
  the board, of the core, and of the driver's two routines one register access at a time;
* `CountResult` is one end of an acquisition: the number the driver wrote and the events that had
  been acquired then;
* `CountInv` is what any access of a routine knows of the value it has read (`Reading`), and
  `eventCount_laws` what the results are;
* `eventCount_not_exact` are the runs in which the number is not the one of the events acquired.
-/

namespace KernelModules.Sis33

open KernelModules.Lib

/-! ### The board and the driver -/

/-- Where the driver is under the card's lock: before reading the counter or the busy flag in
`sis3300_acq_cancel`, before reading the status or the counter in the loop of `sis3300_irq_work`,
before clearing the event interrupt and before reading the busy flag in its first half, and before
its second half. -/
inductive CountPc where
  | free
  | cancelCounter
  | cancelBusy (currEvent : BitVec 32)
  | irqStatus
  | irqCounter (ev lev : Bool)
  | irqEv (currEvent : BitVec 32) (lev : Bool)
  | irqBusy (currEvent : BitVec 32) (lev : Bool)
  | irqLev (currEvent : BitVec 32)
  deriving DecidableEq, Repr

/-- What has ended an acquisition. -/
inductive EndPath where
  | event
  | lastEvent
  | cancel
  deriving DecidableEq, Repr

/-- The end of an acquisition: the number of events the driver writes, the value of the counter and
the busy flag it has read, the events completely acquired by then and when it read the counter, the
number requested and the number that fit in the bank. -/
structure CountResult where
  acquisition : ℕ
  path : EndPath
  nrEvents : BitVec 32
  currEvent : BitVec 32
  busy : Bool
  acquired : ℕ
  seen : ℕ
  reqEvents : BitVec 32
  fit : ℕ
  deriving DecidableEq, Repr

/-- The current bank (is it armed and sampling, its `EV_COUNTER`, the two status bits), the segment
and the driver (`starting` is between the unlock of an acquisition and its arming), and the history:
the events that fit and that have been acquired, those acquired when the counter was last read, the
number of the acquisition, and the ends so far. -/
structure EventCount where
  armed : Bool
  sampling : Bool
  evCounter : ℕ
  statusEv : Bool
  statusLev : Bool
  acquiring : Bool
  starting : Bool
  reqEvents : BitVec 32
  nrEvents : BitVec 32
  pc : CountPc
  fit : ℕ
  acquired : ℕ
  seen : ℕ
  acquisition : ℕ
  results : List CountResult
  deriving DecidableEq, Repr

/-- A board event (an event starts; it stops, the last one or not), a section of the core (an
acquisition begins, with the value the bank's counter still holds; it is armed), the start of one
of the driver's routines, and the next access of the one that runs. -/
inductive CountCall where
  | startEvent
  | stopEvent (last : Bool)
  | acquire (nrEvents evLength : BitVec 32) (old : ℕ)
  | arm
  | cancel
  | irq
  | driver
  deriving DecidableEq, Repr

/-- `SIS3300_MAX_NR_EVENTS`. -/
def sis3300MaxNrEvents : BitVec 32 := 1024

namespace EventCount

def Fresh (s : EventCount) : Prop :=
  s.armed = false ∧ s.sampling = false ∧ s.statusEv = false ∧ s.statusLev = false ∧
    s.acquiring = false ∧ s.starting = false ∧ s.reqEvents = 0 ∧ s.nrEvents = 0 ∧
    s.pc = .free ∧ s.acquisition = 0 ∧ s.results = []

/-- The tests of `sis33_acq_start_ioctl`; the first length is the one of the bank. -/
def accepts (lengths : List (BitVec 32)) (nrEvents evLength : BitVec 32) : Bool :=
  nrEvents ≤ sis3300MaxNrEvents && lengths.contains evLength &&
    (nrEvents * evLength).toNat ≤ (lengths.headD 0).toNat

/-- `sis3300_finish_acquisition`, with the number its caller writes. -/
def finishAcquisition (s : EventCount) (path : EndPath) (currEvent : BitVec 32) (busy : Bool)
    (nrEvents : BitVec 32) : EventCount :=
  { s with
    armed := false
    sampling := false
    acquiring := false
    nrEvents := nrEvents
    results := ⟨s.acquisition, path, nrEvents, currEvent, busy, s.acquired, s.seen, s.reqEvents,
      s.fit⟩ :: s.results }

/-- What follows the first half of `sis3300_do_irq`. -/
def afterEv (s : EventCount) (currEvent : BitVec 32) (lev : Bool) : EventCount :=
  { s with pc := if lev then .irqLev currEvent else .irqStatus }

/-- The next access of the routine that has the lock. -/
def driver (s : EventCount) : Option EventCount :=
  match s.pc with
  | .free => none
  | .cancelCounter =>
    some { s with pc := .cancelBusy (BitVec.ofNat 32 s.evCounter), seen := s.acquired }
  | .cancelBusy currEvent =>
    let nrEvents := if s.sampling then currEvent - 1 else currEvent
    -- an unsigned number, which is never negative
    let nrEvents := if nrEvents < 0 then 0 else nrEvents
    some { s.finishAcquisition .cancel currEvent s.sampling nrEvents with pc := .free }
  | .irqStatus =>
    if s.statusEv || s.statusLev then some { s with pc := .irqCounter s.statusEv s.statusLev }
    else some { s with pc := .free }
  | .irqCounter ev lev =>
    let s := { s with seen := s.acquired }
    let currEvent := BitVec.ofNat 32 s.evCounter
    if ev then some { s with pc := .irqEv currEvent lev } else some (s.afterEv currEvent lev)
  | .irqEv currEvent lev => some { s with statusEv := false, pc := .irqBusy currEvent lev }
  | .irqBusy currEvent lev =>
    let eventThreshold := if s.sampling then s.reqEvents + 1 else s.reqEvents
    if eventThreshold.toInt ≤ currEvent.toInt && s.acquiring then
      some ((s.finishAcquisition .event currEvent s.sampling s.reqEvents).afterEv currEvent lev)
    else some (s.afterEv currEvent lev)
  | .irqLev currEvent =>
    let s := { s with statusLev := false, pc := .irqStatus }
    if s.acquiring then some (s.finishAcquisition .lastEvent currEvent s.sampling currEvent)
    else some s

end EventCount

open EventCount

/-- The steps.  `sis3300_acq_cancel` does nothing when the segment is not acquiring. -/
def countStep (lengths : List (BitVec 32)) (s : EventCount) : CountCall → Option EventCount
  | .startEvent =>
    if s.armed && !s.sampling then
      some { s with sampling := true, evCounter := s.evCounter + 1 }
    else none
  | .stopEvent last =>
    if s.sampling then
      let last := last || s.acquired + 1 = s.fit
      some
        { s with
          sampling := false
          acquired := s.acquired + 1
          statusEv := true
          statusLev := s.statusLev || last
          armed := s.armed && !last }
    else none
  | .acquire nrEvents evLength old =>
    if s.pc = .free ∧ s.acquiring = false ∧ accepts lengths nrEvents evLength then
      some
        { s with
          acquiring := true
          starting := true
          reqEvents := nrEvents
          evCounter := old
          fit := (lengths.headD 0).toNat / evLength.toNat
          acquired := 0
          seen := 0
          acquisition := s.acquisition + 1 }
    else none
  | .arm =>
    if s.starting then some { s with starting := false, armed := true, evCounter := 0 } else none
  | .cancel =>
    if s.pc = .free then some (if s.acquiring then { s with pc := .cancelCounter } else s) else none
  | .irq => if s.pc = .free then some { s with pc := .irqStatus } else none
  | .driver => s.driver

/-- Any board events, acquisitions, interrupts and cancellations in any order. -/
def countSystem (lengths : List (BitVec 32)) : System EventCount CountCall :=
  System.ofFun Fresh (countStep lengths)

/-- An acquisition begins while no interrupt is pending, and none is cancelled before it is
armed. -/
def CountCareful (s : EventCount) : CountCall → Prop
  | .acquire _ _ _ => s.statusEv = false ∧ s.statusLev = false
  | .cancel => s.starting = false
  | _ => True

instance (s : EventCount) (a : CountCall) : Decidable (CountCareful s a) :=
  match a with
  | .acquire _ _ _ => inferInstanceAs (Decidable (_ ∧ _))
  | .cancel => inferInstanceAs (Decidable (_ = _))
  | .startEvent => isTrue trivial
  | .stopEvent _ => isTrue trivial
  | .arm => isTrue trivial
  | .irq => isTrue trivial
  | .driver => isTrue trivial

/-! ### What a result should be -/

/-- A cancellation has read a counter of 0, and an event has started before it read the busy
flag. -/
def CountResult.Underflow (r : CountResult) : Prop :=
  r.path = .cancel ∧ r.currEvent = 0 ∧ r.busy = true

/-- The number is not more than the events acquired, which fit.  It is the requested one after an
event interrupt and all of them after a last-event interrupt; after a cancellation it counts all
that were acquired when the counter was read, less one if an event has started since. -/
structure CountResult.Sound (r : CountResult) : Prop where
  le : r.nrEvents.toNat ≤ r.acquired
  fits : r.acquired ≤ r.fit
  event : r.path = .event → r.nrEvents = r.reqEvents
  lastEvent : r.path = .lastEvent → r.nrEvents.toNat = r.acquired
  cancel : r.path = .cancel →
    r.seen ≤ r.nrEvents.toNat + if r.busy ∧ r.currEvent.toNat = r.seen then 1 else 0

/-- Every end is sound, unless it is the underflow, an acquisition has at most one, and a segment
that is not acquiring has the number of the last one. -/
structure CountLaws (s : EventCount) : Prop where
  sound : ∀ r ∈ s.results, r.Sound ∨ r.Underflow
  once : (s.results.map CountResult.acquisition).Nodup
  current : s.acquiring = false →
    s.acquisition = 0 ∨ ∃ r ∈ s.results, r.acquisition = s.acquisition ∧ r.nrEvents = s.nrEvents

/-! ### The invariant -/

/-- What is known of a counter value since it was read: it is the number of events that were
acquired then, or one ahead of it, and the event it is ahead of is acquired by now or still being
sampled. -/
structure Reading (s : EventCount) (currEvent : BitVec 32) : Prop where
  seen_le : s.seen ≤ s.acquired
  value : currEvent.toNat = s.seen ∨
    (currEvent.toNat = s.seen + 1 ∧ (s.seen < s.acquired ∨ s.sampling = true))

/-- The bank is full: the value read is the number of all events. -/
def Full (s : EventCount) (currEvent : BitVec 32) : Prop :=
  s.armed = false ∧ (s.acquiring = true → currEvent.toNat = s.acquired)

/-- What the routine under the lock knows. -/
def PcInv (s : EventCount) : CountPc → Prop
  | .free => True
  | .irqStatus => True
  | .cancelCounter => s.acquiring = true ∧ s.starting = false
  | .cancelBusy currEvent => s.acquiring = true ∧ s.starting = false ∧ Reading s currEvent
  | .irqCounter _ lev => s.starting = false ∧ (lev = true → s.armed = false)
  | .irqEv currEvent lev =>
    s.starting = false ∧ (s.acquiring = true → Reading s currEvent) ∧
      (lev = true → Full s currEvent)
  | .irqBusy currEvent lev =>
    s.starting = false ∧ (s.acquiring = true → Reading s currEvent) ∧
      (lev = true → Full s currEvent)
  | .irqLev currEvent => s.starting = false ∧ Full s currEvent

/-- The bank is armed only while the segment is acquiring and there is room, the counter is right
from the arming on, and a pending last-event interrupt says that the bank has stopped. -/
structure CountInv (s : EventCount) : Prop where
  starting : s.starting = true → s.acquiring = true ∧ s.armed = false ∧ s.acquired = 0 ∧
    s.statusEv = false ∧ s.statusLev = false
  sampling : s.sampling = true → s.armed = true
  armed : s.armed = true → s.acquiring = true ∧ s.starting = false ∧ s.acquired < s.fit
  fits : s.acquiring = true → 1 ≤ s.fit ∧ s.fit ≤ 1024 ∧ s.acquired ≤ s.fit
  req : s.reqEvents.toNat ≤ 1024
  counter : s.acquiring = true → s.starting = false →
    s.evCounter = s.acquired + if s.sampling then 1 else 0
  lev : s.statusLev = true → s.armed = false
  pc : PcInv s s.pc
  known : ∀ r ∈ s.results, r.acquisition ≤ s.acquisition ∧
    (s.acquiring = true → r.acquisition < s.acquisition)
  laws : CountLaws s

/-- What a table of a SIS3300 says about the events that fit. -/
def SisLengths (lengths : List (BitVec 32)) : Prop :=
  lengths = sis3300EvLengths ∨ lengths = sis330008EvLengths

theorem fit_bounds {lengths : List (BitVec 32)} (hl : SisLengths lengths) {evLength : BitVec 32}
    (hmem : evLength ∈ lengths) :
    1 ≤ (lengths.headD 0).toNat / evLength.toNat ∧
      (lengths.headD 0).toNat / evLength.toNat ≤ 1024 := by
  rcases hl with rfl | rfl
  · simp only [sis3300EvLengths, List.mem_cons, List.not_mem_nil, or_false] at hmem
    rcases hmem with rfl | rfl | rfl | rfl | rfl | rfl | rfl | rfl <;> simp [sis3300EvLengths]
  · simp only [sis330008EvLengths, List.mem_cons, List.not_mem_nil, or_false] at hmem
    rcases hmem with rfl | rfl | rfl | rfl | rfl | rfl | rfl | rfl | rfl | rfl <;>
      simp [sis330008EvLengths]

namespace Reading

variable {s s' : EventCount} {currEvent : BitVec 32}

theorem mono (h : Reading s currEvent) (hseen : s'.seen = s.seen)
    (hle : s.acquired ≤ s'.acquired)
    (hnext : s.sampling = true → s'.sampling = true ∨ s.acquired < s'.acquired) :
    Reading s' currEvent := by
  obtain ⟨hseenle, hval⟩ := h
  refine ⟨by omega, ?_⟩
  rw [hseen]
  obtain hval | ⟨hval, hlt | hsamp⟩ := hval
  · exact .inl hval
  · exact .inr ⟨hval, .inl (by omega)⟩
  · obtain hsamp | hlt := hnext hsamp
    · exact .inr ⟨hval, .inr hsamp⟩
    · exact .inr ⟨hval, .inl (by omega)⟩

theorem le_acquired (h : Reading s currEvent) (hs : s.sampling = false) :
    currEvent.toNat ≤ s.acquired := by
  have hle := h.seen_le
  obtain hval | ⟨hval, hlt | hsamp⟩ := h.value
  · omega
  · omega
  · rw [hs] at hsamp
    cases hsamp

theorem le_acquired_succ (h : Reading s currEvent) : currEvent.toNat ≤ s.acquired + 1 := by
  have hle := h.seen_le
  obtain hval | ⟨hval, -⟩ := h.value <;> omega

end Reading

theorem PcInv.board {s s' : EventCount} {p : CountPc} (h : PcInv s p)
    (hacq : s'.acquiring = s.acquiring) (hst : s'.starting = s.starting)
    (hread : ∀ c, Reading s c → Reading s' c)
    (hstop : s.armed = false → s'.armed = false ∧ s'.acquired = s.acquired) : PcInv s' p := by
  have hfull : ∀ c, Full s c → Full s' c := by
    intro c hc
    obtain ⟨hunarmed, hsame⟩ := hstop hc.1
    refine ⟨hunarmed, fun ha => ?_⟩
    rw [hsame]
    exact hc.2 (hacq ▸ ha)
  cases p with
  | free => trivial
  | irqStatus => trivial
  | cancelCounter => exact ⟨hacq.trans h.1, hst.trans h.2⟩
  | cancelBusy c => exact ⟨hacq.trans h.1, hst.trans h.2.1, hread c h.2.2⟩
  | irqCounter ev lev => exact ⟨hst.trans h.1, fun hl => (hstop (h.2 hl)).1⟩
  | irqEv c lev =>
    exact ⟨hst.trans h.1, fun ha => hread c (h.2.1 (hacq ▸ ha)), fun hl => hfull c (h.2.2 hl)⟩
  | irqBusy c lev =>
    exact ⟨hst.trans h.1, fun ha => hread c (h.2.1 (hacq ▸ ha)), fun hl => hfull c (h.2.2 hl)⟩
  | irqLev c => exact ⟨hst.trans h.1, hfull c h.2⟩

theorem PcInv.of_starting {s s' : EventCount} {p : CountPc} (h : PcInv s p)
    (hst : s.starting = true) : PcInv s' p := by
  have hnot : s.starting ≠ false := by simp [hst]
  cases p with
  | free => trivial
  | irqStatus => trivial
  | cancelCounter => exact absurd h.2 hnot
  | cancelBusy c => exact absurd h.2.1 hnot
  | irqCounter ev lev => exact absurd h.1 hnot
  | irqEv c lev => exact absurd h.1 hnot
  | irqBusy c lev => exact absurd h.1 hnot
  | irqLev c => exact absurd h.1 hnot

namespace CountInv

variable {s : EventCount}

theorem toNat_counter (h : CountInv s) (hacq : s.acquiring = true) (hst : s.starting = false) :
    (BitVec.ofNat 32 s.evCounter).toNat = s.acquired + if s.sampling then 1 else 0 := by
  have hcount := h.counter hacq hst
  obtain ⟨-, hfit, hle⟩ := h.fits hacq
  rw [hcount, BitVec.toNat_ofNat]
  apply Nat.mod_eq_of_lt
  split <;> omega

theorem reading (h : CountInv s) (hacq : s.acquiring = true) (hst : s.starting = false) :
    Reading { s with seen := s.acquired } (BitVec.ofNat 32 s.evCounter) := by
  refine ⟨le_refl _, ?_⟩
  rw [h.toNat_counter hacq hst]
  cases hsamp : s.sampling
  · exact .inl rfl
  · exact .inr ⟨rfl, .inr rfl⟩

theorem full (h : CountInv s) (hst : s.starting = false) (harmed : s.armed = false) :
    Full s (BitVec.ofNat 32 s.evCounter) := by
  refine ⟨harmed, fun hacq => ?_⟩
  have hsamp : s.sampling = false := by
    cases hs : s.sampling
    · rfl
    · rw [h.sampling hs] at harmed
      cases harmed
  rw [h.toNat_counter hacq hst, hsamp]
  rfl

/-! ### The steps of the board and of the core -/

theorem startEvent (h : CountInv s) (harmed : s.armed = true) (hidle : s.sampling = false) :
    CountInv { s with sampling := true, evCounter := s.evCounter + 1 } := by
  obtain ⟨hacq, hst, hroom⟩ := h.armed harmed
  have hcount := h.counter hacq hst
  rw [hidle] at hcount
  refine ⟨?_, fun _ => harmed, h.armed, h.fits, h.req, ?_, h.lev, ?_, h.known, ?_⟩
  · intro hstart
    rw [hst] at hstart
    cases hstart
  · intro _ _
    show s.evCounter + 1 = s.acquired + 1
    rw [hcount]
    rfl
  · refine h.pc.board rfl rfl (fun c hr => ?_) fun hunarmed => ?_
    · exact hr.mono rfl (le_refl _) fun _ => .inl rfl
    · rw [harmed] at hunarmed
      cases hunarmed
  · exact ⟨h.laws.sound, h.laws.once, h.laws.current⟩

theorem stopEvent (h : CountInv s) (hsamp : s.sampling = true) (last : Bool) :
    CountInv
      { s with
        sampling := false
        acquired := s.acquired + 1
        statusEv := true
        statusLev := s.statusLev || (last || s.acquired + 1 = s.fit)
        armed := s.armed && !(last || decide (s.acquired + 1 = s.fit)) } := by
  have harmed := h.sampling hsamp
  obtain ⟨hacq, hst, hroom⟩ := h.armed harmed
  obtain ⟨hone, hfit, hle⟩ := h.fits hacq
  have hcount := h.counter hacq hst
  rw [hsamp] at hcount
  refine ⟨?_, ?_, ?_, ?_, h.req, ?_, ?_, ?_, h.known, ?_⟩
  · intro hstart
    rw [hst] at hstart
    cases hstart
  · intro hs
    cases hs
  · intro ha
    refine ⟨hacq, hst, ?_⟩
    simp only [Bool.and_eq_true, Bool.not_eq_true', Bool.or_eq_false_iff,
      decide_eq_false_iff_not] at ha
    obtain ⟨-, -, hne⟩ := ha
    show s.acquired + 1 < s.fit
    omega
  · intro _
    exact ⟨hone, hfit, hroom⟩
  · intro _ _
    show s.evCounter = s.acquired + 1 + 0
    rw [hcount]
    rfl
  · intro hlev
    have hnot : s.statusLev = false := by
      cases hl : s.statusLev
      · rfl
      · rw [h.lev hl] at harmed
        cases harmed
    rw [hnot, Bool.false_or] at hlev
    show (s.armed && !(last || decide (s.acquired + 1 = s.fit))) = false
    rw [show (last || decide (s.acquired + 1 = s.fit)) = true from hlev]
    exact Bool.and_false _
  · refine h.pc.board rfl rfl (fun c hr => ?_) fun hunarmed => ?_
    · exact hr.mono rfl (Nat.le_succ _) fun _ => .inr (Nat.lt_succ_self _)
    · rw [harmed] at hunarmed
      cases hunarmed
  · exact ⟨h.laws.sound, h.laws.once, h.laws.current⟩

theorem acquire (h : CountInv s) {lengths : List (BitVec 32)} (hl : SisLengths lengths)
    {nrEvents evLength : BitVec 32} (hfree : s.pc = .free) (hacq : s.acquiring = false)
    (hok : accepts lengths nrEvents evLength = true)
    (hquiet : s.statusEv = false ∧ s.statusLev = false) (old : ℕ) :
    CountInv
      { s with
        acquiring := true
        starting := true
        reqEvents := nrEvents
        evCounter := old
        fit := (lengths.headD 0).toNat / evLength.toNat
        acquired := 0
        seen := 0
        acquisition := s.acquisition + 1 } := by
  simp only [accepts, Bool.and_eq_true, decide_eq_true_eq, List.contains_iff_mem] at hok
  obtain ⟨⟨hreq, hmem⟩, -⟩ := hok
  have hunarmed : s.armed = false := by
    cases ha : s.armed
    · rfl
    · rw [(h.armed ha).1] at hacq
      cases hacq
  refine ⟨fun _ => ⟨rfl, hunarmed, rfl, hquiet⟩, h.sampling, ?_, ?_, hreq, ?_, fun _ => hunarmed,
    ?_, ?_, ?_⟩
  · intro ha
    rw [show s.armed = true from ha] at hunarmed
    cases hunarmed
  · intro _
    exact ⟨(fit_bounds hl hmem).1, (fit_bounds hl hmem).2, Nat.zero_le _⟩
  · intro _ hst
    cases hst
  · show PcInv _ s.pc
    rw [hfree]
    trivial
  · intro r hr
    have hle := (h.known r hr).1
    exact ⟨Nat.le_succ_of_le hle, fun _ => Nat.lt_succ_of_le hle⟩
  · refine ⟨h.laws.sound, h.laws.once, ?_⟩
    intro ha
    cases ha

theorem arm (h : CountInv s) (hst : s.starting = true) :
    CountInv { s with starting := false, armed := true, evCounter := 0 } := by
  obtain ⟨hacq, hunarmed, hzero, hev, hlev⟩ := h.starting hst
  obtain ⟨hone, hfit, hle⟩ := h.fits hacq
  refine ⟨(fun hs => by cases hs), fun _ => rfl, ?_, h.fits, h.req, ?_, ?_, ?_, h.known, ?_⟩
  · intro _
    refine ⟨hacq, rfl, ?_⟩
    show s.acquired < s.fit
    omega
  · intro _ _
    have hsamp : s.sampling = false := by
      cases hs : s.sampling
      · rfl
      · rw [h.sampling hs] at hunarmed
        cases hunarmed
    show 0 = s.acquired + if s.sampling then 1 else 0
    rw [hsamp, hzero]
    rfl
  · intro hl
    rw [show s.statusLev = true from hl] at hlev
    cases hlev
  · exact h.pc.of_starting hst
  · exact ⟨h.laws.sound, h.laws.once, h.laws.current⟩

/-! ### The accesses of the driver -/

theorem access (h : CountInv s) {p : CountPc} {ev lev : Bool} {seen : ℕ}
    (hp : PcInv { s with seen := seen } p) (hev : ev = true → s.statusEv = true)
    (hlev : lev = true → s.statusLev = true) :
    CountInv { s with pc := p, seen := seen, statusEv := ev, statusLev := lev } := by
  refine ⟨?_, h.sampling, h.armed, h.fits, h.req, h.counter, fun hl => h.lev (hlev hl), ?_,
    h.known, ⟨h.laws.sound, h.laws.once, h.laws.current⟩⟩
  · intro hst
    obtain ⟨hacq, hunarmed, hzero, hnoev, hnolev⟩ := h.starting hst
    refine ⟨hacq, hunarmed, hzero, ?_, ?_⟩
    · exact Bool.eq_false_iff.mpr fun he => by rw [hev he] at hnoev; cases hnoev
    · exact Bool.eq_false_iff.mpr fun hl => by rw [hlev hl] at hnolev; cases hnolev
  · exact hp.board rfl rfl (fun c hr => ⟨hr.seen_le, hr.value⟩) fun hunarmed => ⟨hunarmed, rfl⟩

theorem finish (h : CountInv s) (hacq : s.acquiring = true) (hst : s.starting = false)
    {path : EndPath} {currEvent : BitVec 32} {busy : Bool} {nrEvents : BitVec 32} {p : CountPc}
    (hp : p = .free ∨ p = .irqStatus ∨ p = .irqLev currEvent)
    (hsound : CountResult.Sound ⟨s.acquisition, path, nrEvents, currEvent, busy, s.acquired,
        s.seen, s.reqEvents, s.fit⟩ ∨
      CountResult.Underflow ⟨s.acquisition, path, nrEvents, currEvent, busy, s.acquired, s.seen,
        s.reqEvents, s.fit⟩) :
    CountInv { s.finishAcquisition path currEvent busy nrEvents with pc := p } := by
  have hnew : ∀ r ∈ s.results, r.acquisition < s.acquisition := fun r hr => (h.known r hr).2 hacq
  refine ⟨?_, (fun hs => by cases hs), (fun hs => by cases hs), (fun hs => by cases hs), h.req,
    (fun hs => by cases hs), fun _ => rfl, ?_, ?_, ?_, ?_, ?_⟩
  · intro hs
    rw [show s.starting = true from hs] at hst
    cases hst
  · obtain rfl | rfl | rfl := hp
    · trivial
    · trivial
    · exact ⟨hst, rfl, fun ha => by cases ha⟩
  · intro r hr
    refine ⟨?_, fun ha => by cases ha⟩
    obtain rfl | hr := List.mem_cons.mp hr
    · exact le_refl _
    · exact (hnew r hr).le
  · intro r hr
    obtain rfl | hr := List.mem_cons.mp hr
    · exact hsound
    · exact h.laws.sound r hr
  · show (s.acquisition :: s.results.map CountResult.acquisition).Nodup
    refine List.nodup_cons.mpr ⟨?_, h.laws.once⟩
    intro hmem
    obtain ⟨r, hr, heq⟩ := List.mem_map.mp hmem
    exact absurd heq (hnew r hr).ne
  · intro _
    exact .inr ⟨_, List.mem_cons_self, rfl, rfl⟩

end CountInv

/-! ### The numbers the three paths write -/

namespace Reading

variable {s : EventCount} {currEvent : BitVec 32}

theorem cancel_sound (h : Reading s currEvent) (hfit : s.acquired ≤ s.fit)
    {acquisition : ℕ} {req : BitVec 32} :
    let nrEvents := if s.sampling then currEvent - 1 else currEvent
    let r : CountResult := ⟨acquisition, .cancel, if nrEvents < 0 then 0 else nrEvents, currEvent,
      s.sampling, s.acquired, s.seen, req, s.fit⟩
    r.Sound ∨ r.Underflow := by
  intro nrEvents r
  have hnr : (if nrEvents < 0 then 0 else nrEvents) = nrEvents := if_neg BitVec.not_lt_zero
  by_cases hzero : currEvent = 0 ∧ s.sampling = true
  · exact .inr ⟨rfl, hzero.1, hzero.2⟩
  · have hpos : s.sampling = true → 1 ≤ currEvent.toNat := by
      intro hs
      refine Nat.one_le_iff_ne_zero.mpr fun h0 => hzero ⟨?_, hs⟩
      exact BitVec.eq_of_toNat_eq h0
    have hnat : nrEvents.toNat = currEvent.toNat - if s.sampling then 1 else 0 := by
      show (if s.sampling then currEvent - 1 else currEvent).toNat = _
      cases hs : s.sampling
      · rfl
      · exact BitVec.toNat_sub_of_le (BitVec.le_def.mpr (hpos hs))
    have hseen := h.seen_le
    have hval := h.value
    have hle : nrEvents.toNat ≤ s.acquired := by
      rw [hnat]
      cases hs : s.sampling
      · exact h.le_acquired hs
      · exact Nat.sub_le_of_le_add h.le_acquired_succ
    refine .inl ⟨?_, hfit, (fun hp => by cases hp), (fun hp => by cases hp), fun _ => ?_⟩
    · show (if nrEvents < 0 then 0 else nrEvents).toNat ≤ s.acquired
      rw [hnr]
      exact hle
    · show s.seen ≤ (if nrEvents < 0 then 0 else nrEvents).toNat +
        if s.sampling = true ∧ currEvent.toNat = s.seen then 1 else 0
      rw [hnr, hnat]
      cases hs : s.sampling
      · simp only [Bool.false_eq_true, false_and, if_false]
        omega
      · have hone := hpos hs
        simp only [true_and, if_true]
        split <;> omega

theorem event_sound (h : Reading s currEvent) (hfit : s.acquired ≤ s.fit) (hle : s.fit ≤ 1024)
    (hreq : s.reqEvents.toNat ≤ 1024)
    (htest : (if s.sampling then s.reqEvents + 1 else s.reqEvents).toInt ≤ currEvent.toInt)
    {acquisition : ℕ} :
    CountResult.Sound ⟨acquisition, .event, s.reqEvents, currEvent, s.sampling, s.acquired, s.seen,
      s.reqEvents, s.fit⟩ := by
  have hcurr := h.le_acquired_succ
  have hint : ∀ x : BitVec 32, x.toNat ≤ 1025 → x.toInt = x.toNat := fun x hx =>
    BitVec.toInt_eq_toNat_of_lt (by omega)
  have hnext : (s.reqEvents + 1).toNat = s.reqEvents.toNat + 1 :=
    BitVec.toNat_add_of_lt (show s.reqEvents.toNat + 1 < 2 ^ 32 by omega)
  refine ⟨?_, hfit, fun _ => rfl, (fun hp => by cases hp), fun hp => by cases hp⟩
  show s.reqEvents.toNat ≤ s.acquired
  cases hs : s.sampling
  · have hread := h.le_acquired hs
    rw [hs, if_neg Bool.false_ne_true, hint _ (by omega), hint _ (by omega)] at htest
    omega
  · rw [hs, if_pos rfl, hint _ (by omega), hint _ (by omega), hnext] at htest
    omega

end Reading

theorem PcInv.after {s : EventCount} {currEvent : BitVec 32} {lev : Bool}
    (hst : s.starting = false) (hfull : lev = true → Full s currEvent) :
    PcInv s (if lev then .irqLev currEvent else .irqStatus) := by
  cases lev with
  | false => trivial
  | true => exact ⟨hst, hfull rfl⟩

namespace CountInv

variable {s s' : EventCount}

theorem driver (h : CountInv s) (hs : s.driver = some s') : CountInv s' := by
  have hpc := h.pc
  unfold EventCount.driver at hs
  revert hpc hs
  cases s.pc with
  | free =>
    intro hs _
    cases hs
  | cancelCounter =>
    rintro hs ⟨hacq, hst⟩
    cases hs
    exact h.access (p := .cancelBusy _) ⟨hacq, hst, h.reading hacq hst⟩ (fun he => he)
      fun hl => hl
  | cancelBusy currEvent =>
    rintro hs ⟨hacq, hst, hread⟩
    cases hs
    exact h.finish hacq hst (.inl rfl)
      (hread.cancel_sound (h.fits hacq).2.2)
  | irqStatus =>
    intro hs _
    dsimp only at hs
    split at hs
    · rename_i hsome
      cases hs
      have hst : s.starting = false := by
        cases hstart : s.starting
        · rfl
        · obtain ⟨-, -, -, hev, hlev⟩ := h.starting hstart
          rw [hev, hlev] at hsome
          cases hsome
      exact h.access (p := .irqCounter _ _) ⟨hst, h.lev⟩ (fun he => he) fun hl => hl
    · cases hs
      exact h.access (p := .free) trivial (fun he => he) fun hl => hl
  | irqCounter ev lev =>
    rintro hs ⟨hst, hlev⟩
    dsimp only at hs
    have hfull : lev = true → Full { s with seen := s.acquired } (BitVec.ofNat 32 s.evCounter) :=
      fun hl => h.full hst (hlev hl)
    split at hs
    · cases hs
      exact h.access (p := .irqEv _ _) ⟨hst, fun hacq => h.reading hacq hst, hfull⟩ (fun he => he)
        fun hl => hl
    · cases hs
      exact h.access (PcInv.after hst hfull) (fun he => he) fun hl => hl
  | irqEv currEvent lev =>
    intro hs hpc
    cases hs
    exact h.access (p := .irqBusy _ _) hpc (fun he => by cases he) fun hl => hl
  | irqBusy currEvent lev =>
    rintro hs ⟨hst, hread, hfull⟩
    dsimp only at hs
    by_cases htest : (decide ((if s.sampling then s.reqEvents + 1 else s.reqEvents).toInt ≤
        currEvent.toInt) && s.acquiring) = true
    · rw [if_pos htest] at hs
      simp only [Bool.and_eq_true, decide_eq_true_eq] at htest
      obtain ⟨hle, hacq⟩ := htest
      obtain ⟨-, hfit, hroom⟩ := h.fits hacq
      cases hs
      refine h.finish hacq hst ?_ (.inl ((hread hacq).event_sound hroom hfit h.req hle))
      cases lev with
      | false => exact .inr (.inl rfl)
      | true => exact .inr (.inr rfl)
    · rw [if_neg htest] at hs
      cases hs
      exact h.access (PcInv.after hst hfull) (fun he => he) fun hl => hl
  | irqLev currEvent =>
    rintro hs ⟨hst, hunarmed, hall⟩
    dsimp only at hs
    have hclear : CountInv { s with statusLev := false, pc := .irqStatus } :=
      h.access (p := .irqStatus) trivial (fun he => he) fun hl => by cases hl
    split at hs
    · rename_i hacq
      cases hs
      have hval : currEvent.toNat = s.acquired := hall hacq
      refine hclear.finish hacq hst (.inr (.inl rfl)) (.inl ?_)
      exact ⟨hval.le, (h.fits hacq).2.2, (fun hp => by cases hp), fun _ => hval,
        fun hp => by cases hp⟩
    · cases hs
      exact hclear

theorem step (h : CountInv s) {lengths : List (BitVec 32)} (hl : SisLengths lengths)
    {a : CountCall} (hok : CountCareful s a) (hs : countStep lengths s a = some s') :
    CountInv s' := by
  cases a with
  | startEvent =>
    simp only [countStep] at hs
    split at hs
    · rename_i htest
      simp only [Bool.and_eq_true, Bool.not_eq_true'] at htest
      cases hs
      exact h.startEvent htest.1 htest.2
    · cases hs
  | stopEvent last =>
    simp only [countStep] at hs
    split at hs
    · rename_i hsamp
      cases hs
      exact h.stopEvent hsamp last
    · cases hs
  | acquire nrEvents evLength old =>
    simp only [countStep] at hs
    split at hs
    · rename_i htest
      obtain ⟨hfree, hacq, haccepts⟩ := htest
      cases hs
      exact h.acquire hl hfree hacq haccepts hok old
    · cases hs
  | arm =>
    simp only [countStep] at hs
    split at hs
    · rename_i hst
      cases hs
      exact h.arm hst
    · cases hs
  | cancel =>
    simp only [countStep] at hs
    split at hs
    · split at hs
      · rename_i hacq
        cases hs
        exact h.access (p := .cancelCounter) ⟨hacq, hok⟩ (fun he => he) fun hl => hl
      · cases hs
        exact h
    · cases hs
  | irq =>
    simp only [countStep] at hs
    split at hs
    · cases hs
      exact h.access (p := .irqStatus) trivial (fun he => he) fun hl => hl
    · cases hs
  | driver => exact h.driver hs

theorem fresh (h : s.Fresh) : CountInv s := by
  obtain ⟨harmed, hsamp, hev, hlev, hacq, hst, hreq, -, hpc, hzero, hnone⟩ := h
  refine ⟨?_, ?_, ?_, ?_, ?_, ?_, fun _ => harmed, ?_, ?_, ?_⟩
  · intro hs
    rw [hst] at hs
    cases hs
  · intro hs
    rw [hsamp] at hs
    cases hs
  · intro ha
    rw [harmed] at ha
    cases ha
  · intro ha
    rw [hacq] at ha
    cases ha
  · rw [hreq]
    exact Nat.zero_le _
  · intro ha
    rw [hacq] at ha
    cases ha
  · rw [hpc]
    trivial
  · intro r hr
    rw [hnone] at hr
    cases hr
  · refine ⟨?_, ?_, fun _ => .inl hzero⟩
    · intro r hr
      rw [hnone] at hr
      cases hr
    · rw [hnone]
      exact List.nodup_nil

end CountInv

/-! ### Whole runs -/

/-- **The number of events.**  Whatever the board does between the accesses of the driver, every
end of an acquisition writes a number of events that have been completely acquired, the requested
number or all of them where the board has interrupted, and an acquisition ends once. -/
theorem eventCount_laws {lengths : List (BitVec 32)} (hl : SisLengths lengths) {s : EventCount}
    (h : (countSystem lengths).ReachUnder CountCareful s) : CountLaws s :=
  (h.invariant (fun _ hi => CountInv.fresh hi) fun _ _ _ hi hok hs => hi.step hl hok hs).laws

/-- A card that has just been set up. -/
def freshCount : EventCount where
  armed := false
  sampling := false
  evCounter := 0
  statusEv := false
  statusLev := false
  acquiring := false
  starting := false
  reqEvents := 0
  nrEvents := 0
  pc := .free
  fit := 0
  acquired := 0
  seen := 0
  acquisition := 0
  results := []

theorem freshCount_fresh : freshCount.Fresh :=
  ⟨rfl, rfl, rfl, rfl, rfl, rfl, rfl, rfl, rfl, rfl, rfl⟩

/-- Two events are requested, and the work runs after the second. -/
def twoRequested : List CountCall :=
  [.acquire 2 128 0, .arm, .startEvent, .stopEvent false, .startEvent, .stopEvent false, .irq,
    .driver, .driver, .driver, .driver, .driver]

theorem eventCount_laws_two :
    let s := System.runUnder (countStep sis3300EvLengths) CountCareful freshCount twoRequested
    s.results = [⟨1, .event, 2, 2, false, 2, 2, 2, 1024⟩] ∧ CountLaws s :=
  ⟨rfl, eventCount_laws (.inl rfl)
    ((System.ReachUnder.init freshCount_fresh).runUnder twoRequested)⟩

/-- Some run ends an acquisition so. -/
def Ends (r : CountResult) : Prop :=
  ∃ s, (countSystem sis3300EvLengths).Reach s ∧ r ∈ s.results

theorem ends_of_run (as : List CountCall) {r : CountResult}
    (h : (System.runFun (countStep sis3300EvLengths) freshCount as).bind
      (fun s => s.results.head?) = some r) : Ends r := by
  obtain ⟨s, hrun, hhead⟩ := Option.bind_eq_some_iff.mp h
  have hinit : (System.ofFun Fresh (countStep sis3300EvLengths)).Reach freshCount :=
    .init freshCount_fresh
  exact ⟨s, hinit.runFun as hrun, List.mem_of_mem_head? hhead⟩

/-- Two events are requested and three acquired before the work runs; an event starts between the
two reads of a cancellation, after one event or after none; an acquisition is cancelled before its
bank is armed; the last-event interrupt of an acquisition that was cancelled ends the next one. -/
theorem eventCount_not_exact :
    (Ends ⟨1, .event, 2, 3, false, 3, 3, 2, 1024⟩ ∧ (2 : BitVec 32).toNat ≠ 3) ∧
      (Ends ⟨1, .cancel, 0, 1, true, 1, 1, 2, 1024⟩ ∧ (0 : BitVec 32).toNat ≠ 1) ∧
      (Ends ⟨1, .cancel, 0xffffffff, 0, true, 0, 0, 2, 1024⟩ ∧
        (0xffffffff : BitVec 32).toNat ≠ 0) ∧
      (Ends ⟨1, .cancel, 7, 7, false, 0, 0, 2, 1024⟩ ∧ (7 : BitVec 32).toNat ≠ 0) ∧
      Ends ⟨2, .lastEvent, 1, 1, true, 0, 0, 2, 1024⟩ ∧ (1 : BitVec 32).toNat ≠ 0 := by
  refine ⟨⟨?_, by decide⟩, ⟨?_, by decide⟩, ⟨?_, by decide⟩, ⟨?_, by decide⟩, ?_, by decide⟩
  · exact ends_of_run [.acquire 2 128 0, .arm, .startEvent, .stopEvent false, .startEvent,
      .stopEvent false, .startEvent, .stopEvent false, .irq, .driver, .driver, .driver, .driver] rfl
  · exact ends_of_run [.acquire 2 128 0, .arm, .startEvent, .stopEvent false, .cancel, .driver,
      .startEvent, .driver] rfl
  · exact ends_of_run [.acquire 2 128 0, .arm, .cancel, .driver, .startEvent, .driver] rfl
  · exact ends_of_run [.acquire 2 128 7, .cancel, .driver, .driver] rfl
  · exact ends_of_run [.acquire 2 128 0, .arm, .startEvent, .stopEvent true, .cancel, .driver,
      .driver, .acquire 2 128 0, .arm, .startEvent, .irq, .driver, .driver, .driver, .driver,
      .driver] rfl

end KernelModules.Sis33
