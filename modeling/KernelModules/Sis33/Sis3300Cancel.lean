import KernelModules.Sis33.Sis3320Cancel

/-!
# Cancelling an acquisition of the SIS3300, and both drivers together

`sis3300_acq_cancel` and `sis3300_irq_work` take the card's lock and test that the current segment
is acquiring before they finish its acquisition.  `sis3300_acq_start` takes none: it frees the event
cache, the sample cache and the timestamp cache of the current segment and arms the board.

* `Sis3300` is the board with its two interrupt status bits and where each `acq_start` is in its
  frees; `sis3300Step` has a label for each of their steps, a locked section being one;
* `Sis3300Inv` is the driver's state while nothing runs, while a client is starting and while the
  board is armed.  The runs that meet `Sis3300Careful` keep it: a cancellation is issued only while
  no client is between its unlock and its arming, and an acquisition begins only while no interrupt
  is pending;
* `cancellation_laws` are the laws of both drivers over these runs, and
  `cancellation_breaks_laws` what happens to each of them without the conditions.
-/

namespace KernelModules.Sis33

open Function KernelModules.Lib

variable {Client : Type*}

/-! ### The driver -/

/-- The caches of a segment, in the order in which `sis3300_acq_start` frees them. -/
inductive Cache where
  | events
  | samples
  | timestamps
  deriving DecidableEq, Repr

/-- Where `sis3300_acq_start` is: before the free of a cache, inside it for segment `i`, or before
the arming. -/
inductive StartPc where
  | before (k : Cache)
  | inside (k : Cache) (i : ℕ)
  | arm
  deriving DecidableEq, Repr

/-- What comes after the free of a cache. -/
def Cache.next : Cache → StartPc
  | .events => .before .samples
  | .samples => .before .timestamps
  | .timestamps => .arm

/-- The board, `INTCTL_ST_EV` and `INTCTL_ST_LEV` with the acquisition that raised each, the
requested number of events, and the starts under way. -/
structure Sis3300 (Client : Type*) where
  board : Board Client Unit
  statusEv : Option ℕ
  statusLev : Option ℕ
  reqEvents : BitVec 32
  pc : Client → StartPc

/-- A section of the core, the steps of `acq_start`, the two interrupts of the board, a
cancellation, and one round of the work's loop, with what they read from the board. -/
inductive Sis3300Call (Client : Type*) where
  | ioctl (a : CoreCall Client Unit)
  | enterFree (c : Client)
  | leaveFree (c : Client)
  | arm (c : Client)
  | event
  | bankFull
  | cancel (currEvent : BitVec 32) (busy : Bool) (endtime : Timeval)
  | irq (currEvent : BitVec 32) (busy : Bool) (endtime : Timeval)

namespace Sis3300

def Fresh (s : Sis3300 Client) : Prop :=
  s.board.Fresh ∧ s.statusEv = none ∧ s.statusLev = none

/-- A cache of segment `i` is being freed. -/
def Touching (s : Sis3300 Client) (i : ℕ) : Prop :=
  ∃ c k, s.board.core.Starts c ∧ s.pc c = .inside k i

def Laws (s : Sis3300 Client) : Prop := s.board.Laws s.Touching

/-- `sis3300_finish_acquisition`, with the number of events its caller writes. -/
def finishAcquisition (s : Sis3300 Client) (nrEvents : BitVec 32) (endtime : Timeval) :
    Sis3300 Client :=
  let card := s.board.core.card
  let done := (card.setResults card.currSegment nrEvents endtime).setAcquiring card.currSegment
    false
  { s with board := { s.board with core := { s.board.core with card := done }, armed := none } }

/-- The current segment is acquiring. -/
def acquiring (s : Sis3300 Client) : Bool :=
  (s.board.core.card.segments s.board.core.card.currSegment).acquiring

/-- The work for an interrupt of acquisition `a` finishes the acquisition if its test says so. -/
def serve (s : Sis3300 Client) (a : ℕ) (test : Bool) (nrEvents : BitVec 32) (endtime : Timeval) :
    Sis3300 Client :=
  if test && s.acquiring then
    let s' := s.finishAcquisition nrEvents endtime
    { s' with board := s'.board.note a }
  else s

/-- The `INTCTL_ST_EV` half of `sis3300_do_irq`: the last requested event has been acquired. -/
def serveEv (s : Sis3300 Client) (currEvent : BitVec 32) (busy : Bool) (endtime : Timeval) :
    Sis3300 Client :=
  match s.statusEv with
  | none => s
  | some a =>
    let threshold := if busy then s.reqEvents.toInt + 1 else s.reqEvents.toInt
    { s with statusEv := none }.serve a (threshold ≤ currEvent.toInt) s.reqEvents endtime

/-- The `INTCTL_ST_LEV` half: the bank is full. -/
def serveLev (s : Sis3300 Client) (currEvent : BitVec 32) (endtime : Timeval) : Sis3300 Client :=
  match s.statusLev with
  | none => s
  | some a => { s with statusLev := none }.serve a true currEvent endtime

end Sis3300

open Sis3300

variable [DecidableEq Client]

/-- What an `ACQUIRE` that has started leaves in the driver: the number of events `conf_ev` has
stored, and `acq_start` before its first free. -/
def Sis3300.afterIoctl (s : Sis3300 Client) (board : Board Client Unit) :
    CoreCall Client Unit → Sis3300 Client
  | .acquire c desc _ =>
    if board.core.clients c = .idle then { s with board := board }
    else
      { s with
        board := board
        reqEvents := desc.nrEvents
        pc := update s.pc c (.before .events) }
  | _ => { s with board := board }

def sis3300Step (s : Sis3300 Client) : Sis3300Call Client → Option (Sis3300 Client)
  | .ioctl a => (s.board.ioctl a).map fun board => s.afterIoctl board a
  | .enterFree c =>
    match s.board.core.clients c, s.pc c with
    | .starting _, .before k =>
      some { s with pc := update s.pc c (.inside k s.board.core.card.currSegment) }
    | _, _ => none
  | .leaveFree c =>
    match s.board.core.clients c, s.pc c with
    | .starting _, .inside k _ => some { s with pc := update s.pc c k.next }
    | _, _ => none
  | .arm c =>
    if s.pc c = .arm then (s.board.start c).map fun board => { s with board := board } else none
  | .event =>
    match s.board.armed with
    | none => none
    | some a => some { s with statusEv := s.statusEv.or (some a) }
  | .bankFull =>
    match s.board.armed with
    | none => none
    | some a => some { s with statusLev := s.statusLev.or (some a) }
  | .cancel currEvent busy endtime =>
    if s.acquiring then
      some (s.finishAcquisition (if busy then currEvent - 1 else currEvent) endtime)
    else some s
  | .irq currEvent busy endtime =>
    some ((s.serveEv currEvent busy endtime).serveLev currEvent endtime)

/-- Any clients, any cancellations, the board and its work, in any order. -/
def sis3300System (Client : Type*) [DecidableEq Client] :
    System (Sis3300 Client) (Sis3300Call Client) :=
  System.ofFun Fresh sis3300Step

/-- A cancellation is issued only while no client is between its unlock and its arming; an
acquisition begins only while no interrupt is pending, unless it is refused because one is
running. -/
def Sis3300Careful (s : Sis3300 Client) : Sis3300Call Client → Prop
  | .ioctl a =>
    a.isAcquire = true →
      s.board.core.card.isAcquiring = true ∨ (s.statusEv = none ∧ s.statusLev = none)
  | .cancel _ _ _ => ∀ c, ¬ s.board.core.Starts c
  | _ => True

instance [Fintype Client] (s : Sis3300 Client) (a : Sis3300Call Client) :
    Decidable (Sis3300Careful s a) :=
  match a with
  | .ioctl a => inferInstanceAs (Decidable (a.isAcquire = true →
      s.board.core.card.isAcquiring = true ∨ (s.statusEv = none ∧ s.statusLev = none)))
  | .cancel _ _ _ => inferInstanceAs (Decidable (∀ c, ¬ s.board.core.Starts c))
  | .enterFree _ => isTrue trivial
  | .leaveFree _ => isTrue trivial
  | .arm _ => isTrue trivial
  | .event => isTrue trivial
  | .bankFull => isTrue trivial
  | .irq _ _ _ => isTrue trivial

/-! ### The invariant -/

/-- At each stage (quiet, starting or armed): the running acquisition is the latest one, its
segment is the current one and acquiring, and a pending interrupt is its own. -/
structure Sis3300Inv (s : Sis3300 Client) (st : Stage Client) : Prop where
  core : CoreInv s.board.core
  ops : s.board.core.card.ops = ⟨true, true, true, true⟩
  starts : ∀ c, s.board.core.Starts c ↔ st = .starting c
  ids : ∀ c, st = .starting c → s.board.ids c = s.board.latest
  armed : s.board.armed = st.armedFor s.board.latest
  acquires : s.board.core.Acquires ↔ st ≠ .quiet
  pending : st ≠ .quiet → ∀ a, s.statusEv = some a ∨ s.statusLev = some a →
    st = .armed ∧ a = s.board.latest
  frees : ∀ i, s.Touching i → i = s.board.core.card.currSegment
  handled : ∀ r ∈ s.board.handled, r.1 = r.2

namespace Sis3300Inv

variable {s s' : Sis3300 Client} {st : Stage Client}

omit [DecidableEq Client] in
theorem laws (h : Sis3300Inv s st) : s.Laws := by
  refine ⟨?_, h.handled, ?_⟩
  · intro harmed
    refine h.acquires.2 fun hst => harmed ?_
    rw [h.armed, hst]
    rfl
  · intro i hi
    rw [h.frees i hi]
    obtain ⟨c, k, hc, -⟩ := hi
    have hst := (h.starts c).1 hc
    exact h.core.apart _ (h.acquires.2 (by simp [hst]))

omit [DecidableEq Client] in
theorem frame (h : Sis3300Inv s st) (hcore : CoreInv s'.board.core)
    (hsame : SameAcquisition s.board.core s'.board.core)
    (hboard : s'.board.armed = s.board.armed ∧ s'.board.latest = s.board.latest ∧
      s'.board.ids = s.board.ids ∧ s'.board.handled = s.board.handled)
    (hstatus : s'.statusEv = s.statusEv ∧ s'.statusLev = s.statusLev)
    (hfrees : ∀ i, s'.Touching i → i = s.board.core.card.currSegment) : Sis3300Inv s' st := by
  obtain ⟨harmed, hlatest, hids, hhandled⟩ := hboard
  refine ⟨hcore, hsame.ops.trans h.ops, ?_, ?_, ?_, hsame.acquires.trans h.acquires, ?_, ?_, ?_⟩
  · intro c
    exact (hsame.starts c).trans (h.starts c)
  · intro c hst
    rw [hids, hlatest]
    exact h.ids c hst
  · rw [harmed, hlatest]
    exact h.armed
  · rw [hstatus.1, hstatus.2, hlatest]
    exact h.pending
  · intro i hi
    rw [hsame.current]
    exact hfrees i hi
  · rw [hhandled]
    exact h.handled

omit [DecidableEq Client] in
theorem not_starts (h : Sis3300Inv s st) (hst : ∀ c, st ≠ .starting c) (c : Client) :
    ¬ s.board.core.Starts c :=
  fun hc => hst c ((h.starts c).1 hc)

/-! ### The core's sections -/

theorem afterIoctl_frame (s : Sis3300 Client) (board : Board Client Unit)
    (a : CoreCall Client Unit) :
    (s.afterIoctl board a).board = board ∧ (s.afterIoctl board a).statusEv = s.statusEv ∧
      (s.afterIoctl board a).statusLev = s.statusLev ∧
      ∀ c k i, (s.afterIoctl board a).pc c = .inside k i → s.pc c = .inside k i := by
  unfold Sis3300.afterIoctl
  split
  · rename_i c desc confEv
    split
    · exact ⟨rfl, rfl, rfl, fun _ _ _ hpc => hpc⟩
    · refine ⟨rfl, rfl, rfl, ?_⟩
      intro c' k i hpc
      by_cases hc : c' = c
      · subst hc
        simp only [update_self] at hpc
        cases hpc
      · simp only [update_of_ne hc] at hpc
        exact hpc
  · exact ⟨rfl, rfl, rfl, fun _ _ _ hpc => hpc⟩

theorem ioctl (h : Sis3300Inv s st) {a : CoreCall Client Unit} {board : Board Client Unit}
    (hok : Sis3300Careful s (.ioctl a)) (hs : s.board.ioctl a = some board) :
    ∃ st', Sis3300Inv (s.afterIoctl board a) st' := by
  obtain ⟨hboard, hev, hlev, hpc⟩ := afterIoctl_frame s board a
  obtain ⟨hcore, harmed, hhandled, ⟨hsame, hlatest, hids⟩ | hstart⟩ := Board.ioctl_cases hs h.core
  · refine ⟨st, h.frame ?_ ?_ ?_ ⟨hev, hlev⟩ ?_⟩
    · rw [hboard]
      exact hcore
    · rw [hboard]
      exact hsame
    · rw [hboard]
      exact ⟨harmed, hlatest, hids, hhandled⟩
    · intro i hi
      obtain ⟨c, k, hc, hinside⟩ := hi
      rw [hboard, hsame.starts c] at hc
      exact h.frees i ⟨c, k, hc, hpc c k i hinside⟩
  · obtain ⟨c, desc, confEv, rfl, hstarted, hlatest, hids⟩ := hstart
    have hquiet : st = .quiet := by
      by_contra hst
      have hacq := h.acquires.2 hst
      rw [CoreState.Acquires, h.core.not_acquiring hstarted.test] at hacq
      cases hacq
    subst hquiet
    have hcalm : s.statusEv = none ∧ s.statusLev = none := by
      rcases hok rfl with hbusy | hcalm
      · rw [hstarted.test] at hbusy
        cases hbusy
      · exact hcalm
    have hbusy : board.core.clients c ≠ .idle := by
      obtain ⟨d, hd⟩ := hstarted.self
      rw [hd]
      simp
    have heq : s.afterIoctl board (.acquire c desc confEv) =
        { s with
          board := board
          reqEvents := desc.nrEvents
          pc := update s.pc c (.before .events) } := if_neg hbusy
    have honly : ∀ c', board.core.Starts c' ↔ c' = c := by
      intro c'
      by_cases hc : c' = c
      · subst hc
        exact iff_of_true hstarted.self rfl
      · rw [hstarted.others c' hc, h.starts c']
        exact iff_of_false (by simp) hc
    rw [heq]
    refine ⟨.starting c, ⟨hcore, hstarted.ops.trans h.ops, ?_, ?_, harmed.trans h.armed,
      iff_of_true hstarted.acquires (by simp), ?_, ?_, ?_⟩⟩
    · intro c'
      rw [honly c']
      exact ⟨fun hc => by rw [hc], fun hst => by cases hst; rfl⟩
    · intro c' hc'
      cases hc'
      exact hids.trans hlatest.symm
    · intro _ a ha
      rw [hcalm.1, hcalm.2] at ha
      rcases ha with ha | ha
      · cases ha
      · cases ha
    · intro i hi
      obtain ⟨c', k, hc', hinside⟩ := hi
      rw [(honly c').1 hc'] at hinside
      simp only [update_self] at hinside
      cases hinside
    · rw [hhandled]
      exact h.handled

/-! ### The start -/

theorem moveStart (h : Sis3300Inv s st) {c : Client} {p : StartPc}
    (hp : ∀ k i, p = .inside k i → i = s.board.core.card.currSegment) :
    Sis3300Inv { s with pc := update s.pc c p } st := by
  refine h.frame h.core (.refl _) ⟨rfl, rfl, rfl, rfl⟩ ⟨rfl, rfl⟩ ?_
  intro i hi
  obtain ⟨c', k, hc', hinside⟩ := hi
  by_cases hc : c' = c
  · subst hc
    simp only [update_self] at hinside
    exact hp k i hinside
  · simp only [update_of_ne hc] at hinside
    exact h.frees i ⟨c', k, hc', hinside⟩

theorem arm (h : Sis3300Inv s st) {c : Client} {board : Board Client Unit}
    (hs : s.board.start c = some board) : Sis3300Inv { s with board := board } .armed := by
  obtain ⟨hcore, hstarts, hcard, hclients, harmed, hlatest, hhandled⟩ :=
    Board.start_cases hs h.core h.ops
  have hst := (h.starts c).1 hstarts
  subst hst
  have hnone : ∀ c', ¬ board.core.Starts c' := by
    intro c' hc'
    obtain ⟨hne, hother⟩ := (hclients c').1 hc'
    have heq := (h.starts c').1 hother
    cases heq
    exact hne rfl
  refine ⟨hcore, by rw [hcard]; exact h.ops, ?_, (by simp), ?_, ?_, ?_, ?_, ?_⟩
  · intro c'
    exact iff_of_false (hnone c') (by simp)
  · show board.armed = some board.latest
    rw [harmed, hlatest, h.ids c rfl]
  · show board.core.Acquires ↔ _
    rw [CoreState.Acquires, hcard]
    exact iff_of_true (h.acquires.2 (by simp)) (by simp)
  · intro _ a ha
    cases (h.pending (by simp) a ha).1
  · intro i hi
    obtain ⟨c', k, hc', -⟩ := hi
    exact absurd hc' (hnone c')
  · show ∀ r ∈ board.handled, r.1 = r.2
    rw [hhandled]
    exact h.handled

/-! ### Interrupts, the work and cancellations -/

section

omit [DecidableEq Client]

theorem armed_eq (h : Sis3300Inv s st) {a : ℕ} (ha : s.board.armed = some a) :
    st = .armed ∧ a = s.board.latest := by
  have hcases := h.armed
  rw [ha] at hcases
  cases st with
  | armed => exact ⟨rfl, Option.some.inj hcases⟩
  | _ => cases hcases

theorem raise (h : Sis3300Inv s st) {ev lev : Option ℕ}
    (hpending : st ≠ .quiet → ∀ a, ev = some a ∨ lev = some a →
      st = .armed ∧ a = s.board.latest) :
    Sis3300Inv { s with statusEv := ev, statusLev := lev } st :=
  ⟨h.core, h.ops, h.starts, h.ids, h.armed, h.acquires, hpending, h.frees, h.handled⟩

theorem or_pending (h : Sis3300Inv s st) {a b : ℕ} {o : Option ℕ} (ha : s.board.armed = some a)
    (ho : ∀ b, o = some b → st = .armed ∧ b = s.board.latest) (hb : o.or (some a) = some b) :
    st = .armed ∧ b = s.board.latest := by
  cases o with
  | none =>
    cases hb
    exact h.armed_eq ha
  | some b' => exact ho b hb

theorem finishAcquisition (h : Sis3300Inv s st) (hstarts : ∀ c, ¬ s.board.core.Starts c)
    (nrEvents : BitVec 32) (endtime : Timeval) :
    Sis3300Inv (s.finishAcquisition nrEvents endtime) .quiet := by
  refine ⟨?_, h.ops, ?_, (by simp), rfl, ?_, fun hne => absurd rfl hne, ?_, h.handled⟩
  · refine h.core.of_clients_eq rfl ?_ ?_
    · intro i hi
      have hi := Card.acquiring_of_setAcquiring_false hi
      rw [Card.acquiring_setResults] at hi
      exact ⟨hi, rfl, rfl⟩
    · intro i
      exact (Card.transferring_setAcquiring _ _ _ i).trans (Card.transferring_setResults _ _ _ _ i)
  · intro c
    exact iff_of_false (hstarts c) (by simp)
  · refine iff_of_false ?_ fun hne => hne rfl
    intro hacq
    have hself := Card.acquiring_setAcquiring (s.board.core.card.setResults
      s.board.core.card.currSegment nrEvents endtime) s.board.core.card.currSegment false
      s.board.core.card.currSegment
    rw [if_pos rfl] at hself
    cases hself.symm.trans hacq
  · intro i hi
    obtain ⟨c, k, hc, -⟩ := hi
    exact absurd hc (hstarts c)

theorem serve (h : Sis3300Inv s st) {a : ℕ}
    (ha : st ≠ .quiet → st = .armed ∧ a = s.board.latest) (test : Bool) (nrEvents : BitVec 32)
    (endtime : Timeval) : ∃ st', Sis3300Inv (s.serve a test nrEvents endtime) st' := by
  rw [Sis3300.serve]
  split
  · rename_i htest
    rw [Bool.and_eq_true] at htest
    obtain ⟨hst, hlatest⟩ := ha (h.acquires.1 htest.2)
    subst hst
    have hdone := h.finishAcquisition (h.not_starts fun _ => by simp) nrEvents endtime
    refine ⟨.quiet, ⟨hdone.core, hdone.ops, hdone.starts, hdone.ids, hdone.armed, hdone.acquires,
      hdone.pending, hdone.frees, ?_⟩⟩
    intro r hr
    rcases List.mem_cons.1 hr with rfl | hr
    · exact hlatest
    · exact h.handled r hr
  · exact ⟨st, h⟩

theorem serveEv (h : Sis3300Inv s st) (currEvent : BitVec 32) (busy : Bool) (endtime : Timeval) :
    ∃ st', Sis3300Inv (s.serveEv currEvent busy endtime) st' := by
  rw [Sis3300.serveEv]
  split
  · exact ⟨st, h⟩
  · rename_i a ha
    have hclear : Sis3300Inv { s with statusEv := none } st := by
      refine h.raise ?_
      intro hst b hb
      rcases hb with hb | hb
      · cases hb
      · exact h.pending hst b (Or.inr hb)
    exact hclear.serve (fun hst => h.pending hst a (Or.inl ha)) _ _ _

theorem serveLev (h : Sis3300Inv s st) (currEvent : BitVec 32) (endtime : Timeval) :
    ∃ st', Sis3300Inv (s.serveLev currEvent endtime) st' := by
  rw [Sis3300.serveLev]
  split
  · exact ⟨st, h⟩
  · rename_i a ha
    have hclear : Sis3300Inv { s with statusLev := none } st := by
      refine h.raise ?_
      intro hst b hb
      rcases hb with hb | hb
      · exact h.pending hst b (Or.inl hb)
      · cases hb
    exact hclear.serve (fun hst => h.pending hst a (Or.inr ha)) _ _ _

end

theorem step (h : Sis3300Inv s st) {a : Sis3300Call Client} (hok : Sis3300Careful s a)
    (hs : sis3300Step s a = some s') : ∃ st', Sis3300Inv s' st' := by
  cases a with
  | ioctl a =>
    rw [sis3300Step, Option.map_eq_some_iff] at hs
    obtain ⟨board, hboard, rfl⟩ := hs
    exact h.ioctl hok hboard
  | enterFree c =>
    rw [sis3300Step] at hs
    split at hs
    · cases hs
      refine ⟨st, h.moveStart ?_⟩
      intro k i hi
      cases hi
      rfl
    · cases hs
  | leaveFree c =>
    rw [sis3300Step] at hs
    split at hs
    · rename_i k _ _ _
      cases hs
      refine ⟨st, h.moveStart ?_⟩
      intro k' i hi
      cases k with
      | events => cases hi
      | samples => cases hi
      | timestamps => cases hi
    · cases hs
  | arm c =>
    rw [sis3300Step] at hs
    split at hs
    · rw [Option.map_eq_some_iff] at hs
      obtain ⟨board, hboard, rfl⟩ := hs
      exact ⟨.armed, h.arm hboard⟩
    · cases hs
  | event =>
    rw [sis3300Step] at hs
    split at hs
    · cases hs
    · rename_i a ha
      cases hs
      refine ⟨st, h.raise ?_⟩
      intro hst b hb
      rcases hb with hb | hb
      · exact h.or_pending ha (fun b' hb' => h.pending hst b' (Or.inl hb')) hb
      · exact h.pending hst b (Or.inr hb)
  | bankFull =>
    rw [sis3300Step] at hs
    split at hs
    · cases hs
    · rename_i a ha
      cases hs
      refine ⟨st, h.raise ?_⟩
      intro hst b hb
      rcases hb with hb | hb
      · exact h.pending hst b (Or.inl hb)
      · exact h.or_pending ha (fun b' hb' => h.pending hst b' (Or.inr hb')) hb
  | cancel currEvent busy endtime =>
    rw [sis3300Step] at hs
    split at hs
    · cases hs
      exact ⟨.quiet, h.finishAcquisition hok _ _⟩
    · cases hs
      exact ⟨st, h⟩
  | irq currEvent busy endtime =>
    cases hs
    obtain ⟨st', hst'⟩ := h.serveEv currEvent busy endtime
    exact hst'.serveLev currEvent endtime

omit [DecidableEq Client] in
theorem of_fresh (h : s.Fresh) : Sis3300Inv s .quiet := by
  obtain ⟨⟨hcore, hops, harmed, hhandled⟩, -, -⟩ := h
  have hnone : ∀ c, ¬ s.board.core.Starts c := fun c =>
    not_starts_of_eq (hcore.2.1 c) fun _ => by simp
  refine ⟨.of_fresh hcore, hops, fun c => iff_of_false (hnone c) (by simp), (by simp), harmed, ?_,
    fun hne => absurd rfl hne, ?_, ?_⟩
  · refine iff_of_false ?_ fun hne => hne rfl
    rw [CoreState.Acquires, (hcore.1 _).1]
    exact Bool.false_ne_true
  · intro i hi
    obtain ⟨c, k, hc, -⟩ := hi
    exact absurd hc (hnone c)
  · rw [hhandled]
    simp

end Sis3300Inv

theorem sis3300_laws_of_careful {s : Sis3300 Client}
    (h : (sis3300System Client).ReachUnder Sis3300Careful s) : s.Laws := by
  have hinv : ∃ st, Sis3300Inv s st := by
    refine h.invariant (P := fun s => ∃ st, Sis3300Inv s st) ?_ ?_
    · intro s₀ hs₀
      exact ⟨.quiet, .of_fresh hs₀⟩
    · intro s₀ a s₁ hinv hok hs
      obtain ⟨st, hst⟩ := hinv
      exact hst.step hok hs
  obtain ⟨st, hst⟩ := hinv
  exact hst.laws

/-! ### Both drivers -/

variable {Canceller : Type*} [DecidableEq Canceller]

/-- **Cancellation is safe** in the runs of either driver in which cancellations and acquisitions
keep clear of each other and of outstanding interrupts: the board is armed only while the current
segment is acquiring, no interrupt is applied to an acquisition that did not raise it, and no table
of a segment is freed or rewritten during a transfer from it. -/
theorem cancellation_laws (tstamps : Bool) :
    (∀ s : Sis3320 Client Canceller,
      (sis3320System Client Canceller tstamps).ReachUnder Sis3320Careful s → s.Laws) ∧
    ∀ t : Sis3300 Client, (sis3300System Client).ReachUnder Sis3300Careful t → t.Laws :=
  ⟨fun _ hs => sis3320_laws_of_careful hs, fun _ ht => sis3300_laws_of_careful ht⟩

/-- A board just registered, its memory cut into two segments. -/
def freshBoard (Completer : Type) : Board (Fin 2) Completer :=
  { core :=
      { card :=
          { ops := ⟨true, true, true, true⟩
            maxNrEvents := 8
            nChannels := 2
            evLengths := [16, 8]
            nSegmentsMax := 2
            nSegmentsMin := 1
            nSegments := 2
            segments := fun _ => ⟨false, false, 0, 0, ⟨0, 0⟩⟩
            currSegment := 0 }
        clients := fun _ => .idle
        loaded := fun _ => none }
    armed := none
    latest := 0
    ids := fun _ => 0
    handled := [] }

def fresh3320 : Sis3320 (Fin 2) Unit := ⟨freshBoard (Option Unit), none, .idle, fun _ => false⟩

def fresh3300 : Sis3300 (Fin 2) := ⟨freshBoard Unit, none, none, 0, fun _ => .arm⟩

theorem reach_fresh3320 (ok : Sis3320 (Fin 2) Unit → Sis3320Call (Fin 2) Unit → Prop) :
    (sis3320System (Fin 2) Unit false).ReachUnder ok fresh3320 := by
  have hfresh : fresh3320.Fresh :=
    ⟨⟨⟨fun _ => ⟨rfl, rfl⟩, fun _ => rfl, fun _ => rfl⟩, rfl, rfl, rfl⟩, rfl, rfl, fun _ => rfl⟩
  exact System.ReachUnder.init hfresh

theorem reach_fresh3300 (ok : Sis3300 (Fin 2) → Sis3300Call (Fin 2) → Prop) :
    (sis3300System (Fin 2)).ReachUnder ok fresh3300 := by
  have hfresh : fresh3300.Fresh :=
    ⟨⟨⟨fun _ => ⟨rfl, rfl⟩, fun _ => rfl, fun _ => rfl⟩, rfl, rfl, rfl⟩, rfl, rfl⟩
  exact System.ReachUnder.init hfresh

/-- One event of eight samples into segment `i`, without waiting for it. -/
def oneEvent (i : BitVec 32) : AcqDesc := ⟨i, 1, 8, 1, ⟨0, 0⟩⟩

/-- On each board an acquisition is cancelled and the next one runs to its interrupt, which is
served. -/
theorem cancellation_laws_run :
    ∃ (s : Sis3320 (Fin 2) Unit) (t : Sis3300 (Fin 2)),
      (sis3320System (Fin 2) Unit false).ReachUnder Sis3320Careful s ∧
      (sis3300System (Fin 2)).ReachUnder Sis3300Careful t ∧
      (2, 2) ∈ s.board.handled ∧ (2, 2) ∈ t.board.handled ∧ s.Laws ∧ t.Laws := by
  let work : Sis3320Call (Fin 2) Unit := .work 1 ⟨7, 0⟩
  let s := System.runUnder (sis3320Step false) Sis3320Careful fresh3320
    [.ioctl (.acquire 0 (oneEvent 0) 0), .acqStart 0, .disarm (), .cancelLoad (),
      .cancelClear (), .ioctl (.acquire 1 (oneEvent 1) 0), .acqStart 1, .finish, work, work, work,
      work, work, work, work, work]
  let start (c : Fin 2) : List (Sis3300Call (Fin 2)) :=
    [.enterFree c, .leaveFree c, .enterFree c, .leaveFree c, .enterFree c, .leaveFree c, .arm c]
  let t := System.runUnder sis3300Step Sis3300Careful fresh3300
    (.ioctl (.acquire 0 (oneEvent 0) 0) :: start 0 ++ [.cancel 0 true ⟨6, 0⟩] ++
      .ioctl (.acquire 1 (oneEvent 1) 0) :: start 1 ++ [.event, .irq 1 false ⟨7, 0⟩])
  have hs : (sis3320System (Fin 2) Unit false).ReachUnder Sis3320Careful s :=
    System.ReachUnder.runUnder (reach_fresh3320 _) _
  have ht : (sis3300System (Fin 2)).ReachUnder Sis3300Careful t :=
    System.ReachUnder.runUnder (reach_fresh3300 _) _
  obtain ⟨h3320, h3300⟩ := @cancellation_laws (Fin 2) _ Unit _ false
  exact ⟨s, t, hs, ht, by decide, by decide, h3320 s hs, h3300 t ht⟩

/-- On the SIS3320 an interrupt raised before the cancellation is applied to the next acquisition;
on the SIS3300 a cancellation before the arming leaves the board armed for nothing. -/
theorem cancellation_breaks_laws :
    (¬ ∀ s : Sis3320 (Fin 2) Unit, (sis3320System (Fin 2) Unit false).Reach s → s.Laws) ∧
      ¬ ∀ t : Sis3300 (Fin 2), (sis3300System (Fin 2)).Reach t → t.Laws := by
  constructor
  · intro hall
    let work : Sis3320Call (Fin 2) Unit := .work 1 ⟨7, 0⟩
    let s := System.runUnder (sis3320Step false) (fun _ _ => True) fresh3320
      [.ioctl (.acquire 0 (oneEvent 0) 0), .acqStart 0, .finish, .disarm (), .cancelLoad (),
        .cancelClear (), .ioctl (.acquire 1 (oneEvent 1) 0), work, work, work]
    have hs : (sis3320System (Fin 2) Unit false).Reach s :=
      System.ReachUnder.runUnder (reach_fresh3320 _) _
    have hlaw := (hall s hs).2.1 (1, 2) (by decide)
    exact absurd hlaw (by decide)
  · intro hall
    let t := System.runUnder sis3300Step (fun _ _ => True) fresh3300
      [.ioctl (.acquire 0 (oneEvent 0) 0), .cancel 0 false ⟨6, 0⟩, .enterFree 0, .leaveFree 0,
        .enterFree 0, .leaveFree 0, .enterFree 0, .leaveFree 0, .arm 0]
    have ht : (sis3300System (Fin 2)).Reach t :=
      System.ReachUnder.runUnder (reach_fresh3300 _) _
    have hlaw : t.board.core.Acquires := (hall t ht).1 (by decide)
    have hflag : (t.board.core.card.segments t.board.core.card.currSegment).acquiring = false := by
      decide
    cases hflag.symm.trans hlaw

end KernelModules.Sis33
