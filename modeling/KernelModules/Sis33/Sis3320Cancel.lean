import Mathlib.Data.Fintype.Basic
import KernelModules.Sis33.Board

/-!
# Cancelling an acquisition of the SIS3320

`sis3320_acq_cancel` disarms the board and completes the acquisition, and `sis3320_irq_work` reads
the event directory and completes it; neither takes the card's lock, and both act on whatever
segment is the current one when they get there.

* `Sis3320` is the board with its interrupt status bit, the work under way and the cancellations
  between their `DISARM` and their completion; `sis3320Step` has a label for each of their steps
  (the singlethreaded workqueue runs one work at a time);
* `Stage` is the life of an acquisition, and `Sis3320Inv` what the driver's state is at each stage.
  The steps that meet `Sis3320Careful` move along it: a cancellation begins only while no
  acquisition is between its unlock and its arming and no interrupt is waiting for its work or in
  it, and no acquisition begins while a cancellation is under way;
* `sis3320_laws_of_careful` is what these runs keep.
-/

namespace KernelModules.Sis33

open Function KernelModules.Lib

variable {Client Canceller : Type*}

/-! ### The driver -/

/-- Where `sis3320_irq_work` is.  All but the last two know the acquisition whose interrupt they
serve; `inRead` and `inTicks` are inside `sis3320_read_segment` and `sis3320_read_prevticks`, called
for segment `i`. -/
inductive WorkPhase where
  | idle
  | clear (a : ℕ)
  | stamp (a : ℕ)
  | enterRead (a : ℕ)
  | inRead (a : ℕ) (i : ℕ)
  | enterTicks (a : ℕ)
  | inTicks (a : ℕ) (i : ℕ)
  | load (a : ℕ)
  | complete (a : ℕ)
  | enable
  deriving DecidableEq, Repr

/-- The work has read the status bit and not cleared it. -/
def WorkPhase.seen : WorkPhase → Option ℕ
  | .clear a => some a
  | _ => none

/-- The work has cleared the status bit and not completed the acquisition. -/
def WorkPhase.serving : WorkPhase → Option ℕ
  | .stamp a => some a
  | .enterRead a => some a
  | .inRead a _ => some a
  | .enterTicks a => some a
  | .inTicks a _ => some a
  | .load a => some a
  | .complete a => some a
  | _ => none

/-- The segment whose tables the work is rewriting. -/
def WorkPhase.touching : WorkPhase → Option ℕ
  | .inRead _ i => some i
  | .inTicks _ i => some i
  | _ => none

theorem WorkPhase.serving_of_touching {w : WorkPhase} {i : ℕ} (h : w.touching = some i) :
    w.serving ≠ none := by
  cases w with
  | inRead a j => simp [serving]
  | inTicks a j => simp [serving]
  | _ => cases h

/-- The board, `INTCTL_ST_LEV` with the acquisition that raised it, the work, and the cancellations
under way.  The core's completer `none` is the work, `some k` a cancellation. -/
structure Sis3320 (Client Canceller : Type*) where
  board : Board Client (Option Canceller)
  status : Option ℕ
  work : WorkPhase
  cancelling : Canceller → Bool

/-- A section of the core, the arming, the board's last event, a step of the work (with what it
reads from the event counter and the clock), and the three steps of a cancellation. -/
inductive Sis3320Call (Client Canceller : Type*) where
  | ioctl (a : CoreCall Client (Option Canceller))
  | acqStart (c : Client)
  | finish
  | work (nrEvents : BitVec 32) (endtime : Timeval)
  | disarm (k : Canceller)
  | cancelLoad (k : Canceller)
  | cancelClear (k : Canceller)

namespace Sis3320

def Fresh (s : Sis3320 Client Canceller) : Prop :=
  s.board.Fresh ∧ s.status = none ∧ s.work = .idle ∧ ∀ k, s.cancelling k = false

/-- The tables of segment `i` are being freed or rewritten. -/
def Touching (s : Sis3320 Client Canceller) (i : ℕ) : Prop := s.work.touching = some i

def Laws (s : Sis3320 Client Canceller) : Prop := s.board.Laws s.Touching

/-- The core's state after one of the driver's own sections. -/
def setCore (s : Sis3320 Client Canceller) (core : CoreState Client (Option Canceller)) :
    Sis3320 Client Canceller :=
  { s with board := { s.board with core := core } }

/-- The work writes into a segment, for the interrupt of acquisition `a`. -/
def results (s : Sis3320 Client Canceller) (a i : ℕ) (nrEvents : BitVec 32)
    (endtime : Timeval) : Sis3320 Client Canceller :=
  { s with
    board :=
      { s.board with
        core :=
          { s.board.core with card := s.board.core.card.setResults i nrEvents endtime } }.note a }

variable [DecidableEq Client] [DecidableEq Canceller]

/-- One step of `sis3320_irq_work`; `tstamps` says that the board is a SIS3302. -/
def workStep (tstamps : Bool) (s : Sis3320 Client Canceller) (nrEvents : BitVec 32)
    (endtime : Timeval) : Option (Sis3320 Client Canceller) :=
  let card := s.board.core.card
  let curr := card.currSegment
  match s.work with
  | .idle =>
    match s.status with
    | none => some s
    | some a => some { s with work := .clear a }
  | .clear a => some { s with status := none, work := .stamp a }
  | .stamp a =>
    some { s.results a curr (card.segments curr).nrEvents endtime with work := .enterRead a }
  | .enterRead a => some { s with work := .inRead a curr }
  | .inRead a i =>
    some { s.results a i nrEvents (card.segments i).endtime with work := .enterTicks a }
  | .enterTicks a =>
    if tstamps && (card.segments curr).nrEvents ≠ 0 then some { s with work := .inTicks a curr }
    else some { s with work := .load a }
  | .inTicks a i =>
    some { s.results a i (card.segments i).nrEvents (card.segments i).endtime with
      work := .load a }
  | .load a =>
    (coreStep s.board.core (.load none)).map fun core =>
      { s.setCore core with work := .complete a }
  | .complete a =>
    (coreStep s.board.core (.clear none)).map fun core =>
      { s with board := { s.board with core := core }.note a, work := .enable }
  | .enable => some { s with work := .idle }

end Sis3320

open Sis3320

variable [DecidableEq Client] [DecidableEq Canceller]

def sis3320Step (tstamps : Bool) (s : Sis3320 Client Canceller) :
    Sis3320Call Client Canceller → Option (Sis3320 Client Canceller)
  | .ioctl a => (s.board.ioctl a).map fun board => { s with board := board }
  | .acqStart c => (s.board.start c).map fun board => { s with board := board }
  | .finish =>
    match s.board.armed with
    | none => none
    | some a =>
      some { s with board := { s.board with armed := none }, status := s.status.or (some a) }
  | .work nrEvents endtime => s.workStep tstamps nrEvents endtime
  | .disarm k =>
    if s.cancelling k then none
    else
      some
        { s with
          board := { s.board with armed := none }
          cancelling := update s.cancelling k true }
  | .cancelLoad k =>
    if s.cancelling k then (coreStep s.board.core (.load (some k))).map s.setCore else none
  | .cancelClear k =>
    if s.cancelling k then
      (coreStep s.board.core (.clear (some k))).map fun core =>
        { s.setCore core with cancelling := update s.cancelling k false }
    else none

/-- Any clients, any cancellations, the board and its work, in any order. -/
def sis3320System (Client Canceller : Type*) [DecidableEq Client] [DecidableEq Canceller]
    (tstamps : Bool) : System (Sis3320 Client Canceller) (Sis3320Call Client Canceller) :=
  System.ofFun Fresh (sis3320Step tstamps)

/-- A cancellation begins only while no client is between its unlock and its arming and no
interrupt is waiting for its work or in it; no acquisition begins while a cancellation is under
way, unless it is refused because one is running. -/
def Sis3320Careful (s : Sis3320 Client Canceller) : Sis3320Call Client Canceller → Prop
  | .ioctl a =>
    a.isAcquire = true → s.board.core.card.isAcquiring = true ∨ ∀ k, s.cancelling k = false
  | .disarm _ =>
    (∀ c, ¬ s.board.core.Starts c) ∧ s.status = none ∧ s.work.seen = none ∧
      s.work.serving = none
  | _ => True

instance [Fintype Client] [Fintype Canceller] (s : Sis3320 Client Canceller)
    (a : Sis3320Call Client Canceller) : Decidable (Sis3320Careful s a) :=
  match a with
  | .ioctl a => inferInstanceAs (Decidable (a.isAcquire = true →
      s.board.core.card.isAcquiring = true ∨ ∀ k, s.cancelling k = false))
  | .disarm _ => inferInstanceAs (Decidable ((∀ c, ¬ s.board.core.Starts c) ∧ s.status = none ∧
      s.work.seen = none ∧ s.work.serving = none))
  | .acqStart _ => isTrue trivial
  | .finish => isTrue trivial
  | .work _ _ => isTrue trivial
  | .cancelLoad _ => isTrue trivial
  | .cancelClear _ => isTrue trivial

/-! ### The life of an acquisition -/

/-- Nothing runs; a client is about to arm; the board is armed; it has raised its interrupt; the
work has seen the interrupt; the work serves it. -/
inductive Stage (Client : Type*) where
  | quiet
  | starting (c : Client)
  | armed
  | raised
  | seen
  | serving

namespace Stage

def armedFor (a : ℕ) : Stage Client → Option ℕ
  | .armed => some a
  | _ => none

def raisedBy (a : ℕ) : Stage Client → Option ℕ
  | .raised => some a
  | .seen => some a
  | _ => none

def seenBy (a : ℕ) : Stage Client → Option ℕ
  | .seen => some a
  | _ => none

def servedBy (a : ℕ) : Stage Client → Option ℕ
  | .serving => some a
  | _ => none

end Stage

/-- What the driver's state is at each stage: the acquisition is the latest one, its segment is
the current one and acquiring, and no cancellation is under way. -/
structure Sis3320Inv (s : Sis3320 Client Canceller) (st : Stage Client) : Prop where
  core : CoreInv s.board.core
  ops : s.board.core.card.ops = ⟨true, true, true, true⟩
  starts : ∀ c, s.board.core.Starts c ↔ st = .starting c
  ids : ∀ c, st = .starting c → s.board.ids c = s.board.latest
  armed : s.board.armed = st.armedFor s.board.latest
  status : s.status = st.raisedBy s.board.latest
  seen : s.work.seen = st.seenBy s.board.latest
  serving : s.work.serving = st.servedBy s.board.latest
  acquires : st ≠ .quiet → s.board.core.Acquires
  calm : st ≠ .quiet → ∀ k, s.cancelling k = false
  touching : ∀ i, s.Touching i → i = s.board.core.card.currSegment
  handled : ∀ r ∈ s.board.handled, r.1 = r.2

namespace Sis3320Inv

variable {s s' : Sis3320 Client Canceller} {st : Stage Client}

omit [DecidableEq Client] [DecidableEq Canceller] in
theorem laws (h : Sis3320Inv s st) : s.Laws := by
  refine ⟨?_, h.handled, ?_⟩
  · intro harmed
    refine h.acquires fun hst => harmed ?_
    rw [h.armed, hst]
    rfl
  · intro i hi
    have hacq : s.board.core.Acquires := by
      refine h.acquires fun hst => WorkPhase.serving_of_touching hi ?_
      rw [h.serving, hst]
      rfl
    rw [h.touching i hi]
    exact h.core.apart _ hacq

omit [DecidableEq Client] [DecidableEq Canceller] in
theorem frame (h : Sis3320Inv s st) (hcore : CoreInv s'.board.core)
    (hsame : SameAcquisition s.board.core s'.board.core)
    (hboard : s'.board.armed = s.board.armed ∧ s'.board.latest = s.board.latest ∧
      s'.board.ids = s.board.ids)
    (hstatus : s'.status = s.status) (hcancel : s'.cancelling = s.cancelling)
    (hwork : s'.work.seen = s.work.seen ∧ s'.work.serving = s.work.serving)
    (htouch : ∀ i, s'.Touching i → i = s.board.core.card.currSegment)
    (hhandled : ∀ r ∈ s'.board.handled, r.1 = r.2) : Sis3320Inv s' st := by
  obtain ⟨harmed, hlatest, hids⟩ := hboard
  refine ⟨hcore, hsame.ops.trans h.ops, ?_, ?_, ?_, ?_, ?_, ?_, ?_, ?_, ?_, hhandled⟩
  · intro c
    exact (hsame.starts c).trans (h.starts c)
  · intro c hst
    rw [hids, hlatest]
    exact h.ids c hst
  · rw [harmed, hlatest]
    exact h.armed
  · rw [hstatus, hlatest]
    exact h.status
  · rw [hwork.1, hlatest]
    exact h.seen
  · rw [hwork.2, hlatest]
    exact h.serving
  · intro hst
    exact hsame.acquires.2 (h.acquires hst)
  · rw [hcancel]
    exact h.calm
  · intro i hi
    rw [hsame.current]
    exact htouch i hi

omit [DecidableEq Client] [DecidableEq Canceller] in
theorem of_quiet (hcore : CoreInv s.board.core)
    (hops : s.board.core.card.ops = ⟨true, true, true, true⟩)
    (hstarts : ∀ c, ¬ s.board.core.Starts c) (harmed : s.board.armed = none)
    (hstatus : s.status = none) (hseen : s.work.seen = none) (hserving : s.work.serving = none)
    (hhandled : ∀ r ∈ s.board.handled, r.1 = r.2) : Sis3320Inv s .quiet := by
  refine ⟨hcore, hops, ?_, (by simp), harmed, hstatus, hseen, hserving, fun hne => absurd rfl hne,
    fun hne => absurd rfl hne, ?_, hhandled⟩
  · intro c
    exact iff_of_false (hstarts c) (by simp)
  · intro i hi
    exact absurd hserving (WorkPhase.serving_of_touching hi)

omit [DecidableEq Client] [DecidableEq Canceller] in
theorem not_starts (h : Sis3320Inv s st) (hst : ∀ c, st ≠ .starting c) (c : Client) :
    ¬ s.board.core.Starts c :=
  fun hc => hst c ((h.starts c).1 hc)

/-! ### The core's sections and the arming -/

omit [DecidableEq Client] [DecidableEq Canceller] in
theorem quiet_of_isAcquiring_eq_false (h : Sis3320Inv s st)
    (htest : s.board.core.card.isAcquiring = false) : st = .quiet := by
  by_contra hst
  have hacq := h.acquires hst
  rw [CoreState.Acquires, h.core.not_acquiring htest] at hacq
  cases hacq

theorem ioctl (h : Sis3320Inv s st) {a : CoreCall Client (Option Canceller)}
    {board : Board Client (Option Canceller)} (hok : Sis3320Careful s (.ioctl a))
    (hs : s.board.ioctl a = some board) : ∃ st', Sis3320Inv { s with board := board } st' := by
  obtain ⟨hcore, harmed, hhandled, ⟨hsame, hlatest, hids⟩ | hstart⟩ := Board.ioctl_cases hs h.core
  · refine ⟨st, h.frame hcore hsame ⟨harmed, hlatest, hids⟩ rfl rfl ⟨rfl, rfl⟩ h.touching ?_⟩
    rw [hhandled]
    exact h.handled
  · obtain ⟨c, desc, confEv, rfl, hstarted, hlatest, hids⟩ := hstart
    have hst := h.quiet_of_isAcquiring_eq_false hstarted.test
    subst hst
    have hcalm : ∀ k, s.cancelling k = false := by
      rcases hok rfl with hbusy | hcalm
      · rw [hstarted.test] at hbusy
        cases hbusy
      · exact hcalm
    refine ⟨.starting c, ⟨hcore, hstarted.ops.trans h.ops, ?_, ?_, ?_, h.status, h.seen, h.serving,
      fun _ => hstarted.acquires, fun _ => hcalm, ?_, ?_⟩⟩
    · intro c'
      by_cases hc : c' = c
      · subst hc
        exact iff_of_true hstarted.self rfl
      · rw [hstarted.others c' hc, h.starts c']
        exact iff_of_false (by simp) fun heq => hc (by cases heq; rfl)
    · intro c' hc'
      cases hc'
      exact hids.trans hlatest.symm
    · exact harmed.trans h.armed
    · intro i hi
      exact absurd h.serving (WorkPhase.serving_of_touching hi)
    · rw [hhandled]
      exact h.handled

theorem acqStart (h : Sis3320Inv s st) {c : Client} {board : Board Client (Option Canceller)}
    (hs : s.board.start c = some board) : Sis3320Inv { s with board := board } .armed := by
  obtain ⟨hcore, hstarts, hcard, hclients, harmed, hlatest, hhandled⟩ :=
    Board.start_cases hs h.core h.ops
  have hst := (h.starts c).1 hstarts
  subst hst
  refine ⟨hcore, by rw [hcard]; exact h.ops, ?_, (by simp), ?_, h.status, h.seen, h.serving, ?_,
    fun _ => h.calm (by simp), ?_, ?_⟩
  · intro c'
    refine (hclients c').trans (iff_of_false ?_ (by simp))
    intro hother
    have heq := (h.starts c').1 hother.2
    cases heq
    exact hother.1 rfl
  · show board.armed = some board.latest
    rw [harmed, hlatest, h.ids c rfl]
  · intro _
    show board.core.Acquires
    rw [CoreState.Acquires, hcard]
    exact h.acquires (by simp)
  · intro i hi
    show i = board.core.card.currSegment
    rw [hcard]
    exact h.touching i hi
  · show ∀ r ∈ board.handled, r.1 = r.2
    rw [hhandled]
    exact h.handled

/-! ### The board and the work -/

omit [DecidableEq Client] [DecidableEq Canceller] in
theorem finish (h : Sis3320Inv s st) {a : ℕ} (harmed : s.board.armed = some a) :
    Sis3320Inv
      { s with board := { s.board with armed := none }, status := s.status.or (some a) }
      .raised := by
  have hcases := h.armed
  rw [harmed] at hcases
  cases st with
  | armed =>
    have hlatest : a = s.board.latest := Option.some.inj hcases
    subst hlatest
    refine ⟨h.core, h.ops, ?_, (by simp), rfl, ?_, h.seen, h.serving, fun _ => h.acquires (by simp),
      fun _ => h.calm (by simp), h.touching, h.handled⟩
    · intro c
      exact (h.starts c).trans (by simp)
    · rw [h.status]
      rfl
  | _ => cases hcases

omit [DecidableEq Client] [DecidableEq Canceller] in
theorem serving_eq (h : Sis3320Inv s st) {a : ℕ} (ha : s.work.serving = some a) :
    st = .serving ∧ a = s.board.latest := by
  have hcases := h.serving
  rw [ha] at hcases
  cases st with
  | serving => exact ⟨rfl, Option.some.inj hcases⟩
  | _ => cases hcases

omit [DecidableEq Client] [DecidableEq Canceller] in
theorem results (h : Sis3320Inv s st) {a : ℕ} (ha : s.work.serving = some a) (i : ℕ)
    (nrEvents : BitVec 32) (endtime : Timeval) {w : WorkPhase} (hw : w.serving = some a)
    (hseen : w.seen = s.work.seen) (htouch : w.touching = none) :
    Sis3320Inv { s.results a i nrEvents endtime with work := w } st := by
  obtain ⟨-, hlatest⟩ := h.serving_eq ha
  have hflag := s.board.core.card.acquiring_setResults i nrEvents endtime
  refine h.frame ?_ ?_ ⟨rfl, rfl, rfl⟩ rfl rfl ⟨hseen, hw.trans ha.symm⟩ ?_ ?_
  · refine h.core.of_clients_eq rfl ?_ (Card.transferring_setResults _ _ _ _)
    intro j hj
    exact ⟨(hflag j).symm.trans hj, rfl, rfl⟩
  · exact .of_clients_eq rfl hflag rfl rfl
  · intro j hj
    cases htouch.symm.trans hj
  · intro r hr
    rcases List.mem_cons.1 hr with rfl | hr
    · exact hlatest
    · exact h.handled r hr

omit [DecidableEq Client] [DecidableEq Canceller] in
theorem move (h : Sis3320Inv s st) {w : WorkPhase} (hserving : w.serving = s.work.serving)
    (hseen : w.seen = s.work.seen)
    (htouch : ∀ i, w.touching = some i → i = s.board.core.card.currSegment) :
    Sis3320Inv { s with work := w } st :=
  h.frame h.core (.refl _) ⟨rfl, rfl, rfl⟩ rfl rfl ⟨hseen, hserving⟩ htouch h.handled

theorem workStep (h : Sis3320Inv s st) {tstamps : Bool} {nrEvents : BitVec 32} {endtime : Timeval}
    (hs : s.workStep tstamps nrEvents endtime = some s') : ∃ st', Sis3320Inv s' st' := by
  cases hw : s.work with
  | idle =>
    simp only [Sis3320.workStep, hw] at hs
    split at hs
    · cases hs
      exact ⟨st, h⟩
    · rename_i a ha
      cases hs
      have hstatus := h.status
      have hseen := h.seen
      rw [ha] at hstatus
      rw [hw] at hseen
      cases st with
      | raised =>
        have hlatest : a = s.board.latest := Option.some.inj hstatus
        refine ⟨.seen, ⟨h.core, h.ops, ?_, (by simp), h.armed, ?_, ?_, ?_,
          fun _ => h.acquires (by simp), fun _ => h.calm (by simp),
          (fun _ htouch => by cases htouch), h.handled⟩⟩
        · intro c
          exact (h.starts c).trans (by simp)
        · exact ha.trans (congrArg some hlatest)
        · exact congrArg some hlatest
        · rfl
      | seen => cases hseen
      | _ => cases hstatus
  | clear a =>
    simp only [Sis3320.workStep, hw] at hs
    cases hs
    have hseen := h.seen
    rw [hw] at hseen
    cases st with
    | seen =>
      refine ⟨.serving, ⟨h.core, h.ops, ?_, (by simp), h.armed, rfl, rfl, hseen,
        fun _ => h.acquires (by simp), fun _ => h.calm (by simp), (fun _ htouch => by cases htouch),
        h.handled⟩⟩
      intro c
      exact (h.starts c).trans (by simp)
    | _ => cases hseen
  | stamp a =>
    simp only [Sis3320.workStep, hw] at hs
    cases hs
    exact ⟨st, h.results (by rw [hw]; rfl) _ _ _ rfl (by rw [hw]; rfl) rfl⟩
  | enterRead a =>
    simp only [Sis3320.workStep, hw] at hs
    cases hs
    refine ⟨st, h.move (by rw [hw]; rfl) (by rw [hw]; rfl) ?_⟩
    intro i hi
    exact (Option.some.inj hi).symm
  | inRead a i =>
    simp only [Sis3320.workStep, hw] at hs
    cases hs
    exact ⟨st, h.results (by rw [hw]; rfl) _ _ _ rfl (by rw [hw]; rfl) rfl⟩
  | enterTicks a =>
    simp only [Sis3320.workStep, hw] at hs
    split at hs
    · cases hs
      refine ⟨st, h.move (by rw [hw]; rfl) (by rw [hw]; rfl) ?_⟩
      intro i hi
      exact (Option.some.inj hi).symm
    · cases hs
      exact ⟨st, h.move (by rw [hw]; rfl) (by rw [hw]; rfl) fun _ htouch => by cases htouch⟩
  | inTicks a i =>
    simp only [Sis3320.workStep, hw] at hs
    cases hs
    exact ⟨st, h.results (by rw [hw]; rfl) _ _ _ rfl (by rw [hw]; rfl) rfl⟩
  | load a =>
    simp only [Sis3320.workStep, hw, Option.map_eq_some_iff] at hs
    obtain ⟨core, hcore, rfl⟩ := hs
    refine ⟨st, h.frame (h.core.step hcore) ?_ ⟨rfl, rfl, rfl⟩ rfl rfl ?_
      (fun _ htouch => by cases htouch) h.handled⟩
    · cases hcore
      exact .of_clients_eq rfl (fun _ => rfl) rfl rfl
    · rw [hw]
      exact ⟨rfl, rfl⟩
  | complete a =>
    simp only [Sis3320.workStep, hw, Option.map_eq_some_iff] at hs
    obtain ⟨core, hcore, rfl⟩ := hs
    obtain ⟨hst, hlatest⟩ := h.serving_eq (a := a) (by rw [hw]; rfl)
    subst hst
    obtain ⟨hstarts, hops, -⟩ := clear_frame hcore
    refine ⟨.quiet, of_quiet (h.core.step hcore) (hops.trans h.ops) ?_ h.armed h.status rfl rfl ?_⟩
    · intro c hc
      exact h.not_starts (fun _ => by simp) c ((hstarts c).1 hc)
    · intro r hr
      rcases List.mem_cons.1 hr with rfl | hr
      · exact hlatest
      · exact h.handled r hr
  | enable =>
    simp only [Sis3320.workStep, hw] at hs
    cases hs
    exact ⟨st, h.move (by rw [hw]; rfl) (by rw [hw]; rfl) fun _ htouch => by cases htouch⟩

/-! ### Cancellations -/

omit [DecidableEq Client] in
theorem disarm (h : Sis3320Inv s st) {k : Canceller} (hok : Sis3320Careful s (.disarm k)) :
    Sis3320Inv
      { s with board := { s.board with armed := none }, cancelling := update s.cancelling k true }
      .quiet := by
  obtain ⟨hstarts, hstatus, hseen, hserving⟩ := hok
  exact of_quiet h.core h.ops hstarts rfl hstatus hseen hserving h.handled

omit [DecidableEq Client] [DecidableEq Canceller] in
theorem quiet_of_cancelling (h : Sis3320Inv s st) {k : Canceller} (hk : s.cancelling k = true) :
    st = .quiet := by
  by_contra hst
  rw [h.calm hst k] at hk
  cases hk

theorem step (h : Sis3320Inv s st) {tstamps : Bool} {a : Sis3320Call Client Canceller}
    (hok : Sis3320Careful s a) (hs : sis3320Step tstamps s a = some s') :
    ∃ st', Sis3320Inv s' st' := by
  cases a with
  | ioctl a =>
    rw [sis3320Step, Option.map_eq_some_iff] at hs
    obtain ⟨board, hboard, rfl⟩ := hs
    exact h.ioctl hok hboard
  | acqStart c =>
    rw [sis3320Step, Option.map_eq_some_iff] at hs
    obtain ⟨board, hboard, rfl⟩ := hs
    exact ⟨.armed, h.acqStart hboard⟩
  | finish =>
    rw [sis3320Step] at hs
    split at hs
    · cases hs
    · rename_i a ha
      cases hs
      exact ⟨.raised, h.finish ha⟩
  | work nrEvents endtime => exact h.workStep hs
  | disarm k =>
    rw [sis3320Step] at hs
    split at hs
    · cases hs
    · cases hs
      exact ⟨.quiet, h.disarm hok⟩
  | cancelLoad k =>
    rw [sis3320Step] at hs
    split at hs
    · rw [Option.map_eq_some_iff] at hs
      obtain ⟨core, hcore, rfl⟩ := hs
      refine ⟨st, h.frame (h.core.step hcore) ?_ ⟨rfl, rfl, rfl⟩ rfl rfl ⟨rfl, rfl⟩ h.touching
        h.handled⟩
      cases hcore
      exact .of_clients_eq rfl (fun _ => rfl) rfl rfl
    · cases hs
  | cancelClear k =>
    rw [sis3320Step] at hs
    split at hs
    · rename_i hk
      rw [Option.map_eq_some_iff] at hs
      obtain ⟨core, hcore, rfl⟩ := hs
      have hst := h.quiet_of_cancelling hk
      subst hst
      obtain ⟨hstarts, hops, -⟩ := clear_frame hcore
      refine ⟨.quiet, of_quiet (h.core.step hcore) (hops.trans h.ops) ?_ h.armed h.status h.seen
        h.serving h.handled⟩
      intro c hc
      exact h.not_starts (fun _ => by simp) c ((hstarts c).1 hc)
    · cases hs

omit [DecidableEq Client] [DecidableEq Canceller] in
theorem of_fresh (h : s.Fresh) : Sis3320Inv s .quiet := by
  obtain ⟨⟨hcore, hops, harmed, hhandled⟩, hstatus, hwork, -⟩ := h
  refine of_quiet (.of_fresh hcore) hops ?_ harmed hstatus (by rw [hwork]; rfl) (by rw [hwork]; rfl)
    ?_
  · intro c
    exact not_starts_of_eq (hcore.2.1 c) fun _ => by simp
  · rw [hhandled]
    simp

end Sis3320Inv

theorem sis3320_laws_of_careful {tstamps : Bool} {s : Sis3320 Client Canceller}
    (h : (sis3320System Client Canceller tstamps).ReachUnder Sis3320Careful s) : s.Laws := by
  have hinv : ∃ st, Sis3320Inv s st := by
    refine h.invariant (P := fun s => ∃ st, Sis3320Inv s st) ?_ ?_
    · intro s₀ hs₀
      exact ⟨.quiet, .of_fresh hs₀⟩
    · intro s₀ a s₁ hinv hok hs
      obtain ⟨st, hst⟩ := hinv
      exact hst.step hok hs
  obtain ⟨st, hst⟩ := hinv
  exact hst.laws

end KernelModules.Sis33
