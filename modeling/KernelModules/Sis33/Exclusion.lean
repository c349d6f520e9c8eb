import KernelModules.Lib.Transition
import KernelModules.Sis33.Card

/-!
# Acquisitions and transfers exclude each other

Any number of clients acquire and fetch while the memory may be cut anew, acquisitions complete
and are cancelled.  A section under `card->lock` is one step; what follows its unlock is another.

* `CoreState` is the card, where every client is in its ioctl, and the segment each completion
  under way has loaded from `card->curr_segment` and not yet cleared;
* `coreStep` has one label for each section of `ACQUIRE` and `FETCH`, for the store of
  `n_segments`, and for the two halves of a completion, which takes no lock;
* `CoreInv` is the invariant: a segment marked acquiring is active, is the current one and is not
  transferring; a fetch in its transfer has its segment marked, and has it alone.  Since only the
  current segment is acquiring there is at most one (`CoreInv.exclusive`), and
  `acquire_fetch_exclusive` says so for every run.
-/

namespace KernelModules.Sis33

open Function KernelModules.Lib

variable {Client Completer : Type*}

/-! ### The ioctls, section by section -/

/-- Where a client is: before its `acq_start`, in the wait of its `ACQUIRE`, in the wait of its
`FETCH`, which has dropped the lock, or in the transfer. -/
inductive ClientPhase where
  | idle
  | starting (desc : AcqDesc)
  | acqWaiting (desc : AcqDesc)
  | fetchWaiting (list : AcqList) (acqs : List Acq)
  | transferring (list : AcqList) (acqs : List Acq) (nrEvents : ℕ) (endtime : Timeval)
  deriving DecidableEq, Repr

/-- The card with its clients and the completions under way. -/
structure CoreState (Client Completer : Type*) where
  card : Card
  clients : Client → ClientPhase
  loaded : Completer → Option ℕ

/-- One section of a call.  `confEv` is what the module's `conf_ev` answers; `results` is what the
completion of an acquisition leaves in a segment. -/
inductive CoreCall (Client Completer : Type*) where
  | acquire (c : Client) (desc : AcqDesc) (confEv : ℤ)
  | acqStart (c : Client)
  | acqReturn (c : Client)
  | fetch (c : Client) (list : AcqList) (acqs : List Acq)
  | fetchRelock (c : Client)
  | fetchGiveUp (c : Client)
  | fetchDone (c : Client)
  | storeNSegments (segments : ℤ)
  | results (i : ℕ) (nrEvents : BitVec 32) (endtime : Timeval)
  | load (k : Completer)
  | clear (k : Completer)

/-- `DONTWAIT` and `TIMEOUT` cannot coexist. -/
def badFlags (flags : BitVec 32) : Bool := dontwait flags && hasTimeout flags

/-- No call is under way and no segment is busy. -/
def CoreState.Fresh (s : CoreState Client Completer) : Prop :=
  (∀ i, (s.card.segments i).acquiring = false ∧ (s.card.segments i).transferring = false) ∧
    (∀ c, s.clients c = .idle) ∧ ∀ k, s.loaded k = none

variable [DecidableEq Client] [DecidableEq Completer]

namespace CoreState

def goto (s : CoreState Client Completer) (c : Client) (p : ClientPhase) :
    CoreState Client Completer :=
  { s with clients := update s.clients c p }

omit [DecidableEq Completer] in
@[simp] theorem card_goto (s : CoreState Client Completer) (c : Client) (p : ClientPhase) :
    (s.goto c p).card = s.card := rfl

/-- The second half of a fetch, under the lock: the transfer starts or the call returns. -/
def mark (s : CoreState Client Completer) (c : Client) (list : AcqList) (acqs : List Acq) :
    CoreState Client Completer :=
  match s.card.fetchMark list acqs with
  | .error _ => s.goto c .idle
  | .ok (nrEvents, endtime, card) =>
    { s with card := card }.goto c (.transferring list acqs nrEvents endtime)

/-- A fetch from the lock on.  If the segment is acquiring the lock is dropped for the wait. -/
def fetchLocked (s : CoreState Client Completer) (c : Client) (list : AcqList)
    (acqs : List Acq) : CoreState Client Completer :=
  if ¬ s.card.fetchEntry list then s
  else if (s.card.segments list.segment.toNat).acquiring then
    if s.card.ops.acqWait && !dontwait list.flags then s.goto c (.fetchWaiting list acqs) else s
  else s.mark c list acqs

end CoreState

open CoreState

/-- The steps.  A section that fails leaves the state; `none` says that the client is not there. -/
def coreStep (s : CoreState Client Completer) :
    CoreCall Client Completer → Option (CoreState Client Completer)
  | .acquire c desc confEv =>
    if s.clients c ≠ .idle then none
    else if badFlags desc.flags then some s
    else
      match s.card.acqStartLocked desc confEv with
      | .error _ => some s
      | .ok card => some ({ s with card := card }.goto c (.starting desc))
  | .acqStart c =>
    match s.clients c with
    | .starting desc =>
      if s.card.ops.acqStart && s.card.ops.acqWait then some (s.goto c (.acqWaiting desc))
      else some (s.goto c .idle)
    | _ => none
  | .acqReturn c =>
    match s.clients c with
    | .acqWaiting _ => some (s.goto c .idle)
    | _ => none
  | .fetch c list acqs =>
    if s.clients c ≠ .idle ∨ acqs.length ≠ list.nAcqs.toNat then none
    else if badFlags list.flags ∨ list.nAcqs = 0 then some s
    else some (s.fetchLocked c list acqs)
  | .fetchRelock c =>
    match s.clients c with
    | .fetchWaiting list acqs => some (s.mark c list acqs)
    | _ => none
  | .fetchGiveUp c =>
    match s.clients c with
    | .fetchWaiting _ _ => some (s.goto c .idle)
    | _ => none
  | .fetchDone c =>
    match s.clients c with
    | .transferring list _ _ _ =>
      some ({ s with card := s.card.setTransferring list.segment.toNat false }.goto c .idle)
    | _ => none
  | .storeNSegments segments =>
    match s.card.storeNSegments segments with
    | .error _ => some s
    | .ok card => some { s with card := card }
  | .results i nrEvents endtime =>
    some { s with card := s.card.setResults i nrEvents endtime }
  | .load k => some { s with loaded := update s.loaded k (some s.card.currSegment) }
  | .clear k =>
    match s.loaded k with
    | none => none
    | some i =>
      some { s with card := s.card.setAcquiring i false, loaded := update s.loaded k none }

/-- Any clients and completions, in any order, from a card just registered. -/
def coreSystem (Client Completer : Type*) [DecidableEq Client] [DecidableEq Completer] :
    System (CoreState Client Completer) (CoreCall Client Completer) :=
  System.ofFun Fresh coreStep

/-- The client is in a transfer from segment `i`. -/
def CoreState.Transfers (s : CoreState Client Completer) (c : Client) (i : ℕ) : Prop :=
  ∃ list acqs n t, s.clients c = .transferring list acqs n t ∧ i = list.segment.toNat

/-- The exclusion the card promises. -/
def CoreState.Exclusive (s : CoreState Client Completer) : Prop :=
  (∀ i j, (s.card.segments i).acquiring = true → (s.card.segments j).acquiring = true → i = j) ∧
    (∀ i, ¬ ((s.card.segments i).acquiring = true ∧ (s.card.segments i).transferring = true)) ∧
    ∀ c c' i, s.Transfers c i → s.Transfers c' i → c = c'

omit [DecidableEq Completer] in
theorem CoreState.transfers_goto {s : CoreState Client Completer} {c : Client} {p : ClientPhase}
    {c' : Client} {i : ℕ} (h : (s.goto c p).Transfers c' i) :
    (c' = c ∧ ∃ list acqs n t, p = .transferring list acqs n t ∧ i = list.segment.toNat) ∨
      (c' ≠ c ∧ s.Transfers c' i) := by
  obtain ⟨list, acqs, n, t, hp, hi⟩ := h
  by_cases hc : c' = c
  · subst hc
    simp only [goto, update_self] at hp
    exact Or.inl ⟨rfl, list, acqs, n, t, hp, hi⟩
  · simp only [goto, update_of_ne hc] at hp
    exact Or.inr ⟨hc, list, acqs, n, t, hp, hi⟩

omit [DecidableEq Completer] in
theorem CoreState.transfers_of_goto {s : CoreState Client Completer} {c : Client}
    {p : ClientPhase} (hp : ∀ list acqs n t, p ≠ .transferring list acqs n t) {c' : Client} {i : ℕ}
    (h : (s.goto c p).Transfers c' i) : c' ≠ c ∧ s.Transfers c' i := by
  rcases transfers_goto h with ⟨-, list, acqs, n, t, heq, -⟩ | hother
  · exact absurd heq (hp list acqs n t)
  · exact hother

/-! ### The invariant -/

/-- Only the current segment is acquiring, it is active and not transferring, and a transfer has
its segment marked and to itself. -/
structure CoreInv (s : CoreState Client Completer) : Prop where
  active : ∀ i, (s.card.segments i).acquiring = true → i < s.card.nSegments
  current : ∀ i, (s.card.segments i).acquiring = true → i = s.card.currSegment
  apart : ∀ i, (s.card.segments i).acquiring = true → (s.card.segments i).transferring = false
  marked : ∀ c i, s.Transfers c i → (s.card.segments i).transferring = true
  alone : ∀ c c' i, s.Transfers c i → s.Transfers c' i → c = c'

namespace CoreInv

variable {s s' : CoreState Client Completer} {c : Client}

section

omit [DecidableEq Client] [DecidableEq Completer]

theorem exclusive (h : CoreInv s) : s.Exclusive := by
  refine ⟨?_, ?_, h.alone⟩
  · intro i j hi hj
    exact (h.current i hi).trans (h.current j hj).symm
  · intro i hboth
    have hfalse := h.apart i hboth.1
    rw [hboth.2] at hfalse
    cases hfalse

theorem shrink (h : CoreInv s)
    (hacq : ∀ i, (s'.card.segments i).acquiring = true → (s.card.segments i).acquiring = true ∧
      s'.card.nSegments = s.card.nSegments ∧ s'.card.currSegment = s.card.currSegment)
    (htrans : ∀ i, (s'.card.segments i).transferring = true →
      (s.card.segments i).transferring = true)
    (hclients : ∀ c i, s'.Transfers c i → s.Transfers c i)
    (hmarked : ∀ c i, s'.Transfers c i → (s'.card.segments i).transferring = true) :
    CoreInv s' where
  active i hi := by
    obtain ⟨hi, hn, -⟩ := hacq i hi
    rw [hn]
    exact h.active i hi
  current i hi := by
    obtain ⟨hi, -, hcurr⟩ := hacq i hi
    rw [hcurr]
    exact h.current i hi
  apart i hi := by
    by_contra htr
    have hfalse := h.apart i (hacq i hi).1
    rw [htrans i (by simpa using htr)] at hfalse
    cases hfalse
  marked := hmarked
  alone c c' i hc hc' := h.alone c c' i (hclients c i hc) (hclients c' i hc')

theorem of_card_eq (h : CoreInv s) (hcard : s'.card = s.card)
    (hclients : ∀ c i, s'.Transfers c i → s.Transfers c i) : CoreInv s' := by
  refine h.shrink ?_ ?_ hclients ?_
  · intro i hi
    rw [hcard] at hi ⊢
    exact ⟨hi, rfl, rfl⟩
  · intro i hi
    rwa [hcard] at hi
  · intro c i ht
    rw [hcard]
    exact h.marked c i (hclients c i ht)

theorem of_clients_eq (h : CoreInv s) (hclients : s'.clients = s.clients)
    (hacq : ∀ i, (s'.card.segments i).acquiring = true → (s.card.segments i).acquiring = true ∧
      s'.card.nSegments = s.card.nSegments ∧ s'.card.currSegment = s.card.currSegment)
    (htrans : ∀ i, (s'.card.segments i).transferring = (s.card.segments i).transferring) :
    CoreInv s' := by
  have hsame : ∀ c i, s'.Transfers c i → s.Transfers c i := by
    intro c i ht
    rwa [Transfers, hclients] at ht
  refine h.shrink hacq ?_ hsame ?_
  · intro i hi
    rwa [htrans] at hi
  · intro c i ht
    rw [htrans]
    exact h.marked c i (hsame c i ht)

theorem of_fresh (h : s.Fresh) : CoreInv s := by
  obtain ⟨hflags, hidle, -⟩ := h
  have hquiet : ∀ i, (s.card.segments i).acquiring ≠ true := by
    intro i
    rw [(hflags i).1]
    exact Bool.false_ne_true
  have hnone : ∀ c i, ¬ s.Transfers c i := by
    intro c i ht
    obtain ⟨list, acqs, n, t, hc, -⟩ := ht
    rw [hidle c] at hc
    cases hc
  exact ⟨fun i hi => absurd hi (hquiet i), fun i hi => absurd hi (hquiet i),
    fun i hi => absurd hi (hquiet i), fun c i ht => absurd ht (hnone c i),
    fun c _ i ht => absurd ht (hnone c i)⟩

theorem not_acquiring (h : CoreInv s) (htest : s.card.isAcquiring = false) (i : ℕ) :
    (s.card.segments i).acquiring = false := by
  by_contra hi
  rw [Bool.not_eq_false] at hi
  rw [Card.isAcquiring_eq_false_iff.1 htest i (h.active i hi)] at hi
  cases hi

end

section

omit [DecidableEq Completer]

theorem goto (h : CoreInv s) {p : ClientPhase}
    (hp : ∀ list acqs n t, p ≠ .transferring list acqs n t) : CoreInv (s.goto c p) :=
  h.of_card_eq rfl fun _ _ ht => (transfers_of_goto hp ht).2

theorem acquire (h : CoreInv s) {desc : AcqDesc} {confEv : ℤ} {card : Card}
    (hok : s.card.acqStartLocked desc confEv = .ok card) :
    CoreInv ({ s with card := card }.goto c (.starting desc)) := by
  obtain ⟨hseg, htr, htest, hcard⟩ := Card.acqStartLocked_ok hok
  have hacq : ∀ i, (card.segments i).acquiring = true → i = desc.segment.toNat := by
    intro i hi
    by_contra hne
    rw [hcard] at hi
    simp only [Card.acquiring_setSegment, if_neg hne, h.not_acquiring htest i] at hi
    cases hi
  have htrans : ∀ i, (card.segments i).transferring = (s.card.segments i).transferring := by
    intro i
    rw [hcard]
    simp only [Card.transferring_setSegment]
    split
    · rename_i hi
      rw [hi]
    · rfl
  have hclients : ∀ c' i, ({ s with card := card }.goto c (.starting desc)).Transfers c' i →
      s.Transfers c' i := by
    intro c' i ht
    exact (transfers_of_goto (p := .starting desc) (fun _ _ _ _ => by simp) ht).2
  refine ⟨?_, ?_, ?_, ?_, ?_⟩
  · intro i hi
    rw [hacq i hi, hcard]
    exact hseg
  · intro i hi
    rw [hacq i hi, hcard]
    rfl
  · intro i hi
    have heq := hacq i hi
    subst heq
    exact (htrans _).trans htr
  · intro c' i ht
    exact (htrans i).trans (h.marked c' i (hclients c' i ht))
  · intro c' c'' i ht ht'
    exact h.alone c' c'' i (hclients c' i ht) (hclients c'' i ht')

theorem mark (h : CoreInv s) (c : Client) (list : AcqList) (acqs : List Acq) :
    CoreInv (s.mark c list acqs) := by
  rw [CoreState.mark]
  split
  · exact h.goto fun _ _ _ _ => by simp
  · rename_i n t card hok
    obtain ⟨hacq, htr, hcard⟩ := Card.fetchMark_ok hok
    subst hcard
    set seg := list.segment.toNat with hseg
    have hflag := s.card.acquiring_setTransferring seg true
    have hmark := s.card.transferring_setTransferring seg true
    have hfree : ∀ c', ¬ s.Transfers c' seg := by
      intro c' ht
      rw [h.marked c' seg ht] at htr
      cases htr
    refine ⟨?_, ?_, ?_, ?_, ?_⟩
    · intro i hi
      exact h.active i ((hflag i).symm.trans hi)
    · intro i hi
      exact h.current i ((hflag i).symm.trans hi)
    · intro i hi
      have hi : (s.card.segments i).acquiring = true := (hflag i).symm.trans hi
      have hne : i ≠ seg := by
        intro heq
        rw [heq, hacq] at hi
        cases hi
      exact (hmark i).trans ((if_neg hne).trans (h.apart i hi))
    · intro c' i ht
      refine (hmark i).trans ?_
      rcases transfers_goto ht with ⟨-, list', acqs', n', t', heq, hi⟩ | ⟨-, hother⟩
      · cases heq
        rw [if_pos hi]
      · rw [h.marked c' i hother, ite_self]
    · intro c' c'' i ht ht'
      rcases transfers_goto ht with ⟨hc, list', acqs', n', t', heq, hi⟩ | ⟨-, hother⟩
      · cases heq
        rcases transfers_goto ht' with ⟨hc', -⟩ | ⟨-, hother'⟩
        · exact hc.trans hc'.symm
        · rw [hi] at hother'
          exact absurd hother' (hfree c'')
      · rcases transfers_goto ht' with ⟨-, list', acqs', n', t', heq, hi⟩ | ⟨-, hother'⟩
        · cases heq
          rw [hi] at hother
          exact absurd hother (hfree c')
        · exact h.alone c' c'' i hother hother'

theorem fetchDone (h : CoreInv s) {list : AcqList} {acqs : List Acq} {n : ℕ} {t : Timeval}
    (hc : s.clients c = .transferring list acqs n t) :
    CoreInv ({ s with card := s.card.setTransferring list.segment.toNat false }.goto c .idle) := by
  have hself : s.Transfers c list.segment.toNat := ⟨list, acqs, n, t, hc, rfl⟩
  refine h.shrink ?_ ?_ ?_ ?_
  · intro i hi
    rw [card_goto, Card.acquiring_setTransferring] at hi
    exact ⟨hi, rfl, rfl⟩
  · intro i hi
    rw [card_goto, Card.transferring_setTransferring] at hi
    split at hi
    · cases hi
    · exact hi
  · intro c' i ht
    exact (transfers_of_goto (p := .idle) (fun _ _ _ _ => by simp) ht).2
  · intro c' i ht
    obtain ⟨hne, hother⟩ := transfers_of_goto (p := .idle) (fun _ _ _ _ => by simp) ht
    have hi : i ≠ list.segment.toNat := by
      intro heq
      rw [heq] at hother
      exact hne (h.alone c' c _ hother hself)
    rw [card_goto, Card.transferring_setTransferring, if_neg hi]
    exact h.marked c' i hother

end

/-- **One step** of any client, any completion or the store keeps the invariant. -/
theorem step (h : CoreInv s) {a : CoreCall Client Completer} (hs : coreStep s a = some s') :
    CoreInv s' := by
  cases a with
  | acquire c desc confEv =>
    rw [coreStep] at hs
    split at hs; · cases hs
    split at hs
    · cases hs
      exact h
    · split at hs
      · cases hs
        exact h
      · rename_i hok
        cases hs
        exact h.acquire hok
  | acqStart c =>
    rw [coreStep] at hs
    split at hs
    · split at hs
      · cases hs
        exact h.goto fun _ _ _ _ => by simp
      · cases hs
        exact h.goto fun _ _ _ _ => by simp
    · cases hs
  | acqReturn c =>
    rw [coreStep] at hs
    split at hs
    · cases hs
      exact h.goto fun _ _ _ _ => by simp
    · cases hs
  | fetch c list acqs =>
    rw [coreStep] at hs
    split at hs; · cases hs
    split at hs
    · cases hs
      exact h
    · cases hs
      rw [fetchLocked]
      split
      · exact h
      · split
        · split
          · exact h.goto fun _ _ _ _ => by simp
          · exact h
        · exact h.mark c list acqs
  | fetchRelock c =>
    rw [coreStep] at hs
    split at hs
    · cases hs
      exact h.mark c _ _
    · cases hs
  | fetchGiveUp c =>
    rw [coreStep] at hs
    split at hs
    · cases hs
      exact h.goto fun _ _ _ _ => by simp
    · cases hs
  | fetchDone c =>
    rw [coreStep] at hs
    split at hs
    · rename_i hc
      cases hs
      exact h.fetchDone hc
    · cases hs
  | storeNSegments segments =>
    rw [coreStep] at hs
    split at hs
    · cases hs
      exact h
    · rename_i hok
      obtain ⟨htest, rfl⟩ := Card.storeNSegments_ok hok
      cases hs
      refine h.of_clients_eq rfl ?_ fun _ => rfl
      intro i hi
      rw [h.not_acquiring htest i] at hi
      cases hi
  | results i nrEvents endtime =>
    cases hs
    refine h.of_clients_eq rfl ?_ ?_
    · intro j hj
      exact ⟨(Card.acquiring_setResults _ _ _ _ j).symm.trans hj, rfl, rfl⟩
    · exact Card.transferring_setResults _ _ _ _
  | load k =>
    cases hs
    exact h.of_card_eq rfl fun _ _ ht => ht
  | clear k =>
    rw [coreStep] at hs
    split at hs
    · cases hs
    · cases hs
      refine h.of_clients_eq rfl ?_ ?_
      · intro i hi
        exact ⟨Card.acquiring_of_setAcquiring_false hi, rfl, rfl⟩
      · exact Card.transferring_setAcquiring _ _ _

end CoreInv

/-! ### Whole runs -/

theorem CoreInv.of_reach {s : CoreState Client Completer}
    (h : (coreSystem Client Completer).Reach s) : CoreInv s := by
  refine h.invariant ?_ ?_
  · intro s₀ hs₀
    exact of_fresh hs₀
  · intro s₀ a s₁ hinv hs
    exact hinv.step hs

/-- **Acquisition and transfer exclude each other.**  Whatever the clients, the completions and
the stores do, in any order, at most one segment is acquiring, none is acquiring and transferring,
and no two fetches transfer from one segment. -/
theorem acquire_fetch_exclusive (s : CoreState Client Completer)
    (h : (coreSystem Client Completer).Reach s) : s.Exclusive :=
  (CoreInv.of_reach h).exclusive

/-- Client 0 acquires into segment 1 and fetches from it while client 1 acquires into segment 0. -/
theorem acquire_fetch_exclusive_run :
    ∃ s : CoreState ℕ Unit, (coreSystem ℕ Unit).Reach s ∧
      (s.card.segments 0).acquiring = true ∧ (s.card.segments 1).transferring = true ∧
      s.Exclusive := by
  let segment : Segment := ⟨false, false, 0, 0, ⟨0, 0⟩⟩
  let start : CoreState ℕ Unit :=
    { card := ⟨⟨true, true, true, true⟩, 8, 2, [16, 8], 2, 1, 2, fun _ => segment, 0⟩
      clients := fun _ => .idle
      loaded := fun _ => none }
  let desc (i : BitVec 32) : AcqDesc := ⟨i, 1, 8, 1, ⟨0, 0⟩⟩
  let acq : Acq := ⟨0, 16, 0, 0, 0, 0, 0⟩
  let list : AcqList := ⟨1, 0, 0, 1, 0, ⟨0, 0⟩, ⟨0, 0⟩⟩
  let s := System.runUnder coreStep (fun _ _ => True) start
    [.acquire 0 (desc 1) 0, .acqStart 0, .results 1 1 ⟨7, 0⟩, .load (), .clear (), .acqReturn 0,
      .fetch 0 list [acq], .acquire 1 (desc 0) 0]
  have hfresh : start.Fresh := ⟨fun _ => ⟨rfl, rfl⟩, fun _ => rfl, fun _ => rfl⟩
  have hstart : (coreSystem ℕ Unit).ReachUnder (fun _ _ => True) start :=
    System.ReachUnder.init hfresh
  have hs : (coreSystem ℕ Unit).Reach s := System.ReachUnder.runUnder hstart _
  exact ⟨s, hs, by decide, by decide, acquire_fetch_exclusive s hs⟩

end KernelModules.Sis33
