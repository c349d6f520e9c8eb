import KernelModules.Sis33.Exclusion

/-!
# The board behind a card

The core marks a segment acquiring under its lock and calls the driver's `acq_start` after the
unlock; the driver arms the board, and the board raises an interrupt when it is done.  This file is
what the two drivers share.

* `Board` is the core's state with the arming of the hardware.  Acquisitions are numbered as they
  are marked: `latest` is the last one, `ids` the one a client has marked, and `armed` the one the
  hardware was armed for;
* `handled` logs the interrupts whose work has changed results or completed an acquisition: the
  acquisition that raised it and the one it has been applied to;
* `Board.Laws` is what a driver owes: armed only while the current segment is acquiring, no
  interrupt applied to another acquisition, no table of a segment touched during a transfer;
* `ioctl_cases` says what the core's own sections do to an acquisition: nothing, unless one starts.
-/

namespace KernelModules.Sis33

open Function KernelModules.Lib

variable {Client Completer : Type*}

/-- The core's state, the hardware and the numbers of the acquisitions. -/
structure Board (Client Completer : Type*) where
  core : CoreState Client Completer
  armed : Option ℕ
  latest : ℕ
  ids : Client → ℕ
  handled : List (ℕ × ℕ)

/-- A client between the unlock of its `ACQUIRE` and the arming. -/
def CoreState.Starts (s : CoreState Client Completer) (c : Client) : Prop :=
  ∃ desc, s.clients c = .starting desc

instance (s : CoreState Client Completer) (c : Client) : Decidable (s.Starts c) :=
  match h : s.clients c with
  | .starting desc => isTrue ⟨desc, h⟩
  | .idle => isFalse fun hex => nomatch h.symm.trans hex.choose_spec
  | .acqWaiting _ => isFalse fun hex => nomatch h.symm.trans hex.choose_spec
  | .fetchWaiting _ _ => isFalse fun hex => nomatch h.symm.trans hex.choose_spec
  | .transferring _ _ _ _ => isFalse fun hex => nomatch h.symm.trans hex.choose_spec

/-- The current segment is marked acquiring. -/
def CoreState.Acquires (s : CoreState Client Completer) : Prop :=
  (s.card.segments s.card.currSegment).acquiring = true

/-- The sections that belong to the core's ioctls and stores; the others are the driver's. -/
def CoreCall.isIoctl : CoreCall Client Completer → Bool
  | .acqStart _ => false
  | .results _ _ _ => false
  | .load _ => false
  | .clear _ => false
  | _ => true

def CoreCall.isAcquire : CoreCall Client Completer → Bool
  | .acquire _ _ _ => true
  | _ => false

namespace Board

/-- Nothing is armed and nothing has been acquired. -/
def Fresh (b : Board Client Completer) : Prop :=
  b.core.Fresh ∧ b.core.card.ops = ⟨true, true, true, true⟩ ∧ b.armed = none ∧ b.handled = []

/-- The three laws; `touching i` says that a table of segment `i` is being freed or rewritten. -/
def Laws (b : Board Client Completer) (touching : ℕ → Prop) : Prop :=
  (b.armed ≠ none → b.core.Acquires) ∧ (∀ r ∈ b.handled, r.1 = r.2) ∧
    ∀ i, touching i → (b.core.card.segments i).transferring = false

/-- The work of an interrupt of acquisition `a` changes the results, or completes it. -/
def note (b : Board Client Completer) (a : ℕ) : Board Client Completer :=
  { b with handled := (a, b.latest) :: b.handled }

variable [DecidableEq Client] [DecidableEq Completer]

/-- A section of the core; an `ACQUIRE` that leaves its client starting has a new number. -/
def ioctl (b : Board Client Completer) (a : CoreCall Client Completer) :
    Option (Board Client Completer) :=
  if a.isIoctl then
    (coreStep b.core a).map fun core =>
      match a with
      | .acquire c _ _ =>
        if core.clients c = .idle then { b with core := core }
        else
          { b with
            core := core
            latest := b.latest + 1
            ids := update b.ids c (b.latest + 1) }
      | _ => { b with core := core }
  else none

/-- The end of `acq_start`: the hardware is armed. -/
def start (b : Board Client Completer) (c : Client) : Option (Board Client Completer) :=
  (coreStep b.core (.acqStart c)).map fun core => { b with core := core, armed := some (b.ids c) }

end Board

/-! ### What the core's sections do to an acquisition -/

variable [DecidableEq Client] [DecidableEq Completer]

/-- No acquisition starts, ends or moves on. -/
structure SameAcquisition (s s' : CoreState Client Completer) : Prop where
  acquiring : ∀ i, (s'.card.segments i).acquiring = (s.card.segments i).acquiring
  current : s'.card.currSegment = s.card.currSegment
  ops : s'.card.ops = s.card.ops
  starts : ∀ c, s'.Starts c ↔ s.Starts c

/-- An acquisition starts: no segment was acquiring, and now the current one is. -/
structure Started (s s' : CoreState Client Completer) (c : Client) : Prop where
  test : s.card.isAcquiring = false
  acquires : s'.Acquires
  ops : s'.card.ops = s.card.ops
  idle : s.clients c = .idle
  self : s'.Starts c
  others : ∀ c', c' ≠ c → (s'.Starts c' ↔ s.Starts c')

section Frame

variable {s s' : CoreState Client Completer} {c : Client}

omit [DecidableEq Client] [DecidableEq Completer] in
theorem SameAcquisition.refl (s : CoreState Client Completer) : SameAcquisition s s :=
  ⟨fun _ => rfl, rfl, rfl, fun _ => Iff.rfl⟩

omit [DecidableEq Client] [DecidableEq Completer] in
theorem SameAcquisition.acquires (h : SameAcquisition s s') : s'.Acquires ↔ s.Acquires := by
  rw [CoreState.Acquires, CoreState.Acquires, h.current, h.acquiring]

omit [DecidableEq Client] [DecidableEq Completer] in
theorem SameAcquisition.of_clients_eq (hclients : s'.clients = s.clients)
    (hacq : ∀ i, (s'.card.segments i).acquiring = (s.card.segments i).acquiring)
    (hcurr : s'.card.currSegment = s.card.currSegment) (hops : s'.card.ops = s.card.ops) :
    SameAcquisition s s' := by
  refine ⟨hacq, hcurr, hops, ?_⟩
  intro c
  rw [CoreState.Starts, CoreState.Starts, hclients]

omit [DecidableEq Completer] in
theorem starts_goto_of_ne {p : ClientPhase} {c' : Client} (h : c' ≠ c) :
    (s.goto c p).Starts c' ↔ s.Starts c' := by
  simp only [CoreState.Starts, CoreState.goto, update_of_ne h]

omit [DecidableEq Completer] in
theorem starts_goto_self {p : ClientPhase} :
    (s.goto c p).Starts c ↔ ∃ desc, p = .starting desc := by
  simp only [CoreState.Starts, CoreState.goto, update_self]

omit [DecidableEq Completer] in
theorem SameAcquisition.goto {card : Card} {p : ClientPhase}
    (hcard : SameAcquisition s { s with card := card }) (hc : ¬ s.Starts c)
    (hp : ∀ desc, p ≠ .starting desc) : SameAcquisition s ({ s with card := card }.goto c p) := by
  refine ⟨hcard.acquiring, hcard.current, hcard.ops, ?_⟩
  intro c'
  by_cases h : c' = c
  · subst h
    rw [starts_goto_self]
    exact iff_of_false (fun hex => hp _ hex.choose_spec) hc
  · rw [starts_goto_of_ne h]
    exact hcard.starts c'

omit [DecidableEq Completer] in
theorem SameAcquisition.mark {list : AcqList} {acqs : List Acq} (hc : ¬ s.Starts c) :
    SameAcquisition s (s.mark c list acqs) := by
  rw [CoreState.mark]
  split
  · exact SameAcquisition.goto (.refl s) hc fun _ => by simp
  · rename_i n t card hok
    obtain ⟨-, -, rfl⟩ := Card.fetchMark_ok hok
    refine SameAcquisition.goto ?_ hc fun _ => by simp
    exact .of_clients_eq rfl (Card.acquiring_setTransferring _ _ _) rfl rfl

omit [DecidableEq Client] [DecidableEq Completer] in
theorem not_starts_of_eq {p : ClientPhase} (h : s.clients c = p)
    (hp : ∀ desc, p ≠ .starting desc) : ¬ s.Starts c := by
  intro hex
  obtain ⟨desc, hdesc⟩ := hex
  exact hp desc (h.symm.trans hdesc)

theorem acquire_cases {desc : AcqDesc} {confEv : ℤ}
    (hs : coreStep s (.acquire c desc confEv) = some s') :
    s.clients c = .idle ∧ (s' = s ∨ Started s s' c) := by
  rw [coreStep] at hs
  split at hs; · cases hs
  rename_i hidle
  rw [not_not] at hidle
  refine ⟨hidle, ?_⟩
  split at hs
  · cases hs
    exact Or.inl rfl
  · split at hs
    · cases hs
      exact Or.inl rfl
    · rename_i card hok
      cases hs
      obtain ⟨-, -, htest, rfl⟩ := Card.acqStartLocked_ok hok
      refine Or.inr ⟨htest, ?_, rfl, hidle, starts_goto_self.2 ⟨desc, rfl⟩, ?_⟩
      · rw [CoreState.Acquires, CoreState.card_goto]
        simp only [Card.segments_setSegment_self]
      · intro c' hc'
        exact starts_goto_of_ne hc'

theorem sameAcquisition_of_coreStep {a : CoreCall Client Completer}
    (hs : coreStep s a = some s') (hio : a.isIoctl = true)
    (hne : ∀ c desc confEv, a ≠ .acquire c desc confEv) : SameAcquisition s s' := by
  cases a with
  | acquire c desc confEv => exact absurd rfl (hne c desc confEv)
  | acqStart c => cases hio
  | acqReturn c =>
    rw [coreStep] at hs
    split at hs
    · rename_i hc
      cases hs
      exact .goto (.refl s) (not_starts_of_eq hc fun _ => by simp) fun _ => by simp
    · cases hs
  | fetch c list acqs =>
    rw [coreStep] at hs
    split at hs; · cases hs
    rename_i hidle
    rw [not_or, not_not] at hidle
    have hc : ¬ s.Starts c := not_starts_of_eq hidle.1 fun _ => by simp
    split at hs
    · cases hs
      exact .refl s
    · cases hs
      rw [CoreState.fetchLocked]
      split
      · exact .refl s
      · split
        · split
          · exact .goto (.refl s) hc fun _ => by simp
          · exact .refl s
        · exact .mark hc
  | fetchRelock c =>
    rw [coreStep] at hs
    split at hs
    · rename_i hc
      cases hs
      exact .mark (not_starts_of_eq hc fun _ => by simp)
    · cases hs
  | fetchGiveUp c =>
    rw [coreStep] at hs
    split at hs
    · rename_i hc
      cases hs
      exact .goto (.refl s) (not_starts_of_eq hc fun _ => by simp) fun _ => by simp
    · cases hs
  | fetchDone c =>
    rw [coreStep] at hs
    split at hs
    · rename_i hc
      cases hs
      refine .goto ?_ (not_starts_of_eq hc fun _ => by simp) fun _ => by simp
      exact .of_clients_eq rfl (Card.acquiring_setTransferring _ _ _) rfl rfl
    · cases hs
  | storeNSegments segments =>
    rw [coreStep] at hs
    split at hs
    · cases hs
      exact .refl s
    · rename_i hok
      obtain ⟨-, rfl⟩ := Card.storeNSegments_ok hok
      cases hs
      exact .of_clients_eq rfl (fun _ => rfl) rfl rfl
  | results i nrEvents endtime => cases hio
  | load k => cases hio
  | clear k => cases hio

theorem clear_frame {k : Completer} (hs : coreStep s (.clear k) = some s') :
    (∀ c, s'.Starts c ↔ s.Starts c) ∧ s'.card.ops = s.card.ops ∧
      s'.card.currSegment = s.card.currSegment := by
  rw [coreStep] at hs
  split at hs
  · cases hs
  · cases hs
    exact ⟨fun _ => Iff.rfl, rfl, rfl⟩

end Frame

namespace Board

variable {b b' : Board Client Completer}

theorem ioctl_cases {a : CoreCall Client Completer} (h : b.ioctl a = some b')
    (hinv : CoreInv b.core) :
    CoreInv b'.core ∧ b'.armed = b.armed ∧ b'.handled = b.handled ∧
      ((SameAcquisition b.core b'.core ∧ b'.latest = b.latest ∧ b'.ids = b.ids) ∨
        ∃ c desc confEv, a = .acquire c desc confEv ∧ Started b.core b'.core c ∧
          b'.latest = b.latest + 1 ∧ b'.ids c = b.latest + 1) := by
  rw [ioctl] at h
  split at h
  · rename_i hio
    rw [Option.map_eq_some_iff] at h
    obtain ⟨core, hcore, hb⟩ := h
    have hinv' := hinv.step hcore
    split at hb
    · rename_i c desc confEv
      obtain ⟨hidle, hsame | hstarted⟩ := acquire_cases hcore
      · subst hsame
        rw [if_pos hidle] at hb
        subst hb
        exact ⟨hinv', rfl, rfl, Or.inl ⟨.refl _, rfl, rfl⟩⟩
      · have hbusy : core.clients c ≠ .idle := by
          obtain ⟨d, hd⟩ := hstarted.self
          rw [hd]
          simp
        rw [if_neg hbusy] at hb
        subst hb
        exact ⟨hinv', rfl, rfl, Or.inr ⟨c, desc, confEv, rfl, hstarted, rfl, update_self _ _ _⟩⟩
    · rename_i hne
      subst hb
      exact ⟨hinv', rfl, rfl, Or.inl ⟨sameAcquisition_of_coreStep hcore hio hne, rfl, rfl⟩⟩
  · cases h

theorem start_cases {c : Client} (h : b.start c = some b') (hinv : CoreInv b.core)
    (hops : b.core.card.ops = ⟨true, true, true, true⟩) :
    CoreInv b'.core ∧ b.core.Starts c ∧ b'.core.card = b.core.card ∧
      (∀ c', b'.core.Starts c' ↔ c' ≠ c ∧ b.core.Starts c') ∧ b'.armed = some (b.ids c) ∧
      b'.latest = b.latest ∧ b'.handled = b.handled := by
  rw [start, Option.map_eq_some_iff] at h
  obtain ⟨core, hcore, rfl⟩ := h
  have hinv' := hinv.step hcore
  rw [coreStep] at hcore
  split at hcore
  · rename_i desc hc
    rw [if_pos (by rw [hops]; rfl)] at hcore
    cases hcore
    refine ⟨hinv', ⟨desc, hc⟩, rfl, ?_, rfl, rfl, rfl⟩
    intro c'
    by_cases heq : c' = c
    · subst heq
      rw [starts_goto_self]
      exact iff_of_false (by rintro ⟨desc, hdesc⟩; cases hdesc) (fun hne => hne.1 rfl)
    · rw [starts_goto_of_ne heq]
      exact (and_iff_right heq).symm
  · cases hcore

end Board

end KernelModules.Sis33
