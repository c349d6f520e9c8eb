import KernelModules.Lib.Occupancy
import KernelModules.Lib.Transition

/-!
# Events of a VMOD-TTL board

Any number of readers wait in `vmodttl_read` for an interrupt of a board.  One flag says that there
is an event, a counter how many readers have still to copy it, and the reader that brings the
counter to zero clears the flag; the others wait for it, for one millisecond at most.

* `TtlBoard` is the board's record with its readers and with what has happened so far,
  `TtlBoard.step` one step of a reader or an interrupt;
* `Delivers` and `Counted` are what the readers rely on;
* `delivers_orderly` holds both over every run of `InOrder` steps, which leave out the four places
  where a reader and the flag can miss each other.

The polling of the two status registers is left out: an interrupt records its channel and value.  A
copy and the decrement after it are one step, since nobody else sees the first without the second.
-/

namespace KernelModules.Vmod

open Function KernelModules.Lib

/-- `CHAN_A` and `CHAN_B`. -/
inductive Channel
  | a
  | b
  deriving DecidableEq, Repr

/-- `struct message_list`. -/
structure Message where
  dev : Channel
  val : BitVec 8
  deriving DecidableEq, Repr

/-- Where a reader is in `vmodttl_read`. -/
inductive ReadPhase
  | outside
  /-- it is counted, and looks at the flag -/
  | checking
  /-- it has found no event, and looks for a signal -/
  | unready
  | asleep
  /-- it has found an event, and goes for the lock -/
  | ready
  /-- it has seen a signal, and counts out -/
  | interrupted
  /-- it has brought the counter to zero, and holds the lock -/
  | last
  /-- it has set the counter -/
  | clearing
  /-- it waits for the last reader -/
  | second
  deriving DecidableEq, Repr

/-- The reader has counted in and not out. -/
def ReadPhase.counted : ReadPhase → Bool
  | .checking | .unready | .asleep | .ready | .interrupted => true
  | _ => false

/-- What a reader's call found: the number of events, who was there, and the last event that each
reader had got. -/
structure Entry (Reader : Type*) where
  seq : ℕ
  present : Reader → Bool
  got : Reader → ℕ

/-- `struct vmodttl_dev`, the readers, and what has happened so far: the events that were recorded,
the last one that each reader got (they are numbered from 1), and what each call found. -/
structure TtlBoard (Reader : Type*) where
  irq : Bool
  nrReaders : ℤ
  messages : Message
  /-- who holds the lock over more than one step -/
  lock : Option Reader
  phase : Reader → ReadPhase
  log : List Message
  got : Reader → ℕ
  entry : Reader → Entry Reader

/-- A step. -/
inductive TtlStep (Reader : Type*)
  | interrupt (msg : Message)
  | call (p : Reader)
  | check (p : Reader)
  | signal (p : Reader)
  | sleep (p : Reader)
  | wake (p : Reader)
  | giveUp (p : Reader)
  | copy (p : Reader)
  | fault (p : Reader)
  | setZero (p : Reader)
  | clear (p : Reader)
  | leave (p : Reader)

section Board

variable {Reader : Type*} [DecidableEq Reader]

def TtlBoard.goTo (s : TtlBoard Reader) (p : Reader) (ph : ReadPhase) : TtlBoard Reader :=
  { s with phase := update s.phase p ph }

/-- `vmodttl_interrupt`, when it finds a channel. -/
def TtlBoard.interrupt (s : TtlBoard Reader) (msg : Message) : TtlBoard Reader :=
  { s with messages := msg, irq := true, log := s.log ++ [msg] }

/-- The count in. -/
def TtlBoard.call (s : TtlBoard Reader) (p : Reader) : TtlBoard Reader :=
  { s with
    nrReaders := s.nrReaders + 1
    phase := update s.phase p .checking
    entry := update s.entry p ⟨s.log.length, fun q => s.phase q ≠ .outside, s.got⟩ }

/-- The count out, on to `ph`. -/
def TtlBoard.countOut (s : TtlBoard Reader) (p : Reader) (ph : ReadPhase) : TtlBoard Reader :=
  { s with nrReaders := s.nrReaders - 1, phase := update s.phase p ph }

/-- The event is copied, and the reader counts out: the last one keeps the lock. -/
def TtlBoard.copy (s : TtlBoard Reader) (p : Reader) : TtlBoard Reader :=
  if s.nrReaders - 1 = 0 then
    { s.countOut p .last with got := update s.got p s.log.length, lock := some p }
  else { s.countOut p .second with got := update s.got p s.log.length }

/-- One step of `vmodttl_read`, or an interrupt. -/
def TtlBoard.step (s : TtlBoard Reader) : TtlStep Reader → Option (TtlBoard Reader)
  | .interrupt msg => if s.lock = none then some (s.interrupt msg) else none
  | .call p => if s.phase p = .outside then some (s.call p) else none
  | .check p =>
    if s.phase p = .checking then some (s.goTo p (if s.irq then .ready else .unready)) else none
  | .signal p => if s.phase p = .unready then some (s.goTo p .interrupted) else none
  | .sleep p => if s.phase p = .unready then some (s.goTo p .asleep) else none
  | .wake p => if s.phase p = .asleep then some (s.goTo p .checking) else none
  | .giveUp p => if s.phase p = .interrupted then some (s.countOut p .outside) else none
  | .copy p => if s.phase p = .ready ∧ s.lock = none then some (s.copy p) else none
  | .fault p => if s.phase p = .ready ∧ s.lock = none then some (s.countOut p .outside) else none
  | .setZero p =>
    if s.phase p = .last then some { s.goTo p .clearing with nrReaders := 0 } else none
  | .clear p =>
    if s.phase p = .clearing then some { s.goTo p .outside with irq := false, lock := none }
    else none
  | .leave p => if s.phase p = .second then some (s.goTo p .outside) else none

/-- No reader, no event. -/
structure TtlBoard.Fresh (s : TtlBoard Reader) : Prop where
  irq : s.irq = false
  nrReaders : s.nrReaders = 0
  lock : s.lock = none
  phase : ∀ p, s.phase p = .outside
  log : s.log = []
  got : ∀ p, s.got p = 0

/-- The board: any readers and interrupts in any order. -/
def ttlBoard : System (TtlBoard Reader) (TtlStep Reader) :=
  System.ofFun TtlBoard.Fresh TtlBoard.step

/-- What a step gives a reader back: an error, or the number of the event it has copied. -/
def TtlBoard.answer (s : TtlBoard Reader) : TtlStep Reader → Option (Reader × Option ℕ)
  | .giveUp p => some (p, none)
  | .fault p => some (p, none)
  | .copy p => some (p, some s.log.length)
  | _ => none

/-- What a reader may rely on when a step answers it: an event that was recorded while it waited, or
a later one, with the message of that event; not one that everybody who was there when it called
had got already; and none twice. -/
structure Delivers (s : TtlBoard Reader) (a : TtlStep Reader) : Prop where
  latest : ∀ p r, s.answer a = some (p, r) → ∀ m, (s.entry p).seq < m → m ≤ s.log.length →
    ∃ n, r = some n ∧ m ≤ n
  message : ∀ p n, s.answer a = some (p, some n) → s.log[n - 1]? = some s.messages
  fresh : ∀ p n, s.answer a = some (p, some n) → n ≤ (s.entry p).seq →
    ¬ ((∃ q, (s.entry p).got q = n) ∧
      ∀ q, (s.entry p).present q = true → (s.entry p).got q = n)
  once : ∀ p n, s.answer a = some (p, some n) → s.got p ≠ n

/-- With nobody in `vmodttl_read` the counter is zero, and a reader that waits since before an event
finds the flag. -/
structure Counted (s : TtlBoard Reader) : Prop where
  idle : (∀ p, s.phase p = .outside) → s.nrReaders = 0
  pending : ∀ p, (s.phase p).counted = true → (s.entry p).seq < s.log.length → s.irq = true

/-- The steps at which a reader and the flag do not miss each other.  A reader does not count in
between the last one's decrement and its `atomic_set`, nor while the event it has got is pending; it
does not give up on a signal while an event is pending; it copies only an event that is pending; and
a copy does not fail for a reader that was there before the event, nor for the last one after others
have got it. -/
def InOrder (s : TtlBoard Reader) : TtlStep Reader → Prop
  | .call p => (∀ q, s.phase q ≠ .last) ∧ (s.irq = true → s.got p ≠ s.log.length)
  | .giveUp _ => s.irq = false
  | .copy _ => s.irq = true
  | .fault p => (s.entry p).seq = s.log.length ∧
      (s.nrReaders = 1 → ∀ q, s.got q ≠ s.log.length)
  | _ => True

/-! ### The invariant -/

/-- Event `n` was there when the call was made, and everybody who was there had got it. -/
def Entry.Stale {Reader : Type*} (e : Entry Reader) (n : ℕ) : Prop :=
  (∃ q, e.got q = n) ∧ ∀ q, e.present q = true → e.got q = n

/-- The lock belongs to the last reader, the counter counts, and the flag is there for everybody who
is counted and has not got the event. -/
structure TtlInv (s : TtlBoard Reader) : Prop where
  lockOf : ∀ p, s.lock = some p ↔ s.phase p = .last ∨ s.phase p = .clearing
  count : ∃ n : ℕ, Counts (fun p => (s.phase p).counted = true) n ∧ s.nrReaders = n
  drained : ∀ p, s.phase p = .last → s.nrReaders = 0
  seqs : ∀ p, (s.phase p).counted = true → (s.entry p).seq ≤ s.log.length
  window : s.lock ≠ none → ∀ p, (s.phase p).counted = true → (s.entry p).seq = s.log.length
  pending : ∀ p, (s.phase p).counted = true → (s.entry p).seq < s.log.length → s.irq = true
  gots : ∀ p, s.got p ≤ s.log.length
  unread : s.irq = true → ∀ p, (s.phase p).counted = true → s.got p ≠ s.log.length
  message : s.irq = true → s.log.getLast? = some s.messages
  fresh : s.irq = true → s.lock = none → ∀ p, (s.phase p).counted = true →
    (s.entry p).seq = s.log.length → ¬ (s.entry p).Stale s.log.length
  left : s.irq = true → s.lock = none → s.nrReaders = 0 → ∀ p, s.got p ≠ s.log.length

variable {s s' : TtlBoard Reader} {p : Reader}

theorem TtlInv.fresh_of_init (h : s.Fresh) : TtlInv s where
  lockOf p := by simp [h.lock, h.phase p]
  count := ⟨0, counts_zero fun p => by simp [h.phase p, ReadPhase.counted], h.nrReaders⟩
  drained _ _ := h.nrReaders
  seqs p hp := by simp [h.phase p, ReadPhase.counted] at hp
  window hl := absurd h.lock hl
  pending p hp := by simp [h.phase p, ReadPhase.counted] at hp
  gots p := by simp [h.got p]
  unread hirq := by simp [h.irq] at hirq
  message hirq := by simp [h.irq] at hirq
  fresh hirq := by simp [h.irq] at hirq
  left hirq := by simp [h.irq] at hirq

theorem TtlInv.unlocked (hs : TtlInv s) (hl : s.lock = none) (q : Reader) :
    s.phase q ≠ .last ∧ s.phase q ≠ .clearing := by
  have hno : ¬ (s.phase q = .last ∨ s.phase q = .clearing) := by
    rw [← hs.lockOf q, hl]
    simp
  exact not_or.mp hno

theorem counted_same {ph : ReadPhase} (hph : ph.counted = (s.phase p).counted) (q : Reader) :
    (update s.phase p ph q).counted = (s.phase q).counted := by
  by_cases hq : q = p
  · subst hq
    rw [update_self, hph]
  · rw [update_of_ne hq]

theorem counted_out {ph : ReadPhase} (hph : ph.counted = false) {q : Reader}
    (hq : (update s.phase p ph q).counted = true) : q ≠ p ∧ (s.phase q).counted = true := by
  have hne : q ≠ p := by
    rintro rfl
    rw [update_self, hph] at hq
    cases hq
  rw [update_of_ne hne] at hq
  exact ⟨hne, hq⟩

theorem TtlInv.nrReaders_pos (hs : TtlInv s) (hp : (s.phase p).counted = true) :
    0 < s.nrReaders := by
  obtain ⟨n, hcount, hn⟩ := hs.count
  have hpos := hcount.pos hp
  omega

theorem TtlInv.count_out (hs : TtlInv s) (hp : (s.phase p).counted = true) {ph : ReadPhase}
    (hph : ph.counted = false) :
    ∃ n : ℕ, Counts (fun q => (update s.phase p ph q).counted = true) n ∧
      s.nrReaders - 1 = n := by
  obtain ⟨n, hcount, hn⟩ := hs.count
  have hpos := hcount.pos hp
  obtain ⟨m, rfl⟩ : ∃ m, n = m + 1 := ⟨n - 1, by omega⟩
  refine ⟨m, hcount.exit hp (by simp [hph]) fun q hq => ?_, by omega⟩
  rw [update_of_ne hq]

theorem TtlInv.goTo (hs : TtlInv s) {ph : ReadPhase} (hph : ph.counted = (s.phase p).counted)
    (hfree : ph ≠ .last ∧ ph ≠ .clearing)
    (hwas : s.phase p ≠ .last ∧ s.phase p ≠ .clearing) : TtlInv (s.goTo p ph) where
  lockOf q := by
    refine (hs.lockOf q).trans ?_
    change _ ↔ update s.phase p ph q = _ ∨ update s.phase p ph q = _
    by_cases hq : q = p
    · subst hq
      rw [update_self]
      exact iff_of_false (not_or.mpr hwas) (not_or.mpr hfree)
    · rw [update_of_ne hq]
  count := by
    obtain ⟨n, hcount, hn⟩ := hs.count
    exact ⟨n, hcount.congr fun q => by rw [TtlBoard.goTo, counted_same hph], hn⟩
  drained q hq := by
    change update s.phase p ph q = _ at hq
    by_cases hqp : q = p
    · subst hqp
      rw [update_self] at hq
      exact absurd hq hfree.1
    · rw [update_of_ne hqp] at hq
      exact hs.drained q hq
  seqs q hq := hs.seqs q ((counted_same hph q).symm.trans hq)
  window hl q hq := hs.window hl q ((counted_same hph q).symm.trans hq)
  pending q hq := hs.pending q ((counted_same hph q).symm.trans hq)
  gots := hs.gots
  unread hirq q hq := hs.unread hirq q ((counted_same hph q).symm.trans hq)
  message := hs.message
  fresh hirq hl q hq := hs.fresh hirq hl q ((counted_same hph q).symm.trans hq)
  left := hs.left

/-! ### One step -/

theorem TtlInv.interrupt (hs : TtlInv s) (hl : s.lock = none) (msg : Message) :
    TtlInv (s.interrupt msg) := by
  have hlen : (s.interrupt msg).log.length = s.log.length + 1 := List.length_append
  refine ⟨hs.lockOf, hs.count, hs.drained, fun q hq => ?_, fun h => absurd hl h, fun _ _ _ => rfl,
    fun q => ?_, fun _ q _ => ?_, fun _ => ?_, fun _ _ q hq hseq => ?_, fun _ _ _ q => ?_⟩
  · rw [hlen]
    exact Nat.le_succ_of_le (hs.seqs q hq)
  · rw [hlen]
    exact Nat.le_succ_of_le (hs.gots q)
  · have hgot : s.got q ≤ s.log.length := hs.gots q
    change s.got q ≠ _
    omega
  · exact List.getLast?_concat ..
  · have hold : (s.entry q).seq ≤ s.log.length := hs.seqs q hq
    have hnew : (s.entry q).seq = s.log.length + 1 := hseq.trans hlen
    omega
  · have hgot : s.got q ≤ s.log.length := hs.gots q
    change s.got q ≠ _
    omega

theorem TtlInv.call (hs : TtlInv s) (hout : s.phase p = .outside)
    (ha : InOrder s (.call p)) : TtlInv (s.call p) := by
  have hcounted : ∀ q, ((s.call p).phase q).counted = true → q ≠ p →
      (s.phase q).counted = true ∧ (s.call p).entry q = s.entry q := by
    intro q hq hne
    change (update s.phase p _ q).counted = true at hq
    rw [update_of_ne hne] at hq
    exact ⟨hq, update_of_ne hne ..⟩
  have hentry : (s.call p).entry p = ⟨s.log.length, fun q => s.phase q ≠ .outside, s.got⟩ :=
    update_self ..
  refine ⟨fun q => ?_, ?_, fun q hq => ?_, fun q hq => ?_, fun hl q hq => ?_, fun q hq hlt => ?_,
    hs.gots, fun hirq q hq => ?_, hs.message, fun hirq hl q hq hseq => ?_, fun hirq hl hzero => ?_⟩
  · refine (hs.lockOf q).trans ?_
    change _ ↔ update s.phase p _ q = _ ∨ update s.phase p _ q = _
    by_cases hq : q = p
    · subst hq
      simp [hout]
    · rw [update_of_ne hq]
  · obtain ⟨n, hcount, hn⟩ := hs.count
    refine ⟨n + 1, hcount.enter (t := p) (by simp [hout, ReadPhase.counted]) ?_ fun q hq => ?_, ?_⟩
    · change (update s.phase p _ p).counted = true
      rw [update_self]
      rfl
    · change (update s.phase p _ q).counted = true ↔ _
      rw [update_of_ne hq]
    · change s.nrReaders + 1 = _
      omega
  · -- nobody is about to set the counter to zero
    change update s.phase p _ q = _ at hq
    by_cases hqp : q = p
    · subst hqp
      rw [update_self] at hq
      cases hq
    · rw [update_of_ne hqp] at hq
      exact absurd hq (ha.1 q)
  · by_cases hqp : q = p
    · subst hqp
      rw [hentry]
      exact le_rfl
    · obtain ⟨hold, hsame⟩ := hcounted q hq hqp
      rw [hsame]
      exact hs.seqs q hold
  · by_cases hqp : q = p
    · subst hqp
      rw [hentry]
      rfl
    · obtain ⟨hold, hsame⟩ := hcounted q hq hqp
      rw [hsame]
      exact hs.window hl q hold
  · by_cases hqp : q = p
    · subst hqp
      rw [hentry] at hlt
      exact absurd hlt (lt_irrefl _)
    · obtain ⟨hold, hsame⟩ := hcounted q hq hqp
      rw [hsame] at hlt
      exact hs.pending q hold hlt
  · by_cases hqp : q = p
    · subst hqp
      exact ha.2 hirq
    · exact hs.unread hirq q (hcounted q hq hqp).1
  · by_cases hqp : q = p
    · subst hqp
      rw [hentry]
      rintro ⟨⟨r, hr⟩, hall⟩
      -- somebody has still to get the event, or nobody has got it
      obtain ⟨n, hcount, hn⟩ := hs.count
      by_cases hzero : s.nrReaders = 0
      · exact hs.left hirq hl hzero r hr
      · obtain ⟨W, hW, hcard⟩ := hcount
        obtain ⟨t, ht⟩ := Finset.card_pos.mp (by omega : 0 < W.card)
        have hin : (s.phase t).counted = true := (hW t).mp ht
        refine hs.unread hirq t hin (hall t (decide_eq_true ?_))
        intro hoff
        rw [hoff] at hin
        cases hin
    · obtain ⟨hold, hsame⟩ := hcounted q hq hqp
      rw [hsame] at hseq ⊢
      exact hs.fresh hirq hl q hold hseq
  · obtain ⟨n, -, hn⟩ := hs.count
    have hsum : s.nrReaders + 1 = 0 := hzero
    omega

theorem TtlInv.countOut (hs : TtlInv s) (hp : (s.phase p).counted = true)
    (hl : s.lock = none ∨ s.irq = false)
    (hleft : s.irq = true → s.nrReaders = 1 → ∀ q, s.got q ≠ s.log.length) :
    TtlInv (s.countOut p .outside) where
  lockOf q := by
    refine (hs.lockOf q).trans ?_
    change _ ↔ update s.phase p _ q = _ ∨ update s.phase p _ q = _
    by_cases hq : q = p
    · subst hq
      rw [update_self]
      refine iff_of_false ?_ (by simp)
      rintro (h | h) <;> simp [h, ReadPhase.counted] at hp
    · rw [update_of_ne hq]
  count := hs.count_out hp rfl
  drained q hq := by
    change update s.phase p _ q = _ at hq
    by_cases hqp : q = p
    · subst hqp
      rw [update_self] at hq
      cases hq
    · rw [update_of_ne hqp] at hq
      have hzero := hs.drained q hq
      have hpos := hs.nrReaders_pos hp
      omega
  seqs q hq := hs.seqs q (counted_out rfl hq).2
  window hlock q hq := hs.window hlock q (counted_out rfl hq).2
  pending q hq := hs.pending q (counted_out rfl hq).2
  gots := hs.gots
  unread hirq q hq := hs.unread hirq q (counted_out rfl hq).2
  message := hs.message
  fresh hirq hlock q hq := hs.fresh hirq hlock q (counted_out rfl hq).2
  left hirq _ hzero := by
    have hone : s.nrReaders - 1 = 0 := hzero
    exact hleft hirq (by omega)

theorem TtlInv.copy (hs : TtlInv s) (hp : s.phase p = .ready) (hl : s.lock = none) :
    TtlInv (s.copy p) := by
  have hcounted : (s.phase p).counted = true := by rw [hp]; rfl
  have hfree := hs.unlocked hl
  have hgots : ∀ q, update s.got p s.log.length q ≤ s.log.length := by
    intro q
    by_cases hq : q = p
    · subst hq
      rw [update_self]
    · rw [update_of_ne hq]
      exact hs.gots q
  have hunread : ∀ {ph : ReadPhase}, ph.counted = false → s.irq = true → ∀ q,
      (update s.phase p ph q).counted = true → update s.got p s.log.length q ≠ s.log.length := by
    intro ph hph hirq q hq
    obtain ⟨hne, hold⟩ := counted_out hph hq
    rw [update_of_ne hne]
    exact hs.unread hirq q hold
  unfold TtlBoard.copy
  split
  · rename_i hzero
    obtain ⟨n, hcount, hn⟩ := @TtlInv.count_out _ _ _ _ hs hcounted .last rfl
    have hnone : ∀ q, (update s.phase p .last q).counted ≠ true := by
      obtain rfl : n = 0 := by omega
      exact hcount.none
    refine ⟨fun q => ?_, ⟨n, hcount, hn⟩, fun _ _ => hzero, fun q hq => absurd hq (hnone q),
      fun _ q hq => absurd hq (hnone q), fun q hq => absurd hq (hnone q), hgots,
      fun _ q hq => absurd hq (hnone q), hs.message, fun _ hlock => ?_, fun _ hlock => ?_⟩
    · change some p = some q ↔ update s.phase p _ q = _ ∨ update s.phase p _ q = _
      by_cases hq : q = p
      · subst hq
        simp
      · rw [update_of_ne hq, Option.some.injEq]
        exact iff_of_false (fun h => hq h.symm) (not_or.mpr (hfree q))
    · cases hlock
    · cases hlock
  · rename_i hmore
    refine ⟨fun q => ?_, hs.count_out hcounted rfl, fun q hq => ?_,
      fun q hq => hs.seqs q (counted_out rfl hq).2, fun hlock => absurd hl hlock,
      fun q hq => hs.pending q (counted_out rfl hq).2, hgots, hunread rfl, hs.message,
      fun hirq hlock q hq => hs.fresh hirq hlock q (counted_out rfl hq).2,
      fun _ _ hzero => absurd hzero hmore⟩
    · refine (hs.lockOf q).trans ?_
      change _ ↔ update s.phase p _ q = _ ∨ update s.phase p _ q = _
      by_cases hq : q = p
      · subst hq
        simp [hp]
      · rw [update_of_ne hq]
    · change update s.phase p _ q = _ at hq
      by_cases hqp : q = p
      · subst hqp
        rw [update_self] at hq
        cases hq
      · rw [update_of_ne hqp] at hq
        exact absurd hq (hfree q).1

theorem TtlInv.setZero (hs : TtlInv s) (hp : s.phase p = .last) :
    TtlInv { s.goTo p .clearing with nrReaders := 0 } := by
  have hsame : ReadPhase.clearing.counted = (s.phase p).counted := by rw [hp]; rfl
  have hlock : s.lock = some p := (hs.lockOf p).mpr (.inl hp)
  obtain ⟨n, hcount, hn⟩ := hs.count
  refine ⟨fun q => ?_, ⟨n, hcount.congr fun q => by rw [TtlBoard.goTo, counted_same hsame],
    (hs.drained p hp).symm.trans hn⟩, fun _ _ => rfl,
    fun q hq => hs.seqs q ((counted_same hsame q).symm.trans hq),
    fun hl q hq => hs.window hl q ((counted_same hsame q).symm.trans hq),
    fun q hq => hs.pending q ((counted_same hsame q).symm.trans hq), hs.gots,
    fun hirq q hq => hs.unread hirq q ((counted_same hsame q).symm.trans hq), hs.message,
    fun _ hl => ?_, fun _ hl => ?_⟩
  · refine (hs.lockOf q).trans ?_
    change _ ↔ update s.phase p _ q = _ ∨ update s.phase p _ q = _
    by_cases hq : q = p
    · subst hq
      simp [hp]
    · rw [update_of_ne hq]
  · have hfalse : s.lock = none := hl
    rw [hlock] at hfalse
    cases hfalse
  · have hfalse : s.lock = none := hl
    rw [hlock] at hfalse
    cases hfalse

theorem TtlInv.clear (hs : TtlInv s) (hp : s.phase p = .clearing) :
    TtlInv { s.goTo p .outside with irq := false, lock := none } := by
  have hsame : ReadPhase.outside.counted = (s.phase p).counted := by rw [hp]; rfl
  have hlock : s.lock = some p := (hs.lockOf p).mpr (.inr hp)
  have hother : ∀ q, q ≠ p → s.phase q ≠ .last ∧ s.phase q ≠ .clearing := by
    intro q hq
    rw [← not_or, ← hs.lockOf q, hlock, Option.some.injEq]
    exact fun h => hq h.symm
  obtain ⟨n, hcount, hn⟩ := hs.count
  refine ⟨fun q => ?_, ⟨n, hcount.congr fun q => by rw [TtlBoard.goTo, counted_same hsame], hn⟩,
    fun q hq => ?_, fun q hq => hs.seqs q ((counted_same hsame q).symm.trans hq),
    fun hl => absurd rfl hl, fun q hq hlt => ?_, hs.gots, fun h => ?_, fun h => ?_, fun h => ?_,
    fun h => ?_⟩
  · change none = some q ↔ update s.phase p _ q = _ ∨ update s.phase p _ q = _
    by_cases hq : q = p
    · subst hq
      simp
    · rw [update_of_ne hq]
      exact iff_of_false (by simp) (not_or.mpr (hother q hq))
  · change update s.phase p _ q = _ at hq
    by_cases hqp : q = p
    · subst hqp
      rw [update_self] at hq
      cases hq
    · rw [update_of_ne hqp] at hq
      exact absurd hq (hother q hqp).1
  · -- nobody was counted in before the event that is cleared
    have hseq := hs.window (by rw [hlock]; simp) q ((counted_same hsame q).symm.trans hq)
    exact absurd hseq hlt.ne
  · cases h
  · cases h
  · cases h
  · cases h

theorem TtlInv.step {a : TtlStep Reader} (hs : TtlInv s) (ha : InOrder s a)
    (h : s.step a = some s') : TtlInv s' := by
  cases a with
  | interrupt msg =>
    obtain ⟨hl, hrecord⟩ := Option.ite_none_right_eq_some.mp h
    cases hrecord
    exact hs.interrupt hl msg
  | call p =>
    obtain ⟨hout, hcall⟩ := Option.ite_none_right_eq_some.mp h
    cases hcall
    exact hs.call hout ha
  | check p =>
    obtain ⟨hp, hgo⟩ := Option.ite_none_right_eq_some.mp h
    cases hgo
    refine hs.goTo ?_ ?_ (by simp [hp])
    · rw [hp]
      split <;> rfl
    · split <;> simp
  | signal p =>
    obtain ⟨hp, hgo⟩ := Option.ite_none_right_eq_some.mp h
    cases hgo
    exact hs.goTo (by rw [hp]; rfl) (by simp) (by simp [hp])
  | sleep p =>
    obtain ⟨hp, hgo⟩ := Option.ite_none_right_eq_some.mp h
    cases hgo
    exact hs.goTo (by rw [hp]; rfl) (by simp) (by simp [hp])
  | wake p =>
    obtain ⟨hp, hgo⟩ := Option.ite_none_right_eq_some.mp h
    cases hgo
    exact hs.goTo (by rw [hp]; rfl) (by simp) (by simp [hp])
  | giveUp p =>
    obtain ⟨hp, hgo⟩ := Option.ite_none_right_eq_some.mp h
    cases hgo
    have hirq : s.irq = false := ha
    exact hs.countOut (by rw [hp]; rfl) (.inr hirq) fun h => by rw [hirq] at h; cases h
  | copy p =>
    obtain ⟨⟨hp, hl⟩, hgo⟩ := Option.ite_none_right_eq_some.mp h
    cases hgo
    exact hs.copy hp hl
  | fault p =>
    obtain ⟨⟨hp, hl⟩, hgo⟩ := Option.ite_none_right_eq_some.mp h
    cases hgo
    exact hs.countOut (by rw [hp]; rfl) (.inl hl) fun _ => ha.2
  | setZero p =>
    obtain ⟨hp, hgo⟩ := Option.ite_none_right_eq_some.mp h
    cases hgo
    exact hs.setZero hp
  | clear p =>
    obtain ⟨hp, hgo⟩ := Option.ite_none_right_eq_some.mp h
    cases hgo
    exact hs.clear hp
  | leave p =>
    obtain ⟨hp, hgo⟩ := Option.ite_none_right_eq_some.mp h
    cases hgo
    exact hs.goTo (by rw [hp]; rfl) (by simp) (by simp [hp])

/-! ### Every run -/

theorem TtlInv.counted (hs : TtlInv s) : Counted s where
  idle hidle := by
    obtain ⟨n, hcount, hn⟩ := hs.count
    have hnone : Counts (fun p => (s.phase p).counted = true) 0 :=
      counts_zero fun p => by simp [hidle p, ReadPhase.counted]
    rw [hn, hcount.unique hnone]
    rfl
  pending := hs.pending

theorem TtlInv.delivers {a : TtlStep Reader} (hs : TtlInv s) (ha : InOrder s a)
    (h : s.step a = some s') : Delivers s a := by
  cases a with
  | giveUp p =>
    obtain ⟨hp, -⟩ := Option.ite_none_right_eq_some.mp h
    have hirq : s.irq = false := ha
    have hcounted : (s.phase p).counted = true := by rw [hp]; rfl
    refine ⟨?_, by rintro _ _ ⟨⟩, by rintro _ _ ⟨⟩, by rintro _ _ ⟨⟩⟩
    rintro _ r ⟨⟩ m hlo hhi
    rw [hs.pending p hcounted (by omega)] at hirq
    cases hirq
  | fault p =>
    refine ⟨?_, by rintro _ _ ⟨⟩, by rintro _ _ ⟨⟩, by rintro _ _ ⟨⟩⟩
    rintro _ r ⟨⟩ m hlo hhi
    have hseq : (s.entry p).seq = s.log.length := ha.1
    omega
  | copy p =>
    obtain ⟨⟨hp, hl⟩, -⟩ := Option.ite_none_right_eq_some.mp h
    have hirq : s.irq = true := ha
    have hcounted : (s.phase p).counted = true := by rw [hp]; rfl
    refine ⟨?_, ?_, ?_, ?_⟩
    · rintro _ r ⟨⟩ m hlo hhi
      exact ⟨_, rfl, hhi⟩
    · rintro _ n ⟨⟩
      rw [← List.getLast?_eq_getElem?]
      exact hs.message hirq
    · rintro _ n ⟨⟩ hseq
      exact hs.fresh hirq hl p hcounted (le_antisymm (hs.seqs p hcounted) hseq)
    · rintro _ n ⟨⟩
      exact hs.unread hirq p hcounted
  | _ => exact ⟨by rintro _ _ ⟨⟩, by rintro _ _ ⟨⟩, by rintro _ _ ⟨⟩, by rintro _ _ ⟨⟩⟩

theorem ttlInv_of_reachUnder (h : ttlBoard.ReachUnder InOrder s) : TtlInv s :=
  h.invariant (fun _ hinit => TtlInv.fresh_of_init hinit)
    fun _ _ _ ht ha hstep => ht.step ha hstep

end Board

/-! ### Out of order -/

/-- Three readers. -/
inductive Who
  | first
  | second
  | third
  deriving DecidableEq

/-- A board that nobody reads. -/
def quietBoard : TtlBoard Who where
  irq := false
  nrReaders := 0
  messages := ⟨.a, 0⟩
  lock := none
  phase _ := .outside
  log := []
  got _ := 0
  entry _ := ⟨0, fun _ => false, fun _ => 0⟩

theorem quietBoard_fresh : quietBoard.Fresh := ⟨rfl, rfl, rfl, fun _ => rfl, rfl, fun _ => rfl⟩

/-- A reader waits and is woken by an event. -/
def oneEvent : List (TtlStep Who) := [.call .first, .interrupt ⟨.b, 7⟩, .check .first]

/-- A reader counts in between the last one's decrement and its `atomic_set`. -/
def lostReader : List (TtlStep Who) :=
  oneEvent ++ [.copy .first, .call .second, .setZero .first, .clear .first, .interrupt ⟨.a, 3⟩, .check .second,
    .copy .second, .leave .second]

/-- A reader is back, after its millisecond, before the other one has got the event. -/
def readTwice : List (TtlStep Who) :=
  [.call .first, .call .second, .interrupt ⟨.b, 7⟩, .check .first, .copy .first, .leave .first, .call .first,
    .check .first]

/-- A reader takes a signal just before the event, and counts out after the other one has got it:
the event stays, for a third one that comes later. -/
def staleEvent : List (TtlStep Who) :=
  [.call .first, .call .second, .check .second, .signal .second, .interrupt ⟨.b, 7⟩, .check .first, .copy .first,
    .giveUp .second, .call .third, .check .third]

end KernelModules.Vmod
