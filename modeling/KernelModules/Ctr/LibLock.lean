import KernelModules.Lib.SysVSemaphore
import KernelModules.Lib.Transition

/-!
# The lock of the library

`ctr_open` and `ctr_close` run between `lock_lib` and `unlock_lib`, over a System V semaphore under
a fixed key.  Each function looks the set up by the key again, `lock_lib` creates it when there is
none and removes it when its first wait on it fails, and both callers go on when `lock_lib` fails.

* `LibLock` is the set under the key with the processes, `LibLock.step` one call of the kernel by
  one of them;
* `LibLock.AtMostOne` and `Restored` are what the lock is for;
* `lockLib_orderly` holds both over every run in which no set has identifier 0, and neither a
  removal nor an `unlock_lib` after a failed `lock_lib` meets a process that holds the lock.

A call of the kernel that sleeps is a step that cannot be taken yet; other sets of the system, and
threads of one process, are left out.
-/

namespace KernelModules.Ctr

open Function KernelModules.Lib

/-- Where a process is.  `found` is what came of its `lock_lib`: the value of the semaphore when it
took it, or `none` when `lock_lib` has returned `-1`. -/
inductive LockPhase
  | outside
  /-- `semget` of `lock_lib` comes next -/
  | getting
  /-- `semget` with `IPC_CREAT` -/
  | creating
  /-- the wait on a set it has just got so -/
  | waiting (semid : ℕ)
  /-- `IPC_RMID` -/
  | removing (semid : ℕ)
  | locking (semid : ℕ)
  /-- `lock_lib` has returned -/
  | locked (found : Option ℤ)
  /-- `semget` of `unlock_lib` -/
  | finding (found : Option ℤ)
  | unlocking (found : Option ℤ) (semid : ℕ)
  deriving DecidableEq

/-- What came of the `lock_lib` whose `unlock_lib` has not ended. -/
def LockPhase.found : LockPhase → Option ℤ
  | .locked found => found
  | .finding found => found
  | .unlocking found _ => found
  | _ => none

/-- The set under `LOCK_LIB_KEY`, and the processes. -/
structure LibLock (Proc : Type*) where
  set : Option (SemSet Proc)
  phase : Proc → LockPhase

/-- A call of the kernel, and who makes it. -/
inductive LockCall (Proc : Type*)
  /-- `lock_lib` or `unlock_lib` is called -/
  | call (p : Proc)
  | semget (p : Proc)
  /-- `semid` is the identifier that a new set gets -/
  | create (p : Proc) (semid : ℕ)
  /-- no set can be created -/
  | noSpace (p : Proc)
  | semop (p : Proc)
  /-- a `semop` of `lock_lib` fails: a signal, a set removed meanwhile, no memory for the undo -/
  | interrupt (p : Proc)
  | remove (p : Proc)
  | exit (p : Proc)

section Lock

variable {Proc : Type*} [DecidableEq Proc]

def LibLock.goTo (s : LibLock Proc) (p : Proc) (ph : LockPhase) : LibLock Proc :=
  { s with phase := update s.phase p ph }

/-- The three arrays of operations. -/
def waitOps : List Sembuf := [⟨0, true, false⟩]
def lockOps : List Sembuf := [⟨0, true, false⟩, ⟨1, true, true⟩]
def unlockOps : List Sembuf := [⟨-1, true, true⟩]

/-- `semop` on an identifier, and where the process goes on: when it is done, and when it fails. -/
def LibLock.semopOn (s : LibLock Proc) (p : Proc) (semid : ℕ) (ops : List Sembuf)
    (done failed : LockPhase) : Option (LibLock Proc) :=
  match s.set with
  | none => some (s.goTo p failed)
  | some S =>
    if S.id = semid then
      match S.semop p ops with
      | .done S' => some ⟨some S', update s.phase p done⟩
      | .sleep => none
      | .again => some (s.goTo p failed)
    else some (s.goTo p failed)

/-- One call of the kernel in `lock_lib` or `unlock_lib`, or a process that exits. -/
def LibLock.step (s : LibLock Proc) : LockCall Proc → Option (LibLock Proc)
  | .call p =>
    match s.phase p with
    | .outside => some (s.goTo p .getting)
    | .locked found => some (s.goTo p (.finding found))
    | _ => none
  | .semget p =>
    match s.phase p, s.set with
    | .getting, none => some (s.goTo p .creating)
    | .getting, some S => some (s.goTo p (.locking S.id))
    | .finding _, none => some (s.goTo p .outside)
    | .finding found, some S =>
      -- `semid <= 0`, where `lock_lib` has `semid < 0`
      some (s.goTo p (if S.id ≤ 0 then .outside else .unlocking found S.id))
    | _, _ => none
  | .create p semid =>
    match s.phase p, s.set with
    | .creating, none => some ⟨some ⟨semid, 0, fun _ => 0⟩, update s.phase p (.waiting semid)⟩
    | .creating, some S => some (s.goTo p (.waiting S.id))
    | _, _ => none
  | .noSpace p =>
    match s.phase p, s.set with
    | .creating, none => some (s.goTo p (.locked none))
    | _, _ => none
  | .semop p =>
    match s.phase p with
    | .waiting semid => s.semopOn p semid waitOps (.locking semid) (.removing semid)
    | .locking semid =>
      s.semopOn p semid lockOps (.locked (s.set.map SemSet.val)) (.locked none)
    | .unlocking _ semid => s.semopOn p semid unlockOps .outside .outside
    | _ => none
  | .interrupt p =>
    match s.phase p with
    | .waiting semid => some (s.goTo p (.removing semid))
    | .locking _ => some (s.goTo p (.locked none))
    | _ => none
  | .remove p =>
    match s.phase p with
    | .removing semid =>
      some ⟨s.set.filter fun S => S.id ≠ semid, update s.phase p (.locked none)⟩
    | _ => none
  | .exit p => some ⟨s.set.map fun S => S.exit p, update s.phase p .outside⟩

/-- No set yet, and nobody in the library. -/
def LibLock.Fresh (s : LibLock Proc) : Prop := s.set = none ∧ ∀ p, s.phase p = .outside

/-- All processes, in any order. -/
def libLock : System (LibLock Proc) (LockCall Proc) := System.ofFun LibLock.Fresh LibLock.step

/-- Process `p` is between a `lock_lib` that returned 0 and the end of its `unlock_lib`. -/
def LibLock.Inside (s : LibLock Proc) (p : Proc) : Prop := (s.phase p).found ≠ none

instance (s : LibLock Proc) (p : Proc) : Decidable (s.Inside p) :=
  inferInstanceAs (Decidable ((s.phase p).found ≠ none))

/-- Mutual exclusion. -/
def LibLock.AtMostOne (s : LibLock Proc) : Prop := ∀ p q, s.Inside p → s.Inside q → p = q

/-- An `unlock_lib` that ends leaves the value that its `lock_lib` has found. -/
def Restored (s : LibLock Proc) (a : LockCall Proc) (s' : LibLock Proc) : Prop :=
  ∀ p v, (s.phase p).found = some v → s'.phase p = .outside → a ≠ .exit p →
    s'.set.map SemSet.val = some v

/-- No new set gets identifier 0; no set is removed, and none is given back after a failed
`lock_lib`, while a process is inside. -/
def Orderly (s : LibLock Proc) : LockCall Proc → Prop
  | .create _ semid => semid ≠ 0
  | .remove p => ∀ S, s.set = some S → s.phase p = .removing S.id → ∀ q, ¬ s.Inside q
  | .semop p => ∀ S, s.set = some S → s.phase p = .unlocking none S.id → ∀ q, ¬ s.Inside q
  | _ => True

/-! ### The invariant -/

/-- Nobody is inside. -/
structure LibLock.Free (s : LibLock Proc) (S : SemSet Proc) : Prop where
  val : S.val = 0
  adj : ∀ p, S.adj p = 0
  empty : ∀ p, (s.phase p).found = none

/-- Process `h` is inside. -/
structure LibLock.HeldBy (s : LibLock Proc) (S : SemSet Proc) (h : Proc) : Prop where
  val : S.val = 1
  own : S.adj h = -1
  adj : ∀ p, p ≠ h → S.adj p = 0
  found : (s.phase h).found = some 0
  others : ∀ p, p ≠ h → (s.phase p).found = none
  named : ∀ found semid, s.phase h = .unlocking found semid → semid = S.id

/-- The set has an identifier that both functions accept, and is free or held. -/
def LockInv (s : LibLock Proc) : Prop :=
  match s.set with
  | none => ∀ p, (s.phase p).found = none
  | some S => S.id ≠ 0 ∧ (s.Free S ∨ ∃ h, s.HeldBy S h)

variable {s s' : LibLock Proc} {p : Proc} {S : SemSet Proc}

theorem goTo_self (ph : LockPhase) : (s.goTo p ph).phase p = ph := update_self ..

theorem lockInv_none (h : s.set = none) : LockInv s ↔ ∀ p, (s.phase p).found = none := by
  rw [LockInv, h]

theorem lockInv_some (h : s.set = some S) :
    LockInv s ↔ S.id ≠ 0 ∧ (s.Free S ∨ ∃ h, s.HeldBy S h) := by
  rw [LockInv, h]

theorem LibLock.HeldBy.inside {h : Proc} (hheld : s.HeldBy S h) : s.Inside h := by
  rw [LibLock.Inside, hheld.found]
  exact Option.some_ne_none 0

theorem LockInv.inside (hs : LockInv s) {v : ℤ} (hp : (s.phase p).found = some v) :
    v = 0 ∧ ∃ S, s.set = some S ∧ S.id ≠ 0 ∧ s.HeldBy S p := by
  cases hset : s.set with
  | none =>
    rw [(lockInv_none hset).mp hs p] at hp
    cases hp
  | some S =>
    obtain ⟨hid, hfree | ⟨h, hheld⟩⟩ := (lockInv_some hset).mp hs
    · rw [hfree.empty p] at hp
      cases hp
    · by_cases hph : p = h
      · subst hph
        have hv := hheld.found
        rw [hp, Option.some.injEq] at hv
        exact ⟨hv, S, rfl, hid, hheld⟩
      · rw [hheld.others p hph] at hp
        cases hp

theorem LockInv.atMostOne (hs : LockInv s) : s.AtMostOne := by
  have hall : ∀ p, s.Inside p → ∃ S, s.set = some S ∧ s.HeldBy S p := by
    intro p hp
    obtain ⟨v, hv⟩ := Option.ne_none_iff_exists'.mp hp
    obtain ⟨-, S, hset, -, hheld⟩ := hs.inside hv
    exact ⟨S, hset, hheld⟩
  intro p q hp hq
  obtain ⟨S, hset, hheld⟩ := hall p hp
  by_contra hne
  exact hq (hheld.others q fun h => hne h.symm)

/-! ### Steps -/

theorem found_update (ph : LockPhase) (hph : ph.found = (s.phase p).found) (q : Proc) :
    (update s.phase p ph q).found = (s.phase q).found := by
  by_cases hq : q = p
  · subst hq
    rw [update_self, hph]
  · rw [update_of_ne hq]

theorem LockInv.goTo (hs : LockInv s) {ph : LockPhase} (hph : ph.found = (s.phase p).found)
    (hnamed : ∀ found semid S, ph = .unlocking found semid → s.set = some S → semid = S.id) :
    LockInv (s.goTo p ph) := by
  cases hset : s.set with
  | none =>
    refine (lockInv_none (s := s.goTo p ph) hset).mpr fun q => ?_
    exact (found_update ph hph q).trans ((lockInv_none hset).mp hs q)
  | some S =>
    obtain ⟨hid, hcase⟩ := (lockInv_some hset).mp hs
    refine (lockInv_some (s := s.goTo p ph) hset).mpr ⟨hid, ?_⟩
    obtain hfree | ⟨h, hheld⟩ := hcase
    · exact .inl ⟨hfree.val, hfree.adj, fun q => (found_update ph hph q).trans (hfree.empty q)⟩
    · refine .inr ⟨h, hheld.val, hheld.own, hheld.adj, (found_update ph hph h).trans hheld.found,
        fun q hq => (found_update ph hph q).trans (hheld.others q hq), fun found semid hat => ?_⟩
      change update s.phase p ph h = _ at hat
      by_cases hhp : h = p
      · subst hhp
        rw [update_self] at hat
        exact hnamed found semid S hat hset
      · rw [update_of_ne hhp] at hat
        exact hheld.named found semid hat

theorem LockInv.goOutside (hs : LockInv s) {ph : LockPhase} (hat : (s.phase p).found = none)
    (hph : ph.found = none) (hne : ∀ found semid, ph ≠ .unlocking found semid) :
    LockInv (s.goTo p ph) :=
  hs.goTo (hph.trans hat.symm) fun found semid _ hunlock => absurd hunlock (hne found semid)

theorem free_of_empty (hs : LockInv s) (hset : s.set = some S) (hempty : ∀ q, ¬ s.Inside q) :
    s.Free S := by
  obtain ⟨-, hfree | ⟨h, hheld⟩⟩ := (lockInv_some hset).mp hs
  · exact hfree
  · exact absurd hheld.inside (hempty h)

theorem semopOn_cases {semid : ℕ} {ops : List Sembuf} {done failed : LockPhase}
    (h : s.semopOn p semid ops done failed = some s') :
    (s' = s.goTo p failed ∧ ∀ S, s.set = some S → S.id = semid → S.semop p ops = .again) ∨
      ∃ S S', s.set = some S ∧ S.id = semid ∧ S.semop p ops = .done S' ∧
        s' = ⟨some S', update s.phase p done⟩ := by
  unfold LibLock.semopOn at h
  cases hset : s.set with
  | none =>
    rw [hset] at h
    cases h
    exact .inl ⟨rfl, fun S hS => by cases hS⟩
  | some S =>
    rw [hset] at h
    dsimp only at h
    split at h
    · rename_i hid
      cases hanswer : S.semop p ops with
      | done S' =>
        rw [hanswer] at h
        cases h
        exact .inr ⟨S, S', rfl, hid, hanswer, rfl⟩
      | sleep =>
        rw [hanswer] at h
        cases h
      | again =>
        rw [hanswer] at h
        cases h
        refine .inl ⟨rfl, fun S₁ hS₁ _ => ?_⟩
        cases hS₁
        exact hanswer
    · rename_i hid
      cases h
      refine .inl ⟨rfl, fun S₁ hS₁ hid₁ => ?_⟩
      cases hS₁
      exact absurd hid₁ hid

theorem wait_inv (hs : LockInv s) {semid : ℕ} (hat : s.phase p = .waiting semid)
    (h : s.semopOn p semid waitOps (.locking semid) (.removing semid) = some s') :
    LockInv s' := by
  have hnone : (s.phase p).found = none := by rw [hat]; rfl
  obtain ⟨rfl, -⟩ | ⟨S, S', hset, -, hdone, rfl⟩ := semopOn_cases h
  · exact hs.goOutside hnone rfl (by simp)
  · rw [waitOps, SemSet.semop_wait] at hdone
    split at hdone
    · cases hdone
      rw [← hset]
      exact hs.goOutside hnone rfl (by simp)
    · cases hdone

theorem take_inv (hs : LockInv s) {semid : ℕ} (hat : s.phase p = .locking semid)
    (h : s.semopOn p semid lockOps (.locked (s.set.map SemSet.val)) (.locked none) = some s') :
    LockInv s' := by
  have hnone : (s.phase p).found = none := by rw [hat]; rfl
  obtain ⟨rfl, -⟩ | ⟨S, S', hset, -, hdone, rfl⟩ := semopOn_cases h
  · exact hs.goOutside hnone rfl (by simp)
  · rw [lockOps, SemSet.semop_waitTake] at hdone
    split at hdone
    · rename_i hval
      cases hdone
      obtain ⟨hid, hfree | ⟨q, hheld⟩⟩ := (lockInv_some hset).mp hs
      · refine ⟨hid, .inr ⟨p, rfl, ?_, fun q hq => ?_, ?_, fun q hq => ?_, ?_⟩⟩
        · exact (update_self ..).trans (by rw [hfree.adj p]; rfl)
        · exact (update_of_ne hq ..).trans (hfree.adj q)
        · change (update s.phase p _ p).found = some 0
          rw [update_self, hset, Option.map_some, hval]
          rfl
        · change (update s.phase p _ q).found = none
          rw [update_of_ne hq]
          exact hfree.empty q
        · intro found semid' hunlock
          change update s.phase p _ p = _ at hunlock
          rw [update_self] at hunlock
          cases hunlock
      · rw [hheld.val] at hval
        cases hval
    · cases hdone

theorem give_held {semid : ℕ} (hheld : s.HeldBy S p) (hset : s.set = some S)
    (hsemid : semid = S.id) (h : s.semopOn p semid unlockOps .outside .outside = some s') :
    s' = ⟨some ⟨S.id, 0, update S.adj p 0⟩, update s.phase p .outside⟩ := by
  have hgive : S.semop p unlockOps = .done ⟨S.id, 0, update S.adj p 0⟩ := by
    rw [unlockOps, SemSet.semop_give, if_pos hheld.val.ge, hheld.val, hheld.own]
    rfl
  obtain ⟨-, hagain⟩ | ⟨S₁, S', hset₁, -, hdone, rfl⟩ := semopOn_cases h
  · rw [hagain S hset hsemid.symm] at hgive
    cases hgive
  · rw [hset] at hset₁
    cases hset₁
    rw [hgive] at hdone
    cases hdone
    rfl

theorem HeldBy.free (hheld : s.HeldBy S p) :
    LibLock.Free (⟨some ⟨S.id, 0, update S.adj p 0⟩, update s.phase p .outside⟩ : LibLock Proc)
      ⟨S.id, 0, update S.adj p 0⟩ where
  val := rfl
  adj q := by
    by_cases hq : q = p
    · subst hq
      exact update_self ..
    · exact (update_of_ne hq ..).trans (hheld.adj q hq)
  empty q := by
    dsimp only
    by_cases hq : q = p
    · subst hq
      rw [update_self]
      rfl
    · rw [update_of_ne hq]
      exact hheld.others q hq

theorem give_inv (hs : LockInv s) {found : Option ℤ} {semid : ℕ}
    (hat : s.phase p = .unlocking found semid)
    (hok : ∀ S, s.set = some S → s.phase p = .unlocking none S.id → ∀ q, ¬ s.Inside q)
    (h : s.semopOn p semid unlockOps .outside .outside = some s') : LockInv s' := by
  cases found with
  | some v =>
    have hfound : (s.phase p).found = some v := by rw [hat]; rfl
    obtain ⟨-, S, hset, hid, hheld⟩ := hs.inside hfound
    rw [give_held hheld hset (hheld.named _ _ hat) h]
    exact ⟨hid, .inl (HeldBy.free hheld)⟩
  | none =>
    have hnone : (s.phase p).found = none := by rw [hat]; rfl
    obtain ⟨rfl, -⟩ | ⟨S, S', hset, rfl, hdone, rfl⟩ := semopOn_cases h
    · exact hs.goOutside hnone rfl (by simp)
    · -- there is nothing to give back
      have hfree := free_of_empty hs hset (hok S hset hat)
      rw [unlockOps, SemSet.semop_give, hfree.val, if_neg (by decide)] at hdone
      cases hdone

theorem remove_inv (hs : LockInv s) {semid : ℕ} (hat : s.phase p = .removing semid)
    (hok : ∀ S, s.set = some S → s.phase p = .removing S.id → ∀ q, ¬ s.Inside q) :
    LockInv ⟨s.set.filter fun S => S.id ≠ semid, update s.phase p (.locked none)⟩ := by
  have hnone : (s.phase p).found = none := by rw [hat]; rfl
  have hgo : LockInv (s.goTo p (.locked none)) := hs.goOutside hnone rfl (by simp)
  cases hset : s.set with
  | none =>
    rw [Option.filter_none, ← hset]
    exact hgo
  | some S =>
    by_cases hid : S.id = semid
    · subst hid
      have hfree := free_of_empty hs hset (hok S hset hat)
      rw [Option.filter_some, if_neg (by simp)]
      refine (lockInv_none rfl).mpr fun q => ?_
      exact (found_update (.locked none) hnone.symm q).trans (hfree.empty q)
    · rw [Option.filter_some, if_pos (by simpa using hid), ← hset]
      exact hgo

theorem exit_inv (hs : LockInv s) :
    LockInv ⟨s.set.map fun S => S.exit p, update s.phase p .outside⟩ := by
  cases hset : s.set with
  | none =>
    refine (lockInv_none rfl).mpr fun q => ?_
    have hempty := (lockInv_none hset).mp hs
    exact (found_update .outside (hempty p).symm q).trans (hempty q)
  | some S =>
    rw [Option.map_some]
    obtain ⟨hid, hfree | ⟨h, hheld⟩⟩ := (lockInv_some hset).mp hs
    · rw [SemSet.exit_of_adj hfree.val.ge (hfree.adj p), ← hset]
      exact hs.goOutside (hfree.empty p) rfl (by simp)
    · by_cases hp : p = h
      · subst hp
        have hexit : S.exit p = ⟨S.id, 0, update S.adj p 0⟩ := by
          rw [SemSet.exit, hheld.val, hheld.own]
          rfl
        rw [hexit]
        exact ⟨hid, .inl (HeldBy.free hheld)⟩
      · have hval : 0 ≤ S.val := by
          rw [hheld.val]
          exact zero_le_one
        rw [SemSet.exit_of_adj hval (hheld.adj p hp), ← hset]
        exact hs.goOutside (hheld.others p hp) rfl (by simp)

theorem create_inv (hs : LockInv s) {semid : ℕ} (hat : s.phase p = .creating)
    (hset : s.set = none) (hid : semid ≠ 0) :
    LockInv ⟨some ⟨semid, 0, fun _ => 0⟩, update s.phase p (.waiting semid)⟩ := by
  have hempty := (lockInv_none hset).mp hs
  have hnone : (s.phase p).found = none := by rw [hat]; rfl
  refine ⟨hid, .inl ⟨rfl, fun _ => rfl, fun q => ?_⟩⟩
  exact (found_update (.waiting semid) hnone.symm q).trans (hempty q)

theorem finding_inv (hs : LockInv s) {found : Option ℤ} (hat : s.phase p = .finding found)
    (hset : s.set = some S) :
    S.id ≠ 0 ∧ LockInv (s.goTo p (.unlocking found S.id)) := by
  refine ⟨((lockInv_some hset).mp hs).1, hs.goTo (by rw [hat]; rfl) ?_⟩
  rintro found' semid S' ⟨⟩ hset'
  rw [hset] at hset'
  cases hset'
  rfl

theorem step_lockInv {a : LockCall Proc} (hs : LockInv s) (ha : Orderly s a)
    (h : s.step a = some s') : LockInv s' := by
  cases a with
  | call p =>
    cases hat : s.phase p with
    | outside =>
      simp only [LibLock.step, hat] at h
      cases h
      exact hs.goOutside (by rw [hat]; rfl) rfl (by simp)
    | locked found =>
      simp only [LibLock.step, hat] at h
      cases h
      exact hs.goTo (by rw [hat]; rfl) (by simp)
    | _ => simp [LibLock.step, hat] at h
  | semget p =>
    cases hat : s.phase p with
    | getting =>
      have hnone : (s.phase p).found = none := by rw [hat]; rfl
      cases hset : s.set with
      | none =>
        simp only [LibLock.step, hat, hset] at h
        cases h
        exact hs.goOutside hnone rfl (by simp)
      | some S =>
        simp only [LibLock.step, hat, hset] at h
        cases h
        exact hs.goOutside hnone rfl (by simp)
    | finding found =>
      cases hset : s.set with
      | none =>
        simp only [LibLock.step, hat, hset] at h
        cases h
        exact hs.goOutside ((lockInv_none hset).mp hs p) rfl (by simp)
      | some S =>
        obtain ⟨hid, hgo⟩ := finding_inv hs hat hset
        simp only [LibLock.step, hat, hset] at h
        rw [if_neg (by omega)] at h
        cases h
        exact hgo
    | _ => simp [LibLock.step, hat] at h
  | create p semid =>
    cases hat : s.phase p with
    | creating =>
      cases hset : s.set with
      | none =>
        simp only [LibLock.step, hat, hset] at h
        cases h
        exact create_inv hs hat hset ha
      | some S =>
        simp only [LibLock.step, hat, hset] at h
        cases h
        exact hs.goOutside (by rw [hat]; rfl) rfl (by simp)
    | _ => simp [LibLock.step, hat] at h
  | noSpace p =>
    cases hat : s.phase p with
    | creating =>
      cases hset : s.set with
      | none =>
        simp only [LibLock.step, hat, hset] at h
        cases h
        exact hs.goOutside (by rw [hat]; rfl) rfl (by simp)
      | some S => simp [LibLock.step, hat, hset] at h
    | _ => simp [LibLock.step, hat] at h
  | semop p =>
    cases hat : s.phase p with
    | waiting semid =>
      simp only [LibLock.step, hat] at h
      exact wait_inv hs hat h
    | locking semid =>
      simp only [LibLock.step, hat] at h
      exact take_inv hs hat h
    | unlocking found semid =>
      simp only [LibLock.step, hat] at h
      exact give_inv hs hat ha h
    | _ => simp [LibLock.step, hat] at h
  | interrupt p =>
    cases hat : s.phase p with
    | waiting semid =>
      simp only [LibLock.step, hat] at h
      cases h
      exact hs.goOutside (by rw [hat]; rfl) rfl (by simp)
    | locking semid =>
      simp only [LibLock.step, hat] at h
      cases h
      exact hs.goOutside (by rw [hat]; rfl) rfl (by simp)
    | _ => simp [LibLock.step, hat] at h
  | remove p =>
    cases hat : s.phase p with
    | removing semid =>
      simp only [LibLock.step, hat] at h
      cases h
      exact remove_inv hs hat ha
    | _ => simp [LibLock.step, hat] at h
  | exit p =>
    cases h
    exact exit_inv hs

/-! ### Every run -/

/-- Who makes a call. -/
def LockCall.actor : LockCall Proc → Proc
  | .call p | .semget p | .create p _ | .noSpace p | .semop p | .interrupt p | .remove p
  | .exit p => p

theorem semopOn_other {semid : ℕ} {ops : List Sembuf} {done failed : LockPhase} {q : Proc}
    (h : s.semopOn p semid ops done failed = some s') (hq : q ≠ p) : s'.phase q = s.phase q := by
  obtain ⟨rfl, -⟩ | ⟨S, S', -, -, -, rfl⟩ := semopOn_cases h
  · exact update_of_ne hq ..
  · exact update_of_ne hq ..

theorem step_other {a : LockCall Proc} (h : s.step a = some s') {q : Proc} (hq : q ≠ a.actor) :
    s'.phase q = s.phase q := by
  cases a with
  | semop p =>
    simp only [LibLock.step] at h
    split at h
    · exact semopOn_other h hq
    · exact semopOn_other h hq
    · exact semopOn_other h hq
    · cases h
  | exit p =>
    cases h
    exact update_of_ne hq ..
  | call p | interrupt p | remove p =>
    simp only [LibLock.step] at h
    split at h <;> first
      | cases h
        exact update_of_ne hq ..
      | cases h
  | semget p | create p semid | noSpace p =>
    simp only [LibLock.step] at h
    split at h <;> first
      | cases h
        exact update_of_ne hq ..
      | cases h

theorem restored_of_inv {a : LockCall Proc} (hs : LockInv s) (h : s.step a = some s') :
    Restored s a s' := by
  intro p v hp hout hexit
  obtain ⟨rfl, S, hset, hid, hheld⟩ := hs.inside hp
  have hactor : p = a.actor := by
    by_contra hne
    rw [← step_other h hne, hout] at hp
    cases hp
  have hnever : ∀ ph, s.phase p = ph → ph.found ≠ none := by
    rintro ph rfl
    rw [hp]
    exact Option.some_ne_none 0
  cases a with
  | call q =>
    obtain rfl : p = q := hactor
    simp only [LibLock.step] at h
    split at h
    · exact absurd rfl (hnever _ ‹_›)
    · cases h
      rw [goTo_self] at hout
      cases hout
    · cases h
  | semget q =>
    obtain rfl : p = q := hactor
    simp only [LibLock.step] at h
    split at h
    · exact absurd rfl (hnever _ ‹_›)
    · exact absurd rfl (hnever _ ‹_›)
    · rename_i hnone
      rw [hset] at hnone
      cases hnone
    · rename_i S' hat hset'
      rw [hset] at hset'
      cases hset'
      rw [if_neg (by omega)] at h
      cases h
      rw [goTo_self] at hout
      cases hout
    · cases h
  | semop q =>
    obtain rfl : p = q := hactor
    simp only [LibLock.step] at h
    split at h
    · exact absurd rfl (hnever _ ‹_›)
    · exact absurd rfl (hnever _ ‹_›)
    · rename_i hat
      rw [give_held hheld hset (hheld.named _ _ hat) h]
      rfl
    · cases h
  | exit q => exact absurd (congrArg LockCall.exit hactor.symm) hexit
  | create q semid =>
    obtain rfl : p = q := hactor
    simp only [LibLock.step] at h
    split at h
    · exact absurd rfl (hnever _ ‹_›)
    · exact absurd rfl (hnever _ ‹_›)
    · cases h
  | noSpace q =>
    obtain rfl : p = q := hactor
    simp only [LibLock.step] at h
    split at h
    · exact absurd rfl (hnever _ ‹_›)
    · cases h
  | interrupt q =>
    obtain rfl : p = q := hactor
    simp only [LibLock.step] at h
    split at h
    · exact absurd rfl (hnever _ ‹_›)
    · exact absurd rfl (hnever _ ‹_›)
    · cases h
  | remove q =>
    obtain rfl : p = q := hactor
    simp only [LibLock.step] at h
    split at h
    · exact absurd rfl (hnever _ ‹_›)
    · cases h

theorem lockInv_of_reachUnder (h : libLock.ReachUnder Orderly s) : LockInv s := by
  refine h.invariant ?_ ?_
  · intro t ⟨hset, hphase⟩
    refine (lockInv_none hset).mpr fun p => ?_
    rw [hphase p]
    rfl
  · exact fun t a t' ht ha hstep => step_lockInv ht ha hstep

/-- **The lock of the library** over every orderly run: at most one process is inside, and each
`unlock_lib` leaves what its `lock_lib` has found. -/
theorem lockLib_orderly (h : libLock.ReachUnder Orderly s) :
    s.AtMostOne ∧ ∀ a s', s.step a = some s' → Restored s a s' := by
  have hinv := lockInv_of_reachUnder h
  exact ⟨hinv.atMostOne, fun a s' hstep => restored_of_inv hinv hstep⟩

end Lock

/-! ### Three runs -/

/-- Nobody in the library, and no set. -/
def freshLock : LibLock ℕ := ⟨none, fun _ => .outside⟩

/-- `lock_lib` of a process that finds no set and creates one, up to where it holds the lock. -/
def lockFirst (semid : ℕ) : List (LockCall ℕ) :=
  [.call 0, .semget 0, .create 0 semid, .semop 0, .semop 0]

theorem lockLib_orderly_first : ∃ s, System.runFun LibLock.step freshLock (lockFirst 5) = some s ∧
    s.Inside 0 ∧ s.AtMostOne ∧ ∀ a s', s.step a = some s' → Restored s a s' := by
  have hstart : libLock.ReachUnder Orderly freshLock := .init ⟨rfl, fun _ => rfl⟩
  have hcall := hstart.step (show Orderly freshLock (.call 0) from trivial) rfl
  have hget := hcall.step (show Orderly _ (.semget 0) from trivial) rfl
  have hcreate := hget.step (show Orderly _ (.create 0 5) from Nat.succ_ne_zero 4) rfl
  have hwait := hcreate.step (show Orderly _ (.semop 0) from by rintro S ⟨⟩ ⟨⟩) rfl
  have hlock := hwait.step (show Orderly _ (.semop 0) from by rintro S ⟨⟩ ⟨⟩) rfl
  exact ⟨_, rfl, by decide, lockLib_orderly hlock⟩

/-- The set with identifier 0 is taken and not given back: after the pair the semaphore is at 1. -/
def lockZero : List (LockCall ℕ) := lockFirst 0 ++ [.call 0]

/-- A second process is interrupted in `lock_lib` and gives back what the first one holds; then a
third one takes it. -/
def lockTwice : List (LockCall ℕ) :=
  lockFirst 5 ++ [.call 1, .semget 1, .interrupt 1, .call 1, .semget 1, .semop 1,
    .call 2, .semget 2, .semop 2]

theorem lockLib_broken :
    (¬ ∀ s : LibLock ℕ, libLock.Reach s → s.AtMostOne) ∧
    ¬ ∀ s : LibLock ℕ, libLock.Reach s → ∀ a s', s.step a = some s' → Restored s a s' := by
  have hstart : libLock.Reach freshLock := System.Reach.init ⟨rfl, fun _ => rfl⟩
  constructor
  · intro hall
    obtain ⟨s, hrun, h0, h2⟩ : ∃ s, System.runFun LibLock.step freshLock lockTwice = some s ∧
        s.Inside 0 ∧ s.Inside 2 := ⟨_, rfl, by decide, by decide⟩
    exact absurd (hall s (hstart.runFun lockTwice hrun) 0 2 h0 h2) (by decide)
  · intro hall
    obtain ⟨s, s', hrun, hstep, hfound, hout, hval⟩ :
        ∃ s s', System.runFun LibLock.step freshLock lockZero = some s ∧
          s.step (.semget 0) = some s' ∧ (s.phase 0).found = some 0 ∧
          s'.phase 0 = .outside ∧ s'.set.map SemSet.val = some 1 :=
      ⟨_, _, rfl, rfl, rfl, rfl, rfl⟩
    have hrestored := hall s (hstart.runFun lockZero hrun) _ s' hstep 0 0 hfound hout (by simp)
    rw [hval] at hrestored
    exact absurd hrestored (by decide)

end KernelModules.Ctr
