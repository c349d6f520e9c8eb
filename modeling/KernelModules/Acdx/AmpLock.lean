import KernelModules.Lib.SysVSemaphore
import KernelModules.Lib.Transition

/-!
# The lock of the amplifier library

Processes that talk to the amplifier share a System V semaphore.  A process polls it until its value
is not zero, sets it to one by force, decrements it with undo, talks to the amplifier, and sets it
to one again.

* `AmpPhase` is where a process is between two system calls, `AmpLock.go` its next call;
* `AmpLock.Exclusive` is what the lock is for;
* `exclusive_of_reachUnder` holds it over every run in which the semaphore is forced only while
  nobody else is inside, and no decrement is interrupted; any other step leads to two processes
  inside.

A system call fails only by an interruption of the decrement; its error is not looked at.
-/

namespace KernelModules.Acdx

open Function KernelModules.Lib

/-- Where a process is: before which call of `AmpIsBlocked`, `AmpUnBlock` or `AmpBlock`.
`AmpUnBlock` has two callers. -/
inductive AmpPhase
  | out
  /-- `AmpIsBlocked`: `semget` -/
  | poll
  /-- `AmpIsBlocked`: `GETVAL` -/
  | getVal
  /-- `AmpUnBlock`, from `AmpIsBlocked` or not: `semget` -/
  | unBlock (polling : Bool)
  /-- `AmpUnBlock`: `SETVAL` -/
  | free (polling : Bool)
  /-- `AmpBlock`: `semget` -/
  | block
  /-- `AmpBlock`: `SETVAL` -/
  | force
  /-- `AmpBlock`: `semop` -/
  | take
  | inside
  deriving DecidableEq, Repr

/-- The semaphore, when it is there, and the processes. -/
structure AmpLock (Proc : Type*) where
  sem : Option (SemSet Proc)
  phase : Proc → AmpPhase

/-- A step: the next call of a process, the interruption of the call it sleeps in, or its exit. -/
inductive AmpStep (Proc : Type*)
  | go (p : Proc)
  | interrupt (p : Proc)
  | exit (p : Proc)

section Lock

variable {Proc : Type*} [DecidableEq Proc]

def AmpLock.goTo (s : AmpLock Proc) (p : Proc) (ph : AmpPhase) : AmpLock Proc :=
  { s with phase := update s.phase p ph }

/-- `semget` with `IPC_CREAT`: a new semaphore is zero. -/
def AmpLock.create (s : AmpLock Proc) : AmpLock Proc :=
  { s with sem := some (s.sem.getD ⟨0, 0, fun _ => 0⟩) }

/-- `semctl` with `SETVAL` to one. -/
def AmpLock.setOne (s : AmpLock Proc) : Option (AmpLock Proc) :=
  s.sem.map fun S => { s with sem := some (S.setval 1) }

/-- The array of `AmpBlock`. -/
def takeOp : List Sembuf := [⟨-1, true, false⟩]

/-- The next call of a process in `AmpIsOn` or `AmpIsConfigured`. -/
def AmpLock.go (s : AmpLock Proc) (p : Proc) : Option (AmpLock Proc) :=
  match s.phase p with
  | .out => some (s.goTo p .poll)
  | .poll => some (s.goTo p (if s.sem.isSome then .getVal else .unBlock true))
  | .getVal => s.sem.map fun S => s.goTo p (if S.val = 0 then .poll else .block)
  | .unBlock polling => some (s.create.goTo p (.free polling))
  | .free polling => s.setOne.map fun t => t.goTo p (if polling then .block else .out)
  | .block => some (s.create.goTo p .force)
  | .force => s.setOne.map fun t => t.goTo p .take
  | .take => s.sem.bind fun S =>
      match S.semop p takeOp with
      | .done S' => some { s.goTo p .inside with sem := some S' }
      | _ => none
  | .inside => some (s.goTo p (.unBlock false))

/-- The decrement is interrupted while it sleeps. -/
def AmpLock.interrupt (s : AmpLock Proc) (p : Proc) : Option (AmpLock Proc) :=
  if s.phase p = .take then
    s.sem.bind fun S =>
      match S.semop p takeOp with
      | .sleep => some (s.goTo p .inside)
      | _ => none
  else none

def AmpLock.step (s : AmpLock Proc) : AmpStep Proc → Option (AmpLock Proc)
  | .go p => s.go p
  | .interrupt p => s.interrupt p
  | .exit p => some { s.goTo p .out with sem := s.sem.map fun S => S.exit p }

/-- Nobody has called yet, and the semaphore is absent or one. -/
structure AmpLock.Fresh (s : AmpLock Proc) : Prop where
  phase : ∀ p, s.phase p = .out
  sem : ∀ S, s.sem = some S → S.val = 1 ∧ S.adj = fun _ => 0

/-- Any processes and calls in any order. -/
def ampLock : System (AmpLock Proc) (AmpStep Proc) := System.ofFun AmpLock.Fresh AmpLock.step

/-- At most one process talks to the amplifier. -/
def AmpLock.Exclusive (s : AmpLock Proc) : Prop :=
  ∀ p q, s.phase p = .inside → s.phase q = .inside → p = q

/-- The next call of the process sets the semaphore to one. -/
def AmpPhase.forces : AmpPhase → Bool
  | .free _ | .force => true
  | _ => false

/-- The semaphore is forced only while nobody else is inside, and no decrement is interrupted. -/
def Careful (s : AmpLock Proc) : AmpStep Proc → Prop
  | .go p => (s.phase p).forces = true → ∀ q, q ≠ p → s.phase q ≠ .inside
  | .interrupt _ => False
  | .exit _ => True

/-! ### The invariant -/

/-- The process has taken the semaphore and not given it back. -/
def AmpPhase.holds : AmpPhase → Bool
  | .inside | .unBlock false | .free false => true
  | _ => false

/-- The adjustments with one for `q`. -/
def adjOf (q : Proc) : Proc → ℤ := update (fun _ => 0) q 1

/-- The semaphore is one and free; or zero and held by a process; or zero and new. -/
inductive SemOf (phase : Proc → AmpPhase) (S : SemSet Proc) : Prop
  | free (hval : S.val = 1) (hadj : S.adj = fun _ => 0)
  | held (q : Proc) (hq : (phase q).holds = true) (hval : S.val = 0) (hadj : S.adj = adjOf q)
  | new (hnone : ∀ p, phase p ≠ .take) (hval : S.val = 0) (hadj : S.adj = fun _ => 0)

structure LockInv (s : AmpLock Proc) : Prop where
  absent : s.sem = none → ∀ p, s.phase p ≠ .take
  sem : ∀ S, s.sem = some S → SemOf s.phase S
  inside : ∀ p, s.phase p = .inside → ∃ S, s.sem = some S ∧ S.val = 0 ∧ S.adj p = 1

variable {s s' : AmpLock Proc} {p q : Proc}

theorem adjOf_apply (p q : Proc) : adjOf q p = if p = q then 1 else 0 := update_apply ..

theorem adjOf_eq_one {p q : Proc} (h : adjOf q p = 1) : p = q := by
  by_contra hne
  rw [adjOf_apply, if_neg hne] at h
  exact absurd h (by decide)

theorem LockInv.exclusive (hs : LockInv s) : s.Exclusive := by
  intro p q hp hq
  obtain ⟨S, hS, hzero, hadjp⟩ := hs.inside p hp
  obtain ⟨T, hT, -, hadjq⟩ := hs.inside q hq
  cases hS.symm.trans hT
  rcases hs.sem S hS with ⟨hval, -⟩ | ⟨r, -, -, hadj⟩ | ⟨-, -, hadj⟩
  · omega
  · rw [hadj] at hadjp hadjq
    exact (adjOf_eq_one hadjp).trans (adjOf_eq_one hadjq).symm
  · rw [hadj] at hadjp
    exact absurd hadjp zero_ne_one

theorem lockInv_of_fresh (h : s.Fresh) : LockInv s where
  absent _ p := by simp [h.phase p]
  sem S hS := .free (h.sem S hS).1 (h.sem S hS).2
  inside p hp := by simp [h.phase p] at hp

/-! ### One step -/

theorem SemOf.goTo {S : SemSet Proc} (h : SemOf s.phase S) {ph : AmpPhase} (htake : ph ≠ .take)
    (hholds : (s.phase p).holds = true → ph.holds = true) : SemOf (update s.phase p ph) S := by
  rcases h with ⟨hval, hadj⟩ | ⟨q, hq, hval, hadj⟩ | ⟨hnone, hval, hadj⟩
  · exact .free hval hadj
  · refine .held q ?_ hval hadj
    rcases eq_or_ne q p with rfl | hne
    · rw [update_self]
      exact hholds hq
    · rwa [update_of_ne hne]
  · refine .new (fun q => ?_) hval hadj
    rcases eq_or_ne q p with rfl | hne
    · rwa [update_self]
    · rw [update_of_ne hne]
      exact hnone q

theorem of_update {ph ph' : AmpPhase} (hne : ph ≠ ph') (h : update s.phase p ph q = ph') :
    q ≠ p ∧ s.phase q = ph' := by
  rcases eq_or_ne q p with rfl | hqp
  · rw [update_self] at h
    exact absurd h hne
  · rw [update_of_ne hqp] at h
    exact ⟨hqp, h⟩

theorem LockInv.goTo (hs : LockInv s) {ph : AmpPhase} (htake : ph ≠ .take) (hin : ph ≠ .inside)
    (hholds : (s.phase p).holds = true → ph.holds = true) : LockInv (s.goTo p ph) where
  absent hnone _ hq := hs.absent hnone _ (of_update htake hq).2
  sem S hS := (hs.sem S hS).goTo htake hholds
  inside _ hq := hs.inside _ (of_update hin hq).2

theorem LockInv.create (hs : LockInv s) : LockInv s.create where
  absent hnone := by simp [AmpLock.create] at hnone
  sem S hS := by
    cases hsem : s.sem with
    | none =>
      rw [AmpLock.create, hsem] at hS
      cases hS
      exact .new (hs.absent hsem) rfl rfl
    | some T =>
      rw [AmpLock.create, hsem] at hS
      cases hS
      exact hs.sem T hsem
  inside q hq := by
    obtain ⟨S, hS, hval, hadj⟩ := hs.inside q hq
    exact ⟨S, by rw [AmpLock.create, hS]; rfl, hval, hadj⟩

theorem LockInv.setOne {t : AmpLock Proc} (h : s.setOne = some t) {ph : AmpPhase}
    (hin : ph ≠ .inside) (hout : ∀ q, q ≠ p → s.phase q ≠ .inside) : LockInv (t.goTo p ph) := by
  obtain ⟨S, -, rfl⟩ := Option.map_eq_some_iff.mp h
  refine ⟨fun hnone => absurd hnone (Option.some_ne_none _), fun T hT => ?_, fun q hq => ?_⟩
  · cases hT
    exact .free rfl rfl
  · obtain ⟨hne, hold⟩ := of_update hin hq
    exact absurd hold (hout q hne)

theorem LockInv.take (hs : LockInv s) {S : SemSet Proc} (hS : s.sem = some S) (hval : 1 ≤ S.val) :
    LockInv { s.goTo p .inside with
      sem := some ⟨S.id, S.val - 1, update S.adj p (S.adj p + 1)⟩ } := by
  obtain ⟨hone, hadj⟩ : S.val = 1 ∧ S.adj = fun _ => 0 := by
    rcases hs.sem S hS with ⟨hone, hadj⟩ | ⟨q, -, hzero, -⟩ | ⟨-, hzero, -⟩
    · exact ⟨hone, hadj⟩
    · omega
    · omega
  have hmine : update S.adj p (S.adj p + 1) = adjOf p := by
    rw [hadj]
    rfl
  refine ⟨fun hnone => absurd hnone (Option.some_ne_none _), fun T hT => ?_, fun q hq => ?_⟩
  · cases hT
    refine .held p ?_ (by change S.val - 1 = 0; omega) hmine
    change (update s.phase p .inside p).holds = true
    rw [update_self]
    rfl
  · refine ⟨_, rfl, by change S.val - 1 = 0; omega, ?_⟩
    change update S.adj p (S.adj p + 1) q = 1
    rcases eq_or_ne q p with rfl | hne
    · rw [hmine, adjOf_apply, if_pos rfl]
    · -- nobody was inside
      change update s.phase p .inside q = .inside at hq
      rw [update_of_ne hne] at hq
      obtain ⟨T, hT, hzero, -⟩ := hs.inside q hq
      cases hS.symm.trans hT
      omega

theorem LockInv.exit (hs : LockInv s) (p : Proc) :
    LockInv { s.goTo p .out with sem := s.sem.map fun S => S.exit p } := by
  refine ⟨fun hnone q hq => ?_, fun T hT => ?_, fun q hq => ?_⟩
  · exact hs.absent (Option.map_eq_none_iff.mp hnone) q (of_update (by decide) hq).2
  · obtain ⟨S, hS, rfl⟩ := Option.map_eq_some_iff.mp hT
    change SemOf (update s.phase p .out) (S.exit p)
    have hsem := hs.sem S hS
    by_cases hmine : S.adj = adjOf p ∧ S.val = 0
    · -- the undo gives the semaphore back
      refine .free ?_ ?_
      · change max 0 (S.val + S.adj p) = 1
        rw [hmine.1, hmine.2, adjOf_apply, if_pos rfl]
        rfl
      · change update S.adj p 0 = _
        rw [hmine.1, adjOf, update_idem]
        exact update_eq_self p _
    · have hadj : S.adj p = 0 := by
        rcases hsem with ⟨-, hadj⟩ | ⟨r, -, hval, hadj⟩ | ⟨-, -, hadj⟩
        · rw [hadj]
        · have hne : p ≠ r := by
            rintro rfl
            exact hmine ⟨hadj, hval⟩
          rw [hadj, adjOf_apply, if_neg hne]
        · rw [hadj]
      have hnonneg : 0 ≤ S.val := by
        rcases hsem with ⟨hval, -⟩ | ⟨-, -, hval, -⟩ | ⟨-, hval, -⟩ <;> omega
      rw [SemSet.exit_of_adj hnonneg hadj]
      rcases hsem with ⟨hval, hadj⟩ | ⟨r, hr, hval, hadjr⟩ | ⟨hnone, hval, hadj⟩
      · exact .free hval hadj
      · have hne : r ≠ p := by
          rintro rfl
          exact hmine ⟨hadjr, hval⟩
        refine .held r ?_ hval hadjr
        rwa [update_of_ne hne]
      · exact .new (fun q hq => hnone q (of_update (by decide) hq).2) hval hadj
  · obtain ⟨hne, hold⟩ := of_update (by decide) hq
    obtain ⟨S, hS, hzero, hadj⟩ := hs.inside q hold
    have hother : S.adj p = 0 := by
      rcases hs.sem S hS with ⟨hval, -⟩ | ⟨r, -, -, hadjr⟩ | ⟨-, -, hadjr⟩
      · omega
      · rw [hadjr] at hadj ⊢
        rw [adjOf_apply, if_neg]
        rw [← adjOf_eq_one hadj]
        exact hne.symm
      · rw [hadjr]
    refine ⟨S, ?_, hzero, hadj⟩
    change s.sem.map _ = _
    rw [hS, Option.map_some, SemSet.exit_of_adj hzero.ge hother]

theorem LockInv.go (hs : LockInv s) (ha : Careful s (.go p)) (h : s.go p = some s') :
    LockInv s' := by
  unfold AmpLock.go at h
  cases hp : s.phase p with
  | out =>
    rw [hp] at h
    cases h
    exact hs.goTo (by decide) (by decide) (by simp [hp, AmpPhase.holds])
  | poll =>
    rw [hp] at h
    cases h
    refine hs.goTo ?_ ?_ (by simp [hp, AmpPhase.holds]) <;> split <;> decide
  | getVal =>
    rw [hp] at h
    obtain ⟨S, -, rfl⟩ := Option.map_eq_some_iff.mp h
    refine hs.goTo ?_ ?_ (by simp [hp, AmpPhase.holds]) <;> split <;> decide
  | unBlock polling =>
    rw [hp] at h
    cases h
    refine hs.create.goTo (by simp) (by simp) fun hholds => ?_
    change (s.phase p).holds = true at hholds
    rw [hp] at hholds
    cases polling <;> exact hholds
  | free polling =>
    rw [hp] at h
    obtain ⟨t, ht, rfl⟩ := Option.map_eq_some_iff.mp h
    refine LockInv.setOne ht ?_ (ha (by rw [hp]; rfl))
    cases polling <;> decide
  | block =>
    rw [hp] at h
    cases h
    refine hs.create.goTo (by decide) (by decide) fun hholds => ?_
    change (s.phase p).holds = true at hholds
    rw [hp] at hholds
    cases hholds
  | force =>
    rw [hp] at h
    obtain ⟨t, ht, rfl⟩ := Option.map_eq_some_iff.mp h
    exact LockInv.setOne ht (by decide) (ha (by rw [hp]; rfl))
  | take =>
    rw [hp] at h
    obtain ⟨S, hS, htake⟩ := Option.bind_eq_some_iff.mp h
    rw [takeOp, SemSet.semop_take] at htake
    by_cases hval : 1 ≤ S.val
    · rw [if_pos hval] at htake
      cases htake
      exact hs.take hS hval
    · rw [if_neg hval] at htake
      cases htake
  | inside =>
    rw [hp] at h
    cases h
    exact hs.goTo (by decide) (by decide) fun _ => rfl

theorem lockInv_of_reachUnder (h : ampLock.ReachUnder Careful s) : LockInv s := by
  refine h.invariant (fun _ => lockInv_of_fresh) fun s a s' hs ha hstep => ?_
  cases a with
  | go p => exact hs.go ha hstep
  | interrupt p => exact absurd ha id
  | exit p =>
    cases hstep
    exact hs.exit p

/-! ### What a careless step leads to -/

/-- Some calls of `q` bring it inside, and the others stay where they are. -/
def AmpLock.Enters (s : AmpLock Proc) (q : Proc) : Prop :=
  ∃ as t, System.runFun AmpLock.step s as = some t ∧ t.phase q = .inside ∧
    ∀ r, r ≠ q → t.phase r = s.phase r

theorem AmpLock.Enters.go {t : AmpLock Proc} (h : s.go q = some t)
    (hrest : ∀ r, r ≠ q → t.phase r = s.phase r) (ht : t.Enters q) : s.Enters q := by
  obtain ⟨as, u, hrun, hin, hsame⟩ := ht
  refine ⟨.go q :: as, u, ?_, hin, fun r hr => (hsame r hr).trans (hrest r hr)⟩
  rw [System.runFun, AmpLock.step, h]
  exact hrun

theorem enters_of_take {S : SemSet Proc} (hq : s.phase q = .take) (hS : s.sem = some S)
    (hval : 1 ≤ S.val) : s.Enters q := by
  refine ⟨[.go q], { s.goTo q .inside with
    sem := some ⟨S.id, S.val - 1, update S.adj q (S.adj q + 1)⟩ }, ?_, update_self ..,
    fun r hr => update_of_ne hr ..⟩
  simp [System.runFun, AmpLock.step, AmpLock.go, hq, hS, takeOp, SemSet.semop_take, hval]

theorem enters_of_force {S : SemSet Proc} (hq : s.phase q = .force) (hS : s.sem = some S) :
    s.Enters q := by
  have hgo : s.go q = some ({ s with sem := some (S.setval 1) }.goTo q .take) := by
    simp [AmpLock.go, hq, AmpLock.setOne, hS]
  refine .go hgo (fun r hr => update_of_ne hr ..) ?_
  exact enters_of_take (update_self ..) rfl le_rfl

theorem enters_of_block (hq : s.phase q = .block) : s.Enters q := by
  have hgo : s.go q = some (s.create.goTo q .force) := by
    simp [AmpLock.go, hq]
  refine .go hgo (fun r hr => update_of_ne hr ..) ?_
  exact enters_of_force (update_self ..) rfl

theorem enters_of_out {S : SemSet Proc} (hq : s.phase q = .out) (hS : s.sem = some S)
    (hval : S.val ≠ 0) : s.Enters q := by
  have hcall : s.go q = some (s.goTo q .poll) := by
    simp [AmpLock.go, hq]
  refine .go hcall (fun r hr => update_of_ne hr ..) ?_
  have hpoll : (s.goTo q .poll).go q = some ((s.goTo q .poll).goTo q .getVal) := by
    simp [AmpLock.go, AmpLock.goTo, hS]
  refine .go hpoll (fun r hr => update_of_ne hr ..) ?_
  have hget : ((s.goTo q .poll).goTo q .getVal).go q =
      some (((s.goTo q .poll).goTo q .getVal).goTo q .block) := by
    simp [AmpLock.go, AmpLock.goTo, hS, hval]
  refine .go hget (fun r hr => update_of_ne hr ..) ?_
  exact enters_of_block (update_self ..)

theorem enters_of_forces (hforces : (s.phase q).forces = true) (h : s.go q = some s') :
    s'.Enters q ∧ ∀ r, r ≠ q → s'.phase r = s.phase r := by
  unfold AmpLock.go at h
  cases hq : s.phase q with
  | free polling =>
    rw [hq] at h
    obtain ⟨t, ht, rfl⟩ := Option.map_eq_some_iff.mp h
    obtain ⟨S, -, rfl⟩ := Option.map_eq_some_iff.mp ht
    refine ⟨?_, fun r hr => update_of_ne hr ..⟩
    cases polling with
    | false => exact enters_of_out (update_self ..) rfl one_ne_zero
    | true => exact enters_of_block (update_self ..)
  | force =>
    rw [hq] at h
    obtain ⟨t, ht, rfl⟩ := Option.map_eq_some_iff.mp h
    obtain ⟨S, -, rfl⟩ := Option.map_eq_some_iff.mp ht
    exact ⟨enters_of_take (update_self ..) rfl le_rfl, fun r hr => update_of_ne hr ..⟩
  | _ => simp [hq, AmpPhase.forces] at hforces

/-- Two processes can be inside after some more steps. -/
def AmpLock.Breaks (s : AmpLock Proc) : Prop :=
  ∃ as t, System.runFun AmpLock.step s as = some t ∧ ¬ t.Exclusive

theorem AmpLock.Enters.breaks (hq : s.Enters q) (hp : s.phase p = .inside) (hne : q ≠ p) :
    s.Breaks := by
  obtain ⟨as, t, hrun, hin, hsame⟩ := hq
  refine ⟨as, t, hrun, fun hexcl => hne (hexcl q p hin ?_)⟩
  rw [hsame p hne.symm, hp]

theorem enters_of_holds {S : SemSet Proc} (hq : (s.phase q).holds = true) (hS : s.sem = some S)
    (hout : s.phase q ≠ .inside) : s.Enters q := by
  cases hphase : s.phase q with
  | unBlock polling =>
    have hgo : s.go q = some (s.create.goTo q (.free polling)) := by
      simp [AmpLock.go, hphase]
    refine .go hgo (fun r hr => update_of_ne hr ..) ?_
    have hfree : (s.create.goTo q (.free polling)).phase q = .free polling := update_self ..
    have hforces : ((s.create.goTo q (.free polling)).phase q).forces = true := by
      rw [hfree]
      rfl
    have hset : ∃ t, (s.create.goTo q (.free polling)).go q = some t := by
      rw [AmpLock.go, hfree]
      exact ⟨_, rfl⟩
    obtain ⟨t, ht⟩ := hset
    obtain ⟨henter, hsame⟩ := enters_of_forces hforces ht
    exact .go ht hsame henter
  | free polling =>
    have hforces : (s.phase q).forces = true := by
      rw [hphase]
      rfl
    have hset : ∃ t, s.go q = some t := by
      rw [AmpLock.go, hphase]
      exact ⟨_, by rw [AmpLock.setOne, hS]; rfl⟩
    obtain ⟨t, ht⟩ := hset
    obtain ⟨henter, hsame⟩ := enters_of_forces hforces ht
    exact .go ht hsame henter
  | inside => exact absurd hphase hout
  | _ => simp [hphase, AmpPhase.holds] at hq

theorem breaks_of_interrupt (hs : LockInv s) (h : s.interrupt p = some s') : s'.Breaks := by
  unfold AmpLock.interrupt at h
  by_cases hp : s.phase p = .take
  · rw [if_pos hp] at h
    obtain ⟨S, hS, htake⟩ := Option.bind_eq_some_iff.mp h
    rw [takeOp, SemSet.semop_take] at htake
    by_cases hval : 1 ≤ S.val
    · rw [if_pos hval] at htake
      cases htake
    · rw [if_neg hval] at htake
      cases htake
      rcases hs.sem S hS with ⟨hone, -⟩ | ⟨q, hq, -, -⟩ | ⟨hnone, -, -⟩
      · omega
      · have hne : q ≠ p := by
          rintro rfl
          simp [hp, AmpPhase.holds] at hq
        have hsame : (s.goTo p .inside).phase q = s.phase q := update_of_ne hne ..
        have hin : (s.goTo p .inside).phase p = .inside := update_self ..
        by_cases hqin : s.phase q = .inside
        · exact ⟨[], _, rfl, fun hexcl => hne (hexcl q p (hsame.trans hqin) hin)⟩
        · have hholds : ((s.goTo p .inside).phase q).holds = true := by
            rw [hsame]
            exact hq
          have henter : (s.goTo p .inside).Enters q :=
            @enters_of_holds _ _ (s.goTo p .inside) q S hholds hS (by rwa [hsame])
          exact henter.breaks hin hne
      · exact absurd hp (hnone p)
  · rw [if_neg hp] at h
    cases h

theorem breaks_of_careless (hs : LockInv s) {a : AmpStep Proc} (h : s.step a = some s')
    (ha : ¬ Careful s a) : s'.Breaks := by
  cases a with
  | go p =>
    obtain ⟨hforces, hother⟩ := Classical.not_imp.mp ha
    obtain ⟨q, hq⟩ := not_forall.mp hother
    obtain ⟨hne, hin⟩ := Classical.not_imp.mp hq
    obtain ⟨henter, hsame⟩ := enters_of_forces hforces h
    refine henter.breaks ?_ hne.symm
    rw [hsame q hne]
    exact not_not.mp hin
  | interrupt p => exact breaks_of_interrupt hs h
  | exit p => exact absurd trivial ha

end Lock

/-- The first process is inside, and the second has found the semaphore free before. -/
def oneInside : List (AmpStep Bool) :=
  [.go false, .go true, .go false, .go true, .go false, .go true, .go false, .go false, .go false]

/-- Two processes, with the semaphore there. -/
def twoProcs : AmpLock Bool := ⟨some ⟨0, 1, fun _ => 0⟩, fun _ => .out⟩

end KernelModules.Acdx
