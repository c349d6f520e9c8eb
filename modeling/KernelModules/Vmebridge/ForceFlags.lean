import KernelModules.Lib.Transition
import KernelModules.Vmebridge.Mapping

/-!
# The force flags of the user library

Whether `FIND_MAPPING` may create a window, and whether `RELEASE_MAPPING` may destroy one, is not
an argument of these ioctls but a global variable of the driver.  A call of `libvmebus` reads the
variable, sets it to what its caller asked for, makes its request and writes the old value back:
four ioctls, between which any other process can run.

* `LibCall` are the four library calls, `LibPc` is where a process is in its call and `libStep` runs
  one ioctl of one process, with the kernel's answer to it;
* `FlagLaws` says that requests ran under the value their own caller asked for and that the flags
  are back at their first values whenever no call is under way;
* `Considerate` are the steps that do not get in the way of another call, and `flagLaws_of_reach`
  shows the laws for every run made of them.
-/

namespace KernelModules.Vmebridge

open Function KernelModules.Lib

/-! ### The calls and their ioctls -/

/-- The driver's `vme_create_on_find_fail` and `vme_destroy_on_remove`. -/
inductive ForceFlag
  | createOnFindFail | destroyOnRemove
  deriving DecidableEq, Repr

/-- The library calls that work with a flag, with their `force` argument. -/
inductive LibCall
  | vmeMap (force : U32)
  | findController
  | vmeUnmap (force : U32)
  | returnController
  deriving DecidableEq, Repr

namespace LibCall

/-- The flag the call's request runs under. -/
def flag : LibCall → ForceFlag
  | vmeMap _ | findController => .createOnFindFail
  | vmeUnmap _ | returnController => .destroyOnRemove

/-- The value the caller asks for. -/
def force : LibCall → U32
  | vmeMap force => force
  | findController => 1
  | vmeUnmap force => force
  | returnController => 1

/-- The call saves, sets and restores the flag; `vme_unmap` without force does not. -/
def saves : LibCall → Bool
  | vmeUnmap force => force != 0
  | _ => true

/-- A failed `GET` or `SET` ends the call; the two unmapping calls print a message and go on. -/
def bailsOut : LibCall → Bool
  | vmeMap _ | findController => true
  | vmeUnmap _ | returnController => false

end LibCall

/-- Which ioctl of its call a process is about to issue; `org` is the saved value. -/
inductive LibPc
  | idle
  | get (c : LibCall)
  | set (c : LibCall) (org : U32)
  | act (c : LibCall) (org : Option U32)
  | restore (c : LibCall) (org : U32)
  deriving DecidableEq, Repr

/-- The kernel's answer to an ioctl: it is carried out, refused (a bad file descriptor), or its
argument cannot be accessed.  `get_user` zeroes its target in the last case. -/
inductive IoctlAnswer
  | done | refused | faulted
  deriving DecidableEq, Repr

/-- The flags, the processes, and for each request that reached the driver the value asked for and
the value it ran under. -/
structure FlagState (P : Type*) where
  flag : ForceFlag → U32
  pc : P → LibPc
  log : List (U32 × U32)

/-- The value of a flag after a `SET` with argument `v`. -/
def IoctlAnswer.written (a : IoctlAnswer) (v before : U32) : U32 :=
  match a with
  | .done => v
  | .refused => before
  | .faulted => 0

/-- The value `org_force_create` or `org_force_destroy` holds after a `GET`; `junk` is what the
variable held. -/
def IoctlAnswer.saved (a : IoctlAnswer) (v junk : U32) : U32 :=
  match a with
  | .done => v
  | _ => junk

variable {P : Type*} [DecidableEq P]

namespace FlagState

def goto (s : FlagState P) (p : P) (pc : LibPc) : FlagState P := { s with pc := update s.pc p pc }

/-- The driver's part of a `SET`. -/
def write (s : FlagState P) (f : ForceFlag) (v : U32) : FlagState P :=
  { s with flag := update s.flag f v }

end FlagState

/-- A process starts a call, or issues the next ioctl of the call it is in. -/
inductive LibLabel (P : Type*)
  | call (p : P) (c : LibCall)
  | ioctl (p : P) (a : IoctlAnswer) (junk : U32)

/-- One ioctl of process `p`. -/
def ioctlStep (s : FlagState P) (p : P) (a : IoctlAnswer) (junk : U32) : Option (FlagState P) :=
  match s.pc p with
  | .idle => none
  | .get c =>
    if a ≠ .done ∧ c.bailsOut then some (s.goto p .idle)
    else some (s.goto p (.set c (a.saved (s.flag c.flag) junk)))
  | .set c org =>
    let s := s.write c.flag (a.written c.force (s.flag c.flag))
    if a ≠ .done ∧ c.bailsOut then some (s.goto p .idle)
    else some (s.goto p (.act c (some org)))
  | .act c org =>
    let s := if a = .done then { s with log := (c.force, s.flag c.flag) :: s.log } else s
    match org with
    | none => some (s.goto p .idle)
    | some org => some (s.goto p (.restore c org))
  | .restore c org =>
    some ((s.write c.flag (a.written org (s.flag c.flag))).goto p .idle)

/-- The steps of the processes. -/
def libStep (s : FlagState P) : LibLabel P → Option (FlagState P)
  | .call p c =>
    if s.pc p = .idle then some (s.goto p (if c.saves then .get c else .act c none)) else none
  | .ioctl p a junk => ioctlStep s p a junk

/-- Any number of processes on a driver with the given flags. -/
def libSystem (P : Type*) [DecidableEq P] (first : ForceFlag → U32) :
    System (FlagState P) (LibLabel P) :=
  System.ofFun (fun s => s.flag = first ∧ (∀ p, s.pc p = .idle) ∧ s.log = []) libStep

/-! ### The laws -/

/-- **The protocol.**  Every request ran under the value its caller asked for, and with no call
under way the flags have their first values. -/
structure FlagLaws (first : ForceFlag → U32) (s : FlagState P) : Prop where
  requests : ∀ r ∈ s.log, r.2 = r.1
  restored : (∀ p, s.pc p = .idle) → s.flag = first

/-- A process that has set flag `f` and not yet made its request asked for `v`. -/
def LibPc.Agrees (f : ForceFlag) (v : U32) : LibPc → Prop
  | .act c (some _) => c.flag = f → c.force = v
  | _ => True

/-- No other process is about to make a request under another value of flag `f` than `v`. -/
def FlagState.Undisturbed (s : FlagState P) (p : P) (f : ForceFlag) (v : U32) : Prop :=
  ∀ q, q ≠ p → (s.pc q).Agrees f v

/-- The steps that do not get in the way of another call.  A `GET` succeeds and finds the flag at
its first value; a `SET` succeeds, or fails without effect and ends its call; the flag is written
back; no write changes the flag under a process that is about to make its request; and a release
without force finds the flag cleared. -/
def Considerate (first : ForceFlag → U32) (s : FlagState P) : LibLabel P → Prop
  | .call _ _ => True
  | .ioctl p a junk =>
    match s.pc p with
    | .idle => True
    | .get c => (a ≠ .done ∧ c.bailsOut) ∨ a.saved (s.flag c.flag) junk = first c.flag
    | .set c _ =>
      if a ≠ .done ∧ c.bailsOut then a.written c.force (s.flag c.flag) = s.flag c.flag
      else a.written c.force (s.flag c.flag) = c.force ∧ s.Undisturbed p c.flag c.force
    | .act c none => a = .done → s.flag c.flag = c.force
    | .act _ (some _) => True
    | .restore c org =>
      a.written org (s.flag c.flag) = org ∧ s.Undisturbed p c.flag org

instance (f : ForceFlag) (v : U32) (pc : LibPc) : Decidable (pc.Agrees f v) :=
  match pc with
  | .act c (some _) => inferInstanceAs (Decidable (c.flag = f → c.force = v))
  | .act _ none => isTrue trivial
  | .idle => isTrue trivial
  | .get _ => isTrue trivial
  | .set _ _ => isTrue trivial
  | .restore _ _ => isTrue trivial

instance [Fintype P] (s : FlagState P) (p : P) (f : ForceFlag) (v : U32) :
    Decidable (s.Undisturbed p f v) :=
  inferInstanceAs (Decidable (∀ q, q ≠ p → (s.pc q).Agrees f v))

instance [Fintype P] (first : ForceFlag → U32) (s : FlagState P) (l : LibLabel P) :
    Decidable (Considerate first s l) := by
  unfold Considerate
  split
  · infer_instance
  · split <;> infer_instance

/-! ### The invariant -/

/-- The process has set flag `f` and not yet written it back. -/
def LibPc.Changed (f : ForceFlag) : LibPc → Prop
  | .act c (some _) => c.flag = f
  | .restore c _ => c.flag = f
  | _ => False

/-- The value a process has saved is the first one. -/
def LibPc.Saved (first : ForceFlag → U32) : LibPc → Prop
  | .set c org => org = first c.flag
  | .act c (some org) => org = first c.flag
  | .restore c org => org = first c.flag
  | _ => True

/-- What considerate steps keep: a process about to make its request finds its own value, saved
values are the first ones, and a flag that nobody has changed has its first value. -/
structure FlagInv (first : ForceFlag → U32) (s : FlagState P) : Prop where
  requests : ∀ r ∈ s.log, r.2 = r.1
  ready : ∀ p c org, s.pc p = .act c (some org) → s.flag c.flag = c.force
  saved : ∀ p, (s.pc p).Saved first
  rest : ∀ f, (∀ p, ¬ (s.pc p).Changed f) → s.flag f = first f

section Invariant

variable {first : ForceFlag → U32} {s s' : FlagState P} {p : P} {pc : LibPc}

omit [DecidableEq P] in
theorem FlagInv.laws (h : FlagInv first s) : FlagLaws first s where
  requests := h.requests
  restored hidle := by
    funext f
    refine h.rest f fun p => ?_
    rw [hidle p]
    exact id

theorem FlagInv.move (h : FlagInv first s) (hpc : s'.pc = update s.pc p pc)
    (hlog : ∀ r ∈ s'.log, r.2 = r.1) (hsaved : pc.Saved first)
    (hown : ∀ c org, pc = .act c (some org) → s'.flag c.flag = c.force)
    (hothers : ∀ q c org, q ≠ p → s.pc q = .act c (some org) → s'.flag c.flag = c.force)
    (hrest : ∀ f, ¬ pc.Changed f → (∀ q, q ≠ p → ¬ (s.pc q).Changed f) → s'.flag f = first f) :
    FlagInv first s' where
  requests := hlog
  ready q c org hq := by
    rw [hpc] at hq
    by_cases hqp : q = p
    · subst hqp
      rw [update_self] at hq
      exact hown c org hq
    · rw [update_of_ne hqp] at hq
      exact hothers q c org hqp hq
  saved q := by
    rw [hpc]
    by_cases hqp : q = p
    · subst hqp
      rw [update_self]
      exact hsaved
    · rw [update_of_ne hqp]
      exact h.saved q
  rest f hf := by
    rw [hpc] at hf
    refine hrest f ?_ fun q hqp => ?_
    · have hp := hf p
      rwa [update_self] at hp
    · have hq := hf q
      rwa [update_of_ne hqp] at hq

theorem FlagInv.goto (h : FlagInv first s) (hbefore : ∀ f, ¬ (s.pc p).Changed f)
    (hafter : ∀ c org, pc ≠ .act c (some org)) (hsaved : pc.Saved first) :
    FlagInv first (s.goto p pc) := by
  refine h.move rfl h.requests hsaved ?_ (fun q c org _ hq => h.ready q c org hq) ?_
  · intro c org hpc
    exact absurd hpc (hafter c org)
  · intro f _ hothers
    refine h.rest f fun q => ?_
    by_cases hqp : q = p
    · rw [hqp]
      exact hbefore f
    · exact hothers q hqp

theorem FlagInv.write (h : FlagInv first s) {f : ForceFlag} {v : U32}
    (hbefore : ∀ g, g ≠ f → ¬ (s.pc p).Changed g) (hfree : s.Undisturbed p f v)
    (hsaved : pc.Saved first)
    (hown : ∀ c org, pc = .act c (some org) → c.flag = f ∧ c.force = v)
    (hrest : ¬ pc.Changed f → v = first f) : FlagInv first ((s.write f v).goto p pc) := by
  refine h.move rfl h.requests hsaved ?_ ?_ ?_
  · intro c org hpc
    obtain ⟨rfl, rfl⟩ := hown c org hpc
    exact update_self _ _ _
  · intro q c org hqp hq
    have hagrees := hfree q hqp
    rw [hq] at hagrees
    show update s.flag f v c.flag = c.force
    by_cases hf : c.flag = f
    · rw [hf, update_self]
      exact (hagrees hf).symm
    · rw [update_of_ne hf]
      exact h.ready q c org hq
  · intro g hg hothers
    show update s.flag f v g = first g
    by_cases hgf : g = f
    · rw [hgf, update_self]
      exact hrest (hgf ▸ hg)
    · rw [update_of_ne hgf]
      refine h.rest g fun q => ?_
      by_cases hqp : q = p
      · rw [hqp]
        exact hbefore g hgf
      · exact hothers q hqp

theorem FlagInv.act (h : FlagInv first s) {c : LibCall} {org : Option U32} {a : IoctlAnswer}
    (hp : s.pc p = .act c org) (hforce : org = none → a = .done → s.flag c.flag = c.force)
    (hafter : ∀ c org, pc ≠ .act c (some org)) (hsaved : pc.Saved first)
    (hchanged : ∀ f, (s.pc p).Changed f → pc.Changed f) :
    FlagInv first ((if a = .done then { s with log := (c.force, s.flag c.flag) :: s.log }
      else s).goto p pc) := by
  have hrun : a = .done → s.flag c.flag = c.force := by
    intro hdone
    cases org with
    | none => exact hforce rfl hdone
    | some org => exact h.ready p c org hp
  have hrest : ∀ f, ¬ pc.Changed f → (∀ q, q ≠ p → ¬ (s.pc q).Changed f) →
      s.flag f = first f := by
    intro f hnot hothers
    refine h.rest f fun q => ?_
    by_cases hqp : q = p
    · rw [hqp]
      exact fun hc => hnot (hchanged f hc)
    · exact hothers q hqp
  split
  · rename_i hdone
    refine h.move rfl ?_ hsaved (fun c org hpc => absurd hpc (hafter c org))
      (fun q c org _ hq => h.ready q c org hq) hrest
    intro r hr
    obtain rfl | hr := List.mem_cons.mp hr
    · exact hrun hdone
    · exact h.requests r hr
  · exact h.move rfl h.requests hsaved (fun c org hpc => absurd hpc (hafter c org))
      (fun q c org _ hq => h.ready q c org hq) hrest

theorem FlagInv.ioctlStep {a : IoctlAnswer} {junk : U32} (h : FlagInv first s)
    (hok : Considerate first s (.ioctl p a junk)) (hs : ioctlStep s p a junk = some s') :
    FlagInv first s' := by
  simp only [Vmebridge.ioctlStep] at hs
  simp only [Considerate] at hok
  cases hp : s.pc p with
  | idle => simp [hp] at hs
  | get c =>
    have hbefore : ∀ f, ¬ (s.pc p).Changed f := by simp [hp, LibPc.Changed]
    simp only [hp] at hs hok
    split at hs
    · obtain rfl := Option.some.inj hs
      exact h.goto hbefore (by simp) trivial
    · rename_i hgo
      obtain rfl := Option.some.inj hs
      exact h.goto hbefore (by simp) (hok.resolve_left hgo)
  | set c org =>
    have hbefore : ∀ f, ¬ (s.pc p).Changed f := by simp [hp, LibPc.Changed]
    have hsaved : org = first c.flag := by simpa [hp, LibPc.Saved] using h.saved p
    simp only [hp] at hs hok
    split at hs
    · -- the call ends, and the failed `SET` has left the flag alone
      rename_i hstop
      rw [if_pos hstop] at hok
      obtain rfl := Option.some.inj hs
      have hsame : s.write c.flag (a.written c.force (s.flag c.flag)) = s := by
        rw [hok, FlagState.write, update_eq_self]
      rw [hsame]
      exact h.goto hbefore (by simp) trivial
    · rename_i hgo
      rw [if_neg hgo] at hok
      obtain ⟨hwritten, hfree⟩ := hok
      obtain rfl := Option.some.inj hs
      rw [hwritten]
      refine h.write (fun g _ => hbefore g) hfree hsaved ?_ ?_
      · intro c' org' heq
        cases heq
        exact ⟨rfl, rfl⟩
      · intro hnot
        exact absurd rfl hnot
  | act c org =>
    simp only [hp] at hs
    cases org with
    | none =>
      obtain rfl := Option.some.inj hs
      refine h.act hp (fun _ => ?_) (by simp) trivial ?_
      · simpa only [hp] using hok
      · simp [hp, LibPc.Changed]
    | some org =>
      have hsaved : org = first c.flag := by simpa [hp, LibPc.Saved] using h.saved p
      obtain rfl := Option.some.inj hs
      refine h.act hp (fun hnone => by cases hnone) (by simp) hsaved ?_
      simp [hp, LibPc.Changed]
  | restore c org =>
    have hsaved : org = first c.flag := by simpa [hp, LibPc.Saved] using h.saved p
    simp only [hp] at hs hok
    obtain ⟨hwritten, hfree⟩ := hok
    obtain rfl := Option.some.inj hs
    rw [hwritten]
    refine h.write ?_ hfree trivial (by simp) fun _ => hsaved
    intro g hg
    rw [hp]
    exact fun h => hg h.symm

theorem FlagInv.step {l : LibLabel P} (h : FlagInv first s) (hok : Considerate first s l)
    (hs : libStep s l = some s') : FlagInv first s' := by
  cases l with
  | call p c =>
    simp only [libStep] at hs
    split at hs
    · rename_i hidle
      obtain rfl := Option.some.inj hs
      refine h.goto (by simp [hidle, LibPc.Changed]) ?_ ?_
      · intro c' org'
        split <;> simp
      · split <;> trivial
    · cases hs
  | ioctl p a junk => exact h.ioctlStep hok hs

/-- **The protocol holds along considerate runs**, of any number of processes. -/
theorem flagLaws_of_reach (h : (libSystem P first).ReachUnder (Considerate first) s) :
    FlagLaws first s := by
  refine FlagInv.laws (System.ReachUnder.invariant (P := FlagInv first) ?_ ?_ h)
  · rintro s ⟨hflag, hidle, hlog⟩
    exact ⟨by simp [hlog], by simp [hidle], by simp [hidle, LibPc.Saved], by simp [hflag]⟩
  · intro s l s' hinv hok hs
    exact hinv.step hok hs

end Invariant

/-! ### Two processes -/

/-- Two processes at rest, both flags cleared. -/
def twoCallers : FlagState Bool where
  flag _ := 0
  pc _ := .idle
  log := []

/-- A `vme_map` with force on its own, and a failed `vme_unmap` of the other process. -/
def oneAfterAnother : List (LibLabel Bool) :=
  [.call false (.vmeMap 1), .ioctl false .done 0, .ioctl false .done 0, .ioctl false .done 0,
    .ioctl false .done 0, .call true (.vmeUnmap 1), .ioctl true .done 0, .ioctl true .done 0,
    .ioctl true .refused 0, .ioctl true .done 0]

theorem flagLaws_of_reach_oneAfterAnother :
    (System.runUnder libStep (Considerate fun _ => 0) twoCallers oneAfterAnother).log = [(1, 1)] ∧
    FlagLaws (fun _ => 0)
      (System.runUnder libStep (Considerate fun _ => 0) twoCallers oneAfterAnother) := by
  refine ⟨by decide, flagLaws_of_reach ?_⟩
  have hinit : (libSystem Bool fun _ => 0).init twoCallers := ⟨rfl, fun _ => rfl, rfl⟩
  exact System.ReachUnder.runUnder (.init hinit) _

/-- A `vme_map` without force sets and restores the flag while a `vme_map` with force is about to
make its request, which therefore runs without force; and the second call has saved the value the
first one set, so that it stays. -/
def interleaved : List (LibLabel Bool) :=
  [.call false (.vmeMap 1), .ioctl false .done 0, .ioctl false .done 0,
    .call true (.vmeMap 0), .ioctl true .done 0, .ioctl true .done 0,
    .ioctl false .done 0, .ioctl false .done 0, .ioctl true .done 0, .ioctl true .done 0]

theorem not_flagLaws_interleaved :
    ∃ s, System.runFun libStep twoCallers interleaved = some s ∧
      (libSystem Bool fun _ => 0).Reach s ∧ (1, 0) ∈ s.log ∧ (∀ p, s.pc p = .idle) ∧
      s.flag .createOnFindFail = 1 ∧ ¬ FlagLaws (fun _ => 0) s := by
  obtain ⟨s, hs⟩ : ∃ s, System.runFun libStep twoCallers interleaved = some s := ⟨_, rfl⟩
  have hlog : (1, 0) ∈ s.log := by
    obtain rfl := Option.some.inj hs
    decide
  have hidle : ∀ p, s.pc p = .idle := by
    obtain rfl := Option.some.inj hs
    decide
  have hflag : s.flag .createOnFindFail = 1 := by
    obtain rfl := Option.some.inj hs
    decide
  have hinit : (libSystem Bool fun _ => 0).init twoCallers := ⟨rfl, fun _ => rfl, rfl⟩
  refine ⟨s, hs, System.Reach.runFun (.init hinit) _ hs, hlog, hidle, hflag, ?_⟩
  intro h
  exact absurd (h.requests _ hlog) (by decide)

end KernelModules.Vmebridge
