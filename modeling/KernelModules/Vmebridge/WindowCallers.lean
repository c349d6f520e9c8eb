import KernelModules.Lib.Transition
import KernelModules.Vmebridge.Window

/-!
# Interleaved callers of the window table

Any number of callers use the window table at once.  A section under one `window->lock` is
one step; between two sections of a call the lock is free and other callers run.  The gaps
that matter are in `__vme_find_mapping`, which drops every lock between creating a window and
adding the mapping to it, and in `__vme_release_mapping`, which drops the lock between
taking out the last mapping and destroying the window.

* `Pc` is where a caller stands between two sections and what it carries in its locals;
* `advance` is the next section of a caller, built from the sections of `Window`;
* `callers` is the system of all callers;
* `advance_effect` lists once what any section can do to the table.  The accounting and
  ownership results of the next files are read off that list.
-/

namespace KernelModules.Vmebridge

open Function KernelModules.Lib

/-- Where a caller stands between two sections of a call. -/
inductive Pc
  | idle
  /-- in the search loop of `__vme_find_mapping`, with the windows still to be looked at -/
  | scanning (mtch : VmeMapping) (force : Bool) (file : Option FileId) (rest : List WindowIdx)
  /-- looking for an unused window, reading the `active` flags without a lock -/
  | picking (mtch : VmeMapping) (file : Option FileId) (rest : List WindowIdx)
  /-- about to call `vme_create_window` on the window picked -/
  | creating (mtch : VmeMapping) (file : Option FileId) (i : WindowIdx)
  /-- `vme_create_window` has returned; the mapping is not linked yet -/
  | adding (mtch : VmeMapping) (file : Option FileId) (i : WindowIdx)
  /-- `__vme_release_mapping` has dropped the lock and calls `vme_destroy_window` -/
  | destroying (n : ℤ)
  /-- in the loop of `vme_window_release` -/
  | closing (file : FileId) (rest : List WindowIdx)
  deriving DecidableEq

/-- What the kernel answers during one section. -/
structure StepEnv where
  interrupted : Bool
  kzalloc : Bool
  create : CreateEnv
  deriving DecidableEq

/-- What a caller does next: enter a call, or go on with the one in progress. -/
inductive Action
  | create (env : CreateEnv) (desc : VmeMapping)
  | destroy (interrupted : Bool) (n : ℤ)
  | find (mtch : VmeMapping) (force : Bool) (file : Option FileId)
  | release (interrupted : Bool) (desc : VmeMapping) (force : Bool) (file : Option FileId)
  | close (file : FileId)
  | next (env : StepEnv)
  deriving DecidableEq

/-- The next section of a caller. -/
def advance : Pc → Action → Bridge → Option (Pc × Bridge)
  | .idle, .create env desc, s => some (.idle, (vmeCreateWindow env desc s).2)
  | .idle, .destroy intr n, s => some (.idle, (vmeDestroyWindow intr n s).2)
  | .idle, .find mtch force file, s =>
    if vmeMappingSanityCheck mtch then some (.scanning mtch force file (List.finRange 8), s)
    else some (.idle, s)
  | .idle, .release intr desc force file, s =>
    match releaseSection intr desc force file s with
    | (.done _, s) => some (.idle, s)
    | (.destroy n, s) => some (.destroying n, s)
  | .idle, .close file, s => some (.closing file (List.finRange 8), s)
  | .scanning mtch force file [], .next _, s =>
    if force then some (.picking mtch file (List.finRange 8), s) else some (.idle, s)
  | .scanning mtch force file (i :: is), .next env, s =>
    if env.interrupted then some (.idle, s)
    else
      match findInWindow env.kzalloc i mtch file s with
      | some (_, s) => some (.idle, s)
      | none => some (.scanning mtch force file is, s)
  | .picking _ _ [], .next _, s => some (.idle, s)
  | .picking mtch file (i :: is), .next _, s =>
    if (s.window i).active then some (.picking mtch file is, s)
    else some (.creating mtch file i, s)
  | .creating mtch file i, .next env, s =>
    match vmeCreateWindow env.create (windowFor mtch i) s with
    | (.error _, s) => some (.idle, s)
    | (.ok _, s) => some (.adding mtch file i, s)
  | .adding mtch file i, .next env, s => some (.idle, (finishFind env.kzalloc i mtch file s).2)
  | .destroying n, .next env, s => some (.idle, (vmeDestroyWindow env.interrupted n s).2)
  | .closing _ [], .next _, s => some (.idle, s)
  | .closing file (i :: is), .next env, s =>
    if env.interrupted then some (.idle, s) else some (.closing file is, closeWindow file i s)
  | _, _, _ => none

/-- The bridge and all its callers. -/
structure World where
  bridge : Bridge
  pc : ℕ → Pc

/-- One section of one caller. -/
def World.step (w : World) (l : ℕ × Action) : Option World :=
  (advance (w.pc l.1) l.2 w.bridge).map fun r => ⟨r.2, update w.pc l.1 r.1⟩

/-- Nobody has called yet, and the table is as `vme_window_init` leaves it. -/
def World.Fresh (w : World) : Prop :=
  w.bridge.window = Bridge.initial.window ∧ ∀ c, w.pc c = .idle

/-- All interleavings of all callers. -/
def callers : System World (ℕ × Action) := System.ofFun World.Fresh World.step

/-- A table nobody uses, on a chip with wiped windows. -/
def World.initial : World := ⟨Bridge.initial, fun _ => .idle⟩

theorem World.initial_fresh : World.initial.Fresh := ⟨rfl, fun _ => rfl⟩

theorem callers_reach_of_run (ls : List (ℕ × Action)) {w : World}
    (h : System.runFun World.step World.initial ls = some w) : callers.Reach w := by
  have hinit : callers.Reach World.initial := System.Reach.init World.initial_fresh
  exact hinit.runFun ls h

/-! ### What a section can do to the table -/

/-- The effects of one section, with the caller's position and action that explain them. -/
inductive Effect (pc : Pc) (a : Action) (s s' : Bridge) : Prop
  | same (h : s' = s)
  | created (i : WindowIdx) (d : VmeMapping) (regs : Otrans)
      (hact : (s.window i).active = false) (h : s' = s.created i d regs)
  | destroyed (i : WindowIdx) (n : ℤ) (hn : windowIndex n = some i)
      (hwho : (∃ intr, a = .destroy intr n) ∨ pc = .destroying n)
      (hact : (s.window i).active = true)
      (h : s'.window = (s.setWindow i (s.window i).destroyed).window)
  | found (i : WindowIdx) (mtch : VmeMapping) (force : Bool) (file : Option FileId)
      (rest : List WindowIdx) (hpc : pc = .scanning mtch force file (i :: rest))
      (hact : (s.window i).active = true)
      (h : s' = s.setWindow i ((s.window i).withMapping ⟨(s.window i).place i mtch, file⟩))
  | added (i : WindowIdx) (mtch : VmeMapping) (file : Option FileId) (env : StepEnv)
      (hpc : pc = .adding mtch file i) (ha : a = .next env) (halloc : env.kzalloc = true)
      (h : s' = s.setWindow i ((s.window i).withMapping ⟨(s.window i).place i mtch, file⟩))
  | released (i : WindowIdx) (intr : Bool) (desc : VmeMapping) (force : Bool)
      (file : Option FileId) (ha : a = .release intr desc force file)
      (hany : (s.window i).mappings.any (Mapping.releasedBy desc file) = true)
      (hact : (s.window i).active = true)
      (h : s' = s.setWindow i ((s.window i).withoutMapping desc file))
  | closed (i : WindowIdx) (file : FileId) (rest : List WindowIdx)
      (hpc : pc = .closing file (i :: rest)) (hact : (s.window i).active = true)
      (h : s' = s.setWindow i ((s.window i).withoutFile file))

theorem effect_vmeCreateWindow (pc : Pc) (a : Action) (env : CreateEnv) (desc : VmeMapping)
    (s : Bridge) : Effect pc a s (vmeCreateWindow env desc s).2 := by
  obtain ⟨e, h⟩ | ⟨i, _, d, regs, -, -, hact, -, -, h⟩ := vmeCreateWindow_cases env desc s
  · exact .same (by rw [h])
  · exact .created i d regs hact (by rw [h])

theorem effect_vmeDestroyWindow {pc : Pc} {a : Action} (intr : Bool) {n : ℤ}
    (hwho : (∃ intr, a = .destroy intr n) ∨ pc = .destroying n) (s : Bridge) :
    Effect pc a s (vmeDestroyWindow intr n s).2 := by
  obtain ⟨e, h⟩ | ⟨i, hn, hact, -, h, -⟩ := vmeDestroyWindow_cases intr n s
  · exact .same (by rw [h])
  · exact .destroyed i n hn hwho hact h

theorem effect_findInWindow {pc : Pc} {a : Action} {kzalloc : Bool} {i : WindowIdx}
    {mtch : VmeMapping} {force : Bool} {file : Option FileId} {rest : List WindowIdx} {s : Bridge}
    {r : Outcome} (hpc : pc = .scanning mtch force file (i :: rest))
    (hr : findInWindow kzalloc i mtch file s = some r) : Effect pc a s r.2 := by
  unfold findInWindow at hr
  split at hr
  · rename_i hacc
    have hact : (s.window i).active = true := by
      simp only [Window.accepts, Bool.and_eq_true] at hacc
      exact hacc.1.1.1.1.1
    cases hr
    obtain h | h := finishFind_cases kzalloc i mtch file s
    · exact .same (by rw [h])
    · exact .found i mtch force file rest hpc hact (by rw [h])
  · cases hr

theorem effect_finishFind {pc : Pc} {a : Action} {env : StepEnv} {i : WindowIdx}
    {mtch : VmeMapping} {file : Option FileId} (hpc : pc = .adding mtch file i)
    (ha : a = .next env) (s : Bridge) :
    Effect pc a s (finishFind env.kzalloc i mtch file s).2 := by
  cases halloc : env.kzalloc
  · exact .same rfl
  · exact .added i mtch file env hpc ha halloc rfl

theorem effect_releaseSection {pc : Pc} {a : Action} {intr : Bool} {desc : VmeMapping}
    {force : Bool} {file : Option FileId} (ha : a = .release intr desc force file) (s : Bridge) :
    Effect pc a s (releaseSection intr desc force file s).2 := by
  obtain ⟨e, h⟩ | ⟨i, -, hact, hany, h, -⟩ := releaseSection_cases intr desc force file s
  · exact .same (by rw [h])
  · exact .released i intr desc force file ha hany hact h

theorem effect_closeWindow {pc : Pc} {a : Action} {file : FileId} {i : WindowIdx}
    {rest : List WindowIdx} (hpc : pc = .closing file (i :: rest)) (s : Bridge) :
    Effect pc a s (closeWindow file i s) := by
  obtain h | ⟨hact, h⟩ := closeWindow_cases file i s
  · exact .same h
  · exact .closed i file rest hpc hact h

theorem advance_effect {pc pc' : Pc} {a : Action} {s s' : Bridge}
    (h : advance pc a s = some (pc', s')) : Effect pc a s s' := by
  cases pc with
  | idle =>
    cases a <;> simp only [advance, Option.some.injEq, Prod.mk.injEq, reduceCtorEq] at h
    case create env desc => exact h.2 ▸ effect_vmeCreateWindow _ _ env desc s
    case destroy intr n => exact h.2 ▸ effect_vmeDestroyWindow intr (.inl ⟨intr, rfl⟩) s
    case find => split at h <;> cases h <;> exact .same rfl
    case release intr desc force file =>
      have heff : Effect .idle (.release intr desc force file) s
          (releaseSection intr desc force file s).2 := effect_releaseSection rfl s
      split at h <;> rename_i he <;> rw [he] at heff <;> cases h <;> exact heff
    case close => exact .same h.2.symm
  | scanning mtch force file rest =>
    cases a <;> cases rest <;> simp only [advance, reduceCtorEq] at h
    · split at h <;> cases h <;> exact .same rfl
    · split at h
      · cases h
        exact .same rfl
      · split at h <;> cases h
        · exact effect_findInWindow rfl ‹_›
        · exact .same rfl
  | picking mtch file rest =>
    cases a <;> cases rest <;> simp only [advance, reduceCtorEq] at h
    · cases h
      exact .same rfl
    · split at h <;> cases h <;> exact .same rfl
  | creating mtch file i =>
    cases a <;> simp only [advance, reduceCtorEq] at h
    case next env =>
      have heff := effect_vmeCreateWindow (.creating mtch file i) (.next env) env.create
        (windowFor mtch i) s
      split at h <;> rename_i he <;> rw [he] at heff <;> cases h <;> exact heff
  | adding mtch file i =>
    cases a <;> simp only [advance, Option.some.injEq, Prod.mk.injEq, reduceCtorEq] at h
    exact h.2 ▸ effect_finishFind rfl rfl s
  | destroying n =>
    cases a <;> simp only [advance, Option.some.injEq, Prod.mk.injEq, reduceCtorEq] at h
    exact h.2 ▸ effect_vmeDestroyWindow _ (.inr rfl) s
  | closing file rest =>
    cases a <;> cases rest <;> simp only [advance, reduceCtorEq] at h
    · cases h
      exact .same rfl
    · split at h <;> cases h
      · exact .same rfl
      · exact effect_closeWindow rfl s

theorem World.step_eq_some {w w' : World} {c : ℕ} {a : Action} (h : w.step (c, a) = some w') :
    ∃ pc' s', advance (w.pc c) a w.bridge = some (pc', s') ∧ w' = ⟨s', update w.pc c pc'⟩ := by
  simp only [World.step, Option.map_eq_some_iff] at h
  obtain ⟨⟨pc', s'⟩, hadv, rfl⟩ := h
  exact ⟨pc', s', hadv, rfl⟩

theorem World.step_effect {w w' : World} {c : ℕ} {a : Action} (h : w.step (c, a) = some w') :
    Effect (w.pc c) a w.bridge w'.bridge := by
  obtain ⟨pc', s', hadv, rfl⟩ := World.step_eq_some h
  exact advance_effect hadv

end KernelModules.Vmebridge
