import KernelModules.Vmebridge.WindowCallers

/-!
# Accounting and ownership of mappings

Two results over every interleaving of the callers of `WindowCallers`.

* The user count of a window is the length of its mapping list, always
  (`counted_of_reach`).  A window that is not active is empty as long as nobody adds a
  mapping to a window destroyed since it was created: `__vme_find_mapping` calls
  `add_mapping` without the lock that function asks for (`accounted_of_reachUnder`).
* A mapping leaves its window through a release by its owner or by the kernel, through the
  closing of its file, or with its window; and a forced release goes on to destroy the window
  only when it has taken out the last mapping of any owner (`mapping_ownership`).
-/

namespace KernelModules.Vmebridge

open KernelModules.Lib

/-! ### The user count -/

/-- The user count is the number of mappings. -/
def Window.Counted (w : Window) : Prop := w.users = w.mappings.length

theorem Window.Counted.withMapping {w : Window} (h : w.Counted) (m : Mapping) :
    (w.withMapping m).Counted := by
  simp only [Window.Counted, Window.withMapping, List.length_append, List.length_singleton] at h ⊢
  omega

theorem Window.Counted.withoutMapping {w : Window} (h : w.Counted) {desc : VmeMapping}
    {file : Option FileId} (hany : w.mappings.any (Mapping.releasedBy desc file) = true) :
    (w.withoutMapping desc file).Counted := by
  obtain ⟨m, hm, hrel⟩ := List.any_eq_true.mp hany
  have hpos := List.length_pos_of_mem hm
  have hlen := List.length_eraseP_of_mem hm hrel
  simp only [Window.Counted, Window.withoutMapping] at h ⊢
  omega

theorem Window.Counted.withoutFile {w : Window} (h : w.Counted) (file : FileId) :
    (w.withoutFile file).Counted := by
  have hsplit := List.length_eq_length_filter_add (l := w.mappings)
    (fun m : Mapping => m.file == some file)
  simp only [Window.Counted, Window.withoutFile] at h ⊢
  omega

theorem Window.Counted.destroyed_empty {w : Window} (h : w.Counted) :
    w.destroyed.mappings = [] ∧ w.destroyed.users = 0 := by
  unfold Window.Counted at h
  simp only [Window.destroyed, Window.dropMappings]
  split
  · refine ⟨rfl, ?_⟩
    simp only
    omega
  · have hnil : w.mappings = [] := List.eq_nil_of_length_eq_zero (by omega)
    refine ⟨hnil, ?_⟩
    rw [h, hnil]
    rfl

theorem forall_setWindow {P : Window → Prop} {s : Bridge} (h : ∀ j, P (s.window j))
    {i : WindowIdx} {w : Window} (hw : P w) (j : WindowIdx) : P ((s.setWindow i w).window j) := by
  by_cases hj : j = i
  · rw [hj, Bridge.setWindow_window_self]
    exact hw
  · rw [Bridge.setWindow_window_ne s w hj]
    exact h j

theorem Effect.counted {pc : Pc} {a : Action} {s s' : Bridge} (heff : Effect pc a s s')
    (h : ∀ j, (s.window j).Counted) (j : WindowIdx) : (s'.window j).Counted := by
  cases heff with
  | same heq => exact heq ▸ h j
  | created i d regs _ heq =>
    rw [heq]
    refine forall_setWindow (s := s.setOtrans i regs) h ?_ j
    exact h i
  | destroyed i _ _ _ _ heq =>
    rw [heq]
    obtain ⟨hnil, hzero⟩ := (h i).destroyed_empty
    refine forall_setWindow h ?_ j
    rw [Window.Counted, hnil, hzero]
    rfl
  | found i _ _ _ _ _ _ heq =>
    rw [heq]
    exact forall_setWindow h ((h i).withMapping _) j
  | added i _ _ _ _ _ _ heq =>
    rw [heq]
    exact forall_setWindow h ((h i).withMapping _) j
  | released i _ _ _ _ _ hany _ heq =>
    rw [heq]
    exact forall_setWindow h ((h i).withoutMapping hany) j
  | closed i file _ _ _ heq =>
    rw [heq]
    exact forall_setWindow h ((h i).withoutFile file) j

theorem counted_of_reach {w : World} (h : callers.Reach w) (j : WindowIdx) :
    (w.bridge.window j).Counted := by
  refine System.Reach.invariant (S := callers) (P := fun w => ∀ j, (w.bridge.window j).Counted)
    ?_ ?_ h j
  · intro w hw j
    rw [hw.1]
    rfl
  · intro w l w' hw hstep j
    exact (World.step_effect hstep).counted hw j

/-! ### Windows that are not active -/

/-- A window that is not active carries no mapping. -/
def Window.Retired (w : Window) : Prop := w.active = false → w.mappings = []

/-- The accounting invariant of one window. -/
structure Window.Accounted (w : Window) : Prop where
  users : w.users = w.mappings.length
  inactive : w.active = false → w.users = 0 ∧ w.mappings = []

theorem Window.accounted_iff (w : Window) : w.Accounted ↔ w.Counted ∧ w.Retired := by
  constructor
  · rintro ⟨hu, hi⟩
    exact ⟨hu, fun h => (hi h).2⟩
  · rintro ⟨hc, hr⟩
    refine ⟨hc, fun h => ⟨?_, hr h⟩⟩
    rw [hc, hr h]
    rfl

/-- A mapping is added after a window creation only while that window is active. -/
def AddsToActive (w : World) (l : ℕ × Action) : Prop :=
  ∀ mtch file i env, w.pc l.1 = .adding mtch file i → l.2 = .next env → env.kzalloc = true →
    (w.bridge.window i).active = true

theorem Effect.retired {pc : Pc} {a : Action} {s s' : Bridge} (heff : Effect pc a s s')
    (hc : ∀ j, (s.window j).Counted) (h : ∀ j, (s.window j).Retired)
    (hadd : ∀ mtch file i env, pc = .adding mtch file i → a = .next env → env.kzalloc = true →
      (s.window i).active = true) (j : WindowIdx) : (s'.window j).Retired := by
  -- a window that stays active is retired whatever its list holds
  have hactive : ∀ {i : WindowIdx} {v : Window}, s' = s.setWindow i v → v.active = true →
      (s'.window j).Retired := by
    intro i v heq hact
    rw [heq]
    refine forall_setWindow h ?_ j
    intro hno
    rw [hact] at hno
    cases hno
  cases heff with
  | same heq => exact heq ▸ h j
  | created i d regs _ heq =>
    rw [heq]
    refine forall_setWindow (s := s.setOtrans i regs) h ?_ j
    intro hno
    cases hno
  | destroyed i _ _ _ _ heq =>
    rw [heq]
    exact forall_setWindow h (fun _ => (hc i).destroyed_empty.1) j
  | found i _ _ _ _ _ hact heq => exact hactive heq hact
  | added i mtch file env hpc ha halloc heq =>
    exact hactive heq (hadd mtch file i env hpc ha halloc)
  | released i _ _ _ _ _ _ hact heq => exact hactive heq hact
  | closed i file _ _ hact heq => exact hactive heq hact

theorem not_retired_of_adds {w w' : World} {c : ℕ} {mtch : VmeMapping} {file : Option FileId}
    {i : WindowIdx} {env : StepEnv} (hpc : w.pc c = .adding mtch file i)
    (halloc : env.kzalloc = true) (hact : (w.bridge.window i).active = false)
    (h : w.step (c, .next env) = some w') : ¬ (w'.bridge.window i).Retired := by
  obtain ⟨pc', s', hadv, rfl⟩ := World.step_eq_some h
  simp only [hpc, advance, finishFind, addMapping, halloc, if_true, Option.some.injEq,
    Prod.mk.injEq] at hadv
  obtain ⟨-, rfl⟩ := hadv
  intro hret
  have hnil := hret (by rw [Bridge.setWindow_window_self]; exact hact)
  rw [Bridge.setWindow_window_self] at hnil
  exact absurd hnil (by simp)

/-- A kernel that grants every section what it asks for. -/
def grantStep : StepEnv := ⟨false, true, ⟨false, some 0x80000000#32, 0x1000#64⟩⟩

/-- A find with force up to the point where its window is created and every lock is free:
eight windows looked at, the loop left, a window picked and created. -/
def findUpToAdd (c : ℕ) (file : FileId) : List (ℕ × Action) :=
  (c, .find (userRequest 0x20000 0x1000) true (some file))
    :: List.replicate 11 (c, .next grantStep)

/-- The ways a mapping can leave window `i`: a release by its owner or by the kernel, the
closing of its file, or the destruction of the window. -/
inductive RemovedBy (pc : Pc) (a : Action) (i : WindowIdx) (m : Mapping) : Prop
  | release (intr : Bool) (desc : VmeMapping) (force : Bool) (file : Option FileId)
      (h : a = .release intr desc force file) (hown : file = none ∨ file = m.file)
  | close (file : FileId) (rest : List WindowIdx) (h : pc = .closing file (i :: rest))
      (hown : m.file = some file)
  | destroy (n : ℤ) (hn : windowIndex n = some i)
      (h : (∃ intr, a = .destroy intr n) ∨ pc = .destroying n)

/-- The way a mapping gets into window `i`: a find by its owner. -/
inductive AddedBy (pc : Pc) (i : WindowIdx) (m : Mapping) : Prop
  | found (mtch : VmeMapping) (force : Bool) (rest : List WindowIdx)
      (h : pc = .scanning mtch force m.file (i :: rest))
  | created (mtch : VmeMapping) (h : pc = .adding mtch m.file i)

theorem count_eraseP_of_not {α : Type*} [DecidableEq α] {p : α → Bool} {x : α} (h : p x = false)
    (l : List α) : (l.eraseP p).count x = l.count x := by
  induction l with
  | nil => rfl
  | cons y ys ih =>
    rw [List.eraseP_cons]
    cases hy : p y
    · simp only [cond_false, List.count_cons, ih]
    · have hne : y ≠ x := by
        rintro rfl
        rw [h] at hy
        cases hy
      simp only [cond_true, List.count_cons_of_ne hne]

theorem Mapping.releasedBy_owner {desc : VmeMapping} {file : Option FileId} {m : Mapping}
    (h : m.releasedBy desc file = true) : file = none ∨ file = m.file := by
  simp only [Mapping.releasedBy, Bool.and_eq_true, Bool.or_eq_true, beq_iff_eq] at h
  exact h.2.imp id Eq.symm

theorem count_setWindow_ne {s : Bridge} {i j : WindowIdx} {w : Window} {m : Mapping}
    (h : ((s.setWindow i w).window j).mappings.count m ≠ (s.window j).mappings.count m) :
    j = i ∧ w.mappings.count m ≠ (s.window i).mappings.count m := by
  by_cases hj : j = i
  · subst hj
    rw [Bridge.setWindow_window_self] at h
    exact ⟨rfl, h⟩
  · rw [Bridge.setWindow_window_ne s w hj] at h
    exact absurd rfl h

theorem Effect.count_cases {pc : Pc} {a : Action} {s s' : Bridge} (heff : Effect pc a s s')
    (j : WindowIdx) (m : Mapping) :
    (s'.window j).mappings.count m = (s.window j).mappings.count m ∨
    ((s.window j).mappings.count m < (s'.window j).mappings.count m ∧ AddedBy pc j m) ∨
    ((s'.window j).mappings.count m < (s.window j).mappings.count m ∧ RemovedBy pc a j m) := by
  by_cases hsame : (s'.window j).mappings.count m = (s.window j).mappings.count m
  · exact .inl hsame
  right
  -- adding at the end raises the count of the new mapping only
  have hadd : ∀ (i : WindowIdx) (m' : Mapping),
      s' = s.setWindow i ((s.window i).withMapping m') → j = i ∧ m' = m ∧
      (s.window j).mappings.count m < (s'.window j).mappings.count m := by
    rintro i m' rfl
    obtain ⟨rfl, hne⟩ := count_setWindow_ne hsame
    have hm : m' = m := by
      by_contra hmm
      apply hne
      simp [Window.withMapping, List.count_cons_of_ne hmm]
    refine ⟨rfl, hm, ?_⟩
    simp [Window.withMapping, hm]
  -- a sublist does not raise any count
  have hsub : ∀ {i : WindowIdx} {v : Window}, s'.window = (s.setWindow i v).window →
      v.mappings.Sublist (s.window i).mappings → j = i ∧
      v.mappings.count m ≠ (s.window i).mappings.count m ∧
      (s'.window j).mappings.count m < (s.window j).mappings.count m := by
    intro i v heq hl
    rw [heq] at hsame ⊢
    obtain ⟨rfl, hne⟩ := count_setWindow_ne hsame
    have hle := hl.count_le m
    refine ⟨rfl, hne, ?_⟩
    rw [Bridge.setWindow_window_self]
    omega
  cases heff with
  | same heq => exact absurd (by rw [heq]) hsame
  | created i d regs _ heq =>
    have hwin : s'.window
        = (s.setWindow i { s.window i with desc := d, active := true }).window := by
      rw [heq]
      rfl
    exact absurd rfl (hsub hwin (List.Sublist.refl _)).2.1
  | destroyed i n hn hwho _ heq =>
    obtain ⟨rfl, -, hlt⟩ := hsub heq (by
      simp only [Window.destroyed, Window.dropMappings]
      split
      · exact List.nil_sublist _
      · exact List.Sublist.refl _)
    exact .inr ⟨hlt, .destroy n hn hwho⟩
  | found i mtch force file rest hpc _ heq =>
    obtain ⟨rfl, rfl, hlt⟩ := hadd i _ heq
    exact .inl ⟨hlt, .found mtch force rest hpc⟩
  | added i mtch file env hpc _ _ heq =>
    obtain ⟨rfl, rfl, hlt⟩ := hadd i _ heq
    exact .inl ⟨hlt, .created mtch hpc⟩
  | released i intr desc force file ha _ _ heq =>
    obtain ⟨rfl, hne, hlt⟩ := hsub (congrArg Bridge.window heq) List.eraseP_sublist
    have hrel : m.releasedBy desc file = true := by
      by_contra hrel
      exact hne (count_eraseP_of_not (by simpa using hrel) _)
    exact .inr ⟨hlt, .release intr desc force file ha (Mapping.releasedBy_owner hrel)⟩
  | closed i file rest hpc _ heq =>
    obtain ⟨rfl, hne, hlt⟩ := hsub (congrArg Bridge.window heq) List.filter_sublist
    refine .inr ⟨hlt, .close file rest hpc ?_⟩
    by_contra hown
    exact hne (List.count_filter (by simpa using hown))

theorem advance_destroying {a : Action} {s s' : Bridge} {n : ℤ}
    (h : advance .idle a s = some (.destroying n, s')) :
    ∃ i, windowIndex n = some i ∧ (s'.window i).users = 0 := by
  cases a <;> simp only [advance, Option.some.injEq, Prod.mk.injEq, reduceCtorEq, false_and] at h
  case find => split at h <;> cases h
  case release intr desc force file =>
    obtain ⟨e, he⟩ | ⟨i, hi, -, -, hs, hnext⟩ := releaseSection_cases intr desc force file s
    · rw [he] at h
      cases h
    · split at h <;> rename_i he <;> cases h
      rw [he] at hs hnext
      obtain ⟨husers, -, hdes⟩ | hdone := hnext
      · cases hdes
        refine ⟨i, hi, ?_⟩
        simp only at hs
        rw [hs, Bridge.setWindow_window_self]
        exact husers
      · cases hdone

/-- **Ownership.**  In every interleaving and for every section: a mapping is listed only by
a find of its owner; it leaves its window only through a release by its owner or by the
kernel, the closing of its file or the destruction of the window; a release by any other file
leaves it; and a forced release goes on to destroy a window only when no mapping of any
owner is left on it. -/
theorem mapping_ownership {w w' : World} {c : ℕ} {a : Action} (hreach : callers.Reach w)
    (hstep : callers.step w (c, a) w') :
    (∀ i m, (w.bridge.window i).mappings.count m < (w'.bridge.window i).mappings.count m →
      AddedBy (w.pc c) i m) ∧
    (∀ i m, (w'.bridge.window i).mappings.count m < (w.bridge.window i).mappings.count m →
      RemovedBy (w.pc c) a i m) ∧
    (∀ intr desc force x, a = .release intr desc force (some x) → ∀ i m, m.file ≠ some x →
      (w'.bridge.window i).mappings.count m = (w.bridge.window i).mappings.count m) ∧
    (∀ n, w.pc c = .idle → w'.pc c = .destroying n →
      ∃ i, windowIndex n = some i ∧ (w'.bridge.window i).mappings = []) := by
  have hcount := (World.step_effect hstep).count_cases
  obtain ⟨pc', s', hadv, hw'⟩ := World.step_eq_some hstep
  refine ⟨fun i m hlt => ?_, fun i m hlt => ?_, ?_, ?_⟩
  · obtain h | ⟨-, h⟩ | ⟨h, -⟩ := hcount i m
    · omega
    · exact h
    · omega
  · obtain h | ⟨h, -⟩ | ⟨-, h⟩ := hcount i m
    · omega
    · omega
    · exact h
  · rintro intr desc force x rfl i m hown
    -- only an idle caller releases, so no other cause is left
    have hidle : w.pc c = .idle := by
      cases hpc : w.pc c with
      | idle => rfl
      | scanning _ _ _ rest => cases rest <;> simp [hpc, advance] at hadv
      | picking _ _ rest => cases rest <;> simp [hpc, advance] at hadv
      | creating => simp [hpc, advance] at hadv
      | adding => simp [hpc, advance] at hadv
      | destroying => simp [hpc, advance] at hadv
      | closing _ rest => cases rest <;> simp [hpc, advance] at hadv
    obtain h | ⟨-, h⟩ | ⟨-, h⟩ := hcount i m
    · exact h
    · rw [hidle] at h
      rcases h with ⟨_, _, _, h⟩ | ⟨_, h⟩ <;> cases h
    · rw [hidle] at h
      rcases h with ⟨_, _, _, _, h, hx⟩ | ⟨_, _, h⟩ | ⟨_, _, ⟨_, h⟩ | h⟩ <;> cases h
      obtain hx | hx := hx
      · cases hx
      · exact absurd hx.symm hown
  · intro n hidle hdes
    have hreach' : callers.Reach w' := hreach.step hstep
    rw [hidle] at hadv
    subst hw'
    simp only [Function.update_self] at hdes
    obtain ⟨i, hi, husers⟩ := advance_destroying (hdes ▸ hadv)
    refine ⟨i, hi, ?_⟩
    have hc := counted_of_reach hreach' i
    simp only [Window.Counted, husers] at hc
    exact List.eq_nil_of_length_eq_zero (by simpa using hc.symm)

/-- The world in which file 7 has a mapping on window 0. -/
def worldWithMapping : World :=
  (System.runFun World.step World.initial (findUpToAdd 0 7 ++ [(0, .next grantStep)])).getD .initial

theorem worldWithMapping_reach : callers.Reach worldWithMapping :=
  callers_reach_of_run (findUpToAdd 0 7 ++ [(0, .next grantStep)]) rfl

/-- A release of that mapping. -/
def releaseMapping (force : Bool) (file : Option FileId) : Action :=
  .release false { userRequest 0x20000 0x1000 with kernelVa := 0x1000 } force file

/-- File 7 gives its only mapping back with force and leaves an empty window. -/
theorem mapping_ownership_release :
    ∃ w', callers.step worldWithMapping (0, releaseMapping true (some 7)) w' ∧
      w'.pc 0 = .destroying 0 ∧
      ∃ i, windowIndex 0 = some i ∧ (w'.bridge.window i).mappings = [] := by
  have hstep : callers.step worldWithMapping (0, releaseMapping true (some 7))
      ((worldWithMapping.step (0, releaseMapping true (some 7))).getD .initial) := rfl
  exact ⟨_, hstep, rfl,
    (mapping_ownership worldWithMapping_reach hstep).2.2.2 0 (by rfl) (by rfl)⟩

/-- The kernel takes out the mapping of file 7. -/
theorem mapping_removed_by_kernel :
    ¬ ∀ (w w' : World) (c : ℕ) (intr : Bool) (desc : VmeMapping) (force : Bool)
      (file : Option FileId) (i : WindowIdx) (m : Mapping), callers.Reach w →
      callers.step w (c, .release intr desc force file) w' → m.file ≠ file →
      (w'.bridge.window i).mappings.count m = (w.bridge.window i).mappings.count m := by
  intro h
  have hstep : callers.step worldWithMapping (1, releaseMapping false none)
      ((worldWithMapping.step (1, releaseMapping false none)).getD .initial) := rfl
  have hcount := h _ _ 1 _ _ _ _ 0
    ⟨{ userRequest 0x20000 0x1000 with kernelVa := 0x1000, pciAddrl := 0x80000000 }, some 7⟩
    worldWithMapping_reach hstep (by decide)
  revert hcount
  decide

end KernelModules.Vmebridge
