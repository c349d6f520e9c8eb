import KernelModules.Ctr.Effects

/-!
# The lifetime of CTIM objects

A CTIM object is global, the triggers that name it are in the tables of the modules.  Destroying
an object, or changing its frame, is meant to be refused as long as a trigger uses it.  The driver
looks for such a trigger in the software copy of one module's table, that of the module the client
works with, and at every slot of it, empty or not.

* `changeCtimFrame` is the ioctl the driver's model still lacks; `objectDriver` has it;
* `CtimLifetime` is what the two ioctls are meant to do, and `ctim_lifetime` says when they do:
  in every reachable state, and along the runs that `ObjectCall.Tidy` describes;
* `released` and `dangling` are two runs that end in a refusal without a user and in a user without
  an object.
-/

namespace KernelModules.Ctr

open Function KernelModules.Lib

/-! ### Changing a frame -/

/-- The loop of `CHANGE_CTIM_FRAME`: the first object with the number gets the frame. -/
def changeFrame (ctim : CtimBinding) : List CtimBinding → List CtimBinding
  | [] => []
  | o :: l =>
    if ctim.eqpNum = o.eqpNum then { o with frame := ctim.frame } :: l
    else o :: changeFrame ctim l

/-- `CHANGE_CTIM_FRAME`, for a client that works with module `midx`. -/
def changeCtimFrame (s : WorkingArea) (midx : ℕ) (ctim : CtimBinding) : Outcome :=
  if s.ctim.any fun o => ctim.eqpNum = o.eqpNum then
    if ∃ j < ramTableSize, ((s.moduleContexts midx).trigs j).ctim = ctim.eqpNum then s.fail .EBUSY
    else { s with ctim := changeFrame ctim s.ctim }.ok
  else s.fail .EINVAL

/-- The tests at the start of `CtrDrvrIoctl` on minor device `cnum + 1`: the client behind it. -/
def WorkingArea.enter (s : WorkingArea) (cnum : ℕ) : Except Errno ClientContext :=
  if h : cnum < 16 then
    let ccon := s.clientContexts ⟨cnum, h⟩
    if ccon.inUse = false then .error .EBADF
    else if (s.moduleContexts ccon.moduleIndex).inUse = false then .error .ENODEV
    else .ok ccon
  else .error .ENODEV

/-- A call of the driver's model, or the ioctl it lacks. -/
inductive ObjectCall
  | call (c : Call)
  | changeCtimFrame (cnum : ℕ) (ctim : CtimBinding)

/-- The outcome of a call. -/
def ObjectCall.run (s : WorkingArea) : ObjectCall → Outcome
  | .call c => c.run s
  | .changeCtimFrame cnum ctim =>
    match s.enter cnum with
    | .error e => s.fail e
    | .ok ccon =>
      if (s.moduleContexts ccon.moduleIndex).upLock then s.fail .EINVAL
      else Ctr.changeCtimFrame s ccon.moduleIndex ctim

/-- `DESTROY_CTIM_OBJECT`. -/
def ObjectCall.destroyCtim (cnum : ℕ) (ctim : CtimBinding) : ObjectCall :=
  .call (.ioctl cnum (.destroyCtim ctim))

/-- The state after a call. -/
def WorkingArea.objectStep (s : WorkingArea) (c : ObjectCall) : Option WorkingArea :=
  (c.run s).map Prod.snd

theorem objectStep_call (s : WorkingArea) (c : Call) : s.objectStep (.call c) = s.step c := rfl

/-- The driver with both ioctls: any calls by any clients in any order. -/
def objectDriver : System WorkingArea ObjectCall :=
  System.ofFun WorkingArea.Installed WorkingArea.objectStep

/-- A call came back with `OK`. -/
def Outcome.succeeded : Outcome → Bool
  | some (.ok _, _) => true
  | _ => false

/-! ### Who uses an object -/

/-- The object is in the list. -/
def WorkingArea.Lists (s : WorkingArea) (num : U32) : Prop := ∃ o ∈ s.ctim, o.eqpNum = num

/-- A slot in use names the object. -/
def Uses (m : ModuleContext) (num : U32) : Prop :=
  ∃ i < ramTableSize, m.eqpNum i ≠ 0 ∧ (m.trigs i).ctim = num

/-- An empty slot still names the object. -/
def Stale (m : ModuleContext) (num : U32) : Prop :=
  ∃ i < ramTableSize, m.eqpNum i = 0 ∧ (m.trigs i).ctim = num

/-- A slot in use on an installed module names the object. -/
def WorkingArea.Used (s : WorkingArea) (num : U32) : Prop :=
  ∃ j < s.modules, Uses (s.moduleContexts j) num

/-- **What the ioctls are meant to do.**  The numbers of the objects are distinct, and an object is
destroyed, or its frame changed, exactly when no trigger in use names it. -/
structure CtimLifetime (s : WorkingArea) : Prop where
  unique : (s.ctim.map CtimBinding.eqpNum).Nodup
  destroy : ∀ cnum ctim, s.Serves cnum → s.Lists ctim.eqpNum →
    (((ObjectCall.destroyCtim cnum ctim).run s).succeeded = true ↔ ¬ s.Used ctim.eqpNum)
  change : ∀ cnum ctim, s.Serves cnum → s.Lists ctim.eqpNum →
    (((ObjectCall.changeCtimFrame cnum ctim).run s).succeeded = true ↔ ¬ s.Used ctim.eqpNum)

/-- The table of module `midx` shows whether the object is used: an empty slot names it only if a
slot in use does somewhere, and if one does then this table has it too. -/
structure WorkingArea.Sees (s : WorkingArea) (midx : ℕ) (num : U32) : Prop where
  stale : Stale (s.moduleContexts midx) num → s.Used num
  used : s.Used num → Uses (s.moduleContexts midx) num ∨ Stale (s.moduleContexts midx) num

theorem named_iff (m : ModuleContext) (num : U32) :
    (∃ j < ramTableSize, (m.trigs j).ctim = num) ↔ Uses m num ∨ Stale m num := by
  constructor
  · rintro ⟨i, hi, hctim⟩
    by_cases hfree : m.eqpNum i = 0
    · exact .inr ⟨i, hi, hfree, hctim⟩
    · exact .inl ⟨i, hi, hfree, hctim⟩
  · rintro (⟨i, hi, -, hctim⟩ | ⟨i, hi, -, hctim⟩)
    · exact ⟨i, hi, hctim⟩
    · exact ⟨i, hi, hctim⟩

section Served

variable {s : WorkingArea} {cnum : ℕ} {ctim : CtimBinding}

theorem WorkingArea.Lists.any (h : s.Lists ctim.eqpNum) :
    (s.ctim.any fun o => ctim.eqpNum = o.eqpNum) = true := by
  obtain ⟨o, ho, hnum⟩ := h
  rw [List.any_eq_true]
  exact ⟨o, ho, by simp [hnum]⟩

theorem WorkingArea.Serves.enter (h : s.Serves cnum) :
    ∃ ccon, s.enter cnum = .ok ccon ∧ ccon.moduleIndex = s.clientModule cnum
      ∧ (s.moduleContexts (s.clientModule cnum)).inUse = true
      ∧ (s.moduleContexts (s.clientModule cnum)).upLock = false := by
  obtain ⟨hcnum, hopen, hused, hlock⟩ := h
  refine ⟨s.clientContexts ⟨cnum, hcnum⟩, ?_, ?_, ?_, ?_⟩
  · simp only [WorkingArea.enter, dif_pos hcnum, hopen, hused, Bool.true_eq_false, if_false]
  all_goals simp only [WorkingArea.clientModule, dif_pos hcnum]
  · exact hused
  · exact hlock

theorem destroyCtim_succeeded (h : s.Serves cnum) (hl : s.Lists ctim.eqpNum) :
    ((ObjectCall.destroyCtim cnum ctim).run s).succeeded = true ↔
      ¬ (Uses (s.moduleContexts (s.clientModule cnum)) ctim.eqpNum
        ∨ Stale (s.moduleContexts (s.clientModule cnum)) ctim.eqpNum) := by
  obtain ⟨hcnum, hopen, hused, hlock⟩ := h
  have hmod : s.clientModule cnum = (s.clientContexts ⟨cnum, hcnum⟩).moduleIndex := by
    simp only [WorkingArea.clientModule, dif_pos hcnum]
  rw [← named_iff, hmod]
  simp only [ObjectCall.destroyCtim, ObjectCall.run, Call.run, ctrDrvrIoctl, dif_pos hcnum, hopen,
    hused, decodeIoctl, hlock, guardedIoctl, Ctr.destroyCtim, hl.any, Bool.true_eq_false,
    Bool.false_eq_true, if_false, if_true]
  split
  · rename_i hnamed
    simp only [WorkingArea.fail, Outcome.succeeded, Bool.false_eq_true, false_iff, not_not]
    exact hnamed
  · rename_i hnamed
    simp only [WorkingArea.ok, Outcome.succeeded, true_iff]
    exact hnamed

theorem changeCtimFrame_succeeded (h : s.Serves cnum) (hl : s.Lists ctim.eqpNum) :
    ((ObjectCall.changeCtimFrame cnum ctim).run s).succeeded = true ↔
      ¬ (Uses (s.moduleContexts (s.clientModule cnum)) ctim.eqpNum
        ∨ Stale (s.moduleContexts (s.clientModule cnum)) ctim.eqpNum) := by
  obtain ⟨ccon, henter, hmod, -, hlock⟩ := h.enter
  rw [← named_iff]
  simp only [ObjectCall.run, henter, hmod, hlock, Ctr.changeCtimFrame, hl.any, Bool.false_eq_true,
    if_false, if_true]
  split
  · rename_i hnamed
    simp only [WorkingArea.fail, Outcome.succeeded, Bool.false_eq_true, false_iff, not_not]
    exact hnamed
  · rename_i hnamed
    simp only [WorkingArea.ok, Outcome.succeeded, true_iff]
    exact hnamed

theorem named_right_iff {midx : ℕ} {num : U32} (hmod : midx < s.modules) :
    ((¬ (Uses (s.moduleContexts midx) num ∨ Stale (s.moduleContexts midx) num) ↔ ¬ s.Used num)
      ↔ s.Sees midx num) := by
  rw [not_iff_not]
  constructor
  · intro h
    exact ⟨fun hstale => h.mp (.inr hstale), h.mpr⟩
  · intro h
    refine ⟨?_, h.used⟩
    rintro (huses | hstale)
    · exact ⟨midx, hmod, huses⟩
    · exact h.stale hstale

end Served

/-! ### The list of objects -/

theorem map_eqpNum_changeFrame (ctim : CtimBinding) (l : List CtimBinding) :
    (changeFrame ctim l).map CtimBinding.eqpNum = l.map CtimBinding.eqpNum := by
  induction l with
  | nil => rfl
  | cons o l ih =>
    rw [changeFrame]
    split
    · rfl
    · rw [List.map_cons, List.map_cons, ih]

/-- What a call can do to the list, as far as the numbers go. -/
inductive ListEffect (s s' : WorkingArea) : ObjectCall → Prop
  | same {c : ObjectCall} (h : s'.ctim.map CtimBinding.eqpNum = s.ctim.map CtimBinding.eqpNum) :
      ListEffect s s' c
  | created {cnum : ℕ} {ctim : CtimBinding} (hnew : ∀ o ∈ s.ctim, ctim.eqpNum ≠ o.eqpNum)
      (h : s'.ctim = s.ctim ++ [ctim]) : ListEffect s s' (.call (.ioctl cnum (.createCtim ctim)))
  | destroyed {c : ObjectCall} {p : CtimBinding → Bool} (h : s'.ctim = removeFirst p s.ctim) :
      ListEffect s s' c

/-! ### Installed modules -/

section InUse

variable {m m' : ModuleContext} {i : ℕ} {eqpNum cmsk : U32}

theorem connectSlot_inUse {hmsk : U32} (h : connectSlot m i cmsk hmsk = some m') :
    m'.inUse = m.inUse := by
  unfold connectSlot at h
  split at h
  · cases h
    rfl
  · cases h

theorem newCtimInstance_inUse {frame : U32}
    (h : newCtimInstance m i eqpNum frame cmsk = some m') : m'.inUse = m.inUse := by
  unfold newCtimInstance at h
  split at h
  · cases h
    rfl
  · cases h

theorem connectPtim_inUse {count : ℕ} (h : connectPtim m eqpNum cmsk = some (count, m')) :
    m'.inUse = m.inUse := by
  refine loop_invariant (P := fun _ (t : ℕ × ModuleContext) => t.2.inUse = m.inUse) h rfl ?_
  rintro i - ⟨n, t⟩ ⟨n', t'⟩ ht hs
  dsimp only at ht hs ⊢
  split at hs
  · simp only [Option.map_eq_some_iff, Prod.mk.injEq] at hs
    obtain ⟨u, hu, -, rfl⟩ := hs
    rw [connectSlot_inUse hu, ht]
  · cases hs
    exact ht

theorem connectHard_inUse {count : ℕ} (h : connectHard m eqpNum cmsk = some (count, m')) :
    m'.inUse = m.inUse := by
  refine loop_invariant (P := fun _ (t : ℕ × ModuleContext) => t.2.inUse = m.inUse) h rfl ?_
  rintro i - ⟨n, t⟩ ⟨n', t'⟩ ht hs
  dsimp only at ht hs ⊢
  split at hs
  · cases hs
    exact ht
  · cases hs
    exact ht

theorem disableInterrupts_inUse {clss : ConnectionClass}
    (h : disableInterrupts m i clss cmsk = some m') : m'.inUse = m.inUse := by
  rw [(disableInterrupts_spec h).1]

theorem disConnectTrigger_inUse {clss : ConnectionClass}
    (h : disConnectTrigger m i clss cmsk = some m') : m'.inUse = m.inUse := by
  unfold disConnectTrigger at h
  dsimp only at h
  split at h
  · split at h
    · simp only [Option.bind_eq_some_iff] at h
      obtain ⟨t, ht, h⟩ := h
      have hsame := disableInterrupts_inUse ht
      split at h
      · split at h
        · cases h
          exact hsame
        · cases h
          exact hsame
      · cases h
    · cases h
      rfl
  · cases h
    rfl

theorem disConnectHard_inUse (h : disConnectHard m i cmsk = some m') : m'.inUse = m.inUse := by
  unfold disConnectHard at h
  dsimp only at h
  split at h
  · split at h
    · split at h
      · have hsame := disableInterrupts_inUse h
        exact hsame
      · cases h
        rfl
    · cases h
      rfl
  · split at h
    · cases h
      rfl
    · cases h

theorem disConnectOne_inUse {clss : ConnectionClass} (h : disConnectOne m i clss cmsk = some m') :
    m'.inUse = m.inUse := by
  cases clss with
  | ctim => exact disConnectTrigger_inUse h
  | ptim => exact disConnectTrigger_inUse h
  | hard => exact disConnectHard_inUse h
  | other v =>
    cases h
    rfl

theorem loop_disConnectOne_inUse {n : ℕ} {p : ℕ → ModuleContext → Prop}
    [∀ i m, Decidable (p i m)] {clss : ℕ → ModuleContext → ConnectionClass}
    (h : loop (fun i m => if p i m then disConnectOne m i (clss i m) cmsk else some m) n m
      = some m') : m'.inUse = m.inUse := by
  refine loop_invariant (P := fun _ t => t.inUse = m.inUse) h rfl ?_
  rintro i - t t' ht hs
  split at hs
  · rw [disConnectOne_inUse hs, ht]
  · cases hs
    exact ht

theorem disConnectSources_inUse (h : disConnectSources m cmsk = some m') : m'.inUse = m.inUse := by
  refine loop_invariant (P := fun _ t => t.inUse = m.inUse) h rfl ?_
  rintro i - t t' ht hs
  rw [disConnectOne_inUse hs, ht]

theorem writeAction_inUse {act : Action} (h : writeAction m i act = some m') :
    m'.inUse = m.inUse := by
  unfold writeAction at h
  split at h
  · cases h
    rfl
  · cases h

theorem takeSlots_inUse {start size : ℕ} {ptim : PtimBinding}
    (h : loop (fun j m => some (takeSlot m (start + j) ptim)) size m = some m') :
    m'.inUse = m.inUse := by
  rw [(takeSlots_taken h).rest]

theorem freeSlots_inUse {n : ℕ} (h : loop (fun i m =>
    if m.eqpNum i = eqpNum ∧ m.eqpClass i = .ptim then freeSlot m i else some m) n m = some m') :
    m'.inUse = m.inUse := by
  refine loop_invariant (P := fun _ t => t.inUse = m.inUse) h rfl ?_
  rintro i - t t' ht hs
  split at hs
  · unfold freeSlot at hs
    split at hs
    · cases hs
      exact ht
    · cases hs
  · cases hs
    exact ht

end InUse

/-- The objects are as they were, and so is which modules are installed. -/
structure SameObjects (s s' : WorkingArea) : Prop where
  ctim : s'.ctim = s.ctim
  modules : s'.modules = s.modules
  inUse : ∀ j, (s'.moduleContexts j).inUse = (s.moduleContexts j).inUse

section Lists

variable {s s' : WorkingArea} {r : Except Errno Unit}

theorem SameObjects.refl (s : WorkingArea) : SameObjects s s := ⟨rfl, rfl, fun _ => rfl⟩

theorem SameObjects.of_fail {e : Errno} (h : s.fail e = some (r, s')) : SameObjects s s' := by
  cases h
  exact .refl s

theorem SameObjects.setModule {midx : ℕ} {m' : ModuleContext}
    (h : m'.inUse = (s.moduleContexts midx).inUse) : SameObjects s (s.setModule midx m') := by
  refine ⟨rfl, rfl, fun j => ?_⟩
  by_cases hj : j = midx
  · subst hj
    simpa only [WorkingArea.setModule, update_self] using h
  · simp only [WorkingArea.setModule, update_of_ne hj]

theorem SameObjects.finishConnect {midx count : ℕ} {m : ModuleContext}
    (hm : m.inUse = (s.moduleContexts midx).inUse)
    (h : Ctr.finishConnect s midx count m = some (r, s')) : SameObjects s s' := by
  obtain ⟨hw, rfl⟩ := finishConnect_spec h
  refine SameObjects.setModule ?_
  exact hm

theorem connectCtim_objects {midx : ℕ} {eqpNum cmsk : U32}
    (h : connectCtim s midx eqpNum cmsk = some (r, s')) : SameObjects s s' := by
  unfold connectCtim at h
  dsimp only at h
  split at h
  · simp only [Option.bind_eq_some_iff] at h
    obtain ⟨m, hm, h⟩ := h
    exact .finishConnect (connectSlot_inUse hm) h
  · split at h
    · exact .of_fail h
    · split at h
      · split at h
        · exact .of_fail h
        · simp only [Option.bind_eq_some_iff] at h
          obtain ⟨m, hm, h⟩ := h
          exact .finishConnect (newCtimInstance_inUse hm) h
      · exact .of_fail h

theorem connect_objects {conx : Connection} {ccon : ClientContext}
    (h : connect s conx ccon = some (r, s')) : SameObjects s s' := by
  unfold connect at h
  dsimp only at h
  split at h
  · split at h
    · exact .of_fail h
    · simp only [Option.bind_eq_some_iff, Prod.exists] at h
      obtain ⟨count, m, hm, h⟩ := h
      exact .finishConnect (connectPtim_inUse hm) h
  · exact connectCtim_objects h
  · simp only [Option.bind_eq_some_iff, Prod.exists] at h
    obtain ⟨count, m, hm, h⟩ := h
    exact .finishConnect (connectHard_inUse hm) h

theorem disConnect_objects {conx : Connection} {ccon : ClientContext}
    (h : disConnect s conx ccon = some (r, s')) : SameObjects s s' := by
  unfold disConnect at h
  split at h
  · simp only [Option.bind_eq_some_iff] at h
    obtain ⟨m, hm, h⟩ := h
    cases h
    refine .setModule ?_
    split at hm
    · exact loop_disConnectOne_inUse hm
    · exact disConnectSources_inUse hm
  · cases h

theorem disConnectAll_objects {ccon : ClientContext} (h : disConnectAll s ccon = some (r, s')) :
    SameObjects s s' := by
  unfold disConnectAll at h
  simp only [Option.bind_eq_some_iff] at h
  obtain ⟨t, hloop, h⟩ := h
  cases h
  refine loop_invariant (P := fun _ t => SameObjects s t) hloop (.refl s) ?_
  rintro midx - t t' ht hs
  simp only [Option.bind_eq_some_iff, Option.map_eq_some_iff] at hs
  obtain ⟨m₁, h₁, m₂, h₂, rfl⟩ := hs
  have hm : m₂.inUse = (t.moduleContexts midx).inUse := by
    rw [disConnectSources_inUse h₂, loop_disConnectOne_inUse h₁]
  have hset := SameObjects.setModule hm
  exact ⟨hset.ctim.trans ht.ctim, hset.modules.trans ht.modules,
    fun j => (hset.inUse j).trans (ht.inUse j)⟩

theorem setAction_objects {midx : ℕ} {act : Action} (h : setAction s midx act = some (r, s')) :
    SameObjects s s' := by
  have hwrite : ∀ m : ModuleContext, m.inUse = (s.moduleContexts midx).inUse →
      ((writeAction m (act.triggerNumber.toNat - 1) act).bind fun m => (s.setModule midx m).ok)
        = some (r, s') → SameObjects s s' := by
    intro m hsame hm
    simp only [Option.bind_eq_some_iff] at hm
    obtain ⟨m', hm', hm⟩ := hm
    cases hm
    exact .setModule ((writeAction_inUse hm').trans hsame)
  unfold setAction at h
  dsimp only at h
  split at h
  · split at h
    · exact .of_fail h
    · split at h
      · split at h
        · exact .of_fail h
        · split at h
          · exact .of_fail h
          · split at h
            · exact .of_fail h
            · exact hwrite _ rfl h
      · refine hwrite _ ?_ h
        rfl
  · exact .of_fail h

theorem createPtim_objects {ptim : PtimBinding} (h : createPtim s ptim = some (r, s')) :
    SameObjects s s' := by
  unfold createPtim at h
  dsimp only at h
  split at h
  · exact .of_fail h
  · split at h
    · exact .of_fail h
    · split at h
      · split at h
        · exact .of_fail h
        · simp only [Option.bind_eq_some_iff] at h
          obtain ⟨m, hm, h⟩ := h
          cases h
          have hset := SameObjects.setModule (takeSlots_inUse hm)
          exact ⟨rfl, rfl, hset.inUse⟩
      · exact .of_fail h

theorem destroyPtim_objects {ptim : PtimBinding} (h : destroyPtim s ptim = some (r, s')) :
    SameObjects s s' := by
  unfold destroyPtim at h
  dsimp only at h
  split at h
  · split at h
    · exact .of_fail h
    · split at h
      · simp only [Option.bind_eq_some_iff] at h
        obtain ⟨m, hm, h⟩ := h
        cases h
        have hset := SameObjects.setModule (freeSlots_inUse hm)
        exact ⟨rfl, rfl, hset.inUse⟩
      · exact .of_fail h
  · exact .of_fail h

/-- What a call can do to the objects: something to the list, and nothing to which modules are
installed. -/
structure ObjectEffect (s s' : WorkingArea) (c : ObjectCall) : Prop where
  list : ListEffect s s' c
  modules : s'.modules = s.modules
  inUse : ∀ j, (s'.moduleContexts j).inUse = (s.moduleContexts j).inUse

theorem SameObjects.effect {c : ObjectCall} (h : SameObjects s s') : ObjectEffect s s' c :=
  ⟨.same (by rw [h.ctim]), h.modules, h.inUse⟩

theorem guardedIoctl_object {cnum : ℕ} {ccon : ClientContext} {cm : Ioctl}
    (h : guardedIoctl s ccon cm = some (r, s')) : ObjectEffect s s' (.call (.ioctl cnum cm)) := by
  cases cm with
  | setModule lav => exact (SameObjects.of_fail h).effect
  | lock => exact (SameObjects.of_fail h).effect
  | unlock pw => exact (SameObjects.of_fail h).effect
  | connect conx => exact (connect_objects h).effect
  | disconnect conx =>
    simp only [guardedIoctl] at h
    split at h
    · exact (disConnect_objects h).effect
    · exact (disConnectAll_objects h).effect
  | setAction act => exact (setAction_objects h).effect
  | createCtim ctim =>
    simp only [guardedIoctl, createCtim] at h
    split at h
    · exact (SameObjects.of_fail h).effect
    · rename_i hnew
      split at h
      · cases h
        exact ⟨.created (by simpa using hnew) rfl, rfl, fun _ => rfl⟩
      · exact (SameObjects.of_fail h).effect
  | destroyCtim ctim =>
    simp only [guardedIoctl, destroyCtim] at h
    split at h
    · split at h
      · exact (SameObjects.of_fail h).effect
      · cases h
        exact ⟨.destroyed rfl, rfl, fun _ => rfl⟩
    · exact (SameObjects.of_fail h).effect
  | createPtim ptim => exact (createPtim_objects h).effect
  | destroyPtim ptim => exact (destroyPtim_objects h).effect

theorem decodeIoctl_object {k : Fin 16} {cnum : ℕ} {cm : Ioctl}
    (h : decodeIoctl s k cm = some (r, s')) : ObjectEffect s s' (.call (.ioctl cnum cm)) := by
  unfold decodeIoctl at h
  dsimp only at h
  split at h
  · split at h
    · cases h
      exact SameObjects.effect ⟨rfl, rfl, fun _ => rfl⟩
    · exact (SameObjects.of_fail h).effect
  · cases h
    refine (SameObjects.setModule ?_).effect
    rfl
  · cases h
    refine (SameObjects.setModule ?_).effect
    unfold clrUplock
    split
    · rfl
    · rfl
  · split at h
    · exact (SameObjects.of_fail h).effect
    · exact guardedIoctl_object h

theorem call_object {c : Call} (h : c.run s = some (r, s')) : ObjectEffect s s' (.call c) := by
  cases c with
  | «open» cnum =>
    simp only [Call.run, ctrDrvrOpen] at h
    split at h
    · split at h
      · exact (SameObjects.of_fail h).effect
      · cases h
        exact SameObjects.effect ⟨rfl, rfl, fun _ => rfl⟩
    · exact (SameObjects.of_fail h).effect
  | close cnum =>
    simp only [Call.run, ctrDrvrClose] at h
    split at h
    · have hsame := disConnectAll_objects h
      exact SameObjects.effect ⟨hsame.ctim, hsame.modules, hsame.inUse⟩
    · exact (SameObjects.of_fail h).effect
  | ioctl cnum cm =>
    simp only [Call.run, ctrDrvrIoctl] at h
    split at h
    · split at h
      · exact (SameObjects.of_fail h).effect
      · split at h
        · exact (SameObjects.of_fail h).effect
        · exact decodeIoctl_object h
    · exact (SameObjects.of_fail h).effect
  | memory midx beyond =>
    cases h
    refine (SameObjects.setModule ?_).effect
    rfl

theorem changeCtimFrame_spec {cnum : ℕ} {ctim : CtimBinding}
    (h : (ObjectCall.changeCtimFrame cnum ctim).run s = some (r, s')) :
    s' = s ∨ s' = { s with ctim := changeFrame ctim s.ctim } := by
  simp only [ObjectCall.run] at h
  split at h
  · cases h
    exact .inl rfl
  · split at h
    · cases h
      exact .inl rfl
    · unfold changeCtimFrame at h
      split at h
      · split at h
        · cases h
          exact .inl rfl
        · cases h
          exact .inr rfl
      · cases h
        exact .inl rfl

theorem objectEffect_of_step {c : ObjectCall} (h : s.objectStep c = some s') :
    ObjectEffect s s' c := by
  simp only [WorkingArea.objectStep, Option.map_eq_some_iff, Prod.exists, exists_eq_right] at h
  obtain ⟨r, h⟩ := h
  cases c with
  | call c => exact call_object h
  | changeCtimFrame cnum ctim =>
    obtain rfl | rfl := changeCtimFrame_spec h
    · exact (SameObjects.refl s').effect
    · exact ⟨.same (map_eqpNum_changeFrame ctim s.ctim), rfl, fun _ => rfl⟩

theorem nodup_step {c : ObjectCall} (hn : (s.ctim.map CtimBinding.eqpNum).Nodup)
    (h : s.objectStep c = some s') : (s'.ctim.map CtimBinding.eqpNum).Nodup := by
  cases (objectEffect_of_step h).list with
  | same heq => rwa [heq]
  | created hnew heq =>
    rename_i cnum ctim
    rw [heq, List.map_append, List.nodup_append]
    refine ⟨hn, by simp, ?_⟩
    rintro num hnum num' hnum' rfl
    obtain ⟨o, ho, rfl⟩ := List.mem_map.mp hnum
    simp only [List.map_cons, List.map_nil, List.mem_singleton] at hnum'
    exact hnew o ho hnum'.symm
  | destroyed heq =>
    rw [heq]
    exact nodup_removeFirst hn _

theorem nodup_of_reach (h : objectDriver.Reach s) : (s.ctim.map CtimBinding.eqpNum).Nodup := by
  refine h.invariant (P := fun s => (s.ctim.map CtimBinding.eqpNum).Nodup) ?_ ?_
  · intro s hs
    rw [hs.ctim]
    exact List.nodup_nil
  · exact fun _ _ _ hs hstep => nodup_step hs hstep

theorem installed_of_reach (h : objectDriver.Reach s) :
    ∀ j, (s.moduleContexts j).inUse = true → j < s.modules := by
  refine h.invariant (P := fun s => ∀ j, (s.moduleContexts j).inUse = true → j < s.modules) ?_ ?_
  · intro s hs j hused
    by_contra hj
    rw [(hs.absent j (by omega)).2] at hused
    cases hused
  · intro s c s' hs hstep j hused
    have heff := objectEffect_of_step hstep
    rw [heff.modules]
    rw [heff.inUse j] at hused
    exact hs j hused

end Lists

/-! ### Runs that keep the tables tidy -/

/-- A CTIM instance that names an object loses its last client. -/
def LeavesStale (m : ModuleContext) (T : ℕ → Prop) (cmsk : U32) : Prop :=
  ∃ i, T i ∧ Releases m cmsk i ∧ m.eqpClass i = .ctim ∧ (m.trigs i).ctim ≠ 0

/-- The ioctls of a client that is served: instances and actions that name an object are made on
module `k`, no instance is released, and no object has number 0. -/
def WorkingArea.TidyIoctl (s : WorkingArea) (k cnum : ℕ) : Ioctl → Prop
  | .createCtim ctim => ctim.eqpNum ≠ 0
  | .connect conx => conx.eqpClass = .ctim →
    ctimSlot (s.target cnum conx) conx.eqpNum = none → conx.moduleOr (s.clientModule cnum) = k
  | .disconnect conx =>
    if conx.eqpNum ≠ 0 then
      ¬ LeavesStale (s.moduleContexts (conx.module.toNat - 1))
        (NamedSlot (s.moduleContexts (conx.module.toNat - 1)) conx) (s.clientMask cnum)
    else ∀ j < s.modules,
      ¬ LeavesStale (s.moduleContexts j) (OwnedSlot (s.moduleContexts j)) (s.clientMask cnum)
  | .setAction act => act.trigger.ctim ≠ 0 → s.clientModule cnum = k ∧ act.eqpNum ≠ 0
  | _ => True

def WorkingArea.TidyCall (k : ℕ) (s : WorkingArea) : ObjectCall → Prop
  | .call (.ioctl cnum cm) => s.Serves cnum → s.TidyIoctl k cnum cm
  | .call (.close cnum) => ∀ j < s.modules,
    ¬ LeavesStale (s.moduleContexts j) (OwnedSlot (s.moduleContexts j)) (s.clientMask cnum)
  | _ => True

/-- Only slots in use name an object, and only where `here` holds. -/
def Tidy (here : Prop) (m : ModuleContext) : Prop :=
  ∀ i < ramTableSize, (m.trigs i).ctim ≠ 0 → here ∧ m.eqpNum i ≠ 0

section Modules

variable {here : Prop} {m m' : ModuleContext}

theorem Tidy.same (h : Tidy here m) (htrigs : m'.trigs = m.trigs) (hnum : m'.eqpNum = m.eqpNum) :
    Tidy here m' := by
  unfold Tidy
  rw [htrigs, hnum]
  exact h

theorem Tidy.dropped {T H : ℕ → Prop} {cmsk : U32} (h : Tidy here m) (hd : Dropped m m' T H cmsk)
    (hstale : ¬ LeavesStale m T cmsk) : Tidy here m' := by
  intro i hi hctim
  rw [hd.trigs] at hctim
  obtain ⟨hhere, hnum⟩ := h i hi hctim
  refine ⟨hhere, ?_⟩
  by_cases hrel : T i ∧ Releases m cmsk i
  · have hclass : m.eqpClass i ≠ .ctim := fun hc => hstale ⟨i, hrel.1, hrel.2, hc, hctim⟩
    rw [(hd.silenced i hrel.1 hrel.2 hclass).1]
    exact hnum
  · rw [(hd.kept i hrel).1]
    exact hnum

theorem Tidy.acted {i : ℕ} {act : Action} (h : Tidy here m) (ha : Acted m m' i act)
    (hrule : act.trigger.ctim ≠ 0 → here ∧ act.eqpNum ≠ 0) : Tidy here m' := by
  intro j hj hctim
  rw [ha.trigs] at hctim
  rw [ha.eqpNum]
  by_cases hji : j = i
  · subst hji
    rw [update_self] at hctim ⊢
    exact hrule hctim
  · rw [update_of_ne hji] at hctim ⊢
    exact h j hj hctim

theorem Tidy.freed {hit : ℕ → Prop} (h : Tidy here m) (hf : Freed m m' hit) : Tidy here m' := by
  intro i hi hctim
  by_cases hhit : hit i
  · rw [(hf.hits i hhit).2.2.1] at hctim
    exact absurd rfl hctim
  · obtain ⟨hnum, -, htrig, -⟩ := hf.misses i hhit
    rw [htrig] at hctim
    rw [hnum]
    exact h i hi hctim

theorem takeSlots_ctim {start size : ℕ} {ptim : PtimBinding}
    (h : loop (fun j m => some (takeSlot m (start + j) ptim)) size m = some m') (i : ℕ) :
    (m'.trigs i).ctim = (m.trigs i).ctim := by
  refine loop_invariant (P := fun _ t => (t.trigs i).ctim = (m.trigs i).ctim) h rfl ?_
  rintro j - t t' ht hs
  cases hs
  by_cases hij : i = start + j
  · subst hij
    simp only [takeSlot, update_self]
    exact ht
  · simp only [takeSlot, update_of_ne hij]
    exact ht

theorem Tidy.taken {start : ℕ} {ptim : PtimBinding} (h : Tidy here m)
    (hsearch : searchSpace m ptim.size.toNat ramTableSize 0 0 0 = some start)
    (hloop : loop (fun j m => some (takeSlot m (start + j) ptim)) ptim.size.toNat m = some m') :
    Tidy here m' := by
  intro i hi hctim
  rw [takeSlots_ctim hloop i] at hctim
  have htaken := takeSlots_taken hloop
  obtain ⟨hhere, hnum⟩ := h i hi hctim
  by_cases hhit : start ≤ i ∧ i < start + ptim.size.toNat
  · have hempty := (searchSpace_empty (by omega) (.inl rfl) (fun j hlo hhi => by omega) hsearch).2
    exact absurd (hempty i hhit.1 hhit.2) hnum
  · rw [(htaken.misses i hhit).1]
    exact ⟨hhere, hnum⟩

end Modules

section Steps

variable {s s' : WorkingArea} {k : ℕ} {r : Except Errno Unit}

theorem tidy_setModule {midx : ℕ} {m' : ModuleContext}
    (h : ∀ j, Tidy (j = k) (s.moduleContexts j)) (hm : Tidy (midx = k) m') (j : ℕ) :
    Tidy (j = k) ((s.setModule midx m').moduleContexts j) := by
  by_cases hj : j = midx
  · subst hj
    simpa only [WorkingArea.setModule, update_self] using hm
  · simpa only [WorkingArea.setModule, update_of_ne hj] using h j

theorem Tidy.connectSlot {here : Prop} {m m' : ModuleContext} {i : ℕ} {cmsk hmsk : U32}
    (h : Tidy here m) (hm : Ctr.connectSlot m i cmsk hmsk = some m') : Tidy here m' := by
  unfold Ctr.connectSlot at hm
  split at hm
  · cases hm
    exact h
  · cases hm

theorem Tidy.newCtimInstance {here : Prop} {m m' : ModuleContext} {i : ℕ} {eqpNum frame cmsk : U32}
    (h : Tidy here m) (hhere : here)
    (hm : Ctr.newCtimInstance m i eqpNum frame cmsk = some m') : Tidy here m' := by
  unfold Ctr.newCtimInstance at hm
  split at hm
  · cases hm
    intro j hj hctim
    by_cases hji : j = i
    · subst hji
      simp only [update_self] at hctim ⊢
      exact ⟨hhere, hctim⟩
    · simp only [update_of_ne hji] at hctim ⊢
      exact h j hj hctim
  · cases hm

theorem connectCtim_tidy {midx : ℕ} {eqpNum cmsk : U32}
    (h : ∀ j, Tidy (j = k) (s.moduleContexts j))
    (hrule : ctimSlot (s.moduleContexts midx) eqpNum = none → midx = k)
    (hrun : connectCtim s midx eqpNum cmsk = some (r, s')) (j : ℕ) :
    Tidy (j = k) (s'.moduleContexts j) := by
  unfold connectCtim at hrun
  dsimp only at hrun
  split at hrun
  · simp only [Option.bind_eq_some_iff] at hrun
    obtain ⟨m, hm, hrun⟩ := hrun
    obtain ⟨hw, rfl⟩ := finishConnect_spec hrun
    refine tidy_setModule h ?_ j
    exact ((h midx).connectSlot hm).same rfl rfl
  · rename_i hnone
    split at hrun
    · cases hrun
      exact h j
    · split at hrun
      · split at hrun
        · cases hrun
          exact h j
        · simp only [Option.bind_eq_some_iff] at hrun
          obtain ⟨m, hm, hrun⟩ := hrun
          obtain ⟨hw, rfl⟩ := finishConnect_spec hrun
          refine tidy_setModule h ?_ j
          exact ((h midx).newCtimInstance (hrule hnone) hm).same rfl rfl
      · cases hrun
        exact h j

theorem connect_tidy {c : Fin 16} {conx : Connection} (h : ∀ j, Tidy (j = k) (s.moduleContexts j))
    (hrule : s.TidyIoctl k c.val (.connect conx))
    (hrun : connect s conx (s.clientContexts c) = some (r, s')) (j : ℕ) :
    Tidy (j = k) (s'.moduleContexts j) := by
  by_cases hclass : conx.eqpClass = .ctim
  · simp only [connect, hclass] at hrun
    refine connectCtim_tidy h ?_ hrun j
    have hnew := hrule hclass
    rw [WorkingArea.target, clientModule_val] at hnew
    exact hnew
  · cases connect_effect hrun with
    | quiet _ hsame => exact (h j).same (hsame j).trigs (hsame j).eqpNum
    | connectPtim _ _ _ hc => exact tidy_setModule h ((h _).same hc.trigs hc.eqpNum) j
    | connectCtim _ hctim => exact absurd hctim hclass
    | newCtim _ hctim => exact absurd hctim hclass
    | connectHard _ _ hw => exact tidy_setModule h ((h _).same hw.trigs hw.eqpNum) j
    | disconnectAll _ hcall => simp at hcall

theorem disConnectAll_tidy {ccon : ClientContext} (h : ∀ j, Tidy (j = k) (s.moduleContexts j))
    (hrule : ∀ j < s.modules,
      ¬ LeavesStale (s.moduleContexts j) (OwnedSlot (s.moduleContexts j)) ccon.mask)
    (hrun : disConnectAll s ccon = some (r, s')) (j : ℕ) :
    Tidy (j = k) (s'.moduleContexts j) := by
  obtain ⟨-, hin, hout⟩ := disConnectAll_spec hrun
  by_cases hj : j < s.modules
  · exact (h j).dropped (hin j hj) (hrule j hj)
  · rw [hout j (by omega)]
    exact h j

theorem createPtim_tidy {ptim : PtimBinding} (h : ∀ j, Tidy (j = k) (s.moduleContexts j))
    (hrun : createPtim s ptim = some (r, s')) (j : ℕ) : Tidy (j = k) (s'.moduleContexts j) := by
  unfold createPtim at hrun
  dsimp only at hrun
  split at hrun
  · cases hrun
    exact h j
  · split at hrun
    · cases hrun
      exact h j
    · split at hrun
      · split at hrun
        · cases hrun
          exact h j
        · rename_i start hsearch
          simp only [Option.bind_eq_some_iff] at hrun
          obtain ⟨m, hm, hrun⟩ := hrun
          cases hrun
          exact tidy_setModule h ((h _).taken hsearch hm) j
      · cases hrun
        exact h j

theorem guardedIoctl_tidy {c : Fin 16} {cm : Ioctl} (h : ∀ j, Tidy (j = k) (s.moduleContexts j))
    (hrule : s.TidyIoctl k c.val cm)
    (hrun : guardedIoctl s (s.clientContexts c) cm = some (r, s')) (j : ℕ) :
    Tidy (j = k) (s'.moduleContexts j) := by
  cases cm with
  | connect conx => exact connect_tidy h hrule hrun j
  | disconnect conx =>
    simp only [guardedIoctl] at hrun
    simp only [WorkingArea.TidyIoctl] at hrule
    split at hrun
    · rename_i hnum
      rw [if_pos hnum] at hrule
      cases disConnect_effect hnum hrun with
      | quiet _ hsame => exact (h j).same (hsame j).trigs (hsame j).eqpNum
      | disconnect _ _ hd => exact tidy_setModule h ((h _).dropped hd hrule) j
      | disconnectAll _ hcall =>
        obtain hcall | ⟨conx', hcall, hzero⟩ := hcall
        · cases hcall
        · cases hcall
          exact absurd hzero hnum
    · rename_i hnum
      rw [if_neg hnum] at hrule
      rw [clientMask_val] at hrule
      exact disConnectAll_tidy h hrule hrun j
  | setAction act =>
    cases setAction_effect hrun with
    | quiet _ hsame => exact (h j).same (hsame j).trigs (hsame j).eqpNum
    | setAction _ _ _ _ _ ha => exact tidy_setModule h ((h _).acted ha hrule) j
    | disconnectAll _ hcall => simp at hcall
  | createPtim ptim => exact createPtim_tidy h hrun j
  | destroyPtim ptim =>
    have heff : Effect s (.ioctl c.val (.destroyPtim ptim)) s' := destroyPtim_effect hrun
    cases heff with
    | quiet _ hsame => exact (h j).same (hsame j).trigs (hsame j).eqpNum
    | destroyPtim _ _ hf => exact tidy_setModule h ((h _).freed hf) j
    | disconnectAll _ hcall => simp at hcall
  | setModule | lock | unlock | createCtim | destroyCtim =>
    cases guardedIoctl_effect hrun with
    | quiet _ hsame => exact (h j).same (hsame j).trigs (hsame j).eqpNum
    | disconnectAll _ hcall => simp at hcall

theorem quiet_tidy {c : Call} (h : ∀ j, Tidy (j = k) (s.moduleContexts j))
    (hc : (∃ cnum, c = .open cnum) ∨ (∃ midx beyond, c = .memory midx beyond)
      ∨ ∃ cnum cm, c = .ioctl cnum cm ∧ ¬ cm.Guarded)
    (hs : s.step c = some s') (j : ℕ) : Tidy (j = k) (s'.moduleContexts j) := by
  cases effect_of_step hs with
  | quiet _ hsame => exact (h j).same (hsame j).trigs (hsame j).eqpNum
  | disconnectAll _ hcall =>
    obtain rfl | ⟨conx, rfl, -⟩ := hcall
    · simp at hc
    · simp [Ioctl.Guarded] at hc
  | _ => simp [Ioctl.Guarded] at hc

theorem tidy_step {c : ObjectCall} (h : ∀ j, Tidy (j = k) (s.moduleContexts j))
    (hrule : s.TidyCall k c) (hs : s.objectStep c = some s') (j : ℕ) :
    Tidy (j = k) (s'.moduleContexts j) := by
  have hs' := hs
  simp only [WorkingArea.objectStep, Option.map_eq_some_iff, Prod.exists, exists_eq_right] at hs'
  obtain ⟨r, hrun⟩ := hs'
  cases c with
  | changeCtimFrame cnum ctim =>
    obtain rfl | rfl := changeCtimFrame_spec hrun
    · exact h j
    · exact h j
  | call c =>
    rw [objectStep_call] at hs
    cases c with
    | «open» cnum => exact quiet_tidy h (.inl ⟨cnum, rfl⟩) hs j
    | memory midx beyond => exact quiet_tidy h (.inr (.inl ⟨midx, beyond, rfl⟩)) hs j
    | close cnum =>
      simp only [ObjectCall.run, Call.run, ctrDrvrClose] at hrun
      split at hrun
      · rename_i hcnum
        simp only [WorkingArea.TidyCall, WorkingArea.clientMask, dif_pos hcnum] at hrule
        refine disConnectAll_tidy ?_ ?_ hrun j
        · exact h
        · exact hrule
      · cases hrun
        exact h j
    | ioctl cnum cm =>
      by_cases hcm : cm.Guarded
      · by_cases hserves : s.Serves cnum
        · have hstep := step_served hcm hserves
          rw [hs] at hstep
          obtain ⟨⟨r', t⟩, hguard, rfl⟩ := Option.map_eq_some_iff.mp hstep.symm
          exact guardedIoctl_tidy (c := ⟨cnum, hserves.1⟩) h (hrule hserves) hguard j
        · obtain rfl := step_unserved hcm hserves hs
          exact h j
      · exact quiet_tidy h (.inr (.inr ⟨cnum, cm, rfl, hcm⟩)) hs j

theorem nonzero_step {c : ObjectCall} (h : ∀ o ∈ s.ctim, o.eqpNum ≠ 0)
    (hrule : s.TidyCall k c) (hs : s.objectStep c = some s') : ∀ o ∈ s'.ctim, o.eqpNum ≠ 0 := by
  cases (objectEffect_of_step hs).list with
  | same heq =>
    intro o ho
    have hmem := List.mem_map_of_mem (f := CtimBinding.eqpNum) ho
    rw [heq] at hmem
    obtain ⟨o', ho', hnum⟩ := List.mem_map.mp hmem
    rw [← hnum]
    exact h o' ho'
  | created hnew heq =>
    rename_i cnum ctim
    by_cases hserves : s.Serves cnum
    · rw [heq]
      intro o ho
      obtain ho | ho := List.mem_append.mp ho
      · exact h o ho
      · rw [List.mem_singleton.mp ho]
        exact hrule hserves
    · rw [objectStep_call] at hs
      have hcm : (Ioctl.createCtim ctim).Guarded := trivial
      obtain rfl := step_unserved hcm hserves hs
      exact h
  | destroyed heq =>
    rename_i p
    rw [heq]
    intro o ho
    cases hfind : s.ctim.find? p with
    | none =>
      rw [removeFirst_of_find?_eq_none hfind] at ho
      exact h o ho
    | some x => exact h o ((removeFirst_perm hfind).mem_iff.mpr (List.mem_cons_of_mem x ho))

theorem tidy_of_reachUnder (h : objectDriver.ReachUnder (WorkingArea.TidyCall k) s) :
    (∀ o ∈ s.ctim, o.eqpNum ≠ 0) ∧ ∀ j, Tidy (j = k) (s.moduleContexts j) := by
  refine h.invariant (P := fun s => (∀ o ∈ s.ctim, o.eqpNum ≠ 0)
    ∧ ∀ j, Tidy (j = k) (s.moduleContexts j)) ?_ ?_
  · intro s hs
    refine ⟨?_, ?_⟩
    · rw [hs.ctim]
      simp
    · intro j i _ hctim
      rw [(hs.moduleContexts j).trigs i] at hctim
      exact absurd rfl hctim
  · rintro s c s' ⟨hnum, htidy⟩ hrule hs
    exact ⟨nonzero_step hnum hrule hs, tidy_step htidy hrule hs⟩

theorem sees_of_tidy (hnum : ∀ o ∈ s.ctim, o.eqpNum ≠ 0)
    (htidy : ∀ j, Tidy (j = k) (s.moduleContexts j)) {num : U32} (hl : s.Lists num) :
    s.Sees k num := by
  obtain ⟨o, ho, rfl⟩ := hl
  constructor
  · rintro ⟨i, hi, hfree, hctim⟩
    exact absurd hfree (htidy k i hi (by rw [hctim]; exact hnum o ho)).2
  · rintro ⟨j, -, i, hi, howned, hctim⟩
    obtain ⟨rfl, -⟩ := htidy j i hi (by rw [hctim]; exact hnum o ho)
    exact .inl ⟨i, hi, howned, hctim⟩

end Steps

/-! ### When the ioctls do what they are meant to do -/

/-- **The lifetime of CTIM objects.**  In every reachable state the numbers are distinct, and
destroying an object or changing its frame succeeds exactly when no trigger in use names it if, and
only if, the table of the client's module shows the users of the object.  It does for every client
of module `k` and every object along every tidy run. -/
theorem ctim_lifetime {s : WorkingArea} (h : objectDriver.Reach s) :
    (s.ctim.map CtimBinding.eqpNum).Nodup
      ∧ (∀ cnum ctim, s.Serves cnum → s.Lists ctim.eqpNum →
        ((((ObjectCall.destroyCtim cnum ctim).run s).succeeded = true ↔ ¬ s.Used ctim.eqpNum)
            ↔ s.Sees (s.clientModule cnum) ctim.eqpNum)
          ∧ ((((ObjectCall.changeCtimFrame cnum ctim).run s).succeeded = true
              ↔ ¬ s.Used ctim.eqpNum) ↔ s.Sees (s.clientModule cnum) ctim.eqpNum))
      ∧ ∀ k, objectDriver.ReachUnder (WorkingArea.TidyCall k) s →
        ∀ cnum ctim, s.Serves cnum → s.clientModule cnum = k → s.Lists ctim.eqpNum →
          (((ObjectCall.destroyCtim cnum ctim).run s).succeeded = true ↔ ¬ s.Used ctim.eqpNum)
            ∧ (((ObjectCall.changeCtimFrame cnum ctim).run s).succeeded = true
              ↔ ¬ s.Used ctim.eqpNum) := by
  have hexact : ∀ cnum ctim, s.Serves cnum → s.Lists ctim.eqpNum →
      ((((ObjectCall.destroyCtim cnum ctim).run s).succeeded = true ↔ ¬ s.Used ctim.eqpNum)
          ↔ s.Sees (s.clientModule cnum) ctim.eqpNum)
        ∧ ((((ObjectCall.changeCtimFrame cnum ctim).run s).succeeded = true
            ↔ ¬ s.Used ctim.eqpNum) ↔ s.Sees (s.clientModule cnum) ctim.eqpNum) := by
    intro cnum ctim hserves hl
    obtain ⟨-, -, -, hused, -⟩ := hserves.enter
    have hmod := installed_of_reach h _ hused
    rw [destroyCtim_succeeded hserves hl, changeCtimFrame_succeeded hserves hl]
    exact ⟨named_right_iff hmod, named_right_iff hmod⟩
  refine ⟨nodup_of_reach h, hexact, ?_⟩
  rintro k hk cnum ctim hserves rfl hl
  obtain ⟨hnum, htidy⟩ := tidy_of_reachUnder hk
  have hsees := sees_of_tidy hnum htidy hl
  obtain ⟨hdestroy, hchange⟩ := hexact cnum ctim hserves hl
  exact ⟨hdestroy.mpr hsees, hchange.mpr hsees⟩

/-- Objects get numbers other than 0, and clients connect on module 0, whichever they select. -/
def WorkingArea.MakesOnly (_ : WorkingArea) : ObjectCall → Prop
  | .call (.open _) => True
  | .call (.ioctl _ (.setModule _)) => True
  | .call (.ioctl _ (.createCtim ctim)) => ctim.eqpNum ≠ 0
  | .call (.ioctl _ (.connect conx)) => conx.module = 1
  | _ => False

instance (s : WorkingArea) : DecidablePred s.MakesOnly
  | .call (.open _) | .call (.ioctl _ (.setModule _)) => isTrue trivial
  | .call (.ioctl _ (.createCtim _)) => instDecidableNot
  | .call (.ioctl _ (.connect conx)) => instDecidableEqBitVec conx.module 1
  | .call (.close _) | .call (.memory _ _) | .changeCtimFrame _ _ | .call (.ioctl _ .lock)
  | .call (.ioctl _ (.unlock _)) | .call (.ioctl _ (.disconnect _))
  | .call (.ioctl _ (.setAction _)) | .call (.ioctl _ (.destroyCtim _))
  | .call (.ioctl _ (.createPtim _)) | .call (.ioctl _ (.destroyPtim _)) => isFalse id

theorem WorkingArea.MakesOnly.tidyCall {s : WorkingArea} {c : ObjectCall} (h : s.MakesOnly c) :
    s.TidyCall 0 c := by
  unfold WorkingArea.MakesOnly at h
  split at h
  · trivial
  · exact fun _ => trivial
  · exact fun _ => h
  · intro _ _ _
    rw [Connection.moduleOr, h]
    rfl
  · exact h.elim

/-- Client 0 creates CTIM 5 and connects to it. -/
def instanced : WorkingArea :=
  System.runUnder WorkingArea.objectStep WorkingArea.MakesOnly oneModule
    [.call (.open 0), .call (.ioctl 0 (.createCtim ⟨5, 0x01000000⟩)),
      .call (.ioctl 0 (.connect ⟨1, .ctim, 5⟩))]

/-- The object is in use and stays. -/
theorem ctim_lifetime_instanced :
    instanced.ctim = [⟨5, 0x01000000⟩]
      ∧ instanced.Used 5
      ∧ (((ObjectCall.destroyCtim 0 ⟨5, 0⟩).run instanced).succeeded = true ↔ ¬ instanced.Used 5)
      ∧ (((ObjectCall.changeCtimFrame 0 ⟨5, 0⟩).run instanced).succeeded = true
        ↔ ¬ instanced.Used 5) := by
  have hstart : objectDriver.ReachUnder WorkingArea.MakesOnly oneModule :=
    System.ReachUnder.init oneModule_installed
  have hmakes : objectDriver.ReachUnder WorkingArea.MakesOnly instanced := hstart.runUnder _
  have hreach : objectDriver.Reach instanced := hmakes.mono fun _ _ _ => trivial
  have htidy : objectDriver.ReachUnder (WorkingArea.TidyCall 0) instanced :=
    hmakes.mono fun _ _ => WorkingArea.MakesOnly.tidyCall
  obtain ⟨hctim, hserves, hmod, hmodules, hown, hnamed⟩ :
      instanced.ctim = [⟨5, 0x01000000⟩] ∧ instanced.Serves 0 ∧ instanced.clientModule 0 = 0
        ∧ 0 < instanced.modules ∧ (instanced.moduleContexts 0).eqpNum 0 ≠ 0
        ∧ ((instanced.moduleContexts 0).trigs 0).ctim = 5 := by decide +kernel
  have hlists : instanced.Lists 5 := ⟨⟨5, 0x01000000⟩, by simp [hctim], rfl⟩
  refine ⟨hctim, ⟨0, hmodules, 0, by decide, hown, hnamed⟩, ?_⟩
  exact (ctim_lifetime hreach).2.2 0 htidy 0 ⟨5, 0⟩ hserves hmod hlists

/-- The driver with two cards. -/
def twoModules : WorkingArea :=
  { oneModule with
    modules := 2
    moduleContexts := fun midx => blankModule (decide (midx < 2)) }

theorem twoModules_installed : twoModules.Installed where
  ctim := rfl
  ptim := rfl
  modules := by decide
  moduleContexts _ := ⟨rfl, rfl, fun _ => rfl, fun _ => rfl, fun _ => rfl, fun _ => rfl,
    fun _ => rfl, fun _ => rfl, rfl, fun _ => rfl⟩
  absent midx h := by
    have hfar : decide (midx < 2) = false := decide_eq_false (Nat.not_lt.mpr h)
    simp only [twoModules, blankModule, hfar, and_self]
  clientContexts _ := rfl

/-- Client 0 creates CTIM 5, connects to it and disconnects. -/
def released : WorkingArea :=
  System.runUnder WorkingArea.objectStep (fun _ _ => True) oneModule
    [.call (.open 0), .call (.ioctl 0 (.createCtim ⟨5, 0x01000000⟩)),
      .call (.ioctl 0 (.connect ⟨1, .ctim, 5⟩)), .call (.ioctl 0 (.disconnect ⟨1, .ctim, 5⟩))]

/-- Client 0 creates CTIM 5, connects to it on the first module and goes on with the second. -/
def dangling : WorkingArea :=
  System.runUnder WorkingArea.objectStep WorkingArea.MakesOnly twoModules
    [.call (.open 0), .call (.ioctl 0 (.createCtim ⟨5, 0x01000000⟩)),
      .call (.ioctl 0 (.connect ⟨1, .ctim, 5⟩)), .call (.ioctl 0 (.setModule 2))]

/-- After the first run the object is not used and cannot be destroyed; after the second it is used
and can. -/
theorem not_ctimLifetime :
    (objectDriver.Reach released ∧ ¬ CtimLifetime released)
      ∧ objectDriver.Reach dangling ∧ ¬ CtimLifetime dangling := by
  have hstart : objectDriver.ReachUnder WorkingArea.MakesOnly twoModules :=
    System.ReachUnder.init twoModules_installed
  have hmakes : objectDriver.ReachUnder WorkingArea.MakesOnly dangling := hstart.runUnder _
  refine ⟨⟨System.ReachUnder.runUnder (System.ReachUnder.init oneModule_installed) _, ?_⟩,
    hmakes.mono fun _ _ _ => trivial, ?_⟩
  · intro hlaw
    obtain ⟨hctim, hserves, hmod, hmodules, hnamed, hfree⟩ :
        released.ctim = [⟨5, 0x01000000⟩] ∧ released.Serves 0 ∧ released.clientModule 0 = 0
          ∧ released.modules = 1 ∧ ((released.moduleContexts 0).trigs 0).ctim = 5
          ∧ ∀ i < ramTableSize, (released.moduleContexts 0).eqpNum i = 0 := by decide +kernel
    have hlists : released.Lists 5 := ⟨⟨5, 0x01000000⟩, by simp [hctim], rfl⟩
    have hunused : ¬ released.Used 5 := by
      rintro ⟨j, hj, i, hi, hown, -⟩
      obtain rfl : j = 0 := by omega
      exact hown (hfree i hi)
    have hstale : Stale (released.moduleContexts (released.clientModule 0)) 5 := by
      rw [hmod]
      exact ⟨0, by decide, hfree 0 (by decide), hnamed⟩
    have hdone := (hlaw.destroy 0 ⟨5, 0⟩ hserves hlists).mpr hunused
    exact (destroyCtim_succeeded hserves hlists).mp hdone (.inr hstale)
  · intro hlaw
    obtain ⟨hctim, hserves, hmod, hmodules, hown, hnamed⟩ :
        dangling.ctim = [⟨5, 0x01000000⟩] ∧ dangling.Serves 0 ∧ dangling.clientModule 0 = 1
          ∧ 0 < dangling.modules ∧ (dangling.moduleContexts 0).eqpNum 0 ≠ 0
          ∧ ((dangling.moduleContexts 0).trigs 0).ctim = 5 := by decide +kernel
    have hlists : dangling.Lists 5 := ⟨⟨5, 0x01000000⟩, by simp [hctim], rfl⟩
    have hused : dangling.Used 5 := ⟨0, hmodules, 0, by decide, hown, hnamed⟩
    -- the run is tidy, so the second table names nothing
    have htidy := tidy_of_reachUnder (hmakes.mono fun _ _ => WorkingArea.MakesOnly.tidyCall)
    have hdone : ((ObjectCall.destroyCtim 0 ⟨5, 0⟩).run dangling).succeeded = true := by
      rw [destroyCtim_succeeded hserves hlists, ← named_iff, hmod]
      rintro ⟨i, hi, hctim⟩
      exact absurd (htidy.2 1 i hi (by rw [hctim]; decide)).1 (by decide)
    exact (hlaw.destroy 0 ⟨5, 0⟩ hserves hlists).mp hdone hused

end KernelModules.Ctr
