import KernelModules.Ctr.Sweeps

/-!
# What a call can do

Every invariant of the driver is kept by every call for a reason that can be read off a few
tables.  This file says once what each call does to them.

* `Effect` lists everything a call can do to the tables, with the tests it has passed;
* `effect_of_step` says that the list is complete; `step_served` and `step_unserved` say when an
  ioctl gets as far as its own function.
-/

namespace KernelModules.Ctr

open Function KernelModules.Lib

/-! ### Everything a call can do -/

/-- The tables of the module are as they were. -/
structure SameTables (m m' : ModuleContext) : Prop where
  trigs : m'.trigs = m.trigs
  eqpNum : m'.eqpNum = m.eqpNum
  eqpClass : m'.eqpClass = m.eqpClass
  clients : m'.clients = m.clients
  hardClients : m'.hardClients = m.hardClients
  interruptEnable : m'.interruptEnable = m.interruptEnable
  hwConfigs : m'.hwConfigs = m.hwConfigs

theorem SameTables.refl (m : ModuleContext) : SameTables m m := ⟨rfl, rfl, rfl, rfl, rfl, rfl, rfl⟩

/-- A CTIM instance was made in slot `i`. -/
structure Instanced (m m' : ModuleContext) (i : ℕ) (num cmsk : U32) : Prop where
  hardClients : m'.hardClients = m.hardClients
  eqpNum : m'.eqpNum = update m.eqpNum i num
  eqpClass : m'.eqpClass = update m.eqpClass i .ctim
  counter : (m'.trigs i).counter = 0
  trigs : ∀ j, j ≠ i → m'.trigs j = m.trigs j
  clients : m'.clients = update m.clients i (m.clients i ||| cmsk)
  hwConfigs : m'.hwConfigs = update m.hwConfigs i (configToHard ctimConfig)
  interruptEnable : m'.interruptEnable = m.interruptEnable ||| 1

/-- An action was written to slot `i`. -/
structure Acted (m m' : ModuleContext) (i : ℕ) (act : Action) : Prop where
  clients : m'.clients = m.clients
  hardClients : m'.hardClients = m.hardClients
  interruptEnable : m'.interruptEnable = m.interruptEnable
  eqpNum : m'.eqpNum = update m.eqpNum i act.eqpNum
  eqpClass : m'.eqpClass = update m.eqpClass i act.eqpClass
  trigs : m'.trigs = update m.trigs i act.trigger
  hwConfigs : m'.hwConfigs =
    update m.hwConfigs i (configToHard (overrideBus (m.clients i) act.config))

/-- The mask and the module of the client behind a minor device. -/
def WorkingArea.clientMask (s : WorkingArea) (cnum : ℕ) : U32 :=
  if h : cnum < 16 then (s.clientContexts ⟨cnum, h⟩).mask else 0

def WorkingArea.clientModule (s : WorkingArea) (cnum : ℕ) : ℕ :=
  if h : cnum < 16 then (s.clientContexts ⟨cnum, h⟩).moduleIndex else 0

/-- The instance of a CTIM, and the first empty slot. -/
def ctimSlot (m : ModuleContext) (eqpNum : U32) : Option ℕ :=
  findSlot fun i => eqpNum = m.eqpNum i ∧ .ctim = m.eqpClass i

def emptySlot (m : ModuleContext) : Option ℕ := findSlot fun i => m.eqpNum i = 0

theorem findSlot_some {p : ℕ → Bool} {i : ℕ} (h : findSlot p = some i) :
    i < ramTableSize ∧ p i = true := by
  unfold findSlot at h
  have hmem := List.mem_of_find?_eq_some h
  rw [List.mem_range] at hmem
  exact ⟨hmem, List.find?_some h⟩

theorem ctimSlot_some {m : ModuleContext} {eqpNum : U32} {i : ℕ}
    (h : ctimSlot m eqpNum = some i) :
    i < ramTableSize ∧ eqpNum = m.eqpNum i ∧ .ctim = m.eqpClass i :=
  ⟨(findSlot_some h).1, of_decide_eq_true (findSlot_some h).2⟩

theorem emptySlot_some {m : ModuleContext} {i : ℕ} (h : emptySlot m = some i) :
    i < ramTableSize ∧ m.eqpNum i = 0 :=
  ⟨(findSlot_some h).1, of_decide_eq_true (findSlot_some h).2⟩

/-- The module `CONNECT` works on, unless it is for a PTIM. -/
def WorkingArea.target (s : WorkingArea) (cnum : ℕ) (conx : Connection) : ModuleContext :=
  s.moduleContexts (conx.moduleOr (s.clientModule cnum))

/-- Everything a call can do to the tables. -/
inductive Effect (s : WorkingArea) : Call → WorkingArea → Prop
  | quiet {c : Call} {s' : WorkingArea} (hptim : s'.ptim = s.ptim)
      (hsame : ∀ j, SameTables (s.moduleContexts j) (s'.moduleContexts j)) : Effect s c s'
  | connectPtim {cnum : ℕ} {conx : Connection} {midx : ℕ} {m' : ModuleContext} (hcnum : cnum < 16)
      (hclass : conx.eqpClass = .ptim) (hmidx : getPtimModule s conx.eqpNum = some midx)
      (h : Connected (s.moduleContexts midx) m' (PtimSlot (s.moduleContexts midx) conx.eqpNum)
        (fun i => sourceMask ((s.moduleContexts midx).trigs i).counter) (s.clientMask cnum)) :
      Effect s (.ioctl cnum (.connect conx)) (s.setModule midx m')
  | connectCtim {cnum : ℕ} {conx : Connection} {i : ℕ} {m' : ModuleContext} (hcnum : cnum < 16)
      (hclass : conx.eqpClass = .ctim) (hi : ctimSlot (s.target cnum conx) conx.eqpNum = some i)
      (h : Connected (s.target cnum conx) m' (fun j => j = i) (fun _ => 1) (s.clientMask cnum)) :
      Effect s (.ioctl cnum (.connect conx))
        (s.setModule (conx.moduleOr (s.clientModule cnum)) m')
  | newCtim {cnum : ℕ} {conx : Connection} {i : ℕ} {m' : ModuleContext} (hcnum : cnum < 16)
      (hclass : conx.eqpClass = .ctim) (hnone : ctimSlot (s.target cnum conx) conx.eqpNum = none)
      (hi : emptySlot (s.target cnum conx) = some i)
      (h : Instanced (s.target cnum conx) m' i conx.eqpNum (s.clientMask cnum)) :
      Effect s (.ioctl cnum (.connect conx))
        (s.setModule (conx.moduleOr (s.clientModule cnum)) m')
  | connectHard {cnum : ℕ} {conx : Connection} {m' : ModuleContext} (hcnum : cnum < 16)
      (hclass : conx.eqpClass ≠ .ptim ∧ conx.eqpClass ≠ .ctim)
      (h : Wired (s.target cnum conx) m' conx.eqpNum (s.clientMask cnum)) :
      Effect s (.ioctl cnum (.connect conx))
        (s.setModule (conx.moduleOr (s.clientModule cnum)) m')
  | disconnect {cnum : ℕ} {conx : Connection} {m' : ModuleContext} (hcnum : cnum < 16)
      (hnum : conx.eqpNum ≠ 0)
      (h : Dropped (s.moduleContexts (conx.module.toNat - 1)) m'
        (NamedSlot (s.moduleContexts (conx.module.toNat - 1)) conx)
        (fun i => conx.eqpClass = .hard ∧ i < interruptSources) (s.clientMask cnum)) :
      Effect s (.ioctl cnum (.disconnect conx)) (s.setModule (conx.module.toNat - 1) m')
  | disconnectAll {c : Call} {cnum : ℕ} {s' : WorkingArea} (hcnum : cnum < 16)
      (hcall : c = .close cnum ∨ ∃ conx, c = .ioctl cnum (.disconnect conx) ∧ conx.eqpNum = 0)
      (hptim : s'.ptim = s.ptim)
      (hin : ∀ j < s.modules, Dropped (s.moduleContexts j) (s'.moduleContexts j)
        (OwnedSlot (s.moduleContexts j)) (fun i => i < interruptSources) (s.clientMask cnum))
      (hout : ∀ j, s.modules ≤ j → s'.moduleContexts j = s.moduleContexts j) : Effect s c s'
  | setAction {cnum : ℕ} {act : Action} {i : ℕ} {m' : ModuleContext} (hcnum : cnum < 16)
      (hi : i + 1 = act.triggerNumber.toNat) (hlt : i < ramTableSize)
      (hclass : (s.moduleContexts (s.clientModule cnum)).eqpClass i ≠ .hard)
      (howned : (s.moduleContexts (s.clientModule cnum)).eqpNum i ≠ 0 →
        (s.moduleContexts (s.clientModule cnum)).eqpNum i = act.eqpNum
          ∧ (s.moduleContexts (s.clientModule cnum)).eqpClass i = act.eqpClass
          ∧ ((s.moduleContexts (s.clientModule cnum)).trigs i).counter = act.trigger.counter)
      (h : Acted (s.moduleContexts (s.clientModule cnum)) m' i act) :
      Effect s (.ioctl cnum (.setAction act)) (s.setModule (s.clientModule cnum) m')
  | createPtim {cnum : ℕ} {ptim : PtimBinding} {start : ℕ} {m' : ModuleContext}
      (hnew : ∀ o ∈ s.ptim, ptim.eqpNum ≠ o.eqpNum) (hmod : ptim.moduleIndex.toNat < s.modules)
      (hsearch : searchSpace (s.moduleContexts ptim.moduleIndex.toNat) ptim.size.toNat
        ramTableSize 0 0 0 = some start)
      (h : Taken (s.moduleContexts ptim.moduleIndex.toNat) m'
        (fun i => start ≤ i ∧ i < start + ptim.size.toNat) ptim) :
      Effect s (.ioctl cnum (.createPtim ptim))
        { s.setModule ptim.moduleIndex.toNat m' with
          ptim := s.ptim ++ [{ ptim with startIndex := BitVec.ofNat 16 start }] }
  | destroyPtim {cnum : ℕ} {ptim : PtimBinding} {m' : ModuleContext}
      (hidle : ∀ i, PtimSlot (s.moduleContexts ptim.moduleIndex.toNat) ptim.eqpNum i →
        (s.moduleContexts ptim.moduleIndex.toNat).clients i = 0)
      (hfound : ∃ i, PtimSlot (s.moduleContexts ptim.moduleIndex.toNat) ptim.eqpNum i)
      (h : Freed (s.moduleContexts ptim.moduleIndex.toNat) m'
        (PtimSlot (s.moduleContexts ptim.moduleIndex.toNat) ptim.eqpNum)) :
      Effect s (.ioctl cnum (.destroyPtim ptim))
        { s.setModule ptim.moduleIndex.toNat m' with
          ptim := removeFirst (fun o => ptim.eqpNum = o.eqpNum) s.ptim }

/-! ### The list is complete -/

theorem WorkingArea.clientMask_ne_zero {s : WorkingArea} {cnum : ℕ} (h : cnum < 16) :
    s.clientMask cnum ≠ 0 := by
  rw [WorkingArea.clientMask, dif_pos h]
  exact ClientContext.mask_ne_zero _

theorem SameTables.setModule {s : WorkingArea} {midx : ℕ} {m' : ModuleContext}
    (h : SameTables (s.moduleContexts midx) m') (j : ℕ) :
    SameTables (s.moduleContexts j) ((s.setModule midx m').moduleContexts j) := by
  by_cases hj : j = midx
  · subst hj
    simpa only [WorkingArea.setModule, update_self] using h
  · simpa only [WorkingArea.setModule, update_of_ne hj] using SameTables.refl _

theorem forall_setModule {P : ModuleContext → Prop} {s : WorkingArea} {midx : ℕ}
    {m' : ModuleContext} (h : ∀ j, P (s.moduleContexts j)) (hm : P m') (j : ℕ) :
    P ((s.setModule midx m').moduleContexts j) := by
  by_cases hj : j = midx
  · subst hj
    simpa only [WorkingArea.setModule, update_self] using hm
  · simpa only [WorkingArea.setModule, update_of_ne hj] using h j

theorem finishConnect_spec {s s' : WorkingArea} {midx count : ℕ} {m : ModuleContext}
    {r : Except Errno Unit} (h : finishConnect s midx count m = some (r, s')) :
    ∃ hw, s' = s.setModule midx { m with hwInterruptEnable := hw } := by
  unfold finishConnect at h
  split at h
  · unfold enableInterrupts at h
    split at h
    · simp only [WorkingArea.ok, Option.bind_some, Option.some.injEq, Prod.mk.injEq,
        BitVec.or_self] at h
      exact ⟨_, h.2.symm⟩
    · cases h
  · simp only [WorkingArea.fail, Option.some.injEq, Prod.mk.injEq] at h
    exact ⟨_, h.2.symm⟩

section Client

variable {s s' : WorkingArea} {k : Fin 16} {r : Except Errno Unit}

theorem clientMask_val : s.clientMask k.val = (s.clientContexts k).mask := by
  simp [WorkingArea.clientMask]

theorem clientModule_val : s.clientModule k.val = (s.clientContexts k).moduleIndex := by
  simp [WorkingArea.clientModule]

theorem Effect.unchanged (c : Call) : Effect s c s := .quiet rfl fun _ => SameTables.refl _

theorem Effect.of_fail {c : Call} {e : Errno} (h : s.fail e = some (r, s')) : Effect s c s' := by
  cases h
  exact Effect.unchanged c

theorem connectCtim_effect {conx : Connection} (hclass : conx.eqpClass = .ctim)
    (h : connectCtim s (conx.moduleOr (s.clientContexts k).moduleIndex) conx.eqpNum
      (s.clientContexts k).mask = some (r, s')) :
    Effect s (.ioctl k.val (.connect conx)) s' := by
  rw [← clientMask_val, ← clientModule_val] at h
  unfold connectCtim at h
  dsimp only at h
  split at h
  · rename_i i hi
    simp only [Option.bind_eq_some_iff] at h
    obtain ⟨m, hm, h⟩ := h
    obtain ⟨hw, rfl⟩ := finishConnect_spec h
    refine .connectCtim k.isLt hclass hi ?_
    have hc := (Connected.refl (s.target k.val conx) (fun _ => 1) (s.clientMask k.val)).connectSlot
      (i := i) (fun hf => hf) hm
    exact hc.withEnable hw |>.congr (by simp)
  · rename_i hnone
    split at h
    · exact .of_fail h
    · rename_i o ho
      split at h
      · split at h
        · exact .of_fail h
        · rename_i i hi
          simp only [Option.bind_eq_some_iff] at h
          obtain ⟨m, hm, h⟩ := h
          obtain ⟨hw, rfl⟩ := finishConnect_spec h
          refine .newCtim k.isLt hclass hnone hi ?_
          unfold newCtimInstance at hm
          split at hm
          · cases hm
            refine ⟨rfl, rfl, rfl, ?_, ?_, rfl, rfl, rfl⟩
            · simp only [update_self]
              rfl
            · intro j hj
              simp only [update_of_ne hj]
              rfl
          · cases hm
      · exact .of_fail h

theorem connect_effect {conx : Connection}
    (h : connect s conx (s.clientContexts k) = some (r, s')) :
    Effect s (.ioctl k.val (.connect conx)) s' := by
  unfold connect at h
  dsimp only at h
  split at h
  · rename_i hclass
    split at h
    · exact .of_fail h
    · rename_i midx hmidx
      simp only [Option.bind_eq_some_iff, Prod.exists] at h
      obtain ⟨count, m, hm, h⟩ := h
      obtain ⟨hw, rfl⟩ := finishConnect_spec h
      rw [← clientMask_val] at hm
      exact .connectPtim k.isLt hclass hmidx ((connectPtim_connected hm).withEnable hw)
  · rename_i hclass
    exact connectCtim_effect hclass h
  · rename_i hptim hctim
    simp only [Option.bind_eq_some_iff, Prod.exists] at h
    obtain ⟨count, m, hm, h⟩ := h
    obtain ⟨hw, rfl⟩ := finishConnect_spec h
    rw [← clientMask_val] at hm
    rw [← clientModule_val] at hm ⊢
    refine .connectHard k.isLt ⟨hptim, hctim⟩ ?_
    have hwired := connectHard_wired hm
    exact ⟨hwired.trigs, hwired.eqpNum, hwired.eqpClass, hwired.clients, hwired.hwConfigs,
      hwired.hardClients, hwired.enable⟩

theorem disConnect_spec {conx : Connection} {ccon : ClientContext}
    (h : disConnect s conx ccon = some (r, s')) :
    r = .ok () ∧ ∃ m', s' = s.setModule (conx.module.toNat - 1) m' ∧
      Dropped (s.moduleContexts (conx.module.toNat - 1)) m'
        (NamedSlot (s.moduleContexts (conx.module.toNat - 1)) conx)
        (fun i => conx.eqpClass = .hard ∧ i < interruptSources) ccon.mask := by
  rw [disConnect] at h
  split at h
  · simp only [Option.bind_eq_some_iff] at h
    obtain ⟨m, hm, h⟩ := h
    cases h
    refine ⟨rfl, m, rfl, ?_⟩
    split at hm
    · rename_i hclass
      exact (disConnectTriggers_dropped hclass hm).congr (fun _ => Iff.rfl) (by simp [hclass])
    · rename_i hclass
      rw [not_not] at hclass
      refine (disConnectSources_dropped hm).congr (fun i => ?_) (by simp [hclass])
      simp only [NamedSlot, TriggerClass, hclass, false_iff, not_and]
      intro _ _ hc
      simp [hc]
  · cases h

theorem disConnect_effect {conx : Connection} (hnum : conx.eqpNum ≠ 0)
    (h : disConnect s conx (s.clientContexts k) = some (r, s')) :
    Effect s (.ioctl k.val (.disconnect conx)) s' := by
  obtain ⟨-, m, rfl, hdropped⟩ := disConnect_spec h
  rw [← clientMask_val] at hdropped
  exact .disconnect k.isLt hnum hdropped

theorem disConnectAll_spec {ccon : ClientContext} (h : disConnectAll s ccon = some (r, s')) :
    s'.ptim = s.ptim
      ∧ (∀ j < s.modules, Dropped (s.moduleContexts j) (s'.moduleContexts j)
        (OwnedSlot (s.moduleContexts j)) (fun i => i < interruptSources) ccon.mask)
      ∧ ∀ j, s.modules ≤ j → s'.moduleContexts j = s.moduleContexts j := by
  unfold disConnectAll at h
  simp only [Option.bind_eq_some_iff] at h
  obtain ⟨s₁, hloop, h⟩ := h
  cases h
  refine loop_invariant (P := fun n t => t.ptim = s.ptim
    ∧ (∀ j < n, Dropped (s.moduleContexts j) (t.moduleContexts j)
      (OwnedSlot (s.moduleContexts j)) (fun i => i < interruptSources) ccon.mask)
    ∧ ∀ j, n ≤ j → t.moduleContexts j = s.moduleContexts j) hloop ?_ ?_
  · exact ⟨rfl, fun j hj => absurd hj (Nat.not_lt_zero j), fun _ _ => rfl⟩
  · rintro midx - t t' ⟨hptim, hin, hout⟩ hs
    simp only [Option.bind_eq_some_iff, Option.map_eq_some_iff] at hs
    obtain ⟨m₁, h₁, m₂, h₂, rfl⟩ := hs
    rw [hout midx le_rfl] at h₁
    refine ⟨hptim, fun j hj => ?_, fun j hj => ?_⟩
    · by_cases hjm : j = midx
      · subst hjm
        simp only [WorkingArea.setModule, update_self]
        exact disConnectModule_dropped h₁ h₂
      · simp only [WorkingArea.setModule, update_of_ne hjm]
        exact hin j (by omega)
    · have hjm : j ≠ midx := by omega
      simp only [WorkingArea.setModule, update_of_ne hjm]
      exact hout j (by omega)

theorem setAction_effect {act : Action}
    (h : setAction s (s.clientContexts k).moduleIndex act = some (r, s')) :
    Effect s (.ioctl k.val (.setAction act)) s' := by
  rw [← clientModule_val] at h
  unfold setAction at h
  dsimp only at h
  split at h
  · rename_i hnum
    have hi : act.triggerNumber.toNat - 1 + 1 = act.triggerNumber.toNat := by omega
    have hlt : act.triggerNumber.toNat - 1 < ramTableSize := by omega
    split at h
    · exact .of_fail h
    · rename_i hclass
      split at h
      · split at h
        · exact .of_fail h
        · rename_i hsameNum
          split at h
          · exact .of_fail h
          · rename_i hsameClass
            split at h
            · exact .of_fail h
            · rename_i hsameCounter
              rw [not_not] at hsameNum hsameClass hsameCounter
              unfold writeAction at h
              dsimp only at h
              split at h
              · cases h
                refine .setAction k.isLt hi hlt hclass
                  (fun _ => ⟨hsameNum, hsameClass, hsameCounter⟩)
                  ⟨rfl, rfl, rfl, ?_, ?_, rfl, rfl⟩
                · rw [← hsameNum, update_eq_self]
                · rw [← hsameClass, update_eq_self]
              · cases h
      · rename_i hempty
        unfold writeAction at h
        dsimp only at h
        split at h
        · cases h
          exact .setAction k.isLt hi hlt hclass (fun hown => absurd hown hempty)
            ⟨rfl, rfl, rfl, rfl, rfl, rfl, rfl⟩
        · cases h
  · exact .of_fail h

theorem createPtim_effect {cnum : ℕ} {ptim : PtimBinding}
    (h : createPtim s ptim = some (r, s')) : Effect s (.ioctl cnum (.createPtim ptim)) s' := by
  unfold createPtim at h
  dsimp only at h
  split at h
  · exact .of_fail h
  · rename_i hnew
    split at h
    · exact .of_fail h
    · split at h
      · rename_i hmod
        split at h
        · exact .of_fail h
        · rename_i start hsearch
          simp only [Option.bind_eq_some_iff] at h
          obtain ⟨m, hm, h⟩ := h
          cases h
          exact .createPtim (by simpa using hnew) hmod hsearch (takeSlots_taken hm)
      · exact .of_fail h

theorem destroyPtim_effect {cnum : ℕ} {ptim : PtimBinding}
    (h : destroyPtim s ptim = some (r, s')) : Effect s (.ioctl cnum (.destroyPtim ptim)) s' := by
  unfold destroyPtim at h
  dsimp only at h
  split at h
  · split at h
    · exact .of_fail h
    · rename_i hidle
      split at h
      · rename_i hfound
        simp only [Option.bind_eq_some_iff] at h
        obtain ⟨m, hm, h⟩ := h
        cases h
        refine .destroyPtim ?_ hfound (freeSlots_freed hm)
        rintro i ⟨hi, hslot⟩
        by_contra hused
        exact hidle ⟨i, hi, hslot, hused⟩
      · exact .of_fail h
  · exact .of_fail h

theorem guardedIoctl_effect {cm : Ioctl}
    (h : guardedIoctl s (s.clientContexts k) cm = some (r, s')) :
    Effect s (.ioctl k.val cm) s' := by
  cases cm with
  | setModule lav => exact .of_fail h
  | lock => exact .of_fail h
  | unlock pw => exact .of_fail h
  | connect conx => exact connect_effect h
  | disconnect conx =>
    simp only [guardedIoctl] at h
    split at h
    · rename_i hnum
      exact disConnect_effect hnum h
    · rename_i hnum
      rw [not_not] at hnum
      obtain ⟨hptim, hin, hout⟩ := disConnectAll_spec h
      rw [← clientMask_val] at hin
      exact .disconnectAll k.isLt (.inr ⟨conx, rfl, hnum⟩) hptim hin hout
  | setAction act => exact setAction_effect h
  | createCtim ctim =>
    simp only [guardedIoctl, createCtim] at h
    split at h
    · exact .of_fail h
    · split at h
      · cases h
        exact .quiet rfl fun _ => SameTables.refl _
      · exact .of_fail h
  | destroyCtim ctim =>
    simp only [guardedIoctl, destroyCtim] at h
    split at h
    · split at h
      · exact .of_fail h
      · cases h
        exact .quiet rfl fun _ => SameTables.refl _
    · exact .of_fail h
  | createPtim ptim => exact createPtim_effect h
  | destroyPtim ptim => exact destroyPtim_effect h

theorem decodeIoctl_effect {cm : Ioctl} (h : decodeIoctl s k cm = some (r, s')) :
    Effect s (.ioctl k.val cm) s' := by
  unfold decodeIoctl at h
  dsimp only at h
  split at h
  · split at h
    · cases h
      exact .quiet rfl fun _ => SameTables.refl _
    · exact .of_fail h
  · cases h
    exact .quiet rfl (SameTables.setModule ⟨rfl, rfl, rfl, rfl, rfl, rfl, rfl⟩)
  · cases h
    refine .quiet rfl (SameTables.setModule ?_)
    unfold clrUplock
    split
    · exact ⟨rfl, rfl, rfl, rfl, rfl, rfl, rfl⟩
    · exact SameTables.refl _
  · split at h
    · exact .of_fail h
    · exact guardedIoctl_effect h

end Client

/-! ### Calls that are served -/

/-- The client is open, and its module is in use and not locked. -/
def WorkingArea.Serves (s : WorkingArea) (cnum : ℕ) : Prop :=
  ∃ h : cnum < 16, (s.clientContexts ⟨cnum, h⟩).inUse = true
    ∧ (s.moduleContexts (s.clientContexts ⟨cnum, h⟩).moduleIndex).inUse = true
    ∧ (s.moduleContexts (s.clientContexts ⟨cnum, h⟩).moduleIndex).upLock = false

instance (s : WorkingArea) (cnum : ℕ) : Decidable (s.Serves cnum) :=
  inferInstanceAs (Decidable (∃ _, _))

/-- The ioctls that a locked module refuses. -/
def Ioctl.Guarded : Ioctl → Prop
  | .setModule _ | .lock | .unlock _ => False
  | _ => True

theorem decodeIoctl_guarded {s : WorkingArea} {k : Fin 16} {cm : Ioctl} (h : cm.Guarded) :
    decodeIoctl s k cm =
      if (s.moduleContexts (s.clientContexts k).moduleIndex).upLock then s.fail .EINVAL
      else guardedIoctl s (s.clientContexts k) cm := by
  cases cm <;> first | rfl | exact h.elim

theorem step_served {s : WorkingArea} {cnum : ℕ} {cm : Ioctl} (hcm : cm.Guarded)
    (h : s.Serves cnum) : s.step (.ioctl cnum cm) =
      (guardedIoctl s (s.clientContexts ⟨cnum, h.1⟩) cm).map Prod.snd := by
  obtain ⟨hcnum, hopen, hused, hlock⟩ := h
  simp only [WorkingArea.step, Call.run, ctrDrvrIoctl, dif_pos hcnum, hopen, hused,
    decodeIoctl_guarded hcm, hlock, Bool.true_eq_false, Bool.false_eq_true, if_false]

theorem step_unserved {s s' : WorkingArea} {cnum : ℕ} {cm : Ioctl} (hcm : cm.Guarded)
    (h : ¬ s.Serves cnum) (hs : s.step (.ioctl cnum cm) = some s') : s' = s := by
  simp only [WorkingArea.step, Call.run, ctrDrvrIoctl] at hs
  split at hs
  · rename_i hcnum
    split at hs
    · cases hs
      rfl
    · rename_i hopen
      split at hs
      · cases hs
        rfl
      · rename_i hused
        rw [decodeIoctl_guarded hcm] at hs
        split at hs
        · cases hs
          rfl
        · rename_i hlock
          exact absurd ⟨hcnum, by simpa using hopen, by simpa using hused, by simpa using hlock⟩ h
  · cases hs
    rfl

theorem effect_of_step {s s' : WorkingArea} {c : Call} (h : s.step c = some s') :
    Effect s c s' := by
  simp only [WorkingArea.step, Option.map_eq_some_iff, Prod.exists, exists_eq_right] at h
  obtain ⟨r, h⟩ := h
  cases c with
  | «open» cnum =>
    simp only [Call.run, ctrDrvrOpen] at h
    split at h
    · split at h
      · exact .of_fail h
      · cases h
        exact .quiet rfl fun _ => SameTables.refl _
    · exact .of_fail h
  | close cnum =>
    simp only [Call.run, ctrDrvrClose] at h
    split at h
    · rename_i hcnum
      obtain ⟨hptim, hin, hout⟩ := disConnectAll_spec h
      refine .disconnectAll hcnum (.inl rfl) hptim ?_ hout
      rw [WorkingArea.clientMask, dif_pos hcnum]
      exact hin
    · exact .of_fail h
  | ioctl cnum cm =>
    simp only [Call.run, ctrDrvrIoctl] at h
    split at h
    · rename_i hcnum
      split at h
      · exact .of_fail h
      · split at h
        · exact .of_fail h
        · exact decodeIoctl_effect h
    · exact .of_fail h
  | memory midx beyond =>
    simp only [Call.run] at h
    cases h
    exact .quiet rfl (SameTables.setModule ⟨rfl, rfl, rfl, rfl, rfl, rfl, rfl⟩)

end KernelModules.Ctr
