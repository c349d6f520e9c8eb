import KernelModules.Ctr.Library

/-!
# Connections with a payload

`ctr_connect_payload` connects to a CTIM and then looks for the first trigger that carries it, to
write the wanted payload into its frame.  The driver has one slot for all clients of a CTIM, so
the frame it rewrites may be the one that another client waits for.

* `ctrConnect` and `ctrConnectPayload` are the functions of these names, and `libConnections` all
  runs of them by any clients;
* `connect_cases` says what a `CONNECT` does to the triggers, `rewriteFirst_ok` what the search
  does, and `ConnectCall.rewrites` reads off a state the slot whose frame a call will write;
* `framesKept_iff` says that a successful call disturbs nobody just when nobody else waits on that
  slot for another frame.
-/

namespace KernelModules.Ctr

open Function KernelModules.Lib

/-! ### The functions -/

/-- `ctr_connect`. -/
def ctrConnect (fd : ℕ) (cls : ConnectionClass) (equip : U32) : LibCall Unit := do
  let mod ← ctrGetModule fd
  ioctl fd (.connect ⟨mod, cls, equip⟩)

/-- The loop of `ctr_connect_payload` over the trigger numbers `js`; `false` is its end. -/
def rewriteFirst (fd : ℕ) (ctim frame : U32) : List ℕ → LibCall Bool
  | [] => pure false
  | j :: js => do
    let act ← getActionOf fd (BitVec.ofNat 32 j)
    if act.eqpClass = .ctim ∧ act.trigger.ctim = ctim then
      ioctl fd (.setAction { act with trigger := { act.trigger with frame := frame } })
      pure true
    else rewriteFirst fd ctim frame js

/-- The loop over the CTIM objects. -/
def connectObjects (fd : ℕ) (ctim payload : U32) : List CtimBinding → LibCall Unit
  | [] => .fail (.driver .ENODEV)
  | o :: os =>
    if o.eqpNum = ctim then do
      ctrConnect fd .ctim ctim
      let done ← rewriteFirst fd ctim (withPayload o.frame payload) (List.range' 1 ramTableSize)
      if done then pure () else connectObjects fd ctim payload os
    else connectObjects fd ctim payload os

/-- `ctr_connect_payload`. -/
def ctrConnectPayload (fd : ℕ) (ctim payload : U32) : LibCall Unit := do
  let _ ← ctrGetModule fd
  let ctimo ← listCtimObjects fd
  connectObjects fd ctim payload ctimo

/-- A call of one of the two, on the handle `fd`. -/
inductive ConnectCall
  | connect (fd : ℕ) (cls : ConnectionClass) (equip : U32)
  | connectPayload (fd : ℕ) (ctim payload : U32)

def ConnectCall.fd : ConnectCall → ℕ
  | .connect fd _ _ => fd
  | .connectPayload fd _ _ => fd

def ConnectCall.run : ConnectCall → LibCall Unit
  | .connect fd cls equip => ctrConnect fd cls equip
  | .connectPayload fd ctim payload => ctrConnectPayload fd ctim payload

/-- Every CTIM instance has the trigger that `Connect` gives it, or one with another frame, and
every handle one of the driver's modules. -/
structure LibArea.Ready (s : LibArea) : Prop where
  modules : ∀ k, (s.clientContexts k).moduleIndex < 16
  instances : ∀ midx i, (s.moduleContexts midx).eqpClass i = .ctim →
    ((s.moduleContexts midx).trigs i).ctim = (s.moduleContexts midx).eqpNum i

/-- The two functions, called by any clients in any order. -/
def libConnections : System LibArea ConnectCall :=
  .ofFun LibArea.Ready fun s c => (c.run s).map Prod.snd

/-! ### What `CONNECT` does to the triggers -/

/-- The triggers and their owners are as they were. -/
structure KeptTriggers (m m' : ModuleContext) : Prop where
  trigs : m'.trigs = m.trigs
  hwTrigs : m'.hwTrigs = m.hwTrigs
  eqpNum : m'.eqpNum = m.eqpNum
  eqpClass : m'.eqpClass = m.eqpClass

theorem KeptTriggers.refl (m : ModuleContext) : KeptTriggers m m := ⟨rfl, rfl, rfl, rfl⟩

theorem KeptTriggers.trans {m₁ m₂ m₃ : ModuleContext} (h : KeptTriggers m₁ m₂)
    (h' : KeptTriggers m₂ m₃) : KeptTriggers m₁ m₃ :=
  ⟨h'.trigs.trans h.trigs, h'.hwTrigs.trans h.hwTrigs, h'.eqpNum.trans h.eqpNum,
    h'.eqpClass.trans h.eqpClass⟩

/-- Slot `i` has become an instance of a CTIM. -/
structure MadeInstance (m m' : ModuleContext) (i : ℕ) (num frame : U32) : Prop where
  trigs : m'.trigs = update m.trigs i (ctimTrigger num frame)
  hwTrigs : m'.hwTrigs = update m.hwTrigs i (triggerToHard (ctimTrigger num frame))
  eqpNum : m'.eqpNum = update m.eqpNum i num
  eqpClass : m'.eqpClass = update m.eqpClass i .ctim

theorem connectSlot_kept {m m' : ModuleContext} {i : ℕ} {cmsk hmsk : U32}
    (h : connectSlot m i cmsk hmsk = some m') :
    KeptTriggers m m' ∧ m'.clients = update m.clients i (m.clients i ||| cmsk) := by
  unfold connectSlot at h
  split at h
  · cases h
    exact ⟨⟨rfl, rfl, rfl, rfl⟩, rfl⟩
  · cases h

theorem connectPtim_kept {m : ModuleContext} {num cmsk : U32} {p : ℕ × ModuleContext}
    (h : connectPtim m num cmsk = some p) : KeptTriggers m p.2 := by
  refine loop_invariant (P := fun _ q => KeptTriggers m q.2) h (.refl m) ?_
  rintro i - ⟨count, t⟩ t' ht hstep
  dsimp only at hstep
  split at hstep
  · obtain ⟨t₁, ht₁, rfl⟩ := Option.map_eq_some_iff.mp hstep
    exact ht.trans (connectSlot_kept ht₁).1
  · cases hstep
    exact ht

theorem connectHard_kept {m : ModuleContext} {num cmsk : U32} {p : ℕ × ModuleContext}
    (h : connectHard m num cmsk = some p) : KeptTriggers m p.2 := by
  refine loop_invariant (P := fun _ q => KeptTriggers m q.2) h (.refl m) ?_
  rintro i - ⟨count, t⟩ t' ht hstep
  dsimp only at hstep
  split at hstep
  · cases hstep
    exact ht.trans ⟨rfl, rfl, rfl, rfl⟩
  · cases hstep
    exact ht

theorem newCtimInstance_made {m m' : ModuleContext} {i : ℕ} {num frame cmsk : U32}
    (h : newCtimInstance m i num frame cmsk = some m') :
    MadeInstance m m' i num frame ∧ m'.clients = update m.clients i (m.clients i ||| cmsk) := by
  unfold newCtimInstance at h
  split at h
  · cases h
    exact ⟨⟨rfl, rfl, rfl, rfl⟩, rfl⟩
  · cases h

/-- What a `CONNECT` for a CTIM does to the module's slots. -/
inductive CtimConnected (s : WorkingArea) (m m' : ModuleContext) (num cmsk : U32) (i : ℕ) : Prop
  | shared (hslot : ctimSlot m num = some i) (hkept : KeptTriggers m m')
      (hclients : m'.clients = update m.clients i (m.clients i ||| cmsk))
  | made {o : CtimBinding} (hnone : ctimSlot m num = none) (ho : s.ctimObject num = some o)
      (hslot : emptySlot m = some i) (hmade : MadeInstance m m' i num o.frame)
      (hclients : m'.clients = update m.clients i (m.clients i ||| cmsk))

theorem connectCtim_cases {s s' : WorkingArea} {midx : ℕ} {num cmsk : U32}
    {r : Except Errno Unit} (h : connectCtim s midx num cmsk = some (r, s')) :
    (s' = s ∧ ∃ e, r = .error e) ∨ ∃ i m', s' = s.setModule midx m' ∧
      CtimConnected s (s.moduleContexts midx) m' num cmsk i := by
  unfold connectCtim at h
  dsimp only at h
  split at h
  · rename_i i hi
    obtain ⟨m, hm, hfin⟩ := Option.bind_eq_some_iff.mp h
    obtain ⟨hw, rfl⟩ := finishConnect_spec hfin
    obtain ⟨hkept, hclients⟩ := connectSlot_kept hm
    exact .inr ⟨i, _, rfl, .shared hi (hkept.trans ⟨rfl, rfl, rfl, rfl⟩) hclients⟩
  · rename_i hnone
    split at h
    · cases h
      exact .inl ⟨rfl, _, rfl⟩
    · rename_i o ho
      split at h
      · split at h
        · cases h
          exact .inl ⟨rfl, _, rfl⟩
        · rename_i i hi
          obtain ⟨m, hm, hfin⟩ := Option.bind_eq_some_iff.mp h
          obtain ⟨hw, rfl⟩ := finishConnect_spec hfin
          obtain ⟨hmade, hclients⟩ := newCtimInstance_made hm
          exact .inr ⟨i, _, rfl, .made hnone ho hi
            ⟨hmade.trigs, hmade.hwTrigs, hmade.eqpNum, hmade.eqpClass⟩ hclients⟩
      · cases h
        exact .inl ⟨rfl, _, rfl⟩

theorem connect_cases {s s' : WorkingArea} {conx : Connection} {ccon : ClientContext}
    {r : Except Errno Unit} (h : connect s conx ccon = some (r, s')) :
    (∃ midx m', s' = s.setModule midx m' ∧ KeptTriggers (s.moduleContexts midx) m' ∧
        (conx.eqpClass = .ctim → ∃ e, r = .error e)) ∨
      conx.eqpClass = .ctim ∧ ∃ i m', s' = s.setModule (conx.moduleOr ccon.moduleIndex) m' ∧
        CtimConnected s (s.moduleContexts (conx.moduleOr ccon.moduleIndex)) m' conx.eqpNum
          ccon.mask i := by
  have hsame : s = s.setModule 0 (s.moduleContexts 0) := by
    rw [WorkingArea.setModule, update_eq_self]
  unfold connect at h
  dsimp only at h
  split at h
  · rename_i hclass
    split at h
    · cases h
      exact .inl ⟨0, _, hsame, .refl _, fun hc => absurd (hclass.symm.trans hc) (by decide)⟩
    · obtain ⟨p, hp, hfin⟩ := Option.bind_eq_some_iff.mp h
      obtain ⟨hw, rfl⟩ := finishConnect_spec hfin
      exact .inl ⟨_, _, rfl, (connectPtim_kept hp).trans ⟨rfl, rfl, rfl, rfl⟩,
        fun hc => absurd (hclass.symm.trans hc) (by decide)⟩
  · rename_i hclass
    obtain ⟨rfl, herror⟩ | hconn := connectCtim_cases h
    · exact .inl ⟨0, _, hsame, .refl _, fun _ => herror⟩
    · exact .inr ⟨hclass, hconn⟩
  · rename_i hptim hctim
    obtain ⟨p, hp, hfin⟩ := Option.bind_eq_some_iff.mp h
    obtain ⟨hw, rfl⟩ := finishConnect_spec hfin
    exact .inl ⟨_, _, rfl, (connectHard_kept hp).trans ⟨rfl, rfl, rfl, rfl⟩,
      fun hc => absurd hc hctim⟩

/-! ### What `ctr_connect` does -/

section Connect

variable {s s' s₁ : LibArea} {fd : ℕ} {cls : ConnectionClass} {equip : U32}
  {r : Except LibErrno Unit}

theorem moduleOr_current {n d : ℕ} (h : n < 16) :
    (⟨BitVec.ofNat 32 (n + 1), cls, equip⟩ : Connection).moduleOr d = n := by
  have hnat : (BitVec.ofNat 32 (n + 1)).toNat = n + 1 := by
    rw [BitVec.toNat_ofNat]
    exact Nat.mod_eq_of_lt (by omega)
  rw [Connection.moduleOr]
  dsimp only
  rw [hnat, if_pos ⟨by omega, by omega⟩, Nat.add_sub_cancel]

theorem ctrConnect_cases (hready : s.Ready) (h : ctrConnect fd cls equip s = some (r, s')) :
    (∃ midx m', s' = s.withModule midx m' ∧ KeptTriggers (s.moduleContexts midx) m' ∧
        (cls = .ctim → ∃ e, r = .error e)) ∨
      cls = .ctim ∧ ∃ i m', s' = s.withModule (s.clientModule fd) m' ∧
        CtimConnected s.toWorkingArea (s.current fd) m' equip (s.clientMask fd) i := by
  have hfailed : ∀ e, r = .error e → s' = s → ∃ midx m', s' = s.withModule midx m' ∧
      KeptTriggers (s.moduleContexts midx) m' ∧ (cls = .ctim → ∃ e, r = .error e) := by
    rintro e rfl rfl
    exact ⟨0, _, (s'.withModule_same 0).symm, .refl _, fun _ => ⟨e, rfl⟩⟩
  unfold ctrConnect at h
  have hioctl : (∃ e, r = .error e ∧ s' = s) ∨
      ioctl fd (.connect ⟨BitVec.ofNat 32 (s.clientModule fd + 1), cls, equip⟩) s =
        some (r, s') := by
    cases r with
    | ok u =>
      obtain ⟨n, s₁, hmod, hcon⟩ := Fallible.bind_ok.mp h
      obtain ⟨rfl, rfl⟩ := ctrGetModule_ok hmod
      exact .inr hcon
    | error e =>
      obtain hmod | ⟨n, s₁, hmod, hcon⟩ := Fallible.bind_error.mp h
      · exact .inl ⟨e, rfl, ctrGetModule_error hmod⟩
      · obtain ⟨rfl, rfl⟩ := ctrGetModule_ok hmod
        exact .inr hcon
  obtain ⟨e, hr, hs⟩ | hioctl := hioctl
  · exact .inl (hfailed e hr hs)
  · obtain ⟨r', w, hw, rfl, rfl⟩ := ioctl_eq_some.mp hioctl
    obtain ⟨rfl, e, rfl⟩ | ⟨k, hk, hguard⟩ := ctrDrvrIoctl_cases (fun _ => rfl) hw
    · exact .inl (hfailed _ rfl rfl)
    · subst hk
      rw [clientModule_val] at hguard
      obtain ⟨midx, m', rfl, hkept, herror⟩ | ⟨hclass, i, m', rfl, hconn⟩ := connect_cases hguard
      · refine .inl ⟨midx, m', rfl, hkept, fun hc => ?_⟩
        obtain ⟨e, rfl⟩ := herror hc
        exact ⟨_, rfl⟩
      · rw [moduleOr_current (hready.modules k)] at hconn ⊢
        refine .inr ⟨hclass, i, m', ?_, ?_⟩
        · rw [clientModule_val]
          rfl
        · rw [LibArea.current, clientModule_val, clientMask_val]
          exact hconn

theorem LibArea.Ready.withModule (hready : s.Ready) {midx : ℕ} {m' : ModuleContext}
    (h : ∀ i, m'.eqpClass i = .ctim → (m'.trigs i).ctim = m'.eqpNum i) :
    (s.withModule midx m').Ready := by
  refine ⟨hready.modules, fun j i => ?_⟩
  by_cases hj : j = midx
  · subst hj
    rw [LibArea.withModule_self]
    exact h i
  · rw [LibArea.withModule_of_ne s hj]
    exact hready.instances j i

theorem KeptTriggers.instances {m m' : ModuleContext} (h : KeptTriggers m m')
    (hm : ∀ i, m.eqpClass i = .ctim → (m.trigs i).ctim = m.eqpNum i) (i : ℕ)
    (hi : m'.eqpClass i = .ctim) : (m'.trigs i).ctim = m'.eqpNum i := by
  rw [h.trigs, h.eqpNum]
  exact hm i (h.eqpClass ▸ hi)

theorem MadeInstance.instances {m m' : ModuleContext} {i : ℕ} {num frame : U32}
    (h : MadeInstance m m' i num frame)
    (hm : ∀ j, m.eqpClass j = .ctim → (m.trigs j).ctim = m.eqpNum j) (j : ℕ)
    (hj : m'.eqpClass j = .ctim) : (m'.trigs j).ctim = m'.eqpNum j := by
  rw [h.trigs, h.eqpNum]
  by_cases hji : j = i
  · subst hji
    rw [update_self, update_self]
    rfl
  · rw [update_of_ne hji, update_of_ne hji]
    rw [h.eqpClass, update_of_ne hji] at hj
    exact hm j hj

theorem ctrConnect_ready (hready : s.Ready) (h : ctrConnect fd cls equip s = some (r, s')) :
    s'.Ready := by
  obtain ⟨midx, m', rfl, hkept, -⟩ | ⟨-, i, m', rfl, hconn⟩ := ctrConnect_cases hready h
  · exact hready.withModule (hkept.instances (hready.instances midx))
  · cases hconn with
    | shared _ hkept _ => exact hready.withModule (hkept.instances (hready.instances _))
    | made _ _ _ hmade _ => exact hready.withModule (hmade.instances (hready.instances _))

end Connect

/-! ### The slot of a CTIM -/

theorem findSlot_eq_some {p : ℕ → Bool} {i : ℕ} : findSlot p = some i ↔
    i < ramTableSize ∧ p i = true ∧ ∀ j < i, p j = false := by
  rw [findSlot, List.find?_range_eq_some]
  simp only [List.mem_range, Bool.not_eq_true', and_left_comm]

theorem ctimSlot_eq_some {m : ModuleContext} {num : U32} {i : ℕ} : ctimSlot m num = some i ↔
    i < ramTableSize ∧ (m.eqpNum i = num ∧ m.eqpClass i = .ctim) ∧
      ∀ j < i, ¬ (m.eqpNum j = num ∧ m.eqpClass j = .ctim) := by
  rw [ctimSlot, findSlot_eq_some]
  simp only [decide_eq_true_eq, decide_eq_false_iff_not, @eq_comm _ num,
    @eq_comm _ ConnectionClass.ctim]

theorem CtimConnected.slot {s : WorkingArea} {m m' : ModuleContext} {num cmsk : U32} {i : ℕ}
    (h : CtimConnected s m m' num cmsk i) : ctimSlot m' num = some i := by
  cases h with
  | shared hslot hkept _ =>
    rw [ctimSlot, hkept.eqpNum, hkept.eqpClass]
    exact hslot
  | made hnone _ hslot hmade _ =>
    rw [ctimSlot_eq_some, hmade.eqpNum, hmade.eqpClass]
    refine ⟨(emptySlot_some hslot).1, ⟨update_self _ _ _, update_self _ _ _⟩, fun j hj => ?_⟩
    rw [update_of_ne hj.ne, update_of_ne hj.ne]
    have hlt := (emptySlot_some hslot).1
    have hj' := List.find?_eq_none.mp hnone j (List.mem_range.mpr (hj.trans hlt))
    rw [decide_eq_true_eq] at hj'
    rintro ⟨hnum, hclass⟩
    exact hj' ⟨hnum.symm, hclass.symm⟩

theorem CtimConnected.clients {s : WorkingArea} {m m' : ModuleContext} {num cmsk : U32} {i : ℕ}
    (h : CtimConnected s m m' num cmsk i) :
    m'.clients = update m.clients i (m.clients i ||| cmsk) := by
  cases h with
  | shared _ _ hclients => exact hclients
  | made _ _ _ _ hclients => exact hclients

/-! ### The search for the CTIM's trigger -/

/-- Slot `i` has a trigger that the search takes for the CTIM's. -/
def Carries (m : ModuleContext) (ctim : U32) (i : ℕ) : Prop :=
  m.eqpClass i = .ctim ∧ (m.trigs i).ctim = ctim

/-- Slot `i` has another frame. -/
structure Rewritten (m m' : ModuleContext) (i : ℕ) (frame : U32) : Prop where
  trigs : m'.trigs = update m.trigs i { readTrigger m i with frame := frame }
  hwTrigs : m'.hwTrigs =
    update m.hwTrigs i (triggerToHard { readTrigger m i with frame := frame })
  eqpNum : m'.eqpNum = m.eqpNum
  eqpClass : m'.eqpClass = m.eqpClass
  clients : m'.clients = m.clients

section Search

variable {s s' : LibArea} {fd : ℕ} {ctim frame : U32}

theorem getActionOf_slot {i : ℕ} {act : Action} (hi : i < ramTableSize)
    (h : getActionOf fd (BitVec.ofNat 32 (i + 1)) s = some (.ok act, s')) :
    s' = s ∧ act.triggerNumber.toNat = i + 1 ∧ act.eqpNum = (s.current fd).eqpNum i ∧
      act.eqpClass = (s.current fd).eqpClass i ∧ act.trigger = readTrigger (s.current fd) i := by
  obtain ⟨rfl, -, -, -, rfl⟩ := getActionOf_ok.mp h
  have hnat : (BitVec.ofNat 32 (i + 1)).toNat = i + 1 := by
    rw [BitVec.toNat_ofNat]
    refine Nat.mod_eq_of_lt ?_
    unfold ramTableSize at hi
    omega
  simp only [readAction, hnat, Nat.add_sub_cancel, and_self]

theorem setAction_rewritten {i : ℕ} {act : Action} (hnumber : act.triggerNumber.toNat = i + 1)
    (hnum : act.eqpNum = (s.current fd).eqpNum i)
    (hclass : act.eqpClass = (s.current fd).eqpClass i)
    (htrigger : act.trigger = readTrigger (s.current fd) i)
    (h : ioctl fd (.setAction { act with trigger := { act.trigger with frame := frame } }) s =
      some (.ok (), s')) :
    ∃ m', s' = s.withModule (s.clientModule fd) m' ∧ Rewritten (s.current fd) m' i frame := by
  obtain ⟨-, -, m', rfl, hw⟩ := ioctl_setAction_ok h
  have hi : act.triggerNumber.toNat - 1 = i := by omega
  refine ⟨m', rfl, ?_⟩
  constructor
  · rw [hw.trigs, ← htrigger, ← hi]
  · rw [hw.hwTrigs, ← htrigger, ← hi]
  · rw [hw.eqpNum, hi, hnum, update_eq_self]
  · rw [hw.eqpClass, hi, hclass, update_eq_self]
  · exact hw.clients

theorem rewriteFirst_ok {n a : ℕ} {b : Bool} (hle : a + n ≤ ramTableSize)
    (h : rewriteFirst fd ctim frame (List.range' (a + 1) n) s = some (.ok b, s')) :
    (b = false ∧ ∀ i, a ≤ i → i < a + n → ¬ Carries (s.current fd) ctim i) ∨
      ∃ i m', (b = true ∧ s' = s.withModule (s.clientModule fd) m' ∧
          Rewritten (s.current fd) m' i frame) ∧
        (a ≤ i ∧ i < a + n) ∧ Carries (s.current fd) ctim i ∧
        ∀ j, a ≤ j → j < i → ¬ Carries (s.current fd) ctim j := by
  induction n generalizing a with
  | zero =>
    obtain ⟨rfl, -⟩ := Fallible.pure_ok.mp h
    exact .inl ⟨rfl, fun i hlo hhi => absurd hhi (by omega)⟩
  | succ n ih =>
    rw [List.range'_succ, rewriteFirst] at h
    obtain ⟨act, s₁, hget, hrest⟩ := Fallible.bind_ok.mp h
    obtain ⟨rfl, hnumber, hnum, hclass, htrigger⟩ := getActionOf_slot (by omega) hget
    have hcarries : (act.eqpClass = .ctim ∧ act.trigger.ctim = ctim) ↔
        Carries (s₁.current fd) ctim a := by
      rw [hclass, htrigger]
      exact Iff.rfl
    split at hrest
    · rename_i hfound
      obtain ⟨_, s₂, hset, hdone⟩ := Fallible.bind_ok.mp hrest
      obtain ⟨rfl, rfl⟩ := Fallible.pure_ok.mp hdone
      obtain ⟨m', hs, hrewritten⟩ := setAction_rewritten hnumber hnum hclass htrigger hset
      exact .inr ⟨a, m', ⟨rfl, hs, hrewritten⟩, ⟨le_rfl, by omega⟩, hcarries.mp hfound,
        fun j hlo hhi => absurd hhi (by omega)⟩
    · rename_i hnot
      rw [hcarries] at hnot
      have hhere : ∀ j, a ≤ j → j < a + 1 → ¬ Carries (s₁.current fd) ctim j := by
        intro j hlo hhi
        obtain rfl : j = a := by omega
        exact hnot
      obtain ⟨rfl, hnone⟩ | ⟨i, m', hdone, ⟨hlo, hhi⟩, hcarry, hfirst⟩ := ih (by omega) hrest
      · refine .inl ⟨rfl, fun j hj hj' => ?_⟩
        obtain hlt | hge := Nat.lt_or_ge j (a + 1)
        · exact hhere j hj hlt
        · exact hnone j hge (by omega)
      · refine .inr ⟨i, m', hdone, ⟨by omega, by omega⟩, hcarry, fun j hj hj' => ?_⟩
        obtain hlt | hge := Nat.lt_or_ge j (a + 1)
        · exact hhere j hj hlt
        · exact hfirst j hge hj'

theorem rewriteFirst_error {js : List ℕ} {e : LibErrno}
    (h : rewriteFirst fd ctim frame js s = some (.error e, s')) : s' = s := by
  induction js with
  | nil => exact absurd h Fallible.pure_error
  | cons j js ih =>
    rw [rewriteFirst] at h
    obtain hget | ⟨act, s₁, hget, hrest⟩ := Fallible.bind_error.mp h
    · exact query_state hget
    · obtain rfl := query_state hget
      split at hrest
      · obtain hset | ⟨_, s₂, -, hdone⟩ := Fallible.bind_error.mp hrest
        · exact ioctl_setAction_error hset
        · exact absurd hdone Fallible.pure_error
      · exact ih hrest

end Search

/-! ### What `ctr_connect_payload` does -/

section Payload

variable {s s' s₁ : LibArea} {fd i : ℕ} {ctim payload frame : U32} {m₁ : ModuleContext}

theorem rewriteFirst_connected (hready : (s.withModule (s.clientModule fd) m₁).Ready)
    (hslot : ctimSlot m₁ ctim = some i) {b : Bool}
    (h : rewriteFirst fd ctim frame (List.range' 1 ramTableSize)
      (s.withModule (s.clientModule fd) m₁) = some (.ok b, s')) :
    b = true ∧ ∃ m', s' = s.withModule (s.clientModule fd) m' ∧ Rewritten m₁ m' i frame := by
  have hcurrent : (s.withModule (s.clientModule fd) m₁).current fd = m₁ := s.withModule_self _ _
  have hcarries : ∀ j, Carries m₁ ctim j ↔ m₁.eqpNum j = ctim ∧ m₁.eqpClass j = .ctim := by
    intro j
    have hj := hready.instances (s.clientModule fd) j
    rw [LibArea.withModule_self] at hj
    constructor
    · rintro ⟨hclass, hctim⟩
      exact ⟨(hj hclass).symm.trans hctim, hclass⟩
    · rintro ⟨hnum, hclass⟩
      exact ⟨hclass, (hj hclass).trans hnum⟩
  obtain ⟨hlt, hown, hfirst⟩ := ctimSlot_eq_some.mp hslot
  obtain ⟨-, hnone⟩ | ⟨j, m', ⟨rfl, rfl, hrewritten⟩, ⟨-, hj⟩, hcarry, hleast⟩ :=
    rewriteFirst_ok (Nat.zero_add _).le h
  · rw [hcurrent] at hnone
    exact absurd ((hcarries i).mpr hown) (hnone i i.zero_le (by omega))
  · rw [hcurrent] at hrewritten hcarry hleast
    -- both are the first slot of the CTIM
    have hij : j = i := by
      obtain hlt | rfl | hgt := Nat.lt_trichotomy j i
      · exact absurd ((hcarries j).mp hcarry) (hfirst j hlt)
      · rfl
      · exact absurd ((hcarries i).mpr hown) (hleast i i.zero_le hgt)
    subst hij
    refine ⟨rfl, m', ?_, hrewritten⟩
    change (s.withModule (s.clientModule fd) m₁).withModule (s.clientModule fd) m' = _
    simp only [LibArea.withModule, WorkingArea.setModule, update_idem]

/-- A `ctr_connect_payload` that has succeeded: it connected to slot `i`, and rewrote that slot. -/
structure PayloadConnected (s s' : LibArea) (fd : ℕ) (ctim frame : U32) (i : ℕ)
    (m₁ m' : ModuleContext) : Prop where
  state : s' = s.withModule (s.clientModule fd) m'
  connected : CtimConnected s.toWorkingArea (s.current fd) m₁ ctim (s.clientMask fd) i
  rewritten : Rewritten m₁ m' i frame

theorem connectObjects_ok {os : List CtimBinding} (hready : s.Ready)
    (h : connectObjects fd ctim payload os s = some (.ok (), s')) :
    ∃ o, os.find? (fun o => ctim = o.eqpNum) = some o ∧
      ∃ i m₁ m', PayloadConnected s s' fd ctim (withPayload o.frame payload) i m₁ m' := by
  induction os with
  | nil => exact absurd h Fallible.fail_ok
  | cons o os ih =>
    rw [connectObjects] at h
    split at h
    · rename_i ho
      obtain ⟨_, s₁, hconnect, hrest⟩ := Fallible.bind_ok.mp h
      obtain ⟨b, s₂, hsearch, hdone⟩ := Fallible.bind_ok.mp hrest
      have hready₁ := ctrConnect_ready hready hconnect
      obtain ⟨-, -, -, -, herror⟩ | ⟨-, i, m₁, rfl, hconn⟩ := ctrConnect_cases hready hconnect
      · obtain ⟨e, he⟩ := herror rfl
        cases he
      · obtain ⟨rfl, m', rfl, hrewritten⟩ :=
          rewriteFirst_connected hready₁ hconn.slot hsearch
        obtain ⟨-, rfl⟩ := Fallible.pure_ok.mp hdone
        refine ⟨o, ?_, i, m₁, m', rfl, hconn, hrewritten⟩
        rw [List.find?_cons_of_pos]
        exact decide_eq_true ho.symm
    · rename_i ho
      obtain ⟨o', hfind, hdone⟩ := ih h
      refine ⟨o', ?_, hdone⟩
      rw [List.find?_cons_of_neg]
      · exact hfind
      · simpa [eq_comm] using ho

theorem connectObjects_error {os : List CtimBinding} {e : LibErrno} (hready : s.Ready)
    (h : connectObjects fd ctim payload os s = some (.error e, s')) : s'.Ready := by
  induction os with
  | nil =>
    obtain ⟨-, rfl⟩ := Fallible.fail_error.mp h
    exact hready
  | cons o os ih =>
    rw [connectObjects] at h
    split at h
    · obtain hconnect | ⟨_, s₁, hconnect, hrest⟩ := Fallible.bind_error.mp h
      · exact ctrConnect_ready hready hconnect
      · have hready₁ := ctrConnect_ready hready hconnect
        obtain hsearch | ⟨b, s₂, hsearch, hdone⟩ := Fallible.bind_error.mp hrest
        · rw [rewriteFirst_error hsearch]
          exact hready₁
        · obtain ⟨-, -, -, -, herror⟩ | ⟨-, i, m₁, rfl, hconn⟩ := ctrConnect_cases hready hconnect
          · obtain ⟨e, he⟩ := herror rfl
            cases he
          · obtain ⟨rfl, -⟩ := rewriteFirst_connected hready₁ hconn.slot hsearch
            exact absurd hdone Fallible.pure_error
    · exact ih h

theorem ctrConnectPayload_ok (hready : s.Ready)
    (h : ctrConnectPayload fd ctim payload s = some (.ok (), s')) :
    ∃ o, s.ctimObject ctim = some o ∧
      ∃ i m₁ m', PayloadConnected s s' fd ctim (withPayload o.frame payload) i m₁ m' := by
  obtain ⟨n, s₁, hmod, hrest⟩ := Fallible.bind_ok.mp h
  obtain ⟨rfl, -⟩ := ctrGetModule_ok hmod
  obtain ⟨os, s₂, hlist, hloop⟩ := Fallible.bind_ok.mp hrest
  obtain ⟨rfl, k, -, hos⟩ := query_ok.mp hlist
  cases hos
  exact connectObjects_ok hready hloop

theorem Rewritten.instances {m m' : ModuleContext} (h : Rewritten m m' i frame)
    (hm : ∀ j, m.eqpClass j = .ctim → (m.trigs j).ctim = m.eqpNum j) (j : ℕ)
    (hj : m'.eqpClass j = .ctim) : (m'.trigs j).ctim = m'.eqpNum j := by
  rw [h.eqpClass] at hj
  rw [h.trigs, h.eqpNum]
  by_cases hji : j = i
  · subst hji
    rw [update_self]
    exact hm j hj
  · rw [update_of_ne hji]
    exact hm j hj

theorem CtimConnected.instances {s : WorkingArea} {m m' : ModuleContext} {num cmsk : U32}
    (h : CtimConnected s m m' num cmsk i)
    (hm : ∀ j, m.eqpClass j = .ctim → (m.trigs j).ctim = m.eqpNum j) :
    ∀ j, m'.eqpClass j = .ctim → (m'.trigs j).ctim = m'.eqpNum j := by
  cases h with
  | shared _ hkept _ => exact hkept.instances hm
  | made _ _ _ hmade _ => exact hmade.instances hm

theorem ctrConnectPayload_ready {r : Except LibErrno Unit} (hready : s.Ready)
    (h : ctrConnectPayload fd ctim payload s = some (r, s')) : s'.Ready := by
  cases r with
  | ok u =>
    obtain ⟨o, -, i, m₁, m', rfl, hconn, hrewritten⟩ := ctrConnectPayload_ok hready h
    exact hready.withModule (hrewritten.instances (hconn.instances (hready.instances _)))
  | error e =>
    obtain hmod | ⟨n, s₁, hmod, hrest⟩ := Fallible.bind_error.mp h
    · rw [ctrGetModule_error hmod]
      exact hready
    · obtain ⟨rfl, -⟩ := ctrGetModule_ok hmod
      obtain hlist | ⟨os, s₂, hlist, hloop⟩ := Fallible.bind_error.mp hrest
      · rw [query_state hlist]
        exact hready
      · obtain rfl := query_state hlist
        exact connectObjects_error hready hloop

theorem ready_of_reach (h : libConnections.Reach s) : s.Ready := by
  refine h.invariant (fun _ hs => hs) ?_
  intro t c t' ht hstep
  obtain ⟨⟨r, t₁⟩, hrun, rfl⟩ := Option.map_eq_some_iff.mp hstep
  cases c with
  | connect fd cls equip => exact ctrConnect_ready ht hrun
  | connectPayload fd ctim payload => exact ctrConnectPayload_ready ht hrun

end Payload

/-! ### Who is disturbed -/

/-- The frame of a slot, in the driver's table and on the card. -/
def LibArea.frames (s : LibArea) (midx i : ℕ) : U32 × U32 :=
  (((s.moduleContexts midx).trigs i).frame, ((s.moduleContexts midx).hwTrigs i).frame)

/-- Handle `fd` is connected to slot `i` of module `midx`. -/
def LibArea.OnSlot (s : LibArea) (fd midx i : ℕ) : Prop :=
  (s.moduleContexts midx).clients i &&& s.clientMask fd ≠ 0

/-- The slots that the other handles are connected to keep their frames. -/
def FramesKept (fd : ℕ) (s s' : LibArea) : Prop :=
  ∀ k < 16, k ≠ fd → ∀ midx i, s.OnSlot k midx i → s'.frames midx i = s.frames midx i

/-- After `ctr_connect_payload` the caller is connected to a slot with the code of the CTIM and the
payload. -/
def ConnectCall.Delivered (s' : LibArea) : ConnectCall → Prop
  | .connect _ _ _ => True
  | .connectPayload fd ctim payload => ∃ o, s'.ctimObject ctim = some o ∧ ∃ midx, ∃ i < ramTableSize,
      s'.OnSlot fd midx i ∧
      s'.frames midx i = (withPayload o.frame payload, withPayload o.frame payload)

/-- The slot of the handle's module whose frame a call will write, and the frame: the CTIM's slot,
or the first empty one. -/
def ConnectCall.rewrites (s : LibArea) : ConnectCall → Option (ℕ × U32)
  | .connect fd .ctim num =>
    if ctimSlot (s.current fd) num = none then
      (s.ctimObject num).bind fun o => (emptySlot (s.current fd)).map fun i => (i, o.frame)
    else none
  | .connect _ _ _ => none
  | .connectPayload fd ctim payload =>
    (s.ctimObject ctim).bind fun o =>
      ((ctimSlot (s.current fd) ctim).or (emptySlot (s.current fd))).map fun i =>
        (i, withPayload o.frame payload)

/-- Nobody else waits on that slot for another frame. -/
def ConnectCall.Undisturbing (s : LibArea) (c : ConnectCall) : Prop :=
  ∀ i frame, c.rewrites s = some (i, frame) → ∀ k < 16, k ≠ c.fd →
    s.OnSlot k (s.clientModule c.fd) i → s.frames (s.clientModule c.fd) i = (frame, frame)

/-- The frames after slot `i` of a handle's module was given one. -/
structure FramesSet (s s' : LibArea) (fd i : ℕ) (frame : U32) : Prop where
  slot : s'.frames (s.clientModule fd) i = (frame, frame)
  others : ∀ midx j, midx ≠ s.clientModule fd ∨ j ≠ i → s'.frames midx j = s.frames midx j

section Disturb

variable {s s' : LibArea} {fd i : ℕ} {frame : U32}

theorem framesSet_of_update {m' : ModuleContext} {t : Trigger} (hframe : t.frame = frame)
    (htrigs : m'.trigs = update (s.current fd).trigs i t)
    (hhwTrigs : m'.hwTrigs = update (s.current fd).hwTrigs i (triggerToHard t)) :
    FramesSet s (s.withModule (s.clientModule fd) m') fd i frame := by
  constructor
  · rw [LibArea.frames, LibArea.withModule_self, htrigs, hhwTrigs, update_self, update_self,
      ← hframe]
    rfl
  · intro midx j hne
    by_cases hmidx : midx = s.clientModule fd
    · subst hmidx
      have hj : j ≠ i := hne.resolve_left fun h => h rfl
      rw [LibArea.frames, LibArea.withModule_self, htrigs, hhwTrigs, update_of_ne hj,
        update_of_ne hj]
      rfl
    · rw [LibArea.frames, LibArea.withModule_of_ne s hmidx]
      rfl

theorem frames_of_kept {midx : ℕ} {m' : ModuleContext}
    (h : KeptTriggers (s.moduleContexts midx) m') (j k : ℕ) :
    (s.withModule midx m').frames j k = s.frames j k := by
  by_cases hj : j = midx
  · subst hj
    rw [LibArea.frames, LibArea.withModule_self, h.trigs, h.hwTrigs]
    rfl
  · rw [LibArea.frames, LibArea.withModule_of_ne s hj]
    rfl

theorem PayloadConnected.framesSet {ctim : U32} {m₁ m' : ModuleContext}
    (h : PayloadConnected s s' fd ctim frame i m₁ m') : FramesSet s s' fd i frame := by
  obtain ⟨rfl, hconn, hrewritten⟩ := h
  cases hconn with
  | shared _ hkept _ =>
    refine framesSet_of_update (t := { readTrigger m₁ i with frame := frame }) rfl ?_ ?_
    · rw [hrewritten.trigs, hkept.trigs]
    · rw [hrewritten.hwTrigs, hkept.hwTrigs]
  | made _ _ _ hmade _ =>
    refine framesSet_of_update (t := { readTrigger m₁ i with frame := frame }) rfl ?_ ?_
    · rw [hrewritten.trigs, hmade.trigs, update_idem]
    · rw [hrewritten.hwTrigs, hmade.hwTrigs, update_idem]

theorem run_frames {c : ConnectCall} (hready : s.Ready) (h : c.run s = some (.ok (), s')) :
    (c.rewrites s = none ∧ ∀ midx j, s'.frames midx j = s.frames midx j) ∨
      ∃ i frame, c.rewrites s = some (i, frame) ∧ FramesSet s s' c.fd i frame := by
  cases c with
  | connect fd cls equip =>
    obtain ⟨midx, m', rfl, hkept, herror⟩ | ⟨rfl, i, m', rfl, hconn⟩ := ctrConnect_cases hready h
    · refine .inl ⟨?_, frames_of_kept hkept⟩
      cases cls with
      | ctim =>
        obtain ⟨e, he⟩ := herror rfl
        cases he
      | hard => rfl
      | ptim => rfl
      | other v => rfl
    · cases hconn with
      | shared hslot hkept _ =>
        refine .inl ⟨?_, frames_of_kept hkept⟩
        rw [ConnectCall.rewrites, if_neg (by simp [hslot])]
      | made hnone ho hslot hmade _ =>
        refine .inr ⟨i, _, ?_, framesSet_of_update rfl hmade.trigs hmade.hwTrigs⟩
        rw [ConnectCall.rewrites, if_pos hnone, ho, hslot]
        rfl
  | connectPayload fd ctim payload =>
    obtain ⟨o, ho, i, m₁, m', hdone⟩ := ctrConnectPayload_ok hready h
    refine .inr ⟨i, _, ?_, hdone.framesSet⟩
    rw [ConnectCall.rewrites, ho, Option.bind_some]
    cases hdone.connected with
    | shared hslot _ _ =>
      rw [hslot]
      rfl
    | made hnone _ hslot _ _ =>
      rw [hnone, hslot]
      rfl

theorem run_delivered {c : ConnectCall} (hready : s.Ready) (h : c.run s = some (.ok (), s')) :
    c.Delivered s' := by
  cases c with
  | connect fd cls equip => exact trivial
  | connectPayload fd ctim payload =>
    obtain ⟨o, ho, i, m₁, m', hdone⟩ := ctrConnectPayload_ok hready h
    have hset := hdone.framesSet
    obtain ⟨rfl, hconn, hrewritten⟩ := hdone
    refine ⟨o, ho, s.clientModule fd, i, (ctimSlot_eq_some.mp hconn.slot).1, ?_, hset.slot⟩
    rw [LibArea.OnSlot, LibArea.withModule_self, hrewritten.clients, hconn.clients, update_self]
    change (_ ||| s.clientMask fd) &&& s.clientMask fd ≠ 0
    obtain ⟨n, s₁, hmod, -⟩ := Fallible.bind_ok.mp h
    unfold ctrGetModule getModule at hmod
    obtain ⟨-, k, hk, -⟩ := query_ok.mp hmod
    rw [BitVec.and_or_distrib_right, BitVec.and_self]
    exact or_mask_ne_zero (WorkingArea.clientMask_ne_zero (hk.fd ▸ k.isLt))

/-- **Who is disturbed.**  In every state that calls of the two functions reach, a call that
succeeds leaves the frames of the other clients' slots alone, and gives its caller the payload,
just when nobody else waits on the slot it writes for another frame. -/
theorem framesKept_iff {c : ConnectCall} (hreach : libConnections.Reach s)
    (h : c.run s = some (.ok (), s')) :
    FramesKept c.fd s s' ∧ c.Delivered s' ↔ c.Undisturbing s := by
  have hready := ready_of_reach hreach
  obtain ⟨hnone, hframes⟩ | ⟨i, frame, hsome, hset⟩ := run_frames hready h
  · refine iff_of_true ⟨fun _ _ _ midx j _ => hframes midx j, run_delivered hready h⟩ ?_
    intro i frame hsome
    rw [hnone] at hsome
    cases hsome
  · constructor
    · rintro ⟨hkept, -⟩ j frame' hj k hk hne hon
      rw [hsome] at hj
      cases hj
      rw [← hkept k hk hne _ _ hon, hset.slot]
    · intro hcalm
      refine ⟨fun k hk hne midx j hon => ?_, run_delivered hready h⟩
      by_cases hslot : midx = s.clientModule c.fd ∧ j = i
      · obtain ⟨rfl, rfl⟩ := hslot
        rw [hset.slot, hcalm j frame hsome k hk hne hon]
      · exact hset.others midx j (not_and_or.mp hslot)

end Disturb

/-- The state after a call. -/
def LibArea.after (s : LibArea) (c : ConnectCall) : LibArea := ((c.run s).map Prod.snd).getD s

theorem run_after {s : LibArea} {c : ConnectCall}
    (h : (c.run s).map Prod.fst = some (.ok ())) : c.run s = some (.ok (), s.after c) := by
  obtain ⟨⟨r, s'⟩, hrun, rfl⟩ := Option.map_eq_some_iff.mp h
  rw [LibArea.after, hrun]
  rfl

theorem reach_after {s : LibArea} {c : ConnectCall} (hreach : libConnections.Reach s)
    (h : (c.run s).map Prod.fst = some (.ok ())) : libConnections.Reach (s.after c) := by
  refine hreach.step (a := c) ?_
  change (c.run s).map Prod.snd = some (s.after c)
  rw [run_after h]
  rfl

/-- One card, the millisecond event as CTIM 911, and two open clients. -/
def millisecondArea : LibArea where
  toWorkingArea :=
    { oneModule with
      ctim := [⟨911, 0x0100FFFF⟩]
      clientContexts := fun k => ⟨k.val < 2, k, 0⟩ }
  remOutMask _ _ := 0
  pid _ := 0

theorem millisecondArea_ready : millisecondArea.Ready where
  modules _ := Nat.zero_lt_succ 15
  instances midx i h := by cases h

/-- The first client asks for C100. -/
def wakeAt100 : ConnectCall := .connectPayload 0 911 100

/-- The second one asks for C200. -/
def wakeAt200 : ConnectCall := .connectPayload 1 911 200

theorem framesKept_iff_first : FramesKept 0 millisecondArea (millisecondArea.after wakeAt100) ∧
    wakeAt100.Delivered (millisecondArea.after wakeAt100) := by
  refine (framesKept_iff (c := wakeAt100) (.init millisecondArea_ready)
    (run_after (by decide +kernel))).mpr ?_
  rintro i frame - k - - hon
  exact absurd BitVec.zero_and hon

/-- The second call takes the first client's C100 away. -/
theorem payloads_disturb : ¬ ∀ (s : LibArea) (c : ConnectCall) (s' : LibArea),
    libConnections.Reach s → c.run s = some (.ok (), s') →
      FramesKept c.fd s s' ∧ c.Delivered s' := by
  intro hall
  have hreach : libConnections.Reach (millisecondArea.after wakeAt100) :=
    reach_after (.init millisecondArea_ready) (by decide +kernel)
  have hsecond := run_after (s := millisecondArea.after wakeAt100) (c := wakeAt200)
    (by decide +kernel)
  have hframe := (hall _ wakeAt200 _ hreach hsecond).1 0 (by decide) (by decide) 0 0
    (by unfold LibArea.OnSlot; decide +kernel)
  exact absurd hframe (by decide +kernel)

end KernelModules.Ctr
