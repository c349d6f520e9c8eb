import KernelModules.Ctr.Effects

/-!
# The bus interrupt follows the clients

A trigger interrupts the bus when the bus bit of its configuration word is set on the card.  The
driver sets and clears that bit in four places; together they keep it equal to "some client is
connected to the slot".

* `BusInv` is that equality for the slots of one module, and each effect of a call keeps it;
* `connecting_keeps_ptim` says that connecting and disconnecting change nothing else in the word
  of a PTIM slot;
* `bus_interrupt` puts both together over every run.
-/

namespace KernelModules.Ctr

open Function KernelModules.Lib

/-- The bus bit of every slot says whether a client is connected to it. -/
def BusInv (m : ModuleContext) : Prop := ∀ i, (m.hwConfigs i).Bus ↔ m.clients i ≠ 0

/-- Nothing is left in the configuration RAM of the cards. -/
def WorkingArea.RamCleared (s : WorkingArea) : Prop :=
  ∀ midx i, (s.moduleContexts midx).hwConfigs i = ⟨0, 0⟩

/-- The driver on cards with cleared configuration RAM. -/
def ctrDriverCleared : System WorkingArea Call :=
  System.ofFun (fun s => s.Installed ∧ s.RamCleared) WorkingArea.step

/-! ### Slot by slot -/

theorem BusInv.sameTables {m m' : ModuleContext} (h : BusInv m) (hs : SameTables m m') :
    BusInv m' := by
  intro i
  rw [hs.hwConfigs, hs.clients]
  exact h i

theorem BusInv.connected {m m' : ModuleContext} {hit : ℕ → Prop} {hmsk : ℕ → U32} {cmsk : U32}
    (h : BusInv m) (hcmsk : cmsk ≠ 0) (hc : Connected m m' hit hmsk cmsk) : BusInv m' := by
  intro i
  by_cases hi : hit i
  · obtain ⟨hclients, hconfig⟩ := hc.hits i hi
    rw [hclients]
    exact iff_of_true (bus_or_busBit hconfig) (or_mask_ne_zero hcmsk)
  · obtain ⟨hclients, hconfig⟩ := hc.misses i hi
    rw [hclients, hconfig]
    exact h i

theorem BusInv.instanced {m m' : ModuleContext} {i : ℕ} {num cmsk : U32} (h : BusInv m)
    (hcmsk : cmsk ≠ 0) (hn : Instanced m m' i num cmsk) : BusInv m' := by
  intro j
  rw [hn.hwConfigs, hn.clients]
  by_cases hj : j = i
  · subst hj
    rw [update_self, update_self, configToHard_bus]
    exact iff_of_true rfl (or_mask_ne_zero hcmsk)
  · rw [update_of_ne hj, update_of_ne hj]
    exact h j

theorem BusInv.dropped {m m' : ModuleContext} {T H : ℕ → Prop} {cmsk : U32} (h : BusInv m)
    (hd : Dropped m m' T H cmsk) : BusInv m' := by
  intro i
  by_cases hi : T i
  · rw [(hd.clients i).1 hi]
    by_cases hr : Releases m cmsk i
    · refine iff_of_false ?_ (not_not.mpr hr.2)
      by_cases hc : m.eqpClass i = .ctim
      · rw [(hd.freed i hi hr hc).2.2, configToHard_bus]
        decide
      · exact not_bus_and_not_busBit (hd.silenced i hi hr hc).2.2
    · rw [(hd.kept i fun hh => hr hh.2).2.2, h i]
      by_cases hmine : cmsk &&& m.clients i = 0
      · rw [dropped_of_absent hmine]
      · have hleft : m.clients i &&& ~~~cmsk ≠ 0 := fun h0 => hr ⟨hmine, h0⟩
        refine iff_of_true ?_ hleft
        intro h0
        rw [h0] at hleft
        simp at hleft
  · rw [(hd.clients i).2 hi, (hd.kept i fun hh => hi hh.1).2.2]
    exact h i

theorem overrideBus_bus (clients : U32) (config : CounterConfiguration) :
    (configToHard (overrideBus clients config)).Bus ↔ clients ≠ 0 := by
  rw [configToHard_bus, overrideBus]
  split
  · rename_i hne
    refine iff_of_true ?_ hne
    simp [onZeroBus]
  · rename_i hne
    refine iff_of_false ?_ hne
    simp [onZeroBus]

theorem BusInv.acted {m m' : ModuleContext} {i : ℕ} {act : Action} (h : BusInv m)
    (ha : Acted m m' i act) : BusInv m' := by
  intro j
  rw [ha.hwConfigs, ha.clients]
  by_cases hj : j = i
  · subst hj
    rw [update_self]
    exact overrideBus_bus _ _
  · rw [update_of_ne hj]
    exact h j

theorem BusInv.freed {m m' : ModuleContext} {hit : ℕ → Prop} (h : BusInv m) (hf : Freed m m' hit)
    (hidle : ∀ i, hit i → m.clients i = 0) : BusInv m' := by
  intro i
  rw [hf.clients]
  by_cases hi : hit i
  · rw [(hf.hits i hi).2.2.2, configToHard_bus, hidle i hi]
    decide
  · rw [(hf.misses i hi).2.2.2]
    exact h i

theorem busInv_step {s s' : WorkingArea} {c : Call} (h : ∀ j, BusInv (s.moduleContexts j))
    (hs : s.step c = some s') (j : ℕ) : BusInv (s'.moduleContexts j) := by
  cases effect_of_step hs with
  | quiet hptim hsame => exact (h j).sameTables (hsame j)
  | connectPtim hcnum hclass hmidx hc =>
    exact forall_setModule h ((h _).connected (WorkingArea.clientMask_ne_zero hcnum) hc) j
  | connectCtim hcnum hclass hi hc =>
    exact forall_setModule h ((h _).connected (WorkingArea.clientMask_ne_zero hcnum) hc) j
  | newCtim hcnum hclass hnone hi hn =>
    exact forall_setModule h ((h _).instanced (WorkingArea.clientMask_ne_zero hcnum) hn) j
  | connectHard hcnum hclass hw =>
    refine forall_setModule h ?_ j
    intro i
    rw [hw.hwConfigs, hw.clients]
    exact h _ i
  | disconnect hcnum hnum hd => exact forall_setModule h ((h _).dropped hd) j
  | disconnectAll hcnum hcall hptim hin hout =>
    by_cases hj : j < s.modules
    · exact (h j).dropped (hin j hj)
    · rw [hout j (not_lt.mp hj)]
      exact h j
  | setAction hcnum hi hlt hclass howned ha => exact forall_setModule h ((h _).acted ha) j
  | createPtim hnew hmod hsearch ht =>
    refine forall_setModule h ?_ j
    rw [ht.rest]
    exact h _
  | destroyPtim hidle hfound hf => exact forall_setModule h ((h _).freed hf hidle) j

theorem busInv_of_reach {s : WorkingArea} (h : ctrDriverCleared.Reach s) (j : ℕ) :
    BusInv (s.moduleContexts j) := by
  refine h.invariant (P := fun s => ∀ j, BusInv (s.moduleContexts j)) ?_
    (fun s c s' hinv hs => busInv_step hinv hs) j
  rintro s ⟨hinst, hram⟩ j i
  rw [hram j i, (hinst.moduleContexts j).clients i]
  decide

/-! ### Nothing else in the word of a PTIM slot -/

/-- Connecting and disconnecting. -/
def Call.Connecting : Call → Prop
  | .close _ | .ioctl _ (.connect _) | .ioctl _ (.disconnect _) => True
  | _ => False

/-- The PTIM slots of the module keep their owner, and their configuration words but for the bus
bit.  A slot numbered zero counts as empty and may be taken. -/
def PtimKept (m m' : ModuleContext) : Prop :=
  ∀ i, m.eqpClass i = .ptim →
    (m.eqpNum i ≠ 0 → m'.eqpNum i = m.eqpNum i ∧ m'.eqpClass i = .ptim)
      ∧ (m'.eqpClass i = .ptim →
        (m'.hwConfigs i).config &&& ~~~busBit = (m.hwConfigs i).config &&& ~~~busBit)

theorem PtimKept.of_eq {m m' : ModuleContext} (hnum : m'.eqpNum = m.eqpNum)
    (hclass : m'.eqpClass = m.eqpClass) (hconfig : m'.hwConfigs = m.hwConfigs) : PtimKept m m' := by
  intro i hi
  rw [hnum, hclass, hconfig]
  exact ⟨fun _ => ⟨rfl, hi⟩, fun _ => rfl⟩

theorem PtimKept.connected {m m' : ModuleContext} {hit : ℕ → Prop} {hmsk : ℕ → U32} {cmsk : U32}
    (h : Connected m m' hit hmsk cmsk) : PtimKept m m' := by
  intro i hi
  rw [h.eqpNum, h.eqpClass]
  refine ⟨fun _ => ⟨rfl, hi⟩, fun _ => ?_⟩
  by_cases hh : hit i
  · rw [(h.hits i hh).2, BitVec.and_or_distrib_right, BitVec.and_not_self]
    simp
  · rw [(h.misses i hh).2]

theorem PtimKept.dropped {m m' : ModuleContext} {T H : ℕ → Prop} {cmsk : U32}
    (h : Dropped m m' T H cmsk) : PtimKept m m' := by
  intro i hi
  by_cases hr : T i ∧ Releases m cmsk i
  · obtain ⟨hnum, hclass, hconfig⟩ := h.silenced i hr.1 hr.2 (by simp [hi])
    rw [hnum, hclass, hconfig, dropped_dropped]
    exact ⟨fun _ => ⟨rfl, hi⟩, fun _ => rfl⟩
  · obtain ⟨hnum, hclass, hconfig⟩ := h.kept i hr
    rw [hnum, hclass, hconfig]
    exact ⟨fun _ => ⟨rfl, hi⟩, fun _ => rfl⟩

theorem PtimKept.instanced {m m' : ModuleContext} {i : ℕ} {num cmsk : U32}
    (hempty : m.eqpNum i = 0) (h : Instanced m m' i num cmsk) : PtimKept m m' := by
  intro j hj
  rw [h.eqpNum, h.eqpClass, h.hwConfigs]
  by_cases hji : j = i
  · subst hji
    refine ⟨fun hne => absurd hempty hne, fun hclass => ?_⟩
    rw [update_self] at hclass
    cases hclass
  · rw [update_of_ne hji, update_of_ne hji, update_of_ne hji]
    exact ⟨fun _ => ⟨rfl, hj⟩, fun _ => rfl⟩

theorem connecting_keeps_ptim {s s' : WorkingArea} {c : Call} (hc : c.Connecting)
    (hs : s.step c = some s') (j : ℕ) : PtimKept (s.moduleContexts j) (s'.moduleContexts j) := by
  have hset : ∀ {midx m'}, PtimKept (s.moduleContexts midx) m' →
      PtimKept (s.moduleContexts j) ((s.setModule midx m').moduleContexts j) := by
    intro midx m' hm
    by_cases hj : j = midx
    · subst hj
      simpa only [WorkingArea.setModule, update_self] using hm
    · simpa only [WorkingArea.setModule, update_of_ne hj] using PtimKept.of_eq rfl rfl rfl
  cases effect_of_step hs with
  | quiet hptim hsame => exact .of_eq (hsame j).eqpNum (hsame j).eqpClass (hsame j).hwConfigs
  | connectPtim hcnum hclass hmidx h => exact hset (.connected h)
  | connectCtim hcnum hclass hi h => exact hset (.connected h)
  | newCtim hcnum hclass hnone hi h =>
    exact hset (.instanced (emptySlot_some hi).2 h)
  | connectHard hcnum hclass h => exact hset (.of_eq h.eqpNum h.eqpClass h.hwConfigs)
  | disconnect hcnum hnum h => exact hset (.dropped h)
  | disconnectAll hcnum hcall hptim hin hout =>
    by_cases hj : j < s.modules
    · exact .dropped (hin j hj)
    · rw [hout j (not_lt.mp hj)]
      exact .of_eq rfl rfl rfl
  | setAction => exact hc.elim
  | createPtim => exact hc.elim
  | destroyPtim => exact hc.elim

/-- **The bus interrupt follows the clients.**  On cards with cleared RAM, in every state any
calls reach, the bus bit of every slot is set exactly if a client is connected to the slot; and
from there on connecting and disconnecting leave a PTIM slot with its owner and every other bit
of its word. -/
theorem bus_interrupt {s : WorkingArea} (h : ctrDriverCleared.Reach s) :
    (∀ midx i, ((s.moduleContexts midx).hwConfigs i).Bus ↔ (s.moduleContexts midx).clients i ≠ 0)
      ∧ ∀ c s', c.Connecting → s.step c = some s' →
        ∀ midx, PtimKept (s.moduleContexts midx) (s'.moduleContexts midx) :=
  ⟨busInv_of_reach h, fun _ _ hc hs => connecting_keeps_ptim hc hs⟩

/-- Client 0 creates PTIM 7 on counter 1 and connects to it. -/
def connectedPtim : WorkingArea :=
  System.runUnder WorkingArea.step (fun _ _ => True) oneModule
    [.open 0, .ioctl 0 (.createPtim ⟨7, 0, 1, 1, 0⟩), .ioctl 0 (.connect ⟨1, .ptim, 7⟩)]

theorem bus_interrupt_connectedPtim :
    (connectedPtim.moduleContexts 0).clients 0 = 1
      ∧ ((connectedPtim.moduleContexts 0).hwConfigs 0).Bus
      ∧ ¬ ((connectedPtim.moduleContexts 0).hwConfigs 1).Bus := by
  have hstart : ctrDriverCleared.Reach oneModule :=
    System.Reach.init ⟨oneModule_installed, fun _ _ => rfl⟩
  have hreach : ctrDriverCleared.Reach connectedPtim := System.ReachUnder.runUnder hstart _
  obtain ⟨hbus, -⟩ := bus_interrupt hreach
  have hone : (connectedPtim.moduleContexts 0).clients 0 = 1 := by decide +kernel
  have hnone : (connectedPtim.moduleContexts 0).clients 1 = 0 := by decide +kernel
  refine ⟨hone, (hbus 0 0).mpr ?_, fun hb => (hbus 0 1).mp hb hnone⟩
  rw [hone]
  decide

end KernelModules.Ctr
