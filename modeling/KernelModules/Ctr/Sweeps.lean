import KernelModules.Ctr.Driver

/-!
# Sweeps over the trigger table

The driver's functions sweep a module's table of 2048 slots.  This file says what each sweep
leaves behind, slot by slot.

* `Connected` relates a module before and after a client is added to slots, `Wired` to hardware
  sources; `Dropped` before and after a client is taken off slots and sources.  The tests of
  `DisableInterrupts` look at other clients only, so they come out the same at any point of a
  sweep (`Dropped.disables_iff`), and sweeps compose (`Dropped.trans`);
* `Taken` and `Freed` are the sweeps that create and destroy PTIM objects, and
  `searchSpace_empty` says that what the search for room finds is empty.
-/

namespace KernelModules.Ctr

open Function KernelModules.Lib

/-! ### Client masks -/

theorem ClientContext.mask_ne_zero (ccon : ClientContext) : ccon.mask ≠ 0 := by
  have h : ∀ k : Fin 16, 1#32 <<< k.val ≠ 0 := by decide
  exact h ccon.clientIndex

theorem or_mask_ne_zero {x cmsk : U32} (h : cmsk ≠ 0) : x ||| cmsk ≠ 0 := by
  intro h0
  exact h (BitVec.or_eq_zero_iff.mp h0).2

theorem mask_and_dropped (x cmsk : U32) : cmsk &&& (x &&& ~~~cmsk) = 0 := by
  rw [BitVec.and_comm x, ← BitVec.and_assoc, BitVec.and_not_self]
  simp

theorem dropped_dropped (x cmsk : U32) : x &&& ~~~cmsk &&& ~~~cmsk = x &&& ~~~cmsk := by
  rw [BitVec.and_assoc, BitVec.and_self]

theorem getLsbD_bit {i : ℕ} (hi : i < 32) (c : ℕ) : (1#32 <<< i).getLsbD c = true ↔ c = i := by
  rw [show 1#32 <<< i = BitVec.twoPow 32 i from rfl, BitVec.getLsbD_twoPow]
  simp [hi, eq_comm]

theorem and_bit_ne_zero {i : ℕ} (hi : i < 32) (x : U32) :
    x &&& 1#32 <<< i ≠ 0 ↔ x.getLsbD i = true := by
  rw [show 1#32 <<< i = BitVec.twoPow 32 i from rfl, BitVec.and_twoPow]
  split
  · rename_i hbit
    refine ⟨fun _ => hbit, fun _ h => ?_⟩
    have hone := (getLsbD_bit hi i).mpr rfl
    rw [show 1#32 <<< i = BitVec.twoPow 32 i from rfl, h] at hone
    simp at hone
  · rename_i hbit
    simp [hbit]

theorem dropped_of_absent {x cmsk : U32} (h : cmsk &&& x = 0) : x &&& ~~~cmsk = x := by
  apply BitVec.eq_of_getLsbD_eq
  intro i hi
  have hbit : (cmsk &&& x).getLsbD i = false := by
    rw [h]
    simp
  simp only [BitVec.getLsbD_and] at hbit
  simp only [BitVec.getLsbD_and, BitVec.getLsbD_not, hi, decide_true, Bool.true_and]
  cases hx : x.getLsbD i
  · rfl
  · rw [hx, Bool.and_true] at hbit
    rw [hbit]
    rfl

theorem update_dropped (f : ℕ → U32) (i : ℕ) (cmsk : U32) (j : ℕ) :
    (j = i → update f i (f i &&& ~~~cmsk) j = f j &&& ~~~cmsk)
      ∧ (¬ j = i → update f i (f i &&& ~~~cmsk) j = f j) := by
  refine ⟨?_, fun hj => update_of_ne hj ..⟩
  rintro rfl
  rw [update_self]

theorem update_dropped_others (f : ℕ → U32) (i : ℕ) (cmsk : U32) (j : ℕ) :
    update f i (f i &&& ~~~cmsk) j &&& ~~~cmsk = f j &&& ~~~cmsk := by
  by_cases hj : j = i
  · rw [(update_dropped f i cmsk j).1 hj, dropped_dropped]
  · rw [(update_dropped f i cmsk j).2 hj]

/-! ### The slots of a sweep -/

/-- Slot `i` is of class CTIM or PTIM. -/
def TriggerClass (m : ModuleContext) (i : ℕ) : Prop := m.eqpClass i = .ctim ∨ m.eqpClass i = .ptim

/-- The slots of PTIM object `eqpNum`. -/
def PtimSlot (m : ModuleContext) (eqpNum : U32) (i : ℕ) : Prop :=
  i < ramTableSize ∧ m.eqpNum i = eqpNum ∧ m.eqpClass i = .ptim

/-- The slots a `DISCONNECT` of one object goes through. -/
def NamedSlot (m : ModuleContext) (conx : Connection) (i : ℕ) : Prop :=
  i < ramTableSize ∧ m.eqpNum i = conx.eqpNum ∧ m.eqpClass i = conx.eqpClass ∧ TriggerClass m i

/-- The slots a `DISCONNECT` of everything, or a close, goes through. -/
def OwnedSlot (m : ModuleContext) (i : ℕ) : Prop :=
  i < ramTableSize ∧ m.eqpNum i ≠ 0 ∧ TriggerClass m i

/-! ### Adding a client -/

/-- Between `m` and `m'` the client of mask `cmsk` was added to the slots `hit`; slot `i` asks for
the interrupts `hmsk i`. -/
structure Connected (m m' : ModuleContext) (hit : ℕ → Prop) (hmsk : ℕ → U32) (cmsk : U32) :
    Prop where
  trigs : m'.trigs = m.trigs
  eqpNum : m'.eqpNum = m.eqpNum
  eqpClass : m'.eqpClass = m.eqpClass
  hardClients : m'.hardClients = m.hardClients
  hits : ∀ i, hit i → m'.clients i = m.clients i ||| cmsk
    ∧ (m'.hwConfigs i).config = (m.hwConfigs i).config ||| busBit
  misses : ∀ i, ¬ hit i → m'.clients i = m.clients i ∧ m'.hwConfigs i = m.hwConfigs i
  enable : ∀ c, m'.interruptEnable.getLsbD c = true ↔
    m.interruptEnable.getLsbD c = true ∨ ∃ i, hit i ∧ (hmsk i).getLsbD c = true

theorem Connected.refl (m : ModuleContext) (hmsk : ℕ → U32) (cmsk : U32) :
    Connected m m (fun _ => False) hmsk cmsk :=
  ⟨rfl, rfl, rfl, rfl, fun _ h => h.elim, fun _ _ => ⟨rfl, rfl⟩, fun c => by simp⟩

theorem Connected.congr {m m' : ModuleContext} {hit hit' : ℕ → Prop} {hmsk : ℕ → U32} {cmsk : U32}
    (h : Connected m m' hit hmsk cmsk) (hiff : ∀ i, hit i ↔ hit' i) :
    Connected m m' hit' hmsk cmsk := by
  have heq : hit = hit' := funext fun i => propext (hiff i)
  exact heq ▸ h

theorem Connected.withEnable {m m' : ModuleContext} {hit : ℕ → Prop} {hmsk : ℕ → U32} {cmsk : U32}
    (h : Connected m m' hit hmsk cmsk) (hw : U32) :
    Connected m { m' with hwInterruptEnable := hw } hit hmsk cmsk :=
  ⟨h.trigs, h.eqpNum, h.eqpClass, h.hardClients, h.hits, h.misses, h.enable⟩

theorem Connected.connectSlot {m t t' : ModuleContext} {hit : ℕ → Prop} {hmsk : ℕ → U32}
    {cmsk : U32} (h : Connected m t hit hmsk cmsk) {i : ℕ} (hi : ¬ hit i)
    (hs : connectSlot t i cmsk (hmsk i) = some t') :
    Connected m t' (fun j => hit j ∨ j = i) hmsk cmsk := by
  unfold Ctr.connectSlot at hs
  split at hs
  · cases hs
    refine ⟨h.trigs, h.eqpNum, h.eqpClass, h.hardClients, ?_, ?_, ?_⟩
    · intro j hj
      by_cases hji : j = i
      · subst hji
        simp only [update_self, (h.misses j hi).1, (h.misses j hi).2, and_self]
      · simp only [update_of_ne hji]
        exact h.hits j (hj.resolve_right hji)
    · intro j hj
      have hji : j ≠ i := fun heq => hj (.inr heq)
      simp only [update_of_ne hji]
      exact h.misses j fun hh => hj (.inl hh)
    · intro c
      simp only [BitVec.getLsbD_or, Bool.or_eq_true, h.enable c]
      constructor
      · rintro ((hc | ⟨j, hj, hc⟩) | hc)
        · exact .inl hc
        · exact .inr ⟨j, .inl hj, hc⟩
        · exact .inr ⟨i, .inr rfl, hc⟩
      · rintro (hc | ⟨j, hj | rfl, hc⟩)
        · exact .inl (.inl hc)
        · exact .inl (.inr ⟨j, hj, hc⟩)
        · exact .inr hc
  · cases hs

theorem connectPtim_connected {m m' : ModuleContext} {eqpNum cmsk : U32} {count : ℕ}
    (h : connectPtim m eqpNum cmsk = some (count, m')) :
    Connected m m' (PtimSlot m eqpNum) (fun i => sourceMask (m.trigs i).counter) cmsk := by
  refine loop_invariant (P := fun n t => Connected m t.2
    (fun i => i < n ∧ m.eqpNum i = eqpNum ∧ m.eqpClass i = .ptim)
    (fun i => sourceMask (m.trigs i).counter) cmsk) h ?_ ?_
  · simpa using Connected.refl m _ cmsk
  · rintro i - ⟨n, t⟩ ⟨n', t'⟩ ht hs
    dsimp only at ht hs ⊢
    rw [ht.eqpNum, ht.eqpClass, ht.trigs] at hs
    split at hs
    · rename_i hhit
      simp only [Option.map_eq_some_iff, Prod.mk.injEq] at hs
      obtain ⟨t₁, ht₁, -, rfl⟩ := hs
      have hnext := ht.connectSlot (i := i) (fun hlt => absurd hlt.1 (Nat.lt_irrefl i)) ht₁
      exact hnext.congr (sweep_hit ⟨hhit.1.symm, hhit.2.symm⟩)
    · rename_i hmiss
      cases hs
      exact ht.congr (sweep_miss fun hh => hmiss ⟨hh.1.symm, hh.2.symm⟩)

/-! ### Taking a client off -/

/-- Slot `i` loses its last client when the client of mask `cmsk` goes. -/
def Releases (m : ModuleContext) (cmsk : U32) (i : ℕ) : Prop :=
  cmsk &&& m.clients i ≠ 0 ∧ m.clients i &&& ~~~cmsk = 0

/-- Source `i` loses its last client. -/
def ReleasesHard (m : ModuleContext) (cmsk : U32) (i : ℕ) : Prop :=
  m.hardClients i ≠ 0 ∧ m.hardClients i &&& ~~~cmsk = 0

/-- `DisableInterrupts` for index `i` clears the enable bit `c`. -/
def Disables (m : ModuleContext) (cmsk : U32) (i : ℕ) (clss : ConnectionClass) (c : ℕ) : Prop :=
  ¬ KeptEnabled m i (disableCounter m i clss) cmsk
    ∧ (sourceMask ((disableCounter m i clss).getD (BitVec.ofNat 32 i))).getLsbD c = true

theorem disables_congr {m m' : ModuleContext} {cmsk : U32} (htrigs : m'.trigs = m.trigs)
    (hclients : ∀ i, m'.clients i &&& ~~~cmsk = m.clients i &&& ~~~cmsk)
    (hread : ∀ i, m'.readHardClients i &&& ~~~cmsk = m.readHardClients i &&& ~~~cmsk) (i : ℕ)
    (clss : ConnectionClass) (c : ℕ) :
    Disables m' cmsk i clss c ↔ Disables m cmsk i clss c := by
  have hcntr : disableCounter m' i clss = disableCounter m i clss := by
    unfold disableCounter
    rw [htrigs]
  unfold Disables KeptEnabled
  simp only [hcntr, hclients, hread, htrigs]

/-- Between `m` and `m'` the client of mask `cmsk` was taken off the slots `T` and the sources
`H`. -/
structure Dropped (m m' : ModuleContext) (T H : ℕ → Prop) (cmsk : U32) : Prop where
  trigs : m'.trigs = m.trigs
  beyond : m'.beyond = m.beyond
  clients : ∀ i, (T i → m'.clients i = m.clients i &&& ~~~cmsk)
    ∧ (¬ T i → m'.clients i = m.clients i)
  hardClients : ∀ i, (H i → m'.hardClients i = m.hardClients i &&& ~~~cmsk)
    ∧ (¬ H i → m'.hardClients i = m.hardClients i)
  /-- a CTIM instance without clients goes -/
  freed : ∀ i, T i → Releases m cmsk i → m.eqpClass i = .ctim →
    m'.eqpNum i = 0 ∧ m'.eqpClass i = .hard ∧ m'.hwConfigs i = configToHard .zero
  /-- a slot of an object loses the bus bit -/
  silenced : ∀ i, T i → Releases m cmsk i → m.eqpClass i ≠ .ctim →
    m'.eqpNum i = m.eqpNum i ∧ m'.eqpClass i = m.eqpClass i
      ∧ (m'.hwConfigs i).config = (m.hwConfigs i).config &&& ~~~busBit
  kept : ∀ i, ¬ (T i ∧ Releases m cmsk i) →
    m'.eqpNum i = m.eqpNum i ∧ m'.eqpClass i = m.eqpClass i ∧ m'.hwConfigs i = m.hwConfigs i
  enable : ∀ c, m'.interruptEnable.getLsbD c = true ↔ m.interruptEnable.getLsbD c = true
    ∧ ¬ (∃ i, T i ∧ Releases m cmsk i ∧ Disables m cmsk i .ctim c)
    ∧ ¬ ∃ i, H i ∧ ReleasesHard m cmsk i ∧ Disables m cmsk i .hard c

theorem Dropped.of_unreleased {m : ModuleContext} {clients hardClients : ℕ → U32} {T H : ℕ → Prop}
    {cmsk : U32}
    (hclients : ∀ i, (T i → clients i = m.clients i &&& ~~~cmsk)
      ∧ (¬ T i → clients i = m.clients i))
    (hhard : ∀ i, (H i → hardClients i = m.hardClients i &&& ~~~cmsk)
      ∧ (¬ H i → hardClients i = m.hardClients i))
    (hT : ∀ i, T i → ¬ Releases m cmsk i) (hH : ∀ i, H i → ¬ ReleasesHard m cmsk i) :
    Dropped m { m with clients := clients, hardClients := hardClients } T H cmsk where
  trigs := rfl
  beyond := rfl
  clients := hclients
  hardClients := hhard
  freed i hi hr := absurd hr (hT i hi)
  silenced i hi hr := absurd hr (hT i hi)
  kept _ _ := ⟨rfl, rfl, rfl⟩
  enable c := by
    refine ⟨fun hc => ⟨hc, ?_, ?_⟩, fun hc => hc.1⟩
    · rintro ⟨i, hi, hr, -⟩
      exact hT i hi hr
    · rintro ⟨i, hi, hr, -⟩
      exact hH i hi hr

theorem Dropped.refl (m : ModuleContext) (cmsk : U32) :
    Dropped m m (fun _ => False) (fun _ => False) cmsk :=
  .of_unreleased (fun _ => ⟨fun h => h.elim, fun _ => rfl⟩)
    (fun _ => ⟨fun h => h.elim, fun _ => rfl⟩) (fun _ h => h.elim) fun _ h => h.elim

theorem Dropped.congr {m m' : ModuleContext} {T T' H H' : ℕ → Prop} {cmsk : U32}
    (h : Dropped m m' T H cmsk) (hT : ∀ i, T i ↔ T' i) (hH : ∀ i, H i ↔ H' i) :
    Dropped m m' T' H' cmsk := by
  have hT : T = T' := funext fun i => propext (hT i)
  have hH : H = H' := funext fun i => propext (hH i)
  exact hT ▸ hH ▸ h

theorem Dropped.clients_others {m m' : ModuleContext} {T H : ℕ → Prop} {cmsk : U32}
    (h : Dropped m m' T H cmsk) (i : ℕ) : m'.clients i &&& ~~~cmsk = m.clients i &&& ~~~cmsk := by
  by_cases hi : T i
  · rw [(h.clients i).1 hi, dropped_dropped]
  · rw [(h.clients i).2 hi]

theorem Dropped.readHardClients_others {m m' : ModuleContext} {T H : ℕ → Prop} {cmsk : U32}
    (h : Dropped m m' T H cmsk) (i : U32) :
    m'.readHardClients i &&& ~~~cmsk = m.readHardClients i &&& ~~~cmsk := by
  unfold ModuleContext.readHardClients
  split
  · by_cases hi : H i.toNat
    · rw [(h.hardClients _).1 hi, dropped_dropped]
    · rw [(h.hardClients _).2 hi]
  · rw [h.beyond]

theorem Dropped.disables_iff {m m' : ModuleContext} {T H : ℕ → Prop} {cmsk : U32}
    (h : Dropped m m' T H cmsk) (i : ℕ) (clss : ConnectionClass) (c : ℕ) :
    Disables m' cmsk i clss c ↔ Disables m cmsk i clss c :=
  disables_congr h.trigs h.clients_others h.readHardClients_others i clss c

theorem Dropped.releases_iff {m m' : ModuleContext} {T H : ℕ → Prop} {cmsk : U32}
    (h : Dropped m m' T H cmsk) (i : ℕ) :
    Releases m' cmsk i ↔ ¬ T i ∧ Releases m cmsk i := by
  by_cases hi : T i
  · simp only [Releases, (h.clients i).1 hi, hi, mask_and_dropped, not_true, false_and, ne_eq]
  · simp only [Releases, (h.clients i).2 hi, hi, not_false_iff, true_and]

theorem Dropped.releasesHard_iff {m m' : ModuleContext} {T H : ℕ → Prop} {cmsk : U32}
    (h : Dropped m m' T H cmsk) (i : ℕ) :
    ReleasesHard m' cmsk i ↔ ¬ H i ∧ ReleasesHard m cmsk i := by
  by_cases hi : H i
  · simp only [ReleasesHard, (h.hardClients i).1 hi, hi, dropped_dropped, not_true, false_and,
      ne_eq, not_and_self]
  · simp only [ReleasesHard, (h.hardClients i).2 hi, hi, not_false_iff, true_and]

theorem Dropped.trans {m m₁ m₂ : ModuleContext} {T₁ H₁ T₂ H₂ : ℕ → Prop} {cmsk : U32}
    (h₁ : Dropped m m₁ T₁ H₁ cmsk) (h₂ : Dropped m₁ m₂ T₂ H₂ cmsk) :
    Dropped m m₂ (fun i => T₁ i ∨ T₂ i) (fun i => H₁ i ∨ H₂ i) cmsk := by
  have hagain : ∀ i, T₁ i → ¬ (T₂ i ∧ Releases m₁ cmsk i) := by
    rintro i hi ⟨-, hr⟩
    exact ((h₁.releases_iff i).mp hr).1 hi
  refine ⟨h₂.trigs.trans h₁.trigs, h₂.beyond.trans h₁.beyond, ?_, ?_, ?_, ?_, ?_, ?_⟩
  · intro i
    refine ⟨fun hi => ?_, fun hi => ?_⟩
    · by_cases hi₂ : T₂ i
      · rw [(h₂.clients i).1 hi₂, h₁.clients_others]
      · rw [(h₂.clients i).2 hi₂, (h₁.clients i).1 (hi.resolve_right hi₂)]
    · rw [(h₂.clients i).2 fun h => hi (.inr h), (h₁.clients i).2 fun h => hi (.inl h)]
  · intro i
    refine ⟨fun hi => ?_, fun hi => ?_⟩
    · by_cases hi₁ : H₁ i
      · by_cases hi₂ : H₂ i
        · rw [(h₂.hardClients i).1 hi₂, (h₁.hardClients i).1 hi₁, dropped_dropped]
        · rw [(h₂.hardClients i).2 hi₂, (h₁.hardClients i).1 hi₁]
      · rw [(h₂.hardClients i).1 (hi.resolve_left hi₁), (h₁.hardClients i).2 hi₁]
    · rw [(h₂.hardClients i).2 fun h => hi (.inr h), (h₁.hardClients i).2 fun h => hi (.inl h)]
  · intro i hi hr hc
    by_cases hi₁ : T₁ i
    · obtain ⟨e₁, e₂, e₃⟩ := h₁.freed i hi₁ hr hc
      obtain ⟨f₁, f₂, f₃⟩ := h₂.kept i (hagain i hi₁)
      exact ⟨f₁.trans e₁, f₂.trans e₂, f₃.trans e₃⟩
    · obtain ⟨-, e₂, -⟩ := h₁.kept i fun h => hi₁ h.1
      exact h₂.freed i (hi.resolve_left hi₁) ((h₁.releases_iff i).mpr ⟨hi₁, hr⟩) (e₂.trans hc)
  · intro i hi hr hc
    by_cases hi₁ : T₁ i
    · obtain ⟨e₁, e₂, e₃⟩ := h₁.silenced i hi₁ hr hc
      obtain ⟨f₁, f₂, f₃⟩ := h₂.kept i (hagain i hi₁)
      exact ⟨f₁.trans e₁, f₂.trans e₂, by rw [f₃, e₃]⟩
    · obtain ⟨e₁, e₂, e₃⟩ := h₁.kept i fun h => hi₁ h.1
      obtain ⟨f₁, f₂, f₃⟩ := h₂.silenced i (hi.resolve_left hi₁)
        ((h₁.releases_iff i).mpr ⟨hi₁, hr⟩) (by rwa [e₂])
      exact ⟨f₁.trans e₁, f₂.trans e₂, by rw [f₃, e₃]⟩
  · intro i hi
    obtain ⟨e₁, e₂, e₃⟩ := h₁.kept i fun h => hi ⟨.inl h.1, h.2⟩
    obtain ⟨f₁, f₂, f₃⟩ := h₂.kept i fun h =>
      hi ⟨.inr h.1, ((h₁.releases_iff i).mp h.2).2⟩
    exact ⟨f₁.trans e₁, f₂.trans e₂, f₃.trans e₃⟩
  · intro c
    rw [h₂.enable c, h₁.enable c]
    simp only [h₁.disables_iff, h₁.releases_iff, h₁.releasesHard_iff]
    constructor
    · rintro ⟨⟨hc, ht₁, hh₁⟩, ht₂, hh₂⟩
      refine ⟨hc, ?_, ?_⟩
      · rintro ⟨i, hi, hr, hd⟩
        by_cases hi₁ : T₁ i
        · exact ht₁ ⟨i, hi₁, hr, hd⟩
        · exact ht₂ ⟨i, hi.resolve_left hi₁, ⟨hi₁, hr⟩, hd⟩
      · rintro ⟨i, hi, hr, hd⟩
        by_cases hi₁ : H₁ i
        · exact hh₁ ⟨i, hi₁, hr, hd⟩
        · exact hh₂ ⟨i, hi.resolve_left hi₁, ⟨hi₁, hr⟩, hd⟩
    · rintro ⟨hc, ht, hh⟩
      refine ⟨⟨hc, ?_, ?_⟩, ?_, ?_⟩
      · rintro ⟨i, hi, hr, hd⟩
        exact ht ⟨i, .inl hi, hr, hd⟩
      · rintro ⟨i, hi, hr, hd⟩
        exact hh ⟨i, .inl hi, hr, hd⟩
      · rintro ⟨i, hi, ⟨-, hr⟩, hd⟩
        exact ht ⟨i, .inr hi, hr, hd⟩
      · rintro ⟨i, hi, ⟨-, hr⟩, hd⟩
        exact hh ⟨i, .inr hi, hr, hd⟩

theorem disableInterrupts_spec {m m' : ModuleContext} {i : ℕ} {clss : ConnectionClass} {cmsk : U32}
    (h : disableInterrupts m i clss cmsk = some m') :
    m' = { m with interruptEnable := m'.interruptEnable, hwInterruptEnable := m'.hwInterruptEnable }
      ∧ ∀ c, m'.interruptEnable.getLsbD c = true ↔
        m.interruptEnable.getLsbD c = true ∧ ¬ Disables m cmsk i clss c := by
  unfold disableInterrupts at h
  dsimp only at h
  split at h
  · rename_i hkept
    cases h
    exact ⟨rfl, fun c => ⟨fun hc => ⟨hc, fun hd => hd.1 hkept⟩, fun hc => hc.1⟩⟩
  · rename_i hkept
    split at h
    · cases h
      refine ⟨rfl, fun c => ?_⟩
      simp only [BitVec.getLsbD_and, BitVec.getLsbD_not, Bool.and_eq_true, decide_eq_true_eq,
        Bool.not_eq_true', Disables]
      constructor
      · rintro ⟨hc, -, hn⟩
        exact ⟨hc, fun hd => by rw [hd.2] at hn; cases hn⟩
      · rintro ⟨hc, hn⟩
        refine ⟨hc, BitVec.lt_of_getLsbD hc, ?_⟩
        by_contra hbit
        exact hn ⟨hkept, by simpa using hbit⟩
    · cases h

theorem enable_of_released {m t : ModuleContext} {i : ℕ} {clss : ConnectionClass} {cmsk : U32}
    (hclss : clss ≠ .hard) (hrel : Releases m cmsk i)
    (h : disableInterrupts { m with clients := update m.clients i (m.clients i &&& ~~~cmsk) } i clss
      cmsk = some t) (c : ℕ) :
    t.interruptEnable.getLsbD c = true ↔ m.interruptEnable.getLsbD c = true
      ∧ ¬ (∃ j, j = i ∧ Releases m cmsk j ∧ Disables m cmsk j .ctim c)
      ∧ ¬ ∃ j, False ∧ ReleasesHard m cmsk j ∧ Disables m cmsk j .hard c := by
  have hclass : Disables m cmsk i clss c ↔ Disables m cmsk i .ctim c := by
    unfold Disables disableCounter
    simp only [ne_eq, hclss, not_false_iff, if_true, reduceCtorEq]
  have hdis : Disables { m with clients := update m.clients i (m.clients i &&& ~~~cmsk) } cmsk i
      clss c ↔ Disables m cmsk i clss c :=
    disables_congr (by rfl) (update_dropped_others m.clients i cmsk) (fun _ => by rfl) i clss c
  rw [(disableInterrupts_spec h).2 c, hdis, hclass]
  simp [hrel]

theorem disConnectTrigger_dropped {m m' : ModuleContext} {i : ℕ} {clss : ConnectionClass}
    {cmsk : U32} (hclss : clss ≠ .hard) (h : disConnectTrigger m i clss cmsk = some m') :
    Dropped m m' (fun j => j = i) (fun _ => False) cmsk := by
  have hhard : ∀ j, (False → m.hardClients j = m.hardClients j &&& ~~~cmsk)
      ∧ (¬ False → m.hardClients j = m.hardClients j) := fun _ => ⟨fun hf => hf.elim, fun _ => rfl⟩
  unfold disConnectTrigger at h
  dsimp only at h
  split at h
  · rename_i hmine
    split at h
    · rename_i hlast
      rw [update_self] at hlast
      have hrel : Releases m cmsk i := ⟨hmine, hlast⟩
      have hother : ∀ j, ¬ (j = i ∧ Releases m cmsk j) → j ≠ i := by
        rintro j hj rfl
        exact hj ⟨rfl, hrel⟩
      simp only [Option.bind_eq_some_iff] at h
      obtain ⟨t, ht, h⟩ := h
      have henable := enable_of_released hclss hrel ht
      rw [(disableInterrupts_spec ht).1] at h
      dsimp only at h
      split at h
      · split at h
        · rename_i hctim
          cases h
          refine ⟨rfl, rfl, update_dropped m.clients i cmsk, hhard, ?_, ?_, ?_, henable⟩
          · rintro j rfl - -
            simp only [update_self, and_self]
          · rintro j rfl - hne
            exact absurd hctim hne
          · intro j hj
            simp only [update_of_ne (hother j hj), and_self]
        · rename_i hctim
          cases h
          refine ⟨rfl, rfl, update_dropped m.clients i cmsk, hhard, ?_, ?_, ?_, henable⟩
          · rintro j rfl - heq
            exact absurd heq hctim
          · rintro j rfl - -
            simp only [update_self, and_self]
          · intro j hj
            simp only [update_of_ne (hother j hj), and_self]
      · cases h
    · rename_i hlast
      rw [update_self] at hlast
      cases h
      refine .of_unreleased (update_dropped m.clients i cmsk) hhard ?_ fun _ hf => hf.elim
      rintro j rfl hr
      exact hlast hr.2
  · rename_i hmine
    cases h
    rw [not_not] at hmine
    refine .of_unreleased (fun j => ⟨?_, fun _ => rfl⟩) hhard ?_ fun _ hf => hf.elim
    · rintro rfl
      exact (dropped_of_absent hmine).symm
    · rintro j rfl hr
      exact hr.1 hmine

theorem disConnectHard_dropped {m m' : ModuleContext} {i : ℕ} {cmsk : U32}
    (h : disConnectHard m i cmsk = some m') :
    Dropped m m' (fun _ => False) (fun j => j = i ∧ i < interruptSources) cmsk := by
  have hclients : ∀ j, (False → m.clients j = m.clients j &&& ~~~cmsk)
      ∧ (¬ False → m.clients j = m.clients j) := fun _ => ⟨fun hf => hf.elim, fun _ => rfl⟩
  unfold disConnectHard at h
  split at h
  · rename_i hi
    suffices hone : Dropped m m' (fun _ => False) (fun j => j = i) cmsk from
      hone.congr (fun _ => Iff.rfl) (by simp [hi])
    dsimp only at h
    split at h
    · rename_i hused
      split at h
      · rename_i hlast
        rw [update_self] at hlast
        have hrel : ReleasesHard m cmsk i := ⟨hused, hlast⟩
        obtain ⟨hsame, hbits⟩ := disableInterrupts_spec h
        refine ⟨by rw [hsame], by rw [hsame], by rw [hsame]; exact hclients,
          by rw [hsame]; exact update_dropped m.hardClients i cmsk, fun _ hf => hf.elim,
          fun _ hf => hf.elim, fun _ _ => by rw [hsame]; exact ⟨rfl, rfl, rfl⟩, fun c => ?_⟩
        have hdis : Disables
            { m with hardClients := update m.hardClients i (m.hardClients i &&& ~~~cmsk) }
            cmsk i .hard c ↔ Disables m cmsk i .hard c := by
          refine disables_congr (by rfl) (fun _ => by rfl) (fun j => ?_) i .hard c
          unfold ModuleContext.readHardClients
          split
          · exact update_dropped_others m.hardClients i cmsk j.toNat
          · rfl
        rw [hbits c, hdis]
        simp [hrel]
      · rename_i hlast
        rw [update_self] at hlast
        cases h
        refine .of_unreleased hclients (update_dropped m.hardClients i cmsk)
          (fun _ hf => hf.elim) ?_
        rintro j rfl hr
        exact hlast hr.2
    · rename_i hused
      rw [not_not] at hused
      cases h
      refine .of_unreleased hclients (fun j => ⟨?_, fun _ => rfl⟩) (fun _ hf => hf.elim) ?_
      · rintro rfl
        rw [hused]
        simp
      · rintro j rfl hr
        exact hr.1 hused
  · rename_i hi
    split at h
    · cases h
      exact (Dropped.refl m cmsk).congr (fun _ => Iff.rfl) fun j => by simp [hi]
    · cases h

theorem disConnectOne_dropped {m m' : ModuleContext} {i : ℕ} {clss : ConnectionClass} {cmsk : U32}
    (h : disConnectOne m i clss cmsk = some m') :
    Dropped m m' (fun j => j = i ∧ (clss = .ctim ∨ clss = .ptim))
      (fun j => j = i ∧ clss = .hard ∧ i < interruptSources) cmsk := by
  cases clss with
  | ctim => exact (disConnectTrigger_dropped (by simp) h).congr (by simp) (by simp)
  | ptim => exact (disConnectTrigger_dropped (by simp) h).congr (by simp) (by simp)
  | hard => exact (disConnectHard_dropped h).congr (by simp) (by simp)
  | other v =>
    cases h
    exact (Dropped.refl m cmsk).congr (by simp) (by simp)

/-! ### The sweeps -/

theorem namedSlot_dropped {m t t' : ModuleContext} {conx : Connection} {cmsk : U32} {i : ℕ}
    (hclss : conx.eqpClass ≠ .hard)
    (ht : Dropped m t (fun j => j < i ∧ m.eqpNum j = conx.eqpNum ∧ m.eqpClass j = conx.eqpClass
      ∧ TriggerClass m j) (fun _ => False) cmsk)
    (hs : (if conx.eqpNum = t.eqpNum i ∧ conx.eqpClass = t.eqpClass i then
      disConnectOne t i conx.eqpClass cmsk else some t) = some t') :
    Dropped m t' (fun j => j < i + 1 ∧ m.eqpNum j = conx.eqpNum ∧ m.eqpClass j = conx.eqpClass
      ∧ TriggerClass m j) (fun _ => False) cmsk := by
  -- slot `i` has not been touched yet
  obtain ⟨hnum, hcls, -⟩ := ht.kept i fun hlt => absurd hlt.1.1 (Nat.lt_irrefl i)
  rw [hnum, hcls] at hs
  split at hs
  · rename_i hhit
    refine (ht.trans (disConnectOne_dropped hs)).congr (sweep_succ ?_) (by simp [hclss])
    simp [TriggerClass, hhit.1, hhit.2]
  · rename_i hmiss
    cases hs
    exact ht.congr (sweep_miss fun hh => hmiss ⟨hh.1.symm, hh.2.1.symm⟩) fun _ => Iff.rfl

theorem disConnectTriggers_dropped {m m' : ModuleContext} {conx : Connection} {cmsk : U32}
    (hclss : conx.eqpClass ≠ .hard) (h : disConnectTriggers m conx cmsk = some m') :
    Dropped m m' (NamedSlot m conx) (fun _ => False) cmsk :=
  loop_invariant (P := fun n t => Dropped m t (fun i => i < n ∧ m.eqpNum i = conx.eqpNum
    ∧ m.eqpClass i = conx.eqpClass ∧ TriggerClass m i) (fun _ => False) cmsk) h
    ((Dropped.refl m cmsk).congr (by simp) (by simp))
    fun _ _ _ _ ht hs => namedSlot_dropped hclss ht hs

theorem disConnectSources_dropped {m m' : ModuleContext} {cmsk : U32}
    (h : disConnectSources m cmsk = some m') :
    Dropped m m' (fun _ => False) (fun i => i < interruptSources) cmsk := by
  refine loop_invariant (P := fun n t => Dropped m t (fun _ => False)
    (fun i => i < n ∧ i < interruptSources) cmsk) h ?_ ?_ |>.congr (by simp) (by simp)
  · exact (Dropped.refl m cmsk).congr (by simp) (by simp)
  · intro i hi t t' ht hs
    exact (ht.trans (disConnectOne_dropped hs)).congr (by simp) (sweep_succ (by simp))

theorem ownedSlot_dropped {m t t' : ModuleContext} {cmsk : U32} {i : ℕ}
    (ht : Dropped m t (fun j => j < i ∧ m.eqpNum j ≠ 0 ∧ TriggerClass m j)
      (fun j => j < i ∧ m.eqpNum j ≠ 0 ∧ m.eqpClass j = .hard ∧ j < interruptSources) cmsk)
    (hs : (if t.eqpNum i ≠ 0 then disConnectOne t i (t.eqpClass i) cmsk else some t) = some t') :
    Dropped m t' (fun j => j < i + 1 ∧ m.eqpNum j ≠ 0 ∧ TriggerClass m j)
      (fun j => j < i + 1 ∧ m.eqpNum j ≠ 0 ∧ m.eqpClass j = .hard ∧ j < interruptSources) cmsk := by
  obtain ⟨hnum, hcls, -⟩ := ht.kept i fun hlt => absurd hlt.1.1 (Nat.lt_irrefl i)
  rw [hnum, hcls] at hs
  split at hs
  · rename_i hown
    refine (ht.trans (disConnectOne_dropped hs)).congr (sweep_succ ?_) (sweep_succ ?_)
    · simp only [TriggerClass, hown, ne_eq, not_false_iff, true_and]
    · simp only [hown, ne_eq, not_false_iff, true_and]
  · rename_i hfree
    rw [not_not] at hfree
    cases hs
    exact ht.congr (sweep_miss fun hh => hh.1 hfree) (sweep_miss fun hh => hh.1 hfree)

theorem disConnectOwned_dropped {m m' : ModuleContext} {cmsk : U32}
    (h : disConnectOwned m cmsk = some m') :
    Dropped m m' (OwnedSlot m)
      (fun i => i < ramTableSize ∧ m.eqpNum i ≠ 0 ∧ m.eqpClass i = .hard ∧ i < interruptSources)
      cmsk :=
  loop_invariant (P := fun n t => Dropped m t
    (fun i => i < n ∧ m.eqpNum i ≠ 0 ∧ TriggerClass m i)
    (fun i => i < n ∧ m.eqpNum i ≠ 0 ∧ m.eqpClass i = .hard ∧ i < interruptSources) cmsk) h
    ((Dropped.refl m cmsk).congr (by simp) (by simp)) fun _ _ _ _ ht hs => ownedSlot_dropped ht hs

theorem disConnectModule_dropped {m m₁ m' : ModuleContext} {cmsk : U32}
    (h₁ : disConnectOwned m cmsk = some m₁) (h₂ : disConnectSources m₁ cmsk = some m') :
    Dropped m m' (OwnedSlot m) (fun i => i < interruptSources) cmsk := by
  refine ((disConnectOwned_dropped h₁).trans (disConnectSources_dropped h₂)).congr (by simp) ?_
  intro i
  constructor
  · rintro (hi | hi)
    · exact hi.2.2.2
    · exact hi
  · exact .inr

/-- The client of mask `cmsk` was added to the sources in `srcs`. -/
structure Wired (m m' : ModuleContext) (srcs cmsk : U32) : Prop where
  trigs : m'.trigs = m.trigs
  eqpNum : m'.eqpNum = m.eqpNum
  eqpClass : m'.eqpClass = m.eqpClass
  clients : m'.clients = m.clients
  hwConfigs : m'.hwConfigs = m.hwConfigs
  hardClients : ∀ i, m'.hardClients i = if i < interruptSources ∧ srcs.getLsbD i = true
    then m.hardClients i ||| cmsk else m.hardClients i
  enable : ∀ c, m'.interruptEnable.getLsbD c = true ↔ m.interruptEnable.getLsbD c = true
    ∨ c < interruptSources ∧ srcs.getLsbD c = true

theorem connectHard_wired {m m' : ModuleContext} {eqpNum cmsk : U32} {count : ℕ}
    (h : connectHard m eqpNum cmsk = some (count, m')) : Wired m m' eqpNum cmsk := by
  have hloop := loop_invariant (P := fun n (t : ℕ × ModuleContext) =>
    t.2 = { m with interruptEnable := t.2.interruptEnable, hardClients := t.2.hardClients }
      ∧ (∀ i, t.2.hardClients i = if i < n ∧ eqpNum.getLsbD i = true
        then m.hardClients i ||| cmsk else m.hardClients i)
      ∧ ∀ c, t.2.interruptEnable.getLsbD c = true ↔ m.interruptEnable.getLsbD c = true
        ∨ c < n ∧ eqpNum.getLsbD c = true) h ?_ ?_
  · obtain ⟨hsame, hhard, henable⟩ := hloop
    dsimp only at hsame
    exact ⟨by rw [hsame], by rw [hsame], by rw [hsame], by rw [hsame], by rw [hsame], hhard,
      henable⟩
  · exact ⟨rfl, fun i => by simp, fun c => by simp⟩
  · rintro i hi ⟨k, t⟩ ⟨k', t'⟩ ⟨hsame, hhard, henable⟩ hs
    dsimp only at hsame hhard henable hs ⊢
    have hwidth : i < 32 := Nat.lt_trans hi (by decide)
    split at hs
    · rename_i hand
      have hbit := (and_bit_ne_zero hwidth eqpNum).mp hand
      cases hs
      have hnext := sweep_hit (P := fun j => eqpNum.getLsbD j = true) hbit
      refine ⟨?_, fun j => ?_, fun c => ?_⟩
      · rw [hsame]
      · simp only [← hnext j]
        by_cases hj : j = i
        · subst hj
          simp only [update_self, or_true, if_true, hhard j, Nat.lt_irrefl, false_and, if_false]
        · simp only [update_of_ne hj, hhard j, hj, or_false]
      · simp only [← hnext c, BitVec.getLsbD_or, Bool.or_eq_true, henable c, getLsbD_bit hwidth,
          or_assoc]
    · rename_i hand
      have hbit : ¬ eqpNum.getLsbD i = true := fun hb =>
        hand ((and_bit_ne_zero hwidth eqpNum).mpr hb)
      have hnext := sweep_miss (P := fun j => eqpNum.getLsbD j = true) hbit
      cases hs
      refine ⟨hsame, fun j => ?_, fun c => ?_⟩
      · simp only [← hnext j, hhard j]
      · simp only [← hnext c, henable c]

/-! ### Creating and destroying objects -/

/-- Between `m` and `m'` the slots `hit` were given to `ptim`. -/
structure Taken (m m' : ModuleContext) (hit : ℕ → Prop) (ptim : PtimBinding) : Prop where
  rest : m' = { m with eqpNum := m'.eqpNum, eqpClass := m'.eqpClass, trigs := m'.trigs }
  hits : ∀ i, hit i → m'.eqpNum i = ptim.eqpNum ∧ m'.eqpClass i = .ptim
    ∧ (m'.trigs i).counter = ptim.counter.setWidth 32
  misses : ∀ i, ¬ hit i → m'.eqpNum i = m.eqpNum i ∧ m'.eqpClass i = m.eqpClass i
    ∧ m'.trigs i = m.trigs i

theorem takeSlots_taken {m m' : ModuleContext} {start size : ℕ} {ptim : PtimBinding}
    (h : loop (fun j m => some (takeSlot m (start + j) ptim)) size m = some m') :
    Taken m m' (fun i => start ≤ i ∧ i < start + size) ptim := by
  refine loop_invariant
    (P := fun n t => Taken m t (fun i => start ≤ i ∧ i < start + n) ptim) h ?_ ?_
  · exact ⟨rfl, fun i hi => by omega, fun _ _ => ⟨rfl, rfl, rfl⟩⟩
  · rintro j - t t' ht hs
    cases hs
    refine ⟨?_, fun i hi => ?_, fun i hi => ?_⟩
    · rw [takeSlot, ht.rest]
    · by_cases hij : i = start + j
      · subst hij
        simp only [takeSlot, update_self, and_self]
      · simp only [takeSlot, update_of_ne hij]
        exact ht.hits i ⟨hi.1, by omega⟩
    · have hij : i ≠ start + j := by
        rintro rfl
        exact hi ⟨by omega, by omega⟩
      simp only [takeSlot, update_of_ne hij]
      exact ht.misses i fun hh => hi ⟨hh.1, by omega⟩

theorem searchSpace_empty {m : ModuleContext} {want n i size start found : ℕ} (hsize : size < want)
    (hrun : size = 0 ∨ start + size = i)
    (hempty : ∀ j, start ≤ j → j < start + size → m.eqpNum j = 0)
    (h : searchSpace m want n i size start = some found) :
    found + want ≤ i + n ∧ ∀ j, found ≤ j → j < found + want → m.eqpNum j = 0 := by
  induction n generalizing i size start with
  | zero => cases h
  | succ n ih =>
    simp only [searchSpace] at h
    split at h
    · rename_i hi
      -- the run goes on, or starts here
      have hrun' : (if size = 0 then i else start) + (size + 1) = i + 1 := by
        split <;> omega
      have hempty' : ∀ j, (if size = 0 then i else start) ≤ j →
          j < (if size = 0 then i else start) + (size + 1) → m.eqpNum j = 0 := by
        intro j hlo hhi
        by_cases hj : j = i
        · rw [hj]
          exact hi
        · split at hlo
          · omega
          · rename_i hne
            rw [if_neg hne] at hhi
            exact hempty j hlo (by omega)
      split at h
      · cases h
        have hwant : want = size + 1 := by omega
        rw [hwant]
        exact ⟨by omega, hempty'⟩
      · obtain ⟨hend, hfree⟩ := ih (by omega) (.inr hrun') hempty' h
        exact ⟨by omega, hfree⟩
    · obtain ⟨hend, hfree⟩ := ih (by omega) (.inl rfl) (fun j hlo hhi => by omega) h
      exact ⟨by omega, hfree⟩

/-- Between `m` and `m'` the slots `hit` were emptied. -/
structure Freed (m m' : ModuleContext) (hit : ℕ → Prop) : Prop where
  clients : m'.clients = m.clients
  hardClients : m'.hardClients = m.hardClients
  interruptEnable : m'.interruptEnable = m.interruptEnable
  hits : ∀ i, hit i → m'.eqpNum i = 0 ∧ m'.eqpClass i = .hard ∧ m'.trigs i = .zero
    ∧ m'.hwConfigs i = configToHard .zero
  misses : ∀ i, ¬ hit i → m'.eqpNum i = m.eqpNum i ∧ m'.eqpClass i = m.eqpClass i
    ∧ m'.trigs i = m.trigs i ∧ m'.hwConfigs i = m.hwConfigs i

theorem freeSlots_freed {m m' : ModuleContext} {eqpNum : U32}
    (h : loop (fun i m =>
      if m.eqpNum i = eqpNum ∧ m.eqpClass i = .ptim then freeSlot m i else some m)
      ramTableSize m = some m') : Freed m m' (PtimSlot m eqpNum) := by
  refine loop_invariant (P := fun n t => Freed m t
    (fun i => i < n ∧ m.eqpNum i = eqpNum ∧ m.eqpClass i = .ptim)) h ?_ ?_
  · exact ⟨rfl, rfl, rfl, fun i hi => by omega, fun _ _ => ⟨rfl, rfl, rfl, rfl⟩⟩
  · intro i _ t t' ht hs
    obtain ⟨hnum, hcls, -, -⟩ := ht.misses i fun hlt => absurd hlt.1 (Nat.lt_irrefl i)
    rw [hnum, hcls] at hs
    split at hs
    · rename_i hhit
      have hnext := sweep_hit (P := fun i => m.eqpNum i = eqpNum ∧ m.eqpClass i = .ptim) hhit
      unfold freeSlot at hs
      split at hs
      · cases hs
        refine ⟨ht.clients, ht.hardClients, ht.interruptEnable, fun j hj => ?_, fun j hj => ?_⟩
        · by_cases hji : j = i
          · subst hji
            simp only [update_self, and_self]
          · simp only [update_of_ne hji]
            exact ht.hits j (((hnext j).mpr hj).resolve_right hji)
        · have hji : j ≠ i := fun heq => hj ((hnext j).mp (.inr heq))
          simp only [update_of_ne hji]
          exact ht.misses j fun hh => hj ((hnext j).mp (.inl hh))
      · cases hs
    · rename_i hmiss
      have hnext := sweep_miss (P := fun i => m.eqpNum i = eqpNum ∧ m.eqpClass i = .ptim) hmiss
      cases hs
      exact ⟨ht.clients, ht.hardClients, ht.interruptEnable,
        fun j hj => ht.hits j ((hnext j).mpr hj),
        fun j hj => ht.misses j fun hh => hj ((hnext j).mp hh)⟩

end KernelModules.Ctr
