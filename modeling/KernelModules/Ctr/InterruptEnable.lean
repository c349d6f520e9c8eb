import KernelModules.Ctr.Effects

/-!
# Which interrupts are enabled

The enable mask of a module has one bit per interrupt source.  A source is used by clients
connected to it directly and, for a counter, by clients connected to triggers on that counter.

* `EnableInv` says that a source is enabled exactly if it is used, and that only counters 0 to 8
  are behind connected triggers;
* `DropRule` is what a client that gives up connections has to meet.  `DisableInterrupts` asks
  whether *other* clients use the source, so a connection the client itself keeps is forgotten;
  and its last test looks at `HardClients` with the number of a trigger for an index;
* `EnableRule` is the rule for every call, and `enabled_of_reachUnder` the invariant over every
  run under it.
-/

namespace KernelModules.Ctr

open Function KernelModules.Lib

/-- A client is connected to source `c`, directly or through a trigger on counter `c`. -/
def Used (m : ModuleContext) (c : ℕ) : Prop :=
  m.hardClients c ≠ 0 ∨ c < counters ∧ ∃ i < ramTableSize,
    (m.trigs i).counter.toNat = c ∧ m.clients i ≠ 0

/-- A source is enabled exactly if it is used. -/
def Enabled (m : ModuleContext) : Prop :=
  ∀ c < interruptSources, m.interruptEnable.getLsbD c = true ↔ Used m c

/-- The inductive form: also, connected triggers are on counters. -/
structure EnableInv (m : ModuleContext) : Prop where
  enabled : Enabled m
  counter : ∀ i < ramTableSize, m.clients i ≠ 0 → (m.trigs i).counter.toNat < counters

theorem getLsbD_sourceMask {x : U32} (h : x.toNat < 32) (c : ℕ) :
    (sourceMask x).getLsbD c = true ↔ c = x.toNat := by
  rw [sourceMask, Nat.mod_eq_of_lt h]
  exact getLsbD_bit h c

theorem getLsbD_one (c : ℕ) : (1 : U32).getLsbD c = true ↔ c = 0 := by
  have hbit := getLsbD_bit (i := 0) (by decide) c
  rwa [BitVec.shiftLeft_zero] at hbit

/-! ### Calls that keep the connections -/

theorem EnableInv.of_counters {m m' : ModuleContext} (h : EnableInv m)
    (hclients : m'.clients = m.clients) (hhard : m'.hardClients = m.hardClients)
    (henable : m'.interruptEnable = m.interruptEnable)
    (hcounter : ∀ i < ramTableSize, m.clients i ≠ 0 → (m'.trigs i).counter = (m.trigs i).counter) :
    EnableInv m' := by
  refine ⟨fun c hc => ?_, fun i hi hcl => ?_⟩
  · rw [henable, h.enabled c hc]
    unfold Used
    rw [hhard, hclients]
    refine or_congr_right (and_congr_right fun _ => exists_congr fun i => ?_)
    refine and_congr_right fun hi => ?_
    exact and_congr_left fun hcl => by rw [hcounter i hi hcl]
  · rw [hclients] at hcl
    rw [hcounter i hi hcl]
    exact h.counter i hi hcl

/-! ### Adding a client -/

theorem EnableInv.connected {m m' : ModuleContext} {hit : ℕ → Prop} {hmsk : ℕ → U32} {cmsk : U32}
    (h : EnableInv m) (hcmsk : cmsk ≠ 0) (hc : Connected m m' hit hmsk cmsk)
    (hcounter : ∀ i, hit i → i < ramTableSize ∧ (m.trigs i).counter.toNat < counters
      ∧ ∀ c, (hmsk i).getLsbD c = true ↔ c = (m.trigs i).counter.toNat) : EnableInv m' := by
  have hclients : ∀ i, m'.clients i ≠ 0 ↔ hit i ∨ m.clients i ≠ 0 := by
    intro i
    by_cases hi : hit i
    · rw [(hc.hits i hi).1]
      exact iff_of_true (or_mask_ne_zero hcmsk) (.inl hi)
    · rw [(hc.misses i hi).1, or_iff_right hi]
  refine ⟨fun c hlt => ?_, fun i hi hcl => ?_⟩
  · rw [hc.enable c, h.enabled c hlt]
    unfold Used
    simp only [hc.hardClients, hc.trigs, hclients]
    constructor
    · rintro ((hh | ⟨hcn, i, hi, hci, hcl⟩) | ⟨i, hi, hbit⟩)
      · exact .inl hh
      · exact .inr ⟨hcn, i, hi, hci, .inr hcl⟩
      · obtain ⟨hlt', hcn, hmask⟩ := hcounter i hi
        rw [(hmask c).mp hbit]
        exact .inr ⟨hcn, i, hlt', rfl, .inl hi⟩
    · rintro (hh | ⟨hcn, i, hi, hci, hhit | hcl⟩)
      · exact .inl (.inl hh)
      · exact .inr ⟨i, hhit, ((hcounter i hhit).2.2 c).mpr hci.symm⟩
      · exact .inl (.inr ⟨hcn, i, hi, hci, hcl⟩)
  · rw [hc.trigs]
    rcases (hclients i).mp hcl with hhit | hcl
    · exact (hcounter i hhit).2.1
    · exact h.counter i hi hcl

theorem EnableInv.instanced {m m' : ModuleContext} {i : ℕ} {num cmsk : U32} (h : EnableInv m)
    (hcmsk : cmsk ≠ 0) (hi : i < ramTableSize) (hn : Instanced m m' i num cmsk)
    (hrule : m.clients i = 0 ∨ (m.trigs i).counter = 0) : EnableInv m' := by
  have hself : m'.clients i ≠ 0 := by
    rw [hn.clients, update_self]
    exact or_mask_ne_zero hcmsk
  have hother : ∀ j, j ≠ i → m'.clients j = m.clients j := by
    intro j hj
    rw [hn.clients, update_of_ne hj]
  refine ⟨fun c hlt => ?_, fun j hj hcl => ?_⟩
  · rw [hn.interruptEnable, BitVec.getLsbD_or, Bool.or_eq_true, h.enabled c hlt, getLsbD_one]
    unfold Used
    rw [hn.hardClients]
    constructor
    · rintro ((hh | ⟨hcn, j, hj, hcj, hcl⟩) | rfl)
      · exact .inl hh
      · by_cases hji : j = i
        · subst hji
          refine .inr ⟨hcn, j, hj, ?_, hself⟩
          rw [hn.counter, ← hcj, hrule.resolve_left hcl]
        · exact .inr ⟨hcn, j, hj, by rwa [hn.trigs j hji], by rwa [hother j hji]⟩
      · exact .inr ⟨by decide, i, hi, by rw [hn.counter]; rfl, hself⟩
    · rintro (hh | ⟨hcn, j, hj, hcj, hcl⟩)
      · exact .inl (.inl hh)
      · by_cases hji : j = i
        · subst hji
          rw [hn.counter] at hcj
          exact .inr hcj.symm
        · rw [hn.trigs j hji] at hcj
          rw [hother j hji] at hcl
          exact .inl (.inr ⟨hcn, j, hj, hcj, hcl⟩)
  · by_cases hji : j = i
    · subst hji
      rw [hn.counter]
      decide
    · rw [hn.trigs j hji]
      rw [hother j hji] at hcl
      exact h.counter j hj hcl

theorem EnableInv.wired {m m' : ModuleContext} {srcs cmsk : U32} (h : EnableInv m)
    (hcmsk : cmsk ≠ 0) (hw : Wired m m' srcs cmsk) : EnableInv m' := by
  refine ⟨fun c hlt => ?_, fun i hi hcl => ?_⟩
  · rw [hw.enable c, h.enabled c hlt]
    unfold Used
    rw [hw.hardClients c, hw.trigs, hw.clients]
    by_cases hbit : c < interruptSources ∧ srcs.getLsbD c = true
    · rw [if_pos hbit]
      exact iff_of_true (.inr hbit) (.inl (or_mask_ne_zero hcmsk))
    · rw [if_neg hbit, or_iff_left hbit]
  · rw [hw.trigs]
    rw [hw.clients] at hcl
    exact h.counter i hi hcl

/-! ### Taking a client off -/

section Drop

variable (m : ModuleContext) (cmsk : U32) (T H : ℕ → Prop) (c : ℕ)

/-- Another client uses source `c`. -/
def UsedByOthers : Prop :=
  m.hardClients c &&& ~~~cmsk ≠ 0 ∨ ∃ i < ramTableSize,
    (m.trigs i).counter.toNat = c ∧ m.clients i &&& ~~~cmsk ≠ 0

/-- Source `c`, or a trigger on counter `c`, loses its last client. -/
def Loses : Prop :=
  H c ∧ ReleasesHard m cmsk c ∨ ∃ i, T i ∧ Releases m cmsk i ∧ (m.trigs i).counter.toNat = c

/-- The client keeps a connection to source `c`. -/
def Keeps : Prop :=
  ¬ H c ∧ m.hardClients c ≠ 0 ∨ ∃ i < ramTableSize,
    (m.trigs i).counter.toNat = c ∧ m.clients i ≠ 0 ∧ ¬ T i

/-- A connection goes whose index passes the last test of `DisableInterrupts`. -/
def Passes : Prop :=
  H c ∧ ReleasesHard m cmsk c ∨ ∃ i, T i ∧ Releases m cmsk i ∧ (m.trigs i).counter.toNat = c
    ∧ m.readHardClients (BitVec.ofNat 32 i) &&& ~~~cmsk = 0

/-- The rule for a client that is taken off the slots `T` and the sources `H`: on a source that
nobody else uses, either a test passes and the client keeps nothing, or no test passes and it
keeps something. -/
def DropRule : Prop :=
  ∀ c < interruptSources, Loses m cmsk T H c → ¬ UsedByOthers m cmsk c →
    (Passes m cmsk T H c ↔ ¬ Keeps m T H c)

end Drop

theorem disables_trigger {m : ModuleContext} {cmsk : U32} {i : ℕ}
    (hcounter : (m.trigs i).counter.toNat < counters) (c : ℕ) :
    Disables m cmsk i .ctim c ↔ c = (m.trigs i).counter.toNat
      ∧ ¬ UsedByOthers m cmsk c ∧ m.readHardClients (BitVec.ofNat 32 i) &&& ~~~cmsk = 0 := by
  have hcntr : disableCounter m i .ctim = some (m.trigs i).counter := by
    unfold disableCounter
    rw [if_pos (by simp), if_neg]
    intro heq
    rw [heq] at hcounter
    exact absurd hcounter (by decide)
  have hread : m.readHardClients (m.trigs i).counter = m.hardClients (m.trigs i).counter.toNat :=
    if_pos (lt_trans hcounter (by decide))
  have hsame : ∀ j, (m.trigs j).counter = (m.trigs i).counter ↔
      (m.trigs j).counter.toNat = (m.trigs i).counter.toNat := fun j => BitVec.toNat_inj.symm
  have hkept : KeptEnabled m i (some (m.trigs i).counter) cmsk ↔
      UsedByOthers m cmsk (m.trigs i).counter.toNat
        ∨ m.readHardClients (BitVec.ofNat 32 i) &&& ~~~cmsk ≠ 0 := by
    unfold KeptEnabled UsedByOthers
    simp only [Option.some.injEq, exists_eq_left', hread, hsame]
  rw [Disables, hcntr, Option.getD_some, getLsbD_sourceMask (lt_trans hcounter (by decide)), hkept,
    not_or, not_not]
  constructor
  · rintro ⟨hno, rfl⟩
    exact ⟨rfl, hno⟩
  · rintro ⟨rfl, hno⟩
    exact ⟨hno, rfl⟩

theorem disables_source {m : ModuleContext} {cmsk : U32} {i : ℕ} (h : EnableInv m)
    (hi : i < interruptSources) (hr : ReleasesHard m cmsk i) (c : ℕ) :
    Disables m cmsk i .hard c ↔ c = i ∧ ¬ UsedByOthers m cmsk c := by
  have hwidth : i < 32 := lt_trans hi (by decide)
  have hnat : (BitVec.ofNat 32 i).toNat = i := by
    rw [BitVec.toNat_ofNat]
    exact Nat.mod_eq_of_lt (lt_trans hwidth (by decide))
  have hread : m.readHardClients (BitVec.ofNat 32 i) = m.hardClients i := by
    rw [ModuleContext.readHardClients, hnat, if_pos hi]
  have hsame : ∀ j, (m.trigs j).counter = BitVec.ofNat 32 i ↔ (m.trigs j).counter.toNat = i := by
    intro j
    rw [← BitVec.toNat_inj, hnat]
  have hkept : KeptEnabled m i (disableCounter m i .hard) cmsk ↔ UsedByOthers m cmsk i := by
    unfold KeptEnabled UsedByOthers disableCounter
    rw [if_neg (by simp), hread]
    split
    · simp only [Option.some.injEq, exists_eq_left', hread, hsame, hr.2, ne_eq, not_true, false_or,
        or_false]
    · rename_i hlarge
      -- no connected trigger is on such a counter
      simp only [reduceCtorEq, false_and, exists_false, hr.2, ne_eq, not_true, false_or, or_self,
        false_iff]
      rintro ⟨j, hj, hcj, hcl⟩
      have hused : m.clients j ≠ 0 := by
        intro h0
        rw [h0] at hcl
        simp at hcl
      have := h.counter j hj hused
      omega
  have hmask : (disableCounter m i .hard).getD (BitVec.ofNat 32 i) = BitVec.ofNat 32 i := by
    unfold disableCounter
    rw [if_neg (by simp)]
    split <;> rfl
  rw [Disables, hkept, hmask, getLsbD_sourceMask (by rw [hnat]; exact hwidth), hnat]
  constructor
  · rintro ⟨hno, rfl⟩
    exact ⟨rfl, hno⟩
  · rintro ⟨rfl, hno⟩
    exact ⟨hno, rfl⟩

theorem Releases.used {m : ModuleContext} {cmsk : U32} {i : ℕ} (h : Releases m cmsk i) :
    m.clients i ≠ 0 := by
  intro h0
  apply h.1
  rw [h0]
  simp

theorem ne_zero_of_others {x cmsk : U32} (h : x &&& ~~~cmsk ≠ 0) : x ≠ 0 := by
  rintro rfl
  simp at h

theorem Used.of_others {m : ModuleContext} {cmsk : U32} {c : ℕ} (h : EnableInv m)
    (ho : UsedByOthers m cmsk c) : Used m c := by
  rcases ho with hh | ⟨i, hi, rfl, hcl⟩
  · exact .inl (ne_zero_of_others hh)
  · exact .inr ⟨h.counter i hi (ne_zero_of_others hcl), i, hi, rfl, ne_zero_of_others hcl⟩

theorem Keeps.used {m : ModuleContext} {T H : ℕ → Prop} {c : ℕ} (hk : Keeps m T H c)
    (h : EnableInv m) : Used m c := by
  rcases hk with ⟨-, hh⟩ | ⟨i, hi, rfl, hcl, -⟩
  · exact .inl hh
  · exact .inr ⟨h.counter i hi hcl, i, hi, rfl, hcl⟩

theorem Passes.loses {m : ModuleContext} {cmsk : U32} {T H : ℕ → Prop} {c : ℕ}
    (h : Passes m cmsk T H c) : Loses m cmsk T H c := by
  rcases h with hh | ⟨i, hi, hr, hci, -⟩
  · exact .inl hh
  · exact .inr ⟨i, hi, hr, hci⟩

theorem Loses.used {m : ModuleContext} {cmsk : U32} {T H : ℕ → Prop} {c : ℕ}
    (hl : Loses m cmsk T H c) (h : EnableInv m) (hT : ∀ i, T i → i < ramTableSize) : Used m c := by
  rcases hl with ⟨-, hr⟩ | ⟨i, hi, hr, rfl⟩
  · exact .inl hr.1
  · exact .inr ⟨h.counter i (hT i hi) hr.used, i, hT i hi, rfl, hr.used⟩

theorem Used.keeps {m : ModuleContext} {cmsk : U32} {T H : ℕ → Prop} {c : ℕ} (h : Used m c)
    (ho : ¬ UsedByOthers m cmsk c) (hl : ¬ Loses m cmsk T H c) : Keeps m T H c := by
  rcases h with hh | ⟨-, i, hi, hci, hcl⟩
  · refine .inl ⟨fun hH => hl (.inl ⟨hH, hh, ?_⟩), hh⟩
    by_contra hne
    exact ho (.inl hne)
  · refine .inr ⟨i, hi, hci, hcl, fun hT => hl (.inr ⟨i, hT, ⟨fun hmine => ?_, ?_⟩, hci⟩)⟩
    · exact ho (.inr ⟨i, hi, hci, by rwa [dropped_of_absent hmine]⟩)
    · by_contra hne
      exact ho (.inr ⟨i, hi, hci, hne⟩)

theorem Dropped.used_of_others {m m' : ModuleContext} {T H : ℕ → Prop} {cmsk : U32} {c : ℕ}
    (h : EnableInv m) (hd : Dropped m m' T H cmsk) (ho : UsedByOthers m cmsk c) : Used m' c := by
  have hleft : ∀ {x y : U32}, x &&& ~~~cmsk ≠ 0 → y &&& ~~~cmsk = x &&& ~~~cmsk → y ≠ 0 :=
    fun hx hy => ne_zero_of_others (hy ▸ hx)
  rcases ho with hh | ⟨i, hi, rfl, hcl⟩
  · refine .inl (hleft hh ?_)
    by_cases hi : H c
    · rw [(hd.hardClients c).1 hi, dropped_dropped]
    · rw [(hd.hardClients c).2 hi]
  · refine .inr ⟨h.counter i hi (ne_zero_of_others hcl), i, hi, by rw [hd.trigs], ?_⟩
    exact hleft hcl (hd.clients_others i)

theorem Dropped.used_iff_keeps {m m' : ModuleContext} {T H : ℕ → Prop} {cmsk : U32} {c : ℕ}
    (h : EnableInv m) (hd : Dropped m m' T H cmsk) (ho : ¬ UsedByOthers m cmsk c) :
    Used m' c ↔ Keeps m T H c := by
  have hhard : m'.hardClients c ≠ 0 ↔ ¬ H c ∧ m.hardClients c ≠ 0 := by
    by_cases hi : H c
    · rw [(hd.hardClients c).1 hi]
      refine iff_of_false (fun hne => ho (.inl hne)) fun hn => hn.1 hi
    · rw [(hd.hardClients c).2 hi, and_iff_right hi]
  unfold Used Keeps
  rw [hhard, hd.trigs]
  refine or_congr_right ⟨?_, ?_⟩
  · rintro ⟨-, i, hi, hci, hcl⟩
    have hTi : ¬ T i := by
      intro hTi
      rw [(hd.clients i).1 hTi] at hcl
      exact ho (.inr ⟨i, hi, hci, hcl⟩)
    rw [(hd.clients i).2 hTi] at hcl
    exact ⟨i, hi, hci, hcl, hTi⟩
  · rintro ⟨i, hi, hci, hcl, hTi⟩
    refine ⟨hci ▸ h.counter i hi hcl, i, hi, hci, ?_⟩
    rwa [(hd.clients i).2 hTi]

theorem Dropped.enable_iff {m m' : ModuleContext} {T H : ℕ → Prop} {cmsk : U32} (h : EnableInv m)
    (hd : Dropped m m' T H cmsk) (hT : ∀ i, T i → i < ramTableSize)
    (hH : ∀ i, H i → i < interruptSources) (c : ℕ) :
    m'.interruptEnable.getLsbD c = true ↔ m.interruptEnable.getLsbD c = true
      ∧ (UsedByOthers m cmsk c ∨ ¬ Passes m cmsk T H c) := by
  have htrigger : ∀ i, T i → Releases m cmsk i → (m.trigs i).counter.toNat < counters := by
    intro i hi hr
    exact h.counter i (hT i hi) hr.used
  rw [hd.enable c]
  refine and_congr_right fun _ => ?_
  by_cases hothers : UsedByOthers m cmsk c
  · refine iff_of_true ⟨?_, ?_⟩ (.inl hothers)
    · rintro ⟨i, hi, hr, hdis⟩
      exact ((disables_trigger (htrigger i hi hr) c).mp hdis).2.1 hothers
    · rintro ⟨i, hi, hr, hdis⟩
      exact ((disables_source h (hH i hi) hr c).mp hdis).2 hothers
  · rw [or_iff_right hothers, ← not_or, not_iff_not, or_comm]
    refine or_congr ⟨?_, ?_⟩ (exists_congr fun i => and_congr_right fun hi =>
      and_congr_right fun hr => ?_)
    · rintro ⟨i, hi, hr, hdis⟩
      obtain ⟨rfl, -⟩ := (disables_source h (hH i hi) hr c).mp hdis
      exact ⟨hi, hr⟩
    · rintro ⟨hi, hr⟩
      exact ⟨c, hi, hr, (disables_source h (hH c hi) hr c).mpr ⟨rfl, hothers⟩⟩
    · rw [disables_trigger (htrigger i hi hr) c, eq_comm]
      exact and_congr_right fun _ => and_iff_right hothers

theorem Dropped.enabled_iff {m m' : ModuleContext} {T H : ℕ → Prop} {cmsk : U32} (h : EnableInv m)
    (hd : Dropped m m' T H cmsk) (hT : ∀ i, T i → i < ramTableSize)
    (hH : ∀ i, H i → i < interruptSources) : Enabled m' ↔ DropRule m cmsk T H := by
  refine forall_congr' fun c => forall_congr' fun hc => ?_
  rw [hd.enable_iff h hT hH c, h.enabled c hc]
  by_cases hothers : UsedByOthers m cmsk c
  · refine iff_of_true ?_ fun _ hno => absurd hothers hno
    exact iff_of_true ⟨Used.of_others h hothers, .inl hothers⟩ (hd.used_of_others h hothers)
  · rw [hd.used_iff_keeps h hothers, or_iff_right hothers]
    by_cases hloses : Loses m cmsk T H c
    · rw [and_iff_right (hloses.used h hT)]
      constructor
      · intro heq _ _
        rw [← heq, not_not]
      · intro hrule
        rw [hrule hloses hothers, not_not]
    · have hpass : ¬ Passes m cmsk T H c := fun hp => hloses hp.loses
      refine iff_of_true ⟨fun hu => hu.1.keeps hothers hloses, fun hk => ⟨hk.used h, hpass⟩⟩ ?_
      exact fun hl => absurd hl hloses

theorem EnableInv.dropped {m m' : ModuleContext} {T H : ℕ → Prop} {cmsk : U32} (h : EnableInv m)
    (hd : Dropped m m' T H cmsk) (hT : ∀ i, T i → i < ramTableSize)
    (hH : ∀ i, H i → i < interruptSources) (hrule : DropRule m cmsk T H) : EnableInv m' := by
  refine ⟨(hd.enabled_iff h hT hH).mpr hrule, fun i hi hcl => ?_⟩
  rw [hd.trigs]
  refine h.counter i hi fun h0 => hcl ?_
  by_cases hTi : T i
  · rw [(hd.clients i).1 hTi, h0]
    simp
  · rw [(hd.clients i).2 hTi, h0]

theorem DropRule.of_no_clients {m : ModuleContext} {cmsk : U32} {T H : ℕ → Prop}
    (hclients : ∀ i < ramTableSize, m.clients i = 0) (hT : ∀ i, T i → i < ramTableSize)
    (hH : ∀ i < interruptSources, H i) : DropRule m cmsk T H := by
  intro c hc hloses _
  refine iff_of_true ?_ ?_
  · rcases hloses with hhard | ⟨i, hi, hrel, -⟩
    · exact .inl hhard
    · exact absurd (by rw [hclients i (hT i hi)]; simp) hrel.1
  · rintro (⟨hno, -⟩ | ⟨i, hi, -, hcl, -⟩)
    · exact hno (hH c hc)
    · exact hcl (hclients i hi)

/-! ### The rule for every call -/

/-- `CONNECT` finds its triggers on counters, and a CTIM on counter 0. -/
def WorkingArea.ConnectRule (s : WorkingArea) (cnum : ℕ) (conx : Connection) : Prop :=
  match conx.eqpClass with
  | .ptim => ∀ midx i, getPtimModule s conx.eqpNum = some midx →
      PtimSlot (s.moduleContexts midx) conx.eqpNum i →
        ((s.moduleContexts midx).trigs i).counter.toNat < counters
  | .ctim =>
    (∀ i, ctimSlot (s.target cnum conx) conx.eqpNum = some i →
      ((s.target cnum conx).trigs i).counter = 0)
    ∧ (ctimSlot (s.target cnum conx) conx.eqpNum = none → ∀ i,
      emptySlot (s.target cnum conx) = some i →
        (s.target cnum conx).clients i = 0 ∨ ((s.target cnum conx).trigs i).counter = 0)
  | _ => True

/-- A client that gives up everything keeps to the rule on every module. -/
def WorkingArea.DropAllRule (s : WorkingArea) (cnum : ℕ) : Prop :=
  ∀ j < s.modules, DropRule (s.moduleContexts j) (s.clientMask cnum)
    (OwnedSlot (s.moduleContexts j)) fun i => i < interruptSources

/-- The rule for an ioctl that is served.  `SET_ACTION` and `CREATE_PTIM_OBJECT` change no counter
under a connected client. -/
def WorkingArea.IoctlRule (s : WorkingArea) (cnum : ℕ) : Ioctl → Prop
  | .connect conx => s.ConnectRule cnum conx
  | .disconnect conx =>
    if conx.eqpNum = 0 then s.DropAllRule cnum
    else DropRule (s.moduleContexts (conx.module.toNat - 1)) (s.clientMask cnum)
      (NamedSlot (s.moduleContexts (conx.module.toNat - 1)) conx)
      fun i => conx.eqpClass = .hard ∧ i < interruptSources
  | .setAction act =>
    let m := s.moduleContexts (s.clientModule cnum)
    let i := act.triggerNumber.toNat - 1
    m.eqpNum i = 0 → m.eqpClass i ≠ .hard →
      m.clients i = 0 ∨ (m.trigs i).counter = act.trigger.counter
  | .createPtim ptim =>
    let m := s.moduleContexts ptim.moduleIndex.toNat
    ∀ start i, searchSpace m ptim.size.toNat ramTableSize 0 0 0 = some start → start ≤ i →
      i < start + ptim.size.toNat →
        m.clients i = 0 ∨ (m.trigs i).counter = ptim.counter.setWidth 32
  | _ => True

/-- The calls under which the enable masks stay right. -/
def WorkingArea.EnableRule (s : WorkingArea) : Call → Prop
  | .close cnum => s.DropAllRule cnum
  | .ioctl cnum cm => s.Serves cnum → s.IoctlRule cnum cm
  | _ => True

/-! ### The run -/

theorem enableInv_effect {s s' : WorkingArea} {c : Call} (h : ∀ j, EnableInv (s.moduleContexts j))
    (hrule : s.EnableRule c)
    (hserved : ∀ cnum cm, cm.Guarded → c = .ioctl cnum cm → s.Serves cnum)
    (he : Effect s c s') (j : ℕ) : EnableInv (s'.moduleContexts j) := by
  cases he with
  | quiet hptim hsame =>
    exact (h j).of_counters (hsame j).clients (hsame j).hardClients (hsame j).interruptEnable
      fun i _ _ => by rw [(hsame j).trigs]
  | @connectPtim cnum conx midx m' hcnum hclass hmidx hc =>
    have hr : s.ConnectRule cnum conx := hrule (hserved _ _ (by trivial) rfl)
    rw [WorkingArea.ConnectRule, hclass] at hr
    refine forall_setModule h ((h midx).connected (WorkingArea.clientMask_ne_zero hcnum) hc ?_) j
    intro i hi
    have hlt := hr midx i hmidx hi
    exact ⟨hi.1, hlt, getLsbD_sourceMask (lt_trans hlt (by decide))⟩
  | @connectCtim cnum conx i m' hcnum hclass hi hc =>
    have hr : s.ConnectRule cnum conx := hrule (hserved _ _ (by trivial) rfl)
    rw [WorkingArea.ConnectRule, hclass] at hr
    refine forall_setModule h ((h _).connected (WorkingArea.clientMask_ne_zero hcnum) hc ?_) j
    rintro j rfl
    have hzero : ((s.target cnum conx).trigs j).counter.toNat = 0 := by rw [hr.1 j hi]; rfl
    refine ⟨(ctimSlot_some hi).1, hzero ▸ by decide, fun c => ?_⟩
    exact hzero ▸ getLsbD_one c
  | @newCtim cnum conx i m' hcnum hclass hnone hi hn =>
    have hr : s.ConnectRule cnum conx := hrule (hserved _ _ (by trivial) rfl)
    rw [WorkingArea.ConnectRule, hclass] at hr
    exact forall_setModule h ((h _).instanced (WorkingArea.clientMask_ne_zero hcnum)
      (emptySlot_some hi).1 hn (hr.2 hnone i hi)) j
  | connectHard hcnum hclass hw =>
    exact forall_setModule h ((h _).wired (WorkingArea.clientMask_ne_zero hcnum) hw) j
  | @disconnect cnum conx m' hcnum hnum hd =>
    have hr : s.IoctlRule cnum (.disconnect conx) := hrule (hserved _ _ (by trivial) rfl)
    rw [WorkingArea.IoctlRule, if_neg hnum] at hr
    exact forall_setModule h ((h _).dropped hd (fun i hi => hi.1) (fun i hi => hi.2) hr) j
  | @disconnectAll c cnum s' hcnum hcall hptim hin hout =>
    have hr : s.DropAllRule cnum := by
      rcases hcall with rfl | ⟨conx, rfl, hnum⟩
      · exact hrule
      · have hr : s.IoctlRule cnum (.disconnect conx) := hrule (hserved _ _ (by trivial) rfl)
        rwa [WorkingArea.IoctlRule, if_pos hnum] at hr
    by_cases hj : j < s.modules
    · exact (h j).dropped (hin j hj) (fun i hi => hi.1) (fun i hi => hi) (hr j hj)
    · rw [hout j (not_lt.mp hj)]
      exact h j
  | @setAction cnum act i m' hcnum hi hlt hclass howned ha =>
    have hr : s.IoctlRule cnum (.setAction act) := hrule (hserved _ _ (by trivial) rfl)
    have hi' : act.triggerNumber.toNat - 1 = i := by omega
    simp only [WorkingArea.IoctlRule, hi'] at hr
    refine forall_setModule h ((h _).of_counters ha.clients ha.hardClients ha.interruptEnable ?_) j
    intro k _ hcl
    rw [ha.trigs]
    by_cases hk : k = i
    · subst hk
      rw [update_self]
      by_cases hempty : (s.moduleContexts (s.clientModule cnum)).eqpNum k = 0
      · exact ((hr hempty hclass).resolve_left hcl).symm
      · exact (howned hempty).2.2.symm
    · rw [update_of_ne hk]
  | @createPtim cnum ptim start m' hnew hmod hsearch ht =>
    have hr : s.IoctlRule cnum (.createPtim ptim) := hrule (hserved _ _ (by trivial) rfl)
    refine forall_setModule h ((h ptim.moduleIndex.toNat).of_counters ?_ ?_ ?_ ?_) j
    · rw [ht.rest]
    · rw [ht.rest]
    · rw [ht.rest]
    · intro i _ hcl
      by_cases hi : start ≤ i ∧ i < start + ptim.size.toNat
      · rw [(ht.hits i hi).2.2]
        exact ((hr start i hsearch hi.1 hi.2).resolve_left hcl).symm
      · rw [(ht.misses i hi).2.2]
  | @destroyPtim cnum ptim m' hidle hfound hf =>
    refine forall_setModule h ((h _).of_counters hf.clients hf.hardClients hf.interruptEnable ?_) j
    intro i _ hcl
    rw [(hf.misses i fun hi => hcl (hidle i hi)).2.2.1]

theorem enableInv_step {s s' : WorkingArea} {c : Call} (h : ∀ j, EnableInv (s.moduleContexts j))
    (hrule : s.EnableRule c) (hs : s.step c = some s') (j : ℕ) :
    EnableInv (s'.moduleContexts j) := by
  by_cases hserved : ∀ cnum cm, cm.Guarded → c = .ioctl cnum cm → s.Serves cnum
  · exact enableInv_effect h hrule hserved (effect_of_step hs) j
  · push Not at hserved
    obtain ⟨cnum, cm, hcm, rfl, hnot⟩ := hserved
    rw [step_unserved hcm hnot hs]
    exact h j

theorem EnableInv.installed {m : ModuleContext} (h : m.Installed) : EnableInv m := by
  refine ⟨fun c _ => ?_, fun i _ hcl => absurd (h.clients i) hcl⟩
  rw [h.interruptEnable]
  unfold Used
  simp [h.hardClients, h.clients]

/-- **A source is enabled exactly if it is used**, on every module, in every state of every run
whose calls keep to the rule. -/
theorem enabled_of_reachUnder {s : WorkingArea} (h : ctrDriver.ReachUnder WorkingArea.EnableRule s)
    (midx : ℕ) : Enabled (s.moduleContexts midx) := by
  have hinv : ∀ j, EnableInv (s.moduleContexts j) := by
    refine h.invariant (P := fun s => ∀ j, EnableInv (s.moduleContexts j)) ?_ ?_
    · exact fun s hs j => EnableInv.installed (hs.moduleContexts j)
    · exact fun s c s' hs hrule hstep => enableInv_step hs hrule hstep
  exact (hinv midx).enabled

/-- Clients connect to sources and hang up, and no trigger has a client when one does. -/
def WorkingArea.WiresOnly (s : WorkingArea) : Call → Prop
  | .open _ => True
  | .close _ => ∀ j < s.modules, ∀ i < ramTableSize, (s.moduleContexts j).clients i = 0
  | .ioctl _ (.connect conx) => conx.eqpClass = .hard
  | _ => False

instance (s : WorkingArea) : DecidablePred s.WiresOnly
  | .open _ => isTrue trivial
  | .close _ => Nat.decidableBallLT _ _
  | .ioctl _ (.connect conx) => instDecidableEqConnectionClass conx.eqpClass .hard
  | .ioctl _ (.setModule _) | .ioctl _ .lock | .ioctl _ (.unlock _) | .ioctl _ (.disconnect _)
  | .ioctl _ (.setAction _) | .ioctl _ (.createCtim _) | .ioctl _ (.destroyCtim _)
  | .ioctl _ (.createPtim _) | .ioctl _ (.destroyPtim _) | .memory _ _ => isFalse id

theorem WorkingArea.WiresOnly.enableRule {s : WorkingArea} {c : Call} (h : s.WiresOnly c) :
    s.EnableRule c := by
  unfold WorkingArea.WiresOnly at h
  split at h
  · trivial
  · exact fun j hj => .of_no_clients (h j hj) (fun i hi => hi.1) fun i hi => hi
  · intro _
    simp only [WorkingArea.IoctlRule, WorkingArea.ConnectRule, h]
  · exact h.elim

/-- Client 0 connects to counter 1. -/
def wiredClient : WorkingArea :=
  System.runUnder WorkingArea.step WorkingArea.WiresOnly oneModule
    [.open 0, .ioctl 0 (.connect ⟨1, .hard, 2⟩)]

/-- And hangs up. -/
def hungUp : WorkingArea :=
  System.runUnder WorkingArea.step WorkingArea.WiresOnly wiredClient [.close 0]

theorem enabled_of_reachUnder_hungUp :
    (wiredClient.moduleContexts 0).hardClients 1 = 1
      ∧ (wiredClient.moduleContexts 0).interruptEnable.getLsbD 1 = true
      ∧ (hungUp.moduleContexts 0).hardClients 1 = 0
      ∧ Enabled (hungUp.moduleContexts 0) := by
  have hstart : ctrDriver.ReachUnder WorkingArea.WiresOnly oneModule :=
    System.ReachUnder.init oneModule_installed
  have hwired : ctrDriver.ReachUnder WorkingArea.WiresOnly wiredClient := hstart.runUnder _
  have hreach : ctrDriver.ReachUnder WorkingArea.WiresOnly hungUp := hwired.runUnder _
  refine ⟨by decide +kernel, by decide +kernel, by decide +kernel, ?_⟩
  exact enabled_of_reachUnder (hreach.mono fun _ _ => WorkingArea.WiresOnly.enableRule) 0

/-- Client 0 connects to counter 1, creates PTIM 7 on it, connects to it and disconnects. -/
def forgottenSource : WorkingArea :=
  System.runUnder WorkingArea.step (fun _ _ => True) oneModule
    [.open 0, .ioctl 0 (.connect ⟨1, .hard, 2⟩), .ioctl 0 (.createPtim ⟨7, 0, 1, 1, 0⟩),
      .ioctl 0 (.connect ⟨1, .ptim, 7⟩), .ioctl 0 (.disconnect ⟨1, .ptim, 7⟩)]

theorem not_enabled_of_forgottenSource :
    ¬ ∀ s, ctrDriver.Reach s → ∀ midx, Enabled (s.moduleContexts midx) := by
  intro h
  have hstart : ctrDriver.Reach oneModule := System.Reach.init oneModule_installed
  have hreach : ctrDriver.Reach forgottenSource := System.ReachUnder.runUnder hstart _
  have hused : Used (forgottenSource.moduleContexts 0) 1 := by
    left
    decide +kernel
  have hset := (h _ hreach 0 1 (by decide)).mpr hused
  have hclear : (forgottenSource.moduleContexts 0).interruptEnable.getLsbD 1 = false := by
    decide +kernel
  rw [hclear] at hset
  cases hset

end KernelModules.Ctr
