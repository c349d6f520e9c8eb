import KernelModules.Ctr.Library

/-!
# Clients and cards

A call that connects a client writes to the card, or it connects nothing.  So a client is connected
only to modules that have a card, and a `DISCONNECT` always comes back.

* `WorkingArea.Sound` is the invariant, `sound_of_reach` holds it over every run;
* `disConnect_returns` says that `DISCONNECT` comes back.
-/

namespace KernelModules.Ctr

open Function KernelModules.Lib

/-- The module has a card, or nobody is connected to it. -/
def Carded (m : ModuleContext) : Prop :=
  m.map = true ∨ (∀ i, m.clients i = 0) ∧ ∀ c, m.hardClients c = 0

/-- What the driver sees to: an open client context has its own index, every client works with one
of the 16 modules, and is connected only where there is a card. -/
structure WorkingArea.Sound (s : WorkingArea) : Prop where
  few : s.modules ≤ 16
  indexed : ∀ k, (s.clientContexts k).inUse = true → (s.clientContexts k).clientIndex = k
  modules : ∀ k, (s.clientContexts k).moduleIndex < 16
  carded : ∀ midx, Carded (s.moduleContexts midx)

theorem WorkingArea.Sound.clientBit {s : WorkingArea} (hs : s.Sound) {k : Fin 16}
    (hk : (s.clientContexts k).inUse = true) : (s.clientContexts k).mask = 1#32 <<< k.val := by
  rw [ClientContext.mask, hs.indexed k hk]

/-! ### Disconnecting comes back -/

section Returns

variable {m : ModuleContext} (cmsk : U32)

theorem disableInterrupts_returns (hmap : m.map = true) (i : ℕ) (clss : ConnectionClass) :
    ∃ m', disableInterrupts m i clss cmsk = some m' ∧ m'.map = true := by
  unfold disableInterrupts
  dsimp only
  split
  · exact ⟨m, rfl, hmap⟩
  · exact ⟨_, rfl, hmap⟩

theorem disConnectTrigger_returns (hm : Carded m) (i : ℕ) (clss : ConnectionClass) :
    ∃ m', disConnectTrigger m i clss cmsk = some m' ∧ Carded m' := by
  unfold disConnectTrigger
  split
  · rename_i hmine
    obtain hmap | ⟨hclients, -⟩ := hm
    · dsimp only
      split
      · obtain ⟨t, ht, htmap⟩ := disableInterrupts_returns cmsk
          (m := { m with clients := update m.clients i (m.clients i &&& ~~~cmsk) }) hmap i clss
        rw [ht, Option.bind_some, if_pos htmap]
        split
        · exact ⟨_, rfl, .inl htmap⟩
        · exact ⟨_, rfl, .inl htmap⟩
      · exact ⟨_, rfl, .inl hmap⟩
    · rw [hclients i] at hmine
      exact absurd BitVec.and_zero hmine
  · exact ⟨m, rfl, hm⟩

theorem disConnectHard_returns (hm : Carded m) {i : ℕ} (hi : i < interruptSources) :
    ∃ m', disConnectHard m i cmsk = some m' ∧ Carded m' := by
  unfold disConnectHard
  rw [if_pos hi]
  split
  · rename_i hmine
    obtain hmap | ⟨-, hhard⟩ := hm
    · dsimp only
      split
      · obtain ⟨t, ht, htmap⟩ := disableInterrupts_returns cmsk
          (m := { m with hardClients := update m.hardClients i (m.hardClients i &&& ~~~cmsk) })
          hmap i .hard
        exact ⟨t, ht, .inl htmap⟩
      · exact ⟨_, rfl, .inl hmap⟩
    · exact absurd (hhard i) hmine
  · exact ⟨m, rfl, hm⟩

theorem disConnect_returns {s : WorkingArea} (hs : s.Sound) {conx : Connection}
    (hmodule : 1 ≤ conx.module.toNat ∧ conx.module.toNat ≤ 16) (ccon : ClientContext) :
    ∃ o, disConnect s conx ccon = some o := by
  have hsweep : ∃ m', (if conx.eqpClass ≠ .hard then
      disConnectTriggers (s.moduleContexts (conx.module.toNat - 1)) conx ccon.mask
      else disConnectSources (s.moduleContexts (conx.module.toNat - 1)) ccon.mask) = some m' := by
    split
    · refine loop_returns (P := fun _ t => Carded t) (hs.carded _) fun i _ t ht => ?_
      split
      · cases hclass : conx.eqpClass with
        | ctim => exact disConnectTrigger_returns ccon.mask ht i .ctim
        | ptim => exact disConnectTrigger_returns ccon.mask ht i .ptim
        | hard => exact absurd hclass ‹_›
        | other v => exact ⟨t, rfl, ht⟩
      · exact ⟨t, rfl, ht⟩
    · exact loop_returns (P := fun _ t => Carded t) (hs.carded _) fun i hi t ht =>
        disConnectHard_returns ccon.mask ht hi
  obtain ⟨m', hm'⟩ := hsweep
  rw [disConnect, if_pos hmodule]
  dsimp only
  rw [hm']
  exact ⟨_, rfl⟩

end Returns

/-! ### Calls keep clients on cards -/

section Keeps

variable {s s' : WorkingArea} {m m' : ModuleContext}

theorem Carded.of_same (hm : Carded m) (hmap : m'.map = m.map) (hclients : m'.clients = m.clients)
    (hhard : m'.hardClients = m.hardClients) : Carded m' := by
  rw [Carded, hmap, hclients, hhard]
  exact hm

theorem connectSlot_carded {i : ℕ} {cmsk hmsk : U32} (h : connectSlot m i cmsk hmsk = some m') :
    Carded m' := by
  unfold connectSlot at h
  split at h
  · rename_i hmap
    cases h
    exact .inl hmap
  · cases h

theorem connectPtim_carded {num cmsk : U32} {p : ℕ × ModuleContext} (hm : Carded m)
    (h : connectPtim m num cmsk = some p) : Carded p.2 := by
  refine loop_invariant (P := fun _ (t : ℕ × ModuleContext) => Carded t.2) h hm ?_
  rintro i - ⟨n, t⟩ t' ht hround
  dsimp only at hround
  split at hround
  · obtain ⟨t₁, ht₁, rfl⟩ := Option.map_eq_some_iff.mp hround
    exact connectSlot_carded ht₁
  · cases hround
    exact ht

theorem connectHard_counts {num cmsk : U32} {p : ℕ × ModuleContext}
    (h : connectHard m num cmsk = some p) : p.2.map = m.map ∧ (p.1 = 0 → p.2 = m) := by
  refine loop_invariant (P := fun _ (t : ℕ × ModuleContext) =>
    t.2.map = m.map ∧ (t.1 = 0 → t.2 = m)) h ⟨rfl, fun _ => rfl⟩ ?_
  rintro i - ⟨n, t⟩ t' ⟨hmap, hsame⟩ hround
  dsimp only at hround
  split at hround
  · cases hround
    exact ⟨hmap, fun hzero => absurd hzero (Nat.succ_ne_zero n)⟩
  · cases hround
    exact ⟨hmap, hsame⟩

theorem finishConnect_card {midx count : ℕ} {r : Except Errno Unit}
    (h : finishConnect s midx count m = some (r, s')) : count = 0 ∨ m.map = true := by
  unfold finishConnect at h
  split at h
  · unfold enableInterrupts at h
    split at h
    · exact .inr ‹_›
    · cases h
  · exact .inl (not_not.mp ‹_›)

theorem WorkingArea.Sound.setModule (hs : s.Sound) {midx : ℕ} (hm : Carded m) :
    (s.setModule midx m).Sound where
  few := hs.few
  indexed := hs.indexed
  modules := hs.modules
  carded := forall_setModule hs.carded hm

theorem WorkingArea.Sound.finishConnect (hs : s.Sound) (hm : Carded m) {midx count : ℕ}
    {r : Except Errno Unit} (h : finishConnect s midx count m = some (r, s')) : s'.Sound := by
  obtain ⟨hw, rfl⟩ := finishConnect_spec h
  exact hs.setModule (hm.of_same rfl rfl rfl)

theorem WorkingArea.Sound.of_fail (hs : s.Sound) {e : Errno} {r : Except Errno Unit}
    (h : s.fail e = some (r, s')) : s'.Sound := by
  cases h
  exact hs

theorem connectCtim_sound (hs : s.Sound) {midx : ℕ} {num cmsk : U32} {r : Except Errno Unit}
    (h : connectCtim s midx num cmsk = some (r, s')) : s'.Sound := by
  unfold connectCtim at h
  dsimp only at h
  split at h
  · obtain ⟨m, hm, hfinish⟩ := Option.bind_eq_some_iff.mp h
    exact hs.finishConnect (connectSlot_carded hm) hfinish
  · split at h
    · exact hs.of_fail h
    · split at h
      · split at h
        · exact hs.of_fail h
        · obtain ⟨m, hm, hfinish⟩ := Option.bind_eq_some_iff.mp h
          refine hs.finishConnect ?_ hfinish
          unfold newCtimInstance at hm
          split at hm
          · rename_i hmap
            cases hm
            exact .inl hmap
          · cases hm
      · exact hs.of_fail h

theorem connect_sound (hs : s.Sound) {conx : Connection} {ccon : ClientContext}
    {r : Except Errno Unit} (h : connect s conx ccon = some (r, s')) : s'.Sound := by
  unfold connect at h
  dsimp only at h
  split at h
  · split at h
    · exact hs.of_fail h
    · obtain ⟨p, hp, hfinish⟩ := Option.bind_eq_some_iff.mp h
      exact hs.finishConnect (connectPtim_carded (hs.carded _) hp) hfinish
  · exact connectCtim_sound hs h
  · obtain ⟨p, hp, hfinish⟩ := Option.bind_eq_some_iff.mp h
    obtain ⟨hmap, hsame⟩ := connectHard_counts hp
    refine hs.finishConnect ?_ hfinish
    obtain hcount | hcard := finishConnect_card hfinish
    · rw [hsame hcount]
      exact hs.carded _
    · exact .inl hcard

theorem disConnectOne_carded (hm : Carded m) {i : ℕ} {clss : ConnectionClass} {cmsk : U32}
    (h : disConnectOne m i clss cmsk = some m') : Carded m' := by
  cases clss with
  | ctim =>
    obtain ⟨t, ht, hcarded⟩ := disConnectTrigger_returns cmsk hm i .ctim
    cases h.symm.trans ht
    exact hcarded
  | ptim =>
    obtain ⟨t, ht, hcarded⟩ := disConnectTrigger_returns cmsk hm i .ptim
    cases h.symm.trans ht
    exact hcarded
  | hard =>
    by_cases hi : i < interruptSources
    · obtain ⟨t, ht, hcarded⟩ := disConnectHard_returns cmsk hm hi
      cases h.symm.trans ht
      exact hcarded
    · simp only [disConnectOne, disConnectHard, if_neg hi] at h
      split at h
      · cases h
        exact hm
      · cases h
  | other v =>
    cases h
    exact hm

theorem disConnectOwned_carded (hm : Carded m) {cmsk : U32}
    (h : disConnectOwned m cmsk = some m') : Carded m' := by
  refine loop_invariant (P := fun _ t => Carded t) h hm fun i _ t t' ht hround => ?_
  split at hround
  · exact disConnectOne_carded ht hround
  · cases hround
    exact ht

theorem disConnectSources_carded (hm : Carded m) {cmsk : U32}
    (h : disConnectSources m cmsk = some m') : Carded m' :=
  loop_invariant (P := fun _ t => Carded t) h hm fun _ _ _ _ ht hround =>
    disConnectOne_carded ht hround

theorem disConnect_sound (hs : s.Sound) {conx : Connection} {ccon : ClientContext}
    {r : Except Errno Unit} (h : disConnect s conx ccon = some (r, s')) : s'.Sound := by
  unfold disConnect at h
  split at h
  · obtain ⟨m, hm, hok⟩ := Option.bind_eq_some_iff.mp h
    cases hok
    refine hs.setModule ?_
    split at hm
    · refine loop_invariant (P := fun _ t => Carded t) hm (hs.carded _)
        fun i _ t t' ht hround => ?_
      split at hround
      · exact disConnectOne_carded ht hround
      · cases hround
        exact ht
    · exact disConnectSources_carded (hs.carded _) hm
  · cases h

theorem disConnectAll_sound (hs : s.Sound) {ccon : ClientContext} {r : Except Errno Unit}
    (h : disConnectAll s ccon = some (r, s')) : s'.Sound := by
  obtain ⟨t, ht, hok⟩ := Option.bind_eq_some_iff.mp h
  cases hok
  refine loop_invariant (P := fun _ (t : WorkingArea) => t.Sound) ht hs
    fun midx _ t t' hsound hround => ?_
  obtain ⟨m₁, h₁, hround⟩ := Option.bind_eq_some_iff.mp hround
  obtain ⟨m₂, h₂, rfl⟩ := Option.map_eq_some_iff.mp hround
  exact hsound.setModule
    (disConnectSources_carded (disConnectOwned_carded (hsound.carded midx) h₁) h₂)

theorem setAction_sound (hs : s.Sound) {midx : ℕ} {act : Action} {r : Except Errno Unit}
    (h : setAction s midx act = some (r, s')) : s'.Sound := by
  cases r with
  | error e =>
    rw [setAction_error h]
    exact hs
  | ok u =>
    obtain ⟨-, m', rfl, hw⟩ := setAction_ok h
    exact hs.setModule (.inl hw.map)

theorem createPtim_sound (hs : s.Sound) {ptim : PtimBinding} {r : Except Errno Unit}
    (h : createPtim s ptim = some (r, s')) : s'.Sound := by
  unfold createPtim at h
  dsimp only at h
  split at h
  · exact hs.of_fail h
  · split at h
    · exact hs.of_fail h
    · split at h
      · split at h
        · exact hs.of_fail h
        · obtain ⟨m, hm, hok⟩ := Option.bind_eq_some_iff.mp h
          cases hok
          have hrest := (takeSlots_taken hm).rest
          have hcarded : Carded m :=
            (hs.carded ptim.moduleIndex.toNat).of_same (by rw [hrest]) (by rw [hrest])
              (by rw [hrest])
          exact ⟨hs.few, hs.indexed, hs.modules, (hs.setModule hcarded).carded⟩
      · exact hs.of_fail h

theorem destroyPtim_sound (hs : s.Sound) {ptim : PtimBinding} {r : Except Errno Unit}
    (h : destroyPtim s ptim = some (r, s')) : s'.Sound := by
  unfold destroyPtim at h
  dsimp only at h
  split at h
  · split at h
    · exact hs.of_fail h
    · split at h
      · obtain ⟨m, hm, hok⟩ := Option.bind_eq_some_iff.mp h
        cases hok
        have hcarded : Carded m := by
          refine loop_invariant (P := fun _ t => Carded t) hm (hs.carded _)
            fun i _ t t' ht hround => ?_
          split at hround
          · unfold freeSlot at hround
            split at hround
            · rename_i hmap
              cases hround
              exact .inl hmap
            · cases hround
          · cases hround
            exact ht
        exact ⟨hs.few, hs.indexed, hs.modules, (hs.setModule hcarded).carded⟩
      · exact hs.of_fail h
  · exact hs.of_fail h

theorem guardedIoctl_sound (hs : s.Sound) {ccon : ClientContext} {cm : Ioctl}
    {r : Except Errno Unit} (h : guardedIoctl s ccon cm = some (r, s')) : s'.Sound := by
  cases cm with
  | setModule lav => exact hs.of_fail h
  | lock => exact hs.of_fail h
  | unlock pw => exact hs.of_fail h
  | connect conx => exact connect_sound hs h
  | disconnect conx =>
    simp only [guardedIoctl] at h
    split at h
    · exact disConnect_sound hs h
    · exact disConnectAll_sound hs h
  | setAction act => exact setAction_sound hs h
  | createCtim ctim =>
    simp only [guardedIoctl, createCtim] at h
    split at h
    · exact hs.of_fail h
    · split at h
      · cases h
        exact ⟨hs.few, hs.indexed, hs.modules, hs.carded⟩
      · exact hs.of_fail h
  | destroyCtim ctim =>
    simp only [guardedIoctl, destroyCtim] at h
    split at h
    · split at h
      · exact hs.of_fail h
      · cases h
        exact ⟨hs.few, hs.indexed, hs.modules, hs.carded⟩
    · exact hs.of_fail h
  | createPtim ptim => exact createPtim_sound hs h
  | destroyPtim ptim => exact destroyPtim_sound hs h

theorem WorkingArea.Sound.withClient (hs : s.Sound) {k : Fin 16} {ccon : ClientContext}
    (hindex : ccon.inUse = true → ccon.clientIndex = k) (hmodule : ccon.moduleIndex < 16) :
    WorkingArea.Sound { s with clientContexts := update s.clientContexts k ccon } where
  few := hs.few
  indexed j hj := by
    dsimp only at hj ⊢
    by_cases hjk : j = k
    · subst hjk
      rw [update_self] at hj ⊢
      exact hindex hj
    · rw [update_of_ne hjk] at hj ⊢
      exact hs.indexed j hj
  modules j := by
    dsimp only
    by_cases hjk : j = k
    · subst hjk
      rwa [update_self]
    · rw [update_of_ne hjk]
      exact hs.modules j
  carded := hs.carded

theorem decodeIoctl_sound (hs : s.Sound) {k : Fin 16} {cm : Ioctl} {r : Except Errno Unit}
    (h : decodeIoctl s k cm = some (r, s')) : s'.Sound := by
  unfold decodeIoctl at h
  dsimp only at h
  split at h
  · rename_i lav
    split at h
    · cases h
      have hfew := hs.few
      exact hs.withClient (fun hin => hs.indexed k hin) (by dsimp only; omega)
    · exact hs.of_fail h
  · cases h
    exact hs.setModule ((hs.carded _).of_same rfl rfl rfl)
  · cases h
    refine hs.setModule ?_
    unfold clrUplock
    split
    · exact (hs.carded _).of_same rfl rfl rfl
    · exact hs.carded _
  · split at h
    · exact hs.of_fail h
    · exact guardedIoctl_sound hs h

theorem sound_of_reach (h : ctrDriver.Reach s) : s.Sound := by
  refine h.invariant ?_ ?_
  · intro t hinit
    refine ⟨hinit.modules, fun k hk => ?_, fun k => ?_, fun midx => .inr ?_⟩
    · rw [hinit.clientContexts] at hk
      cases hk
    · rw [hinit.clientContexts]
      exact Nat.zero_lt_succ 15
    · exact ⟨(hinit.moduleContexts midx).clients, (hinit.moduleContexts midx).hardClients⟩
  · intro t c t' ht hstep
    obtain ⟨⟨r, w⟩, hrun, rfl⟩ := Option.map_eq_some_iff.mp hstep
    cases c with
    | «open» cnum =>
      simp only [Call.run, ctrDrvrOpen] at hrun
      split at hrun
      · split at hrun
        · exact ht.of_fail hrun
        · cases hrun
          exact ht.withClient (fun _ => rfl) (Nat.zero_lt_succ 15)
      · exact ht.of_fail hrun
    | close cnum =>
      simp only [Call.run, ctrDrvrClose] at hrun
      split at hrun
      · rename_i hcnum
        refine disConnectAll_sound (ht.withClient (k := ⟨cnum, hcnum⟩) (fun hin => ?_) ?_) hrun
        · cases hin
        · exact ht.modules ⟨cnum, hcnum⟩
      · exact ht.of_fail hrun
    | ioctl cnum cm =>
      simp only [Call.run, ctrDrvrIoctl] at hrun
      split at hrun
      · split at hrun
        · exact ht.of_fail hrun
        · split at hrun
          · exact ht.of_fail hrun
          · exact decodeIoctl_sound ht hrun
      · exact ht.of_fail hrun
    | memory midx beyond =>
      cases hrun
      exact ht.setModule ((ht.carded midx).of_same rfl rfl rfl)

end Keeps

end KernelModules.Ctr
