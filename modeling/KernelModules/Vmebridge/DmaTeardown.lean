import KernelModules.Vmebridge.DmaChannel

/-!
# The end of the DMA service

`vme_dma_exit` sets the disable flag, aborts the transfers and goes through the semaphore once for
each channel before the pool of descriptors is destroyed.

* `Teardown` are the clients of the channels with one more thread, which runs `vme_dma_exit`, and
  `Teardown.step` is any interleaving; the clients and the semaphore are those of `DmaChannel`
  (`Teardown.clients_reach`);
* `inside_of_run` says that no transfer begins once the flag is set, and `TornDown` that nobody holds
  a channel once `tsi148_dma_exit` is reached.

Each count is given back before the next one is taken, so two rounds through the semaphore find one
count free twice, and one client may still be inside.  `tornDown_of_reach` says when it is not.
-/

namespace KernelModules.Vmebridge

open Function KernelModules.Lib

/-- Where `vme_dma_exit` stands. -/
inductive ExitPc
  | notCalled
  /-- the flag is set -/
  | aborting
  /-- in the loop over the channels, at `down` -/
  | atDown (i : ℕ)
  /-- in the loop, at `up` -/
  | atUp (i : ℕ)
  /-- at `tsi148_dma_exit` or behind it -/
  | atExit
  deriving DecidableEq, Repr

/-- The clients, with the thread of `vme_dma_exit` as the last one. -/
structure Teardown (n : ℕ) where
  w : Clients (n + 1)
  exit : ExitPc

/-- A step of a client or the next one of `vme_dma_exit`. -/
inductive TeardownStep (n : ℕ)
  | client (i : Fin n) (a : ClientAct)
  | exit

variable {n : ℕ}

/-- The next round of the loop. -/
def nextRound (i : ℕ) : ExitPc := if i + 1 < 2 then ExitPc.atDown (i + 1) else ExitPc.atExit

/-- The steps of `vme_dma_exit`.  An abort ends the transfer of a channel, which may end anyway. -/
def vmeDmaExit (s : Teardown n) : Option (Teardown n) :=
  match s.exit with
  | .notCalled => some ⟨{ s.w with disable := true }, ExitPc.aborting⟩
  | .aborting => some ⟨s.w, ExitPc.atDown 0⟩
  | .atDown i =>
    (s.w.step (.client (Fin.last n) .drain)).map (fun w => ⟨w, ExitPc.atUp i⟩)
  | .atUp i =>
    (s.w.step (.client (Fin.last n) .up)).map (fun w => ⟨w, nextRound i⟩)
  | .atExit => none

def Teardown.step (s : Teardown n) : TeardownStep n → Option (Teardown n)
  | .client i a =>
    if a = ClientAct.drain then none
    else (s.w.step (.client i.castSucc a)).map (fun w => { s with w := w })
  | .exit => vmeDmaExit s

/-- After `vme_dma_init`. -/
def Teardown.Fresh (s : Teardown n) : Prop :=
  s.w.Fresh ∧ s.w.disable = false ∧ s.exit = ExitPc.notCalled

/-- All interleavings of `n` clients with `vme_dma_exit`. -/
def teardown (n : ℕ) : System (Teardown n) (TeardownStep n) :=
  System.ofFun Teardown.Fresh Teardown.step

/-- **What should hold**: once the pool is destroyed, nobody holds a channel. -/
def TornDown (s : Teardown n) : Prop :=
  s.exit = ExitPc.atExit → ∀ i ch, (s.w.pc i).holds ch = false

/-- The client is through both looks at the flag and has not given its channel back. -/
def ClientPc.inside : ClientPc → Bool
  | .locking | .holding _ | .finished _ => true
  | _ => false

/-- The condition on the last `up` of `vme_dma_exit`: no client is inside. -/
def MeetsExit (s : Teardown n) : TeardownStep n → Prop
  | .client _ _ => True
  | .exit => ∀ i, s.exit = ExitPc.atUp i → nextRound i = ExitPc.atExit →
    ∀ j, (s.w.pc j).inside = false

/-! ### The clients are those of the channels -/

theorem vmeDmaExit_cases {s s' : Teardown n} (h : vmeDmaExit s = some s') :
    (s.exit = .notCalled ∧ s'.w = { s.w with disable := true } ∧ s'.exit = .aborting) ∨
    (s.exit = .aborting ∧ s'.w = s.w ∧ s'.exit = .atDown 0) ∨
    (∃ i, s.exit = .atDown i ∧ s'.exit = .atUp i ∧
      s.w.step (.client (Fin.last n) .drain) = some s'.w) ∨
    (∃ i, s.exit = .atUp i ∧ s'.exit = nextRound i ∧
      s.w.step (.client (Fin.last n) .up) = some s'.w) := by
  unfold vmeDmaExit at h
  split at h
  · rename_i hpc
    cases h
    exact Or.inl ⟨hpc, rfl, rfl⟩
  · rename_i hpc
    cases h
    exact Or.inr (Or.inl ⟨hpc, rfl, rfl⟩)
  · rename_i i hpc
    obtain ⟨w, hw, rfl⟩ := Option.map_eq_some_iff.mp h
    exact Or.inr (Or.inr (Or.inl ⟨i, hpc, rfl, hw⟩))
  · rename_i i hpc
    obtain ⟨w, hw, rfl⟩ := Option.map_eq_some_iff.mp h
    exact Or.inr (Or.inr (Or.inr ⟨i, hpc, rfl, hw⟩))
  · cases h

theorem Teardown.step_client {s s' : Teardown n} {i : Fin n} {a : ClientAct}
    (h : s.step (.client i a) = some s') :
    a ≠ .drain ∧ s.w.step (.client i.castSucc a) = some s'.w ∧ s'.exit = s.exit := by
  rw [Teardown.step] at h
  split at h
  · cases h
  · rename_i ha
    obtain ⟨w, hw, rfl⟩ := Option.map_eq_some_iff.mp h
    exact ⟨ha, hw, rfl⟩

theorem Teardown.clients_reach {s : Teardown n} (h : (teardown n).Reach s) :
    (dmaClients (n + 1)).Reach s.w := by
  refine h.invariant (P := fun s => (dmaClients (n + 1)).Reach s.w) ?_ ?_
  · intro s hs
    exact System.Reach.init hs.1
  intro s a s' hs hstep
  cases a with
  | client i a => exact hs.step (Teardown.step_client hstep).2.1
  | exit =>
    obtain ⟨-, hw, -⟩ | ⟨-, hw, -⟩ | ⟨i, -, -, hw⟩ | ⟨i, -, -, hw⟩ := vmeDmaExit_cases hstep
    · exact hs.step (a := .setDisable true) (congrArg some hw.symm)
    · rwa [hw]
    · exact hs.step hw
    · exact hs.step hw

/-! ### Inside -/

theorem ClientPc.inside_of_holds {x : ClientPc} {ch : ChannelIdx} (h : x.holds ch = true) :
    x.inside = true := by
  cases x <;> first | rfl | cases h

theorem ClientPc.between_of_inside {x : ClientPc} (h : x.inside = true) : x.between = true := by
  cases x <;> first | rfl | cases h

theorem inside_of_step {m : ℕ} {w w' : Clients m} {i : Fin m} {a : ClientAct}
    (h : w.step (.client i a) = some w') : w'.disable = w.disable ∧
      (w.disable = true → ∀ j, (w'.pc j).inside = true → (w.pc j).inside = true) := by
  -- only the client itself moves
  have hmove : ∀ (v : Clients m) (y : ClientPc), v.pc = w.pc →
      (w.disable = true → y.inside = true → (w.pc i).inside = true) → w.disable = true →
      ∀ j, ((v.move i y).pc j).inside = true → (w.pc j).inside = true := by
    intro v y hv hy hd j hj
    by_cases hji : j = i
    · rw [hji] at hj ⊢
      rw [Clients.move] at hj
      dsimp only at hj
      rw [update_self] at hj
      exact hy hd hj
    · rw [Clients.move] at hj
      dsimp only at hj
      rwa [update_of_ne hji, hv] at hj
  rw [Clients.step] at h
  generalize hpc : w.pc i = x at h hmove
  revert h
  fun_cases advanceClient w i x a <;> intro h <;> cases h
  case case1 valid =>
    split
    · exact ⟨rfl, hmove w _ rfl (fun _ h => by cases h)⟩
    · exact ⟨rfl, fun _ j hj => hj⟩
  case case3 => exact ⟨rfl, hmove _ _ rfl (fun _ h => by cases h)⟩
  case case4 => exact ⟨rfl, hmove _ _ rfl (fun _ h => by cases h)⟩
  case case5 =>
    refine ⟨rfl, hmove _ _ rfl ?_⟩
    intro hd h
    rw [if_pos hd] at h
    cases h
  case case6 => exact ⟨rfl, hmove _ _ rfl (fun _ h => by cases h)⟩
  case case7 => exact ⟨rfl, hmove _ _ rfl (fun _ h => by cases h)⟩
  case case8 ch hch => exact ⟨rfl, hmove _ _ rfl (fun _ _ => rfl)⟩
  case case9 ch => exact ⟨rfl, hmove _ _ rfl (fun _ _ => rfl)⟩
  case case10 ch => exact ⟨rfl, hmove _ _ rfl (fun _ h => by cases h)⟩
  case case11 => exact ⟨rfl, hmove _ _ rfl (fun _ h => by cases h)⟩
  case case13 => exact ⟨rfl, hmove _ _ rfl (fun _ h => by cases h)⟩
  case case14 => exact ⟨rfl, hmove _ _ rfl (fun _ h => by cases h)⟩

theorem disable_of_reach {s : Teardown n} (h : (teardown n).Reach s) :
    s.exit ≠ .notCalled → s.w.disable = true := by
  refine h.invariant (P := fun s => s.exit ≠ .notCalled → s.w.disable = true) ?_ ?_
  · intro s hs hne
    exact absurd hs.2.2 hne
  · intro s a s' hs hstep hne
    cases a with
    | client i a =>
      obtain ⟨-, hw, hexit⟩ := Teardown.step_client hstep
      rw [(inside_of_step hw).1]
      exact hs (hexit ▸ hne)
    | exit =>
      obtain ⟨-, hw, -⟩ | ⟨hexit, hw, -⟩ | ⟨i, hexit, -, hw⟩ | ⟨i, hexit, -, hw⟩ :=
        vmeDmaExit_cases hstep
      · rw [hw]
      · rw [hw]
        exact hs (by rw [hexit]; simp)
      · rw [(inside_of_step hw).1]
        exact hs (by rw [hexit]; simp)
      · rw [(inside_of_step hw).1]
        exact hs (by rw [hexit]; simp)

theorem inside_of_teardownStep {s s' : Teardown n} {a : TeardownStep n}
    (hs : (teardown n).Reach s) (hexit : s.exit ≠ .notCalled) (h : s.step a = some s') (j) :
    (s'.w.pc j).inside = true → (s.w.pc j).inside = true := by
  have hdisable := disable_of_reach hs hexit
  cases a with
  | client i a => exact (inside_of_step (Teardown.step_client h).2.1).2 hdisable j
  | exit =>
    obtain ⟨hnot, -, -⟩ | ⟨-, hw, -⟩ | ⟨i, -, -, hw⟩ | ⟨i, -, -, hw⟩ := vmeDmaExit_cases h
    · exact absurd hnot hexit
    · rw [hw]
      exact id
    · exact (inside_of_step hw).2 hdisable j
    · exact (inside_of_step hw).2 hdisable j

theorem notCalled_of_teardownStep {s s' : Teardown n} {a : TeardownStep n}
    (hexit : s.exit ≠ .notCalled) (h : s.step a = some s') : s'.exit ≠ .notCalled := by
  cases a with
  | client i a => exact (Teardown.step_client h).2.2 ▸ hexit
  | exit =>
    obtain ⟨-, -, hnext⟩ | ⟨-, -, hnext⟩ | ⟨i, -, hnext, -⟩ | ⟨i, -, hnext, -⟩ :=
      vmeDmaExit_cases h
    all_goals rw [hnext]
    case inr.inr.inr =>
      rw [nextRound]
      split <;> simp
    all_goals simp

/-- **No transfer begins any more** once `vme_dma_exit` has set the flag: whatever follows, the
clients inside are among those that were inside then. -/
theorem inside_of_run {s t : Teardown n} (hs : (teardown n).Reach s) (hexit : s.exit ≠ .notCalled)
    {steps : List (TeardownStep n)} (hrun : System.runFun Teardown.step s steps = some t)
    {j : Fin (n + 1)} (hj : (t.w.pc j).inside = true) : (s.w.pc j).inside = true := by
  induction steps generalizing s with
  | nil =>
    cases hrun
    exact hj
  | cons a steps ih =>
    rw [System.runFun, Option.bind_eq_some_iff] at hrun
    obtain ⟨s', hstep, hrest⟩ := hrun
    exact inside_of_teardownStep hs hexit hstep j
      (ih (hs.step hstep) (notCalled_of_teardownStep hexit hstep) hrest)

/-! ### What the rounds find -/

theorem pc_of_step {m : ℕ} {w w' : Clients m} {i j : Fin m} {a : ClientAct}
    (h : w.step (.client i a) = some w') (hj : j ≠ i) : w'.pc j = w.pc j := by
  rw [Clients.step] at h
  generalize w.pc i = x at h
  revert h
  fun_cases advanceClient w i x a <;> intro h <;> cases h
  case case1 valid =>
    split
    · exact update_of_ne hj _ _
    · rfl
  all_goals exact update_of_ne hj _ _

theorem drain_cases {m : ℕ} {w w' : Clients m} {i : Fin m}
    (h : w.step (.client i .drain) = some w') : w.sem ≠ 0 ∧ w'.pc i = .draining := by
  rw [Clients.step] at h
  generalize w.pc i = x at h
  cases x with
  | idle =>
    rw [advanceClient] at h
    split at h
    · cases h
    · rename_i hsem
      cases h
      exact ⟨hsem, update_self _ _ _⟩
  | _ => cases h

theorem up_cases {m : ℕ} {w w' : Clients m} {i : Fin m}
    (h : w.step (.client i .up) = some w') : w'.pc i = .idle := by
  rw [Clients.step] at h
  generalize w.pc i = x at h
  cases x with
  | cleared =>
    cases h
    exact update_self _ _ _
  | draining =>
    cases h
    exact update_self _ _ _
  | _ => cases h

theorem exitThread_of_reach {s : Teardown n} (h : (teardown n).Reach s) :
    s.w.pc (Fin.last n) = .idle ∨ s.w.pc (Fin.last n) = .draining := by
  refine h.invariant (P := fun s => s.w.pc (Fin.last n) = .idle ∨
    s.w.pc (Fin.last n) = .draining) ?_ ?_
  · intro s hs
    exact Or.inl (hs.1.2.2 _)
  · intro s a s' hs hstep
    cases a with
    | client i a =>
      obtain ⟨-, hw, -⟩ := Teardown.step_client hstep
      have hne : Fin.last n ≠ i.castSucc := (Fin.castSucc_lt_last i).ne'
      rw [pc_of_step hw hne]
      exact hs
    | exit =>
      obtain ⟨-, hw, -⟩ | ⟨-, hw, -⟩ | ⟨i, -, -, hw⟩ | ⟨i, -, -, hw⟩ := vmeDmaExit_cases hstep
      · rw [hw]
        exact hs
      · rw [hw]
        exact hs
      · exact Or.inr (drain_cases hw).2
      · exact Or.inl (up_cases hw)

/-- `vme_dma_exit` has been through the semaphore. -/
def ExitPc.looked : ExitPc → Bool
  | .notCalled | .aborting | .atDown 0 => false
  | _ => true

theorem ExitPc.notCalled_of_looked {x : ExitPc} (h : x.looked = true) : x ≠ .notCalled := by
  rintro rfl
  cases h

theorem inside_of_reach {s : Teardown n} (h : (teardown n).Reach s) :
    s.exit.looked = true → occupancy ClientPc.inside s.w.pc ≤ 1 := by
  suffices hboth : (teardown n).Reach s ∧
      (s.exit.looked = true → occupancy ClientPc.inside s.w.pc ≤ 1) from hboth.2
  refine h.invariant (P := fun s => (teardown n).Reach s ∧
    (s.exit.looked = true → occupancy ClientPc.inside s.w.pc ≤ 1)) ?_ ?_
  · intro s hs
    refine ⟨System.Reach.init hs, ?_⟩
    intro hlooked
    rw [hs.2.2] at hlooked
    cases hlooked
  · rintro s a s' ⟨hreach, hs⟩ hstep
    refine ⟨hreach.step hstep, ?_⟩
    intro hlooked
    -- nobody has come inside by this step
    have hkeep : s.exit.looked = true → occupancy ClientPc.inside s'.w.pc ≤ 1 := by
      intro hbefore
      have hcalled := ExitPc.notCalled_of_looked hbefore
      exact (occupancy_mono (inside_of_teardownStep hreach hcalled hstep)).trans (hs hbefore)
    cases a with
    | client i a =>
      exact hkeep ((Teardown.step_client hstep).2.2 ▸ hlooked)
    | exit =>
      obtain ⟨-, -, hexit⟩ | ⟨-, -, hexit⟩ | ⟨i, hexit, -, hw⟩ | ⟨i, hexit, -, -⟩ :=
        vmeDmaExit_cases hstep
      · rw [hexit] at hlooked
        cases hlooked
      · rw [hexit] at hlooked
        cases hlooked
      · have hcount := (ChannelInv.of_reach (Teardown.clients_reach hreach)).count
        have hsem := (drain_cases hw).1
        have hbetween : occupancy ClientPc.inside s.w.pc ≤ occupancy ClientPc.between s.w.pc :=
          occupancy_mono (fun i => ClientPc.between_of_inside)
        have hstay : occupancy ClientPc.inside s'.w.pc ≤ occupancy ClientPc.inside s.w.pc :=
          occupancy_mono (inside_of_teardownStep hreach (by rw [hexit]; simp) hstep)
        omega
      · exact hkeep (by rw [hexit]; rfl)

/-! ### After the last `up` -/

/-- Nobody is inside any more. -/
def Empty (s : Teardown n) : Prop :=
  s.exit = .atExit → ∀ i, (s.w.pc i).inside = false

theorem Empty.tornDown {s : Teardown n} (h : Empty s) : TornDown s := by
  intro hexit i ch
  by_contra hholds
  have hinside := ClientPc.inside_of_holds (Bool.eq_true_of_not_eq_false hholds)
  rw [h hexit i] at hinside
  cases hinside

theorem Empty.step {s s' : Teardown n} {a : TeardownStep n} (h : Empty s)
    (hreach : (teardown n).Reach s) (hmeets : MeetsExit s a) (hstep : s.step a = some s') :
    Empty s' := by
  intro hexit' j
  have hout : s.exit ≠ .notCalled → (s.w.pc j).inside = false → (s'.w.pc j).inside = false := by
    intro hcalled hbefore
    by_contra hin
    have hin' := inside_of_teardownStep hreach hcalled hstep j (Bool.eq_true_of_not_eq_false hin)
    rw [hbefore] at hin'
    cases hin'
  cases a with
  | client i a =>
    have hexit : s.exit = .atExit := (Teardown.step_client hstep).2.2 ▸ hexit'
    exact hout (by rw [hexit]; simp) (h hexit j)
  | exit =>
    obtain ⟨-, -, hexit⟩ | ⟨-, -, hexit⟩ | ⟨i, -, hexit, -⟩ | ⟨i, hat, hexit, -⟩ :=
      vmeDmaExit_cases hstep
    · rw [hexit] at hexit'
      cases hexit'
    · rw [hexit] at hexit'
      cases hexit'
    · rw [hexit] at hexit'
      cases hexit'
    · exact hout (by rw [hat]; simp) (hmeets i hat (hexit ▸ hexit') j)

theorem Empty.runFun {s s' : Teardown n} (hreach : (teardown n).Reach s) (hexit : s.exit = .atExit)
    (h : ∀ j, (s.w.pc j).inside = false) (steps : List (TeardownStep n))
    (hrun : System.runFun Teardown.step s steps = some s') : TornDown s' := by
  induction steps generalizing s with
  | nil =>
    cases hrun
    exact Empty.tornDown (fun _ => h)
  | cons a steps ih =>
    rw [System.runFun, Option.bind_eq_some_iff] at hrun
    obtain ⟨t, ht, hrest⟩ := hrun
    have hexit' : t.exit = .atExit := by
      cases a with
      | client i a => exact (Teardown.step_client ht).2.2.trans hexit
      | exit =>
        rw [Teardown.step, vmeDmaExit, hexit] at ht
        cases ht
    have hmeets : MeetsExit s a := by
      cases a with
      | client i a => trivial
      | exit =>
        intro i hat
        rw [hexit] at hat
        cases hat
    exact ih (hreach.step ht) hexit' (Empty.step (fun _ => h) hreach hmeets ht hexit') hrest

theorem inside_holds {s : Teardown n} (hreach : (teardown n).Reach s) {j : Fin (n + 1)}
    (h : (s.w.pc j).inside = true) : ∃ steps t, System.runFun Teardown.step s steps = some t ∧
      t.exit = s.exit ∧ ∃ ch, (t.w.pc j).holds ch = true := by
  have hthread := exitThread_of_reach hreach
  have hne : j ≠ Fin.last n := by
    rintro rfl
    obtain hidle | hdrain := hthread
    · rw [hidle] at h
      cases h
    · rw [hdrain] at h
      cases h
  obtain ⟨i, rfl⟩ := Fin.exists_castSucc_eq.mpr hne
  generalize hpc : s.w.pc i.castSucc = x at h
  cases x with
  | holding ch => exact ⟨[], s, rfl, rfl, ch, by rw [hpc]; simp [ClientPc.holds]⟩
  | finished ch => exact ⟨[], s, rfl, rfl, ch, by rw [hpc]; simp [ClientPc.holds]⟩
  | locking =>
    have hinv := ChannelInv.of_reach (Teardown.clients_reach hreach)
    obtain ⟨ch, hch⟩ := hinv.lockAvailChannel_isSome hpc
    refine ⟨[.client i .lock], ⟨{ s.w with busy := update s.w.busy ch true }.move i.castSucc
      (.holding ch), s.exit⟩, ?_, rfl, ch, ?_⟩
    · simp [System.runFun, Teardown.step, Clients.step, hpc, advanceClient, hch]
    · simp [Clients.move, ClientPc.holds]
  | _ => cases h

/-- **When nobody holds a channel at the end.**  In every interleaving at most one client is inside
once the rounds are over; none is, and none comes to hold a channel, if nobody is inside at the last
`up`; and otherwise somebody holds one, or can still get one. -/
theorem tornDown_of_reach :
    (∀ s, (teardown n).ReachUnder MeetsExit s → TornDown s) ∧
    (∀ s, (teardown n).Reach s → s.exit = .atExit → occupancy ClientPc.inside s.w.pc ≤ 1) ∧
    (∀ s s', (teardown n).Reach s → s.step .exit = some s' → s'.exit = .atExit →
      ((∀ steps t, System.runFun Teardown.step s' steps = some t → TornDown t) ↔
        MeetsExit s .exit)) := by
  refine ⟨?_, ?_, ?_⟩
  · intro s h
    suffices hboth : (teardown n).Reach s ∧ Empty s from hboth.2.tornDown
    refine h.invariant (P := fun s => (teardown n).Reach s ∧ Empty s) ?_ ?_
    · intro s hs
      refine ⟨System.Reach.init hs, ?_⟩
      intro hexit
      rw [hs.2.2] at hexit
      cases hexit
    · rintro s a s' ⟨hreach, hempty⟩ hmeets hstep
      exact ⟨hreach.step hstep, hempty.step hreach hmeets hstep⟩
  · intro s h hexit
    exact inside_of_reach h (by rw [hexit]; rfl)
  · intro s s' hreach hstep hexit'
    have hreach' : (teardown n).Reach s' := hreach.step hstep
    constructor
    · intro hall i hat hround j
      by_contra hin
      -- the `up` moves only the thread of `vme_dma_exit`
      have hin' : (s'.w.pc j).inside = true := by
        obtain ⟨hnot, -, -⟩ | ⟨hnot, -, -⟩ | ⟨k, hnot, -, -⟩ | ⟨k, -, -, hw⟩ :=
          vmeDmaExit_cases hstep
        · rw [hat] at hnot
          cases hnot
        · rw [hat] at hnot
          cases hnot
        · rw [hat] at hnot
          cases hnot
        · by_cases hj : j = Fin.last n
          · obtain hidle | hdrain := exitThread_of_reach hreach
            · rw [hj, hidle] at hin
              exact absurd rfl hin
            · rw [hj, hdrain] at hin
              exact absurd rfl hin
          · rw [pc_of_step hw hj]
            exact Bool.eq_true_of_not_eq_false hin
      obtain ⟨steps, t, hrun, hexit, ch, hholds⟩ := inside_holds hreach' hin'
      have hnone := hall steps t hrun (hexit.trans hexit') j ch
      rw [hholds] at hnone
      cases hnone
    · intro hmeets steps t hrun
      have hstart : Empty s := by
        intro hexit
        rw [Teardown.step, vmeDmaExit, hexit] at hstep
        cases hstep
      exact Empty.runFun hreach' hexit' (hstart.step hreach hmeets hstep hexit') steps hrun

/-- One client on a fresh driver. -/
def oneClient : Teardown 1 where
  w := ⟨2, fun _ => false, false, fun _ => .idle⟩
  exit := .notCalled

/-- The client comes to hold a channel. -/
def takeSteps : List (TeardownStep 1) :=
  [.client 0 (.request true), .client 0 .down, .client 0 .recheck, .client 0 .lock]

/-- `vme_dma_exit` up to its last `up`. -/
def exitSteps : List (TeardownStep 1) := [.exit, .exit, .exit, .exit, .exit]

def reached (steps : List (TeardownStep 1)) : Teardown 1 :=
  (System.runFun Teardown.step oneClient steps).getD oneClient

theorem reached_reach {steps : List (TeardownStep 1)} {s : Teardown 1}
    (h : System.runFun Teardown.step oneClient steps = some s) : (teardown 1).Reach s :=
  System.Reach.runFun (System.Reach.init (S := teardown 1) ⟨⟨rfl, rfl, fun _ => rfl⟩, rfl, rfl⟩)
    steps h

/-- The transfer under way when the flag is set is still there at the last `up`. -/
theorem inside_of_run_takeSteps :
    ((reached (takeSteps ++ [.exit])).w.pc 0).inside = true :=
  inside_of_run (@reached_reach (takeSteps ++ [.exit]) _ rfl) (by decide)
    (show System.runFun Teardown.step _ exitSteps.tail = some (reached (takeSteps ++ exitSteps)) from
      rfl) (by decide)

/-- The end without a transfer, and with one that is overtaken. -/
theorem tornDown_idle_and_overtaken :
    (∃ s, (teardown 1).ReachUnder MeetsExit s ∧ s.exit = .atExit ∧ TornDown s) ∧
      occupancy ClientPc.inside (reached (takeSteps ++ exitSteps ++ [.exit])).w.pc ≤ 1 ∧
      ¬ ∀ steps t, System.runFun Teardown.step (reached (takeSteps ++ exitSteps ++ [.exit])) steps =
        some t → TornDown t := by
  have hnone : ∀ (s : Teardown 1), (∀ j, (s.w.pc j).inside = false) → MeetsExit s .exit :=
    fun s h _ _ _ => h
  have hinit : (teardown 1).ReachUnder MeetsExit oneClient :=
    System.ReachUnder.init ⟨⟨rfl, rfl, fun _ => rfl⟩, rfl, rfl⟩
  have h1 := hinit.step (hnone _ (by decide)) (rfl : Teardown.step _ .exit = some _)
  have h2 := h1.step (hnone _ (by decide)) (rfl : Teardown.step _ .exit = some _)
  have h3 := h2.step (hnone _ (by decide)) (rfl : Teardown.step _ .exit = some _)
  have h4 := h3.step (hnone _ (by decide)) (rfl : Teardown.step _ .exit = some _)
  have h5 := h4.step (hnone _ (by decide)) (rfl : Teardown.step _ .exit = some _)
  have h6 := h5.step (hnone _ (by decide)) (rfl : Teardown.step _ .exit = some _)
  have hlast : (teardown 1).Reach (reached (takeSteps ++ exitSteps)) :=
    @reached_reach (takeSteps ++ exitSteps) _ rfl
  have hend : (teardown 1).Reach (reached (takeSteps ++ exitSteps ++ [.exit])) :=
    @reached_reach (takeSteps ++ exitSteps ++ [.exit]) _ rfl
  refine ⟨⟨_, h6, rfl, tornDown_of_reach.1 _ h6⟩, tornDown_of_reach.2.1 _ hend rfl, ?_⟩
  intro hall
  have hmeets := (tornDown_of_reach.2.2 _ _ hlast rfl rfl).mp hall
  exact absurd (hmeets 1 rfl rfl 0) (by decide)

/-- **A transfer is overtaken**: both rounds take the count that is free while a client holds the
other one. -/
theorem overtaken_not_tornDown : ∃ s : Teardown 1, (teardown 1).Reach s ∧ ¬ TornDown s := by
  refine ⟨reached (takeSteps ++ exitSteps ++ [.exit]),
    @reached_reach (takeSteps ++ exitSteps ++ [.exit]) _ rfl, ?_⟩
  intro h
  exact absurd (h rfl 0 0) (by decide)

end KernelModules.Vmebridge
