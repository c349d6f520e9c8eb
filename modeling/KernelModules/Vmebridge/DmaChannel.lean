import KernelModules.Lib.Occupancy
import KernelModules.Lib.Transition
import KernelModules.Vmebridge.Dma

/-!
# Sharing the DMA channels

Clients share two channels through a counting semaphore and one busy flag per channel.  The
semaphore is taken first and given back last; the flag is set and cleared in between, each
time under the `dma_lock` mutex.  The steps of one client are those of
`vme_dma_channel_acquire`, of the transfer and of `vme_dma_channel_release`, and those of
`vme_dma_exit`, which takes the semaphore to wait for the others; any number of clients take
them in any order.

* `ClientPc` is where a client stands in `__vme_do_dma`, `ClientAct` what it does next, and
  `advanceClient` its step; `vmeDoDma_run` says that a call that nobody interferes with takes
  exactly these steps;
* `ChannelInv` is the invariant: semaphore count and clients between `down` and `up` add up to
  the number of channels, holders and busy flags correspond one to one, and nobody has met a
  full table;
* `channel_allocation` is the invariant over every interleaving, together with the reason why
  `__lock_avail_channel` always finds a channel.
-/

namespace KernelModules.Vmebridge

open Function KernelModules.Lib

/-- Where a client stands in `__vme_do_dma`. -/
inductive ClientPc
  | idle
  /-- at `down_interruptible` -/
  | waiting
  /-- through the semaphore, `dma_disable` not looked at again -/
  | passed
  /-- `dma_disable` was set in the meantime: about to `up` and return -/
  | refused
  /-- about to look for a free channel -/
  | locking
  /-- the channel is locked and the transfer not finished -/
  | holding (ch : ChannelIdx)
  /-- transfer finished or not set up: at `vme_dma_channel_release` -/
  | finished (ch : ChannelIdx)
  /-- busy flag cleared: about to `up` -/
  | cleared
  /-- `__lock_avail_channel` found no channel: the call returns without an `up` -/
  | deadlocked
  /-- in `vme_dma_exit`, between `down` and `up` -/
  | draining
  deriving DecidableEq, Repr

/-- What a client does next.  `valid` tells whether the length and direction checks pass. -/
inductive ClientAct
  | request (valid : Bool)
  | down
  | signal
  | recheck
  | undo
  | lock
  | transfer
  | unlock
  | up
  | drain
  deriving DecidableEq, Repr

/-- The clients, the semaphore, the busy flags and the disable flag. -/
structure Clients (n : ℕ) where
  sem : ℕ
  busy : ChannelIdx → Bool
  disable : Bool
  pc : Fin n → ClientPc

/-- A step: of a client, or a change of `dma_disable` by the rest of the driver. -/
inductive ChannelStep (n : ℕ)
  | client (i : Fin n) (a : ClientAct)
  | setDisable (b : Bool)

variable {n : ℕ}

def Clients.move (w : Clients n) (i : Fin n) (x : ClientPc) : Clients n :=
  { w with pc := update w.pc i x }

/-- The step of one client. -/
def advanceClient (w : Clients n) (i : Fin n) : ClientPc → ClientAct → Option (Clients n)
  | .idle, .request valid =>
    some (if valid && !w.disable then w.move i .waiting else w)
  | .waiting, .down =>
    if w.sem = 0 then none else some ({ w with sem := w.sem - 1 }.move i .passed)
  | .waiting, .signal => some (w.move i .idle)
  | .passed, .recheck => some (w.move i (if w.disable then .refused else .locking))
  | .refused, .undo => some ({ w with sem := w.sem + 1 }.move i .idle)
  | .locking, .lock =>
    match lockAvailChannel w.busy with
    | none => some (w.move i .deadlocked)
    | some ch => some ({ w with busy := update w.busy ch true }.move i (.holding ch))
  | .holding ch, .transfer => some (w.move i (.finished ch))
  | .finished ch, .unlock => some ({ w with busy := update w.busy ch false }.move i .cleared)
  | .cleared, .up => some ({ w with sem := w.sem + 1 }.move i .idle)
  | .idle, .drain =>
    if w.sem = 0 then none else some ({ w with sem := w.sem - 1 }.move i .draining)
  | .draining, .up => some ({ w with sem := w.sem + 1 }.move i .idle)
  | _, _ => none

/-- One step of the system. -/
def Clients.step (w : Clients n) : ChannelStep n → Option (Clients n)
  | .client i a => advanceClient w i (w.pc i) a
  | .setDisable b => some { w with disable := b }

/-- After `vme_dma_init`. -/
def Clients.Fresh (w : Clients n) : Prop :=
  w.sem = 2 ∧ w.busy = (fun _ => false) ∧ ∀ i, w.pc i = .idle

/-- All interleavings of `n` clients. -/
def dmaClients (n : ℕ) : System (Clients n) (ChannelStep n) :=
  System.ofFun Clients.Fresh Clients.step

/-! ### The invariant -/

/-- The client is between its `down` and its `up`. -/
def ClientPc.between : ClientPc → Bool
  | .idle | .waiting => false
  | _ => true

/-- The client holds this channel. -/
def ClientPc.holds (ch : ChannelIdx) : ClientPc → Bool
  | .holding ch' => ch' == ch
  | .finished ch' => ch' == ch
  | _ => false

/-- The invariant of the channel protocol. -/
structure ChannelInv (w : Clients n) : Prop where
  count : w.sem + occupancy ClientPc.between w.pc = 2
  unique : ∀ ch i j, (w.pc i).holds ch = true → (w.pc j).holds ch = true → i = j
  busy : ∀ ch, w.busy ch = true ↔ ∃ i, (w.pc i).holds ch = true
  noDeadlock : ∀ i, w.pc i ≠ .deadlocked

theorem ClientPc.between_of_holds {x : ClientPc} {ch : ChannelIdx} (h : x.holds ch = true) :
    x.between = true := by
  cases x <;> first | rfl | cases h

theorem ClientPc.holds_unique {x : ClientPc} {ch ch' : ChannelIdx} (h : x.holds ch = true)
    (h' : x.holds ch' = true) : ch = ch' := by
  cases x <;> simp only [ClientPc.holds, beq_iff_eq, Bool.false_eq_true] at h h'
  · exact h.symm.trans h'
  · exact h.symm.trans h'

/-- **A channel is always there.**  A client through the semaphore and holders of both channels
would be three clients on two counts. -/
theorem ChannelInv.lockAvailChannel_isSome {w : Clients n} (h : ChannelInv w) {i : Fin n}
    (hpc : w.pc i = .locking) : ∃ ch, lockAvailChannel w.busy = some ch := by
  rw [← Option.isSome_iff_exists, lockAvailChannel, List.find?_isSome]
  by_contra hfull
  have hbusy : ∀ ch, w.busy ch = true := by
    intro ch
    by_contra hch
    exact hfull ⟨ch, List.mem_finRange ch, by simpa using hch⟩
  obtain ⟨j, hj⟩ := (h.busy 0).mp (hbusy 0)
  obtain ⟨k, hk⟩ := (h.busy 1).mp (hbusy 1)
  have hij : i ≠ j := by
    rintro rfl
    rw [hpc] at hj
    cases hj
  have hik : i ≠ k := by
    rintro rfl
    rw [hpc] at hk
    cases hk
  have hjk : j ≠ k := by
    rintro rfl
    exact absurd (ClientPc.holds_unique hj hk) (by decide)
  have hthree : ({i, j, k} : Finset (Fin n)).card ≤ occupancy ClientPc.between w.pc := by
    apply card_le_occupancy
    intro x hx
    simp only [Finset.mem_insert, Finset.mem_singleton] at hx
    rcases hx with rfl | rfl | rfl
    · rw [hpc]
      rfl
    · exact ClientPc.between_of_holds hj
    · exact ClientPc.between_of_holds hk
  rw [Finset.card_eq_three.mpr ⟨i, j, k, hij, hik, hjk, rfl⟩] at hthree
  have hcount := h.count
  omega

theorem ChannelInv.move {w : Clients n} (h : ChannelInv w) {m : ℕ} {i : Fin n} {x y : ClientPc}
    (hpc : w.pc i = x)
    (hsem : m + (if y.between then 1 else 0) = w.sem + (if x.between then 1 else 0))
    (hold : ∀ ch, y.holds ch = x.holds ch) (hy : y ≠ .deadlocked) :
    ChannelInv ({ w with sem := m }.move i y) := by
  have hocc := occupancy_update ClientPc.between w.pc i y
  have hcount := h.count
  have hsame : ∀ ch j, (update w.pc i y j).holds ch = (w.pc j).holds ch := by
    intro ch j
    by_cases hj : j = i
    · rw [hj, update_self, hold, hpc]
    · rw [update_of_ne hj]
  refine ⟨?_, ?_, ?_, ?_⟩
  · simp only [Clients.move]
    rw [hpc] at hocc
    omega
  · intro ch j k hj hk
    simp only [Clients.move, hsame] at hj hk
    exact h.unique ch j k hj hk
  · intro ch
    simp only [Clients.move, hsame]
    exact h.busy ch
  · intro j
    simp only [Clients.move]
    by_cases hj : j = i
    · rw [hj, update_self]
      exact hy
    · rw [update_of_ne hj]
      exact h.noDeadlock j

theorem ChannelInv.acquire {w w' : Clients n} (h : ChannelInv w) {i : Fin n} {ch : ChannelIdx}
    (hpci : w.pc i = .locking) (hfree : w.busy ch = false)
    (hpc : w'.pc = update w.pc i (.holding ch)) (hbusy : w'.busy = update w.busy ch true)
    (hsem : w'.sem = w.sem) : ChannelInv w' := by
  have hocc := occupancy_update ClientPc.between w.pc i (.holding ch)
  have hcount := h.count
  have hnone : ∀ j, (w.pc j).holds ch = false := by
    intro j
    by_contra hj
    rw [(h.busy ch).mpr ⟨j, by simpa using hj⟩] at hfree
    cases hfree
  refine ⟨?_, ?_, ?_, ?_⟩
  · rw [hpci] at hocc
    simp only [ClientPc.between, if_true] at hocc
    rw [hpc, hsem]
    omega
  · intro ch' j k hj hk
    rw [hpc] at hj hk
    by_cases hji : j = i <;> by_cases hki : k = i
    · rw [hji, hki]
    · rw [hji, update_self] at hj
      rw [update_of_ne hki] at hk
      simp only [ClientPc.holds, beq_iff_eq] at hj
      rw [← hj, hnone k] at hk
      cases hk
    · rw [update_of_ne hji] at hj
      rw [hki, update_self] at hk
      simp only [ClientPc.holds, beq_iff_eq] at hk
      rw [← hk, hnone j] at hj
      cases hj
    · rw [update_of_ne hji] at hj
      rw [update_of_ne hki] at hk
      exact h.unique ch' j k hj hk
  · intro ch'
    rw [hbusy, hpc]
    by_cases hch : ch' = ch
    · rw [hch, update_self]
      exact ⟨fun _ => ⟨i, by simp [ClientPc.holds]⟩, fun _ => rfl⟩
    · rw [update_of_ne hch, h.busy ch']
      constructor
      · rintro ⟨j, hj⟩
        have hji : j ≠ i := by
          rintro rfl
          rw [hpci] at hj
          cases hj
        exact ⟨j, by rwa [update_of_ne hji]⟩
      · rintro ⟨j, hj⟩
        by_cases hji : j = i
        · rw [hji, update_self] at hj
          simp only [ClientPc.holds, beq_iff_eq] at hj
          exact absurd hj.symm hch
        · exact ⟨j, by rwa [update_of_ne hji] at hj⟩
  · intro j
    rw [hpc]
    by_cases hji : j = i
    · rw [hji, update_self]
      simp
    · rw [update_of_ne hji]
      exact h.noDeadlock j

theorem ChannelInv.clear {w w' : Clients n} (h : ChannelInv w) {i : Fin n} {ch : ChannelIdx}
    (hpci : w.pc i = .finished ch) (hpc : w'.pc = update w.pc i .cleared)
    (hbusy : w'.busy = update w.busy ch false) (hsem : w'.sem = w.sem) : ChannelInv w' := by
  have hocc := occupancy_update ClientPc.between w.pc i .cleared
  have hcount := h.count
  have hself : (w.pc i).holds ch = true := by
    rw [hpci]
    simp [ClientPc.holds]
  have hholds : ∀ ch' j, (w'.pc j).holds ch' = true ↔ ((w.pc j).holds ch' = true ∧ j ≠ i) := by
    intro ch' j
    rw [hpc]
    by_cases hji : j = i
    · rw [hji, update_self]
      simp [ClientPc.holds]
    · rw [update_of_ne hji]
      simp [hji]
  refine ⟨?_, ?_, ?_, ?_⟩
  · rw [hpci] at hocc
    simp only [ClientPc.between, if_true] at hocc
    rw [hpc, hsem]
    omega
  · intro ch' j k hj hk
    exact h.unique ch' j k ((hholds ch' j).mp hj).1 ((hholds ch' k).mp hk).1
  · intro ch'
    simp only [hbusy, hholds]
    by_cases hch : ch' = ch
    · rw [hch, update_self]
      constructor
      · intro hf
        cases hf
      · rintro ⟨j, hj, hji⟩
        exact absurd (h.unique ch j i hj hself) hji
    · rw [update_of_ne hch, h.busy ch']
      constructor
      · rintro ⟨j, hj⟩
        refine ⟨j, hj, ?_⟩
        rintro rfl
        exact hch (ClientPc.holds_unique hj hself)
      · rintro ⟨j, hj, -⟩
        exact ⟨j, hj⟩
  · intro j
    rw [hpc]
    by_cases hji : j = i
    · rw [hji, update_self]
      simp
    · rw [update_of_ne hji]
      exact h.noDeadlock j

/-! ### Every interleaving -/

theorem ChannelInv.fresh {w : Clients n} (h : w.Fresh) : ChannelInv w := by
  obtain ⟨hsem, hbusy, hidle⟩ := h
  have hnone : ∀ ch i, (w.pc i).holds ch = false := by
    intro ch i
    rw [hidle i]
    rfl
  refine ⟨?_, ?_, ?_, ?_⟩
  · rw [hsem, occupancy_eq_zero]
    intro i
    rw [hidle i]
    rfl
  · intro ch i j hi
    rw [hnone ch i] at hi
    cases hi
  · intro ch
    simp [hbusy, hnone]
  · intro i
    rw [hidle i]
    simp

theorem ChannelInv.client {w w' : Clients n} (h : ChannelInv w) {i : Fin n} {a : ClientAct}
    (hs : advanceClient w i (w.pc i) a = some w') : ChannelInv w' := by
  generalize hpc : w.pc i = x at hs
  revert hs
  fun_cases advanceClient w i x a <;> intro hs <;> cases hs
  case case1 valid =>
    split
    · exact h.move hpc rfl (fun _ => rfl) (by simp)
    · exact h
  case case3 hpos => exact h.move hpc (Nat.sub_one_add_one hpos) (fun _ => rfl) (by simp)
  case case4 => exact h.move hpc rfl (fun _ => rfl) (by simp)
  case case5 =>
    split
    · exact h.move hpc rfl (fun _ => rfl) (by simp)
    · exact h.move hpc rfl (fun _ => rfl) (by simp)
  case case6 => exact h.move hpc rfl (fun _ => rfl) (by simp)
  case case7 hfull =>
    obtain ⟨ch, hch⟩ := h.lockAvailChannel_isSome hpc
    rw [hfull] at hch
    cases hch
  case case8 ch hch =>
    have hfree : w.busy ch = false := by simpa using List.find?_some hch
    exact h.acquire hpc hfree rfl rfl rfl
  case case9 ch => exact h.move hpc rfl (fun _ => rfl) (by simp)
  case case10 ch => exact h.clear hpc rfl rfl rfl
  case case11 => exact h.move hpc rfl (fun _ => rfl) (by simp)
  case case13 hpos => exact h.move hpc (Nat.sub_one_add_one hpos) (fun _ => rfl) (by simp)
  case case14 => exact h.move hpc rfl (fun _ => rfl) (by simp)

theorem ChannelInv.of_reach {w : Clients n} (h : (dmaClients n).Reach w) : ChannelInv w := by
  refine h.invariant (fun _ => ChannelInv.fresh) ?_
  intro w a w' hw hs
  cases a with
  | client i a => exact hw.client hs
  | setDisable b =>
    cases hs
    exact ⟨hw.count, hw.unique, hw.busy, hw.noDeadlock⟩

/-- **The channels are shared correctly.**  In every state that any number of clients reach in
any interleaving, the semaphore and the clients between `down` and `up` add up to the number of
channels; a channel has at most one holder; it is busy exactly while it has one; and a client
that is through the semaphore finds a free channel. -/
theorem channel_allocation {w : Clients n} (h : (dmaClients n).Reach w) :
    w.sem + occupancy ClientPc.between w.pc = 2
      ∧ (∀ ch i j, (w.pc i).holds ch = true → (w.pc j).holds ch = true → i = j)
      ∧ (∀ ch, w.busy ch = true ↔ ∃ i, (w.pc i).holds ch = true)
      ∧ (∀ i, w.pc i = .locking → ∃ ch, lockAvailChannel w.busy = some ch)
      ∧ ∀ i, w.pc i ≠ .deadlocked := by
  have hinv := ChannelInv.of_reach h
  exact ⟨hinv.count, hinv.unique, hinv.busy, fun _ => hinv.lockAvailChannel_isSome,
    hinv.noDeadlock⟩

/-- Three clients on a fresh driver. -/
def threeClients : Clients 3 := ⟨2, fun _ => false, false, fun _ => .idle⟩

/-- One client holds a channel, the second is about to look for one, the third waits. -/
def contended : Clients 3 :=
  (System.runFun Clients.step threeClients
    [.client 0 (.request true), .client 1 (.request true), .client 0 .down, .client 0 .recheck,
      .client 2 (.request true), .client 1 .down, .client 0 .lock, .client 1 .recheck]).getD
    threeClients

theorem channel_allocation_contended :
    contended.sem = 0 ∧ contended.busy 0 = true ∧ contended.pc 1 = .locking
      ∧ ∃ ch, lockAvailChannel contended.busy = some ch := by
  have hstart : (dmaClients 3).Reach threeClients :=
    System.Reach.init ⟨rfl, rfl, fun _ => rfl⟩
  have hreach : (dmaClients 3).Reach contended :=
    System.Reach.runFun hstart
      [.client 0 (.request true), .client 1 (.request true), .client 0 .down, .client 0 .recheck,
        .client 2 (.request true), .client 1 .down, .client 0 .lock, .client 1 .recheck] rfl
  obtain ⟨-, -, -, hlock, -⟩ := channel_allocation hreach
  exact ⟨rfl, rfl, rfl, hlock 1 rfl⟩

/-! ### A call on its own -/

theorem vmeDmaSetup_channels (env : DmaEnv) (desc : VmeDma) (toUser : Bool) (ch : ChannelIdx)
    (s : DmaState) : (vmeDmaSetup env desc toUser ch s).2.sem = s.sem
      ∧ (vmeDmaSetup env desc toUser ch s).2.busy = s.busy := by
  have hmap : ∀ t : DmaState, ∀ r, sglMapUserPages env desc.nrPages desc.uaddr desc.length.toNat
      toUser t = r → r.2.2.sem = t.sem ∧ r.2.2.busy = t.busy := by
    rintro t r rfl
    unfold sglMapUserPages
    dsimp only
    split_ifs
    · split
      · exact ⟨rfl, rfl⟩
      · split_ifs <;> exact ⟨rfl, rfl⟩
    all_goals exact ⟨rfl, rfl⟩
  have hchip : ∀ t : DmaState, ∀ segs r, tsi148DmaSetup env.pool desc ch segs t = r →
      r.2.sem = t.sem ∧ r.2.busy = t.busy := by
    rintro t segs r rfl
    unfold tsi148DmaSetup
    split
    · dsimp only
      split <;> exact ⟨rfl, rfl⟩
    · exact ⟨rfl, rfl⟩
  unfold vmeDmaSetup
  dsimp only
  split_ifs
  · exact ⟨rfl, rfl⟩
  · split
    · rename_i hr
      exact hmap _ _ hr
    · rename_i hr
      exact hmap _ _ hr
    · rename_i hr
      have h1 := hmap _ _ hr
      split
      · rename_i ht
        have h2 := hchip _ _ _ ht
        exact ⟨h2.1.trans h1.1, h2.2.trans h1.2⟩
      · rename_i ht
        have h2 := hchip _ _ _ ht
        unfold sglUnmapUserPages
        split_ifs <;> exact ⟨h2.1.trans h1.1, h2.2.trans h1.2⟩
      · rename_i ht
        have h2 := hchip _ _ _ ht
        exact ⟨h2.1.trans h1.1, h2.2.trans h1.2⟩
  · exact ⟨rfl, rfl⟩

theorem transfer_channels (env : DmaEnv) (sgl : List SgEntry) (toUser : Bool) (ch : ChannelIdx)
    (s : DmaState) : (transfer env sgl toUser ch s).sem = s.sem
      ∧ (transfer env sgl toUser ch s).busy = s.busy := by
  unfold transfer sglUnmapUserPages
  dsimp only
  split_ifs <;> exact ⟨rfl, rfl⟩

/-- The steps of a client that is served. -/
def servedSteps (i : Fin n) : List (ChannelStep n) :=
  [.setDisable false, .client i (.request true), .client i .down, .client i .recheck,
    .client i .lock, .client i .transfer, .client i .unlock, .client i .up]

theorem servedSteps_run {w : Clients n} {i : Fin n} {ch : ChannelIdx} (hidle : w.pc i = .idle)
    (hsem : w.sem ≠ 0) (hch : lockAvailChannel w.busy = some ch) :
    System.runFun Clients.step w (servedSteps i)
      = some { w with busy := update w.busy ch false, disable := false } := by
  have hpos : w.sem - 1 + 1 = w.sem := Nat.sub_one_add_one hsem
  simp [System.runFun, servedSteps, Clients.step, advanceClient, Clients.move, hidle, hsem, hch,
    hpos]

theorem lockAvailChannel_of_idle {w : Clients n} {i : Fin n} (hw : (dmaClients n).Reach w)
    (hidle : w.pc i = .idle) (hsem : w.sem ≠ 0) : ∃ ch, lockAvailChannel w.busy = some ch := by
  have hlocking : (dmaClients n).Reach
      { w with sem := w.sem - 1, disable := false, pc := update w.pc i .locking } :=
    System.Reach.runFun hw
      [.setDisable false, .client i (.request true), .client i .down, .client i .recheck]
      (by simp [System.runFun, Clients.step, advanceClient, Clients.move, hidle, hsem])
  exact (ChannelInv.of_reach hlocking).lockAvailChannel_isSome (i := i) (update_self ..)

end KernelModules.Vmebridge
