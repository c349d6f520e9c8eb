import Mathlib.Tactic
import KernelModules.Lib.Rollback
import KernelModules.Cvorb.FunctionSlot

/-!
# Directories and files of a CVORB card in sysfs

A card has a directory for each submodule, in it one for each channel, and in that one a file for
each function.  `cvorb_dev_add_attributes` registers them in three nested loops, and where a
registration fails it counts the three indices down again.  What the indices are where the loops
are left differs from one place to the next, and so does `submodule`, which the way back sets only
after the channels of a submodule are gone.

* `addAttributes_clean_iff`: the way back is right for a failure at the first submodule or at one of
  its channels, where no files have been made.  From any other place it deletes a channel or a file
  that is not there, or leaves the channels of the first submodule;
* `initModule_clean_iff`: `while (--fcnIdx)` stops before the first attribute, or, where the first
  one fails, does not stop.

Only the first failure counts, so that `failing` is the object whose registration fails, if any.
Deleting a directory of a channel is one event, whichever function the kernel has for it.
-/

namespace KernelModules.Cvorb

open KernelModules.Lib

/-! ### Registering -/

inductive SysfsObject where
  | submodule (submoduleIdx : ℕ)
  | channel (submoduleIdx channelIdx : ℕ)
  | fcn (submoduleIdx channelIdx fcnIdx : ℕ)
deriving DecidableEq

/-- The variables of `cvorb_dev_add_attributes`, with `submodule` as an index, and what has been
registered.  An index is written down where its loop is left. -/
structure AddAttributes where
  submoduleIdx : ℤ := 0
  channelIdx : ℤ := 0
  fcnIdx : ℤ := 0
  submodule : ℕ := 0
  registered : List SysfsObject := []

section Registering

variable (nFcn nChan : ℕ) (enabled : Bool) (failing : Option SysfsObject)

/-- `n` files of a channel, from `fcnIdx` on. -/
def addFcns (s c : ℕ) : ℕ → ℕ → AddAttributes → Except AddAttributes AddAttributes
  | 0, fcnIdx, a => .ok { a with fcnIdx := fcnIdx }
  | n + 1, fcnIdx, a =>
    if failing = some (.fcn s c fcnIdx) then
      -- the `goto` stands before the index is stepped down
      .error { a with fcnIdx := fcnIdx }
    else
      addFcns s c n (fcnIdx + 1) { a with registered := a.registered ++ [.fcn s c fcnIdx] }

/-- `n` channels of a submodule, from `channelIdx` on. -/
def addChannels (s : ℕ) : ℕ → ℕ → AddAttributes → Except AddAttributes AddAttributes
  | 0, channelIdx, a => .ok { a with channelIdx := channelIdx }
  | n + 1, channelIdx, a =>
    if failing = some (.channel s channelIdx) then
      .error { a with channelIdx := channelIdx - 1 }
    else
      let a := { a with registered := a.registered ++ [.channel s channelIdx] }
      if enabled then
        match addFcns failing s channelIdx nFcn 0 a with
        | .error a => .error { a with channelIdx := channelIdx }
        | .ok a => addChannels s n (channelIdx + 1) a
      else addChannels s n (channelIdx + 1) a

/-- `n` submodules, from `submoduleIdx` on. -/
def addSubmodules : ℕ → ℕ → AddAttributes → Except AddAttributes AddAttributes
  | 0, submoduleIdx, a => .ok { a with submoduleIdx := submoduleIdx }
  | n + 1, submoduleIdx, a =>
    let a := { a with submodule := submoduleIdx }
    if failing = some (.submodule submoduleIdx) then
      .error { a with submoduleIdx := submoduleIdx - 1 }
    else
      let a := { a with registered := a.registered ++ [.submodule submoduleIdx] }
      match addChannels nFcn enabled failing submoduleIdx nChan 0 a with
      | .error a => .error { a with submoduleIdx := submoduleIdx }
      | .ok a => addSubmodules n (submoduleIdx + 1) a

end Registering

/-! ### The way back -/

/-- The values of an index in `while (i >= 0) { …; --i; }`. -/
def stepDown (i : ℤ) : List ℕ := (List.range (i + 1).toNat).reverse

@[simp] theorem mem_stepDown {i : ℤ} {k : ℕ} : k ∈ stepDown i ↔ (k : ℤ) ≤ i := by
  simp only [stepDown, List.mem_reverse, List.mem_range]
  omega

/-- The channels of a submodule, with `fcnIdx` for the first of them. -/
def removeChannels (nFcn : ℕ) (enabled : Bool) (s : ℕ) : ℤ → List ℕ → List SysfsObject
  | _, [] => []
  | fcnIdx, c :: cs =>
    let fcns := if enabled then (stepDown fcnIdx).map (.fcn s c) else []
    fcns ++ .channel s c ::
      removeChannels nFcn enabled s (if enabled then nFcn - 1 else fcnIdx) cs

/-- `fcnIdx` after the loop over the channels. -/
def fcnIdxAfter (nFcn : ℕ) (enabled : Bool) (fcnIdx : ℤ) : List ℕ → ℤ
  | [] => fcnIdx
  | _ :: _ => if enabled then nFcn - 1 else fcnIdx

/-- The submodules, with `submodule`, `channelIdx` and `fcnIdx` for the first of them. -/
def removeSubmodules (nFcn nChan : ℕ) (enabled : Bool) :
    ℕ → ℤ → ℤ → List ℕ → List SysfsObject
  | _, _, _, [] => []
  | submodule, channelIdx, fcnIdx, s :: ss =>
    removeChannels nFcn enabled submodule fcnIdx (stepDown channelIdx) ++
      .submodule s ::
        removeSubmodules nFcn nChan enabled s (nChan - 1)
          (fcnIdxAfter nFcn enabled fcnIdx (stepDown channelIdx)) ss

/-- `cvorb_dev_add_attributes` -/
def addAttributes (nSub nChan nFcn : ℕ) (enabled : Bool) (failing : Option SysfsObject) :
    Outcome SysfsObject :=
  match addSubmodules nFcn nChan enabled failing nSub 0 {} with
  | .ok a => ⟨false, a.registered, []⟩
  | .error a =>
    ⟨true, a.registered, removeSubmodules nFcn nChan enabled a.submodule a.channelIdx a.fcnIdx
      (stepDown a.submoduleIdx)⟩

/-! ### Loops that get past a stretch -/

section Skipping

variable {nFcn nChan : ℕ} {enabled : Bool} {failing : Option SysfsObject}

variable (failing) in
theorem addFcns_skip (s c m : ℕ) (j fcnIdx : ℕ) (a : AddAttributes)
    (h : ∀ f, fcnIdx ≤ f → f < fcnIdx + j → failing ≠ some (.fcn s c f)) :
    addFcns failing s c (j + m) fcnIdx a =
      addFcns failing s c m (fcnIdx + j)
        { a with registered := a.registered ++ (List.range' fcnIdx j).map (.fcn s c) } := by
  induction j generalizing fcnIdx a with
  | zero => simp
  | succ j ih =>
    rw [show j + 1 + m = j + m + 1 by omega, addFcns, if_neg (h fcnIdx le_rfl (by omega)),
      ih (fcnIdx + 1) _ fun f hle hlt => h f (by omega) (by omega)]
    simp only [List.range'_succ, List.map_cons, List.append_assoc, List.singleton_append]
    rw [show fcnIdx + 1 + j = fcnIdx + (j + 1) by omega]

theorem addFcns_ok {s c : ℕ} (n : ℕ) (a : AddAttributes)
    (h : ∀ f < n, failing ≠ some (.fcn s c f)) :
    addFcns failing s c n 0 a =
      .ok { a with
        fcnIdx := n
        registered := a.registered ++ (List.range' 0 n).map (.fcn s c) } := by
  have hskip := addFcns_skip failing s c 0 n 0 a fun f _ hf => h f (by omega)
  rw [Nat.add_zero, Nat.zero_add, addFcns] at hskip
  exact hskip

/-- What a channel consists of. -/
def channelObjects (nFcn : ℕ) (enabled : Bool) (s c : ℕ) : List SysfsObject :=
  .channel s c :: if enabled then (List.range' 0 nFcn).map (.fcn s c) else []

/-- No registration of a channel fails. -/
def ChannelOk (nFcn : ℕ) (enabled : Bool) (failing : Option SysfsObject) (s c : ℕ) : Prop :=
  failing ≠ some (.channel s c) ∧ (enabled = true → ∀ f < nFcn, failing ≠ some (.fcn s c f))

theorem addChannels_step {s : ℕ} (n channelIdx : ℕ) (a : AddAttributes)
    (h : ChannelOk nFcn enabled failing s channelIdx) :
    addChannels nFcn enabled failing s (n + 1) channelIdx a =
      addChannels nFcn enabled failing s n (channelIdx + 1)
        { a with
          fcnIdx := if enabled = true then (nFcn : ℤ) else a.fcnIdx
          registered := a.registered ++ channelObjects nFcn enabled s channelIdx } := by
  rw [addChannels, if_neg h.1]
  dsimp only
  cases henabled : enabled with
  | false => simp [channelObjects]
  | true =>
    rw [addFcns_ok nFcn _ (h.2 henabled)]
    simp [channelObjects]

variable (nFcn enabled failing) in
theorem addChannels_skip (s m : ℕ) (j channelIdx : ℕ) (a : AddAttributes)
    (h : ∀ c, channelIdx ≤ c → c < channelIdx + j → ChannelOk nFcn enabled failing s c) :
    addChannels nFcn enabled failing s (j + m) channelIdx a =
      addChannels nFcn enabled failing s m (channelIdx + j)
        { a with
          fcnIdx := if enabled = true ∧ 0 < j then (nFcn : ℤ) else a.fcnIdx
          registered := a.registered ++
            (List.range' channelIdx j).flatMap (channelObjects nFcn enabled s) } := by
  induction j generalizing channelIdx a with
  | zero => simp
  | succ j ih =>
    rw [show j + 1 + m = j + m + 1 by omega, addChannels_step _ _ _ (h channelIdx le_rfl (by omega)),
      ih (channelIdx + 1) _ fun c hle hlt => h c (by omega) (by omega)]
    simp only [List.range'_succ, List.flatMap_cons, List.append_assoc]
    rw [show channelIdx + 1 + j = channelIdx + (j + 1) by omega]
    cases enabled <;> simp

/-- What a submodule consists of. -/
def submoduleObjects (nFcn nChan : ℕ) (enabled : Bool) (s : ℕ) : List SysfsObject :=
  .submodule s :: (List.range' 0 nChan).flatMap (channelObjects nFcn enabled s)

/-- No registration of a submodule fails. -/
def SubmoduleOk (nFcn nChan : ℕ) (enabled : Bool) (failing : Option SysfsObject) (s : ℕ) : Prop :=
  failing ≠ some (.submodule s) ∧ ∀ c < nChan, ChannelOk nFcn enabled failing s c

theorem addSubmodules_step (n s : ℕ) (a : AddAttributes)
    (h : SubmoduleOk nFcn nChan enabled failing s) :
    addSubmodules nFcn nChan enabled failing (n + 1) s a =
      addSubmodules nFcn nChan enabled failing n (s + 1)
        { a with
          submodule := s
          channelIdx := nChan
          fcnIdx := if enabled = true ∧ 0 < nChan then (nFcn : ℤ) else a.fcnIdx
          registered := a.registered ++ submoduleObjects nFcn nChan enabled s } := by
  have hskip := addChannels_skip nFcn enabled failing s 0 nChan 0
  rw [addSubmodules, if_neg h.1]
  dsimp only
  rw [show nChan = nChan + 0 by rfl, hskip _ fun c _ hc => h.2 c (by omega), addChannels]
  simp [submoduleObjects]

variable (nFcn nChan enabled failing) in
theorem addSubmodules_skip (m : ℕ) (j s : ℕ) (a : AddAttributes)
    (h : ∀ k, s ≤ k → k < s + j → SubmoduleOk nFcn nChan enabled failing k) :
    ∃ b : AddAttributes, addSubmodules nFcn nChan enabled failing (j + m) s a =
        addSubmodules nFcn nChan enabled failing m (s + j) b ∧
      (0 < j → b.channelIdx = nChan) ∧ (j = 0 → b = a) ∧
      b.registered = a.registered ++
        (List.range' s j).flatMap (submoduleObjects nFcn nChan enabled) := by
  induction j generalizing s a with
  | zero => exact ⟨a, by simp, fun h => absurd h (lt_irrefl 0), fun _ => rfl, by simp⟩
  | succ j ih =>
    obtain ⟨b, hrun, hchan, hzero, hreg⟩ := ih (s + 1)
      { a with
        submodule := s
        channelIdx := nChan
        fcnIdx := if enabled = true ∧ 0 < nChan then (nFcn : ℤ) else a.fcnIdx
        registered := a.registered ++ submoduleObjects nFcn nChan enabled s }
      fun k hle hlt => h k (by omega) (by omega)
    refine ⟨b, ?_, fun _ => ?_, fun h => absurd h (Nat.succ_ne_zero j), ?_⟩
    · rw [show j + 1 + m = j + m + 1 by omega, addSubmodules_step _ _ _ (h s le_rfl (by omega)), hrun,
        show s + 1 + j = s + (j + 1) by omega]
    · rcases Nat.eq_zero_or_pos j with hj | hj
      · rw [hzero hj]
      · exact hchan hj
    · rw [hreg, List.range'_succ, List.flatMap_cons, List.append_assoc]

end Skipping

/-! ### What has been registered, and what is removed -/

section Members

variable {nFcn nChan : ℕ} {enabled : Bool}

@[simp] theorem channel_mem_submoduleObjects {k s c : ℕ} :
    .channel s c ∈ submoduleObjects nFcn nChan enabled k ↔ s = k ∧ c < nChan := by
  cases enabled <;>
    simp only [submoduleObjects, channelObjects, List.mem_cons, List.mem_flatMap, List.mem_map,
      List.mem_range'_1, reduceCtorEq, false_or, if_true, if_false, SysfsObject.channel.injEq,
      and_false, exists_false, or_false, Bool.false_eq_true, List.not_mem_nil]
  all_goals
    constructor
    · rintro ⟨c', hc', rfl, rfl⟩
      exact ⟨rfl, by omega⟩
    · rintro ⟨rfl, hc⟩
      exact ⟨c, by omega, rfl, rfl⟩

@[simp] theorem fcn_mem_channelObjects {k i s c f : ℕ} :
    .fcn s c f ∈ channelObjects nFcn enabled k i ↔
      s = k ∧ c = i ∧ enabled = true ∧ f < nFcn := by
  cases enabled with
  | false => simp [channelObjects]
  | true =>
    simp [channelObjects]
    constructor
    · rintro ⟨hf, rfl, rfl⟩
      exact ⟨rfl, rfl, hf⟩
    · rintro ⟨rfl, rfl, hf⟩
      exact ⟨hf, rfl, rfl⟩

@[simp] theorem fcn_mem_submoduleObjects {k s c f : ℕ} :
    .fcn s c f ∈ submoduleObjects nFcn nChan enabled k ↔
      s = k ∧ c < nChan ∧ enabled = true ∧ f < nFcn := by
  simp only [submoduleObjects, List.mem_cons, List.mem_flatMap, fcn_mem_channelObjects,
    List.mem_range'_1, reduceCtorEq, false_or]
  constructor
  · rintro ⟨c', hc', rfl, rfl, henabled, hf⟩
    exact ⟨rfl, by omega, henabled, hf⟩
  · rintro ⟨rfl, hc, henabled, hf⟩
    exact ⟨c, by omega, rfl, rfl, henabled, hf⟩

theorem stepDown_nat (m : ℕ) : stepDown m = m :: stepDown ((m : ℤ) - 1) := by
  rw [stepDown, stepDown, show ((m : ℤ) + 1).toNat = m + 1 by omega,
    show ((m : ℤ) - 1 + 1).toNat = m by omega, List.range_succ, List.reverse_append]
  rfl

theorem stepDown_neg : stepDown (-1) = [] := rfl

theorem channel_mem_removeChannels {s k c : ℕ} {fcnIdx : ℤ} {cs : List ℕ} :
    .channel k c ∈ removeChannels nFcn enabled s fcnIdx cs ↔ k = s ∧ c ∈ cs := by
  induction cs generalizing fcnIdx with
  | nil => simp [removeChannels]
  | cons d ds ih =>
    have hfcns : .channel k c ∉ (if enabled then (stepDown fcnIdx).map (SysfsObject.fcn s d) else
        []) := by
      split <;> simp
    simp only [removeChannels, List.mem_append, hfcns, false_or, List.mem_cons, ih,
      SysfsObject.channel.injEq]
    tauto

theorem first_channels_left {submodule : ℕ} (hsub : submodule ≠ 0) (m : ℕ)
    {channelIdx fcnIdx : ℤ} {c : ℕ} :
    .channel 0 c ∉
      removeSubmodules nFcn nChan enabled submodule channelIdx fcnIdx (stepDown m) := by
  induction m generalizing submodule channelIdx fcnIdx with
  | zero =>
    rw [stepDown_nat, removeSubmodules]
    simp [channel_mem_removeChannels, hsub.symm, stepDown_neg, removeSubmodules]
  | succ m ih =>
    rw [stepDown_nat, removeSubmodules, show ((m + 1 : ℕ) : ℤ) - 1 = m by push_cast; ring]
    have hrest : .channel 0 c ∉ removeSubmodules nFcn nChan enabled (m + 1) (nChan - 1)
        (fcnIdxAfter nFcn enabled fcnIdx (stepDown channelIdx)) (stepDown m) :=
      ih (Nat.succ_ne_zero m)
    simp [channel_mem_removeChannels, hsub.symm, hrest]

end Members

/-! ### The way back from each place -/

section Places

variable {nSub nChan nFcn : ℕ} {enabled : Bool}

theorem channelOk_of_submodule {k s c : ℕ} :
    ChannelOk nFcn enabled (some (.submodule k)) s c := by
  simp [ChannelOk]

theorem addAttributes_ok {failing : Option SysfsObject}
    (h : ∀ s < nSub, SubmoduleOk nFcn nChan enabled failing s) :
    (addAttributes nSub nChan nFcn enabled failing).AllOrNothing := by
  obtain ⟨b, hrun, -⟩ := addSubmodules_skip nFcn nChan enabled failing 0 nSub 0 {} fun s _ hs => h s (by omega)
  rw [Nat.add_zero, addSubmodules] at hrun
  refine Outcome.allOrNothing_of_success ?_
  rw [addAttributes, hrun]

theorem addAttributes_submodule {k : ℕ} (hk : k < nSub) :
    (addAttributes nSub nChan nFcn enabled (some (.submodule k))).AllOrNothing ↔ k = 0 := by
  obtain ⟨m, rfl⟩ := Nat.exists_eq_add_of_lt hk
  obtain ⟨b, hrun, hchan, hzero, hreg⟩ := addSubmodules_skip nFcn nChan enabled
    (some (.submodule k)) (m + 1) k 0 {} fun s _ hs =>
      ⟨by simp; omega, fun _ _ => channelOk_of_submodule⟩
  rw [Nat.zero_add, addSubmodules, if_pos rfl] at hrun
  rw [addAttributes, show k + m + 1 = k + (m + 1) by omega, hrun]
  dsimp only
  constructor
  · intro hall
    by_contra hpos
    refine absurd hall (Outcome.not_allOrNothing_of_foreign (x := .channel k nChan) rfl ?_ ?_)
    · dsimp only
      obtain ⟨k, rfl⟩ := Nat.exists_eq_succ_of_ne_zero hpos
      rw [show ((k.succ : ℕ) : ℤ) - 1 = k by push_cast; ring, stepDown_nat, removeSubmodules,
        hchan (Nat.succ_pos k)]
      simp [channel_mem_removeChannels]
    · dsimp only
      rw [hreg]
      simp
  · rintro rfl
    rw [hzero rfl]
    exact Outcome.allOrNothing_of_perm (List.Perm.refl _) List.nodup_nil

theorem removeChannels_bare (s : ℕ) (fcnIdx : ℤ) (c : ℕ) :
    removeChannels nFcn false s fcnIdx (stepDown ((c : ℤ) - 1)) =
      ((List.range' 0 c).map (SysfsObject.channel s)).reverse := by
  rw [← List.map_reverse, ← List.range_eq_range']
  have hrange : stepDown ((c : ℤ) - 1) = (List.range c).reverse := by
    rw [stepDown, show ((c : ℤ) - 1 + 1).toNat = c by omega]
  rw [hrange]
  generalize (List.range c).reverse = cs
  induction cs generalizing fcnIdx with
  | nil => rfl
  | cons d ds ih => simp [removeChannels, ih]

theorem addAttributes_channel {k c : ℕ} (hk : k < nSub) (hc : c < nChan) :
    (addAttributes nSub nChan nFcn enabled (some (.channel k c))).AllOrNothing ↔
      k = 0 ∧ (enabled = false ∨ c = 0) := by
  obtain ⟨m, rfl⟩ := Nat.exists_eq_add_of_lt hk
  obtain ⟨l, rfl⟩ := Nat.exists_eq_add_of_lt hc
  obtain ⟨b, hrun, -, hzero, hreg⟩ := addSubmodules_skip nFcn (c + l + 1) enabled
    (some (.channel k c)) (m + 1) k 0 {} fun s _ hs =>
      ⟨by simp, fun d _ => ⟨by simp; omega, by simp⟩⟩
  have hskip := addChannels_skip nFcn enabled (some (.channel k c)) k (l + 1) c 0
    { b with submodule := k, registered := b.registered ++ [.submodule k] }
    fun d _ hd => ⟨by simp; omega, by simp⟩
  rw [Nat.zero_add, addSubmodules, if_neg (by simp)] at hrun
  rw [Nat.zero_add, addChannels, if_pos rfl] at hskip
  dsimp only at hrun
  rw [show c + l + 1 = c + (l + 1) by omega] at hrun hreg ⊢
  rw [hskip] at hrun
  rw [addAttributes, show k + m + 1 = k + (m + 1) by omega, hrun]
  dsimp only
  rw [hreg]
  constructor
  · intro hall
    have hk0 : k = 0 := by
      by_contra hpos
      refine absurd hall (Outcome.not_allOrNothing_of_left (x := .channel 0 0) rfl ?_ ?_)
      · dsimp only
        simp only [List.nil_append, List.append_assoc, List.mem_append, List.mem_flatMap]
        exact .inl ⟨0, by simp; omega, by simp⟩
      · exact first_channels_left hpos k
    refine ⟨hk0, ?_⟩
    by_contra hno
    push Not at hno
    obtain ⟨henabled, hpos⟩ := hno
    have henabled : enabled = true := by simpa using henabled
    refine absurd hall (Outcome.not_allOrNothing_of_foreign (x := .fcn k (c - 1) nFcn) rfl ?_ ?_)
    · dsimp only
      obtain ⟨c, rfl⟩ := Nat.exists_eq_succ_of_ne_zero hpos
      rw [stepDown_nat, show ((c.succ : ℕ) : ℤ) - 1 = c by push_cast; ring, removeSubmodules,
        stepDown_nat, removeChannels]
      simp [henabled]
    · simp
  · rintro ⟨rfl, hbare⟩
    rw [hzero rfl]
    have hrel : removeSubmodules nFcn (c + (l + 1)) enabled 0 ((c : ℤ) - 1)
        (if enabled = true ∧ 0 < c then (nFcn : ℤ) else 0) (stepDown (0 : ℕ)) =
        ((List.range' 0 c).map (SysfsObject.channel 0)).reverse ++ [.submodule 0] := by
      rw [stepDown_nat, Nat.cast_zero, zero_sub, stepDown_neg, removeSubmodules, removeSubmodules]
      rcases hbare with rfl | rfl
      · rw [removeChannels_bare]
      · rfl
    have hacq : (List.range' 0 c).flatMap (channelObjects nFcn enabled 0) =
        (List.range' 0 c).map (SysfsObject.channel 0) := by
      rcases hbare with rfl | rfl
      · have hbare : channelObjects nFcn false 0 = fun d => [.channel 0 d] := by
          funext d
          simp [channelObjects]
        rw [hbare, ← List.map_eq_flatMap]
      · rfl
    refine Outcome.allOrNothing_of_perm ?_ ?_
    · dsimp only
      rw [hrel, hacq]
      exact List.perm_append_comm.trans (List.Perm.append_left _ (List.reverse_perm _))
    · dsimp only
      rw [hacq]
      refine List.nodup_cons.2 ⟨by simp, List.Nodup.map ?_ (List.nodup_range' 1 one_pos)⟩
      intro d e hde
      cases hde
      rfl

theorem addAttributes_fcn {k c f : ℕ} (hk : k < nSub) (hc : c < nChan) (hf : f < nFcn) :
    ¬ (addAttributes nSub nChan nFcn true (some (.fcn k c f))).AllOrNothing := by
  obtain ⟨m, rfl⟩ := Nat.exists_eq_add_of_lt hk
  obtain ⟨l, rfl⟩ := Nat.exists_eq_add_of_lt hc
  obtain ⟨r, rfl⟩ := Nat.exists_eq_add_of_lt hf
  obtain ⟨b, hrun, -, -, hreg⟩ := addSubmodules_skip (f + r + 1) (c + l + 1) true
    (some (.fcn k c f)) (m + 1) k 0 {} fun s _ hs =>
      ⟨by simp, fun d _ => ⟨by simp, fun _ g _ => by simp; omega⟩⟩
  have hchan := addChannels_skip (f + r + 1) true (some (.fcn k c f)) k (l + 1) c 0
    { b with submodule := k, registered := b.registered ++ [.submodule k] }
    fun d _ hd => ⟨by simp, fun _ g _ => by simp; omega⟩
  have hfcn (a : AddAttributes) := addFcns_skip (some (.fcn k c f)) k c (r + 1) f 0 a fun g _ hg => by simp; omega
  rw [Nat.zero_add, addSubmodules, if_neg (by simp)] at hrun
  rw [Nat.zero_add, addChannels, if_neg (by simp), if_pos rfl] at hchan
  dsimp only at hrun hchan
  rw [show f + r + 1 = f + (r + 1) by omega] at hrun hchan hreg ⊢
  rw [hfcn, Nat.zero_add, addFcns, if_pos rfl] at hchan
  rw [show c + l + 1 = c + (l + 1) by omega] at hrun hreg ⊢
  rw [hchan] at hrun
  rw [addAttributes, show k + m + 1 = k + (m + 1) by omega, hrun]
  refine Outcome.not_allOrNothing_of_foreign (x := .fcn k c f) rfl ?_ ?_
  · dsimp only
    rw [stepDown_nat, removeSubmodules, stepDown_nat, removeChannels]
    simp
  · dsimp only
    rw [hreg]
    simp

/-- The registrations that are tried. -/
def Reached (nSub nChan nFcn : ℕ) (enabled : Bool) : SysfsObject → Prop
  | .submodule s => s < nSub
  | .channel s c => s < nSub ∧ c < nChan
  | .fcn s c f => enabled = true ∧ s < nSub ∧ c < nChan ∧ f < nFcn

/-- The places from which the way back is right. -/
def WayBack (enabled : Bool) : SysfsObject → Prop
  | .submodule s => s = 0
  | .channel s c => s = 0 ∧ (enabled = false ∨ c = 0)
  | .fcn _ _ _ => False

theorem addAttributes_clean_iff (failing : Option SysfsObject) :
    (addAttributes nSub nChan nFcn enabled failing).AllOrNothing ↔
      ∀ x, failing = some x → Reached nSub nChan nFcn enabled x → WayBack enabled x := by
  by_cases hreached : ∃ x, failing = some x ∧ Reached nSub nChan nFcn enabled x
  · obtain ⟨x, rfl, hx⟩ := hreached
    have hone : (∀ y, some x = some y → Reached nSub nChan nFcn enabled y → WayBack enabled y) ↔
        WayBack enabled x := by
      constructor
      · exact fun h => h x rfl hx
      · rintro h y hy -
        cases hy
        exact h
    rw [hone]
    cases x with
    | submodule s => exact addAttributes_submodule hx
    | channel s c => exact addAttributes_channel hx.1 hx.2
    | fcn s c f =>
      obtain ⟨henabled, hs, hc, hf⟩ := hx
      rw [henabled]
      exact iff_of_false (addAttributes_fcn hs hc hf) not_false
  · have hno (x : SysfsObject) (hx : Reached nSub nChan nFcn enabled x) : failing ≠ some x :=
      fun h => hreached ⟨x, h, hx⟩
    refine iff_of_true (addAttributes_ok fun s hs => ⟨hno _ hs, fun c hc => ⟨hno _ ⟨hs, hc⟩, ?_⟩⟩) ?_
    · exact fun henabled f hf => hno _ ⟨henabled, hs, hc, hf⟩
    · exact fun x hx hr => absurd hx (hno x hr)

end Places

/-! ### The attributes of the functions -/

/-- The array `cvorb_fcn_bin_attrs`, its elements and their names. -/
inductive AttrBlock where
  | attrs
  | attr (fcnIdx : ℤ)
  | name (fcnIdx : ℤ)
deriving DecidableEq

/-- `n` attributes from `fcnIdx` on.  Where one fails: the index, what is freed at once, and what
has been allocated. -/
def allocAttrs (failing : Option AttrBlock) :
    ℕ → ℕ → List AttrBlock → Except (ℕ × List AttrBlock × List AttrBlock) (List AttrBlock)
  | 0, _, acquired => .ok acquired
  | n + 1, fcnIdx, acquired =>
    if failing = some (.attr fcnIdx) then .error (fcnIdx, [], acquired)
    else
      let acquired := acquired ++ [.attr fcnIdx]
      if failing = some (.name fcnIdx) then .error (fcnIdx, [.attr fcnIdx], acquired)
      else allocAttrs failing n (fcnIdx + 1) (acquired ++ [.name fcnIdx])

/-- `while (--fcnIdx)` -/
def freeAttrs : ℕ → ℤ → Option (List AttrBlock)
  | 0, _ => none
  | fuel + 1, fcnIdx =>
    if fcnIdx - 1 = 0 then some []
    else
      match freeAttrs fuel (fcnIdx - 1) with
      | none => none
      | some freed => some (.name (fcnIdx - 1) :: .attr (fcnIdx - 1) :: freed)

/-- `cvorb_sysfs_init_module` -/
def sysfsInitModule (pageSize nFcn : ℕ) (failing : Option AttrBlock) (fuel : ℕ) :
    Option (Outcome AttrBlock) :=
  if pageSize < CVORB_FCN_MAX_BYTE_SIZE then some ⟨false, [], []⟩
  else if failing = some .attrs then some ⟨true, [], []⟩
  else
    match allocAttrs failing nFcn 0 [.attrs] with
    | .ok acquired => some ⟨false, acquired, []⟩
    | .error (fcnIdx, freed, acquired) =>
      match freeAttrs fuel fcnIdx with
      | none => none
      | some rest => some ⟨true, acquired, freed ++ rest ++ [.attrs]⟩

/-- The function returns, and everything or nothing is left. -/
def InitClean (pageSize nFcn : ℕ) (failing : Option AttrBlock) : Prop :=
  ∃ fuel o, sysfsInitModule pageSize nFcn failing fuel = some o ∧ o.AllOrNothing

/-- No allocation of an attribute fails. -/
def AttrsOk (nFcn : ℕ) (failing : Option AttrBlock) : Prop :=
  ∀ i : ℕ, i < nFcn → failing ≠ some (.attr i) ∧ failing ≠ some (.name i)

theorem first_attr_left {fuel : ℕ} {fcnIdx : ℤ} (hpos : 0 < fcnIdx) {freed : List AttrBlock}
    (h : freeAttrs fuel fcnIdx = some freed) : .name 0 ∉ freed := by
  induction fuel generalizing fcnIdx freed with
  | zero => cases h
  | succ fuel ih =>
    rw [freeAttrs] at h
    split at h
    · cases h
      exact List.not_mem_nil
    next hne =>
      cases hrest : freeAttrs fuel (fcnIdx - 1) with
      | none =>
        rw [hrest] at h
        cases h
      | some rest =>
        rw [hrest] at h
        cases h
        have hrest := ih (by omega) hrest
        simp [hrest]
        omega

theorem freeAttrs_zero {fuel : ℕ} {freed : List AttrBlock} (h : freeAttrs fuel 0 = some freed) :
    .name (-1) ∈ freed := by
  cases fuel with
  | zero => cases h
  | succ fuel =>
    rw [freeAttrs, if_neg (by omega)] at h
    cases hrest : freeAttrs fuel (0 - 1) with
    | none =>
      rw [hrest] at h
      cases h
    | some rest =>
      rw [hrest] at h
      cases h
      exact List.mem_cons_self

theorem allocAttrs_cases (failing : Option AttrBlock) (n fcnIdx : ℕ) (acquired : List AttrBlock)
    (hfirst : 0 < fcnIdx → .name 0 ∈ acquired) (hnone : .name (-1) ∉ acquired) :
    (∃ acq, allocAttrs failing n fcnIdx acquired = .ok acq ∧
        ∀ i, fcnIdx ≤ i → i < fcnIdx + n →
          failing ≠ some (.attr (i : ℕ)) ∧ failing ≠ some (.name (i : ℕ))) ∨
      ∃ i freed acq, allocAttrs failing n fcnIdx acquired = .error (i, freed, acq) ∧
        fcnIdx ≤ i ∧ i < fcnIdx + n ∧
        (failing = some (.attr (i : ℕ)) ∨ failing = some (.name (i : ℕ))) ∧
        (0 < i → .name 0 ∈ acq) ∧ .name (-1) ∉ acq ∧ .name 0 ∉ freed := by
  induction n generalizing fcnIdx acquired with
  | zero => exact .inl ⟨acquired, rfl, fun i hle hlt => absurd hlt (by omega)⟩
  | succ n ih =>
    rw [allocAttrs]
    split
    next hattr =>
      exact .inr ⟨fcnIdx, [], acquired, rfl, le_rfl, by omega, .inl hattr, hfirst, hnone,
        List.not_mem_nil⟩
    next hattr =>
      dsimp only
      split
      next hname =>
        exact .inr ⟨fcnIdx, _, _, rfl, le_rfl, by omega, .inr hname,
          fun hpos => by simp [hfirst hpos], by simp [hnone], by simp⟩
      next hname =>
        have hfirst' : 0 < fcnIdx + 1 →
            .name 0 ∈ acquired ++ [.attr fcnIdx] ++ [AttrBlock.name fcnIdx] := by
          intro _
          rcases Nat.eq_zero_or_pos fcnIdx with hz | hpos
          · simp [hz]
          · simp [hfirst hpos]
        have hnone' : .name (-1) ∉ acquired ++ [.attr fcnIdx] ++ [AttrBlock.name fcnIdx] := by
          simp [hnone]
        rcases ih (fcnIdx + 1) _ hfirst' hnone' with
          ⟨acq, hrun, hok⟩ | ⟨i, freed, acq, hrun, hle, hlt, hrest⟩
        · refine .inl ⟨acq, hrun, fun i hle hlt => ?_⟩
          rcases Nat.eq_or_lt_of_le hle with rfl | hlt'
          · exact ⟨hattr, hname⟩
          · exact hok i hlt' (by omega)
        · exact .inr ⟨i, freed, acq, hrun, by omega, by omega, hrest⟩

theorem initModule_clean_iff (pageSize nFcn : ℕ) (failing : Option AttrBlock) :
    InitClean pageSize nFcn failing ↔
      pageSize < CVORB_FCN_MAX_BYTE_SIZE ∨ AttrsOk nFcn failing := by
  by_cases hpage : pageSize < CVORB_FCN_MAX_BYTE_SIZE
  · refine iff_of_true ⟨0, ⟨false, [], []⟩, ?_, Outcome.allOrNothing_of_success rfl⟩ (.inl hpage)
    rw [sysfsInitModule, if_pos hpage]
  by_cases harray : failing = some .attrs
  · refine iff_of_true ⟨0, ⟨true, [], []⟩, ?_,
      Outcome.allOrNothing_of_perm (List.Perm.refl _) List.nodup_nil⟩ (.inr fun i _ => ?_)
    · rw [sysfsInitModule, if_neg hpage, if_pos harray]
    · rw [harray]
      simp
  have hrun (fuel : ℕ) : sysfsInitModule pageSize nFcn failing fuel =
      match allocAttrs failing nFcn 0 [.attrs] with
      | .ok acquired => some ⟨false, acquired, []⟩
      | .error (fcnIdx, freed, acquired) =>
        match freeAttrs fuel fcnIdx with
        | none => none
        | some rest => some ⟨true, acquired, freed ++ rest ++ [.attrs]⟩ := by
    rw [sysfsInitModule, if_neg hpage, if_neg harray]
  rcases allocAttrs_cases failing nFcn 0 [.attrs] (fun h => absurd h (lt_irrefl 0)) (by simp) with
    ⟨acq, halloc, hok⟩ | ⟨i, freed, acq, halloc, -, hlt, hfail, hfirst, hnone, hfreed⟩
  · refine iff_of_true ⟨0, ⟨false, acq, []⟩, ?_, Outcome.allOrNothing_of_success rfl⟩ (.inr ?_)
    · rw [hrun, halloc]
    · exact fun i hi => hok i (Nat.zero_le i) (by omega)
  · refine iff_of_false ?_ ?_
    · rintro ⟨fuel, o, ho, hall⟩
      rw [hrun, halloc] at ho
      dsimp only at ho
      cases hrest : freeAttrs fuel i with
      | none =>
        rw [hrest] at ho
        cases ho
      | some rest =>
        rw [hrest] at ho
        cases ho
        revert hall
        rcases Nat.eq_zero_or_pos i with rfl | hpos
        · refine Outcome.not_allOrNothing_of_foreign (x := .name (-1)) rfl ?_ hnone
          exact List.mem_append_left _ (List.mem_append_right _ (freeAttrs_zero hrest))
        · refine Outcome.not_allOrNothing_of_left (x := .name 0) rfl (hfirst hpos) ?_
          simp [hfreed, first_attr_left (Int.natCast_pos.2 hpos) hrest]
    · rintro (h | h)
      · exact hpage h
      · rcases hfail with hf | hf
        · exact (h i (by omega)).1 hf
        · exact (h i (by omega)).2 hf

/-! ### Both -/

/-- For every number of submodules, channels and functions, and every first failure. -/
theorem sysfs_clean_iff (nSub nChan nFcn : ℕ) (enabled : Bool) (failing : Option SysfsObject)
    (pageSize : ℕ) (failingBlock : Option AttrBlock) :
    ((addAttributes nSub nChan nFcn enabled failing).AllOrNothing ↔
        ∀ x, failing = some x → Reached nSub nChan nFcn enabled x → WayBack enabled x) ∧
      (InitClean pageSize nFcn failingBlock ↔
        pageSize < CVORB_FCN_MAX_BYTE_SIZE ∨ AttrsOk nFcn failingBlock) :=
  ⟨addAttributes_clean_iff failing, initModule_clean_iff pageSize nFcn failingBlock⟩

/-- With two channels and one file each, the second channel goes back over a second file. -/
theorem second_channel_unclean :
    ¬ ∀ (nSub nChan nFcn : ℕ) (enabled : Bool) (failing : Option SysfsObject),
      (addAttributes nSub nChan nFcn enabled failing).AllOrNothing := by
  intro h
  have hcount := h 1 2 1 true (some (.channel 0 1)) rfl (.fcn 0 0 1)
  revert hcount
  decide

end KernelModules.Cvorb
