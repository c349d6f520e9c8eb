import Mathlib.Tactic
import KernelModules.Lib.Rollback

/-!
# Start and stop of the VMOD-TTL driver

The driver takes its boards from its parameters, makes a device for each of them and has the
carrier of each call its interrupt routine.  It keeps the devices in an array by their logical unit
numbers, and goes through this array when it gives up and when it stops.

* `start_clean_iff`: giving up is right as long as nothing has to be given back; the loop that
  would give back the devices has `k < k` for a condition, and a failed allocation skips even that;
* `stop_clean_iff`: stopping goes by the number of boards, and finds the devices with smaller unit
  numbers only;
* `start_stop_iff` is both, for unit numbers that differ and fit the array.

A device is named by its place among the parameters.  The carrier that is told to call no one does
so.
-/

namespace KernelModules.Vmod

open Function KernelModules.Lib

def VMOD_MAX_BOARDS : ℕ := 64

def VMODTTL_MAX_BOARDS : ℕ := 64

/-- The numbers and the character device of the driver, and for each board its device and the
callback of its carrier. -/
inductive TtlResource where
  | region
  | cdev
  | device (i : ℕ)
  | isr (i : ℕ)
deriving DecidableEq

/-- What can fail, with the place of a board. -/
inductive TtlFailure where
  | params (i : ℕ)
  | region
  | cdev
  | device (i : ℕ)
  | isr (i : ℕ)
deriving DecidableEq

/-- `pvmodttlDv`, with the device of each unit number, and what has been acquired. -/
structure TtlStart where
  pvmodttlDv : ℕ → Option ℕ
  acquired : List TtlResource

/-- `unregister_module_isr` and `kfree`, where there is a device. -/
def dropDevice (pvmodttlDv : ℕ → Option ℕ) (k : ℕ) : List TtlResource :=
  match pvmodttlDv k with
  | none => []
  | some i => [.isr i, .device i]

/-- `fail_messages`: `for (k = 0; k < k; k++)`. -/
def failMessages (pvmodttlDv : ℕ → Option ℕ) : List TtlResource :=
  ((List.range VMODTTL_MAX_BOARDS).takeWhile fun k => decide (k < k)).flatMap
    (dropDevice pvmodttlDv)

/-- The loop of `vmodttl_init` over the boards, from place `i` on.  Where it is left: what the jump
passes on its way to `fail_pd`. -/
def initDevices (failing : Option TtlFailure) :
    List ℕ → ℕ → TtlStart → Except (List TtlResource × TtlStart) TtlStart
  | [], _, s => .ok s
  | lun :: luns, i, s =>
    if failing = some (.device i) then .error ([], s)
    else
      let s := { pvmodttlDv := update s.pvmodttlDv lun (some i),
                 acquired := s.acquired ++ [.device i] }
      if failing = some (.isr i) then .error (failMessages s.pvmodttlDv, s)
      else initDevices failing luns (i + 1) { s with acquired := s.acquired ++ [.isr i] }

/-- `read_params` finds fewer unit numbers than there is room for, and each board on its carrier. -/
def paramsOk (failing : Option TtlFailure) (luns : List ℕ) : Prop :=
  luns.length < VMOD_MAX_BOARDS ∧ ∀ i < luns.length, failing ≠ some (.params i)

instance (failing : Option TtlFailure) (luns : List ℕ) : Decidable (paramsOk failing luns) :=
  inferInstanceAs (Decidable (_ ∧ _))

/-- `vmodttl_init`, and the array that it leaves. -/
def vmodttlInit (failing : Option TtlFailure) (luns : List ℕ) :
    Outcome TtlResource × (ℕ → Option ℕ) :=
  if ¬ paramsOk failing luns then (⟨true, [], []⟩, fun _ => none)
  else if failing = some .region then (⟨true, [], []⟩, fun _ => none)
  else if failing = some .cdev then (⟨true, [.region], [.region]⟩, fun _ => none)
  else
    match initDevices failing luns 0 ⟨fun _ => none, [.region, .cdev]⟩ with
    | .ok s => (⟨false, s.acquired, []⟩, s.pvmodttlDv)
    | .error (dropped, s) => (⟨true, s.acquired, dropped ++ [.cdev, .region]⟩, s.pvmodttlDv)

/-- `vmodttl_exit` -/
def vmodttlExit (pvmodttlDv : ℕ → Option ℕ) (numModules : ℕ) : List TtlResource :=
  (List.range numModules).flatMap (dropDevice pvmodttlDv) ++ [.cdev, .region]

/-! ### The loop over the boards -/

theorem failMessages_eq (pvmodttlDv : ℕ → Option ℕ) : failMessages pvmodttlDv = [] := by
  simp [failMessages, VMODTTL_MAX_BOARDS, List.range_succ_eq_map]

def boardResources (i : ℕ) : List TtlResource := [.device i, .isr i]

theorem initDevices_skip (failing : Option TtlFailure) (rest : List ℕ) (luns : List ℕ) (i : ℕ)
    (s : TtlStart)
    (h : ∀ k, i ≤ k → k < i + luns.length →
      failing ≠ some (.device k) ∧ failing ≠ some (.isr k)) :
    ∃ dv, initDevices failing (luns ++ rest) i s =
        initDevices failing rest (i + luns.length)
          ⟨dv, s.acquired ++ (List.range' i luns.length).flatMap boardResources⟩ ∧
      (∀ k ∉ luns, dv k = s.pvmodttlDv k) ∧
      (luns.Nodup → ∀ j (hj : j < luns.length), dv luns[j] = some (i + j)) := by
  induction luns generalizing i s with
  | nil => exact ⟨s.pvmodttlDv, by simp, fun _ _ => rfl, fun _ j hj => absurd hj (by simp)⟩
  | cons lun luns ih =>
    have hi := h i le_rfl (by simp)
    obtain ⟨dv, hrun, hold, hnew⟩ := ih (i + 1)
      ⟨update s.pvmodttlDv lun (some i), s.acquired ++ [.device i] ++ [.isr i]⟩
      fun k hle hlt => h k (by omega) (by rw [List.length_cons]; omega)
    refine ⟨dv, ?_, fun k hk => ?_, fun hnodup j hj => ?_⟩
    · rw [List.cons_append, initDevices, if_neg hi.1]
      dsimp only
      rw [if_neg hi.2, hrun, List.length_cons, List.range'_succ, List.flatMap_cons,
        show i + 1 + luns.length = i + (luns.length + 1) by omega]
      simp [boardResources]
    · rw [List.mem_cons, not_or] at hk
      exact (hold k hk.2).trans (update_of_ne hk.1 _ _)
    · rw [List.nodup_cons] at hnodup
      cases j with
      | zero =>
        exact (hold lun hnodup.1).trans (update_self _ _ _)
      | succ j =>
        rw [List.getElem_cons_succ, hnew hnodup.2 j (by simpa using hj)]
        congr 1
        omega

/-! ### Giving up -/

/-- Nothing fails. -/
def Starts (failing : Option TtlFailure) (luns : List ℕ) : Prop :=
  paramsOk failing luns ∧ failing ≠ some .region ∧ failing ≠ some .cdev ∧
    ∀ i < luns.length, failing ≠ some (.device i) ∧ failing ≠ some (.isr i)

section Start

variable {failing : Option TtlFailure} {luns : List ℕ}

theorem vmodttlInit_of_params (hparams : paramsOk failing luns) (hregion : failing ≠ some .region)
    (hcdev : failing ≠ some .cdev) :
    vmodttlInit failing luns =
      match initDevices failing luns 0 ⟨fun _ => none, [.region, .cdev]⟩ with
      | .ok s => (⟨false, s.acquired, []⟩, s.pvmodttlDv)
      | .error (dropped, s) =>
        (⟨true, s.acquired, dropped ++ [.cdev, .region]⟩, s.pvmodttlDv) := by
  rw [vmodttlInit, if_neg (not_not.2 hparams), if_neg hregion, if_neg hcdev]

theorem vmodttlInit_starts (h : Starts failing luns) :
    ∃ dv, vmodttlInit failing luns =
        (⟨false, [.region, .cdev] ++ (List.range' 0 luns.length).flatMap boardResources, []⟩, dv) ∧
      (∀ k ∉ luns, dv k = none) ∧
      (luns.Nodup → ∀ j (hj : j < luns.length), dv luns[j] = some j) := by
  obtain ⟨hparams, hregion, hcdev, hboards⟩ := h
  obtain ⟨dv, hrun, hold, hnew⟩ := initDevices_skip failing [] luns 0
    ⟨fun _ => none, [.region, .cdev]⟩ fun k _ hk => hboards k (by omega)
  rw [List.append_nil, initDevices] at hrun
  refine ⟨dv, ?_, hold, fun hnodup j hj => by rw [hnew hnodup j hj, Nat.zero_add]⟩
  rw [vmodttlInit_of_params hparams hregion hcdev, hrun]

theorem vmodttlInit_device {i : ℕ} (hi : i < luns.length) (hmax : luns.length < VMOD_MAX_BOARDS) :
    (vmodttlInit (some (.device i)) luns).1.AllOrNothing ↔ i = 0 := by
  obtain ⟨dv, hrun, -, -⟩ := initDevices_skip (some (.device i)) (luns.drop i)
    (luns.take i) 0 ⟨fun _ => none, [.region, .cdev]⟩ fun k _ hk => by
      rw [List.length_take] at hk
      simp
      omega
  have hlen : (luns.take i).length = i := by
    rw [List.length_take]
    omega
  rw [List.take_append_drop, hlen, List.drop_eq_getElem_cons hi, Nat.zero_add, initDevices,
    if_pos rfl] at hrun
  rw [vmodttlInit_of_params ⟨hmax, by simp⟩ (by simp) (by simp), hrun]
  constructor
  · intro hall
    by_contra hpos
    refine absurd hall (Outcome.not_allOrNothing_of_left (x := .device 0) rfl ?_ (by simp))
    simp only [List.mem_append, List.mem_flatMap]
    exact .inr ⟨0, by simp; omega, by simp [boardResources]⟩
  · rintro rfl
    exact Outcome.allOrNothing_of_perm (List.Perm.swap _ _ _) (by simp)

theorem vmodttlInit_isr {i : ℕ} (hi : i < luns.length) (hmax : luns.length < VMOD_MAX_BOARDS) :
    ¬ (vmodttlInit (some (.isr i)) luns).1.AllOrNothing := by
  obtain ⟨dv, hrun, -, -⟩ := initDevices_skip (some (.isr i)) (luns.drop i)
    (luns.take i) 0 ⟨fun _ => none, [.region, .cdev]⟩ fun k _ hk => by
      rw [List.length_take] at hk
      simp
      omega
  have hlen : (luns.take i).length = i := by
    rw [List.length_take]
    omega
  rw [List.take_append_drop, hlen, List.drop_eq_getElem_cons hi, Nat.zero_add, initDevices,
    if_neg (by simp)] at hrun
  dsimp only at hrun
  rw [if_pos rfl, failMessages_eq] at hrun
  rw [vmodttlInit_of_params ⟨hmax, by simp⟩ (by simp) (by simp), hrun]
  exact Outcome.not_allOrNothing_of_left (x := .device i) rfl (by simp) (by simp)

theorem start_clean_iff :
    (vmodttlInit failing luns).1.AllOrNothing ↔
      (paramsOk failing luns → ∀ i < luns.length,
        (failing = some (.device i) → i = 0) ∧ failing ≠ some (.isr i)) := by
  by_cases hparams : paramsOk failing luns
  · by_cases hstarts : Starts failing luns
    · obtain ⟨dv, hrun, -⟩ := vmodttlInit_starts hstarts
      rw [hrun]
      refine iff_of_true (Outcome.allOrNothing_of_success rfl) fun _ i hi => ⟨fun h => ?_, ?_⟩
      · exact absurd h (hstarts.2.2.2 i hi).1
      · exact (hstarts.2.2.2 i hi).2
    · -- what it is that fails
      cases failing with
      | none => exact absurd ⟨hparams, by simp, by simp, by simp⟩ hstarts
      | some x =>
        cases x with
        | params i =>
          refine absurd ⟨hparams, by simp, by simp, by simp⟩ hstarts
        | region =>
          rw [vmodttlInit, if_neg (not_not.2 hparams), if_pos rfl]
          exact iff_of_true (Outcome.allOrNothing_of_perm (List.Perm.refl _) List.nodup_nil)
            (by simp)
        | cdev =>
          rw [vmodttlInit, if_neg (not_not.2 hparams), if_neg (by simp), if_pos rfl]
          exact iff_of_true (Outcome.allOrNothing_of_perm (List.Perm.refl _) (by simp)) (by simp)
        | device i =>
          have hi : i < luns.length := by
            by_contra hge
            refine hstarts ⟨hparams, by simp, by simp, fun k hk => ⟨?_, by simp⟩⟩
            rintro ⟨⟩
            exact hge hk
          rw [vmodttlInit_device hi hparams.1]
          constructor
          · rintro rfl - k -
            exact ⟨fun h => by cases h; rfl, by simp⟩
          · exact fun h => (h hparams i hi).1 rfl
        | isr i =>
          have hi : i < luns.length := by
            by_contra hge
            refine hstarts ⟨hparams, by simp, by simp, fun k hk => ⟨by simp, ?_⟩⟩
            rintro ⟨⟩
            exact hge hk
          exact iff_of_false (vmodttlInit_isr hi hparams.1) fun h => (h hparams i hi).2 rfl
  · rw [vmodttlInit, if_pos hparams]
    exact iff_of_true (Outcome.allOrNothing_of_perm (List.Perm.refl _) List.nodup_nil)
      fun h => absurd h hparams

end Start

/-! ### Stopping -/

/-- What stopping gives back is what the driver has, each thing once. -/
def StopClean (failing : Option TtlFailure) (luns : List ℕ) : Prop :=
  (vmodttlInit failing luns).1.failed = false →
    Outcome.AllOrNothing ⟨true, (vmodttlInit failing luns).1.acquired,
      vmodttlExit (vmodttlInit failing luns).2 luns.length⟩

theorem initDevices_ok {failing : Option TtlFailure} {luns : List ℕ} {i : ℕ} {s s' : TtlStart}
    (h : initDevices failing luns i s = .ok s') (k : ℕ) (hle : i ≤ k) (hlt : k < i + luns.length) :
    failing ≠ some (.device k) ∧ failing ≠ some (.isr k) := by
  induction luns generalizing i s with
  | nil => exact absurd hlt (by simp; omega)
  | cons lun luns ih =>
    rw [List.length_cons] at hlt
    rw [initDevices] at h
    split at h
    · cases h
    next hdevice =>
      dsimp only at h
      split at h
      · cases h
      next hisr =>
        rcases Nat.eq_or_lt_of_le hle with rfl | hlater
        · exact ⟨hdevice, hisr⟩
        · exact ih h hlater (by omega)

theorem starts_of_success {failing : Option TtlFailure} {luns : List ℕ}
    (h : (vmodttlInit failing luns).1.failed = false) : Starts failing luns := by
  rw [vmodttlInit] at h
  split at h
  · cases h
  next hparams =>
    split at h
    · cases h
    next hregion =>
      split at h
      · cases h
      next hcdev =>
        cases hrun : initDevices failing luns 0 ⟨fun _ => none, [.region, .cdev]⟩ with
        | error e =>
          rw [hrun] at h
          cases h
        | ok s =>
          exact ⟨not_not.1 hparams, hregion, hcdev, fun i hi =>
            initDevices_ok hrun i (Nat.zero_le i) (by omega)⟩

theorem device_mem_dropDevice {dv : ℕ → Option ℕ} {k j : ℕ} :
    .device j ∈ dropDevice dv k ↔ dv k = some j := by
  rw [dropDevice]
  cases hk : dv k with
  | none => simp
  | some i => simp [eq_comm]

theorem range_perm {luns : List ℕ} (hnodup : luns.Nodup) (hall : ∀ l ∈ luns, l < luns.length) :
    (List.range luns.length).Perm luns := by
  have hsub : luns.Subperm (List.range luns.length) :=
    hnodup.subperm fun l hl => List.mem_range.2 (hall l hl)
  exact (hsub.perm_of_length_le (by simp)).symm

theorem dropDevices_eq {dv : ℕ → Option ℕ} {luns : List ℕ} {i : ℕ}
    (hdv : ∀ j (hj : j < luns.length), dv luns[j] = some (i + j)) :
    luns.flatMap (dropDevice dv) =
      (List.range' i luns.length).flatMap fun j => [.isr j, .device j] := by
  induction luns generalizing i with
  | nil => rfl
  | cons lun luns ih =>
    have hhead : dv lun = some i := hdv 0 (by simp)
    have htail (j : ℕ) (hj : j < luns.length) : dv luns[j] = some (i + 1 + j) := by
      have hnext := hdv (j + 1) (by simpa using hj)
      rw [List.getElem_cons_succ] at hnext
      rw [hnext, show i + (j + 1) = i + 1 + j by omega]
    rw [List.flatMap_cons, ih htail, List.length_cons, List.range'_succ, List.flatMap_cons,
      dropDevice, hhead]

theorem exit_perm {luns : List ℕ} {dv : ℕ → Option ℕ} (hnodup : luns.Nodup)
    (hall : ∀ l ∈ luns, l < luns.length)
    (hdv : ∀ j (hj : j < luns.length), dv luns[j] = some j) :
    (vmodttlExit dv luns.length).Perm
      ([.region, .cdev] ++ (List.range' 0 luns.length).flatMap boardResources) := by
  have hboards : luns.flatMap (dropDevice dv) =
      (List.range' 0 luns.length).flatMap fun j => [.isr j, .device j] :=
    dropDevices_eq fun j hj => by rw [hdv j hj, Nat.zero_add]
  have hboard (l : List ℕ) : (l.flatMap fun j => [TtlResource.isr j, .device j]).Perm
      (l.flatMap boardResources) := by
    induction l with
    | nil => exact List.Perm.refl _
    | cons j l ih => exact List.Perm.append (List.Perm.swap _ _ _) ih
  rw [vmodttlExit]
  refine List.perm_append_comm.trans (List.Perm.append (List.Perm.swap _ _ _) ?_)
  refine ((range_perm hnodup hall).flatMap_right _).trans ?_
  rw [hboards]
  exact hboard _

theorem resources_nodup (n : ℕ) :
    ([TtlResource.region, .cdev] ++ (List.range' 0 n).flatMap boardResources).Nodup := by
  have hboards : ((List.range' 0 n).flatMap boardResources).Nodup := by
    rw [List.nodup_flatMap]
    refine ⟨fun i _ => by simp [boardResources], (List.nodup_range' 1 one_pos).imp ?_⟩
    intro i j hij x hx
    simp only [boardResources, List.mem_cons, List.not_mem_nil, or_false] at hx ⊢
    rcases hx with rfl | rfl
    · simp [hij]
    · simp [hij]
  rw [List.nodup_append]
  refine ⟨by simp, hboards, fun a ha b hb hab => ?_⟩
  subst hab
  simp only [List.mem_flatMap, boardResources] at hb
  obtain ⟨j, -, hb⟩ := hb
  simp only [List.mem_cons, List.not_mem_nil, or_false] at ha hb
  rcases ha with rfl | rfl <;> simp at hb

theorem stop_clean_iff {failing : Option TtlFailure} {luns : List ℕ} (hnodup : luns.Nodup) :
    StopClean failing luns ↔ (Starts failing luns → ∀ l ∈ luns, l < luns.length) := by
  by_cases hstarts : Starts failing luns
  · obtain ⟨dv, hrun, hold, hnew⟩ := vmodttlInit_starts hstarts
    rw [StopClean, hrun]
    constructor
    · intro hclean _ l hl
      by_contra hge
      obtain ⟨j, hj, rfl⟩ := List.getElem_of_mem hl
      refine absurd (hclean rfl) (Outcome.not_allOrNothing_of_left (x := .device j) rfl ?_ ?_)
      · simp only [List.mem_append, List.mem_flatMap]
        exact .inr ⟨j, by simpa using hj, by simp [boardResources]⟩
      · intro hmem
        simp only [vmodttlExit, List.mem_append, List.mem_flatMap, device_mem_dropDevice,
          List.mem_range] at hmem
        obtain ⟨k, hk, hdv⟩ | hmem := hmem
        · by_cases hin : k ∈ luns
          · obtain ⟨i, hi, rfl⟩ := List.getElem_of_mem hin
            rw [hnew hnodup i hi] at hdv
            cases hdv
            exact hge hk
          · rw [hold k hin] at hdv
            cases hdv
        · simp at hmem
    · intro hall _
      exact Outcome.allOrNothing_of_perm (exit_perm hnodup (hall hstarts) (hnew hnodup))
        (resources_nodup _)
  · exact iff_of_true (fun h => absurd (starts_of_success h) hstarts) fun h => absurd h hstarts

/-! ### Both -/

/-- For all boards with unit numbers of their own that fit the array, and every first failure. -/
theorem start_stop_iff (failing : Option TtlFailure) (luns : List ℕ) (hnodup : luns.Nodup)
    (_hmax : ∀ l ∈ luns, l < VMODTTL_MAX_BOARDS) :
    (vmodttlInit failing luns).1.AllOrNothing ∧ StopClean failing luns ↔
      (paramsOk failing luns → ∀ i < luns.length,
        (failing = some (.device i) → i = 0) ∧ failing ≠ some (.isr i)) ∧
      (Starts failing luns → ∀ l ∈ luns, l < luns.length) :=
  and_congr start_clean_iff (stop_clean_iff hnodup)

/-- The boards 1 and 0, and nothing fails. -/
theorem start_stop_two :
    ([1, 0] : List ℕ).Nodup ∧ (∀ l ∈ ([1, 0] : List ℕ), l < VMODTTL_MAX_BOARDS) ∧
      ((vmodttlInit none [1, 0]).1.AllOrNothing ∧ StopClean none [1, 0]) :=
  ⟨by decide, by decide,
    (start_stop_iff none [1, 0] (by decide) (by decide)).2
      ⟨fun _ i _ => ⟨by simp, by simp⟩, fun _ => by decide⟩⟩

/-- The second carrier does not take its callback, and the first keeps on calling. -/
theorem second_board_leaves_first :
    ¬ ∀ (failing : Option TtlFailure) (luns : List ℕ), luns.Nodup →
      (∀ l ∈ luns, l < VMODTTL_MAX_BOARDS) → (vmodttlInit failing luns).1.AllOrNothing := by
  intro h
  have hleft := h (some (.isr 1)) [0, 1] (by decide) (by decide) (by decide) (.isr 0)
  revert hleft
  decide

end KernelModules.Vmod
