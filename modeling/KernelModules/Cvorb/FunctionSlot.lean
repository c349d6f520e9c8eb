import KernelModules.Cvorb.FunctionTable
import KernelModules.Lib.Transition

/-!
# Function slots of a CVORB card

The SRAM of a submodule has 4096 bytes for each function of each channel.  How much a load writes
is computed in the library from the number of vectors, and where it starts by shifts in the driver.

* `InSlot` are the bytes of a function, and `inSlot_unique` says that no byte has two;
* `setFcn_frame` is what one load writes, `getFcn_congr` what a read looks at;
* `slots_isolated` is the frame of a whole run of calls.

A table of a single element has no vectors, which `get_hw_fcn_size32` takes for as many as there
can be, one more than `cvorb_ch_set_fcn` accepts, and 4100 bytes go to the driver.  In one `write`
to sysfs only a page of these gets there.  With no element at all the count wraps.
-/

namespace KernelModules.Cvorb

open Function KernelModules.Lib

/-- The size of a slot in bytes. -/
def CVORB_FCN_MAX_BYTE_SIZE : ℕ := 4096

/-- The channel and function numbers that the library accepts. -/
def ValidNr (chnr fcnnr : ℕ) : Prop := (1 ≤ chnr ∧ chnr ≤ 16) ∧ 1 ≤ fcnnr ∧ fcnnr ≤ 64

instance (chnr fcnnr : ℕ) : Decidable (ValidNr chnr fcnnr) :=
  inferInstanceAs (Decidable ((1 ≤ chnr ∧ chnr ≤ 16) ∧ 1 ≤ fcnnr ∧ fcnnr ≤ 64))

/-- Byte `a` of submodule `s` is in the slot of the function. -/
def InSlot (chnr fcnnr s a : ℕ) : Prop :=
  s = submoduleNr chnr ∧ ramaddr (channelNr chnr) (fcnnr - 1) ≤ a ∧
    a < ramaddr (channelNr chnr) (fcnnr - 1) + CVORB_FCN_MAX_BYTE_SIZE

theorem ramaddr_eq {chnr fcnnr : ℕ} (h : ValidNr chnr fcnnr) :
    ramaddr (channelNr chnr) (fcnnr - 1) = channelNr chnr * 262144 + (fcnnr - 1) * 4096 := by
  obtain ⟨-, hfcnnr⟩ := h
  have hlow : (fcnnr - 1) * 2 ^ 12 < 2 ^ 18 := by omega
  rw [ramaddr, Nat.shiftLeft_eq, Nat.shiftLeft_eq, Nat.mul_comm (channelNr chnr),
    ← Nat.two_pow_add_eq_or_of_lt hlow]
  omega

theorem channelNr_lt {chnr fcnnr : ℕ} (h : ValidNr chnr fcnnr) : channelNr chnr < 8 := by
  obtain ⟨hchnr, -⟩ := h
  rw [channelNr]
  split <;> omega

theorem InSlot.numbers {chnr fcnnr s a : ℕ} (h : ValidNr chnr fcnnr) (ha : InSlot chnr fcnnr s a) :
    channelNr chnr = a / 262144 ∧ fcnnr - 1 = a % 262144 / 4096 := by
  obtain ⟨-, hlow, hhigh⟩ := ha
  have hbase := ramaddr_eq h
  have hchannel := channelNr_lt h
  obtain ⟨-, hfcnnr⟩ := h
  rw [CVORB_FCN_MAX_BYTE_SIZE] at hhigh
  constructor <;> omega

theorem inSlot_unique {chnr fcnnr chnr' fcnnr' s a : ℕ} (h : ValidNr chnr fcnnr)
    (h' : ValidNr chnr' fcnnr') (ha : InSlot chnr fcnnr s a) (ha' : InSlot chnr' fcnnr' s a) :
    chnr = chnr' ∧ fcnnr = fcnnr' := by
  obtain ⟨hchannel, hfcn⟩ := ha.numbers h
  obtain ⟨hchannel', hfcn'⟩ := ha'.numbers h'
  have hsub : submoduleNr chnr = submoduleNr chnr' := ha.1.symm.trans ha'.1
  rw [← hchannel'] at hchannel
  rw [← hfcn'] at hfcn
  obtain ⟨hchnr, hfcnnr⟩ := h
  obtain ⟨hchnr', hfcnnr'⟩ := h'
  refine ⟨?_, by omega⟩
  rw [submoduleNr, submoduleNr] at hsub
  rw [channelNr, channelNr] at hchannel
  split at hsub <;> split at hsub <;> simp_all <;> omega

/-! ### One call -/

theorem length_hwVectors {p : VectorFcn} {pts : List VectorFcn} {vs : List U16}
    (h : hwVectors p pts = .ok vs) : vs.length = pts.length * 3 := by
  induction pts generalizing p vs with
  | nil =>
    injection h with h
    rw [← h]
    rfl
  | cons p' pts ih =>
    rw [hwVectors] at h
    split at h
    · cases h
    · split at h
      · cases h
      · rename_i rest hrest
        injection h with h
        rw [← h]
        simp only [List.length_cons, ih hrest]
        omega

/-- A table that fits a slot: the count does not wrap, and a single element goes through sysfs or
is refused. -/
def TableFits (route : Route) (busy : Bool) (value : List VectorFcn) : Prop :=
  value ≠ [] ∧ (value.length = 1 → route = .sysfs ∨ busy = true)

theorem length_passed_le {route : Route} {v0 : VectorFcn} {pts : List VectorFcn} {vs : List U16}
    (hfits : TableFits route false (v0 :: pts)) (hmax : (v0 :: pts).length ≤ CVORB_MAX_VECTOR)
    (hvs : hwVectors v0 pts = .ok vs) :
    (route.passed (tableWords v0 pts.length vs)).length ≤ 1024 := by
  have hlen := length_hwVectors hvs
  simp only [List.length_cons] at hmax
  by_cases hone : pts.length = 0
  · obtain hroute | hbusy := hfits.2 (by simp only [List.length_cons]; omega)
    · subst hroute
      rw [Route.passed, List.length_take, pageSize]
      omega
    · cases hbusy
  · obtain ⟨hwords, hpassed⟩ := @passed_tableWords route v0 pts.length vs (by omega) (by omega) hlen
    have hmax' : pts.length + 1 ≤ 680 := hmax
    rw [hpassed, hwords, fcnSize32]
    split <;> omega

theorem setFcn_frame {route : Route} {busy : ℕ → Bool} {chnr fcnnr : ℕ} {value : List VectorFcn}
    (hfits : ValidNr chnr fcnnr → TableFits route (busy (submoduleNr chnr)) value) (b : Board) :
    ∃ r b', cvorbChSetFcn route busy chnr fcnnr value b = some (r, b') ∧
      ∀ s w, ¬(ValidNr chnr fcnnr ∧ InSlot chnr fcnnr s (4 * w)) →
        (b' s).sram w = (b s).sram w := by
  unfold cvorbChSetFcn
  split
  · exact ⟨_, _, rfl, fun _ _ _ => rfl⟩
  · rename_i hchecks
    have hvalid : ValidNr chnr fcnnr := by
      rw [ValidNr]
      omega
    match value, hfits hvalid with
    | [], hfits => exact absurd rfl hfits.1
    | v0 :: pts, hfits =>
      have hmax : (v0 :: pts).length ≤ CVORB_MAX_VECTOR := by omega
      cases hvs : hwVectors v0 pts with
      | error e => exact ⟨.error e, b, by simp only [hvs], fun _ _ _ => rfl⟩
      | ok vs =>
        cases hbusy : busy (submoduleNr chnr) with
        | true =>
          refine ⟨.error (.libc .EAGAIN), b, ?_, fun _ _ _ => rfl⟩
          simp [hvs, cvorbSetFcn, hbusy]
        | false =>
          rw [hbusy] at hfits
          have hlen := length_passed_le hfits hmax hvs
          refine ⟨.ok (), (cvorbSetFcn false (submoduleNr chnr) (channelNr chnr) (fcnnr - 1)
            (route.passed (tableWords v0 pts.length vs)) b).2, ?_, ?_⟩
          · simp [hvs, cvorbSetFcn, hbusy]
          · intro s w hout
            by_cases hs : s = submoduleNr chnr
            · subst hs
              rw [cvorbSetFcn_sram]
              have hbase := ramaddr_eq hvalid
              by_cases hlow : w < ramaddr (channelNr chnr) (fcnnr - 1) / 4
              · exact Packing.burst_of_lt hlow
              · apply Packing.burst_of_ge
                by_contra hin
                apply hout
                refine ⟨hvalid, rfl, ?_, ?_⟩
                · omega
                · rw [CVORB_FCN_MAX_BYTE_SIZE]
                  omega
            · rw [cvorbSetFcn, if_neg Bool.false_ne_true]
              simp [hs]

theorem cvorbGetFcn_congr {busy : Bool} {s c f : ℕ} {b b' : Board}
    (h : ∀ w, ramaddr c f / 4 ≤ w → w < ramaddr c f / 4 + 1024 → (b' s).sram w = (b s).sram w) :
    (cvorbGetFcn busy s c f b').1 = (cvorbGetFcn busy s c f b).1 := by
  cases busy with
  | true => rfl
  | false =>
    rw [cvorbGetFcn_fst, cvorbGetFcn_fst, h _ le_rfl (by omega)]
    split
    · rfl
    · rename_i hn
      rw [Packing.readOff_congr]
      intro w hlow hhigh
      apply h w hlow
      rw [CVORB_MAX_VECTOR] at hn
      rw [fcnSize32] at hhigh
      split at hhigh <;> omega

theorem getFcn_congr {busy : ℕ → Bool} {chnr fcnnr n : ℕ} {b b' : Board}
    (h : ValidNr chnr fcnnr → ∀ s w, InSlot chnr fcnnr s (4 * w) → (b' s).sram w = (b s).sram w) :
    (cvorbChGetFcn busy chnr fcnnr n b').1 = (cvorbChGetFcn busy chnr fcnnr n b).1 := by
  rw [cvorbChGetFcn_fst, cvorbChGetFcn_fst]
  by_cases hchecks : ¬(1 ≤ chnr ∧ chnr ≤ 16) ∨ ¬(1 ≤ fcnnr ∧ fcnnr ≤ 64)
  · rw [if_pos hchecks, if_pos hchecks]
  · have hvalid : ValidNr chnr fcnnr := by
      rw [ValidNr]
      omega
    have hbase := ramaddr_eq hvalid
    rw [if_neg hchecks, if_neg hchecks, cvorbGetFcn_congr]
    intro w hlow hhigh
    apply h hvalid
    refine ⟨rfl, by omega, ?_⟩
    rw [CVORB_FCN_MAX_BYTE_SIZE]
    omega

/-! ### Any run of calls -/

inductive Call where
  | set (route : Route) (busy : ℕ → Bool) (chnr fcnnr : ℕ) (value : List VectorFcn)
  | get (busy : ℕ → Bool) (chnr fcnnr nVector : ℕ)

/-- The board after a call. -/
def call (b : Board) : Call → Option Board
  | .set route busy chnr fcnnr value =>
    (cvorbChSetFcn route busy chnr fcnnr value b).map Prod.snd
  | .get busy chnr fcnnr nVector => some (cvorbChGetFcn busy chnr fcnnr nVector b).2

namespace Call

/-- A call whose table fits a slot. -/
def Fits : Call → Prop
  | .set route busy chnr fcnnr value =>
    ValidNr chnr fcnnr → TableFits route (busy (submoduleNr chnr)) value
  | .get .. => True

/-- Byte `a` of submodule `s` is in the slot that the call loads. -/
def Covers (s a : ℕ) : Call → Prop
  | .set _ _ chnr fcnnr _ => ValidNr chnr fcnnr ∧ InSlot chnr fcnnr s a
  | .get .. => False

/-- The call loads the function. -/
def Loads (chnr fcnnr : ℕ) : Call → Prop
  | .set _ _ chnr' fcnnr' _ => chnr' = chnr ∧ fcnnr' = fcnnr
  | .get .. => False

end Call

theorem getFcn_sram (busy : ℕ → Bool) (chnr fcnnr nVector : ℕ) (b : Board) (s : ℕ) :
    ((cvorbChGetFcn busy chnr fcnnr nVector b).2 s).sram = (b s).sram := by
  have hkept := cvorbGetFcn_sram (busy (submoduleNr chnr)) (submoduleNr chnr) (channelNr chnr)
    (fcnnr - 1) b s
  rw [cvorbChGetFcn]
  split
  · rfl
  · dsimp only
    generalize cvorbGetFcn (busy (submoduleNr chnr)) (submoduleNr chnr) (channelNr chnr)
      (fcnnr - 1) b = r at hkept
    obtain ⟨e | ⟨n, hwFcn⟩, b'⟩ := r
    · exact hkept
    · dsimp only
      split <;> exact hkept

theorem call_frame {c : Call} (h : c.Fits) (b : Board) :
    ∃ b', call b c = some b' ∧
      ∀ s w, ¬c.Covers s (4 * w) → (b' s).sram w = (b s).sram w := by
  cases c with
  | set route busy chnr fcnnr value =>
    obtain ⟨r, b', hset, hkept⟩ := setFcn_frame h b
    exact ⟨b', by rw [call, hset]; rfl, hkept⟩
  | get busy chnr fcnnr nVector =>
    refine ⟨_, rfl, fun s w _ => ?_⟩
    rw [getFcn_sram]

theorem run_frame {calls : List Call} (h : ∀ c ∈ calls, c.Fits) (b : Board) :
    ∃ b', System.runFun call b calls = some b' ∧
      ∀ s w, (∀ c ∈ calls, ¬c.Covers s (4 * w)) → (b' s).sram w = (b s).sram w := by
  induction calls generalizing b with
  | nil => exact ⟨b, rfl, fun _ _ _ => rfl⟩
  | cons c calls ih =>
    obtain ⟨b₁, hcall, hkept⟩ := call_frame (h c List.mem_cons_self) b
    obtain ⟨b₂, hrun, hkept'⟩ := ih (fun c hc => h c (List.mem_cons_of_mem _ hc)) b₁
    refine ⟨b₂, by rw [System.runFun, hcall]; exact hrun, fun s w hw => ?_⟩
    rw [hkept' s w fun c hc => hw c (List.mem_cons_of_mem _ hc)]
    exact hkept s w (hw c List.mem_cons_self)

theorem not_covers_of_not_loads {chnr fcnnr s a : ℕ} {c : Call} (h : ValidNr chnr fcnnr)
    (ha : InSlot chnr fcnnr s a) (hc : ¬c.Loads chnr fcnnr) : ¬c.Covers s a := by
  cases c with
  | set route busy chnr' fcnnr' value =>
    rintro ⟨h', ha'⟩
    exact hc (inSlot_unique h' h ha' ha)
  | get busy chnr' fcnnr' nVector => exact id

/-- **Loads keep to their slots.**  A run of calls whose tables fit goes through from any board.  It
changes no byte outside the slots that it loads, so every function that it does not load is read as
before the run, and slots are disjoint. -/
theorem slots_isolated {calls : List Call} (h : ∀ c ∈ calls, c.Fits) (b : Board) :
    (∃ b', System.runFun call b calls = some b' ∧
      (∀ s w, (∀ c ∈ calls, ¬c.Covers s (4 * w)) → (b' s).sram w = (b s).sram w) ∧
      ∀ busy chnr fcnnr n, (∀ c ∈ calls, ¬c.Loads chnr fcnnr) →
        (cvorbChGetFcn busy chnr fcnnr n b').1 = (cvorbChGetFcn busy chnr fcnnr n b).1) ∧
    ∀ chnr fcnnr chnr' fcnnr' s a, ValidNr chnr fcnnr → ValidNr chnr' fcnnr' →
      InSlot chnr fcnnr s a → InSlot chnr' fcnnr' s a → chnr = chnr' ∧ fcnnr = fcnnr' := by
  obtain ⟨b', hrun, hkept⟩ := run_frame h b
  refine ⟨⟨b', hrun, hkept, ?_⟩, ?_⟩
  · intro busy chnr fcnnr n hloads
    apply getFcn_congr
    intro hvalid s w hw
    exact hkept s w fun c hc => not_covers_of_not_loads hvalid hw (hloads c hc)
  · intro chnr fcnnr chnr' fcnnr' s a
    exact inSlot_unique

def emptyBoard : Board := fun _ => ⟨0, fun _ => 0⟩

def ready : ℕ → Bool := fun _ => false

/-- A function for slot 2 of channel 1. -/
def loadSecond : Call := .set .ioctl ready 1 2 [⟨0, 7⟩, ⟨0, 8⟩]

/-- What a read of that function gives after some calls. -/
def secondAfter (calls : List Call) : Option (Except LibError (List VectorFcn)) :=
  (System.runFun call emptyBoard calls).map fun b => (cvorbChGetFcn ready 1 2 2 b).1

/-- A table of one element for slot 1, by `ioctl`, takes the function of slot 2 away. -/
theorem oneElement_spills :
    secondAfter [loadSecond] = some (.ok [⟨0, 7⟩, ⟨0, 8⟩]) ∧
      secondAfter [loadSecond, .set .ioctl ready 1 1 [⟨0, 9⟩]] =
        some (.error (.libc .EBADSLT)) := by
  decide +kernel

/-- By sysfs the function of slot 2 stays. -/
theorem slots_isolated_sysfs :
    ∃ b b', call emptyBoard loadSecond = some b ∧
      System.runFun call b [.set .sysfs ready 1 1 [⟨0, 9⟩], .get ready 1 1 680] = some b' ∧
      (cvorbChGetFcn ready 1 2 2 b').1 = (cvorbChGetFcn ready 1 2 2 b).1 := by
  obtain ⟨b, hload, -⟩ := @call_frame loadSecond
    (fun _ => ⟨List.cons_ne_nil _ _, fun h => absurd h (by decide)⟩) emptyBoard
  have hfits : ∀ c ∈ [Call.set .sysfs ready 1 1 [⟨0, 9⟩], .get ready 1 1 680], c.Fits := by
    intro c hc
    simp only [List.mem_cons, List.not_mem_nil, or_false] at hc
    obtain rfl | rfl := hc
    · exact fun _ => ⟨List.cons_ne_nil _ _, fun _ => .inl rfl⟩
    · exact trivial
  obtain ⟨⟨b', hrun, -, hget⟩, -⟩ := slots_isolated hfits b
  refine ⟨b, b', hload, hrun, hget ready 1 2 2 ?_⟩
  intro c hc
  simp only [List.mem_cons, List.not_mem_nil, or_false] at hc
  obtain rfl | rfl := hc
  · rintro ⟨-, hfcnnr⟩
    omega
  · exact id

end KernelModules.Cvorb
