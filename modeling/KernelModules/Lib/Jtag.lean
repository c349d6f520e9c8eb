import Mathlib.Tactic

/-!
# The test access port

A test access port is a state machine of sixteen states that moves with `TMS` on the rising edge of
`TCK`.  In its two shift states it takes a bit from `TDI` into a register and gives the register's
next bit to `TDO`, which changes on the falling edge; a low `TRST` resets it.

* `TapState.next` is the state machine, `Tap` the port with the registers of any device behind it,
  and `Tap.drive` what it does when its pins change;
* `TapEvent` are the captures, shifts and updates of the two registers, which a port logs;
* `Tap.clock` is one pulse of the clock, `Tap.clocks` a list of pulses and `Tap.tdos` what comes
  out;
* `pathState` and `pathEvents` are what a list of pulses does, seen from the state machine alone:
  `clocks_state` and `clocks_events` tie the port to them.

Nothing here names a particular program.
-/

namespace KernelModules.Lib

/-- The states of a test access port. -/
inductive TapState where
  | testLogicReset
  | runTestIdle
  | selectDr
  | captureDr
  | shiftDr
  | exit1Dr
  | pauseDr
  | exit2Dr
  | updateDr
  | selectIr
  | captureIr
  | shiftIr
  | exit1Ir
  | pauseIr
  | exit2Ir
  | updateIr
  deriving DecidableEq, Repr

/-- The state after a clock with `TMS`. -/
def TapState.next : TapState → Bool → TapState
  | .testLogicReset, tms => if tms then .testLogicReset else .runTestIdle
  | .runTestIdle, tms => if tms then .selectDr else .runTestIdle
  | .selectDr, tms => if tms then .selectIr else .captureDr
  | .captureDr, tms => if tms then .exit1Dr else .shiftDr
  | .shiftDr, tms => if tms then .exit1Dr else .shiftDr
  | .exit1Dr, tms => if tms then .updateDr else .pauseDr
  | .pauseDr, tms => if tms then .exit2Dr else .pauseDr
  | .exit2Dr, tms => if tms then .updateDr else .shiftDr
  | .updateDr, tms => if tms then .selectDr else .runTestIdle
  | .selectIr, tms => if tms then .testLogicReset else .captureIr
  | .captureIr, tms => if tms then .exit1Ir else .shiftIr
  | .shiftIr, tms => if tms then .exit1Ir else .shiftIr
  | .exit1Ir, tms => if tms then .updateIr else .pauseIr
  | .pauseIr, tms => if tms then .exit2Ir else .pauseIr
  | .exit2Ir, tms => if tms then .updateIr else .shiftIr
  | .updateIr, tms => if tms then .selectDr else .runTestIdle

/-- What happens to the instruction register and to the selected data register. -/
inductive TapEvent where
  | captureIr
  | shiftIr (tdi tdo : Bool)
  | updateIr
  | captureDr
  | shiftDr (tdi tdo : Bool)
  | updateDr
  deriving DecidableEq, Repr

/-- What a device captures into its registers, the next bit out first; it may depend on all that
has happened. -/
structure TapDevice where
  captureIr : List TapEvent → List Bool
  captureDr : List TapEvent → List Bool

/-- The level of the clock, the state, the register being shifted, the output pin and the log. -/
structure Tap where
  tck : Bool
  state : TapState
  register : List Bool
  tdo : Bool
  events : List TapEvent

namespace Tap

variable (dev : TapDevice)

/-- A rising edge. -/
def rise (t : Tap) (tdi tms : Bool) : Tap :=
  match t.state with
  | .captureIr =>
    { t with
      tck := true
      state := t.state.next tms
      register := dev.captureIr t.events
      events := t.events ++ [.captureIr] }
  | .captureDr =>
    { t with
      tck := true
      state := t.state.next tms
      register := dev.captureDr t.events
      events := t.events ++ [.captureDr] }
  | .shiftIr =>
    { t with
      tck := true
      state := t.state.next tms
      register := t.register.tail ++ [tdi]
      events := t.events ++ [.shiftIr tdi (t.register.headD false)] }
  | .shiftDr =>
    { t with
      tck := true
      state := t.state.next tms
      register := t.register.tail ++ [tdi]
      events := t.events ++ [.shiftDr tdi (t.register.headD false)] }
  | _ => { t with tck := true, state := t.state.next tms }

/-- A falling edge: the output changes, and what has been shifted in takes effect. -/
def fall (t : Tap) : Tap :=
  match t.state with
  | .shiftIr => { t with tck := false, tdo := t.register.headD false }
  | .shiftDr => { t with tck := false, tdo := t.register.headD false }
  | .updateIr => { t with tck := false, events := t.events ++ [.updateIr] }
  | .updateDr => { t with tck := false, events := t.events ++ [.updateDr] }
  | _ => { t with tck := false }

/-- New levels of the pins. -/
def drive (t : Tap) (trst tck tdi tms : Bool) : Tap :=
  if trst = false then { t with tck := tck, state := .testLogicReset }
  else if t.tck = false ∧ tck = true then t.rise dev tdi tms
  else if t.tck = true ∧ tck = false then t.fall
  else t

/-- One pulse of the clock. -/
def clock (t : Tap) (tdi tms : Bool) : Tap := (t.rise dev tdi tms).fall

/-- The output pin shows the next bit of the register that is being shifted. -/
def Ready (t : Tap) : Prop :=
  t.tck = false ∧ (t.state = .shiftIr ∨ t.state = .shiftDr → t.tdo = t.register.headD false)

variable {dev} {t : Tap} {tdi tms : Bool}

theorem clock_state : (t.clock dev tdi tms).state = t.state.next tms := by
  unfold clock rise fall
  cases t.state <;> cases tms <;> rfl

theorem clock_tck : (t.clock dev tdi tms).tck = false := by
  unfold clock rise fall
  cases t.state <;> cases tms <;> rfl

theorem rise_tdo : (t.rise dev tdi tms).tdo = t.tdo := by
  unfold rise
  cases t.state <;> rfl

theorem rise_tck : (t.rise dev tdi tms).tck = true := by
  unfold rise
  cases t.state <;> rfl

theorem clock_ready : (t.clock dev tdi tms).Ready := by
  refine ⟨clock_tck, fun h => ?_⟩
  rw [clock_state] at h
  unfold clock fall
  cases hs : t.state <;> cases tms <;> rw [hs] at h <;> simp [TapState.next] at h <;>
    simp [rise, hs, TapState.next]

end Tap

/-! ### Lists of pulses -/

/-- What a pulse `(TDI, TMS)` logs, with the bit that comes out. -/
def pulseEvents (s : TapState) (p : Bool × Bool) (tdo : Bool) : List TapEvent :=
  (match s with
    | .captureIr => [.captureIr]
    | .captureDr => [.captureDr]
    | .shiftIr => [.shiftIr p.1 tdo]
    | .shiftDr => [.shiftDr p.1 tdo]
    | _ => []) ++
  match s.next p.2 with
    | .updateIr => [.updateIr]
    | .updateDr => [.updateDr]
    | _ => []

/-- The state after a list of pulses. -/
def pathState (s : TapState) (ps : List (Bool × Bool)) : TapState :=
  ps.foldl (fun s p => s.next p.2) s

/-- What a list of pulses logs, with the bits that come out. -/
def pathEvents : TapState → List (Bool × Bool) → List Bool → List TapEvent
  | s, p :: ps, o :: os => pulseEvents s p o ++ pathEvents (s.next p.2) ps os
  | _, _, _ => []

namespace Tap

variable (dev : TapDevice)

/-- A list of pulses. -/
def clocks (t : Tap) (ps : List (Bool × Bool)) : Tap :=
  ps.foldl (fun t p => t.clock dev p.1 p.2) t

/-- The bits that come out, one for each pulse. -/
def tdos : Tap → List (Bool × Bool) → List Bool
  | _, [] => []
  | t, p :: ps => t.tdo :: tdos (t.clock dev p.1 p.2) ps

variable {dev} {t : Tap}

theorem clocks_append (ps qs : List (Bool × Bool)) :
    t.clocks dev (ps ++ qs) = (t.clocks dev ps).clocks dev qs := List.foldl_append

theorem tdos_append (ps qs : List (Bool × Bool)) :
    t.tdos dev (ps ++ qs) = t.tdos dev ps ++ (t.clocks dev ps).tdos dev qs := by
  induction ps generalizing t with
  | nil => rfl
  | cons p ps ih =>
    show t.tdo :: (t.clock dev p.1 p.2).tdos dev (ps ++ qs) = _
    rw [ih]
    rfl

@[simp] theorem length_tdos (ps : List (Bool × Bool)) : (t.tdos dev ps).length = ps.length := by
  induction ps generalizing t with
  | nil => rfl
  | cons p ps ih => exact congrArg Nat.succ ih

theorem clocks_state (ps : List (Bool × Bool)) :
    (t.clocks dev ps).state = pathState t.state ps := by
  induction ps generalizing t with
  | nil => rfl
  | cons p ps ih =>
    show ((t.clock dev p.1 p.2).clocks dev ps).state = _
    rw [ih, clock_state]
    rfl

theorem clocks_tck (h : t.tck = false) (ps : List (Bool × Bool)) :
    (t.clocks dev ps).tck = false := by
  induction ps generalizing t with
  | nil => exact h
  | cons p ps ih => exact ih clock_tck

theorem clocks_ready (dev : TapDevice) (h : t.Ready) (ps : List (Bool × Bool)) : (t.clocks dev ps).Ready := by
  induction ps generalizing t with
  | nil => exact h
  | cons p ps ih => exact ih clock_ready

theorem clock_events (h : t.Ready) (p : Bool × Bool) :
    (t.clock dev p.1 p.2).events = t.events ++ pulseEvents t.state p t.tdo := by
  obtain ⟨tdi, tms⟩ := p
  have htdo := h.2
  unfold clock fall
  cases hs : t.state <;> rw [hs] at htdo <;> cases tms <;>
    simp_all [rise, pulseEvents, TapState.next]

/-- **The port and the state machine.**  A list of pulses logs what the state machine says. -/
theorem clocks_events (h : t.Ready) (ps : List (Bool × Bool)) :
    (t.clocks dev ps).events = t.events ++ pathEvents t.state ps (t.tdos dev ps) := by
  induction ps generalizing t with
  | nil => exact (List.append_nil _).symm
  | cons p ps ih =>
    show ((t.clock dev p.1 p.2).clocks dev ps).events =
      t.events ++ (pulseEvents t.state p t.tdo ++
        pathEvents (t.state.next p.2) ps ((t.clock dev p.1 p.2).tdos dev ps))
    rw [ih clock_ready, clock_events h, clock_state, List.append_assoc]

end Tap

section Paths

variable {s : TapState} {ps qs : List (Bool × Bool)} {os os' : List Bool}

theorem pathState_append : pathState s (ps ++ qs) = pathState (pathState s ps) qs :=
  List.foldl_append

theorem pathEvents_append (hlen : os.length = ps.length) :
    pathEvents s (ps ++ qs) (os ++ os') =
      pathEvents s ps os ++ pathEvents (pathState s ps) qs os' := by
  induction ps generalizing s os with
  | nil =>
    obtain rfl := List.length_eq_zero_iff.mp hlen
    rfl
  | cons p ps ih =>
    cases os with
    | nil => cases hlen
    | cons o os =>
      show pulseEvents s p o ++ pathEvents (s.next p.2) (ps ++ qs) (os ++ os') =
        pulseEvents s p o ++ pathEvents (s.next p.2) ps os ++ _
      rw [ih (Nat.succ.inj hlen), List.append_assoc]
      rfl

theorem path_shiftDr (bits os : List Bool) (hlen : os.length = bits.length) :
    pathState .shiftDr (bits.map (·, false)) = .shiftDr ∧
      pathEvents .shiftDr (bits.map (·, false)) os = List.zipWith .shiftDr bits os := by
  induction bits generalizing os with
  | nil =>
    obtain rfl := List.length_eq_zero_iff.mp hlen
    exact ⟨rfl, rfl⟩
  | cons b bits ih =>
    cases os with
    | nil => cases hlen
    | cons o os =>
      obtain ⟨hstate, hevents⟩ := ih os (Nat.succ.inj hlen)
      exact ⟨hstate, congrArg (TapEvent.shiftDr b o :: ·) hevents⟩

theorem path_shiftIr (bits os : List Bool) (hlen : os.length = bits.length) :
    pathState .shiftIr (bits.map (·, false)) = .shiftIr ∧
      pathEvents .shiftIr (bits.map (·, false)) os = List.zipWith .shiftIr bits os := by
  induction bits generalizing os with
  | nil =>
    obtain rfl := List.length_eq_zero_iff.mp hlen
    exact ⟨rfl, rfl⟩
  | cons b bits ih =>
    cases os with
    | nil => cases hlen
    | cons o os =>
      obtain ⟨hstate, hevents⟩ := ih os (Nat.succ.inj hlen)
      exact ⟨hstate, congrArg (TapEvent.shiftIr b o :: ·) hevents⟩

/-- How many bits have been clocked into the data register. -/
def drShifts (es : List TapEvent) : ℕ :=
  es.countP fun e => match e with
    | .shiftDr _ _ => true
    | _ => false

theorem drShifts_append (es es' : List TapEvent) :
    drShifts (es ++ es') = drShifts es + drShifts es' := List.countP_append

theorem drShifts_pulse (s : TapState) (p : Bool × Bool) (o : Bool) :
    drShifts (pulseEvents s p o) = if s = .shiftDr then 1 else 0 := by
  obtain ⟨tdi, tms⟩ := p
  cases s <;> cases tms <;> rfl

theorem next_true_ne_shiftDr (s : TapState) : s.next true ≠ .shiftDr := by
  cases s <;> exact fun h => by cases h

theorem drShifts_zipWith_shiftIr (bits os : List Bool) :
    drShifts (List.zipWith .shiftIr bits os) = 0 := by
  induction bits generalizing os with
  | nil => rfl
  | cons b bits ih =>
    cases os with
    | nil => rfl
    | cons o os => exact ih os

theorem drShifts_zipWith (bits os : List Bool) (hlen : os.length = bits.length) :
    drShifts (List.zipWith .shiftDr bits os) = bits.length := by
  induction bits generalizing os with
  | nil => rfl
  | cons b bits ih =>
    cases os with
    | nil => cases hlen
    | cons o os =>
      show drShifts ([.shiftDr b o] ++ List.zipWith .shiftDr bits os) = bits.length + 1
      rw [drShifts_append, ih os (Nat.succ.inj hlen)]
      exact Nat.add_comm 1 _

end Paths

namespace Tap

variable {dev : TapDevice} {t : Tap}

theorem clock_drShifts (h : t.Ready) (p : Bool × Bool) :
    drShifts (t.clock dev p.1 p.2).events =
      drShifts t.events + if t.state = .shiftDr then 1 else 0 := by
  rw [clock_events h, drShifts_append, drShifts_pulse]

theorem clocks_drShifts_le (h : t.Ready) (ps : List (Bool × Bool)) :
    drShifts (t.clocks dev ps).events ≤ drShifts t.events + ps.length := by
  induction ps generalizing t with
  | nil => exact Nat.le_refl _
  | cons p ps ih =>
    have hrest := ih (t := t.clock dev p.1 p.2) clock_ready
    rw [clock_drShifts h] at hrest
    have hone : (if t.state = .shiftDr then 1 else 0) ≤ 1 := by split <;> decide
    show drShifts ((t.clock dev p.1 p.2).clocks dev ps).events ≤ drShifts t.events + (ps.length + 1)
    omega

theorem clocks_drShifts_lt (dev : TapDevice) (h : t.Ready) (hstate : t.state ≠ .shiftDr)
    (ps : List (Bool × Bool)) (hps : ps ≠ []) : drShifts (t.clocks dev ps).events < drShifts t.events + ps.length := by
  cases ps with
  | nil => exact absurd rfl hps
  | cons p ps =>
    have hready : (t.clock dev p.1 p.2).Ready := clock_ready
    have hrest : drShifts ((t.clock dev p.1 p.2).clocks dev ps).events ≤ _ :=
      clocks_drShifts_le hready ps
    rw [clock_drShifts h, if_neg hstate] at hrest
    exact Nat.lt_succ_of_le hrest

theorem clocks_high_ne_shiftDr (ps : List (Bool × Bool)) (b : Bool) :
    (t.clocks dev (ps ++ [(b, true)])).state ≠ .shiftDr := by
  rw [clocks_append]
  show ((t.clocks dev ps).clock dev b true).state ≠ _
  rw [clock_state]
  exact next_true_ne_shiftDr _

theorem clocks_shiftIr (dev : TapDevice) (h : t.Ready) (hstate : t.state = .shiftIr) (bits : List Bool) (b : Bool) :
    (t.clocks dev (bits.map (·, false) ++ [(b, true)])).state = .exit1Ir ∧
      (t.clocks dev (bits.map (·, false) ++ [(b, true)])).events = t.events ++
        List.zipWith .shiftIr (bits ++ [b]) (t.tdos dev (bits.map (·, false) ++ [(b, true)])) := by
  obtain ⟨hpath, hevents⟩ := path_shiftIr bits (t.tdos dev (bits.map (·, false))) (by simp)
  constructor
  · rw [clocks_state, pathState_append, hstate, hpath]
    rfl
  · rw [clocks_events h, tdos_append, pathEvents_append (length_tdos _), hstate, hpath, hevents,
      List.zipWith_append (by simp)]
    rfl

theorem clocks_shiftDr (dev : TapDevice) (h : t.Ready) (hstate : t.state = .shiftDr) (bits : List Bool) (b : Bool) :
    (t.clocks dev (bits.map (·, false) ++ [(b, true)])).state = .exit1Dr ∧
      (t.clocks dev (bits.map (·, false) ++ [(b, true)])).events = t.events ++
        List.zipWith .shiftDr (bits ++ [b]) (t.tdos dev (bits.map (·, false) ++ [(b, true)])) := by
  obtain ⟨hpath, hevents⟩ := path_shiftDr bits (t.tdos dev (bits.map (·, false))) (by simp)
  constructor
  · rw [clocks_state, pathState_append, hstate, hpath]
    rfl
  · rw [clocks_events h, tdos_append, pathEvents_append (length_tdos _), hstate, hpath, hevents,
      List.zipWith_append (by simp)]
    rfl

end Tap

end KernelModules.Lib
