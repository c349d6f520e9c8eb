import Mathlib.Tactic

/-!
# Serial EEPROMs with a microwire interface

An EEPROM that is driven by a chip select, a clock and a data input.  With the chip selected, every rising
edge of the clock takes a bit: a start bit, two bits of an operation, the bits of an address and, for a
write, the bits of a word.  Deselecting the chip ends an instruction and begins the programming cycle of
one that changes the memory; at its end the data output shows that the chip is ready.

* `Core` is the memory, the write enable and the phase of an instruction, `Core.rise` what a rising edge
  does, `Core.deselect` what a low chip select does, `Core.finish` the end of a programming cycle;
* `Chip` is the core with the levels of its pins, `Chip.drive` a change of the pins, `Chip.out` the data
  output, where it floats any level;
* `instruction_eq` is an instruction, `data_eq` the word of a write, `out_reading` the bits of a read.

The number of address bits that are clocked, the number of words and their width are parameters; nothing
here names a particular program.
-/

namespace KernelModules.Lib.Microwire

open Function

/-! ### Bits -/

/-- The number that bits stand for, the most significant one first. -/
def ofBits (bits : List Bool) : ℕ := bits.foldl (fun v b => 2 * v + b.toNat) 0

theorem ofBits_concat (bits : List Bool) (b : Bool) :
    ofBits (bits ++ [b]) = 2 * ofBits bits + b.toNat := by
  rw [ofBits, List.foldl_append]
  rfl

variable {w : ℕ}

/-- The first bits of a word are its upper part. -/
theorem ofBits_getMsbD (x : BitVec w) {k : ℕ} (hk : k ≤ w) :
    ofBits ((List.range k).map x.getMsbD) = x.toNat / 2 ^ (w - k) := by
  induction k with
  | zero => exact (Nat.div_eq_of_lt x.isLt).symm
  | succ k ih =>
    have hbit : (x.getMsbD k).toNat = x.toNat / 2 ^ (w - (k + 1)) % 2 := by
      rw [BitVec.getMsbD, decide_eq_true (show k < w by omega), Bool.true_and, BitVec.getLsbD,
        show w - 1 - k = w - (k + 1) by omega, Nat.testBit_eq_decide_div_mod_eq]
      rcases Nat.mod_two_eq_zero_or_one (x.toNat / 2 ^ (w - (k + 1))) with h | h <;> rw [h] <;> rfl
    have hpow : 2 ^ (w - k) = 2 ^ (w - (k + 1)) * 2 := by
      rw [← Nat.pow_succ]
      congr 1
      omega
    rw [List.range_succ, List.map_append, List.map_singleton, ofBits_concat, ih (by omega), hbit, hpow,
      ← Nat.div_div_eq_div_mul]
    omega

theorem ofNat_ofBits (x : BitVec w) :
    BitVec.ofNat w (ofBits ((List.range w).map x.getMsbD)) = x := by
  rw [ofBits_getMsbD x le_rfl, Nat.sub_self, Nat.pow_zero, Nat.div_one, BitVec.ofNat_toNat,
    BitVec.setWidth_eq]

/-! ### The chip -/

/-- The words of the memory. -/
abbrev Mem (w : ℕ) := ℕ → BitVec w

/-- The phase of an instruction. -/
inductive Phase (w : ℕ)
  /-- A start bit is waited for. -/
  | standby
  /-- So many bits have come in behind the start bit. -/
  | instr (bits : List Bool)
  /-- So many bits have gone out of the words from an address on. -/
  | reading (addr k : ℕ)
  /-- Bits have come in of the word that an instruction is to write. -/
  | data (act : BitVec w → Mem w → Mem w) (bits : List Bool)
  /-- The memory is changed when the chip is deselected. -/
  | loaded (act : Mem w → Mem w)
  | programming (act : Mem w → Mem w)
  /-- A programming cycle is over. -/
  | ready
  /-- The instruction is over. -/
  | done

/-- The memory, the write enable and the phase. -/
structure Core (w : ℕ) where
  mem : Mem w
  enabled : Bool
  phase : Phase w

/-- An instruction that needs the write enable. -/
def Core.ifEnabled (c : Core w) (phase : Phase w) : Core w :=
  { c with phase := if c.enabled then phase else .done }

/-- An instruction with its two bits and its address, of so many words. -/
def Core.execute (words : ℕ) (c : Core w) : List Bool → List Bool → Core w
  | [true, false], addr => { c with phase := .reading (ofBits addr % words) 0 }
  | [false, true], addr =>
    c.ifEnabled (.data (fun x m => update m (ofBits addr % words) x) [])
  | [true, true], addr =>
    c.ifEnabled (.loaded fun m => update m (ofBits addr % words) (BitVec.allOnes w))
  | _, true :: true :: _ => { c with enabled := true, phase := .done }
  | _, true :: false :: _ => c.ifEnabled (.loaded fun _ _ => BitVec.allOnes w)
  | _, false :: true :: _ => c.ifEnabled (.data (fun x _ _ => x) [])
  | _, _ => { c with enabled := false, phase := .done }

/-- A rising edge of the clock while the chip is selected, for addresses of `n` bits. -/
def Core.rise (n words : ℕ) (c : Core w) (di : Bool) : Core w :=
  match c.phase with
  | .standby | .ready => if di then { c with phase := .instr [] } else c
  | .instr bits =>
    let bits := bits ++ [di]
    if bits.length < 2 + n then { c with phase := .instr bits }
    else c.execute words (bits.take 2) (bits.drop 2)
  | .reading addr k => { c with phase := .reading addr (k + 1) }
  | .data act bits =>
    let bits := bits ++ [di]
    if bits.length < w then { c with phase := .data act bits }
    else { c with phase := .loaded (act (BitVec.ofNat w (ofBits bits))) }
  | .loaded _ | .programming _ | .done => c

/-- The chip is not selected. -/
def Core.deselect (c : Core w) : Core w :=
  match c.phase with
  | .loaded act => { c with phase := .programming act }
  | .programming _ | .ready => c
  | _ => { c with phase := .standby }

/-- A programming cycle that is under way is over. -/
def Core.finish (c : Core w) : Core w :=
  match c.phase with
  | .programming act => { c with mem := act c.mem, phase := .ready }
  | _ => c

/-- The core and the levels of the chip select and the clock. -/
structure Chip (w : ℕ) where
  core : Core w
  cs : Bool
  clk : Bool

/-- The pins change. -/
def Chip.drive (n words : ℕ) (c : Chip w) (cs clk di : Bool) : Chip w where
  core := if cs then (if !c.clk && clk then c.core.rise n words di else c.core) else c.core.deselect
  cs := cs
  clk := clk

/-- The data output; it floats, at the level `z`, where the chip does not drive it.  A zero goes before
the words of a read. -/
def Chip.out (words : ℕ) (c : Chip w) (z : Bool) : Bool :=
  if c.cs then
    match c.core.phase with
    | .reading _ 0 => false
    | .reading addr (k + 1) => (c.core.mem ((addr + k / w) % words)).getMsbD (k % w)
    | .programming _ => false
    | .ready => true
    | _ => z
  else z

/-! ### Instructions -/

variable {n words : ℕ} {c : Core w}

/-- A programming cycle is under way. -/
def Phase.Programming : Phase w → Prop
  | .programming _ => True
  | _ => False

/-- Nothing is to be programmed, now or when the chip is deselected. -/
def Phase.Quiet : Phase w → Prop
  | .programming _ | .loaded _ => False
  | _ => True

theorem finish_eq (h : ¬ c.phase.Programming) : c.finish = c := by
  unfold Core.finish
  split
  · rename_i act hact
    rw [hact] at h
    exact absurd trivial h
  · rfl

theorem not_programming_ifEnabled {phase : Phase w} (h : ¬ phase.Programming) :
    ¬ (c.ifEnabled phase).phase.Programming := by
  unfold Core.ifEnabled
  dsimp only
  split
  · exact h
  · exact id

theorem not_programming_execute (op addr : List Bool) :
    ¬ (c.execute words op addr).phase.Programming := by
  unfold Core.execute
  split
  all_goals first | exact id | exact not_programming_ifEnabled id

/-- No edge of the clock begins a programming cycle. -/
theorem not_programming_rise (h : ¬ c.phase.Programming) (di : Bool) :
    ¬ (c.rise n words di).phase.Programming := by
  unfold Core.rise
  split
  · split
    · exact id
    · exact h
  · split
    · exact id
    · exact h
  · dsimp only
    split
    · exact id
    · exact not_programming_execute _ _
  · exact id
  · dsimp only
    split <;> exact id
  · exact h
  · exact h
  · exact h

theorem deselect_eq (h : c.phase.Quiet) :
    c.deselect.phase = .standby ∨ c.deselect.phase = .ready := by
  unfold Core.deselect
  split
  · rename_i act hact
    rw [hact] at h
    exact h.elim
  · rename_i act hact
    rw [hact] at h
    exact h.elim
  · rename_i hready
    exact .inr hready
  · exact .inl rfl

theorem deselect_eq_self (h : c.phase = .standby ∨ c.phase = .ready) : c.deselect = c := by
  obtain ⟨mem, enabled, phase⟩ := c
  obtain hphase | hphase : phase = .standby ∨ phase = .ready := h <;> subst hphase <;> rfl

theorem deselect_mem : c.deselect.mem = c.mem := by
  unfold Core.deselect
  split <;> rfl

theorem deselect_enabled : c.deselect.enabled = c.enabled := by
  unfold Core.deselect
  split <;> rfl

theorem execute_phase (c : Core w) (phase : Phase w) (op addr : List Bool) :
    ({ c with phase } : Core w).execute words op addr = c.execute words op addr := by
  unfold Core.execute
  split <;> rfl

theorem foldl_instr {pre bits : List Bool} (hphase : c.phase = .instr pre) (hne : bits ≠ [])
    (hlen : pre.length + bits.length = 2 + n) :
    bits.foldl (Core.rise n words) c =
      c.execute words ((pre ++ bits).take 2) ((pre ++ bits).drop 2) := by
  induction bits generalizing c pre with
  | nil => exact absurd rfl hne
  | cons b bits ih =>
    rw [List.length_cons] at hlen
    rw [List.foldl_cons, Core.rise, hphase]
    dsimp only
    rw [List.length_append, List.length_singleton]
    cases bits with
    | nil =>
      rw [List.length_nil] at hlen
      rw [if_neg (by omega)]
      rfl
    | cons b' bits =>
      rw [List.length_cons] at hlen
      rw [if_pos (by omega), ih rfl (List.cons_ne_nil _ _)
        (by rw [List.length_append, List.length_singleton, List.length_cons]; omega),
        execute_phase, List.append_assoc]
      rfl

/-- **An instruction** is executed at the last bit of its address. -/
theorem instruction_eq (h : c.phase = .standby ∨ c.phase = .ready) {op addr : List Bool}
    (hop : op.length = 2) (haddr : addr.length = n) :
    (true :: (op ++ addr)).foldl (Core.rise n words) c = c.execute words op addr := by
  have hstart : c.rise n words true = { c with phase := .instr [] } := by
    unfold Core.rise
    rcases h with h | h <;> rw [h] <;> rfl
  have hne : op ++ addr ≠ [] := by
    intro h
    rw [(List.append_eq_nil_iff.mp h).1] at hop
    exact absurd hop (by decide)
  rw [List.foldl_cons, hstart, foldl_instr rfl hne (by rw [List.length_append, hop, haddr]; simp),
    execute_phase, List.nil_append, ← hop, List.take_left, List.drop_left]

/-- The bits of a word that is to be written. -/
theorem foldl_data {act : BitVec w → Mem w → Mem w} {pre bits : List Bool}
    (hphase : c.phase = .data act pre) (hne : bits ≠ []) (hlen : pre.length + bits.length = w) :
    bits.foldl (Core.rise n words) c =
      { c with phase := .loaded (act (BitVec.ofNat w (ofBits (pre ++ bits)))) } := by
  induction bits generalizing c pre with
  | nil => exact absurd rfl hne
  | cons b bits ih =>
    rw [List.length_cons] at hlen
    rw [List.foldl_cons, Core.rise, hphase]
    dsimp only
    rw [List.length_append, List.length_singleton]
    cases bits with
    | nil =>
      rw [List.length_nil] at hlen
      rw [if_neg (by omega)]
      rfl
    | cons b' bits =>
      rw [List.length_cons] at hlen
      rw [if_pos (by omega), ih rfl (List.cons_ne_nil _ _)
        (by rw [List.length_append, List.length_singleton, List.length_cons]; omega),
        List.append_assoc]
      rfl

/-- **The word of a write** comes in with its most significant bit first. -/
theorem data_eq {act : BitVec w → Mem w → Mem w} (hphase : c.phase = .data act []) (hw : 0 < w)
    (x : BitVec w) :
    ((List.range w).map x.getMsbD).foldl (Core.rise n words) c =
      { c with phase := .loaded (act x) } := by
  have hlen : ((List.range w).map x.getMsbD).length = w := by
    rw [List.length_map, List.length_range]
  rw [foldl_data hphase (List.ne_nil_of_length_pos (by rw [hlen]; exact hw))
    (by rw [List.length_nil, Nat.zero_add, hlen]), List.nil_append, ofNat_ofBits]

end KernelModules.Lib.Microwire
