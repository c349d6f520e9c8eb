import Mathlib.Tactic
import KernelModules.Mttn.InstructionBuffer

/-!
# Expressions of the MTT assembler

Numbers and names go to the operand stack, operators and opening brackets to the operator stack, and
a closing bracket evaluates: `DoExpression` applies the operators above the bracket, the last one
first, and so an operator takes everything behind it as its right operand.

* `Expr` is a parenthesised expression, `Expr.group` its atoms, and `Expr.eval` what it evaluates to
  in that order, brackets first;
* `read_spec`: after the atoms of an expression and its operators, the operand it evaluates to is
  the one more on the stack;
* the bracket itself returns `operandStack[operandStackSize]`, the place behind that operand.
  `Expr.leftover` is what is there: the right operand of an operator that has two, taken literally;
* the value is stored in `Src1` of the last instruction.  `expression_iff` is when the value is the
  one of the expression and no instruction before it is changed.
-/

namespace KernelModules.Mttn

open Function

/-! ### Expressions -/

/-- An expression. -/
inductive Expr
  | num (value : ℤ)
  | sym (name : Name)
  | paren (e : Expr)
  | un (opr : OprId) (e : Expr)
  | bin (left : Expr) (opr : OprId) (right : Expr)
  deriving DecidableEq, Repr

/-- The values of the symbols. -/
abbrev Values := Name → ℤ

/-- An operator with one operand. -/
def OprId.isUnary (opr : OprId) : Bool := (unary opr).isSome || (stepBy opr).isSome

/-- An operator with two operands. -/
def OprId.isBinary (opr : OprId) : Bool := (binary opr).isSome || opr = .AS

/-- `GetValue`. -/
def Operand.value (x : Operand) (values : Values) : ℤ := x.symbolRef.elim x.literalValue values

/-- An operator with one operand: `++` and `--` write their symbol. -/
def applyUnary (opr : OprId) (x : Operand) (values : Values) : Option (Operand × Values) :=
  match unary opr, stepBy opr, x.symbolRef with
  | some f, _, _ => some (⟨none, f (x.value values)⟩, values)
  | none, some d, some name =>
    some (⟨none, long (values name + d)⟩, update values name (long (values name + d)))
  | _, _, _ => none

/-- An operator with two operands: `:=` writes the symbol on its left and has the operand on its
right. -/
def applyBinary (opr : OprId) (x y : Operand) (values : Values) : Option (Operand × Values) :=
  match binary opr, x.symbolRef with
  | some f, _ => (f (x.value values) (y.value values)).map fun z => (⟨none, z⟩, values)
  | none, some name =>
    if opr = .AS then some (y, update values name (y.value values)) else none
  | none, none => none

namespace Expr

/-- An operand: a number, a name or brackets. -/
def Simple : Expr → Prop
  | num _ => True
  | sym _ => True
  | paren _ => True
  | _ => False

/-- An expression as it can be written: what stands on the left of an operator is an operand. -/
def Written : Expr → Prop
  | num _ => True
  | sym _ => True
  | paren e => e.Written
  | un opr e => opr.isUnary = true ∧ e.Written
  | bin left opr right => left.Simple ∧ opr.isBinary = true ∧ left.Written ∧ right.Written

/-- The atoms. -/
def atoms : Expr → List Atom
  | num x => [.numeric x]
  | sym name => [.alpha name]
  | paren e => .opens :: (e.atoms ++ [.close])
  | un opr e => .operator opr :: e.atoms
  | bin left opr right => left.atoms ++ .operator opr :: right.atoms

/-- The atoms of the expression in brackets. -/
def group (e : Expr) : List Atom := (paren e).atoms

/-- The operators outside of brackets, in the order of the text. -/
def oprs : Expr → List OprId
  | num _ => []
  | sym _ => []
  | paren _ => []
  | un opr e => opr :: e.oprs
  | bin left opr right => left.oprs ++ opr :: right.oprs

/-- **The evaluation**: brackets on the left first, then everything on the right of an operator,
then the operator. -/
def eval : Expr → Values → Option (Operand × Values)
  | num x, values => some (⟨none, x⟩, values)
  | sym name, values => some (⟨some name, 0⟩, values)
  | paren e, values => e.eval values
  | un opr e, values => do
    let r ← e.eval values
    applyUnary opr r.1 r.2
  | bin left opr right, values => do
    let l ← left.eval values
    let r ← right.eval l.2
    applyBinary opr l.1 r.1 r.2

/-- The value. -/
def value (e : Expr) (values : Values) : Option ℤ :=
  (e.eval values).map fun r => r.1.value r.2

/-- What is behind the operand that the expression leaves, when `stale` was there before: the right
operand of the first operator that has two, and of a symbol the literal value zero. -/
def leftover : Expr → Values → ℤ → ℤ
  | num _, _, stale => stale
  | sym _, _, stale => stale
  | paren e, values, stale => e.leftover values stale
  | un _ e, values, stale => e.leftover values stale
  | bin left _ right, values, _ =>
    (((left.eval values).bind fun l => right.eval l.2).map fun r => r.1.literalValue).getD 0

theorem Simple.oprs {e : Expr} (h : e.Simple) : e.oprs = [] := by
  cases e <;> first | rfl | exact h.elim

theorem isOpCode_of_mem_atoms (e : Expr) : ∀ atom ∈ e.atoms, atom.isOpCode = false := by
  induction e with
  | num x => simp [atoms, Atom.isOpCode]
  | sym name => simp [atoms, Atom.isOpCode]
  | paren e ih =>
    intro atom hatom
    simp only [atoms, List.mem_cons, List.mem_append, List.not_mem_nil, or_false] at hatom
    rcases hatom with rfl | he | rfl
    · rfl
    · exact ih atom he
    · rfl
  | un opr e ih => simpa [atoms, Atom.isOpCode] using ih
  | bin left opr right ihl ihr =>
    intro atom hatom
    simp only [atoms, List.mem_append, List.mem_cons] at hatom
    rcases hatom with hl | rfl | hr
    · exact ihl atom hl
    · rfl
    · exact ihr atom hr

end Expr

/-! ### The operators of an expression -/

namespace Vars

variable {v v' : Vars}

/-- The `n` uppermost operators are applied, as long as there is no end. -/
def reduce : ℕ → Vars → Option Vars
  | 0, v => some v
  | n + 1, v =>
    (applyOperator { v with operatorStackSize := v.operatorStackSize - 1 }
      (v.operatorStack (v.operatorStackSize - 1))).bind fun r =>
      match r.1 with
      | .done _ => none
      | .again _ => reduce n r.2

theorem reduce_add (n k : ℕ) (v : Vars) : reduce (n + k) v = (reduce n v).bind (reduce k) := by
  induction n generalizing v with
  | zero => rw [Nat.zero_add]; rfl
  | succ n ih =>
    rw [Nat.succ_add, reduce, reduce]
    cases applyOperator { v with operatorStackSize := v.operatorStackSize - 1 }
        (v.operatorStack (v.operatorStackSize - 1)) with
    | none => rfl
    | some r =>
      obtain ⟨outcome, w⟩ := r
      cases outcome with
      | done x => rfl
      | again written => exact ih w

/-- What an operator leaves: an operand in place `n`, the values `values`, and everything else as it
was. -/
structure Left (v v' : Vars) (n : ℕ) (x : Operand) (values : Values) : Prop where
  value : v'.value = values
  operandStack : v'.operandStack = update v.operandStack n x
  operandStackSize : v'.operandStackSize = n + 1
  operatorStack : v'.operatorStack = v.operatorStack
  operatorStackSize : v'.operatorStackSize = v.operatorStackSize

theorem getValue_eq (v : Vars) (x : Operand) : v.getValue x = x.value v.value := by
  unfold getValue Operand.value
  cases x.symbolRef <;> rfl

theorem pushOperand_left {n : ℕ} {x : Operand} (hsize : v.operandStackSize = n)
    (h : v.pushOperand x = some v') : Left v v' n x v.value := by
  unfold pushOperand at h
  split at h
  · cases h
    exact ⟨rfl, by rw [hsize], by rw [hsize], rfl, rfl⟩
  · cases h

theorem popOperand_succ {n : ℕ} (hsize : v.operandStackSize = n + 1) :
    v.popOperand = some (some (v.operandStack n), { v with operandStackSize := n }) := by
  unfold popOperand
  rw [if_pos (by omega), hsize]
  rfl

theorem applyOperator_unary {opr : OprId} (hopr : opr.isUnary = true) {n : ℕ}
    (hsize : v.operandStackSize = n + 1) {r : Outcome × Vars} (h : v.applyOperator opr = some r)
    (herr : r.2.errors = []) :
    ∃ written x values, r.1 = .again written ∧
      applyUnary opr (v.operandStack n) v.value = some (x, values) ∧ Left v r.2 n x values := by
  have hbinary : binary opr = none := by
    cases opr <;> first | rfl | exact absurd hopr (by decide)
  have hpop : ({ v with operandStackSize := n } : Vars).operandStackSize = n := rfl
  unfold applyOperator at h
  rw [hbinary] at h
  unfold applyUnary
  cases hunary : unary opr with
  | some f =>
    rw [hunary] at h
    simp only [withOne, popOperand_succ hsize, Option.bind_eq_bind, Option.bind_some] at h
    obtain ⟨w, hpush, h⟩ := Option.bind_eq_some_iff.mp h
    cases h
    have hleft := pushOperand_left hpop hpush
    rw [getValue_eq] at hleft
    exact ⟨[], _, _, rfl, rfl, hleft.value, hleft.operandStack, hleft.operandStackSize,
      hleft.operatorStack, hleft.operatorStackSize⟩
  | none =>
    cases hstep : stepBy opr with
    | none =>
      rw [OprId.isUnary, hunary, hstep] at hopr
      cases hopr
    | some d =>
      rw [hunary, hstep] at h
      simp only [withOne, popOperand_succ hsize, Option.bind_eq_bind, Option.bind_some] at h
      cases href : (v.operandStack n).symbolRef with
      | none =>
        rw [href] at h
        obtain ⟨w, herror, rfl⟩ := Option.map_eq_some_iff.mp h
        exact absurd herr (error_errors herror)
      | some name =>
        rw [href] at h
        obtain ⟨w, hpush, h⟩ := Option.bind_eq_some_iff.mp h
        cases h
        have hleft := pushOperand_left (v := ({ v with operandStackSize := n } : Vars).setValue name
          _) hpop hpush
        have hvalue : ({ v with operandStackSize := n } : Vars).getValue (v.operandStack n) =
            v.value name := by simp [getValue, href]
        rw [hvalue] at hleft
        exact ⟨[(name, false)], _, _, rfl, rfl, hleft.value, hleft.operandStack,
          hleft.operandStackSize, hleft.operatorStack, hleft.operatorStackSize⟩

theorem applyOperator_binary {opr : OprId} (hopr : opr.isBinary = true) {n : ℕ}
    (hsize : v.operandStackSize = n + 2) {r : Outcome × Vars} (h : v.applyOperator opr = some r)
    (herr : r.2.errors = []) :
    ∃ written x values, r.1 = .again written ∧
      applyBinary opr (v.operandStack n) (v.operandStack (n + 1)) v.value = some (x, values) ∧
      Left v r.2 n x values := by
  have hpop : ({ v with operandStackSize := n } : Vars).operandStackSize = n := rfl
  have hpops : ({ v with operandStackSize := n + 1 } : Vars).popOperand =
      some (some (v.operandStack n), { v with operandStackSize := n }) := popOperand_succ rfl
  unfold applyOperator at h
  unfold applyBinary
  cases hbinary : binary opr with
  | some f =>
    rw [hbinary] at h
    simp only [withTwo, popOperand_succ hsize, hpops, Option.bind_eq_bind, Option.bind_some] at h
    obtain ⟨z, hf, h⟩ := Option.bind_eq_some_iff.mp h
    obtain ⟨w, hpush, h⟩ := Option.bind_eq_some_iff.mp h
    cases h
    rw [getValue_eq, getValue_eq] at hf
    have hleft := pushOperand_left hpop hpush
    refine ⟨[], ⟨none, z⟩, v.value, rfl, ?_, hleft.value, hleft.operandStack,
      hleft.operandStackSize, hleft.operatorStack, hleft.operatorStackSize⟩
    simp only at hf ⊢
    rw [hf]
    rfl
  | none =>
    have hassign : opr = .AS := by simpa [OprId.isBinary, hbinary] using hopr
    subst hassign
    rw [hbinary] at h
    simp only [withTwo, popOperand_succ hsize, hpops, Option.bind_eq_bind, Option.bind_some,
      unary, stepBy] at h
    cases href : (v.operandStack n).symbolRef with
    | none =>
      rw [href] at h
      obtain ⟨w, herror, rfl⟩ := Option.map_eq_some_iff.mp h
      exact absurd herr (error_errors herror)
    | some name =>
      rw [href] at h
      obtain ⟨w, hpush, h⟩ := Option.bind_eq_some_iff.mp h
      cases h
      rw [getValue_eq] at hpush
      have hleft := pushOperand_left (v := ({ v with operandStackSize := n } : Vars).define name _)
        hpop hpush
      exact ⟨[(name, true)], _, _, rfl, if_pos rfl, hleft.value, hleft.operandStack,
        hleft.operandStackSize, hleft.operatorStack, hleft.operatorStackSize⟩

theorem popOperand_none {w : Vars} (h : v.popOperand = some (none, w)) : w.errors ≠ [] := by
  unfold popOperand at h
  split at h
  · cases h
  · obtain ⟨w', herror, h⟩ := Option.map_eq_some_iff.mp h
    cases h
    exact error_errors herror

theorem withOne_done {k : Operand → Vars → Option (Outcome × Vars)} {x : ℤ}
    (hk : ∀ operand w w', k operand w ≠ some (.done x, w')) (h : v.withOne k = some (.done x, v')) :
    v'.errors ≠ [] := by
  obtain ⟨⟨operand, w⟩, hpop, h⟩ := Option.bind_eq_some_iff.mp h
  cases operand with
  | none =>
    cases h
    exact popOperand_none hpop
  | some operand => exact absurd h (hk operand w v')

theorem withTwo_done {k : Operand → Operand → Vars → Option (Outcome × Vars)} {x : ℤ}
    (hk : ∀ left right w w', k left right w ≠ some (.done x, w'))
    (h : v.withTwo k = some (.done x, v')) : v'.errors ≠ [] := by
  obtain ⟨⟨right, w⟩, hpop, h⟩ := Option.bind_eq_some_iff.mp h
  cases right with
  | none =>
    cases h
    exact popOperand_none hpop
  | some right =>
    obtain ⟨⟨left, w'⟩, hpop', h⟩ := Option.bind_eq_some_iff.mp h
    cases left with
    | none =>
      cases h
      exact popOperand_none hpop'
    | some left => exact absurd h (hk left right w' v')

theorem applyOperator_done {opr : OprId} (hopr : opr.isUnary = true ∨ opr.isBinary = true) {x : ℤ}
    (h : v.applyOperator opr = some (.done x, v')) : v'.errors ≠ [] := by
  unfold applyOperator at h
  split at h
  · refine withTwo_done (fun left right w w' hk => ?_) h
    obtain ⟨z, -, hk⟩ := Option.bind_eq_some_iff.mp hk
    obtain ⟨w'', -, hk⟩ := Option.bind_eq_some_iff.mp hk
    cases hk
  · refine withOne_done (fun left w w' hk => ?_) h
    obtain ⟨w'', -, hk⟩ := Option.bind_eq_some_iff.mp hk
    cases hk
  · refine withOne_done (fun left w w' hk => ?_) h
    cases href : left.symbolRef with
    | none =>
      rw [href] at hk
      obtain ⟨w'', -, hk⟩ := Option.map_eq_some_iff.mp hk
      cases hk
    | some name =>
      rw [href] at hk
      obtain ⟨w'', -, hk⟩ := Option.bind_eq_some_iff.mp hk
      cases hk
  · -- of the other operators only `:=` belongs to an expression
    have hassign : opr = .AS := by
      cases opr <;> first | rfl | exact absurd hopr (by decide) | contradiction
    subst hassign
    refine withTwo_done (fun left right w w' hk => ?_) h
    cases href : left.symbolRef with
    | none =>
      rw [href] at hk
      obtain ⟨w'', -, hk⟩ := Option.map_eq_some_iff.mp hk
      cases hk
    | some name =>
      rw [href] at hk
      obtain ⟨w'', -, hk⟩ := Option.bind_eq_some_iff.mp hk
      cases hk

/-- The operators are the same. -/
structure SameOperators (v v' : Vars) : Prop where
  stack : v'.operatorStack = v.operatorStack
  size : v'.operatorStackSize = v.operatorStackSize

theorem SameOperators.trans {v'' : Vars} (h : SameOperators v v') (h' : SameOperators v' v'') :
    SameOperators v v'' := ⟨h'.stack.trans h.stack, h'.size.trans h.size⟩

theorem sameOperators_error {e : AsmError} (h : v.error e = some v') : SameOperators v v' := by
  unfold error at h
  split at h
  · cases h
  · cases h
    exact ⟨rfl, rfl⟩

theorem sameOperators_pushOperand {x : Operand} (h : v.pushOperand x = some v') :
    SameOperators v v' := by
  unfold pushOperand at h
  split at h
  · cases h
    exact ⟨rfl, rfl⟩
  · cases h

theorem sameOperators_popOperand {r : Option Operand × Vars} (h : v.popOperand = some r) :
    SameOperators v r.2 := by
  unfold popOperand at h
  split at h
  · cases h
    exact ⟨rfl, rfl⟩
  · obtain ⟨w, herror, rfl⟩ := Option.map_eq_some_iff.mp h
    exact sameOperators_error herror

theorem sameOperators_withOne {k : Operand → Vars → Option (Outcome × Vars)} {r : Outcome × Vars}
    (hk : ∀ operand w, k operand w = some r → SameOperators w r.2) (h : v.withOne k = some r) :
    SameOperators v r.2 := by
  obtain ⟨⟨operand, w⟩, hpop, h⟩ := Option.bind_eq_some_iff.mp h
  have hsame := sameOperators_popOperand hpop
  cases operand with
  | none =>
    cases h
    exact hsame
  | some operand => exact hsame.trans (hk operand w h)

theorem sameOperators_withTwo {k : Operand → Operand → Vars → Option (Outcome × Vars)}
    {r : Outcome × Vars} (hk : ∀ left right w, k left right w = some r → SameOperators w r.2)
    (h : v.withTwo k = some r) : SameOperators v r.2 := by
  obtain ⟨⟨right, w⟩, hpop, h⟩ := Option.bind_eq_some_iff.mp h
  have hsame := sameOperators_popOperand hpop
  cases right with
  | none =>
    cases h
    exact hsame
  | some right =>
    obtain ⟨⟨left, w'⟩, hpop', h⟩ := Option.bind_eq_some_iff.mp h
    have hsame' := hsame.trans (sameOperators_popOperand hpop')
    cases left with
    | none =>
      cases h
      exact hsame'
    | some left => exact hsame'.trans (hk left right w' h)

theorem sameOperators_applyOperator {opr : OprId} {r : Outcome × Vars}
    (h : v.applyOperator opr = some r) : SameOperators v r.2 := by
  unfold applyOperator at h
  split at h
  · refine sameOperators_withTwo (fun left right w hk => ?_) h
    obtain ⟨z, -, hk⟩ := Option.bind_eq_some_iff.mp hk
    obtain ⟨w', hpush, hk⟩ := Option.bind_eq_some_iff.mp hk
    cases hk
    exact sameOperators_pushOperand hpush
  · refine sameOperators_withOne (fun left w hk => ?_) h
    obtain ⟨w', hpush, hk⟩ := Option.bind_eq_some_iff.mp hk
    cases hk
    exact sameOperators_pushOperand hpush
  · refine sameOperators_withOne (fun left w hk => ?_) h
    cases href : left.symbolRef with
    | none =>
      rw [href] at hk
      obtain ⟨w', herror, rfl⟩ := Option.map_eq_some_iff.mp hk
      exact sameOperators_error herror
    | some name =>
      rw [href] at hk
      obtain ⟨w', hpush, hk⟩ := Option.bind_eq_some_iff.mp hk
      cases hk
      have hsame := sameOperators_pushOperand hpush
      exact ⟨hsame.stack, hsame.size⟩
  · split at h
    · refine sameOperators_withOne (fun right w hk => ?_) h
      cases hk
      exact ⟨rfl, rfl⟩
    · refine sameOperators_withTwo (fun left right w hk => ?_) h
      cases href : left.symbolRef with
      | none =>
        rw [href] at hk
        obtain ⟨w', herror, rfl⟩ := Option.map_eq_some_iff.mp hk
        exact sameOperators_error herror
      | some name =>
        rw [href] at hk
        obtain ⟨w', hpush, hk⟩ := Option.bind_eq_some_iff.mp hk
        cases hk
        have hsame := sameOperators_pushOperand hpush
        exact ⟨hsame.stack, hsame.size⟩
    · cases h
      exact ⟨rfl, rfl⟩
    · cases h
      exact ⟨rfl, rfl⟩

theorem reduce_of_doExpression {n k : ℕ} (hsize : v.operatorStackSize = n + k)
    (hoprs : ∀ i < k, (v.operatorStack (n + i)).isUnary = true ∨
      (v.operatorStack (n + i)).isBinary = true)
    {r : ℤ × List (Name × Bool) × Vars} (h : v.doExpression (n + k) = some r)
    (herr : r.2.2.errors = []) :
    ∃ w, reduce k v = some w ∧ ∃ written, w.doExpression n = some (r.1, written, r.2.2) := by
  induction k generalizing v r with
  | zero => exact ⟨v, rfl, r.2.1, h⟩
  | succ k ih =>
    have hlast := hoprs k (Nat.lt_succ_self k)
    rw [← Nat.add_assoc, doExpression] at h
    obtain ⟨⟨outcome, w⟩, happly, h⟩ := Option.bind_eq_some_iff.mp h
    have htop : v.operatorStackSize - 1 = n + k := by omega
    rw [reduce, htop, happly, Option.bind_some]
    cases outcome with
    | done x =>
      cases h
      exact absurd herr (applyOperator_done hlast happly)
    | again written =>
      obtain ⟨rest, hrest, h⟩ := Option.bind_eq_some_iff.mp h
      cases h
      obtain ⟨hstack, hsize'⟩ := sameOperators_applyOperator happly
      have hoprs' : ∀ i < k, (w.operatorStack (n + i)).isUnary = true ∨
          (w.operatorStack (n + i)).isBinary = true := fun i hi => by
        rw [show w.operatorStack = v.operatorStack from hstack]
        exact hoprs i (hi.trans (Nat.lt_succ_self k))
      obtain ⟨w', hreduce, written', hend⟩ := ih hsize' hoprs' hrest herr
      exact ⟨w', hreduce, written', hend⟩

theorem reduce_errors {k : ℕ} (h : reduce k v = some v') (herr : v'.errors = []) :
    v.errors = [] := by
  induction k generalizing v with
  | zero =>
    cases h
    exact herr
  | succ k ih =>
    obtain ⟨⟨outcome, w⟩, happly, h⟩ := Option.bind_eq_some_iff.mp h
    cases outcome with
    | done x => cases h
    | again written => exact (keeps_applyOperator happly).errors (ih h)

/-- An expression has been evaluated: operand `x` is on the stack, above what was there, the values
are `values`, and behind the operand there is the literal value `behind`. -/
structure Evaluated (v v' : Vars) (x : Operand) (values : Values) (behind : ℤ) : Prop where
  value : v'.value = values
  size : v'.operandStackSize = v.operandStackSize + 1
  top : v'.operandStack v.operandStackSize = x
  below : ∀ i < v.operandStackSize, v'.operandStack i = v.operandStack i
  above : (v'.operandStack (v.operandStackSize + 1)).literalValue = behind
  operatorStackSize : v'.operatorStackSize = v.operatorStackSize
  operators : ∀ i < v.operatorStackSize, v'.operatorStack i = v.operatorStack i

/-- What is behind the place for the next operand. -/
def stale (v : Vars) : ℤ := (v.operandStack (v.operandStackSize + 1)).literalValue

theorem Evaluated.unary {w v'' : Vars} {opr : OprId} (hopr : opr.isUnary = true)
    (hpush : w = { v with
      operatorStack := update v.operatorStack v.operatorStackSize opr
      operatorStackSize := v.operatorStackSize + 1 })
    {x : Operand} {values : Values} {behind : ℤ} (h : Evaluated w v' x values behind)
    (hreduce : reduce 1 v' = some v'') (herr : v''.errors = []) :
    ∃ y values', applyUnary opr x values = some (y, values') ∧
      Evaluated v v'' y values' behind := by
  subst hpush
  obtain ⟨⟨outcome, w'⟩, happly, hreduce⟩ := Option.bind_eq_some_iff.mp hreduce
  have hsize : v'.operatorStackSize - 1 = v.operatorStackSize := by
    rw [h.operatorStackSize]
    rfl
  have htop : v'.operatorStack v.operatorStackSize = opr := by
    rw [h.operators _ (Nat.lt_succ_self _)]
    exact update_self ..
  rw [hsize, htop] at happly
  cases outcome with
  | done z => cases hreduce
  | again written =>
    cases hreduce
    obtain ⟨-, y, values', -, hy, hleft⟩ := applyOperator_unary
      (v := { v' with operatorStackSize := v.operatorStackSize }) hopr h.size happly herr
    have hx : v'.operandStack v.operandStackSize = x := h.top
    have hvalues : v'.value = values := h.value
    simp only at hy hleft
    rw [hx, hvalues] at hy
    refine ⟨y, values', hy, hleft.value, hleft.operandStackSize, ?_, fun i hi => ?_, ?_,
      hleft.operatorStackSize, fun i hi => ?_⟩
    · rw [hleft.operandStack]
      exact update_self ..
    · rw [hleft.operandStack]
      exact (update_of_ne hi.ne _ _).trans (h.below i hi)
    · rw [hleft.operandStack]
      exact (congrArg Operand.literalValue (update_of_ne (Nat.succ_ne_self _) _ _)).trans h.above
    · rw [hleft.operatorStack]
      exact (h.operators i (hi.trans (Nat.lt_succ_self _))).trans (update_of_ne hi.ne _ _)

theorem Evaluated.binary {v₀ w v'' : Vars} {opr : OprId} (hopr : opr.isBinary = true)
    {l r : Operand} {values values' : Values} {behind behind' : ℤ} (hl : Evaluated v v₀ l values behind)
    (hpush : w = { v₀ with
      operatorStack := update v₀.operatorStack v₀.operatorStackSize opr
      operatorStackSize := v₀.operatorStackSize + 1 })
    (hr : Evaluated w v' r values' behind') (hreduce : reduce 1 v' = some v'')
    (herr : v''.errors = []) :
    ∃ y values'', applyBinary opr l r values' = some (y, values'') ∧
      Evaluated v v'' y values'' r.literalValue := by
  subst hpush
  obtain ⟨⟨outcome, w'⟩, happly, hreduce⟩ := Option.bind_eq_some_iff.mp hreduce
  have hsize : v'.operatorStackSize - 1 = v.operatorStackSize := by
    rw [hr.operatorStackSize]
    exact hl.operatorStackSize
  have htop : v'.operatorStack v.operatorStackSize = opr := by
    rw [hr.operators _ (by simp only; rw [hl.operatorStackSize]; exact Nat.lt_succ_self _)]
    simp only [hl.operatorStackSize]
    exact update_self ..
  rw [hsize, htop] at happly
  have hoperands : v'.operandStackSize = v.operandStackSize + 2 := by
    rw [hr.size]
    exact congrArg (· + 1) hl.size
  have hleft : v'.operandStack v.operandStackSize = l := by
    rw [hr.below _ (by simp only; rw [hl.size]; exact Nat.lt_succ_self _)]
    exact hl.top
  have hright : v'.operandStack (v.operandStackSize + 1) = r := by
    have htop := hr.top
    simp only [hl.size] at htop
    exact htop
  cases outcome with
  | done z => cases hreduce
  | again written =>
    cases hreduce
    obtain ⟨-, y, values'', -, hy, hend⟩ := applyOperator_binary
      (v := { v' with operatorStackSize := v.operatorStackSize }) hopr hoperands happly herr
    have hvalues : v'.value = values' := hr.value
    simp only at hy hend
    rw [hleft, hright, hvalues] at hy
    refine ⟨y, values'', hy, hend.value, hend.operandStackSize, ?_, fun i hi => ?_, ?_,
      hend.operatorStackSize, fun i hi => ?_⟩
    · rw [hend.operandStack]
      exact update_self ..
    · rw [hend.operandStack]
      refine (update_of_ne hi.ne _ _).trans ((hr.below i ?_).trans (hl.below i hi))
      simp only
      rw [hl.size]
      exact hi.trans (Nat.lt_succ_self _)
    · rw [hend.operandStack]
      refine (congrArg Operand.literalValue (update_of_ne (Nat.succ_ne_self _) _ _)).trans ?_
      simp only
      rw [hright]
    · rw [hend.operatorStack]
      have hi' : i < v₀.operatorStackSize := hl.operatorStackSize ▸ hi
      have hpushed := hr.operators i (hi'.trans (Nat.lt_succ_self _))
      exact (hpushed.trans (update_of_ne hi'.ne _ _)).trans (hl.operators i hi)

end Vars

/-! ### The walk over an expression -/

theorem asmStep_rest {s : AsmState} {atom : Atom} (h : atom.isOpCode = false)
    (rest rest' : List Atom) : s.asmStep atom rest = s.asmStep atom rest' := by
  cases atom with
  | opCode i => cases h
  | operator opr => cases opr <;> rfl
  | _ => rfl

theorem walk_append {l l' : List Atom} (h : ∀ atom ∈ l, atom.isOpCode = false) (s : AsmState) :
    AsmState.walk (l ++ l') s = (AsmState.walk l s).bind (AsmState.walk l') := by
  induction l generalizing s with
  | nil => rfl
  | cons atom l ih =>
    have hatom := h atom List.mem_cons_self
    rw [List.cons_append, AsmState.walk, AsmState.walk, asmStep_rest hatom _ l]
    cases s.asmStep atom l with
    | none => rfl
    | some s' => exact ih (fun a ha => h a (List.mem_cons_of_mem _ ha)) _

/-- The instructions after the walk over an expression: only `Src1` of the last one may differ. -/
structure SameProgram (s s' : AsmState) : Prop where
  inst : s'.inst = s.inst
  index : s'.index = s.index
  others : ∀ j, j ≠ s.inst → s'.program j = s.program j
  current : ∀ x, { s'.program s.inst with src1 := x } = { s.program s.inst with src1 := x }

theorem SameProgram.trans {s s' s'' : AsmState} (h : SameProgram s s') (h' : SameProgram s' s'') :
    SameProgram s s'' where
  inst := h'.inst.trans h.inst
  index := h'.index.trans h.index
  others j hj := (h'.others j (h.inst ▸ hj)).trans (h.others j hj)
  current x := by
    have hlast := h'.current x
    rw [h.inst] at hlast
    exact hlast.trans (h.current x)

theorem SameProgram.of_eq {s s' : AsmState} (hinst : s'.inst = s.inst) (hindex : s'.index = s.index)
    (hprogram : s'.program = s.program) : SameProgram s s' :=
  ⟨hinst, hindex, fun j _ => by rw [hprogram], fun x => by rw [hprogram]⟩

/-- **The atoms of an expression**: its operators lie on top of the stack, and when they are
applied, the expression has been evaluated. -/
structure Reads (e : Expr) (s s' : AsmState) : Prop where
  expectLit : s'.expectLit = false
  program : SameProgram s s'
  operatorStackSize : s'.vars.operatorStackSize = s.vars.operatorStackSize + e.oprs.length
  operators : ∀ i < s.vars.operatorStackSize, s'.vars.operatorStack i = s.vars.operatorStack i
  oprs : ∀ i < e.oprs.length,
    (s'.vars.operatorStack (s.vars.operatorStackSize + i)).isUnary = true ∨
      (s'.vars.operatorStack (s.vars.operatorStackSize + i)).isBinary = true
  evaluates : ∀ v, Vars.reduce e.oprs.length s'.vars = some v → v.errors = [] →
    ∃ x values, e.eval s.vars.value = some (x, values) ∧
      s.vars.Evaluated v x values (e.leftover s.vars.value s.vars.stale)

theorem Reads.operand {e : Expr} (hoprs : e.oprs = []) {s s' : AsmState} {v : Vars} {x : Operand}
    (hlit : s'.expectLit = false) (hprogram : SameProgram s s')
    (hpush : v.pushOperand x = some s'.vars)
    (hstack : v.operandStack = s.vars.operandStack)
    (hsize : v.operandStackSize = s.vars.operandStackSize) (hvalue : v.value = s.vars.value)
    (hsame : s.vars.SameOperators v)
    (heval : e.eval s.vars.value = some (x, s.vars.value))
    (hleftover : e.leftover s.vars.value s.vars.stale = s.vars.stale) : Reads e s s' := by
  have hleft := Vars.pushOperand_left hsize hpush
  refine ⟨hlit, hprogram, ?_, fun i _ => ?_, fun i hi => ?_, fun w hw _ => ?_⟩
  · rw [hoprs, hleft.operatorStackSize, hsame.size]
    rfl
  · rw [hleft.operatorStack, hsame.stack]
  · rw [hoprs] at hi
    exact absurd hi (Nat.not_lt_zero _)
  · rw [hoprs] at hw
    cases hw
    refine ⟨x, s.vars.value, heval, hleft.value.trans hvalue, hleft.operandStackSize, ?_,
      fun i hi => ?_, ?_, hleft.operatorStackSize.trans hsame.size, fun i _ => ?_⟩
    · rw [hleft.operandStack]
      exact update_self ..
    · rw [hleft.operandStack, hstack]
      exact update_of_ne hi.ne _ _
    · rw [hleft.operandStack, hstack, update_of_ne (Nat.succ_ne_self _), hleftover]
      rfl
    · rw [hleft.operatorStack, hsame.stack]

/-- What a bracket around an expression leads to. -/
structure Closes (e : Expr) (s s' : AsmState) (x : Operand) (values : Values) : Prop where
  expectLit : s'.expectLit = false
  program : SameProgram s s'
  eval : e.eval s.vars.value = some (x, values)
  evaluated : s.vars.Evaluated s'.vars x values (e.leftover s.vars.value s.vars.stale)
  src1 : (s'.program s'.inst).src1 = e.leftover s.vars.value s.vars.stale

theorem pushOperator_eq {v v' : Vars} {opr : OprId} (h : v.pushOperator opr = some v') :
    v' = { v with
      operatorStack := update v.operatorStack v.operatorStackSize opr
      operatorStackSize := v.operatorStackSize + 1 } := by
  unfold Vars.pushOperator at h
  split at h
  · exact (Option.some.inj h).symm
  · cases h

theorem doExpression_bracket {w : Vars} {n : ℕ} (htop : w.operatorStack n = .STM) :
    w.doExpression (n + 1) = some ((w.operandStack w.operandStackSize).literalValue, [],
      { w with operatorStackSize := n }) := by
  rw [Vars.doExpression, htop]
  rfl

theorem closes_of_reads {e : Expr} {s s' : AsmState}
    (hreads : ∀ s₁ s₂, s₁.expectLit = false → AsmState.walk e.atoms s₁ = some s₂ →
      s₂.vars.errors = [] → Reads e s₁ s₂)
    (hwalk : AsmState.walk (Expr.paren e).atoms s = some s') (herr : s'.vars.errors = []) :
    ∃ x values, Closes e s s' x values := by
  rw [Expr.atoms, AsmState.walk] at hwalk
  obtain ⟨s₁, hopen, hinner⟩ := Option.bind_eq_some_iff.mp hwalk
  obtain ⟨v, hpush, rfl⟩ := Option.map_eq_some_iff.mp hopen
  dsimp only at hinner
  rw [walk_append (Expr.isOpCode_of_mem_atoms e)] at hinner
  obtain ⟨s₂, hatoms, hlast⟩ := Option.bind_eq_some_iff.mp hinner
  obtain ⟨s₃, hstep, hend⟩ := Option.bind_eq_some_iff.mp hlast
  cases hend
  obtain ⟨⟨y, ys, v'⟩, hdo, hclose⟩ := Option.bind_eq_some_iff.mp hstep
  cases hclose
  have hread := hreads _ s₂ rfl hatoms ((Vars.keeps_doExpression hdo).errors herr)
  have hv := pushOperator_eq hpush
  have hsize : s₂.vars.operatorStackSize = s.vars.operatorStackSize + 1 + e.oprs.length := by
    rw [hread.operatorStackSize]
    exact congrArg (· + e.oprs.length) (by rw [hv])
  have hoprs := hread.oprs
  simp only [hv] at hoprs
  rw [hsize] at hdo
  obtain ⟨w, hreduce, written, hbracket⟩ := Vars.reduce_of_doExpression hsize hoprs hdo herr
  obtain ⟨x, values, heval, hevaluated⟩ :=
    hread.evaluates w hreduce ((Vars.keeps_doExpression hbracket).errors herr)
  simp only [hv] at heval hevaluated
  have hstm : w.operatorStack s.vars.operatorStackSize = .STM := by
    rw [hevaluated.operators _ (Nat.lt_succ_self _)]
    exact update_self ..
  rw [doExpression_bracket hstm] at hbracket
  cases hbracket
  have hsrc1 : (w.operandStack w.operandStackSize).literalValue =
      e.leftover s.vars.value s.vars.stale := by
    rw [hevaluated.size]
    exact hevaluated.above
  have hinst : s₂.inst = s.inst := hread.program.inst
  refine ⟨x, values, rfl, ⟨hinst, hread.program.index, fun j hj => ?_, fun z => ?_⟩, heval,
    ⟨hevaluated.value, hevaluated.size, hevaluated.top, hevaluated.below, hevaluated.above, rfl,
      fun i hi => ?_⟩, ?_⟩
  · exact (update_of_ne (hinst ▸ hj) _ _).trans (hread.program.others j hj)
  · have hcurrent := hread.program.current z
    show { update s₂.program s₂.inst _ s.inst with src1 := z } = _
    rw [hinst, update_self]
    exact hcurrent
  · exact (hevaluated.operators i (hi.trans (Nat.lt_succ_self _))).trans (update_of_ne hi.ne _ _)
  · show (update s₂.program s₂.inst _ s₂.inst).src1 = _
    rw [update_self]
    exact hsrc1

theorem asmStep_operator {opr : OprId} (hopr : opr.isUnary = true ∨ opr.isBinary = true)
    (s : AsmState) (rest : List Atom) :
    s.asmStep (.operator opr) rest =
      (s.vars.pushOperator opr).map fun v => { s with vars := v } := by
  cases opr <;> first | rfl | exact absurd hopr (by decide)

theorem oprs_cons {v' : Vars} {opr : OprId} {n k : ℕ}
    (hopr : opr.isUnary = true ∨ opr.isBinary = true) (hstack : v'.operatorStack n = opr)
    (h : ∀ i < k, (v'.operatorStack (n + 1 + i)).isUnary = true ∨
      (v'.operatorStack (n + 1 + i)).isBinary = true) :
    ∀ i < k + 1, (v'.operatorStack (n + i)).isUnary = true ∨
      (v'.operatorStack (n + i)).isBinary = true := by
  intro i hi
  cases i with
  | zero => rwa [Nat.add_zero, hstack]
  | succ i =>
    have hlast := h i (Nat.lt_of_succ_lt_succ hi)
    rwa [Nat.add_assoc, Nat.add_comm 1] at hlast

theorem read_spec {e : Expr} (hw : e.Written) {s s' : AsmState} (hlit : s.expectLit = false)
    (hwalk : AsmState.walk e.atoms s = some s') (herr : s'.vars.errors = []) : Reads e s s' := by
  induction e generalizing s s' with
  | num x =>
    obtain ⟨s₁, hstep, hend⟩ := Option.bind_eq_some_iff.mp hwalk
    cases hend
    unfold AsmState.asmStep at hstep
    rw [hlit] at hstep
    obtain ⟨v, hpush, rfl⟩ := Option.map_eq_some_iff.mp hstep
    exact .operand rfl rfl (.of_eq rfl rfl rfl) hpush rfl rfl rfl ⟨rfl, rfl⟩ rfl rfl
  | sym name =>
    obtain ⟨s₁, hstep, hend⟩ := Option.bind_eq_some_iff.mp hwalk
    cases hend
    obtain ⟨v, hsymbol, hstep⟩ := Option.bind_eq_some_iff.mp hstep
    dsimp only at hstep
    rw [hlit] at hstep
    obtain ⟨v', hpush, rfl⟩ := Option.map_eq_some_iff.mp hstep
    obtain ⟨names, rfl⟩ : ∃ names, v = { s.vars with names := names } := by
      unfold Vars.getSymbol at hsymbol
      split at hsymbol
      · exact ⟨s.vars.names, (Option.some.inj hsymbol).symm⟩
      · split at hsymbol
        · cases hsymbol
        · exact ⟨_, (Option.some.inj hsymbol).symm⟩
    exact .operand rfl rfl (.of_eq rfl rfl rfl) hpush rfl rfl rfl ⟨rfl, rfl⟩ rfl rfl
  | paren e ih =>
    obtain ⟨x, values, h⟩ := closes_of_reads (fun s₁ s₂ => ih hw) hwalk herr
    refine ⟨h.expectLit, h.program, h.evaluated.operatorStackSize, h.evaluated.operators,
      fun i hi => absurd hi (Nat.not_lt_zero i), fun v hv _ => ?_⟩
    cases hv
    exact ⟨x, values, h.eval, h.evaluated⟩
  | un opr e ih =>
    obtain ⟨hopr, hw⟩ := hw
    obtain ⟨s₁, hstep, hrest⟩ := Option.bind_eq_some_iff.mp hwalk
    rw [asmStep_operator (.inl hopr)] at hstep
    obtain ⟨v, hpush, rfl⟩ := Option.map_eq_some_iff.mp hstep
    have hread := ih hw (s := { s with vars := v, patom := some (.operator opr) }) hlit hrest herr
    have hv := pushOperator_eq hpush
    have hsize : v.operatorStackSize = s.vars.operatorStackSize + 1 := by rw [hv]
    have hbelow : ∀ i < s.vars.operatorStackSize + 1, s'.vars.operatorStack i = v.operatorStack i :=
      fun i hi => hread.operators i (hsize.symm ▸ hi)
    have hstack : s'.vars.operatorStack s.vars.operatorStackSize = opr := by
      rw [hbelow _ (Nat.lt_succ_self _), hv]
      exact update_self ..
    have hoprs := hread.oprs
    simp only [hsize] at hoprs
    refine ⟨hread.expectLit, ⟨hread.program.inst, hread.program.index, hread.program.others,
      hread.program.current⟩, ?_, fun i hi => ?_,
      oprs_cons (.inl hopr) hstack hoprs, fun w hreduce hok => ?_⟩
    · rw [hread.operatorStackSize, Expr.oprs, List.length_cons]
      simp only [hsize]
      omega
    · rw [hbelow i (hi.trans (Nat.lt_succ_self _)), hv]
      exact update_of_ne hi.ne _ _
    · rw [Expr.oprs, List.length_cons, Vars.reduce_add] at hreduce
      obtain ⟨w', hinner, hlast⟩ := Option.bind_eq_some_iff.mp hreduce
      obtain ⟨x, values, heval, hevaluated⟩ :=
        hread.evaluates w' hinner (Vars.reduce_errors hlast hok)
      simp only [hv] at heval hevaluated
      obtain ⟨y, values', hy, hend⟩ := hevaluated.unary hopr rfl hlast hok
      refine ⟨y, values', ?_, hend⟩
      rw [Expr.eval, heval]
      exact hy
  | bin left opr right ihl ihr =>
    obtain ⟨hsimple, hopr, hwl, hwr⟩ := hw
    have hnone := hsimple.oprs
    rw [Expr.atoms, walk_append (Expr.isOpCode_of_mem_atoms left)] at hwalk
    obtain ⟨s₀, hleft, hright⟩ := Option.bind_eq_some_iff.mp hwalk
    have herr₀ := walk_errors hright herr
    have hreadl := ihl hwl hlit hleft herr₀
    obtain ⟨l, valuesl, hevall, hl⟩ := hreadl.evaluates s₀.vars (by rw [hnone]; rfl) herr₀
    obtain ⟨s₁, hstep, hrest⟩ := Option.bind_eq_some_iff.mp hright
    rw [asmStep_operator (.inr hopr)] at hstep
    obtain ⟨v, hpush, rfl⟩ := Option.map_eq_some_iff.mp hstep
    have hread := ihr hwr (s := { s₀ with vars := v, patom := some (.operator opr) })
      hreadl.expectLit hrest herr
    have hv := pushOperator_eq hpush
    have hsize₀ : s₀.vars.operatorStackSize = s.vars.operatorStackSize := hl.operatorStackSize
    have hsize : v.operatorStackSize = s.vars.operatorStackSize + 1 := by rw [hv, ← hsize₀]
    have hbelow : ∀ i < s.vars.operatorStackSize + 1, s'.vars.operatorStack i = v.operatorStack i :=
      fun i hi => hread.operators i (hsize.symm ▸ hi)
    have hstack : s'.vars.operatorStack s.vars.operatorStackSize = opr := by
      rw [hbelow _ (Nat.lt_succ_self _), hv, ← hsize₀]
      exact update_self ..
    have hoprs := hread.oprs
    simp only [hsize] at hoprs
    have hlength : (Expr.bin left opr right).oprs.length = right.oprs.length + 1 := by
      rw [Expr.oprs, hnone, List.nil_append, List.length_cons]
    have hprogram : SameProgram s₀ s' :=
      ⟨hread.program.inst, hread.program.index, hread.program.others, hread.program.current⟩
    refine ⟨hread.expectLit, hreadl.program.trans hprogram, ?_, fun i hi => ?_, ?_,
      fun w hreduce hok => ?_⟩
    · rw [hread.operatorStackSize, hlength]
      simp only [hsize]
      omega
    · rw [hbelow i (hi.trans (Nat.lt_succ_self _)), hv]
      exact (update_of_ne (hsize₀ ▸ hi.ne) _ _).trans (hreadl.operators i hi)
    · rw [hlength]
      exact oprs_cons (.inr hopr) hstack hoprs
    · rw [hlength, Vars.reduce_add] at hreduce
      obtain ⟨w', hinner, hlast⟩ := Option.bind_eq_some_iff.mp hreduce
      obtain ⟨r, valuesr, hevalr, hr⟩ := hread.evaluates w' hinner (Vars.reduce_errors hlast hok)
      simp only [hv] at hevalr hr
      rw [hl.value] at hevalr
      obtain ⟨y, values', hy, hend⟩ := hl.binary hopr rfl hr hlast hok
      refine ⟨y, values', ?_, ?_⟩
      · rw [Expr.eval, hevall]
        simp only [Option.bind_eq_bind, Option.bind_some, hevalr]
        exact hy
      · rw [Expr.leftover, hevall, Option.bind_some, hevalr]
        exact hend

/-! ### The value of an expression and the instructions before it -/

/-- An expression in brackets gives its value, and changes no instruction apart from the one whose
literal it is. -/
structure EvaluatesRight (e : Expr) (s s' : AsmState) : Prop where
  returned : e.value s.vars.value = some (s'.program s'.inst).src1
  earlier : ∀ j < s.index, (s.expectLit = true → j ≠ s.inst) → s'.program j = s.program j

/-- **Expressions.**  An expression in brackets that is assembled without an error gives its value
exactly if what is behind its operand happens to be that value, and leaves the instructions before
it alone exactly if it is the literal of the last one, or there is none, or its `Src1` is the value.
-/
theorem expression_iff {e : Expr} (hw : e.Written) {s s' : AsmState}
    (hwalk : AsmState.walk e.group s = some s') (herr : s'.vars.errors = []) :
    EvaluatesRight e s s' ↔
      e.value s.vars.value = some (e.leftover s.vars.value s.vars.stale) ∧
        (s.expectLit = true ∨ s.index ≤ s.inst ∨
          e.value s.vars.value = some (s.program s.inst).src1) := by
  obtain ⟨x, values, h⟩ :=
    closes_of_reads (fun s₁ s₂ hlit hatoms hok => read_spec hw hlit hatoms hok) hwalk herr
  have hinst := h.program.inst
  have hsrc1 := h.src1
  rw [hinst] at hsrc1
  constructor
  · intro hright
    have hvalue := hright.returned
    rw [h.src1] at hvalue
    refine ⟨hvalue, ?_⟩
    by_contra hnot
    push Not at hnot
    obtain ⟨hlit, hlt, hne⟩ := hnot
    have hsame := hright.earlier s.inst hlt fun hyes => absurd hyes hlit
    exact hne (by rw [hvalue, ← hsrc1, hsame])
  · rintro ⟨hvalue, hkept⟩
    refine ⟨by rw [h.src1, hvalue], fun j hj hother => ?_⟩
    by_cases hlast : j = s.inst
    · subst hlast
      rcases hkept with hlit | hnone | hsrc
      · exact absurd rfl (hother hlit)
      · exact absurd hj (Nat.not_lt.mpr hnone)
      · have hcurrent := h.program.current (s.program s.inst).src1
        have heq : (s'.program s.inst).src1 = (s.program s.inst).src1 := by
          rw [hsrc1]
          exact Option.some.inj (hvalue.symm.trans hsrc)
        calc s'.program s.inst
            = { s'.program s.inst with src1 := (s.program s.inst).src1 } := by rw [← heq]
          _ = s.program s.inst := hcurrent
    · exact h.program.others j hlast

/-- An assignment of a number before the first instruction. -/
theorem expression_iff_assign :
    ∃ s', AsmState.walk (Expr.bin (.sym ['X']) .AS (.num 5)).group (AsmState.start false) =
        some s' ∧
      EvaluatesRight (.bin (.sym ['X']) .AS (.num 5)) (AsmState.start false) s' :=
  ⟨_, rfl, (expression_iff (e := .bin (.sym ['X']) .AS (.num 5)) ⟨trivial, rfl, trivial, trivial⟩
    (s := AsmState.start false) rfl rfl).mpr ⟨rfl, .inr (.inl le_rfl)⟩⟩

/-- One plus two is two. -/
theorem onePlusTwo_wrong :
    ¬ ∀ (e : Expr) (s s' : AsmState), e.Written → AsmState.walk e.group s = some s' →
      s'.vars.errors = [] → EvaluatesRight e s s' := by
  intro h
  have hright := h (.bin (.num 1) .PL (.num 2)) (AsmState.start false) _
    ⟨trivial, rfl, trivial, trivial⟩ rfl rfl
  exact absurd hright.returned (by decide)

end KernelModules.Mttn
