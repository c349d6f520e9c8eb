import Mathlib.Tactic
import KernelModules.Mttn.Assembler

/-!
# Comments of the MTT assembler

A comment stands between two marks.  `GetAtoms` does not skip the mark that ends a comment, so it
takes this mark for the start of the next comment: from the first mark to the end of its line there
are comments only, and the line ends with one separator.

* `nonComments` leaves the comments out of a list of atoms, and `Assemble` makes the same program
  from what is left (`walk_nonComments`);
* `readAtoms` are the atoms of a text without its comments, with one equation for each kind of
  character; `behindLine` is what a mark leaves of a text;
* `mode` is what `GetAtoms` is reading after a text: code, a comment, or nothing any more
  (`readAtoms_append`: only the mode and the atoms so far matter for what follows);
* a comment can be replaced by a blank when it stands at the end of a line, or behind a mark on its
  line (`CanReplace`), and in no other place (`quiet_of_eq`).
-/

namespace KernelModules.Mttn

/-! ### Atoms without comments -/

/-- The atoms that are no comments. -/
def nonComments (atoms : List Atom) : List Atom := atoms.filter (· ≠ .comment)

@[simp] theorem nonComments_comment (atoms : List Atom) :
    nonComments (.comment :: atoms) = nonComments atoms := by
  simp [nonComments]

theorem nonComments_cons {a : Atom} (ha : a ≠ .comment) (atoms : List Atom) :
    nonComments (a :: atoms) = a :: nonComments atoms := by
  simp [nonComments, ha]

/-- An atom that `GetConfirm` skips. -/
def Atom.isSkipped (a : Atom) : Bool := a = .seperator || a = .comment

theorem compareAtomTypes_seperator (a : Atom) :
    compareAtomTypes a.type .seperator = a.isSkipped := by
  cases a <;> rfl

/-- The atoms of a text: the last one is a separator, and a comment comes before a comment or a
separator. -/
inductive Closed : List Atom → Prop
  | last : Closed [.seperator]
  | comment {a : Atom} {atoms : List Atom} : a.isSkipped = true → Closed (a :: atoms) →
      Closed (.comment :: a :: atoms)
  | other {a : Atom} {atoms : List Atom} : a ≠ .comment → Closed atoms → Closed (a :: atoms)

theorem Closed.ne_nil {atoms : List Atom} (h : Closed atoms) : atoms ≠ [] := by
  cases h <;> exact List.cons_ne_nil _ _

theorem Closed.nonComments_ne_nil {atoms : List Atom} (h : Closed atoms) :
    nonComments atoms ≠ [] := by
  induction h with
  | last => simp [nonComments]
  | comment _ _ ih => rwa [nonComments_comment]
  | other ha _ _ =>
    rw [nonComments_cons ha]
    exact List.cons_ne_nil _ _

/-! ### Walking without comments -/

theorem nonComments_skipSeperators {atoms : List Atom} (h : Closed atoms) :
    skipSeperators (nonComments atoms) = nonComments (skipSeperators atoms) := by
  induction h with
  | last => rfl
  | @comment a atoms _ _ ih =>
    rw [nonComments_comment, ih, skipSeperators, compareAtomTypes_seperator]
    rfl
  | @other a atoms ha hatoms ih =>
    obtain ⟨b, rest, rfl⟩ := List.exists_cons_of_ne_nil hatoms.ne_nil
    obtain ⟨c, rest', hrest⟩ := List.exists_cons_of_ne_nil hatoms.nonComments_ne_nil
    rw [nonComments_cons ha, skipSeperators, hrest, skipSeperators, ← hrest]
    split
    · exact ih
    · rw [nonComments_cons ha]

theorem skipSeperators_closed {atoms : List Atom} (h : Closed atoms) :
    Closed (skipSeperators atoms) ∧ (skipSeperators atoms).head? ≠ some .comment := by
  induction h with
  | last => exact ⟨.last, by decide⟩
  | @comment a atoms _ _ ih =>
    rw [skipSeperators, compareAtomTypes_seperator]
    exact ih
  | @other a atoms ha hatoms ih =>
    obtain ⟨b, rest, rfl⟩ := List.exists_cons_of_ne_nil hatoms.ne_nil
    rw [skipSeperators]
    split
    · exact ih
    · exact ⟨.other ha hatoms, by simpa using ha⟩

theorem nextAtoms_cons (a : Atom) {rest : List Atom} (h : rest ≠ []) :
    nextAtoms (a :: rest) = skipSeperators rest := by
  cases rest with
  | nil => exact absurd rfl h
  | cons b rest => rfl

theorem nextAtoms_nonComments (a : Atom) {rest : List Atom} (h : Closed rest) :
    nextAtoms (a :: nonComments rest) = nonComments (nextAtoms (a :: rest)) := by
  rw [nextAtoms_cons a h.nonComments_ne_nil, nextAtoms_cons a h.ne_nil,
    nonComments_skipSeperators h]

theorem confirmArgs_nonComments {checks : List (AtomType × AsmError)} {atoms : List Atom}
    (h : Closed atoms) (hhead : atoms.head? ≠ some .comment) :
    confirmArgs checks (nonComments atoms) = confirmArgs checks atoms := by
  induction checks generalizing atoms with
  | nil => simp [confirmArgs]
  | cons check checks ih =>
    cases h with
    | last => rfl
    | comment _ _ => exact absurd rfl hhead
    | @other a rest ha hrest =>
      obtain ⟨hclosed, hfirst⟩ := skipSeperators_closed hrest
      rw [nonComments_cons ha, confirmArgs, confirmArgs, nextAtoms_nonComments a hrest,
        nextAtoms_cons a hrest.ne_nil, ih hclosed hfirst]

namespace AsmState

theorem asmStep_nonComments (s : AsmState) (a : Atom) {rest : List Atom} (h : Closed rest) :
    s.asmStep a (nonComments rest) = s.asmStep a rest := by
  cases a with
  | opCode i =>
    obtain ⟨hclosed, hfirst⟩ := skipSeperators_closed h
    have hargs : ∀ checks, confirmArgs checks (nextAtoms (.opCode i :: nonComments rest)) =
        confirmArgs checks (nextAtoms (.opCode i :: rest)) := by
      intro checks
      rw [nextAtoms_nonComments _ h, nextAtoms_cons _ h.ne_nil,
        confirmArgs_nonComments hclosed hfirst]
    unfold asmStep emit getConfirm
    simp only [hargs]
  | operator o => cases o <;> rfl
  | _ => rfl

theorem endLine_patom (s : AsmState) (p : Option Atom) :
    ({ s with patom := p } : AsmState).endLine =
      s.endLine.map fun t => { t with patom := p } := by
  unfold endLine
  dsimp only
  split
  · unfold error
    simp only [Option.map_map]
    rfl
  · rfl

theorem walk_patom {a : Atom} {rest : List Atom} (h : Closed (a :: rest))
    (ha : a.isSkipped = true) (s : AsmState) (p : Option Atom) :
    walk (a :: rest) { s with patom := p } = walk (a :: rest) s := by
  cases a with
  | comment => rfl
  | seperator =>
    rw [walk, walk]
    show (endLine _).bind _ = (endLine _).bind _
    rw [endLine_patom, Option.bind_map]
    rfl
  | _ => cases ha

theorem walk_nonComments {atoms : List Atom} (h : Closed atoms) (s : AsmState) :
    walk (nonComments atoms) s = walk atoms s := by
  induction h generalizing s with
  | last => rfl
  | comment ha hrest ih =>
    rw [nonComments_comment, ih, ← walk_patom hrest ha s (some .comment)]
    rfl
  | @other a atoms ha hatoms ih =>
    rw [nonComments_cons ha, walk, walk, asmStep_nonComments s a hatoms]
    simp only [ih]

end AsmState

/-! ### The rounds of `GetAtoms` without the comments -/

/-- What a mark leaves of a text: what follows the end of the line. -/
def behindLine : List Char → List Char
  | [] => []
  | c :: text => if c = '\n' ∨ c.toNat = 0 then text else behindLine text

theorem behindLine_length_le (text : List Char) : (behindLine text).length ≤ text.length := by
  induction text with
  | nil => exact le_rfl
  | cons c text ih =>
    rw [behindLine]
    split
    · exact Nat.le_succ _
    · exact ih.trans (Nat.le_succ _)

/-- The atom that a character starts, and what follows it.  Separators, marks and the characters
that end a text start none. -/
def readToken (c : Char) (text : List Char) : Option (Atom × List Char) :=
  match atomhash c with
  | .numeric =>
    let r := strtoul (c :: text)
    some (.numeric (toInt32 r.1), r.2)
  | .alpha =>
    let word := ((c :: text).takeWhile isWord).take 128
    some (alphaAtom word, (c :: text).drop word.length)
  | .operator =>
    let opr := ((c :: text).takeWhile isOperator).take 128
    some (operatorAtom opr, (c :: text).drop opr.length)
  | .opens => some (.opens, text)
  | .close => some (.close, text)
  | .openIndex => some (.openIndex, text)
  | .closeIndex => some (.closeIndex, text)
  | .bit => some (.bit, text)
  | _ => none

/-- The atoms of a text that are no comments, and whether it has an illegal character. -/
def readAtoms (text : List Char) : List Atom × Bool :=
  let r := getAtomsLoop (text.length + 1) text
  (nonComments r.1, r.2)

/-- Atoms in front of what a text reads. -/
def push (atoms : List Atom) (r : List Atom × Bool) : List Atom × Bool := (atoms ++ r.1, r.2)

theorem push_push (as bs : List Atom) (r : List Atom × Bool) :
    push as (push bs r) = push (as ++ bs) r := by
  rw [push, push, push, List.append_assoc]

theorem push_nil (r : List Atom × Bool) : push [] r = r := rfl

theorem readComment_cases (text : List Char) :
    readComment text = (.seperator, behindLine text) ∨
      ∃ c rest, readComment text = (.comment, c :: rest) ∧ atomhash c = .comment ∧
        rest.length < text.length ∧ behindLine rest = behindLine text := by
  induction text with
  | nil => exact .inl rfl
  | cons c text ih =>
    rw [readComment, behindLine]
    by_cases hc : atomhash c = .comment
    · have hline : ¬ (c = '\n' ∨ c.toNat = 0) := by
        rintro (rfl | hzero)
        · cases hc
        · simp [atomhash, hzero] at hc
      rw [if_pos hc, if_neg hline]
      exact .inr ⟨c, text, rfl, hc, Nat.lt_succ_self _, rfl⟩
    · rw [if_neg hc]
      split
      · exact .inl rfl
      · obtain h | ⟨d, rest, h, hd, hlen, hrest⟩ := ih
        · exact .inl h
        · exact .inr ⟨d, rest, h, hd, hlen.trans (Nat.lt_succ_self _), hrest⟩

theorem alphaAtom_ne (text : Name) : alphaAtom text ≠ .comment ∧ alphaAtom text ≠ .seperator := by
  unfold alphaAtom
  split
  · exact ⟨nofun, nofun⟩
  · split <;> exact ⟨nofun, nofun⟩

theorem readToken_ne {c : Char} {text rest : List Char} {a : Atom}
    (h : readToken c text = some (a, rest)) : a ≠ .comment ∧ a ≠ .seperator := by
  unfold readToken at h
  split at h
  case h_2 =>
    obtain ⟨rfl, -⟩ := Prod.mk.inj (Option.some.inj h)
    exact alphaAtom_ne _
  case h_9 => cases h
  all_goals
    obtain ⟨rfl, -⟩ := Prod.mk.inj (Option.some.inj h)
    exact ⟨nofun, nofun⟩

theorem readToken_length_le {c : Char} {text rest : List Char} {a : Atom}
    (h : readToken c text = some (a, rest)) : rest.length ≤ text.length := by
  unfold readToken at h
  split at h
  case h_1 hc =>
    obtain ⟨-, rfl⟩ := Prod.mk.inj (Option.some.inj h)
    exact strtoul_length_le hc
  case h_2 hc =>
    obtain ⟨-, rfl⟩ := Prod.mk.inj (Option.some.inj h)
    exact drop_word_length_le (by simp [isWord, hc])
  case h_3 hc =>
    obtain ⟨-, rfl⟩ := Prod.mk.inj (Option.some.inj h)
    exact drop_word_length_le (by simp [isOperator, hc])
  case h_9 => cases h
  all_goals
    obtain ⟨-, rfl⟩ := Prod.mk.inj (Option.some.inj h)
    exact le_rfl

theorem getAtomsLoop_token {n : ℕ} {c : Char} {text rest : List Char} {a : Atom}
    (h : readToken c text = some (a, rest)) : getAtomsLoop (n + 1) (c :: text) =
      (a :: (getAtomsLoop n rest).1, (getAtomsLoop n rest).2) := by
  unfold readToken at h
  rw [getAtomsLoop]
  split at h
  case h_9 => cases h
  all_goals
    rename_i hc
    obtain ⟨rfl, rfl⟩ := Prod.mk.inj (Option.some.inj h)
    rw [hc]

theorem getAtomsLoop_closed (n : ℕ) (text : List Char) : Closed (getAtomsLoop n text).1 := by
  induction n generalizing text with
  | zero => exact .last
  | succ n ih =>
    cases text with
    | nil => exact .last
    | cons c text =>
      cases htoken : readToken c text with
      | some r =>
        rw [getAtomsLoop_token htoken]
        exact .other (readToken_ne htoken).1 (ih _)
      | none =>
        unfold readToken at htoken
        rw [getAtomsLoop]
        cases hc : atomhash c with
        | seperator =>
          dsimp only
          split
          · exact .other (by decide) (ih text)
          · exact ih text
        | comment =>
          dsimp only
          obtain h | ⟨d, rest, h, hd, -, -⟩ := readComment_cases text
          · rw [h]
            exact .other (a := .seperator) (by decide) (ih _)
          · rw [h]
            have hrest := ih (d :: rest)
            cases n with
            | zero => exact .comment rfl .last
            | succ n =>
              rw [getAtomsLoop, hd] at hrest ⊢
              dsimp only at hrest ⊢
              obtain h' | ⟨e, rest', h', -⟩ := readComment_cases rest
              · rw [h'] at hrest ⊢
                exact .comment rfl hrest
              · rw [h'] at hrest ⊢
                exact .comment rfl hrest
        | illegalChar => exact .last
        | terminator => exact .last
        | opCode => exact .last
        | register => exact .last
        | expression => exact .last
        | _ => rw [hc] at htoken; cases htoken

theorem assemble_readAtoms (text : List Char) (h : text.head? ≠ some '.') :
    AsmState.assemble text =
      AsmState.walk (readAtoms text).1 (AsmState.start (readAtoms text).2) := by
  rw [AsmState.assemble, getAtoms, if_neg h, Option.bind_some, readAtoms,
    AsmState.walk_nonComments (getAtomsLoop_closed _ _)]

/-! ### One equation for each kind of character -/

theorem readAtoms_eq {n : ℕ} {text : List Char} (h : text.length < n) :
    readAtoms text = (nonComments (getAtomsLoop n text).1, (getAtomsLoop n text).2) := by
  rw [readAtoms, getAtomsLoop_eq (Nat.lt_succ_self _) h]

theorem readAtoms_token {c : Char} {text rest : List Char} {a : Atom}
    (h : readToken c text = some (a, rest)) :
    readAtoms (c :: text) = push [a] (readAtoms rest) := by
  rw [readAtoms, List.length_cons, getAtomsLoop_token h,
    readAtoms_eq (Nat.lt_succ_of_le (readToken_length_le h))]
  dsimp only
  rw [nonComments_cons (readToken_ne h).1]
  rfl

theorem readAtoms_newline (text : List Char) :
    readAtoms ('\n' :: text) = push [.seperator] (readAtoms text) := by
  rw [readAtoms, getAtomsLoop]
  rfl

theorem readAtoms_blank {c : Char} (hc : atomhash c = .seperator) (hline : c ≠ '\n')
    (text : List Char) : readAtoms (c :: text) = readAtoms text := by
  rw [readAtoms, getAtomsLoop, hc]
  dsimp only
  rw [if_neg hline]
  rfl

theorem readAtoms_illegal {c : Char} (hc : atomhash c = .illegalChar) (text : List Char) :
    readAtoms (c :: text) = ([.seperator], true) := by
  rw [readAtoms, getAtomsLoop, hc]
  rfl

theorem readAtoms_end {c : Char} (hc : atomhash c ∈
      [AtomType.terminator, .opCode, .register, .expression]) (text : List Char) :
    readAtoms (c :: text) = ([.seperator], false) := by
  rw [readAtoms, getAtomsLoop]
  simp only [List.mem_cons, List.not_mem_nil, or_false] at hc
  obtain hc | hc | hc | hc := hc <;> rw [hc] <;> rfl

/-- **From a mark on, the line is one separator.**  The induction is on the marks of the line: each
one but the last leaves a comment and the next mark. -/
theorem readAtoms_mark {c : Char} (hc : atomhash c = .comment) (text : List Char) :
    readAtoms (c :: text) = push [.seperator] (readAtoms (behindLine text)) := by
  induction hlen : text.length using Nat.strong_induction_on generalizing c text with
  | _ k ih =>
    subst hlen
    rw [readAtoms, List.length_cons, getAtomsLoop, hc]
    dsimp only
    obtain h | ⟨d, rest, h, hd, hlen, hrest⟩ := readComment_cases text
    · rw [h, readAtoms_eq (Nat.lt_succ_of_le (behindLine_length_le text))]
      rfl
    · have hrec := ih rest.length hlen hd rest rfl
      rw [readAtoms_eq (n := text.length + 1) (by rw [List.length_cons]; omega), hrest] at hrec
      rw [h]
      dsimp only
      rw [nonComments_comment]
      exact hrec

/-! ### Modes -/

/-- What `GetAtoms` is reading: code, a comment, or nothing any more. -/
inductive Mode
  | code
  | comment
  | stopped (illegal : Bool)
  deriving DecidableEq, Repr

namespace Mode

/-- The mode behind one character more. -/
def next : Mode → Char → Mode
  | .code, c =>
    match atomhash c with
    | .comment => .comment
    | .illegalChar => .stopped true
    | .terminator | .opCode | .register | .expression => .stopped false
    | _ => .code
  | .comment, c => if c = '\n' ∨ c.toNat = 0 then .code else .comment
  | .stopped illegal, _ => .stopped illegal

/-- What a text reads in a mode. -/
def reads : Mode → List Char → List Atom × Bool
  | .code, text => readAtoms text
  | .comment, text => push [.seperator] (readAtoms (behindLine text))
  | .stopped illegal, _ => ([.seperator], illegal)

theorem foldl_stopped (illegal : Bool) (text : List Char) :
    text.foldl next (.stopped illegal) = .stopped illegal := by
  induction text with
  | nil => rfl
  | cons c text ih => exact ih

end Mode

/-- The mode behind a text. -/
def mode (text : List Char) : Mode := text.foldl Mode.next .code

theorem mode_cons (c : Char) (text : List Char) :
    mode (c :: text) = text.foldl Mode.next (Mode.next .code c) := rfl

theorem mode_cons_code {c : Char} (hc : Mode.next .code c = .code) (text : List Char) :
    mode (c :: text) = mode text := by
  rw [mode_cons, hc, mode]

theorem mode_append_code {used : List Char} (h : ∀ c ∈ used, Mode.next .code c = .code)
    (text : List Char) : mode (used ++ text) = mode text := by
  induction used with
  | nil => rfl
  | cons c used ih =>
    rw [List.cons_append, mode_cons_code (h c List.mem_cons_self),
      ih fun d hd => h d (List.mem_cons_of_mem _ hd)]

theorem foldl_comment (text : List Char) :
    (text.foldl Mode.next .comment = .comment ∧
        ∀ rest, behindLine (text ++ rest) = behindLine rest) ∨
      (text.foldl Mode.next .comment = mode (behindLine text) ∧
        ∀ rest, behindLine (text ++ rest) = behindLine text ++ rest) := by
  induction text with
  | nil => exact .inl ⟨rfl, fun _ => rfl⟩
  | cons c text ih =>
    simp only [List.foldl_cons, List.cons_append, behindLine, Mode.next]
    by_cases hline : c = '\n' ∨ c.toNat = 0
    · rw [if_pos hline, if_pos hline]
      exact .inr ⟨rfl, fun rest => if_pos hline⟩
    · simp only [if_neg hline]
      exact ih

/-! ### Atoms in front of a boundary -/

/-- A character that ends an atom: a separator or a mark. -/
def isBoundary (c : Char) : Bool := atomhash c = .seperator || atomhash c = .comment

theorem isBoundary_mem {c : Char} (h : isBoundary c = true) :
    c ∈ ['\t', '\n', '\r', ' ', ',', '#', '%'] := by
  by_contra hnot
  simp only [List.mem_cons, List.not_mem_nil, or_false, not_or] at hnot
  obtain ⟨h1, h2, h3, h4, h5, h6, h7⟩ := hnot
  unfold isBoundary atomhash at h
  simp only [h1, h2, h3, h4, h5, h6, h7, or_self, if_false] at h
  split_ifs at h <;> cases h

section Boundary

variable {x : Char} (hx : isBoundary x = true) (t : List Char)
include hx

theorem boundary_facts : isWord x = false ∧ isOperator x = false ∧ digitValue x = none ∧
    x ≠ 'x' ∧ x ≠ 'X' := by
  have hmem := isBoundary_mem hx
  simp only [List.mem_cons, List.not_mem_nil, or_false] at hmem
  obtain rfl | rfl | rfl | rfl | rfl | rfl | rfl := hmem <;> decide

theorem readDigits_append (base v : ℕ) (text : List Char) : readDigits base v (text ++ x :: t) =
    ((readDigits base v text).1, (readDigits base v text).2 ++ x :: t) := by
  induction text generalizing v with
  | nil =>
    simp only [List.nil_append, readDigits, (boundary_facts hx).2.2.1]
  | cons c text ih =>
    rw [List.cons_append, readDigits, readDigits]
    split
    · split
      · exact ih _
      · rfl
    · rfl

theorem strtoul_append (c : Char) (text : List Char) : strtoul (c :: text ++ x :: t) =
    ((strtoul (c :: text)).1, (strtoul (c :: text)).2 ++ x :: t) := by
  obtain ⟨-, -, hdigit, hlower, hupper⟩ := boundary_facts hx
  by_cases hc : c = '0'
  · subst hc
    match text with
    | [] =>
      have hzero : strtoul ('0' :: x :: t) = readDigits 8 0 (['0'] ++ x :: t) := by
        cases t with
        | nil => rfl
        | cons d t =>
          rw [strtoul, if_neg fun h => h.1.elim hlower hupper]
          rfl
      show strtoul ('0' :: x :: t) = _
      rw [hzero, readDigits_append hx]
      rfl
    | [a] =>
      show strtoul ('0' :: a :: x :: t) = _
      rw [strtoul, if_neg fun h => by rw [hdigit] at h; cases h.2]
      exact readDigits_append hx t 8 0 ['0', a]
    | a :: d :: rest =>
      show strtoul ('0' :: a :: d :: (rest ++ x :: t)) = _
      rw [strtoul, strtoul]
      split
      · exact readDigits_append hx t 16 0 (d :: rest)
      · exact readDigits_append hx t 8 0 ('0' :: a :: d :: rest)
  · have hten : ∀ l : List Char, strtoul (c :: l) = readDigits 10 0 (c :: l) := by
      intro l
      unfold strtoul
      split
      · rename_i heq
        cases heq
        exact absurd rfl hc
      · rename_i heq
        cases heq
        exact absurd rfl hc
      · rfl
    rw [List.cons_append, hten, hten, ← List.cons_append, readDigits_append hx]

end Boundary

theorem readDigits_used (base v : ℕ) (text : List Char) :
    ∃ used, text = used ++ (readDigits base v text).2 ∧
      ∀ c ∈ used, (digitValue c).isSome = true := by
  induction text generalizing v with
  | nil => exact ⟨[], rfl, nofun⟩
  | cons c text ih =>
    rw [readDigits]
    split
    · rename_i d hd
      split
      · obtain ⟨used, htext, hused⟩ := ih (base * v + d)
        refine ⟨c :: used, by rw [List.cons_append, ← htext], fun e he => ?_⟩
        obtain rfl | he := List.mem_cons.mp he
        · rw [hd]
          rfl
        · exact hused e he
      · exact ⟨[], rfl, nofun⟩
    · exact ⟨[], rfl, nofun⟩

theorem next_digit {c : Char} (h : (digitValue c).isSome = true) : Mode.next .code c = .code := by
  have hall : ∀ k < 128, (digitValue (Char.ofNat k)).isSome = true →
      Mode.next .code (Char.ofNat k) = .code := by decide +kernel
  have hlt : c.toNat < 128 := by
    unfold digitValue at h
    split_ifs at h with h1 h2 h3
    · have hle : c.toNat ≤ 57 := h1.2
      omega
    · have hle : c.toNat ≤ 102 := h2.2
      omega
    · have hle : c.toNat ≤ 70 := h3.2
      omega
    · cases h
  have hc := hall c.toNat hlt
  rw [Char.ofNat_toNat] at hc
  exact hc h

theorem strtoul_used (text : List Char) :
    ∃ used, text = used ++ (strtoul text).2 ∧ ∀ c ∈ used, Mode.next .code c = .code := by
  have hdigits : ∀ (base : ℕ) (l : List Char), ∃ used, l = used ++ (readDigits base 0 l).2 ∧
      ∀ c ∈ used, Mode.next .code c = .code := by
    intro base l
    obtain ⟨used, hl, hused⟩ := readDigits_used base 0 l
    exact ⟨used, hl, fun c hc => next_digit (hused c hc)⟩
  unfold strtoul
  split
  · rename_i x d rest
    split
    · rename_i hhex
      obtain ⟨used, hl, hused⟩ := hdigits 16 (d :: rest)
      refine ⟨'0' :: x :: used, by rw [List.cons_append, List.cons_append, ← hl], ?_⟩
      intro c hc
      obtain rfl | hc := List.mem_cons.mp hc
      · rfl
      · obtain rfl | hc := List.mem_cons.mp hc
        · obtain rfl | rfl := hhex.1 <;> rfl
        · exact hused c hc
    · exact hdigits 8 _
  · exact hdigits 8 _
  · exact hdigits 10 _

section Row

variable {p : Char → Bool} {x : Char} (hp : p x = false) (text t : List Char)
include hp

theorem takeWhile_append_boundary : (text ++ x :: t).takeWhile p = text.takeWhile p := by
  induction text with
  | nil => simp [hp]
  | cons c text ih => simp only [List.cons_append, List.takeWhile_cons, ih]

theorem row_append (k : ℕ) :
    ((text ++ x :: t).takeWhile p).take k = (text.takeWhile p).take k ∧
      (text ++ x :: t).drop ((text.takeWhile p).take k).length =
        text.drop ((text.takeWhile p).take k).length ++ x :: t := by
  rw [takeWhile_append_boundary hp]
  refine ⟨rfl, List.drop_append_of_le_length ?_⟩
  exact ((List.take_prefix _ _).trans (List.takeWhile_prefix p)).length_le

end Row

theorem row_used {p : Char → Bool} (h : ∀ c, p c = true → Mode.next .code c = .code) (k : ℕ)
    (text : List Char) :
    mode text = mode (text.drop ((text.takeWhile p).take k).length) := by
  have hprefix : (text.takeWhile p).take k <+: text :=
    (List.take_prefix _ _).trans (List.takeWhile_prefix p)
  conv_lhs => rw [← List.prefix_iff_eq_append.mp hprefix]
  exact mode_append_code
    (fun c hc => h c (List.all_eq_true.mp List.all_takeWhile c (List.mem_of_mem_take hc))) _

theorem next_word {c : Char} (h : isWord c = true) : Mode.next .code c = .code := by
  simp only [isWord, Bool.or_eq_true, decide_eq_true_eq] at h
  obtain h | h := h <;> rw [Mode.next, h]

theorem next_operator {c : Char} (h : isOperator c = true) : Mode.next .code c = .code := by
  rw [isOperator, decide_eq_true_eq] at h
  rw [Mode.next, h]

theorem readToken_append {c : Char} {text rest : List Char} {a : Atom}
    (h : readToken c text = some (a, rest)) :
    mode (c :: text) = mode rest ∧ ∀ x t, isBoundary x = true →
      readToken c (text ++ x :: t) = some (a, rest ++ x :: t) := by
  unfold readToken at h ⊢
  cases hc : atomhash c with
  | numeric =>
    simp only [hc, Option.some.injEq, Prod.mk.injEq] at h ⊢
    obtain ⟨rfl, rfl⟩ := h
    refine ⟨?_, fun x t hx => ?_⟩
    · obtain ⟨used, htext, hused⟩ := strtoul_used (c :: text)
      conv_lhs => rw [htext]
      exact mode_append_code hused _
    · rw [← List.cons_append, strtoul_append hx]
      exact ⟨rfl, rfl⟩
  | alpha =>
    simp only [hc, Option.some.injEq, Prod.mk.injEq] at h ⊢
    obtain ⟨rfl, rfl⟩ := h
    refine ⟨row_used (fun _ => next_word) _ _, fun x t hx => ?_⟩
    obtain ⟨hrow, hrest⟩ := row_append (boundary_facts hx).1 (c :: text) t 128
    rw [← List.cons_append, hrow, hrest]
    exact ⟨rfl, rfl⟩
  | operator =>
    simp only [hc, Option.some.injEq, Prod.mk.injEq] at h ⊢
    obtain ⟨rfl, rfl⟩ := h
    refine ⟨row_used (fun _ => next_operator) _ _, fun x t hx => ?_⟩
    obtain ⟨hrow, hrest⟩ := row_append (boundary_facts hx).2.1 (c :: text) t 128
    rw [← List.cons_append, hrow, hrest]
    exact ⟨rfl, rfl⟩
  | _ =>
    rw [hc] at h
    first
    | (obtain ⟨rfl, rfl⟩ := Prod.mk.inj (Option.some.inj h)
       exact ⟨mode_cons_code (by rw [Mode.next, hc]) _, fun _ _ _ => rfl⟩)
    | cases h

theorem readAtoms_append (pre : List Char) : ∃ atoms, ∀ x t, isBoundary x = true →
    readAtoms (pre ++ x :: t) = push atoms ((mode pre).reads (x :: t)) := by
  induction hlen : pre.length using Nat.strong_induction_on generalizing pre with
  | _ k ih =>
    subst hlen
    match pre with
    | [] => exact ⟨[], fun _ _ _ => rfl⟩
    | c :: text =>
      cases htoken : readToken c text with
      | some r =>
        obtain ⟨a, rest⟩ := r
        have hle := readToken_length_le htoken
        obtain ⟨hmode, happend⟩ := readToken_append htoken
        obtain ⟨atoms, hatoms⟩ := ih rest.length (Nat.lt_succ_of_le hle) rest rfl
        refine ⟨[a] ++ atoms, fun x t hx => ?_⟩
        rw [List.cons_append, readAtoms_token (happend x t hx), hatoms x t hx, push_push, hmode]
      | none =>
        obtain ⟨atoms, hatoms⟩ := ih text.length (Nat.lt_succ_self _) text rfl
        cases hc : atomhash c with
        | seperator =>
          have hmode : mode (c :: text) = mode text := mode_cons_code (by rw [Mode.next, hc]) text
          by_cases hline : c = '\n'
          · subst hline
            refine ⟨[.seperator] ++ atoms, fun x t hx => ?_⟩
            rw [List.cons_append, readAtoms_newline, hatoms x t hx, push_push, hmode]
          · refine ⟨atoms, fun x t hx => ?_⟩
            rw [List.cons_append, readAtoms_blank hc hline, hatoms x t hx, hmode]
        | comment =>
          have hmode : mode (c :: text) = text.foldl Mode.next .comment := by
            rw [mode_cons, Mode.next, hc]
          rw [hmode]
          obtain ⟨hcomment, hbehind⟩ | ⟨hcomment, hbehind⟩ := foldl_comment text
          · refine ⟨[], fun x t _ => ?_⟩
            rw [List.cons_append, readAtoms_mark hc, hbehind, hcomment, push_nil]
            rfl
          · have hle : (behindLine text).length < (c :: text).length :=
              Nat.lt_succ_of_le (behindLine_length_le text)
            obtain ⟨behind, hrest⟩ := ih _ hle (behindLine text) rfl
            refine ⟨[.seperator] ++ behind, fun x t hx => ?_⟩
            rw [List.cons_append, readAtoms_mark hc, hbehind, hrest x t hx, push_push, hcomment]
        | illegalChar =>
          refine ⟨[], fun x t _ => ?_⟩
          rw [List.cons_append, readAtoms_illegal hc, mode_cons, Mode.next, hc,
            Mode.foldl_stopped]
          rfl
        | terminator | opCode | register | expression =>
          refine ⟨[], fun x t _ => ?_⟩
          rw [List.cons_append, readAtoms_end (by simp [hc]), mode_cons, Mode.next, hc,
            Mode.foldl_stopped]
          rfl
        | _ =>
          rw [readToken, hc] at htoken
          cases htoken

/-! ### Lines -/

/-- A character that ends no line and gives no atom. -/
def isBlank (c : Char) : Bool := atomhash c = .seperator && c ≠ '\n'

/-- Nothing but blanks comes before the end of the line or a mark. -/
def endsLine (text : List Char) : Bool :=
  (text.dropWhile isBlank).head?.any fun c => c = '\n' || atomhash c = .comment

theorem readAtoms_ne_nil (text : List Char) : (readAtoms text).1 ≠ [] :=
  (getAtomsLoop_closed _ _).nonComments_ne_nil

theorem endsLine_blank {c : Char} (hc : isBlank c = true) (text : List Char) :
    endsLine (c :: text) = endsLine text := by
  rw [endsLine, endsLine, List.dropWhile_cons_of_pos hc]

theorem endsLine_of_not_blank {c : Char} (hc : isBlank c = false) (text : List Char) :
    endsLine (c :: text) = (c = '\n' || atomhash c = .comment : Bool) := by
  rw [endsLine, List.dropWhile_cons_of_neg (by simp [hc])]
  rfl

theorem behindLine_blank {c : Char} (hc : isBlank c = true) (text : List Char) :
    behindLine (c :: text) = behindLine text := by
  simp only [isBlank, Bool.and_eq_true, decide_eq_true_eq] at hc
  have hline : ¬ (c = '\n' ∨ c.toNat = 0) := by
    rintro (h | h)
    · exact hc.2 h
    · have hhash := hc.1
      simp [atomhash, h] at hhash
  rw [behindLine, if_neg hline]

theorem behindLine_mark {c : Char} (hc : atomhash c = .comment) (text : List Char) :
    behindLine (c :: text) = behindLine text := by
  have hline : ¬ (c = '\n' ∨ c.toNat = 0) := by
    rintro (rfl | h)
    · cases hc
    · simp [atomhash, h] at hc
  rw [behindLine, if_neg hline]

theorem readAtoms_of_endsLine {text : List Char} (h : endsLine text = true) :
    readAtoms text = push [.seperator] (readAtoms (behindLine text)) := by
  induction text with
  | nil => cases h
  | cons c text ih =>
    cases hblank : isBlank c with
    | true =>
      rw [endsLine_blank hblank] at h
      rw [behindLine_blank hblank]
      simp only [isBlank, Bool.and_eq_true, decide_eq_true_eq] at hblank
      rw [readAtoms_blank hblank.1 hblank.2, ih h]
    | false =>
      rw [endsLine_of_not_blank hblank] at h
      simp only [Bool.or_eq_true, decide_eq_true_eq] at h
      obtain rfl | h := h
      · exact readAtoms_newline text
      · rw [readAtoms_mark h, behindLine_mark h]

theorem endsLine_of_readAtoms {text : List Char} {atoms : List Atom} (hne : atoms ≠ [])
    (h : (readAtoms text).1 = .seperator :: atoms) : endsLine text = true := by
  induction text with
  | nil => exact absurd (List.cons.inj h).2.symm hne
  | cons c text ih =>
    cases htoken : readToken c text with
    | some r =>
      rw [readAtoms_token htoken] at h
      exact absurd (List.cons.inj h).1 (readToken_ne htoken).2
    | none =>
      have hstop : readAtoms (c :: text) ≠ ([.seperator], true) ∧
          readAtoms (c :: text) ≠ ([.seperator], false) := by
        constructor <;>
        · intro heq
          rw [heq] at h
          exact hne (List.cons.inj h).2.symm
      cases hc : atomhash c with
      | seperator =>
        by_cases hline : c = '\n'
        · subst hline
          rfl
        · rw [endsLine_blank (by simp [isBlank, hc, hline])]
          rw [readAtoms_blank hc hline] at h
          exact ih h
      | comment =>
        rw [endsLine_of_not_blank (by simp [isBlank, hc]), hc]
        simp
      | illegalChar => exact absurd (readAtoms_illegal hc text) hstop.1
      | terminator | opCode | register | expression =>
        exact absurd (readAtoms_end (by simp [hc]) text) hstop.2
      | _ =>
        rw [readToken, hc] at htoken
        cases htoken

theorem readAtoms_seperators {seps : List Char} (h : ∀ c ∈ seps, atomhash c = .seperator)
    (text : List Char) : readAtoms (seps ++ text) =
      push (List.replicate (seps.count '\n') .seperator) (readAtoms text) := by
  induction seps with
  | nil => rfl
  | cons c seps ih =>
    have hrest := ih fun d hd => h d (List.mem_cons_of_mem _ hd)
    by_cases hline : c = '\n'
    · subst hline
      rw [List.cons_append, readAtoms_newline, hrest, push_push, List.count_cons_self,
        List.replicate_succ, List.singleton_append]
    · rw [List.cons_append, readAtoms_blank (h c List.mem_cons_self) hline, hrest,
        List.count_cons_of_ne hline]

section Body

variable {body : List Char} (hbody : ∀ c ∈ body, c.toNat ≠ 0)
include hbody

theorem behindLine_append_of_mem (hline : '\n' ∈ body) (text : List Char) :
    behindLine (body ++ text) = behindLine body ++ text := by
  induction body with
  | nil => cases hline
  | cons c body ih =>
    rw [List.cons_append, behindLine, behindLine]
    split
    · rfl
    · rename_i hc
      exact ih (fun d hd => hbody d (List.mem_cons_of_mem _ hd))
        ((List.mem_cons.mp hline).resolve_left fun h => hc (.inl h.symm))

theorem behindLine_append_of_notMem (hline : '\n' ∉ body) (text : List Char) :
    behindLine (body ++ text) = behindLine text := by
  induction body with
  | nil => rfl
  | cons c body ih =>
    rw [List.mem_cons, not_or] at hline
    rw [List.cons_append, behindLine, if_neg fun h =>
      h.elim (fun h => hline.1 h.symm) (hbody c List.mem_cons_self)]
    exact ih (fun d hd => hbody d (List.mem_cons_of_mem _ hd)) hline.2

theorem newlines_eq (hline : '\n' ∈ body) : body.filter (· = '\n') =
    '\n' :: (behindLine body).filter (· = '\n') := by
  induction body with
  | nil => cases hline
  | cons c body ih =>
    by_cases hc : c = '\n'
    · subst hc
      rw [behindLine, if_pos (.inl rfl), List.filter_cons_of_pos (by simp)]
    · rw [behindLine, if_neg fun h => h.elim hc (hbody c List.mem_cons_self),
        List.filter_cons_of_neg (by simpa using hc)]
      exact ih (fun d hd => hbody d (List.mem_cons_of_mem _ hd))
        ((List.mem_cons.mp hline).resolve_left fun h => hc h.symm)

end Body

/-! ### Room for the texts -/

/-- The characters of a comment. -/
def commentText (text : List Char) : List Char :=
  text.takeWhile fun c => !(atomhash c = .comment || c = '\n' || c.toNat = 0)

/-- The texts that the loop of `GetAtoms` puts into `text[TEXT]`: names, comments and operators. -/
def storedLoop : ℕ → List Char → List (List Char)
  | 0, _ => []
  | _ + 1, [] => []
  | n + 1, c :: text =>
    match atomhash c with
    | .numeric => storedLoop n (strtoul (c :: text)).2
    | .alpha =>
      let word := ((c :: text).takeWhile isWord).take 128
      word :: storedLoop n ((c :: text).drop word.length)
    | .seperator => storedLoop n text
    | .comment => commentText text :: storedLoop n (readComment text).2
    | .operator =>
      let opr := ((c :: text).takeWhile isOperator).take 128
      opr :: storedLoop n ((c :: text).drop opr.length)
    | .opens | .close | .openIndex | .closeIndex | .bit => storedLoop n text
    | _ => []

/-- The texts that `GetAtoms` puts into `text[TEXT]`. -/
def stored (text : List Char) : List (List Char) :=
  if text.head? = some '.' then [] else storedLoop (text.length + 1) text

/-- `text[TEXT]` has room for the texts and for the zero behind each: a comment is stored without a
check of its length, a name of 128 characters without its end. -/
def Fits (text : List Char) : Prop := ∀ t ∈ stored text, t.length < 128

instance (text : List Char) : Decidable (Fits text) :=
  inferInstanceAs (Decidable (∀ t ∈ stored text, t.length < 128))

/-! ### Replacing a comment -/

/-- A text with a comment. -/
def withComment (pre body post : List Char) : List Char := pre ++ '%' :: (body ++ '%' :: post)

/-- The text with a blank in the place of the comment, and the newlines of the comment. -/
def withBlank (pre body post : List Char) : List Char :=
  pre ++ ' ' :: (body.filter (· = '\n') ++ post)

/-- The atoms of a text that are no comments, as `GetAtoms` gives them. -/
def codeAtoms (text : List Char) : Option (List Atom) :=
  (getAtoms text).map fun r => nonComments r.1

/-- Two texts that `GetAtoms` has room for give the same atoms and the same program. -/
structure SameCode (o r : List Char) : Prop where
  fits : Fits o ∧ Fits r
  atoms : codeAtoms o = codeAtoms r
  program : AsmState.assemble o = AsmState.assemble r

/-- A comment whose line ends behind it: nothing but separators follows in its own text the first
newline there, and nothing but blanks comes behind it up to a newline or a mark. -/
def AtLineEnd (body post : List Char) : Prop :=
  (∀ c ∈ behindLine body, atomhash c = .seperator) ∧ endsLine post = true

/-- The comments that can be replaced: those that are not read, those with a mark before them on
their line, and those at the end of a line. -/
def CanReplace (pre body post : List Char) : Prop :=
  pre.head? = some '.' ∨
    match mode pre with
    | .code => AtLineEnd body post
    | .comment => '\n' ∉ body ∨ AtLineEnd body post
    | .stopped _ => True

theorem head_append {x : Char} (hx : x ≠ '.') (pre t : List Char) :
    (pre ++ x :: t).head? = some '.' ↔ pre.head? = some '.' := by
  cases pre with
  | nil => simpa using hx
  | cons c pre => rfl

theorem codeAtoms_of_not_dot {text : List Char} (h : text.head? ≠ some '.') :
    codeAtoms text = some (readAtoms text).1 := by
  rw [codeAtoms, getAtoms, if_neg h]
  rfl

theorem sameCode_of_readAtoms {o r : List Char} (hfits : Fits o ∧ Fits r)
    (ho : o.head? ≠ some '.') (hr : r.head? ≠ some '.') (h : readAtoms o = readAtoms r) :
    SameCode o r where
  fits := hfits
  atoms := by rw [codeAtoms_of_not_dot ho, codeAtoms_of_not_dot hr, h]
  program := by rw [assemble_readAtoms o ho, assemble_readAtoms r hr, h]

theorem sameCode_of_dot {o r : List Char} (hfits : Fits o ∧ Fits r)
    (ho : o.head? = some '.') (hr : r.head? = some '.') : SameCode o r := by
  have hnone : ∀ text : List Char, text.head? = some '.' → getAtoms text = none :=
    fun text h => if_pos h
  refine ⟨hfits, ?_, ?_⟩
  · rw [codeAtoms, codeAtoms, hnone o ho, hnone r hr]
  · rw [AsmState.assemble, AsmState.assemble, hnone o ho, hnone r hr]

theorem reads_mark {m : Mode} (hm : m = .code ∨ m = .comment) (t : List Char) :
    m.reads ('%' :: t) = push [.seperator] (readAtoms (behindLine t)) := by
  obtain rfl | rfl := hm
  · exact readAtoms_mark rfl t
  · exact congrArg (fun l => push _ (readAtoms l)) (behindLine_mark rfl t)

theorem reads_endsLine {m : Mode} (hm : m = .code ∨ m = .comment) {t : List Char}
    (h : endsLine t = true) :
    m.reads t = push [.seperator] (readAtoms (behindLine t)) := by
  obtain rfl | rfl := hm
  · exact readAtoms_of_endsLine h
  · rfl

theorem newlines_nil {body : List Char} (hline : '\n' ∉ body) :
    body.filter (· = '\n') = [] :=
  List.filter_eq_nil_iff.mpr fun c hc => by
    rw [decide_eq_true_eq]
    rintro rfl
    exact hline hc

section Replace

variable {pre body post : List Char} (hbody : ∀ c ∈ body, c.toNat ≠ 0)
include hbody

theorem reads_atLineEnd {m : Mode} (hm : m = .code ∨ m = .comment) (h : AtLineEnd body post) :
    m.reads ('%' :: (body ++ '%' :: post)) =
      m.reads (' ' :: (body.filter (· = '\n') ++ post)) := by
  obtain ⟨hseps, hends⟩ := h
  rw [reads_mark hm]
  by_cases hline : '\n' ∈ body
  · have hnewlines : ∀ c ∈ (behindLine body).filter (· = '\n'), atomhash c = .seperator :=
      fun c hc => hseps c (List.mem_of_mem_filter hc)
    have hcount : ((behindLine body).filter (· = '\n')).count '\n' =
        (behindLine body).count '\n' := List.count_filter (by simp)
    rw [behindLine_append_of_mem hbody hline, readAtoms_seperators hseps,
      readAtoms_mark rfl, newlines_eq hbody hline, reads_endsLine hm rfl, List.cons_append,
      behindLine_blank rfl, behindLine, if_pos (.inl rfl), readAtoms_seperators hnewlines, hcount,
      readAtoms_of_endsLine hends]
  · have hends' : endsLine (' ' :: post) = true := by rwa [endsLine_blank rfl]
    rw [newlines_nil hline, List.nil_append, behindLine_append_of_notMem hbody hline,
      behindLine_mark rfl, reads_endsLine hm hends', behindLine_blank rfl]

theorem readAtoms_of_canReplace (hdot : pre.head? ≠ some '.') (h : CanReplace pre body post) :
    readAtoms (withComment pre body post) = readAtoms (withBlank pre body post) := by
  obtain ⟨atoms, hatoms⟩ := readAtoms_append pre
  rw [withComment, withBlank, hatoms _ _ rfl, hatoms _ _ rfl]
  have h' := h.resolve_left hdot
  cases hmode : mode pre with
  | code =>
    rw [hmode] at h'
    rw [reads_atLineEnd hbody (.inl rfl) h']
  | comment =>
    rw [hmode] at h'
    obtain hline | hends := h'
    · rw [reads_mark (.inr rfl), behindLine_append_of_notMem hbody hline, behindLine_mark rfl,
        newlines_nil hline, Mode.reads, List.nil_append, behindLine_blank rfl]
    · rw [reads_atLineEnd hbody (.inr rfl) hends]
  | stopped illegal => rfl

theorem canReplace_of_readAtoms (hline : '\n' ∉ body)
    (h : (readAtoms (withComment pre body post)).1 = (readAtoms (withBlank pre body post)).1) :
    CanReplace pre body post := by
  obtain ⟨atoms, hatoms⟩ := readAtoms_append pre
  rw [withComment, withBlank, hatoms _ _ rfl, hatoms _ _ rfl] at h
  refine .inr ?_
  cases hmode : mode pre with
  | code =>
    rw [hmode, reads_mark (.inl rfl), behindLine_append_of_notMem hbody hline,
      behindLine_mark rfl, newlines_nil hline, Mode.reads, List.nil_append,
      readAtoms_blank rfl (by decide)] at h
    have hpost := List.append_cancel_left h
    refine ⟨?_, endsLine_of_readAtoms (readAtoms_ne_nil _) hpost.symm⟩
    have hnone := behindLine_append_of_notMem hbody hline []
    rw [List.append_nil] at hnone
    rw [hnone]
    exact nofun
  | comment => exact .inl hline
  | stopped illegal => trivial

end Replace

/-- **Comments and blanks.**  A text and the one with a blank in the place of a comment give the
same atoms and the same program when `text[TEXT]` has room for both and the comment is one that can
be replaced; for a comment without newlines this is the only way. -/
theorem comment_as_blank (pre body post : List Char) (hbody : ∀ c ∈ body, c.toNat ≠ 0) :
    ((Fits (withComment pre body post) ∧ Fits (withBlank pre body post)) ∧
          CanReplace pre body post →
        SameCode (withComment pre body post) (withBlank pre body post)) ∧
      ('\n' ∉ body → SameCode (withComment pre body post) (withBlank pre body post) →
        (Fits (withComment pre body post) ∧ Fits (withBlank pre body post)) ∧
          CanReplace pre body post) := by
  have hcomment : (withComment pre body post).head? = some '.' ↔ pre.head? = some '.' :=
    head_append (by decide) _ _
  have hblank : (withBlank pre body post).head? = some '.' ↔ pre.head? = some '.' :=
    head_append (by decide) _ _
  constructor
  · rintro ⟨hfits, hcan⟩
    by_cases hdot : pre.head? = some '.'
    · exact sameCode_of_dot hfits (hcomment.mpr hdot) (hblank.mpr hdot)
    · exact sameCode_of_readAtoms hfits (mt hcomment.mp hdot) (mt hblank.mp hdot)
        (readAtoms_of_canReplace hbody hdot hcan)
  · intro hline hsame
    refine ⟨hsame.fits, ?_⟩
    by_cases hdot : pre.head? = some '.'
    · exact .inl hdot
    · have hatoms := hsame.atoms
      rw [codeAtoms_of_not_dot (mt hcomment.mp hdot), codeAtoms_of_not_dot (mt hblank.mp hdot)]
        at hatoms
      exact canReplace_of_readAtoms hbody hline (Option.some.inj hatoms)

/-- A comment at the end of its line. -/
theorem comment_as_blank_line_end : SameCode (withComment "NOOP ".toList " a ".toList "\n".toList)
    (withBlank "NOOP ".toList " a ".toList "\n".toList) :=
  (comment_as_blank _ _ _ (by simp)).1 ⟨by decide +kernel, .inr (by
    show AtLineEnd _ _
    exact ⟨by simp [behindLine], by decide⟩)⟩

/-- An op code behind a comment is lost. -/
theorem comment_before_code : ¬ ∀ pre body post : List Char,
    (∀ c ∈ body, c ≠ '%' ∧ c ≠ '\n' ∧ c.toNat ≠ 0) →
      SameCode (withComment pre body post) (withBlank pre body post) := by
  intro h
  have hatoms := (h [] " a ".toList " NOOP\n".toList (by simp)).atoms
  revert hatoms
  decide +kernel

end KernelModules.Mttn
