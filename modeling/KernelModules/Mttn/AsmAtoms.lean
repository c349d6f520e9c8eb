import Mathlib.Tactic

/-!
# Source texts of the MTT assembler

`asm` cuts a source text into atoms: numbers, names, operators, brackets and the ends of lines.
A name is an op code or a register when the tables have it, otherwise a symbol.

* `atomhash` is the table of the characters, `oprNames`, `instructionSet` and `regs` the tables of
  the operators, op codes and registers;
* `strtoul` reads a number in base 8, 10 or 16;
* `getAtoms` is the list of the atoms of a text (`getAtomsLoop_eq`: the bound on its rounds plays no
  role).
-/

namespace KernelModules.Mttn

/-- The text of a name. -/
abbrev Name := List Char

/-! ### Tables -/

/-- `AtomType`, as far as the characters and the atoms have it. -/
inductive AtomType
  | seperator | operator | opens | close | comment | numeric | alpha | openIndex | closeIndex
  | illegalChar | terminator | bit | opCode | register | expression
  deriving DecidableEq, Repr

/-- The table `atomhash`. -/
def atomhash (c : Char) : AtomType :=
  if c.toNat = 0 ∨ c = '@' then .terminator
  else if c = '\t' ∨ c = '\n' ∨ c = '\r' ∨ c = ' ' ∨ c = ',' then .seperator
  else if c = '#' ∨ c = '%' then .comment
  else if c = '(' then .opens
  else if c = ')' then .close
  else if c = '[' then .openIndex
  else if c = ']' then .closeIndex
  else if c = '.' then .bit
  else if '0' ≤ c ∧ c ≤ '9' then .numeric
  else if 'A' ≤ c ∧ c ≤ 'Z' ∨ 'a' ≤ c ∧ c ≤ 'z' ∨ c = '_' then .alpha
  else if c ∈ ['!', '&', '*', '+', '-', '/', ':', ';', '<', '=', '>', '?', '~'] then .operator
  else .illegalChar

/-- `OprId`. -/
inductive OprId
  | NOOP | NE | EQ | GT | GE | LT | LE | AS | PL | MI | TI | DI | AND | OR | XOR | NOT | NEG
  | LSH | RSH | INC | DECR | POP | STM | LBL
  deriving DecidableEq, Repr

/-- `OprNames`. -/
def oprNames : List (Name × OprId) :=
  [(['?'], .NOOP), (['!', '='], .NE), (['='], .EQ), (['>'], .GT), (['>', '='], .GE), (['<'], .LT),
    (['<', '='], .LE), ([':', '='], .AS), (['+'], .PL), (['-'], .MI), (['*'], .TI), (['/'], .DI),
    (['&'], .AND), (['!'], .OR), (['!', '!'], .XOR), (['~'], .NOT), (['-', '~'], .NEG),
    (['<', '<'], .LSH), (['>', '>'], .RSH), (['+', '+'], .INC), (['-', '-'], .DECR), ([';'], .POP),
    (['-', '>'], .STM), ([':'], .LBL)]

/-- `ArgType`. -/
inductive ArgType
  | nothing | literal | address | register
  deriving DecidableEq, Repr

/-- `OpCode`, without its comment. -/
structure OpCode where
  name : Name
  number : ℕ
  src1 : ArgType
  src2 : ArgType
  dest : ArgType
  deriving DecidableEq, Repr

/-- `InstructionSet`. -/
def instructionSet : List OpCode :=
  [⟨"HALT".toList, 0x00, .nothing, .nothing, .nothing⟩,
    ⟨"NOOP".toList, 0x4d, .nothing, .nothing, .nothing⟩,
    ⟨"INT".toList, 0xc1, .literal, .nothing, .nothing⟩,
    ⟨"WEQV".toList, 0x91, .literal, .register, .nothing⟩,
    ⟨"WRLV".toList, 0x92, .literal, .register, .nothing⟩,
    ⟨"WORV".toList, 0x93, .literal, .register, .nothing⟩,
    ⟨"WEQR".toList, 0x11, .register, .register, .nothing⟩,
    ⟨"WRLR".toList, 0x12, .register, .register, .nothing⟩,
    ⟨"WORR".toList, 0x13, .register, .register, .nothing⟩,
    ⟨"MOVV".toList, 0xe2, .literal, .nothing, .register⟩,
    ⟨"MOVR".toList, 0x62, .register, .nothing, .register⟩,
    ⟨"MOVIR".toList, 0x64, .register, .nothing, .register⟩,
    ⟨"MOVRI".toList, 0x65, .register, .register, .nothing⟩,
    ⟨"ADDR".toList, 0x66, .register, .register, .register⟩,
    ⟨"SUBR".toList, 0x67, .register, .register, .register⟩,
    ⟨"LORR".toList, 0x68, .register, .register, .register⟩,
    ⟨"ANDR".toList, 0x69, .register, .register, .register⟩,
    ⟨"XORR".toList, 0x6a, .register, .register, .register⟩,
    ⟨"LSR".toList, 0x6b, .register, .register, .register⟩,
    ⟨"RSR".toList, 0x6c, .register, .register, .register⟩,
    ⟨"ADDV".toList, 0xe6, .literal, .register, .register⟩,
    ⟨"SUBV".toList, 0xe7, .literal, .register, .register⟩,
    ⟨"LORV".toList, 0xe8, .literal, .register, .register⟩,
    ⟨"ANDV".toList, 0xe9, .literal, .register, .register⟩,
    ⟨"XORV".toList, 0xea, .literal, .register, .register⟩,
    ⟨"LSV".toList, 0xeb, .literal, .register, .register⟩,
    ⟨"RSV".toList, 0xec, .literal, .register, .register⟩,
    ⟨"WDOG".toList, 0x34, .address, .nothing, .nothing⟩,
    ⟨"JMP".toList, 0x85, .address, .nothing, .nothing⟩,
    ⟨"BEQ".toList, 0x86, .address, .nothing, .nothing⟩,
    ⟨"BNE".toList, 0x87, .address, .nothing, .nothing⟩,
    ⟨"BLT".toList, 0x88, .address, .nothing, .nothing⟩,
    ⟨"BGT".toList, 0x89, .address, .nothing, .nothing⟩,
    ⟨"BLE".toList, 0x8a, .address, .nothing, .nothing⟩,
    ⟨"BGE".toList, 0x8b, .address, .nothing, .nothing⟩,
    ⟨"BCR".toList, 0x8c, .address, .nothing, .nothing⟩]

/-- `RegisterDsc`: a name, its first and last number, and the number in the name of the first. -/
structure RegisterDsc where
  name : Name
  first : ℕ
  last : ℕ
  offset : ℕ
  deriving DecidableEq, Repr

/-- `Regs`. -/
def regs : List RegisterDsc :=
  [⟨"GR".toList, 0, 211, 1⟩, ⟨"OUTPUTS".toList, 212, 212, 0⟩, ⟨"EVIN".toList, 213, 213, 0⟩,
    ⟨"EVINCNT".toList, 214, 214, 0⟩, ⟨"EVOUTCNT".toList, 215, 215, 0⟩,
    ⟨"EVOUTFB".toList, 216, 216, 0⟩, ⟨"EVOUTL".toList, 217, 217, 0⟩,
    ⟨"MSMR".toList, 218, 218, 0⟩, ⟨"TSYNC".toList, 219, 219, 0⟩, ⟨"VMEP2".toList, 220, 220, 0⟩,
    ⟨"EVOUTH".toList, 221, 221, 0⟩, ⟨"MSFR".toList, 222, 222, 0⟩,
    ⟨"SYNCFR".toList, 223, 223, 0⟩, ⟨"INDEX".toList, 224, 224, 0⟩, ⟨"LR".toList, 225, 255, 1⟩]

/-! ### Numbers -/

/-- The value of a digit. -/
def digitValue (c : Char) : Option ℕ :=
  if '0' ≤ c ∧ c ≤ '9' then some (c.toNat - 48)
  else if 'a' ≤ c ∧ c ≤ 'f' then some (c.toNat - 87)
  else if 'A' ≤ c ∧ c ≤ 'F' then some (c.toNat - 55)
  else none

/-- The digits of a base at the front of a text, added to `v`, and what follows them. -/
def readDigits (base : ℕ) : ℕ → List Char → ℕ × List Char
  | v, [] => (v, [])
  | v, c :: text =>
    match digitValue c with
    | some d => if d < base then readDigits base (base * v + d) text else (v, c :: text)
    | none => (v, c :: text)

/-- `strtoul(text, &ep, 0)` for a text without sign and blanks. -/
def strtoul (text : List Char) : ℕ × List Char :=
  match text with
  | '0' :: x :: d :: rest =>
    if (x = 'x' ∨ x = 'X') ∧ (digitValue d).isSome then readDigits 16 0 (d :: rest)
    else readDigits 8 0 text
  | '0' :: _ => readDigits 8 0 text
  | _ => readDigits 10 0 text

/-- `(int) strtoul`; a value that is too large gives `ULONG_MAX`. -/
def toInt32 (v : ℕ) : ℤ := (BitVec.ofNat 32 (min v (2 ^ 64 - 1))).toInt

/-! ### Atoms -/

/-- `Atom`: what the type of an atom says it has of text and value. -/
inductive Atom
  | numeric (value : ℤ)
  | alpha (text : Name)
  | operator (id : OprId)
  | opCode (index : ℕ)
  | register (number : ℕ)
  | seperator
  | comment
  | opens
  | close
  | openIndex
  | closeIndex
  | bit
  deriving DecidableEq, Repr

/-- `atom->Type`. -/
def Atom.type : Atom → AtomType
  | .numeric _ => .numeric
  | .alpha _ => .alpha
  | .operator _ => .operator
  | .opCode _ => .opCode
  | .register _ => .register
  | .seperator => .seperator
  | .comment => .comment
  | .opens => .opens
  | .close => .close
  | .openIndex => .openIndex
  | .closeIndex => .closeIndex
  | .bit => .bit

/-- `StrToUpper`. -/
def strToUpper (text : Name) : Name :=
  text.map fun c => if atomhash c = .alpha ∧ 'a' ≤ c then Char.ofNat (c.toNat - 32) else c

/-- `LookUpOpCode`. -/
def lookUpOpCode (text : Name) : Option ℕ :=
  if text.length ≤ 8 then instructionSet.findIdx? fun op => op.name == strToUpper text else none

/-- The second search of `LookUpRegister`: a name that starts with the one of a register. -/
def lookUpRange (text : Name) : List RegisterDsc → Option ℕ
  | [] => none
  | reg :: rest =>
    if reg.name.isPrefixOf (strToUpper text) then
      if reg.first < reg.last then
        let suffix := text.drop reg.name.length
        let r := strtoul suffix
        if reg.name.length < text.length ∧ r.2 ≠ suffix ∧ reg.offset ≤ r.1 ∧
            r.1 ≤ reg.last - reg.first + reg.offset then
          some (reg.first + r.1 - reg.offset)
        else lookUpRange text rest
      else some reg.first
    else lookUpRange text rest

/-- `LookUpRegister`. -/
def lookUpRegister (text : Name) : Option ℕ :=
  if text.length ≤ 8 then
    match regs.find? fun reg => reg.name == strToUpper text with
    | some reg => some reg.first
    | none => lookUpRange text regs
  else none

/-- The atom of a name. -/
def alphaAtom (text : Name) : Atom :=
  match lookUpOpCode text with
  | some i => .opCode i
  | none =>
    match lookUpRegister text with
    | some n => .register n
    | none => .alpha text

/-- The atom of an operator; a row of operator characters that is none has the value zero. -/
def operatorAtom (text : Name) : Atom :=
  .operator ((oprNames.find? fun p => p.1 == text).elim .NOOP Prod.snd)

/-- A character of a name. -/
def isWord (c : Char) : Bool := atomhash c = .alpha || atomhash c = .numeric

/-- A character of an operator. -/
def isOperator (c : Char) : Bool := atomhash c = .operator

/-- What a comment leaves: it ends with a second mark, which starts the next one, or with the
line. -/
def readComment : List Char → Atom × List Char
  | [] => (.seperator, [])
  | c :: text =>
    if atomhash c = .comment then (.comment, c :: text)
    else if c = '\n' ∨ c.toNat = 0 then (.seperator, text)
    else readComment text

/-- The loop of `GetAtoms`, and whether it has met an illegal character. -/
def getAtomsLoop : ℕ → List Char → List Atom × Bool
  | 0, _ => ([.seperator], false)
  | _ + 1, [] => ([.seperator], false)
  | n + 1, c :: text =>
    let continues (atom : Atom) (rest : List Char) : List Atom × Bool :=
      let r := getAtomsLoop n rest
      (atom :: r.1, r.2)
    match atomhash c with
    | .numeric =>
      let r := strtoul (c :: text)
      continues (.numeric (toInt32 r.1)) r.2
    | .alpha =>
      let word := ((c :: text).takeWhile isWord).take 128
      continues (alphaAtom word) ((c :: text).drop word.length)
    | .seperator => if c = '\n' then continues .seperator text else getAtomsLoop n text
    | .comment =>
      let r := readComment text
      continues r.1 r.2
    | .operator =>
      let opr := ((c :: text).takeWhile isOperator).take 128
      continues (operatorAtom opr) ((c :: text).drop opr.length)
    | .opens => continues .opens text
    | .close => continues .close text
    | .openIndex => continues .openIndex text
    | .closeIndex => continues .closeIndex text
    | .bit => continues .bit text
    | .illegalChar => ([.seperator], true)
    | _ => ([.seperator], false)

/-- `GetAtoms`; the last atom is the one that was made for what did not come any more. -/
def getAtoms (text : List Char) : Option (List Atom × Bool) :=
  if text.head? = some '.' then none else some (getAtomsLoop (text.length + 1) text)

/-! ### Every round reads something -/

theorem readDigits_length_le (base v : ℕ) (text : List Char) :
    (readDigits base v text).2.length ≤ text.length := by
  induction text generalizing v with
  | nil => exact le_rfl
  | cons c text ih =>
    rw [readDigits]
    split
    · split
      · exact (ih _).trans (Nat.le_succ _)
      · exact le_rfl
    · exact le_rfl

theorem readDigits_cons_length_le {base v d : ℕ} {c : Char} {text : List Char}
    (hd : digitValue c = some d) (hlt : d < base) :
    (readDigits base v (c :: text)).2.length ≤ text.length := by
  rw [readDigits, hd]
  dsimp only
  rw [if_pos hlt]
  exact readDigits_length_le _ _ _

theorem digitValue_of_numeric {c : Char} (h : atomhash c = .numeric) :
    ∃ d, digitValue c = some d ∧ d < 10 := by
  have hrange : '0' ≤ c ∧ c ≤ '9' := by
    by_contra hnot
    unfold atomhash at h
    simp only [hnot, if_false] at h
    split_ifs at h
  refine ⟨c.toNat - 48, by rw [digitValue, if_pos hrange], ?_⟩
  have hle : c.toNat ≤ 57 := hrange.2
  omega

theorem strtoul_length_le {c : Char} {text : List Char} (h : atomhash c = .numeric) :
    (strtoul (c :: text)).2.length ≤ text.length := by
  obtain ⟨d, hd, hlt⟩ := digitValue_of_numeric h
  unfold strtoul
  split
  · rename_i x e rest heq
    cases heq
    split
    · exact (readDigits_length_le _ _ _).trans (by simp)
    · exact readDigits_cons_length_le (d := 0) rfl (by omega)
  · rename_i heq
    cases heq
    exact readDigits_cons_length_le (d := 0) rfl (by omega)
  · exact readDigits_cons_length_le hd hlt

theorem readComment_length_le (text : List Char) :
    (readComment text).2.length ≤ text.length := by
  induction text with
  | nil => exact le_rfl
  | cons c text ih =>
    rw [readComment]
    split
    · exact le_rfl
    · split
      · exact Nat.le_succ _
      · exact ih.trans (Nat.le_succ _)

theorem drop_word_length_le {p : Char → Bool} {c : Char} {text : List Char} (h : p c = true) :
    ((c :: text).drop (((c :: text).takeWhile p).take 128).length).length ≤ text.length := by
  have hpos : 0 < (((c :: text).takeWhile p).take 128).length := by
    rw [List.takeWhile_cons_of_pos h]
    simp
  rw [List.length_drop, List.length_cons]
  omega

theorem getAtomsLoop_eq {n m : ℕ} {text : List Char} (hn : text.length < n)
    (hm : text.length < m) : getAtomsLoop n text = getAtomsLoop m text := by
  induction n generalizing m text with
  | zero => omega
  | succ n ih =>
    obtain ⟨m, rfl⟩ : ∃ k, m = k + 1 := ⟨m - 1, by omega⟩
    cases text with
    | nil => rfl
    | cons c text =>
      rw [List.length_cons] at hn hm
      have hrest : ∀ rest : List Char, rest.length ≤ text.length →
          getAtomsLoop n rest = getAtomsLoop m rest :=
        fun rest hle => ih (by omega) (by omega)
      rw [getAtomsLoop, getAtomsLoop]
      cases hc : atomhash c with
      | numeric => simp only [hrest _ (strtoul_length_le hc)]
      | alpha =>
        have hword : isWord c = true := by simp [isWord, hc]
        simp only [hrest _ (drop_word_length_le hword)]
      | seperator => simp only [hrest text le_rfl]
      | comment => simp only [hrest _ (readComment_length_le text)]
      | operator =>
        have hopr : isOperator c = true := by simp [isOperator, hc]
        simp only [hrest _ (drop_word_length_le hopr)]
      | _ => simp only [hrest text le_rfl]

end KernelModules.Mttn
