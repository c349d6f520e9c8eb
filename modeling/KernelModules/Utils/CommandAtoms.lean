import Mathlib.Tactic

/-!
# Cutting a command line of extest into atoms

`get_atoms` goes over the line with one cursor: blanks and comments are skipped, numbers, words, strings,
operators and brackets become atoms, and an illegal character, a terminator or the last free entry of the
table end it.  The line is the list of its bytes, without the NUL behind them.

* `atomhash` is the table of the bytes, `classOf` an access to it, which fails where a negative byte is
  used as an index;
* `readText`, `skipSeparators`, `skipComment` and `strtol` are the inner loops, `token` one round of the
  outer one, and `getAtoms` the function; none is an access outside the line or an array;
* `Tidy` is a grammar of lines: tokens of at most 127 bytes, strings and comments that are closed;
* `getAtoms_safe_iff`: `get_atoms` keeps within its arrays and marks the end of the atoms exactly for the
  tidy lines.  A long word, an open string or comment, two percent marks in a row and, where `char` is
  signed, a byte above 127 are what it does not handle.
-/

namespace KernelModules.Utils.Extest

abbrev Byte := BitVec 8

/-! ### Atoms -/

/-- `atom_t`. -/
inductive AtomType
  | separator | operator | opens | close | comment | numeric | alpha | openIndex | closeIndex
  | illegalChar | terminator | bit | string
  deriving DecidableEq, Repr

/-- The numbers of the atom types, as the table has them. -/
def atomTypes : List AtomType :=
  [.separator, .operator, .opens, .close, .comment, .numeric, .alpha, .openIndex, .closeIndex,
    .illegalChar, .terminator, .bit, .string]

/-- `atomhash`. -/
def atomhash : List ℕ :=
  [10, 9, 9, 9, 9, 9, 9, 9, 9, 0, 0, 9, 9, 0, 9, 9, 9, 9, 9, 9, 9, 9, 9, 9, 9, 9, 9, 9, 9, 9, 9, 9,
    0, 1, 12, 1, 9, 4, 1, 9, 2, 3, 1, 1, 0, 1, 11, 1, 5, 5, 5, 5, 5, 5, 5, 5, 5, 5, 1, 1, 1, 1, 1, 1,
    10, 6, 6, 6, 6, 6, 6, 6, 6, 6, 6, 6, 6, 6, 6, 6, 6, 6, 6, 6, 6, 6, 6, 6, 6, 6, 6, 7, 9, 8, 9, 6,
    9, 6, 6, 6, 6, 6, 6, 6, 6, 6, 6, 6, 6, 6, 6, 6, 6, 6, 6, 6, 6, 6, 6, 6, 6, 6, 6, 9, 9, 9, 9, 9]
    ++ List.replicate 128 9

/-- `oprid_t`. -/
inductive OprId
  | NOOP | NE | EQ | GT | GE | LT | LE | AS | PL | MI | TI | DI | AND | OR | XOR | NOT | NEG
  | LSH | RSH | INC | DECR | POP | STM
  deriving DecidableEq, Repr

/-- The bytes of a text. -/
def bytes (s : String) : List Byte := s.toList.map fun c => BitVec.ofNat 8 c.toNat

/-- `oprs`, the names of the operators. -/
def oprs : List (OprId × List Byte) :=
  [(.NOOP, bytes "?"), (.NE, bytes "#"), (.EQ, bytes "="), (.GT, bytes ">"), (.GE, bytes ">="),
    (.LT, bytes "<"), (.LE, bytes "<="), (.AS, bytes ":="), (.PL, bytes "+"), (.MI, bytes "-"),
    (.TI, bytes "*"), (.DI, bytes "/"), (.AND, bytes "&"), (.OR, bytes "!"), (.XOR, bytes "!!"),
    (.NOT, bytes "##"), (.NEG, bytes "#-"), (.LSH, bytes "<<"), (.RSH, bytes ">>"), (.INC, bytes "++"),
    (.DECR, bytes "--"), (.POP, bytes ";"), (.STM, bytes "->")]

/-- `MAX_ARG_COUNT`. -/
def maxArgCount : ℕ := 256

/-- `MAX_ARG_LENGTH`. -/
def maxArgLength : ℕ := 128

/-- `struct atom`; the text is the bytes before its NUL. -/
structure Atom where
  pos : ℕ
  val : ℤ
  type : AtomType
  text : List Byte
  cmdId : ℕ
  oid : OprId
  deriving DecidableEq, Repr

/-- A cleared atom with a type. -/
def Atom.ofType (type : AtomType) : Atom := ⟨0, 0, type, [], 0, .NOOP⟩

/-- `CmdNOCM`. -/
def cmdNOCM : ℕ := 0

/-- A command of `tcmd_glob_list`, its name and its number. -/
structure CmdDesc where
  name : List Byte
  id : ℕ
  deriving DecidableEq, Repr

/-! ### Numbers -/

/-- `isdigit`. -/
def isdigit (c : Byte) : Bool := 48 ≤ c.toNat && c.toNat ≤ 57

/-- `isspace`. -/
def isspace (c : Byte) : Bool := c.toNat = 32 || (9 ≤ c.toNat && c.toNat ≤ 13)

/-- The value of a digit. -/
def digitValue (c : Byte) : Option ℕ :=
  if isdigit c then some (c.toNat - 48)
  else if 97 ≤ c.toNat ∧ c.toNat ≤ 122 then some (c.toNat - 87)
  else if 65 ≤ c.toNat ∧ c.toNat ≤ 90 then some (c.toNat - 55)
  else none

/-- A digit of a base. -/
def isDigitOf (base : ℕ) (c : Byte) : Bool := (digitValue c).any (· < base)

/-- The base that the front of a number shows, and its digits. -/
def numberBase : List Byte → ℕ × List Byte
  | 48 :: x :: d :: rest =>
    if (x = 120 ∨ x = 88) ∧ isDigitOf 16 d then (16, d :: rest) else (8, 48 :: x :: d :: rest)
  | 48 :: rest => (8, 48 :: rest)
  | text => (10, text)

/-- `strtol` with base 0, for a `long` of so many bits: the number, and what follows it. -/
def strtol (longBits : ℕ) (text : List Byte) : ℤ × List Byte :=
  let start := text.dropWhile isspace
  let (negative, unsigned) := match start with
    | 45 :: rest => (true, rest)
    | 43 :: rest => (false, rest)
    | rest => (false, rest)
  let (base, digits) := numberBase unsigned
  let run := digits.takeWhile (isDigitOf base)
  if run = [] then (0, text)
  else
    let v : ℤ := run.foldl (fun v c => v * base + (digitValue c).getD 0) 0
    let limit : ℤ := 2 ^ (longBits - 1)
    (if negative then max (-limit) (-v) else min (limit - 1) v, digits.dropWhile (isDigitOf base))

/-- The text that `%d` makes of a number. -/
def decimal (n : ℤ) : List Byte := bytes (toString n)

/-! ### The inner loops -/

section Line

variable (signed : Bool)

/-- `atomhash[(int)c]`, where `char` may be signed. -/
def classOf (c : Byte) : Option AtomType :=
  if signed ∧ 128 ≤ c.toNat then none else atomhash[c.toNat]?.bind (atomTypes[·]?)

/-- `atomhash[(int)*buf]`, at the end of the line for its NUL. -/
def headClass : List Byte → Option AtomType
  | [] => classOf signed 0
  | c :: _ => classOf signed c

/-- The final NUL of a text of `j` bytes. -/
def finish (j : ℕ) : Option Unit := if j < maxArgLength then some () else none

/-- The loop that copies the bytes whose types go on to `atoms[cnt].text`, from entry `j` on: what is
copied, and what follows it.  The NUL of the line does not go on. -/
def readText (goesOn : AtomType → Bool) : ℕ → List Byte → Option (List Byte × List Byte)
  | j, [] => do
    finish j
    return ([], [])
  | j, c :: rest => do
    let type ← classOf signed c
    if goesOn type then
      if maxArgLength ≤ j then none
      else if maxArgLength ≤ j + 1 then do
        finish (j + 1)
        return ([c], rest)
      else do
        let (text, rest) ← readText goesOn (j + 1) rest
        return (c :: text, rest)
    else do
      finish j
      return ([], c :: rest)

/-- The loop over the separators. -/
def skipSeparators : List Byte → Option (List Byte)
  | [] => some []
  | c :: rest => do
    let type ← classOf signed c
    if type = .separator then skipSeparators rest else some (c :: rest)

/-- The loop over a comment: what follows it, unless it has no end. -/
def skipComment : List Byte → Option (Option (List Byte))
  | [] => some none
  | c :: rest => do
    let type ← classOf signed c
    if type = .terminator then some none
    else if type = .comment then some (some rest)
    else skipComment rest

/-! ### The outer loop -/

/-- What a round does: an atom is stored, nothing is, or the function returns with this in the entry
behind the last atom.  The cursor is none behind the NUL of the line. -/
inductive Token
  | atom (a : Atom) (buf : Option (List Byte))
  | skip (buf : Option (List Byte))
  | last (a : Atom)

/-- The parameters of the run: the width of a `long`, the commands and the length of the line. -/
structure Setup where
  longBits : ℕ
  cmds : List CmdDesc
  length : ℕ

variable (cfg : Setup)

/-- The case `Numeric`. -/
def number (line : List Byte) : Token :=
  let r := strtol cfg.longBits line
  let val := (BitVec.ofInt 32 r.1).toInt
  .atom { Atom.ofType .numeric with val, text := (decimal val).take (maxArgLength - 1) } (some r.2)

/-- A sign and a digit. -/
def negativeNumber : List Byte → Bool
  | 45 :: c :: _ => isdigit c
  | _ => false

/-- The command with a name; the last one of the list has it. -/
def cmdIdOf (text : List Byte) : ℕ :=
  cfg.cmds.foldl (fun id cmd => if cmd.name = text then cmd.id else id) cmdNOCM

/-- The operator with a name. -/
def oidOf (text : List Byte) : OprId := ((oprs.find? (·.2 = text)).map (·.1)).getD .NOOP

/-- A round of the loop, with the cursor at `line`. -/
def token (line : List Byte) : Option Token := do
  let pos := cfg.length - line.length
  let type ← headClass signed line
  match type with
  | .numeric => return number cfg line
  | .alpha => do
    let (text, rest) ← readText signed (· = .alpha) 0 line
    return .atom { Atom.ofType .alpha with pos, text, cmdId := cmdIdOf cfg text } (some rest)
  | .string => do
    let (text, rest) ← readText signed (fun t => t ≠ .string ∧ t ≠ .terminator) 0 line.tail
    -- the closing quotes are left behind, and so is a NUL
    return .atom { Atom.ofType .string with pos, text } (if rest = [] then none else some rest.tail)
  | .separator => return .skip (some (← skipSeparators signed line))
  | .comment => do
    if (← headClass signed line.tail) = .comment then return .skip (some line.tail)
    else match ← skipComment signed line.tail with
      | some rest => return .skip (some rest)
      | none => return .last (Atom.ofType .separator)
  | .operator =>
    if negativeNumber line then return number cfg line
    else do
      let (text, rest) ← readText signed (· = .operator) 0 line
      return .atom { Atom.ofType .operator with pos, text, oid := oidOf text } (some rest)
  | .opens | .close | .openIndex | .closeIndex | .bit =>
    return .atom (Atom.ofType type) (some line.tail)
  | .illegalChar | .terminator => return .last (Atom.ofType type)

/-- The rounds of the loop, with the atoms that have been stored: the atoms and the entry behind them. -/
def getAtomsLoop : ℕ → List Atom → Option (List Byte) → Option (List Atom × Atom)
  | 0, _, _ => none
  | fuel + 1, atoms, buf =>
    if maxArgCount - 1 ≤ atoms.length then some (atoms, Atom.ofType .terminator)
    else do
      let line ← buf
      match ← token signed cfg line with
      | .atom a buf => getAtomsLoop fuel (atoms ++ [a]) buf
      | .skip buf => getAtomsLoop fuel atoms buf
      | .last a => return (atoms, a)

end Line

/-- `get_atoms`, after `atoms_init`: the atoms and the entry behind them.  A line that begins with a dot
leaves the table as it is. -/
def getAtoms (signed : Bool) (longBits : ℕ) (cmds : List CmdDesc) (fuel : ℕ) (input : List Byte) :
    Option (List Atom × Atom) :=
  if input.head? = some 46 then some ([], Atom.ofType .terminator)
  else getAtomsLoop signed ⟨longBits, cmds, input.length⟩ fuel [] (some input)

/-! ### Runs of bytes -/

section Grammar

variable (signed : Bool)

/-- The bytes of `text` have types with the property `p`, and what follows has not. -/
structure Run (p : AtomType → Prop) (text rest : List Byte) : Prop where
  all : ∀ c ∈ text, ∃ t, classOf signed c = some t ∧ p t
  stop : ∃ t, headClass signed rest = some t ∧ ¬ p t

variable {signed}

theorem headClass_nil : headClass signed [] = some .terminator := by
  cases signed <;> decide

theorem Run.nil {p : AtomType → Prop} {rest : List Byte} {t : AtomType}
    (ht : headClass signed rest = some t) (hp : ¬ p t) : Run signed p [] rest :=
  ⟨fun _ hc => absurd hc List.not_mem_nil, t, ht, hp⟩

theorem Run.cons {p : AtomType → Prop} {c : Byte} {text rest : List Byte} {t : AtomType}
    (ht : classOf signed c = some t) (hp : p t) (h : Run signed p text rest) :
    Run signed p (c :: text) rest where
  all d hd := by
    rcases List.mem_cons.mp hd with rfl | hd
    · exact ⟨t, ht, hp⟩
    · exact h.all d hd
  stop := h.stop

theorem Run.tail {p : AtomType → Prop} {c : Byte} {text rest : List Byte}
    (h : Run signed p (c :: text) rest) : Run signed p text rest :=
  ⟨fun d hd => h.all d (List.mem_cons_of_mem _ hd), h.stop⟩

theorem Run.head {p : AtomType → Prop} {c : Byte} {text rest : List Byte}
    (h : Run signed p (c :: text) rest) : ∃ t, classOf signed c = some t ∧ p t :=
  h.all c List.mem_cons_self

theorem finish_eq_some {α : Type} {j : ℕ} {x y : α} :
    (do finish j; return x : Option α) = some y ↔ j < maxArgLength ∧ x = y := by
  unfold finish
  split_ifs with h <;> simp [h]

theorem readText_eq_some {goesOn : AtomType → Bool} (hterm : goesOn .terminator = false) (j : ℕ)
    (line text rest : List Byte) :
    readText signed goesOn j line = some (text, rest) ↔
      line = text ++ rest ∧ Run signed (fun t => goesOn t = true) text rest ∧
        j + text.length < maxArgLength := by
  induction line generalizing j text with
  | nil =>
    rw [readText, finish_eq_some]
    constructor
    · rintro ⟨hj, h⟩
      obtain ⟨rfl, rfl⟩ := Prod.mk.inj h
      exact ⟨rfl, Run.nil headClass_nil (by simp [hterm]), hj⟩
    · rintro ⟨hline, -, hj⟩
      obtain ⟨rfl, rfl⟩ := List.append_eq_nil_iff.mp hline.symm
      exact ⟨hj, rfl⟩
  | cons c line ih =>
    rw [readText]
    constructor
    · intro h
      obtain ⟨t, ht, h⟩ := Option.bind_eq_some_iff.mp h
      split at h
      · rename_i hgo
        split at h
        · exact absurd h (by simp)
        · split at h
          · rename_i hfull
            rw [finish, if_neg (by omega)] at h
            exact absurd h (by simp)
          · obtain ⟨⟨text', rest'⟩, hread, h⟩ := Option.bind_eq_some_iff.mp h
            obtain ⟨rfl, rfl⟩ := Prod.mk.inj (Option.some.inj h)
            obtain ⟨rfl, hrun, hlen⟩ := (ih (j + 1) text').mp hread
            exact ⟨rfl, hrun.cons ht hgo, by rw [List.length_cons]; omega⟩
      · rename_i hstop
        obtain ⟨hj, h⟩ := finish_eq_some.mp h
        obtain ⟨rfl, rfl⟩ := Prod.mk.inj h
        exact ⟨rfl, Run.nil ht hstop, hj⟩
    · rintro ⟨hline, hrun, hlen⟩
      cases text with
      | nil =>
        obtain rfl : c :: line = rest := hline
        obtain ⟨t, ht, hstop⟩ := hrun.stop
        rw [show classOf signed c = some t from ht, Option.bind_eq_bind, Option.bind_some, if_neg hstop]
        exact finish_eq_some.mpr ⟨hlen, rfl⟩
      | cons d text =>
        obtain ⟨rfl, rfl⟩ := List.cons.inj hline
        obtain ⟨t, ht, hgo⟩ := hrun.head
        rw [List.length_cons] at hlen
        rw [ht, Option.bind_eq_bind, Option.bind_some, if_pos hgo, if_neg (by omega),
          if_neg (by omega), (ih (j + 1) text).mpr ⟨rfl, hrun.tail, by omega⟩]
        rfl

theorem skipSeparators_eq_some (line rest : List Byte) :
    skipSeparators signed line = some rest ↔
      ∃ run, line = run ++ rest ∧ Run signed (· = .separator) run rest := by
  induction line with
  | nil =>
    rw [skipSeparators]
    constructor
    · rintro h
      obtain rfl := Option.some.inj h
      exact ⟨[], rfl, Run.nil headClass_nil (by decide)⟩
    · rintro ⟨run, hline, -⟩
      rw [(List.append_eq_nil_iff.mp hline.symm).2]
  | cons c line ih =>
    rw [skipSeparators]
    constructor
    · intro h
      obtain ⟨t, ht, h⟩ := Option.bind_eq_some_iff.mp h
      split at h
      · rename_i hsep
        obtain ⟨run, rfl, hrun⟩ := ih.mp h
        exact ⟨c :: run, rfl, hrun.cons ht hsep⟩
      · rename_i hstop
        obtain rfl := Option.some.inj h
        exact ⟨[], rfl, Run.nil ht hstop⟩
    · rintro ⟨run, hline, hrun⟩
      cases run with
      | nil =>
        obtain rfl : c :: line = rest := hline
        obtain ⟨t, ht, hstop⟩ := hrun.stop
        rw [show classOf signed c = some t from ht, Option.bind_eq_bind, Option.bind_some, if_neg hstop]
      | cons d run =>
        obtain ⟨rfl, rfl⟩ := List.cons.inj hline
        obtain ⟨t, ht, hsep⟩ := hrun.head
        rw [ht, Option.bind_eq_bind, Option.bind_some, if_pos hsep]
        exact ih.mpr ⟨run, rfl, hrun.tail⟩

/-- The types of the bytes inside a comment. -/
def AtomType.InComment (t : AtomType) : Prop := t ≠ .terminator ∧ t ≠ .comment

theorem skipComment_eq_some (line rest : List Byte) :
    skipComment signed line = some (some rest) ↔
      ∃ body c, line = body ++ c :: rest ∧ classOf signed c = some .comment ∧
        ∀ d ∈ body, ∃ t, classOf signed d = some t ∧ t.InComment := by
  induction line with
  | nil =>
    rw [skipComment]
    constructor
    · intro h
      exact absurd (Option.some.inj h) (by simp)
    · rintro ⟨body, c, hline, -⟩
      exact absurd hline (by simp)
  | cons c line ih =>
    rw [skipComment]
    constructor
    · intro h
      obtain ⟨t, ht, h⟩ := Option.bind_eq_some_iff.mp h
      split at h
      · exact absurd (Option.some.inj h) (by simp)
      · rename_i hterm
        split at h
        · rename_i hcomment
          obtain rfl := Option.some.inj (Option.some.inj h)
          exact ⟨[], c, rfl, hcomment ▸ ht, fun _ hd => absurd hd List.not_mem_nil⟩
        · rename_i hcomment
          obtain ⟨body, d, rfl, hd, hbody⟩ := ih.mp h
          refine ⟨c :: body, d, rfl, hd, fun e he => ?_⟩
          rcases List.mem_cons.mp he with rfl | he
          · exact ⟨t, ht, hterm, hcomment⟩
          · exact hbody e he
    · rintro ⟨body, d, hline, hd, hbody⟩
      cases body with
      | nil =>
        obtain ⟨rfl, rfl⟩ := List.cons.inj hline
        rw [hd, Option.bind_eq_bind, Option.bind_some, if_neg (by decide), if_pos rfl]
      | cons e body =>
        obtain ⟨rfl, rfl⟩ := List.cons.inj hline
        obtain ⟨t, ht, hterm, hcomment⟩ := hbody c List.mem_cons_self
        rw [ht, Option.bind_eq_bind, Option.bind_some, if_neg hterm, if_neg hcomment]
        exact ih.mpr ⟨body, d, rfl, hd, fun e he => hbody e (List.mem_cons_of_mem _ he)⟩

/-! ### The grammar -/

/-- The types that end the atoms. -/
def AtomType.EndsLine (t : AtomType) : Prop := t = .terminator ∨ t = .illegalChar

/-- The types of the bytes inside a string. -/
def AtomType.InString (t : AtomType) : Prop := t ≠ .string ∧ t ≠ .terminator

/-- The types that are an atom by themselves. -/
def AtomType.Bracket (t : AtomType) : Prop :=
  t = .opens ∨ t = .close ∨ t = .openIndex ∨ t = .closeIndex ∨ t = .bit

variable (signed)

/-- What is skipped at the front of a line, and what follows it.  Of two percent marks in a row the second
one begins the comment. -/
inductive Blank : List Byte → List Byte → Prop
  | separators {run line : List Byte} : run ≠ [] → Run signed (· = .separator) run line →
      Blank (run ++ line) line
  | comment {c d : Byte} {body line : List Byte} : classOf signed c = some .comment →
      classOf signed d = some .comment → body ≠ [] →
      (∀ e ∈ body, ∃ t, classOf signed e = some t ∧ t.InComment) → Blank (c :: (body ++ d :: line)) line
  | marks {c d : Byte} {line : List Byte} : classOf signed c = some .comment →
      classOf signed d = some .comment → Blank (c :: d :: line) (d :: line)

variable (longBits : ℕ)

/-- What makes an atom at the front of a line, and what follows it: nothing behind an open string. -/
inductive Lexeme : List Byte → Option (List Byte) → Prop
  | number {line : List Byte} : headClass signed line = some .numeric →
      Lexeme line (some (strtol longBits line).2)
  | negative {line : List Byte} : headClass signed line = some .operator → negativeNumber line →
      Lexeme line (some (strtol longBits line).2)
  | word {text line : List Byte} : text ≠ [] → Run signed (· = .alpha) text line →
      text.length < maxArgLength → Lexeme (text ++ line) (some line)
  | operator {text line : List Byte} : text ≠ [] → Run signed (· = .operator) text line →
      ¬ negativeNumber (text ++ line) → text.length < maxArgLength → Lexeme (text ++ line) (some line)
  | string {q e : Byte} {text line : List Byte} : classOf signed q = some .string →
      Run signed AtomType.InString text (e :: line) → text.length < maxArgLength →
      Lexeme (q :: (text ++ e :: line)) (some line)
  | openString {q : Byte} {text : List Byte} : classOf signed q = some .string →
      Run signed AtomType.InString text [] → text.length < maxArgLength → Lexeme (q :: text) none
  | bracket {c : Byte} {line : List Byte} {t : AtomType} : classOf signed c = some t → t.Bracket →
      Lexeme (c :: line) (some line)

/-- **Tidy lines**, of which at most `n` atoms are taken: what is skipped and what makes an atom, as far as
the line is looked at. -/
inductive Tidy : ℕ → Option (List Byte) → Prop
  | full {buf : Option (List Byte)} : Tidy 0 buf
  | stop {n : ℕ} {line : List Byte} {t : AtomType} : headClass signed line = some t → t.EndsLine →
      Tidy n (some line)
  | blank {n : ℕ} {line rest : List Byte} : Blank signed line rest → Tidy (n + 1) (some rest) →
      Tidy (n + 1) (some line)
  | lexeme {n : ℕ} {line : List Byte} {buf : Option (List Byte)} : Lexeme signed longBits line buf →
      Tidy n buf → Tidy (n + 1) (some line)

variable {signed longBits}

/-! ### One round -/

variable {cfg : Setup}

theorem Run.headClass_eq {p : AtomType → Prop} {text line : List Byte} (h : Run signed p text line)
    (hne : text ≠ []) : ∃ t, headClass signed (text ++ line) = some t ∧ p t := by
  cases text with
  | nil => exact absurd rfl hne
  | cons c text => exact h.head

theorem Run.ne_nil {p : AtomType → Prop} {text line : List Byte} (h : Run signed p text line)
    {t : AtomType} (ht : headClass signed (text ++ line) = some t) (hp : p t) : text ≠ [] := by
  rintro rfl
  obtain ⟨u, hu, hstop⟩ := h.stop
  obtain rfl := Option.some.inj (ht.symm.trans hu)
  exact hstop hp

theorem readText_alpha_iff (line text rest : List Byte) :
    readText signed (· = .alpha) 0 line = some (text, rest) ↔
      line = text ++ rest ∧ Run signed (· = .alpha) text rest ∧ text.length < maxArgLength := by
  rw [readText_eq_some (by decide), Nat.zero_add]
  simp only [decide_eq_true_eq]

theorem readText_operator_iff (line text rest : List Byte) :
    readText signed (· = .operator) 0 line = some (text, rest) ↔
      line = text ++ rest ∧ Run signed (· = .operator) text rest ∧ text.length < maxArgLength := by
  rw [readText_eq_some (by decide), Nat.zero_add]
  simp only [decide_eq_true_eq]

theorem readText_string_iff (line text rest : List Byte) :
    readText signed (fun t => t ≠ .string ∧ t ≠ .terminator) 0 line = some (text, rest) ↔
      line = text ++ rest ∧ Run signed AtomType.InString text rest ∧ text.length < maxArgLength := by
  rw [readText_eq_some (by decide), Nat.zero_add]
  simp only [decide_eq_true_eq]
  rfl

/-- What a round says of the front of the line. -/
def Token.Fits (signed : Bool) (longBits : ℕ) (line : List Byte) : Token → Prop
  | .atom _ buf => Lexeme signed longBits line buf
  | .skip buf => ∃ rest, buf = some rest ∧ Blank signed line rest
  | .last a => a.type.EndsLine → ∃ t, headClass signed line = some t ∧ t.EndsLine

theorem comment_fits {c : Byte} {line : List Byte} {tok : Token} (hc : classOf signed c = some .comment)
    (h : token signed cfg (c :: line) = some tok) : tok.Fits signed cfg.longBits (c :: line) := by
  unfold token at h
  rw [show headClass signed (c :: line) = some .comment from hc, Option.bind_eq_bind,
    Option.bind_some] at h
  obtain ⟨t, ht, h⟩ := Option.bind_eq_some_iff.mp h
  rw [List.tail_cons] at ht h
  split at h
  · rename_i hmark
    subst hmark
    obtain rfl := Option.some.inj h
    cases line with
    | nil => exact absurd (headClass_nil.symm.trans ht) (by decide)
    | cons d line => exact ⟨d :: line, rfl, .marks hc ht⟩
  · rename_i hmark
    obtain ⟨r, hskip, h⟩ := Option.bind_eq_some_iff.mp h
    cases r with
    | some rest =>
      obtain rfl := Option.some.inj h
      obtain ⟨body, d, rfl, hd, hbody⟩ := (skipComment_eq_some line rest).mp hskip
      refine ⟨rest, rfl, .comment hc hd ?_ hbody⟩
      rintro rfl
      exact hmark (Option.some.inj (ht.symm.trans hd))
    | none =>
      obtain rfl := Option.some.inj h
      rintro (hend | hend) <;> exact absurd hend (by decide)

theorem token_fits {line : List Byte} {tok : Token} (h : token signed cfg line = some tok) :
    tok.Fits signed cfg.longBits line := by
  have hround := h
  unfold token at h
  obtain ⟨t, ht, h⟩ := Option.bind_eq_some_iff.mp h
  -- no round but the last stands at the end of the line
  have hcons (hne : t ≠ .terminator) : ∃ c rest, line = c :: rest ∧ classOf signed c = some t := by
    cases line with
    | nil => exact absurd (Option.some.inj (ht.symm.trans headClass_nil)) hne
    | cons c rest => exact ⟨c, rest, rfl, ht⟩
  have hbracket (hb : t.Bracket) (hne : t ≠ .terminator) (h : Token.atom (Atom.ofType t)
      (some line.tail) = tok) : tok.Fits signed cfg.longBits line := by
    subst h
    obtain ⟨c, rest, rfl, hc⟩ := hcons hne
    exact Lexeme.bracket hc hb
  cases t with
  | numeric =>
    obtain rfl := Option.some.inj h
    exact Lexeme.number ht
  | alpha =>
    obtain ⟨⟨text, rest⟩, hread, h⟩ := Option.bind_eq_some_iff.mp h
    obtain rfl := Option.some.inj h
    obtain ⟨rfl, hrun, hlen⟩ := (readText_alpha_iff _ _ _).mp hread
    exact Lexeme.word (hrun.ne_nil ht rfl) hrun hlen
  | string =>
    obtain ⟨q, rest, rfl, hq⟩ := hcons (by decide)
    obtain ⟨⟨text, rest'⟩, hread, h⟩ := Option.bind_eq_some_iff.mp h
    obtain rfl := Option.some.inj h
    obtain ⟨hline, hrun, hlen⟩ := (readText_string_iff _ _ _).mp hread
    rw [List.tail_cons] at hline
    subst hline
    cases rest' with
    | nil =>
      rw [List.append_nil]
      exact Lexeme.openString hq hrun hlen
    | cons e rest' => exact Lexeme.string hq hrun hlen
  | separator =>
    obtain ⟨rest, hskip, h⟩ := Option.bind_eq_some_iff.mp h
    obtain rfl := Option.some.inj h
    obtain ⟨run, rfl, hrun⟩ := (skipSeparators_eq_some _ _).mp hskip
    exact ⟨rest, rfl, .separators (hrun.ne_nil ht rfl) hrun⟩
  | comment =>
    obtain ⟨c, rest, rfl, hc⟩ := hcons (by decide)
    exact comment_fits hc hround
  | operator =>
    dsimp only at h
    split at h
    · rename_i hneg
      obtain rfl := Option.some.inj h
      exact Lexeme.negative ht hneg
    · rename_i hneg
      obtain ⟨⟨text, rest⟩, hread, h⟩ := Option.bind_eq_some_iff.mp h
      obtain rfl := Option.some.inj h
      obtain ⟨rfl, hrun, hlen⟩ := (readText_operator_iff _ _ _).mp hread
      exact Lexeme.operator (hrun.ne_nil ht rfl) hrun hneg hlen
  | opens => exact hbracket (.inl rfl) (by decide) (Option.some.inj h)
  | close => exact hbracket (.inr (.inl rfl)) (by decide) (Option.some.inj h)
  | openIndex => exact hbracket (.inr (.inr (.inl rfl))) (by decide) (Option.some.inj h)
  | closeIndex => exact hbracket (.inr (.inr (.inr (.inl rfl)))) (by decide) (Option.some.inj h)
  | bit => exact hbracket (.inr (.inr (.inr (.inr rfl)))) (by decide) (Option.some.inj h)
  | illegalChar =>
    obtain rfl := Option.some.inj h
    exact fun _ => ⟨_, ht, .inr rfl⟩
  | terminator =>
    obtain rfl := Option.some.inj h
    exact fun _ => ⟨_, ht, .inl rfl⟩

theorem token_stop {line : List Byte} {t : AtomType} (ht : headClass signed line = some t)
    (hend : t.EndsLine) : token signed cfg line = some (.last (Atom.ofType t)) := by
  unfold token
  rw [ht, Option.bind_eq_bind, Option.bind_some]
  obtain rfl | rfl := hend <;> rfl

theorem Blank.token_eq {line rest : List Byte} (h : Blank signed line rest) :
    token signed cfg line = some (.skip (some rest)) := by
  cases h with
  | separators hne hrun =>
    obtain ⟨t, ht, rfl⟩ := hrun.headClass_eq hne
    unfold token
    rw [ht, Option.bind_eq_bind, Option.bind_some]
    dsimp only
    rw [(skipSeparators_eq_some _ _).mpr ⟨_, rfl, hrun⟩]
    rfl
  | @comment c d body line hc hd hne hbody =>
    unfold token
    rw [show headClass signed (c :: _) = some .comment from hc, Option.bind_eq_bind, Option.bind_some]
    dsimp only
    cases body with
    | nil => exact absurd rfl hne
    | cons e body =>
      obtain ⟨t, ht, hin⟩ := hbody e List.mem_cons_self
      rw [List.tail_cons, show headClass signed (e :: body ++ d :: rest) = some t from ht,
        Option.bind_some, if_neg hin.2, (skipComment_eq_some _ _).mpr ⟨_, d, rfl, hd, hbody⟩]
      rfl
  | @marks c d line hc hd =>
    unfold token
    rw [show headClass signed (c :: _) = some .comment from hc, Option.bind_eq_bind, Option.bind_some]
    dsimp only
    rw [List.tail_cons, show headClass signed (d :: line) = some .comment from hd, Option.bind_some,
      if_pos rfl]
    rfl

theorem Lexeme.token_eq {line : List Byte} {buf : Option (List Byte)}
    (h : Lexeme signed cfg.longBits line buf) : ∃ a, token signed cfg line = some (.atom a buf) := by
  unfold token
  cases h with
  | number ht =>
    rw [ht, Option.bind_eq_bind, Option.bind_some]
    exact ⟨_, rfl⟩
  | negative ht hneg =>
    rw [ht, Option.bind_eq_bind, Option.bind_some]
    dsimp only
    rw [if_pos hneg]
    exact ⟨_, rfl⟩
  | word hne hrun hlen =>
    obtain ⟨t, ht, rfl⟩ := hrun.headClass_eq hne
    rw [ht, Option.bind_eq_bind, Option.bind_some]
    dsimp only
    rw [(readText_alpha_iff _ _ _).mpr ⟨rfl, hrun, hlen⟩]
    exact ⟨_, rfl⟩
  | operator hne hrun hneg hlen =>
    obtain ⟨t, ht, rfl⟩ := hrun.headClass_eq hne
    rw [ht, Option.bind_eq_bind, Option.bind_some]
    dsimp only
    rw [if_neg hneg, (readText_operator_iff _ _ _).mpr ⟨rfl, hrun, hlen⟩]
    exact ⟨_, rfl⟩
  | @string q e text line hq hrun hlen =>
    rw [show headClass signed (q :: _) = some .string from hq, Option.bind_eq_bind, Option.bind_some]
    dsimp only
    rw [List.tail_cons, (readText_string_iff _ _ _).mpr ⟨rfl, hrun, hlen⟩]
    exact ⟨_, rfl⟩
  | @openString q text hq hrun hlen =>
    rw [show headClass signed (q :: _) = some .string from hq, Option.bind_eq_bind, Option.bind_some]
    dsimp only
    rw [List.tail_cons, (readText_string_iff _ text []).mpr ⟨(List.append_nil _).symm, hrun, hlen⟩]
    exact ⟨_, rfl⟩
  | @bracket c line t hc hb =>
    rw [show headClass signed (c :: _) = some t from hc, Option.bind_eq_bind, Option.bind_some]
    obtain rfl | rfl | rfl | rfl | rfl := hb <;> exact ⟨_, rfl⟩

/-! ### The run -/

/-- The loop returns, with at most 255 atoms and a terminator or an illegal character behind them. -/
def Ends (signed : Bool) (cfg : Setup) (fuel : ℕ) (atoms : List Atom) (buf : Option (List Byte)) :
    Prop :=
  ∃ r, getAtomsLoop signed cfg fuel atoms buf = some r ∧ r.1.length ≤ maxArgCount - 1 ∧
    r.2.type.EndsLine

theorem tidy_of_ends {fuel n : ℕ} {atoms : List Atom} {buf : Option (List Byte)}
    (hn : atoms.length + n = maxArgCount - 1) (h : Ends signed cfg fuel atoms buf) :
    Tidy signed cfg.longBits n buf := by
  induction fuel generalizing atoms buf n with
  | zero =>
    obtain ⟨r, hr, -⟩ := h
    exact absurd hr (by simp [getAtomsLoop])
  | succ fuel ih =>
    obtain ⟨r, hr, hlen, hend⟩ := h
    rw [getAtomsLoop] at hr
    cases n with
    | zero => exact .full
    | succ n =>
      rw [if_neg (by omega)] at hr
      obtain ⟨line, rfl⟩ : ∃ line, buf = some line := by
        cases buf with
        | none => exact absurd hr (by simp)
        | some line => exact ⟨line, rfl⟩
      rw [Option.bind_eq_bind, Option.bind_some] at hr
      obtain ⟨tok, htok, hr⟩ := Option.bind_eq_some_iff.mp hr
      have hfits := token_fits htok
      cases tok with
      | atom a buf =>
        exact .lexeme hfits (ih (by rw [List.length_append, List.length_singleton]; omega)
          ⟨r, hr, hlen, hend⟩)
      | skip buf =>
        obtain ⟨rest, rfl, hblank⟩ := hfits
        exact .blank hblank (ih hn ⟨r, hr, hlen, hend⟩)
      | last a =>
        obtain rfl := Option.some.inj hr
        obtain ⟨t, ht, hstop⟩ := hfits hend
        exact .stop ht hstop

theorem Tidy.ends {n : ℕ} {buf : Option (List Byte)} (h : Tidy signed cfg.longBits n buf)
    {atoms : List Atom} (hn : atoms.length + n = maxArgCount - 1) :
    ∃ fuel, Ends signed cfg fuel atoms buf := by
  induction h generalizing atoms with
  | full =>
    refine ⟨1, (atoms, Atom.ofType .terminator), ?_, show atoms.length ≤ _ by omega, .inl rfl⟩
    rw [getAtomsLoop, if_pos (by omega)]
  | @stop n line t ht hend =>
    by_cases hfull : maxArgCount - 1 ≤ atoms.length
    · refine ⟨1, (atoms, Atom.ofType .terminator), ?_, show atoms.length ≤ _ by omega, .inl rfl⟩
      rw [getAtomsLoop, if_pos hfull]
    · refine ⟨1, (atoms, Atom.ofType t), ?_, show atoms.length ≤ _ by omega, hend⟩
      rw [getAtomsLoop, if_neg hfull, Option.bind_eq_bind, Option.bind_some, token_stop ht hend]
      rfl
  | blank hblank _ ih =>
    obtain ⟨fuel, r, hr, hlen, hend⟩ := ih hn
    refine ⟨fuel + 1, r, ?_, hlen, hend⟩
    rw [getAtomsLoop, if_neg (by omega), Option.bind_eq_bind, Option.bind_some, hblank.token_eq]
    exact hr
  | lexeme hlex _ ih =>
    obtain ⟨a, ha⟩ := hlex.token_eq
    obtain ⟨fuel, r, hr, hlen, hend⟩ := @ih (atoms ++ [a])
      (by rw [List.length_append, List.length_singleton]; omega)
    refine ⟨fuel + 1, r, ?_, hlen, hend⟩
    rw [getAtomsLoop, if_neg (by omega), Option.bind_eq_bind, Option.bind_some, ha]
    exact hr

end Grammar

/-- **The function** keeps to its line and its arrays, returns at most 255 atoms and marks their end,
exactly for the lines that are tidy or begin with a dot. -/
theorem getAtoms_safe_iff (signed : Bool) (longBits : ℕ) (cmds : List CmdDesc) (input : List Byte) :
    (∃ fuel atoms last, getAtoms signed longBits cmds fuel input = some (atoms, last) ∧
      atoms.length ≤ maxArgCount - 1 ∧ last.type.EndsLine) ↔
      input.head? = some 46 ∨ Tidy signed longBits (maxArgCount - 1) (some input) := by
  constructor
  · rintro ⟨fuel, atoms, last, h, hlen, hend⟩
    unfold getAtoms at h
    split at h
    · rename_i hdot
      exact .inl hdot
    · have hends : Ends signed ⟨longBits, cmds, input.length⟩ fuel [] (some input) :=
        ⟨(atoms, last), h, hlen, hend⟩
      exact .inr (tidy_of_ends (Nat.zero_add _) hends)
  · intro h
    by_cases hdot : input.head? = some 46
    · exact ⟨0, [], Atom.ofType .terminator, if_pos hdot, by simp, .inl rfl⟩
    · obtain ⟨fuel, r, hr, hlen, hend⟩ := @Tidy.ends signed ⟨longBits, cmds, input.length⟩ _ _
        (h.resolve_left hdot) [] (Nat.zero_add _)
      exact ⟨fuel, r.1, r.2, by rw [getAtoms, if_neg hdot, hr], hlen, hend⟩

/-- **An open comment**: the entry behind the atoms is a separator. -/
theorem open_comment_unmarked :
    ¬ ∃ fuel atoms last, getAtoms false 64 [] fuel (bytes "%") = some (atoms, last) ∧
      atoms.length ≤ maxArgCount - 1 ∧ last.type.EndsLine := by
  rintro ⟨fuel, atoms, last, h, -, hend⟩
  cases fuel with
  | zero =>
    have hnone : getAtoms false 64 [] 0 (bytes "%") = none := rfl
    rw [hnone] at h
    exact absurd h (by simp)
  | succ fuel =>
    have hrun : getAtoms false 64 [] (fuel + 1) (bytes "%") = some ([], Atom.ofType .separator) := rfl
    obtain ⟨-, rfl⟩ := Prod.mk.inj (Option.some.inj (hrun.symm.trans h))
    rcases hend with hend | hend <;> exact absurd hend (by decide)

/-- A word, a number, a comment and an operator. -/
example : (getAtoms true 64 [⟨bytes "en", 9⟩] 20 (bytes "en -0x10 % on %+")).map
    (fun r => (r.1.map fun a => (a.type, a.val, a.cmdId, a.oid), r.2.type)) =
      some ([(.alpha, 0, 9, .NOOP), (.numeric, -16, 0, .NOOP), (.operator, 0, 0, .PL)], .terminator) := by
  decide +kernel

end KernelModules.Utils.Extest
