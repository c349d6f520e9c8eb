import Mathlib.Tactic
import KernelModules.Mttn.AsmAtoms

/-!
# Numbers as text

The tools of the MTT read numbers with `strtoul`, lines with `fgets`, and print numbers with `%X`.

* `strtoulText` is `strtoul` for any text: blanks and a sign may come before the digits;
* `hexText` is what `"0x%X"` prints, and `strtoulText_hexText` says that it is read back;
* `fgets` is a line of a file.
-/

namespace KernelModules.Mttn

/-! ### Reading -/

/-- `isspace`. -/
def isSpace (c : Char) : Bool := c = ' ' || ('\t' ≤ c && c ≤ '\r')

/-- The value of digits after an optional sign, as an `unsigned long`. -/
def signedValue (negative : Bool) (v : ℕ) : BitVec 64 :=
  if 2 ^ 64 ≤ v then BitVec.allOnes 64
  else if negative then -BitVec.ofNat 64 v
  else BitVec.ofNat 64 v

/-- The sign of a number and what follows it. -/
def splitSign : List Char → Bool × List Char
  | '-' :: digits => (true, digits)
  | '+' :: digits => (false, digits)
  | digits => (false, digits)

/-- `strtoul(text, &ep, 0)`: the value, and what `ep` points at, which is the whole text when there
are no digits. -/
def strtoulText (text : List Char) : BitVec 64 × List Char :=
  let body := splitSign (text.dropWhile isSpace)
  let r := strtoul body.2
  if r.2 = body.2 then (0, text) else (signedValue body.1 r.1, r.2)

/-- The text does not go on with a digit. -/
def EndsNumber (text : List Char) : Prop := ∀ c ∈ text.head?, digitValue c = none

theorem readDigits_of_ends {base v : ℕ} {text : List Char} (h : EndsNumber text) :
    readDigits base v text = (v, text) := by
  cases text with
  | nil => rfl
  | cons c text => rw [readDigits, h c rfl]

/-! ### Printing -/

/-- A digit of `%X`. -/
def hexDigit (d : ℕ) : Char := if d < 10 then Char.ofNat (48 + d) else Char.ofNat (55 + d)

/-- The digits of a value, `n` at most. -/
def hexDigits : ℕ → ℕ → List Char
  | 0, _ => []
  | n + 1, v => (if v < 16 then [] else hexDigits n (v / 16)) ++ [hexDigit (v % 16)]

/-- `"0x%X"` of an `int`. -/
def hexText (x : BitVec 32) : List Char := '0' :: 'x' :: hexDigits 8 x.toNat

theorem digitValue_hexDigit {d : ℕ} (h : d < 16) : digitValue (hexDigit d) = some d := by
  have hall : ∀ d < 16, digitValue (hexDigit d) = some d := by decide
  exact hall d h

theorem hexDigit_ne_newline {d : ℕ} (h : d < 16) : hexDigit d ≠ '\n' := by
  have hall : ∀ d < 16, hexDigit d ≠ '\n' := by decide
  exact hall d h

theorem hexDigits_cons (n v : ℕ) : ∃ d l, d < 16 ∧ hexDigits (n + 1) v = hexDigit d :: l := by
  induction n generalizing v with
  | zero =>
    refine ⟨v % 16, [], Nat.mod_lt _ (by decide), ?_⟩
    rw [hexDigits]
    split <;> rfl
  | succ n ih =>
    rw [hexDigits]
    split
    · exact ⟨v % 16, [], Nat.mod_lt _ (by decide), rfl⟩
    · obtain ⟨d, l, hd, hl⟩ := ih (v / 16)
      exact ⟨d, l ++ [hexDigit (v % 16)], hd, by rw [hl, List.cons_append]⟩

theorem length_hexDigits_le (n v : ℕ) : (hexDigits n v).length ≤ n := by
  induction n generalizing v with
  | zero => exact le_rfl
  | succ n ih =>
    have := ih (v / 16)
    rw [hexDigits, List.length_append, List.length_singleton]
    split
    · simp
    · omega

theorem mem_hexDigits {n v : ℕ} {c : Char} (h : c ∈ hexDigits n v) : ∃ d < 16, c = hexDigit d := by
  induction n generalizing v with
  | zero => cases h
  | succ n ih =>
    rw [hexDigits] at h
    obtain h | h := List.mem_append.mp h
    · split at h
      · cases h
      · exact ih h
    · exact ⟨v % 16, Nat.mod_lt _ (by decide), List.mem_singleton.mp h⟩

theorem length_hexText_le (x : BitVec 32) : (hexText x).length ≤ 10 := by
  have := length_hexDigits_le 8 x.toNat
  rw [hexText, List.length_cons, List.length_cons]
  omega

theorem newline_not_mem_hexText (x : BitVec 32) : '\n' ∉ hexText x := by
  intro h
  rw [hexText, List.mem_cons, List.mem_cons] at h
  obtain h | h | h := h
  · exact absurd h (by decide)
  · exact absurd h (by decide)
  · obtain ⟨d, hd, heq⟩ := mem_hexDigits h
    exact hexDigit_ne_newline hd heq.symm

/-! ### Reading what was printed -/

theorem readDigits_hexDigit {d : ℕ} (hd : d < 16) (w : ℕ) (rest : List Char) :
    readDigits 16 w (hexDigit d :: rest) = readDigits 16 (16 * w + d) rest := by
  rw [readDigits, digitValue_hexDigit hd]
  dsimp only
  rw [if_pos hd]

theorem readDigits_hexDigits {n v : ℕ} (hv : v < 16 ^ (n + 1)) (rest : List Char) :
    readDigits 16 0 (hexDigits (n + 1) v ++ rest) = readDigits 16 v rest := by
  have hsingle : ∀ u < 16, ∀ rest : List Char,
      readDigits 16 0 ([hexDigit (u % 16)] ++ rest) = readDigits 16 u rest := by
    intro u hu rest
    rw [List.singleton_append, Nat.mod_eq_of_lt hu, readDigits_hexDigit hu, Nat.mul_zero,
      Nat.zero_add]
  induction n generalizing v rest with
  | zero =>
    have hsmall : v < 16 := by simpa using hv
    rw [hexDigits, if_pos hsmall]
    exact hsingle v hsmall rest
  | succ n ih =>
    rw [hexDigits]
    by_cases hsmall : v < 16
    · rw [if_pos hsmall]
      exact hsingle v hsmall rest
    · have hdiv : v / 16 < 16 ^ (n + 1) := by
        rw [Nat.div_lt_iff_lt_mul (by decide), ← Nat.pow_succ]
        exact hv
      rw [if_neg hsmall, List.append_assoc, List.singleton_append, ih hdiv,
        readDigits_hexDigit (Nat.mod_lt _ (by decide))]
      congr 1
      omega

theorem strtoul_hexText {x : BitVec 32} {rest : List Char} (h : EndsNumber rest) :
    strtoul (hexText x ++ rest) = (x.toNat, rest) := by
  obtain ⟨d, l, hd, hl⟩ := hexDigits_cons 7 x.toNat
  have hvalue : readDigits 16 0 (hexDigits 8 x.toNat ++ rest) = (x.toNat, rest) := by
    rw [readDigits_hexDigits (lt_of_lt_of_le x.isLt (by decide)), readDigits_of_ends h]
  rw [hl, List.cons_append] at hvalue
  rw [hexText, hl]
  show (if ('x' = 'x' ∨ 'x' = 'X') ∧ (digitValue (hexDigit d)).isSome then
      readDigits 16 0 (hexDigit d :: (l ++ rest)) else _) = _
  rw [if_pos ⟨Or.inl rfl, by rw [digitValue_hexDigit hd]; rfl⟩, hvalue]

theorem strtoulText_hexText {x : BitVec 32} {rest : List Char} (h : EndsNumber rest) :
    strtoulText (hexText x ++ rest) = (x.setWidth 64, rest) ∧
      strtoulText (' ' :: (hexText x ++ rest)) = (x.setWidth 64, rest) := by
  have hread : ∀ text : List Char, text.dropWhile isSpace = hexText x ++ rest →
      strtoulText text = (x.setWidth 64, rest) := by
    intro text hskip
    have hsign : splitSign (hexText x ++ rest) = (false, hexText x ++ rest) := rfl
    have hne : rest ≠ hexText x ++ rest := by
      intro heq
      have := congrArg List.length heq
      rw [hexText, List.length_append, List.length_cons] at this
      omega
    have hlt : ¬ 2 ^ 64 ≤ x.toNat := by
      have := x.isLt
      omega
    rw [strtoulText, hskip, hsign]
    dsimp only
    rw [strtoul_hexText h, if_neg hne, signedValue, if_neg hlt, if_neg Bool.false_ne_true,
      BitVec.ofNat_toNat]
  exact ⟨hread _ rfl, hread _ rfl⟩

/-! ### Lines -/

/-- `fgets` with room for `n` characters: the line with its end, and what follows it. -/
def fgets : ℕ → List Char → List Char × List Char
  | 0, text => ([], text)
  | _ + 1, [] => ([], [])
  | n + 1, c :: text =>
    if c = '\n' then (['\n'], text) else (c :: (fgets n text).1, (fgets n text).2)

theorem fgets_line {n : ℕ} {line : List Char} (hline : '\n' ∉ line) (hlength : line.length < n)
    (rest : List Char) : fgets n (line ++ '\n' :: rest) = (line ++ ['\n'], rest) := by
  induction line generalizing n with
  | nil =>
    obtain ⟨n, rfl⟩ : ∃ k, n = k + 1 := ⟨n - 1, by simp at hlength; omega⟩
    rfl
  | cons c line ih =>
    obtain ⟨n, rfl⟩ : ∃ k, n = k + 1 := ⟨n - 1, by simp at hlength; omega⟩
    rw [List.mem_cons, not_or] at hline
    rw [List.cons_append, fgets, if_neg (Ne.symm hline.1),
      ih hline.2 (by simpa using hlength)]
    rfl

end KernelModules.Mttn
