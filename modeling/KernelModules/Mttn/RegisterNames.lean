import Mathlib.Tactic
import Mathlib.Data.List.TakeWhile
import KernelModules.Mttn.NumberText

/-!
# Register names of the MTT

The assembler, the emulator and the library each have a function that looks a register up by its
name, over one table: a register has a name of its own, or is one of a group and has the name of the
group with a number behind it.

* `searchRegs` is the search that all three make, `lookUpRegisterText`, `stringToReg` and
  `mttLibStringToReg` are the functions, and `getRegisterName` is the way back;
* `registerNamed` is the register that a text names by the table;
* `Agrees` says that all three give that register.  The search takes anything that begins with the
  name of a single register, reads the number of a group in any base, and only the assembler looks
  for the whole name first; the library reads up to a blank, into a buffer for eight characters, and
  tells the kind of a register of a group only (`agrees_iff`).
-/

namespace KernelModules.Mttn

/-! ### The three functions -/

/-- The number of a register of a group, from what follows the name of the group. -/
def registerIndex (reg : RegisterDsc) (suffix : List Char) : Option ℕ :=
  let r := strtoulText suffix
  if r.2 ≠ suffix ∧ reg.offset ≤ r.1.toNat ∧ r.1.toNat ≤ reg.last - reg.first + reg.offset then
    some (reg.first + r.1.toNat - reg.offset)
  else none

/-- The search over the table for `name`, of which `upr` is compared. -/
def searchRegs (name upr : List Char) : List RegisterDsc → Option (RegisterDsc × ℕ)
  | [] => none
  | reg :: rest =>
    if reg.name.isPrefixOf upr then
      if reg.first < reg.last then
        match if reg.name.length < name.length then
            registerIndex reg (name.drop reg.name.length) else none with
        | some n => some (reg, n)
        | none => searchRegs name upr rest
      else some (reg, reg.first)
    else searchRegs name upr rest

/-- `LookUpRegister`, for any text. -/
def lookUpRegisterText (text : List Char) : Option ℕ :=
  if text.length ≤ 8 then
    match regs.find? fun reg => reg.name == strToUpper text with
    | some reg => some reg.first
    | none => (searchRegs text (strToUpper text) regs).map Prod.snd
  else none

/-- `StringToReg`; a text that is no register gives zero. -/
def stringToReg (name : List Char) : ℕ :=
  if name.length ≤ 8 then ((searchRegs name (strToUpper name) regs).map Prod.snd).getD 0 else 0

/-- `MttLibRegType`. -/
inductive MttLibRegType
  | none | global | local
  deriving DecidableEq, Repr

/-- The kind of a register. -/
def kindOf (n : ℕ) : MttLibRegType := if n < 224 then .global else .local

/-- The number of a register among those of its kind. -/
def numberOf (n : ℕ) : ℕ := if n < 224 then n else n - 224

/-- What the `StrToUpper` of the library compares: the text up to a blank. -/
def mttLibToUpper (name : List Char) : List Char :=
  (name.takeWhile (· ≠ ' ')).map fun c =>
    if 'a' ≤ c ∧ c ≤ 'z' then Char.ofNat (c.toNat - 32) else c

/-- `MttLibStringToReg`, with what `lorg` was before.  The text is changed to upper case where it
stands; up to a blank it has to fit the buffer. -/
def mttLibStringToReg (name : List Char) (lorg : MttLibRegType) : Option (ℕ × MttLibRegType) :=
  let upr := mttLibToUpper name
  let name := upr ++ name.dropWhile (· ≠ ' ')
  if upr.length ≤ 8 then
    match searchRegs name upr regs with
    | some (reg, n) =>
      if reg.first < reg.last then some (numberOf n, kindOf n) else some (n, lorg)
    | none => some (0, lorg)
  else none

/-- `GetRegisterName`. -/
def getRegisterName (regnum : ℕ) : List Char :=
  match regs.find? fun reg => reg.first ≤ regnum && regnum ≤ reg.last with
  | some reg =>
    if reg.first < reg.last then
      reg.name ++ Nat.toDigits 10 (regnum - reg.first + reg.offset)
    else reg.name
  | none => ['?', '?', '?']

/-! ### What a text names -/

/-- The number of a register of a group, in decimal. -/
def decimalIndex (reg : RegisterDsc) (digits : List Char) : Option ℕ :=
  let r := readDigits 10 0 digits
  if digits ≠ [] ∧ r.2 = [] ∧ reg.offset ≤ r.1 ∧ r.1 ≤ reg.last - reg.first + reg.offset then
    some (reg.first + r.1 - reg.offset)
  else none

/-- A text names a register: it is the name of one, or the name of a group and a decimal number of
its range. -/
def registerNamed (text : List Char) : Option ℕ :=
  regs.findSome? fun reg =>
    if reg.first < reg.last then
      if reg.name.isPrefixOf (strToUpper text) then
        decimalIndex reg (text.drop reg.name.length)
      else none
    else if reg.name == strToUpper text then some reg.first
    else none

/-- All three functions are right about a text: they give the register that it names, and say so
when it names none, the emulator and the library with zero. -/
structure Agrees (text : List Char) : Prop where
  assembler : lookUpRegisterText text = registerNamed text
  emulator : stringToReg text = (registerNamed text).getD 0
  library : ∀ lorg, mttLibStringToReg text lorg =
    some ((registerNamed text).elim (0, lorg) fun n => (numberOf n, kindOf n))

/-- The texts that are read right: up to a blank there are eight characters at most, and either no
name of the table is at the front, or the name of a group is and what follows it reads the same as a
C number and as a decimal number. -/
def ReadsRight (text : List Char) : Prop :=
  (mttLibToUpper text).length ≤ 8 ∧
    ((∀ reg ∈ regs, ¬ reg.name <+: strToUpper text) ∨
      ∃ reg ∈ regs, reg.first < reg.last ∧ reg.name <+: strToUpper text ∧
        reg.name.length < text.length ∧
        registerIndex reg (text.drop reg.name.length) =
          decimalIndex reg (text.drop reg.name.length))

/-! ### Letters -/

/-- A letter in upper case. -/
def upperChar (c : Char) : Char := if 'a' ≤ c ∧ c ≤ 'z' then Char.ofNat (c.toNat - 32) else c

/-- The same letter, or the same in upper case. -/
def SameLetter (c c' : Char) : Prop := c' = c ∨ c' = upperChar c

theorem lower_cases {c : Char} (h : 'a' ≤ c ∧ c ≤ 'z') : ∃ k < 26, c = Char.ofNat (97 + k) := by
  have hlo : 97 ≤ c.toNat := h.1
  have hhi : c.toNat ≤ 122 := h.2
  refine ⟨c.toNat - 97, by omega, ?_⟩
  rw [show 97 + (c.toNat - 97) = c.toNat by omega, Char.ofNat_toNat]

theorem SameLetter.eq {α : Type*} {f : Char → α}
    (hf : ∀ k < 26, f (upperChar (Char.ofNat (97 + k))) = f (Char.ofNat (97 + k))) {c c' : Char}
    (h : SameLetter c c') : f c' = f c := by
  obtain rfl | rfl := h
  · rfl
  · by_cases hlower : 'a' ≤ c ∧ c ≤ 'z'
    · obtain ⟨k, hk, rfl⟩ := lower_cases hlower
      exact hf k hk
    · rw [upperChar, if_neg hlower]

theorem strToUpper_eq (text : Name) : strToUpper text = text.map upperChar := by
  refine List.map_congr_left fun c _ => ?_
  by_cases hlower : 'a' ≤ c ∧ c ≤ 'z'
  · have halpha : atomhash c = .alpha := by
      obtain ⟨k, hk, rfl⟩ := lower_cases hlower
      have hall : ∀ k < 26, atomhash (Char.ofNat (97 + k)) = .alpha := by decide
      exact hall k hk
    rw [upperChar, if_pos hlower, if_pos ⟨halpha, hlower.1⟩]
  · rw [upperChar, if_neg hlower, if_neg]
    rintro ⟨halpha, hle⟩
    have hrange : ('A' ≤ c ∧ c ≤ 'Z' ∨ 'a' ≤ c ∧ c ≤ 'z' ∨ c = '_') := by
      by_contra hnot
      unfold atomhash at halpha
      simp only [hnot, if_false] at halpha
      split_ifs at halpha
    have hle' : 97 ≤ c.toNat := hle
    obtain ⟨-, hz⟩ | h | rfl := hrange
    · have : c.toNat ≤ 90 := hz
      omega
    · exact hlower h
    · exact absurd hle' (by decide)

theorem mttLibToUpper_eq (name : List Char) :
    mttLibToUpper name = (name.takeWhile (· ≠ ' ')).map upperChar := rfl

/-! ### Numbers in either case -/

section Letters

variable {t t' : List Char}

theorem digitValue_same {c c' : Char} (h : SameLetter c c') : digitValue c' = digitValue c :=
  h.eq (f := digitValue) (by decide)

theorem isSpace_same {c c' : Char} (h : SameLetter c c') : isSpace c' = isSpace c :=
  h.eq (f := isSpace) (by decide)

theorem readDigits_same (h : List.Forall₂ SameLetter t t') (base v : ℕ) :
    (readDigits base v t').1 = (readDigits base v t).1 ∧
      List.Forall₂ SameLetter (readDigits base v t).2 (readDigits base v t').2 := by
  induction h generalizing v with
  | nil => exact ⟨rfl, .nil⟩
  | cons hc hrest ih =>
    rw [readDigits, readDigits, digitValue_same hc]
    split
    · split
      · exact ih _
      · exact ⟨rfl, .cons hc hrest⟩
    · exact ⟨rfl, .cons hc hrest⟩

theorem dropWhile_isSpace_same (h : List.Forall₂ SameLetter t t') :
    List.Forall₂ SameLetter (t.dropWhile isSpace) (t'.dropWhile isSpace) := by
  induction h with
  | nil => exact .nil
  | cons hc hrest ih =>
    rw [List.dropWhile_cons, List.dropWhile_cons, isSpace_same hc]
    split
    · exact ih
    · exact .cons hc hrest

theorem SameLetter.iff {x : Char} (hx : ∀ k < 26, Char.ofNat (97 + k) ≠ x ∧
    upperChar (Char.ofNat (97 + k)) ≠ x) {c c' : Char} (h : SameLetter c c') : c' = x ↔ c = x := by
  have heq : decide (c' = x) = decide (c = x) :=
    h.eq (f := fun c => decide (c = x)) fun k hk => by
      rw [decide_eq_false (hx k hk).1, decide_eq_false (hx k hk).2]
  exact decide_eq_decide.mp heq

theorem strtoul_cons (c : Char) (text : List Char) :
    strtoul (c :: text) =
      if c = '0' then
        match text with
        | x :: d :: rest =>
          if (x = 'x' ∨ x = 'X') ∧ (digitValue d).isSome then readDigits 16 0 (d :: rest)
          else readDigits 8 0 (c :: text)
        | _ => readDigits 8 0 (c :: text)
      else readDigits 10 0 (c :: text) := by
  by_cases hc : c = '0'
  · subst hc
    rw [if_pos rfl]
    obtain _ | ⟨x, _ | ⟨d, rest⟩⟩ := text <;> rfl
  · rw [if_neg hc]
    unfold strtoul
    split
    · rename_i heq
      exact absurd (List.cons.inj heq).1 hc
    · rename_i heq
      exact absurd (List.cons.inj heq).1 hc
    · rfl

theorem strtoul_same (h : List.Forall₂ SameLetter t t') :
    (strtoul t').1 = (strtoul t).1 ∧ List.Forall₂ SameLetter (strtoul t).2 (strtoul t').2 := by
  cases h with
  | nil => exact ⟨rfl, .nil⟩
  | @cons c c' u u' hc hrest =>
    have hall := List.Forall₂.cons hc hrest
    have hzero : c' = '0' ↔ c = '0' := hc.iff (by decide)
    rw [strtoul_cons, strtoul_cons]
    by_cases h0 : c = '0'
    · rw [if_pos h0, if_pos (hzero.mpr h0)]
      cases hrest with
      | nil => exact readDigits_same hall 8 0
      | @cons x x' w w' hx hw =>
        cases hw with
        | nil => exact readDigits_same hall 8 0
        | @cons d d' z z' hd hz =>
          have heq : decide (x' = 'x' ∨ x' = 'X') = decide (x = 'x' ∨ x = 'X') :=
            hx.eq (f := fun c => decide (c = 'x' ∨ c = 'X')) (by decide)
          simp only [digitValue_same hd, decide_eq_decide.mp heq]
          split
          · exact readDigits_same (.cons hd hz) 16 0
          · exact readDigits_same hall 8 0
    · rw [if_neg h0, if_neg fun h => h0 (hzero.mp h)]
      exact readDigits_same hall 10 0

theorem splitSign_plain {c : Char} {text : List Char} (hminus : c ≠ '-') (hplus : c ≠ '+') :
    splitSign (c :: text) = (false, c :: text) := by
  unfold splitSign
  split
  · rename_i heq
    exact absurd (List.cons.inj heq).1 hminus
  · rename_i heq
    exact absurd (List.cons.inj heq).1 hplus
  · rfl

theorem splitSign_same (h : List.Forall₂ SameLetter t t') :
    (splitSign t').1 = (splitSign t).1 ∧
      List.Forall₂ SameLetter (splitSign t).2 (splitSign t').2 := by
  cases h with
  | nil => exact ⟨rfl, .nil⟩
  | @cons c c' u u' hc hrest =>
    have hminus : c' = '-' ↔ c = '-' := hc.iff (by decide)
    have hplus : c' = '+' ↔ c = '+' := hc.iff (by decide)
    by_cases hm : c = '-'
    · obtain rfl := hminus.mpr hm
      subst hm
      exact ⟨rfl, hrest⟩
    · by_cases hp : c = '+'
      · obtain rfl := hplus.mpr hp
        subst hp
        exact ⟨rfl, hrest⟩
      · rw [splitSign_plain hm hp,
          splitSign_plain (fun h => hm (hminus.mp h)) fun h => hp (hplus.mp h)]
        exact ⟨rfl, .cons hc hrest⟩

theorem readDigits_suffix (base v : ℕ) (text : List Char) : (readDigits base v text).2 <:+ text := by
  induction text generalizing v with
  | nil => exact List.suffix_rfl
  | cons c text ih =>
    rw [readDigits]
    split
    · split
      · exact (ih _).trans (List.suffix_cons _ _)
      · exact List.suffix_rfl
    · exact List.suffix_rfl

theorem strtoul_suffix (text : List Char) : (strtoul text).2 <:+ text := by
  unfold strtoul
  split
  · split
    · exact (readDigits_suffix _ _ _).trans
        ((List.suffix_cons _ _).trans (List.suffix_cons _ _))
    · exact readDigits_suffix _ _ _
  · exact readDigits_suffix _ _ _
  · exact readDigits_suffix _ _ _

theorem splitSign_suffix (text : List Char) : (splitSign text).2 <:+ text := by
  unfold splitSign
  split
  · exact List.suffix_cons _ _
  · exact List.suffix_cons _ _
  · exact List.suffix_rfl

theorem eq_iff_of_suffix {u w : List Char} (h : u <:+ w) : u = w ↔ u.length = w.length :=
  ⟨fun heq => congrArg List.length heq, h.eq_of_length⟩

theorem strtoulText_same (h : List.Forall₂ SameLetter t t') :
    (strtoulText t').1 = (strtoulText t).1 ∧
      ((strtoulText t').2 = t' ↔ (strtoulText t).2 = t) := by
  have hskip := dropWhile_isSpace_same h
  obtain ⟨hsign, hbody⟩ := splitSign_same hskip
  obtain ⟨hvalue, hleft⟩ := strtoul_same hbody
  have hnone : (strtoul (splitSign (t'.dropWhile isSpace)).2).2 =
      (splitSign (t'.dropWhile isSpace)).2 ↔
      (strtoul (splitSign (t.dropWhile isSpace)).2).2 = (splitSign (t.dropWhile isSpace)).2 := by
    rw [eq_iff_of_suffix (strtoul_suffix _), eq_iff_of_suffix (strtoul_suffix _),
      hleft.length_eq, hbody.length_eq]
  unfold strtoulText
  dsimp only
  by_cases hread : (strtoul (splitSign (t.dropWhile isSpace)).2).2 =
      (splitSign (t.dropWhile isSpace)).2
  · rw [if_pos hread, if_pos (hnone.mpr hread)]
    exact ⟨rfl, iff_of_true rfl rfl⟩
  · rw [if_neg hread, if_neg fun h => hread (hnone.mp h), hvalue, hsign]
    refine ⟨rfl, ?_⟩
    have hend : ∀ u : List Char, (strtoul (splitSign (u.dropWhile isSpace)).2).2 <:+ u := fun u =>
      (strtoul_suffix _).trans ((splitSign_suffix _).trans (List.dropWhile_suffix _))
    show (strtoul _).2 = t' ↔ (strtoul _).2 = t
    rw [eq_iff_of_suffix (hend t'), eq_iff_of_suffix (hend t), hleft.length_eq, h.length_eq]

theorem registerIndex_same (h : List.Forall₂ SameLetter t t') (reg : RegisterDsc) :
    registerIndex reg t' = registerIndex reg t := by
  obtain ⟨hvalue, hread⟩ := strtoulText_same h
  unfold registerIndex
  dsimp only
  rw [hvalue]
  simp only [ne_eq, hread]

end Letters

/-! ### The search -/

section Search

theorem searchRegs_eq {name upr : List Char} {l : List RegisterDsc} (hnodup : l.Nodup)
    (halone : ∀ g ∈ l, g.first < g.last → g.name <+: upr → ∀ r ∈ l, r.name <+: upr → r = g) :
    searchRegs name upr l = (l.find? fun reg => reg.name.isPrefixOf upr).bind fun reg =>
      if reg.first < reg.last then
        (if reg.name.length < name.length then
          registerIndex reg (name.drop reg.name.length) else none).map fun n => (reg, n)
      else some (reg, reg.first) := by
  induction l with
  | nil => rfl
  | cons reg l ih =>
    rw [List.nodup_cons] at hnodup
    have hrest := ih hnodup.2 fun g hg hgroup hfront r hr =>
      halone g (List.mem_cons_of_mem _ hg) hgroup hfront r (List.mem_cons_of_mem _ hr)
    rw [searchRegs, List.find?_cons]
    by_cases hfront : reg.name.isPrefixOf upr = true
    · rw [if_pos hfront, hfront]
      dsimp only
      rw [Option.bind_some]
      by_cases hgroup : reg.first < reg.last
      · rw [if_pos hgroup, if_pos hgroup]
        split
        · rename_i n hindex
          rw [hindex]
          rfl
        · rename_i hindex
          -- no other register has its name at the front
          have hnone : l.find? (fun reg => reg.name.isPrefixOf upr) = none := by
            rw [List.find?_eq_none]
            intro r hr hprefix
            have heq := halone reg List.mem_cons_self hgroup (List.isPrefixOf_iff_prefix.mp hfront)
              r (List.mem_cons_of_mem _ hr) (List.isPrefixOf_iff_prefix.mp hprefix)
            exact hnodup.1 (heq ▸ hr)
          rw [hrest, hnone, hindex]
          rfl
      · rw [if_neg hgroup, if_neg hgroup]
    · rw [if_neg hfront, (Bool.not_eq_true _).mp hfront, hrest]

/-- The first register whose name is at the front of a text, with the number that is read there. -/
def firstFound (text : List Char) : Option (RegisterDsc × ℕ) :=
  (regs.find? fun reg => reg.name.isPrefixOf (strToUpper text)).bind fun reg =>
    if reg.first < reg.last then
      (if reg.name.length < text.length then
        registerIndex reg (text.drop reg.name.length) else none).map fun n => (reg, n)
    else some (reg, reg.first)

theorem group_alone {u : List Char} {g r : RegisterDsc} (hg : g ∈ regs) (hgroup : g.first < g.last)
    (hfront : g.name <+: u) (hr : r ∈ regs) (hfront' : r.name <+: u) : r = g := by
  have hall : ∀ g ∈ regs, g.first < g.last → ∀ r ∈ regs,
      r.name <+: g.name ∨ g.name <+: r.name → r = g := by decide
  exact hall g hg hgroup r hr (List.prefix_or_prefix_of_prefix hfront' hfront)

theorem searchRegs_text (text : List Char) :
    searchRegs text (strToUpper text) regs = firstFound text :=
  searchRegs_eq (by decide) fun _ hg hgroup hfront _ hr hfront' =>
    group_alone hg hgroup hfront hr hfront'

theorem upperChar_blank (c : Char) : upperChar c = ' ' ↔ c = ' ' :=
  SameLetter.iff (by decide) (Or.inr rfl)

theorem prefix_takeWhile_iff {p l : List Char} (hp : ' ' ∉ p) :
    p <+: l.takeWhile (· ≠ ' ') ↔ p <+: l := by
  refine ⟨fun h => h.trans (List.takeWhile_prefix _), ?_⟩
  rintro ⟨rest, rfl⟩
  rw [List.takeWhile_append_of_pos]
  · exact List.prefix_append _ _
  · intro c hc
    simpa using fun heq : c = ' ' => hp (heq ▸ hc)

theorem mttLibToUpper_takeWhile (text : List Char) :
    mttLibToUpper text = (strToUpper text).takeWhile (· ≠ ' ') := by
  rw [mttLibToUpper_eq, strToUpper_eq, List.takeWhile_map]
  congr 2
  funext c
  simp only [Function.comp_apply, ne_eq, upperChar_blank]

theorem prefix_mttLibToUpper_iff {reg : RegisterDsc} (hreg : reg ∈ regs) (text : List Char) :
    reg.name <+: mttLibToUpper text ↔ reg.name <+: strToUpper text := by
  have hblank : ∀ reg ∈ regs, ' ' ∉ reg.name := by decide
  rw [mttLibToUpper_takeWhile]
  exact prefix_takeWhile_iff (hblank reg hreg)

theorem mttLib_sameLetters (text : List Char) : List.Forall₂ SameLetter text
    (mttLibToUpper text ++ text.dropWhile (· ≠ ' ')) := by
  have hmap : ∀ l : List Char, List.Forall₂ SameLetter l (l.map upperChar) := by
    intro l
    induction l with
    | nil => exact .nil
    | cons c l ih => exact .cons (Or.inr rfl) ih
  have hsame : ∀ l : List Char, List.Forall₂ SameLetter l l := by
    intro l
    induction l with
    | nil => exact .nil
    | cons c l ih => exact .cons (Or.inl rfl) ih
  conv_lhs => rw [← List.takeWhile_append_dropWhile (p := (· ≠ ' ')) (l := text)]
  exact List.rel_append (hmap _) (hsame _)

theorem searchRegs_mttLib (text : List Char) :
    searchRegs (mttLibToUpper text ++ text.dropWhile (· ≠ ' ')) (mttLibToUpper text) regs =
      firstFound text := by
  have hletters := mttLib_sameLetters text
  have hfind : (regs.find? fun reg => reg.name.isPrefixOf (mttLibToUpper text)) =
      regs.find? fun reg => reg.name.isPrefixOf (strToUpper text) := by
    refine List.find?_congr fun reg hreg => ?_
    rw [Bool.eq_iff_iff, List.isPrefixOf_iff_prefix, List.isPrefixOf_iff_prefix]
    exact prefix_mttLibToUpper_iff hreg text
  rw [searchRegs_eq (by decide) fun _ hg hgroup hfront _ hr hfront' =>
    group_alone hg hgroup hfront hr hfront', hfind, firstFound]
  simp only [← hletters.length_eq, registerIndex_same (List.forall₂_drop _ hletters)]

end Search

/-! ### The three functions by what is found -/

section Functions

variable {text : List Char}

theorem find_front {reg : RegisterDsc}
    (h : (regs.find? fun reg => reg.name.isPrefixOf (strToUpper text)) = some reg) :
    reg ∈ regs ∧ reg.name <+: strToUpper text :=
  ⟨List.mem_of_find?_eq_some h, List.isPrefixOf_iff_prefix.mp
    (List.find?_some (p := fun reg : RegisterDsc => reg.name.isPrefixOf (strToUpper text)) h)⟩

theorem exists_find_front {r : RegisterDsc} (hr : r ∈ regs) (hfront : r.name <+: strToUpper text) :
    ∃ reg, (regs.find? fun reg => reg.name.isPrefixOf (strToUpper text)) = some reg :=
  Option.isSome_iff_exists.mp
    (List.find?_isSome.mpr ⟨r, hr, List.isPrefixOf_iff_prefix.mpr hfront⟩)

theorem lookUpRegisterText_eq : lookUpRegisterText text =
    if text.length ≤ 8 then
      match regs.find? fun reg => reg.name == strToUpper text with
      | some reg => some reg.first
      | none => (firstFound text).map Prod.snd
    else none := by
  rw [lookUpRegisterText, searchRegs_text]

theorem stringToReg_eq : stringToReg text =
    if text.length ≤ 8 then ((firstFound text).map Prod.snd).getD 0 else 0 := by
  rw [stringToReg, searchRegs_text]

theorem mttLibStringToReg_eq (lorg : MttLibRegType) : mttLibStringToReg text lorg =
    if (mttLibToUpper text).length ≤ 8 then
      match firstFound text with
      | some (reg, n) =>
        if reg.first < reg.last then some (numberOf n, kindOf n) else some (n, lorg)
      | none => some (0, lorg)
    else none := by
  rw [mttLibStringToReg, searchRegs_mttLib]

theorem findSome_of_alone {α β : Type*} {f : α → Option β} {l : List α} {a : α} (ha : a ∈ l)
    (halone : ∀ b ∈ l, b ≠ a → f b = none) : l.findSome? f = f a := by
  induction l with
  | nil => cases ha
  | cons b l ih =>
    rw [List.findSome?_cons]
    by_cases hb : b = a
    · subst hb
      cases hf : f b with
      | some x => rfl
      | none =>
        rw [List.findSome?_eq_none_iff]
        intro c hc
        by_cases hcb : c = b
        · rw [hcb, hf]
        · exact halone c (List.mem_cons_of_mem _ hc) hcb
    · rw [halone b List.mem_cons_self hb]
      exact ih ((List.mem_cons.mp ha).resolve_left fun h => hb h.symm) fun c hc =>
        halone c (List.mem_cons_of_mem _ hc)

theorem prefix_of_whole {reg : RegisterDsc} (h : (reg.name == strToUpper text) = true) :
    reg.name <+: strToUpper text := by
  rw [beq_iff_eq.mp h]

section NoName

theorem firstFound_none (hnone : ∀ reg ∈ regs, ¬ reg.name <+: strToUpper text) :
    firstFound text = none := by
  rw [firstFound, List.find?_eq_none.mpr fun reg hreg h =>
    hnone reg hreg (List.isPrefixOf_iff_prefix.mp h)]
  rfl

theorem registerNamed_none (hnone : ∀ reg ∈ regs, ¬ reg.name <+: strToUpper text) :
    registerNamed text = none := by
  rw [registerNamed, List.findSome?_eq_none_iff]
  intro reg hreg
  split
  · exact if_neg fun h => hnone reg hreg (List.isPrefixOf_iff_prefix.mp h)
  · exact if_neg fun h => hnone reg hreg (prefix_of_whole h)

theorem find_whole_none (hnone : ∀ reg ∈ regs, ¬ reg.name <+: strToUpper text) :
    (regs.find? fun reg => reg.name == strToUpper text) = none :=
  List.find?_eq_none.mpr fun reg hreg h => hnone reg hreg (prefix_of_whole h)

theorem agrees_of_no_name (hnone : ∀ reg ∈ regs, ¬ reg.name <+: strToUpper text)
    (hfits : (mttLibToUpper text).length ≤ 8) : Agrees text := by
  have hnamed := registerNamed_none hnone
  have hfound := firstFound_none hnone
  refine ⟨?_, ?_, fun lorg => ?_⟩
  · rw [lookUpRegisterText_eq, find_whole_none hnone, hfound, hnamed]
    split <;> rfl
  · rw [stringToReg_eq, hfound, hnamed]
    split <;> rfl
  · rw [mttLibStringToReg_eq, if_pos hfits, hfound, hnamed]
    rfl

end NoName

section Group

variable {g : RegisterDsc}

theorem firstFound_group (hg : g ∈ regs) (hgroup : g.first < g.last)
    (hfront : g.name <+: strToUpper text) : firstFound text =
      (if g.name.length < text.length then
        registerIndex g (text.drop g.name.length) else none).map fun n => (g, n) := by
  have hfind : (regs.find? fun reg => reg.name.isPrefixOf (strToUpper text)) = some g := by
    obtain ⟨reg, hreg⟩ := exists_find_front hg hfront
    obtain ⟨hmem, hfront'⟩ := find_front hreg
    rw [hreg, group_alone hg hgroup hfront hmem hfront']
  rw [firstFound, hfind, Option.bind_some, if_pos hgroup]

theorem registerNamed_group (hg : g ∈ regs) (hgroup : g.first < g.last)
    (hfront : g.name <+: strToUpper text) :
    registerNamed text = decimalIndex g (text.drop g.name.length) := by
  rw [registerNamed, findSome_of_alone hg, if_pos hgroup,
    if_pos (List.isPrefixOf_iff_prefix.mpr hfront)]
  intro reg hreg hne
  have hother : ¬ reg.name <+: strToUpper text := fun h =>
    hne (group_alone hg hgroup hfront hreg h)
  split
  · exact if_neg fun h => hother (List.isPrefixOf_iff_prefix.mp h)
  · exact if_neg fun h => hother (prefix_of_whole h)

theorem length_strToUpper : (strToUpper text).length = text.length := List.length_map _

theorem find_whole_group (hg : g ∈ regs) (hgroup : g.first < g.last)
    (hfront : g.name <+: strToUpper text) (hlong : g.name.length < text.length) :
    (regs.find? fun reg => reg.name == strToUpper text) = none := by
  refine List.find?_eq_none.mpr fun reg hreg h => ?_
  obtain rfl := group_alone hg hgroup hfront hreg (prefix_of_whole h)
  have := congrArg List.length (beq_iff_eq.mp h)
  rw [length_strToUpper] at this
  omega

theorem blank_not_mem_of_digits {base v : ℕ} {digits : List Char}
    (h : (readDigits base v digits).2 = []) : ' ' ∉ digits := by
  induction digits generalizing v with
  | nil => exact List.not_mem_nil
  | cons c digits ih =>
    rw [readDigits] at h
    split at h
    · rename_i d hd
      split at h
      · rw [List.mem_cons, not_or]
        refine ⟨?_, ih h⟩
        rintro rfl
        cases hd
      · cases h
    · cases h

theorem decimalIndex_long (hg : g ∈ regs) (hfront : g.name <+: strToUpper text)
    (hfits : (mttLibToUpper text).length ≤ 8) (hlong : 8 < text.length) :
    decimalIndex g (text.drop g.name.length) = none := by
  have hblank : ∀ reg ∈ regs, ' ' ∉ reg.name := by decide
  have hmem : ' ' ∈ text := by
    by_contra hnot
    have hall : text.takeWhile (· ≠ ' ') = text := by
      refine List.takeWhile_eq_self_iff.mpr fun c hc => ?_
      simpa using fun heq : c = ' ' => hnot (heq ▸ hc)
    rw [mttLibToUpper_eq, hall, List.length_map] at hfits
    omega
  have htake : (text.take g.name.length).map upperChar = g.name := by
    rw [List.map_take, ← strToUpper_eq]
    exact (List.prefix_iff_eq_take.mp hfront).symm
  have hdrop : ' ' ∈ text.drop g.name.length := by
    rw [← List.take_append_drop g.name.length text, List.mem_append] at hmem
    refine hmem.resolve_left fun h => hblank g hg ?_
    rw [← htake]
    exact List.mem_map.mpr ⟨' ', h, by decide⟩
  rw [decimalIndex]
  exact if_neg fun h => blank_not_mem_of_digits h.2.1 hdrop

theorem kindOf_ne_none (n : ℕ) : kindOf n ≠ .none := by
  rw [kindOf]
  split <;> decide

theorem agrees_group_iff (hg : g ∈ regs) (hgroup : g.first < g.last)
    (hfront : g.name <+: strToUpper text) (hfits : (mttLibToUpper text).length ≤ 8) :
    Agrees text ↔ g.name.length < text.length ∧
      registerIndex g (text.drop g.name.length) = decimalIndex g (text.drop g.name.length) := by
  have hnamed := registerNamed_group hg hgroup hfront
  by_cases hlong : g.name.length < text.length
  · have hwhole := find_whole_group hg hgroup hfront hlong
    have hfound := firstFound_group hg hgroup hfront
    rw [if_pos hlong] at hfound
    have hlib : ∀ lorg, mttLibStringToReg text lorg =
        some ((registerIndex g (text.drop g.name.length)).elim (0, lorg) fun n =>
          (numberOf n, kindOf n)) := by
      intro lorg
      rw [mttLibStringToReg_eq, if_pos hfits, hfound]
      cases registerIndex g (text.drop g.name.length) with
      | none => rfl
      | some n => exact if_pos hgroup
    have hfst : ∀ o : Option ℕ, (o.map fun n => (g, n)).map Prod.snd = o := by
      intro o
      cases o <;> rfl
    constructor
    · intro h
      refine ⟨hlong, ?_⟩
      by_cases hshort : text.length ≤ 8
      · have hasm := h.assembler
        rw [lookUpRegisterText_eq, if_pos hshort, hwhole, hfound, hnamed] at hasm
        exact (hfst _).symm.trans hasm
      · have hdecimal := decimalIndex_long hg hfront hfits (not_le.mp hshort)
        have hread := h.library .none
        rw [hlib, hnamed, hdecimal] at hread
        rw [hdecimal]
        cases hindex : registerIndex g (text.drop g.name.length) with
        | none => rfl
        | some n =>
          rw [hindex] at hread
          exact absurd (congrArg Prod.snd (Option.some.inj hread)) (kindOf_ne_none n)
    · rintro ⟨-, hsame⟩
      refine ⟨?_, ?_, fun lorg => ?_⟩
      · rw [lookUpRegisterText_eq, hwhole, hfound, hnamed, ← hsame]
        split
        · exact hfst _
        · rename_i hmore
          rw [hsame]
          exact (decimalIndex_long hg hfront hfits (not_le.mp hmore)).symm
      · rw [stringToReg_eq, hfound, hnamed, ← hsame, hfst]
        split
        · rfl
        · rename_i hmore
          rw [hsame, decimalIndex_long hg hfront hfits (not_le.mp hmore)]
          rfl
      · rw [hlib, hnamed, hsame]
  · -- the text is the name of the group: only the assembler takes it for a register
    refine iff_of_false (fun h => ?_) fun h => hlong h.1
    have hall : ∀ reg ∈ regs, reg.name.length ≤ 8 := by decide
    have hshort := hall g hg
    have hwhole : (g.name == strToUpper text) = true := by
      rw [beq_iff_eq]
      refine hfront.eq_of_length (le_antisymm hfront.length_le ?_)
      rw [length_strToUpper]
      exact not_lt.mp hlong
    obtain ⟨reg, hreg⟩ := Option.isSome_iff_exists.mp
      (List.find?_isSome (p := fun reg : RegisterDsc => reg.name == strToUpper text) |>.mpr
        ⟨g, hg, hwhole⟩)
    have hasm := h.assembler
    have hnone : decimalIndex g (text.drop g.name.length) = none := by
      rw [List.drop_eq_nil_of_le (not_lt.mp hlong)]
      rfl
    rw [lookUpRegisterText_eq, if_pos (by omega), hreg, hnamed, hnone] at hasm
    cases hasm

end Group

section Single

theorem not_agrees_single {r : RegisterDsc} (hr : r ∈ regs)
    (hfront : r.name <+: strToUpper text)
    (hsingle : ∀ reg ∈ regs, reg.name <+: strToUpper text → ¬ reg.first < reg.last)
    (hfits : (mttLibToUpper text).length ≤ 8) : ¬ Agrees text := by
  intro h
  obtain ⟨reg, hreg⟩ := exists_find_front hr hfront
  obtain ⟨hmem, hfront'⟩ := find_front hreg
  have hgroup := hsingle reg hmem hfront'
  have hfound : firstFound text = some (reg, reg.first) := by
    rw [firstFound, hreg, Option.bind_some, if_neg hgroup]
  have hread := h.library .none
  rw [mttLibStringToReg_eq, if_pos hfits, hfound] at hread
  dsimp only at hread
  rw [if_neg hgroup] at hread
  have hall : ∀ reg ∈ regs, ¬ reg.first < reg.last → reg.first ≠ 0 := by decide
  cases hnamed : registerNamed text with
  | none =>
    rw [hnamed] at hread
    exact hall reg hmem hgroup (congrArg Prod.fst (Option.some.inj hread))
  | some n =>
    rw [hnamed] at hread
    exact kindOf_ne_none n (congrArg Prod.snd (Option.some.inj hread)).symm

end Single

theorem agrees_iff_readsRight (text : List Char) : Agrees text ↔ ReadsRight text := by
  rw [ReadsRight]
  by_cases hfits : (mttLibToUpper text).length ≤ 8
  · rw [and_iff_right hfits]
    by_cases hnone : ∀ reg ∈ regs, ¬ reg.name <+: strToUpper text
    · exact iff_of_true (agrees_of_no_name hnone hfits) (Or.inl hnone)
    · rw [or_iff_right hnone]
      by_cases hgroups : ∃ g ∈ regs, g.first < g.last ∧ g.name <+: strToUpper text
      · obtain ⟨g, hg, hgroup, hfront⟩ := hgroups
        rw [agrees_group_iff hg hgroup hfront hfits]
        refine ⟨fun h => ⟨g, hg, hgroup, hfront, h⟩, ?_⟩
        rintro ⟨r, hr, -, hfront', h⟩
        rwa [group_alone hg hgroup hfront hr hfront'] at h
      · push Not at hnone hgroups
        obtain ⟨r, hr, hfront⟩ := hnone
        refine iff_of_false (not_agrees_single hr hfront (fun reg hreg hfront' hgroup =>
          hgroups reg hreg hgroup hfront') hfits) ?_
        rintro ⟨g, hg, hgroup, hfront', -⟩
        exact hgroups g hg hgroup hfront'
  · refine iff_of_false (fun h => ?_) fun h => hfits h.1
    have hread := h.library .none
    rw [mttLibStringToReg_eq, if_neg hfits] at hread
    cases hread

end Functions

/-! ### Names in a source text -/

section Words

theorem word_plain {c : Char} (h : isWord c = true) : isSpace c = false ∧ c ≠ '-' ∧ c ≠ '+' := by
  refine ⟨?_, ?_, ?_⟩
  · by_contra hspace
    rw [Bool.not_eq_false] at hspace
    simp only [isSpace, Bool.or_eq_true, Bool.and_eq_true, decide_eq_true_eq] at hspace
    obtain rfl | ⟨hlo, hhi⟩ := hspace
    · exact absurd h (by decide)
    · have hlo' : 9 ≤ c.toNat := hlo
      have hhi' : c.toNat ≤ 13 := hhi
      have hall : ∀ k < 5, isWord (Char.ofNat (9 + k)) = false := by decide
      have := hall (c.toNat - 9) (by omega)
      rw [show 9 + (c.toNat - 9) = c.toNat by omega, Char.ofNat_toNat] at this
      exact absurd (h.symm.trans this) (by decide)
  · rintro rfl
    exact absurd h (by decide)
  · rintro rfl
    exact absurd h (by decide)

theorem strtoulText_word {text : List Char} (h : ∀ c ∈ text, isWord c = true) :
    strtoulText text =
      if (strtoul text).2 = text then (0, text)
      else (signedValue false (strtoul text).1, (strtoul text).2) := by
  have hplain : text.dropWhile isSpace = text ∧ splitSign text = (false, text) := by
    cases text with
    | nil => exact ⟨rfl, rfl⟩
    | cons c text =>
      obtain ⟨hspace, hminus, hplus⟩ := word_plain (h c List.mem_cons_self)
      exact ⟨List.dropWhile_cons_of_neg (by rw [hspace]; decide), splitSign_plain hminus hplus⟩
  rw [strtoulText, hplain.1, hplain.2]

theorem registerIndex_word {reg : RegisterDsc} (hreg : reg ∈ regs) {text : List Char}
    (h : ∀ c ∈ text, isWord c = true) : registerIndex reg text =
      if (strtoul text).2 ≠ text ∧ reg.offset ≤ (strtoul text).1 ∧
          (strtoul text).1 ≤ reg.last - reg.first + reg.offset then
        some (reg.first + (strtoul text).1 - reg.offset)
      else none := by
  have hsmall : ∀ reg ∈ regs, reg.last - reg.first + reg.offset < 2 ^ 32 := by decide
  have hlast := hsmall reg hreg
  rw [registerIndex, strtoulText_word h]
  by_cases hread : (strtoul text).2 = text
  · rw [if_pos hread, if_neg fun h => h.1 rfl, if_neg fun h => h.1 hread]
  · rw [if_neg hread]
    dsimp only
    by_cases hlarge : 2 ^ 64 ≤ (strtoul text).1
    · have hvalue : (signedValue false (strtoul text).1).toNat = 2 ^ 64 - 1 := by
        rw [signedValue, if_pos hlarge]
        rfl
      rw [hvalue, if_neg fun h => absurd h.2.2 (by omega), if_neg fun h => absurd h.2.2 (by omega)]
    · have hvalue : (signedValue false (strtoul text).1).toNat = (strtoul text).1 := by
        rw [signedValue, if_neg hlarge, if_neg Bool.false_ne_true, BitVec.toNat_ofNat]
        exact Nat.mod_eq_of_lt (not_le.mp hlarge)
      rw [hvalue]

theorem searchRegs_word {text : List Char} (h : ∀ c ∈ text, isWord c = true)
    {l : List RegisterDsc} (hl : ∀ reg ∈ l, reg ∈ regs) :
    (searchRegs text (strToUpper text) l).map Prod.snd = lookUpRange text l := by
  induction l with
  | nil => rfl
  | cons reg l ih =>
    have hrest := ih fun r hr => hl r (List.mem_cons_of_mem _ hr)
    have hsuffix : ∀ c ∈ text.drop reg.name.length, isWord c = true :=
      fun c hc => h c (List.mem_of_mem_drop hc)
    have hindex := registerIndex_word (hl reg List.mem_cons_self) hsuffix
    rw [searchRegs, lookUpRange]
    by_cases hfront : reg.name.isPrefixOf (strToUpper text) = true
    · rw [if_pos hfront, if_pos hfront]
      by_cases hgroup : reg.first < reg.last
      · rw [if_pos hgroup, if_pos hgroup, hindex]
        dsimp only
        by_cases hlong : reg.name.length < text.length
        · rw [if_pos hlong]
          simp only [hlong, true_and]
          split
          · rename_i n hn
            split at hn
            · rename_i hrange
              rw [if_pos hrange]
              exact hn.symm
            · cases hn
          · rename_i hn
            split at hn
            · cases hn
            · rename_i hrange
              rw [if_neg hrange]
              exact hrest
        · rw [if_neg hlong, if_neg fun h => hlong h.1]
          exact hrest
      · rw [if_neg hgroup, if_neg hgroup]
        rfl
    · rw [if_neg hfront, if_neg hfront]
      exact hrest

theorem lookUpRegisterText_word {text : List Char} (h : ∀ c ∈ text, isWord c = true) :
    lookUpRegisterText text = lookUpRegister text := by
  rw [lookUpRegisterText, lookUpRegister]
  split
  · cases regs.find? fun reg => reg.name == strToUpper text with
    | some reg => rfl
    | none => exact searchRegs_word h fun reg hreg => hreg
  · rfl

end Words

/-! ### There and back -/

/-- **Register names.**  The texts about which all three functions are right; and the assembler
takes every name back to its register, the emulator every one but `EVINCNT`, the library those of
the two groups, each with its kind. -/
theorem registerNames_iff (text : List Char) (n : Fin 256) :
    (Agrees text ↔ ReadsRight text) ∧
    lookUpRegisterText (getRegisterName n) = some n.val ∧
    (stringToReg (getRegisterName n) = n.val ↔ n.val ≠ 214) ∧
    ((∀ lorg, mttLibStringToReg (getRegisterName n) lorg = some (numberOf n, kindOf n)) ↔
      n.val < 212 ∨ 225 ≤ n.val) := by
  have hassembler : ∀ n < 256, lookUpRegisterText (getRegisterName n) = some n := by
    decide +kernel
  have hemulator : ∀ n < 256, stringToReg (getRegisterName n) = n ↔ n ≠ 214 := by decide +kernel
  have hgroup : ∀ n < 256, n < 212 ∨ 225 ≤ n →
      mttLibStringToReg (getRegisterName n) .none = some (numberOf n, kindOf n) ∧
      mttLibStringToReg (getRegisterName n) .global = some (numberOf n, kindOf n) ∧
      mttLibStringToReg (getRegisterName n) .local = some (numberOf n, kindOf n) := by
    decide +kernel
  have hsingle : ∀ n < 256, ¬ (n < 212 ∨ 225 ≤ n) →
      mttLibStringToReg (getRegisterName n) .none ≠ some (numberOf n, kindOf n) := by
    decide +kernel
  refine ⟨agrees_iff_readsRight text, hassembler n n.isLt, hemulator n n.isLt, fun h => ?_, ?_⟩
  · by_contra hnot
    exact hsingle n n.isLt hnot (h .none)
  · intro h lorg
    obtain ⟨hn, hg, hl⟩ := hgroup n n.isLt h
    cases lorg with
    | none => exact hn
    | global => exact hg
    | _ => exact hl

/-- For the emulator and the library `EVINCNT` is `EVIN`. -/
theorem agrees_evincnt :
    lookUpRegisterText "EVINCNT".toList = some 214 ∧ stringToReg "EVINCNT".toList = 213 ∧
    mttLibStringToReg "EVINCNT".toList .none = some (213, .none) ∧
    ¬ Agrees "EVINCNT".toList := by
  have hemulator : stringToReg "EVINCNT".toList = 213 := by decide +kernel
  have hnamed : registerNamed "EVINCNT".toList = some 214 := by decide +kernel
  refine ⟨by decide +kernel, hemulator, by decide +kernel, fun h => ?_⟩
  have := h.emulator
  rw [hemulator, hnamed] at this
  exact absurd this (by decide)

end KernelModules.Mttn
