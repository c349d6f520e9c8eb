import Mathlib.Tactic

/-!
# Rounding to a value of the card

The library rounds a value that the caller wants (a clock frequency, a length of events) to one that
the card can have.  The list of these is sorted, the greatest first.

* `approx` is the search for the closest value of those that a direction allows;
* `sis33devRoundUint` decides the two ends of the list before it searches;
* `Rounded` is what the caller expects, and `round_uint_rounded` that it gets it.

Reading behind the end of the list has no outcome.
-/

namespace KernelModules.Sis33

/-- `enum sis33_round`. -/
inductive Round
  | nearest
  | down
  | up
  deriving DecidableEq, Repr

/-! ### The search -/

/-- `abs` of the C library. -/
def cAbs (d : BitVec 32) : BitVec 32 := BitVec.ofNat 32 d.toInt.natAbs

/-- `__round_ok`. -/
def roundOk (candidate value : BitVec 32) : Round → Bool
  | .up => value ≤ candidate
  | .down => candidate ≤ value
  | .nearest => true

/-- The loop of `__approx` from entry `i` on. -/
def approxLoop (value : BitVec 32) (round : Round) : List (BitVec 32) → ℕ → BitVec 32 → ℕ → ℕ
  | [], _, _, result => result
  | x :: xs, i, mindiff, result =>
    let diff := cAbs (x - value)
    if diff < mindiff ∧ roundOk x value round then
      if diff = 0 then i else approxLoop value round xs (i + 1) diff i
    else approxLoop value round xs (i + 1) mindiff result

/-- `__approx`. -/
def approx (array : List (BitVec 32)) (value : BitVec 32) (round : Round) : Option (BitVec 32) :=
  array[approxLoop value round array 0 (~~~0) 0]?

/-- `sis33dev_round_uint`. -/
def sis33devRoundUint (array : List (BitVec 32)) (value : BitVec 32) (round : Round) :
    Option (BitVec 32) := do
  let first ← array[0]?
  if first ≤ value then return first
  let last ← array[array.length - 1]?
  if value ≤ last then return last
  approx array value round

/-! ### What is expected of it -/

/-- How far an entry is from the value. -/
def distance (x value : BitVec 32) : ℕ := ((x.toNat : ℤ) - value.toNat).natAbs

/-- The entry `r` for a value: the greatest entry not above it, or the least one if there is none;
the least one not below it, or the greatest one; an entry that is closest to it. -/
def Rounded (array : List (BitVec 32)) (value r : BitVec 32) : Round → Prop
  | .down =>
    (r ≤ value ∧ ∀ x ∈ array, x ≤ value → x ≤ r) ∨
      ((∀ x ∈ array, value < x) ∧ ∀ x ∈ array, r ≤ x)
  | .up =>
    (value ≤ r ∧ ∀ x ∈ array, value ≤ x → r ≤ x) ∨
      ((∀ x ∈ array, x < value) ∧ ∀ x ∈ array, x ≤ r)
  | .nearest => ∀ x ∈ array, distance r value ≤ distance x value

/-! ### The closest entry -/

theorem toNat_cAbs_sub {x value : BitVec 32} (hx : x.toNat < 2 ^ 31) (hv : value.toNat < 2 ^ 31) :
    (cAbs (x - value)).toNat = distance x value := by
  have hdiff : (x - value).toInt = (x.toNat : ℤ) - value.toNat := by
    rw [BitVec.toInt_sub, BitVec.toInt_eq_toNat_of_lt (by omega),
      BitVec.toInt_eq_toNat_of_lt (by omega)]
    exact Int.bmod_eq_of_le (by omega) (by omega)
  unfold cAbs distance
  rw [hdiff, BitVec.toNat_ofNat]
  exact Nat.mod_eq_of_lt (by omega)

/-- What the loop knows after the entries `seen`: no entry is allowed yet, or the entry at `result`
is the closest one. -/
def Searched (seen : List (BitVec 32)) (value : BitVec 32) (round : Round) (mindiff : BitVec 32)
    (result : ℕ) : Prop :=
  (mindiff = ~~~0 ∧ ∀ x ∈ seen, ¬ roundOk x value round) ∨
    ∃ c, seen[result]? = some c ∧ roundOk c value round ∧ mindiff.toNat = distance c value ∧
      ∀ x ∈ seen, roundOk x value round → distance c value ≤ distance x value

variable {seen xs : List (BitVec 32)} {value mindiff : BitVec 32} {round : Round} {result : ℕ}

theorem Searched.take {x : BitVec 32} (h : Searched seen value round mindiff result)
    (hx : x.toNat < 2 ^ 31) (hv : value.toNat < 2 ^ 31) (hok : roundOk x value round)
    (hlt : cAbs (x - value) < mindiff) :
    Searched (seen ++ [x]) value round (cAbs (x - value)) seen.length := by
  have hdist := toNat_cAbs_sub hx hv
  refine Or.inr ⟨x, List.getElem?_concat_length, hok, hdist, fun y hy hyok => ?_⟩
  rcases List.mem_append.1 hy with hy | hy
  · rcases h with ⟨-, hnone⟩ | ⟨c, -, -, hmin, hbest⟩
    · exact absurd hyok (hnone y hy)
    · have hlt' : distance x value < distance c value := by
        rw [← hdist, ← hmin]
        exact hlt
      exact hlt'.le.trans (hbest y hy hyok)
  · rw [List.mem_singleton.1 hy]

theorem Searched.skip {x : BitVec 32} (h : Searched seen value round mindiff result)
    (hx : x.toNat < 2 ^ 31) (hv : value.toNat < 2 ^ 31)
    (hno : ¬ (cAbs (x - value) < mindiff ∧ roundOk x value round)) :
    Searched (seen ++ [x]) value round mindiff result := by
  have hdist := toNat_cAbs_sub hx hv
  rcases h with ⟨hmin, hnone⟩ | ⟨c, hc, hok, hmin, hbest⟩
  · refine Or.inl ⟨hmin, fun y hy hyok => ?_⟩
    rcases List.mem_append.1 hy with hy | hy
    · exact hnone y hy hyok
    · obtain rfl := List.mem_singleton.1 hy
      -- a difference is never as large as the initial minimum
      have hlt : cAbs (y - value) < mindiff := by
        rw [hmin, BitVec.lt_def, hdist]
        show distance y value < 2 ^ 32 - 1
        unfold distance
        omega
      exact hno ⟨hlt, hyok⟩
  · refine Or.inr ⟨c, ?_, hok, hmin, fun y hy hyok => ?_⟩
    · rw [List.getElem?_append_left (List.getElem?_eq_some_iff.1 hc).1, hc]
    · rcases List.mem_append.1 hy with hy | hy
      · exact hbest y hy hyok
      · obtain rfl := List.mem_singleton.1 hy
        by_contra hcloser
        have hlt : cAbs (y - value) < mindiff := by
          rw [BitVec.lt_def, hdist, hmin]
          exact not_le.1 hcloser
        exact hno ⟨hlt, hyok⟩

theorem Searched.loop (h : Searched seen value round mindiff result)
    (hsmall : ∀ x ∈ seen ++ xs, x.toNat < 2 ^ 31) (hv : value.toNat < 2 ^ 31)
    (hsome : ∃ x ∈ seen ++ xs, roundOk x value round) :
    ∃ c, (seen ++ xs)[approxLoop value round xs seen.length mindiff result]? = some c ∧
      roundOk c value round ∧
      ∀ x ∈ seen ++ xs, roundOk x value round → distance c value ≤ distance x value := by
  induction xs generalizing seen mindiff result with
  | nil =>
    rw [List.append_nil] at hsome ⊢
    rcases h with ⟨-, hnone⟩ | ⟨c, hc, hok, -, hbest⟩
    · obtain ⟨x, hx, hok⟩ := hsome
      exact absurd hok (hnone x hx)
    · exact ⟨c, hc, hok, hbest⟩
  | cons x xs ih =>
    have happend : seen ++ x :: xs = (seen ++ [x]) ++ xs := List.append_cons seen x xs
    have hlength : (seen ++ [x]).length = seen.length + 1 := List.length_append
    have hx : x.toNat < 2 ^ 31 := hsmall x (List.mem_append_right _ List.mem_cons_self)
    rw [happend] at hsmall hsome ⊢
    unfold approxLoop
    by_cases hcloser : cAbs (x - value) < mindiff ∧ roundOk x value round
    · have htake := h.take hx hv hcloser.2 hcloser.1
      rw [if_pos hcloser]
      by_cases hzero : cAbs (x - value) = 0
      · -- no entry can be closer, and the loop stops
        have hdist : distance x value = 0 := by
          rw [← toNat_cAbs_sub hx hv, hzero]
          rfl
        rw [if_pos hzero]
        refine ⟨x, ?_, hcloser.2, fun y _ _ => hdist ▸ Nat.zero_le _⟩
        rw [List.getElem?_append_left (by rw [hlength]; exact Nat.lt_succ_self _),
          List.getElem?_concat_length]
      · rw [if_neg hzero, ← hlength]
        exact ih htake hsmall hsome
    · rw [if_neg hcloser, ← hlength]
      exact ih (h.skip hx hv hcloser) hsmall hsome

theorem approx_closest {array : List (BitVec 32)} (hsmall : ∀ x ∈ array, x.toNat < 2 ^ 31)
    (hv : value.toNat < 2 ^ 31) (hsome : ∃ x ∈ array, roundOk x value round) :
    ∃ c, approx array value round = some c ∧ c ∈ array ∧ roundOk c value round ∧
      ∀ x ∈ array, roundOk x value round → distance c value ≤ distance x value := by
  have hstart : Searched [] value round (~~~0) 0 :=
    Or.inl ⟨rfl, fun x hx => absurd hx List.not_mem_nil⟩
  obtain ⟨c, hc, hok, hbest⟩ := hstart.loop hsmall hv hsome
  exact ⟨c, hc, List.mem_of_getElem? hc, hok, hbest⟩

/-! ### The closest entry on one side -/

theorem le_of_distance_le_below {c x : BitVec 32} (hc : c ≤ value) (hx : x ≤ value)
    (h : distance c value ≤ distance x value) : x ≤ c := by
  rw [BitVec.le_def] at hc hx ⊢
  unfold distance at h
  omega

theorem le_of_distance_le_above {c x : BitVec 32} (hc : value ≤ c) (hx : value ≤ x)
    (h : distance c value ≤ distance x value) : c ≤ x := by
  rw [BitVec.le_def] at hc hx ⊢
  unfold distance at h
  omega

theorem rounded_of_greatest {array : List (BitVec 32)} {first : BitVec 32}
    (hgreatest : ∀ x ∈ array, x ≤ first) (h : first ≤ value) (round : Round) :
    Rounded array value first round := by
  cases round with
  | nearest =>
    intro x hx
    have hle := hgreatest x hx
    rw [BitVec.le_def] at hle h
    unfold distance
    omega
  | down => exact Or.inl ⟨h, fun x hx _ => hgreatest x hx⟩
  | up =>
    by_cases heq : first = value
    · exact Or.inl ⟨heq ▸ BitVec.le_refl first, fun x _ hx => heq ▸ hx⟩
    · have hlt := BitVec.lt_of_le_ne h heq
      exact Or.inr ⟨fun x hx => Nat.lt_of_le_of_lt (hgreatest x hx) hlt, hgreatest⟩

theorem rounded_of_least {array : List (BitVec 32)} {last : BitVec 32}
    (hleast : ∀ x ∈ array, last ≤ x) (h : value ≤ last) (round : Round) :
    Rounded array value last round := by
  cases round with
  | nearest =>
    intro x hx
    have hle := hleast x hx
    rw [BitVec.le_def] at hle h
    unfold distance
    omega
  | down =>
    by_cases heq : value = last
    · exact Or.inl ⟨heq ▸ BitVec.le_refl value, fun x _ hx => heq ▸ hx⟩
    · have hlt := BitVec.lt_of_le_ne h heq
      exact Or.inr ⟨fun x hx => Nat.lt_of_lt_of_le hlt (hleast x hx), hleast⟩
  | up => exact Or.inl ⟨h, fun x hx _ => hleast x hx⟩

/-- **The rounding.**  For a list sorted in descending order and every value, an entry is returned,
and it is the one that the direction asks for. -/
theorem round_uint_rounded {array : List (BitVec 32)} (hne : array ≠ [])
    (hsorted : array.Pairwise fun a b => b < a) (hsmall : ∀ x ∈ array, x.toNat < 2 ^ 31)
    (value : BitVec 32) (round : Round) :
    ∃ r, sis33devRoundUint array value round = some r ∧ r ∈ array ∧
      Rounded array value r round := by
  have hlen : 0 < array.length := List.length_pos_iff.2 hne
  have hfirst : array[0]? = some array[0] := List.getElem?_eq_getElem hlen
  have hlast : array[array.length - 1]? = some array[array.length - 1] :=
    List.getElem?_eq_getElem (Nat.sub_lt hlen Nat.one_pos)
  have hfirstmem : array[0] ∈ array := List.getElem_mem hlen
  have hlastmem : array[array.length - 1] ∈ array := List.getElem_mem _
  have hgreatest : ∀ x ∈ array, x ≤ array[0] := by
    intro x hx
    obtain ⟨i, hi, rfl⟩ := List.getElem_of_mem hx
    rcases Nat.eq_zero_or_pos i with rfl | hpos
    · exact BitVec.le_refl _
    · exact BitVec.le_of_lt (List.pairwise_iff_getElem.1 hsorted 0 i hlen hi hpos)
  have hleast : ∀ x ∈ array, array[array.length - 1] ≤ x := by
    intro x hx
    obtain ⟨i, hi, rfl⟩ := List.getElem_of_mem hx
    rcases Nat.lt_or_ge i (array.length - 1) with hlt | hge
    · exact BitVec.le_of_lt (List.pairwise_iff_getElem.1 hsorted i _ hi _ hlt)
    · have heq : i = array.length - 1 := by omega
      subst heq
      exact BitVec.le_refl _
  unfold sis33devRoundUint
  rw [hfirst, hlast]
  by_cases habove : array[0] ≤ value
  · refine ⟨array[0], ?_, hfirstmem, rounded_of_greatest hgreatest habove round⟩
    simp [habove]
  · by_cases hbelow : value ≤ array[array.length - 1]
    · refine ⟨_, ?_, hlastmem, rounded_of_least hleast hbelow round⟩
      simp [habove, hbelow]
    · have hin := And.intro (BitVec.not_le.1 habove) (BitVec.not_le.1 hbelow)
      have hv : value.toNat < 2 ^ 31 := lt_trans (BitVec.lt_def.1 hin.1) (hsmall _ hfirstmem)
      have hsome : ∃ x ∈ array, roundOk x value round := by
        cases round with
        | nearest => exact ⟨_, hfirstmem, rfl⟩
        | down => exact ⟨_, hlastmem, by simpa [roundOk] using BitVec.le_of_lt hin.2⟩
        | up => exact ⟨_, hfirstmem, by simpa [roundOk] using BitVec.le_of_lt hin.1⟩
      obtain ⟨c, hc, hmem, hok, hbest⟩ := approx_closest hsmall hv hsome
      refine ⟨c, ?_, hmem, ?_⟩
      · simp [habove, hbelow, hc]
      · cases round with
        | nearest => exact fun x hx => hbest x hx rfl
        | down =>
          have hle : c ≤ value := by simpa [roundOk] using hok
          refine Or.inl ⟨hle, fun x hx hxle => le_of_distance_le_below hle hxle ?_⟩
          exact hbest x hx (by simpa [roundOk] using hxle)
        | up =>
          have hle : value ≤ c := by simpa [roundOk] using hok
          refine Or.inl ⟨hle, fun x hx hxle => le_of_distance_le_above hle hxle ?_⟩
          exact hbest x hx (by simpa [roundOk] using hxle)

theorem round_uint_rounded_length :
    ∃ r, sis33devRoundUint [64, 16, 4] 20 .up = some r ∧ r ∈ [64, 16, 4] ∧
      Rounded [64, 16, 4] 20 r .up :=
  round_uint_rounded (by simp) (by simp) (by simp) 20 .up

end KernelModules.Sis33
