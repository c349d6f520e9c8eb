import Mathlib.Tactic
import KernelModules.Tg8.UserTable

/-!
# The objects of the user table lie inside the table

Each row of the user table says how many lines its object has, and the requests of the TG8 driver run
over so many rows from there on without a test.  `Module.Extents` is that these are rows of the table;
`findPlace_inside` is that an object is put where there is room, and `Module.Extents.serve` that every
request keeps it, of whatever devices and in whatever order.
-/

namespace KernelModules.Tg8.Driver

open Function KernelModules.Lib

section Extents

variable {Dev Card : Type*} {mailbox : MailboxOp → Card → Option Card}
  {m m' : Module Dev Card} {an : ℕ}

/-- The table has at most 256 rows in use, and from each row on there are as many rows as it says
that its object has lines. -/
def Module.Extents (m : Module Dev Card) : Prop :=
  m.size ≤ tg8Actions ∧ ∀ i < tg8Actions, i + (m.rows i).dim.toNat ≤ tg8Actions

theorem Module.Extents.of_dim (h : m.Extents) (hsize : m'.size ≤ tg8Actions)
    (hdim : ∀ i, (m'.rows i).dim = (m.rows i).dim ∨ (m'.rows i).dim = 0) : m'.Extents := by
  refine ⟨hsize, fun i hi => ?_⟩
  obtain heq | heq := hdim i
  · rw [heq]
    exact h.2 i hi
  · rw [heq]
    exact Nat.le_of_lt hi

theorem Module.Extents.of_rewrites {g : Row Dev → Row Dev} (h : m.Extents)
    (hs : m.Rewrites m' an g) (hg : ∀ r, (g r).dim = r.dim) : m'.Extents := by
  obtain ⟨card, rfl⟩ := hs
  refine h.of_dim h.1 fun i => .inl ?_
  by_cases hi : i = an
  · subst hi
    simp [Module.modify, hg]
  · simp [Module.modify, update_of_ne hi]

theorem Module.Extents.of_loop {f : ℕ → Module Dev Card → Option (Module Dev Card)}
    (an : ℕ) (g : ℕ → Row Dev → Row Dev) {n : ℕ} (h : m.Extents) (hf : loop f n m = some m')
    (hstep : ∀ i t t', f i t = some t' → t.Rewrites t' (an + i) (g i))
    (hg : ∀ i r, (g i r).dim = r.dim) : m'.Extents := by
  obtain ⟨hrows, hsize, -⟩ := loop_rewrites hstep hf
  refine h.of_dim (hsize ▸ h.1) fun j => .inl ?_
  rw [hrows]
  split_ifs
  · exact hg _ _
  · rfl

theorem enabledRow_dim (r : Row Dev) : (enabledRow r).dim = r.dim := by
  simp only [enabledRow]
  split_ifs <;> rfl

theorem clearedRow_dim (r : Row Dev) : (clearedRow r).dim = r.dim := by
  simp only [clearedRow]
  split_ifs <;> rfl

variable [DecidableEq Dev] {d : Dev}

theorem attachedRow_dim (d : Dev) (r : Row Dev) : (attachedRow d r).dim = r.dim :=
  enabledRow_dim _

theorem detachedRow_dim (d : Dev) (r : Row Dev) : (detachedRow d r).dim = r.dim := by
  rw [detachedRow]
  split_ifs
  · exact clearedRow_dim _
  · rfl

theorem knownRow_dim (d : Dev) (act : Tg8User) (r : Row Dev) : (knownRow d act r).dim = r.dim := by
  have hadded : ∀ r : Row Dev, (addedRow act r).dim = r.dim := by
    intro r
    rw [addedRow]
    split_ifs <;> rfl
  rw [knownRow]
  split_ifs
  · rw [enabledRow_dim, hadded]
  · exact hadded r

omit [DecidableEq Dev] in
theorem Module.objById_lt {id : BitVec 32} (h : m.objById id = some an) : an < m.size :=
  List.mem_range.1 (List.mem_of_find?_eq_some h)

omit [DecidableEq Dev] in
theorem Module.Extents.clear {row rows : ℕ} (h : m.Extents) (hrow : row ≤ tg8Actions)
    (hc : clearUserTable mailbox row rows m = some m') : m'.Extents := by
  obtain ⟨card, rfl⟩ := clearUserTable_eq hc
  refine h.of_dim ?_ fun i => ?_
  · change (if m.size ≤ row + rows then row else m.size) ≤ tg8Actions
    split_ifs
    · exact hrow
    · exact h.1
  · by_cases hi : row ≤ i ∧ i < row + rows
    · exact .inr (by simp [hi, Row.cleared])
    · exact .inl (by simp [hi])

theorem Module.Extents.writeOne {act : Tg8User} {rep : Reply} (h : m.Extents)
    (hw : writeOne mailbox d act m = some (rep, m')) : m'.Extents := by
  rw [Driver.writeOne] at hw
  split_ifs at hw
  · obtain ⟨-, rfl⟩ := Prod.mk.inj (Option.some.inj hw)
    exact h
  · split at hw
    · obtain ⟨t, ht, heq⟩ := Option.map_eq_some_iff.1 hw
      obtain ⟨-, rfl⟩ := Prod.mk.inj heq
      exact h.of_rewrites (writeKnown_rewrites ht) (knownRow_dim d act)
    · obtain rfl | ⟨hole, card, hhole, rfl⟩ := writeNew_eq hw
      · exact h
      · have hdim : ({ m.modify hole (newRow d act) with card := card } : Module Dev Card).Extents :=
          h.of_rewrites ⟨card, rfl⟩ (g := newRow d act) fun r => rfl
        refine hdim.of_dim ?_ fun i => .inl rfl
        change (if hole = m.size then m.size + 1 else m.size) ≤ tg8Actions
        have hsize := h.1
        split_ifs with heq
        · obtain hfound | ⟨-, hne⟩ := hhole
          · have hlt : hole < m.size := List.mem_range.1 (List.mem_of_find?_eq_some hfound)
            omega
          · omega
        · exact hsize

theorem findRun_inside (free : ℕ → Bool) {k : ℕ} (left i an : ℕ) (j : Option ℕ) (hk : an < k)
    (hj : an = 0 ∧ j = none ∨ ∃ s, j = some s ∧ s + an = i)
    (hfound : k ≤ (findRun free k left i an j).2.1) :
    ∃ s, (findRun free k left i an j).2.2 = some s ∧ s + k ≤ i + left := by
  have hnext : ∃ s, j.or (some i) = some s ∧ s + (an + 1) = i + 1 := by
    obtain ⟨rfl, rfl⟩ | ⟨s, rfl, hs⟩ := hj
    · exact ⟨i, rfl, by omega⟩
    · exact ⟨s, rfl, by omega⟩
  induction left generalizing i an j with
  | zero => exact absurd hfound (Nat.not_le.2 hk)
  | succ left ih =>
    simp only [findRun] at hfound ⊢
    split_ifs at hfound ⊢ with hfree hlast
    · obtain ⟨s, hs, hle⟩ := ih (i + 1) 0 none (by omega) (.inl ⟨rfl, rfl⟩) hfound
        ⟨i + 1, rfl, by omega⟩
      exact ⟨s, hs, by omega⟩
    · obtain ⟨s, hs, hsum⟩ := hnext
      exact ⟨s, hs, by omega⟩
    · obtain ⟨s, hs, hle⟩ := ih (i + 1) (an + 1) (j.or (some i)) (by omega) (.inr hnext) hfound
        (by
          obtain ⟨s, hs, hsum⟩ := hnext
          exact ⟨s, by rw [hs]; rfl, by omega⟩)
      exact ⟨s, hs, by omega⟩

omit [DecidableEq Dev] in
theorem Module.Extents.findPlace_inside {k row : ℕ} (h : m.Extents) (hk : 0 < k)
    (hrow : m.findPlace k = some row) : row + k ≤ tg8Actions := by
  simp only [Module.findPlace] at hrow
  split_ifs at hrow with hfull
  obtain rfl := Option.some.inj hrow
  by_cases hfound : k ≤ (findRun (fun i => (m.rows i).action.uEvent = 0) k m.size 0 0 none).2.1
  · obtain ⟨s, hs, hle⟩ := findRun_inside _ m.size 0 0 none hk (.inl ⟨rfl, rfl⟩) hfound
    rw [hs]
    have hsize := h.1
    simp only [Option.getD_some]
    omega
  · exact Nat.not_lt.1 fun hlt => hfull ⟨Nat.not_le.1 hfound, hlt⟩

omit [DecidableEq Dev] in
theorem Module.Extents.setObject {oid : BitVec 32} {ppm : Tg8PpmUser} {rep : Reply} (h : m.Extents)
    (hs : setObject mailbox d oid ppm m = some (rep, m')) : m'.Extents := by
  obtain rfl | ⟨row, card, hvalid, hplace, rfl⟩ := setObject_eq hs
  · exact h
  have hpos : 0 < ppm.simple.dim.toNat := by
    simp only [validObject, Bool.and_eq_true, decide_eq_true_eq] at hvalid
    exact hvalid.2
  have hinside : row + ppm.simple.dim.toNat ≤ tg8Actions := h.findPlace_inside hpos hplace
  refine ⟨max_le h.1 hinside, fun i hi => ?_⟩
  change i + (if row ≤ i ∧ i < row + ppm.simple.dim.toNat then _ else m.rows i).dim.toNat ≤ _
  split_ifs with hrow
  · change i + (if i - row = 0 then ppm.simple.dim else (m.rows i).dim).toNat ≤ _
    split_ifs with hfirst
    · have heq : i = row := by omega
      rw [heq]
      exact hinside
    · exact h.2 i hi
  · exact h.2 i hi

omit [DecidableEq Dev] in
theorem Module.Extents.onClose {mode : OnCloseMode} (h : m.Extents)
    (hc : onClose mailbox mode m = some m') : m'.Extents := by
  rw [Driver.onClose] at hc
  split_ifs at hc
  · exact h.clear (Nat.zero_le _) hc
  · exact Option.some.inj hc ▸ h

theorem Module.Extents.close {mode : OnCloseMode} {rep : Reply} (h : m.Extents)
    (hc : tg8DrvrClose mailbox d mode m = some (rep, m')) : m'.Extents := by
  simp only [tg8DrvrClose] at hc
  split_ifs at hc
  · obtain ⟨t, ht, heq⟩ := Option.map_eq_some_iff.1 hc
    obtain ⟨s, hs, ht⟩ := Option.bind_eq_some_iff.1 ht
    obtain ⟨-, rfl⟩ := Prod.mk.inj heq
    have herase : ({ m with devMask := m.devMask.erase d } : Module Dev Card).Extents := h
    have hopen : s.Extents := herase.onClose hs
    refine hopen.of_loop 0 (fun _ => releasedRow d) ht (fun i t t' hi => ?_) ?_
    · exact (Nat.zero_add i).symm ▸ releaseRow_rewrites hi
    · intro i r
      rw [releasedRow]
      split_ifs
      · rfl
      · exact detachedRow_dim d r
  · exact (Prod.mk.inj (Option.some.inj hc)).2 ▸ h

theorem Module.Extents.connect {id mask : BitVec 32} {rep : Reply} (h : m.Extents)
    (hc : connect mailbox d id mask m = some (rep, m')) : m'.Extents := by
  simp only [Driver.connect] at hc
  split at hc
  · exact (Prod.mk.inj (Option.some.inj hc)).2 ▸ h
  · obtain ⟨t, ht, heq⟩ := Option.map_eq_some_iff.1 hc
    obtain ⟨-, rfl⟩ := Prod.mk.inj heq
    refine h.of_loop _ _ ht (fun i t t' hi => connectRow_rewrites hi) fun i r => ?_
    rw [connectedRow]
    split_ifs
    · exact attachedRow_dim d r
    · exact detachedRow_dim d r

theorem Module.Extents.filterEvent {event : BitVec 32} {rep : Reply} (h : m.Extents)
    (hf : filterEvent mailbox d event m = some (rep, m')) : m'.Extents := by
  obtain ⟨t, ht, heq⟩ := Option.map_eq_some_iff.1 hf
  obtain ⟨-, rfl⟩ := Prod.mk.inj heq
  refine h.of_loop 0 (fun _ => filteredRow d event) ht (fun i t t' hi => ?_) ?_
  · exact (Nat.zero_add i).symm ▸ filterRow_rewrites hi
  · intro i r
    rw [filteredRow]
    split_ifs
    · rfl
    · exact attachedRow_dim d r
    · exact detachedRow_dim d r

omit [DecidableEq Dev] in
theorem Module.Extents.changeActionState {row rows : ℕ} {state : BitVec 32} (h : m.Extents)
    (hc : changeActionState mailbox row rows state m = some m') : m'.Extents := by
  obtain ⟨card, rfl⟩ := send_eq hc
  refine h.of_dim h.1 fun i => .inl ?_
  by_cases hi : row ≤ i ∧ i < row + rows
  · simp [hi, Row.setControl]
  · simp [hi]

omit [DecidableEq Dev] in
theorem validRange_row {row rows : BitVec 32} (h : validRange row rows = true) :
    row.toNat - 1 ≤ tg8Actions := by
  simp only [validRange, Bool.and_eq_true, decide_eq_true_eq] at h
  omega

omit [DecidableEq Dev] in
theorem Module.Extents.setParam {line sel value aux : BitVec 16} {rep : Reply} (h : m.Extents)
    (hp : setParam mailbox an line sel value aux m = some (rep, m')) : m'.Extents := by
  simp only [Driver.setParam] at hp
  split_ifs at hp
  · obtain ⟨t, ht, heq⟩ := Option.map_eq_some_iff.1 hp
    obtain ⟨-, rfl⟩ := Prod.mk.inj heq
    exact h.changeActionState ht
  · obtain ⟨t, ht, heq⟩ := Option.map_eq_some_iff.1 hp
    obtain ⟨-, rfl⟩ := Prod.mk.inj heq
    obtain ⟨card, rfl⟩ := send_eq ht
    exact h.of_rewrites ⟨card, rfl⟩ (g := delayedRow value aux) fun r => rfl
  · exact (Prod.mk.inj (Option.some.inj hp)).2 ▸ h

omit [DecidableEq Dev] in
theorem Module.Extents.objectParam {id : BitVec 32} {line sel value aux : BitVec 16} {rep : Reply}
    (h : m.Extents)
    (ho : objectParam mailbox id line sel value aux m = some (rep, m')) : m'.Extents := by
  simp only [Driver.objectParam] at ho
  split at ho
  · exact (Prod.mk.inj (Option.some.inj ho)).2 ▸ h
  · split_ifs at ho
    · exact (Prod.mk.inj (Option.some.inj ho)).2 ▸ h
    · exact h.setParam ho

theorem Module.Extents.serve {req : Request} {rep : Reply} (h : m.Extents)
    (hs : serve mailbox d req m = some (rep, m')) : m'.Extents := by
  cases req with
  | «open» =>
    simp only [Driver.serve, tg8DrvrOpen] at hs
    split_ifs at hs <;> exact (Prod.mk.inj (Option.some.inj hs)).2 ▸ h
  | close mode => exact h.close hs
  | write actions => exact tg8DrvrWrite_keeps (fun act rep m m' hm hw => hm.writeOne hw) h hs
  | clearAction row cnt =>
    simp only [Driver.serve, Driver.clearAction] at hs
    split_ifs at hs with hbad
    · exact (Prod.mk.inj (Option.some.inj hs)).2 ▸ h
    · obtain ⟨t, ht, heq⟩ := Option.map_eq_some_iff.1 hs
      obtain ⟨-, rfl⟩ := Prod.mk.inj heq
      exact h.clear (validRange_row (by simpa using hbad)) ht
  | setObject id ppm => exact h.setObject hs
  | removeObject id =>
    simp only [Driver.serve, Driver.removeObject] at hs
    split at hs
    · exact (Prod.mk.inj (Option.some.inj hs)).2 ▸ h
    · rename_i an han
      obtain ⟨t, ht, heq⟩ := Option.map_eq_some_iff.1 hs
      obtain ⟨-, rfl⟩ := Prod.mk.inj heq
      exact h.clear (Nat.le_of_lt ((Module.objById_lt han).trans_le h.1)) ht
  | connect id mask => exact h.connect hs
  | filterEvent event => exact h.filterEvent hs
  | setActionState row cnt state =>
    simp only [Driver.serve, Driver.setActionState] at hs
    split_ifs at hs
    · exact (Prod.mk.inj (Option.some.inj hs)).2 ▸ h
    · obtain ⟨t, ht, heq⟩ := Option.map_eq_some_iff.1 hs
      obtain ⟨-, rfl⟩ := Prod.mk.inj heq
      exact h.changeActionState ht
  | objectParam id line sel value aux => exact h.objectParam hs

end Extents

end KernelModules.Tg8.Driver
