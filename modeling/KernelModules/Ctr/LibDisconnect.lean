import KernelModules.Ctr.CardedClients

/-!
# Disconnecting through the library

`ctr_disconnect` asks the driver for the connections of the whole process, looks for the first one
with the wanted class and number, and passes it to the driver's `DISCONNECT` on its own handle.
The list says nothing about handles, each object is in it once, and the hardware interrupts of a
handle on a module are one entry, with all their bits.

* `connectionList` is the list of `GET_CLIENT_CONNECTIONS`, `ctrDisconnect` the function;
* `Link` is a place a handle can be connected to, `LibArea.Holds` and `LibArea.Names` say who is
  connected where and which places a call names;
* `find?_connectionList` is the entry the call finds, `ctrDisconnect_cases` what it does with it;
* `disconnectsExactly_iff` says when exactly the places that were named are given up.
-/

namespace KernelModules.Ctr

open Function KernelModules.Lib

/-! ### The list of connections -/

/-- `CtrDrvrCONNECTIONS`. -/
def maxConnections : ℕ := 512

/-- The sources of hardware interrupts that the client of mask `msk` is connected to. -/
def ModuleContext.sources (m : ModuleContext) (msk : U32) : U32 :=
  (List.range interruptSources).foldl
    (fun hmsk c => if msk &&& m.hardClients c ≠ 0 then hmsk ||| 1#32 <<< c else hmsk) 0

/-- One more connection, unless the object is in the list. -/
def addConnection (ccn : List Connection) (e : Connection) : List Connection :=
  if ccn.any fun c => e.eqpNum = c.eqpNum ∧ e.eqpClass = c.eqpClass then ccn else ccn ++ [e]

/-- The connections of the client of mask `msk` to triggers of the module of index `j`. -/
def addSlots (m : ModuleContext) (j : ℕ) (msk : U32) (ccn : List Connection) : List Connection :=
  (List.range ramTableSize).foldl
    (fun ccn k =>
      if msk &&& m.clients k ≠ 0 then
        addConnection ccn ⟨BitVec.ofNat 32 (j + 1), m.eqpClass k, m.eqpNum k⟩
      else ccn) ccn

/-- All its connections on that module. -/
def addModule (m : ModuleContext) (j : ℕ) (msk : U32) (ccn : List Connection) : List Connection :=
  if m.sources msk ≠ 0 then
    addSlots m j msk ccn ++ [⟨BitVec.ofNat 32 (j + 1), .hard, m.sources msk⟩]
  else addSlots m j msk ccn

/-- The open handles of a process, each with the 16 modules, in the order of the loops. -/
def LibArea.places (s : LibArea) (pid : U32) : List (Fin 16 × ℕ) :=
  ((List.finRange 16).filter fun i => (s.clientContexts i).inUse && s.pid i == pid).flatMap fun i =>
    (List.range 16).map fun j => (i, j)

/-- What `GET_CLIENT_CONNECTIONS` collects. -/
def LibArea.connectionList (s : LibArea) (pid : U32) : List Connection :=
  (s.places pid).foldl
    (fun ccn p => addModule (s.moduleContexts p.2) p.2 (s.clientContexts p.1).mask ccn) []

/-- `GET_CLIENT_CONNECTIONS`.  It tests the size after it has written an entry: one entry more than
there is room for is written behind the end. -/
def getClientConnections (fd : ℕ) (pid : U32) : LibCall (List Connection) :=
  query fd fun s _ =>
    if (s.connectionList pid).length ≤ maxConnections then some (.ok (s.connectionList pid))
    else none

/-- The loop of `ctr_disconnect` without a mask. -/
def disconnectEach (fd : ℕ) : List Connection → LibCall Unit
  | [] => pure ()
  | c :: cs => do
    ioctl fd (.disconnect c)
    disconnectEach fd cs

/-- `ctr_disconnect`, called by the process `pid`. -/
def ctrDisconnect (fd : ℕ) (pid : U32) (cls : ConnectionClass) (mask : U32) : LibCall Unit := do
  let ccon ← getClientConnections fd pid
  if mask = 0 then disconnectEach fd ccon
  else
    match ccon.find? fun c => c.eqpNum = mask ∧ c.eqpClass = cls with
    | some c => ioctl fd (.disconnect c)
    | none => .fail .ENOTCONN

/-! ### Who is connected where -/

/-- A place a handle can be connected to: a trigger slot or a hardware interrupt of a module. -/
inductive Link
  | slot (midx i : ℕ)
  | source (midx c : ℕ)
  deriving DecidableEq, Repr

/-- Handle `k` is connected to a place. -/
def LibArea.Holds (s : LibArea) (k : Fin 16) : Link → Prop
  | .slot midx i => i < ramTableSize ∧ ((s.moduleContexts midx).clients i).getLsbD k = true
  | .source midx c =>
    c < interruptSources ∧ ((s.moduleContexts midx).hardClients c).getLsbD k = true

/-- The places that a call on handle `k` names: those on its current module, with the number for a
timing class, and in the mask for the hardware class. -/
def LibArea.Names (s : LibArea) (k : Fin 16) (cls : ConnectionClass) (mask : U32) : Link → Prop
  | .slot midx i => midx = s.clientModule k ∧ (cls = .ctim ∨ cls = .ptim) ∧
      (s.moduleContexts midx).eqpNum i = mask ∧ (s.moduleContexts midx).eqpClass i = cls
  | .source midx c => midx = s.clientModule k ∧ cls = .hard ∧ mask.getLsbD c = true

/-- Handle `k` has a connection that its call names. -/
def LibArea.Named (s : LibArea) (k : Fin 16) (cls : ConnectionClass) (mask : U32) : Prop :=
  ∃ l, s.Holds k l ∧ s.Names k cls mask l

/-- The client of mask `msk` is connected to a slot of that class and number. -/
def ModuleContext.onSlot (m : ModuleContext) (msk : U32) (cls : ConnectionClass) (mask : U32) :
    Bool :=
  (List.range ramTableSize).any fun k =>
    msk &&& m.clients k ≠ 0 ∧ m.eqpNum k = mask ∧ m.eqpClass k = cls

/-- The list has an entry of that class and number for a handle on a module: a slot, or the mask of
all its hardware interrupts there. -/
def LibArea.lists (s : LibArea) (cls : ConnectionClass) (mask : U32) (p : Fin 16 × ℕ) : Bool :=
  (s.moduleContexts p.2).onSlot (s.clientContexts p.1).mask cls mask ||
    decide (cls = .hard ∧ (s.moduleContexts p.2).sources (s.clientContexts p.1).mask = mask)

/-- The first handle of the process, by minor number, and its first module with such an entry. -/
def LibArea.firstPlace (s : LibArea) (pid : U32) (cls : ConnectionClass) (mask : U32) :
    Option (Fin 16 × ℕ) :=
  (s.places pid).find? (s.lists cls mask)

/-- The call gives up exactly the connections it names, or fails when there is none. -/
def LibArea.DisconnectsExactly (s : LibArea) (k : Fin 16) (cls : ConnectionClass) (mask : U32) :
    Prop :=
  ∃ r s', ctrDisconnect k (s.pid k) cls mask s = some (r, s') ∧
    (s.Named k cls mask → r = .ok () ∧
      ∀ j l, s'.Holds j l ↔ s.Holds j l ∧ ¬ (j = k ∧ s.Names k cls mask l)) ∧
    (¬ s.Named k cls mask → (∃ e, r = .error e) ∧ ∀ j l, s'.Holds j l ↔ s.Holds j l)

/-- The list has room, and the call finds its own connection: the first one of that class and number
in the process is on the handle's module, which is not locked, and in the hardware class the mask
has all the handle's interrupts there; or there is nothing to be found. -/
def LibArea.FindsOwn (s : LibArea) (k : Fin 16) (cls : ConnectionClass) (mask : U32) : Prop :=
  (s.connectionList (s.pid k)).length ≤ maxConnections ∧
    (s.Named k cls mask ∧ (s.current k).upLock = false ∧
        (∃ i, s.firstPlace (s.pid k) cls mask = some (i, s.clientModule k)) ∧
        (cls = .hard → ∀ c, s.Holds k (.source (s.clientModule k) c) → mask.getLsbD c = true) ∨
      ¬ s.Named k cls mask ∧
        ((s.current k).upLock = true ∨ s.firstPlace (s.pid k) cls mask = none))

/-! ### The entry that is found -/

section List

variable {cls : ConnectionClass} {mask msk : U32} {m : ModuleContext} {j : ℕ}

/-- The test of `ctr_disconnect`. -/
def Matches (cls : ConnectionClass) (mask : U32) (c : Connection) : Bool :=
  c.eqpNum = mask ∧ c.eqpClass = cls

theorem find?_append_one (ccn : List Connection) (e : Connection) :
    (ccn ++ [e]).find? (Matches cls mask) =
      (ccn.find? (Matches cls mask)).or (if Matches cls mask e then some e else none) := by
  rw [List.find?_append, List.find?_singleton]

theorem find?_addConnection (ccn : List Connection) (e : Connection) :
    (addConnection ccn e).find? (Matches cls mask) =
      (ccn.find? (Matches cls mask)).or (if Matches cls mask e then some e else none) := by
  unfold addConnection
  split
  · rename_i hany
    by_cases he : Matches cls mask e = true
    · obtain ⟨c, hc, hsame⟩ := List.any_eq_true.mp hany
      simp only [decide_eq_true_eq] at hsame
      simp only [Matches, decide_eq_true_eq] at he
      have hmatch : Matches cls mask c = true := by
        simp only [Matches, decide_eq_true_eq]
        exact ⟨hsame.1.symm.trans he.1, hsame.2.symm.trans he.2⟩
      obtain ⟨c', hc'⟩ := Option.isSome_iff_exists.mp
        (List.find?_isSome.mpr ⟨c, hc, hmatch⟩)
      rw [hc', Option.some_or]
    · rw [if_neg he, Option.or_none]
  · exact find?_append_one ccn e

/-- The entry that a call for `cls` and `mask` finds on module `j`. -/
def entryOn (cls : ConnectionClass) (mask : U32) (j : ℕ) : Connection :=
  ⟨BitVec.ofNat 32 (j + 1), cls, mask⟩

theorem entryOn_of_matches {e : Connection} (he : Matches cls mask e = true)
    (hmodule : e.module = BitVec.ofNat 32 (j + 1)) : e = entryOn cls mask j := by
  simp only [Matches, decide_eq_true_eq] at he
  obtain ⟨md, c, n⟩ := e
  obtain ⟨rfl, rfl⟩ := he
  rw [entryOn]
  exact congrArg (Connection.mk · c n) hmodule

theorem find?_addSlots (ccn : List Connection) :
    (addSlots m j msk ccn).find? (Matches cls mask) =
      (ccn.find? (Matches cls mask)).or
        (if m.onSlot msk cls mask then some (entryOn cls mask j) else none) := by
  have hslots := find?_foldl (p := Matches cls mask) (e := fun _ => entryOn cls mask j)
    (g := fun k => decide (msk &&& m.clients k ≠ 0 ∧ m.eqpNum k = mask ∧ m.eqpClass k = cls))
    (f := fun ccn k => if msk &&& m.clients k ≠ 0 then
      addConnection ccn ⟨BitVec.ofNat 32 (j + 1), m.eqpClass k, m.eqpNum k⟩ else ccn)
    (by
      intro acc k
      split
      · rename_i hbit
        rw [find?_addConnection]
        by_cases hmatch : m.eqpNum k = mask ∧ m.eqpClass k = cls
        · have he : Matches cls mask ⟨BitVec.ofNat 32 (j + 1), m.eqpClass k, m.eqpNum k⟩ = true :=
            decide_eq_true hmatch
          rw [if_pos he, if_pos (decide_eq_true ⟨hbit, hmatch⟩), entryOn_of_matches he rfl]
        · rw [if_neg (by simp only [Matches, decide_eq_true_eq]; exact hmatch),
            if_neg (by simp only [decide_eq_true_eq]; exact fun h => hmatch h.2)]
      · rename_i hbit
        rw [if_neg (by simp only [decide_eq_true_eq]; exact fun h => hbit h.1), Option.or_none])
    (List.range ramTableSize) ccn
  rw [addSlots, hslots, ModuleContext.onSlot]
  refine congrArg (Option.or _) ?_
  cases hfind : (List.range ramTableSize).find? fun k => decide (msk &&& m.clients k ≠ 0 ∧
      m.eqpNum k = mask ∧ m.eqpClass k = cls) with
  | none =>
    rw [if_neg]
    · rfl
    · rw [Bool.not_eq_true, List.any_eq_false]
      exact List.find?_eq_none.mp hfind
  | some k =>
    have hk := List.find?_some hfind
    rw [if_pos]
    · rfl
    · exact List.any_eq_true.mpr ⟨k, List.mem_of_find?_eq_some hfind, hk⟩

theorem find?_addModule (hmask : mask ≠ 0) (ccn : List Connection) :
    (addModule m j msk ccn).find? (Matches cls mask) =
      (ccn.find? (Matches cls mask)).or
        (if m.onSlot msk cls mask || decide (cls = .hard ∧ m.sources msk = mask) then
          some (entryOn cls mask j) else none) := by
  have hslots := @find?_addSlots cls mask msk m j ccn
  unfold addModule
  by_cases hslot : m.onSlot msk cls mask = true
  · rw [hslot, if_pos rfl] at hslots
    rw [hslot, Bool.true_or, if_pos rfl]
    split
    · rw [find?_append_one, hslots, Option.or_assoc, Option.some_or]
    · exact hslots
  · rw [Bool.not_eq_true] at hslot
    rw [hslot, if_neg Bool.false_ne_true, Option.or_none] at hslots
    rw [hslot, Bool.false_or]
    by_cases hhard : cls = .hard ∧ m.sources msk = mask
    · obtain ⟨rfl, rfl⟩ := hhard
      have he : Matches .hard (m.sources msk) ⟨BitVec.ofNat 32 (j + 1), .hard, m.sources msk⟩ =
          true := decide_eq_true ⟨rfl, rfl⟩
      rw [if_pos hmask, find?_append_one, hslots, if_pos he, if_pos (decide_eq_true ⟨rfl, rfl⟩),
        entryOn_of_matches he rfl]
    · have hno : ¬ decide (cls = .hard ∧ m.sources msk = mask) = true := by
        rw [decide_eq_true_eq]
        exact hhard
      rw [if_neg hno, Option.or_none]
      split
      · rw [find?_append_one, hslots, if_neg, Option.or_none]
        simp only [Matches, decide_eq_true_eq]
        exact fun h => hhard ⟨h.2.symm, h.1⟩
      · exact hslots

theorem find?_connectionList {s : LibArea} {pid : U32} (hmask : mask ≠ 0) :
    (s.connectionList pid).find? (Matches cls mask) =
      (s.firstPlace pid cls mask).map fun p => entryOn cls mask p.2 := by
  have h := find?_foldl (p := Matches cls mask) (e := fun p => entryOn cls mask p.2)
    (g := s.lists cls mask) (f := fun ccn (p : Fin 16 × ℕ) =>
      addModule (s.moduleContexts p.2) p.2 (s.clientContexts p.1).mask ccn)
    (fun acc p => find?_addModule hmask acc) (s.places pid) []
  rw [LibArea.connectionList, LibArea.firstPlace, h]
  rfl

end List

/-! ### What a call does -/

/-- The places that a `DISCONNECT` of an entry on module `j` makes the handle give up. -/
def LibArea.Gone (s : LibArea) (cls : ConnectionClass) (mask : U32) (j : ℕ) : Link → Prop
  | .slot midx i => midx = j ∧ NamedSlot (s.moduleContexts j) (entryOn cls mask j) i
  | .source midx c => midx = j ∧ cls = .hard ∧ c < interruptSources

section Call

variable {s : LibArea} {k : Fin 16} {cls : ConnectionClass} {mask : U32}

theorem getLsbD_dropped (x : U32) (k j : Fin 16) :
    (x &&& ~~~(1#32 <<< k.val)).getLsbD j = true ↔ x.getLsbD j = true ∧ j ≠ k := by
  have hj : j.val < 32 := by omega
  rw [BitVec.getLsbD_and, BitVec.getLsbD_not, Bool.and_eq_true]
  refine and_congr_right fun _ => ?_
  have hbit := getLsbD_bit (i := k.val) (by omega) j.val
  simp only [hj, decide_true, Bool.true_and, Bool.not_eq_true']
  rw [← Bool.not_eq_true, hbit, ne_eq, Fin.ext_iff]

theorem holds_of_dropped {w : ModuleContext} {j : ℕ}
    (h : Dropped (s.moduleContexts j) w (NamedSlot (s.moduleContexts j) (entryOn cls mask j))
      (fun i => cls = .hard ∧ i < interruptSources) (1#32 <<< k.val)) (i : Fin 16) (l : Link) :
    (s.withModule j w).Holds i l ↔ s.Holds i l ∧ ¬ (i = k ∧ s.Gone cls mask j l) := by
  cases l with
  | slot midx n =>
    by_cases hmidx : midx = j
    · subst hmidx
      simp only [LibArea.Holds, LibArea.Gone, LibArea.withModule_self, true_and, and_assoc]
      refine and_congr_right fun _ => ?_
      by_cases hnamed : NamedSlot (s.moduleContexts midx) (entryOn cls mask midx) n
      · rw [(h.clients n).1 hnamed, getLsbD_dropped]
        simp [hnamed]
      · rw [(h.clients n).2 hnamed]
        simp [hnamed]
    · simp only [LibArea.Holds, LibArea.Gone, LibArea.withModule_of_ne s hmidx, hmidx, false_and,
        and_false, not_false_iff, and_true]
  | source midx c =>
    by_cases hmidx : midx = j
    · subst hmidx
      simp only [LibArea.Holds, LibArea.Gone, LibArea.withModule_self, true_and, and_assoc]
      refine and_congr_right fun _ => ?_
      by_cases hwired : cls = .hard ∧ c < interruptSources
      · rw [(h.hardClients c).1 hwired, getLsbD_dropped]
        simp [hwired]
      · rw [(h.hardClients c).2 hwired]
        simp [hwired]
    · simp only [LibArea.Holds, LibArea.Gone, LibArea.withModule_of_ne s hmidx, hmidx, false_and,
        and_false, not_false_iff, and_true]

theorem firstPlace_lt {pid : U32} {p : Fin 16 × ℕ} (h : s.firstPlace pid cls mask = some p) :
    p.2 < 16 := by
  obtain ⟨i, -, hi⟩ := List.mem_flatMap.mp (List.mem_of_find?_eq_some h)
  obtain ⟨j, hj, rfl⟩ := List.mem_map.mp hi
  exact List.mem_range.mp hj

theorem ioctl_disconnect (hs : s.toWorkingArea.Sound) (hk : s.Client k k) (hmask : mask ≠ 0) {j : ℕ}
    (hj : j < 16) :
    if (s.current k).upLock then
      ioctl k (.disconnect (entryOn cls mask j)) s = some (.error (.driver .EINVAL), s)
    else ∃ s', ioctl k (.disconnect (entryOn cls mask j)) s = some (.ok (), s') ∧
      ∀ i l, s'.Holds i l ↔ s.Holds i l ∧ ¬ (i = k ∧ s.Gone cls mask j l) := by
  have hnat : (entryOn cls mask j).module.toNat = j + 1 := by
    rw [entryOn, BitVec.toNat_ofNat]
    exact Nat.mod_eq_of_lt (by omega)
  have hcall : ctrDrvrIoctl s.toWorkingArea k (.disconnect (entryOn cls mask j)) =
      if (s.current k).upLock then s.fail .EINVAL
      else disConnect s.toWorkingArea (entryOn cls mask j) (s.clientContexts k) := by
    rw [ctrDrvrIoctl, dif_pos k.isLt]
    dsimp only
    rw [if_neg (by simp [hk.inUse]), if_neg (by simp [hk.module]), LibArea.current,
      clientModule_val]
    refine if_congr Iff.rfl rfl ?_
    exact if_pos hmask
  split
  · rename_i hlock
    rw [if_pos hlock] at hcall
    exact ioctl_eq_some.mpr ⟨_, _, hcall, rfl, rfl⟩
  · rename_i hlock
    rw [if_neg hlock] at hcall
    obtain ⟨⟨r, w⟩, ho⟩ := @disConnect_returns _ hs (entryOn cls mask j)
      ⟨by omega, by omega⟩ (s.clientContexts k)
    obtain ⟨rfl, m', rfl, hdropped⟩ := disConnect_spec ho
    rw [hnat, Nat.add_sub_cancel, hs.clientBit hk.inUse] at hdropped
    rw [hnat, Nat.add_sub_cancel] at ho
    exact ⟨s.withModule j m', ioctl_eq_some.mpr ⟨_, _, hcall.trans ho, rfl, rfl⟩,
      holds_of_dropped hdropped⟩

theorem ctrDisconnect_cases (hs : s.toWorkingArea.Sound) (hk : s.Client k k) (hmask : mask ≠ 0) :
    if (s.connectionList (s.pid k)).length ≤ maxConnections then
      match s.firstPlace (s.pid k) cls mask with
      | none => ctrDisconnect k (s.pid k) cls mask s = some (.error .ENOTCONN, s)
      | some (_, j) =>
        if (s.current k).upLock then
          ctrDisconnect k (s.pid k) cls mask s = some (.error (.driver .EINVAL), s)
        else ∃ s', ctrDisconnect k (s.pid k) cls mask s = some (.ok (), s') ∧
          ∀ i l, s'.Holds i l ↔ s.Holds i l ∧ ¬ (i = k ∧ s.Gone cls mask j l)
    else ctrDisconnect k (s.pid k) cls mask s = none := by
  split
  · rename_i hroom
    have hlist : getClientConnections k (s.pid k) s =
        some (.ok (s.connectionList (s.pid k)), s) :=
      query_ok.mpr ⟨rfl, k, hk, if_pos hroom⟩
    have hrun : ctrDisconnect k (s.pid k) cls mask s =
        (match s.firstPlace (s.pid k) cls mask with
          | none => Fallible.fail LibErrno.ENOTCONN
          | some p => ioctl k (.disconnect (entryOn cls mask p.2))) s := by
      rw [ctrDisconnect, Fallible.bind_of_ok hlist, if_neg hmask]
      change (match (s.connectionList (s.pid k)).find? (Matches cls mask) with
        | some c => ioctl k (.disconnect c)
        | none => Fallible.fail LibErrno.ENOTCONN) s = _
      rw [find?_connectionList hmask]
      cases s.firstPlace (s.pid k) cls mask with
      | none => rfl
      | some p => rfl
    cases hplace : s.firstPlace (s.pid k) cls mask with
    | none =>
      rw [hplace] at hrun
      exact hrun
    | some p =>
      rw [hplace] at hrun
      dsimp only at hrun ⊢
      rw [hrun]
      exact ioctl_disconnect hs hk hmask (firstPlace_lt hplace)
  · rename_i hroom
    have hlost : getClientConnections k (s.pid k) s = none := by
      rw [getClientConnections, query, Fallible.read]
      dsimp only
      rw [dif_pos k.isLt, if_neg (by simp [hk.inUse]), if_neg (by simp [hk.module]),
        if_neg hroom]
      rfl
    change (getClientConnections k (s.pid k) s).bind _ = none
    rw [hlost]
    rfl

/-! ### When the call is exact -/

theorem exactly_of_error {e : LibErrno}
    (h : ctrDisconnect k (s.pid k) cls mask s = some (.error e, s)) :
    s.DisconnectsExactly k cls mask ↔ ¬ s.Named k cls mask := by
  constructor
  · rintro ⟨r, s', hrun, hnamed, -⟩ hn
    rw [h] at hrun
    cases hrun
    cases (hnamed hn).1
  · intro hn
    exact ⟨_, s, h, fun hnamed => absurd hnamed hn, fun _ => ⟨⟨e, rfl⟩, fun _ _ => Iff.rfl⟩⟩

theorem exactly_of_drop {s' : LibArea} {j : ℕ}
    (h : ctrDisconnect k (s.pid k) cls mask s = some (.ok (), s'))
    (hgone : ∀ i l, s'.Holds i l ↔ s.Holds i l ∧ ¬ (i = k ∧ s.Gone cls mask j l)) :
    s.DisconnectsExactly k cls mask ↔
      s.Named k cls mask ∧ ∀ l, s.Holds k l → (s.Gone cls mask j l ↔ s.Names k cls mask l) := by
  constructor
  · rintro ⟨r, s'', hrun, hnamed, hnot⟩
    rw [h] at hrun
    cases hrun
    by_cases hn : s.Named k cls mask
    · refine ⟨hn, fun l hl => ?_⟩
      have hsame : s.Holds k l ∧ ¬ (k = k ∧ s.Gone cls mask j l) ↔
          s.Holds k l ∧ ¬ (k = k ∧ s.Names k cls mask l) :=
        (hgone k l).symm.trans ((hnamed hn).2 k l)
      simp only [hl, true_and] at hsame
      exact not_iff_not.mp hsame
    · obtain ⟨⟨e, he⟩, -⟩ := hnot hn
      cases he
  · rintro ⟨hn, hsame⟩
    refine ⟨_, s', h, fun _ => ⟨rfl, fun i l => ?_⟩, fun hno => absurd hn hno⟩
    rw [hgone]
    refine and_congr_right fun hl => not_congr (and_congr_right fun hi => ?_)
    subst hi
    exact hsame l hl

theorem gone_iff_names (hn : s.Named k cls mask) (j : ℕ) :
    (∀ l, s.Holds k l → (s.Gone cls mask j l ↔ s.Names k cls mask l)) ↔
      j = s.clientModule k ∧
        (cls = .hard → ∀ c, s.Holds k (.source (s.clientModule k) c) →
          mask.getLsbD c = true) := by
  constructor
  · intro hsame
    have hj : j = s.clientModule k := by
      obtain ⟨l, hl, hnames⟩ := hn
      have hgone := (hsame l hl).mpr hnames
      cases l with
      | slot midx i => exact hgone.1.symm.trans hnames.1
      | source midx c => exact hgone.1.symm.trans hnames.1
    refine ⟨hj, fun hhard c hc => ?_⟩
    exact ((hsame _ hc).mp ⟨hj.symm, hhard, hc.1⟩).2.2
  · rintro ⟨rfl, hcover⟩ l hl
    cases l with
    | slot midx i =>
      simp only [LibArea.Gone, LibArea.Names]
      refine and_congr_right fun hmidx => ?_
      subst hmidx
      constructor
      · rintro ⟨-, hnum, hclass, htrigger⟩
        have hcls : (s.moduleContexts (s.clientModule k)).eqpClass i = cls := hclass
        refine ⟨?_, hnum, hcls⟩
        rw [← hcls]
        exact htrigger
      · rintro ⟨htrigger, hnum, hclass⟩
        refine ⟨hl.1, hnum, hclass, ?_⟩
        rw [TriggerClass, hclass]
        exact htrigger
    | source midx c =>
      simp only [LibArea.Gone, LibArea.Names]
      refine and_congr_right fun hmidx => and_congr_right fun hhard => ?_
      subst hmidx
      exact iff_of_true hl.1 (hcover hhard c hl)

/-- **The call gives up exactly what it names when it finds its own connection**, and only then. -/
theorem disconnectsExactly_iff (hs : s.toWorkingArea.Sound) (hk : s.Client k k) (hmask : mask ≠ 0) :
    s.DisconnectsExactly k cls mask ↔ s.FindsOwn k cls mask := by
  have hcases := @ctrDisconnect_cases s k cls mask hs hk hmask
  rw [LibArea.FindsOwn]
  by_cases hroom : (s.connectionList (s.pid k)).length ≤ maxConnections
  · rw [if_pos hroom] at hcases
    cases hplace : s.firstPlace (s.pid k) cls mask with
    | none =>
      rw [hplace] at hcases
      rw [exactly_of_error hcases]
      simp [hroom]
    | some p =>
      rw [hplace] at hcases
      dsimp only at hcases
      split at hcases
      · rename_i hlock
        rw [exactly_of_error hcases]
        simp [hroom, hlock]
      · rename_i hlock
        rw [Bool.not_eq_true] at hlock
        obtain ⟨s', hrun, hgone⟩ := hcases
        rw [exactly_of_drop hrun hgone]
        have hfound : (∃ i, some p = some (i, s.clientModule k)) ↔ p.2 = s.clientModule k := by
          simp [Prod.ext_iff]
        simp only [hroom, hlock, hfound, Bool.false_eq_true, reduceCtorEq, or_self, and_false,
          or_false, true_and]
        exact and_congr_right fun hn => gone_iff_names hn p.2
  · rw [if_neg hroom] at hcases
    refine iff_of_false ?_ fun h => hroom h.1
    rintro ⟨r, s', hrun, -⟩
    rw [hcases] at hrun
    cases hrun

theorem not_exactly (hs : s.toWorkingArea.Sound) (hk : s.Client k k) (hmask : mask ≠ 0)
    {p : Fin 16 × ℕ} {l : Link} (hplace : s.firstPlace (s.pid k) cls mask = some p)
    (hlock : (s.current k).upLock = false) (hholds : s.Holds k l) (hnames : s.Names k cls mask l)
    (hkept : ¬ s.Gone cls mask p.2 l) : ¬ s.DisconnectsExactly k cls mask := by
  have hcases := @ctrDisconnect_cases s k cls mask hs hk hmask
  intro hexact
  split at hcases
  · rw [hplace] at hcases
    dsimp only at hcases
    rw [hlock, if_neg Bool.false_ne_true] at hcases
    obtain ⟨s', hrun, hgone⟩ := hcases
    exact hkept ((((exactly_of_drop hrun hgone).mp hexact).2 l hholds).mpr hnames)
  · obtain ⟨r, s', hrun, -⟩ := hexact
    rw [hrun] at hcases
    cases hcases

end Call

/-! ### Two handles of a process -/

/-- A card whose first slot is CTIM 911, with the given clients. -/
def ctimCard (clients : U32) : ModuleContext :=
  { blankModule true with
    eqpNum := update (fun _ => 0) 0 911
    eqpClass := update (fun _ => .hard) 0 .ctim
    clients := update (fun _ => 0) 0 clients }

/-- A process with two handles.  The first works with the first card and the second with the second
one, and both are connected to the CTIM there. -/
def twoHandles : LibArea where
  toWorkingArea :=
    { oneModule with
      modules := 2
      moduleContexts := fun midx => if midx = 0 then ctimCard 1
        else if midx = 1 then ctimCard 2 else blankModule false
      clientContexts := fun k => ⟨k.val < 2, k, k.val % 2⟩ }
  remOutMask _ _ := 0
  pid _ := 0

theorem twoHandles_sound : twoHandles.toWorkingArea.Sound where
  few := by decide
  indexed _ _ := rfl
  modules k := Nat.lt_trans (Nat.mod_lt k.val (by decide)) (by decide)
  carded midx := by
    unfold twoHandles
    dsimp only
    split
    · exact .inl rfl
    · split
      · exact .inl rfl
      · exact .inr ⟨fun _ => rfl, fun _ => rfl⟩

theorem twoHandles_client (k : Fin 16) (hk : k.val < 2) : twoHandles.Client k k where
  fd := rfl
  inUse := decide_eq_true hk
  module := by
    obtain h | h : k = 0 ∨ k = 1 := by omega
    · subst h
      rfl
    · subst h
      rfl

/-- The first handle's call is exact as long as the list has room. -/
theorem disconnectsExactly_iff_first : twoHandles.DisconnectsExactly 0 .ctim 911 ↔
    (twoHandles.connectionList 0).length ≤ maxConnections := by
  refine (disconnectsExactly_iff twoHandles_sound (twoHandles_client 0 (by decide))
    (by decide)).trans ⟨And.left, fun hroom => ⟨hroom, .inl ⟨?_, rfl, ⟨0, ?_⟩, ?_⟩⟩⟩
  · exact ⟨.slot 0 0, ⟨by decide, by decide⟩, rfl, .inl rfl, rfl, rfl⟩
  · change twoHandles.firstPlace 0 .ctim 911 = some (0, 0)
    decide +kernel
  · rintro ⟨⟩

/-- The second handle's call finds the first one's entry, is served, and its connection stays. -/
theorem disconnect_first_entry :
    ¬ ∀ (s : LibArea) (k : Fin 16) (cls : ConnectionClass) (mask : U32),
      s.toWorkingArea.Sound → s.Client k k → mask ≠ 0 → s.DisconnectsExactly k cls mask := by
  intro hall
  have hclient := twoHandles_client 1 (by decide)
  have hplace : twoHandles.firstPlace (twoHandles.pid 1) .ctim 911 = some (0, 0) := by
    decide +kernel
  have hholds : twoHandles.Holds 1 (.slot 1 0) := ⟨by decide, by decide⟩
  have hnames : twoHandles.Names 1 .ctim 911 (.slot 1 0) := ⟨rfl, .inl rfl, rfl, rfl⟩
  exact not_exactly twoHandles_sound hclient (by decide) hplace rfl hholds hnames
    (fun hgone => absurd hgone.1 Nat.one_ne_zero)
    (hall twoHandles 1 .ctim 911 twoHandles_sound hclient (by decide))

end KernelModules.Ctr
