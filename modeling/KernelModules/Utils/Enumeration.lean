import Mathlib.Tactic
import KernelModules.Lib.LinkedChain

/-!
# Enumerating drivers and modules

`InsLibGetDriver` without a name and `InsLibGetModule` without a number give the elements of a list one
after the other.  Each keeps its place in a pointer that is `static`, and so the same for all lists.

* `advance` is the step of such a pointer, and `Descriptions` are the lists with their `Next`;
* `insLibGetDriver` and `insLibGetModule` are the functions, `call` is either, and `Cursors` are the
  two pointers;
* `InTurn` is the law of an enumeration, by the number of earlier calls with the same list: each
  element once, then `NULL`, and again from the first;
* `Alone` says that no list is asked for while the enumeration of another is under way, and
  `inTurn_of_alone` is the law for such calls; `advance_astray` is what any other call gives.
-/

namespace KernelModules.Utils.Enumeration

open KernelModules.Lib

/-! ### A pointer for all lists -/

section Cursor

variable {Owner Elem : Type*}

/-- `if (last) last = last->Next; else last = first`. -/
def advance (first : Option Elem) (next : Elem → Option Elem) (last : Option Elem) : Option Elem :=
  match last with
  | some x => next x
  | none => first

/-- How far the enumeration of a list is, after so many calls. -/
def place (l : List Elem) (calls : ℕ) : ℕ := calls % (l.length + 1)

variable [DecidableEq Owner] {first : Owner → Option Elem} {next : Elem → Option Elem}
  {elems : Owner → List Elem}

/-- The pointer after the calls. -/
def cursor (first : Owner → Option Elem) (next : Elem → Option Elem) (calls : List Owner) :
    Option Elem :=
  calls.foldl (fun last o => advance (first o) next last) none

/-- Only the enumeration of `o` may be under way. -/
def Free (elems : Owner → List Elem) (calls : List Owner) (o : Owner) : Prop :=
  ∀ o', o' ≠ o → place (elems o') (calls.count o') = 0

/-- Every call has been made with no other enumeration under way. -/
def FreeAll (elems : Owner → List Elem) (calls : List Owner) : Prop :=
  ∀ before o after, calls = before ++ o :: after → Free elems before o

/-- What the pointer is: the element that the enumeration under way has given last. -/
def Follows (elems : Owner → List Elem) (calls : List Owner) (last : Option Elem) : Prop :=
  (last = none ∧ ∀ o, place (elems o) (calls.count o) = 0) ∨
    ∃ o n, place (elems o) (calls.count o) = n + 1 ∧ last = (elems o)[n]? ∧ Free elems calls o

theorem place_lt (l : List Elem) (n : ℕ) : place l n < l.length + 1 :=
  Nat.mod_lt _ (Nat.succ_pos _)

theorem place_succ (l : List Elem) (n : ℕ) :
    place l (n + 1) = if place l n < l.length then place l n + 1 else 0 := by
  have hlt := place_lt l n
  unfold place at *
  rw [Nat.add_mod]
  split
  · rename_i h
    rcases Nat.eq_zero_or_pos l.length with hzero | hpos
    · omega
    · rw [Nat.mod_eq_of_lt (a := 1) (by omega), Nat.mod_eq_of_lt (by omega)]
  · rename_i h
    rcases Nat.eq_zero_or_pos l.length with hzero | hpos
    · simp [hzero, Nat.mod_one]
    · rw [Nat.mod_eq_of_lt (a := 1) (by omega), show n % (l.length + 1) + 1 = l.length + 1 by omega,
        Nat.mod_self]

theorem Follows.answer (hlisted : ∀ o, Listed next (first o) (elems o)) {calls : List Owner}
    {last : Option Elem} (h : Follows elems calls last) {o : Owner} (hfree : Free elems calls o) :
    advance (first o) next last = (elems o)[place (elems o) (calls.count o)]? := by
  rcases h with ⟨rfl, hall⟩ | ⟨o', n, hplace, hlast, -⟩
  · rw [hall o, ← List.head?_eq_getElem?, (hlisted o).head?]
    rfl
  · obtain rfl : o' = o := by
      by_contra hne
      have hzero := hfree o' hne
      omega
    have hn : n < (elems o').length := by
      have hlt := place_lt (elems o') (calls.count o')
      omega
    rw [hlast, List.getElem?_eq_getElem hn, hplace]
    exact (hlisted o').next_eq (List.getElem?_eq_getElem hn)

theorem Follows.snoc (hlisted : ∀ o, Listed next (first o) (elems o)) {calls : List Owner}
    {last : Option Elem} (h : Follows elems calls last) {o : Owner} (hfree : Free elems calls o) :
    Follows elems (calls ++ [o]) (advance (first o) next last) := by
  have hself : (calls ++ [o]).count o = calls.count o + 1 := by simp
  have hother (o' : Owner) (hne : o' ≠ o) : (calls ++ [o]).count o' = calls.count o' := by
    rw [List.count_append, List.count_singleton]
    simp [hne.symm]
  have hfree' : Free elems (calls ++ [o]) o := fun o' hne => by
    rw [hother o' hne]
    exact hfree o' hne
  rw [h.answer hlisted hfree]
  by_cases hlt : place (elems o) (calls.count o) < (elems o).length
  · refine .inr ⟨o, _, ?_, rfl, hfree'⟩
    rw [hself, place_succ, if_pos hlt]
  · refine .inl ⟨List.getElem?_eq_none (by omega), fun o' => ?_⟩
    by_cases hne : o' = o
    · subst hne
      rw [hself, place_succ, if_neg hlt]
    · exact hfree' o' hne

theorem FreeAll.follows (hlisted : ∀ o, Listed next (first o) (elems o)) {calls : List Owner}
    (h : FreeAll elems calls) : Follows elems calls (cursor first next calls) := by
  induction calls using List.reverseRecOn with
  | nil => exact .inl ⟨rfl, fun o => Nat.zero_mod _⟩
  | append_singleton calls o ih =>
    have hbefore : FreeAll elems calls := fun before o' after heq =>
      h before o' (after ++ [o]) (by rw [heq]; simp)
    rw [cursor, List.foldl_append]
    exact (ih hbefore).snoc hlisted (h calls o [] rfl)

end Cursor

/-! ### The two functions -/

section Calls

variable {Host Drvr Modl : Type*}

/-- The drivers of the hosts and the modules of the drivers, in lists with their `Next`. -/
structure Descriptions (Host Drvr Modl : Type*) where
  drivers : Host → Option Drvr
  nextDriver : Drvr → Option Drvr
  drvrName : Drvr → List Char
  modules : Drvr → Option Modl
  nextModule : Modl → Option Modl
  moduleCount : Drvr → ℕ
  driverList : Host → List Drvr
  moduleList : Drvr → List Modl
  drivers_listed : ∀ h, Listed nextDriver (drivers h) (driverList h)
  modules_listed : ∀ d, Listed nextModule (modules d) (moduleList d)
  moduleCount_eq : ∀ d, moduleCount d = (moduleList d).length

/-- The two static pointers. -/
structure Cursors (Drvr Modl : Type*) where
  driver : Option Drvr
  modl : Option Modl

/-- A call; no host and no driver are the null pointer, as no name is. -/
inductive Call (Host Drvr : Type*)
  | driver (hostd : Option Host) (dname : Option (List Char))
  | modl (dd : Option Drvr) (mn : ℤ)

/-- What a call returns. -/
inductive Answer (Drvr Modl : Type*)
  | driver (drvrd : Option Drvr)
  | modl (modd : Option Modl)
  deriving DecidableEq

/-- `strncmp` finds the names the same. -/
def sameName (a b : List Char) : Bool := a.take 32 = b.take 32

namespace Descriptions

variable (D : Descriptions Host Drvr Modl)

/-- `InsLibGetDriver`: what it returns, and its pointer afterwards. -/
def insLibGetDriver (hostd : Option Host) (dname : Option (List Char)) (last : Option Drvr) :
    Option Drvr × Option Drvr :=
  match hostd, dname with
  | none, _ => (none, last)
  | some h, none =>
    let last := advance (D.drivers h) D.nextDriver last
    (last, last)
  | some h, some name => ((D.driverList h).find? fun d => sameName (D.drvrName d) name, last)

/-- `InsLibGetModule`: what it returns, and its pointer afterwards. -/
def insLibGetModule (dd : Option Drvr) (mn : ℤ) (last : Option Modl) :
    Option Modl × Option Modl :=
  match dd with
  | none => (none, last)
  | some d =>
    if mn = 0 then
      let last := advance (D.modules d) D.nextModule last
      (last, last)
    else if 1 ≤ mn ∧ mn ≤ D.moduleCount d then ((D.moduleList d)[mn.toNat - 1]?, last)
    else (none, last)

/-- A call. -/
def call (s : Cursors Drvr Modl) : Call Host Drvr → Answer Drvr Modl × Cursors Drvr Modl
  | .driver hostd dname =>
    let r := D.insLibGetDriver hostd dname s.driver
    (.driver r.1, { s with driver := r.2 })
  | .modl dd mn =>
    let r := D.insLibGetModule dd mn s.modl
    (.modl r.1, { s with modl := r.2 })

/-- The pointers after the calls. -/
def cursors (calls : List (Call Host Drvr)) : Cursors Drvr Modl :=
  calls.foldl (fun s c => (D.call s c).2) ⟨none, none⟩

/-- What a call returns after other calls. -/
def answer (before : List (Call Host Drvr)) (c : Call Host Drvr) : Answer Drvr Modl :=
  (D.call (D.cursors before) c).1

end Descriptions

/-- The host whose drivers a call enumerates. -/
def Call.host : Call Host Drvr → Option Host
  | .driver hostd none => hostd
  | _ => none

/-- The driver whose modules a call enumerates. -/
def Call.drvr : Call Host Drvr → Option Drvr
  | .modl dd mn => if mn = 0 then dd else none
  | _ => none

variable (D : Descriptions Host Drvr Modl)

theorem cursors_driver (calls : List (Call Host Drvr)) :
    (D.cursors calls).driver = cursor D.drivers D.nextDriver (calls.filterMap Call.host) := by
  induction calls using List.reverseRecOn with
  | nil => rfl
  | append_singleton calls c ih =>
    rw [Descriptions.cursors, List.foldl_append, List.filterMap_append, cursor, List.foldl_append]
    show (D.call (D.cursors calls) c).2.driver = List.foldl _ (cursor _ _ _) _
    rw [← ih]
    match c with
    | .driver none none => rfl
    | .driver (some h) none => rfl
    | .driver none (some name) => rfl
    | .driver (some h) (some name) => rfl
    | .modl dd mn =>
      have hnone : [(Call.modl dd mn : Call Host Drvr)].filterMap Call.host = [] := rfl
      rw [hnone]
      rfl

theorem cursors_modl (calls : List (Call Host Drvr)) :
    (D.cursors calls).modl = cursor D.modules D.nextModule (calls.filterMap Call.drvr) := by
  induction calls using List.reverseRecOn with
  | nil => rfl
  | append_singleton calls c ih =>
    rw [Descriptions.cursors, List.foldl_append, List.filterMap_append, cursor, List.foldl_append]
    show (D.call (D.cursors calls) c).2.modl = List.foldl _ (cursor _ _ _) _
    rw [← ih]
    match c with
    | .driver hostd dname => rfl
    | .modl none mn =>
      have hnone : [(Call.modl none mn : Call Host Drvr)].filterMap Call.drvr = [] := by
        simp [Call.drvr]
      rw [hnone]
      rfl
    | .modl (some d) mn =>
      show (D.insLibGetModule (some d) mn (D.cursors calls).modl).2 = _
      unfold Descriptions.insLibGetModule
      by_cases hmn : mn = 0
      · subst hmn
        rfl
      · have hnone : [(Call.modl (some d) mn : Call Host Drvr)].filterMap Call.drvr = [] := by
          simp [Call.drvr, hmn]
        rw [hnone, List.foldl_nil]
        dsimp only
        rw [if_neg hmn]
        split <;> rfl

variable [DecidableEq Host] [DecidableEq Drvr]

/-- The law of the enumerations: as many calls as were made before for a host, or a driver, so far its
list has been given. -/
structure InTurn (calls : List (Call Host Drvr)) : Prop where
  drivers : ∀ before h after, calls = before ++ .driver (some h) none :: after →
    D.answer before (.driver (some h) none) =
      .driver (D.driverList h)[place (D.driverList h) ((before.filterMap Call.host).count h)]?
  modules : ∀ before d after, calls = before ++ .modl (some d) 0 :: after →
    D.answer before (.modl (some d) 0) =
      .modl (D.moduleList d)[place (D.moduleList d) ((before.filterMap Call.drvr).count d)]?

/-- No list is asked for while the enumeration of another is under way. -/
structure Alone (calls : List (Call Host Drvr)) : Prop where
  drivers : FreeAll D.driverList (calls.filterMap Call.host)
  modules : FreeAll D.moduleList (calls.filterMap Call.drvr)

/-- **Drivers and modules are enumerated as they should be** when no enumeration is begun while another
one is under way. -/
theorem inTurn_of_alone {calls : List (Call Host Drvr)} (h : Alone D calls) : InTurn D calls where
  drivers before hostd after heq := by
    have hhosts : calls.filterMap Call.host =
        before.filterMap Call.host ++ hostd :: after.filterMap Call.host := by
      rw [heq]
      simp [Call.host]
    have hbefore : FreeAll D.driverList (before.filterMap Call.host) := fun b o a hb =>
      h.drivers b o (a ++ hostd :: after.filterMap Call.host) (by rw [hhosts, hb]; simp)
    have hfree := h.drivers _ _ _ hhosts
    show Answer.driver (advance (D.drivers hostd) D.nextDriver (D.cursors before).driver) = _
    rw [cursors_driver, (hbefore.follows D.drivers_listed).answer D.drivers_listed hfree]
  modules before dd after heq := by
    have hdrvrs : calls.filterMap Call.drvr =
        before.filterMap Call.drvr ++ dd :: after.filterMap Call.drvr := by
      rw [heq]
      simp [Call.drvr]
    have hbefore : FreeAll D.moduleList (before.filterMap Call.drvr) := fun b o a hb =>
      h.modules b o (a ++ dd :: after.filterMap Call.drvr) (by rw [hdrvrs, hb]; simp)
    have hfree := h.modules _ _ _ hdrvrs
    show Answer.modl (advance (D.modules dd) D.nextModule (D.cursors before).modl) = _
    rw [cursors_modl, (hbefore.follows D.modules_listed).answer D.modules_listed hfree]

end Calls

/-- Two hosts with one driver each, and no modules. -/
def twoHosts : Descriptions Bool Bool Unit where
  drivers h := some h
  nextDriver _ := none
  drvrName _ := []
  modules _ := none
  nextModule _ := none
  moduleCount _ := 0
  driverList h := [h]
  moduleList _ := []
  drivers_listed _ := ⟨rfl, rfl⟩
  modules_listed _ := rfl
  moduleCount_eq _ := rfl

/-- The second host is asked for after the first one has been enumerated to its end. -/
theorem inTurn_of_alone_twoHosts :
    InTurn twoHosts [.driver (some true) none, .driver (some true) none, .driver (some false) none] := by
  refine inTurn_of_alone twoHosts ⟨?_, ?_⟩
  · show FreeAll (fun h => [h]) [true, true, false]
    rintro before o after heq o' hne
    match before, heq with
    | [], _ => exact Nat.zero_mod _
    | [x], heq =>
      obtain ⟨rfl, rfl, -⟩ : true = x ∧ true = o ∧ _ := by simpa using heq
      obtain rfl : o' = false := by simpa using hne
      decide
    | [x, y], heq =>
      obtain ⟨rfl, rfl, rfl, -⟩ : true = x ∧ true = y ∧ false = o ∧ _ := by simpa using heq
      obtain rfl : o' = true := by simpa using hne
      decide
    | x :: y :: z :: before, heq => simp at heq
  · show FreeAll (fun _ => ([] : List Unit)) ([] : List Bool)
    intro before o after heq
    simp at heq

/-- The second host is asked for while the first one is enumerated: its driver is not found. -/
theorem second_host_not_enumerated :
    ¬ InTurn twoHosts [.driver (some true) none, .driver (some false) none] := by
  intro h
  exact absurd (h.drivers [.driver (some true) none] false [] rfl) (by decide)

end KernelModules.Utils.Enumeration
