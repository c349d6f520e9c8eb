import KernelModules.Ctr.ActionRoundTrip
import KernelModules.Lib.Fallible

/-!
# The library above the driver

`libctr` wraps the ioctls of the timing receiver driver.  A handle stands for one minor device of
the driver, and each function is a chain of ioctls that ends at the first one that fails.

* `LibArea` is the driver's state with what only the library's ioctls look at, and `LibCall` a
  function of the library over it;
* `ioctl` and `query` are the ioctls that change the driver's state and those that read it;
* `ctrGetModule` and `ctrSetModule` are the functions of these names.

The handle's shared object, its tables of symbols and the texts of its errors are left out.
-/

namespace KernelModules.Ctr

open Function KernelModules.Lib

/-- `errno`: an error of the driver, or one of the library's own. -/
inductive LibErrno
  | driver (e : Errno)
  | ENOTCONN
  | ERANGE
  | EADDRNOTAVAIL
  deriving DecidableEq, Repr

/-- The driver's working area, with what only the library's ioctls use. -/
structure LibArea extends WorkingArea where
  /-- `Counters[i].Control.RemOutMask` of each card -/
  remOutMask : ℕ → ℕ → U32
  /-- `Pid` of each client context -/
  pid : Fin 16 → U32

/-- A function of the library. -/
abbrev LibCall (α : Type) := Fallible LibArea LibErrno α

/-- An ioctl that changes the driver's state, on the handle of minor device `fd + 1`. -/
def ioctl (fd : ℕ) (cm : Ioctl) : LibCall Unit :=
  .onPart LibArea.toWorkingArea (fun w s => { s with toWorkingArea := w }) .driver
    fun s => ctrDrvrIoctl s fd cm

/-- An ioctl that reads the driver's state: the tests that `CtrDrvrIoctl` makes of every command,
then the command's own `body`. -/
def query {α : Type} (fd : ℕ) (body : LibArea → ClientContext → Option (Except Errno α)) :
    LibCall α :=
  .read fun s =>
    if h : fd < 16 then
      let ccon := s.clientContexts ⟨fd, h⟩
      if ccon.inUse = false then some (.error (.driver .EBADF))
      else if (s.moduleContexts ccon.moduleIndex).inUse = false then
        some (.error (.driver .ENODEV))
      else (body s ccon).map (Except.mapError .driver)
    else some (.error (.driver .ENODEV))

/-- `GET_MODULE`. -/
def getModule (fd : ℕ) : LibCall U32 :=
  query fd fun _ ccon => some (.ok (BitVec.ofNat 32 (ccon.moduleIndex + 1)))

/-- `LIST_CTIM_OBJECTS`. -/
def listCtimObjects (fd : ℕ) : LibCall (List CtimBinding) := query fd fun s _ => some (.ok s.ctim)

/-- `GET_ACTION` for the trigger of number `n`. -/
def getActionOf (fd : ℕ) (n : U32) : LibCall Action :=
  query fd fun s ccon => getAction s.toWorkingArea ccon.moduleIndex n 0

/-! ### The module of a handle -/

/-- `ctr_get_module`. -/
def ctrGetModule (fd : ℕ) : LibCall U32 := getModule fd

/-- `ctr_set_module`. -/
def ctrSetModule (fd : ℕ) (modnum : ℤ) : LibCall Unit := ioctl fd (.setModule modnum)

/-- The object of a CTIM. -/
def WorkingArea.ctimObject (s : WorkingArea) (num : U32) : Option CtimBinding :=
  s.ctim.find? fun o => num = o.eqpNum

/-- The frame of an event with another payload. -/
def withPayload (frame payload : U32) : U32 := (frame &&& 0xFFFF0000) ||| (payload &&& 0x0000FFFF)

/-! ### Modules written back -/

/-- A module written back. -/
def LibArea.withModule (s : LibArea) (midx : ℕ) (m : ModuleContext) : LibArea :=
  { s with toWorkingArea := s.toWorkingArea.setModule midx m }

/-- The module a handle works with. -/
def LibArea.current (s : LibArea) (fd : ℕ) : ModuleContext := s.moduleContexts (s.clientModule fd)

theorem LibArea.withModule_self (s : LibArea) (midx : ℕ) (m : ModuleContext) :
    (s.withModule midx m).moduleContexts midx = m := update_self _ _ _

theorem LibArea.withModule_of_ne (s : LibArea) {midx j : ℕ} (h : j ≠ midx) (m : ModuleContext) :
    (s.withModule midx m).moduleContexts j = s.moduleContexts j := update_of_ne h _ _

theorem LibArea.withModule_same (s : LibArea) (midx : ℕ) :
    s.withModule midx (s.moduleContexts midx) = s := by
  simp only [LibArea.withModule, WorkingArea.setModule, update_eq_self]

/-! ### What `GET_ACTION` reads -/

/-- The trigger that `GET_ACTION` reads from slot `i`. -/
def readTrigger (m : ModuleContext) (i : ℕ) : Trigger :=
  { hardToTrigger 0 (m.hwTrigs i) with ctim := (m.trigs i).ctim }

/-- The action of trigger number `n`. -/
def readAction (m : ModuleContext) (n : U32) : Action where
  triggerNumber := n
  eqpNum := m.eqpNum (n.toNat - 1)
  eqpClass := m.eqpClass (n.toNat - 1)
  trigger := readTrigger m (n.toNat - 1)
  config := hardToConfig (m.hwConfigs (n.toNat - 1))

/-! ### Ioctls that succeed -/

section Succeed

variable {s s' : LibArea} {fd : ℕ}

/-- The client behind a handle that is served: it is open, and its module is in use. -/
structure LibArea.Client (s : LibArea) (fd : ℕ) (k : Fin 16) : Prop where
  fd : k.val = fd
  inUse : (s.clientContexts k).inUse = true
  module : (s.moduleContexts (s.clientContexts k).moduleIndex).inUse = true

theorem query_state {α : Type} {body : LibArea → ClientContext → Option (Except Errno α)}
    {r : Except LibErrno α} (h : query fd body s = some (r, s')) : s' = s :=
  (Fallible.read_eq_some.mp h).2

theorem query_ok {α : Type} {body : LibArea → ClientContext → Option (Except Errno α)} {a : α} :
    query fd body s = some (.ok a, s') ↔
      s' = s ∧ ∃ k, s.Client fd k ∧ body s (s.clientContexts k) = some (.ok a) := by
  rw [query, Fallible.read_eq_some, and_comm]
  refine and_congr_right fun _ => ?_
  constructor
  · intro h
    split at h
    · rename_i hfd
      dsimp only at h
      split at h
      · cases h
      · rename_i hclient
        split at h
        · cases h
        · rename_i hmodule
          obtain ⟨r, hr, hmap⟩ := Option.map_eq_some_iff.mp h
          cases r with
          | error e => cases hmap
          | ok b =>
            cases hmap
            exact ⟨⟨fd, hfd⟩, ⟨rfl, Bool.eq_true_of_not_eq_false hclient,
              Bool.eq_true_of_not_eq_false hmodule⟩, hr⟩
    · cases h
  · rintro ⟨k, ⟨rfl, hclient, hmodule⟩, hbody⟩
    rw [dif_pos k.isLt]
    dsimp only
    rw [if_neg (by simp [hclient]), if_neg (by simp [hmodule]), hbody]
    rfl

theorem ctrGetModule_ok {n : U32} (h : ctrGetModule fd s = some (.ok n, s')) :
    s' = s ∧ n = BitVec.ofNat 32 (s.clientModule fd + 1) := by
  unfold ctrGetModule getModule at h
  obtain ⟨rfl, k, hk, hn⟩ := query_ok.mp h
  obtain ⟨rfl⟩ := hk.fd
  cases hn
  exact ⟨rfl, by rw [clientModule_val]⟩

theorem ctrGetModule_error {e : LibErrno} (h : ctrGetModule fd s = some (.error e, s')) :
    s' = s := by
  unfold ctrGetModule getModule at h
  exact query_state h

theorem getActionOf_ok {n : U32} {act : Action} : getActionOf fd n s = some (.ok act, s') ↔
    s' = s ∧ (∃ k, s.Client fd k) ∧ (0 < n.toNat ∧ n.toNat ≤ ramTableSize) ∧
      (s.current fd).map = true ∧ act = readAction (s.current fd) n := by
  rw [getActionOf, query_ok]
  refine and_congr_right fun _ => ?_
  constructor
  · rintro ⟨k, hk, hget⟩
    have hmidx : s.clientModule fd = (s.clientContexts k).moduleIndex := by
      rw [← hk.fd, clientModule_val]
    unfold getAction at hget
    dsimp only at hget
    split at hget
    · rename_i hrange
      split at hget
      · rename_i hmap
        cases hget
        rw [LibArea.current, hmidx]
        exact ⟨⟨k, hk⟩, hrange, hmap, rfl⟩
      · cases hget
    · cases hget
  · rintro ⟨⟨k, hk⟩, hrange, hmap, rfl⟩
    have hmidx : s.clientModule fd = (s.clientContexts k).moduleIndex := by
      rw [← hk.fd, clientModule_val]
    rw [LibArea.current, hmidx] at hmap ⊢
    refine ⟨k, hk, ?_⟩
    rw [getAction]
    dsimp only
    rw [if_pos hrange, if_pos hmap]
    rfl

theorem ioctl_eq_some {cm : Ioctl} {r : Except LibErrno Unit} : ioctl fd cm s = some (r, s') ↔
    ∃ r' w, ctrDrvrIoctl s.toWorkingArea fd cm = some (r', w) ∧
      r = r'.mapError .driver ∧ s' = { s with toWorkingArea := w } := by
  simp only [ioctl, Fallible.onPart, Option.map_eq_some_iff, Prod.exists, Prod.mk.injEq]
  constructor
  · rintro ⟨r', w, h, rfl, rfl⟩
    exact ⟨r', w, h, rfl, rfl⟩
  · rintro ⟨r', w, h, rfl, rfl⟩
    exact ⟨r', w, h, rfl, rfl⟩

theorem mapError_ok {ε δ α : Type} {f : ε → δ} {r : Except ε α} {a : α} :
    .ok a = r.mapError f ↔ r = .ok a := by
  cases r with
  | error e => exact iff_of_false (fun h => by cases h) (fun h => by cases h)
  | ok b => simp only [Except.mapError, Except.ok.injEq, eq_comm]

theorem ctrDrvrIoctl_cases {s s' : WorkingArea} {cm : Ioctl} {r : Except Errno Unit}
    (hcm : ∀ k, decodeIoctl s k cm =
      if (s.moduleContexts (s.clientContexts k).moduleIndex).upLock then s.fail .EINVAL
      else guardedIoctl s (s.clientContexts k) cm)
    (h : ctrDrvrIoctl s fd cm = some (r, s')) :
    (s' = s ∧ ∃ e, r = .error e) ∨
      ∃ k : Fin 16, k.val = fd ∧ guardedIoctl s (s.clientContexts k) cm = some (r, s') := by
  unfold ctrDrvrIoctl at h
  split at h
  · rename_i hk
    dsimp only at h
    split at h
    · cases h
      exact .inl ⟨rfl, _, rfl⟩
    · split at h
      · cases h
        exact .inl ⟨rfl, _, rfl⟩
      · rw [hcm] at h
        split at h
        · cases h
          exact .inl ⟨rfl, _, rfl⟩
        · exact .inr ⟨⟨fd, hk⟩, rfl, h⟩
  · cases h
    exact .inl ⟨rfl, _, rfl⟩

theorem setAction_error {s s' : WorkingArea} {midx : ℕ} {act : Action} {e : Errno}
    (h : setAction s midx act = some (.error e, s')) : s' = s := by
  unfold setAction at h
  dsimp only at h
  -- every error is given before the first write
  have hbind : ∀ o : Option ModuleContext,
      ¬ (o.bind fun m => (s.setModule midx m).ok) = some (.error e, s') := by
    intro o ho
    obtain ⟨m, -, hok⟩ := Option.bind_eq_some_iff.mp ho
    cases hok
  split at h
  · split at h
    · cases h
      rfl
    · split at h
      · split at h
        · cases h
          rfl
        · split at h
          · cases h
            rfl
          · split at h
            · cases h
              rfl
            · exact absurd h (hbind _)
      · exact absurd h (hbind _)
  · cases h
    rfl

theorem ioctl_setAction_error {act : Action} {e : LibErrno}
    (h : ioctl fd (.setAction act) s = some (.error e, s')) : s' = s := by
  obtain ⟨r', w, hw, hr, rfl⟩ := ioctl_eq_some.mp h
  cases r' with
  | ok u => cases hr
  | error e' =>
    obtain ⟨rfl, -⟩ | ⟨k, -, hguard⟩ := ctrDrvrIoctl_cases (fun _ => rfl) hw
    · rfl
    · rw [setAction_error hguard]

theorem ioctl_setAction_ok {act : Action} (h : ioctl fd (.setAction act) s = some (.ok (), s')) :
    (∃ k, s.Client fd k) ∧ (0 < act.triggerNumber.toNat ∧ act.triggerNumber.toNat ≤ ramTableSize) ∧
      ∃ m', s' = s.withModule (s.clientModule fd) m' ∧
        Written (s.current fd) m' (act.triggerNumber.toNat - 1) act := by
  obtain ⟨r', w, hcall, hr, rfl⟩ := ioctl_eq_some.mp h
  rw [mapError_ok] at hr
  obtain rfl := hr
  obtain ⟨k, rfl, hclient, hmodule, hset⟩ := ctrDrvrIoctl_setAction hcall
  obtain ⟨hrange, m', rfl, hw⟩ := setAction_ok hset
  rw [LibArea.current, clientModule_val]
  exact ⟨⟨k, rfl, hclient, hmodule⟩, hrange, m', rfl, hw⟩

end Succeed

end KernelModules.Ctr
