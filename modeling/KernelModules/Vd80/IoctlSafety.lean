import KernelModules.Vd80.SampleReadout
import KernelModules.Lib.EventLog
import Mathlib.Tactic

/-!
# What `__vd80_ioctl` touches

An `ioctl` of the VD80 driver works on a copy of its argument, and on a bounce buffer where it moves
words between the user and the registers of the module, which are mapped as a window of 64 KB.
Here each request is the list of its accesses: the registers it reads or writes, the places of the
two buffers it writes, and what it allocates and frees.

* `Vd80Request.body` is the switch, over whatever the registers hold and the failures of `Vd80Env`;
* `body_plain` is that all requests but three stay inside and leave the allocations alone;
* `ioctl_safe_iff` is the exact condition for all of them.  `READ_ADC` tests its channel with `&&`
  where `||` is meant, the raw requests do not look at the offset, and each of them has an error
  exit that frees the argument in place of the bounce buffer.

The values that the requests compute are in `Configuration` and `SampleReadout`; the debug output,
which only reads the argument, and the fields of the device are left out.  Sizes are those of a
64-bit host.
-/

namespace KernelModules.Vd80

open KernelModules.Lib KernelModules.Lib.Logged

/-! ### Accesses -/

inductive Buffer
  | arb
  | ibuf
  deriving DecidableEq

/-- An access to the register at a byte offset, writes to the argument and to word `i` of the
bounce buffer of `icnt` words, and the allocations. -/
inductive Access
  | reg (offset : ℕ)
  | arb (first size : ℕ)
  | ibuf (icnt i : ℕ)
  | alloc (b : Buffer)
  | free (b : Buffer)
  deriving DecidableEq

def VD80_WINDOW_SIZE : ℕ := 0x10000

/-- The access is inside the window or its buffer, for an argument of `iosz` bytes. -/
def Access.Inside (iosz : ℕ) : Access → Prop
  | .reg offset => offset < VD80_WINDOW_SIZE
  | .arb first size => first + size ≤ iosz
  | .ibuf icnt i => i < icnt
  | .alloc _ => True
  | .free _ => True

/-- An access that is inside, and no allocation. -/
def Access.Plain (iosz : ℕ) : Access → Prop
  | .alloc _ => False
  | .free _ => False
  | e => e.Inside iosz

/-- What the registers answer, by the number of the read, and what fails. -/
structure Vd80Env where
  rd : ℕ → U32 → U32
  argAllocFails : Bool
  argFromUserFails : Bool
  argToUserFails : Bool
  ibufAllocFails : Bool
  ibufCopyFails : Bool
  dmaFails : Bool
  busError : ℕ → Bool

inductive Vd80Errno
  | ENOMEM
  | EACCES
  | ENOENT
  deriving DecidableEq

/-- A run that knows how many registers it has read. -/
abbrev Io := Logged ℕ Access

section Registers

variable (env : Vd80Env)

/-- A register lies at a whole word. -/
def getreg (byteOffset : U32) : Io U32 := fun k =>
  (env.rd k byteOffset, k + 1, [.reg (byteOffset.toNat / 4 * 4)])

def setreg (byteOffset : U32) : Io Unit := emit (.reg (byteOffset.toNat / 4 * 4))

/-- A register is read, changed and written back. -/
def modifyreg (byteOffset : U32) : Io Unit := do
  let _ ← getreg env byteOffset
  setreg byteOffset

def GCR1 : U32 := 0x10
def GCR2 : U32 := 0x14
def GSR : U32 := 0x18
def CCR : U32 := 0x1c
def TCR1 : U32 := 0x20
def TCR2 : U32 := 0x24
def TCR3 : U32 := 0x64
def TSR : U32 := 0x28
def SSR : U32 := 0x2c
def ADCR1 : U32 := 0x30
def MCR1 : U32 := 0x50
def MCR2 : U32 := 0x54
def PTSR : U32 := 0x58
def PTCR : U32 := 0x5c
def ATRIG_CHAN1 : U32 := 0xc0

def stateMask : U32 := 7
def stateIdle : U32 := 1
def commandMask : U32 := 0xf
def commandStop : U32 := 0xe
def channels : ℕ := 16

/-- The register is read every 10 µs for 100 ms. -/
def waitForIdle : ℕ → Io Unit
  | 0 => pure ()
  | n + 1 => do
    let state ← getreg env GSR
    if state &&& stateMask = stateIdle then pure () else waitForIdle n

def waitForIdleReads : ℕ := 10000

/-- A write to `*ival`. -/
def setIval : Io Unit := emit (.arb 0 4)

end Registers

/-! ### The requests -/

/-- The requests with the arguments that decide what they touch. -/
inductive Vd80Request
  | setSwDebug
  | getSwDebug
  | getVersion
  | setTimeout
  | getTimeout
  | reset
  | connect
  | getConnect
  | getModuleCount
  | getModuleAddress
  | set (f : Vd80Field)
  | get (f : Vd80Field)
  | setAnalogueTrigger (channel : U32)
  | getAnalogueTrigger (channel : U32)
  | getState
  | setCommand (ival : U32)
  | readAdc (ival : U32)
  | readSample (sbuf : SampleBuf)
  | rawRead (boffs bsize : U32)
  | rawWrite (boffs bsize : U32)
  | other (iosz : ℕ) (write : Bool)

/-- `_IOC_SIZE(cmd)` -/
def Vd80Request.iosz : Vd80Request → ℕ
  | .getVersion => 8
  | .getModuleAddress => 16
  | .set .triggerConfig => 8
  | .get .triggerConfig => 8
  | .setAnalogueTrigger _ => 12
  | .getAnalogueTrigger _ => 12
  | .readSample _ => 32
  | .rawRead _ _ => 16
  | .rawWrite _ _ => 16
  | .other iosz _ => iosz
  | _ => 4

/-- The argument is copied from the user. -/
def Vd80Request.write : Vd80Request → Bool
  | .other _ write => write
  | _ => true

/-- The register that holds a field. -/
def Vd80Field.offset : Vd80Field → U32
  | .clock => CCR
  | .clockDivideMode => CCR
  | .clockDivisor => CCR
  | .clockEdge => CCR
  | .clockTermination => CCR
  | .trigger => TCR1
  | .triggerEdge => TCR1
  | .triggerTermination => TCR1
  | .postsamples => TCR2
  | .triggerConfig => TCR1

section Body

variable (env : Vd80Env)

/-- The `n` words from word `i` on, as far as the bus takes them, and how many there are then. -/
def rawLoop (touch : ℕ → List Access) : ℕ → ℕ → Io ℕ
  | 0, i => pure i
  | n + 1, i => do
    emits (touch i)
    if env.busError i then return i
    rawLoop touch n (i + 1)

/-- `raw_read` -/
def rawReadWords (icnt ioff : ℕ) : Io ℕ :=
  rawLoop env (fun i => [.reg (4 * (ioff + i)), .ibuf icnt i]) icnt 0

/-- `raw_write` -/
def rawWriteWords (icnt ioff : ℕ) : Io ℕ :=
  rawLoop env (fun i => [.reg (4 * (ioff + i))]) icnt 0

/-- Nothing is copied where there are no words. -/
def copyFails (icnt : ℕ) : Bool := env.ibufCopyFails && decide (icnt ≠ 0)

/-- The switch; an error is a `goto out`. -/
def Vd80Request.body : Vd80Request → Io (Option Vd80Errno)
  | .setSwDebug => pure none
  | .getSwDebug => do
    setIval
    return none
  | .getVersion => do
    emit (.arb 0 4)
    emit (.arb 4 4)
    return none
  | .setTimeout => pure none
  | .getTimeout => do
    setIval
    return none
  | .reset => do
    modifyreg env GCR2
    return none
  | .connect => do
    modifyreg env GCR2
    return none
  | .getConnect => do
    let _ ← getreg env GCR2
    setIval
    return none
  | .getModuleCount => do
    setIval
    return none
  | .getModuleAddress => do
    emits [.arb 0 4, .arb 4 4, .arb 8 4, .arb 12 4]
    return none
  | .set .postsamples => do
    modifyreg env PTCR
    setreg TCR2
    return none
  | .set .triggerConfig => do
    -- the delay is there or not, the registers are the same
    modifyreg env TCR1
    setreg TCR3
    modifyreg env PTCR
    return none
  | .set f => do
    modifyreg env f.offset
    return none
  | .get .triggerConfig => do
    let tval ← getreg env TCR1
    runIf (tval &&& trigoutDelay ≠ 0) (do let _ ← getreg env TCR3)
    emit (.arb 0 4)
    let _ ← getreg env PTCR
    emit (.arb 4 4)
    return none
  | .get f => do
    let _ ← getreg env f.offset
    setIval
    return none
  | .setAnalogueTrigger channel => do
    emits ((List.range channels).map fun ireg => .reg (ATRIG_CHAN1.toNat + ireg * 4))
    if channel.toNat < 1 ∨ channel.toNat > channels then return some .EACCES
    modifyreg env TCR1
    setreg (ATRIG_CHAN1 + (channel - 1) * 4)
    return none
  | .getAnalogueTrigger channel => do
    if channel.toNat < 1 ∨ channel.toNat > channels then return some .EACCES
    let _ ← getreg env (ATRIG_CHAN1 + (channel - 1) * 4)
    emit (.arb 4 4)
    emit (.arb 8 2)
    return none
  | .getState => do
    let _ ← getreg env GSR
    setIval
    return none
  | .setCommand ival => do
    let tval := ival &&& commandMask
    let tval := if tval = commandRead then tval ||| (ival &&& operantMask) else tval
    setreg GCR1
    runIf (tval = commandStop) (waitForIdle env waitForIdleReads)
    return none
  | .readAdc ival => do
    if ival.toNat < 1 ∧ ival.toNat > 16 then return some .EACCES
    let ireg := (ival - 1) >>> (1 : ℕ)
    let _ ← getreg env (ADCR1 + ireg * 4)
    setIval
    return none
  | .readSample sbuf => do
    let tcr2 ← getreg env TCR2
    if tcr2 = 0 then return some .EACCES
    setreg GCR1
    setreg GCR1
    waitForIdle env waitForIdleReads
    let tsr ← getreg env TSR
    let ssr ← getreg env SSR
    let _ ← getreg env PTSR
    emit (.arb 16 4)
    let actpostrig := tsr &&& actpostsamplesMask
    let shotlength := ssr &&& shotlenMask
    let actpretrig := shotlength - actpostrig
    let trigPosition := if sbuf.trigPosition > actpretrig then actpretrig else sbuf.trigPosition
    runIf (sbuf.trigPosition > actpretrig) (emit (.arb 8 4))
    let samplestrt := shotlength - (actpostrig + trigPosition)
    emit (.arb 12 4)
    runIf (samplestrt + sbuf.bufSizeSamples > shotlength) (emit (.arb 12 4))
    setreg MCR1
    emit (.arb 8 4)
    setreg MCR2
    setreg GCR1
    if env.dmaFails then return some .EACCES
    return none
  | .rawRead boffs bsize => do
    let icnt := bsize.toNat / 4
    let ioff := boffs.toNat / 4
    if env.ibufAllocFails then return some .ENOMEM
    emit (.alloc .ibuf)
    let n ← rawReadWords env icnt ioff
    if n ≠ icnt then
      -- `kfree(ival)`
      emit (.free .arb)
      return some .EACCES
    if copyFails env icnt then
      emit (.free .ibuf)
      return some .EACCES
    emit (.free .ibuf)
    emit (.arb 4 4)
    emit (.arb 0 4)
    return none
  | .rawWrite boffs bsize => do
    let icnt := bsize.toNat / 4
    let ioff := boffs.toNat / 4
    if env.ibufAllocFails then return some .ENOMEM
    emit (.alloc .ibuf)
    emits ((List.range icnt).map (.ibuf icnt))
    if copyFails env icnt then
      -- `kfree(ival)`
      emit (.free .arb)
      return some .EACCES
    let n ← rawWriteWords env icnt ioff
    if n ≠ icnt then
      emit (.free .ibuf)
      return some .EACCES
    emit (.free .ibuf)
    emit (.arb 4 4)
    emit (.arb 0 4)
    return none
  | .other _ _ => pure (some .ENOENT)

/-- The argument is copied from the user; whether that fails. -/
def Vd80Request.copyIn (req : Vd80Request) : Io Bool :=
  if req.write then do
    emit (.arb 0 req.iosz)
    return env.argFromUserFails
  else pure false

/-- The argument is copied to the user where the switch has not failed. -/
def copyOut : Option Vd80Errno → Io (Option Vd80Errno)
  | some e => pure (some e)
  | none => pure (if env.argToUserFails then some .EACCES else none)

/-- `__vd80_ioctl` between the allocation of the argument and `out`. -/
def Vd80Request.work (req : Vd80Request) : Io (Option Vd80Errno) := do
  if ← req.copyIn env then return some .EACCES
  let cc ← req.body env
  copyOut env cc

/-- `__vd80_ioctl` -/
def vd80Ioctl (req : Vd80Request) : Io (Option Vd80Errno) := do
  if env.argAllocFails then return some .ENOMEM
  emit (.alloc .arb)
  let cc ← req.work env
  emit (.free .arb)
  return cc

end Body

/-! ### Requests that stay inside -/

section Plain

variable {env : Vd80Env} {iosz : ℕ}

theorem plain_getreg {byteOffset : U32} (h : byteOffset.toNat < VD80_WINDOW_SIZE) :
    All (Access.Plain iosz) (getreg env byteOffset) := by
  intro k e he
  obtain rfl := List.mem_singleton.1 he
  exact lt_of_le_of_lt (Nat.div_mul_le_self _ 4) h

theorem plain_setreg {byteOffset : U32} (h : byteOffset.toNat < VD80_WINDOW_SIZE) :
    All (Access.Plain iosz) (setreg byteOffset) :=
  all_emit (lt_of_le_of_lt (Nat.div_mul_le_self _ 4) h)

theorem plain_modifyreg {byteOffset : U32} (h : byteOffset.toNat < VD80_WINDOW_SIZE) :
    All (Access.Plain iosz) (modifyreg env byteOffset) :=
  all_bind (plain_getreg h) fun _ => plain_setreg h

theorem plain_arb {first size : ℕ} (h : first + size ≤ iosz) :
    All (Access.Plain iosz) (emit (.arb first size) : Io Unit) := all_emit h

theorem plain_waitForIdle (n : ℕ) : All (Access.Plain iosz) (waitForIdle env n) := by
  induction n with
  | zero => exact all_pure ()
  | succ n ih =>
    exact all_bind (plain_getreg (by decide)) fun _ => all_ite (fun _ => all_pure ()) fun _ => ih

theorem offset_inside (f : Vd80Field) : f.offset.toNat < VD80_WINDOW_SIZE := by
  cases f <;> decide

theorem atrig_inside {channel : U32} (h : ¬(channel.toNat < 1 ∨ channel.toNat > channels)) :
    (ATRIG_CHAN1 + (channel - 1) * 4).toNat < VD80_WINDOW_SIZE := by
  obtain ⟨n, hn⟩ : ∃ n, channel.toNat = n := ⟨_, rfl⟩
  obtain rfl : channel = BitVec.ofNat 32 n := by rw [← hn, BitVec.ofNat_toNat, BitVec.setWidth_eq]
  rw [hn, channels] at h
  push Not at h
  obtain ⟨hlow, hhigh⟩ := h
  interval_cases n <;> decide

theorem plain_done (cc : Option Vd80Errno) :
    All (Access.Plain iosz) (pure cc : Io (Option Vd80Errno)) := all_pure cc

end Plain

/-- The requests that may go wrong. -/
def Vd80Request.Delicate : Vd80Request → Prop
  | .readAdc _ => True
  | .rawRead _ _ => True
  | .rawWrite _ _ => True
  | _ => False

theorem plain_set (env : Vd80Env) (f : Vd80Field) :
    All (Access.Plain (Vd80Request.set f).iosz) ((Vd80Request.set f).body env) := by
  cases f
  case postsamples =>
    exact all_bind (plain_modifyreg (by decide)) fun _ =>
      all_bind (plain_setreg (by decide)) fun _ => plain_done _
  case triggerConfig =>
    exact all_bind (plain_modifyreg (by decide)) fun _ =>
      all_bind (plain_setreg (by decide)) fun _ =>
        all_bind (plain_modifyreg (by decide)) fun _ => plain_done _
  all_goals exact all_bind (plain_modifyreg (offset_inside _)) fun _ => plain_done _

theorem plain_get (env : Vd80Env) (f : Vd80Field) :
    All (Access.Plain (Vd80Request.get f).iosz) ((Vd80Request.get f).body env) := by
  cases f
  case triggerConfig =>
    exact all_bind (plain_getreg (by decide)) fun _ =>
      all_bind (all_runIf fun _ => all_bind (plain_getreg (by decide)) fun _ => all_pure ()) fun _ =>
        all_bind (plain_arb (by decide)) fun _ =>
          all_bind (plain_getreg (by decide)) fun _ =>
            all_bind (plain_arb (by decide)) fun _ => plain_done _
  all_goals
    exact all_bind (plain_getreg (offset_inside _)) fun _ =>
      all_bind (plain_arb (by decide)) fun _ => plain_done _

theorem plain_setAnalogueTrigger (env : Vd80Env) (channel : U32) :
    All (Access.Plain 12) ((Vd80Request.setAnalogueTrigger channel).body env) := by
  refine all_bind (all_emits ?_) fun _ => all_ite (fun _ => plain_done _) fun h => ?_
  · simp only [List.mem_map, List.mem_range]
    rintro e ⟨ireg, hireg, rfl⟩
    show ATRIG_CHAN1.toNat + ireg * 4 < VD80_WINDOW_SIZE
    rw [channels] at hireg
    rw [show ATRIG_CHAN1.toNat = 0xc0 from rfl, VD80_WINDOW_SIZE]
    omega
  · exact all_bind (plain_modifyreg (by decide)) fun _ =>
      all_bind (plain_setreg (atrig_inside h)) fun _ => plain_done _

theorem plain_getAnalogueTrigger (env : Vd80Env) (channel : U32) :
    All (Access.Plain 12) ((Vd80Request.getAnalogueTrigger channel).body env) := by
  refine all_ite (fun _ => plain_done _) fun h => ?_
  exact all_bind (plain_getreg (atrig_inside h)) fun _ =>
    all_bind (plain_arb (by decide)) fun _ => all_bind (plain_arb (by decide)) fun _ => plain_done _

theorem plain_readSample (env : Vd80Env) (sbuf : SampleBuf) :
    All (Access.Plain 32) ((Vd80Request.readSample sbuf).body env) := by
  refine all_bind (plain_getreg (by decide)) fun _ => all_ite (fun _ => plain_done _) fun _ => ?_
  -- the module is stopped, and tells what it has
  refine all_bind (plain_setreg (by decide)) fun _ => all_bind (plain_setreg (by decide)) fun _ =>
    all_bind (plain_waitForIdle _) fun _ => all_bind (plain_getreg (by decide)) fun _ =>
      all_bind (plain_getreg (by decide)) fun _ => all_bind (plain_getreg (by decide)) fun _ => ?_
  -- the request is fitted to it
  refine all_bind (plain_arb (by decide)) fun _ =>
    all_bind (all_runIf fun _ => plain_arb (by decide)) fun _ =>
      all_bind (plain_arb (by decide)) fun _ =>
        all_bind (all_runIf fun _ => plain_arb (by decide)) fun _ => ?_
  refine all_bind (plain_setreg (by decide)) fun _ => all_bind (plain_arb (by decide)) fun _ =>
    all_bind (plain_setreg (by decide)) fun _ => all_bind (plain_setreg (by decide)) fun _ => ?_
  exact all_ite (fun _ => plain_done _) fun _ => plain_done _

theorem body_plain (env : Vd80Env) (req : Vd80Request) (h : ¬ req.Delicate) :
    All (Access.Plain req.iosz) (req.body env) := by
  cases req with
  | setSwDebug => exact plain_done _
  | getSwDebug => exact all_bind (plain_arb (by decide)) fun _ => plain_done _
  | getVersion =>
    exact all_bind (plain_arb (by decide)) fun _ => all_bind (plain_arb (by decide)) fun _ =>
      plain_done _
  | setTimeout => exact plain_done _
  | getTimeout => exact all_bind (plain_arb (by decide)) fun _ => plain_done _
  | reset => exact all_bind (plain_modifyreg (by decide)) fun _ => plain_done _
  | connect => exact all_bind (plain_modifyreg (by decide)) fun _ => plain_done _
  | getConnect =>
    exact all_bind (plain_getreg (by decide)) fun _ => all_bind (plain_arb (by decide)) fun _ =>
      plain_done _
  | getModuleCount => exact all_bind (plain_arb (by decide)) fun _ => plain_done _
  | getModuleAddress =>
    refine all_bind (all_emits ?_) fun _ => plain_done _
    simp [Access.Plain, Access.Inside, Vd80Request.iosz]
  | set f => exact plain_set env f
  | get f => exact plain_get env f
  | setAnalogueTrigger channel => exact plain_setAnalogueTrigger env channel
  | getAnalogueTrigger channel => exact plain_getAnalogueTrigger env channel
  | getState =>
    exact all_bind (plain_getreg (by decide)) fun _ => all_bind (plain_arb (by decide)) fun _ =>
      plain_done _
  | setCommand ival =>
    exact all_bind (plain_setreg (by decide)) fun _ =>
      all_bind (all_runIf fun _ => plain_waitForIdle _) fun _ => plain_done _
  | readAdc ival => exact absurd trivial h
  | readSample sbuf => exact plain_readSample env sbuf
  | rawRead boffs bsize => exact absurd trivial h
  | rawWrite boffs bsize => exact absurd trivial h
  | other iosz write => exact plain_done _

/-! ### The whole call -/

/-- Every access is inside, and everything that is allocated is freed once. -/
def Clean (iosz : ℕ) (es : List Access) : Prop :=
  (∀ e ∈ es, e.Inside iosz) ∧ ∀ b, es.count (.free b) = es.count (.alloc b)

def IoctlSafe (env : Vd80Env) (req : Vd80Request) : Prop :=
  Clean req.iosz ((vd80Ioctl env req).events 0)

section Whole

variable {iosz : ℕ}

theorem clean_nil : Clean iosz [] := ⟨fun _ he => absurd he List.not_mem_nil, fun _ => rfl⟩

theorem count_of_plain {es : List Access} (h : ∀ e ∈ es, e.Plain iosz) (b : Buffer) :
    es.count (.free b) = 0 ∧ es.count (.alloc b) = 0 :=
  ⟨List.count_eq_zero_of_not_mem fun hm => h _ hm, List.count_eq_zero_of_not_mem fun hm => h _ hm⟩

theorem inside_of_plain {e : Access} (h : e.Plain iosz) : e.Inside iosz := by
  cases e with
  | reg offset => exact h
  | arb first size => exact h
  | ibuf icnt i => exact h
  | alloc b => trivial
  | free b => trivial

theorem clean_of_plain {es : List Access} (h : ∀ e ∈ es, e.Plain iosz) : Clean iosz es := by
  refine ⟨fun e he => inside_of_plain (h e he), fun b => ?_⟩
  rw [(count_of_plain h b).1, (count_of_plain h b).2]

theorem clean_between {es : List Access} (b : Buffer) :
    Clean iosz (.alloc b :: (es ++ [.free b])) ↔ Clean iosz es := by
  have hcount (c : Buffer) :
      (.alloc b :: (es ++ [Access.free b]) : List Access).count (.free c) =
          es.count (.free c) + (if b = c then 1 else 0) ∧
        (.alloc b :: (es ++ [Access.free b]) : List Access).count (.alloc c) =
          es.count (.alloc c) + (if b = c then 1 else 0) := by
    simp [List.count_cons, List.count_append]
  constructor
  · rintro ⟨hin, heq⟩
    refine ⟨fun e he => hin e (by simp [he]), fun c => ?_⟩
    have heq := heq c
    rw [(hcount c).1, (hcount c).2] at heq
    exact Nat.add_right_cancel heq
  · rintro ⟨hin, heq⟩
    refine ⟨fun e he => ?_, fun c => by rw [(hcount c).1, (hcount c).2, heq c]⟩
    rw [List.mem_cons, List.mem_append, List.mem_singleton] at he
    rcases he with rfl | he | rfl
    · trivial
    · exact hin e he
    · trivial

theorem clean_plain_append {es fs : List Access} (h : ∀ e ∈ es, e.Plain iosz) :
    Clean iosz (es ++ fs) ↔ Clean iosz fs := by
  have hcount (b : Buffer) : (es ++ fs).count (.free b) = fs.count (.free b) ∧
      (es ++ fs).count (.alloc b) = fs.count (.alloc b) := by
    rw [List.count_append, List.count_append, (count_of_plain h b).1, (count_of_plain h b).2]
    exact ⟨Nat.zero_add _, Nat.zero_add _⟩
  constructor
  · rintro ⟨hin, heq⟩
    refine ⟨fun e he => hin e (List.mem_append_right _ he), fun b => ?_⟩
    rw [← (hcount b).1, heq b, (hcount b).2]
  · rintro ⟨hin, heq⟩
    refine ⟨fun e he => ?_, fun b => by rw [(hcount b).1, (hcount b).2, heq b]⟩
    rcases List.mem_append.1 he with he | he
    · exact inside_of_plain (h e he)
    · exact hin e he

theorem events_copyOut (env : Vd80Env) (cc : Option Vd80Errno) (k : ℕ) :
    (copyOut env cc).events k = [] := by
  cases cc <;> rfl

/-- The argument is not filled. -/
def ArgMissing (env : Vd80Env) (req : Vd80Request) : Prop :=
  req.write = true ∧ env.argFromUserFails = true

theorem clean_work (env : Vd80Env) (req : Vd80Request) :
    Clean req.iosz ((req.work env).events 0) ↔
      ArgMissing env req ∨ Clean req.iosz ((req.body env).events 0) := by
  rw [Vd80Request.work, events_bind, Vd80Request.copyIn]
  by_cases hwrite : req.write = true
  · rw [if_pos hwrite]
    have harb : ∀ e ∈ [Access.arb 0 req.iosz], e.Plain req.iosz := by
      simp [Access.Plain, Access.Inside]
    show Clean req.iosz ([Access.arb 0 req.iosz] ++
      (if env.argFromUserFails = true then pure (some .EACCES) else
        req.body env >>= copyOut env : Io (Option Vd80Errno)).events 0) ↔ _
    rw [clean_plain_append harb]
    by_cases hfails : env.argFromUserFails = true
    · rw [if_pos hfails]
      exact iff_of_true clean_nil (.inl ⟨hwrite, hfails⟩)
    · rw [if_neg hfails, events_bind, events_copyOut, List.append_nil]
      exact ⟨.inr, fun h => h.resolve_left fun hmiss => hfails hmiss.2⟩
  · rw [if_neg hwrite]
    show Clean req.iosz ((req.body env >>= copyOut env).events 0) ↔ _
    rw [events_bind, events_copyOut, List.append_nil]
    exact ⟨.inr, fun h => h.resolve_left fun hmiss => hwrite hmiss.1⟩

theorem ioctlSafe_iff_body (env : Vd80Env) (req : Vd80Request) :
    IoctlSafe env req ↔
      env.argAllocFails = true ∨ ArgMissing env req ∨ Clean req.iosz ((req.body env).events 0) := by
  rw [IoctlSafe, vd80Ioctl]
  by_cases halloc : env.argAllocFails = true
  · rw [if_pos halloc]
    exact iff_of_true clean_nil (.inl halloc)
  · rw [if_neg halloc]
    show Clean req.iosz (.alloc .arb :: ((req.work env).events 0 ++ [.free .arb])) ↔ _
    rw [clean_between, clean_work]
    exact ⟨.inr, fun h => h.resolve_left halloc⟩

end Whole

/-! ### The requests that may go wrong -/

theorem clean_readAdc (env : Vd80Env) (ival : U32) :
    Clean 4 (((Vd80Request.readAdc ival).body env).events 0) ↔
      (ival - 1).toNat / 2 % 2 ^ 30 < 0x3ff4 ∨ 2 ^ 30 - 12 ≤ (ival - 1).toNat / 2 % 2 ^ 30 := by
  have hnever : ¬(ival.toNat < 1 ∧ ival.toNat > 16) := by omega
  have hoffset : (ADCR1 + (ival - 1) >>> (1 : ℕ) * 4).toNat =
      (48 + (ival - 1).toNat / 2 % 2 ^ 30 * 4) % 2 ^ 32 := by
    rw [BitVec.toNat_add, BitVec.toNat_mul, BitVec.toNat_ushiftRight, Nat.shiftRight_eq_div_pow,
      show ADCR1.toNat = 48 from rfl, show (4 : U32).toNat = 4 from rfl]
    omega
  have hevents : ((Vd80Request.readAdc ival).body env).events 0 =
      [.reg ((ADCR1 + (ival - 1) >>> (1 : ℕ) * 4).toNat / 4 * 4), .arb 0 4] := by
    rw [Vd80Request.body, if_neg hnever]
    rfl
  rw [hevents, hoffset]
  have hlt : (ival - 1).toNat / 2 % 2 ^ 30 < 2 ^ 30 := Nat.mod_lt _ (by decide)
  generalize (ival - 1).toNat / 2 % 2 ^ 30 = w at *
  constructor
  · rintro ⟨hin, -⟩
    have hreg := hin (.reg _) List.mem_cons_self
    rw [Access.Inside, VD80_WINDOW_SIZE] at hreg
    omega
  · intro h
    refine clean_of_plain ?_
    intro e he
    rw [List.mem_cons, List.mem_singleton] at he
    rcases he with rfl | rfl
    · show _ < VD80_WINDOW_SIZE
      rw [VD80_WINDOW_SIZE]
      omega
    · show 0 + 4 ≤ 4
      omega

section Raw

variable {env : Vd80Env} {touch : ℕ → List Access}

theorem rawLoop_step (n i k : ℕ) :
    (rawLoop env touch (n + 1) i).events k =
        touch i ++ (if env.busError i = true then [] else (rawLoop env touch n (i + 1)).events k) ∧
      (rawLoop env touch (n + 1) i).value k =
        if env.busError i = true then i else (rawLoop env touch n (i + 1)).value k := by
  rw [rawLoop]
  constructor
  · rw [events_bind, events_emits]
    by_cases hbus : env.busError i = true
    · rw [if_pos hbus, if_pos hbus]
      rfl
    · rw [if_neg hbus, if_neg hbus]
      rfl
  · by_cases hbus : env.busError i = true
    · rw [if_pos hbus, if_pos hbus]
      rfl
    · rw [if_neg hbus, if_neg hbus]
      rfl

variable (env touch) in
theorem rawLoop_value (n i k : ℕ) :
    (rawLoop env touch n i).value k ≤ i + n ∧
      ((rawLoop env touch n i).value k = i + n ↔
        ∀ j, i ≤ j → j < i + n → env.busError j = false) := by
  induction n generalizing i with
  | zero => exact ⟨le_rfl, iff_of_true rfl fun j hle hlt => absurd hlt (by omega)⟩
  | succ n ih =>
    rw [(rawLoop_step n i k).2]
    by_cases hbus : env.busError i = true
    · rw [if_pos hbus]
      refine ⟨by omega, iff_of_false (by omega) fun h => ?_⟩
      rw [h i le_rfl (by omega)] at hbus
      cases hbus
    · rw [if_neg hbus]
      obtain ⟨hle, hiff⟩ := ih (i + 1)
      refine ⟨by omega, ?_⟩
      rw [show i + (n + 1) = i + 1 + n by omega, hiff]
      constructor
      · intro h j hij hj
        rcases Nat.eq_or_lt_of_le hij with rfl | hlt
        · exact Bool.eq_false_iff.2 hbus
        · exact h j hlt hj
      · exact fun h j hij hj => h j (by omega) hj

theorem mem_rawLoop (n i k : ℕ) {e : Access} :
    e ∈ (rawLoop env touch n i).events k ↔
      ∃ j, i ≤ j ∧ j < i + n ∧ (∀ l, i ≤ l → l < j → env.busError l = false) ∧ e ∈ touch j := by
  induction n generalizing i with
  | zero =>
    refine iff_of_false List.not_mem_nil ?_
    rintro ⟨j, hle, hlt, -⟩
    omega
  | succ n ih =>
    rw [(rawLoop_step n i k).1, List.mem_append]
    constructor
    · rintro (he | he)
      · exact ⟨i, le_rfl, by omega, fun l hle hlt => absurd hlt (by omega), he⟩
      · split at he
        · cases he
        next hbus =>
          obtain ⟨j, hij, hj, hquiet, he⟩ := (ih (i + 1)).1 he
          refine ⟨j, by omega, by omega, fun l hle hlt => ?_, he⟩
          rcases Nat.eq_or_lt_of_le hle with rfl | hlater
          · exact Bool.eq_false_iff.2 hbus
          · exact hquiet l hlater hlt
    · rintro ⟨j, hij, hj, hquiet, he⟩
      rcases Nat.eq_or_lt_of_le hij with rfl | hlater
      · exact .inl he
      · right
        rw [if_neg (by rw [hquiet i le_rfl hlater]; exact Bool.false_ne_true)]
        exact (ih (i + 1)).2 ⟨j, hlater, by omega, fun l hle hlt => hquiet l (by omega) hlt, he⟩

end Raw

theorem clean_bounce {iosz : ℕ} {es fs : List Access}
    (hes : ∀ e ∈ es, ∀ b, e ≠ .alloc b ∧ e ≠ .free b) (hfs : ∀ e ∈ fs, e.Plain iosz) :
    Clean iosz (.alloc .ibuf :: (es ++ .free .ibuf :: fs)) ↔ ∀ e ∈ es, e.Plain iosz := by
  constructor
  · rintro ⟨hin, -⟩ e he
    have hinside := hin e (by simp [he])
    cases e with
    | alloc b => exact absurd rfl (hes _ he b).1
    | free b => exact absurd rfl (hes _ he b).2
    | reg offset => exact hinside
    | arb first size => exact hinside
    | ibuf icnt i => exact hinside
  · intro h
    refine ⟨fun e he => ?_, fun b => ?_⟩
    · rw [List.mem_cons, List.mem_append, List.mem_cons] at he
      rcases he with rfl | he | rfl | he
      · trivial
      · exact inside_of_plain (h e he)
      · trivial
      · exact inside_of_plain (hfs e he)
    · rw [List.count_cons, List.count_cons, List.count_append, List.count_append, List.count_cons,
        List.count_cons, (count_of_plain h b).1, (count_of_plain h b).2, (count_of_plain hfs b).1,
        (count_of_plain hfs b).2]
      cases b <;> rfl

theorem plain_end : ∀ e ∈ [Access.arb 4 4, .arb 0 4], e.Plain 16 := by
  simp [Access.Plain, Access.Inside]

theorem not_clean_wrong_free {iosz : ℕ} {es : List Access}
    (harb : .alloc .arb ∉ es) : ¬ Clean iosz (.alloc .ibuf :: (es ++ [.free .arb])) := by
  rintro ⟨-, heq⟩
  have hfreed : Access.free .arb ∈ (.alloc .ibuf :: (es ++ [.free .arb]) : List Access) := by simp
  have hcount := List.count_pos_iff.2 hfreed
  rw [heq .arb, List.count_eq_zero_of_not_mem (by simp [harb])] at hcount
  exact absurd hcount (lt_irrefl 0)

theorem words_inside {env : Vd80Env} {icnt ioff : ℕ} :
    (∀ e ∈ (rawWriteWords env icnt ioff).events 0, e.Plain 16) ↔
      ∀ i < icnt, (∀ j < i, env.busError j = false) → ioff + i < 0x4000 := by
  constructor
  · intro h i hi hquiet
    have hreg : Access.Plain 16 (.reg (4 * (ioff + i))) :=
      h _ ((mem_rawLoop icnt 0 0).2 ⟨i, Nat.zero_le i, by omega, fun l _ hl => hquiet l hl, by simp⟩)
    have hlt : 4 * (ioff + i) < 0x10000 := hreg
    omega
  · intro h e he
    obtain ⟨j, -, hj, hquiet, he⟩ := (mem_rawLoop icnt 0 0).1 he
    obtain rfl := List.mem_singleton.1 he
    have hlt := h j (by omega) fun l hl => hquiet l (Nat.zero_le l) hl
    show 4 * (ioff + j) < 0x10000
    omega

theorem plain_rawRead_iff {env : Vd80Env} {icnt : ℕ} (ioff : ℕ)
    (hquiet : ∀ i < icnt, env.busError i = false) :
    (∀ e ∈ (rawReadWords env icnt ioff).events 0, e.Plain 16) ↔
      icnt = 0 ∨ ioff + icnt ≤ 0x4000 := by
  constructor
  · intro h
    rcases Nat.eq_zero_or_pos icnt with hz | hpos
    · exact .inl hz
    · have hreg : Access.Plain 16 (.reg (4 * (ioff + (icnt - 1)))) :=
        h _ ((mem_rawLoop icnt 0 0).2 ⟨icnt - 1, Nat.zero_le _, by omega,
          fun l _ hl => hquiet l (by omega), by simp⟩)
      have hlt : 4 * (ioff + (icnt - 1)) < 0x10000 := hreg
      omega
  · intro h e he
    obtain ⟨j, -, hj, -, he⟩ := (mem_rawLoop icnt 0 0).1 he
    rw [List.mem_cons, List.mem_singleton] at he
    rcases he with rfl | rfl
    · show 4 * (ioff + j) < 0x10000
      omega
    · show j < icnt
      omega

theorem read_touches {env : Vd80Env} {icnt ioff : ℕ} :
    ∀ e ∈ (rawReadWords env icnt ioff).events 0, ∀ b, e ≠ .alloc b ∧ e ≠ .free b := by
  intro e he b
  obtain ⟨j, -, -, -, he⟩ := (mem_rawLoop icnt 0 0).1 he
  rw [List.mem_cons, List.mem_singleton] at he
  rcases he with rfl | rfl <;> simp

theorem write_touches {env : Vd80Env} {icnt ioff : ℕ} :
    ∀ e ∈ (rawWriteWords env icnt ioff).events 0, ∀ b, e ≠ .alloc b ∧ e ≠ .free b := by
  intro e he b
  obtain ⟨j, -, -, -, he⟩ := (mem_rawLoop icnt 0 0).1 he
  obtain rfl := List.mem_singleton.1 he
  simp

theorem clean_rawRead (env : Vd80Env) (boffs bsize : U32) :
    Clean 16 (((Vd80Request.rawRead boffs bsize).body env).events 0) ↔
      env.ibufAllocFails = true ∨
        (∀ i < bsize.toNat / 4, env.busError i = false) ∧
          (bsize.toNat / 4 = 0 ∨ boffs.toNat / 4 + bsize.toNat / 4 ≤ 0x4000) := by
  rw [Vd80Request.body]
  generalize bsize.toNat / 4 = icnt
  generalize boffs.toNat / 4 = ioff
  by_cases halloc : env.ibufAllocFails = true
  · rw [if_pos halloc]
    exact iff_of_true clean_nil (.inl halloc)
  rw [if_neg halloc]
  have hvalue : (rawReadWords env icnt ioff).value 0 = icnt ↔
      ∀ i < icnt, env.busError i = false := by
    have hloop :=
      (rawLoop_value env (fun i => [.reg (4 * (ioff + i)), .ibuf icnt i]) icnt 0 0).2
    rw [Nat.zero_add] at hloop
    exact hloop.trans ⟨fun h i hi => h i (Nat.zero_le i) hi, fun h i _ hi => h i hi⟩
  by_cases hall : (rawReadWords env icnt ioff).value 0 = icnt
  · have hquiet := hvalue.1 hall
    have hplain := plain_rawRead_iff ioff hquiet
    have hend : ∀ fs : List Access, (∀ e ∈ fs, e.Plain 16) →
        (Clean 16 (.alloc .ibuf :: ((rawReadWords env icnt ioff).events 0 ++ .free .ibuf :: fs)) ↔
          env.ibufAllocFails = true ∨ (∀ i < icnt, env.busError i = false) ∧
            (icnt = 0 ∨ ioff + icnt ≤ 0x4000)) := by
      intro fs hfs
      rw [clean_bounce read_touches hfs, hplain]
      exact ⟨fun h => .inr ⟨hquiet, h⟩, fun h => (h.resolve_left halloc).2⟩
    show Clean 16 (.alloc .ibuf :: ((rawReadWords env icnt ioff).events 0 ++
      (if (rawReadWords env icnt ioff).value 0 ≠ icnt then _ else
        if copyFails env icnt = true then
          (do emit (.free .ibuf); return some .EACCES : Io (Option Vd80Errno)) else _).events _)) ↔ _
    rw [if_neg (not_not.2 hall)]
    by_cases hcopy : copyFails env icnt = true
    · rw [if_pos hcopy]
      exact hend [] fun e he => absurd he List.not_mem_nil
    · rw [if_neg hcopy]
      exact hend [.arb 4 4, .arb 0 4] plain_end
  · refine iff_of_false ?_ ?_
    · show ¬ Clean 16 (.alloc .ibuf :: ((rawReadWords env icnt ioff).events 0 ++
        (if (rawReadWords env icnt ioff).value 0 ≠ icnt then
          (do emit (.free .arb); return some .EACCES : Io (Option Vd80Errno)) else _).events _))
      rw [if_pos hall]
      exact not_clean_wrong_free fun he => (read_touches _ he .arb).1 rfl
    · rintro (h | h)
      · exact halloc h
      · exact hall (hvalue.2 h.1)

theorem plain_fill (icnt : ℕ) :
    ∀ e ∈ (List.range icnt).map (Access.ibuf icnt), e.Plain 16 := by
  intro e he
  obtain ⟨i, hi, rfl⟩ := List.mem_map.1 he
  exact List.mem_range.1 hi

theorem clean_rawWrite (env : Vd80Env) (boffs bsize : U32) :
    Clean 16 (((Vd80Request.rawWrite boffs bsize).body env).events 0) ↔
      env.ibufAllocFails = true ∨
        copyFails env (bsize.toNat / 4) = false ∧
          ∀ i < bsize.toNat / 4, (∀ j < i, env.busError j = false) →
            boffs.toNat / 4 + i < 0x4000 := by
  rw [Vd80Request.body]
  generalize bsize.toNat / 4 = icnt
  generalize boffs.toNat / 4 = ioff
  by_cases halloc : env.ibufAllocFails = true
  · rw [if_pos halloc]
    exact iff_of_true clean_nil (.inl halloc)
  rw [if_neg halloc]
  by_cases hcopy : copyFails env icnt = true
  · refine iff_of_false ?_ ?_
    · show ¬ Clean 16 (.alloc .ibuf :: ((List.range icnt).map (Access.ibuf icnt) ++
        (if copyFails env icnt = true then
          (do emit (.free .arb); return some .EACCES : Io (Option Vd80Errno)) else _).events _))
      rw [if_pos hcopy]
      refine not_clean_wrong_free ?_
      simp
    · rintro (h | h)
      · exact halloc h
      · rw [hcopy] at h
        cases h.1
  · have hend : ∀ fs : List Access, (∀ e ∈ fs, e.Plain 16) →
        (Clean 16 (.alloc .ibuf :: ((List.range icnt).map (Access.ibuf icnt) ++
            ((rawWriteWords env icnt ioff).events 0 ++ .free .ibuf :: fs))) ↔
          env.ibufAllocFails = true ∨ copyFails env icnt = false ∧
            ∀ i < icnt, (∀ j < i, env.busError j = false) → ioff + i < 0x4000) := by
      intro fs hfs
      rw [← List.append_assoc, clean_bounce ?_ hfs, List.forall_mem_append, words_inside]
      · exact ⟨fun h => .inr ⟨Bool.eq_false_iff.2 hcopy, h.2⟩,
          fun h => ⟨plain_fill icnt, (h.resolve_left halloc).2⟩⟩
      · intro e he b
        rcases List.mem_append.1 he with he | he
        · obtain ⟨i, -, rfl⟩ := List.mem_map.1 he
          simp
        · exact write_touches e he b
    show Clean 16 (.alloc .ibuf :: ((List.range icnt).map (Access.ibuf icnt) ++
      (if copyFails env icnt = true then _ else
        (do
          let n ← rawWriteWords env icnt ioff
          if n ≠ icnt then
            emit (.free .ibuf)
            return some .EACCES
          emit (.free .ibuf)
          emit (.arb 4 4)
          emit (.arb 0 4)
          return none : Io (Option Vd80Errno))).events _)) ↔ _
    rw [if_neg hcopy]
    show Clean 16 (.alloc .ibuf :: ((List.range icnt).map (Access.ibuf icnt) ++
      ((rawWriteWords env icnt ioff).events 0 ++
        (if (rawWriteWords env icnt ioff).value 0 ≠ icnt then
          (do emit (.free .ibuf); return some .EACCES : Io (Option Vd80Errno)) else _).events _))) ↔ _
    by_cases hall : (rawWriteWords env icnt ioff).value 0 = icnt
    · rw [if_neg (not_not.2 hall)]
      exact hend [.arb 4 4, .arb 0 4] plain_end
    · rw [if_pos hall]
      exact hend [] fun e he => absurd he List.not_mem_nil

/-! ### Every request -/

/-- When a request stays inside and frees what it has: `READ_ADC` for a register inside the window,
a raw read of words inside it without a bus error, and a raw write of words inside it as far as the
bus takes them, if they could be copied. -/
def Vd80Request.Bounded (env : Vd80Env) : Vd80Request → Prop
  | .readAdc ival =>
    (ival - 1).toNat / 2 % 2 ^ 30 < 0x3ff4 ∨ 2 ^ 30 - 12 ≤ (ival - 1).toNat / 2 % 2 ^ 30
  | .rawRead boffs bsize =>
    env.ibufAllocFails = true ∨
      (∀ i < bsize.toNat / 4, env.busError i = false) ∧
        (bsize.toNat / 4 = 0 ∨ boffs.toNat / 4 + bsize.toNat / 4 ≤ 0x4000)
  | .rawWrite boffs bsize =>
    env.ibufAllocFails = true ∨
      copyFails env (bsize.toNat / 4) = false ∧
        ∀ i < bsize.toNat / 4, (∀ j < i, env.busError j = false) → boffs.toNat / 4 + i < 0x4000
  | _ => True

/-- For every request, whatever the registers answer and whatever fails. -/
theorem ioctl_safe_iff (env : Vd80Env) (req : Vd80Request) :
    IoctlSafe env req ↔
      env.argAllocFails = true ∨ req.write = true ∧ env.argFromUserFails = true ∨
        req.Bounded env := by
  rw [ioctlSafe_iff_body]
  refine or_congr_right (or_congr_right ?_)
  by_cases hdelicate : req.Delicate
  · cases req <;> try exact absurd hdelicate not_false
    case readAdc ival => exact clean_readAdc env ival
    case rawRead boffs bsize => exact clean_rawRead env boffs bsize
    case rawWrite boffs bsize => exact clean_rawWrite env boffs bsize
  · refine iff_of_true (clean_of_plain (body_plain env req hdelicate 0)) ?_
    cases req <;> first | trivial | exact absurd trivial hdelicate

/-- `READ_ADC` of channel 40000. -/
theorem channel_outside_window :
    ¬ ∀ (env : Vd80Env) (req : Vd80Request), IoctlSafe env req := by
  intro h
  obtain ⟨hin, -⟩ := h ⟨fun _ _ => 0, false, false, false, false, false, false, fun _ => false⟩
    (.readAdc 40000)
  have hreg : (80044 : ℕ) < VD80_WINDOW_SIZE := hin (.reg 80044) (by decide)
  exact absurd hreg (by decide)

end KernelModules.Vd80
