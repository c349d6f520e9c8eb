import Mathlib.Tactic.Tauto
import KernelModules.Lib.Transition
import KernelModules.Skel.Connections

/-!
# Waiting in the MTT library

The library remembers what it has told the driver, so as not to tell it again: the interrupts it is
connected to, the queue flag and the timeout.  The driver keeps the same for each open descriptor.

* `MttLib` are the variables of the library with the driver's context of the open descriptor,
  `mttLibWait` and `mttLibInit` the calls up to where they read from the driver, and `libStep` the
  library with its reads;
* `Coherent` says that a call that reads does so with its own timeout and queue flag, and that the
  driver has all the connections that the library remembers.

The library sends its old timeout to the driver and remembers the new one, and it remembers across a
new descriptor.  `coherent_of_reach` says when a call is right all the same, and that no run is as
soon as one of its calls reads.
-/

namespace KernelModules.Mttn

open KernelModules.Lib Function

/-! ### The driver's side -/

/-- What the driver keeps of a client. -/
structure ClientContext where
  timeout : BitVec 32
  queueOff : Bool
  connected : BitVec 32
  deriving DecidableEq, Repr

def SkelDrvrDEFAULT_CLIENT_TIMEOUT : BitVec 32 := 2000

/-- `client_init`. -/
def clientInit : ClientContext where
  timeout := SkelDrvrDEFAULT_CLIENT_TIMEOUT
  queueOff := false
  connected := 0

/-- `CONNECT`; `links` are the interrupts for which the driver has or gets a link. -/
def ClientContext.connect (ccon : ClientContext) (conMask links : BitVec 32) : ClientContext :=
  { ccon with connected := ccon.connected ||| (conMask &&& links) }

/-- `SET_QUEUE_FLAG`. -/
def ClientContext.setQueueFlag (ccon : ClientContext) (lav : BitVec 32) : ClientContext :=
  { ccon with queueOff := decide (lav ≠ 0) }

/-- `SET_TIMEOUT`. -/
def ClientContext.setTimeout (ccon : ClientContext) (lav : BitVec 32) : ClientContext :=
  { ccon with timeout := lav }

section Driver

variable {Client : Type*} [DecidableEq Client]

/-- The connections of a client as the lists of the module have them. -/
def ClientContext.Connections (ccon : ClientContext) (m : Skel.ModConn Client) (c : Client) :
    Prop :=
  ∀ j : Fin 32, ccon.connected.getLsbD j = true ↔ c ∈ m.clients j

theorem ClientContext.Connections.connect {ccon : ClientContext} {m : Skel.ModConn Client}
    {c : Client} (h : ccon.Connections m c) (conMask links : BitVec 32) :
    (ccon.connect conMask links).Connections
      (m.connect c conMask (fun j => links.getLsbD j)) c := by
  intro j
  have hbit := h j
  rw [Skel.ModConn.clients_connect, Skel.ModConn.connectList]
  simp only [ClientContext.connect, BitVec.getLsbD_or, BitVec.getLsbD_and, Bool.or_eq_true,
    Bool.and_eq_true]
  split
  · rename_i hnew
    exact iff_of_true (Or.inr ⟨hnew.1, hnew.2.2⟩) List.mem_cons_self
  · rename_i hold
    rw [hbit]
    constructor
    · rintro (hmem | ⟨hmask, hlink⟩)
      · exact hmem
      · by_contra hnot
        exact hold ⟨hmask, hnot, hlink⟩
    · exact Or.inl

end Driver

/-! ### The library -/

/-- The arguments of `MttLibWait`. -/
structure WaitCall where
  mask : BitVec 32
  noqueue : BitVec 32
  tmo : BitVec 32
  deriving DecidableEq, Repr

/-- The answers to the requests of a wait, that to `CONNECT` with the links the driver gets. -/
structure WaitAnswers where
  connect : Option (BitVec 32)
  queueFlag : Bool
  timeout : Bool
  deriving DecidableEq, Repr

/-- The variables of the library; `mtt` is the open descriptor. -/
structure MttLib where
  mtt : Option ClientContext
  connected : BitVec 32
  noqueueflag : BitVec 32
  timeout : BitVec 32
  deriving DecidableEq, Repr

def MttLib.start : MttLib where
  mtt := none
  connected := 0
  noqueueflag := 0
  timeout := 200

/-- A request on the open descriptor. -/
def MttLib.ioctl (lib : MttLib) (f : ClientContext → ClientContext) : MttLib :=
  { lib with mtt := lib.mtt.map f }

def MttLib.close (lib : MttLib) : MttLib := { lib with mtt := none }

/-- How a wait comes to its end: it returns, or it gets as far as the read. -/
inductive WaitEnd
  | returns (value : BitVec 32)
  | reads
  deriving DecidableEq, Repr

def MttLibErrorIO : BitVec 32 := 3

/-- The connection of a wait; `none` if the request fails. -/
def waitConnect (lib : MttLib) (call : WaitCall) (ans : WaitAnswers) : Option MttLib :=
  if call.mask &&& lib.connected ≠ call.mask then
    ans.connect.map (fun links =>
      { lib.ioctl (fun c => c.connect call.mask links) with
        connected := lib.connected ||| call.mask })
  else some lib

/-- The queue flag of a wait. -/
def waitQueueFlag (lib : MttLib) (call : WaitCall) (ans : WaitAnswers) : Option MttLib :=
  if call.noqueue ≠ lib.noqueueflag then
    if ans.queueFlag then
      some { lib.ioctl (fun c => c.setQueueFlag call.noqueue) with noqueueflag := call.noqueue }
    else none
  else some lib

/-- The timeout of a wait: what is sent is the one remembered. -/
def waitTimeout (lib : MttLib) (call : WaitCall) (ans : WaitAnswers) : Option MttLib :=
  if call.tmo ≠ lib.timeout then
    if ans.timeout then
      some { lib.ioctl (fun c => c.setTimeout lib.timeout) with timeout := call.tmo }
    else none
  else some lib

/-- `MttLibWait` up to its read. -/
def mttLibWait (lib : MttLib) (call : WaitCall) (ans : WaitAnswers) : MttLib × WaitEnd :=
  if lib.mtt = none then (lib, WaitEnd.returns 0)
  else
    match waitConnect lib call ans with
    | none => (lib, WaitEnd.returns 0)
    | some lib =>
      match waitQueueFlag lib call ans with
      | none => (lib, WaitEnd.returns MttLibErrorIO)
      | some lib =>
        match waitTimeout lib call ans with
        | none => (lib, WaitEnd.returns MttLibErrorIO)
        | some lib => (lib, WaitEnd.reads)

/-- The loop around the read: what is returned, or `none` if it reads again.  A read that fails or
has nothing is `none`. -/
def readLoop (mask : BitVec 32) : Option (BitVec 32) → Option (BitVec 32)
  | none => some 0
  | some conMask =>
    if mask = 0 then some conMask
    else if mask &&& conMask ≠ 0 then some conMask
    else none

/-! ### Initialisation -/

def MttDrvrIntPPS : BitVec 32 := 0x1000000
def MttDrvrStatusENABLED : BitVec 32 := 0x01
def MttDrvrStatusUTC_SET : BitVec 32 := 0x02
def MttDrvrStatusUTC_SENDING_ON : BitVec 32 := 0x04

/-- What `MttLibInit` finds: whether the path is well formed, whether a device opens, the status if
it can be read, and whether the requests succeed. -/
structure InitAnswers where
  path : Bool
  opens : Bool
  sysldr : Bool
  status : Option (BitVec 32)
  outEnable : Bool
  wait : WaitAnswers
  utc : Bool
  utcSending : Bool
  deriving DecidableEq, Repr

/-- The wait for the next second. -/
def initCall : WaitCall where
  mask := MttDrvrIntPPS
  noqueue := 0
  tmo := 200

/-- Where the caller is. -/
inductive Phase
  | idle
  | waits (call : WaitCall)
  | initWaits (ans : InitAnswers) (stat : BitVec 32)
  deriving DecidableEq, Repr

/-- The last part of `MttLibInit`. -/
def initSending (lib : MttLib) (ans : InitAnswers) (stat : BitVec 32) : MttLib :=
  if (ans.sysldr = true ∨ stat &&& MttDrvrStatusUTC_SENDING_ON = 0) ∧ ans.utcSending = false then
    lib.close
  else lib

/-- `MttLibInit` after its wait has returned `msk`. -/
def initUtc (lib : MttLib) (ans : InitAnswers) (stat msk : BitVec 32) : MttLib :=
  if msk &&& MttDrvrIntPPS ≠ 0 then
    if ans.utc then initSending lib ans stat else lib.close
  else lib.close

/-- `MttLibInit`, up to its read if it comes to that. -/
def mttLibInit (lib : MttLib) (ans : InitAnswers) : MttLib × Phase :=
  if ans.path = false then (lib, Phase.idle)
  else if ans.opens = false then (lib.close, Phase.idle)
  else
    let lib := { lib with mtt := some clientInit }
    match ans.status with
    | none => (lib.close, Phase.idle)
    | some stat =>
      if (ans.sysldr = true ∨ stat &&& MttDrvrStatusENABLED = 0) ∧ ans.outEnable = false then
        (lib.close, Phase.idle)
      else if ans.sysldr = true ∨ stat &&& MttDrvrStatusUTC_SET = 0 then
        match mttLibWait lib initCall ans.wait with
        | (lib, WaitEnd.reads) => (lib, Phase.initWaits ans stat)
        | (lib, WaitEnd.returns msk) => (initUtc lib ans stat msk, Phase.idle)
      else (initSending lib ans stat, Phase.idle)

/-! ### The library and its reads -/

/-- The library and where its caller is. -/
structure LibState where
  lib : MttLib
  phase : Phase
  deriving DecidableEq, Repr

/-- The calls of the library, and the end of a read with the interrupts it has got. -/
inductive LibLabel
  | init (ans : InitAnswers)
  | wait (call : WaitCall) (ans : WaitAnswers)
  | read (got : Option (BitVec 32))
  deriving DecidableEq, Repr

def libStep (s : LibState) : LibLabel → Option LibState
  | .init ans =>
    if s.phase = Phase.idle then
      some ⟨(mttLibInit s.lib ans).1, (mttLibInit s.lib ans).2⟩
    else none
  | .wait call ans =>
    if s.phase = Phase.idle then
      match mttLibWait s.lib call ans with
      | (lib, WaitEnd.reads) => some ⟨lib, Phase.waits call⟩
      | (lib, WaitEnd.returns _) => some ⟨lib, Phase.idle⟩
    else none
  | .read got =>
    match s.phase with
    | Phase.idle => none
    | Phase.waits call =>
      match readLoop call.mask got with
      | none => some s
      | some _ => some ⟨s.lib, Phase.idle⟩
    | Phase.initWaits ans stat =>
      match readLoop initCall.mask got with
      | none => some s
      | some msk => some ⟨initUtc s.lib ans stat msk, Phase.idle⟩

/-- Any calls with any arguments and any answers. -/
def mttSystem : System LibState LibLabel :=
  System.ofFun (fun s => s = ⟨MttLib.start, Phase.idle⟩) libStep

/-! ### What a read relies on -/

/-- The wait that reads. -/
def Phase.call : Phase → Option WaitCall
  | .idle => none
  | .waits call => some call
  | .initWaits _ _ => some initCall

/-- The driver has what the call asks for, and all connections that are remembered. -/
structure InStep (lib : MttLib) (ccon : ClientContext) (call : WaitCall) : Prop where
  timeout : ccon.timeout = call.tmo
  queueFlag : ccon.queueOff = decide (call.noqueue ≠ 0)
  connected : lib.connected &&& ~~~ccon.connected = 0

/-- **What should hold whenever the library reads.** -/
def Coherent (s : LibState) : Prop :=
  ∀ call, s.phase.call = some call → ∃ ccon, s.lib.mtt = some ccon ∧ InStep s.lib ccon call

/-- A wait gets as far as the read: the library is open and no request fails. -/
def GetsToRead (lib : MttLib) (call : WaitCall) (ans : WaitAnswers) : Prop :=
  lib.mtt ≠ none ∧ (call.mask &&& lib.connected ≠ call.mask → ans.connect ≠ none) ∧
    (call.noqueue ≠ lib.noqueueflag → ans.queueFlag = true) ∧
    (call.tmo ≠ lib.timeout → ans.timeout = true)

/-- The interrupts that a wait has the driver connect. -/
def granted (lib : MttLib) (call : WaitCall) (ans : WaitAnswers) : BitVec 32 :=
  if call.mask &&& lib.connected ≠ call.mask then call.mask &&& ans.connect.getD 0 else 0

/-- What a wait that gets to its read has to find: its timeout remembered and with the driver, the
queue flag too unless it differs from the one remembered, and the driver connected to what is
remembered but for what it connects now. -/
def MeetsWait (lib : MttLib) (call : WaitCall) (ans : WaitAnswers) : Prop :=
  GetsToRead lib call ans → ∃ ccon, lib.mtt = some ccon ∧
    call.tmo = lib.timeout ∧ ccon.timeout = lib.timeout ∧
    (call.noqueue = lib.noqueueflag → ccon.queueOff = decide (lib.noqueueflag ≠ 0)) ∧
    (lib.connected ||| call.mask) &&& ~~~(ccon.connected ||| granted lib call ans) = 0

/-- An initialisation comes to its wait. -/
def InitWaits (ans : InitAnswers) : Prop :=
  ans.path = true ∧ ans.opens = true ∧ ∃ stat ∈ ans.status,
    ¬ ((ans.sysldr = true ∨ stat &&& MttDrvrStatusENABLED = 0) ∧ ans.outEnable = false) ∧
    (ans.sysldr = true ∨ stat &&& MttDrvrStatusUTC_SET = 0)

/-- The condition on the calls: an initialisation waits with a new descriptor. -/
def MeetsCall (s : LibState) : LibLabel → Prop
  | .init ans =>
    InitWaits ans → MeetsWait { s.lib with mtt := some clientInit } initCall ans.wait
  | .wait call ans => MeetsWait s.lib call ans
  | .read _ => True

/-! ### What a wait does -/

section Wait

variable {lib : MttLib} {call : WaitCall} {ans : WaitAnswers} {ccon : ClientContext}

/-- The library when a wait reads. -/
def readsWith (lib : MttLib) (ccon : ClientContext) (call : WaitCall) (ans : WaitAnswers) :
    MttLib where
  mtt := some
    { timeout := if call.tmo = lib.timeout then ccon.timeout else lib.timeout
      queueOff := if call.noqueue = lib.noqueueflag then ccon.queueOff
        else decide (call.noqueue ≠ 0)
      connected := ccon.connected ||| granted lib call ans }
  connected := lib.connected ||| call.mask
  noqueueflag := call.noqueue
  timeout := call.tmo

theorem or_of_and_eq {x m : BitVec 32} (h : m &&& x = m) : x ||| m = x := by
  rw [← h, BitVec.and_comm]
  ext i hi
  simp only [BitVec.getElem_or, BitVec.getElem_and]
  cases x[i] <;> rfl

/-- The library after the connection. -/
def connectedWith (lib : MttLib) (ccon : ClientContext) (call : WaitCall) (ans : WaitAnswers) :
    MttLib :=
  { lib with
    mtt := some { ccon with connected := ccon.connected ||| granted lib call ans }
    connected := lib.connected ||| call.mask }

theorem waitConnect_eq (hmtt : lib.mtt = some ccon)
    (hconnect : call.mask &&& lib.connected ≠ call.mask → ans.connect ≠ none) :
    waitConnect lib call ans = some (connectedWith lib ccon call ans) := by
  unfold waitConnect connectedWith granted
  by_cases hmask : call.mask &&& lib.connected = call.mask
  · have hnone : ccon.connected ||| (0 : BitVec 32) = ccon.connected := BitVec.or_zero
    rw [if_neg (not_not.mpr hmask), if_neg (not_not.mpr hmask), or_of_and_eq hmask, hnone, ← hmtt]
  · obtain ⟨links, hlinks⟩ := Option.ne_none_iff_exists'.mp (hconnect hmask)
    rw [if_pos hmask, if_pos hmask, hlinks]
    simp [MttLib.ioctl, hmtt, ClientContext.connect]

theorem waitQueueFlag_eq (hmtt : lib.mtt = some ccon)
    (hqueue : call.noqueue ≠ lib.noqueueflag → ans.queueFlag = true) :
    waitQueueFlag lib call ans = some
      { lib with
        mtt := some
          { ccon with
            queueOff := if call.noqueue = lib.noqueueflag then ccon.queueOff
              else decide (call.noqueue ≠ 0) }
        noqueueflag := call.noqueue } := by
  unfold waitQueueFlag
  by_cases hflag : call.noqueue = lib.noqueueflag
  · rw [if_neg (not_not.mpr hflag), if_pos hflag, hflag, ← hmtt]
  · rw [if_pos hflag, if_pos (hqueue hflag), if_neg hflag]
    simp [MttLib.ioctl, hmtt, ClientContext.setQueueFlag]

theorem waitTimeout_eq (hmtt : lib.mtt = some ccon)
    (htimeout : call.tmo ≠ lib.timeout → ans.timeout = true) :
    waitTimeout lib call ans = some
      { lib with
        mtt := some
          { ccon with
            timeout := if call.tmo = lib.timeout then ccon.timeout else lib.timeout }
        timeout := call.tmo } := by
  unfold waitTimeout
  by_cases htmo : call.tmo = lib.timeout
  · rw [if_neg (not_not.mpr htmo), if_pos htmo, htmo, ← hmtt]
  · rw [if_pos htmo, if_pos (htimeout htmo), if_neg htmo]
    simp [MttLib.ioctl, hmtt, ClientContext.setTimeout]

theorem mttLibWait_reads (hmtt : lib.mtt = some ccon) (hget : GetsToRead lib call ans) :
    mttLibWait lib call ans = (readsWith lib ccon call ans, WaitEnd.reads) := by
  obtain ⟨hopen, hconnect, hqueue, htimeout⟩ := hget
  have hflag : waitQueueFlag (connectedWith lib ccon call ans) call ans = some _ :=
    waitQueueFlag_eq rfl hqueue
  rw [mttLibWait, if_neg hopen, waitConnect_eq hmtt hconnect]
  dsimp only
  rw [hflag]
  dsimp only
  rw [waitTimeout_eq rfl (by exact htimeout)]
  rfl

theorem mttLibWait_returns (hget : ¬ GetsToRead lib call ans) :
    ∃ v, (mttLibWait lib call ans).2 = WaitEnd.returns v ∧
      (mttLibWait lib call ans).1.timeout = lib.timeout ∧
      (mttLibWait lib call ans).1.mtt.map ClientContext.timeout =
        lib.mtt.map ClientContext.timeout := by
  cases hmtt : lib.mtt with
  | none =>
    rw [mttLibWait, if_pos hmtt]
    exact ⟨0, rfl, rfl, congrArg _ hmtt⟩
  | some ccon =>
    have hopen : lib.mtt ≠ none := by
      rw [hmtt]
      exact Option.some_ne_none _
    by_cases hconnect : call.mask &&& lib.connected ≠ call.mask → ans.connect ≠ none
    · rw [mttLibWait, if_neg hopen, waitConnect_eq hmtt hconnect]
      dsimp only
      by_cases hqueue : call.noqueue ≠ lib.noqueueflag → ans.queueFlag = true
      · have hflag : waitQueueFlag (connectedWith lib ccon call ans) call ans = some _ :=
          waitQueueFlag_eq rfl hqueue
        rw [hflag]
        have htimeout : ¬ (call.tmo ≠ lib.timeout → ans.timeout = true) := fun h =>
          hget ⟨hopen, hconnect, hqueue, h⟩
        obtain ⟨htmo, hfail⟩ := Classical.not_imp.mp htimeout
        dsimp only
        rw [waitTimeout, if_pos (by exact htmo), if_neg hfail]
        exact ⟨ MttLibErrorIO, rfl, rfl, rfl⟩
      · obtain ⟨hflag, hfail⟩ := Classical.not_imp.mp hqueue
        rw [waitQueueFlag, if_pos (by exact hflag), if_neg hfail]
        exact ⟨ MttLibErrorIO, rfl, rfl, rfl⟩
    · obtain ⟨hmask, hfail⟩ := Classical.not_imp.mp hconnect
      rw [mttLibWait, if_neg hopen, waitConnect, if_pos hmask, not_not.mp hfail]
      exact ⟨0, rfl, rfl, congrArg _ hmtt⟩

theorem inStep_readsWith (hmtt : lib.mtt = some ccon) (hget : GetsToRead lib call ans)
    {ccon' : ClientContext} (hreads : (readsWith lib ccon call ans).mtt = some ccon') :
    InStep (readsWith lib ccon call ans) ccon' call ↔ MeetsWait lib call ans := by
  cases hreads
  have htmo : (if call.tmo = lib.timeout then ccon.timeout else lib.timeout) = call.tmo ↔
      call.tmo = lib.timeout ∧ ccon.timeout = lib.timeout := by
    split
    · rename_i heq
      rw [heq]
      tauto
    · rename_i hne
      exact iff_of_false (fun h => hne h.symm) (fun h => hne h.1)
  have hflag : (if call.noqueue = lib.noqueueflag then ccon.queueOff
      else decide (call.noqueue ≠ 0)) = decide (call.noqueue ≠ 0) ↔
        (call.noqueue = lib.noqueueflag → ccon.queueOff = decide (lib.noqueueflag ≠ 0)) := by
    split
    · rename_i heq
      rw [heq]
      exact ⟨fun h _ => h, fun h => h rfl⟩
    · rename_i hne
      exact iff_of_true rfl (fun h => absurd h hne)
  constructor
  · rintro ⟨htimeout, hqueue, hconnected⟩ -
    obtain ⟨h1, h2⟩ := htmo.mp htimeout
    exact ⟨ccon, hmtt, h1, h2, hflag.mp hqueue, hconnected⟩
  · intro hmeets
    obtain ⟨c, hc, h1, h2, h3, h4⟩ := hmeets hget
    obtain rfl : c = ccon := Option.some.inj (hc.symm.trans hmtt)
    exact ⟨htmo.mpr ⟨h1, h2⟩, hflag.mpr h3, h4⟩

end Wait

/-! ### Runs -/

theorem coherent_idle (lib : MttLib) : Coherent ⟨lib, Phase.idle⟩ := by
  intro call hcall
  cases hcall

theorem coherent_reads {lib : MttLib} {call : WaitCall} {ans : WaitAnswers} {ccon : ClientContext}
    {phase : Phase} (hphase : phase.call = some call) (hmtt : lib.mtt = some ccon)
    (hget : GetsToRead lib call ans) :
    Coherent ⟨readsWith lib ccon call ans, phase⟩ ↔ MeetsWait lib call ans := by
  constructor
  · intro h
    obtain ⟨ccon', hccon, hin⟩ := h call hphase
    exact (inStep_readsWith hmtt hget hccon).mp hin
  · intro h call' hcall'
    obtain rfl : call = call' := Option.some.inj (hphase.symm.trans hcall')
    exact ⟨_, rfl, (inStep_readsWith hmtt hget rfl).mpr h⟩

theorem coherent_wait {s s' : LibState} {call : WaitCall} {ans : WaitAnswers}
    (h : libStep s (LibLabel.wait call ans) = some s') :
    Coherent s' ↔ MeetsWait s.lib call ans := by
  rw [libStep] at h
  split at h
  · by_cases hget : GetsToRead s.lib call ans
    · obtain ⟨ccon, hmtt⟩ := Option.ne_none_iff_exists'.mp hget.1
      rw [mttLibWait_reads hmtt hget] at h
      cases h
      exact coherent_reads rfl hmtt hget
    · obtain ⟨v, hv, -⟩ := mttLibWait_returns hget
      have hidle : s' = ⟨(mttLibWait s.lib call ans).1, Phase.idle⟩ := by
        revert h hv
        cases mttLibWait s.lib call ans
        rintro h rfl
        exact (Option.some.inj h).symm
      rw [hidle]
      exact iff_of_true (coherent_idle _) (fun h => absurd h hget)
  · cases h

theorem initSending_cases (lib : MttLib) (ans : InitAnswers) (stat : BitVec 32) :
    initSending lib ans stat = lib ∨ initSending lib ans stat = lib.close := by
  unfold initSending
  split
  · exact Or.inr rfl
  · exact Or.inl rfl

theorem initUtc_cases (lib : MttLib) (ans : InitAnswers) (stat msk : BitVec 32) :
    initUtc lib ans stat msk = lib ∨ initUtc lib ans stat msk = lib.close := by
  unfold initUtc
  split
  · split
    · exact initSending_cases lib ans stat
    · exact Or.inr rfl
  · exact Or.inr rfl

theorem mttLibInit_idle (lib : MttLib) {ans : InitAnswers} (h : ¬ InitWaits ans) :
    (mttLibInit lib ans).2 = Phase.idle ∧ (mttLibInit lib ans).1 ∈
      [lib, lib.close, { lib with mtt := some clientInit }] := by
  unfold mttLibInit
  by_cases hpath : ans.path = false
  · simp [hpath]
  by_cases hopens : ans.opens = false
  · simp [hpath, hopens]
  rw [if_neg hpath, if_neg hopens]
  dsimp only
  cases hstat : ans.status with
  | none => exact ⟨rfl, by simp [MttLib.close]⟩
  | some stat =>
    dsimp only
    by_cases henable : (ans.sysldr = true ∨ stat &&& MttDrvrStatusENABLED = 0) ∧
        ans.outEnable = false
    · rw [if_pos henable]
      exact ⟨rfl, by simp [MttLib.close]⟩
    by_cases hset : ans.sysldr = true ∨ stat &&& MttDrvrStatusUTC_SET = 0
    · exact absurd ⟨Bool.eq_true_of_not_eq_false hpath, Bool.eq_true_of_not_eq_false hopens, stat,
        hstat, henable, hset⟩ h
    rw [if_neg henable, if_neg hset]
    refine ⟨rfl, ?_⟩
    obtain hend | hend := initSending_cases { lib with mtt := some clientInit } ans stat
    · rw [hend]
      simp
    · rw [hend]
      simp [MttLib.close]

theorem mttLibInit_waits (lib : MttLib) {ans : InitAnswers} (h : InitWaits ans) :
    ∃ stat, mttLibInit lib ans =
      match mttLibWait { lib with mtt := some clientInit } initCall ans.wait with
      | (lib, WaitEnd.reads) => (lib, Phase.initWaits ans stat)
      | (lib, WaitEnd.returns msk) => (initUtc lib ans stat msk, Phase.idle) := by
  obtain ⟨hpath, hopens, stat, hstat, henable, hset⟩ := h
  refine ⟨stat, ?_⟩
  unfold mttLibInit
  rw [if_neg (by simp [hpath]), if_neg (by simp [hopens]), Option.mem_def.mp hstat]
  dsimp only
  rw [if_neg henable, if_pos hset]

theorem mttLibInit_reads {lib : MttLib} {ans : InitAnswers} (h : InitWaits ans)
    (hget : GetsToRead { lib with mtt := some clientInit } initCall ans.wait) :
    ∃ stat, mttLibInit lib ans = (readsWith { lib with mtt := some clientInit } clientInit initCall
      ans.wait, Phase.initWaits ans stat) := by
  obtain ⟨stat, hinit⟩ := mttLibInit_waits lib h
  rw [mttLibWait_reads rfl hget] at hinit
  exact ⟨stat, hinit⟩

theorem mttLibInit_returns {lib : MttLib} {ans : InitAnswers} (h : InitWaits ans)
    (hget : ¬ GetsToRead { lib with mtt := some clientInit } initCall ans.wait) :
    ∃ lib', lib'.timeout = lib.timeout ∧
      (lib'.mtt.map ClientContext.timeout = some clientInit.timeout) ∧
      (mttLibInit lib ans = (lib', Phase.idle) ∨
        mttLibInit lib ans = (lib'.close, Phase.idle)) := by
  obtain ⟨stat, hinit⟩ := mttLibInit_waits lib h
  obtain ⟨v, hv, htimeout, hdriver⟩ := mttLibWait_returns hget
  generalize mttLibWait { lib with mtt := some clientInit } initCall ans.wait = r at *
  obtain ⟨lib', e⟩ := r
  dsimp only at hv htimeout hdriver
  subst hv
  refine ⟨lib', htimeout, hdriver, ?_⟩
  obtain hend | hend := initUtc_cases lib' ans stat v
  · exact Or.inl (hinit.trans (congrArg (fun l => (l, Phase.idle)) hend))
  · exact Or.inr (hinit.trans (congrArg (fun l => (l, Phase.idle)) hend))

theorem coherent_init {s s' : LibState} {ans : InitAnswers}
    (h : libStep s (LibLabel.init ans) = some s') :
    Coherent s' ↔ MeetsCall s (LibLabel.init ans) := by
  have hs' : s' = ⟨(mttLibInit s.lib ans).1, (mttLibInit s.lib ans).2⟩ := by
    rw [libStep] at h
    split at h
    · exact (Option.some.inj h).symm
    · cases h
  rw [hs', MeetsCall]
  by_cases hwaits : InitWaits ans
  · by_cases hget : GetsToRead { s.lib with mtt := some clientInit } initCall ans.wait
    · obtain ⟨stat, hinit⟩ := mttLibInit_reads hwaits hget
      rw [hinit, coherent_reads rfl rfl hget]
      exact ⟨fun h _ => h, fun h => h hwaits⟩
    · obtain ⟨lib', -, -, hinit | hinit⟩ := mttLibInit_returns hwaits hget
      · rw [hinit]
        exact iff_of_true (coherent_idle _) (fun _ h => absurd h hget)
      · rw [hinit]
        exact iff_of_true (coherent_idle _) (fun _ h => absurd h hget)
  · rw [(mttLibInit_idle s.lib hwaits).1]
    exact iff_of_true (coherent_idle _) (fun h => absurd h hwaits)

/-- Before any call has read: the library has its first timeout, and the driver its own. -/
structure NeverRead (s : LibState) : Prop where
  phase : s.phase = Phase.idle
  timeout : s.lib.timeout = 200
  driver : ∀ ccon, s.lib.mtt = some ccon → ccon.timeout = SkelDrvrDEFAULT_CLIENT_TIMEOUT

namespace NeverRead

theorem not_getsToRead {lib : MttLib} {call : WaitCall} {ans : WaitAnswers}
    (htimeout : lib.timeout = 200)
    (hdriver : ∀ ccon, lib.mtt = some ccon → ccon.timeout = SkelDrvrDEFAULT_CLIENT_TIMEOUT)
    (hmeets : MeetsWait lib call ans) : ¬ GetsToRead lib call ans := by
  intro hget
  obtain ⟨ccon, hmtt, -, hsame, -⟩ := hmeets hget
  rw [hdriver ccon hmtt, htimeout] at hsame
  revert hsame
  decide

theorem close {lib : MttLib} (htimeout : lib.timeout = 200) :
    NeverRead ⟨lib.close, Phase.idle⟩ where
  phase := rfl
  timeout := htimeout
  driver ccon h := by cases h

theorem of_timeouts {lib : MttLib} (htimeout : lib.timeout = 200)
    (hdriver : ∀ t ∈ lib.mtt.map ClientContext.timeout, t = SkelDrvrDEFAULT_CLIENT_TIMEOUT) :
    NeverRead ⟨lib, Phase.idle⟩ where
  phase := rfl
  timeout := htimeout
  driver ccon h := hdriver ccon.timeout (Option.mem_map_of_mem _ h)

theorem step {s s' : LibState} {a : LibLabel} (h : NeverRead s) (hmeets : MeetsCall s a)
    (hstep : libStep s a = some s') : NeverRead s' := by
  cases a with
  | init ans =>
    rw [libStep, if_pos h.phase, Option.some.injEq] at hstep
    subst hstep
    by_cases hwaits : InitWaits ans
    · have hget : ¬ GetsToRead { s.lib with mtt := some clientInit } initCall ans.wait := by
        refine not_getsToRead h.timeout ?_ (hmeets hwaits)
        intro ccon hccon
        cases hccon
        rfl
      obtain ⟨lib', htimeout, hdriver, hinit | hinit⟩ := mttLibInit_returns hwaits hget
      · rw [hinit]
        refine of_timeouts (htimeout.trans h.timeout) ?_
        rw [hdriver]
        rintro t ht
        cases ht
        rfl
      · rw [hinit]
        exact close (htimeout.trans h.timeout)
    · obtain ⟨hphase, hlib⟩ := mttLibInit_idle s.lib hwaits
      simp only [List.mem_cons, List.not_mem_nil, or_false] at hlib
      rw [hphase]
      obtain hlib | hlib | hlib := hlib
      · rw [hlib]
        exact ⟨rfl, h.timeout, h.driver⟩
      · rw [hlib]
        exact close h.timeout
      · rw [hlib]
        refine ⟨rfl, h.timeout, ?_⟩
        intro ccon hccon
        cases hccon
        rfl
  | wait call ans =>
    have hget := not_getsToRead h.timeout h.driver hmeets
    obtain ⟨v, hv, htimeout, hdriver⟩ := mttLibWait_returns hget
    rw [libStep, if_pos h.phase] at hstep
    generalize mttLibWait s.lib call ans = r at *
    obtain ⟨lib', e⟩ := r
    dsimp only at hv htimeout hdriver
    subst hv
    cases hstep
    refine of_timeouts (htimeout.trans h.timeout) ?_
    rw [hdriver]
    intro t ht
    obtain ⟨ccon, hccon, rfl⟩ := Option.mem_map.mp ht
    exact h.driver ccon hccon
  | read got =>
    rw [libStep, h.phase] at hstep
    cases hstep

theorem of_reach {s : LibState} (h : mttSystem.ReachUnder MeetsCall s) : NeverRead s := by
  refine h.invariant ?_ ?_
  · rintro s rfl
    exact of_timeouts rfl (fun t ht => by cases ht)
  · intro s a s' hs hmeets hstep
    exact hs.step hmeets hstep

end NeverRead

/-- **When the library and the driver agree.**  A run of calls that all meet the condition is right
throughout, but none of its calls ever reads; and in any state, a call ends in a state that is right
exactly if it meets the condition. -/
theorem coherent_of_reach (s : LibState) :
    (mttSystem.ReachUnder MeetsCall s → Coherent s ∧ s.phase = Phase.idle) ∧
    (∀ a s', libStep s a = some s' → (∀ got, a ≠ LibLabel.read got) →
      (Coherent s' ↔ MeetsCall s a)) := by
  constructor
  · intro h
    have hnever := NeverRead.of_reach h
    refine ⟨?_, hnever.phase⟩
    intro call hcall
    rw [hnever.phase] at hcall
    cases hcall
  · intro a s' hstep hcall
    cases a with
    | init ans => exact coherent_init hstep
    | wait call ans => exact coherent_wait hstep
    | read got => exact absurd rfl (hcall got)

/-- An initialisation of a module that has its time. -/
def initSet : InitAnswers where
  path := true
  opens := true
  sysldr := false
  status := some 7
  outEnable := true
  wait := ⟨some 0, true, true⟩
  utc := true
  utcSending := true

/-- A wait of 20 seconds for any interrupt. -/
def wait2000 : WaitCall := ⟨0, 0, 2000⟩

/-- Answers that grant everything. -/
def grants : WaitAnswers := ⟨some 0xFFFFFFFF, true, true⟩

/-- The library after a wait of 20 seconds, opened once more. -/
def openedAgain : LibState where
  lib := ⟨some clientInit, 0, 0, 2000⟩
  phase := Phase.idle

/-- A connection that fails in a run that is right, and the same wait of 20 seconds a second time,
with a new descriptor in between. -/
theorem coherent_failing_and_again :
    Coherent ⟨⟨some clientInit, 0, 0, 200⟩, Phase.idle⟩ ∧
      (mttSystem.Reach openedAgain ∧ ∃ s', libStep openedAgain (LibLabel.wait wait2000 grants) =
        some s' ∧ s'.phase = Phase.waits wait2000 ∧ Coherent s') := by
  have hinit : mttSystem.init ⟨MttLib.start, Phase.idle⟩ := rfl
  have hopened : mttSystem.ReachUnder MeetsCall ⟨⟨some clientInit, 0, 0, 200⟩, Phase.idle⟩ :=
    (System.ReachUnder.init hinit).step (a := LibLabel.init initSet)
      (by
        rintro ⟨-, -, stat, hstat, -, hset⟩
        cases hstat
        exact absurd hset (by decide))
      (show libStep _ _ = some _ from by decide)
  have hfailed : mttSystem.ReachUnder MeetsCall ⟨⟨some clientInit, 0, 0, 200⟩, Phase.idle⟩ :=
    hopened.step (a := LibLabel.wait ⟨1, 0, 300⟩ ⟨none, true, true⟩)
      (fun hget => absurd rfl (hget.2.1 (by decide)))
      (show libStep _ _ = some _ from by decide)
  refine ⟨((coherent_of_reach _).1 hfailed).1, ?_,
    ⟨readsWith openedAgain.lib clientInit wait2000 grants, Phase.waits wait2000⟩, by decide, rfl, ?_⟩
  · exact (System.Reach.init hinit).runFun
      [LibLabel.init initSet, LibLabel.wait wait2000 grants, LibLabel.read (some 1),
        LibLabel.init initSet] (by decide)
  · refine ((coherent_of_reach openedAgain).2 (LibLabel.wait wait2000 grants) _ (by decide)
      (fun got h => by cases h)).mpr ?_
    intro _
    exact ⟨clientInit, rfl, by decide, by decide, fun _ => by decide, by decide⟩

/-- **A wait with the wrong timeout**: one second is asked for, the driver is told two. -/
theorem firstWait_not_coherent : ∃ s, mttSystem.Reach s ∧ ¬ Coherent s := by
  refine ⟨⟨⟨some ⟨200, false, 1⟩, 1, 0, 100⟩, Phase.waits ⟨1, 0, 100⟩⟩, ?_, ?_⟩
  · exact (System.Reach.init rfl).runFun
      [LibLabel.init initSet, LibLabel.wait ⟨1, 0, 100⟩ grants] (by decide)
  · intro h
    obtain ⟨ccon, hmtt, hin⟩ := h ⟨1, 0, 100⟩ rfl
    cases hmtt
    have htimeout := hin.timeout
    revert htimeout
    decide

end KernelModules.Mttn
