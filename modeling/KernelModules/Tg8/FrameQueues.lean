import KernelModules.Lib.Transition
import Mathlib.Tactic

/-!
# The frame queues of the TG8 firmware

The interrupt routine of a TG8 module puts every timing frame into two linear buffers, that of the
AT-process and that of the IMM-process.  Either process takes its entries from `Bottom`, and moves
on by itself while there is more than one, and else in the trap at its end, which rewinds an empty
buffer.

* `FrameQueue` is one buffer with its process, and what it was given and has served so far;
* `Queues` are the two with the interrupt routine between them;
* `sound_of_reachUnder` holds what both rely on over every run of `InRoom` steps, in which no frame
  is put behind the end of a buffer; any other step puts one there.

Left out are what the processes do with a frame, the counts for the host, and the host that clears
the alarms.  A frame is one that the interrupt routine has decided to queue.
-/

namespace KernelModules.Tg8.Firmware

open Function KernelModules.Lib

/-- `QUEUE_SIZE`. -/
def queueSize : ℕ := 32

/-- The entries of `aQueue` in the dual-port memory. -/
def aQueueSize : ℕ := 8

/-- Where a process is with its entry. -/
inductive ProcPhase
  | idle
  | start
  /-- it has read the entry -/
  | busy
  /-- it has counted the entry off, and not moved `Bottom` -/
  | moving
  /-- it has seen that there is no more, and has not entered the trap -/
  | done
  deriving DecidableEq, Repr

/-- `Queue`, with pointers as indices into the buffer; and whether a frame was stored behind it, the
frames put into it and those taken from it. -/
structure FrameQueue (Frame : Type*) where
  bottom : ℕ
  top : ℕ
  size : ℕ
  buffer : ℕ → Frame
  phase : ProcPhase
  overrun : Bool
  accepted : List Frame
  served : List Frame

/-- What a process does with its queue. -/
inductive ProcStep
  | fetch
  | leave
  | move
  | complete
  deriving DecidableEq, Repr

section Queues

variable {Frame : Type*}

/-- A frame is put into the queue. -/
def FrameQueue.accept (q : FrameQueue Frame) (f : Frame) : FrameQueue Frame :=
  { q with
    size := q.size + 1
    top := q.top + 1
    buffer := if q.top < queueSize then update q.buffer q.top f else q.buffer
    overrun := q.overrun || decide (queueSize ≤ q.top)
    accepted := q.accepted ++ [f] }

/-- The steps of a process: it reads the entry, looks for a next one, moves to that, or ends in
`AtCompletion` or `ImmCompletion`. -/
def FrameQueue.proc (q : FrameQueue Frame) : ProcStep → Option (FrameQueue Frame)
  | .fetch =>
    if q.phase = .start then
      some { q with phase := .busy, served := q.served ++ [q.buffer q.bottom] }
    else none
  | .leave =>
    if q.phase = .busy then
      if 1 < q.size then some { q with size := q.size - 1, phase := .moving }
      else some { q with phase := .done }
    else none
  | .move =>
    if q.phase = .moving then some { q with bottom := q.bottom + 1, phase := .start } else none
  | .complete =>
    if q.phase = .done then
      if q.size - 1 = 0 then some { q with size := 0, top := 0, bottom := 0, phase := .idle }
      else some { q with size := q.size - 1, bottom := q.bottom + 1, phase := .start }
    else none

/-- The two queues; `atq` is `atQueue` with the AT-process, and `immq` is `immQueue` with the
IMM-process, whose `ImmRun` is a phase that is not `idle`. -/
structure Queues (Frame : Type*) where
  atq : FrameQueue Frame
  immq : FrameQueue Frame
  camBusy : Bool
  queuedProc : Bool
  manyProc : Bool
  immqOvf : Bool
  aQueue : ℕ → Frame
  aQueueOverrun : Bool
  dropped : List Frame

inductive QueuesStep (Frame : Type*)
  | frame (f : Frame)
  | at (p : ProcStep)
  | imm (p : ProcStep)
  /-- the IMM-process begins a search of the CAM -/
  | search
  /-- it ends the search, and the AT-process may be started -/
  | release

/-- The AT-process is started with the first frame, unless the CAM is busy. -/
def Queues.startAt (s : Queues Frame) : Queues Frame :=
  if s.atq.size = 1 ∧ s.camBusy = false then { s with atq := { s.atq with phase := .start } } else s

/-- `Xr_Isr`, from where a frame is queued. -/
def Queues.frame (s : Queues Frame) (f : Frame) : Queues Frame :=
  let s := if 4 ≤ s.atq.size then { s with queuedProc := true } else s
  if queueSize ≤ s.atq.size then { s with manyProc := true, dropped := s.dropped ++ [f] }
  else
    let s :=
      if s.atq.size < aQueueSize then { s with aQueue := update s.aQueue s.atq.size f }
      else { s with aQueueOverrun := true }
    let s := { s with atq := s.atq.accept f }
    let s :=
      if queueSize ≤ s.immq.size then { s with immqOvf := true }
      else { s with immq := s.immq.accept f }
    s.startAt

/-- When the AT-process has ended, the IMM-process goes on, or is started. -/
def Queues.startImm (s : Queues Frame) : Queues Frame :=
  if s.atq.phase = .idle ∧ s.immq.phase = .idle then
    { s with immq := { s.immq with phase := .start } }
  else s

/-- One step.  The IMM-process runs only while the AT-process does not. -/
def Queues.step (s : Queues Frame) : QueuesStep Frame → Option (Queues Frame)
  | .frame f => some (s.frame f)
  | .at p => (s.atq.proc p).map fun q => { s with atq := q }.startImm
  | .imm p =>
    if s.atq.phase = .idle ∧ s.camBusy = false then
      (s.immq.proc p).map fun q => { s with immq := q }
    else none
  | .search =>
    if s.atq.phase = .idle ∧ s.camBusy = false ∧ s.immq.phase = .busy then
      some { s with camBusy := true }
    else none
  | .release =>
    if s.atq.phase = .idle ∧ s.camBusy = true then
      if s.atq.size = 0 then some { s with camBusy := false }
      else some { s with camBusy := false, atq := { s.atq with phase := .start } }
    else none

/-- A queue after the reset. -/
structure FrameQueue.Fresh (q : FrameQueue Frame) : Prop where
  bottom : q.bottom = 0
  top : q.top = 0
  size : q.size = 0
  phase : q.phase = .idle
  overrun : q.overrun = false
  accepted : q.accepted = []
  served : q.served = []

structure Queues.Fresh (s : Queues Frame) : Prop where
  atq : s.atq.Fresh
  immq : s.immq.Fresh
  camBusy : s.camBusy = false
  aQueueOverrun : s.aQueueOverrun = false
  dropped : s.dropped = []

/-- A module: frames, and the two processes between them. -/
def frameQueues : System (Queues Frame) (QueuesStep Frame) :=
  System.ofFun Queues.Fresh Queues.step

/-- What is relied on of a queue: it stays in its buffer, its frames are served in order of arrival,
each once, and its size counts those not yet completed. -/
structure FrameQueue.Sound (q : FrameQueue Frame) : Prop where
  inside : q.top ≤ queueSize ∧ q.bottom ≤ q.top
  stores : q.overrun = false
  order : q.served <+: q.accepted
  count : q.size + q.served.length =
    q.accepted.length + if q.phase = .busy ∨ q.phase = .done then 1 else 0

structure Queues.Sound (s : Queues Frame) : Prop where
  atq : s.atq.Sound
  immq : s.immq.Sound
  aQueue : s.aQueueOverrun = false
  dropped : s.dropped ≠ [] → s.manyProc = true

/-- A frame that is queued finds room in both buffers, and no more than seven others in the
AT-queue. -/
def InRoom (s : Queues Frame) : QueuesStep Frame → Prop
  | .frame _ => s.atq.size < queueSize →
      s.atq.size < aQueueSize ∧ s.atq.top < queueSize ∧
        (s.immq.size < queueSize → s.immq.top < queueSize)
  | _ => True

/-! ### One queue -/

/-- The entry that a process works on counts as served when it has read it. -/
def ProcPhase.taken : ProcPhase → ℕ
  | .idle => 0
  | .start => 0
  | .busy => 1
  | .moving => 1
  | .done => 1

/-- The invariant of a queue: of the frames put into it, the first `base` ones came before its
buffer was rewound last, and the others lie in the buffer. -/
structure FrameQueue.Kept (q : FrameQueue Frame) (base : ℕ) : Prop where
  sound : q.Sound
  pushed : q.accepted.length = base + q.top
  taken : q.served.length = base + q.bottom + q.phase.taken
  entry : ∀ i, i < q.top → q.accepted[base + i]? = some (q.buffer i)
  running : q.phase ≠ .idle → 0 < q.size

theorem FrameQueue.Fresh.kept {q : FrameQueue Frame} (h : q.Fresh) : q.Kept 0 where
  sound := by
    refine ⟨?_, h.overrun, ?_, ?_⟩
    · rw [h.top, h.bottom]
      exact ⟨Nat.zero_le _, le_rfl⟩
    · rw [h.served]
      exact List.nil_prefix
    · rw [h.size, h.served, h.accepted, h.phase]
      rfl
  pushed := by
    rw [h.accepted, h.top]
    rfl
  taken := by
    rw [h.served, h.bottom, h.phase]
    rfl
  entry i hi := by
    rw [h.top] at hi
    exact absurd hi (Nat.not_lt_zero i)
  running hrun := absurd h.phase hrun

theorem FrameQueue.Kept.accept {q : FrameQueue Frame} {base : ℕ} (h : q.Kept base)
    (hroom : q.top < queueSize) (f : Frame) : (q.accept f).Kept base where
  sound := by
    have hcount := h.sound.count
    refine ⟨⟨hroom, Nat.le_succ_of_le h.sound.inside.2⟩, ?_, ?_, ?_⟩
    · exact Bool.or_eq_false_iff.mpr ⟨h.sound.stores, decide_eq_false (not_le.mpr hroom)⟩
    · exact h.sound.order.trans (List.prefix_append _ _)
    · change q.size + 1 + q.served.length = (q.accepted ++ [f]).length +
        if q.phase = .busy ∨ q.phase = .done then 1 else 0
      rw [List.length_append, List.length_singleton]
      omega
  pushed := by
    change (q.accepted ++ [f]).length = base + (q.top + 1)
    rw [List.length_append, h.pushed]
    rfl
  taken := h.taken
  entry i hi := by
    have hbuffer : (q.accept f).buffer = update q.buffer q.top f := if_pos hroom
    change (q.accepted ++ [f])[base + i]? = _
    rw [hbuffer]
    rcases Nat.lt_succ_iff_lt_or_eq.mp hi with hold | rfl
    · have hlt : base + i < q.accepted.length := by
        rw [h.pushed]
        omega
      rw [List.getElem?_append_left hlt, h.entry i hold, update_of_ne (by omega)]
    · rw [← h.pushed, List.getElem?_concat_length, update_self]
  running _ := Nat.succ_pos _

theorem FrameQueue.Kept.size_eq {q : FrameQueue Frame} {base : ℕ} (h : q.Kept base) :
    q.top = q.bottom + q.size + if q.phase = .moving then 1 else 0 := by
  have hcount := h.sound.count
  rw [h.pushed, h.taken] at hcount
  cases hphase : q.phase
  all_goals
    rw [hphase] at hcount
    simp [ProcPhase.taken] at hcount ⊢
    omega

theorem FrameQueue.Kept.proc {q q' : FrameQueue Frame} {base : ℕ} (h : q.Kept base) {p : ProcStep}
    (hp : q.proc p = some q') : ∃ base', q'.Kept base' := by
  have hsize := h.size_eq
  have hcount := h.sound.count
  have htaken := h.taken
  have hpushed := h.pushed
  obtain ⟨htop, hbottom⟩ := h.sound.inside
  cases p with
  | fetch =>
    simp only [FrameQueue.proc, Option.ite_none_right_eq_some, Option.some.injEq] at hp
    obtain ⟨hphase, rfl⟩ := hp
    have hpos := h.running (by rw [hphase]; decide)
    rw [hphase] at hsize hcount htaken
    have hnext := h.entry q.bottom (by simp at hsize; omega)
    have hserved : q.served.length = base + q.bottom := htaken
    refine ⟨base, ⟨⟨htop, hbottom⟩, h.sound.stores, ?_, ?_⟩, hpushed, ?_, h.entry, fun _ => hpos⟩
    · obtain ⟨rest, hrest⟩ := h.sound.order
      rw [← hserved, ← hrest, List.getElem?_append_right le_rfl, Nat.sub_self] at hnext
      obtain ⟨tail, rfl⟩ : ∃ tail, rest = q.buffer q.bottom :: tail := by
        cases rest with
        | nil => cases hnext
        | cons f tail => exact ⟨tail, congrArg (· :: tail) (Option.some.inj hnext)⟩
      refine ⟨tail, ?_⟩
      rw [← hrest, List.append_assoc]
      rfl
    · rw [List.length_append]
      simp at hcount ⊢
      omega
    · rw [List.length_append, hserved]
      rfl
  | leave =>
    simp only [FrameQueue.proc, Option.ite_none_right_eq_some] at hp
    obtain ⟨hphase, hp⟩ := hp
    have hpos := h.running (by rw [hphase]; decide)
    rw [hphase] at hsize hcount htaken
    split at hp
    · obtain rfl := Option.some.inj hp
      refine ⟨base, ⟨⟨htop, hbottom⟩, h.sound.stores, h.sound.order, ?_⟩, hpushed, htaken, h.entry,
        fun _ => Nat.sub_pos_of_lt ‹_›⟩
      simp at hcount ⊢
      omega
    · obtain rfl := Option.some.inj hp
      exact ⟨base, ⟨⟨htop, hbottom⟩, h.sound.stores, h.sound.order, hcount⟩, hpushed, htaken,
        h.entry, fun _ => hpos⟩
  | move =>
    simp only [FrameQueue.proc, Option.ite_none_right_eq_some, Option.some.injEq] at hp
    obtain ⟨hphase, rfl⟩ := hp
    have hpos := h.running (by rw [hphase]; decide)
    rw [hphase] at hsize hcount htaken
    refine ⟨base, ⟨⟨htop, ?_⟩, h.sound.stores, h.sound.order, hcount⟩, hpushed, ?_, h.entry,
      fun _ => hpos⟩
    · change q.bottom + 1 ≤ q.top
      simp at hsize
      omega
    · change q.served.length = base + (q.bottom + 1) + 0
      rw [htaken]
      simp only [ProcPhase.taken]
      omega
  | complete =>
    simp only [FrameQueue.proc, Option.ite_none_right_eq_some] at hp
    obtain ⟨hphase, hp⟩ := hp
    have hpos := h.running (by rw [hphase]; decide)
    rw [hphase] at hsize hcount htaken
    simp only [reduceCtorEq, if_false, if_true, or_true, ProcPhase.taken] at hsize hcount htaken
    split at hp
    · obtain rfl := Option.some.inj hp
      refine ⟨q.accepted.length, ⟨⟨Nat.zero_le _, le_rfl⟩, h.sound.stores, h.sound.order, ?_⟩,
        rfl, ?_, fun i hi => absurd hi (Nat.not_lt_zero i), fun hrun => absurd rfl hrun⟩
      · change 0 + q.served.length = q.accepted.length + 0
        omega
      · change q.served.length = q.accepted.length + 0 + 0
        omega
    · obtain rfl := Option.some.inj hp
      refine ⟨base, ⟨⟨htop, ?_⟩, h.sound.stores, h.sound.order, ?_⟩, hpushed, ?_, h.entry,
        fun _ => Nat.pos_of_ne_zero ‹_›⟩
      · change q.bottom + 1 ≤ q.top
        omega
      · change q.size - 1 + q.served.length = q.accepted.length + 0
        omega
      · change q.served.length = base + (q.bottom + 1) + 0
        omega

theorem FrameQueue.running_of_proc {q q' : FrameQueue Frame} {p : ProcStep}
    (hp : q.proc p = some q') : q.phase ≠ .idle ∧ (q'.phase = .idle → q'.size = 0) := by
  cases p with
  | fetch =>
    simp only [FrameQueue.proc, Option.ite_none_right_eq_some, Option.some.injEq] at hp
    obtain ⟨hphase, rfl⟩ := hp
    rw [hphase]
    exact ⟨by decide, fun h => by cases h⟩
  | leave =>
    simp only [FrameQueue.proc, Option.ite_none_right_eq_some] at hp
    obtain ⟨hphase, hp⟩ := hp
    rw [hphase]
    refine ⟨by decide, fun h => ?_⟩
    split at hp <;> (obtain rfl := Option.some.inj hp; cases h)
  | move =>
    simp only [FrameQueue.proc, Option.ite_none_right_eq_some, Option.some.injEq] at hp
    obtain ⟨hphase, rfl⟩ := hp
    rw [hphase]
    exact ⟨by decide, fun h => by cases h⟩
  | complete =>
    simp only [FrameQueue.proc, Option.ite_none_right_eq_some] at hp
    obtain ⟨hphase, hp⟩ := hp
    rw [hphase]
    refine ⟨by decide, fun h => ?_⟩
    split at hp
    · obtain rfl := Option.some.inj hp
      rfl
    · obtain rfl := Option.some.inj hp
      cases h

theorem FrameQueue.Kept.begin {q : FrameQueue Frame} {base : ℕ} (h : q.Kept base)
    (hphase : q.phase = .idle) (hpos : 0 < q.size) :
    ({ q with phase := .start } : FrameQueue Frame).Kept base where
  sound := by
    have hcount := h.sound.count
    rw [hphase] at hcount
    exact ⟨h.sound.inside, h.sound.stores, h.sound.order, hcount⟩
  pushed := h.pushed
  taken := by
    have htaken := h.taken
    rw [hphase] at htaken
    exact htaken
  entry := h.entry
  running _ := hpos

/-! ### The two queues -/

/-- The invariant.  The CAM is busy only for the IMM-process; the AT-queue has frames only while its
process runs or waits for the CAM; and the IMM-process, when it is started, has a frame. -/
structure Queues.Kept (s : Queues Frame) : Prop where
  atq : ∃ base, s.atq.Kept base
  immq : ∃ base, s.immq.Kept base
  aQueue : s.aQueueOverrun = false
  dropped : s.dropped ≠ [] → s.manyProc = true
  cam : s.camBusy = true → s.immq.phase ≠ .idle
  waits : s.atq.phase = .idle → s.camBusy = false → s.atq.size = 0
  follows : s.immq.phase = .idle → 0 < s.atq.size → 0 < s.immq.size

theorem Queues.Fresh.kept {s : Queues Frame} (h : s.Fresh) : s.Kept where
  atq := ⟨0, h.atq.kept⟩
  immq := ⟨0, h.immq.kept⟩
  aQueue := h.aQueueOverrun
  dropped hne := absurd h.dropped hne
  cam hcam := absurd (h.camBusy.symm.trans hcam) (by decide)
  waits _ _ := h.atq.size
  follows _ hpos := by
    rw [h.atq.size] at hpos
    exact absurd hpos (Nat.lt_irrefl 0)

theorem Queues.Kept.sound {s : Queues Frame} (h : s.Kept) : s.Sound where
  atq := h.atq.elim fun _ hq => hq.sound
  immq := h.immq.elim fun _ hq => hq.sound
  aQueue := h.aQueue
  dropped := h.dropped

theorem Queues.frame_of_full {s : Queues Frame} (f : Frame) (hfull : queueSize ≤ s.atq.size) :
    s.frame f = { s with queuedProc := true, manyProc := true, dropped := s.dropped ++ [f] } := by
  have hfour : 4 ≤ s.atq.size := le_trans (by decide) hfull
  unfold Queues.frame
  rw [if_pos hfour]
  exact if_pos hfull

theorem Queues.frame_of_room {s : Queues Frame} (f : Frame) (hroom : s.atq.size < queueSize) :
    (s.frame f).atq = { s.atq.accept f with
      phase := if s.atq.size = 0 ∧ s.camBusy = false then .start else s.atq.phase } ∧
    (s.frame f).immq = (if queueSize ≤ s.immq.size then s.immq else s.immq.accept f) ∧
    (s.frame f).camBusy = s.camBusy ∧ (s.frame f).manyProc = s.manyProc ∧
    (s.frame f).aQueueOverrun = (s.aQueueOverrun || decide (aQueueSize ≤ s.atq.size)) ∧
    (s.frame f).dropped = s.dropped := by
  have hstart : ∀ t : Queues Frame, t.startAt = { t with
      atq := { t.atq with
        phase := if t.atq.size = 1 ∧ t.camBusy = false then .start else t.atq.phase } } := by
    intro t
    unfold Queues.startAt
    split <;> rfl
  have hone : s.atq.size + 1 = 1 ↔ s.atq.size = 0 := by omega
  have hlt : s.atq.size < aQueueSize ↔ ¬ aQueueSize ≤ s.atq.size := not_le.symm
  unfold Queues.frame
  simp only [hstart]
  by_cases hfour : 4 ≤ s.atq.size <;> by_cases height : aQueueSize ≤ s.atq.size <;>
    by_cases himm : queueSize ≤ s.immq.size
  all_goals
    simp [hfour, height, hlt, himm, not_le.mpr hroom, FrameQueue.accept, hone]

theorem Queues.Kept.frame {s : Queues Frame} (h : s.Kept) {f : Frame}
    (hok : InRoom s (.frame f)) : (s.frame f).Kept := by
  rcases Nat.lt_or_ge s.atq.size queueSize with hroom | hfull
  · obtain ⟨hatq, himmq, hcam, hmany, haq, hdropped⟩ := Queues.frame_of_room f hroom
    obtain ⟨height, htop, himmtop⟩ := hok hroom
    obtain ⟨base, hbase⟩ := h.atq
    obtain ⟨ibase, hibase⟩ := h.immq
    have hquiet : s.atq.size = 0 → s.atq.phase = .idle := by
      intro hzero
      by_contra hrun
      exact absurd hzero (hbase.running hrun).ne'
    have himmphase : (s.frame f).immq.phase = s.immq.phase := by
      rw [himmq]
      split <;> rfl
    have himmsize : 0 < (s.frame f).immq.size := by
      rw [himmq]
      split
      · rename_i hle
        exact Nat.lt_of_lt_of_le (by decide : 0 < queueSize) hle
      · exact Nat.succ_pos _
    refine ⟨⟨base, ?_⟩, ⟨ibase, ?_⟩, ?_, ?_, ?_, ?_, fun _ _ => himmsize⟩
    · rw [hatq]
      have haccept := hbase.accept htop f
      split
      · rename_i hstart
        exact haccept.begin (hquiet hstart.1) (Nat.succ_pos _)
      · exact haccept
    · rw [himmq]
      split
      · exact hibase
      · exact hibase.accept (himmtop (not_le.mp ‹_›)) f
    · rw [haq, h.aQueue, decide_eq_false (not_le.mpr height)]
      rfl
    · rw [hdropped, hmany]
      exact h.dropped
    · rw [hcam, himmphase]
      exact h.cam
    · rw [hatq, hcam]
      intro hphase hcamFree
      by_cases hzero : s.atq.size = 0
      · rw [if_pos ⟨hzero, hcamFree⟩] at hphase
        cases hphase
      · rw [if_neg fun hboth => hzero hboth.1] at hphase
        exact absurd (h.waits hphase hcamFree) hzero
  · rw [Queues.frame_of_full f hfull]
    exact ⟨h.atq, h.immq, h.aQueue, fun _ => rfl, h.cam, h.waits, h.follows⟩

theorem Queues.Kept.step {s s' : Queues Frame} {a : QueuesStep Frame} (h : s.Kept)
    (hok : InRoom s a) (hs : s.step a = some s') : s'.Kept := by
  obtain ⟨base, hbase⟩ := h.atq
  obtain ⟨ibase, hibase⟩ := h.immq
  cases a with
  | frame f =>
    obtain rfl := Option.some.inj hs
    exact h.frame hok
  | «at» p =>
    obtain ⟨q, hq, rfl⟩ := Option.map_eq_some_iff.mp hs
    obtain ⟨base', hbase'⟩ := hbase.proc hq
    have hrun := FrameQueue.running_of_proc hq
    have hpos := hbase.running hrun.1
    unfold Queues.startImm
    split
    · rename_i hboth
      have himm := h.follows hboth.2 hpos
      refine ⟨⟨base', hbase'⟩, ⟨ibase, hibase.begin hboth.2 himm⟩, h.aQueue, h.dropped,
        (fun _ hidle => by cases hidle), fun _ _ => hrun.2 hboth.1, ?_⟩
      intro himmphase
      cases himmphase
    · rename_i hnot
      refine ⟨⟨base', hbase'⟩, ⟨ibase, hibase⟩, h.aQueue, h.dropped, h.cam,
        fun hphase _ => hrun.2 hphase, fun himmphase _ => h.follows himmphase hpos⟩
  | imm p =>
    simp only [Queues.step, Option.ite_none_right_eq_some] at hs
    obtain ⟨⟨hidle, hcam⟩, hs⟩ := hs
    obtain ⟨q, hq, rfl⟩ := Option.map_eq_some_iff.mp hs
    obtain ⟨ibase', hibase'⟩ := hibase.proc hq
    refine ⟨⟨base, hbase⟩, ⟨ibase', hibase'⟩, h.aQueue, h.dropped,
      fun hbusy => absurd (hcam.symm.trans hbusy) (by decide), h.waits, ?_⟩
    intro _ hpos
    exact absurd (h.waits hidle hcam) hpos.ne'
  | search =>
    simp only [Queues.step, Option.ite_none_right_eq_some, Option.some.injEq] at hs
    obtain ⟨⟨hidle, -, hbusy⟩, rfl⟩ := hs
    refine ⟨⟨base, hbase⟩, ⟨ibase, hibase⟩, h.aQueue, h.dropped, fun _ => ?_,
      fun _ hcam => Bool.noConfusion hcam, h.follows⟩
    change s.immq.phase ≠ .idle
    rw [hbusy]
    decide
  | release =>
    simp only [Queues.step, Option.ite_none_right_eq_some] at hs
    obtain ⟨⟨hidle, hcam⟩, hs⟩ := hs
    have himm := h.cam hcam
    split at hs
    · rename_i hzero
      obtain rfl := Option.some.inj hs
      exact ⟨⟨base, hbase⟩, ⟨ibase, hibase⟩, h.aQueue, h.dropped,
        fun hbusy => Bool.noConfusion hbusy, fun _ _ => hzero, h.follows⟩
    · rename_i hne
      obtain rfl := Option.some.inj hs
      refine ⟨⟨base, hbase.begin hidle (Nat.pos_of_ne_zero hne)⟩, ⟨ibase, hibase⟩, h.aQueue,
        h.dropped, fun hbusy => Bool.noConfusion hbusy, ?_, fun hphase => absurd hphase himm⟩
      intro hphase
      cases hphase

theorem kept_of_reachUnder {s : Queues Frame} (h : frameQueues.ReachUnder InRoom s) : s.Kept :=
  h.invariant (fun _ => Queues.Fresh.kept) fun _ _ _ hkept hok hs => Queues.Kept.step hkept hok hs

theorem unsound_of_overrun {s s' : Queues Frame} {a : QueuesStep Frame} (hs : s.step a = some s')
    (ha : ¬ InRoom s a) : ¬ s'.Sound := by
  cases a with
  | frame f =>
    obtain rfl := Option.some.inj hs
    obtain ⟨hroom, hfull⟩ := Classical.not_imp.mp ha
    obtain ⟨hatq, himmq, -, -, haq, -⟩ := Queues.frame_of_room f hroom
    intro hsound
    have haQueue := hsound.aQueue
    have hstores := hsound.atq.stores
    have himm := hsound.immq.stores
    rw [haq, Bool.or_eq_false_iff, decide_eq_false_iff_not, not_le] at haQueue
    rw [hatq] at hstores
    have htop := (Bool.or_eq_false_iff.mp hstores).2
    rw [decide_eq_false_iff_not, not_le] at htop
    refine hfull ⟨haQueue.2, htop, fun himmroom => ?_⟩
    rw [himmq, if_neg (not_le.mpr himmroom)] at himm
    have himmtop := (Bool.or_eq_false_iff.mp himm).2
    rwa [decide_eq_false_iff_not, not_le] at himmtop
  | «at» p => exact absurd trivial ha
  | imm p => exact absurd trivial ha
  | search => exact absurd trivial ha
  | release => exact absurd trivial ha

end Queues

/-- A module after its reset. -/
def afterReset : Queues (BitVec 32) :=
  ⟨⟨0, 0, 0, fun _ => 0, .idle, false, [], []⟩, ⟨0, 0, 0, fun _ => 0, .idle, false, [], []⟩, false,
    false, false, false, fun _ => 0, false, []⟩

theorem afterReset_fresh : afterReset.Fresh :=
  ⟨⟨rfl, rfl, rfl, rfl, rfl, rfl, rfl⟩, ⟨rfl, rfl, rfl, rfl, rfl, rfl, rfl⟩, rfl, rfl, rfl⟩

/-- The AT-process serves an entry and finds another one. -/
def serves : List (QueuesStep (BitVec 32)) := [.at .fetch, .at .leave, .at .move]

end KernelModules.Tg8.Firmware
