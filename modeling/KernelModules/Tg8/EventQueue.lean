import KernelModules.Lib.Transition
import Mathlib.Tactic

/-!
# The event queue of a TG8 module

The interrupt routine of a TG8 module puts every event into one ring, and counts up the semaphore of
each device that the event is for.  A device reads the ring with a tail of its own, and converts the
super-cycle number of the entry that it has found in place before it copies the entry out.

* `EventQueue` is the ring with its devices, and with what was queued and delivered so far;
* `Delivers` is what a device relies on;
* `delivers_of_reachUnder` holds it over every run of `InTime` steps, which keep the ring from
  running over, put no event for a device between the two steps of its purge, and convert no number
  twice.

Timeouts are left out, and the signals that the interrupt routine sends.  A device is in one call at
a time, and it stays open.
-/

namespace KernelModules.Tg8

open Function KernelModules.Lib

/-- `Tg8DrvrQUEUE_SIZE`. -/
def queueSize : ℕ := 128

/-- `Tg8DrvrEvent`; of `Inter` the super-cycle number stands apart. -/
structure Event (Dev : Type*) where
  id : BitVec 32
  event : BitVec 32
  iEvent : BitVec 32
  iSc : BitVec 32
  iOcc : BitVec 32
  iOut : BitVec 32
  iExt : BitVec 32
  alarms : BitVec 16
  fwStat : BitVec 8
  devMask : Dev → Bool

/-- The conversion of a super-cycle number: its middle bytes, swapped. -/
def convert (sc : BitVec 32) : BitVec 32 :=
  let scnum := (0x00FFFF00 &&& sc) >>> 8
  let b1 := scnum &&& 0xFF
  let b2 := (scnum >>> 8) &&& 0xFF
  (b1 <<< 8) ||| b2

def Event.converted {Dev : Type*} (e : Event Dev) : Event Dev := { e with iSc := convert e.iSc }

/-- Where a device is in `Tg8DrvrOpen`, `Tg8DrvrRead` or `PURGE_QUEUE`. -/
inductive ReadPhase
  | closed
  | idle
  | waiting
  /-- it has taken the semaphore, and looks for its next entry -/
  | scanning
  | found (slot : ℕ)
  /-- it has read the super-cycle number of the entry -/
  | loaded (slot : ℕ) (sc : BitVec 32)
  /-- it has written the converted number back -/
  | stored (slot : ℕ)
  /-- the tail has been moved to the head, and the semaphore is still to be reset -/
  | purging
  deriving DecidableEq, Repr

/-- `Tg8DrvrDeviceContext`; and how many events the device has looked at, how many there were when
it was opened or purged, and what it got since. -/
structure DeviceContext (Dev : Type*) where
  appSemaphore : ℕ
  tail : ℕ
  phase : ReadPhase
  seen : ℕ
  since : ℕ
  delivered : List (Event Dev)

/-- `Tg8DrvrQueue` and the devices of a module; and all events queued so far. -/
structure EventQueue (Dev : Type*) where
  head : ℕ
  queue : ℕ → Event Dev
  device : Dev → DeviceContext Dev
  log : List (Event Dev)

/-- A step. -/
inductive QueueStep (Dev : Type*)
  | interrupt (e : Event Dev)
  | «open» (d : Dev)
  | read (d : Dev) (noDelay : Bool)
  | wait (d : Dev)
  | abort (d : Dev)
  | scan (d : Dev)
  | load (d : Dev)
  | store (d : Dev)
  | copy (d : Dev)
  | purge (d : Dev)
  | reset (d : Dev)

/-- An index moved on, with wrap around. -/
def advance (n : ℕ) : ℕ := if queueSize ≤ n + 1 then 0 else n + 1

section Queue

variable {Dev : Type*} [DecidableEq Dev]

def EventQueue.setDevice (s : EventQueue Dev) (d : Dev) (c : DeviceContext Dev) : EventQueue Dev :=
  { s with device := update s.device d c }

/-- `INS_INTO_QUEUE`. -/
def EventQueue.interrupt (s : EventQueue Dev) (e : Event Dev) : EventQueue Dev where
  head := advance s.head
  queue := update s.queue s.head e
  device d :=
    { s.device d with
      appSemaphore := (s.device d).appSemaphore + if e.devMask d then 1 else 0 }
  log := s.log ++ [e]

/-- One round of the search for the next entry. -/
def EventQueue.scan (s : EventQueue Dev) (d : Dev) : EventQueue Dev :=
  let c := s.device d
  if c.tail = s.head then s.setDevice d { c with phase := .waiting }
  else
    s.setDevice d
      { c with
        tail := advance c.tail
        seen := c.seen + 1
        phase := if (s.queue c.tail).devMask d then .found c.tail else .scanning }

/-- The tail of a device is moved to the head. -/
def EventQueue.empty (s : EventQueue Dev) (d : Dev) : EventQueue Dev :=
  s.setDevice d
    { s.device d with
      tail := s.head
      phase := .purging
      seen := s.log.length
      since := s.log.length
      delivered := [] }

/-- One step of a device in `Tg8DrvrOpen`, `Tg8DrvrRead` or `PURGE_QUEUE`, or an interrupt. -/
def EventQueue.step (s : EventQueue Dev) : QueueStep Dev → Option (EventQueue Dev)
  | .interrupt e => some (s.interrupt e)
  | .open d => if (s.device d).phase = .closed then some (s.empty d) else none
  | .read d noDelay =>
    let c := s.device d
    if c.phase = .idle then
      if c.appSemaphore = 0 ∧ noDelay then some s
      else some (s.setDevice d
        { c with appSemaphore := min c.appSemaphore queueSize, phase := .waiting })
    else none
  | .wait d =>
    let c := s.device d
    if c.phase = .waiting ∧ 0 < c.appSemaphore then
      some (s.setDevice d { c with appSemaphore := c.appSemaphore - 1, phase := .scanning })
    else none
  | .abort d =>
    if (s.device d).phase = .waiting then some (s.setDevice d { s.device d with phase := .idle })
    else none
  | .scan d => if (s.device d).phase = .scanning then some (s.scan d) else none
  | .load d =>
    match (s.device d).phase with
    | .found slot =>
      some (s.setDevice d { s.device d with phase := .loaded slot (s.queue slot).iSc })
    | _ => none
  | .store d =>
    match (s.device d).phase with
    | .loaded slot sc =>
      some { s.setDevice d { s.device d with phase := .stored slot } with
        queue := update s.queue slot { s.queue slot with iSc := convert sc } }
    | _ => none
  | .copy d =>
    match (s.device d).phase with
    | .stored slot =>
      some (s.setDevice d
        { s.device d with
          phase := .idle, delivered := (s.device d).delivered ++ [s.queue slot] })
    | _ => none
  | .purge d => if (s.device d).phase = .idle then some (s.empty d) else none
  | .reset d =>
    if (s.device d).phase = .purging then
      some (s.setDevice d { s.device d with appSemaphore := 0, phase := .idle })
    else none

/-- The ring is empty, and no device is open. -/
structure EventQueue.Fresh (s : EventQueue Dev) : Prop where
  head : s.head = 0
  log : s.log = []
  phase : ∀ d, (s.device d).phase = .closed

/-- A module: any devices and interrupts in any order. -/
def tg8Queue : System (EventQueue Dev) (QueueStep Dev) :=
  System.ofFun EventQueue.Fresh EventQueue.step

/-- The events for a device since it was opened or purged. -/
def EventQueue.expected (s : EventQueue Dev) (d : Dev) : List (Event Dev) :=
  (s.log.drop (s.device d).since).filter fun e => e.devMask d

/-- An open device gets its events in order, each once and with its number converted once; between
two calls and while it waits its semaphore counts the others; and it finds one when it has taken the
semaphore. -/
structure Delivers (s : EventQueue Dev) (d : Dev) : Prop where
  order : ∃ served rest, s.expected d = served ++ rest ∧
    (s.device d).delivered = served.map Event.converted ∧
    ((s.device d).phase = .idle ∨ (s.device d).phase = .waiting →
      (s.device d).appSemaphore = rest.length)
  finds : (s.device d).phase = .scanning → (s.device d).tail ≠ s.head

/-- The steps at which no device loses an event.  An interrupt finds room in the ring for every open
device, and none that its event is for is being opened or purged; and the number that a device reads
has not been converted yet, or converting it again changes nothing. -/
def InTime (s : EventQueue Dev) : QueueStep Dev → Prop
  | .interrupt e => ∀ d, (s.device d).phase ≠ .closed →
      s.log.length + 1 < (s.device d).seen + queueSize ∧
        (e.devMask d = true → (s.device d).phase ≠ .purging)
  | .load d => ∀ slot e, (s.device d).phase = .found slot →
      s.log[(s.device d).seen - 1]? = some e → convert (s.queue slot).iSc = convert e.iSc
  | _ => True

/-! ### Where a device stands in the ring -/

omit [DecidableEq Dev] in
theorem advance_mod (n : ℕ) : advance (n % queueSize) = (n + 1) % queueSize := by
  unfold advance queueSize
  split <;> omega

/-- The events for a device that it has been shown. -/
def DeviceContext.served (c : DeviceContext Dev) (d : Dev) (log : List (Event Dev)) :
    List (Event Dev) :=
  ((log.take c.seen).drop c.since).filter fun e => e.devMask d

/-- The events for a device that are still before it. -/
def DeviceContext.unread (c : DeviceContext Dev) (d : Dev) (log : List (Event Dev)) :
    List (Event Dev) :=
  (log.drop c.seen).filter fun e => e.devMask d

/-- The device has got everything that it has been shown. -/
def DeviceContext.Settled (c : DeviceContext Dev) (d : Dev) (log : List (Event Dev)) : Prop :=
  c.delivered = (c.served d log).map Event.converted

/-- The device holds the entry of the last event it has been shown. -/
structure DeviceContext.Carries (c : DeviceContext Dev) (d : Dev) (log : List (Event Dev))
    (slot : ℕ) (e : Event Dev) : Prop where
  last : log[c.seen - 1]? = some e
  since_lt : c.since < c.seen
  slot_eq : slot = (c.seen - 1) % queueSize
  got : c.delivered ++ [e.converted] = (c.served d log).map Event.converted

/-- What holds of a device at each step of a call. -/
def DeviceContext.InCall (c : DeviceContext Dev) (d : Dev) (log : List (Event Dev))
    (queue : ℕ → Event Dev) : Prop :=
  match c.phase with
  | .closed => True
  | .idle => c.Settled d log ∧ c.appSemaphore = (c.unread d log).length
  | .waiting => c.Settled d log ∧ c.appSemaphore = (c.unread d log).length
  | .scanning => c.Settled d log ∧ c.appSemaphore + 1 = (c.unread d log).length
  | .found slot => ∃ e, c.Carries d log slot e ∧ c.appSemaphore = (c.unread d log).length
  | .loaded slot sc => ∃ e, c.Carries d log slot e ∧
      c.appSemaphore = (c.unread d log).length ∧ convert sc = convert e.iSc
  | .stored slot => ∃ e, c.Carries d log slot e ∧
      c.appSemaphore = (c.unread d log).length ∧ queue slot = e.converted
  | .purging => c.Settled d log ∧ c.unread d log = []

/-- The invariant of an open device. -/
structure DeviceContext.Position (c : DeviceContext Dev) (d : Dev) (log : List (Event Dev))
    (queue : ℕ → Event Dev) : Prop where
  tail : c.tail = c.seen % queueSize
  since_le : c.since ≤ c.seen
  seen_le : c.seen ≤ log.length
  room : log.length < c.seen + queueSize
  inCall : c.InCall d log queue

/-- The invariant: the ring holds the last events, with their numbers converted or not. -/
structure EventQueue.Kept (s : EventQueue Dev) : Prop where
  head : s.head = s.log.length % queueSize
  entry : ∀ i e, s.log[i]? = some e → s.log.length ≤ i + queueSize →
    s.queue (i % queueSize) = e ∨ s.queue (i % queueSize) = e.converted
  device : ∀ d, (s.device d).phase ≠ .closed → (s.device d).Position d s.log s.queue

theorem EventQueue.Fresh.kept {s : EventQueue Dev} (h : s.Fresh) : s.Kept where
  head := by
    rw [h.head, h.log]
    rfl
  entry i e hi := by
    rw [h.log] at hi
    simp at hi
  device d hd := absurd (h.phase d) hd

theorem EventQueue.Kept.setDevice {s : EventQueue Dev} (h : s.Kept) {d : Dev}
    {c : DeviceContext Dev} (hc : c.Position d s.log s.queue) : (s.setDevice d c).Kept where
  head := h.head
  entry := h.entry
  device d' hd' := by
    rcases eq_or_ne d' d with rfl | hne
    · change (update s.device d' c d').Position d' s.log s.queue
      rw [update_self]
      exact hc
    · change (update s.device d c d').phase ≠ _ at hd'
      change (update s.device d c d').Position d' s.log s.queue
      rw [update_of_ne hne] at hd' ⊢
      exact h.device d' hd'

omit [DecidableEq Dev] in
theorem DeviceContext.served_append {c : DeviceContext Dev} (d : Dev) {log : List (Event Dev)}
    (hseen : c.seen ≤ log.length) (e : Event Dev) :
    c.served d (log ++ [e]) = c.served d log := by
  unfold DeviceContext.served
  rw [List.take_append_of_le_length hseen]

omit [DecidableEq Dev] in
theorem DeviceContext.unread_append {c : DeviceContext Dev} (d : Dev) {log : List (Event Dev)}
    (hseen : c.seen ≤ log.length) (e : Event Dev) :
    c.unread d (log ++ [e]) = c.unread d log ++ if e.devMask d then [e] else [] := by
  unfold DeviceContext.unread
  rw [List.drop_append_of_le_length hseen, List.filter_append, List.filter_singleton,
    Bool.cond_eq_ite]

omit [DecidableEq Dev] in
theorem DeviceContext.served_succ {c c' : DeviceContext Dev} (d : Dev) {log : List (Event Dev)}
    {e : Event Dev} (hsince : c.since ≤ c.seen) (he : log[c.seen]? = some e)
    (hseen' : c'.seen = c.seen + 1) (hsince' : c'.since = c.since) :
    c'.served d log = c.served d log ++ (if e.devMask d then [e] else []) ∧
      c.unread d log = (if e.devMask d then [e] else []) ++ c'.unread d log := by
  obtain ⟨hlt, rfl⟩ := List.getElem?_eq_some_iff.mp he
  have htake : log.take (c.seen + 1) = log.take c.seen ++ [log[c.seen]] :=
    List.take_succ_eq_append_getElem hlt
  have hdrop : log.drop c.seen = [log[c.seen]] ++ log.drop (c.seen + 1) :=
    List.drop_eq_getElem_cons hlt
  have hlen : c.since ≤ (log.take c.seen).length := by
    rw [List.length_take]
    omega
  unfold DeviceContext.served DeviceContext.unread
  rw [hseen', hsince', htake, hdrop, List.drop_append_of_le_length hlen, List.filter_append,
    List.filter_append, List.filter_singleton, Bool.cond_eq_ite]
  exact ⟨rfl, rfl⟩

theorem DeviceContext.InCall.stay {c c' : DeviceContext Dev} {d : Dev}
    {log log' : List (Event Dev)} {queue queue' : ℕ → Event Dev} (h : c.InCall d log queue)
    (hphase : c'.phase = c.phase) (hsettled : c.Settled d log → c'.Settled d log')
    (hcarries : ∀ slot e, c.Carries d log slot e → c'.Carries d log' slot e) (k : ℕ)
    (hsem : c'.appSemaphore = c.appSemaphore + k)
    (hunread : (c'.unread d log').length = (c.unread d log).length + k)
    (hpurge : c.phase = .purging → k = 0)
    (hqueue : ∀ slot e, c.Carries d log slot e → queue slot = e.converted →
      queue' slot = e.converted) :
    c'.InCall d log' queue' := by
  unfold DeviceContext.InCall at h ⊢
  rw [hphase]
  generalize c.phase = ph at h hpurge
  cases ph with
  | closed => trivial
  | idle => exact ⟨hsettled h.1, by omega⟩
  | waiting => exact ⟨hsettled h.1, by omega⟩
  | scanning => exact ⟨hsettled h.1, by omega⟩
  | found slot =>
    obtain ⟨e, he, hcount⟩ := h
    exact ⟨e, hcarries slot e he, by omega⟩
  | loaded slot sc =>
    obtain ⟨e, he, hcount, hsc⟩ := h
    exact ⟨e, hcarries slot e he, by omega, hsc⟩
  | stored slot =>
    obtain ⟨e, he, hcount, hstored⟩ := h
    exact ⟨e, hcarries slot e he, by omega, hqueue slot e he hstored⟩
  | purging =>
    refine ⟨hsettled h.1, List.eq_nil_of_length_eq_zero ?_⟩
    rw [hunread, h.2, hpurge rfl]
    rfl

/-! ### The steps -/

theorem DeviceContext.Position.interrupt {c : DeviceContext Dev} {d : Dev}
    {log : List (Event Dev)} {queue : ℕ → Event Dev} (h : c.Position d log queue) {e : Event Dev}
    (hroom : log.length + 1 < c.seen + queueSize)
    (hpurge : e.devMask d = true → c.phase ≠ .purging) :
    { c with appSemaphore := c.appSemaphore + if e.devMask d then 1 else 0 }.Position d
      (log ++ [e]) (update queue (log.length % queueSize) e) := by
  have hslot : ∀ slot f, c.Carries d log slot f → slot ≠ log.length % queueSize := by
    intro slot f hf heq
    have hlt := hf.since_lt
    have hle := h.seen_le
    rw [hf.slot_eq] at heq
    unfold queueSize at heq hroom
    omega
  have hserved := DeviceContext.served_append d h.seen_le e
  have hunread := DeviceContext.unread_append d h.seen_le e
  refine ⟨h.tail, h.since_le, ?_, ?_, ?_⟩
  · rw [List.length_append]
    exact Nat.le_add_right_of_le h.seen_le
  · rw [List.length_append]
    exact hroom
  · refine h.inCall.stay rfl ?_ ?_ (if e.devMask d then 1 else 0) rfl ?_ ?_ ?_
    · intro hs
      exact hs.trans (congrArg _ hserved.symm)
    · intro slot f hf
      obtain ⟨hlt, _⟩ := List.getElem?_eq_some_iff.mp hf.last
      refine ⟨?_, hf.since_lt, hf.slot_eq, hf.got.trans (congrArg _ hserved.symm)⟩
      exact (List.getElem?_append_left hlt).trans hf.last
    · change (c.unread d (log ++ [e])).length = _
      rw [hunread, List.length_append]
      split <;> rfl
    · intro hphase
      exact if_neg fun hmask => hpurge hmask hphase
    · intro slot f hf hstored
      rw [update_of_ne (hslot slot f hf)]
      exact hstored

theorem EventQueue.Kept.interrupt {s : EventQueue Dev} (h : s.Kept) {e : Event Dev}
    (hok : InTime s (.interrupt e)) : (s.interrupt e).Kept where
  head := by
    change advance s.head = (s.log ++ [e]).length % queueSize
    rw [h.head, advance_mod, List.length_append]
    rfl
  entry i f hi hwindow := by
    change (s.log ++ [e])[i]? = some f at hi
    change (s.log ++ [e]).length ≤ i + queueSize at hwindow
    change update s.queue s.head e _ = f ∨ update s.queue s.head e _ = f.converted
    obtain ⟨hlt, _⟩ := List.getElem?_eq_some_iff.mp hi
    rw [List.length_append] at hlt hwindow
    change i < s.log.length + 1 at hlt
    change s.log.length + 1 ≤ _ at hwindow
    rw [h.head]
    rcases Nat.lt_succ_iff_lt_or_eq.mp hlt with hold | rfl
    · have hne : i % queueSize ≠ s.log.length % queueSize := by
        unfold queueSize at hwindow ⊢
        omega
      rw [update_of_ne hne]
      rw [List.getElem?_append_left hold] at hi
      exact h.entry i f hi (by omega)
    · rw [List.getElem?_concat_length, Option.some.injEq] at hi
      rw [update_self]
      exact Or.inl hi
  device d hd := by
    change DeviceContext.Position _ d (s.log ++ [e]) (update s.queue s.head e)
    rw [h.head]
    obtain ⟨hroom, hpurge⟩ := hok d hd
    exact (h.device d hd).interrupt hroom hpurge

theorem EventQueue.Kept.empty {s : EventQueue Dev} (h : s.Kept) (d : Dev) : (s.empty d).Kept := by
  apply h.setDevice
  refine ⟨h.head, le_rfl, le_rfl, Nat.lt_add_of_pos_right (by decide), ?_, ?_⟩
  · unfold DeviceContext.Settled DeviceContext.served
    simp
  · unfold DeviceContext.unread
    simp

omit [DecidableEq Dev] in
theorem DeviceContext.Position.tail_ne {c : DeviceContext Dev} {d : Dev} {log : List (Event Dev)}
    {queue : ℕ → Event Dev} (h : c.Position d log queue) (hscan : c.phase = .scanning) :
    c.seen < log.length ∧ c.tail ≠ log.length % queueSize := by
  have hin := h.inCall
  unfold DeviceContext.InCall at hin
  rw [hscan] at hin
  have hlt : c.seen < log.length := by
    by_contra hge
    have hempty : c.unread d log = [] := by
      unfold DeviceContext.unread
      rw [List.drop_eq_nil_of_le (not_lt.mp hge)]
      rfl
    have hcount := hin.2
    rw [hempty] at hcount
    exact absurd hcount (Nat.succ_ne_zero _)
  have hroom := h.room
  refine ⟨hlt, ?_⟩
  rw [h.tail]
  unfold queueSize at hroom ⊢
  omega

theorem EventQueue.Kept.scan {s : EventQueue Dev} (h : s.Kept) {d : Dev}
    (hphase : (s.device d).phase = .scanning) : (s.scan d).Kept := by
  have hpos := h.device d (by rw [hphase]; exact ReadPhase.noConfusion)
  obtain ⟨hlt, hne⟩ := hpos.tail_ne hphase
  have he : s.log[(s.device d).seen]? = some s.log[(s.device d).seen] :=
    List.getElem?_eq_getElem hlt
  generalize s.log[(s.device d).seen] = e at he
  have hmask : (s.queue (s.device d).tail).devMask d = e.devMask d := by
    rw [hpos.tail]
    rcases h.entry _ e he (by have := hpos.room; omega) with heq | heq
    · rw [heq]
    · rw [heq]
      rfl
  have hin := hpos.inCall
  unfold DeviceContext.InCall at hin
  rw [hphase] at hin
  obtain ⟨hsettled, hcount⟩ := hin
  unfold EventQueue.scan
  rw [if_neg (h.head ▸ hne), hmask]
  obtain ⟨c, hc⟩ : ∃ c, c = { s.device d with
      tail := advance (s.device d).tail
      seen := (s.device d).seen + 1
      phase := if e.devMask d then .found (s.device d).tail else .scanning } := ⟨_, rfl⟩
  obtain ⟨hserved, hunread⟩ :=
    @DeviceContext.served_succ _ (s.device d) c d _ _ hpos.since_le he (by rw [hc]) (by rw [hc])
  rw [← hc]
  apply h.setDevice
  refine ⟨?_, ?_, ?_, ?_, ?_⟩
  · rw [hc]
    change advance (s.device d).tail = ((s.device d).seen + 1) % queueSize
    rw [hpos.tail, advance_mod]
  · rw [hc]
    exact Nat.le_succ_of_le hpos.since_le
  · rw [hc]
    exact hlt
  · rw [hc]
    change s.log.length < (s.device d).seen + 1 + queueSize
    have := hpos.room
    omega
  · unfold DeviceContext.InCall
    by_cases hm : e.devMask d = true
    · rw [if_pos hm] at hserved hunread
      have hph : c.phase = .found (s.device d).tail := by
        rw [hc]
        exact if_pos hm
      rw [hph]
      refine ⟨e, ⟨?_, ?_, ?_, ?_⟩, ?_⟩
      · rw [hc]
        exact he
      · rw [hc]
        exact Nat.lt_succ_of_le hpos.since_le
      · rw [hc]
        exact hpos.tail
      · rw [hserved, List.map_append, ← hsettled, hc]
        rfl
      · rw [hunread, List.length_append] at hcount
        rw [hc] at hcount ⊢
        exact Nat.succ_injective (hcount.trans (Nat.add_comm _ _))
    · rw [if_neg hm] at hserved hunread
      have hph : c.phase = .scanning := by
        rw [hc]
        exact if_neg hm
      rw [hph]
      refine ⟨?_, ?_⟩
      · unfold DeviceContext.Settled
        rw [hserved, List.append_nil, ← hsettled, hc]
      · rw [hunread, List.nil_append] at hcount
        rw [hc] at hcount ⊢
        exact hcount

theorem EventQueue.Kept.store {s : EventQueue Dev} (h : s.Kept) {d : Dev} {slot : ℕ}
    {sc : BitVec 32} (hphase : (s.device d).phase = .loaded slot sc) :
    { s.setDevice d { s.device d with phase := .stored slot } with
      queue := update s.queue slot { s.queue slot with iSc := convert sc } }.Kept := by
  have hpos := h.device d (by rw [hphase]; exact ReadPhase.noConfusion)
  have hin := hpos.inCall
  unfold DeviceContext.InCall at hin
  rw [hphase] at hin
  obtain ⟨e, he, hcount, hsc⟩ := hin
  have hentry : { s.queue slot with iSc := convert sc } = e.converted := by
    have hwindow : s.log.length ≤ (s.device d).seen - 1 + queueSize := by
      have := hpos.room
      omega
    rw [he.slot_eq, hsc]
    rcases h.entry _ e he.last hwindow with heq | heq
    · rw [heq]
      rfl
    · rw [heq]
      rfl
  -- an entry of the ring in the same slot is that of the same event
  have hsame : ∀ i f, s.log[i]? = some f → s.log.length ≤ i + queueSize → i % queueSize = slot →
      f = e := by
    intro i f hi hwindow hslot
    obtain ⟨hlt, hf⟩ := List.getElem?_eq_some_iff.mp hi
    obtain ⟨hlt', _⟩ := List.getElem?_eq_some_iff.mp he.last
    have hroom := hpos.room
    have hsince := he.since_lt
    have hidx : i = (s.device d).seen - 1 := by
      rw [he.slot_eq] at hslot
      unfold queueSize at hslot hroom hwindow
      omega
    have hlast := he.last
    rw [← hidx, hi] at hlast
    exact Option.some.inj hlast
  rw [hentry]
  refine ⟨h.head, ?_, ?_⟩
  · intro i f hi hwindow
    change update s.queue slot e.converted _ = f ∨ update s.queue slot e.converted _ = f.converted
    by_cases hslot : i % queueSize = slot
    · rw [hsame i f hi hwindow hslot, hslot, update_self]
      exact Or.inr rfl
    · rw [update_of_ne hslot]
      exact h.entry i f hi hwindow
  · intro d' hd'
    change (update s.device d _ d').Position d' s.log (update s.queue slot e.converted)
    change (update s.device d _ d').phase ≠ _ at hd'
    rcases eq_or_ne d' d with rfl | hne
    · rw [update_self]
      refine ⟨hpos.tail, hpos.since_le, hpos.seen_le, hpos.room, e, ?_, hcount, ?_⟩
      · exact ⟨he.last, he.since_lt, he.slot_eq, he.got⟩
      · exact update_self slot _ s.queue
    · rw [update_of_ne hne] at hd' ⊢
      have hother := h.device d' hd'
      refine ⟨hother.tail, hother.since_le, hother.seen_le, hother.room, ?_⟩
      refine hother.inCall.stay rfl id (fun _ _ => id) 0 rfl rfl (fun _ => rfl) ?_
      intro slot' f hf hstored
      by_cases hslot : slot' = slot
      · have hwindow : s.log.length ≤ (s.device d').seen - 1 + queueSize := by
          have := hother.room
          omega
        rw [hsame _ f hf.last hwindow (hf.slot_eq.symm.trans hslot), hslot, update_self]
      · rw [update_of_ne hslot]
        exact hstored

theorem EventQueue.Kept.inCall {s : EventQueue Dev} (h : s.Kept) {d : Dev} {ph : ReadPhase}
    (hphase : (s.device d).phase = ph) (hne : ph ≠ .closed) :
    (s.device d).Position d s.log s.queue ∧
      ({ s.device d with phase := ph } : DeviceContext Dev).InCall d s.log s.queue := by
  subst hphase
  have hpos := h.device d hne
  exact ⟨hpos, hpos.inCall⟩

omit [DecidableEq Dev] in
theorem DeviceContext.Position.goTo {c : DeviceContext Dev} {d : Dev} {log : List (Event Dev)}
    {queue : ℕ → Event Dev} (h : c.Position d log queue) {ph : ReadPhase} {sem : ℕ}
    {got : List (Event Dev)}
    (hin : ({ c with phase := ph, appSemaphore := sem, delivered := got } :
      DeviceContext Dev).InCall d log queue) :
    ({ c with phase := ph, appSemaphore := sem, delivered := got } :
      DeviceContext Dev).Position d log queue :=
  ⟨h.tail, h.since_le, h.seen_le, h.room, hin⟩

theorem EventQueue.Kept.step {s s' : EventQueue Dev} {a : QueueStep Dev} (h : s.Kept)
    (hok : InTime s a) (hs : s.step a = some s') : s'.Kept := by
  cases a with
  | interrupt e =>
    obtain rfl := Option.some.inj hs
    exact h.interrupt hok
  | «open» d =>
    simp only [EventQueue.step, Option.ite_none_right_eq_some, Option.some.injEq] at hs
    obtain ⟨_, rfl⟩ := hs
    exact h.empty d
  | read d noDelay =>
    simp only [EventQueue.step, Option.ite_none_right_eq_some] at hs
    obtain ⟨hphase, hs⟩ := hs
    obtain ⟨hpos, hsettled, hcount⟩ := h.inCall hphase (by decide)
    split at hs
    · obtain rfl := Option.some.inj hs
      exact h
    · obtain rfl := Option.some.inj hs
      -- the bound on the semaphore changes nothing
      have hmin : min (s.device d).appSemaphore queueSize = (s.device d).appSemaphore := by
        apply min_eq_left
        have hroom := hpos.room
        have hle : ((s.device d).unread d s.log).length ≤ s.log.length - (s.device d).seen :=
          (List.length_filter_le _ _).trans_eq List.length_drop
        have hcount' : (s.device d).appSemaphore = ((s.device d).unread d s.log).length := hcount
        omega
      rw [hmin]
      exact h.setDevice (hpos.goTo ⟨hsettled, hcount⟩)
  | wait d =>
    simp only [EventQueue.step, Option.ite_none_right_eq_some, Option.some.injEq] at hs
    obtain ⟨⟨hphase, hpositive⟩, rfl⟩ := hs
    obtain ⟨hpos, hsettled, hcount⟩ := h.inCall hphase (by decide)
    exact h.setDevice (hpos.goTo ⟨hsettled, (Nat.sub_add_cancel hpositive).trans hcount⟩)
  | abort d =>
    simp only [EventQueue.step, Option.ite_none_right_eq_some, Option.some.injEq] at hs
    obtain ⟨hphase, rfl⟩ := hs
    obtain ⟨hpos, hsettled, hcount⟩ := h.inCall hphase (by decide)
    exact h.setDevice (hpos.goTo ⟨hsettled, hcount⟩)
  | scan d =>
    simp only [EventQueue.step, Option.ite_none_right_eq_some, Option.some.injEq] at hs
    obtain ⟨hphase, rfl⟩ := hs
    exact h.scan hphase
  | load d =>
    simp only [EventQueue.step] at hs
    split at hs
    · rename_i slot hphase
      obtain rfl := Option.some.inj hs
      obtain ⟨hpos, e, he, hcount⟩ := h.inCall hphase ReadPhase.noConfusion
      have hsc := hok slot e hphase he.last
      refine h.setDevice (hpos.goTo ⟨e, ⟨he.last, he.since_lt, he.slot_eq, he.got⟩, hcount, hsc⟩)
    · exact absurd hs (by simp)
  | store d =>
    simp only [EventQueue.step] at hs
    split at hs
    · rename_i slot sc hphase
      obtain rfl := Option.some.inj hs
      exact h.store hphase
    · exact absurd hs (by simp)
  | copy d =>
    simp only [EventQueue.step] at hs
    split at hs
    · rename_i slot hphase
      obtain rfl := Option.some.inj hs
      obtain ⟨hpos, e, he, hcount, hstored⟩ := h.inCall hphase ReadPhase.noConfusion
      rw [hstored]
      exact h.setDevice (hpos.goTo ⟨he.got, hcount⟩)
    · exact absurd hs (by simp)
  | purge d =>
    simp only [EventQueue.step, Option.ite_none_right_eq_some, Option.some.injEq] at hs
    obtain ⟨_, rfl⟩ := hs
    exact h.empty d
  | reset d =>
    simp only [EventQueue.step, Option.ite_none_right_eq_some, Option.some.injEq] at hs
    obtain ⟨hphase, rfl⟩ := hs
    obtain ⟨hpos, hsettled, hcount⟩ := h.inCall hphase (by decide)
    refine h.setDevice (hpos.goTo ⟨hsettled, ?_⟩)
    exact (congrArg List.length hcount).symm

theorem kept_of_reachUnder {s : EventQueue Dev} (h : tg8Queue.ReachUnder InTime s) : s.Kept :=
  h.invariant (fun _ => EventQueue.Fresh.kept) fun _ _ _ hkept hok hs =>
    EventQueue.Kept.step hkept hok hs

omit [DecidableEq Dev] in
theorem DeviceContext.expected_eq {c : DeviceContext Dev} (d : Dev) {log : List (Event Dev)}
    (hsince : c.since ≤ c.seen) (hseen : c.seen ≤ log.length) :
    ((log.drop c.since).filter fun e => e.devMask d) = c.served d log ++ c.unread d log := by
  have hlen : c.since ≤ (log.take c.seen).length := by
    rw [List.length_take]
    omega
  unfold DeviceContext.served DeviceContext.unread
  rw [← List.filter_append, ← List.drop_append_of_le_length hlen, List.take_append_drop]

omit [DecidableEq Dev] in
theorem DeviceContext.Carries.split {c : DeviceContext Dev} {d : Dev} {log : List (Event Dev)}
    {slot : ℕ} {e : Event Dev} (h : c.Carries d log slot e) :
    ∃ served rest, c.served d log = served ++ rest ∧ c.delivered = served.map Event.converted := by
  obtain ⟨served, rest, hsplit, hgot, _⟩ := List.append_eq_map_iff.mp h.got
  exact ⟨served, rest, hsplit, hgot.symm⟩

theorem EventQueue.Kept.delivers {s : EventQueue Dev} (h : s.Kept) {d : Dev}
    (hd : (s.device d).phase ≠ .closed) : Delivers s d := by
  have hpos := h.device d hd
  have hexp : s.expected d = _ := DeviceContext.expected_eq d hpos.since_le hpos.seen_le
  have hin := hpos.inCall
  refine ⟨?_, fun hscan => h.head ▸ (hpos.tail_ne hscan).2⟩
  unfold DeviceContext.InCall at hin
  generalize (s.device d).phase = ph at hin hd
  have hholds : ∀ slot e, (s.device d).Carries d s.log slot e → ph ≠ .idle → ph ≠ .waiting →
      ∃ served rest, s.expected d = served ++ rest ∧
        (s.device d).delivered = served.map Event.converted ∧
        (ph = .idle ∨ ph = .waiting → (s.device d).appSemaphore = rest.length) := by
    intro slot e he hidle hwaiting
    obtain ⟨served, rest, hsplit, hgot⟩ := he.split
    refine ⟨served, rest ++ (s.device d).unread d s.log, ?_, hgot, ?_⟩
    · rw [hexp, hsplit, List.append_assoc]
    · rintro (hph | hph)
      · exact absurd hph hidle
      · exact absurd hph hwaiting
  cases ph with
  | closed => exact absurd rfl hd
  | idle => exact ⟨_, _, hexp, hin.1, fun _ => hin.2⟩
  | waiting => exact ⟨_, _, hexp, hin.1, fun _ => hin.2⟩
  | scanning => exact ⟨_, _, hexp, hin.1, fun hph => by simp at hph⟩
  | found slot =>
    obtain ⟨e, he, _⟩ := hin
    exact hholds slot e he ReadPhase.noConfusion ReadPhase.noConfusion
  | loaded slot sc =>
    obtain ⟨e, he, _⟩ := hin
    exact hholds slot e he ReadPhase.noConfusion ReadPhase.noConfusion
  | stored slot =>
    obtain ⟨e, he, _⟩ := hin
    exact hholds slot e he ReadPhase.noConfusion ReadPhase.noConfusion
  | purging => exact ⟨_, _, hexp, hin.1, fun hph => by simp at hph⟩

end Queue

/-- An event with a super-cycle number, for all devices. -/
def anEvent : Event Bool := ⟨1, 0x23010000, 0x23010000, 0x00123400, 0, 0, 0, 0, 0, fun _ => true⟩

/-- A module with two devices. -/
def twoDevices : EventQueue Bool := ⟨0, fun _ => anEvent, fun _ => ⟨0, 0, .closed, 0, 0, []⟩, []⟩

/-- A device is opened. -/
def opened (d : Bool) : List (QueueStep Bool) := [.open d, .reset d]

/-- A device reads its next event. -/
def reads (d : Bool) : List (QueueStep Bool) :=
  [.read d false, .wait d, .scan d, .load d, .store d, .copy d]

end KernelModules.Tg8
