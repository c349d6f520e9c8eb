import KernelModules.Lib.Table
import KernelModules.Skel.ClientQueue

/-!
# The connections of the skeleton driver's clients

Each module has a list of connected clients for each of its 32 interrupts, and a mask of the
interrupts that are enabled.  `Connect` and `DisConnect` walk over the bits of a mask and change one
list at a time, but they enable and disable with the whole mask.

* `ModConn` is `SkelDrvrModConn`, with the loops of `Connect` and `DisConnect` bit by bit, and
  `WorkingArea` the installed modules and the open clients;
* `clients_connect`, `clients_disConnect` and the lemmas on `enabledInts` say what the loops do;
* `EnabledLaw` is the correspondence between mask and lists, which the steps that meet `MaskWhole`
  keep (`enabledLaw_of_reach`);
* `ListLaws` says that the lists have no duplicates and only open clients, and
  `fillClientsQueues_apply` what an interrupt does to the queues of all clients.
-/

namespace KernelModules.Skel

open Function KernelModules.Lib

/-! ### The lists of a module -/

/-- `SkelDrvrModConn`. -/
structure ModConn (Client : Type*) where
  clients : Fin 32 → List Client
  enabledInts : U32

namespace ModConn

variable {Client : Type*} [DecidableEq Client]

/-- The body of the loop of `Connect`; `alloc` says whether the link could be allocated. -/
def connectBit (m : ModConn Client) (c : Client) (imsk : U32) (alloc : Bool) (j : Fin 32) :
    ModConn Client :=
  if imsk.getLsbD j then
    let clients :=
      if c ∈ m.clients j then m.clients j
      else if alloc then c :: m.clients j
      else m.clients j
    { clients := update m.clients j clients
      enabledInts :=
        if c ∈ m.clients j ∨ alloc then m.enabledInts ||| imsk else m.enabledInts }
  else m

/-- The loop of `Connect` over the interrupts of a module. -/
def connect (m : ModConn Client) (c : Client) (imsk : U32) (alloc : Fin 32 → Bool) :
    ModConn Client :=
  (List.finRange 32).foldl (fun m j => m.connectBit c imsk (alloc j) j) m

/-- The body of the loop of `DisConnect`. -/
def disConnectBit (m : ModConn Client) (c : Client) (imsk : U32) (j : Fin 32) : ModConn Client :=
  if imsk.getLsbD j = false ∨ m.clients j = [] then m
  else if c ∈ m.clients j then
    { clients := update m.clients j ((m.clients j).erase c)
      enabledInts :=
        if (m.clients j).erase c = [] then m.enabledInts &&& ~~~imsk else m.enabledInts }
  else m

/-- The mask `DisConnect` works with: an empty one stands for all interrupts. -/
def wholeMask (conMask : U32) : U32 := if conMask = 0 then ~~~conMask else conMask

/-- The loop of `DisConnect` over the interrupts of a module. -/
def disConnect (m : ModConn Client) (c : Client) (conMask : U32) : ModConn Client :=
  (List.finRange 32).foldl (fun m j => m.disConnectBit c (wholeMask conMask) j) m

end ModConn

/-! ### The working area -/

/-- A module context: its number and its connections. -/
structure ConnModule (Client : Type*) where
  moduleNumber : U32
  connected : ModConn Client

/-- `SkelDrvrWorkingArea`: the installed modules, the list of open clients, and the module each
client has selected. -/
structure WorkingArea (Client : Type*) where
  modules : List (ConnModule Client)
  clients : List Client
  moduleNumber : Client → U32

namespace WorkingArea

variable {Client : Type*} [DecidableEq Client]

/-- `get_mcon`: the place of the first module with the number. -/
def getMcon (wa : WorkingArea Client) (modnr : U32) : Option ℕ :=
  wa.modules.findIdx? fun m => m.moduleNumber == modnr

/-- The module a connection is about: without a number the client's own. -/
def target (wa : WorkingArea Client) (c : Client) (module : U32) : Option ℕ :=
  wa.getMcon (if module = 0 then wa.moduleNumber c else module)

/-- A change of the connections of one module. -/
def onModule (wa : WorkingArea Client) (i : ℕ) (f : ModConn Client → ModConn Client) :
    WorkingArea Client :=
  { wa with modules := wa.modules.modify i fun m => { m with connected := f m.connected } }

/-- `Connect`. -/
def connect (wa : WorkingArea Client) (c : Client) (conx : Connection) (alloc : Fin 32 → Bool) :
    WorkingArea Client :=
  match wa.target c conx.module with
  | none => wa
  | some i => wa.onModule i fun m => m.connect c conx.conMask alloc

/-- `DisConnect`. -/
def disConnect (wa : WorkingArea Client) (c : Client) (conx : Connection) : WorkingArea Client :=
  match wa.target c conx.module with
  | none => wa
  | some i => wa.onModule i fun m => m.disConnect c conx.conMask

/-- `DisConnectAll`: every module by its number. -/
def disConnectAll (wa : WorkingArea Client) (c : Client) : WorkingArea Client :=
  (wa.modules.map ConnModule.moduleNumber).foldl (fun wa n => wa.disConnect c ⟨n, 0⟩) wa

/-- `SkelDrvrOpen`, which selects the first module, unless it runs out of memory. -/
def skelDrvrOpen (wa : WorkingArea Client) (c : Client) (alloc : Bool) : WorkingArea Client :=
  if alloc then
    { wa with
      clients := c :: wa.clients
      moduleNumber :=
        update wa.moduleNumber c ((wa.modules.head?.map ConnModule.moduleNumber).getD 0) }
  else wa

/-- `__do_close`. -/
def doClose (wa : WorkingArea Client) (c : Client) : WorkingArea Client :=
  let wa := wa.disConnectAll c
  { wa with clients := wa.clients.erase c }

/-- `SET_MODULE`, which refuses a module that does not exist. -/
def setModule (wa : WorkingArea Client) (c : Client) (modnr : U32) : WorkingArea Client :=
  match wa.getMcon modnr with
  | none => wa
  | some _ => { wa with moduleNumber := update wa.moduleNumber c modnr }

end WorkingArea

/-- What a client does. -/
inductive ConnLabel (Client : Type*)
  | opens (c : Client) (alloc : Bool)
  | connect (c : Client) (conx : Connection) (alloc : Fin 32 → Bool)
  | disConnect (c : Client) (conx : Connection)
  | disConnectAll (c : Client)
  | close (c : Client)
  | setModule (c : Client) (modnr : U32)

section System

variable {Client : Type*} [DecidableEq Client]

/-- A context that is opened is a new one, and only an open client has calls to make. -/
def WorkingArea.Allowed (wa : WorkingArea Client) : ConnLabel Client → Prop
  | .opens c _ => c ∉ wa.clients
  | .connect c _ _ => c ∈ wa.clients
  | .disConnect c _ => c ∈ wa.clients
  | .disConnectAll c => c ∈ wa.clients
  | .close c => c ∈ wa.clients
  | .setModule c _ => c ∈ wa.clients

instance (wa : WorkingArea Client) (l : ConnLabel Client) : Decidable (wa.Allowed l) := by
  unfold WorkingArea.Allowed
  split <;> infer_instance

/-- What a call does. -/
def WorkingArea.call (wa : WorkingArea Client) : ConnLabel Client → WorkingArea Client
  | .opens c alloc => wa.skelDrvrOpen c alloc
  | .connect c conx alloc => wa.connect c conx alloc
  | .disConnect c conx => wa.disConnect c conx
  | .disConnectAll c => wa.disConnectAll c
  | .close c => wa.doClose c
  | .setModule c modnr => wa.setModule c modnr

def connStep (wa : WorkingArea Client) (l : ConnLabel Client) : Option (WorkingArea Client) :=
  if wa.Allowed l then some (wa.call l) else none

theorem connStep_eq_some {wa wa' : WorkingArea Client} {l : ConnLabel Client}
    (h : connStep wa l = some wa') : wa.Allowed l ∧ wa' = wa.call l := by
  rw [connStep] at h
  split at h
  · rename_i hallowed
    exact ⟨hallowed, (Option.some.inj h).symm⟩
  · cases h

/-- The area after the installation: no client, empty lists, nothing enabled. -/
def WorkingArea.Installed (wa : WorkingArea Client) : Prop :=
  wa.clients = [] ∧
    ∀ m ∈ wa.modules, (∀ j, m.connected.clients j = []) ∧ m.connected.enabledInts = 0

/-- Any calls of any clients, on any installed modules. -/
def connSystem (Client : Type*) [DecidableEq Client] :
    System (WorkingArea Client) (ConnLabel Client) :=
  System.ofFun WorkingArea.Installed connStep

end System

/-! ### What the loops do -/

namespace ModConn

variable {Client : Type*} [DecidableEq Client] (m : ModConn Client) (c : Client) (imsk : U32)
  (alloc : Fin 32 → Bool)

/-- What one round of `Connect` makes of a list. -/
def connectList (j : Fin 32) (l : List Client) : List Client :=
  if imsk.getLsbD j = true ∧ c ∉ l ∧ alloc j = true then c :: l else l

/-- What one round of `DisConnect` makes of a list. -/
def disConnectList (j : Fin 32) (l : List Client) : List Client :=
  if imsk.getLsbD j = true then l.erase c else l

theorem clients_connectBit (j : Fin 32) :
    (m.connectBit c imsk (alloc j) j).clients =
      update m.clients j (connectList c imsk alloc j (m.clients j)) := by
  by_cases hbit : imsk.getLsbD j = true
  · rw [connectBit, if_pos hbit]
    show update m.clients j (if c ∈ m.clients j then m.clients j
      else if alloc j = true then c :: m.clients j else m.clients j) = _
    congr 1
    by_cases hc : c ∈ m.clients j
    · rw [if_pos hc, connectList, if_neg fun h => h.2.1 hc]
    · rw [if_neg hc, connectList]
      by_cases ha : alloc j = true
      · rw [if_pos ha, if_pos ⟨hbit, hc, ha⟩]
      · rw [if_neg ha, if_neg fun h => ha h.2.2]
  · rw [connectBit, if_neg hbit, connectList, if_neg fun h => hbit h.1, update_eq_self]

theorem clients_disConnectBit (j : Fin 32) :
    (m.disConnectBit c imsk j).clients =
      update m.clients j (disConnectList c imsk j (m.clients j)) := by
  rw [disConnectBit, disConnectList]
  by_cases hbit : imsk.getLsbD j = true
  · rw [if_pos hbit]
    by_cases hc : c ∈ m.clients j
    · rw [if_neg (by simp [hbit, List.ne_nil_of_mem hc]), if_pos hc]
    · rw [if_neg hc, ite_self, List.erase_of_not_mem hc, update_eq_self]
  · rw [if_neg hbit, if_pos (Or.inl (Bool.eq_false_iff.2 hbit)), update_eq_self]

theorem clients_connect (j : Fin 32) :
    (m.connect c imsk alloc).clients j = connectList c imsk alloc j (m.clients j) := by
  have hfold := cells_foldl ModConn.clients (fun m j => m.connectBit c imsk (alloc j) j)
    (connectList c imsk alloc) (fun m j => m.clients_connectBit c imsk alloc j)
    (List.nodup_finRange 32) m j
  rwa [if_pos (List.mem_finRange j)] at hfold

theorem clients_disConnect (conMask : U32) (j : Fin 32) :
    (m.disConnect c conMask).clients j =
      disConnectList c (wholeMask conMask) j (m.clients j) := by
  have hfold := cells_foldl ModConn.clients (fun m j => m.disConnectBit c (wholeMask conMask) j)
    (disConnectList c (wholeMask conMask)) (fun m j => m.clients_disConnectBit c _ j)
    (List.nodup_finRange 32) m j
  rwa [if_pos (List.mem_finRange j)] at hfold

theorem enabledInts_connect :
    ((∃ j : Fin 32, imsk.getLsbD j = true ∧ (c ∈ m.clients j ∨ alloc j = true)) →
      (m.connect c imsk alloc).enabledInts = m.enabledInts ||| imsk) ∧
    ((∀ j : Fin 32, imsk.getLsbD j = true → c ∉ m.clients j ∧ alloc j = false) →
      (m.connect c imsk alloc).enabledInts = m.enabledInts) := by
  have hfold := mark_foldl ModConn.clients (fun m j => m.connectBit c imsk (alloc j) j)
    (connectList c imsk alloc) ModConn.enabledInts (· ||| imsk)
    (fun j l => imsk.getLsbD j = true ∧ (c ∈ l ∨ alloc j = true))
    (fun b => by rw [BitVec.or_assoc, BitVec.or_self])
    (fun m j => m.clients_connectBit c imsk alloc j)
    (by
      rintro m j ⟨hbit, hgot⟩
      rw [connectBit, if_pos hbit]
      exact if_pos hgot)
    (by
      intro m j hnot
      rw [connectBit]
      split
      · rename_i hbit
        exact if_neg fun hgot => hnot ⟨hbit, hgot⟩
      · rfl)
    (List.nodup_finRange 32) m
  refine ⟨fun h => hfold.1 ?_, fun h => hfold.2 fun j _ => ?_⟩
  · obtain ⟨j, hj⟩ := h
    exact ⟨j, List.mem_finRange j, hj⟩
  · rintro ⟨hbit, hgot⟩
    obtain ⟨hc, ha⟩ := h j hbit
    rcases hgot with hgot | hgot
    · exact hc hgot
    · rw [ha] at hgot
      cases hgot

theorem enabledInts_disConnect (conMask : U32) :
    ((∃ j : Fin 32, (wholeMask conMask).getLsbD j = true ∧ c ∈ m.clients j ∧
        (m.clients j).erase c = []) →
      (m.disConnect c conMask).enabledInts = m.enabledInts &&& ~~~wholeMask conMask) ∧
    ((∀ j : Fin 32, (wholeMask conMask).getLsbD j = true → c ∈ m.clients j →
        (m.clients j).erase c ≠ []) →
      (m.disConnect c conMask).enabledInts = m.enabledInts) := by
  have hfold := mark_foldl ModConn.clients (fun m j => m.disConnectBit c (wholeMask conMask) j)
    (disConnectList c (wholeMask conMask)) ModConn.enabledInts (· &&& ~~~wholeMask conMask)
    (fun j l => (wholeMask conMask).getLsbD j = true ∧ c ∈ l ∧ l.erase c = [])
    (fun b => by rw [BitVec.and_assoc, BitVec.and_self])
    (fun m j => m.clients_disConnectBit c _ j)
    (by
      rintro m j ⟨hbit, hc, hnil⟩
      rw [disConnectBit, if_neg (by simp [hbit, List.ne_nil_of_mem hc]), if_pos hc]
      exact if_pos hnil)
    (by
      intro m j hnot
      rw [disConnectBit]
      split
      · rfl
      rename_i hout
      split
      · rename_i hc
        refine if_neg fun hnil => hnot ⟨?_, hc, hnil⟩
        rw [← Bool.not_eq_false]
        exact fun h => hout (Or.inl h)
      · rfl)
    (List.nodup_finRange 32) m
  refine ⟨fun h => hfold.1 ?_, fun h => hfold.2 fun j _ hj => h j hj.1 hj.2.1 hj.2.2⟩
  obtain ⟨j, hj⟩ := h
  exact ⟨j, List.mem_finRange j, hj⟩

/-! ### Mask and lists of a module -/

/-- No client is twice on a list. -/
def Distinct (m : ModConn Client) : Prop := ∀ j, (m.clients j).Nodup

/-- **Mask and lists.**  An interrupt is enabled exactly when somebody is connected to it. -/
def EnabledLaw (m : ModConn Client) : Prop :=
  ∀ j : Fin 32, m.enabledInts.getLsbD j = true ↔ m.clients j ≠ []

/-- If any bit of the mask gets the client, none of its bits is left without one. -/
def ConnectsWhole (m : ModConn Client) (c : Client) (imsk : U32) (alloc : Fin 32 → Bool) : Prop :=
  (∃ j : Fin 32, imsk.getLsbD j = true ∧ (c ∈ m.clients j ∨ alloc j = true)) →
    ∀ j : Fin 32, imsk.getLsbD j = true → m.clients j ≠ [] ∨ alloc j = true

/-- If the client is alone on any bit of the mask, nobody else is on any of its bits. -/
def DisConnectsWhole (m : ModConn Client) (c : Client) (imsk : U32) : Prop :=
  (∃ j : Fin 32, imsk.getLsbD j = true ∧ m.clients j = [c]) →
    ∀ j : Fin 32, imsk.getLsbD j = true → ∀ x ∈ m.clients j, x = c

instance (m : ModConn Client) (c : Client) (imsk : U32) (alloc : Fin 32 → Bool) :
    Decidable (m.ConnectsWhole c imsk alloc) := by
  unfold ConnectsWhole
  infer_instance

instance (m : ModConn Client) (c : Client) (imsk : U32) : Decidable (m.DisConnectsWhole c imsk) := by
  unfold DisConnectsWhole
  infer_instance

variable {m c imsk alloc}

theorem Distinct.connect (h : m.Distinct) : (m.connect c imsk alloc).Distinct := by
  intro j
  rw [clients_connect, connectList]
  split
  · rename_i hnew
    exact List.nodup_cons.2 ⟨hnew.2.1, h j⟩
  · exact h j

theorem Distinct.disConnect (h : m.Distinct) (conMask : U32) :
    (m.disConnect c conMask).Distinct := by
  intro j
  rw [clients_disConnect, disConnectList]
  split
  · exact (h j).erase c
  · exact h j

theorem erase_eq_nil_iff {l : List Client} (hl : l.Nodup) :
    l.erase c = [] ↔ ∀ x ∈ l, x = c := by
  constructor
  · intro hnil x hx
    by_contra hne
    have hmem := (List.mem_erase_of_ne hne).2 hx
    rw [hnil] at hmem
    cases hmem
  · intro hall
    refine List.eq_nil_iff_forall_not_mem.2 fun x hx => ?_
    obtain ⟨hne, hmem⟩ := hl.mem_erase_iff.1 hx
    exact hne (hall x hmem)

theorem mem_erase_nil_iff {l : List Client} (hl : l.Nodup) :
    c ∈ l ∧ l.erase c = [] ↔ l = [c] := by
  constructor
  · rintro ⟨hc, hnil⟩
    rw [List.perm_singleton.1 ((List.perm_cons_erase hc).trans (by rw [hnil]))]
  · rintro rfl
    simp

theorem EnabledLaw.connect_iff (h : m.EnabledLaw) :
    (m.connect c imsk alloc).EnabledLaw ↔ m.ConnectsWhole c imsk alloc := by
  obtain ⟨hsome, hnone⟩ := enabledInts_connect m c imsk alloc
  have hlist : ∀ j, (m.connect c imsk alloc).clients j = [] ↔
      m.clients j = [] ∧ ¬ (imsk.getLsbD j = true ∧ alloc j = true) := by
    intro j
    rw [clients_connect, connectList]
    split
    · rename_i hnew
      simp [hnew.1, hnew.2.2]
    · rename_i hold
      refine ⟨fun hnil => ⟨hnil, fun hboth => hold ⟨hboth.1, ?_, hboth.2⟩⟩, fun hboth => hboth.1⟩
      rw [hnil]
      exact List.not_mem_nil
  by_cases hgot : ∃ j : Fin 32, imsk.getLsbD j = true ∧ (c ∈ m.clients j ∨ alloc j = true)
  · constructor
    · intro hlaw _ j hbit
      have hset : (m.connect c imsk alloc).enabledInts.getLsbD j = true := by
        rw [hsome hgot, BitVec.getLsbD_or, hbit, Bool.or_true]
      have hne := (hlaw j).1 hset
      by_contra hcon
      rw [not_or, not_not] at hcon
      exact hne ((hlist j).2 ⟨hcon.1, fun hboth => hcon.2 hboth.2⟩)
    · intro hwhole j
      rw [hsome hgot, BitVec.getLsbD_or, Bool.or_eq_true, h j, ne_eq, ne_eq, hlist j, not_and_or,
        not_not]
      constructor
      · rintro (hne | hbit)
        · exact Or.inl hne
        · exact (hwhole hgot j hbit).imp_right fun ha => ⟨hbit, ha⟩
      · exact fun hor => hor.imp_right fun hboth => hboth.1
  · have hall : ∀ j : Fin 32, imsk.getLsbD j = true → c ∉ m.clients j ∧ alloc j = false := by
      intro j hbit
      refine ⟨fun hc => hgot ⟨j, hbit, Or.inl hc⟩, ?_⟩
      rw [← Bool.not_eq_true]
      exact fun ha => hgot ⟨j, hbit, Or.inr ha⟩
    refine iff_of_true (fun j => ?_) fun hex => absurd hex hgot
    rw [hnone hall, h j, ne_eq, ne_eq, hlist j, not_and_or, not_not]
    constructor
    · exact Or.inl
    · rintro (hne | ⟨hbit, ha⟩)
      · exact hne
      · rw [(hall j hbit).2] at ha
        cases ha

theorem EnabledLaw.disConnect_iff (h : m.EnabledLaw) (hdistinct : m.Distinct) (conMask : U32) :
    (m.disConnect c conMask).EnabledLaw ↔ m.DisConnectsWhole c (wholeMask conMask) := by
  obtain ⟨hsome, hnone⟩ := enabledInts_disConnect m c conMask
  by_cases hlast : ∃ j : Fin 32, (wholeMask conMask).getLsbD j = true ∧ m.clients j = [c]
  · have hgone : (m.disConnect c conMask).enabledInts =
        m.enabledInts &&& ~~~wholeMask conMask := by
      refine hsome ?_
      obtain ⟨j, hbit, hj⟩ := hlast
      exact ⟨j, hbit, (mem_erase_nil_iff (hdistinct j)).2 hj⟩
    have hbits : ∀ j : Fin 32, (m.disConnect c conMask).enabledInts.getLsbD j = true ↔
        m.enabledInts.getLsbD j = true ∧ (wholeMask conMask).getLsbD j = false := by
      intro j
      rw [hgone, BitVec.getLsbD_and, BitVec.getLsbD_not, decide_eq_true j.isLt, Bool.true_and,
        Bool.and_eq_true, Bool.not_eq_true']
    constructor
    · intro hlaw _ j hbit
      refine (erase_eq_nil_iff (hdistinct j)).1 ?_
      have hlist : (m.disConnect c conMask).clients j = (m.clients j).erase c := by
        rw [clients_disConnect, disConnectList, if_pos hbit]
      rw [← hlist]
      by_contra hne
      have hoff := ((hbits j).1 ((hlaw j).2 hne)).2
      rw [hbit] at hoff
      cases hoff
    · intro hwhole j
      rw [hbits j, clients_disConnect, disConnectList]
      by_cases hbit : (wholeMask conMask).getLsbD j = true
      · rw [if_pos hbit, (erase_eq_nil_iff (hdistinct j)).2 (hwhole hlast j hbit)]
        exact iff_of_false (fun hboth => by rw [hbit] at hboth; cases hboth.2) (by simp)
      · rw [if_neg hbit, h j]
        exact and_iff_left (Bool.eq_false_iff.2 hbit)
  · refine iff_of_true (fun j => ?_) fun hex => absurd hex hlast
    have hkept : (m.disConnect c conMask).enabledInts = m.enabledInts := by
      refine hnone fun j hbit hc hnil => hlast ⟨j, hbit, ?_⟩
      exact (mem_erase_nil_iff (hdistinct j)).1 ⟨hc, hnil⟩
    rw [hkept, h j, clients_disConnect, disConnectList]
    split
    · rename_i hbit
      by_cases hc : c ∈ m.clients j
      · refine iff_of_true (List.ne_nil_of_mem hc) fun hnil => hlast ⟨j, hbit, ?_⟩
        exact (mem_erase_nil_iff (hdistinct j)).1 ⟨hc, hnil⟩
      · rw [List.erase_of_not_mem hc]
    · exact Iff.rfl

theorem disConnect_disConnect (h : m.Distinct) (conMask : U32) :
    (m.disConnect c conMask).disConnect c conMask = m.disConnect c conMask := by
  have hgone : ∀ j : Fin 32, (wholeMask conMask).getLsbD j = true →
      c ∉ (m.disConnect c conMask).clients j := by
    intro j hbit
    rw [clients_disConnect, disConnectList, if_pos hbit]
    exact (h j).not_mem_erase
  have hlists : ((m.disConnect c conMask).disConnect c conMask).clients =
      (m.disConnect c conMask).clients := by
    funext j
    rw [clients_disConnect, disConnectList]
    split
    · rename_i hbit
      exact List.erase_of_not_mem (hgone j hbit)
    · rfl
  have hmask := (enabledInts_disConnect (m.disConnect c conMask) c conMask).2
    fun j hbit hc => absurd hc (hgone j hbit)
  calc (m.disConnect c conMask).disConnect c conMask
      = ⟨((m.disConnect c conMask).disConnect c conMask).clients,
          ((m.disConnect c conMask).disConnect c conMask).enabledInts⟩ := rfl
    _ = m.disConnect c conMask := by rw [hlists, hmask]

end ModConn

/-! ### What the calls do to the modules -/

namespace WorkingArea

variable {Client : Type*}

theorem getMcon_spec {wa : WorkingArea Client} {n : U32} {i : ℕ} (h : wa.getMcon n = some i) :
    ∃ m, wa.modules[i]? = some m ∧ m.moduleNumber = n := by
  obtain ⟨hi, hm, -⟩ := List.findIdx?_eq_some_iff_getElem.1 h
  exact ⟨wa.modules[i], List.getElem?_eq_getElem hi, by simpa using hm⟩

theorem modules_onModule (wa : WorkingArea Client) (i : ℕ)
    (f : ModConn Client → ModConn Client) (k : ℕ) :
    (wa.onModule i f).modules[k]? = (wa.modules[k]?).map fun m =>
      if i = k then { m with connected := f m.connected } else m := by
  rw [onModule, List.getElem?_modify]
  rfl

theorem numbers_onModule (wa : WorkingArea Client) (i : ℕ)
    (f : ModConn Client → ModConn Client) :
    (wa.onModule i f).modules.map ConnModule.moduleNumber =
      wa.modules.map ConnModule.moduleNumber := by
  refine List.ext_getElem? fun k => ?_
  rw [List.getElem?_map, List.getElem?_map, modules_onModule, Option.map_map]
  congr 1
  funext m
  show ConnModule.moduleNumber (if i = k then _ else m) = _
  split
  · rfl
  · rfl

theorem getMcon_congr {wa wa' : WorkingArea Client}
    (h : wa'.modules.map ConnModule.moduleNumber = wa.modules.map ConnModule.moduleNumber)
    (n : U32) : wa'.getMcon n = wa.getMcon n := by
  have hmap : ∀ w : WorkingArea Client, w.getMcon n =
      (w.modules.map ConnModule.moduleNumber).findIdx? (· == n) := by
    intro w
    rw [List.findIdx?_map]
    rfl
  rw [hmap, hmap, h]

variable [DecidableEq Client]

/-- The module of a connection. -/
def targetModule (wa : WorkingArea Client) (c : Client) (module : U32) :
    Option (ConnModule Client) :=
  (wa.target c module).bind fun i => wa.modules[i]?

/-- The places `DisConnectAll` comes to. -/
def Reached (wa : WorkingArea Client) (c : Client) (ns : List U32) (k : ℕ) : Prop :=
  ∃ n ∈ ns, wa.target c n = some k

instance (wa : WorkingArea Client) (c : Client) (ns : List U32) (k : ℕ) :
    Decidable (wa.Reached c ns k) :=
  inferInstanceAs (Decidable (∃ n ∈ ns, wa.target c n = some k))

/-- No client is twice on any list. -/
def Distinct (wa : WorkingArea Client) : Prop := ∀ m ∈ wa.modules, m.connected.Distinct

theorem disConnect_frame (wa : WorkingArea Client) (c : Client) (conx : Connection) :
    (wa.disConnect c conx).clients = wa.clients ∧
    (wa.disConnect c conx).moduleNumber = wa.moduleNumber ∧
    (wa.disConnect c conx).modules.map ConnModule.moduleNumber =
      wa.modules.map ConnModule.moduleNumber := by
  rw [disConnect]
  split
  · exact ⟨rfl, rfl, rfl⟩
  · exact ⟨rfl, rfl, numbers_onModule wa _ _⟩

theorem target_disConnect (wa : WorkingArea Client) (c : Client) (conx : Connection) (n : U32) :
    (wa.disConnect c conx).target c n = wa.target c n := by
  obtain ⟨-, hnumber, hnumbers⟩ := wa.disConnect_frame c conx
  rw [target, target, hnumber, getMcon_congr hnumbers]

theorem modules_disConnect (wa : WorkingArea Client) (c : Client) (conx : Connection) (k : ℕ) :
    (wa.disConnect c conx).modules[k]? = (wa.modules[k]?).map fun m =>
      if wa.target c conx.module = some k then
        { m with connected := m.connected.disConnect c conx.conMask }
      else m := by
  rw [disConnect]
  split
  · rename_i hnone
    simp [hnone]
  · rename_i i hsome
    rw [modules_onModule, hsome]
    simp only [Option.some.injEq]

omit [DecidableEq Client] in
theorem Distinct.of_getElem? {wa : WorkingArea Client} (h : wa.Distinct) {k : ℕ}
    {m : ConnModule Client} (hm : wa.modules[k]? = some m) : m.connected.Distinct :=
  h m (List.mem_of_getElem? hm)

theorem Distinct.disConnect {wa : WorkingArea Client} (h : wa.Distinct) (c : Client)
    (conx : Connection) : (wa.disConnect c conx).Distinct := by
  intro m' hm'
  obtain ⟨k, hk⟩ := List.mem_iff_getElem?.1 hm'
  rw [modules_disConnect, Option.map_eq_some_iff] at hk
  obtain ⟨m, hm, rfl⟩ := hk
  split
  · exact (h.of_getElem? hm).disConnect _
  · exact h.of_getElem? hm

theorem foldl_disConnect {wa : WorkingArea Client} (h : wa.Distinct) (c : Client)
    (ns : List U32) :
    let wa' := ns.foldl (fun wa n => wa.disConnect c ⟨n, 0⟩) wa
    wa'.clients = wa.clients ∧ wa'.moduleNumber = wa.moduleNumber ∧
    wa'.modules.map ConnModule.moduleNumber = wa.modules.map ConnModule.moduleNumber ∧
    ∀ k, wa'.modules[k]? = (wa.modules[k]?).map fun m =>
      if wa.Reached c ns k then { m with connected := m.connected.disConnect c 0 } else m := by
  induction ns generalizing wa with
  | nil =>
    refine ⟨rfl, rfl, rfl, fun k => ?_⟩
    simp [Reached]
  | cons n ns ih =>
    obtain ⟨hclients, hnumber, hnumbers, hmodules⟩ := ih (h.disConnect c ⟨n, 0⟩)
    obtain ⟨hclients', hnumber', hnumbers'⟩ := wa.disConnect_frame c ⟨n, 0⟩
    refine ⟨hclients.trans hclients', hnumber.trans hnumber', hnumbers.trans hnumbers', ?_⟩
    intro k
    rw [List.foldl_cons, hmodules, modules_disConnect, Option.map_map]
    have hreached : (wa.disConnect c ⟨n, 0⟩).Reached c ns k ↔ wa.Reached c ns k := by
      simp only [Reached, target_disConnect]
    have hcons : wa.Reached c (n :: ns) k ↔ wa.target c n = some k ∨ wa.Reached c ns k := by
      simp only [Reached, List.exists_mem_cons_iff]
    cases hm : wa.modules[k]? with
    | none => rw [Option.map_none, Option.map_none]
    | some m =>
      have hidem := ModConn.disConnect_disConnect (c := c) (h.of_getElem? hm) 0
      rw [Option.map_some, Option.map_some, Option.some.injEq, comp_apply]
      by_cases hn : wa.target c n = some k
      · rw [if_pos hn, if_pos (hcons.2 (Or.inl hn))]
        split
        · rw [hidem]
        · rfl
      · rw [if_neg hn]
        by_cases hr : wa.Reached c ns k
        · rw [if_pos (hreached.2 hr), if_pos (hcons.2 (Or.inr hr))]
        · rw [if_neg fun h => hr (hreached.1 h), if_neg fun h => (hcons.1 h).elim hn hr]

theorem modules_disConnectAll {wa : WorkingArea Client} (h : wa.Distinct) (c : Client) (k : ℕ) :
    (wa.disConnectAll c).modules[k]? = (wa.modules[k]?).map fun m =>
      if wa.Reached c (wa.modules.map ConnModule.moduleNumber) k then
        { m with connected := m.connected.disConnect c 0 }
      else m :=
  (foldl_disConnect h c _).2.2.2 k

theorem modules_connect (wa : WorkingArea Client) (c : Client) (conx : Connection)
    (alloc : Fin 32 → Bool) (k : ℕ) :
    (wa.connect c conx alloc).modules[k]? = (wa.modules[k]?).map fun m =>
      if wa.target c conx.module = some k then
        { m with connected := m.connected.connect c conx.conMask alloc }
      else m := by
  rw [connect]
  split
  · rename_i hnone
    simp [hnone]
  · rename_i i hsome
    rw [modules_onModule, hsome]
    simp only [Option.some.injEq]

omit [DecidableEq Client] in
theorem forall_modules {wa wa' : WorkingArea Client} {hit : ℕ → Prop} [DecidablePred hit]
    {P : ModConn Client → Prop} (f : ModConn Client → ModConn Client)
    (hmodules : ∀ k, wa'.modules[k]? = (wa.modules[k]?).map fun m =>
      if hit k then { m with connected := f m.connected } else m)
    (h : ∀ m ∈ wa.modules, P m.connected)
    (hf : ∀ k m, wa.modules[k]? = some m → hit k → P m.connected → P (f m.connected)) :
    ∀ m ∈ wa'.modules, P m.connected := by
  intro m' hm'
  obtain ⟨k, hk⟩ := List.mem_iff_getElem?.1 hm'
  rw [hmodules, Option.map_eq_some_iff] at hk
  obtain ⟨m, hm, rfl⟩ := hk
  have hP := h m (List.mem_of_getElem? hm)
  split
  · rename_i hit
    exact hf k m hm hit hP
  · exact hP

/-! ### Mask and lists over whole runs -/

/-- **Mask and lists**, on every module. -/
def EnabledLaw (wa : WorkingArea Client) : Prop := ∀ m ∈ wa.modules, m.connected.EnabledLaw

/-- The steps that change mask and lists alike: a `Connect` gives every bit of its mask a client or
none, and a `DisConnect` that empties one list of its mask leaves nobody else on the others. -/
def MaskWhole (wa : WorkingArea Client) : ConnLabel Client → Prop
  | .connect c conx alloc => ∀ m ∈ wa.targetModule c conx.module,
      m.connected.ConnectsWhole c conx.conMask alloc
  | .disConnect c conx => ∀ m ∈ wa.targetModule c conx.module,
      m.connected.DisConnectsWhole c (ModConn.wholeMask conx.conMask)
  | .disConnectAll c => ∀ n ∈ wa.modules.map ConnModule.moduleNumber,
      ∀ m ∈ wa.targetModule c n, m.connected.DisConnectsWhole c (ModConn.wholeMask 0)
  | .close c => ∀ n ∈ wa.modules.map ConnModule.moduleNumber,
      ∀ m ∈ wa.targetModule c n, m.connected.DisConnectsWhole c (ModConn.wholeMask 0)
  | .opens _ _ => True
  | .setModule _ _ => True

instance (wa : WorkingArea Client) (l : ConnLabel Client) : Decidable (MaskWhole wa l) := by
  unfold MaskWhole
  split <;> infer_instance

omit [DecidableEq Client] in
theorem mem_targetModule {wa : WorkingArea Client} {c : Client} {n : U32} {k : ℕ}
    {m : ConnModule Client} (ht : wa.target c n = some k) (hm : wa.modules[k]? = some m) :
    m ∈ wa.targetModule c n := by
  rw [targetModule, ht]
  exact hm

variable {wa wa' : WorkingArea Client} {l : ConnLabel Client}

theorem Distinct.connect (h : wa.Distinct) (c : Client) (conx : Connection)
    (alloc : Fin 32 → Bool) : (wa.connect c conx alloc).Distinct :=
  forall_modules (fun m => m.connect c conx.conMask alloc) (wa.modules_connect c conx alloc) h
    fun _ _ _ _ hm => hm.connect

theorem Distinct.disConnectAll (h : wa.Distinct) (c : Client) : (wa.disConnectAll c).Distinct :=
  forall_modules (fun m => m.disConnect c 0) (modules_disConnectAll h c) h
    fun _ _ _ _ hm => hm.disConnect 0

theorem modules_skelDrvrOpen (wa : WorkingArea Client) (c : Client) (alloc : Bool) :
    (wa.skelDrvrOpen c alloc).modules = wa.modules := by
  rw [skelDrvrOpen]
  split
  · rfl
  · rfl

theorem modules_setModule (wa : WorkingArea Client) (c : Client) (modnr : U32) :
    (wa.setModule c modnr).modules = wa.modules := by
  rw [setModule]
  split
  · rfl
  · rfl

theorem Distinct.step (h : wa.Distinct) (l : ConnLabel Client) : (wa.call l).Distinct := by
  cases l with
  | opens c alloc =>
    show ∀ m ∈ (wa.skelDrvrOpen c alloc).modules, _
    rw [modules_skelDrvrOpen]
    exact h
  | connect c conx alloc => exact h.connect c conx alloc
  | disConnect c conx => exact h.disConnect c conx
  | disConnectAll c => exact h.disConnectAll c
  | close c => exact h.disConnectAll c
  | setModule c modnr =>
    show ∀ m ∈ (wa.setModule c modnr).modules, _
    rw [modules_setModule]
    exact h

theorem EnabledLaw.disConnectAll (h : wa.EnabledLaw) (hdistinct : wa.Distinct) {c : Client}
    (hwhole : MaskWhole wa (.disConnectAll c)) : (wa.disConnectAll c).EnabledLaw := by
  refine forall_modules (fun m => m.disConnect c 0) (modules_disConnectAll hdistinct c) h ?_
  rintro k m hm ⟨n, hn, hk⟩ hlaw
  exact (hlaw.disConnect_iff (hdistinct.of_getElem? hm) 0).2
    (hwhole n hn m (mem_targetModule hk hm))

theorem EnabledLaw.step (h : wa.EnabledLaw) (hdistinct : wa.Distinct) (hwhole : MaskWhole wa l) :
    (wa.call l).EnabledLaw := by
  cases l with
  | opens c alloc =>
    show ∀ m ∈ (wa.skelDrvrOpen c alloc).modules, _
    rw [modules_skelDrvrOpen]
    exact h
  | connect c conx alloc =>
    refine forall_modules (fun m => m.connect c conx.conMask alloc)
      (wa.modules_connect c conx alloc) h fun k m hm hk hlaw => ?_
    exact hlaw.connect_iff.2 (hwhole m (mem_targetModule hk hm))
  | disConnect c conx =>
    refine forall_modules (fun m => m.disConnect c conx.conMask)
      (wa.modules_disConnect c conx) h fun k m hm hk hlaw => ?_
    exact (hlaw.disConnect_iff (hdistinct.of_getElem? hm) _).2
      (hwhole m (mem_targetModule hk hm))
  | disConnectAll c => exact h.disConnectAll hdistinct hwhole
  | close c => exact h.disConnectAll hdistinct hwhole
  | setModule c modnr =>
    show ∀ m ∈ (wa.setModule c modnr).modules, _
    rw [modules_setModule]
    exact h

omit [DecidableEq Client] in
theorem Installed.distinct (h : wa.Installed) : wa.Distinct := by
  intro m hm j
  rw [(h.2 m hm).1 j]
  exact List.nodup_nil

omit [DecidableEq Client] in
theorem Installed.enabledLaw (h : wa.Installed) : wa.EnabledLaw := by
  intro m hm j
  rw [(h.2 m hm).1 j, (h.2 m hm).2]
  simp

/-- **The enabled interrupts.**  In every run whose steps treat their masks as a whole, whatever the
modules and the clients, an interrupt is enabled exactly when a client is connected to it. -/
theorem enabledLaw_of_reach (h : (connSystem Client).ReachUnder MaskWhole wa) :
    ∀ m ∈ wa.modules, ∀ j : Fin 32,
      m.connected.enabledInts.getLsbD j = true ↔ m.connected.clients j ≠ [] := by
  have hinv : wa.Distinct ∧ wa.EnabledLaw := by
    refine h.invariant (P := fun wa => wa.Distinct ∧ wa.EnabledLaw) ?_ ?_
    · intro wa₀ hwa₀
      exact ⟨hwa₀.distinct, hwa₀.enabledLaw⟩
    · intro wa₀ l wa₁ hinv hwhole hs
      obtain ⟨-, rfl⟩ := connStep_eq_some hs
      exact ⟨hinv.1.step l, hinv.2.step hinv.1 hwhole⟩
  exact hinv.2

end WorkingArea

/-- One module with the number 1. -/
def oneModule : WorkingArea ℕ where
  modules := [⟨1, ⟨fun _ => [], 0⟩⟩]
  clients := []
  moduleNumber _ := 0

theorem oneModule_installed : oneModule.Installed :=
  ⟨rfl, fun m hm => by
    obtain rfl := List.mem_singleton.1 hm
    exact ⟨fun _ => rfl, rfl⟩⟩

/-- Two clients share two interrupts; one of them leaves, and comes back to one of them. -/
def sharedRun : List (ConnLabel ℕ) :=
  [.opens 0 true, .opens 1 true, .connect 0 ⟨1, 3⟩ fun _ => true, .connect 1 ⟨0, 3⟩ fun _ => true,
    .disConnect 0 ⟨1, 0⟩, .connect 0 ⟨1, 2⟩ fun _ => true]

theorem enabledLaw_of_reach_sharedRun :
    ∃ wa : WorkingArea ℕ, (connSystem ℕ).ReachUnder WorkingArea.MaskWhole wa ∧
      (wa.modules.map fun m => m.connected.enabledInts) = [3] ∧
      ∀ m ∈ wa.modules, ∀ j : Fin 32,
        m.connected.enabledInts.getLsbD j = true ↔ m.connected.clients j ≠ [] := by
  have hinit : (connSystem ℕ).ReachUnder WorkingArea.MaskWhole oneModule :=
    System.ReachUnder.init oneModule_installed
  let wa : WorkingArea ℕ := System.runUnder connStep WorkingArea.MaskWhole oneModule sharedRun
  have hwa : (connSystem ℕ).ReachUnder WorkingArea.MaskWhole wa :=
    System.ReachUnder.runUnder hinit _
  exact ⟨wa, hwa, by decide +kernel, WorkingArea.enabledLaw_of_reach hwa⟩

/-- One client is on interrupt 0 and another on interrupt 1; the first one disconnects from the
module, which disables both. -/
theorem disConnect_disables_others :
    ¬ ∀ wa : WorkingArea ℕ, (connSystem ℕ).Reach wa → ∀ m ∈ wa.modules, ∀ j : Fin 32,
      m.connected.enabledInts.getLsbD j = true ↔ m.connected.clients j ≠ [] := by
  intro hall
  have hrun : ∃ wa : WorkingArea ℕ, System.runFun connStep oneModule
      [.opens 0 true, .opens 1 true, .connect 0 ⟨1, 1⟩ fun _ => true,
        .connect 1 ⟨1, 2⟩ fun _ => true, .disConnect 0 ⟨1, 0⟩] = some wa ∧
      ∃ m ∈ wa.modules, m.connected.enabledInts = 0 ∧ m.connected.clients 1 = [1] :=
    ⟨_, rfl, _, List.mem_singleton.2 rfl, by decide +kernel, by decide +kernel⟩
  obtain ⟨wa, hwa, m, hm, hints, hlist⟩ := hrun
  have hinit : (connSystem ℕ).Reach oneModule := System.Reach.init oneModule_installed
  have hlaw := hall wa (System.Reach.runFun hinit _ hwa) m hm 1
  rw [hints, hlist] at hlaw
  exact absurd (hlaw.2 (by simp)) (by decide)

/-! ### Interrupts -/

section Interrupts

variable {Client Task : Type*} [DecidableEq Client] [DecidableEq Task]

/-- `put_queues`. -/
def putQueues (rb : ReadBuf) (ctx : Client → ClientContext Task) (clients : List Client) :
    Client → ClientContext Task :=
  clients.foldl (fun ctx c => update ctx c ((ctx c).qPut rb)) ctx

/-- `__fill_clients_queues`: one bit at a time to the clients of its list. -/
def fillClientsQueues (connected : ModConn Client) (rb : ReadBuf) (imask : U32)
    (ctx : Client → ClientContext Task) : Client → ClientContext Task :=
  (List.finRange 32).foldl (fun ctx (i : Fin 32) =>
    if imask.getLsbD i = false ∨ connected.clients i = [] then ctx
    else putQueues (rb.forInterrupt i) ctx (connected.clients i)) ctx

theorem putQueues_apply (rb : ReadBuf) (ctx : Client → ClientContext Task) {l : List Client}
    (hl : l.Nodup) (c : Client) :
    putQueues rb ctx l c = if c ∈ l then (ctx c).qPut rb else ctx c :=
  cells_foldl (fun ctx : Client → ClientContext Task => ctx)
    (fun ctx c => update ctx c ((ctx c).qPut rb)) (fun _ s => s.qPut rb) (fun _ _ => rfl) hl ctx c

theorem fillClientsQueues_apply {connected : ModConn Client} (h : connected.Distinct)
    (rb : ReadBuf) (imask : U32) (ctx : Client → ClientContext Task) (c : Client) :
    fillClientsQueues connected rb imask ctx c =
      ((List.finRange 32).filter fun j : Fin 32 =>
        imask.getLsbD j = true ∧ c ∈ connected.clients j).foldl
          (fun s j => s.qPut (rb.forInterrupt j)) (ctx c) := by
  rw [fillClientsQueues]
  induction List.finRange 32 generalizing ctx with
  | nil => rfl
  | cons i l ih =>
    rw [List.foldl_cons, ih]
    have hround : (if imask.getLsbD i = false ∨ connected.clients i = [] then ctx
        else putQueues (rb.forInterrupt i) ctx (connected.clients i)) c =
        if imask.getLsbD i = true ∧ c ∈ connected.clients i then (ctx c).qPut (rb.forInterrupt i)
        else ctx c := by
      split
      · rename_i hout
        rw [if_neg]
        rintro ⟨hbit, hc⟩
        rcases hout with hout | hout
        · rw [hbit] at hout
          cases hout
        · rw [hout] at hc
          cases hc
      · rename_i hin
        rw [not_or, Bool.not_eq_false] at hin
        rw [putQueues_apply _ _ (h i)]
        simp only [hin.1, true_and]
    rw [hround]
    by_cases hc : imask.getLsbD i = true ∧ c ∈ connected.clients i
    · rw [if_pos hc, List.filter_cons_of_pos (by simpa using hc), List.foldl_cons]
    · rw [if_neg hc, List.filter_cons_of_neg (by simpa using hc)]

end Interrupts

/-! ### Open clients only -/

namespace WorkingArea

variable {Client : Type*} [DecidableEq Client] {wa : WorkingArea Client} {l : ConnLabel Client}

/-- `SET_MODULE` is called only where the modules are numbered from one on, as the type of a
connection says; a zero there stands for the selected module. -/
def KeepsModule (wa : WorkingArea Client) : ConnLabel Client → Prop
  | .setModule _ _ => ∀ m ∈ wa.modules, m.moduleNumber ≠ 0
  | _ => True

instance (wa : WorkingArea Client) (l : ConnLabel Client) : Decidable (KeepsModule wa l) := by
  unfold KeepsModule
  split <;> infer_instance

/-- Every connected client is open, and its connections are on modules that `DisConnectAll` comes
to. -/
structure OpenInv (wa : WorkingArea Client) : Prop where
  distinct : wa.Distinct
  isOpen : ∀ m ∈ wa.modules, ∀ j, ∀ c ∈ m.connected.clients j, c ∈ wa.clients
  found : ∀ k m, wa.modules[k]? = some m → ∀ j, ∀ c ∈ m.connected.clients j,
    wa.target c m.moduleNumber = some k

theorem mem_of_mem_disConnect {m : ModConn Client} {c x : Client} {conMask : U32} {j : Fin 32}
    (h : x ∈ (m.disConnect c conMask).clients j) : x ∈ m.clients j := by
  rw [ModConn.clients_disConnect, ModConn.disConnectList] at h
  split at h
  · exact List.mem_of_mem_erase h
  · exact h

theorem not_mem_disConnect {m : ModConn Client} (h : m.Distinct) (c : Client) (j : Fin 32) :
    c ∉ (m.disConnect c 0).clients j := by
  have hall : (ModConn.wholeMask 0).getLsbD j = true := by
    rw [ModConn.wholeMask, if_pos rfl, BitVec.getLsbD_not, decide_eq_true j.isLt]
    simp
  rw [ModConn.clients_disConnect, ModConn.disConnectList, if_pos hall]
  exact (h j).not_mem_erase

omit [DecidableEq Client] in
theorem target_congr {wa' : WorkingArea Client} (hnumber : wa'.moduleNumber = wa.moduleNumber)
    (hnumbers : wa'.modules.map ConnModule.moduleNumber =
      wa.modules.map ConnModule.moduleNumber) (c : Client) (n : U32) :
    wa'.target c n = wa.target c n := by
  rw [target, target, hnumber, getMcon_congr hnumbers]

omit [DecidableEq Client] in
theorem target_moduleNumber {c : Client} {n : U32} {k : ℕ} {m : ConnModule Client}
    (ht : wa.target c n = some k) (hm : wa.modules[k]? = some m) :
    wa.target c m.moduleNumber = some k := by
  obtain ⟨m', hm', hnumber⟩ := getMcon_spec ht
  obtain rfl := Option.some.inj (hm.symm.trans hm')
  rw [target, ← ht, target, hnumber]
  by_cases hn : n = 0
  · rw [if_pos hn, ite_self]
  · rw [if_neg hn, if_neg hn]

theorem OpenInv.shrink (h : wa.OpenInv) {wa' : WorkingArea Client} {hit : ℕ → Prop}
    [DecidablePred hit] {c : Client} {conMask : U32} (hclients : wa'.clients = wa.clients)
    (hnumber : wa'.moduleNumber = wa.moduleNumber)
    (hnumbers : wa'.modules.map ConnModule.moduleNumber = wa.modules.map ConnModule.moduleNumber)
    (hmodules : ∀ k, wa'.modules[k]? = (wa.modules[k]?).map fun m =>
      if hit k then { m with connected := m.connected.disConnect c conMask } else m) :
    wa'.OpenInv := by
  -- a client on a list of a module of `wa'` is on that list of the same module of `wa`
  have hback : ∀ (k : ℕ) (m' : ConnModule Client), wa'.modules[k]? = some m' →
      ∃ m : ConnModule Client, wa.modules[k]? = some m ∧ m.moduleNumber = m'.moduleNumber ∧
        ∀ j, ∀ x ∈ m'.connected.clients j, x ∈ m.connected.clients j := by
    intro k m' hm'
    rw [hmodules, Option.map_eq_some_iff] at hm'
    obtain ⟨m, hm, rfl⟩ := hm'
    refine ⟨m, hm, ?_, ?_⟩
    · split
      · rfl
      · rfl
    · intro j x hx
      split at hx
      · exact mem_of_mem_disConnect hx
      · exact hx
  refine ⟨?_, ?_, ?_⟩
  · exact forall_modules (fun m => m.disConnect c conMask) hmodules h.distinct
      fun _ _ _ _ hm => hm.disConnect conMask
  · intro m' hm' j x hx
    obtain ⟨k, hk⟩ := List.mem_iff_getElem?.1 hm'
    obtain ⟨m, hm, -, hsub⟩ := hback k m' hk
    rw [hclients]
    exact h.isOpen m (List.mem_of_getElem? hm) j x (hsub j x hx)
  · intro k m' hm' j x hx
    obtain ⟨m, hm, hnum, hsub⟩ := hback k m' hm'
    rw [target_congr hnumber hnumbers, ← hnum]
    exact h.found k m hm j x (hsub j x hx)

theorem OpenInv.disConnectAll (h : wa.OpenInv) (c : Client) : (wa.disConnectAll c).OpenInv := by
  obtain ⟨hclients, hnumber, hnumbers, hmodules⟩ := foldl_disConnect h.distinct c
    (wa.modules.map ConnModule.moduleNumber)
  exact h.shrink hclients hnumber hnumbers hmodules

theorem OpenInv.gone (h : wa.OpenInv) (c : Client) :
    ∀ m ∈ (wa.disConnectAll c).modules, ∀ j, c ∉ m.connected.clients j := by
  intro m' hm' j hc
  obtain ⟨k, hk⟩ := List.mem_iff_getElem?.1 hm'
  rw [modules_disConnectAll h.distinct, Option.map_eq_some_iff] at hk
  obtain ⟨m, hm, rfl⟩ := hk
  split at hc
  · exact not_mem_disConnect (h.distinct.of_getElem? hm) c j hc
  · rename_i hmissed
    have hnumber : m.moduleNumber ∈ wa.modules.map ConnModule.moduleNumber :=
      List.mem_map_of_mem (List.mem_of_getElem? hm)
    exact hmissed ⟨m.moduleNumber, hnumber, h.found k m hm j c hc⟩

theorem OpenInv.close (h : wa.OpenInv) (c : Client) : (wa.doClose c).OpenInv := by
  have hall := h.disConnectAll c
  refine ⟨hall.distinct, ?_, hall.found⟩
  intro m hm j x hx
  have hne : x ≠ c := by
    rintro rfl
    exact h.gone x m hm j hx
  exact (List.mem_erase_of_ne hne).2 (hall.isOpen m hm j x hx)

theorem OpenInv.connect (h : wa.OpenInv) {c : Client} (hc : c ∈ wa.clients) (conx : Connection)
    (alloc : Fin 32 → Bool) : (wa.connect c conx alloc).OpenInv := by
  have hframe : (wa.connect c conx alloc).clients = wa.clients ∧
      (wa.connect c conx alloc).moduleNumber = wa.moduleNumber ∧
      (wa.connect c conx alloc).modules.map ConnModule.moduleNumber =
        wa.modules.map ConnModule.moduleNumber := by
    rw [WorkingArea.connect]
    split
    · exact ⟨rfl, rfl, rfl⟩
    · exact ⟨rfl, rfl, numbers_onModule wa _ _⟩
  obtain ⟨hclients, hnumber, hnumbers⟩ := hframe
  -- a client on a list was there before, or is the one that connects to this module
  have hback : ∀ (k : ℕ) (m' : ConnModule Client),
      (wa.connect c conx alloc).modules[k]? = some m' →
      ∃ m : ConnModule Client, wa.modules[k]? = some m ∧ m.moduleNumber = m'.moduleNumber ∧
        ∀ j, ∀ x ∈ m'.connected.clients j, x ∈ m.connected.clients j ∨
          (x = c ∧ wa.target c conx.module = some k) := by
    intro k m' hm'
    rw [modules_connect, Option.map_eq_some_iff] at hm'
    obtain ⟨m, hm, rfl⟩ := hm'
    refine ⟨m, hm, ?_, ?_⟩
    · split
      · rfl
      · rfl
    · intro j x hx
      split at hx
      · rename_i ht
        rw [ModConn.clients_connect, ModConn.connectList] at hx
        split at hx
        · exact (List.mem_cons.1 hx).symm.imp_right fun heq => ⟨heq, ht⟩
        · exact Or.inl hx
      · exact Or.inl hx
  refine ⟨h.distinct.connect c conx alloc, ?_, ?_⟩
  · intro m' hm' j x hx
    obtain ⟨k, hk⟩ := List.mem_iff_getElem?.1 hm'
    obtain ⟨m, hm, -, hsub⟩ := hback k m' hk
    rw [hclients]
    rcases hsub j x hx with hx | ⟨rfl, -⟩
    · exact h.isOpen m (List.mem_of_getElem? hm) j x hx
    · exact hc
  · intro k m' hm' j x hx
    obtain ⟨m, hm, hnum, hsub⟩ := hback k m' hm'
    rw [target_congr hnumber hnumbers, ← hnum]
    rcases hsub j x hx with hx | ⟨rfl, ht⟩
    · exact h.found k m hm j x hx
    · exact target_moduleNumber ht hm

theorem OpenInv.select (h : wa.OpenInv) {c : Client} {n : U32} {clients : List Client}
    (hsub : wa.clients ⊆ clients)
    (hfree : (∀ m ∈ wa.modules, ∀ j, c ∉ m.connected.clients j) ∨
      ∀ m ∈ wa.modules, m.moduleNumber ≠ 0) :
    OpenInv { wa with clients := clients, moduleNumber := update wa.moduleNumber c n } := by
  refine ⟨h.distinct, fun m hm j x hx => hsub (h.isOpen m hm j x hx), ?_⟩
  intro k m hm j x hx
  have hmem := List.mem_of_getElem? hm
  rw [← h.found k m hm j x hx]
  show wa.getMcon (if m.moduleNumber = 0 then update wa.moduleNumber c n x else m.moduleNumber) =
    wa.getMcon (if m.moduleNumber = 0 then wa.moduleNumber x else m.moduleNumber)
  rcases hfree with hfree | hfree
  · have hne : x ≠ c := by
      rintro rfl
      exact hfree m hmem j hx
    rw [update_of_ne hne]
  · rw [if_neg (hfree m hmem), if_neg (hfree m hmem)]

theorem OpenInv.step (h : wa.OpenInv) (hallowed : wa.Allowed l) (hkeeps : KeepsModule wa l) :
    (wa.call l).OpenInv := by
  cases l with
  | opens c alloc =>
    show (wa.skelDrvrOpen c alloc).OpenInv
    rw [skelDrvrOpen]
    split
    · refine h.select (List.subset_cons_self c wa.clients) (Or.inl fun m hm j hc => ?_)
      exact hallowed (h.isOpen m hm j c hc)
    · exact h
  | connect c conx alloc => exact h.connect hallowed conx alloc
  | disConnect c conx =>
    obtain ⟨hclients, hnumber, hnumbers⟩ := wa.disConnect_frame c conx
    exact h.shrink hclients hnumber hnumbers (wa.modules_disConnect c conx)
  | disConnectAll c => exact h.disConnectAll c
  | close c => exact h.close c
  | setModule c modnr =>
    show (wa.setModule c modnr).OpenInv
    rw [WorkingArea.setModule]
    split
    · exact h
    · exact h.select (List.Subset.refl _) (Or.inr hkeeps)

omit [DecidableEq Client] in
theorem Installed.openInv (h : wa.Installed) : wa.OpenInv := by
  have hnone : ∀ m ∈ wa.modules, ∀ j, ∀ c, c ∉ m.connected.clients j := by
    intro m hm j c hc
    rw [(h.2 m hm).1 j] at hc
    cases hc
  exact ⟨h.distinct, fun m hm j c hc => absurd hc (hnone m hm j c),
    fun k m hm j c hc => absurd hc (hnone m (List.mem_of_getElem? hm) j c)⟩

/-- **The connection lists.**  In every run no client is twice on a list and every client on a list
is open; and an interrupt queues one buffer for each set bit on whose list a client is, and nothing
for anybody else. -/
theorem connections_of_reach {Task : Type*} [DecidableEq Task]
    (h : (connSystem Client).ReachUnder KeepsModule wa) :
    ∀ m ∈ wa.modules,
      (∀ j, (m.connected.clients j).Nodup ∧ ∀ c ∈ m.connected.clients j, c ∈ wa.clients) ∧
      ∀ (rb : ReadBuf) (imask : U32) (ctx : Client → ClientContext Task) (c : Client),
        fillClientsQueues m.connected rb imask ctx c =
          ((List.finRange 32).filter fun j : Fin 32 =>
            imask.getLsbD j = true ∧ c ∈ m.connected.clients j).foldl
              (fun s j => s.qPut (rb.forInterrupt j)) (ctx c) := by
  have hinv : wa.OpenInv := by
    refine h.invariant (P := OpenInv) ?_ ?_
    · intro wa₀ hwa₀
      exact hwa₀.openInv
    · intro wa₀ l wa₁ hinv hkeeps hs
      obtain ⟨hallowed, rfl⟩ := connStep_eq_some hs
      exact hinv.step hallowed hkeeps
  intro m hm
  refine ⟨fun j => ⟨hinv.distinct m hm j, hinv.isOpen m hm j⟩, ?_⟩
  intro rb imask ctx c
  exact fillClientsQueues_apply (hinv.distinct m hm) rb imask ctx c

end WorkingArea

/-- Two clients are connected, the first of them is closed, and only the other one is left. -/
theorem connections_of_reach_closed :
    ∃ wa : WorkingArea ℕ, (connSystem ℕ).ReachUnder WorkingArea.KeepsModule wa ∧
      wa.clients = [1] ∧ ∃ m ∈ wa.modules, m.connected.clients 0 = [1] ∧
        ∀ ctx : ℕ → ClientContext Unit,
          fillClientsQueues m.connected ReadBuf.zero 1 ctx 1 =
            (ctx 1).qPut (ReadBuf.zero.forInterrupt 0) := by
  have hinit : (connSystem ℕ).ReachUnder WorkingArea.KeepsModule oneModule :=
    System.ReachUnder.init oneModule_installed
  let wa : WorkingArea ℕ := System.runUnder connStep WorkingArea.KeepsModule oneModule
    [.opens 0 true, .opens 1 true, .connect 0 ⟨1, 1⟩ fun _ => true,
      .connect 1 ⟨0, 3⟩ fun _ => true, .close 0]
  have hwa : (connSystem ℕ).ReachUnder WorkingArea.KeepsModule wa :=
    System.ReachUnder.runUnder hinit _
  have hmodule : ∃ m ∈ wa.modules, m.connected.clients 0 = [1] ∧
      ((List.finRange 32).filter fun j : Fin 32 =>
        (1 : U32).getLsbD j = true ∧ 1 ∈ m.connected.clients j) = [0] :=
    ⟨_, List.mem_singleton.2 rfl, by decide +kernel, by decide +kernel⟩
  obtain ⟨m, hm, hlist, hfilter⟩ := hmodule
  refine ⟨wa, hwa, by decide +kernel, m, hm, hlist, fun ctx => ?_⟩
  rw [(WorkingArea.connections_of_reach hwa m hm).2, hfilter]
  rfl

end KernelModules.Skel
