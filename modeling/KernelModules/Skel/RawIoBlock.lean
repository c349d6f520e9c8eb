import Mathlib.Tactic

/-!
# Block transfers of the skeleton driver

`RawIoBlock` moves a block between the memory of a caller and an address space of a module, item by
item through a kernel buffer that holds 1024 items.  When the buffer has been used up it is flushed
to the caller, or filled again.

* `RawIoTransferBlock` is the request, `Bus` an access to the hardware, `Block` the variables of the
  loop and `rawIoBlock` the whole;
* `Transfers` says what a transfer of `n` items is: the hardware is accessed once for each item, in
  order, and the items and nothing else are moved;
* there is always at least one item.  `rawIoBlock_transfers` is about the requests that do not meet
  the two places where the loop goes astray: reading single bytes it always takes the first one of
  the module, and filling the buffer again it takes the block before.
-/

namespace KernelModules.Skel

/-- A byte. -/
abbrev Byte := BitVec 8

/-! ### The request -/

/-- `SkelDrvrRawIoTransferBlock`, apart from the number of the address space and the data. -/
structure RawIoTransferBlock where
  offset : BitVec 32
  dataWidth : BitVec 32
  addrIncr : BitVec 32
  bytesTr : BitVec 32
  deriving DecidableEq, Repr

/-- `InsLibAnyAddressSpace`, as far as a transfer looks at it.  `bigEndian` is whether `Endian` is
`InsLibEndianBIG`. -/
structure AddressSpace where
  windowSize : ℕ
  dataWidth : ℕ
  bigEndian : Bool
  deriving DecidableEq, Repr

/-- Which of the functions accesses the hardware: `cdcm_ioread16be` for two bytes with `big` and so
on.  There is only one function for a single byte. -/
structure Access where
  bytes : ℕ
  big : Bool
  deriving DecidableEq, Repr

/-- An access to the hardware, at an address from the start of the mapping, with the bytes of the
item that is written as they are in the kernel buffer. -/
inductive Bus
  | write (access : Access) (address : ℤ) (item : List Byte)
  | read (access : Access) (address : ℤ)
  deriving DecidableEq, Repr

/-- The errors of a transfer. -/
inductive BlockError
  | enxio | einval | enomem
  deriving DecidableEq, Repr

/-- An `int`. -/
def int (x : ℤ) : ℤ := (BitVec.ofInt 32 x).toInt

/-- `TRANSFERS`. -/
def transfers : ℕ := 1024

/-- `tszbt`. -/
def AddressSpace.itemBits (anyas : AddressSpace) (riob : RawIoTransferBlock) : ℕ :=
  if riob.dataWidth.toNat % 64 = 0 then anyas.dataWidth else riob.dataWidth.toNat % 64

/-- The `switch` on the width. -/
def accessOf (tszbt : ℕ) (bendf : Bool) : Access :=
  if tszbt = 16 then ⟨2, bendf⟩ else if tszbt = 32 then ⟨4, bendf⟩ else ⟨1, false⟩

/-- `tremg` before the loop. -/
def itemCount (bytesTr tszby : ℕ) : ℕ :=
  let tremg := int (bytesTr / tszby : ℕ)
  if tremg ≤ 0 then 1 else tremg.toNat

/-! ### The loop -/

/-- The variables of the loop: `kbuf`, `kindx`, `uindx`, `hskip`, the memory of the caller from
`Data` on, and the accesses so far. -/
structure Block where
  kbuf : ℕ → Byte
  kindx : ℕ
  uindx : ℤ
  hskip : ℤ
  user : ℤ → Byte
  bus : List Bus

/-- `n` bytes of a memory. -/
def bytesAt (mem : ℕ → Byte) (at0 n : ℕ) : List Byte := (List.range n).map fun j => mem (at0 + j)

/-- What does not change in the loop: the request, the width, `bendf`, the size of the buffer,
whether it is a write, and byte for byte what the hardware returns for each of the accesses. -/
structure Loop where
  offset : ℕ
  addrIncr : ℕ
  tszbt : ℕ
  bendf : Bool
  ksize : ℕ
  write : Bool
  hardware : ℕ → ℤ → ℕ → Byte

namespace Loop

/-- `tszby`. -/
def tszby (l : Loop) : ℕ := l.tszbt / 8

/-- `cdcm_copy_from_user`. -/
def copyFromUser (l : Loop) (b : Block) (start : ℤ) : Block :=
  { b with kbuf := fun i => if i < l.ksize then b.user (start + i) else b.kbuf i }

/-- `cdcm_copy_to_user`. -/
def copyToUser (b : Block) (size : ℕ) : Block :=
  { b with
    user := fun a =>
      if b.uindx ≤ a ∧ a < b.uindx + size then b.kbuf (a - b.uindx).toNat else b.user a }

/-- The function that accesses the hardware. -/
def kind (l : Loop) : Access := accessOf l.tszbt l.bendf

/-- The `switch` of one round.  A byte is read from `mmap` and not from `mp`. -/
def access (l : Loop) (b : Block) : Block :=
  let mp : ℤ := l.offset + b.hskip
  if l.write then
    { b with bus := b.bus ++ [.write l.kind mp (bytesAt b.kbuf b.kindx l.kind.bytes)] }
  else
    let address : ℤ := if l.kind.bytes = 1 then l.offset else mp
    { b with
      kbuf := fun i =>
        if b.kindx ≤ i ∧ i < b.kindx + l.kind.bytes then
          l.hardware b.bus.length address (i - b.kindx)
        else b.kbuf i
      bus := b.bus ++ [.read l.kind address] }

/-- The indices move on, and a buffer that has been used up is flushed. -/
def flush (l : Loop) (b : Block) : Block :=
  let b : Block :=
    { b with hskip := int (b.hskip + l.addrIncr * l.tszby), kindx := b.kindx + l.tszby }
  if l.ksize ≤ b.kindx then
    let b := if l.write then l.copyFromUser b b.uindx else copyToUser b l.ksize
    { b with uindx := int (b.uindx + l.ksize), kindx := 0 }
  else b

/-- `while (tremg-- > 0)`. -/
def run (l : Loop) : ℕ → Block → Block
  | 0, b => b
  | n + 1, b => l.run n (l.flush (l.access b))

/-- What remains in the buffer is copied when reading. -/
def finish (l : Loop) (b : Block) : Block :=
  if l.write = false ∧ b.kindx ≠ 0 then copyToUser b b.kindx else b

end Loop

/-- The loop of a request. -/
def requestLoop (anyas : AddressSpace) (riob : RawIoTransferBlock) (write : Bool)
    (hardware : ℕ → ℤ → ℕ → Byte) : Loop :=
  let tszbt := anyas.itemBits riob
  let tremg := itemCount riob.bytesTr.toNat (tszbt / 8)
  ⟨riob.offset.toNat, riob.addrIncr.toNat, tszbt, anyas.bigEndian,
    (if tremg < transfers then tremg else transfers) * (tszbt / 8), write, hardware⟩

/-- The variables before the loop. -/
def Block.start (kbuf : ℕ → Byte) (user : ℤ → Byte) : Block := ⟨kbuf, 0, 0, 0, user, []⟩

/-- `RawIoBlock`, for an address space that was found or not; `room` says whether there is memory
for the buffer, whose bytes are `kbuf`. -/
def rawIoBlock (anyas : Option AddressSpace) (riob : RawIoTransferBlock) (write room : Bool)
    (kbuf : ℕ → Byte) (user : ℤ → Byte) (hardware : ℕ → ℤ → ℕ → Byte) : Except BlockError Block :=
  match anyas with
  | none => .error .enxio
  | some anyas =>
    if anyas.windowSize ≠ 0 ∧ anyas.windowSize ≤ riob.offset.toNat then .error .einval
    else if ¬ room then .error .enomem
    else
      let l := requestLoop anyas riob write hardware
      let b := Block.start kbuf user
      let b := if write then l.copyFromUser b 0 else b
      .ok (l.finish (l.run (itemCount riob.bytesTr.toNat l.tszby) b))

/-! ### What a transfer is -/

/-- The address of item `i`. -/
def itemAddress (offset step : ℕ) (i : ℕ) : ℤ := offset + i * step

/-- **A transfer** of `n` items, one access `kind` for each.  Writing, item `i` of the caller goes
to its address, and the memory of the caller stays as it is.  Reading, item `i` of the caller is
what the hardware returns at its address, and the memory around the items stays as it is. -/
structure Transfers (offset step n : ℕ) (kind : Access) (write : Bool) (user : ℤ → Byte)
    (hardware : ℕ → ℤ → ℕ → Byte) (b : Block) : Prop where
  written : write = true → b.user = user ∧ b.bus = (List.range n).map fun i =>
    .write kind (itemAddress offset step i)
      ((List.range kind.bytes).map fun j => user (i * kind.bytes + j : ℕ))
  read : write = false →
    b.bus = (List.range n).map (fun i => .read kind (itemAddress offset step i)) ∧
    (∀ i < n, ∀ j < kind.bytes, b.user (i * kind.bytes + j : ℕ) =
      hardware i (itemAddress offset step i) j) ∧
    ∀ a : ℤ, a < 0 ∨ ((n * kind.bytes : ℕ) : ℤ) ≤ a → b.user a = user a

/-! ### The loop transfers -/

theorem int_of_lt {x : ℤ} (h0 : 0 ≤ x) (h : x < 2 ^ 31) : int x = x := by
  unfold int
  rw [BitVec.toInt_ofInt]
  exact Int.bmod_eq_of_le (by omega) (by omega)

namespace Loop

variable {l : Loop} {n block k : ℕ} {user : ℤ → Byte} {b : Block}

/-- The distance between two items in the module. -/
def step (l : Loop) : ℕ := l.addrIncr * l.kind.bytes

/-- A loop for `n` items, with room for `block` items in its buffer, whose indices stay in an `int`.
-/
structure Sized (l : Loop) (n block : ℕ) : Prop where
  tszby : l.tszby = l.kind.bytes
  bytes_pos : 0 < l.kind.bytes
  ksize : l.ksize = block * l.kind.bytes
  block_pos : 0 < block
  small : n * l.kind.bytes < 2 ^ 31
  steps : n * l.step < 2 ^ 31

theorem Sized.hskip_next (hs : l.Sized n block) (hk : k < n) (hb : b.hskip = (k * l.step : ℕ)) :
    int (b.hskip + l.addrIncr * l.tszby) = ((k + 1) * l.step : ℕ) := by
  have hle : (k + 1) * l.step ≤ n * l.step := Nat.mul_le_mul_right _ hk
  have heq : b.hskip + l.addrIncr * l.tszby = ((k + 1) * l.step : ℕ) := by
    rw [hb, hs.tszby, step]
    push_cast
    ring
  have hsteps := hs.steps
  rw [heq]
  exact int_of_lt (by omega) (by exact_mod_cast hle.trans_lt hsteps)

theorem flush_of_lt (h : b.kindx + l.tszby < l.ksize) :
    l.flush b =
      { b with hskip := int (b.hskip + l.addrIncr * l.tszby), kindx := b.kindx + l.tszby } := by
  simp [flush, Nat.not_le.mpr h]

/-! ### Writing -/

/-- What has been written after `k` items, when all of them are in the buffer. -/
structure Written (l : Loop) (n : ℕ) (user : ℤ → Byte) (k : ℕ) (b : Block) : Prop where
  hskip : b.hskip = (k * l.step : ℕ)
  bus : b.bus = (List.range k).map fun i => .write l.kind (itemAddress l.offset l.step i)
    ((List.range l.kind.bytes).map fun j => user (i * l.kind.bytes + j : ℕ))
  kindx : k < n → b.kindx = k * l.kind.bytes
  kbuf : k < n → ∀ i < n * l.kind.bytes, b.kbuf i = user i
  same : b.user = user

theorem Written.bytesAt (h : Written l n user k b) (hk : k < n) :
    bytesAt b.kbuf b.kindx l.kind.bytes =
      (List.range l.kind.bytes).map fun j => user (k * l.kind.bytes + j : ℕ) := by
  refine List.map_congr_left fun j hj => ?_
  have hj : j < l.kind.bytes := List.mem_range.mp hj
  have hend : (k + 1) * l.kind.bytes ≤ n * l.kind.bytes := Nat.mul_le_mul_right _ hk
  rw [Nat.succ_mul] at hend
  rw [h.kindx hk, h.kbuf hk _ (by omega)]

theorem Written.next (hs : l.Sized n n) (hw : l.write = true) (h : Written l n user k b)
    (hk : k < n) : Written l n user (k + 1) (l.flush (l.access b)) := by
  have hbus : (l.access b).bus = (List.range (k + 1)).map fun i =>
      .write l.kind (itemAddress l.offset l.step i)
        ((List.range l.kind.bytes).map fun j => user (i * l.kind.bytes + j : ℕ)) := by
    rw [List.range_succ, List.map_append, List.map_singleton, ← h.bytesAt hk, ← h.bus]
    simp [access, hw, h.hskip, itemAddress]
  have hskip := hs.hskip_next hk h.hskip
  by_cases hroom : k + 1 < n
  · have hlt : b.kindx + l.tszby < l.ksize := by
      rw [h.kindx hk, hs.tszby, hs.ksize, ← Nat.succ_mul]
      exact Nat.mul_lt_mul_of_pos_right hroom hs.bytes_pos
    rw [flush_of_lt (by simpa [access, hw] using hlt)]
    refine ⟨by simpa [access, hw] using hskip, hbus, fun _ => ?_,
      fun _ => by simpa [access, hw] using h.kbuf hk, by simpa [access, hw] using h.same⟩
    simp [access, hw, h.kindx hk, hs.tszby, Nat.succ_mul]
  · -- the buffer is filled once more, behind the last item
    have hge : l.ksize ≤ b.kindx + l.tszby := by
      rw [h.kindx hk, hs.tszby, hs.ksize, ← Nat.succ_mul]
      exact Nat.mul_le_mul_right _ (by omega)
    have hlast : ¬ k + 1 < n := hroom
    refine ⟨?_, ?_, fun h => absurd h hlast, fun h => absurd h hlast, ?_⟩
    · simpa [flush, access, hw, hge, copyFromUser] using hskip
    · rw [← hbus]
      simp [flush, access, hw, hge, copyFromUser]
    · simpa [flush, access, hw, hge, copyFromUser] using h.same

theorem Written.run (hs : l.Sized n n) (hw : l.write = true) :
    ∀ m k b, Written l n user k b → k + m = n → Written l n user n (l.run m b)
  | 0, k, b, h, hk => by simpa [Loop.run, ← hk] using h
  | m + 1, k, b, h, hk => by
    rw [Loop.run]
    exact Written.run hs hw m (k + 1) _ (h.next hs hw (by omega)) (by omega)

/-! ### Reading -/

/-- Byte `a` of what is read. -/
def byteRead (l : Loop) (a : ℕ) : Byte :=
  l.hardware (a / l.kind.bytes) (itemAddress l.offset l.step (a / l.kind.bytes))
    (a % l.kind.bytes)

theorem byteRead_item (hb : 0 < l.kind.bytes) {j : ℕ} (hj : j < l.kind.bytes) :
    l.byteRead (k * l.kind.bytes + j) = l.hardware k (itemAddress l.offset l.step k) j := by
  have hdiv : (k * l.kind.bytes + j) / l.kind.bytes = k := by
    rw [Nat.mul_comm, Nat.mul_add_div hb, Nat.div_eq_of_lt hj, Nat.add_zero]
  have hmod : (k * l.kind.bytes + j) % l.kind.bytes = j := by
    rw [Nat.mul_comm, Nat.mul_add_mod, Nat.mod_eq_of_lt hj]
  rw [byteRead, hdiv, hmod]

/-- The memory of the caller when the first `done` bytes have been copied to it. -/
structure Copied (l : Loop) (user : ℤ → Byte) (done : ℕ) (b : Block) : Prop where
  copied : ∀ a < done, b.user (a : ℕ) = l.byteRead a
  others : ∀ a : ℤ, a < 0 ∨ (done : ℕ) ≤ a → b.user a = user a

/-- What has been read after `r` blocks and `q` more items. -/
structure ReadTo (l : Loop) (block : ℕ) (user : ℤ → Byte) (r q : ℕ) (b : Block) : Prop where
  room : q < block
  uindx : b.uindx = (r * block * l.kind.bytes : ℕ)
  kindx : b.kindx = q * l.kind.bytes
  hskip : b.hskip = ((r * block + q) * l.step : ℕ)
  bus : b.bus = (List.range (r * block + q)).map fun i =>
    .read l.kind (itemAddress l.offset l.step i)
  kbuf : ∀ i < q * l.kind.bytes, b.kbuf i = l.byteRead (r * block * l.kind.bytes + i)
  copied : Copied l user (r * block * l.kind.bytes) b

theorem Copied.copyToUser {done size : ℕ} (h : Copied l user done b) (hu : b.uindx = (done : ℕ))
    (hkbuf : ∀ i < size, b.kbuf i = l.byteRead (done + i)) :
    Copied l user (done + size) (copyToUser b size) := by
  refine ⟨fun a ha => ?_, fun a ha => ?_⟩
  · by_cases hold : a < done
    · have hout : ¬ ((done : ℤ) ≤ (a : ℕ) ∧ ((a : ℕ) : ℤ) < (done : ℤ) + (size : ℤ)) := by omega
      simp only [Loop.copyToUser, hu, if_neg hout]
      exact h.copied a hold
    · have hin : (done : ℤ) ≤ (a : ℕ) ∧ ((a : ℕ) : ℤ) < (done : ℤ) + (size : ℤ) := by omega
      have hat : (((a : ℕ) : ℤ) - (done : ℤ)).toNat = a - done := by omega
      have hbyte := hkbuf (a - done) (by omega)
      rw [Nat.add_sub_cancel' (Nat.not_lt.mp hold)] at hbyte
      simp only [Loop.copyToUser, hu, if_pos hin, hat]
      exact hbyte
  · have hout : ¬ ((done : ℤ) ≤ a ∧ a < (done : ℤ) + (size : ℤ)) := by
      push_cast at ha
      omega
    simp only [Loop.copyToUser, hu, if_neg hout]
    exact h.others a (by push_cast at ha ⊢; omega)

theorem flush_of_le (h : l.ksize ≤ b.kindx + l.tszby) (hw : l.write = false) :
    l.flush b =
      { copyToUser { b with hskip := int (b.hskip + l.addrIncr * l.tszby) } l.ksize with
        uindx := int (b.uindx + l.ksize), kindx := 0 } := by
  simp [flush, h, hw, copyToUser]

theorem ReadTo.access {r q : ℕ} (hb : 0 < l.kind.bytes) (hw : l.write = false)
    (hone : l.kind.bytes = 1 → (r * block + q) * l.step = 0) (h : ReadTo l block user r q b) :
    (l.access b).bus = (List.range (r * block + q + 1)).map (fun i =>
        .read l.kind (itemAddress l.offset l.step i)) ∧
      ∀ i < (q + 1) * l.kind.bytes,
        (l.access b).kbuf i = l.byteRead (r * block * l.kind.bytes + i) := by
  have haddress : (if l.kind.bytes = 1 then (l.offset : ℤ) else l.offset + b.hskip) =
      itemAddress l.offset l.step (r * block + q) := by
    rw [h.hskip, itemAddress]
    split
    case isTrue hbyte =>
      have hzero := hone hbyte
      exact_mod_cast (by omega : l.offset = l.offset + (r * block + q) * l.step)
    case isFalse => push_cast; ring
  have hlength : b.bus.length = r * block + q := by simp [h.bus]
  refine ⟨?_, fun i hi => ?_⟩
  · rw [List.range_succ, List.map_append, List.map_singleton, ← haddress, ← h.bus]
    simp [Loop.access, hw]
  · simp only [Loop.access, hw, Bool.false_eq_true, if_false, haddress, hlength, h.kindx]
    by_cases hin : q * l.kind.bytes ≤ i
    · have hlt : i < q * l.kind.bytes + l.kind.bytes := by rwa [Nat.succ_mul] at hi
      have hat : r * block * l.kind.bytes + i =
          (r * block + q) * l.kind.bytes + (i - q * l.kind.bytes) := by
        rw [Nat.add_mul]
        omega
      rw [if_pos ⟨hin, hlt⟩, hat, byteRead_item hb (by omega)]
    · rw [if_neg fun h => hin h.1]
      exact h.kbuf i (Nat.not_le.mp hin)

theorem ReadTo.next (hs : l.Sized n block) (hw : l.write = false)
    (hone : l.kind.bytes = 1 → l.addrIncr = 0 ∨ n = 1) {r q : ℕ} (h : ReadTo l block user r q b)
    (hk : r * block + q < n) :
    ∃ r' q', r' * block + q' = r * block + q + 1 ∧
      ReadTo l block user r' q' (l.flush (l.access b)) := by
  have hfirst : l.kind.bytes = 1 → (r * block + q) * l.step = 0 := fun hbyte => by
    rcases hone hbyte with hstill | hn
    · simp [step, hstill]
    · have hzero : r * block + q = 0 := by omega
      rw [hzero, Nat.zero_mul]
  obtain ⟨hbus, hkbuf⟩ := h.access hs.bytes_pos hw hfirst
  have hskip := hs.hskip_next hk h.hskip
  have hsame : Copied l user (r * block * l.kind.bytes) (l.access b) :=
    ⟨by simpa [Loop.access, hw] using h.copied.copied,
      by simpa [Loop.access, hw] using h.copied.others⟩
  have hkindx : (l.access b).kindx = q * l.kind.bytes := by simpa [Loop.access, hw] using h.kindx
  have huindx : (l.access b).uindx = (r * block * l.kind.bytes : ℕ) := by
    simpa [Loop.access, hw] using h.uindx
  have hskip' : int ((l.access b).hskip + l.addrIncr * l.tszby) =
      ((r * block + q + 1) * l.step : ℕ) := by
    simpa [Loop.access, hw] using hskip
  generalize l.access b = b' at hbus hkbuf hsame hkindx huindx hskip'
  by_cases hroom : q + 1 < block
  · have hlt : b'.kindx + l.tszby < l.ksize := by
      rw [hkindx, hs.tszby, hs.ksize, ← Nat.succ_mul]
      exact Nat.mul_lt_mul_of_pos_right hroom hs.bytes_pos
    rw [flush_of_lt hlt]
    refine ⟨r, q + 1, rfl, hroom, huindx, ?_, hskip', hbus, hkbuf, hsame.copied, hsame.others⟩
    rw [hkindx, hs.tszby, Nat.succ_mul]
  · -- the block is complete: it is copied behind those before it
    have hfull : q + 1 = block := Nat.le_antisymm h.room (Nat.not_lt.mp hroom)
    have hsize : l.ksize = (q + 1) * l.kind.bytes := by rw [hs.ksize, hfull]
    have hnext : (r + 1) * block = r * block + q + 1 := by rw [Nat.succ_mul, ← hfull, Nat.add_assoc]
    have hbytes : r * block * l.kind.bytes + l.ksize = (r + 1) * block * l.kind.bytes := by
      rw [hs.ksize, Nat.succ_mul, Nat.add_mul]
    have hsmall : (r + 1) * block * l.kind.bytes ≤ n * l.kind.bytes :=
      Nat.mul_le_mul_right _ (by omega)
    have huindx' : int (b'.uindx + l.ksize) = ((r + 1) * block * l.kind.bytes : ℕ) := by
      rw [huindx, ← Nat.cast_add, hbytes]
      exact int_of_lt (by omega) (by exact_mod_cast hsmall.trans_lt hs.small)
    rw [flush_of_le (by rw [hkindx, hs.tszby, hsize, Nat.succ_mul]) hw]
    refine ⟨r + 1, 0, by omega, hs.block_pos, huindx', by simp, ?_, ?_, by simp, ?_⟩
    · rw [Nat.add_zero, hnext]
      exact hskip'
    · rw [Nat.add_zero, hnext]
      exact hbus
    · have hflushed : Copied l user (r * block * l.kind.bytes + l.ksize)
          (copyToUser { b' with hskip := int (b'.hskip + l.addrIncr * l.tszby) } l.ksize) :=
        Copied.copyToUser ⟨hsame.copied, hsame.others⟩ huindx (by rwa [hsize])
      rw [hbytes] at hflushed
      exact ⟨hflushed.copied, hflushed.others⟩

theorem ReadTo.run (hs : l.Sized n block) (hw : l.write = false)
    (hone : l.kind.bytes = 1 → l.addrIncr = 0 ∨ n = 1) :
    ∀ m r q b, ReadTo l block user r q b → r * block + q + m = n →
      ∃ r' q', r' * block + q' = n ∧ ReadTo l block user r' q' (l.run m b)
  | 0, r, q, b, h, hk => ⟨r, q, hk, h⟩
  | m + 1, r, q, b, h, hk => by
    obtain ⟨r', q', hnext, h'⟩ := h.next hs hw hone (by omega)
    exact ReadTo.run hs hw hone m r' q' _ h' (by omega)

theorem ReadTo.finish (hw : l.write = false) {r q : ℕ} (h : ReadTo l block user r q b)
    (hn : r * block + q = n) :
    (l.finish b).bus = b.bus ∧ Copied l user (n * l.kind.bytes) (l.finish b) := by
  have hbytes : r * block * l.kind.bytes + q * l.kind.bytes = n * l.kind.bytes := by
    rw [← Nat.add_mul, hn]
  by_cases hempty : b.kindx = 0
  · rw [Loop.finish, if_neg (by simp [hempty])]
    rw [← h.kindx, hempty, Nat.add_zero] at hbytes
    exact ⟨rfl, hbytes ▸ h.copied⟩
  · rw [Loop.finish, if_pos ⟨hw, hempty⟩, ← hbytes, ← h.kindx]
    exact ⟨rfl, h.copied.copyToUser h.uindx (by simpa [h.kindx] using h.kbuf)⟩

theorem Sized.transfers_write (hs : l.Sized n n) (hw : l.write = true) (kbuf : ℕ → Byte) :
    Transfers l.offset l.step n l.kind true user l.hardware
      (l.finish (l.run n (l.copyFromUser (.start kbuf user) 0))) := by
  have hstart : Written l n user 0 (l.copyFromUser (.start kbuf user) 0) := by
    refine ⟨by simp [copyFromUser, Block.start], rfl, fun _ => (Nat.zero_mul _).symm,
      fun _ i hi => ?_, rfl⟩
    simp [copyFromUser, Block.start, hs.ksize, hi]
  have hend := Written.run hs hw n 0 _ hstart (Nat.zero_add _)
  rw [finish, if_neg (by simp [hw])]
  exact ⟨fun _ => ⟨hend.same, hend.bus⟩, fun h => Bool.noConfusion h⟩

theorem Sized.transfers_read (hs : l.Sized n block) (hw : l.write = false)
    (hone : l.kind.bytes = 1 → l.addrIncr = 0 ∨ n = 1) (kbuf : ℕ → Byte) :
    Transfers l.offset l.step n l.kind false user l.hardware
      (l.finish (l.run n (.start kbuf user))) := by
  have hstart : ReadTo l block user 0 0 (.start kbuf user) :=
    ⟨hs.block_pos, by simp [Block.start], by simp [Block.start], by simp [Block.start],
      by simp [Block.start], by simp, ⟨by simp, fun _ _ => rfl⟩⟩
  obtain ⟨r, q, hn, hto⟩ := ReadTo.run hs hw hone n 0 0 _ hstart (by simp)
  obtain ⟨hbus, hcopied⟩ := hto.finish hw hn
  refine ⟨fun h => Bool.noConfusion h, fun _ => ⟨?_, fun i hi j hj => ?_, hcopied.others⟩⟩
  · rw [hbus, hto.bus, hn]
  · have hlt : i * l.kind.bytes + j < n * l.kind.bytes := by
      have hend := Nat.mul_le_mul_right l.kind.bytes (Nat.succ_le_of_lt hi)
      rw [Nat.succ_mul] at hend
      exact (Nat.add_lt_add_left hj _).trans_le hend
    exact (hcopied.copied _ hlt).trans (byteRead_item hs.bytes_pos hj)

end Loop

open Loop

theorem accessOf_bytes {bits : ℕ} (h : bits = 8 ∨ bits = 16 ∨ bits = 32) (big : Bool) :
    (accessOf bits big).bytes = bits / 8 := by
  rcases h with rfl | rfl | rfl <;> rfl

/-- The number of items: as many as fit into the bytes, and at least one. -/
def items (bytesTr size : ℕ) : ℕ := max 1 (bytesTr / size)

theorem itemCount_eq {bytesTr : ℕ} (size : ℕ) (h : bytesTr < 2 ^ 31) :
    itemCount bytesTr size = items bytesTr size := by
  have hle : bytesTr / size ≤ bytesTr := Nat.div_le_self _ _
  have hint : int (bytesTr / size : ℕ) = (bytesTr / size : ℕ) :=
    int_of_lt (Int.natCast_nonneg _) (by exact_mod_cast hle.trans_lt h)
  unfold itemCount items
  simp only [hint]
  generalize bytesTr / size = count
  split <;> omega

theorem items_mul_lt {bytesTr size : ℕ} (h : bytesTr < 2 ^ 31) (hsize : size < 2 ^ 31) :
    items bytesTr size * size < 2 ^ 31 := by
  have hle : bytesTr / size * size ≤ bytesTr := Nat.div_mul_le_self _ _
  rcases Nat.le_total 1 (bytesTr / size) with hone | hone
  · rw [items, Nat.max_eq_right hone]
    omega
  · rwa [items, Nat.max_eq_left hone, Nat.one_mul]

/-! ### The requests that are served -/

theorem rawIoBlock_eq {anyas : AddressSpace} {riob : RawIoTransferBlock} {write room : Bool}
    {kbuf : ℕ → Byte} {user : ℤ → Byte} {hardware : ℕ → ℤ → ℕ → Byte} {b : Block}
    (h : rawIoBlock (some anyas) riob write room kbuf user hardware = .ok b) :
    let l := requestLoop anyas riob write hardware
    b = l.finish (l.run (itemCount riob.bytesTr.toNat l.tszby)
      (if write then l.copyFromUser (.start kbuf user) 0 else .start kbuf user)) := by
  unfold rawIoBlock at h
  dsimp only at h ⊢
  split at h
  case isTrue => cases h
  case isFalse =>
    split at h
    case isTrue => cases h
    case isFalse => exact (Except.ok.inj h).symm

theorem requestLoop_sized (anyas : AddressSpace) (riob : RawIoTransferBlock) (write : Bool)
    (hardware : ℕ → ℤ → ℕ → Byte)
    (hwidth : anyas.itemBits riob = 8 ∨ anyas.itemBits riob = 16 ∨ anyas.itemBits riob = 32)
    (hincr : riob.addrIncr.toNat ≤ 1) (hbytes : riob.bytesTr.toNat < 2 ^ 31) :
    (requestLoop anyas riob write hardware).Sized
      (items riob.bytesTr.toNat (anyas.itemBits riob / 8))
      (min (items riob.bytesTr.toNat (anyas.itemBits riob / 8)) transfers) := by
  have hkind : (requestLoop anyas riob write hardware).kind.bytes = anyas.itemBits riob / 8 :=
    accessOf_bytes hwidth _
  have hsize : 0 < anyas.itemBits riob / 8 ∧ anyas.itemBits riob / 8 < 2 ^ 31 := by omega
  have hsmall := items_mul_lt hbytes hsize.2
  refine ⟨hkind.symm, by rw [hkind]; exact hsize.1, ?_, by simp [items, transfers],
    by rwa [hkind], ?_⟩
  · rw [hkind, Nat.min_def, ← itemCount_eq _ hbytes]
    simp only [requestLoop]
    congr 1
    split <;> split <;> omega
  · have hstep : (requestLoop anyas riob write hardware).step ≤ anyas.itemBits riob / 8 := by
      rw [step, hkind]
      exact Nat.mul_le_of_le_div _ _ _ (by rw [Nat.div_self hsize.1]; exact hincr)
    exact (Nat.mul_le_mul_left _ hstep).trans_lt hsmall

/-- A request for items of 8, 16 or 32 bits transfers as many items as there are in its bytes, and
at least one, provided that a write fits into the buffer and that a read of single bytes does not
move on. -/
theorem rawIoBlock_transfers (anyas : AddressSpace) (riob : RawIoTransferBlock) (write room : Bool)
    (kbuf : ℕ → Byte) (user : ℤ → Byte) (hardware : ℕ → ℤ → ℕ → Byte) (b : Block)
    (hb : rawIoBlock (some anyas) riob write room kbuf user hardware = .ok b)
    (hwidth : anyas.itemBits riob = 8 ∨ anyas.itemBits riob = 16 ∨ anyas.itemBits riob = 32)
    (hincr : riob.addrIncr.toNat ≤ 1) (hbytes : riob.bytesTr.toNat < 2 ^ 31)
    (hwrite : write = true → items riob.bytesTr.toNat (anyas.itemBits riob / 8) ≤ transfers)
    (hread : write = false → anyas.itemBits riob = 8 →
      riob.addrIncr = 0 ∨ items riob.bytesTr.toNat 1 = 1) :
    Transfers riob.offset.toNat (riob.addrIncr.toNat * (anyas.itemBits riob / 8))
      (items riob.bytesTr.toNat (anyas.itemBits riob / 8))
      (accessOf (anyas.itemBits riob) anyas.bigEndian) write user hardware b := by
  have hs := requestLoop_sized anyas riob write hardware hwidth hincr hbytes
  have hrun := rawIoBlock_eq hb
  have hkind : (requestLoop anyas riob write hardware).kind.bytes = anyas.itemBits riob / 8 :=
    accessOf_bytes hwidth _
  have hstep : riob.addrIncr.toNat * (anyas.itemBits riob / 8) =
      (requestLoop anyas riob write hardware).step := by
    rw [step, hkind]
    rfl
  have hcount : itemCount riob.bytesTr.toNat (requestLoop anyas riob write hardware).tszby =
      items riob.bytesTr.toNat (anyas.itemBits riob / 8) := itemCount_eq _ hbytes
  dsimp only at hrun
  rw [hcount] at hrun
  rw [hrun, hstep]
  cases write with
  | true =>
    have hblock := Nat.min_eq_left (hwrite rfl)
    rw [hblock] at hs
    exact hs.transfers_write rfl kbuf
  | false =>
    refine hs.transfers_read rfl (fun hbyte => ?_) kbuf
    have hbits : anyas.itemBits riob = 8 := by omega
    rw [hbits]
    exact (hread rfl hbits).imp (fun h => by simp [requestLoop, h]) id

/-- Five thousand bytes are read as 2500 items of sixteen bits, from the address 16 on. -/
theorem rawIoBlock_transfers_read16 :
    ∃ b, rawIoBlock (some ⟨0, 32, true⟩) ⟨16, 16, 1, 5000⟩ false true (fun _ => 0) (fun _ => 0)
        (fun i _ j => BitVec.ofNat 8 (i + j)) = .ok b ∧
      Transfers 16 2 2500 ⟨2, true⟩ false (fun _ => 0) (fun i _ j => BitVec.ofNat 8 (i + j)) b :=
  ⟨_, rfl, rawIoBlock_transfers ⟨0, 32, true⟩ ⟨16, 16, 1, 5000⟩ false true (fun _ => 0) (fun _ => 0)
    (fun i _ j => BitVec.ofNat 8 (i + j)) _ rfl (Or.inr (Or.inl rfl)) (by decide) (by decide)
    (fun h => Bool.noConfusion h) (fun _ h => absurd h (by decide))⟩

/-- No bytes at all are one item: a byte is written to the module. -/
theorem transfers_without_bytes :
    ¬ ∀ (anyas : AddressSpace) (riob : RawIoTransferBlock) (write room : Bool) (kbuf : ℕ → Byte)
      (user : ℤ → Byte) (hardware : ℕ → ℤ → ℕ → Byte) (b : Block),
      rawIoBlock (some anyas) riob write room kbuf user hardware = .ok b →
      anyas.itemBits riob = 8 ∨ anyas.itemBits riob = 16 ∨ anyas.itemBits riob = 32 →
      riob.addrIncr.toNat ≤ 1 →
      Transfers riob.offset.toNat (riob.addrIncr.toNat * (anyas.itemBits riob / 8))
        (riob.bytesTr.toNat / (anyas.itemBits riob / 8))
        (accessOf (anyas.itemBits riob) anyas.bigEndian) write user hardware b := fun h => by
  have htransfers := h ⟨0, 8, false⟩ ⟨0, 8, 1, 0⟩ true true (fun _ => 0) (fun _ => 0)
    (fun _ _ _ => 0) _ rfl (Or.inl rfl) (by decide)
  exact absurd (congrArg List.length (htransfers.written rfl).2) (by decide)

end KernelModules.Skel
