import KernelModules.Lib.Stuffing
import Mathlib.Tactic

/-!
# Packets to and from the amplifier

`SendRecvCommand` puts a command into a buffer, finds its size again, escapes it and writes it out;
and it collects the bytes of a reply, finds their size, takes the escapes back and cuts the reply
into its fields.

* `sendCommand` and `recvReply` are the two halves, with `none` for an access outside a buffer;
* `Sends` is what holds of every command that fits, and `Frame` a complete reply;
* `framing_iff` says that a reply is received as the callers rely on exactly when the bytes read are
  a complete reply with its checksum, or none came at all.

The times between the reads are left out, and the recovery after a reply that does not come.  The
text of a buffer is the list of its cells.
-/

namespace KernelModules.Acdx

open KernelModules.Lib

abbrev Byte := BitVec 8

def obufSize : ℕ := 1023
def ibufSize : ℕ := 0x1000
def escBufSize : ℕ := 4096
def payloadSize : ℕ := 4096

def stx : Byte := 0x02
def etx : Byte := 0x03
def esc : Byte := 0x1B
def opb : Byte := 0x7B
def clb : Byte := 0x7D

/-- `SpecialChars`. -/
def specialChars : List Byte := [stx, etx, esc, opb, clb]

def isSpecial (c : Byte) : Bool := specialChars.contains c

/-- A text is written to the start of a buffer. -/
def overwrite (cells bytes : List Byte) : Option (List Byte) :=
  if bytes.length ≤ cells.length then some (bytes ++ cells.drop bytes.length) else none

/-- The cell at an index, which may be negative. -/
def cellAt (cells : List Byte) (i : ℤ) : Option Byte :=
  if 0 ≤ i then cells[i.toNat]? else none

/-- `GenericPacket`. -/
structure GenericPacket where
  head : Byte
  deviceId : Byte × Byte
  cmdId : Byte
  modleId : Byte × Byte
  payload : Option (List Byte)
  checksum : Byte
  tail : Byte
  deriving Repr

inductive PktType
  | generic
  | reply
  deriving DecidableEq, Repr

/-- `CalcCheckSum`. -/
def calcCheckSum (pkty : PktType) (pkt : GenericPacket) : Byte :=
  let cks := 0 ^^^ pkt.head ^^^ pkt.deviceId.1 ^^^ pkt.deviceId.2 ^^^ pkt.cmdId
  let cks := if pkty = .reply then cks ^^^ pkt.modleId.1 ^^^ pkt.modleId.2 else cks
  let cks := (pkt.payload.getD []).foldl (fun cks c => cks ^^^ c) cks
  if cks = 0 ∨ cks = stx ∨ cks = etx then cks + 0x0A else cks

/-- The bytes that `Serialize` puts into the output buffer. -/
def GenericPacket.bytes (pkt : GenericPacket) : List Byte :=
  [pkt.head, pkt.deviceId.1, pkt.deviceId.2, pkt.cmdId] ++ pkt.payload.getD [] ++
    [pkt.checksum, pkt.tail]

/-- `Serialize`; the last cell of the buffer is not cleared. -/
def serialize (spare : Byte) (pkt : GenericPacket) : Option (List Byte) :=
  overwrite (List.replicate obufSize 0 ++ [spare]) pkt.bytes

/-- The reverse search of `GetBufSize`: the size if an `ETX` comes before any other character. -/
def searchEtx (buf : List Byte) : ℕ → Option (Option ℕ)
  | 0 => some none
  | i + 1 => do
    let c ← buf[i + 1]?
    if c = etx then return some (i + 2)
    if c ≠ 0 then return none
    searchEtx buf i

/-- `GetBufSize`. -/
def getBufSize (buf : List Byte) (sz : ℕ) : Option ℕ := do
  let c ← buf[0]?
  if c = stx then
    let found ← searchEtx buf (sz - 1)
    return found.getD sz
  else return sz

/-- The loop of `EscapeOBuf`. -/
def escapeLoop : List Byte → List Byte
  | [] => []
  | c :: cs => if isSpecial c then esc :: (c + 0x40) :: escapeLoop cs else c :: escapeLoop cs

/-- `EscapeOBuf`. -/
def escapeOBuf (obuf : List Byte) (size : ℕ) : Option (List Byte × ℕ) := do
  if size = 0 then return (obuf, size)
  let first ← obuf[0]?
  let last ← cellAt obuf (size - 1)
  if first = stx ∧ last = etx then
    let text := stx :: escapeLoop ((obuf.take (size - 1)).drop 1) ++ [etx]
    let _ ← overwrite (List.replicate escBufSize 0) text
    let obuf ← overwrite obuf text
    return (obuf, text.length)
  else return (obuf, size)

/-- The loop of `UnEscapeIBuf`, from a cell of the buffer to its last one. -/
def unEscapeLoop : List Byte → List Byte
  | [] => []
  | [_] => []
  | c :: d :: cs => if c = esc then (d - 0x40) :: unEscapeLoop cs else c :: unEscapeLoop (d :: cs)

/-- `UnEscapeIBuf`; the last cell of the buffer is not cleared. -/
def unEscapeIBuf (ibuf : List Byte) (size : ℕ) : Option (List Byte × ℕ) := do
  if size = 0 then return (ibuf, size)
  let first ← ibuf[0]?
  let last ← cellAt ibuf (size - 1)
  if first = stx ∧ last = etx then
    let _ ← overwrite (List.replicate escBufSize 0) (ibuf.take size)
    let text := stx :: unEscapeLoop ((ibuf.take size).drop 1) ++ [etx]
    let ibuf ← overwrite (List.replicate ibufSize 0 ++ ibuf.drop ibufSize) text
    return (ibuf, text.length)
  else return (ibuf, size)

/-! ### The command -/

/-- The packet of a command. -/
def command (id : Byte × Byte) (cid : Byte) (par : Option (List Byte)) : GenericPacket :=
  let pkt : GenericPacket := ⟨stx, id, cid, (0, 0), par, 0, etx⟩
  { pkt with checksum := calcCheckSum .generic pkt }

/-- The first half of `SendRecvCommand`: what it writes to the amplifier. -/
def sendCommand (spare : Byte) (pkt : GenericPacket) : Option (List Byte) := do
  let obuf ← serialize spare pkt
  let size ← getBufSize obuf obufSize
  let (obuf, size) ← escapeOBuf obuf size
  return obuf.take size

/-! ### The reply -/

/-- What a `read` gives: bytes (none when it returns 0), or an error. -/
inductive ReadResult
  | got (bytes : List Byte)
  | failed (errno : ℕ)
  deriving Repr

def eagain : ℕ := 11

/-- The value of `errno` after a `read` into so much space, and the bytes read. -/
def ReadResult.into (errno space : ℕ) : ReadResult → ℕ × List Byte
  | .got bytes => (errno, bytes.take space)
  | .failed errno' => (errno', [])

/-- The loop that collects a reply, with `left` more tries after this one; `none` when it gives up.
-/
def readLoop (reads : ℕ → ReadResult) : ℕ → ℕ → List Byte → Option (List Byte)
  | left, errno, ibuf =>
    let r := (reads left).into errno (ibufSize - ibuf.length)
    if r.2 = [] ∧ ibuf ≠ [] then some ibuf
    else
      match left with
      | 0 => none
      | left + 1 =>
        if r.1 = eagain ∧ (ibuf ++ r.2).length < ibufSize then
          readLoop reads left r.1 (ibuf ++ r.2)
        else some (ibuf ++ r.2)

/-- A reply, and whether its checksum was found wrong. -/
structure Reply where
  pkt : GenericPacket
  payload : List Byte
  checksumError : Bool
  deriving Repr

/-- The reply is cut into its fields. -/
def parseReply (ibuf : List Byte) (size : ℕ) : Option Reply := do
  let head ← ibuf[0]?
  let id0 ← ibuf[1]?
  let id1 ← ibuf[2]?
  let cmdId ← ibuf[3]?
  let modle0 ← ibuf[4]?
  let modle1 ← ibuf[5]?
  let payload := (ibuf.take (size - 2)).drop 6
  let _ ← overwrite (List.replicate payloadSize 0) payload
  let cks ← cellAt ibuf (size - 2)
  let chr ← cellAt ibuf (size - 1)
  let pkt : GenericPacket :=
    { head := head, deviceId := (id0, id1), cmdId := cmdId, modleId := (modle0, modle1)
      payload := if payload.length = 0 then none else some payload, checksum := cks, tail := chr }
  return ⟨pkt, payload, calcCheckSum .reply pkt ≠ cks⟩

/-- What is done with the bytes that were read. -/
def handleReply (stale : Vector Byte (ibufSize + 1)) (bytes : List Byte) : Option Reply := do
  let ibuf ← overwrite stale.toList bytes
  let size ← getBufSize ibuf bytes.length
  let (ibuf, size) ← unEscapeIBuf ibuf size
  parseReply ibuf size

/-- The second half of `SendRecvCommand`: the reply that it returns, or `NULL`. -/
def recvReply (stale : Vector Byte (ibufSize + 1)) (reads : ℕ → ReadResult) (errno : ℕ) :
    Option (Option Reply) :=
  match readLoop reads 21 errno [] with
  | none => some none
  | some bytes => (handleReply stale bytes).map some

/-! ### What the callers rely on -/

/-- The escapes of the amplifier. -/
def ampStuffing : Stuffing Byte where
  esc := esc
  special := isSpecial
  enc c := c + 0x40
  dec c := c - 0x40
  special_esc := by decide
  special_enc c hc := by
    rcases List.mem_of_elem_eq_true hc with _ | ⟨_, _ | ⟨_, _ | ⟨_, _ | ⟨_, _ | ⟨_, h⟩⟩⟩⟩⟩
    · decide
    · decide
    · decide
    · decide
    · decide
    · cases h
  dec_enc c := BitVec.add_sub_cancel c 0x40

/-- What a packet contains between its first and its last byte. -/
def GenericPacket.body (pkt : GenericPacket) : List Byte :=
  [pkt.deviceId.1, pkt.deviceId.2, pkt.cmdId] ++ pkt.payload.getD [] ++ [pkt.checksum]

/-- What is written for a packet: `STX`, its bytes escaped, and the only `ETX`; the receiving side
gets the packet back from it; and its size was found. -/
structure Sends (spare : Byte) (pkt : GenericPacket) (out : List Byte) : Prop where
  size : ∃ obuf, serialize spare pkt = some obuf ∧
    getBufSize obuf obufSize = some pkt.bytes.length
  framed : ∃ mid, out = stx :: mid ++ [etx] ∧ etx ∉ stx :: mid ∧ ampStuffing.Stuffed mid
  unescaped : ∀ stale : Vector Byte (ibufSize + 1), ∃ ibuf ibuf',
    overwrite stale.toList out = some ibuf ∧
      unEscapeIBuf ibuf out.length = some (ibuf', pkt.bytes.length) ∧
      ibuf'.take pkt.bytes.length = pkt.bytes

/-- The checksum of the bytes before it. -/
def checkSumOf (bytes : List Byte) : Byte :=
  let cks := bytes.foldl (fun cks c => cks ^^^ c) 0
  if cks = 0 ∨ cks = stx ∨ cks = etx then cks + 0x0A else cks

/-- A complete reply with its payload: a header of five bytes after the `STX`, the payload and the
right checksum, escaped, and the `ETX`.  Zeros after it do not count. -/
def Frame (bs payload : List Byte) : Prop :=
  ∃ mid header cks n, bs = stx :: mid ++ etx :: List.replicate n 0 ∧
    ampStuffing.unstuff mid = some (header ++ payload ++ [cks]) ∧ header.length = 5 ∧
    cks = checkSumOf (stx :: header ++ payload)

/-- A reply is received within the buffers, and it is returned only if it was complete. -/
def Receives (stale : Vector Byte (ibufSize + 1)) (reads : ℕ → ReadResult) (errno : ℕ) : Prop :=
  ∃ answer, recvReply stale reads errno = some answer ∧ ∀ r, answer = some r →
    ∃ bs, readLoop reads 21 errno [] = some bs ∧ Frame bs r.payload

/-! ### The buffers -/

theorem overwrite_eq {cells bytes : List Byte} (h : bytes.length ≤ cells.length) :
    overwrite cells bytes = some (bytes ++ cells.drop bytes.length) := if_pos h

theorem cellAt_natCast (cells : List Byte) (i : ℕ) : cellAt cells i = cells[i]? :=
  if_pos (Int.natCast_nonneg i)

theorem searchEtx_eq {pre rest : List Byte} {n : ℕ} (hpre : pre ≠ []) {m : ℕ} (hm : m ≤ n) :
    searchEtx (pre ++ etx :: (List.replicate n 0 ++ rest)) (pre.length + m) =
      some (some (pre.length + 1)) := by
  induction m with
  | zero =>
    obtain ⟨k, hk⟩ : ∃ k, pre.length = k + 1 :=
      ⟨pre.length - 1, (Nat.succ_pred_eq_of_pos (List.length_pos_iff.mpr hpre)).symm⟩
    have hcell : (pre ++ etx :: (List.replicate n 0 ++ rest))[k + 1]? = some etx := by
      rw [← hk, List.getElem?_append_right le_rfl, Nat.sub_self]
      rfl
    rw [Nat.add_zero, hk, searchEtx, hcell]
    rfl
  | succ m ih =>
    have hcell : (pre ++ etx :: (List.replicate n 0 ++ rest))[pre.length + m + 1]? =
        some (0 : Byte) := by
      rw [List.getElem?_append_right (by omega), Nat.add_assoc, Nat.add_sub_cancel_left,
        List.getElem?_cons_succ, List.getElem?_append_left (by rw [List.length_replicate]; omega),
        List.getElem?_replicate_of_lt (by omega)]
    rw [← Nat.add_assoc, searchEtx, hcell]
    exact ih (by omega)

theorem getBufSize_eq (mid rest : List Byte) (n : ℕ) :
    getBufSize (stx :: mid ++ etx :: (List.replicate n 0 ++ rest)) (mid.length + 2 + n) =
      some (mid.length + 2) := by
  have hsearch := @searchEtx_eq (stx :: mid) rest n (List.cons_ne_nil _ _) n le_rfl
  have hidx : mid.length + 2 + n - 1 = (stx :: mid).length + n := by
    rw [List.length_cons]
    omega
  have hfirst : (stx :: mid ++ etx :: (List.replicate n 0 ++ rest))[0]? = some stx := rfl
  unfold getBufSize
  rw [hfirst, hidx, hsearch]
  rfl

theorem cellAt_last (mid rest : List Byte) :
    cellAt (stx :: mid ++ etx :: rest) ((mid.length + 2 : ℕ) - 1) = some etx := by
  have hidx : ((mid.length + 2 : ℕ) : ℤ) - 1 = ((stx :: mid).length : ℕ) := by
    rw [List.length_cons]
    omega
  rw [hidx, cellAt_natCast, List.getElem?_append_right le_rfl, Nat.sub_self]
  rfl

theorem take_drop_framed (mid rest : List Byte) :
    ((stx :: mid ++ etx :: rest).take (mid.length + 2 - 1)).drop 1 = mid := by
  have hlen : mid.length + 2 - 1 = (stx :: mid).length := rfl
  rw [hlen, List.take_left' rfl]
  rfl

theorem take_framed (mid rest : List Byte) :
    (stx :: mid ++ etx :: rest).take (mid.length + 2) = stx :: mid ++ [etx] := by
  have hsplit : stx :: mid ++ etx :: rest = (stx :: mid ++ [etx]) ++ rest := by simp
  rw [hsplit, List.take_left' (by simp)]

/-! ### Sending -/

theorem escapeLoop_eq (cs : List Byte) : escapeLoop cs = ampStuffing.stuff cs := by
  induction cs with
  | nil => rfl
  | cons c cs ih =>
    rw [escapeLoop, Stuffing.stuff, ih]
    rfl

theorem escapeOBuf_eq (mid rest : List Byte)
    (hesc : (escapeLoop mid).length + 2 ≤ obufSize)
    (hfit : (escapeLoop mid).length + 2 ≤ (stx :: mid ++ etx :: rest).length) :
    ∃ rest', escapeOBuf (stx :: mid ++ etx :: rest) (mid.length + 2) =
      some (stx :: escapeLoop mid ++ [etx] ++ rest', (escapeLoop mid).length + 2) := by
  have hlen : (stx :: escapeLoop mid ++ [etx]).length = (escapeLoop mid).length + 2 := by simp
  have hcopy := @overwrite_eq (List.replicate escBufSize 0) (stx :: escapeLoop mid ++ [etx]) (by
    rw [hlen, List.length_replicate]
    exact hesc.trans (by decide))
  have hback := @overwrite_eq (stx :: mid ++ etx :: rest) (stx :: escapeLoop mid ++ [etx])
    (hlen.trans_le hfit)
  have hfirst : (stx :: mid ++ etx :: rest)[0]? = some stx := rfl
  refine ⟨(stx :: mid ++ etx :: rest).drop (stx :: escapeLoop mid ++ [etx]).length, ?_⟩
  unfold escapeOBuf
  rw [if_neg (Nat.succ_ne_zero _), hfirst, cellAt_last, take_drop_framed]
  simp only [Option.bind_eq_bind, Option.bind_some, and_self, if_true, hcopy, hback, hlen]
  rfl

theorem GenericPacket.bytes_eq {pkt : GenericPacket} (hhead : pkt.head = stx)
    (htail : pkt.tail = etx) : pkt.bytes = stx :: pkt.body ++ [etx] := by
  simp [GenericPacket.bytes, GenericPacket.body, hhead, htail]

theorem unEscapeLoop_eq {cs ds : List Byte} (h : ampStuffing.unstuff cs = some ds) (t : Byte) :
    unEscapeLoop (cs ++ [t]) = ds := by
  induction cs using Stuffing.unstuff.induct ampStuffing generalizing ds with
  | case1 =>
    obtain rfl := Option.some.inj h
    rfl
  | case2 => simp [Stuffing.unstuff] at h
  | case3 c hc =>
    rw [Stuffing.unstuff, if_neg hc] at h
    obtain rfl := Option.some.inj h
    exact if_neg hc
  | case4 d cs ih =>
    rw [Stuffing.unstuff_escape] at h
    obtain ⟨es, hes, rfl⟩ := Option.map_eq_some_iff.mp h
    rw [← ih hes]
    exact if_pos rfl
  | case5 c d cs hc ih =>
    rw [Stuffing.unstuff_plain hc] at h
    obtain ⟨es, hes, rfl⟩ := Option.map_eq_some_iff.mp h
    rw [← ih hes]
    exact if_neg hc

theorem unEscapeIBuf_eq {mid content : List Byte} (rest : List Byte)
    (hunstuff : ampStuffing.unstuff mid = some content) (hfit : mid.length + 2 ≤ ibufSize) :
    ∃ rest', unEscapeIBuf (stx :: mid ++ etx :: rest) (mid.length + 2) =
      some (stx :: content ++ etx :: rest', content.length + 2) := by
  have hle := Stuffing.length_unstuff_le hunstuff
  have hlen : (stx :: content ++ [etx]).length = content.length + 2 := by simp
  have hcopy := @overwrite_eq (List.replicate escBufSize 0) (stx :: mid ++ [etx]) (by
    rw [List.length_replicate]
    exact (by simp : (stx :: mid ++ [etx]).length = mid.length + 2).trans_le hfit)
  have hback := @overwrite_eq
    (List.replicate ibufSize 0 ++ (stx :: mid ++ etx :: rest).drop ibufSize)
    (stx :: content ++ [etx]) (by
      rw [hlen, List.length_append, List.length_replicate]
      omega)
  have hfirst : (stx :: mid ++ etx :: rest)[0]? = some stx := rfl
  have hloop : unEscapeLoop ((stx :: mid ++ [etx]).drop 1) = content :=
    unEscapeLoop_eq hunstuff etx
  refine ⟨(List.replicate ibufSize 0 ++ (stx :: mid ++ etx :: rest).drop ibufSize).drop
    (stx :: content ++ [etx]).length, ?_⟩
  unfold unEscapeIBuf
  rw [if_neg (Nat.succ_ne_zero _), hfirst, cellAt_last, take_framed]
  simp only [Option.bind_eq_bind, Option.bind_some, and_self, if_true, hcopy, hloop, hback, hlen]
  rw [List.append_assoc]
  rfl

theorem sends {pkt : GenericPacket} (spare : Byte) (hhead : pkt.head = stx) (htail : pkt.tail = etx)
    (hfit : (escapeLoop pkt.body).length + 2 ≤ obufSize) :
    ∃ out, sendCommand spare pkt = some out ∧ Sends spare pkt out := by
  have hbytes := GenericPacket.bytes_eq hhead htail
  have hlen : pkt.bytes.length = pkt.body.length + 2 := by
    rw [hbytes]
    simp
  have hle : pkt.body.length ≤ (escapeLoop pkt.body).length := by
    rw [escapeLoop_eq]
    exact Stuffing.length_le_stuff _
  -- the packet in the buffer, with zeros after it
  obtain ⟨n, hn⟩ := Nat.exists_eq_add_of_le ((Nat.add_le_add_right hle 2).trans hfit)
  have hserialize : serialize spare pkt =
      some (stx :: pkt.body ++ etx :: (List.replicate n 0 ++ [spare])) := by
    have hroom : pkt.bytes.length ≤ (List.replicate obufSize (0 : Byte)).length := by
      rw [List.length_replicate]
      omega
    unfold serialize
    rw [overwrite_eq (hroom.trans (by simp)), List.drop_append_of_le_length hroom,
      List.drop_replicate, hlen, hn, Nat.add_sub_cancel_left, hbytes]
    simp
  have hsize : getBufSize (stx :: pkt.body ++ etx :: (List.replicate n 0 ++ [spare])) obufSize =
      some (pkt.body.length + 2) := by
    rw [hn]
    exact getBufSize_eq pkt.body [spare] n
  obtain ⟨rest, hescape⟩ := escapeOBuf_eq pkt.body (List.replicate n 0 ++ [spare]) hfit (by
    simp only [List.length_append, List.length_cons, List.length_replicate, List.length_nil]
    omega)
  have hmid := @Stuffing.stuffed_stuff _ ampStuffing pkt.body
  rw [← escapeLoop_eq] at hmid
  have hunstuff := @Stuffing.unstuff_stuff _ ampStuffing _ pkt.body
  rw [← escapeLoop_eq] at hunstuff
  refine ⟨stx :: escapeLoop pkt.body ++ [etx], ?_, ⟨_, hserialize, hlen ▸ hsize⟩,
    ⟨_, rfl, ?_, hmid⟩, ?_⟩
  · unfold sendCommand
    simp only [Option.bind_eq_bind, hserialize, hsize, Option.bind_some, hescape]
    exact congrArg some (List.take_left' (by simp))
  · intro hmem
    rcases List.mem_cons.mp hmem with heq | hmem
    · exact absurd heq (by decide)
    · exact absurd (hmid.eq_esc hmem (by decide)) (by decide)
  · intro stale
    have hout : (stx :: escapeLoop pkt.body ++ [etx]).length =
        (escapeLoop pkt.body).length + 2 := by
      simp
    have hbound : (escapeLoop pkt.body).length + 2 ≤ ibufSize := hfit.trans (by decide)
    obtain ⟨rest', hun⟩ := unEscapeIBuf_eq
      (stale.toList.drop (stx :: escapeLoop pkt.body ++ [etx]).length) hunstuff hbound
    have hwrite := @overwrite_eq stale.toList (stx :: escapeLoop pkt.body ++ [etx]) (by
      rw [hout, Vector.length_toList]
      omega)
    have hsame := List.append_assoc (stx :: escapeLoop pkt.body) [etx]
      (stale.toList.drop (stx :: escapeLoop pkt.body ++ [etx]).length)
    refine ⟨_, stx :: pkt.body ++ etx :: rest', hwrite, ?_, ?_⟩
    · rw [hsame, hout, hlen]
      rw [hout] at hun
      exact hun
    · rw [hlen, hbytes]
      exact take_framed _ _

/-! ### Receiving -/

theorem ReadResult.length_into (errno space : ℕ) (r : ReadResult) :
    (r.into errno space).2.length ≤ space := by
  cases r with
  | got bytes => exact List.length_take_le _ _
  | failed errno' => exact Nat.zero_le _

theorem length_readLoop {reads : ℕ → ReadResult} {left errno : ℕ} {ibuf bs : List Byte}
    (h : readLoop reads left errno ibuf = some bs) (hfit : ibuf.length ≤ ibufSize) :
    bs.length ≤ ibufSize := by
  induction left generalizing errno ibuf with
  | zero =>
    unfold readLoop at h
    simp only [Option.ite_none_right_eq_some] at h
    obtain rfl := Option.some.inj h.2
    exact hfit
  | succ left ih =>
    have hread := ((reads (left + 1)).length_into errno (ibufSize - ibuf.length))
    unfold readLoop at h
    generalize (reads (left + 1)).into errno (ibufSize - ibuf.length) = r at h hread
    have hmore : (ibuf ++ r.2).length ≤ ibufSize := by
      rw [List.length_append]
      omega
    simp only at h
    split at h
    · obtain rfl := Option.some.inj h
      exact hfit
    split at h
    · exact ih h hmore
    · obtain rfl := Option.some.inj h
      exact hmore

theorem calcCheckSum_reply (pkt : GenericPacket) :
    calcCheckSum .reply pkt = checkSumOf ([pkt.head, pkt.deviceId.1, pkt.deviceId.2, pkt.cmdId,
      pkt.modleId.1, pkt.modleId.2] ++ pkt.payload.getD []) := rfl

theorem parseReply_eq {header payload : List Byte} {cks : Byte} (rest : List Byte)
    (hheader : header.length = 5) (hfit : payload.length ≤ payloadSize) :
    ∃ r, parseReply (stx :: (header ++ payload ++ [cks]) ++ etx :: rest)
        ((header ++ payload ++ [cks]).length + 2) = some r ∧ r.payload = payload ∧
      r.pkt.checksum = cks ∧
      r.checksumError = decide (checkSumOf (stx :: header ++ payload) ≠ cks) := by
  obtain ⟨a, b, c, d, e, rfl⟩ : ∃ a b c d e, header = [a, b, c, d, e] := by
    rcases header with _ | ⟨a, _ | ⟨b, _ | ⟨c, _ | ⟨d, _ | ⟨e, _ | ⟨f, l⟩⟩⟩⟩⟩⟩
    all_goals first | exact ⟨_, _, _, _, _, rfl⟩ | simp at hheader
  have hsize : ([a, b, c, d, e] ++ payload ++ [cks]).length + 2 = payload.length + 8 := by
    simp
  have hbuf : stx :: ([a, b, c, d, e] ++ payload ++ [cks]) ++ etx :: rest =
      [stx, a, b, c, d, e] ++ payload ++ cks :: etx :: rest := by
    simp
  rw [hsize, hbuf]
  have hpayload : (([stx, a, b, c, d, e] ++ payload ++ cks :: etx :: rest).take
      (payload.length + 8 - 2)).drop 6 = payload := by
    rw [List.take_left' (by simp)]
    rfl
  have hcks : cellAt ([stx, a, b, c, d, e] ++ payload ++ cks :: etx :: rest)
      ((payload.length + 8 : ℕ) - 2) = some cks := by
    have hidx : ((payload.length + 8 : ℕ) : ℤ) - 2 =
        (([stx, a, b, c, d, e] ++ payload).length : ℕ) := by
      simp only [List.length_append, List.length_cons, List.length_nil]
      omega
    rw [hidx, cellAt_natCast, List.getElem?_append_right le_rfl, Nat.sub_self]
    rfl
  have hchr : cellAt ([stx, a, b, c, d, e] ++ payload ++ cks :: etx :: rest)
      ((payload.length + 8 : ℕ) - 1) = some etx := by
    have hidx : ((payload.length + 8 : ℕ) : ℤ) - 1 =
        (([stx, a, b, c, d, e] ++ payload).length + 1 : ℕ) := by
      simp only [List.length_append, List.length_cons, List.length_nil]
      omega
    rw [hidx, cellAt_natCast, List.getElem?_append_right (Nat.le_add_right _ _),
      Nat.add_sub_cancel_left]
    rfl
  have hstore := @overwrite_eq (List.replicate payloadSize 0) payload (by
    rwa [List.length_replicate])
  have hpart : (if payload.length = 0 then none else some payload).getD [] = payload := by
    split
    · rename_i hzero
      exact (List.eq_nil_of_length_eq_zero hzero).symm
    · rfl
  obtain ⟨pkt, hpkt⟩ : ∃ pkt : GenericPacket, pkt = ⟨stx, (a, b), c, (d, e),
      if payload.length = 0 then none else some payload, cks, etx⟩ := ⟨_, rfl⟩
  refine ⟨⟨pkt, payload, calcCheckSum .reply pkt ≠ cks⟩, ?_, rfl, by rw [hpkt], ?_⟩
  · rw [hpkt]
    unfold parseReply
    simp only [hpayload, hcks, hchr, hstore, Option.bind_eq_bind, Option.bind_some]
    rfl
  · rw [calcCheckSum_reply, hpkt]
    simp only [hpart]

theorem handleReply_eq {mid header payload : List Byte} {cks : Byte} {n : ℕ}
    (stale : Vector Byte (ibufSize + 1)) (hfit : mid.length + 2 + n ≤ ibufSize)
    (hunstuff : ampStuffing.unstuff mid = some (header ++ payload ++ [cks]))
    (hheader : header.length = 5) :
    ∃ r, handleReply stale (stx :: mid ++ etx :: List.replicate n 0) = some r ∧
      r.payload = payload ∧
      r.checksumError = decide (checkSumOf (stx :: header ++ payload) ≠ cks) := by
  have hlen : (stx :: mid ++ etx :: List.replicate n (0 : Byte)).length = mid.length + 2 + n := by
    simp
    omega
  have hwrite := @overwrite_eq stale.toList (stx :: mid ++ etx :: List.replicate n 0) (by
    rw [hlen, Vector.length_toList]
    omega)
  obtain ⟨stale', hstale'⟩ : ∃ l, l = stale.toList.drop
    (stx :: mid ++ etx :: List.replicate n (0 : Byte)).length := ⟨_, rfl⟩
  have hcells : stx :: mid ++ etx :: List.replicate n (0 : Byte) ++ stale' =
      stx :: mid ++ etx :: (List.replicate n 0 ++ stale') := by
    rw [List.append_assoc]
    rfl
  rw [← hstale', hcells] at hwrite
  obtain ⟨rest, hun⟩ := unEscapeIBuf_eq (List.replicate n 0 ++ stale') hunstuff (by omega)
  have hle := Stuffing.length_unstuff_le hunstuff
  simp only [List.length_append] at hle
  obtain ⟨r, hr, hpayload, -, herror⟩ := @parseReply_eq header payload cks rest hheader (by
    change _ ≤ ibufSize
    omega)
  refine ⟨r, ?_, hpayload, herror⟩
  unfold handleReply
  rw [hwrite]
  simp only [Option.bind_eq_bind, Option.bind_some, hlen, getBufSize_eq, hun]
  exact hr

/-- **Framing.**  A command that fits is sent so that it can be taken apart again; and the reply is
received as the callers rely on exactly when the bytes read are a complete reply. -/
theorem framing_iff (spare : Byte) (id : Byte × Byte) (cid : Byte) (par : Option (List Byte))
    (hfit : (escapeLoop (command id cid par).body).length + 2 ≤ obufSize)
    (stale : Vector Byte (ibufSize + 1)) (reads : ℕ → ReadResult) (errno : ℕ) :
    (∃ out, sendCommand spare (command id cid par) = some out ∧
      Sends spare (command id cid par) out) ∧
    (Receives stale reads errno ↔
      ∀ bs, readLoop reads 21 errno [] = some bs → ∃ payload, Frame bs payload) := by
  refine ⟨sends spare rfl rfl hfit, ?_, ?_⟩
  · rintro ⟨answer, hanswer, hframe⟩ bs hbs
    unfold recvReply at hanswer
    rw [hbs] at hanswer
    obtain ⟨r, -, rfl⟩ := Option.map_eq_some_iff.mp hanswer
    obtain ⟨bs', hbs', hr⟩ := hframe r rfl
    obtain rfl := Option.some.inj (hbs.symm.trans hbs')
    exact ⟨_, hr⟩
  · intro hall
    unfold Receives recvReply
    cases hbs : readLoop reads 21 errno [] with
    | none => exact ⟨none, rfl, fun r hr => by cases hr⟩
    | some bs =>
      obtain ⟨payload, hframe⟩ := hall bs hbs
      have hlen := length_readLoop hbs (Nat.zero_le _)
      have hparts := hframe
      obtain ⟨mid, header, cks, n, rfl, hunstuff, hheader, -⟩ := hparts
      obtain ⟨r, hr, hpayload, -⟩ := @handleReply_eq mid header payload cks n stale
        (by simp at hlen; omega) hunstuff hheader
      refine ⟨some r, congrArg (Option.map some) hr, fun r' hr' => ⟨_, rfl, ?_⟩⟩
      obtain rfl := Option.some.inj hr'
      rw [hpayload]
      exact hframe

theorem handleReply_nil (stale : Vector Byte (ibufSize + 1)) : handleReply stale [] = none := by
  have hwrite := @overwrite_eq stale.toList [] (Nat.zero_le _)
  have hcks : cellAt stale.toList ((0 : ℕ) - 2) = none := if_neg (by decide)
  have hsize : ∃ c, stale.toList[0]? = some c := by
    refine ⟨_, List.getElem?_eq_getElem ?_⟩
    rw [Vector.length_toList]
    decide
  obtain ⟨c, hc⟩ := hsize
  have hfound : getBufSize stale.toList 0 = some 0 := by
    unfold getBufSize
    rw [hc]
    simp only [Option.bind_eq_bind, Option.bind_some]
    split <;> rfl
  unfold handleReply
  rw [hwrite]
  simp only [Option.bind_eq_bind, Option.bind_some, List.nil_append, List.length_nil,
    List.drop_zero, hfound]
  change parseReply stale.toList 0 = none
  unfold parseReply
  simp only [hcks, Option.bind_eq_bind, Option.bind_none, Option.bind_fun_none]

theorem Frame.checksum {mid content payload : List Byte} (h : Frame (stx :: mid ++ [etx]) payload)
    (hunstuff : ampStuffing.unstuff mid = some content) :
    content.getLast? = some (checkSumOf (stx :: content.dropLast)) := by
  obtain ⟨mid', header, cks, n, heq, hunstuff', -, hcks⟩ := h
  have hzero : n = 0 := by
    by_contra hpos
    obtain ⟨k, rfl⟩ := Nat.exists_eq_succ_of_ne_zero hpos
    have hlast := congrArg List.getLast? heq
    have hzeros : stx :: mid' ++ etx :: List.replicate (k + 1) 0 =
        (stx :: mid' ++ etx :: List.replicate k 0) ++ [(0 : Byte)] := by
      rw [List.replicate_succ']
      simp
    rw [hzeros, List.getLast?_concat, List.getLast?_concat] at hlast
    exact absurd (Option.some.inj hlast) (by decide)
  subst hzero
  obtain rfl : mid = mid' := by simpa using heq
  obtain rfl := Option.some.inj (hunstuff.symm.trans hunstuff')
  simp [hcks]

/-- A command without a parameter. -/
def statusCommand : GenericPacket := command (0x30, 0x31) 0x53 none

theorem framing_iff_first :
    (escapeLoop (command (0x30, 0x31) 0x53 none).body).length + 2 ≤ obufSize ∧
      (∃ out, sendCommand 0 statusCommand = some out ∧ Sends 0 statusCommand out) ∧
      (Receives (Vector.replicate _ 0) (fun _ => .failed 5) 0 ↔
        ∀ bs, readLoop (fun _ => .failed 5) 21 0 [] = some bs → ∃ payload, Frame bs payload) :=
  ⟨by decide, framing_iff 0 (0x30, 0x31) 0x53 none (by decide) (Vector.replicate _ 0)
    (fun _ => .failed 5) 0⟩

/-- A reply with a payload of two bytes and a wrong checksum, read at once. -/
def wrongReply : ℕ → ReadResult := fun _ =>
  .got (stx :: [0x30, 0x31, 0x53, 0x30, 0x31, 0x35, 0x36, 0x39] ++ [etx])

/-- A read error before the first byte leads to an access before the buffer; and a reply with a
wrong checksum is returned. -/
theorem framing_broken :
    (∀ stale, readLoop (fun _ => .failed 5) 21 0 [] = some [] ∧
      recvReply stale (fun _ => .failed 5) 0 = none ∧
      ¬ Receives stale (fun _ => .failed 5) 0) ∧
    ∀ stale, (∃ r, recvReply stale wrongReply 0 = some (some r) ∧ r.payload = [0x35, 0x36] ∧
      r.checksumError = true) ∧ ¬ Receives stale wrongReply 0 := by
  have hnone : readLoop (fun _ => .failed 5) 21 0 [] = some [] := by decide
  have hwrong : readLoop wrongReply 21 0 [] =
      some (stx :: [0x30, 0x31, 0x53, 0x30, 0x31, 0x35, 0x36, 0x39] ++ [etx]) := by decide
  refine ⟨fun stale => ⟨hnone, ?_, ?_⟩, fun stale => ⟨?_, ?_⟩⟩
  · unfold recvReply
    rw [hnone]
    exact congrArg (Option.map some) (handleReply_nil stale)
  · rintro ⟨answer, hanswer, -⟩
    unfold recvReply at hanswer
    rw [hnone] at hanswer
    obtain ⟨r, hr, -⟩ := Option.map_eq_some_iff.mp hanswer
    exact absurd ((handleReply_nil stale).symm.trans hr) (by simp)
  · obtain ⟨r, hr, hpayload, herror⟩ := @handleReply_eq
      [0x30, 0x31, 0x53, 0x30, 0x31, 0x35, 0x36, 0x39] [0x30, 0x31, 0x53, 0x30, 0x31]
      [0x35, 0x36] 0x39 0 stale (by decide) (by decide) rfl
    refine ⟨r, ?_, hpayload, herror.trans (by decide)⟩
    unfold recvReply
    rw [hwrong]
    exact congrArg (Option.map some) hr
  · rintro ⟨answer, hanswer, hframe⟩
    unfold recvReply at hanswer
    rw [hwrong] at hanswer
    obtain ⟨r, -, rfl⟩ := Option.map_eq_some_iff.mp hanswer
    obtain ⟨bs, hbs, hr⟩ := hframe r rfl
    obtain rfl := Option.some.inj (hwrong.symm.trans hbs)
    have hunstuff : ampStuffing.unstuff [0x30, 0x31, 0x53, 0x30, 0x31, 0x35, 0x36, 0x39] =
        some [0x30, 0x31, 0x53, 0x30, 0x31, 0x35, 0x36, 0x39] := by decide
    exact absurd (hr.checksum hunstuff) (by decide)

end KernelModules.Acdx
