import KernelModules.Lib.BitSet
import KernelModules.Lib.Transition
import Mathlib.Tactic

/-!
# Relays of the Pickering multiplexers

A connection of an input with an output closes an isolation relay of the input, a crosspoint and an
isolation relay of the output, and on the 16 to 16 card a loop-through relay too.  The isolation
relay of an input is shared by its connections to one half of the outputs.

* `relayMap9to8`, `relayMap16to16` and `loopThruMap` are the tables, `Card` the two cards;
* `Mux.connect`, `Mux.disconnect` and `Mux.reset` are the requests of both cards, with the wrappers
  under their own names after them;
* `Role` says what a relay is for, and `relay_eq_iff` that the tables give every role a relay of its
  own, but for one crosspoint of the 9 to 8 card that is in the table twice;
* `relays_of_reachUnder` is the invariant: a relay is closed when a registered connection needs it.

A request that indexes a table outside its bounds has no outcome.
-/

namespace KernelModules.Pickering

open Function KernelModules.Lib

/-- `RelayMap`. -/
structure RelayMap where
  yIsoRelay : ℕ
  yxRelay : ℕ
  xIsoRelay : ℕ
  deriving DecidableEq

/-- `relayMap` of `pickering9to8.c`. -/
def relayMap9to8 : List (List RelayMap) :=
  [
    [⟨107, 111, 88⟩, ⟨107, 110, 89⟩, ⟨107, 109, 90⟩, ⟨107, 108, 91⟩, ⟨12, 16, 31⟩, ⟨12, 17, 28⟩,
     ⟨12, 18, 29⟩, ⟨12, 16, 30⟩],
    [⟨106, 101, 88⟩, ⟨106, 100, 89⟩, ⟨106, 104, 90⟩, ⟨106, 105, 91⟩, ⟨13, 10, 31⟩, ⟨13, 9, 28⟩,
     ⟨13, 8, 29⟩, ⟨13, 14, 30⟩],
    [⟨102, 98, 88⟩, ⟨102, 97, 89⟩, ⟨102, 99, 90⟩, ⟨102, 103, 91⟩, ⟨21, 22, 31⟩, ⟨21, 23, 28⟩,
     ⟨21, 15, 29⟩, ⟨21, 11, 30⟩],
    [⟨96, 94, 88⟩, ⟨96, 95, 89⟩, ⟨96, 93, 90⟩, ⟨96, 92, 91⟩, ⟨20, 24, 31⟩, ⟨20, 27, 28⟩,
     ⟨20, 26, 29⟩, ⟨20, 25, 30⟩],
    [⟨83, 80, 85⟩, ⟨83, 76, 84⟩, ⟨83, 81, 86⟩, ⟨83, 82, 87⟩, ⟨39, 38, 32⟩, ⟨39, 37, 33⟩,
     ⟨39, 36, 34⟩, ⟨39, 40, 35⟩],
    [⟨77, 79, 85⟩, ⟨77, 75, 84⟩, ⟨77, 74, 86⟩, ⟨77, 78, 87⟩, ⟨41, 42, 32⟩, ⟨41, 43, 33⟩,
     ⟨41, 47, 34⟩, ⟨41, 46, 35⟩],
    [⟨73, 68, 85⟩, ⟨73, 69, 84⟩, ⟨73, 70, 86⟩, ⟨73, 72, 87⟩, ⟨45, 44, 32⟩, ⟨45, 48, 33⟩,
     ⟨45, 49, 34⟩, ⟨45, 50, 35⟩],
    [⟨64, 67, 85⟩, ⟨64, 66, 84⟩, ⟨64, 71, 86⟩, ⟨64, 65, 87⟩, ⟨51, 3, 32⟩, ⟨51, 7, 33⟩,
     ⟨51, 2, 34⟩, ⟨51, 6, 35⟩],
    [⟨59, 61, 85⟩, ⟨59, 60, 84⟩, ⟨59, 62, 86⟩, ⟨59, 63, 87⟩, ⟨5, 0, 32⟩, ⟨5, 4, 33⟩, ⟨5, 55, 34⟩,
     ⟨5, 54, 35⟩]]

/-- `relayMap` of `pickering16to16.c`. -/
def relayMap16to16 : List (List RelayMap) :=
  [
    [⟨231, 168, 164⟩, ⟨231, 187, 165⟩, ⟨231, 180, 185⟩, ⟨231, 203, 183⟩, ⟨231, 192, 207⟩,
     ⟨231, 223, 193⟩, ⟨231, 208, 221⟩, ⟨231, 235, 211⟩, ⟨248, 244, 268⟩, ⟨248, 271, 258⟩,
     ⟨248, 256, 286⟩, ⟨248, 287, 272⟩, ⟨248, 276, 296⟩, ⟨248, 299, 294⟩, ⟨248, 292, 314⟩,
     ⟨248, 311, 315⟩],
    [⟨230, 169, 164⟩, ⟨230, 186, 165⟩, ⟨230, 181, 185⟩, ⟨230, 202, 183⟩, ⟨230, 196, 207⟩,
     ⟨230, 222, 193⟩, ⟨230, 209, 221⟩, ⟨230, 234, 211⟩, ⟨249, 245, 268⟩, ⟨249, 270, 258⟩,
     ⟨249, 257, 286⟩, ⟨249, 283, 272⟩, ⟨249, 277, 296⟩, ⟨249, 298, 294⟩, ⟨249, 293, 314⟩,
     ⟨249, 310, 315⟩],
    [⟨229, 170, 164⟩, ⟨229, 163, 165⟩, ⟨229, 182, 185⟩, ⟨229, 201, 183⟩, ⟨229, 197, 207⟩,
     ⟨229, 219, 193⟩, ⟨229, 210, 221⟩, ⟨229, 233, 211⟩, ⟨250, 246, 268⟩, ⟨250, 269, 258⟩,
     ⟨250, 260, 286⟩, ⟨250, 282, 272⟩, ⟨250, 278, 296⟩, ⟨250, 297, 294⟩, ⟨250, 316, 314⟩,
     ⟨250, 309, 315⟩],
    [⟨228, 171, 164⟩, ⟨228, 162, 165⟩, ⟨228, 188, 185⟩, ⟨228, 200, 183⟩, ⟨228, 198, 207⟩,
     ⟨228, 218, 193⟩, ⟨228, 212, 221⟩, ⟨228, 232, 211⟩, ⟨251, 247, 268⟩, ⟨251, 267, 258⟩,
     ⟨251, 261, 286⟩, ⟨251, 281, 272⟩, ⟨251, 279, 296⟩, ⟨251, 291, 294⟩, ⟨251, 317, 314⟩,
     ⟨251, 308, 315⟩],
    [⟨227, 172, 164⟩, ⟨227, 161, 165⟩, ⟨227, 189, 185⟩, ⟨227, 179, 183⟩, ⟨227, 199, 207⟩,
     ⟨227, 217, 193⟩, ⟨227, 213, 221⟩, ⟨227, 239, 211⟩, ⟨252, 240, 268⟩, ⟨252, 266, 258⟩,
     ⟨252, 262, 286⟩, ⟨252, 280, 272⟩, ⟨252, 300, 296⟩, ⟨252, 290, 294⟩, ⟨252, 318, 314⟩,
     ⟨252, 307, 315⟩],
    [⟨226, 173, 164⟩, ⟨226, 160, 165⟩, ⟨226, 190, 185⟩, ⟨226, 178, 183⟩, ⟨226, 204, 207⟩,
     ⟨226, 216, 193⟩, ⟨226, 214, 221⟩, ⟨226, 238, 211⟩, ⟨253, 241, 268⟩, ⟨253, 265, 258⟩,
     ⟨253, 263, 286⟩, ⟨253, 275, 272⟩, ⟨253, 301, 296⟩, ⟨253, 289, 294⟩, ⟨253, 319, 314⟩,
     ⟨253, 306, 315⟩],
    [⟨225, 174, 164⟩, ⟨225, 167, 165⟩, ⟨225, 191, 185⟩, ⟨225, 177, 183⟩, ⟨225, 205, 207⟩,
     ⟨225, 195, 193⟩, ⟨225, 215, 221⟩, ⟨225, 237, 211⟩, ⟨254, 242, 268⟩, ⟨254, 264, 258⟩,
     ⟨254, 284, 286⟩, ⟨254, 274, 272⟩, ⟨254, 302, 296⟩, ⟨254, 288, 294⟩, ⟨254, 312, 314⟩,
     ⟨254, 305, 315⟩],
    [⟨224, 175, 164⟩, ⟨224, 166, 165⟩, ⟨224, 184, 185⟩, ⟨224, 176, 183⟩, ⟨224, 206, 207⟩,
     ⟨224, 194, 193⟩, ⟨224, 220, 221⟩, ⟨224, 236, 211⟩, ⟨255, 243, 268⟩, ⟨255, 259, 258⟩,
     ⟨255, 285, 286⟩, ⟨255, 273, 272⟩, ⟨255, 303, 296⟩, ⟨255, 295, 294⟩, ⟨255, 313, 314⟩,
     ⟨255, 304, 315⟩],
    [⟨95, 144, 155⟩, ⟨95, 153, 154⟩, ⟨95, 135, 134⟩, ⟨95, 143, 136⟩, ⟨95, 113, 112⟩,
     ⟨95, 125, 126⟩, ⟨95, 99, 98⟩, ⟨95, 83, 108⟩, ⟨64, 76, 51⟩, ⟨64, 60, 61⟩, ⟨64, 34, 33⟩,
     ⟨64, 46, 47⟩, ⟨64, 16, 23⟩, ⟨64, 24, 25⟩, ⟨64, 6, 5⟩, ⟨64, 15, 4⟩],
    [⟨94, 145, 155⟩, ⟨94, 152, 154⟩, ⟨94, 128, 134⟩, ⟨94, 142, 136⟩, ⟨94, 114, 112⟩,
     ⟨94, 124, 126⟩, ⟨94, 104, 98⟩, ⟨94, 82, 108⟩, ⟨65, 77, 51⟩, ⟨65, 55, 61⟩, ⟨65, 35, 33⟩,
     ⟨65, 45, 47⟩, ⟨65, 17, 23⟩, ⟨65, 31, 25⟩, ⟨65, 7, 5⟩, ⟨65, 14, 4⟩],
    [⟨93, 146, 155⟩, ⟨93, 159, 154⟩, ⟨93, 129, 134⟩, ⟨93, 141, 136⟩, ⟨93, 115, 112⟩,
     ⟨93, 103, 126⟩, ⟨93, 105, 98⟩, ⟨93, 81, 108⟩, ⟨66, 78, 51⟩, ⟨66, 54, 61⟩, ⟨66, 56, 33⟩,
     ⟨66, 44, 47⟩, ⟨66, 18, 23⟩, ⟨66, 30, 25⟩, ⟨66, 0, 5⟩, ⟨66, 13, 4⟩],
    [⟨92, 147, 155⟩, ⟨92, 158, 154⟩, ⟨92, 130, 134⟩, ⟨92, 140, 136⟩, ⟨92, 120, 112⟩,
     ⟨92, 102, 126⟩, ⟨92, 106, 98⟩, ⟨92, 80, 108⟩, ⟨67, 79, 51⟩, ⟨67, 53, 61⟩, ⟨67, 57, 33⟩,
     ⟨67, 39, 47⟩, ⟨67, 19, 23⟩, ⟨67, 29, 25⟩, ⟨67, 1, 5⟩, ⟨67, 12, 4⟩],
    [⟨91, 148, 155⟩, ⟨91, 157, 154⟩, ⟨91, 131, 134⟩, ⟨91, 119, 136⟩, ⟨91, 121, 112⟩,
     ⟨91, 101, 126⟩, ⟨91, 107, 98⟩, ⟨91, 87, 108⟩, ⟨68, 72, 51⟩, ⟨68, 52, 61⟩, ⟨68, 58, 33⟩,
     ⟨68, 38, 47⟩, ⟨68, 40, 23⟩, ⟨68, 28, 25⟩, ⟨68, 2, 5⟩, ⟨68, 11, 4⟩],
    [⟨90, 149, 155⟩, ⟨90, 156, 154⟩, ⟨90, 137, 134⟩, ⟨90, 118, 136⟩, ⟨90, 122, 112⟩,
     ⟨90, 100, 126⟩, ⟨90, 109, 98⟩, ⟨90, 86, 108⟩, ⟨69, 73, 51⟩, ⟨69, 50, 61⟩, ⟨69, 59, 33⟩,
     ⟨69, 37, 47⟩, ⟨69, 41, 23⟩, ⟨69, 22, 25⟩, ⟨69, 3, 5⟩, ⟨69, 10, 4⟩],
    [⟨89, 150, 155⟩, ⟨89, 133, 154⟩, ⟨89, 138, 134⟩, ⟨89, 117, 136⟩, ⟨89, 123, 112⟩,
     ⟨89, 97, 126⟩, ⟨89, 110, 98⟩, ⟨89, 85, 108⟩, ⟨70, 74, 51⟩, ⟨70, 49, 61⟩, ⟨70, 62, 33⟩,
     ⟨70, 36, 47⟩, ⟨70, 42, 23⟩, ⟨70, 21, 25⟩, ⟨70, 26, 5⟩, ⟨70, 9, 4⟩],
    [⟨88, 151, 155⟩, ⟨88, 132, 154⟩, ⟨88, 139, 134⟩, ⟨88, 116, 136⟩, ⟨88, 127, 112⟩,
     ⟨88, 96, 126⟩, ⟨88, 111, 98⟩, ⟨88, 84, 108⟩, ⟨71, 75, 51⟩, ⟨71, 48, 61⟩, ⟨71, 63, 33⟩,
     ⟨71, 32, 47⟩, ⟨71, 43, 23⟩, ⟨71, 20, 25⟩, ⟨71, 27, 5⟩, ⟨71, 8, 4⟩]]

def loopThruMap : List ℕ :=
  [334, 335, 332, 333, 330, 331, 328, 329, 326, 327, 324, 325, 322, 323, 320, 321]

/-- The two cards. -/
inductive Card
  | nineToEight
  | sixteenToSixteen
  deriving DecidableEq

/-- `PICK_MUX_.._MAX_INPUT` and `PICK_MUX_.._MAX_OUTPUT`. -/
def Card.maxInput : Card → ℕ
  | .nineToEight => 9
  | .sixteenToSixteen => 16

def Card.maxOutput : Card → ℕ
  | .nineToEight => 8
  | .sixteenToSixteen => 16

/-- The length of `loopData`. -/
def Card.loopLen : Card → ℕ
  | .nineToEight => 56 * 2
  | .sixteenToSixteen => 336 * 1

/-- `relayMap[i][o]`. -/
def Card.relayMap (c : Card) (i o : ℕ) : RelayMap :=
  match c with
  | .nineToEight => (relayMap9to8.getD i []).getD o ⟨0, 0, 0⟩
  | .sixteenToSixteen => (relayMap16to16.getD i []).getD o ⟨0, 0, 0⟩

/-- `loopThruMap[o]`, where the card has it. -/
def Card.loopThru (c : Card) (o : ℕ) : List ℕ :=
  match c with
  | .nineToEight => []
  | .sixteenToSixteen => [loopThruMap.getD o 0]

/-- `firstOutput` and one past `lastOutput` of the scan for an output number. -/
def Card.half : Card → ℤ → ℕ × ℕ
  | .nineToEight, output => if output ≤ 9 / 2 then (0, 4) else (4, 8)
  | .sixteenToSixteen, output => if output ≤ 16 / 2 then (0, 8) else (8, 16)

/-- The relays of a connection. -/
def Card.relays (c : Card) (i o : ℕ) : List ℕ :=
  [(c.relayMap i o).yIsoRelay, (c.relayMap i o).yxRelay, (c.relayMap i o).xIsoRelay] ++ c.loopThru o

/-- `inputs` and `loopData` of a card, and the loops that the card has got. -/
structure Mux where
  inputs : ℕ → ℕ
  loopData : ℕ → Bool
  sent : ℕ → Bool

/-- `pickeringMuxSendData`. -/
def Mux.sendData (s : Mux) : Mux := { s with sent := s.loopData }

/-- Some relays set. -/
def setRelays (loopData : ℕ → Bool) (rs : List ℕ) (v : Bool) : ℕ → Bool :=
  rs.foldl (fun d r => update d r v) loopData

/-- The body of `pickMux..Connect`. -/
def Mux.connect (c : Card) (s : Mux) (input output : ℤ) : Option (ℤ × Mux) :=
  if 1 ≤ output ∧ output ≤ c.maxOutput then
    let o := (output - 1).toNat
    if s.inputs o ≠ 0 then some (-1, s)
    else if 1 ≤ input ∧ input ≤ c.maxInput then
      let i := (input - 1).toNat
      some (0, Mux.sendData
        { s with
          loopData := setRelays s.loopData (c.relays i o) true
          inputs := update s.inputs o input.toNat })
    else none
  else none

/-- The body of `pickMux..Disconnect`. -/
def Mux.disconnect (c : Card) (s : Mux) (output : ℤ) : Option (ℤ × Mux) :=
  if 1 ≤ output ∧ output ≤ c.maxOutput then
    let o := (output - 1).toNat
    let input := s.inputs o
    if input = 0 then some (0, s)
    else
      let inputs := update s.inputs o 0
      let (first, stop) := c.half output
      let multi := (List.range' first (stop - first)).any fun j => inputs j = input
      let m := c.relayMap (input - 1) o
      let rs := (if multi then [] else [m.yIsoRelay]) ++ [m.yxRelay, m.xIsoRelay] ++ c.loopThru o
      some (0, Mux.sendData
        { s with loopData := setRelays s.loopData rs false, inputs := inputs })
  else none

/-- The body of `pickMux..Reset`. -/
def Mux.reset : Mux := Mux.sendData ⟨fun _ => 0, fun _ => false, fun _ => false⟩

def pickMux9to8Connect (s : Mux) (input output : ℤ) : Option (ℤ × Mux) :=
  s.connect .nineToEight input output

def pickMux9to8Disconnect (s : Mux) (output : ℤ) : Option (ℤ × Mux) :=
  s.disconnect .nineToEight output

def pickMux16to16Connect (s : Mux) (input output : ℤ) : Option (ℤ × Mux) :=
  s.connect .sixteenToSixteen input output

def pickMux16to16Disconnect (s : Mux) (output : ℤ) : Option (ℤ × Mux) :=
  s.disconnect .sixteenToSixteen output

/-- A request. -/
inductive Request
  | connect (input output : ℤ)
  | disconnect (output : ℤ)
  | reset

/-- A request to a card: what it returns, and the state after it. -/
def Mux.run (s : Mux) : Card → Request → Option (ℤ × Mux)
  | .nineToEight, .connect input output => pickMux9to8Connect s input output
  | .nineToEight, .disconnect output => pickMux9to8Disconnect s output
  | .sixteenToSixteen, .connect input output => pickMux16to16Connect s input output
  | .sixteenToSixteen, .disconnect output => pickMux16to16Disconnect s output
  | _, .reset => some (0, Mux.reset)

/-- A card: any requests from reset on. -/
def muxCard (c : Card) : System Mux Request :=
  System.ofFun (fun s => s = Mux.reset) fun s a => (s.run c a).map Prod.snd

/-- Relay `r` belongs to a registered connection. -/
def Mux.Needs (c : Card) (s : Mux) (r : ℕ) : Prop :=
  ∃ o, o < c.maxOutput ∧ s.inputs o ≠ 0 ∧ r ∈ c.relays (s.inputs o - 1) o

/-- The relays agree with the registered connections, in the driver and on the card. -/
structure Mux.Agrees (c : Card) (s : Mux) : Prop where
  closed : ∀ r, s.loopData r = true ↔ s.Needs c r
  sent : s.sent = s.loopData

/-- The numbers of a request are those of the card. -/
def InRange (c : Card) : Request → Prop
  | .connect input output => (1 ≤ input ∧ input ≤ c.maxInput) ∧ 1 ≤ output ∧ output ≤ c.maxOutput
  | .disconnect output => 1 ≤ output ∧ output ≤ c.maxOutput
  | .reset => True

/-! ### What a relay is for -/

/-- The length of half the outputs, and of the first group of inputs. -/
def Card.quad : Card → ℕ
  | .nineToEight => 4
  | .sixteenToSixteen => 8

/-- The isolation relay of input `i` for a half of the outputs, a crosspoint, the isolation relay of
output `o` for a group of inputs, and the loop-through relay of output `o`. -/
inductive Role
  | yIso (i h : ℕ)
  | cross (i o : ℕ)
  | xIso (g o : ℕ)
  | thru (o : ℕ)
  deriving DecidableEq

/-- The relay in a role. -/
def Card.relayOf (c : Card) : Role → ℕ
  | .yIso i h => (c.relayMap i (h * c.quad)).yIsoRelay
  | .cross i o => (c.relayMap i o).yxRelay
  | .xIso g o => (c.relayMap (g * c.quad) o).xIsoRelay
  | .thru o => loopThruMap.getD o 0

/-- The loop-through relay of output `o`, where the card has it. -/
def Card.thruRoles (c : Card) (o : ℕ) : List Role :=
  match c with
  | .nineToEight => []
  | .sixteenToSixteen => [.thru o]

/-- The roles in a connection besides the isolation of its input. -/
def Card.ownRoles (c : Card) (i o : ℕ) : List Role :=
  [.cross i o, .xIso (min (i / c.quad) 1) o] ++ c.thruRoles o

def Card.roles (c : Card) (i o : ℕ) : List Role := .yIso i (o / c.quad) :: c.ownRoles i o

/-- The role by which a relay is known: on the 9 to 8 card the crosspoint of input 1 and output 8 is
that of input 1 and output 5. -/
def Card.canon (c : Card) (r : Role) : Role :=
  if c = .nineToEight ∧ r = .cross 0 7 then .cross 0 4 else r

/-- Every role, by the name it is known by. -/
def Card.allRoles (c : Card) : List Role :=
  (((List.range c.maxInput).flatMap fun i =>
      [Role.yIso i 0, Role.yIso i 1] ++ (List.range c.maxOutput).map fun o => Role.cross i o) ++
    (List.range c.maxOutput).flatMap fun o =>
      [Role.xIso 0 o, Role.xIso 1 o] ++ c.thruRoles o).filter fun r => c.canon r = r

theorem relays_eq {c : Card} {i o : ℕ} (hi : i < c.maxInput) (ho : o < c.maxOutput) :
    c.relays i o = (c.roles i o).map c.relayOf := by
  have htable : ∀ i < c.maxInput, ∀ o < c.maxOutput,
      c.relays i o = (c.roles i o).map c.relayOf := by
    cases c with
    | nineToEight => decide +kernel
    | sixteenToSixteen => decide +kernel
  exact htable i hi o ho

theorem allRoles_distinct (c : Card) : ((c.allRoles).map c.relayOf).Nodup := by
  refine (@nodup_of_distinctFrom 0 _ ?_).1
  cases c with
  | nineToEight => decide +kernel
  | sixteenToSixteen => decide +kernel

theorem canon_relay (c : Card) (r : Role) : c.relayOf (c.canon r) = c.relayOf r := by
  unfold Card.canon
  split
  · rename_i htwin
    obtain ⟨rfl, rfl⟩ := htwin
    rfl
  · rfl

theorem canon_canon (c : Card) (r : Role) : c.canon (c.canon r) = c.canon r := by
  by_cases htwin : c = .nineToEight ∧ r = .cross 0 7
  · obtain ⟨rfl, rfl⟩ := htwin
    rfl
  · rw [Card.canon, Card.canon, if_neg htwin, if_neg htwin]

theorem mem_allRoles {c : Card} {i o : ℕ} (hi : i < c.maxInput) (ho : o < c.maxOutput) {r : Role}
    (hr : r ∈ c.roles i o) : c.canon r ∈ c.allRoles := by
  refine List.mem_filter.mpr ⟨?_, decide_eq_true (canon_canon c r)⟩
  have hhalf : o / c.quad = 0 ∨ o / c.quad = 1 := by
    cases c with
    | nineToEight =>
      have hlt : o < 8 := ho
      change o / 4 = 0 ∨ o / 4 = 1
      omega
    | sixteenToSixteen =>
      have hlt : o < 16 := ho
      change o / 8 = 0 ∨ o / 8 = 1
      omega
  have hgroup : min (i / c.quad) 1 = 0 ∨ min (i / c.quad) 1 = 1 :=
    Nat.le_one_iff_eq_zero_or_eq_one.mp (min_le_right _ _)
  unfold Card.canon
  split
  · rename_i htwin
    obtain ⟨rfl, rfl⟩ := htwin
    decide
  · rw [Card.roles, Card.ownRoles] at hr
    simp only [List.mem_append, List.mem_flatMap, List.mem_range, List.mem_cons, List.mem_map]
    simp only [List.mem_cons, List.mem_append, List.not_mem_nil, or_false] at hr
    obtain rfl | (rfl | rfl) | hthru := hr
    · refine .inl ⟨i, hi, .inl ?_⟩
      obtain h | h := hhalf
      · exact .inl (by rw [h])
      · exact .inr (.inl (by rw [h]))
    · exact .inl ⟨i, hi, .inr ⟨o, ho, rfl⟩⟩
    · refine .inr ⟨o, ho, .inl ?_⟩
      obtain h | h := hgroup
      · exact .inl (by rw [h])
      · exact .inr (.inl (by rw [h]))
    · exact .inr ⟨o, ho, .inr hthru⟩

theorem relay_eq_iff {c : Card} {i o i' o' : ℕ} (hi : i < c.maxInput) (ho : o < c.maxOutput)
    (hi' : i' < c.maxInput) (ho' : o' < c.maxOutput) {r r' : Role} (hr : r ∈ c.roles i o)
    (hr' : r' ∈ c.roles i' o') : c.relayOf r = c.relayOf r' ↔ c.canon r = c.canon r' := by
  constructor
  · intro h
    rw [← canon_relay c r, ← canon_relay c r'] at h
    exact List.inj_on_of_nodup_map (allRoles_distinct c) (mem_allRoles hi ho hr)
      (mem_allRoles hi' ho' hr') h
  · intro h
    rw [← canon_relay c r, h, canon_relay]

/-! ### One request -/

/-- A request that the card can carry out or refuse, and that does not take away the crosspoint
which two connections share. -/
def Mux.InOrder (c : Card) (s : Mux) : Request → Prop
  | .connect input output => (1 ≤ output ∧ output ≤ c.maxOutput) ∧
      (s.inputs (output - 1).toNat ≠ 0 ∨ 1 ≤ input ∧ input ≤ c.maxInput)
  | .disconnect output => (1 ≤ output ∧ output ≤ c.maxOutput) ∧
      ¬ (c = .nineToEight ∧ (output = 5 ∨ output = 8) ∧ s.inputs 4 = 1 ∧ s.inputs 7 = 1)
  | .reset => True

/-- The relays agree, and only inputs of the card are registered. -/
structure Mux.Inv (c : Card) (s : Mux) : Prop extends s.Agrees c where
  inputs : ∀ o, s.inputs o ≤ c.maxInput

section Request

variable {c : Card} {s s' : Mux}

theorem setRelays_apply (d : ℕ → Bool) (rs : List ℕ) (v : Bool) (r : ℕ) :
    setRelays d rs v r = if r ∈ rs then v else d r := by
  unfold setRelays
  induction rs generalizing d with
  | nil => simp
  | cons q rs ih =>
    rw [List.foldl_cons, ih]
    by_cases hr : r ∈ rs
    · rw [if_pos hr, if_pos (List.mem_cons_of_mem q hr)]
    · rw [if_neg hr]
      by_cases hq : r = q
      · subst hq
        rw [update_self, if_pos List.mem_cons_self]
      · rw [update_of_ne hq, if_neg (by simp [hq, hr])]

theorem reset_inv (c : Card) : Mux.reset.Inv c where
  closed r := by
    refine iff_of_false Bool.false_ne_true ?_
    rintro ⟨o, -, hne, -⟩
    exact hne rfl
  sent := rfl
  inputs _ := Nat.zero_le _

theorem output_index {output : ℤ} (h : 1 ≤ output ∧ output ≤ c.maxOutput) :
    (output - 1).toNat < c.maxOutput ∧ output = (output - 1).toNat + 1 := by
  omega

theorem connect_inv (hs : s.Inv c) {input output r : ℤ}
    (ha : s.InOrder c (.connect input output)) (h : s.connect c input output = some (r, s')) :
    s'.Inv c := by
  obtain ⟨hout, hin⟩ := ha
  rw [Mux.connect, if_pos hout] at h
  obtain ⟨ho, -⟩ := output_index hout
  generalize (output - 1).toNat = o at h hin ho
  dsimp only at h
  split at h
  · cases h
    exact hs
  · rename_i hfree
    rw [not_not] at hfree
    obtain hin | hin := hin
    · exact absurd hfree hin
    · rw [if_pos hin] at h
      cases h
      have hinput : input.toNat ≠ 0 ∧ input.toNat - 1 = (input - 1).toNat ∧
          input.toNat ≤ c.maxInput := by omega
      refine ⟨⟨fun r => ?_, rfl⟩, fun o' => ?_⟩
      · change setRelays s.loopData _ true r = true ↔ _
        rw [setRelays_apply]
        constructor
        · intro hr
          split at hr
          · rename_i hmem
            refine ⟨o, ho, ?_, ?_⟩
            · change update s.inputs o _ o ≠ 0
              rw [update_self]
              exact hinput.1
            · change r ∈ c.relays (update s.inputs o _ o - 1) o
              rw [update_self, hinput.2.1]
              exact hmem
          · obtain ⟨o', ho', hne, hmem⟩ := (hs.closed r).mp hr
            have hother : o' ≠ o := by
              rintro rfl
              exact hne hfree
            refine ⟨o', ho', ?_⟩
            change update s.inputs o _ o' ≠ 0 ∧ r ∈ c.relays (update s.inputs o _ o' - 1) o'
            rw [update_of_ne hother]
            exact ⟨hne, hmem⟩
        · rintro ⟨o', ho', hused⟩
          change update s.inputs o _ o' ≠ 0 ∧ r ∈ c.relays (update s.inputs o _ o' - 1) o' at hused
          by_cases hother : o' = o
          · subst hother
            rw [update_self, hinput.2.1] at hused
            rw [if_pos hused.2]
          · rw [update_of_ne hother] at hused
            split
            · rfl
            · exact (hs.closed r).mpr ⟨o', ho', hused⟩
      · change update s.inputs o _ o' ≤ _
        by_cases hother : o' = o
        · subst hother
          rw [update_self]
          exact hinput.2.2
        · rw [update_of_ne hother]
          exact hs.inputs o'

theorem half_eq {output : ℤ} {o : ℕ} (h : output = o + 1) (ho : o < c.maxOutput) :
    c.half output = (o / c.quad * c.quad, o / c.quad * c.quad + c.quad) := by
  subst h
  cases c with
  | nineToEight =>
    have hlt : o < 8 := ho
    change (if (o : ℤ) + 1 ≤ 9 / 2 then (0, 4) else (4, 8)) = (o / 4 * 4, o / 4 * 4 + 4)
    split
    · rw [show o / 4 = 0 by omega]
    · rw [show o / 4 = 1 by omega]
  | sixteenToSixteen =>
    have hlt : o < 16 := ho
    change (if (o : ℤ) + 1 ≤ 16 / 2 then (0, 8) else (8, 16)) = (o / 8 * 8, o / 8 * 8 + 8)
    split
    · rw [show o / 8 = 0 by omega]
    · rw [show o / 8 = 1 by omega]

theorem Card.quad_pos (c : Card) : 0 < c.quad := by
  cases c with
  | nineToEight => decide
  | sixteenToSixteen => decide

theorem mem_half (c : Card) (j o : ℕ) :
    j ∈ List.range' (o / c.quad * c.quad) c.quad ↔ j / c.quad = o / c.quad := by
  have hpos := c.quad_pos
  rw [List.mem_range'_1, Nat.div_eq_iff hpos]
  omega

theorem opened_eq {i o : ℕ} (hi : i < c.maxInput) (ho : o < c.maxOutput) (multi : Bool) :
    (if multi then [] else [(c.relayMap i o).yIsoRelay]) ++
        [(c.relayMap i o).yxRelay, (c.relayMap i o).xIsoRelay] ++ c.loopThru o =
      ((if multi then [] else [Role.yIso i (o / c.quad)]) ++ c.ownRoles i o).map c.relayOf := by
  have hrelays := relays_eq hi ho
  rw [Card.relays, Card.roles, List.map_cons, List.cons_append, List.cons.injEq] at hrelays
  obtain ⟨hy, hrest⟩ := hrelays
  rw [List.map_append, ← hrest, List.append_assoc]
  cases multi with
  | true => rfl
  | false =>
    change _ :: _ = c.relayOf (.yIso i (o / c.quad)) :: _
    rw [← hy]
    rfl

theorem shared_role {i o i' o' : ℕ} (hne : o' ≠ o) {r r' : Role} (hr : r ∈ c.roles i o)
    (hr' : r' ∈ c.roles i' o') (hsame : c.canon r = c.canon r') :
    (r = .yIso i (o / c.quad) ∧ i' = i ∧ o' / c.quad = o / c.quad) ∨
      c = .nineToEight ∧ (i = 0 ∧ i' = 0) ∧ (o = 4 ∧ o' = 7 ∨ o = 7 ∧ o' = 4) := by
  have hcross : ∀ {a b a' b' : ℕ}, c.canon (.cross a b) = c.canon (.cross a' b') → b' ≠ b →
      c = .nineToEight ∧ (a = 0 ∧ a' = 0) ∧ (b = 4 ∧ b' = 7 ∨ b = 7 ∧ b' = 4) := by
    intro a b a' b' heq hb
    unfold Card.canon at heq
    split at heq
    · rename_i htwin
      obtain ⟨rfl, hrole⟩ := htwin
      cases hrole
      split at heq
      · rename_i htwin'
        cases htwin'.2
        exact absurd rfl hb
      · cases heq
        exact ⟨rfl, ⟨rfl, rfl⟩, .inr ⟨rfl, rfl⟩⟩
    · split at heq
      · rename_i htwin'
        obtain ⟨rfl, hrole⟩ := htwin'
        cases hrole
        cases heq
        exact ⟨rfl, ⟨rfl, rfl⟩, .inl ⟨rfl, rfl⟩⟩
      · cases heq
        exact absurd rfl hb
  have hplain : ∀ q : Role, (∀ a b, q ≠ .cross a b) → c.canon q = q := fun q hq =>
    if_neg fun h => hq 0 7 h.2
  have hthru : ∀ {a : ℕ} {q : Role}, q ∈ c.thruRoles a → q = .thru a := by
    intro a q hq
    cases c with
    | nineToEight => cases hq
    | sixteenToSixteen => exact List.mem_singleton.mp hq
  have hmem : ∀ {a b : ℕ} {q : Role}, q ∈ c.roles a b → q = .yIso a (b / c.quad) ∨
      q = .cross a b ∨ q = .xIso (min (a / c.quad) 1) b ∨ q = .thru b := by
    intro a b q hq
    simp only [Card.roles, Card.ownRoles, List.mem_cons, List.mem_append, List.not_mem_nil,
      or_false] at hq
    obtain h | (h | h) | h := hq
    · exact .inl h
    · exact .inr (.inl h)
    · exact .inr (.inr (.inl h))
    · exact .inr (.inr (.inr (hthru h)))
  have hcanonCross : ∀ a b, ∃ b', c.canon (.cross a b) = .cross a b' := by
    intro a b
    unfold Card.canon
    split
    · rename_i htwin
      cases htwin.2
      exact ⟨4, rfl⟩
    · exact ⟨b, rfl⟩
  have hdiffer : ∀ {a b : ℕ} {q : Role}, (∀ a b, q ≠ .cross a b) →
      c.canon (.cross a b) ≠ c.canon q := by
    intro a b q hq heq
    obtain ⟨b', hb'⟩ := hcanonCross a b
    rw [hb', hplain q hq] at heq
    exact hq a b' heq.symm
  obtain rfl | rfl | rfl | rfl := hmem hr
  · obtain rfl | rfl | rfl | rfl := hmem hr'
    · rw [hplain _ (by simp), hplain _ (by simp), Role.yIso.injEq] at hsame
      exact .inl ⟨rfl, hsame.1.symm, hsame.2.symm⟩
    · exact absurd hsame.symm (hdiffer (by simp))
    · rw [hplain _ (by simp), hplain _ (by simp)] at hsame
      cases hsame
    · rw [hplain _ (by simp), hplain _ (by simp)] at hsame
      cases hsame
  · obtain rfl | rfl | rfl | rfl := hmem hr'
    · exact absurd hsame (hdiffer (by simp))
    · exact .inr (hcross hsame hne)
    · exact absurd hsame (hdiffer (by simp))
    · exact absurd hsame (hdiffer (by simp))
  · obtain rfl | rfl | rfl | rfl := hmem hr'
    · rw [hplain _ (by simp), hplain _ (by simp)] at hsame
      cases hsame
    · exact absurd hsame.symm (hdiffer (by simp))
    · rw [hplain _ (by simp), hplain _ (by simp)] at hsame
      rw [Role.xIso.injEq] at hsame
      exact absurd hsame.2.symm hne
    · rw [hplain _ (by simp), hplain _ (by simp)] at hsame
      cases hsame
  · obtain rfl | rfl | rfl | rfl := hmem hr'
    · rw [hplain _ (by simp), hplain _ (by simp)] at hsame
      cases hsame
    · exact absurd hsame.symm (hdiffer (by simp))
    · rw [hplain _ (by simp), hplain _ (by simp)] at hsame
      cases hsame
    · rw [hplain _ (by simp), hplain _ (by simp)] at hsame
      rw [Role.thru.injEq] at hsame
      exact absurd hsame.symm hne

theorem disconnect_inv (hs : s.Inv c) {output r : ℤ} (ha : s.InOrder c (.disconnect output))
    (h : s.disconnect c output = some (r, s')) : s'.Inv c := by
  obtain ⟨hout, htwin⟩ := ha
  rw [Mux.disconnect, if_pos hout] at h
  obtain ⟨ho, houtput⟩ := output_index hout
  generalize (output - 1).toNat = o at h ho houtput
  dsimp only at h
  split at h
  · cases h
    exact hs
  · rename_i hused
    rw [half_eq houtput ho, Nat.add_sub_cancel_left] at h
    cases h
    obtain ⟨i, hi⟩ : ∃ i, s.inputs o = i + 1 := ⟨s.inputs o - 1, by omega⟩
    have hbound : ∀ o', s.inputs o' ≠ 0 → s.inputs o' - 1 < c.maxInput := by
      intro o' hne
      have hle := hs.inputs o'
      omega
    have hin : i < c.maxInput := by
      have hlt := hbound o hused
      omega
    have hother : ∀ o', o' ≠ o → update s.inputs o 0 o' = s.inputs o' := fun o' hne =>
      update_of_ne hne ..
    refine ⟨⟨fun r => ?_, rfl⟩, fun o' => ?_⟩
    · change setRelays s.loopData _ false r = true ↔ _
      rw [hi, Nat.add_sub_cancel, setRelays_apply]
      generalize hmulti : (List.range' (o / c.quad * c.quad) c.quad).any
        (fun j => decide (update s.inputs o 0 j = i + 1)) = multi
      rw [opened_eq hin ho]
      constructor
      · intro hr
        by_cases hkept : r ∈ ((if multi then [] else [Role.yIso i (o / c.quad)]) ++
            c.ownRoles i o).map c.relayOf
        · rw [if_pos hkept] at hr
          cases hr
        · rw [if_neg hkept] at hr
          obtain ⟨o', ho', hne, hmem⟩ := (hs.closed r).mp hr
          by_cases hsame : o' = o
          · -- the relay isolates the input of another connection too
            subst hsame
            rw [hi, Nat.add_sub_cancel, relays_eq hin ho, Card.roles, List.map_cons,
              List.mem_cons] at hmem
            obtain rfl | hmem := hmem
            · cases multi with
              | false => exact absurd (List.mem_map_of_mem (List.mem_cons_self)) hkept
              | true =>
                obtain ⟨j, hj, hinput⟩ := List.any_eq_true.mp hmulti
                have hjin : update s.inputs o' 0 j = i + 1 := of_decide_eq_true hinput
                have hjne : j ≠ o' := by
                  rintro rfl
                  rw [update_self] at hjin
                  cases hjin
                have hhalf := (mem_half c j o').mp hj
                rw [hother j hjne] at hjin
                have hjlt : j < c.maxOutput := by
                  cases c with
                  | nineToEight =>
                    have hlt : o' < 8 := ho
                    have hdiv : j / 4 = o' / 4 := hhalf
                    change j < 8
                    omega
                  | sixteenToSixteen =>
                    have hlt : o' < 16 := ho
                    have hdiv : j / 8 = o' / 8 := hhalf
                    change j < 16
                    omega
                refine ⟨j, hjlt, ?_⟩
                change update s.inputs o' 0 j ≠ 0 ∧ _ ∈ c.relays (update s.inputs o' 0 j - 1) j
                rw [hother j hjne, hjin, Nat.add_sub_cancel, relays_eq hin hjlt, Card.roles, hhalf]
                exact ⟨Nat.succ_ne_zero i, List.mem_map_of_mem List.mem_cons_self⟩
            · refine absurd ?_ hkept
              rw [List.map_append]
              exact List.mem_append_right _ hmem
          · refine ⟨o', ho', ?_⟩
            change update s.inputs o 0 o' ≠ 0 ∧ r ∈ c.relays (update s.inputs o 0 o' - 1) o'
            rw [hother o' hsame]
            exact ⟨hne, hmem⟩
      · rintro ⟨o', ho', hneeded⟩
        change update s.inputs o 0 o' ≠ 0 ∧ r ∈ c.relays (update s.inputs o 0 o' - 1) o' at hneeded
        have hne : o' ≠ o := by
          rintro rfl
          rw [update_self] at hneeded
          exact hneeded.1 rfl
        rw [hother o' hne] at hneeded
        obtain ⟨hused', hmem⟩ := hneeded
        rw [if_neg]
        · exact (hs.closed r).mpr ⟨o', ho', hused', hmem⟩
        · -- nothing that is opened belongs to another connection
          intro hopened
          obtain ⟨q, hq, rfl⟩ := List.mem_map.mp hopened
          have hlt' := hbound o' hused'
          rw [relays_eq hlt' ho'] at hmem
          obtain ⟨q', hq', hrelay⟩ := List.mem_map.mp hmem
          have hroles : q ∈ c.roles i o := by
            obtain hq | hq := List.mem_append.mp hq
            · cases multi with
              | true => cases hq
              | false => exact List.mem_singleton.mp hq ▸ List.mem_cons_self
            · exact List.mem_cons_of_mem _ hq
          have hcanon := (relay_eq_iff hin ho hlt' ho' hroles hq').mp hrelay.symm
          obtain ⟨rfl, hinput, hhalf⟩ | ⟨hcard, ⟨hi0, hi0'⟩, htwo⟩ :=
            shared_role hne hroles hq' hcanon
          · cases multi with
            | true =>
              have hnot : ∀ a b, Role.yIso i (o / c.quad) ∉ c.ownRoles a b := by
                intro a b hown
                cases c with
                | nineToEight => simp [Card.ownRoles, Card.thruRoles] at hown
                | sixteenToSixteen => simp [Card.ownRoles, Card.thruRoles] at hown
              exact hnot _ _ hq
            | false =>
              refine Bool.false_ne_true (hmulti.symm.trans (List.any_eq_true.mpr ⟨o', ?_, ?_⟩))
              · exact (mem_half c o' o).mpr hhalf
              · rw [hother o' hne]
                exact decide_eq_true (by omega)
          · refine htwin ⟨hcard, ?_⟩
            obtain ⟨rfl, rfl⟩ | ⟨rfl, rfl⟩ := htwo
            · exact ⟨.inl houtput, by omega, by omega⟩
            · exact ⟨.inr houtput, by omega, by omega⟩
    · change update s.inputs o 0 o' ≤ _
      by_cases hsame : o' = o
      · subst hsame
        rw [update_self]
        exact Nat.zero_le _
      · rw [hother o' hsame]
        exact hs.inputs o'

theorem run_inv (hs : s.Inv c) {a : Request} {r : ℤ} (ha : s.InOrder c a)
    (h : s.run c a = some (r, s')) : s'.Inv c := by
  cases a with
  | connect input output =>
    cases c with
    | nineToEight => exact connect_inv hs ha h
    | sixteenToSixteen => exact connect_inv hs ha h
  | disconnect output =>
    cases c with
    | nineToEight => exact disconnect_inv hs ha h
    | sixteenToSixteen => exact disconnect_inv hs ha h
  | reset =>
    cases c with
    | nineToEight =>
      cases h
      exact reset_inv _
    | sixteenToSixteen =>
      cases h
      exact reset_inv _

/-! ### Every run -/

theorem crosspoint_eq_iff {i o i' o' : ℕ} (hi : i < c.maxInput) (ho : o < c.maxOutput)
    (hi' : i' < c.maxInput) (ho' : o' < c.maxOutput) :
    (c.relayMap i o).yxRelay = (c.relayMap i' o').yxRelay ↔ (i = i' ∧ o = o') ∨
      c = .nineToEight ∧ (i = 0 ∧ i' = 0) ∧ (o = 4 ∧ o' = 7 ∨ o = 7 ∧ o' = 4) := by
  have hcross : ∀ a b, Role.cross a b ∈ c.roles a b := fun a b =>
    List.mem_cons_of_mem _ List.mem_cons_self
  constructor
  · intro h
    have hcanon := (relay_eq_iff hi ho hi' ho' (hcross i o) (hcross i' o')).mp h
    by_cases hne : o' = o
    · subst hne
      refine .inl ⟨?_, rfl⟩
      unfold Card.canon at hcanon
      split at hcanon
      · rename_i htwin
        cases htwin.2
        split at hcanon
        · rename_i htwin'
          cases htwin'.2
          rfl
        · cases hcanon
      · split at hcanon
        · rename_i htwin'
          cases htwin'.2
          cases hcanon
        · cases hcanon
          rfl
    · obtain ⟨hrole, -⟩ | htwo := shared_role hne (hcross i o) (hcross i' o') hcanon
      · cases hrole
      · exact .inr htwo
  · rintro (⟨rfl, rfl⟩ | ⟨rfl, ⟨rfl, rfl⟩, ⟨rfl, rfl⟩ | ⟨rfl, rfl⟩⟩)
    · rfl
    · rfl
    · rfl

theorem refuses_iff {a : Request} (ha : ¬ InRange c a) :
    s.run c a = some (-1, s) ↔ s.InOrder c a := by
  cases a with
  | connect input output =>
    have hrun : s.run c (.connect input output) = s.connect c input output := by
      cases c <;> rfl
    rw [hrun, Mux.connect]
    by_cases hout : 1 ≤ output ∧ output ≤ c.maxOutput
    · have hin : ¬ (1 ≤ input ∧ input ≤ c.maxInput) := fun h => ha ⟨h, hout⟩
      rw [if_pos hout]
      by_cases hused : s.inputs (output - 1).toNat = 0
      · dsimp only
        rw [if_neg (not_not.mpr hused), if_neg hin]
        exact iff_of_false (by simp) fun h => h.2.elim (fun hne => hne hused) hin
      · dsimp only
        rw [if_pos hused]
        exact iff_of_true rfl ⟨hout, .inl hused⟩
    · rw [if_neg hout]
      exact iff_of_false (by simp) fun h => hout h.1
  | disconnect output =>
    have hrun : s.run c (.disconnect output) = s.disconnect c output := by
      cases c <;> rfl
    have hout : ¬ (1 ≤ output ∧ output ≤ c.maxOutput) := ha
    rw [hrun, Mux.disconnect, if_neg hout]
    exact iff_of_false (by simp) fun h => hout h.1
  | reset => exact absurd trivial ha

/-- **Relays are closed for connections**, over every run in order.  A request out of range is
refused exactly when it is in order, and the crosspoints are distinct but for one pair. -/
theorem relays_of_reachUnder (h : (muxCard c).ReachUnder (Mux.InOrder c) s) :
    s.Agrees c ∧ (∀ a, ¬ InRange c a → (s.run c a = some (-1, s) ↔ s.InOrder c a)) ∧
      ∀ i o i' o', i < c.maxInput → o < c.maxOutput → i' < c.maxInput → o' < c.maxOutput →
        ((c.relayMap i o).yxRelay = (c.relayMap i' o').yxRelay ↔ (i = i' ∧ o = o') ∨
          c = .nineToEight ∧ (i = 0 ∧ i' = 0) ∧ (o = 4 ∧ o' = 7 ∨ o = 7 ∧ o' = 4)) := by
  have hinv : s.Inv c := by
    refine h.invariant ?_ ?_
    · rintro t rfl
      exact reset_inv c
    · intro t a t' ht ha hstep
      obtain ⟨⟨r, t₁⟩, hrun, rfl⟩ := Option.map_eq_some_iff.mp hstep
      exact run_inv ht ha hrun
  exact ⟨hinv.toAgrees, fun a ha => refuses_iff ha, fun i o i' o' hi ho hi' ho' =>
    crosspoint_eq_iff hi ho hi' ho'⟩

end Request

theorem relays_of_reachUnder_first : ∃ s, Mux.reset.run .nineToEight (.connect 3 2) = some (0, s) ∧
    s.Agrees .nineToEight ∧ s.inputs 1 = 3 := by
  have hstart : (muxCard .nineToEight).ReachUnder (Mux.InOrder .nineToEight) Mux.reset := .init rfl
  have hconnected := hstart.step
    (show Mux.InOrder .nineToEight Mux.reset (.connect 3 2) from
      ⟨by decide, .inr (by decide)⟩) rfl
  exact ⟨_, rfl, (relays_of_reachUnder hconnected).1, rfl⟩

/-- A number out of range is an index out of bounds; the crosspoint of input 1 and output 8 is that
of output 5, and to disconnect the one opens the relay of the other. -/
theorem relays_broken :
    Mux.reset.run .nineToEight (.connect 10 1) = none ∧
    ((Card.nineToEight.relayMap 0 4).yxRelay = 16 ∧
      (Card.nineToEight.relayMap 0 7).yxRelay = 16) ∧
    ¬ ∀ s, (muxCard .nineToEight).Reach s → s.Agrees .nineToEight := by
  refine ⟨rfl, ⟨rfl, rfl⟩, fun hall => ?_⟩
  have hstart : (muxCard .nineToEight).Reach Mux.reset := System.Reach.init rfl
  obtain ⟨s, hrun, hopen, hused⟩ : ∃ s,
      System.runFun (fun t a => (Mux.run t .nineToEight a).map Prod.snd) Mux.reset
        [.connect 1 5, .connect 1 8, .disconnect 8] = some s ∧
      s.loopData 16 = false ∧ s.inputs 4 = 1 := ⟨_, rfl, by decide, by decide⟩
  have hneeds : s.Needs .nineToEight 16 := by
    refine ⟨4, by decide, by rw [hused]; decide, ?_⟩
    rw [hused]
    decide
  have hclosed := ((hall s (hstart.runFun _ hrun)).closed 16).mpr hneeds
  rw [hopen] at hclosed
  cases hclosed

end KernelModules.Pickering
