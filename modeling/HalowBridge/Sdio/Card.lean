import HalowBridge.Lib.Struct
import HalowBridge.Sdio.SpiDriver

/-!
# A card on the bus

What the driver talks to, as the SDIO specification has it for the SPI mode: a card that takes
command packets with a CRC-7 and blocks of data with a CRC-16, and checks both bit by bit. A window
for each function has the upper half of the addresses, and is set through the registers behind the
lower half.

The card sends what it has to send first, and listens when it has nothing to send. It may let the
host wait, for as many bytes as a `Latency` says. What it has not sent when it is deselected is
lost.
-/

namespace HalowBridge.Sdio

open Keystream Mmutils

deriving instance DecidableEq for SdioFunction

/-- For how many bytes the card lets the host wait: before it is ready, before the response to a
command, before a block it sends and before the response to a block it has received. -/
structure Latency where
  busy : ℕ
  response : ℕ
  token : ℕ
  acceptance : ℕ

/-- The host waits for as long as that. -/
structure Latency.Short (lat : Latency) : Prop where
  busy : lat.busy < maxBusAttempts
  response : lat.response < maxBusAttempts
  token : lat.token < maxBusAttempts
  acceptance : lat.acceptance < 4

/-- What the card is about: a command, of which it may have received a part, blocks to send the next
time it is selected, or `more` blocks to receive after the one to come, of which it has received a
part if it has seen the start token. -/
inductive Phase where
  | command (packet : List UInt8)
  | reading (blocks : List (List UInt8))
  | writing (address size more : ℕ) (received : Option (List UInt8))

structure Card where
  mem : ℕ → UInt8
  /-- The bytes 2 and 3 of the addresses of a function. -/
  window : SdioFunction → UInt8 × UInt8
  /-- What is sent next. -/
  out : List UInt8
  phase : Phase

/-- The card when it has nothing to do. -/
def Card.rest (mem : ℕ → UInt8) (window : SdioFunction → UInt8 × UInt8) : Card :=
  ⟨mem, window, [], .command []⟩

/-! ## Checksums -/

/-- CRC-7 with the polynomial 0x09, bit by bit. -/
def crc7 (data : List UInt8) : BitVec 7 := crcBits 0x09 0 (data.flatMap byteBits)

/-- The last byte of a command packet: the CRC, and the end bit. -/
def packetEnd (data : List UInt8) : UInt8 := UInt8.ofNat ((crc7 data).toNat * 2 + 1)

/-- The CRC of a block as it is sent. -/
def blockCrc (block : List UInt8) : List UInt8 :=
  [(crc16Xmodem 0 block >>> 8).toUInt8, (crc16Xmodem 0 block).toUInt8]

/-! ## Commands -/

def functionOfNumber : ℕ → Option SdioFunction
  | 0 => some .function0
  | 1 => some .function1
  | 2 => some .function2
  | _ => none

/-- The start of the addresses in a window. -/
def Card.base (c : Card) (function : SdioFunction) : ℕ :=
  (c.window function).2.toNat * 16777216 + (c.window function).1.toNat * 65536

/-- A register is written. -/
def Card.writeRegister (c : Card) (function : SdioFunction) (address : ℕ) (data : UInt8) : Card :=
  match address with
  | 0x10000 =>
      { c with
        window := fun f => if f = function then (data, (c.window f).2) else c.window f }
  | 0x10001 =>
      { c with
        window := fun f => if f = function then ((c.window f).1, data) else c.window f }
  | _ => c

/-- The blocks of the given sizes from an address on. -/
def cut (mem : ℕ → UInt8) : (address : ℕ) → (sizes : List ℕ) → List (List UInt8)
  | _, [] => []
  | address, size :: sizes => load mem address size :: cut mem (address + size) sizes

/-- The sizes of the blocks that a CMD53 is about. -/
def transferSizes (function : SdioFunction) (mode count : ℕ) : List ℕ :=
  if mode = 1 then List.replicate count (blockSizeOf function).value else [count]

/-- A valid command: the status and the data of the response, and what the card does. -/
def Card.obey (c : Card) (cmdIdx word : ℕ) : UInt8 × UInt8 × Card :=
  match cmdIdx, functionOfNumber (functionField.get word), directionField.get word with
  | 52, some function, 1 =>
      let data := UInt8.ofNat (dataField.get word)
      (0x00, data, c.writeRegister function (addressField.get word) data)
  | 53, some function, direction =>
      let address := c.base function + addressField.get word
      let sizes := transferSizes function (modeField.get word) (countField.get word)
      if direction = 0 then (0x00, 0x00, { c with phase := .reading (cut c.mem address sizes) })
      else
        match sizes with
        | [] => (0x00, 0x00, c)
        | size :: sizes =>
            (0x00, 0x00, { c with phase := .writing address size sizes.length none })
  -- An illegal command.
  | _, _, _ => (0x04, 0x00, c)

/-- The card has received a packet. -/
def Card.execute (lat : Latency) (c : Card) (packet : List UInt8) : Card :=
  let idle := { c with phase := .command [] }
  let (status, data, next) :=
    match packet with
    | [b0, a3, a2, a1, a0, crc] =>
        if crc = packetEnd [b0, a3, a2, a1, a0] then
          idle.obey (b0.toNat % 64) (unpackLe [a0, a1, a2, a3])
        -- A communication CRC error.
        else (0x08, 0x00, idle)
    | _ => (0x04, 0x00, idle)
  { next with out := List.replicate lat.response 0xff ++ [status, data] }

/-! ## Data -/

/-- A block as it is sent. -/
def sendBlock (lat : Latency) (block : List UInt8) : List UInt8 :=
  List.replicate lat.token 0xff ++ tknReadSingleWrite :: (block ++ blockCrc block)

/-- The card has received a block and its CRC. -/
def Card.accept (lat : Latency) (c : Card) (address size more : ℕ) (received : List UInt8) : Card :=
  let block := received.take size
  if received.drop size = blockCrc block then
    { c with
      mem := store c.mem address block
      out := List.replicate lat.acceptance 0xff ++
        tknDataRspAccepted :: List.replicate lat.busy 0x00
      phase :=
        match more with
        | 0 => .command []
        | more + 1 => .writing (address + size) size more none }
  else
    { c with
      out := List.replicate lat.acceptance (0xff : UInt8) ++ [tknDataRspRejCrc]
      phase := .command [] }

/-! ## The bus -/

/-- A byte is received. -/
def Card.receive (lat : Latency) (c : Card) (b : UInt8) : Card :=
  match c.phase with
  | .command [] => if b >>> 6 = 1 then { c with phase := .command [b] } else c
  | .command packet =>
      if packet.length < 5 then { c with phase := .command (packet ++ [b]) }
      else c.execute lat (packet ++ [b])
  | .reading _ => c
  | .writing address size more none =>
      if b = tknReadSingleWrite ∨ b = tknMultiWrite then
        { c with phase := .writing address size more (some []) }
      else c
  | .writing address size more (some received) =>
      if received.length < size + 1 then
        { c with phase := .writing address size more (some (received ++ [b])) }
      else c.accept lat address size more (received ++ [b])

/-- The card on the bus. -/
def cardBus (lat : Latency) : SpiBus Card where
  csAssert c :=
    match c.phase with
    | .reading blocks =>
        { c with out := blocks.flatMap (sendBlock lat), phase := .command [] }
    | _ => { c with out := List.replicate lat.busy 0x00 }
  csDeassert c :=
    { c with
      out := []
      phase :=
        match c.phase with
        | .command _ => .command []
        | phase => phase }
  exchange c mosi :=
    match c.out with
    | b :: out => (b, { c with out })
    | [] =>
        (0xff,
          match mosi with
          | some b => c.receive lat b
          | none => c)

end HalowBridge.Sdio
