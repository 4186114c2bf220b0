import Digic.ConfigError
import Digic.Flash.Command
import Digic.Memory.Basic
import Digic.Model
/-!
# ROM banks

A bank of cells that repeats across its window of the bus: an offset is an address less the base,
masked by the size. Programming clears bits and never sets one; erasing sets all bits of a block or
of the whole bank.
-/
namespace Digic.Flash

/-- How many status reads show a block erase in progress. -/
def busyReads : Nat := 16

structure Bank where
  /-- The bus address of the first byte. -/
  base : UInt32
  size : UInt32
  /-- The bytes of the bank are those at the addresses below `size`. -/
  cells : Memory
  state : State
  /-- Status reads since the last block erase. -/
  statusReads : Nat

namespace Bank

/-- An erased bank. -/
def ofLayout (l : RomLayout) : Bank := ⟨l.base, l.size, .blank 0xFF, .ready, 0⟩

def wrap (b : Bank) (offset : UInt32) : UInt32 := offset &&& (b.size - 1)

def offset (b : Bank) (addr : UInt32) : UInt32 := b.wrap (addr - b.base)

def byteAt (b : Bank) (offset : UInt32) (i : Nat) : UInt8 :=
  b.cells.byte (b.wrap (offset + i.toUInt32))

/-- The little-endian word at an offset, which may wrap around the end of the bank. -/
def readWord (b : Bank) (offset : UInt32) : UInt32 :=
  Memory.wordOfBytes (b.byteAt offset 0) (b.byteAt offset 1) (b.byteAt offset 2)
    (b.byteAt offset 3)

/-- The bytes from an offset on, as far as the bank goes. -/
def bytes (b : Bank) (start length : Nat) : ByteArray :=
  b.cells.read start.toUInt32 (min length (b.size.toNat - start))

/-- Copies an image into a bank, which ends whatever command was going on. `number` is the bank's
in the error. -/
def load (b : Bank) (number : Nat) (offset : UInt32) (image : ByteArray) :
    Bank × Except ConfigError Unit :=
  if offset.toNat + image.size ≤ b.size.toNat then
    ({ b with cells := b.cells.write offset image, state := .ready }, .ok ())
  else (b, .error (.romTooLarge number offset image.size b.size))

def updateByte (b : Bank) (offset : UInt32) (i : Nat) (f : UInt8 → UInt8) : Bank :=
  let a := b.wrap (offset + i.toUInt32)
  { b with cells := b.cells.setByte a (f (b.cells.byte a)) }

/-- Changes the four bytes behind an offset one after the other, each with its byte of a word. -/
def updateWord (b : Bank) (offset value : UInt32) (f : UInt8 → UInt8 → UInt8) : Bank :=
  (List.range 4).foldl (fun b i => b.updateByte offset i (f · (Memory.byteOfWord value i))) b

def store (b : Bank) (offset value : UInt32) : Bank := b.updateWord offset value fun _ new => new

/-- Programs a little-endian word: bits that are clear in it are cleared. -/
def program (b : Bank) (offset value : UInt32) : Bank :=
  b.updateWord offset value fun old new => old &&& new

/-- The bytes in the erase block at a word offset. Parts of 32 megabits have small blocks at both
ends, and all others are uniform. -/
def blockSize (b : Bank) (wordOffset : UInt32) : UInt32 :=
  if b.size = 0x400000 ∧ (wordOffset < 0x8000 ∨ 0x1F0000 < wordOffset) then 0x2000 else 0x10000

/-- The first byte of the erase block at a byte offset. -/
def blockStart (b : Bank) (offset : UInt32) : UInt32 :=
  offset &&& ~~~(b.blockSize (offset >>> 1) - 1)

/-- How many bytes of that block lie in the bank. -/
def blockLength (b : Bank) (offset : UInt32) : Nat :=
  min (b.blockSize (offset >>> 1)).toNat (b.size.toNat - (b.blockStart offset).toNat)

def eraseBlock (b : Bank) (offset : UInt32) : Bank :=
  { b with
    cells := b.cells.overlay (b.blockStart offset) (b.blockLength offset) fun _ => 0xFF
    statusReads := 0 }

def eraseChip (b : Bank) : Bank := { b with cells := .blank 0xFF }

def perform (b : Bank) (offset value : UInt32) : Operation → Bank
  | .nothing => b
  | .eraseChip => b.eraseChip
  | .eraseBlock => b.eraseBlock offset
  | .program => b.program offset value

def response (b : Bank) (offset value : UInt32) : Response := b.state.next (offset >>> 1) value

/-- Takes a write to an offset as one cycle of a command. -/
def command (b : Bank) (offset value : UInt32) : Bank :=
  let r := b.response offset value
  { b.perform offset value r.operation with state := r.state }

/-- Answers a read at an offset. In the middle of a command there is no answer. A block erase shows
the toggling of two bits and at last that it is done. -/
def answer (b : Bank) (offset : UInt32) : Option UInt32 × Bank :=
  match b.state with
  | .ready => (some (b.readWord offset), b)
  | .eraseBusy =>
    if b.statusReads < busyReads then
      let reads := b.statusReads + 1
      (some (if reads % 2 = 1 then 0x44 else 0), { b with statusReads := reads })
    else (some 0x80, { b with state := .ready })
  | _ => (none, b)

end Bank

structure Banks where
  banks : Vector Bank 2
  /-- Writes are cycles of commands. If not, the banks are plain memory. -/
  commands : Bool

namespace Banks

def ofModel (m : Model) : Banks := ⟨m.rom.map .ofLayout, m.flashCommands⟩

def get? (f : Banks) (n : Nat) : Option Bank := f.banks[n]?

def set (f : Banks) (n : Nat) (b : Bank) : Banks := { f with banks := f.banks.setIfInBounds n b }

theorem get?_set (f : Banks) (n other : Nat) (b : Bank) (h : n < 2) :
    (f.set n b).get? other = if n = other then some b else f.get? other := by
  unfold set get?
  grind

def load (f : Banks) (n : Nat) (offset : UInt32) (image : ByteArray) :
    Banks × Except ConfigError Unit :=
  match f.get? n with
  | none => (f, .error (.romBankMissing n))
  | some b =>
    let (b, result) := b.load n offset image
    (f.set n b, result)

/-- Answers a read of a bus address in bank `n`; `none` in the middle of a command. -/
def read (f : Banks) (n : Nat) (b : Bank) (addr : UInt32) : Option UInt32 × Banks :=
  let offset := b.offset addr
  if f.commands then
    let (value, b) := b.answer offset
    (value, f.set n b)
  else (some (b.readWord offset), f)

def write (f : Banks) (n : Nat) (b : Bank) (addr value : UInt32) : Banks :=
  let offset := b.offset addr
  f.set n (if f.commands then b.command offset value else b.store offset value)

end Banks

end Digic.Flash
