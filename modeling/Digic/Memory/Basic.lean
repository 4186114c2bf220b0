import Digic.Memory.Page
import Std.Data.HashMap
/-!
# Memory

A memory of bytes at 32-bit addresses, of which only the pages that were written are kept. Addresses
wrap around at the top. Guest memory is one, and so are the cells of a ROM bank; they differ in what
a byte holds that was never written.

All of it is seen through `byte`: each operation that writes has a lemma that says which byte is
found at an address afterwards.
-/
namespace Digic

/-- Bytes at 32-bit addresses. A byte on a page that is not kept reads as `fill`. -/
structure Memory where
  fill : UInt8
  pages : Std.HashMap UInt32 Memory.Page

namespace Memory

def blank (fill : UInt8) : Memory := ⟨fill, ∅⟩

def pageNumber (a : UInt32) : UInt32 := a / 4096

def pageOffset (a : UInt32) : Fin pageSize := ⟨a.toNat % pageSize, Nat.mod_lt _ (by decide)⟩

/-- The page with the given number, blank if it is not kept. -/
def page (m : Memory) (number : UInt32) : Page :=
  (m.pages[number]?).getD (Page.tabulate fun _ => m.fill)

def byte (m : Memory) (a : UInt32) : UInt8 :=
  match m.pages[pageNumber a]? with
  | some p => p.get (pageOffset a)
  | none => m.fill

def setByte (m : Memory) (a : UInt32) (b : UInt8) : Memory :=
  { m with
    pages := m.pages.alter (pageNumber a) fun p? =>
      some ((p?.getD (Page.tabulate fun _ => m.fill)).set (pageOffset a) b) }

def addressOf (number : UInt32) (i : Fin pageSize) : UInt32 := number * 4096 + i.val.toUInt32

/-- Rebuilds one page for `overlay`. -/
def overlayPage (start : UInt32) (length : Nat) (f : Nat → UInt8) (m : Memory) (number : UInt32) :
    Memory :=
  let old := m.page number
  let new := Page.tabulate fun i =>
    let k := (addressOf number i - start).toNat
    if k < length then f k else old.get i
  { m with pages := m.pages.insert number new }

/-- The numbers of the pages that `length` bytes from `start` touch, each once. -/
def touchedPages (start : UInt32) (length : Nat) : List UInt32 :=
  let count := min ((start.toNat % pageSize + length + (pageSize - 1)) / pageSize) 0x100000
  (List.range count).map fun k => (pageNumber start + k.toUInt32) % 0x100000

/-- Stores the `length` bytes `f 0`, `f 1`, … from `start` on. -/
def overlay (m : Memory) (start : UInt32) (length : Nat) (f : Nat → UInt8) : Memory :=
  (touchedPages start length).foldl (overlayPage start length f) m

def write (m : Memory) (start : UInt32) (bytes : ByteArray) : Memory :=
  m.overlay start bytes.size fun k => bytes[k]?.getD 0

/-- Puts the bytes from `a` on behind those of `acc`. -/
def readInto (m : Memory) (a : UInt32) : Nat → ByteArray → ByteArray
  | 0, acc => acc
  | n + 1, acc => readInto m (a + 1) n (acc.push (m.byte a))

def read (m : Memory) (start : UInt32) (length : Nat) : ByteArray :=
  readInto m start length (ByteArray.emptyWithCapacity length)

def wordOfBytes (b0 b1 b2 b3 : UInt8) : UInt32 :=
  b0.toUInt32 ||| b1.toUInt32 <<< 8 ||| b2.toUInt32 <<< 16 ||| b3.toUInt32 <<< 24

/-- Byte `i` of a word, the lowest first. -/
def byteOfWord (w : UInt32) (i : Nat) : UInt8 := (w >>> (8 * i).toUInt32).toUInt8

/-- The little-endian word at an address, aligned or not. -/
def readWord (m : Memory) (a : UInt32) : UInt32 :=
  wordOfBytes (m.byte a) (m.byte (a + 1)) (m.byte (a + 2)) (m.byte (a + 3))

def writeWord (m : Memory) (a w : UInt32) : Memory :=
  (((m.setByte a (byteOfWord w 0)).setByte (a + 1) (byteOfWord w 1)).setByte (a + 2)
    (byteOfWord w 2)).setByte (a + 3) (byteOfWord w 3)

end Memory

end Digic
