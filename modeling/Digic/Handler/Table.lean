import Digic.ConfigError
import Digic.Handler.Kind
/-!
# Handler tables

The address space is divided among register files by a list of handlers, of which the first that
contains an address claims it. A table is refused if one of its handlers could never claim any
address because a single earlier one contains all of it.
-/
namespace Digic.Handler

/-- A handler: a range of addresses and the window that serves it. -/
structure Entry extends NamedRange, Window where
  deriving DecidableEq, Repr

namespace Entry

def contains (h : Entry) (addr : UInt32) : Bool := h.low ≤ addr && addr ≤ h.high

def shadowedBy (h earlier : Entry) : Bool := earlier.low ≤ h.low && h.high ≤ earlier.high

end Entry

/-- The first handler of `rest` that one before it shadows, together with the first that does;
`seen` are the handlers before `rest`. -/
def firstShadowed? (seen : List Entry) : List Entry → Option (Entry × Entry)
  | [] => none
  | h :: rest =>
    match seen.find? h.shadowedBy with
    | some earlier => some (earlier, h)
    | none => firstShadowed? (seen ++ [h]) rest

/-- Refuses a table in which a handler is shadowed. -/
def check (table : List Entry) : Except ConfigError Unit :=
  match firstShadowed? [] table with
  | some (earlier, later) => .error (.overlappingHandlers earlier.toNamedRange later.toNamedRange)
  | none => .ok ()

def find? (table : List Entry) (addr : UInt32) : Option Entry :=
  List.find? (·.contains addr) table

private def entry (name : String) (low high : UInt32) (kind : Kind) (param : UInt32) : Entry where
  name; low; high; kind; param

def standardTable : List Entry := [
  entry "FlashIF" 0xC0000000 0xC0001FFF .flashGate 0,
  entry "ROM0" 0xF8000000 0xFFFFFFFF .rom 0,
  entry "ROM1" 0xF0000000 0xF7FFFFFF .rom 1,
  entry "INTvx" 0xC0200000 0xC02000FF .interruptMasks 0,
  entry "INT" 0xC0201000 0xC0201FFF .interrupts 0,
  entry "INT" 0xD4011000 0xD4011FFF .interrupts 1,
  entry "TIMER" 0xC0210000 0xC0210FFF .timers 0,
  entry "TIMER" 0xD4000240 0xD4000410 .timers 1,
  entry "TIMER" 0xC0242014 0xC0242014 .clock 0,
  entry "TIMER" 0xD400000C 0xD400000C .clock 1,
  entry "HPTimer" 0xC0243000 0xC0243FFF .compare 0,
  entry "GPIO" 0xC0220000 0xC022FFFF .gpio 0,
  entry "BASIC" 0xC0100000 0xC0100FFF .basic 0,
  entry "BASIC" 0xC0400000 0xC0400FFF .basic 1,
  entry "BASIC" 0xC0720000 0xC0720FFF .basic 2,
  entry "SDIO0" 0xC0C00000 0xC0C00FFF .sdHost 0,
  entry "SDIO1" 0xC0C10000 0xC0C10FFF .sdHost 1,
  entry "SDIO2" 0xC0C20000 0xC0C20FFF .sdHost 2,
  entry "SDIO6" 0xC8060000 0xC8060FFF .sdHost 6,
  entry "CFDMA0" 0xC0500000 0xC0500FFF .cfDma 0,
  entry "SDDMA1" 0xC0510000 0xC05100FF .sdDma 1,
  entry "SDDMA3" 0xC0530000 0xC0530FFF .sdDma 3,
  entry "SDDMA6" 0xC8020000 0xC80200FF .sdDma 6,
  entry "CFATA0" 0xC0600000 0xC060FFFF .cfAta 0,
  entry "CFATA2" 0xC0620000 0xC062FFFF .cfAta 2,
  entry "TIO" 0xC0800000 0xC08000FF .console 0,
  entry "TIO" 0xC0270000 0xC0270000 .console 1,
  entry "DMA1" 0xC0A10000 0xC0A100FF .dma 1,
  entry "DMA2" 0xC0A20000 0xC0A200FF .dma 2,
  entry "DMA3" 0xC0A30000 0xC0A300FF .dma 3,
  entry "DMA4" 0xC0A40000 0xC0A400FF .dma 4,
  entry "CHSW" 0xC0F05000 0xC0F05FFF .edmacSwitch 0,
  entry "EDMAC" 0xC0F04000 0xC0F04FFF .edmac 0,
  entry "EDMAC" 0xC0F26000 0xC0F26FFF .edmac 1,
  entry "EDMAC" 0xC0F30000 0xC0F30FFF .edmac 2,
  entry "Display" 0xC0F14000 0xC0F14FFF .display 0,
  entry "Power" 0xC0F01000 0xC0F010FF .power 1,
  entry "ENGIO" 0xC0F00000 0xC0FFFFFF .imageEngine 0,
  entry "Display" 0xD2013800 0xD201381F .display 6,
  entry "Display" 0xD2018200 0xD201823F .display 6,
  entry "Display" 0xD2030108 0xD2030108 .display 6,
  entry "DIGIC6" 0xD0000000 0xDFFFFFFF .digic6 0]

end Digic.Handler
