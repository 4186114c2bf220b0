import Digic.Machine.Access
/-!
# Assembling a machine

Building a machine for a model, and putting ROM images, a card, a drive or another handler table
into it.
-/
namespace Digic.Machine

variable {κ δ : Type}

/-- The machine for a model, if the model is sound. -/
def assemble (m : Model) : Except ConfigError (Machine κ δ) := do
  m.validate
  return (ofModel m).tell (.assembled m.name m.digicVersion (m.rom.get 0).size (m.rom.get 1).size)

def attachCard (s : Machine κ δ) (card : κ) : Machine κ δ :=
  { s with sd := { s.sd with card := some card } }

def attachDrive (s : Machine κ δ) (drive : δ) : Machine κ δ :=
  { s with cf := { s.cf with drive := some drive } }

def loadRom (s : Machine κ δ) (bank : Nat) (offset : UInt32) (image : ByteArray) :
    Machine κ δ × Except ConfigError Unit :=
  let (flash, result) := s.flash.load bank offset image
  let s := { s with flash }
  match result with
  | .ok () => (s.tell (.romLoaded bank image.size offset), .ok ())
  | .error e => (s, .error e)

structure ImageFile where
  path : String
  /-- What it holds, or why it cannot be read. -/
  contents : Except String ByteArray

/-- Loads a ROM bank from a file, from an offset in it on. What does not fit is left out. -/
def loadRomFile (s : Machine κ δ) (bank : Nat) (file : ImageFile) (offset : Nat) :
    Machine κ δ × Except ConfigError Unit :=
  match file.contents with
  | .error reason => (s, .error (.unreadable file.path reason))
  | .ok data =>
    if data.size < offset then (s, .error (.romOffsetTooLarge file.path offset data.size))
    else
      match s.flash.get? bank with
      | none => (s, .error (.romBankMissing bank))
      | some b =>
        let size := b.size.toNat
        let image := data.extract offset data.size
        let s := if size < image.size then
            s.tell (.romTruncated file.path image.size bank size)
          else s
        s.loadRom bank 0 (image.extract 0 size)

/-- Puts a handler table in place of the present one, if none of its handlers is shadowed. -/
def setHandlers (s : Machine κ δ) (table : List Handler.Entry) :
    Machine κ δ × Except ConfigError Unit :=
  match Handler.check table with
  | .ok () => ({ s with handlers := table }, .ok ())
  | .error e => (s, .error e)

end Digic.Machine
