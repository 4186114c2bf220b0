import Digic.Proofs.Handler.Windows
import Digic.Proofs.Interrupt.Masks
import Digic.Proofs.Machine.Run
/-!
# Writes of masks

In the window of masks a write enables or disables the lines of a mask, or does nothing. Of the rest
of the machine it touches the processor's line at most, which is lowered once if the line in service
is disabled.
-/
namespace Digic.Machine

open Bus Handler Interrupt

variable {κ δ : Type}

def maskWindow : Entry := ⟨⟨"INTvx", 0xC0200000, 0xC02000FF⟩, .interruptMasks, 0⟩

theorem leads_interruptMasks : Leads standardTable .interruptMasks := by decide +kernel

theorem find?_mask {addr : UInt32} (hlow : 0xC0200000 ≤ addr) (hhigh : addr ≤ 0xC02000FF) :
    find? standardTable addr = some maskWindow := by
  have hmem : maskWindow ∈ standardTable := by decide +kernel
  exact (find?_eq_some_iff leads_interruptMasks).2 ⟨hmem, Entry.contains_iff.2 ⟨hlow, hhigh⟩⟩

variable [Sd.SdCard κ] [Cf.AtaDrive δ]

/-- In a machine with the standard handler table, whatever the state of its interrupt controller, a
write of a mask changes nothing but the controller, the processor's line and the journal. What the
controller comes to depends on the last digit of the address:

* at 8 the lines that the mask names are enabled, and nothing else is changed,
* at C they are disabled, with the countdowns as they were; if one of them is in service it is
  dropped, and the processor's line is lowered once, and else neither is touched,
* at any other nothing is changed at all. -/
theorem mask_switches_exactly {s : Machine κ δ} (htable : s.handlers = standardTable)
    {addr : UInt32} (hlow : 0xC0200000 ≤ addr) (hhigh : addr ≤ 0xC02000FF) (mask : UInt32) :
    ∃ (c : Controller) (events : List Event) (notes : List Log.Notice),
      write addr mask s = .ok () { s with
        interrupts := c
        cpu := events.foldl Cpu.take s.cpu
        journal := s.journal ++ events.map Log.Notice.interrupt ++ notes } ∧
      (∀ n ∈ notes, n.event? = none) ∧ MaskWritten s.interrupts addr mask c events := by
  have hfind : find? s.handlers addr = some maskWindow := htable ▸ find?_mask hlow hhigh
  have hdoes := does_writeMask 0 (s.context maskWindow.toWindow) addr mask
  obtain ⟨notes, hnotes, hwrite⟩ := actInterrupts_of_does hdoes s
  refine ⟨_, _, notes, ?_, hnotes, maskWritten_run 0 s.interrupts addr mask⟩
  rw [write_of_claimed hfind, writeDevice_masks (w := maskWindow.toWindow) rfl, hwrite,
    tellEvents_eq]

/-- A mask that disables the line in service drops it, through a window of lines that begins below
it. -/
theorem mask_switches_exactly_in_service :
    let served := ((Controller.new.enable 0x2F).1.request 0x2F 0).1
    let s : Machine Empty Empty :=
      { ofModel .standard with interrupts := served, cpu := { Cpu.new with line := true } }
    s.handlers = standardTable ∧ s.interrupts.active? = some 0x2F ∧ Named 0xC020004C 0x8001 0x2F ∧
      ∃ (c : Controller) (notes : List Log.Notice), write 0xC020004C 0x8001 s = .ok () { s with
        interrupts := c
        cpu := { s.cpu with line := false }
        journal := s.journal ++ [Log.Notice.interrupt .released] ++ notes } ∧
      c.active? = none := by
  intro served s
  have hlow : (0xC0200000 : UInt32) ≤ 0xC020004C := by decide
  have hhigh : (0xC020004C : UInt32) ≤ 0xC02000FF := by decide
  obtain ⟨c, events, notes, hwrite, -, hwritten⟩ :=
    mask_switches_exactly (s := s) rfl hlow hhigh 0x8001
  have hactive : s.interrupts.active? = some 0x2F := by decide +kernel
  have hnamed : Named 0xC020004C 0x8001 0x2F := by decide
  obtain ⟨rfl, hnone⟩ := hwritten.drops rfl _ hactive hnamed
  exact ⟨rfl, hactive, hnamed, c, notes, hwrite, hnone⟩

end Digic.Machine
