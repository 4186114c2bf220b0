import Digic.Proofs.Interrupt.Access
import Digic.Proofs.Interrupt.Delivery
/-!
# Lines that a mask names

A mask stands for 32 consecutive lines, from a base on that the address gives. To write one enables
or disables the lines of its bits and no others. The countdowns stay as they are, and so does what is
in service, unless its line is disabled.
-/
namespace Digic.Interrupt

open Bus

/-- The line of the lowest bit of a mask. -/
def maskBase (addr : UInt32) : Nat := (addr &&& 0xF0).toNat / 2

/-- A mask that is written to an address has the bit of a line. -/
def Named (addr mask id : UInt32) : Prop :=
  ∃ i, i < 32 ∧ mask.toNat.testBit i = true ∧ id.toNat = maskBase addr + i

instance (addr mask id : UInt32) : Decidable (Named addr mask id) :=
  inferInstanceAs (Decidable (∃ i, i < 32 ∧ _))

theorem maskBase_le (addr : UInt32) : maskBase addr ≤ 0x78 := by
  have hle : (addr &&& 0xF0).toNat ≤ 0xF0 := by
    rw [UInt32.toNat_and]
    exact Nat.and_le_right
  exact Nat.div_le_div_right hle

/-- A mask names lines that are there. -/
theorem Named.lt {addr mask id : UInt32} (h : Named addr mask id) : id.toNat < lineCount := by
  obtain ⟨i, hi, -, hid⟩ := h
  have hbase := maskBase_le addr
  rw [lineCount]
  omega

theorem testBit_iff (mask : UInt32) {i : Nat} (hi : i < 32) :
    ((mask >>> i.toUInt32) &&& 1 != 0) = mask.toNat.testBit i := by
  have hshift : i.toUInt32.toNat % 32 = i := by
    rw [UInt32.toNat_ofNat_of_lt' (by rw [UInt32.size]; omega)]
    omega
  have hbit : ((mask >>> i.toUInt32) &&& 1).toNat = 1 &&& mask.toNat >>> i := by
    rw [UInt32.toNat_and, UInt32.toNat_shiftRight, hshift, Nat.and_comm]
    rfl
  rw [Nat.testBit, ← hbit, Bool.eq_iff_iff, bne_iff_ne, bne_iff_ne, ne_eq, ne_eq,
    ← UInt32.toNat_inj]
  rfl

theorem toNat_maskBase_add (addr : UInt32) {i : Nat} (hi : i < 32) :
    (((addr &&& 0xF0) >>> 1) + i.toUInt32).toNat = maskBase addr + i := by
  have hle := maskBase_le addr
  have hbase : ((addr &&& 0xF0) >>> 1).toNat = maskBase addr := by
    rw [UInt32.toNat_shiftRight, Nat.shiftRight_eq_div_pow]
    rfl
  have hi' : i.toUInt32.toNat = i := UInt32.toNat_ofNat_of_lt' (by rw [UInt32.size]; omega)
  rw [UInt32.toNat_add, hbase, hi']
  omega

theorem mem_maskedLines_iff {addr mask id : UInt32} :
    id ∈ maskedLines addr mask ↔ Named addr mask id := by
  simp only [maskedLines, List.mem_map, List.mem_filter, List.mem_range]
  constructor
  · rintro ⟨i, ⟨hi, hbit⟩, rfl⟩
    exact ⟨i, hi, testBit_iff mask hi ▸ hbit, toNat_maskBase_add addr hi⟩
  · rintro ⟨i, hi, hbit, hid⟩
    refine ⟨i, ⟨hi, (testBit_iff mask hi).trans hbit⟩, ?_⟩
    exact UInt32.toNat_inj.1 ((toNat_maskBase_add addr hi).trans hid.symm)

namespace Controller

/-- Lines that exist are enabled, or disabled, by an operation for each of them. -/
structure Switches (timer : UInt32) (enabled : Bool) (f : UInt32 → Operation) : Prop where
  line : ∀ (c : Controller) (id other : UInt32), id.toNat < lineCount →
    (c.operate timer (f id)).1.line other =
      if other = id then { c.line other with enabled } else c.line other

theorem switches_enable (timer : UInt32) : Switches timer true .enable where
  line := by
    intro c id other hlt
    rw [operate, enable, if_pos hlt]
    split
    · next h => rw [h, line_setLine_self c _ hlt]
    · next h => rw [line_setLine_of_ne c _ h]

theorem switches_disable (timer : UInt32) : Switches timer false .disable where
  line := by
    intro c id other hlt
    have hline : (c.operate timer (.disable id)).1.line other =
        (c.setLine id { c.line id with enabled := false }).line other := by
      rw [operate, disable]
      dsimp only
      split <;> rfl
    rw [hline]
    split
    · next h => rw [h, line_setLine_self c _ hlt]
    · next h => rw [line_setLine_of_ne c _ h]

/-- One line after the other is switched, and no other one. -/
theorem Switches.line_run {timer : UInt32} {enabled : Bool} {f : UInt32 → Operation}
    (hf : Switches timer enabled f) {ids : List UInt32} (hids : ∀ id ∈ ids, id.toNat < lineCount)
    (c : Controller) (other : UInt32) :
    (c.run timer (ids.map f)).1.line other =
      if other ∈ ids then { c.line other with enabled } else c.line other := by
  induction ids generalizing c with
  | nil => simp
  | cons id ids ih =>
    obtain ⟨hlt, hothers⟩ := List.forall_mem_cons.1 hids
    rw [List.map_cons, run_cons, ih hothers, hf.line c id other hlt]
    by_cases hid : other = id <;> by_cases hmem : other ∈ ids <;> simp [hid, hmem]

/-- To enable lines that are there is no event. -/
theorem run_enable_of_lt (timer : UInt32) {ids : List UInt32}
    (hids : ∀ id ∈ ids, id.toNat < lineCount) (c : Controller) :
    (c.run timer (ids.map .enable)).1.active = c.active ∧
      (c.run timer (ids.map .enable)).2 = [] := by
  induction ids generalizing c with
  | nil => exact ⟨rfl, rfl⟩
  | cons id ids ih =>
    obtain ⟨hlt, hothers⟩ := List.forall_mem_cons.1 hids
    obtain ⟨hactive, hevents⟩ := ih hothers (c.operate timer (.enable id)).1
    have hfirst : c.operate timer (.enable id) =
        (c.setLine id { c.line id with enabled := true }, []) := if_pos hlt
    rw [List.map_cons, run_cons, hactive, hevents, hfirst]
    exact ⟨rfl, rfl⟩

end Controller

/-- What a mask that is written does to the controller, and the events of it. -/
structure MaskWritten (c : Controller) (addr mask : UInt32) (c' : Controller)
    (events : List Event) : Prop where
  enables : addr.toNat % 16 = 8 → events = [] ∧ c'.active = c.active ∧
    ∀ id, c'.line id = if Named addr mask id then { c.line id with enabled := true } else c.line id
  disables : addr.toNat % 16 = 12 →
    ∀ id, c'.line id = if Named addr mask id then { c.line id with enabled := false } else c.line id
  drops : addr.toNat % 16 = 12 → ∀ id, c.active? = some id → Named addr mask id →
    events = [.released] ∧ c'.active? = none
  spares : addr.toNat % 16 = 12 → (∀ id, c.active? = some id → ¬ Named addr mask id) →
    events = [] ∧ c'.active = c.active
  other : addr.toNat % 16 ≠ 8 → addr.toNat % 16 ≠ 12 → events = [] ∧ c' = c

theorem maskWritten_run (timer : UInt32) (c : Controller) (addr mask : UInt32) :
    MaskWritten c addr mask (c.run timer (maskOperations addr mask)).1
      (c.run timer (maskOperations addr mask)).2 := by
  have hoffset : (addr &&& 0xF).toNat = addr.toNat % 16 := by
    rw [UInt32.toNat_and]
    exact Nat.and_two_pow_sub_one_eq_mod addr.toNat 4
  have hids : ∀ id ∈ maskedLines addr mask, id.toNat < lineCount :=
    fun id hid => (mem_maskedLines_iff.1 hid).lt
  rw [maskOperations]
  split
  case h_1 h =>
    rw [h] at hoffset
    have h8 : addr.toNat % 16 = 8 := hoffset.symm
    obtain ⟨hactive, hevents⟩ := Controller.run_enable_of_lt timer hids c
    have hlines := (Controller.switches_enable timer).line_run hids c
    simp only [mem_maskedLines_iff] at hlines
    exact ⟨fun _ => ⟨hevents, hactive, hlines⟩, by omega, by omega, by omega, by omega⟩
  case h_2 h =>
    rw [h] at hoffset
    have h12 : addr.toNat % 16 = 12 := hoffset.symm
    have hlines := (Controller.switches_disable timer).line_run hids c
    simp only [mem_maskedLines_iff] at hlines
    refine ⟨by omega, fun _ => hlines, fun _ id hid hnamed => ?_, fun _ hfree => ?_, by omega⟩
    · obtain ⟨hbusy, rfl⟩ : c.active ≠ 0 ∧ c.active = id := by
        simpa [Controller.active?] using hid
      obtain ⟨hactive, hevents⟩ :=
        Controller.run_disable_of_mem timer hbusy (mem_maskedLines_iff.2 hnamed)
      exact ⟨hevents, if_pos hactive⟩
    · have hspared : c.active = 0 ∨ c.active ∉ maskedLines addr mask := by
        by_cases hidle : c.active = 0
        · exact .inl hidle
        · have hbusy : c.active? = some c.active := if_neg hidle
          exact .inr fun hmem => hfree _ hbusy (mem_maskedLines_iff.1 hmem)
      exact (Controller.run_disable_of_not_mem timer hspared).symm
  case h_3 h8 h12 =>
    have hne8 : addr.toNat % 16 ≠ 8 := fun h => h8 (UInt32.toNat_inj.1 (hoffset.trans h))
    have hne12 : addr.toNat % 16 ≠ 12 := fun h => h12 (UInt32.toNat_inj.1 (hoffset.trans h))
    exact ⟨fun h => absurd h hne8, fun h => absurd h hne12, fun h => absurd h hne12,
      fun h => absurd h hne12, fun _ _ => ⟨rfl, rfl⟩⟩

end Digic.Interrupt
