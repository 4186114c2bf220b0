import Digic.Proofs.Flash.Access
/-!
# The layout of the banks

Where the banks lie and how large they are is said by the model, and nothing changes it: neither an
access, as a cycle of a command or as one of plain memory, nor an image that is loaded.
-/
namespace Digic.Flash

open Bus

def Bank.layout (b : Bank) : RomLayout := ⟨b.base, b.size⟩

def Banks.layout (f : Banks) : Vector RomLayout 2 := f.banks.map Bank.layout

theorem layout_ofModel (m : Model) : (Banks.ofModel m).layout = m.rom := by
  simp [Banks.layout, Banks.ofModel, Bank.layout, Bank.ofLayout, Function.comp_def]

/-- A bank that is replaced by one of its own layout. -/
theorem layout_set {f : Banks} {n : Nat} {b b' : Bank} (hb : f.layout[n]? = some b.layout)
    (h : b'.layout = b.layout) : (f.set n b').layout = f.layout := by
  apply Vector.ext
  intro i hi
  simp only [Banks.layout, Banks.set, Vector.getElem_map, Vector.getElem_setIfInBounds]
  split
  case isTrue heq =>
    subst heq
    rw [Banks.layout, Vector.getElem?_map, Vector.getElem?_eq_getElem hi, Option.map_some,
      Option.some_inj] at hb
    rw [h, hb]
  case isFalse => rfl

theorem layout_get? {f : Banks} {n : Nat} {b : Bank} (h : f.get? n = some b) :
    f.layout[n]? = some b.layout := by
  rw [Banks.get?] at h
  simp [Banks.layout, h]

theorem Bank.layout_answer (b : Bank) (offset : UInt32) : (b.answer offset).2.layout = b.layout := by
  rcases b.answer_cases offset with ⟨reads, h⟩ | ⟨-, h⟩ <;> rw [h] <;> rfl

theorem Bank.layout_of_eq {b b' : Bank} (h : b'.base = b.base ∧ b'.size = b.size) :
    b'.layout = b.layout := by
  rw [layout, h.1, h.2, layout]

/-- To read ROM leaves the layout. -/
theorem keeps_layout_read (c : Context) (addr : UInt32) (l : Vector RomLayout 2) :
    (Flash.read c addr).Keeps (·.layout = l) := by
  unfold read
  refine .device_bind fun banks hbanks => ?_
  split
  · exact .pure _
  · next bank hget =>
    have hafter : (banks.read c.window.param.toNat bank addr).2.layout = l := by
      rw [Banks.read]
      dsimp only
      split
      · exact (layout_set (layout_get? hget) (bank.layout_answer _)).trans hbanks
      · exact hbanks
    refine .bind (.update fun _ _ => hafter) fun _ => ?_
    split
    · exact .pure _
    · exact .bind (.note _) fun _ => .pure _

theorem keeps_layout_write (c : Context) (addr value : UInt32) (l : Vector RomLayout 2) :
    (Flash.write c addr value).Keeps (·.layout = l) := by
  unfold write
  refine .device_bind fun banks hbanks => ?_
  split
  · exact .pure _
  · next bank hget =>
    have hbank : l[c.window.param.toNat]? = some bank.layout := hbanks ▸ layout_get? hget
    refine .bind (.update fun before hbefore => ?_) fun _ => ?_
    · have hwritten : (if before.commands then bank.command (bank.offset addr) value
          else bank.store (bank.offset addr) value).layout = bank.layout := by
        split
        · exact Bank.layout_of_eq (bank.layout_command _ value)
        · exact Bank.layout_of_eq (bank.layout_updateWord _ value _)
      exact (layout_set (hbefore ▸ hbank) hwritten).trans hbefore
    · split
      · unfold tellResponse
        dsimp only
        split
        · exact .note _
        · split
          · exact .note _
          · exact .pure _
      · exact .pure _

/-- An image fits into the layout, or is refused. -/
theorem layout_load (f : Banks) (n : Nat) (offset : UInt32) (image : ByteArray) :
    (f.load n offset image).1.layout = f.layout := by
  unfold Banks.load
  split
  · rfl
  · next b hget =>
    apply layout_set (layout_get? hget)
    unfold Bank.load
    split <;> rfl

end Digic.Flash
