import Digic.Console.Uart
import Digic.Proofs.Bus.Effects
/-!
# What the console puts out

Each byte that is transmitted goes two ways: to the bytes that are kept, and to the line so far,
which is told of once it ends. The lines that were told of, each with its end, and the line so far
are therefore the bytes that were kept.
-/
namespace Digic.Console

open Bus

variable {α β : Type}

/-- The bytes of lines, each with its end. -/
def joinLines (lines : List (List UInt8)) : List UInt8 := lines.flatMap (· ++ [Uart.newline])

@[simp] theorem joinLines_nil : joinLines [] = [] := rfl

@[simp] theorem joinLines_append (lines others : List (List UInt8)) :
    joinLines (lines ++ others) = joinLines lines ++ joinLines others := List.flatMap_append

def Uart.outputBytes (u : Uart) : List UInt8 := u.output.data.toList

def toldLines (s : Acting Uart) : List (List UInt8) := s.effects.toList.filterMap Effect.line?

/-- An action that puts bytes out. -/
def Prints (bytes : List UInt8) (a : Action Uart α) : Prop := ∀ s : Acting Uart,
  (stateAfter a s).device.outputBytes = s.device.outputBytes ++ bytes ∧
    joinLines (toldLines (stateAfter a s)) ++ (stateAfter a s).device.lineBytes =
      joinLines (toldLines s) ++ s.device.lineBytes ++ bytes

namespace Prints

theorem pure (x : α) : Prints [] (Pure.pure x : Action Uart α) := fun s => by
  simp [stateAfter, Action.pure_apply]

theorem device : Prints [] (Action.device : Action Uart Uart) := fun s => by
  simp [stateAfter, Action.device_apply]

theorem update {f : Uart → Uart} (houtput : ∀ u, (f u).output = u.output)
    (hline : ∀ u, (f u).line = u.line) : Prints [] (Action.update f) := fun s => by
  simp [stateAfter, Action.update_apply, Uart.outputBytes, Uart.lineBytes, houtput, hline,
    toldLines]

theorem emit {e : Effect} (h : e.line? = none) : Prints [] (Action.emit e) := by
  intro s
  have hafter : stateAfter (Action.emit e) s = ⟨s.device, s.effects.push e⟩ := rfl
  simp [hafter, toldLines, h]

theorem bind {bytes : List UInt8} {a : Action Uart α} {f : α → Action Uart β} (ha : Prints bytes a)
    (hf : ∀ x, Prints [] (f x)) : Prints bytes (a >>= f) := by
  intro s
  obtain ⟨houtput, hlines⟩ := ha s
  rw [stateAfter] at houtput hlines
  rw [stateAfter_bind]
  cases h : a s with
  | ok x t =>
    rw [h] at houtput hlines
    obtain ⟨houtput', hlines'⟩ := hf x t
    rw [List.append_nil] at houtput' hlines'
    exact ⟨houtput'.trans houtput, hlines'.trans hlines⟩
  | error e t =>
    rw [h] at houtput hlines
    exact ⟨houtput, hlines⟩

theorem ite {bytes : List UInt8} {p : Prop} [Decidable p] {a b : Action Uart α}
    (ha : Prints bytes a) (hb : Prints bytes b) : Prints bytes (if p then a else b) := by
  split
  · exact ha
  · exact hb

end Prints

theorem prints_answer (c : Context) (addr value : UInt32) (remark : String) :
    Prints [] (c.answer addr value remark) := .bind (.emit rfl) fun _ => .pure value

/-- A byte that ends a line has the line told of. -/
theorem prints_transmit (b : UInt8) : Prints [b] (transmit b) := by
  intro s
  by_cases hb : b = Uart.newline
  · have hafter : stateAfter (transmit b) s =
        ⟨s.device.put b, s.effects.push (.note (.consoleLine s.device.lineBytes))⟩ := by
      simp only [transmit, if_pos hb]
      rfl
    have hline : (s.device.put b).lineBytes = [] := by
      rw [Uart.lineBytes, Uart.put, if_pos hb]
      rfl
    have htold : toldLines (stateAfter (transmit b) s) =
        toldLines s ++ [s.device.lineBytes] := by
      simp [hafter, toldLines, Effect.line?, Log.Notice.line?]
    rw [htold, hafter, hline]
    simp [Uart.outputBytes, Uart.put, joinLines, hb]
  · have hafter : stateAfter (transmit b) s = ⟨s.device.put b, s.effects⟩ := by
      simp only [transmit, if_neg hb]
      rfl
    rw [hafter, toldLines, toldLines]
    simp [Uart.outputBytes, Uart.lineBytes, Uart.put, hb]

theorem prints_read (c : Context) (addr : UInt32) : Prints [] (read c addr) := by
  unfold read readRegister
  split
  · exact .bind .device fun _ => .pure _
  · split
    · exact .pure _
    · exact .pure _
    · exact .bind .device fun _ => prints_answer c addr _ _
    · refine .bind .device fun u => ?_
      split
      · exact prints_answer c addr _ _
      · exact .pure _
    · exact prints_answer c addr _ _
    · exact prints_answer c addr _ _

theorem ofAddress_eq_transmit_iff (addr : UInt32) :
    Register.ofAddress addr = .transmit ↔ addr &&& 0xFF = 0x00 := by
  unfold Register.ofAddress
  split <;> simp_all

def writtenBytes (param addr value : UInt32) : List UInt8 :=
  if param ≠ 1 ∧ addr &&& 0xFF = 0x00 then [value.toUInt8] else []

theorem prints_writeRegister (c : Context) (addr value : UInt32) :
    Prints (if addr &&& 0xFF = 0x00 then [value.toUInt8] else []) (writeRegister c addr value) := by
  have htrace (remark : String) : Prints [] (c.traceWrite addr value remark) := .emit rfl
  rw [writeRegister]
  by_cases htransmit : Register.ofAddress addr = .transmit
  · rw [if_pos ((ofAddress_eq_transmit_iff addr).1 htransmit), htransmit]
    refine .bind (prints_transmit _) fun _ => .bind .device fun u => ?_
    exact .ite (.emit rfl) (.pure _)
  · rw [if_neg fun h => htransmit ((ofAddress_eq_transmit_iff addr).2 h)]
    cases hregister : Register.ofAddress addr
    case transmit => exact absurd hregister htransmit
    case unused => exact .pure _
    case status =>
      dsimp only
      split
      · exact .bind (.update (fun _ => rfl) fun _ => rfl) fun _ => htrace _
      · exact .pure _
    case interrupt => exact .bind (.update (fun _ => rfl) fun _ => rfl) fun _ => htrace _
    case receive => exact htrace _
    case other => exact htrace _

theorem prints_write (c : Context) (addr value : UInt32) :
    Prints (writtenBytes c.window.param addr value) (write c addr value) := by
  rw [write, writtenBytes]
  by_cases hcell : c.window.param = 1
  · simp only [hcell, ne_eq, not_true, false_and, if_true, if_false]
    exact .update (fun _ => rfl) fun _ => rfl
  · simp only [hcell, ne_eq, not_false_eq_true, true_and, if_false]
    exact prints_writeRegister c addr value

end Digic.Console
