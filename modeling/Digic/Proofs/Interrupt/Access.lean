import Digic.Interrupt.Registers
import Digic.Proofs.Bus.Effects
import Digic.Proofs.Interrupt.Operation
/-!
# Accesses of the controller as histories

Whatever is read or written through either window of the controller is a short history of
operations. Its events are told in order, and what is told after them tells of no event.
-/
namespace Digic.Interrupt

open Bus

def readOperations (addr : UInt32) : List Operation :=
  match Register.ofAddress addr with
  | .reason shift => [.acknowledge shift]
  | _ => []

def readValue (addr : UInt32) : Controller → UInt32 :=
  match Register.ofAddress addr with
  | .reason shift => fun c => c.active <<< shift
  | _ => fun _ => 0

def writeOperations (addr value : UInt32) : List Operation :=
  match Register.ofAddress addr with
  | .enable => [.enable value]
  | .reset => if value ≠ 0 then [.dismiss] else []
  | _ => []

def maskOperations (addr mask : UInt32) : List Operation :=
  match addr &&& 0xF with
  | 0x8 => (maskedLines addr mask).map .enable
  | 0xC => (maskedLines addr mask).map .disable
  | _ => []

def told (events : List Event) : List Effect := events.map fun e => .note (.interrupt e)

/-- An action that only tells what is no event, and gives a value. -/
def Tells {σ α : Type} (x : α) (a : Action σ α) : Prop :=
  ∀ s : Acting σ, ∃ notes : List Log.Notice, (∀ n ∈ notes, n.event? = none) ∧
    a s = .ok x ⟨s.device, s.effects ++ (notes.map Effect.note).toArray⟩

/-- An action that does a history and gives a value. -/
def Does {α : Type} (timer : UInt32) (ops : List Operation) (value : Controller → α)
    (a : Action Controller α) : Prop :=
  ∀ c : Controller, ∃ notes : List Log.Notice, (∀ n ∈ notes, n.event? = none) ∧
    a ⟨c, #[]⟩ = .ok (value c)
      ⟨(c.run timer ops).1, (told (c.run timer ops).2 ++ notes.map Effect.note).toArray⟩

section Tells

variable {σ α β : Type}

theorem Tells.pure (x : α) : Tells x (Pure.pure x : Action σ α) :=
  fun s => ⟨[], by simp, by simp [Pure.pure, EStateM.pure]⟩

theorem Tells.note {n : Log.Notice} (h : n.event? = none) :
    Tells () (Action.note n : Action σ Unit) := by
  intro s
  refine ⟨[n], by simpa using h, ?_⟩
  rw [Action.note_apply, ← Array.append_singleton]
  rfl

theorem Tells.bind {a : Action σ α} {f : α → Action σ β} {x : α} {y : β} (ha : Tells x a)
    (hf : Tells y (f x)) : Tells y (a >>= f) := by
  intro s
  obtain ⟨first, hfirst, hax⟩ := ha s
  obtain ⟨others, hothers, hfy⟩ := hf ⟨s.device, s.effects ++ (first.map Effect.note).toArray⟩
  refine ⟨first ++ others, ?_, ?_⟩
  · intro n hn
    exact (List.mem_append.1 hn).elim (hfirst n) (hothers n)
  · rw [bind_of_ok hax, hfy]
    simp

theorem Tells.ite {p : Prop} [Decidable p] {a b : Action σ α} {x : α} (ha : Tells x a)
    (hb : Tells x b) : Tells x (if p then a else b) := by
  split
  · exact ha
  · exact hb

theorem Tells.does {value : α} {a : Action Controller α} (timer : UInt32) (h : Tells value a) :
    Does timer [] (fun _ => value) a := by
  intro c
  obtain ⟨notes, hnotes, ha⟩ := h ⟨c, #[]⟩
  exact ⟨notes, hnotes, by simpa [told] using ha⟩

end Tells

/-- What is told after a history does not disturb it. -/
theorem Does.bind {α β : Type} {timer : UInt32} {ops : List Operation} {value : Controller → β}
    {result : Controller → α} {a : Action Controller β} {f : β → Action Controller α}
    (ha : ∀ c, a ⟨c, #[]⟩ =
      .ok (value c) ⟨(c.run timer ops).1, (told (c.run timer ops).2).toArray⟩)
    (hf : ∀ c, Tells (result c) (f (value c))) : Does timer ops result (a >>= f) := by
  intro c
  obtain ⟨notes, hnotes, htells⟩ := hf c ⟨(c.run timer ops).1, (told (c.run timer ops).2).toArray⟩
  refine ⟨notes, hnotes, ?_⟩
  rw [bind_of_ok (ha c), htells, List.append_toArray]

theorem forM_note (events : List Event) (a : Acting Controller) :
    (events.forM fun e => (Action.note (.interrupt e) : Action Controller Unit)) a =
      .ok () ⟨a.device, a.effects ++ (told events).toArray⟩ := by
  induction events generalizing a with
  | nil => simp [told, List.forM, pure, EStateM.pure]
  | cons e events ih =>
    rw [List.forM]
    refine (bind_of_ok rfl _).trans ((ih _).trans ?_)
    simp [told]

theorem perform_operate (timer : UInt32) (op : Operation) (a : Acting Controller) :
    perform (fun c => c.operate timer op) a =
      .ok () ⟨(a.device.operate timer op).1,
        a.effects ++ (told (a.device.operate timer op).2).toArray⟩ :=
  forM_note _ _

/-- One operation after the other is a history. -/
theorem forM_perform (timer : UInt32) (f : UInt32 → Operation) (ids : List UInt32)
    (a : Acting Controller) :
    (ids.forM fun id => perform fun c => c.operate timer (f id)) a =
      .ok () ⟨(a.device.run timer (ids.map f)).1,
        a.effects ++ (told (a.device.run timer (ids.map f)).2).toArray⟩ := by
  induction ids generalizing a with
  | nil => simp [told, List.forM, pure, EStateM.pure]
  | cons id ids ih =>
    rw [List.forM]
    refine (bind_of_ok (perform_operate timer (f id) a) _).trans ((ih _).trans ?_)
    simp [told, Controller.run_cons]

theorem forM_perform_fresh (timer : UInt32) (f : UInt32 → Operation) (ids : List UInt32)
    (c : Controller) :
    (ids.forM fun id => perform fun c => c.operate timer (f id)) ⟨c, #[]⟩ =
      .ok () ⟨(c.run timer (ids.map f)).1, (told (c.run timer (ids.map f)).2).toArray⟩ := by
  rw [forM_perform]
  simp

variable (timer : UInt32)

theorem tells_traceRead (c : Context) (addr value : UInt32) (remark : String) :
    Tells () (c.traceRead addr value remark : Action Controller Unit) := .note rfl

theorem tells_traceWrite (c : Context) (addr value : UInt32) (remark : String) :
    Tells () (c.traceWrite addr value remark : Action Controller Unit) := .note rfl

theorem tells_answer (c : Context) (addr value : UInt32) (remark : String) :
    Tells value (c.answer addr value remark : Action Controller UInt32) :=
  .bind (tells_traceRead c addr value remark) (.pure value)

theorem does_readRegister (c : Context) (addr : UInt32) :
    Does timer (readOperations addr) (readValue addr) (readRegister c addr) := by
  rw [readRegister, readOperations, readValue]
  cases Register.ofAddress addr with
  | reason shift =>
    have hacknowledge : ∀ d : Controller, acknowledge shift ⟨d, #[]⟩ =
        .ok (d.active <<< shift) ⟨(d.run timer [.acknowledge shift]).1,
          (told (d.run timer [.acknowledge shift]).2).toArray⟩ := fun _ => rfl
    have hnothing : Tells () (Action.note .nothingInService : Action Controller Unit) := .note rfl
    refine Does.bind hacknowledge fun d => ?_
    have htrace : Tells (d.active <<< shift) (do
        c.traceRead addr (d.active <<< shift) "requested int reason"
        return d.active <<< shift : Action Controller UInt32) :=
      .bind (tells_traceRead c addr _ _) (.pure _)
    exact .ite (.bind hnothing (.ite htrace (.pure _))) (.ite htrace (.pure _))
  | enable => exact (Tells.pure 0).does timer
  | reset => exact (tells_answer c addr 0 _).does timer
  | other => exact (tells_answer c addr 0 _).does timer

theorem does_writeRegister (c : Context) (addr value : UInt32) :
    Does timer (writeOperations addr value) (fun _ => ()) (writeRegister c addr value) := by
  rw [writeOperations, writeRegister]
  cases Register.ofAddress addr with
  | reason shift => exact (tells_traceWrite c addr value _).does timer
  | enable =>
    have henable : ∀ d : Controller, perform (·.enable value) ⟨d, #[]⟩ =
        .ok () ⟨(d.run timer [.enable value]).1, (told (d.run timer [.enable value]).2).toArray⟩ := by
      intro d
      have hperform := perform_operate timer (.enable value) ⟨d, #[]⟩
      exact hperform.trans (by simp [Controller.run_cons])
    exact Does.bind henable fun _ => .ite (tells_traceWrite c addr value _) (.pure ())
  | reset =>
    by_cases hv : value = 0
    · rw [if_neg (not_not_intro hv), if_neg (not_not_intro hv)]
      exact (tells_traceWrite c addr value _).does timer
    · rw [if_pos hv, if_pos hv]
      have hdismiss : ∀ d : Controller, Action.update (·.dismiss) ⟨d, #[]⟩ =
          .ok () ⟨(d.run timer [.dismiss]).1, (told (d.run timer [.dismiss]).2).toArray⟩ :=
        fun _ => rfl
      exact Does.bind hdismiss fun _ => tells_traceWrite c addr value _
  | other => exact (tells_traceWrite c addr value _).does timer

theorem does_writeMask (c : Context) (addr mask : UInt32) :
    Does timer (maskOperations addr mask) (fun _ => ()) (writeMask c addr mask) := by
  by_cases h8 : addr &&& 0xF = 0x8
  · rw [writeMask, maskOperations, h8]
    exact Does.bind (forM_perform_fresh timer .enable _) fun _ => tells_traceWrite c addr mask _
  · by_cases hC : addr &&& 0xF = 0xC
    · rw [writeMask, maskOperations, hC]
      exact Does.bind (forM_perform_fresh timer .disable _) fun _ => tells_traceWrite c addr mask _
    · have hnone : maskOperations addr mask = [] := by
        rw [maskOperations]
        split
        case h_1 h => exact absurd h h8
        case h_2 h => exact absurd h hC
        case h_3 => rfl
      have hwrite : writeMask c addr mask = c.traceWrite addr mask "" := by
        rw [writeMask]
        split
        case h_1 h => exact absurd h h8
        case h_2 h => exact absurd h hC
        case h_3 => rfl
      rw [hnone, hwrite]
      exact (tells_traceWrite c addr mask _).does timer

end Digic.Interrupt
