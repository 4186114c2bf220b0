import Digic.Bus.Action
/-!
# Effects and values of an action

An action is judged by the effects that it leaves wherever it starts, also when it ends in a fault,
and by the value that it gives when it ends well. The rules follow the way in which actions are put
together.
-/
namespace Digic

/-- The state in which a computation ends, well or in a fault. -/
def stateAfter {ε σ α : Type} (a : EStateM ε σ α) (s : σ) : σ :=
  match a s with
  | .ok _ s => s
  | .error _ s => s

theorem stateAfter_congr {ε σ α : Type} {a b : EStateM ε σ α} {s : σ} (h : a s = b s) :
    stateAfter a s = stateAfter b s := by
  rw [stateAfter, stateAfter, h]

theorem bind_of_ok {ε σ α β : Type} {a : EStateM ε σ α} {s t : σ} {x : α} (h : a s = .ok x t)
    (f : α → EStateM ε σ β) : (a >>= f) s = f x t := by
  simp only [Bind.bind, EStateM.bind, h]

theorem get_bind_apply {ε σ α : Type} (f : σ → EStateM ε σ α) (s : σ) :
    (get >>= f : EStateM ε σ α) s = f s s := rfl

theorem stateAfter_get_bind {ε σ α : Type} (f : σ → EStateM ε σ α) (s : σ) :
    stateAfter (get >>= f) s = stateAfter (f s) s := rfl

theorem stateAfter_modify_bind {ε σ α : Type} (f : σ → σ) (a : EStateM ε σ α) (s : σ) :
    stateAfter (modify f >>= fun _ => a) s = stateAfter a (f s) := rfl

/-- A computation that follows another one starts where that one ended, unless it failed. -/
theorem stateAfter_bind {ε σ α β : Type} (a : EStateM ε σ α) (f : α → EStateM ε σ β) (s : σ) :
    stateAfter (a >>= f) s = match a s with
      | .ok x s => stateAfter (f x) s
      | .error _ s => s := by
  simp only [stateAfter, Bind.bind, EStateM.bind]
  cases a s <;> rfl

def Log.Notice.event? : Log.Notice → Option Interrupt.Event
  | .interrupt e => some e
  | _ => none

def Log.Notice.line? : Log.Notice → Option (List UInt8)
  | .consoleLine bytes => some bytes
  | _ => none

namespace Bus

/-- An effect of a register file that is not the interrupt controller's. It tells of no interrupt
event, and of a line only if it is the console's. It asks for no interrupt with the number zero,
unless the model names that of the tick so. -/
def Effect.Plain (m : Model) (d : Handler.Device) : Effect → Prop
  | .note n => n.event? = none ∧ (n.line? ≠ none → d = .console)
  | .request id _ => id = 0 → id = m.timerInterrupt

def Effect.line? : Effect → Option (List UInt8)
  | .note n => n.line?
  | .request _ _ => none

/-- A notice that tells of no interrupt event. -/
def Effect.Silent : Effect → Prop
  | .note n => n.event? = none
  | .request _ _ => False

namespace Action

variable {σ α β : Type}

theorem device_apply (a : Acting σ) : (device : Action σ σ) a = .ok a.device a := rfl

theorem update_apply (f : σ → σ) (a : Acting σ) :
    update f a = .ok () ⟨f a.device, a.effects⟩ := rfl

theorem note_apply (n : Log.Notice) (a : Acting σ) :
    (note n : Action σ Unit) a = .ok () ⟨a.device, a.effects.push (.note n)⟩ := rfl

theorem pure_apply (x : α) (a : Acting σ) : (Pure.pure x : Action σ α) a = .ok x a := rfl

theorem require_apply {p : Prop} [Decidable p] (h : p) (f : Fault) (a : Acting σ) :
    (require p f : Action σ Unit) a = .ok () a := by
  rw [require, if_pos h]
  rfl

theorem require_refuses {p : Prop} [Decidable p] (h : ¬ p) (f : Fault) (a : Acting σ) :
    (require p f : Action σ Unit) a = .error f a := by
  rw [require, if_neg h]
  rfl

theorem bind_apply (a : Action σ α) (f : α → Action σ β) (s : Acting σ) :
    (a >>= f) s = match a s with
      | .ok x s => f x s
      | .error e s => .error e s := by
  simp only [Bind.bind, EStateM.bind]
  cases a s <;> rfl

/-- The device ends where an action leaves it if what follows leaves it alone. -/
theorem device_stateAfter_bind {a : Action σ α} {f : α → Action σ β}
    (hf : ∀ x s, (stateAfter (f x) s).device = s.device) (s : Acting σ) :
    (stateAfter (a >>= f) s).device = (stateAfter a s).device := by
  rw [stateAfter_bind, stateAfter]
  cases a s with
  | ok x s' => exact hf x s'
  | error e s' => rfl

/-- An action all of whose effects have a property. -/
def Leaves (P : Effect → Prop) (a : Action σ α) : Prop :=
  ∀ s : Acting σ, (∀ e ∈ s.effects, P e) → ∀ e ∈ (stateAfter a s).effects, P e

namespace Leaves

variable {P : Effect → Prop}

theorem pure (x : α) : Leaves P (Pure.pure x : Action σ α) := fun _ h => h

theorem device : Leaves P (Action.device : Action σ σ) := fun _ h => h

theorem update (f : σ → σ) : Leaves P (Action.update f) := fun _ h => h

theorem fail (f : Fault) : Leaves P (Action.fail f : Action σ α) := fun _ h => h

theorem emit {e : Effect} (he : P e) : Leaves P (Action.emit e : Action σ Unit) := by
  intro s hs e' hmem
  have hpush : e' ∈ s.effects.push e := hmem
  rcases Array.mem_push.1 hpush with h | rfl
  · exact hs e' h
  · exact he

theorem require (p : Prop) [Decidable p] (f : Fault) :
    Leaves P (Action.require p f : Action σ Unit) := by
  unfold Action.require
  split
  · exact pure ()
  · exact fail f

theorem bind {a : Action σ α} {f : α → Action σ β} (ha : Leaves P a)
    (hf : ∀ x, Leaves P (f x)) : Leaves P (a >>= f) := by
  intro s hs
  have hfirst := ha s hs
  simp only [Bind.bind, EStateM.bind, stateAfter] at hfirst ⊢
  cases h : a s with
  | ok x s' =>
    rw [h] at hfirst
    exact hf x s' hfirst
  | error e s' =>
    rw [h] at hfirst
    exact hfirst

theorem ite {p : Prop} [Decidable p] {a b : Action σ α} (ha : Leaves P a) (hb : Leaves P b) :
    Leaves P (if p then a else b) := by
  split
  · exact ha
  · exact hb

theorem forM {γ : Type} {f : γ → Action σ Unit} (hf : ∀ x, Leaves P (f x)) (xs : List γ) :
    Leaves P (xs.forM f) := by
  induction xs with
  | nil => exact pure ()
  | cons x xs ih => exact bind (hf x) fun _ => ih

end Leaves

def Plain (m : Model) (d : Handler.Device) (a : Action σ α) : Prop := Leaves (Effect.Plain m d) a

namespace Plain

variable {m : Model} {d : Handler.Device}

@[simp] theorem pure (x : α) : Plain m d (Pure.pure x : Action σ α) := Leaves.pure x

@[simp] theorem device : Plain m d (Action.device : Action σ σ) := Leaves.device

@[simp] theorem update (f : σ → σ) : Plain m d (Action.update f) := Leaves.update f

@[simp] theorem fail (f : Fault) : Plain m d (Action.fail f : Action σ α) := Leaves.fail f

theorem note {n : Log.Notice} (hevent : n.event? = none) (hline : n.line? = none) :
    Plain m d (Action.note n : Action σ Unit) := Leaves.emit ⟨hevent, absurd hline⟩

theorem request {id : UInt32} (h : id ≠ 0) (delay : UInt32) :
    Plain m d (Action.request id delay : Action σ Unit) := Leaves.emit fun hid => absurd hid h

@[simp] theorem require (p : Prop) [Decidable p] (f : Fault) :
    Plain m d (Action.require p f : Action σ Unit) := Leaves.require p f

@[simp] theorem bind {a : Action σ α} {f : α → Action σ β} (ha : Plain m d a)
    (hf : ∀ x, Plain m d (f x)) : Plain m d (a >>= f) := Leaves.bind ha hf

@[simp] theorem map {a : Action σ α} (f : α → β) (ha : Plain m d a) : Plain m d (f <$> a) := by
  have h := bind ha fun x => pure (f x)
  rwa [bind_pure_comp] at h

@[simp] theorem ite_iff {p : Prop} [Decidable p] {a b : Action σ α} :
    Plain m d (if p then a else b) ↔ (p → Plain m d a) ∧ (¬ p → Plain m d b) := by
  split <;> simp [*]

/-- What follows a requirement may rely on it. -/
theorem require_bind {p : Prop} [Decidable p] {f : Fault} {a : Action σ α}
    (ha : p → Plain m d a) : Plain m d (Action.require p f >>= fun _ => a) := by
  unfold Action.require
  split
  · exact ha ‹p›
  · exact fun _ h => h

end Plain

/-- Each value that an action gives has a property. -/
def Gives (Q : α → Prop) (a : Action σ α) : Prop :=
  ∀ (s s' : Acting σ) (x : α), a s = .ok x s' → Q x

namespace Gives

variable {Q : α → Prop} {R : β → Prop}

theorem pure {x : α} (h : Q x) : Gives Q (Pure.pure x : Action σ α) := by
  intro s s' y hy
  cases hy
  exact h

theorem bind {a : Action σ β} {f : β → Action σ α} (ha : Gives R a)
    (hf : ∀ x, R x → Gives Q (f x)) : Gives Q (a >>= f) := by
  intro s s' y hy
  simp only [Bind.bind, EStateM.bind] at hy
  cases h : a s with
  | ok x middle =>
    rw [h] at hy
    exact hf x (ha s middle x h) middle s' y hy
  | error e middle =>
    rw [h] at hy
    cases hy

/-- What an action gives does not depend on what was given before. -/
theorem bind_last {a : Action σ β} {f : β → Action σ α} (hf : ∀ x, Gives Q (f x)) :
    Gives Q (a >>= f) :=
  bind (R := fun _ => True) (fun _ _ _ _ => trivial) fun x _ => hf x

theorem ite {p : Prop} [Decidable p] {a b : Action σ α} (ha : Gives Q a) (hb : Gives Q b) :
    Gives Q (if p then a else b) := by
  split
  · exact ha
  · exact hb

end Gives

/-- An action that keeps a property of its device. -/
def Keeps (I : σ → Prop) (a : Action σ α) : Prop :=
  ∀ s : Acting σ, I s.device → I (stateAfter a s).device

namespace Keeps

variable {I : σ → Prop}

theorem pure (x : α) : Keeps I (Pure.pure x : Action σ α) := fun _ h => h

theorem update {f : σ → σ} (hf : ∀ d, I d → I (f d)) : Keeps I (Action.update f) :=
  fun _ h => hf _ h

theorem note (n : Log.Notice) : Keeps I (Action.note n : Action σ Unit) := fun _ h => h

theorem request (id delay : UInt32) : Keeps I (Action.request id delay : Action σ Unit) :=
  fun _ h => h

theorem require (p : Prop) [Decidable p] (f : Fault) :
    Keeps I (Action.require p f : Action σ Unit) := by
  unfold Action.require
  split
  · exact pure ()
  · exact fun _ h => h

theorem bind {a : Action σ α} {f : α → Action σ β} (ha : Keeps I a) (hf : ∀ x, Keeps I (f x)) :
    Keeps I (a >>= f) := by
  intro s hs
  have hfirst := ha s hs
  rw [stateAfter] at hfirst
  rw [stateAfter_bind]
  cases h : a s with
  | ok x s' =>
    rw [h] at hfirst
    exact hf x s' hfirst
  | error e s' =>
    rw [h] at hfirst
    exact hfirst

/-- What an action sees of its device has the property. -/
theorem device_bind {f : σ → Action σ α} (hf : ∀ d, I d → Keeps I (f d)) :
    Keeps I (Action.device >>= f) := fun s hs => hf s.device hs s hs

theorem answer (c : Context) (addr value : UInt32) (remark : String) :
    Keeps I (c.answer addr value remark) := fun _ h => h

end Keeps

end Action

namespace Context

variable {σ : Type} {m : Model} {d : Handler.Device}

@[simp] theorem plain_traceRead (c : Context) (addr value : UInt32) (remark : String) :
    Action.Plain m d (c.traceRead addr value remark : Action σ Unit) := .note rfl rfl

@[simp] theorem plain_traceWrite (c : Context) (addr value : UInt32) (remark : String) :
    Action.Plain m d (c.traceWrite addr value remark : Action σ Unit) := .note rfl rfl

@[simp] theorem plain_answer (c : Context) (addr value : UInt32) (remark : String) :
    Action.Plain m d (c.answer addr value remark : Action σ UInt32) :=
  .bind (c.plain_traceRead addr value remark) fun _ => .pure value

end Context

end Bus

end Digic
