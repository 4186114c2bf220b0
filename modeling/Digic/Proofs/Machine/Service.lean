import Digic.Machine.Tick
import Digic.Proofs.Bus.Plain
import Digic.Proofs.Interrupt.Delivery
/-!
# What is in service, seen from outside

Of a whole machine only four things matter for the course of interrupts: the line in service, the
level of the processor's interrupt line, how often it was raised, and which lines were delivered.
Everything but the registers of the interrupt controller moves them in one way: it delivers one line
while nothing is in service, or it leaves them alone.
-/
namespace Digic

open Bus Interrupt

/-- The course of interrupts up to a point. -/
structure Service where
  /-- The line in service; zero if there is none. -/
  active : UInt32
  /-- The level of the processor's interrupt line. -/
  line : Bool
  raises : Nat
  delivered : List UInt32
  deriving DecidableEq, Repr

namespace Service

def deliver (v : Service) (id : UInt32) : Service :=
  ⟨id, true, v.raises + 1, v.delivered ++ [id]⟩

/-- Nothing is in service, and the processor's line is low. -/
def release (v : Service) : Service := { v with active := 0, line := false }

/-- Nothing is in service, and the processor's line is as it was. -/
def dismiss (v : Service) : Service := { v with active := 0 }

/-- One delivery to a free processor, or nothing at all. -/
inductive Delivers (v : Service) : Service → Prop where
  | nothing : Delivers v v
  | line (id : UInt32) : v.active = 0 → id ≠ 0 → id.toNat < lineCount → Delivers v (v.deliver id)

theorem Delivers.trans {v w x : Service} (h : Delivers v w) (h' : Delivers w x) :
    Delivers v x := by
  cases h with
  | nothing => exact h'
  | line id hfree hne hlt =>
    -- The line is in service now, so that nothing else can be delivered.
    cases h' with
    | nothing => exact .line id hfree hne hlt
    | line other hbusy => exact absurd hbusy hne

end Service

namespace Machine

variable {κ δ : Type}

def events (s : Machine κ δ) : List Event := s.journal.toList.filterMap Log.Notice.event?

/-- The course of interrupts that the journal and the state tell of. -/
def service (s : Machine κ δ) : Service :=
  ⟨s.interrupts.active, s.cpu.line, s.cpu.raises, deliveries s.events⟩

/-- What changes nothing that accesses are decoded by, and no more of the course of interrupts than
one delivery. -/
structure Delivers (s s' : Machine κ δ) : Prop where
  model : s'.model = s.model
  handlers : s'.handlers = s.handlers
  service : s.service.Delivers s'.service

theorem Delivers.refl (s : Machine κ δ) : s.Delivers s := ⟨rfl, rfl, .nothing⟩

theorem Delivers.trans {s t u : Machine κ δ} (h : s.Delivers t) (h' : t.Delivers u) :
    s.Delivers u :=
  ⟨h'.model.trans h.model, h'.handlers.trans h.handlers, h.service.trans h'.service⟩

theorem Delivers.of_service_eq {s s' : Machine κ δ} (hm : s'.model = s.model)
    (hh : s'.handlers = s.handlers) (hv : s'.service = s.service) : s.Delivers s' :=
  ⟨hm, hh, hv ▸ .nothing⟩

@[simp] theorem model_tell (s : Machine κ δ) (n : Log.Notice) : (s.tell n).model = s.model := by
  cases n <;> rfl

@[simp] theorem handlers_tell (s : Machine κ δ) (n : Log.Notice) :
    (s.tell n).handlers = s.handlers := by
  cases n <;> rfl

theorem events_tell (s : Machine κ δ) (n : Log.Notice) :
    (s.tell n).events = s.events ++ n.event?.toList := by
  have hjournal : (s.tell n).journal = s.journal.push n := by cases n <;> rfl
  rw [events, events, hjournal, Array.toList_push, List.filterMap_append]
  cases n <;> rfl

theorem events_tellEvents (s : Machine κ δ) (events : List Event) :
    (s.tellEvents events).events = s.events ++ events := by
  induction events generalizing s with
  | nil => exact (List.append_nil _).symm
  | cons e events ih =>
    have hfirst : (s.tell (.interrupt e)).events = s.events ++ [e] := s.events_tell _
    exact (ih (s.tell (.interrupt e))).trans (by rw [hfirst, List.append_assoc]; rfl)

theorem service_tell_of_event?_eq_none (s : Machine κ δ) {n : Log.Notice}
    (h : n.event? = none) : (s.tell n).service = s.service := by
  have hevents : (s.tell n).events = s.events := by
    rw [events_tell, h]
    exact List.append_nil _
  rw [service, service, hevents]
  cases n <;> first | rfl | cases h

theorem service_tell_of_isSilent (s : Machine κ δ) {e : Event} (h : e.IsSilent) :
    (s.tell (.interrupt e)).service = s.service := by
  have hevents : deliveries (s.tell (.interrupt e)).events = deliveries s.events := by
    rw [events_tell, deliveries_append]
    simp [Log.Notice.event?, deliveries, h.1]
  have hcpu : (s.tell (.interrupt e)).cpu = s.cpu := h.take s.cpu
  rw [service, service, hevents, hcpu]
  rfl

/-- Telling of a release lowers the processor's line. -/
theorem service_tell_released (s : Machine κ δ) :
    (s.tell (.interrupt .released)).service = { s.service with line := false } := by
  have hevents : deliveries (s.tell (.interrupt .released)).events = deliveries s.events := by
    rw [events_tell, deliveries_append]
    exact List.append_nil _
  rw [service, hevents]
  rfl

/-- Telling of a delivery raises the processor's line once more. -/
theorem service_tell_of_delivery (s : Machine κ δ) {e : Event} {id : UInt32}
    (h : e.delivery? = some id) :
    (s.tell (.interrupt e)).service =
      ⟨s.interrupts.active, true, s.cpu.raises + 1, deliveries s.events ++ [id]⟩ := by
  have hevents : deliveries (s.tell (.interrupt e)).events = deliveries s.events ++ [id] := by
    rw [events_tell, deliveries_append]
    simp [Log.Notice.event?, deliveries, h]
  rw [service, hevents]
  cases e with
  | delivered => rfl
  | serviced => rfl
  | released => cases h
  | deferred => cases h
  | unknownRequest => cases h
  | unknownEnable => cases h

/-- To tell of events moves the processor's line as they say, and nothing else. -/
theorem tellEvents_eq (s : Machine κ δ) (events : List Event) :
    s.tellEvents events = { s with
      cpu := events.foldl Cpu.take s.cpu
      journal := s.journal ++ events.map Log.Notice.interrupt } := by
  induction events generalizing s with
  | nil => simp [tellEvents]
  | cons e events ih =>
    refine (ih (s.tell (.interrupt e))).trans ?_
    simp [tell]

@[simp] theorem model_tellEvents (s : Machine κ δ) (events : List Event) :
    (s.tellEvents events).model = s.model := by
  rw [tellEvents_eq]

@[simp] theorem handlers_tellEvents (s : Machine κ δ) (events : List Event) :
    (s.tellEvents events).handlers = s.handlers := by
  rw [tellEvents_eq]

theorem interrupts_tellEvents (s : Machine κ δ) (events : List Event) :
    (s.tellEvents events).interrupts = s.interrupts := by
  rw [tellEvents_eq]

theorem service_tellEvents_of_isSilent (s : Machine κ δ) {events : List Event}
    (h : ∀ e ∈ events, e.IsSilent) : (s.tellEvents events).service = s.service := by
  induction events generalizing s with
  | nil => rfl
  | cons e events ih =>
    have hfirst : (s.tell (.interrupt e)).service = s.service :=
      s.service_tell_of_isSilent (h e List.mem_cons_self)
    exact (ih _ fun e he => h e (List.mem_cons_of_mem _ he)).trans hfirst

/-- What the controller takes into service arrives at the processor once it is told. -/
theorem Delivers.of_takes {s t : Machine κ δ} {events : List Event} (hm : t.model = s.model)
    (hh : t.handlers = s.handlers) (hcpu : t.cpu = s.cpu) (hj : t.journal = s.journal)
    (h : s.interrupts.Takes t.interrupts events) : s.Delivers (t.tellEvents events) := by
  have hevents : t.events = s.events := by rw [Machine.events, hj, Machine.events]
  refine ⟨(t.model_tellEvents events).trans hm, (t.handlers_tellEvents events).trans hh, ?_⟩
  cases h with
  | nothing hsame hsilent =>
    have hservice : (t.tellEvents events).service = s.service := by
      rw [service_tellEvents_of_isSilent t hsilent, Machine.service, Machine.service, hsame, hcpu,
        hevents]
    exact hservice ▸ .nothing
  | line id hfree hne hlt hline hone =>
    have hservice : (t.tellEvents events).service = s.service.deliver id := by
      obtain ⟨e, rfl, he⟩ : ∃ e : Event, events = [e] ∧ e.delivery? = some id := by
        rcases hone with rfl | rfl
        · exact ⟨_, rfl, rfl⟩
        · exact ⟨_, rfl, rfl⟩
      have htell := service_tell_of_delivery t he
      rw [hline, hcpu, hevents] at htell
      exact htell
    exact hservice ▸ .line id hfree hne hlt

theorem delivers_request (s : Machine κ δ) {id : UInt32} (hid : id ≠ 0) (delay : UInt32) :
    s.Delivers (s.request id delay) :=
  .of_takes rfl rfl rfl rfl (s.interrupts.takes_request hid delay)

theorem delivers_absorb (s : Machine κ δ) {m : Model} (htimer : m.timerInterrupt ≠ 0)
    {d : Handler.Device} {e : Effect} (h : e.Plain m d) : s.Delivers (s.absorb e) := by
  cases e with
  | note n =>
    exact .of_service_eq (s.model_tell n) (s.handlers_tell n)
      (service_tell_of_event?_eq_none s h.1)
  | request id delay =>
    have hid : id ≠ 0 := fun hid => htimer ((h hid).symm.trans hid)
    exact s.delivers_request hid delay

/-- What is only told goes to the journal. -/
theorem foldl_absorb_plain (s : Machine κ δ) {notes : List Log.Notice}
    (h : ∀ e ∈ notes, e.event? = none) :
    (notes.map Effect.note).foldl absorb s = { s with journal := s.journal ++ notes } := by
  induction notes generalizing s with
  | nil => simp
  | cons e notes ih =>
    have htell : s.absorb (.note e) = { s with journal := s.journal.push e } := by
      have he := h e (by simp)
      cases e <;> first | rfl | cases he
    simp [htell, ih _ fun e he => h e (by simp [he])]

theorem events_journal_append (s : Machine κ δ) {notes : List Log.Notice}
    (h : ∀ n ∈ notes, n.event? = none) :
    ({ s with journal := s.journal ++ notes } : Machine κ δ).events = s.events := by
  rw [events, events, Array.toList_appendList, List.filterMap_append,
    List.filterMap_eq_nil_iff.2 h, List.append_nil]

theorem service_journal_append (s : Machine κ δ) {notes : List Log.Notice}
    (h : ∀ n ∈ notes, n.event? = none) :
    ({ s with journal := s.journal ++ notes } : Machine κ δ).service = s.service := by
  rw [service, events_journal_append s h]
  rfl

theorem delivers_foldl_absorb (s : Machine κ δ) {m : Model} (htimer : m.timerInterrupt ≠ 0)
    {d : Handler.Device} {effects : List Effect} (h : ∀ e ∈ effects, e.Plain m d) :
    s.Delivers (effects.foldl absorb s) := by
  induction effects generalizing s with
  | nil => exact .refl s
  | cons e effects ih =>
    have hfirst : s.Delivers (s.absorb e) := s.delivers_absorb htimer (h e List.mem_cons_self)
    exact hfirst.trans (ih _ fun e he => h e (List.mem_cons_of_mem _ he))

theorem delivers_foldl_request (s : Machine κ δ) {ids : List UInt32} (h : ∀ id ∈ ids, id ≠ 0) :
    s.Delivers (ids.foldl (fun s id => s.request id 0) s) := by
  induction ids generalizing s with
  | nil => exact .refl s
  | cons id ids ih =>
    have hfirst : s.Delivers (s.request id 0) := s.delivers_request (h id List.mem_cons_self) 0
    exact hfirst.trans (ih _ fun i hi => h i (List.mem_cons_of_mem _ hi))

/-- After a device has acted, its effects are brought about in order. -/
theorem stateAfter_act {σ α : Type} (get : Machine κ δ → σ) (set : Machine κ δ → σ → Machine κ δ)
    (a : Action σ α) (s : Machine κ δ) :
    stateAfter (act get set a) s =
      (stateAfter a ⟨get s, #[]⟩).effects.toList.foldl absorb
        (set s (stateAfter a ⟨get s, #[]⟩).device) := by
  rw [Array.foldl_toList]
  simp only [stateAfter, act]
  cases a ⟨get s, #[]⟩ with
  | ok value after => rfl
  | error fault after => rfl

end Machine

end Digic
