import Digic.Proofs.Interrupt.Countdown
import Digic.Proofs.Machine.CompareChannels
/-!
# Lines that are asked for

From outside, countdowns are moved by ticks and by requests. Whatever else happens to a machine
leaves all of them alone and delivers nothing, and so does a request for a line that does not exist.
-/
namespace Digic

open Bus Interrupt

def Bus.Effect.asked? : Effect → Option UInt32
  | .request id _ => some id
  | .note _ => none

namespace Machine

variable {κ δ : Type}

/-- Lines were asked for, and nothing else reached the interrupt controller: if none of the lines
exists, it is as it was. -/
structure Asks (s : Machine κ δ) (ids : List UInt32) (s' : Machine κ δ) : Prop where
  requests : s'.requests = s.requests ++ ids
  spares : (∀ id ∈ ids, lineCount ≤ id.toNat) →
    s'.interrupts = s.interrupts ∧ deliveries s'.events = deliveries s.events

theorem Asks.trans {s t u : Machine κ δ} {ids others : List UInt32} (h : s.Asks ids t)
    (h' : t.Asks others u) : s.Asks (ids ++ others) u where
  requests := by rw [h'.requests, h.requests, List.append_assoc]
  spares := by
    intro hall
    obtain ⟨hids, hothers⟩ := List.forall_mem_append.1 hall
    obtain ⟨hinterrupts, hdeliveries⟩ := h.spares hids
    obtain ⟨hinterrupts', hdeliveries'⟩ := h'.spares hothers
    exact ⟨hinterrupts'.trans hinterrupts, hdeliveries'.trans hdeliveries⟩

theorem Asks.of_eq {s s' : Machine κ δ} (hinterrupts : s'.interrupts = s.interrupts)
    (hevents : s'.events = s.events) : s.Asks [] s' where
  requests := by rw [Machine.requests, Machine.requests, hevents, List.append_nil]
  spares := fun _ => ⟨hinterrupts, congrArg Interrupt.deliveries hevents⟩

theorem interrupts_tell (s : Machine κ δ) (n : Log.Notice) :
    (s.tell n).interrupts = s.interrupts := by
  cases n <;> rfl

theorem asks_tell (s : Machine κ δ) {n : Log.Notice} (hn : n.event? = none) :
    s.Asks [] (s.tell n) := by
  refine .of_eq (s.interrupts_tell n) ?_
  rw [events_tell, hn]
  exact List.append_nil _

theorem asks_request (s : Machine κ δ) (id delay : UInt32) : s.Asks [id] (s.request id delay) where
  requests := s.requests_request id delay
  spares := by
    intro hnone
    have hlast : lineCount ≤ id.toNat := hnone id (List.mem_singleton_self id)
    have hrequest := Controller.request_of_le s.interrupts hlast delay
    have hasked : s.request id delay = s.tellEvents [.unknownRequest id] := by
      rw [request, hrequest]
    rw [hasked, interrupts_tellEvents, events_tellEvents, deliveries_append]
    exact ⟨rfl, List.append_nil _⟩

theorem asks_foldl_request (s : Machine κ δ) (ids : List UInt32) :
    s.Asks ids (ids.foldl (fun s id => s.request id 0) s) := by
  induction ids generalizing s with
  | nil => exact .of_eq rfl rfl
  | cons id ids ih => exact (s.asks_request id 0).trans (ih (s.request id 0))

theorem asks_foldl_absorb (s : Machine κ δ) {m : Model} {d : Handler.Device}
    {effects : List Effect} (h : ∀ e ∈ effects, e.Plain m d) :
    s.Asks (effects.filterMap Effect.asked?) (effects.foldl absorb s) := by
  induction effects generalizing s with
  | nil => exact .of_eq rfl rfl
  | cons e effects ih =>
    obtain ⟨hfirst, hrest⟩ := List.forall_mem_cons.1 h
    cases e with
    | note n => exact (s.asks_tell hfirst.1).trans (ih (s.tell n) hrest)
    | request id delay => exact (s.asks_request id delay).trans (ih (s.request id delay) hrest)

/-- A register file asks for lines by its effects. -/
theorem Acts.asks {α : Type} {m : Model} {d : Handler.Device}
    {a : EStateM Fault (Machine κ δ) α} {s : Machine κ δ} (h : Acts m d a s) :
    ∃ ids, s.Asks ids (stateAfter a s) := by
  obtain ⟨effects, t, hplain, hspares, -, hafter⟩ := h
  have hevents : t.events = s.events := by rw [events, events, hspares.journal]
  rw [hafter]
  exact ⟨_, (Asks.of_eq hspares.interrupts hevents).trans (t.asks_foldl_absorb hplain)⟩

theorem asks_noteUnclaimed (s : Machine κ δ) (addr : UInt32) (direction : Log.Direction)
    (value : UInt32) : s.Asks [] (s.noteUnclaimed addr direction value) := by
  have hlimiter : s.Asks [] { s with limiter := s.limiter.note addr } := .of_eq rfl rfl
  unfold noteUnclaimed
  dsimp only
  split
  · exact hlimiter.trans (asks_tell _ rfl)
  · exact hlimiter

theorem asks_matchChannels (s : Machine κ δ) : ∃ ids, s.Asks ids s.matchChannels := by
  have hlatch : s.Asks [] { s with time := s.time.latch } := .of_eq rfl rfl
  unfold matchChannels
  dsimp only
  split
  · exact ⟨_, hlatch.trans (asks_request _ _ 0)⟩
  · exact ⟨_, hlatch⟩

theorem asks_passCf [Cf.AtaDrive δ] (s : Machine κ δ) :
    ∃ ids, s.Asks ids (stateAfter passCf s) := by
  obtain ⟨asked, htransfers⟩ := (acts_transfers s.model s.model s).asks
  obtain ⟨ids, -, hafter⟩ := s.exists_passCf
  rw [hafter]
  exact ⟨_, htransfers.trans (asks_foldl_request _ ids)⟩

/-- A tick asks for lines when its pass over the countdowns is over. -/
theorem asks_tick [Cf.AtaDrive δ] (s : Machine κ δ) (h : s.cpu.halted = false) :
    ∃ ids, s.advanceTime.Asks ids (stateAfter tick s) := by
  obtain ⟨first, hfirst⟩ := s.advanceTime.asks_matchChannels
  obtain ⟨others, hothers⟩ := s.advanceTime.matchChannels.asks_passCf
  rw [tick, stateAfter_get_bind, if_neg (by simp [h]), stateAfter_modify_bind]
  exact ⟨_, hfirst.trans hothers⟩

end Machine

namespace Interrupt

def Operation.Still (op : Operation) : Prop :=
  op.isPass = false ∧ ∀ id : UInt32, op.asksFor id = false

namespace Controller

theorem deliveries_operate_of_still (timer : UInt32) (c : Controller) {op : Operation}
    (h : op.Still) : deliveries (c.operate timer op).2 = [] := by
  rw [List.eq_nil_iff_forall_not_mem]
  intro id hmem
  obtain ⟨rearm, rfl⟩ := exists_pass_of_mem_deliveries (h.2 id) hmem
  exact Bool.noConfusion h.1

theorem run_of_still (timer : UInt32) (c : Controller) {ops : List Operation}
    (h : ∀ op ∈ ops, op.Still) :
    (∀ id, (c.run timer ops).1.scheduled id = c.scheduled id) ∧
      deliveries (c.run timer ops).2 = [] := by
  induction ops generalizing c with
  | nil => exact ⟨fun _ => rfl, rfl⟩
  | cons op ops ih =>
    obtain ⟨hop, hops⟩ := List.forall_mem_cons.1 h
    obtain ⟨hscheduled, hnone⟩ := ih (c.operate timer op).1 hops
    rw [run_cons, deliveries_append, deliveries_operate_of_still timer c hop, hnone]
    refine ⟨fun id => ?_, rfl⟩
    exact (hscheduled id).trans (scheduled_operate_of_not_pass c (hop.2 id) hop.1)

end Controller

theorem still_readOperations (addr : UInt32) : ∀ op ∈ readOperations addr, op.Still := by
  rw [readOperations]
  split <;> simp [Operation.Still, Operation.isPass, Operation.asksFor]

theorem still_writeOperations (addr value : UInt32) :
    ∀ op ∈ writeOperations addr value, op.Still := by
  rw [writeOperations]
  split
  case h_2 => split <;> simp [Operation.Still, Operation.isPass, Operation.asksFor]
  all_goals simp [Operation.Still, Operation.isPass, Operation.asksFor]

theorem still_maskOperations (addr mask : UInt32) :
    ∀ op ∈ maskOperations addr mask, op.Still := by
  rw [maskOperations]
  split <;> simp [Operation.Still, Operation.isPass, Operation.asksFor]

end Interrupt

namespace Machine

variable {κ δ : Type}

/-- Nothing was delivered, and all countdowns are as they were. -/
structure Rests (s s' : Machine κ δ) : Prop where
  scheduled : ∀ id, s'.interrupts.scheduled id = s.interrupts.scheduled id
  deliveries : deliveries s'.events <+: deliveries s.events

theorem Asks.rests {s s' : Machine κ δ} {ids : List UInt32} (h : s.Asks ids s')
    (hnone : ∀ id ∈ ids, lineCount ≤ id.toNat) : s.Rests s' := by
  obtain ⟨hinterrupts, hdeliveries⟩ := h.spares hnone
  exact ⟨fun id => by rw [hinterrupts], hdeliveries ▸ List.prefix_rfl⟩

/-- What firmware does to the interrupt controller delivers nothing and moves no countdown. -/
theorem rests_actInterrupts {α : Type} {timer : UInt32} {ops : List Operation}
    {value : Controller → α} {a : Action Controller α} (h : Does timer ops value a)
    (hstill : ∀ op ∈ ops, op.Still) (s : Machine κ δ) :
    s.Rests (stateAfter (actInterrupts a) s) := by
  obtain ⟨hscheduled, hnone⟩ := Controller.run_of_still timer s.interrupts hstill
  obtain ⟨notes, hnotes, hact⟩ := actInterrupts_of_does h s
  rw [stateAfter, hact]
  constructor
  · intro id
    dsimp only
    rw [interrupts_tellEvents]
    exact hscheduled id
  · dsimp only
    rw [events_journal_append _ hnotes, events_tellEvents, deliveries_append, hnone,
      List.append_nil]
    exact List.prefix_rfl

theorem rests_readDevice [Cf.AtaDrive δ] (s : Machine κ δ) {w : Handler.Window}
    (h : w.kind.device = .interrupts) (addr : UInt32) :
    s.Rests (stateAfter (readDevice w.kind.device w addr) s) := by
  rcases kind_of_device_eq_interrupts h with hkind | hkind
  · rw [stateAfter_congr (readDevice_interrupts hkind addr s)]
    exact rests_actInterrupts (does_readRegister 0 _ addr) (still_readOperations addr) s
  · rw [stateAfter_congr (readDevice_masks hkind addr s)]
    exact rests_actInterrupts ((tells_answer _ addr 0 "").does 0) (by simp) s

theorem rests_writeDevice [Sd.SdCard κ] [Cf.AtaDrive δ] (s : Machine κ δ) {w : Handler.Window}
    (h : w.kind.device = .interrupts) (addr value : UInt32) :
    s.Rests (stateAfter (writeDevice w.kind.device w addr value) s) := by
  rcases kind_of_device_eq_interrupts h with hkind | hkind
  · rw [stateAfter_congr (writeDevice_interrupts hkind addr value s)]
    exact rests_actInterrupts (does_writeRegister 0 _ addr value)
      (still_writeOperations addr value) s
  · rw [stateAfter_congr (writeDevice_masks hkind addr value s)]
    exact rests_actInterrupts (does_writeMask 0 _ addr value) (still_maskOperations addr value) s

section Changes

variable [Sd.SdCard κ] [Cf.AtaDrive δ]

def askedBy (s : Machine κ δ) (c : Change κ δ) : List UInt32 :=
  (s.change c).requests.drop s.requests.length

def deliveredBy (s : Machine κ δ) (c : Change κ δ) : List UInt32 :=
  (deliveries (s.change c).events).drop (deliveries s.events).length

theorem Asks.askedBy {s : Machine κ δ} {c : Change κ δ} {ids : List UInt32}
    (h : s.Asks ids (s.change c)) : s.askedBy c = ids := by
  rw [Machine.askedBy, h.requests, List.drop_left]

theorem Rests.deliveredBy {s : Machine κ δ} {c : Change κ δ} (h : s.Rests (s.change c)) :
    s.deliveredBy c = [] :=
  List.drop_eq_nil_of_le h.deliveries.length_le

theorem asks_or_rests_access (s : Machine κ δ) (addr : UInt32) (direction : Log.Direction)
    (value : UInt32) : (∃ ids, s.Asks ids (stateAfter (access addr direction value) s)) ∨
      s.Rests (stateAfter (access addr direction value) s) := by
  rw [stateAfter_access]
  cases Handler.find? s.handlers addr with
  | none => exact .inl ⟨[], s.asks_noteUnclaimed addr direction value⟩
  | some h =>
    by_cases hdevice : h.kind.device = .interrupts
    · right
      cases direction with
      | read => exact s.rests_readDevice (w := h.toWindow) hdevice addr
      | write => exact s.rests_writeDevice (w := h.toWindow) hdevice addr value
    · left
      cases direction with
      | read => exact (acts_readDevice s.model hdevice h.toWindow addr s).asks
      | write => exact (acts_writeDevice hdevice h.toWindow addr value s).asks

/-- What is neither an access nor a tick reaches the interrupt controller by requests, and may take
the journal. -/
theorem asks_change (s : Machine κ δ) {c : Change κ δ} (hquiet : c.Quiet)
    (htake : c ≠ .takeJournal) : ∃ ids, s.Asks ids (s.change c) := by
  have houter {c : Change κ δ} (hc : c.Outer) : s.Asks [] (s.change c) := by
    refine change_of_outer ?_ (fun t n hn _ ht => ht.trans (t.asks_tell hn)) (.of_eq rfl rfl) hc
    intro t u hinterrupts _ hjournal ht
    exact ht.trans (.of_eq hinterrupts (by rw [events, events, hjournal]))
  cases c with
  | step st =>
    cases st with
    | access => exact hquiet.elim
    | tick => exact hquiet.elim
    | request id delay => exact ⟨_, s.asks_request id delay⟩
    | _ => exact ⟨_, houter trivial⟩
  | offer b => exact ⟨[], .of_eq rfl rfl⟩
  | clearConsole => exact ⟨[], .of_eq rfl rfl⟩
  | takeJournal => exact absurd rfl htake
  | _ => exact ⟨_, houter trivial⟩

/-- What neither is a tick nor asks for a line delivers nothing and moves no countdown. -/
theorem rests_change (s : Machine κ δ) {c : Change κ δ} (htick : (s.moveOf c).isTick = false)
    (hasked : ∀ id ∈ s.askedBy c, lineCount ≤ id.toNat) : s.Rests (s.change c) := by
  have hcase : (∃ ids, s.Asks ids (s.change c)) ∨ s.Rests (s.change c) := by
    by_cases hquiet : c.Quiet
    · by_cases htake : c = .takeJournal
      · subst htake
        exact .inr ⟨fun _ => rfl, List.nil_prefix⟩
      · exact .inl (s.asks_change hquiet htake)
    · obtain ⟨addr, direction, value, rfl⟩ | rfl := Change.of_not_quiet hquiet
      · exact s.asks_or_rests_access addr direction value
      · have hhalted : s.cpu.halted = true := by
          by_contra h
          rw [moveOf, if_neg h] at htick
          exact Bool.noConfusion htick
        have hsame : s.change (.step .tick) = s := by
          change stateAfter tick s = s
          rw [tick, stateAfter_get_bind, if_pos hhalted]
          rfl
        rw [hsame]
        exact .inr ⟨fun _ => rfl, List.prefix_rfl⟩
  rcases hcase with ⟨ids, hids⟩ | hrests
  · exact hids.rests (hids.askedBy ▸ hasked)
  · exact hrests

end Changes

end Machine

end Digic
