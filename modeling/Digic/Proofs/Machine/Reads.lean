import Digic.Proofs.Bus.Bounds
import Digic.Proofs.Bus.Observation
import Digic.Proofs.Handler.Windows
import Digic.Proofs.Machine.Faults
/-!
# What reads change

A read gives a value, and is told of. With the standard handler table the reads that change more
than the journal can be told by address and state.
-/
namespace Digic

open Bus

namespace Machine

variable {κ δ : Type}

/-- A computation that ends well, with nothing changed but the journal. -/
def Observes {α : Type} (a : EStateM Fault (Machine κ δ) α) (s : Machine κ δ) : Prop :=
  ∃ (x : α) (notes : List Log.Notice), a s = .ok x { s with journal := s.journal ++ notes }

/-- What a device tells is all that there is to see of a read that only looks. -/
theorem observes_act {σ α : Type} {get : Machine κ δ → σ} {set : Machine κ δ → σ → Machine κ δ}
    {a : Action σ α} {s : Machine κ δ} (h : a.Observes ⟨get s, #[]⟩) (hset : set s (get s) = s) :
    Observes (act get set a) s := by
  obtain ⟨x, notes, hnotes, ha⟩ := h
  refine ⟨x, notes, ?_⟩
  have htold := foldl_absorb_plain s hnotes
  simp only [act, ha, hset]
  simpa using htold

/-- A read through a window that does more than to look. -/
def Disturbed (s : Machine κ δ) (w : Handler.Window) (addr : UInt32) : Prop :=
  match w.kind with
  | .interrupts => ∃ shift, Interrupt.Register.ofAddress addr = .reason shift
  | .rom => s.flash.commands = true ∧
    ∃ b, s.flash.get? w.param.toNat = some b ∧ b.state = .eraseBusy
  | .cfAta => Cf.Register.ofAddress addr = .data ∨ ∃ n, Cf.Register.ofAddress addr = .taskFile n
  | .gpio => Board.Gpio.isToggle (addr &&& 0xFFFF) ∧ ¬ Board.isLedAddress s.model addr
  | .edmacSwitch => True
  | _ => False

def interruptRanges : List (UInt32 × UInt32 × UInt32) :=
  [(0xC0201000, 0xC0201FFF, 0), (0xD4011000, 0xD4011FFF, 1)]

def romRanges : List (UInt32 × UInt32 × UInt32) :=
  [(0xF8000000, 0xFFFFFFFF, 0), (0xF0000000, 0xF7FFFFFF, 1)]

def cfAtaRanges : List (UInt32 × UInt32 × UInt32) :=
  [(0xC0600000, 0xC060FFFF, 0), (0xC0620000, 0xC062FFFF, 2)]

/-- The reads that do more than to look, in a machine with the standard handler table. -/
inductive Disturbs (s : Machine κ δ) (addr : UInt32) : Prop where
  /-- To read which line is in service drops it from service. -/
  | reason {low high number : UInt32} :
    (low, high, number) ∈ interruptRanges → low ≤ addr → addr ≤ high →
    addr &&& 0xFFF = 0x000 ∨ addr &&& 0xFFF = 0x004 → Disturbs s addr
  /-- A bank that is erasing a block counts the reads of its status. -/
  | erasing {low high number : UInt32} {b : Flash.Bank} :
    (low, high, number) ∈ romRanges → low ≤ addr → addr ≤ high → s.flash.commands = true →
    s.flash.get? number.toNat = some b → b.state = .eraseBusy → Disturbs s addr
  /-- A drive sees each access to its task file. -/
  | taskFile {low high number : UInt32} :
    (low, high, number) ∈ cfAtaRanges → low ≤ addr → addr ≤ high →
    (0x21F0 ≤ addr &&& 0xFFFF ∧ addr &&& 0xFFFF ≤ 0x21F7) ∨
      (0x2000 ≤ addr &&& 0xFFFF ∧ addr &&& 0xFFFF ≤ 0x2007) → Disturbs s addr
  /-- The alternating lines change when they are read, unless the card lamp is in their place. -/
  | toggle : 0xC0220000 ≤ addr → addr ≤ 0xC022FFFF →
    addr &&& 0xFFFF = 0xF100 ∨ addr &&& 0xFFFF = 0xF198 → s.model.cardLedAddress ≠ some addr →
    Disturbs s addr
  /-- The switch of image DMA refuses to be read. -/
  | switch : 0xC0F05000 ≤ addr → addr ≤ 0xC0F05FFF → Disturbs s addr
  /-- Accesses that nobody claims are counted. -/
  | unclaimed : (∀ h ∈ Handler.standardTable, ¬ (h.low ≤ addr ∧ addr ≤ h.high)) → Disturbs s addr

theorem offset_of_reason {addr shift : UInt32}
    (h : Interrupt.Register.ofAddress addr = .reason shift) :
    addr &&& 0xFFF = 0x000 ∨ addr &&& 0xFFF = 0x004 := by
  unfold Interrupt.Register.ofAddress at h
  split at h
  · exact .inl ‹_›
  · exact .inr ‹_›
  all_goals cases h

theorem offset_of_taskFile {addr : UInt32}
    (h : Cf.Register.ofAddress addr = .data ∨ ∃ n, Cf.Register.ofAddress addr = .taskFile n) :
    (0x21F0 ≤ addr &&& 0xFFFF ∧ addr &&& 0xFFFF ≤ 0x21F7) ∨
      (0x2000 ≤ addr &&& 0xFFFF ∧ addr &&& 0xFFFF ≤ 0x2007) := by
  unfold Cf.Register.ofAddress at h
  dsimp only at h
  simp only [UInt32.le_iff_toNat_le, ← UInt32.toNat_inj, UInt32.toNat_ofNat] at h ⊢
  rcases h with h | ⟨n, h⟩
  · split_ifs at h with hready henable hstatus hdata
    omega
  · split_ifs at h with hready henable hstatus hdata hfile
    omega

/-- By the standard table, the reads that are disturbed are those of these kinds. -/
theorem disturbs_of_disturbed {s : Machine κ δ} {addr : UInt32} {h : Handler.Entry}
    (hfind : Handler.find? Handler.standardTable addr = some h)
    (hdisturbed : s.Disturbed h.toWindow addr) : s.Disturbs addr := by
  have hinterrupts := Handler.claimed_iff Handler.leads_interrupts addr fun _ => True
  have hrom := Handler.claimed_iff Handler.leads_rom addr fun number =>
    ∃ b, s.flash.get? number.toNat = some b ∧ b.state = .eraseBusy
  have hcfAta := Handler.claimed_iff Handler.leads_cfAta addr fun _ => True
  have hgpio := Handler.claimed_iff Handler.leads_gpio addr fun _ => True
  have hswitch := Handler.claimed_iff Handler.leads_edmacSwitch addr fun _ => True
  rw [Handler.windows_interrupts] at hinterrupts
  rw [Handler.windows_rom] at hrom
  rw [Handler.windows_cfAta] at hcfAta
  rw [Handler.windows_gpio] at hgpio
  rw [Handler.windows_edmacSwitch] at hswitch
  simp only [and_true] at hinterrupts hcfAta hgpio hswitch
  unfold Disturbed at hdisturbed
  cases hkind : h.kind
  all_goals simp only [hkind] at hdisturbed
  case interrupts =>
    obtain ⟨shift, hreason⟩ := hdisturbed
    obtain ⟨w, hw, hlow, hhigh⟩ := hinterrupts.1 ⟨h, hfind, hkind⟩
    exact .reason hw hlow hhigh (offset_of_reason hreason)
  case rom =>
    obtain ⟨hcommands, hbusy⟩ := hdisturbed
    obtain ⟨w, hw, hlow, hhigh, b, hget, hstate⟩ := hrom.1 ⟨h, hfind, hkind, hbusy⟩
    exact .erasing hw hlow hhigh hcommands hget hstate
  case cfAta =>
    obtain ⟨w, hw, hlow, hhigh⟩ := hcfAta.1 ⟨h, hfind, hkind⟩
    exact .taskFile hw hlow hhigh (offset_of_taskFile hdisturbed)
  case gpio =>
    obtain ⟨htoggle, hled⟩ := hdisturbed
    obtain ⟨w, hw, hlow, hhigh⟩ := hgpio.1 ⟨h, hfind, hkind⟩
    cases List.mem_singleton.1 hw
    refine .toggle hlow hhigh ?_ ?_
    · simpa [Board.Gpio.isToggle] using htoggle
    · simpa [Board.isLedAddress] using hled
  case edmacSwitch =>
    obtain ⟨w, hw, hlow, hhigh⟩ := hswitch.1 ⟨h, hfind, hkind⟩
    cases List.mem_singleton.1 hw
    exact .switch hlow hhigh

/-- An access that nobody claims is counted, and the first of a run are told of. -/
theorem noteUnclaimed_eq (s : Machine κ δ) (addr : UInt32) (direction : Log.Direction)
    (value : UInt32) : ∃ notes : List Log.Notice, s.noteUnclaimed addr direction value =
      { s with limiter := s.limiter.note addr, journal := s.journal ++ notes } := by
  unfold noteUnclaimed
  dsimp only
  split
  · exact ⟨[.unclaimed s.cpu.pc addr direction value], by simp [tell]⟩
  · exact ⟨[], by simp⟩

variable [Cf.AtaDrive δ]

theorem observes_readDevice {s : Machine κ δ} {w : Handler.Window} {addr : UInt32}
    (hdisturbed : ¬ s.Disturbed w addr)
    (hblock : w.kind.device = .edmac → Edmac.channelOf w.param addr < Edmac.channelCount) :
    Observes (readDevice w.kind.device w addr) s := by
  unfold Disturbed at hdisturbed
  rw [Observes, readDevice, get_bind_apply]
  cases hkind : w.kind
  all_goals simp only [hkind] at hdisturbed hblock
  case flashGate => exact observes_act (Flash.Gate.observes_read _ addr _) rfl
  case rom =>
    refine observes_act (Flash.observes_read _ addr _ fun b hget hcommands hbusy => ?_) rfl
    exact hdisturbed ⟨hcommands, b, hget, hbusy⟩
  case interrupts =>
    refine observes_act (Interrupt.observes_read _ addr _ fun _ shift hreason => ?_) rfl
    exact hdisturbed ⟨shift, hreason⟩
  case interruptMasks =>
    exact observes_act (Interrupt.observes_read _ addr _ fun hmasks => absurd hkind hmasks) rfl
  case timers => exact observes_act (Timer.observes_read _ addr _) rfl
  case clock => exact observes_act (Timer.observes_read _ addr _) rfl
  case compare => exact observes_act (Timer.observes_readCompare _ addr _) rfl
  case dma => exact observes_act (Dma.observes_read _ addr _) rfl
  case edmac =>
    have hswitch : w.kind ≠ .edmacSwitch := by simp [hkind]
    exact observes_act (Edmac.observes_read _ addr _ hswitch (hblock rfl)) rfl
  case edmacSwitch => exact absurd trivial hdisturbed
  case sdHost => exact observes_act (Sd.observes_read _ addr _) rfl
  case sdDma => exact observes_act (Sd.observes_read _ addr _) rfl
  case cfDma =>
    refine observes_act (Cf.observes_read _ addr _ ?_ ?_) rfl
    · exact fun hdma => absurd hkind hdma
    · exact fun hdma => absurd hkind hdma
  case cfAta =>
    rw [not_or, not_exists] at hdisturbed
    exact observes_act
      (Cf.observes_read _ addr _ (fun _ => hdisturbed.1) fun _ => hdisturbed.2) rfl
  case display => exact observes_act (Display.observes_read _ addr _) rfl
  case console => exact observes_act (Console.observes_read _ addr _) rfl
  case basic => exact observes_act (Board.Basic.observes_read _ addr _) rfl
  case power => exact observes_act (Board.Power.observes_read _ addr _) rfl
  case gpio =>
    refine observes_act (Board.Gpio.observes_read _ _ fun htoggle => ?_) rfl
    by_contra hled
    exact hdisturbed ⟨htoggle, hled⟩
  case digic6 => exact observes_act (Board.Digic6.observes_read _ addr _) rfl
  case imageEngine => exact observes_act (Board.ImageEngine.observes_read _ addr _) rfl

variable [Sd.SdCard κ]

/-- In a machine with the standard handler table, whatever its state, a read changes nothing but the
journal unless it is of one of six kinds. Of these, a read that nobody claims is counted, and a read
of the switch of image DMA is refused. -/
theorem read_changes_nothing {s : Machine κ δ} (htable : s.handlers = Handler.standardTable)
    (addr : UInt32) :
    (¬ s.Disturbs addr → ∃ (value : UInt32) (notes : List Log.Notice),
      read addr s = .ok value { s with journal := s.journal ++ notes }) ∧
    ((∀ h ∈ Handler.standardTable, ¬ (h.low ≤ addr ∧ addr ≤ h.high)) →
      ∃ notes : List Log.Notice, read addr s =
        .ok 0 { s with limiter := s.limiter.note addr, journal := s.journal ++ notes }) ∧
    (0xC0F05000 ≤ addr → addr ≤ 0xC0F05FFF → ∃ (fault : Fault) (notes : List Log.Notice),
      read addr s = .error fault { s with journal := s.journal ++ notes }) := by
  have hclaimed : Handler.find? Handler.standardTable addr = none ↔
      ∀ h ∈ Handler.standardTable, ¬ (h.low ≤ addr ∧ addr ≤ h.high) := by
    rw [Handler.find?, List.find?_eq_none]
    simp only [Handler.Entry.contains_iff]
  have hblock (h : Handler.Entry) (hfind : Handler.find? Handler.standardTable addr = some h)
      (hdevice : h.kind.device = .edmac) :
      Edmac.channelOf h.param addr < Edmac.channelCount :=
    Edmac.channelOf_lt h (List.mem_of_find?_eq_some hfind) hdevice addr
  refine ⟨fun hquiet => ?_, fun hnone => ?_, fun hlow hhigh => ?_⟩
  · cases hfind : Handler.find? Handler.standardTable addr with
    | none => exact absurd (.unclaimed (hclaimed.1 hfind)) hquiet
    | some h =>
      have hdisturbed : ¬ s.Disturbed h.toWindow addr :=
        fun hd => hquiet (disturbs_of_disturbed hfind hd)
      rw [read_of_claimed (htable ▸ hfind)]
      exact observes_readDevice hdisturbed (hblock h hfind)
  · obtain ⟨notes, hnotes⟩ := s.noteUnclaimed_eq addr .read 0
    exact ⟨notes, by rw [read_of_unclaimed (htable ▸ hclaimed.2 hnone), hnotes]⟩
  · have hswitch := Handler.claimed_iff Handler.leads_edmacSwitch addr fun _ => True
    rw [Handler.windows_edmacSwitch] at hswitch
    obtain ⟨h, hfind, hkind, -⟩ := hswitch.2 ⟨_, List.mem_singleton_self _, hlow, hhigh, trivial⟩
    rw [read_of_claimed (htable ▸ hfind)]
    exact (s.refuses_readDevice h.toWindow addr 0 (hblock h hfind)).refuses hkind

/-- A register of the card lamp in the place of an alternating line is read without a change. -/
theorem read_changes_nothing_lamp :
    let s : Machine Empty Empty := ofModel { Model.standard with cardLedAddress := some 0xC022F100 }
    s.handlers = Handler.standardTable ∧ ¬ s.Disturbs 0xC022F100 ∧
      ∃ (value : UInt32) (notes : List Log.Notice),
        read 0xC022F100 s = .ok value { s with journal := s.journal ++ notes } := by
  intro s
  have hquiet : ¬ s.Disturbs 0xC022F100 := by
    have hoff (ranges : List (UInt32 × UInt32 × UInt32))
        (houtside : ranges.any (fun r => r.1 ≤ 0xC022F100 && 0xC022F100 ≤ r.2.1) = false)
        {low high number : UInt32} (hmem : (low, high, number) ∈ ranges) (hlow : low ≤ 0xC022F100)
        (hhigh : 0xC022F100 ≤ high) : False := by
      have hboth := List.any_eq_false.1 houtside _ hmem
      simp [hlow, hhigh] at hboth
    intro h
    cases h with
    | reason hmem hlow hhigh => exact hoff interruptRanges (by decide) hmem hlow hhigh
    | erasing hmem hlow hhigh => exact hoff romRanges (by decide) hmem hlow hhigh
    | taskFile hmem hlow hhigh => exact hoff cfAtaRanges (by decide) hmem hlow hhigh
    | toggle _ _ _ hlamp => exact hlamp rfl
    | switch hlow _ => exact absurd hlow (by decide)
    | unclaimed hnone => exact absurd hnone (by decide +kernel)
  exact ⟨rfl, hquiet, (read_changes_nothing rfl 0xC022F100).1 hquiet⟩

end Machine

end Digic
