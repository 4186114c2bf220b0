import Digic.Proofs.Bus.Bounds
import Digic.Proofs.Bus.Refusals
import Digic.Proofs.Machine.Reachable
/-!
# Accesses that end in a fault

An access ends well unless a device refuses it, and one that is refused has changed nothing: no
register file, no memory, neither card nor drive. With the standard handler table four kinds of
access are refused, and they can be told by address, value and state.
-/
namespace Digic

open Bus

namespace Machine

variable {κ δ : Type}

/-- A computation that ends in a fault under a condition, with nothing changed but the journal, and
otherwise ends well. -/
structure RefusesIff {α : Type} (p : Prop) (a : EStateM Fault (Machine κ δ) α)
    (s : Machine κ δ) : Prop where
  refuses : p → ∃ (f : Fault) (notes : List Log.Notice),
    a s = .error f { s with journal := s.journal ++ notes }
  accepts : ¬ p → ∃ x t, a s = .ok x t

namespace RefusesIff

variable {α β : Type} {p q : Prop} {a : EStateM Fault (Machine κ δ) α} {s : Machine κ δ}

theorem congr (h : RefusesIff p a s) (hpq : p ↔ q) : RefusesIff q a s :=
  ⟨fun hq => h.refuses (hpq.2 hq), fun hq => h.accepts fun hp => hq (hpq.1 hp)⟩

theorem of_ok {x : α} {t : Machine κ δ} (h : a s = .ok x t) (hp : ¬ p) : RefusesIff p a s :=
  ⟨fun h => (hp h).elim, fun _ => ⟨x, t, h⟩⟩

theorem get_bind {f : Machine κ δ → EStateM Fault (Machine κ δ) α} (h : RefusesIff p (f s) s) :
    RefusesIff p (get >>= f) s := ⟨h.refuses, h.accepts⟩

/-- To give something else in the end changes nothing. -/
theorem bind_pure (h : RefusesIff p a s) (y : β) : RefusesIff p (a >>= fun _ => pure y) s := by
  refine ⟨fun hp => ?_, fun hp => ?_⟩
  · obtain ⟨f, notes, ha⟩ := h.refuses hp
    exact ⟨f, notes, by simp only [Bind.bind, EStateM.bind, ha]⟩
  · obtain ⟨x, t, ha⟩ := h.accepts hp
    exact ⟨y, t, by rw [bind_of_ok ha]; rfl⟩

theorem error_iff (h : RefusesIff p a s) : (∃ f t, a s = .error f t) ↔ p := by
  constructor
  · rintro ⟨f, t, hfault⟩
    by_contra hp
    obtain ⟨x, t', hok⟩ := h.accepts hp
    rw [hfault] at hok
    cases hok
  · intro hp
    obtain ⟨f, notes, ha⟩ := h.refuses hp
    exact ⟨f, _, ha⟩

theorem eq_of_error (h : RefusesIff p a s) {f : Fault} {t : Machine κ δ}
    (hfault : a s = .error f t) :
    ∃ notes : List Log.Notice, t = { s with journal := s.journal ++ notes } := by
  obtain ⟨f', notes, ha⟩ := h.refuses (h.error_iff.1 ⟨f, t, hfault⟩)
  rw [hfault] at ha
  cases ha
  exact ⟨notes, rfl⟩

end RefusesIff

/-- A device that refuses has done nothing but tell. -/
theorem refuses_act {σ α : Type} {get : Machine κ δ → σ} {set : Machine κ δ → σ → Machine κ δ}
    {a : Action σ α} {p : Prop} {s : Machine κ δ} (h : a.RefusesIff p ⟨get s, #[]⟩)
    (hset : set s (get s) = s) : RefusesIff p (act get set a) s := by
  refine ⟨fun hp => ?_, fun hp => ?_⟩
  · obtain ⟨f, notes, hnotes, ha⟩ := h.refuses hp
    refine ⟨f, notes, ?_⟩
    have htold := foldl_absorb_plain s hnotes
    simp only [act, ha, hset]
    simpa using htold
  · obtain ⟨x, t, ha⟩ := h.accepts hp
    refine ⟨x, t.effects.foldl absorb (set s t.device), ?_⟩
    simp only [act, ha]

def Refused (s : Machine κ δ) (w : Handler.Window) (addr : UInt32) :
    Log.Direction → UInt32 → Prop
  | .read, _ => w.kind = .edmacSwitch
  | .write, value =>
    match w.kind with
    | .edmac => addr &&& 0xFF = 0 ∧ value = 1 ∧
      Edmac.interruptOf? (Edmac.channelOf w.param addr) = none
    | .sdDma => addr &&& 0x1F = 0x18 ∧ s.sd.commandFlags = 0x13 ∧
      s.sd.status.dataAvailable = false ∧ s.sd.dmaEnabled = false
    | .cfDma => addr &&& 0x1F = 0x10 ∧ (value = 0x21 ∨ value = 0x39 ∨ value = 0x3D) ∧
      s.cf.drive = none
    | _ => False

theorem refused_edmac_iff {s : Machine κ δ} {w : Handler.Window} {addr value : UInt32}
    (hdevice : w.kind.device = .edmac) : s.Refused w addr .write value ↔
      w.kind ≠ .edmacSwitch ∧ addr &&& 0xFF = 0 ∧ value = 1 ∧
        Edmac.interruptOf? (Edmac.channelOf w.param addr) = none := by
  unfold Refused
  cases hkind : w.kind <;> simp_all [Handler.Kind.device]

theorem refused_sd_iff {s : Machine κ δ} {w : Handler.Window} {addr value : UInt32}
    (hdevice : w.kind.device = .sd) : s.Refused w addr .write value ↔
      w.kind = .sdDma ∧ Sd.DmaRegister.ofAddress addr = .start ∧
        s.sd.commandFlags = Sd.writeFlags ∧ s.sd.status.dataAvailable = false ∧
        s.sd.dmaEnabled = false := by
  rw [Sd.ofAddress_eq_start_iff]
  unfold Refused
  cases hkind : w.kind <;> simp_all [Handler.Kind.device, Sd.writeFlags]

theorem refused_cf_iff {s : Machine κ δ} {w : Handler.Window} {addr value : UInt32}
    (hdevice : w.kind.device = .cf) : s.Refused w addr .write value ↔
      w.kind = .cfDma ∧ Cf.DmaRegister.ofAddress addr = .command ∧
        (value = 0x21 ∨ value = 0x39 ∨ value = 0x3D) ∧ s.cf.drive = none := by
  rw [Cf.ofAddress_eq_command_iff]
  unfold Refused
  cases hkind : w.kind <;> simp_all [Handler.Kind.device]

/-- Only image DMA and the two hosts refuse a write. -/
theorem not_refused_write (s : Machine κ δ) (w : Handler.Window) (addr value : UInt32)
    (hedmac : w.kind.device ≠ .edmac) (hsd : w.kind.device ≠ .sd) (hcf : w.kind.device ≠ .cf) :
    ¬ s.Refused w addr .write value := by
  unfold Refused
  cases hkind : w.kind <;> simp_all [Handler.Kind.device]

/-- Where image DMA has its registers, and the number of the block. -/
def imageDmaRanges : List (UInt32 × UInt32 × UInt32) :=
  [(0xC0F04000, 0xC0F04FFF, 0), (0xC0F26000, 0xC0F26FFF, 1), (0xC0F30000, 0xC0F30FFF, 2)]

def sdDmaRanges : List (UInt32 × UInt32 × UInt32) :=
  [(0xC0510000, 0xC05100FF, 1), (0xC0530000, 0xC0530FFF, 3), (0xC8020000, 0xC80200FF, 6)]

/-- The accesses that end in a fault in a machine with the standard handler table. -/
inductive Fatal (s : Machine κ δ) (addr value : UInt32) : Log.Direction → Prop where
  /-- A read of the switch of image DMA. -/
  | switchRead : 0xC0F05000 ≤ addr → addr ≤ 0xC0F05FFF → Fatal s addr value .read
  /-- The start of a channel of image DMA that has no interrupt, in one of the three blocks. -/
  | imageStart {low high block : UInt32} :
    (low, high, block) ∈ imageDmaRanges → low ≤ addr → addr ≤ high → addr &&& 0xFF = 0 →
    value = 1 → (∀ id, Edmac.interruptTable[Edmac.channelOf block addr]? = some id → id = 0) →
    Fatal s addr value .write
  /-- The start of SD DMA while a write waits for its data phase and DMA is off. -/
  | sdStart {low high number : UInt32} :
    (low, high, number) ∈ sdDmaRanges → low ≤ addr → addr ≤ high → addr &&& 0x1F = 0x18 →
    s.sd.commandFlags = 0x13 → s.sd.status.dataAvailable = false → s.sd.dmaEnabled = false →
    Fatal s addr value .write
  /-- A transfer of the CF host without a drive. -/
  | cfCommand : 0xC0500000 ≤ addr → addr ≤ 0xC0500FFF → addr &&& 0x1F = 0x10 →
    value = 0x21 ∨ value = 0x39 ∨ value = 0x3D → s.cf.drive = none → Fatal s addr value .write

theorem refused_write_iff (s : Machine κ δ) (w : Handler.Window) (addr value : UInt32) :
    s.Refused w addr .write value ↔
      (w.kind = .edmac ∧ addr &&& 0xFF = 0 ∧ value = 1 ∧
        ∀ id, Edmac.interruptTable[Edmac.channelOf w.param addr]? = some id → id = 0) ∨
      (w.kind = .sdDma ∧ addr &&& 0x1F = 0x18 ∧ s.sd.commandFlags = 0x13 ∧
        s.sd.status.dataAvailable = false ∧ s.sd.dmaEnabled = false) ∨
      (w.kind = .cfDma ∧ addr &&& 0x1F = 0x10 ∧ (value = 0x21 ∨ value = 0x39 ∨ value = 0x3D) ∧
        s.cf.drive = none) := by
  rw [← Edmac.interruptOf?_eq_none_iff]
  unfold Refused
  cases w.kind <;> simp

/-- By the standard table, what is refused are the accesses of those four kinds. -/
theorem refused_iff_fatal (s : Machine κ δ) (addr : UInt32) (direction : Log.Direction)
    (value : UInt32) :
    (∃ h, Handler.find? Handler.standardTable addr = some h ∧
      s.Refused h.toWindow addr direction value) ↔ s.Fatal addr value direction := by
  have hswitch := Handler.claimed_iff Handler.leads_edmacSwitch addr fun _ => True
  have himage := Handler.claimed_iff Handler.leads_edmac addr fun block =>
    addr &&& 0xFF = 0 ∧ value = 1 ∧
      ∀ id, Edmac.interruptTable[Edmac.channelOf block addr]? = some id → id = 0
  have hsd := Handler.claimed_iff Handler.leads_sdDma addr fun _ => True
  have hcf := Handler.claimed_iff Handler.leads_cfDma addr fun _ => True
  rw [Handler.windows_edmacSwitch] at hswitch
  rw [Handler.windows_edmac] at himage
  rw [Handler.windows_sdDma] at hsd
  rw [Handler.windows_cfDma] at hcf
  simp only [and_true] at hswitch hsd hcf
  constructor
  · rintro ⟨h, hfind, hrefused⟩
    cases direction with
    | read =>
      obtain ⟨w, hw, hlow, hhigh⟩ := hswitch.1 ⟨h, hfind, hrefused⟩
      cases List.mem_singleton.1 hw
      exact .switchRead hlow hhigh
    | write =>
      rcases (s.refused_write_iff _ _ _).1 hrefused with
        ⟨hkind, hstart⟩ | ⟨hkind, hregister, hflags, hdue, hoff⟩ | ⟨hkind, hregister, hvalue, hdrive⟩
      · obtain ⟨w, hw, hlow, hhigh, hcontrol, hone, hnone⟩ := himage.1 ⟨h, hfind, hkind, hstart⟩
        exact .imageStart hw hlow hhigh hcontrol hone hnone
      · obtain ⟨w, hw, hlow, hhigh⟩ := hsd.1 ⟨h, hfind, hkind⟩
        exact .sdStart hw hlow hhigh hregister hflags hdue hoff
      · obtain ⟨w, hw, hlow, hhigh⟩ := hcf.1 ⟨h, hfind, hkind⟩
        cases List.mem_singleton.1 hw
        exact .cfCommand hlow hhigh hregister hvalue hdrive
  · intro hfatal
    cases hfatal with
    | switchRead hlow hhigh => exact hswitch.2 ⟨_, List.mem_singleton_self _, hlow, hhigh⟩
    | imageStart hblock hlow hhigh hcontrol hone hnone =>
      obtain ⟨h, hfind, hkind, hstart⟩ :=
        himage.2 ⟨_, hblock, hlow, hhigh, hcontrol, hone, hnone⟩
      exact ⟨h, hfind, (s.refused_write_iff _ _ _).2 (.inl ⟨hkind, hstart⟩)⟩
    | sdStart hwindow hlow hhigh hregister hflags hdue hoff =>
      obtain ⟨h, hfind, hkind⟩ := hsd.2 ⟨_, hwindow, hlow, hhigh⟩
      exact ⟨h, hfind, (s.refused_write_iff _ _ _).2
        (.inr (.inl ⟨hkind, hregister, hflags, hdue, hoff⟩))⟩
    | cfCommand hlow hhigh hregister hvalue hdrive =>
      obtain ⟨h, hfind, hkind⟩ := hcf.2 ⟨_, List.mem_singleton_self _, hlow, hhigh⟩
      exact ⟨h, hfind, (s.refused_write_iff _ _ _).2
        (.inr (.inr ⟨hkind, hregister, hvalue, hdrive⟩))⟩

variable [Cf.AtaDrive δ]

theorem refuses_readDevice (s : Machine κ δ) (w : Handler.Window) (addr value : UInt32)
    (hblock : w.kind.device = .edmac → Edmac.channelOf w.param addr < Edmac.channelCount) :
    RefusesIff (s.Refused w addr .read value) (readDevice w.kind.device w addr) s := by
  have hother (hdevice : w.kind.device ≠ .edmac) : ¬ s.Refused w addr .read value := by
    intro hrefused
    have hkind : w.kind = .edmacSwitch := hrefused
    exact hdevice (by rw [hkind]; rfl)
  refine .get_bind ?_
  cases hdevice : w.kind.device
  all_goals rw [hdevice] at hother hblock
  case flashGate => exact refuses_act (.of_total (Flash.Gate.total_read _ addr) (hother nofun)) rfl
  case rom => exact refuses_act (.of_total (Flash.total_read _ addr) (hother nofun)) rfl
  case interrupts => exact refuses_act (.of_total (Interrupt.total_read _ addr) (hother nofun)) rfl
  case timers => exact refuses_act (.of_total (Timer.total_read _ addr) (hother nofun)) rfl
  case compare => exact refuses_act (.of_total (Timer.total_readCompare _ addr) (hother nofun)) rfl
  case dma => exact refuses_act (.of_total (Dma.total_read _ addr) (hother nofun)) rfl
  case edmac => exact refuses_act (Edmac.refuses_read (c := s.context w) (hblock rfl)) rfl
  case sd => exact refuses_act (.of_total (Sd.total_read _ addr) (hother nofun)) rfl
  case cf => exact refuses_act (.of_total (Cf.total_read _ addr) (hother nofun)) rfl
  case display => exact refuses_act (.of_total (Display.total_read _ addr) (hother nofun)) rfl
  case console => exact refuses_act (.of_total (Console.total_read _ addr) (hother nofun)) rfl
  case basic => exact refuses_act (.of_total (Board.Basic.total_read _ addr) (hother nofun)) rfl
  case power => exact refuses_act (.of_total (Board.Power.total_read _ addr) (hother nofun)) rfl
  case gpio => exact refuses_act (.of_total (Board.Gpio.total_read _ addr) (hother nofun)) rfl
  case digic6 => exact refuses_act (.of_total (Board.Digic6.total_read _ addr) (hother nofun)) rfl
  case imageEngine =>
    exact refuses_act (.of_total (Board.ImageEngine.total_read _ addr) (hother nofun)) rfl

variable [Sd.SdCard κ]

theorem refuses_writeDevice {s : Machine κ δ} (hdriver : s.model.sdDriverInterrupt ≠ 0)
    (hdma : s.model.sdDmaInterrupt ≠ 0) (w : Handler.Window) (addr value : UInt32)
    (hblock : w.kind.device = .edmac → Edmac.channelOf w.param addr < Edmac.channelCount) :
    RefusesIff (s.Refused w addr .write value) (writeDevice w.kind.device w addr value) s := by
  have hother := s.not_refused_write w addr value
  refine .get_bind ?_
  cases hdevice : w.kind.device
  all_goals rw [hdevice] at hother hblock
  case flashGate =>
    exact refuses_act
      (.of_total (Flash.Gate.total_write _ addr value) (hother nofun nofun nofun)) rfl
  case rom =>
    exact refuses_act (.of_total (Flash.total_write _ addr value) (hother nofun nofun nofun)) rfl
  case interrupts =>
    exact refuses_act
      (.of_total (Interrupt.total_write _ addr value) (hother nofun nofun nofun)) rfl
  case timers =>
    exact refuses_act (.of_total (Timer.total_write _ addr value) (hother nofun nofun nofun)) rfl
  case compare =>
    exact refuses_act
      (.of_total (Timer.total_writeCompare _ addr value) (hother nofun nofun nofun)) rfl
  case dma =>
    exact refuses_act (.of_total (Dma.total_write _ addr value) (hother nofun nofun nofun)) rfl
  case edmac =>
    have hwrite := Edmac.refuses_write (s := ⟨s.edmac, #[]⟩) (c := s.context w) value (hblock rfl)
    exact (refuses_act hwrite rfl).congr (refused_edmac_iff hdevice).symm
  case sd =>
    have hwrite := Sd.refuses_write hdriver hdma (c := s.context w) rfl addr value
      ⟨⟨s.sd, s.cpu.memory⟩, #[]⟩
    exact (refuses_act hwrite rfl).congr (refused_sd_iff hdevice).symm
  case cf =>
    have hwrite := Cf.refuses_write (s.context w) addr value ⟨s.cf, #[]⟩
    exact (refuses_act hwrite rfl).congr (refused_cf_iff hdevice).symm
  case display =>
    exact refuses_act (.of_total (Display.total_write _ addr value) (hother nofun nofun nofun)) rfl
  case console =>
    exact refuses_act (.of_total (Console.total_write _ addr value) (hother nofun nofun nofun)) rfl
  case basic =>
    exact refuses_act
      (.of_total (Board.Basic.total_write _ addr value) (hother nofun nofun nofun)) rfl
  case power =>
    exact refuses_act
      (.of_total (Board.Power.total_write _ addr value) (hother nofun nofun nofun)) rfl
  case gpio =>
    exact refuses_act
      (.of_total (Board.Gpio.total_write _ addr value) (hother nofun nofun nofun)) rfl
  case digic6 =>
    exact refuses_act
      (.of_total (Board.Digic6.total_write _ addr value) (hother nofun nofun nofun)) rfl
  case imageEngine =>
    exact refuses_act
      (.of_total (Board.ImageEngine.total_write _ addr value) (hother nofun nofun nofun)) rfl

/-- An access is refused if the device that claims its address refuses it. -/
theorem refuses_access {s : Machine κ δ} (hdriver : s.model.sdDriverInterrupt ≠ 0)
    (hdma : s.model.sdDmaInterrupt ≠ 0)
    (hblocks : ∀ h ∈ s.handlers, h.kind.device = .edmac → ∀ addr,
      Edmac.channelOf h.param addr < Edmac.channelCount)
    (addr : UInt32) (direction : Log.Direction) (value : UInt32) :
    RefusesIff (∃ h, Handler.find? s.handlers addr = some h ∧
      s.Refused h.toWindow addr direction value) (access addr direction value) s := by
  refine .get_bind ?_
  cases hfind : Handler.find? s.handlers addr with
  | none => exact .of_ok rfl (by simp)
  | some h =>
    have hblock := fun hdevice => hblocks h (List.mem_of_find?_eq_some hfind) hdevice addr
    cases direction with
    | read => exact (s.refuses_readDevice h.toWindow addr value hblock).congr (by simp)
    | write =>
      exact ((refuses_writeDevice hdriver hdma h.toWindow addr value hblock).bind_pure 0).congr
        (by simp)

/-- Whatever an access uses as an index lies within the table that it is an index of. -/
structure IndicesInBounds (s : Machine κ δ) : Prop where
  /-- The bytes of ROM that are read or written, and the block that is erased. -/
  rom : ∀ {n : Nat} {b : Flash.Bank}, s.flash.get? n = some b → ∀ (addr : UInt32) (i : Nat),
    b.wrap (b.offset addr + i.toUInt32) < b.size ∧ b.blockStart (b.offset addr) < b.size
  dmaChannel : ∀ h ∈ s.handlers, h.kind = .dma → h.param ≠ 0 ∧ h.param.toNat < Dma.channelCount
  imageDmaChannel : ∀ h ∈ s.handlers, h.kind.device = .edmac → ∀ addr : UInt32,
    Edmac.channelOf h.param addr < Edmac.channelCount
  fedConnection : ∀ {offset value : UInt32} {channel : Option Nat} {connection : Nat},
    Edmac.Route.ofWrite? offset value = some (.feed channel connection) →
    connection < Edmac.readConnectionCount
  drainingChannel : ∀ {offset value connection : UInt32} {channel : Nat},
    Edmac.Route.ofWrite? offset value = some (.drain connection channel) →
    channel < Edmac.channelCount
  sdResponse : ∀ {addr : UInt32} {n : Nat}, Sd.Register.ofAddress addr = .response n → n < 4
  taskFile : ∀ {addr : UInt32} {n : UInt8}, Cf.Register.ofAddress addr = .taskFile n →
    1 ≤ n.toNat ∧ n.toNat ≤ 7
  palette4 : ∀ {param addr : UInt32} {index : Nat},
    Display.Register.ofAddress param addr = .palette4 index → index < 16
  palette8 : ∀ {param addr : UInt32} {index : Nat},
    Display.Register.ofAddress param addr = .palette8 index → index < 256
  power : ∀ addr : UInt32, Board.Power.index addr < 64

/-- The ROM banks of a machine have the sizes that its model was accepted with. -/
theorem isPowerOfTwo_size {m : Model} {s₀ : Machine κ δ} (hnew : assemble m = .ok s₀)
    (changes : List (Change κ δ)) {n : Nat} {b : Flash.Bank}
    (hb : (s₀.after changes).flash.get? n = some b) : isPowerOfTwo b.size = true := by
  have hlayout : (s₀.after changes).flash.layout = m.rom :=
    congrArg Prod.snd (fixed_reachable hnew changes)
  have hrom := Flash.layout_get? hb
  rw [hlayout] at hrom
  have hmem : b.layout ∈ m.rom.toList :=
    Vector.mem_toList_iff.2 (Vector.mem_of_getElem? hrom)
  exact Model.isPowerOfTwo_of_validate (unowned_fixed.toApart.assemble hnew).1 _ hmem

theorem indicesInBounds {m : Model} {s₀ : Machine κ δ} (hnew : assemble m = .ok s₀)
    (changes : List (Change κ δ))
    (htable : (s₀.after changes).handlers = Handler.standardTable) :
    (s₀.after changes).IndicesInBounds where
  rom := by
    intro n b hb addr i
    have hsize := isPowerOfTwo_size hnew changes hb
    refine ⟨Flash.Bank.wrap_lt_of_isPowerOfTwo hsize _, ?_⟩
    exact UInt32.lt_of_le_of_lt (b.blockStart_le _) (Flash.Bank.wrap_lt_of_isPowerOfTwo hsize _)
  dmaChannel := htable ▸ Dma.param_of_window
  imageDmaChannel := htable ▸ Edmac.channelOf_lt
  fedConnection := Edmac.connection_lt
  drainingChannel := Edmac.drain_lt
  sdResponse := Sd.response_lt
  taskFile := Cf.taskFile_mem
  palette4 := Display.palette4_lt
  palette8 := Display.palette8_lt
  power := Board.Power.index_lt

/-- In every machine with the standard handler table whose model names the interrupts of the SD host,
whatever has happened to it, the accesses of the four kinds end in a fault and no others do. One that
does has left no trace but in the journal, and no access reaches past the end of a table. -/
theorem access_faults_iff_fatal {m : Model} {s₀ : Machine κ δ} (hnew : assemble m = .ok s₀)
    (hdriver : m.sdDriverInterrupt ≠ 0) (hdma : m.sdDmaInterrupt ≠ 0)
    (changes : List (Change κ δ))
    (htable : (s₀.after changes).handlers = Handler.standardTable) :
    let s := s₀.after changes
    s.IndicesInBounds ∧ ∀ (addr : UInt32) (direction : Log.Direction) (value : UInt32),
      ((∃ f t, access addr direction value s = .error f t) ↔ s.Fatal addr value direction) ∧
      ∀ f t, access addr direction value s = .error f t →
        ∃ notes : List Log.Notice, t = { s with journal := s.journal ++ notes } := by
  intro s
  have hbounds : s.IndicesInBounds := indicesInBounds hnew changes htable
  have hmodel : s.model = m := congrArg Prod.fst (fixed_reachable hnew changes)
  refine ⟨hbounds, fun addr direction value => ?_⟩
  have hrefuses := refuses_access (s := s) (hmodel ▸ hdriver) (hmodel ▸ hdma)
    hbounds.imageDmaChannel addr direction value
  rw [htable] at hrefuses
  have hfatal := hrefuses.congr (s.refused_iff_fatal addr direction value)
  exact ⟨hfatal.error_iff, fun f t hfault => hfatal.eq_of_error hfault⟩

/-- A command for a write is given without DMA. To start its data phase is fatal, and leaves the host
waiting for it. -/
theorem access_faults_iff_fatal_without_dma :
    let s₀ : Machine Empty Empty := (ofModel .standard).tell
      (.assembled "DIGIC5" 5 0x01000000 0x00800000)
    let s := s₀.after [.step (.access 0xC0C1000C .write 0x13)]
    assemble .standard = .ok s₀ ∧ s.handlers = Handler.standardTable ∧
      ∃ f t, access 0xC0510018 .write 1 s = .error f t ∧ t.sd.commandFlags = 0x13 := by
  intro s₀ s
  have hnew : assemble .standard = .ok s₀ := rfl
  have htable : s.handlers = Handler.standardTable := by decide +kernel
  have hflags : s.sd.commandFlags = 0x13 := by decide +kernel
  have hfatal : s.Fatal 0xC0510018 1 .write :=
    .sdStart (List.mem_cons_self : ((0xC0510000 : UInt32), _, _) ∈ sdDmaRanges) (by decide)
      (by decide) (by decide) hflags (by decide +kernel) (by decide +kernel)
  obtain ⟨hiff, hatomic⟩ := (access_faults_iff_fatal hnew (by decide) (by decide)
    [.step (.access 0xC0C1000C .write 0x13)] htable).2 0xC0510018 .write 1
  obtain ⟨f, t, hfault⟩ := hiff.2 hfatal
  obtain ⟨notes, rfl⟩ := hatomic f t hfault
  exact ⟨hnew, htable, f, _, hfault, hflags⟩

end Machine

end Digic
