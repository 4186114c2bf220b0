import Digic.Proofs.Timer.Match
/-!
# Compare channels over a history

Clock and channels move by themselves: ticks advance the clock and latch what matches, firmware sets
channels up and clears their latches, and nothing else reaches them.
-/
namespace Digic.Timer

def offset (addr : UInt32) : Nat := addr.toNat % 0x1000

theorem ofAddress_eq_offset (addr : UInt32) :
    CompareRegister.ofAddress addr =
      if 0x160 ≤ offset addr ∧ offset addr ≤ 0x1DF then
        if offset addr % 0x10 = 0 then .active (offset addr / 0x10 % 0x10 - 6)
        else if offset addr % 0x10 = 4 then .compare (offset addr / 0x10 % 0x10 - 6)
        else .other
      else if 0x260 ≤ offset addr ∧ offset addr ≤ 0x2DF then
        if offset addr % 0x10 = 4 then .clear (offset addr / 0x10 % 0x10 - 6) else .other
      else if offset addr = 0x300 then .status
      else .other := by
  have hoffset : (addr &&& 0xFFF).toNat = offset addr :=
    toNat_and_sub_one (by decide : isPowerOfTwo 0x1000 = true) addr
  have hlow : (addr &&& 0xF).toNat = offset addr % 0x10 := by
    have h := toNat_and_sub_one (by decide : isPowerOfTwo 0x10 = true) addr
    rw [offset, Nat.mod_mod_of_dvd _ (by decide)]
    exact h
  have hslot : ((addr &&& 0xF0) >>> 4).toNat = offset addr / 0x10 % 0x10 := by
    have hmask : addr &&& 0xF0 = (addr &&& (0x100 - 1)) &&& ~~~(0x10 - 1) := by
      rw [UInt32.and_assoc]
      rfl
    rw [UInt32.toNat_shiftRight, hmask, toNat_and_not_sub_one (by decide),
      toNat_and_sub_one (by decide), Nat.shiftRight_eq_div_pow, offset]
    have h4 : (4 : UInt32).toNat % 32 = 4 := rfl
    have h10 : (0x10 : UInt32).toNat = 0x10 := rfl
    have h100 : (0x100 : UInt32).toNat = 0x100 := rfl
    rw [h4, h10, h100]
    omega
  have hfirst : 0x160 ≤ addr &&& 0xFFF ∧ addr &&& 0xFFF ≤ 0x1DF ↔
      0x160 ≤ offset addr ∧ offset addr ≤ 0x1DF := by
    rw [UInt32.le_iff_toNat_le, UInt32.le_iff_toNat_le, hoffset]
    rfl
  have hsecond : 0x260 ≤ addr &&& 0xFFF ∧ addr &&& 0xFFF ≤ 0x2DF ↔
      0x260 ≤ offset addr ∧ offset addr ≤ 0x2DF := by
    rw [UInt32.le_iff_toNat_le, UInt32.le_iff_toNat_le, hoffset]
    rfl
  have hstatus : addr &&& 0xFFF = 0x300 ↔ offset addr = 0x300 := by
    rw [← UInt32.toNat_inj, hoffset]
    rfl
  have hzero : addr &&& 0xF = 0 ↔ offset addr % 0x10 = 0 := by
    rw [← UInt32.toNat_inj, hlow]
    rfl
  have hfour : addr &&& 0xF = 4 ↔ offset addr % 0x10 = 4 := by
    rw [← UInt32.toNat_inj, hlow]
    rfl
  unfold CompareRegister.ofAddress
  simp only [hslot, hfirst, hsecond, hstatus, ← hzero, ← hfour]
  refine if_congr Iff.rfl ?_ (if_congr Iff.rfl ?_ rfl)
  · split <;> simp_all
  · split <;> simp_all

variable {addr : UInt32} {i : Nat}

theorem ofAddress_eq_active_iff :
    CompareRegister.ofAddress addr = .active i ↔
      i < channelCount ∧ offset addr = 0x160 + 0x10 * i := by
  rw [ofAddress_eq_offset, channelCount]
  split_ifs <;> simp only [CompareRegister.active.injEq, false_iff] <;> omega

theorem ofAddress_eq_compare_iff :
    CompareRegister.ofAddress addr = .compare i ↔
      i < channelCount ∧ offset addr = 0x164 + 0x10 * i := by
  rw [ofAddress_eq_offset, channelCount]
  split_ifs <;> simp only [CompareRegister.compare.injEq, false_iff] <;> omega

theorem ofAddress_eq_clear_iff :
    CompareRegister.ofAddress addr = .clear i ↔
      i < channelCount ∧ offset addr = 0x264 + 0x10 * i := by
  rw [ofAddress_eq_offset, channelCount]
  split_ifs <;> simp only [CompareRegister.clear.injEq, false_iff] <;> omega

theorem ofAddress_eq_status_iff :
    CompareRegister.ofAddress addr = .status ↔ offset addr = 0x300 := by
  rw [ofAddress_eq_offset]
  split_ifs <;> simp only [false_iff, true_iff] <;> omega

/-- Clock and compare channels, without the timers. -/
structure Face where
  clock : Clock
  channels : CompareBank

def Timebase.face (t : Timebase) : Face := ⟨t.clock, t.channels⟩

inductive Move where
  | tick
  | write (addr value : UInt32)
  | nothing

namespace Move

/-- Whether firmware sets a channel up, by its enable register or by its compare register. -/
def setsUp (i : Nat) : Move → Bool
  | .write addr _ => offset addr == 0x160 + 0x10 * i || offset addr == 0x164 + 0x10 * i
  | _ => false

def clears (i : Nat) : Move → Bool
  | .write addr _ => offset addr == 0x264 + 0x10 * i
  | _ => false

def isTick : Move → Bool
  | .tick => true
  | _ => false

end Move

def CompareBank.set (b : CompareBank) (value : UInt32) : CompareRegister → CompareBank
  | .active id => b.setActive id value
  | .compare id => b.setCompare id value
  | .clear id => b.clear id
  | .status | .other => b

namespace Face

def move (f : Face) : Move → Face
  | .tick => ⟨f.clock.advance, f.channels.latch f.clock.advance.value⟩
  | .write addr value => { f with channels := f.channels.set value (.ofAddress addr) }
  | .nothing => f

def run (f : Face) (moves : List Move) : Face := moves.foldl move f

@[simp] theorem run_nil (f : Face) : f.run [] = f := rfl

@[simp] theorem run_cons (f : Face) (m : Move) (moves : List Move) :
    f.run (m :: moves) = (f.move m).run moves := rfl

def armed (f : Face) (i : Nat) : Bool := (f.channels.get? i).any (·.active != 0)

/-- The channel matches in the next tick. -/
def matchesNext (f : Face) (i : Nat) : Bool :=
  (f.channels.get? i).any (·.fires f.clock.advance.value)

def latched (f : Face) (i : Nat) : Bool := (f.channels.get? i).any (·.triggered)

/-- Everything shown and everything waited for is a value of the clock. -/
structure Sound (f : Face) : Prop where
  clock : OnGrid f.clock.value
  channels : ∀ (i : Nat) (c : Channel), f.channels.get? i = some c → OnGrid c.compare

end Face

/-- Channel `i` after a move. `clock` is what the clock shows in a tick. -/
def Channel.move (c : Channel) (clock : UInt32) (i : Nat) : Move → Channel
  | .tick => if c.fires clock then { c with triggered := true } else c
  | .write addr value =>
    let r := CompareRegister.ofAddress addr
    if r = .active i then { c with active := value }
    else if r = .compare i then { c with compare := quantize value }
    else if r = .clear i then { c with triggered := false }
    else c
  | .nothing => c

/-- A channel moves by itself. -/
theorem Face.get?_move (f : Face) (m : Move) (i : Nat) :
    (f.move m).channels.get? i =
      (f.channels.get? i).map (·.move f.clock.advance.value i m) := by
  cases m with
  | tick => simp [Face.move, CompareBank.latch, CompareBank.get?, Channel.move]
  | write addr value =>
    rw [Face.move]
    simp only [Channel.move]
    cases CompareRegister.ofAddress addr with
    | active id =>
      by_cases h : id = i <;>
        simp [CompareBank.set, CompareBank.setActive, CompareBank.get?_modify, h]
    | compare id =>
      by_cases h : id = i <;>
        simp [CompareBank.set, CompareBank.setCompare, CompareBank.get?_modify, h]
    | clear id =>
      by_cases h : id = i <;>
        simp [CompareBank.set, CompareBank.clear, CompareBank.get?_modify, h]
    | status => simp [CompareBank.set]
    | other => simp [CompareBank.set]
  | nothing => simp [Face.move, Channel.move]

namespace Channel

variable {c : Channel} {clock : UInt32} {m : Move}

/-- Unless it is set up anew, a channel waits for what it waited for. -/
theorem setup_move (clock : UInt32) (h : m.setsUp i = false) :
    (c.move clock i m).active = c.active ∧ (c.move clock i m).compare = c.compare := by
  cases m with
  | tick =>
    rw [move]
    split <;> exact ⟨rfl, rfl⟩
  | write addr value =>
    rw [Move.setsUp, Bool.or_eq_false_iff, beq_eq_false_iff_ne, beq_eq_false_iff_ne] at h
    have hactive : CompareRegister.ofAddress addr ≠ .active i :=
      fun he => h.1 (ofAddress_eq_active_iff.1 he).2
    have hcompare : CompareRegister.ofAddress addr ≠ .compare i :=
      fun he => h.2 (ofAddress_eq_compare_iff.1 he).2
    simp only [move, if_neg hactive, if_neg hcompare]
    split <;> exact ⟨rfl, rfl⟩
  | nothing => exact ⟨rfl, rfl⟩

theorem onGrid_move (h : OnGrid c.compare) : OnGrid (c.move clock i m).compare := by
  cases m with
  | tick =>
    rw [move]
    split <;> exact h
  | write addr value =>
    simp only [move]
    split_ifs
    · exact h
    · exact onGrid_quantize value
    · exact h
    · exact h
  | nothing => exact h

/-- A latch is set by a match only, and cleared only by a write for that. -/
theorem triggered_move (hi : i < channelCount) :
    (c.move clock i m).triggered =
      (!m.clears i && (c.triggered || m.isTick && c.fires clock)) := by
  cases m with
  | tick =>
    rw [move]
    split <;> simp_all [Move.clears, Move.isTick]
  | write addr value =>
    have hclear : CompareRegister.ofAddress addr = .clear i ↔ offset addr = 0x264 + 0x10 * i := by
      rw [ofAddress_eq_clear_iff, and_iff_right hi]
    have hclears : Move.clears i (.write addr value) =
        decide (CompareRegister.ofAddress addr = .clear i) := by
      rw [Move.clears, decide_eq_decide.2 hclear]
      rfl
    rw [hclears]
    simp only [move, Move.isTick]
    split_ifs with hactive hcompare hclear <;> simp_all
  | nothing => simp [move, Move.clears, Move.isTick]

end Channel

namespace Face

variable {f : Face} {m : Move} {moves : List Move}

theorem sound_new : Timebase.new.face.Sound := by
  refine ⟨onGrid_zero, fun i c hc => ?_⟩
  have hidle : c = .idle := by
    have hreplicate : (Vector.replicate channelCount Channel.idle)[i]? = some c := hc
    rw [Vector.getElem?_replicate] at hreplicate
    split at hreplicate
    · exact (Option.some.inj hreplicate).symm
    · cases hreplicate
  subst hidle
  exact onGrid_zero

theorem sound_move (h : f.Sound) (m : Move) : (f.move m).Sound := by
  constructor
  · cases m with
    | tick => exact onGrid_advance f.clock
    | write => exact h.clock
    | nothing => exact h.clock
  · intro i c hc
    rw [get?_move, Option.map_eq_some_iff] at hc
    obtain ⟨before, hbefore, rfl⟩ := hc
    exact Channel.onGrid_move (h.channels i before hbefore)

theorem sound_run (h : f.Sound) (moves : List Move) : (f.run moves).Sound := by
  induction moves generalizing f with
  | nil => exact h
  | cons m moves ih => exact ih (f.sound_move h m)

/-- The clock counts the ticks. -/
theorem clock_run (h : f.Sound) (moves : List Move) :
    (f.run moves).clock.value.toNat =
      (f.clock.value.toNat + 0x100 * moves.countP Move.isTick) % 0x100000 := by
  induction moves generalizing f with
  | nil =>
    obtain ⟨-, hlt⟩ := h.clock
    simp [Nat.mod_eq_of_lt hlt]
  | cons m moves ih =>
    rw [run_cons, ih (f.sound_move h m), List.countP_cons]
    cases m with
    | tick =>
      have hadvance := toNat_advance f.clock
      obtain ⟨hstep, -⟩ := h.clock
      simp only [move, hadvance, Move.isTick, if_true]
      omega
    | write => simp [move, Move.isTick]
    | nothing => simp [move, Move.isTick]

/-- What a channel waits for stays while nobody sets it up. -/
theorem setup_run {c : Channel} (hc : f.channels.get? i = some c)
    (h : ∀ m ∈ moves, m.setsUp i = false) :
    ∃ c', (f.run moves).channels.get? i = some c' ∧ c'.active = c.active ∧
      c'.compare = c.compare := by
  induction moves generalizing f c with
  | nil => exact ⟨c, hc, rfl, rfl⟩
  | cons m moves ih =>
    obtain ⟨hfirst, hrest⟩ := List.forall_mem_cons.1 h
    have hmove : (f.move m).channels.get? i = some (c.move f.clock.advance.value i m) := by
      rw [get?_move, hc, Option.map_some]
    obtain ⟨hactive, hcompare⟩ := c.setup_move f.clock.advance.value hfirst
    obtain ⟨c', hc', hactive', hcompare'⟩ := ih hmove hrest
    exact ⟨c', hc', hactive'.trans hactive, hcompare'.trans hcompare⟩

/-- After a compare value is written to a channel that is armed, the channel matches in the tick
that `ticksUntil` says and every turn of the clock after it, and in no other. -/
theorem matchesNext_iff (h : f.Sound) (hi : i < channelCount) (harmed : f.armed i = true)
    (hoffset : offset addr = 0x164 + 0x10 * i) (value : UInt32)
    (hmoves : ∀ m ∈ moves, m.setsUp i = false) :
    ((f.move (.write addr value)).run moves).matchesNext i = true ↔
      ∃ r, moves.countP Move.isTick + 1 = ticksUntil value f.clock.value + turn * r := by
  have hregister : CompareRegister.ofAddress addr = .compare i :=
    ofAddress_eq_compare_iff.2 ⟨hi, hoffset⟩
  obtain ⟨c, hc, hactive⟩ := (Option.any_eq_true _ _).1 harmed
  have hwritten : (f.move (.write addr value)).channels.get? i =
      some { c with compare := quantize value } := by
    rw [get?_move, hc, Option.map_some]
    simp [Channel.move, hregister]
  obtain ⟨c', hc', hactive', hcompare'⟩ := setup_run hwritten hmoves
  have hclock := (f.move (.write addr value)).clock_run (f.sound_move h _) moves
  have hshown : ((f.move (.write addr value)).run moves).clock.advance.value.toNat =
      (f.clock.value.toNat + 0x100 * (moves.countP Move.isTick + 1)) % 0x100000 := by
    obtain ⟨hstep, -⟩ := h.clock
    have hsame : (f.move (.write addr value)).clock.value = f.clock.value := rfl
    rw [toNat_advance, hclock, hsame]
    omega
  rw [matchesNext, hc', Option.any_some, Channel.fires, hactive', hcompare', hactive, Bool.true_and,
    beq_iff_eq, ← UInt32.toNat_inj, hshown, eq_comm]
  exact shows_iff h.clock value (Nat.succ_pos _)

/-- The interrupt of the channels is due if one of them matches. -/
theorem fires_iff (f : Face) :
    f.channels.fires f.clock.advance.value = true ↔
      ∃ i < channelCount, f.matchesNext i = true := by
  simp only [CompareBank.fires, List.any_eq_true, Vector.mem_toList_iff, Vector.mem_iff_getElem,
    matchesNext, CompareBank.get?, Option.any_eq_true]
  constructor
  · rintro ⟨c, ⟨i, hi, rfl⟩, hfires⟩
    exact ⟨i, hi, _, Vector.getElem?_eq_getElem hi, hfires⟩
  · rintro ⟨i, hi, c, hc, hfires⟩
    exact ⟨c, ⟨i, hi, (Vector.getElem?_eq_some_iff.1 hc).2⟩, hfires⟩

theorem latched_move (hi : i < channelCount) (f : Face) (m : Move) :
    (f.move m).latched i = (!m.clears i && (f.latched i || m.isTick && f.matchesNext i)) := by
  rw [latched, get?_move, latched, matchesNext]
  cases f.channels.get? i with
  | none => simp
  | some c => simp [Channel.triggered_move hi]

end Face

theorem testBit_channelBit :
    ∀ k < channelCount, ∀ i < channelCount,
      ((1 : UInt32) <<< (2 * k + 4).toUInt32).toNat.testBit (2 * i + 4) = (k == i) := by
  decide

/-- Bit by bit, the mask of the latches is put together from those of the single channels. -/
theorem testBit_foldl_triggered {entries : List (Channel × Nat)} (mask : UInt32)
    (hentries : ∀ p ∈ entries, p.2 < channelCount) (hi : i < channelCount) :
    (entries.foldl (fun mask (c, k) =>
        if c.triggered then mask ||| 1 <<< (2 * k + 4).toUInt32 else mask) mask).toNat.testBit
          (2 * i + 4) =
      (mask.toNat.testBit (2 * i + 4) || entries.any fun p => p.1.triggered && p.2 == i) := by
  induction entries generalizing mask with
  | nil => simp
  | cons p entries ih =>
    obtain ⟨c, k⟩ := p
    obtain ⟨hk, hrest⟩ := List.forall_mem_cons.1 hentries
    have hbit := testBit_channelBit k hk i hi
    rw [List.foldl_cons, ih _ hrest, List.any_cons]
    cases htriggered : c.triggered with
    | false => simp [htriggered]
    | true =>
      simp only [htriggered, if_true, UInt32.toNat_or, Nat.testBit_or, hbit, Bool.true_and,
        Bool.or_assoc]

/-- The status register shows the latch of channel `i` in bit `2 * i + 4`. -/
theorem testBit_triggeredMask (b : CompareBank) (hi : i < channelCount) :
    b.triggeredMask.toNat.testBit (2 * i + 4) = (b.get? i).any (·.triggered) := by
  have hentries : ∀ p ∈ b.channels.toList.zipIdx, p.2 < channelCount := by
    intro p hp
    have hlt := (List.mem_zipIdx' hp).1
    simpa using hlt
  rw [CompareBank.triggeredMask, testBit_foldl_triggered 0 hentries hi, Bool.eq_iff_iff,
    Option.any_eq_true]
  simp [CompareBank.get?, List.mem_zipIdx_iff_getElem?]

end Digic.Timer
