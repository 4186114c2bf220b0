import Digic.Proofs.Bus.Bounds
import Digic.Proofs.Bus.Refusals
import Mathlib.Data.List.Induction
/-!
# The connections of a transfer

A channel of image DMA is started with what firmware wrote to its registers and to the switch before.
The switch keeps for each connection the channel that feeds it, and for each channel the connection
that it drains. Either way the last write of the slot counts, so that a start can be read off the
history of the writes: where in memory it takes place, and which connections it serves.
-/
namespace Digic.Edmac

open Bus

/-- The read channels, in the order of the values that name them. -/
def readChannels : List Nat := [8, 9, 10, 11, 12, 13, 24, 25, 26, 27, 28, 29, 40, 41, 42, 43]

/-- The channels of the slots from 0x000 on. -/
def lowerChannels : List Nat := [0, 1, 2, 3, 4, 5, 6, 16]

/-- The channels of the slots from 0x200 on. The last slot is another one of the first channel. -/
def upperChannels : List Nat :=
  [17, 18, 19, 20, 21, 22, 32, 33, 34, 35, 36, 37, 38, 39, 40, 41, 17]

/-- The connection whose feeding channel a slot sets. -/
def fedSlot? (offset : UInt32) : Option Nat :=
  if 0x20 ≤ offset ∧ offset ≤ 0xE0 then some ((offset.toNat - 0x20) / 4) else none

/-- The channel whose drained connection a slot sets. -/
def drainSlot? (offset : UInt32) : Option Nat :=
  if offset ≤ 0x1C then lowerChannels[offset.toNat / 4]?
  else if 0x200 ≤ offset ∧ offset ≤ 0x240 then upperChannels[(offset.toNat - 0x200) / 4]?
  else none

theorem readChannel?_eq (value : UInt32) : readChannel? value = readChannels[value.toNat]? := by
  have hnamed : ∀ n < 16, readChannel? n.toUInt32 = readChannels[n]? := by decide
  by_cases h : value.toNat < 16
  · have hvalue := hnamed value.toNat h
    rwa [Nat.toUInt32_eq, UInt32.ofNat_toNat] at hvalue
  · have hnone : readChannels[value.toNat]? = none :=
      List.getElem?_eq_none (Nat.le_of_not_lt h)
    simp only [readChannel?, hnone, UInt32.lt_iff_toNat_lt, UInt32.reduceToNat]
    rw [if_neg (by omega), if_neg (by omega), if_neg h]

theorem lowerWriteChannel_eq {offset : UInt32} (h : offset ≤ 0x1C) :
    lowerChannels[offset.toNat / 4]? = some (lowerWriteChannel offset) := by
  have hslots : ∀ n ≤ 0x1C, lowerChannels[n / 4]? = some (lowerWriteChannel n.toUInt32) := by
    decide
  have hslot := hslots offset.toNat (UInt32.le_iff_toNat_le.1 h)
  rwa [Nat.toUInt32_eq, UInt32.ofNat_toNat] at hslot

theorem upperWriteChannel_eq {offset : UInt32} (hlow : 0x200 ≤ offset) (hhigh : offset ≤ 0x240) :
    upperChannels[(offset.toNat - 0x200) / 4]? = some (upperWriteChannel offset) := by
  have hslots : ∀ n ≤ 0x40, upperChannels[n / 4]? =
      some (upperWriteChannel (0x200 + n).toUInt32) := by
    decide
  rw [UInt32.le_iff_toNat_le] at hlow hhigh
  have hbase : (0x200 : UInt32).toNat = 0x200 := rfl
  have hend : (0x240 : UInt32).toNat = 0x240 := rfl
  have hslot := hslots (offset.toNat - 0x200) (by omega)
  rwa [show 0x200 + (offset.toNat - 0x200) = offset.toNat by omega, Nat.toUInt32_eq,
    UInt32.ofNat_toNat] at hslot

/-- What a write to the switch asks for is told by the two kinds of slots. -/
theorem ofWrite?_eq (offset value : UInt32) :
    Route.ofWrite? offset value =
      ((fedSlot? offset).map (Route.feed readChannels[value.toNat]?)).or
        ((drainSlot? offset).map (Route.drain value)) := by
  rw [Route.ofWrite?, fedSlot?, drainSlot?]
  split
  · rw [readChannel?_eq]
    rfl
  split
  · next h =>
    rw [lowerWriteChannel_eq h]
    rfl
  split
  · next h =>
    rw [upperWriteChannel_eq h.1 h.2]
    rfl
  · rfl

/-- A slot is of one kind only. -/
theorem drainSlot?_eq_none {offset : UInt32} {k : Nat} (h : fedSlot? offset = some k) :
    drainSlot? offset = none := by
  simp only [fedSlot?, drainSlot?, UInt32.le_iff_toNat_le, UInt32.reduceToNat] at *
  split at h
  · rw [if_neg (by omega), if_neg (by omega)]
  · cases h

namespace Switch

variable (s : Switch) (offset value : UInt32) {k n : Nat}

theorem feeding_write (hk : k < readConnectionCount) :
    (s.write offset value).feeding[k] =
      if fedSlot? offset = some k then readChannels[value.toNat]? else s.feeding[k] := by
  rw [write, ofWrite?_eq]
  cases fedSlot? offset with
  | some fed => simp [setRoute, Vector.getElem_setIfInBounds]
  | none => cases drainSlot? offset <;> simp [setRoute]

theorem draining_write (hn : n < channelCount) :
    (s.write offset value).draining[n] =
      if drainSlot? offset = some n then value else s.draining[n] := by
  rw [write, ofWrite?_eq]
  cases hfed : fedSlot? offset with
  | some fed => simp [setRoute, drainSlot?_eq_none hfed]
  | none => cases drainSlot? offset <;> simp [setRoute, Vector.getElem_setIfInBounds]

end Switch

structure Write where
  context : Context
  addr : UInt32
  value : UInt32

namespace Write

def onSwitch (w : Write) : Bool := w.context.window.kind == .edmacSwitch

def channel (w : Write) : Nat := channelOf w.context.window.param w.addr

def perform (w : Write) : Action Engine Unit := Edmac.write w.context w.addr w.value

def address? (channel : Nat) (w : Write) : Option UInt32 :=
  if w.onSwitch = false ∧ w.channel = channel ∧ w.addr &&& 0xFF = 0x08 then some w.value else none

/-- The channel that a write lets feed a connection, which may be none. -/
def feeds? (connection : Nat) (w : Write) : Option (Option Nat) :=
  if w.onSwitch ∧ fedSlot? (w.addr &&& 0xFFF) = some connection then
    some readChannels[w.value.toNat]?
  else none

def drains? (channel : Nat) (w : Write) : Option UInt32 :=
  if w.onSwitch ∧ drainSlot? (w.addr &&& 0xFFF) = some channel then some w.value else none

end Write

def latest {α : Type} (f : Write → Option α) (writes : List Write) : Option α :=
  (writes.filterMap f).getLast?

/-- The connections whose last write of the switch names a channel, in ascending order. -/
def switchedTo (writes : List Write) (channel : Nat) : List Nat :=
  (List.range readConnectionCount).filter fun k =>
    latest (Write.feeds? k) writes == some (some channel)

/-- Image DMA after a write, whether it succeeds or not. -/
def Engine.take (e : Engine) (w : Write) : Engine := (stateAfter w.perform ⟨e, #[]⟩).device

def Engine.after (writes : List Write) : Engine := writes.foldl take .new

theorem latest_concat {α : Type} (f : Write → Option α) (writes : List Write) (w : Write) :
    latest f (writes ++ [w]) = (f w).or (latest f writes) := by
  rw [latest, List.filterMap_append, List.getLast?_append]
  cases h : f w <;> simp [h, latest]

theorem Engine.after_concat (writes : List Write) (w : Write) :
    after (writes ++ [w]) = (after writes).take w := by
  rw [after, List.foldl_append]
  rfl

variable {w : Write} (e : Engine)

theorem take_of_onSwitch (h : w.onSwitch) :
    e.take w = { e with switch := e.switch.write (w.addr &&& 0xFFF) w.value } := by
  have hkind : w.context.window.kind = .edmacSwitch := eq_of_beq h
  rw [Engine.take, Write.perform, Edmac.write, if_pos hkind]
  rfl

theorem ofAddress_eq_addr_iff (addr : UInt32) :
    Register.ofAddress addr = .addr ↔ addr &&& 0xFF = 0x08 := by
  unfold Register.ofAddress
  split <;> simp_all

theorem addr_set (ch : Channel) (r : Register) (value : UInt32) :
    (ch.set r value).addr = if r = .addr then value else ch.addr := by
  cases r <;> rfl

/-- A channel is started by what firmware wrote for it, if it has an interrupt. -/
theorem start_apply (channel : Nat) (ch : Channel) (a : Acting Engine) :
    ∃ told : Log.Notice, start channel ch a =
      match interruptOf? channel with
      | none => .error (.edmacChannelWithoutInterrupt channel)
          ⟨a.device, a.effects.push (.note told)⟩
      | some id => .ok () ⟨{ a.device with
          lastTransfer := some ⟨channel, isReadChannel channel, ch.addr,
            a.device.switch.connections channel, id⟩ },
          (a.effects.push (.note told)).push (.request id 0)⟩ := by
  refine ⟨.imageTransfer ⟨channel, isReadChannel channel, ch.addr,
    a.device.switch.connections channel, ch.geometry, ch.flags⟩, ?_⟩
  unfold start
  cases interruptOf? channel <;> rfl

/-- A write that does not go to the switch is one of a register. -/
theorem perform_of_not_onSwitch (h : w.onSwitch = false) :
    w.perform = writeChannel w.context w.addr w.value := by
  have hkind : w.context.window.kind ≠ .edmacSwitch := ne_of_beq_false h
  rw [Write.perform, Edmac.write, if_neg hkind]

/-- A write of a channel that is not there comes to nothing. -/
theorem take_of_le (h : w.onSwitch = false) (hle : channelCount ≤ w.channel) : e.take w = e := by
  rw [Engine.take, perform_of_not_onSwitch h, writeChannel, stateAfter_bind,
    selectChannel_of_le hle]

/-- To write one to a control register starts the channel. -/
theorem perform_of_control (h : w.onSwitch = false) (hlt : w.channel < channelCount)
    (hcontrol : w.addr &&& 0xFF = 0) (hvalue : w.value = 1) :
    ∃ told : Log.Notice, w.perform ⟨e, #[]⟩ =
      (start w.channel e.channels[w.channel] >>= fun _ => Action.note told) ⟨e, #[]⟩ := by
  rw [perform_of_not_onSwitch h, writeChannel, bind_of_ok (selectChannel_of_lt hlt)]
  simp only [if_pos ((ofAddress_eq_control_iff w.addr).2 hcontrol), if_pos hvalue]
  exact ⟨_, rfl⟩

/-- A write of a control register changes nothing but the last transfer. -/
theorem take_of_control (h : w.onSwitch = false) (hlt : w.channel < channelCount)
    (hcontrol : w.addr &&& 0xFF = 0) :
    ∃ transfer, e.take w = { e with lastTransfer := transfer } := by
  by_cases hvalue : w.value = 1
  · obtain ⟨last, hperform⟩ := perform_of_control e h hlt hcontrol hvalue
    obtain ⟨told, hstart⟩ := start_apply w.channel e.channels[w.channel] ⟨e, #[]⟩
    rw [Engine.take, stateAfter_congr hperform, stateAfter_bind, hstart]
    cases interruptOf? w.channel with
    | none => exact ⟨e.lastTransfer, rfl⟩
    | some id => exact ⟨_, rfl⟩
  · rw [Engine.take, perform_of_not_onSwitch h, writeChannel,
      stateAfter_congr (bind_of_ok (selectChannel_of_lt hlt) _)]
    simp only [if_pos ((ofAddress_eq_control_iff w.addr).2 hcontrol), if_neg hvalue]
    exact ⟨e.lastTransfer, rfl⟩

/-- A write of another register sets it. -/
theorem take_of_not_control (h : w.onSwitch = false) (hlt : w.channel < channelCount)
    (hcontrol : w.addr &&& 0xFF ≠ 0) :
    e.take w = { e with
      channels := e.channels.setIfInBounds w.channel
        (e.channels[w.channel].set (Register.ofAddress w.addr) w.value) } := by
  rw [Engine.take, perform_of_not_onSwitch h, writeChannel,
    stateAfter_congr (bind_of_ok (selectChannel_of_lt hlt) _)]
  simp only [if_neg (mt (ofAddress_eq_control_iff w.addr).1 hcontrol)]
  rfl

/-- A write of a register leaves the switch alone, and programs an address of its own channel at
most. -/
theorem take_of_not_onSwitch (h : w.onSwitch = false) :
    (e.take w).switch = e.switch ∧ ∀ n (hn : n < channelCount), (e.take w).channels[n].addr =
      if w.channel = n ∧ w.addr &&& 0xFF = 0x08 then w.value else e.channels[n].addr := by
  by_cases hlt : w.channel < channelCount
  · by_cases hcontrol : w.addr &&& 0xFF = 0
    · obtain ⟨transfer, htake⟩ := take_of_control e h hlt hcontrol
      rw [htake]
      exact ⟨rfl, fun n hn => by simp [hcontrol]⟩
    · rw [take_of_not_control e h hlt hcontrol]
      refine ⟨rfl, fun n hn => ?_⟩
      rw [Vector.getElem_setIfInBounds]
      by_cases hchannel : w.channel = n
      · subst hchannel
        simp [addr_set, ofAddress_eq_addr_iff]
      · simp [hchannel]
  · rw [take_of_le e h (Nat.le_of_not_lt hlt)]
    refine ⟨rfl, fun n hn => ?_⟩
    have hchannel : w.channel ≠ n := by omega
    simp [hchannel]

/-- Image DMA has what the last of some writes told it. -/
structure Follows (writes : List Write) (e : Engine) : Prop where
  address : ∀ n (hn : n < channelCount),
    e.channels[n].addr = (latest (Write.address? n) writes).getD 0
  feeding : ∀ k (hk : k < readConnectionCount),
    e.switch.feeding[k] = (latest (Write.feeds? k) writes).join
  draining : ∀ n (hn : n < channelCount),
    e.switch.draining[n] = (latest (Write.drains? n) writes).getD 0

variable {writes : List Write} {e : Engine}

theorem follows_new : Follows [] .new where
  address := by simp [Engine.new, Channel.zero, latest]
  feeding := by simp [Engine.new, Switch.new, latest]
  draining := by simp [Engine.new, Switch.new, latest]

theorem Follows.take (h : Follows writes e) (w : Write) : Follows (writes ++ [w]) (e.take w) := by
  cases hswitch : w.onSwitch with
  | true =>
    rw [take_of_onSwitch e hswitch]
    refine ⟨fun n hn => ?_, fun k hk => ?_, fun n hn => ?_⟩
    · rw [latest_concat, h.address n hn]
      simp [Write.address?, hswitch]
    · rw [latest_concat, Switch.feeding_write, h.feeding k hk, Write.feeds?]
      by_cases hslot : fedSlot? (w.addr &&& 0xFFF) = some k <;> simp [hslot, hswitch]
    · rw [latest_concat, Switch.draining_write, h.draining n hn, Write.drains?]
      by_cases hslot : drainSlot? (w.addr &&& 0xFFF) = some n <;> simp [hslot, hswitch]
  | false =>
    obtain ⟨hsame, haddr⟩ := take_of_not_onSwitch e hswitch
    refine ⟨fun n hn => ?_, fun k hk => ?_, fun n hn => ?_⟩
    · rw [latest_concat, haddr n hn, h.address n hn, Write.address?]
      by_cases hregister : w.channel = n ∧ w.addr &&& 0xFF = 0x08 <;> simp [hregister, hswitch]
    · rw [latest_concat, hsame, h.feeding k hk]
      simp [Write.feeds?, hswitch]
    · rw [latest_concat, hsame, h.draining n hn]
      simp [Write.drains?, hswitch]

theorem follows_after (writes : List Write) : Follows writes (.after writes) := by
  induction writes using List.reverseRecOn with
  | nil => exact follows_new
  | append_singleton writes w ih =>
    rw [Engine.after_concat]
    exact ih.take w

theorem connectionsFed_of_follows (h : Follows writes e) (channel : Nat) :
    e.switch.connectionsFed channel = switchedTo writes channel := by
  rw [Switch.connectionsFed, switchedTo]
  refine List.filter_congr fun k hk => ?_
  have hlt : k < readConnectionCount := List.mem_range.1 hk
  rw [Vector.getElem?_eq_getElem hlt, h.feeding k hlt]
  cases latest (Write.feeds? k) writes <;> rfl

theorem isReadChannel_eq (channel : Nat) : isReadChannel channel = channel.testBit 3 := by
  rw [isReadChannel, Nat.testBit_eq_decide_div_mod_eq]
  rfl

/-- What a channel serves is what was switched to it last. -/
theorem connections_of_follows (h : Follows writes e) {channel : Nat}
    (hlt : channel < channelCount) :
    e.switch.connections channel =
      if channel.testBit 3 then (switchedTo writes channel).map Nat.toUInt32
      else [(latest (Write.drains? channel) writes).getD 0] := by
  rw [Switch.connections, isReadChannel_eq, connectionsFed_of_follows h,
    Switch.connectionDrained?, Vector.getElem?_eq_getElem hlt, h.draining channel hlt,
    Option.toList_some]

/-- The start of a channel after any writes, if the table has an interrupt for it. The transfer is
a read just when bit 3 of the number of the channel is set. It takes place at the address that was
programmed last for the channel, and serves the connections that were switched to it last: all that
it feeds, in ascending order, or the one that it drains. The interrupt is asked for at once and only
once. No connection is fed by two channels. -/
theorem start_uses_latest (writes : List Write) {w : Write} (hregister : w.onSwitch = false)
    (hcontrol : w.addr &&& 0xFF = 0) (hvalue : w.value = 1) {id : UInt32}
    (hid : interruptTable[w.channel]? = some id) (hmapped : id ≠ 0) :
    let e := Engine.after writes
    let reading := w.channel.testBit 3
    (∃ first last : Log.Notice, w.perform ⟨e, #[]⟩ = .ok () ⟨{ e with
        lastTransfer := some
          { channel := w.channel
            reading := reading
            addr := (latest (Write.address? w.channel) writes).getD 0
            connections :=
              if reading then (switchedTo writes w.channel).map Nat.toUInt32
              else [(latest (Write.drains? w.channel) writes).getD 0]
            interrupt := id } }, #[.note first, .request id 0, .note last]⟩) ∧
      ∀ other ≠ w.channel, ∀ k ∈ switchedTo writes w.channel, k ∉ switchedTo writes other := by
  intro e reading
  have hlast : w.channel < interruptTable.length := (List.getElem?_eq_some_iff.1 hid).1
  have hlt : w.channel < channelCount := Nat.lt_trans hlast (by decide)
  have hinterrupt : interruptOf? w.channel = some id := by
    rw [interruptOf?, hid]
    exact if_neg hmapped
  have hfollows : Follows writes e := follows_after writes
  refine ⟨?_, fun other hne k hk hk' => ?_⟩
  · obtain ⟨last, hperform⟩ := perform_of_control e hregister hlt hcontrol hvalue
    obtain ⟨first, hstart⟩ := start_apply w.channel e.channels[w.channel] ⟨e, #[]⟩
    rw [hinterrupt] at hstart
    refine ⟨first, last, ?_⟩
    rw [hperform, bind_of_ok hstart, isReadChannel_eq, hfollows.address _ hlt,
      connections_of_follows hfollows hlt]
    rfl
  · rw [switchedTo, List.mem_filter, beq_iff_eq] at hk hk'
    have hsame := hk.2.symm.trans hk'.2
    simp only [Option.some.injEq] at hsame
    exact hne hsame.symm

/-- Channel 10 feeds the connection 3, which another channel fed before, and 40. The connection 4 was
switched off again. Channel 17 drains what the other slot of its own was last set to. -/
theorem start_uses_latest_both :
    let write (kind : Handler.Kind) (block addr value : UInt32) : Write :=
      ⟨⟨⟨"EDMAC", kind, block⟩, 0, .standard⟩, addr, value⟩
    let switch := write .edmacSwitch 0
    let writes := [switch 0xC0F050C0 2, switch 0xC0F0502C 1, switch 0xC0F0502C 2,
      switch 0xC0F05030 2, switch 0xC0F05030 16, switch 0xC0F05200 5, switch 0xC0F05240 7,
      write .edmac 0 0xC0F04A08 0x1000, write .edmac 1 0xC0F26108 0x2000]
    let feeder := write .edmac 0 0xC0F04A00 1
    let drainer := write .edmac 1 0xC0F26100 1
    feeder.channel = 10 ∧ drainer.channel = 17 ∧
      (∃ s, feeder.perform ⟨.after writes, #[]⟩ = .ok () s ∧
        s.device.lastTransfer = some ⟨10, true, 0x1000, [3, 40], 0x5F⟩) ∧
      ∃ s, drainer.perform ⟨.after writes, #[]⟩ = .ok () s ∧
        s.device.lastTransfer = some ⟨17, false, 0x2000, [7], 0x83⟩ := by
  intro write switch writes feeder drainer
  have hread : interruptTable[feeder.channel]? = some 0x5F := by decide
  have hwritten : interruptTable[drainer.channel]? = some 0x83 := by decide
  obtain ⟨⟨_, _, hfeeder⟩, -⟩ :=
    start_uses_latest writes rfl (by decide) rfl hread (by decide)
  obtain ⟨⟨_, _, hdrainer⟩, -⟩ :=
    start_uses_latest writes rfl (by decide) rfl hwritten (by decide)
  exact ⟨by decide, by decide, ⟨_, hfeeder, congrArg some (by decide)⟩,
    ⟨_, hdrainer, congrArg some (by decide)⟩⟩

end Digic.Edmac
