import Digic.Proofs.Edmac.Connections
/-!
# The directions of switched channels

A channel feeds connections or drains one, as bit 3 of its number tells, and whoever starts it looks
for what was switched in that direction only. So a slot of the switch has to name channels of its
own kind. The slots of what is fed do: each value names a read channel or none. The slots of what is
drained are meant for write channels, but the upper ones count two slots too far, into the read
channels 40 and 41. What is written there is kept, and nobody ever looks for it.
-/
namespace Digic.Edmac

/-- The two slots of what is drained that name read channels. -/
def Misdirected (offset : UInt32) : Prop := 0x238 ≤ offset ∧ offset < 0x240

instance (offset : UInt32) : Decidable (Misdirected offset) :=
  inferInstanceAs (Decidable (_ ∧ _))

/-- What a write sets up has its place in the tables of the switch. -/
def Route.InTables : Route → Prop
  | .feed _ connection => connection < readConnectionCount
  | .drain _ channel => channel < channelCount

namespace Switch

structure Setting where
  offset : UInt32
  value : UInt32
  deriving DecidableEq, Repr

def Setting.route? (w : Setting) : Option Route := Route.ofWrite? w.offset w.value

def after (writes : List Setting) : Switch :=
  writes.foldl (fun s w => s.write w.offset w.value) .new

/-- Some write set the connection that a channel drains. -/
def Assigned (writes : List Setting) (channel : Nat) : Prop :=
  ∃ w ∈ writes, ∃ connection, w.route? = some (.drain connection channel)

theorem after_concat (writes : List Setting) (w : Setting) :
    after (writes ++ [w]) = (after writes).write w.offset w.value := by
  rw [after, List.foldl_append]
  rfl

end Switch

theorem misdirected_iff (offset : UInt32) :
    Misdirected offset ↔ 0x238 ≤ offset.toNat ∧ offset.toNat < 0x240 := by
  rw [Misdirected, UInt32.le_iff_toNat_le, UInt32.lt_iff_toNat_lt]
  rfl

variable {offset value : UInt32} {channel : Nat}

theorem readChannels_directed : ∀ n ∈ readChannels, n.testBit 3 = true ∧ n < channelCount := by
  decide

theorem route_inTables {r : Route} (h : Route.ofWrite? offset value = some r) : r.InTables := by
  cases r with
  | feed channel connection => exact connection_lt h
  | drain connection channel => exact drain_lt h

theorem ofWrite?_eq_drain_iff {connection : UInt32} :
    Route.ofWrite? offset value = some (.drain connection channel) ↔
      drainSlot? offset = some channel ∧ value = connection := by
  rw [ofWrite?_eq]
  cases hfed : fedSlot? offset with
  | some fed => simp [drainSlot?_eq_none hfed]
  | none => simp

theorem ofWrite?_of_drainSlot? (h : drainSlot? offset = some channel) (value : UInt32) :
    Route.ofWrite? offset value = some (.drain value channel) :=
  ofWrite?_eq_drain_iff.2 ⟨h, rfl⟩

/-- The slots of what is drained, each with the channel that it names. -/
theorem drainSlot?_cases (h : drainSlot? offset = some channel) :
    (channel ∈ lowerChannels ∧ offset.toNat ≤ 0x1C) ∨
      (0x200 ≤ offset.toNat ∧ upperChannels[(offset.toNat - 0x200) / 4]? = some channel) := by
  unfold drainSlot? at h
  split_ifs at h with hlower hupper
  · exact .inl ⟨List.mem_of_getElem? h, UInt32.le_iff_toNat_le.1 hlower⟩
  · exact .inr ⟨UInt32.le_iff_toNat_le.1 hupper.1, h⟩

/-- Which slots of what is drained name a read channel. -/
theorem testBit_drainSlot? (h : drainSlot? offset = some channel) :
    channel.testBit 3 = true ↔ Misdirected offset := by
  have hlower : ∀ n ∈ lowerChannels, n.testBit 3 = false := by decide
  have hupper : ∀ i (hi : i < upperChannels.length),
      upperChannels[i].testBit 3 = true ↔ i = 14 ∨ i = 15 := by decide
  rw [misdirected_iff]
  rcases drainSlot?_cases h with ⟨hmem, hle⟩ | ⟨hle, hslot⟩
  · exact iff_of_false (Bool.eq_false_iff.1 (hlower channel hmem)) (by omega)
  · obtain ⟨hi, rfl⟩ := List.getElem?_eq_some_iff.1 hslot
    rw [hupper _ hi]
    omega

/-- The read channels that slots of what is drained name. -/
theorem eq_of_testBit_drainSlot? (h : drainSlot? offset = some channel)
    (hbit : channel.testBit 3 = true) : channel = 40 ∨ channel = 41 := by
  have hread : ∀ n ∈ lowerChannels ++ upperChannels, n.testBit 3 = true → n = 40 ∨ n = 41 := by
    decide
  refine hread channel (List.mem_append.2 ?_) hbit
  rcases drainSlot?_cases h with ⟨hmem, -⟩ | ⟨-, hslot⟩
  · exact .inl hmem
  · exact .inr (List.mem_of_getElem? hslot)

/-- The slots that name read channels are slots. -/
theorem exists_drainSlot?_of_misdirected (h : Misdirected offset) :
    ∃ channel, drainSlot? offset = some channel := by
  rw [misdirected_iff] at h
  have hlength : upperChannels.length = 17 := rfl
  have hi : (offset.toNat - 0x200) / 4 < upperChannels.length := by omega
  refine ⟨upperChannels[(offset.toNat - 0x200) / 4], ?_⟩
  simp only [drainSlot?, UInt32.le_iff_toNat_le, UInt32.reduceToNat]
  rw [if_neg (by omega), if_pos (by omega), List.getElem?_eq_getElem hi]

namespace Switch

variable {writes : List Setting} {s : Switch}

theorem assigned_concat {w : Setting} {n : Nat} :
    Assigned (writes ++ [w]) n ↔ Assigned writes n ∨ drainSlot? w.offset = some n := by
  simp only [Assigned, List.mem_append, List.mem_singleton, or_and_right, exists_or,
    exists_eq_left, Setting.route?, ofWrite?_eq_drain_iff, exists_and_left, exists_eq', and_true]

/-- Nobody looks for what a slot of the other kind is given. -/
theorem connections_write_of_misdirected (s : Switch) (h : Misdirected offset) (value : UInt32)
    (n : Nat) : (s.write offset value).connections n = s.connections n := by
  obtain ⟨channel, hslot⟩ := exists_drainSlot?_of_misdirected h
  have hroute := ofWrite?_of_drainSlot? hslot value
  have hwrite : s.write offset value = s.setRoute (.drain value channel) := by
    rw [write, hroute]
  rw [connections, connections, hwrite, isReadChannel_eq]
  by_cases hread : n.testBit 3 = true
  · rw [if_pos hread, if_pos hread]
    rfl
  · have hne : channel ≠ n := fun e => hread (e ▸ (testBit_drainSlot? hslot).2 h)
    rw [if_neg hread, if_neg hread,
      connectionDrained?_setRoute_drain s value channel n (drain_lt hroute), if_neg hne]

/-- What a switch holds was set by writes, and what is fed is fed by read channels. -/
structure Directed (writes : List Setting) (s : Switch) : Prop where
  feeding : ∀ k (hk : k < readConnectionCount) n, s.feeding[k] = some n → n ∈ readChannels
  draining : ∀ n (hn : n < channelCount), s.draining[n] ≠ 0 → Assigned writes n

theorem directed_new : Directed [] .new where
  feeding := by simp [new]
  draining := by simp [new]

theorem Directed.write (h : Directed writes s) (w : Setting) :
    Directed (writes ++ [w]) (s.write w.offset w.value) where
  feeding := by
    intro k hk n hfed
    rw [feeding_write s w.offset w.value hk] at hfed
    split at hfed
    · exact List.mem_of_getElem? hfed
    · exact h.feeding k hk n hfed
  draining := by
    intro n hn hdrained
    rw [draining_write s w.offset w.value hn] at hdrained
    rw [assigned_concat]
    split at hdrained
    · next hslot => exact .inr hslot
    · exact .inl (h.draining n hn hdrained)

theorem directed_after (writes : List Setting) : Directed writes (after writes) := by
  induction writes using List.reverseRecOn with
  | nil => exact directed_new
  | append_singleton writes w ih =>
    rw [after_concat]
    exact ih.write w

theorem exists_drainSlot?_of_assigned {n : Nat} (h : Assigned writes n) :
    ∃ w ∈ writes, drainSlot? w.offset = some n := by
  obtain ⟨w, hw, connection, hroute⟩ := h
  exact ⟨w, hw, (ofWrite?_eq_drain_iff.1 hroute).1⟩

theorem assigned_of_drainSlot? {w : Setting} (hw : w ∈ writes) {n : Nat}
    (h : drainSlot? w.offset = some n) : Assigned writes n :=
  ⟨w, hw, w.value, ofWrite?_of_drainSlot? h w.value⟩

/-- A run sets connections of write channels only, just if it spares the slots that name others. -/
theorem assigned_write_channels_iff :
    (∀ n, Assigned writes n → n.testBit 3 = false) ↔ ∀ w ∈ writes, ¬ Misdirected w.offset := by
  constructor
  · intro hwriting w hw hmis
    obtain ⟨n, hslot⟩ := exists_drainSlot?_of_misdirected hmis
    have hbit := (testBit_drainSlot? hslot).2 hmis
    rw [hwriting n (assigned_of_drainSlot? hw hslot)] at hbit
    cases hbit
  · intro hspared n hassigned
    obtain ⟨w, hw, hslot⟩ := exists_drainSlot?_of_assigned hassigned
    exact Bool.eq_false_iff.2 fun hbit => hspared w hw ((testBit_drainSlot? hslot).1 hbit)

/-- A new switch after any writes, with any offsets and values. Then

* what feeds a connection is a channel with bit 3 set that exists, and the connection is among those
  that this channel serves,
* a channel whose drained connection was ever set exists, and has bit 3 clear or is 40 or 41,
* all channels whose drained connection was ever set have bit 3 clear just if no write went to one
  of the two slots that name read channels,
* a channel drains connection zero if its connection was never set,
* a further write to those two slots does not change which connections a channel serves,
* no write set up anything outside the tables. -/
theorem switched_in_direction (writes : List Setting) :
    let s := after writes
    (∀ k (hk : k < readConnectionCount) n, s.feeding[k] = some n →
      n.testBit 3 = true ∧ n < channelCount ∧ k.toUInt32 ∈ s.connections n) ∧
    (∀ n, Assigned writes n →
      n < channelCount ∧ (n.testBit 3 = true → n = 40 ∨ n = 41)) ∧
    ((∀ n, Assigned writes n → n.testBit 3 = false) ↔ ∀ w ∈ writes, ¬ Misdirected w.offset) ∧
    (∀ n (hn : n < channelCount), ¬ Assigned writes n → s.draining[n] = 0) ∧
    (∀ offset value, Misdirected offset → ∀ n,
      (s.write offset value).connections n = s.connections n) ∧
    ∀ w ∈ writes, ∀ r, w.route? = some r → r.InTables := by
  intro s
  have hdirected : Directed writes s := directed_after writes
  refine ⟨fun k hk n hfed => ?_, fun n hassigned => ?_, assigned_write_channels_iff,
    fun n hn hfree => ?_, fun offset value hmis n => ?_, fun w _ r hroute => ?_⟩
  · obtain ⟨hbit, hlt⟩ := readChannels_directed n (hdirected.feeding k hk n hfed)
    refine ⟨hbit, hlt, ?_⟩
    rw [connections, isReadChannel_eq, if_pos hbit]
    refine List.mem_map_of_mem (List.mem_filter.2 ⟨List.mem_range.2 hk, ?_⟩)
    rw [Vector.getElem?_eq_getElem hk, hfed]
    exact beq_self_eq_true _
  · obtain ⟨w, -, hslot⟩ := exists_drainSlot?_of_assigned hassigned
    exact ⟨drain_lt (ofWrite?_of_drainSlot? hslot w.value), eq_of_testBit_drainSlot? hslot⟩
  · by_contra hset
    exact hfree (hdirected.draining n hn hset)
  · exact s.connections_write_of_misdirected hmis value n
  · exact route_inTables hroute

/-- A connection that is switched to be drained by the read channel 40 is kept for it and is none of
its connections. -/
theorem drained_by_read_channel :
    let writes : List Setting := [⟨0x238, 5⟩]
    Assigned writes 40 ∧ Nat.testBit 40 3 = true ∧
      (after writes).connectionDrained? 40 = some 5 ∧ (after writes).connections 40 = [] := by
  intro writes
  exact ⟨assigned_of_drainSlot? (List.mem_singleton_self _) (by decide), by decide, by decide,
    by decide⟩

end Switch

end Digic.Edmac
