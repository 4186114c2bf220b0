import Mathlib.Data.List.DropRight
import Digic.Proofs.Machine.Reachable
/-!
# Reports of unclaimed accesses

An access that nobody claims reads as zero and leaves every register file alone. It is reported if
not too many accesses to its address come directly before it, of those that nobody claims. All that
the machine keeps of these accesses is how many there are at the end, up to the largest word; this
is enough, however many there are.
-/
namespace Digic

open Bus

namespace Bus.Limiter

/-- How many accesses to an address there are at the end of a history. -/
def runLength (addr : UInt32) (history : List UInt32) : Nat :=
  (history.rtakeWhile (· == addr)).length

/-- A limiter that took note of a history: of its last address, and of the accesses to it at the
end but for the first. -/
structure Follows (l : Limiter) (history : List UInt32) : Prop where
  last : l.last = history.getLast?
  repeats : ∀ addr, l.last = some addr →
    l.repeats.toNat + 1 = min (runLength addr history) (2 ^ 32)

@[simp] theorem runLength_nil (addr : UInt32) : runLength addr [] = 0 := rfl

@[simp] theorem runLength_concat (addr other : UInt32) (history : List UInt32) :
    runLength addr (history ++ [other]) = if other = addr then runLength addr history + 1 else 0 := by
  unfold runLength
  rw [List.rtakeWhile_concat]
  by_cases h : other = addr <;> simp [h]

/-- Only the last address has accesses at the end. -/
theorem runLength_of_getLast?_ne {addr : UInt32} {history : List UInt32}
    (h : history.getLast? ≠ some addr) : runLength addr history = 0 := by
  rw [runLength, List.length_eq_zero_iff, List.rtakeWhile_eq_nil_iff]
  intro hne hlast
  rw [List.getLast?_eq_some_getLast hne, eq_of_beq hlast] at h
  exact h rfl

/-- More accesses to an address make its run no shorter. -/
theorem runLength_le_append {addr : UInt32} (history : List UInt32) {later : List UInt32}
    (h : ∀ other ∈ later, other = addr) :
    runLength addr history ≤ runLength addr (history ++ later) := by
  induction later generalizing history with
  | nil => rw [List.append_nil]
  | cons other later ih =>
    obtain ⟨rfl, hlater⟩ := List.forall_mem_cons.1 h
    have hfirst : runLength other history ≤ runLength other (history ++ [other]) := by simp
    have hrest := ih (history ++ [other]) hlater
    rw [List.append_assoc] at hrest
    exact Nat.le_trans hfirst hrest

theorem follows_new : new.Follows [] := ⟨rfl, by simp [new]⟩

/-- One access more. -/
theorem Follows.note {l : Limiter} {history : List UInt32} (h : l.Follows history)
    (addr : UInt32) : (l.note addr).Follows (history ++ [addr]) := by
  unfold Limiter.note
  split
  · next hlast =>
    have hrun := h.repeats addr hlast
    refine ⟨by simp [hlast], fun other hother => ?_⟩
    obtain rfl : addr = other := Option.some.inj (hlast.symm.trans hother)
    rw [runLength_concat, if_pos rfl]
    dsimp only
    split
    · next hfull =>
      rw [hfull] at hrun ⊢
      have hmax : (0xFFFFFFFF : UInt32).toNat = 2 ^ 32 - 1 := rfl
      omega
    · next hfull =>
      have hlt : l.repeats.toNat ≠ 0xFFFFFFFF := fun hn => hfull (UInt32.toNat_inj.1 hn)
      have hnext := UInt32.toNat_add l.repeats 1
      have hbound := l.repeats.toNat_lt
      rw [UInt32.toNat_one] at hnext
      omega
  · next hlast =>
    refine ⟨by simp, fun other hother => ?_⟩
    obtain rfl : addr = other := Option.some.inj hother
    have hnone := runLength_of_getLast?_ne (h.last ▸ hlast)
    rw [runLength_concat, if_pos rfl, hnone]
    rfl

theorem Follows.foldl_note {l : Limiter} {history : List UInt32} (h : l.Follows history)
    (later : List UInt32) : (later.foldl Limiter.note l).Follows (history ++ later) := by
  induction later generalizing l history with
  | nil => simpa using h
  | cons addr later ih =>
    have hrest := ih (h.note addr)
    rwa [List.append_assoc] at hrest

/-- An access is reported if there are few accesses to its address at the end of the history. -/
theorem Follows.reports_note_iff {l : Limiter} {history : List UInt32} (h : l.Follows history)
    (addr : UInt32) :
    (l.note addr).reports = true ↔ runLength addr history < reportedRepeats.toNat := by
  have hlast : (l.note addr).last = some addr := by
    unfold Limiter.note
    split
    · next hlast => exact hlast
    · rfl
  have hrepeats := (h.note addr).repeats addr hlast
  have hfew : reportedRepeats.toNat = 5 := rfl
  rw [runLength_concat, if_pos rfl] at hrepeats
  rw [reports, decide_eq_true_iff, UInt32.lt_iff_toNat_lt, hfew]
  omega

end Bus.Limiter

namespace Machine

open Limiter

variable {κ δ : Type}

theorem untold_limiter : Untold (fun s : Machine κ δ => s.limiter) :=
  ⟨fun _ n => by cases n <;> rfl, fun _ _ => rfl⟩

def unclaimed? (s : Machine κ δ) : Change κ δ → Option UInt32
  | .step (.access addr _ _) => if Handler.find? s.handlers addr = none then some addr else none
  | _ => none

theorem limiter_noteUnclaimed (s : Machine κ δ) (addr : UInt32) (direction : Log.Direction)
    (value : UInt32) : (s.noteUnclaimed addr direction value).limiter = s.limiter.note addr := by
  unfold noteUnclaimed
  dsimp only
  split
  · exact untold_limiter.tell _ _
  · rfl

theorem limiter_loadRom (s : Machine κ δ) (bank : Nat) (offset : UInt32) (image : ByteArray) :
    (s.loadRom bank offset image).1.limiter = s.limiter := by
  rcases s.loadRom_fst bank offset image with hrom | hrom <;> rw [hrom]
  exact untold_limiter.tell _ _

variable [Sd.SdCard κ] [Cf.AtaDrive δ]

theorem limiter_access (s : Machine κ δ) (addr : UInt32) (direction : Log.Direction)
    (value : UInt32) :
    (stateAfter (access addr direction value) s).limiter =
      if Handler.find? s.handlers addr = none then s.limiter.note addr else s.limiter := by
  rw [stateAfter_access]
  split
  · next hfind => rw [if_pos hfind, limiter_noteUnclaimed]
  · next h hfind =>
    rw [if_neg (by simp [hfind]), readDevice, stateAfter_get_bind]
    cases h.kind.device
    all_goals exact untold_limiter.act _ _ _ s
  · next h hfind =>
    rw [if_neg (by simp [hfind]), writeDevice, stateAfter_get_bind]
    cases h.kind.device
    all_goals exact untold_limiter.act _ _ _ s

theorem limiter_change_of_quiet (s : Machine κ δ) {c : Change κ δ} (hc : c.Quiet) :
    (s.change c).limiter = s.limiter := by
  cases c with
  | step st =>
    cases st with
    | access => exact hc.elim
    | tick => exact hc.elim
    | request id delay => exact untold_limiter.request s id delay
    | _ => rfl
  | loadRom bank offset image => exact limiter_loadRom s bank offset image
  | loadRomFile bank file offset =>
    refine loadRomFile_preserves (P := fun t => t.limiter = s.limiter) ?_ ?_ rfl file offset
    · exact fun t n _ _ ht => (untold_limiter.tell t n).trans ht
    · exact fun t image ht => (limiter_loadRom t bank 0 image).trans ht
  | setHandlers table =>
    rw [change, setHandlers]
    cases Handler.check table <;> rfl
  | startTicker =>
    rw [change, startTicker]
    split <;> rfl
  | stopTicker =>
    rw [change, stopTicker]
    split <;> rfl
  | _ => rfl

/-- Only an access that nobody claims is taken note of. -/
theorem limiter_change (s : Machine κ δ) (c : Change κ δ) :
    (s.change c).limiter = (s.unclaimed? c).toList.foldl Limiter.note s.limiter := by
  by_cases hc : c.Quiet
  · have hnone : s.unclaimed? c = none := by
      cases c with
      | step st =>
        cases st with
        | access => exact hc.elim
        | _ => rfl
      | _ => rfl
    rw [limiter_change_of_quiet s hc, hnone]
    rfl
  · obtain ⟨addr, direction, value, rfl⟩ | rfl := Change.of_not_quiet hc
    · refine (s.limiter_access addr direction value).trans ?_
      rw [unclaimed?]
      split <;> rfl
    · exact untold_limiter.tick (fun _ _ => rfl) (fun _ _ => rfl) s

def unclaimed (s : Machine κ δ) : List (Change κ δ) → List UInt32
  | [] => []
  | c :: changes => (s.unclaimed? c).toList ++ (s.change c).unclaimed changes

theorem unclaimed_append (s : Machine κ δ) (changes later : List (Change κ δ)) :
    s.unclaimed (changes ++ later) = s.unclaimed changes ++ (s.after changes).unclaimed later := by
  induction changes generalizing s with
  | nil => rfl
  | cons c changes ih =>
    rw [List.cons_append, unclaimed, unclaimed, ih, after_cons, List.append_assoc]

theorem limiter_after (s : Machine κ δ) (changes : List (Change κ δ)) :
    (s.after changes).limiter = (s.unclaimed changes).foldl Limiter.note s.limiter := by
  induction changes generalizing s with
  | nil => rfl
  | cons c changes ih =>
    rw [after_cons, ih, limiter_change, unclaimed, List.foldl_append]

/-- A machine that took note of no access yet, and any changes of it. Then

* an access that nobody claims gives zero and changes nothing but the journal and what is kept of
  such accesses; the journal tells of it exactly if there are fewer than five accesses to its
  address at the end of those before it that nobody claims,
* nothing is kept of any other change,
* once five accesses to an address were made, those that follow are not told of, however many there
  are, as long as nobody accesses another address that is not claimed. -/
theorem unclaimed_reported_iff {s : Machine κ δ} (hnew : s.limiter = .new)
    (changes : List (Change κ δ)) :
    let t := s.after changes
    (∀ addr direction value, Handler.find? t.handlers addr = none →
      access addr direction value t = .ok 0 { t with
        limiter := t.limiter.note addr
        journal := if runLength addr (s.unclaimed changes) < 5 then
            t.journal.push (.unclaimed t.cpu.pc addr direction value)
          else t.journal }) ∧
    (∀ c, t.unclaimed? c = none → (t.change c).limiter = t.limiter) ∧
    ∀ addr later, 5 ≤ runLength addr (s.unclaimed changes) →
      (∀ other ∈ t.unclaimed later, other = addr) →
      5 ≤ runLength addr (s.unclaimed (changes ++ later)) := by
  intro t
  refine ⟨fun addr direction value hfind => ?_, fun c hclaimed => ?_, fun addr later hrun hsame => ?_⟩
  · have hfollows : t.limiter.Follows (s.unclaimed changes) := by
      rw [limiter_after, hnew]
      exact follows_new.foldl_note _
    have hreports := hfollows.reports_note_iff addr
    have hfew : reportedRepeats.toNat = 5 := rfl
    rw [hfew] at hreports
    rw [access_of_unclaimed hfind, noteUnclaimed]
    dsimp only
    simp only [hreports]
    split <;> rfl
  · rw [limiter_change, hclaimed]
    rfl
  · rw [unclaimed_append]
    exact Nat.le_trans hrun (runLength_le_append _ hsame)

/-- Five accesses to an address, among them writes, with a write to a register in between: the
sixth is not told of, and an access to the next word is. -/
theorem unclaimed_reported_iff_sixth :
    let s : Machine Empty Empty := ofModel .standard
    let poll (direction : Log.Direction) : Change Empty Empty :=
      .step (.access 0x12340000 direction 7)
    let changes := [poll .read, poll .read, poll .write,
      .step (.access 0xC0F01010 .write 0xABCD), poll .write, poll .read]
    let t := s.after changes
    s.limiter = .new ∧ s.unclaimed changes = List.replicate 5 0x12340000 ∧
      access 0x12340000 .read 0 t =
        .ok 0 { t with limiter := t.limiter.note 0x12340000, journal := t.journal } ∧
      access 0x12340004 .read 0 t = .ok 0 { t with
        limiter := t.limiter.note 0x12340004
        journal := t.journal.push (.unclaimed 0xFF0C0000 0x12340004 .read 0) } := by
  intro s poll changes t
  obtain ⟨hreported, -, -⟩ := unclaimed_reported_iff (s := s) rfl changes
  have hcounted : s.unclaimed changes = List.replicate 5 0x12340000 := by decide +kernel
  have hlong : ¬ runLength 0x12340000 (s.unclaimed changes) < 5 := by
    rw [hcounted]
    decide
  have hnone : runLength 0x12340004 (s.unclaimed changes) < 5 := by
    rw [hcounted]
    decide
  have hpoll : Handler.find? t.handlers 0x12340000 = none := by decide +kernel
  have hnext : Handler.find? t.handlers 0x12340004 = none := by decide +kernel
  have hpc : t.cpu.pc = 0xFF0C0000 := by decide +kernel
  -- From here on the machine is not computed any more, only named.
  have ht : s.after changes = t := rfl
  clear_value t
  rw [ht] at hreported
  have hsixth := hreported 0x12340000 .read 0 hpoll
  have hfirst := hreported 0x12340004 .read 0 hnext
  rw [if_neg hlong] at hsixth
  rw [if_pos hnone] at hfirst
  exact ⟨rfl, hcounted, hsixth, hpc ▸ hfirst⟩

end Machine

end Digic
