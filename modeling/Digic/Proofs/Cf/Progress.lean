import Digic.Proofs.Cf.Passes
/-!
# How far a transfer has come

The invariant of a transfer, kept by the move of each word: what the drive's record holds is what
was moved so far, it stands in memory from the start address on, around the top of the address space
too, and the rest of memory is as it was.
-/
namespace Digic.Cf

open Memory

variable {δ : Type}

/-- What a transfer from address `a` on has moved, by the record of the drive. At its start there
was `memory`. -/
def Transfer.Moved (t : Transfer) (a : UInt32) (memory : Memory) (b : Bench (Recorded δ))
    (r : Recorded δ) : Prop :=
  match t with
  | .read =>
    r.given.length = b.dmaDone.toNat ∧ r.taken = [] ∧
      ∀ x, b.memory.byte x = (r.given[(x - a).toNat]?).getD (memory.byte x)
  | .write =>
    r.given = [] ∧ b.memory = memory ∧
      r.taken = (List.range b.dmaDone.toNat).map fun i => memory.byte (a + i.toUInt32)

/-- How far the transfer has come that `h` was set up for. -/
structure Progress (t : Transfer) (h : Host δ) (memory : Memory) (b : Bench (Recorded δ))
    (r : Recorded δ) : Prop where
  drive : b.drive = some r
  addr : b.dmaAddr = h.dmaAddr
  count : b.dmaCount = h.dmaCount
  enabled : b.interruptsEnabled = h.interruptsEnabled
  aligned : b.dmaDone % 4 = 0
  within : b.dmaDone ≤ h.dmaCount
  moved : t.Moved h.dmaAddr memory b r

variable {t : Transfer} {h : Host δ} {memory : Memory} {b : Bench (Recorded δ)} {r : Recorded δ}

/-- When a transfer is started, nothing was moved yet for it or for any other. -/
theorem Progress.of_start (t t' : Transfer) {h : Host δ} (hdrive : h.drive.isSome)
    (memory : Memory) : ∃ r, Progress t' h memory ⟨t.start h.recorded, memory⟩ r := by
  obtain ⟨drive, hdrive⟩ := Option.isSome_iff_exists.1 hdrive
  have hrecorded : h.recorded.drive = some (.fresh drive) := by
    rw [Host.recorded, hdrive]
    rfl
  refine ⟨.fresh drive, ?_⟩
  cases t' with
  | read =>
    cases t <;> exact ⟨hrecorded, rfl, rfl, rfl, rfl, UInt32.zero_le, rfl, rfl, fun _ => rfl⟩
  | write => cases t <;> exact ⟨hrecorded, rfl, rfl, rfl, rfl, UInt32.zero_le, rfl, rfl, rfl⟩

/-- A transfer that begins. -/
theorem Progress.start (t : Transfer) {h : Host δ} (hdrive : h.drive.isSome)
    (hidle : h.requests = (false, false, false)) (memory : Memory) :
    ∃ r, Progress t h memory ⟨t.start h.recorded, memory⟩ r ∧
      (t.start h.recorded).requests = t.requests true := by
  obtain ⟨r, hr⟩ := Progress.of_start t t hdrive memory
  refine ⟨r, hr, ?_⟩
  cases t with
  | read => exact congrArg (true, ·.2) hidle
  | write => exact congrArg (fun requests => (requests.1, true, requests.2.2)) hidle

/-- Whatever passes a transfer took, what it moved decides on how far it has come and on memory. -/
theorem Transfer.Moved.unique {a : UInt32} {b₁ b₂ : Bench (Recorded δ)} {r₁ r₂ : Recorded δ}
    (h₁ : t.Moved a memory b₁ r₁) (h₂ : t.Moved a memory b₂ r₂) (hgiven : r₁.given = r₂.given)
    (htaken : r₁.taken = r₂.taken) :
    b₁.dmaDone = b₂.dmaDone ∧ ∀ x, b₁.memory.byte x = b₂.memory.byte x := by
  cases t with
  | read =>
    obtain ⟨hlength₁, -, hbytes₁⟩ := h₁
    obtain ⟨hlength₂, -, hbytes₂⟩ := h₂
    constructor
    · apply UInt32.toNat_inj.1
      rw [← hlength₁, ← hlength₂, hgiven]
    · intro x
      rw [hbytes₁, hbytes₂, hgiven]
  | write =>
    obtain ⟨-, hmemory₁, htaken₁⟩ := h₁
    obtain ⟨-, hmemory₂, htaken₂⟩ := h₂
    constructor
    · apply UInt32.toNat_inj.1
      have hlength := congrArg List.length htaken
      simpa [htaken₁, htaken₂] using hlength
    · intro x
      rw [hmemory₁, hmemory₂]

theorem Progress.changeDrive (hp : Progress t h memory b r) (change : δ → δ) :
    Progress t h memory (b.changeDrive (Recorded.change change)) (r.change change) where
  drive := by
    rw [Bench.changeDrive, hp.drive]
    rfl
  addr := hp.addr
  count := hp.count
  enabled := hp.enabled
  aligned := hp.aligned
  within := hp.within
  moved := by cases t <;> exact hp.moved

theorem Progress.settle {t' : Transfer} (hp : Progress t h memory b r) :
    Progress t h memory (t'.settle b) r := by
  rw [Transfer.settle]
  cases b.finished with
  | false => exact hp
  | true =>
    cases t' with
    | read => exact ⟨hp.drive, hp.addr, hp.count, hp.enabled, hp.aligned, hp.within, hp.moved⟩
    | write => exact ⟨hp.drive, hp.addr, hp.count, hp.enabled, hp.aligned, hp.within, hp.moved⟩

theorem Progress.finished_iff (hp : Progress t h memory b r) :
    b.finished = true ↔ b.dmaDone = h.dmaCount := by
  rw [Host.finished, decide_eq_true_iff, hp.count]
  constructor
  · intro hle
    exact UInt32.le_antisymm hp.within hle
  · rintro heq
    exact heq ▸ UInt32.le_refl _

theorem Progress.not_finished (hp : Progress t h memory b r) :
    (!b.finished) = decide (b.dmaDone ≠ h.dmaCount) := by
  by_cases hall : b.dmaDone = h.dmaCount
  · simp [hall, hp.finished_iff.2 hall]
  · simp [hall, mt hp.finished_iff.1 hall]

/-- The words that are left make up what is missing. -/
theorem Progress.wordsLeft (hp : Progress t h memory b r) (hcount : h.dmaCount % 4 = 0) :
    b.dmaDone.toNat + 4 * b.wordsLeft = h.dmaCount.toNat := by
  have hdone : b.dmaDone.toNat % 4 = 0 := by simpa using congrArg UInt32.toNat hp.aligned
  have hcount' : h.dmaCount.toNat % 4 = 0 := by simpa using congrArg UInt32.toNat hcount
  have hle : b.dmaDone.toNat ≤ h.dmaCount.toNat := UInt32.le_iff_toNat_le.1 hp.within
  have hmin : min b.dmaDone h.dmaCount = b.dmaDone := if_pos hp.within
  have hleft : b.bytesLeft.toNat = h.dmaCount.toNat - b.dmaDone.toNat := by
    rw [Host.bytesLeft, hp.count, hmin]
    exact UInt32.toNat_sub_of_le _ _ hp.within
  rw [Host.wordsLeft, hleft]
  omega

/-- A transfer of whole words that is not finished has room for another one. -/
theorem toNat_add_four {done count : UInt32} (hdone : done % 4 = 0) (hcount : count % 4 = 0)
    (hle : done ≤ count) (hne : done ≠ count) :
    (done + 4).toNat = done.toNat + 4 ∧ done.toNat + 4 ≤ count.toNat := by
  have hdone' : done.toNat % 4 = 0 := by simpa using congrArg UInt32.toNat hdone
  have hcount' : count.toNat % 4 = 0 := by simpa using congrArg UInt32.toNat hcount
  have hle' : done.toNat ≤ count.toNat := UInt32.le_iff_toNat_le.1 hle
  have hne' : done.toNat ≠ count.toNat := fun e => hne (UInt32.toNat_inj.1 e)
  have hlt : count.toNat < 2 ^ 32 := count.toNat_lt
  have hroom : done.toNat + 4 ≤ count.toNat := by omega
  refine ⟨?_, hroom⟩
  rw [UInt32.toNat_add, show (4 : UInt32).toNat = 4 from rfl]
  exact Nat.mod_eq_of_lt (by omega)

/-- The bytes of a word that is stored behind those before it. -/
theorem byte_writeWord_append {m memory : Memory} {a done word : UInt32} {given : List UInt8}
    (hroom : (done + 4).toNat = done.toNat + 4) (hlength : given.length = done.toNat)
    (hbytes : ∀ x, m.byte x = (given[(x - a).toNat]?).getD (memory.byte x)) (x : UInt32) :
    (m.writeWord (a + done) word).byte x =
      ((given ++ bytesOfWord word)[(x - a).toNat]?).getD (memory.byte x) := by
  have hoffset := toNat_sub_add x a done
  have hlt : (x - a).toNat < 2 ^ 32 := (x - a).toNat_lt
  have hend : (done + 4).toNat < 2 ^ 32 := (done + 4).toNat_lt
  rw [byte_writeWord, hbytes, List.getElem?_append]
  -- An offset wraps, so that what stands before the new word is far behind it.
  by_cases hbefore : (x - a).toNat < given.length
  · have hfar : ¬ (x - (a + done)).toNat < 4 := by omega
    rw [if_neg hfar, if_pos hbefore]
  · have hoffset' : (x - (a + done)).toNat = (x - a).toNat - given.length := by omega
    rw [if_neg hbefore, ← hoffset']
    have hnone : given[(x - a).toNat]? = none := List.getElem?_eq_none (by omega)
    by_cases hnear : (x - (a + done)).toNat < 4
    · rw [if_pos hnear, List.getElem?_eq_getElem hnear, getElem_bytesOfWord word hnear]
      rfl
    · have hlate : (bytesOfWord word)[(x - (a + done)).toNat]? = none := by
        apply List.getElem?_eq_none
        rw [length_bytesOfWord]
        omega
      rw [if_neg hnear, hlate, hnone]

/-- The bytes of a word that is read behind those before it. -/
theorem range_append_bytesOfWord (memory : Memory) (a done : UInt32)
    (hroom : (done + 4).toNat = done.toNat + 4) :
    ((List.range done.toNat).map fun i => memory.byte (a + i.toUInt32)) ++
        bytesOfWord (memory.readWord (a + done)) =
      (List.range (done + 4).toNat).map fun i => memory.byte (a + i.toUInt32) := by
  have hbyte {i : Nat} (hi : i < 4) : byteOfWord (memory.readWord (a + done)) i =
      memory.byte (a + (done.toNat + i).toUInt32) := by
    have haddr : a + done + i.toUInt32 = a + (done.toNat + i).toUInt32 := by
      rw [UInt32.add_assoc]
      congr 1
      apply UInt32.toNat_inj.1
      simp [Nat.toUInt32]
    rw [byteOfWord_readWord memory _ hi, haddr]
  have hword : bytesOfWord (memory.readWord (a + done)) =
      (List.range 4).map fun i => memory.byte (a + (done.toNat + i).toUInt32) := by
    rw [bytesOfWord, hbyte (by decide), hbyte (by decide), hbyte (by decide), hbyte (by decide)]
    rfl
  rw [hroom, List.range_add, List.map_append, List.map_map, hword]
  rfl

variable [AtaDrive δ]

theorem Progress.move (hp : Progress t h memory b r) (hcount : h.dmaCount % 4 = 0)
    (hne : b.dmaDone ≠ h.dmaCount) :
    ∃ r', Progress t h memory (t.move r b) r' ∧
      (t.move r b).dmaDone.toNat = b.dmaDone.toNat + 4 := by
  obtain ⟨hdone, hroom⟩ := toNat_add_four hp.aligned hcount hp.within hne
  have haligned : (b.dmaDone + 4) % 4 = 0 := by
    have hmod : b.dmaDone.toNat % 4 = 0 := by simpa using congrArg UInt32.toNat hp.aligned
    apply UInt32.toNat_inj.1
    rw [UInt32.toNat_mod, hdone, show (4 : UInt32).toNat = 4 from rfl, UInt32.toNat_zero]
    omega
  have hwithin : b.dmaDone + 4 ≤ h.dmaCount := by
    rw [UInt32.le_iff_toNat_le, hdone]
    exact hroom
  have hcursor : b.cursor = h.dmaAddr + b.dmaDone := by rw [Host.cursor, hp.addr]
  cases t with
  | read =>
    obtain ⟨hlength, htaken, hbytes⟩ := hp.moved
    obtain ⟨hgiven, hsame⟩ := r.record_readData32
    refine ⟨(AtaDrive.readData32 r).2,
      ⟨rfl, hp.addr, hp.count, hp.enabled, haligned, hwithin, ?_, hsame.trans htaken, ?_⟩, hdone⟩
    · rw [hgiven, List.length_append, hlength, length_bytesOfWord]
      exact hdone.symm
    · intro x
      rw [hgiven]
      change (b.memory.writeWord b.cursor _).byte x = _
      rw [hcursor]
      exact byte_writeWord_append hdone hlength hbytes x
  | write =>
    obtain ⟨hgiven, hmemory, htaken⟩ := hp.moved
    obtain ⟨hword, hsame⟩ := r.record_writeData32 (b.memory.readWord b.cursor)
    refine ⟨AtaDrive.writeData32 r (b.memory.readWord b.cursor),
      ⟨rfl, hp.addr, hp.count, hp.enabled, haligned, hwithin, hsame.trans hgiven, hmemory, ?_⟩,
      hdone⟩
    rw [hword, htaken, hcursor, hmemory]
    exact range_append_bytesOfWord memory h.dmaAddr b.dmaDone hdone

/-- A pass moves words until the transfer is finished or the drive asks for no more. -/
theorem Progress.drain {n : Nat} (hp : Progress t h memory b r) (hcount : h.dmaCount % 4 = 0)
    (hn : b.dmaDone.toNat + 4 * n = h.dmaCount.toNat) :
    ∃ r', Progress t h memory (t.drain n b) r' ∧
      ((t.drain n b).dmaDone = h.dmaCount ∨ AtaDrive.dataReady r' = false) := by
  induction n generalizing b r with
  | zero =>
    rw [t.drain_zero b]
    exact ⟨r, hp, .inl (UInt32.toNat_inj.1 hn)⟩
  | succ n ih =>
    cases hready : AtaDrive.dataReady r with
    | false =>
      rw [t.drain_of_not_ready (n + 1) hp.drive hready]
      exact ⟨r, hp, .inr hready⟩
    | true =>
      have hne : b.dmaDone ≠ h.dmaCount := by
        intro heq
        rw [heq] at hn
        omega
      obtain ⟨r', hp', hdone⟩ := hp.move hcount hne
      rw [t.drain_of_ready n hp.drive hready]
      exact ih hp' (by omega)

end Digic.Cf
