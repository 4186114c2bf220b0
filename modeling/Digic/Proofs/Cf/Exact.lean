import Digic.Proofs.Cf.Progress
import Mathlib.Data.List.Induction
/-!
# A transfer moves exactly what was asked for

A transfer takes as many passes as the drive makes it take. Between two of them the drive may change
by itself, and in each it may ask for any number of words. Whatever it does, the bytes go where they
belong, and the completion is given once.
-/
namespace Digic.Cf

open Bus

variable {δ : Type}

theorem unrecorded_start (t : Transfer) (h : Host δ) (memory : Memory) :
    (⟨t.start h.recorded, memory⟩ : Bench (Recorded δ)).unrecorded = ⟨t.start h, memory⟩ := by
  have hdrive : (h.drive.map Recorded.fresh).map (·.drive) = h.drive := by
    cases h.drive <;> rfl
  cases t with
  | read => simp only [Bench.unrecorded, Transfer.start, Host.recorded, hdrive]
  | write => simp only [Bench.unrecorded, Transfer.start, Host.recorded, hdrive]

theorem changeDrive_unrecorded (change : δ → δ) (b : Bench (Recorded δ)) :
    b.unrecorded.changeDrive change = (b.changeDrive (Recorded.change change)).unrecorded := by
  rw [Bench.changeDrive, Bench.unrecorded, Bench.unrecorded, Bench.changeDrive]
  cases b.drive <;> rfl

theorem settle_unrecorded (t : Transfer) (b : Bench (Recorded δ)) :
    t.settle b.unrecorded = (t.settle b).unrecorded := by
  have hfinished : b.unrecorded.finished = b.finished := rfl
  rw [Transfer.settle, Transfer.settle, hfinished]
  cases b.finished with
  | false => rfl
  | true => cases t <;> rfl

section Runs

variable [AtaDrive δ] {t : Transfer} {h : Host δ} {memory : Memory} {b : Bench (Recorded δ)}
  {r : Recorded δ} {m : Model}

theorem drain_unrecorded (t : Transfer) (n : Nat) (b : Bench (Recorded δ)) :
    t.drain n b.unrecorded = (t.drain n b).unrecorded := by
  refine t.drain_map (f := Bench.unrecorded) (fun _ => rfl) Recorded.dataReady_drive ?_ n b
  intro b r
  cases t <;> rfl

theorem passAfter_unrecorded (hdriver : m.cfDriverInterrupt ≠ 0) (hdma : m.cfDmaInterrupt ≠ 0)
    (hcount : b.dmaCount % 4 = 0) {pending : Bool} (hrequests : b.requests = t.requests pending)
    (change : δ → δ) :
    passAfter m change b.unrecorded =
      (passAfter m (Recorded.change change) b).map fun p => (p.1, p.2.unrecorded) := by
  have hrequests' : b.unrecorded.requests = t.requests pending := hrequests
  cases pending with
  | false =>
    rw [passAfter_of_idle t change hrequests', passAfter_of_idle t _ hrequests,
      changeDrive_unrecorded]
    rfl
  | true =>
    have hwords : b.unrecorded.wordsLeft = b.wordsLeft := rfl
    rw [passAfter_of_pending t hdriver hdma change hrequests' hcount,
      passAfter_of_pending t hdriver hdma _ hrequests hcount, changeDrive_unrecorded, hwords,
      drain_unrecorded, settle_unrecorded]
    rfl

/-- How a transfer stands after each of its passes. -/
structure AfterPass (t : Transfer) (h : Host δ) (memory : Memory) (b : Bench (Recorded δ))
    (r : Recorded δ) : Prop extends Progress t h memory b r where
  /-- The request waits for as long as something is missing. -/
  requests : b.requests = t.requests (b.dmaDone ≠ h.dmaCount)
  /-- The words of the pass came to an end. -/
  ended : b.dmaDone = h.dmaCount ∨ AtaDrive.dataReady r = false

/-- What a pass gives: the completion, if a request waited and nothing is missing any more. -/
def passGives (m : Model) (h : Host δ) (pending : Bool) (b : Bench (Recorded δ)) : List UInt32 :=
  if pending ∧ b.dmaDone = h.dmaCount then completions m h.interruptsEnabled else []

/-- Once nothing is missing and no request waits, a pass leaves the transfer as it is. -/
theorem Progress.pass_idle (hp : Progress t h memory b r)
    (hrequests : b.requests = t.requests false) (hdone : b.dmaDone = h.dmaCount) (change : δ → δ) :
    AfterPass t h memory (b.changeDrive (Recorded.change change)) (r.change change) := by
  refine ⟨hp.changeDrive change, ?_, .inl hdone⟩
  change b.requests = t.requests (b.dmaDone ≠ h.dmaCount)
  rw [hdone]
  simpa using hrequests

/-- A pass with a request moves words, and takes the request back with the last of them. -/
theorem Progress.pass_pending (hcount : h.dmaCount % 4 = 0) (hp : Progress t h memory b r)
    (hrequests : b.requests = t.requests true) {n : Nat}
    (hn : b.dmaDone.toNat + 4 * n = h.dmaCount.toNat) :
    ∃ r', AfterPass t h memory (t.settle (t.drain n b)) r' ∧
      (t.drain n b).gives m = passGives m h true (t.settle (t.drain n b)) := by
  obtain ⟨r', hdrained, hended⟩ := hp.drain hcount hn
  have hdrainedRequests := (t.drain_settings n b).1.trans hrequests
  generalize t.drain n b = d at hdrained hended hdrainedRequests ⊢
  have hdone : (t.settle d).dmaDone = d.dmaDone := t.dmaDone_settle d
  refine ⟨r', ⟨hdrained.settle, ?_, ?_⟩, ?_⟩
  · rw [t.requests_settle hdrainedRequests, hdone, hdrained.not_finished]
  · rw [hdone]
    exact hended
  · rw [Bench.gives, passGives, hdone, hdrained.enabled]
    simp [hdrained.finished_iff]

/-- A transfer that is not finished has its request waiting. Whatever the drive does before the pass
and in it, the transfer stands afterwards as it should, and a finished one is left alone. -/
theorem Progress.pass (hdriver : m.cfDriverInterrupt ≠ 0) (hdma : m.cfDmaInterrupt ≠ 0)
    (hcount : h.dmaCount % 4 = 0) {pending : Bool} (hp : Progress t h memory b r)
    (hrequests : b.requests = t.requests pending)
    (hdone : pending = false → b.dmaDone = h.dmaCount) (change : δ → δ) :
    ∃ b' r', passAfter m (Recorded.change change) b = some (passGives m h pending b', b') ∧
      passAfter m change b.unrecorded = some (passGives m h pending b', b'.unrecorded) ∧
      AfterPass t h memory b' r' ∧ (pending = false → b'.dmaDone = h.dmaCount) := by
  have hcount' : b.dmaCount % 4 = 0 := hp.count ▸ hcount
  suffices hpass : ∃ b' r',
      passAfter m (Recorded.change change) b = some (passGives m h pending b', b') ∧
      AfterPass t h memory b' r' ∧ (pending = false → b'.dmaDone = h.dmaCount) by
    obtain ⟨b', r', hgives, hafter, hsame⟩ := hpass
    refine ⟨b', r', hgives, ?_, hafter, hsame⟩
    rw [passAfter_unrecorded hdriver hdma hcount' hrequests, hgives]
    rfl
  cases pending with
  | false =>
    refine ⟨_, _, ?_, hp.pass_idle hrequests (hdone rfl) change, hdone⟩
    rw [passAfter_of_idle t _ hrequests]
    simp [passGives]
  | true =>
    have hchanged := hp.changeDrive change
    obtain ⟨r', hafter, hgives⟩ :=
      hchanged.pass_pending (m := m) hcount hrequests (hchanged.wordsLeft hcount)
    refine ⟨_, r', ?_, hafter, Bool.noConfusion⟩
    rw [passAfter_of_pending t hdriver hdma _ hrequests hcount', ← hgives]
    rfl

/-- Whatever the drive does between and in the passes, they bring the transfer forward, and
altogether they give its completion once it is finished. -/
theorem Progress.passes (hdriver : m.cfDriverInterrupt ≠ 0)
    (hdma : m.cfDmaInterrupt ≠ 0) (hcount : h.dmaCount % 4 = 0) (hp : Progress t h memory b r)
    (hstart : b.requests = t.requests true) (changes : List (δ → δ)) :
    ∃ ids b' r', Cf.passes m b (changes.map Recorded.change) = some (ids, b') ∧
      Cf.passes m b.unrecorded changes = some (ids, b'.unrecorded) ∧
      Progress t h memory b' r' ∧
      b'.requests = t.requests (changes.isEmpty || b'.dmaDone ≠ h.dmaCount) ∧
      ids.flatten = passGives m h (!changes.isEmpty) b' := by
  -- From the last pass on, as what came before decides whether it has anything to do.
  induction changes using List.reverseRecOn with
  | nil => exact ⟨[], b, r, rfl, rfl, hp, hstart, by simp [passGives]⟩
  | append_singleton changes change ih =>
    obtain ⟨ids, before, r₁, hrun, hplain, hbefore, hrequests, hflatten⟩ := ih
    have hdone : (changes.isEmpty || before.dmaDone ≠ h.dmaCount) = false →
        before.dmaDone = h.dmaCount := by
      simp
    obtain ⟨after, r₂, hpass, hplainPass, hafter, hsame⟩ :=
      hbefore.pass hdriver hdma hcount hrequests hdone change
    have hnonempty : (changes ++ [change]).isEmpty = false := by cases changes <;> rfl
    refine ⟨_, after, r₂, ?_, passes_concat hplain hplainPass, hafter.toProgress, ?_, ?_⟩
    · rw [List.map_append]
      exact passes_concat hrun hpass
    · rw [hnonempty, Bool.false_or]
      exact hafter.requests
    · rw [List.flatten_append, hflatten, hnonempty, List.flatten_singleton]
      -- A pass with something to do follows passes that gave nothing.
      generalize hpending : (changes.isEmpty || before.dmaDone ≠ h.dmaCount) = pending at hsame ⊢
      cases pending with
      | true =>
        have hnone : passGives m h (!changes.isEmpty) before = [] := by
          rw [passGives, if_neg]
          simpa [← or_iff_not_imp_left] using hpending
        rw [hnone]
        rfl
      | false =>
        have hboth : changes.isEmpty = false ∧ before.dmaDone = h.dmaCount := by
          simpa using hpending
        simp [passGives, hboth, hsame rfl]

/-- Firmware's write starts the transfer, and each run of passes brings it forward as it should. -/
theorem transfer_passes (hdriver : m.cfDriverInterrupt ≠ 0) (hdma : m.cfDmaInterrupt ≠ 0)
    (t : Transfer) {c : Context} (hwindow : c.window.kind = .cfDma) {addr value : UInt32}
    (haddr : addr &&& 0x1F = 0x10) (hvalue : value ∈ t.commands) (hdrive : h.drive.isSome)
    (hidle : h.requests = (false, false, false)) (hcount : h.dmaCount % 4 = 0) (memory : Memory)
    (changes : List (δ → δ)) :
    ∃ ids b r, transfer m c addr value h.recorded memory (changes.map Recorded.change) =
        some (ids, b) ∧
      transfer m c addr value h memory changes = some (ids, b.unrecorded) ∧
      Progress t h memory b r ∧
      b.requests = t.requests (changes.isEmpty || b.dmaDone ≠ h.dmaCount) ∧
      ids.flatten = passGives m h (!changes.isEmpty) b := by
  have hrecorded : h.recorded.drive.isSome := by simpa [Host.recorded] using hdrive
  obtain ⟨effects, hwrite⟩ := write_start t hwindow haddr hvalue hdrive
  obtain ⟨effects', hwrite'⟩ := write_start t hwindow haddr hvalue hrecorded
  obtain ⟨r₀, hp₀, hstart⟩ := Progress.start t hdrive hidle memory
  obtain ⟨ids, b, r, hrun, hplain, hp⟩ := hp₀.passes hdriver hdma hcount hstart changes
  refine ⟨ids, b, r, ?_, ?_, hp⟩
  · rw [transfer, hwrite']
    exact hrun
  · rw [transfer, hwrite]
    rw [unrecorded_start] at hplain
    exact hplain

/-- Firmware sets up whole words from any address on and starts a transfer while nothing else is
under way. Whatever the drive does by itself before each pass, after each pass

* the transfer stands as `AfterPass` says: what went through the data register is what was moved,
  and it stands where it belongs,
* the pass gave the completion if it moved the last word or was the first of an empty transfer, and
  nothing otherwise,
* all this is so with or without the record.

What passes moved decides on the outcome, not how it was divided among them. -/
theorem transfer_moves_exactly {m : Model} (hdriver : m.cfDriverInterrupt ≠ 0)
    (hdma : m.cfDmaInterrupt ≠ 0) (t : Transfer) {c : Context} (hwindow : c.window.kind = .cfDma)
    {addr value : UInt32} (haddr : addr &&& 0x1F = 0x10) (hvalue : value ∈ t.commands)
    {h : Host δ} (hdrive : h.drive.isSome) (hidle : h.requests = (false, false, false))
    (hcount : h.dmaCount % 4 = 0) (memory : Memory) :
    let run := fun changes : List (δ → δ) =>
      transfer m c addr value h.recorded memory (changes.map Recorded.change)
    (∀ changes change, ∃ ids last before after r,
      run changes = some (ids, before) ∧
      run (changes ++ [change]) = some (ids ++ [last], after) ∧
      transfer m c addr value h memory (changes ++ [change]) =
        some (ids ++ [last], after.unrecorded) ∧
      AfterPass t h memory after r ∧
      last = if after.dmaDone = h.dmaCount ∧ (changes.isEmpty ∨ before.dmaDone ≠ h.dmaCount)
        then completions m h.interruptsEnabled else []) ∧
    ∀ first second, first ≠ [] → second ≠ [] → ∀ ids₁ b₁ r₁ ids₂ b₂ r₂,
      run first = some (ids₁, b₁) → b₁.drive = some r₁ →
      run second = some (ids₂, b₂) → b₂.drive = some r₂ →
      r₁.given = r₂.given → r₁.taken = r₂.taken →
      b₁.dmaDone = b₂.dmaDone ∧ b₁.requests = b₂.requests ∧ ids₁.flatten = ids₂.flatten ∧
        ∀ x, b₁.memory.byte x = b₂.memory.byte x := by
  intro run
  have hpasses := transfer_passes hdriver hdma t hwindow haddr hvalue hdrive hidle hcount memory
  have hsettled {changes : List (δ → δ)} {ids : List (List UInt32)} {b : Bench (Recorded δ)}
      {r : Recorded δ} (hne : changes ≠ []) (hrun : run changes = some (ids, b))
      (hr : b.drive = some r) : Progress t h memory b r ∧
        b.requests = t.requests (b.dmaDone ≠ h.dmaCount) ∧
        ids.flatten = passGives m h true b := by
    obtain ⟨ids', b', r', hrun', -, hp, hrequests, hflatten⟩ := hpasses changes
    obtain ⟨rfl, rfl⟩ : ids' = ids ∧ b' = b := by
      simpa using hrun'.symm.trans hrun
    obtain rfl : r' = r := Option.some.inj (hp.drive.symm.trans hr)
    rw [List.isEmpty_eq_false_iff.2 hne] at hrequests hflatten
    exact ⟨hp, hrequests, hflatten⟩
  constructor
  · intro changes change
    obtain ⟨ids, before, r, hrun, hplain, hbefore, hrequests, -⟩ := hpasses changes
    have hdone : (changes.isEmpty || before.dmaDone ≠ h.dmaCount) = false →
        before.dmaDone = h.dmaCount := by
      simp
    obtain ⟨after, r', hpass, hplainPass, hafter, -⟩ :=
      hbefore.pass hdriver hdma hcount hrequests hdone change
    refine ⟨ids, passGives m h (changes.isEmpty || before.dmaDone ≠ h.dmaCount) after, before,
      after, r', hrun, ?_, transfer_concat hplain hplainPass, hafter, ?_⟩
    · simp only [run, List.map_append]
      exact transfer_concat hrun hpass
    · simp only [passGives, Bool.or_eq_true, decide_eq_true_eq, and_comm]
  · intro first second hfirst hsecond ids₁ b₁ r₁ ids₂ b₂ r₂ hrun₁ hdrive₁ hrun₂ hdrive₂ hgiven
      htaken
    obtain ⟨hp₁, hrequests₁, hflatten₁⟩ := hsettled hfirst hrun₁ hdrive₁
    obtain ⟨hp₂, hrequests₂, hflatten₂⟩ := hsettled hsecond hrun₂ hdrive₂
    obtain ⟨hdone, hbytes⟩ := hp₁.moved.unique hp₂.moved hgiven htaken
    refine ⟨hdone, ?_, ?_, hbytes⟩
    · rw [hrequests₁, hrequests₂, hdone]
    · rw [hflatten₁, hflatten₂, passGives, passGives, hdone]

end Runs

/-- A drive that numbers its transfers, and asks for some of them at a time. -/
structure Counter where
  next : UInt16
  wanted : Nat

instance : AtaDrive Counter where
  readRegister d _ := (0, d)
  writeRegister d _ _ := d
  readData16 d := (d.next, ⟨d.next + 1, d.wanted - 1⟩)
  writeData16 d _ := ⟨d.next + 1, d.wanted - 1⟩
  status d := if d.wanted = 0 then 0x40 else 0x48
  writeControl d _ := d

/-- Two words around the top of memory, of which the drive gives one in each pass. -/
theorem transfer_moves_exactly_split :
    let c : Context := ⟨⟨"CFDMA0", .cfDma, 0⟩, 0, .standard⟩
    let h : Host Counter := ⟨some ⟨1, 0⟩, 0xFFFFFFFC, 8, 0, false, false, 0x00010000, false, false⟩
    let ask : Counter → Counter := fun d => { d with wanted := 2 }
    ∃ b, transfer .standard c 0xC0500010 0x39 h (.blank 0) [ask, ask] = some ([[], [0xE3]], b) ∧
      b.dmaDone = 8 ∧ b.memory.byte 0xFFFFFFFC = 1 ∧ b.memory.byte 0 = 3 := by
  intro c h ask
  have hdriver : Model.standard.cfDriverInterrupt ≠ 0 := by decide
  have hdma : Model.standard.cfDmaInterrupt ≠ 0 := by decide
  have hwindow : c.window.kind = .cfDma := rfl
  have haddr : (0xC0500010 : UInt32) &&& 0x1F = 0x10 := by decide
  have hvalue : (0x39 : UInt32) ∈ Transfer.read.commands := by decide
  have hdrive : h.drive.isSome := rfl
  have hidle : h.requests = (false, false, false) := rfl
  have hcount : h.dmaCount % 4 = 0 := by decide
  obtain ⟨ids, last, before, after, r, -, hrun, hplain, hafter, -⟩ :=
    (transfer_moves_exactly hdriver hdma .read hwindow haddr hvalue hdrive hidle hcount
      (.blank 0)).1 [ask] ask
  have hseen : (transfer .standard c 0xC0500010 0x39 h.recorded (.blank 0)
      ([ask, ask].map Recorded.change)).map
        (fun p => (p.1, p.2.dmaDone, p.2.drive.map (·.given))) =
      some ([[], [0xE3]], 8, some [1, 0, 2, 0, 3, 0, 4, 0]) := by
    decide +kernel
  have hrecorded : transfer .standard c 0xC0500010 0x39 h.recorded (.blank 0)
      ([ask, ask].map Recorded.change) = some (ids ++ [last], after) := hrun
  rw [hrecorded, Option.map_some, hafter.drive] at hseen
  obtain ⟨hids, hdone, hgiven⟩ : ids ++ [last] = [[], [0xE3]] ∧ after.dmaDone = 8 ∧
      r.given = [1, 0, 2, 0, 3, 0, 4, 0] := by
    simpa using hseen
  obtain ⟨-, -, hbytes⟩ := hafter.moved
  have htop : ((0xFFFFFFFC : UInt32) - h.dmaAddr).toNat = 0 := by decide
  have hwrapped : ((0 : UInt32) - h.dmaAddr).toNat = 4 := by decide
  have hfirst := hbytes 0xFFFFFFFC
  have hsecond := hbytes 0
  rw [htop, hgiven] at hfirst
  rw [hwrapped, hgiven] at hsecond
  exact ⟨after.unrecorded, hids ▸ hplain, hdone, hfirst, hsecond⟩

end Digic.Cf
