import Digic.Machine.Access
import Digic.Proofs.Flash.Programming
import Digic.Proofs.Machine.Run
import Mathlib.Data.List.Induction
import Mathlib.Data.List.Infix
/-!
# Both banks under any accesses

An access of flash memory reaches the one bank that its window names, by an answer or a cycle of a
command, and leaves the other bank as it is. All that it tells is how the cycle was taken.

So the state of a bank says how the last cycles that were written to it end, however many accesses
of any kind there were, with reads and the other bank's accesses in between. A write that changes a
byte is the last cycle of a program or an erase, and the change is that command's. A read changes no
byte.

The firmware programs flash memory by four writes into the window of a bank. Each of them is found
there by the handler table and is one cycle of the command, so that in the end the word is laid over
what stood at its place, wherever the bank repeats, and all else is as before.
-/
namespace Digic.Flash

open Bus

def Banks.bank (f : Banks) (n : Fin 2) : Bank := f.banks[n]

variable {f : Banks} {c : Context} {n : Fin 2}

theorem getElem_set (f : Banks) (b : Bank) (m n : Fin 2) :
    (f.set m b).banks[n] = if m = n then b else f.banks[n] := by
  unfold Banks.set
  by_cases h : m = n
  · subst h
    simp
  · have hne : m.val ≠ n.val := fun e => h (Fin.ext e)
    simp [h, hne]

theorem set_self (f : Banks) (n : Fin 2) : f.set n f.banks[n] = f := by
  have h : f.banks.setIfInBounds n f.banks[n] = f.banks := by
    apply Vector.ext
    intro i hi
    simp [Vector.getElem_setIfInBounds]
    intro e
    simp [e]
  rw [Banks.set, h]

theorem set_set (f : Banks) (n : Fin 2) (b b' : Bank) : (f.set n b).set n b' = f.set n b' := by
  simp [Banks.set]

theorem banks_ofModel (m : Model) (n : Fin 2) :
    (Banks.ofModel m).banks[n] = .ofLayout m.rom[n] := by
  simp [Banks.ofModel]

theorem get?_eq_some (f : Banks) (n : Fin 2) : f.get? n = some f.banks[n] := by
  simp [Banks.get?]

theorem get?_eq_none (f : Banks) {number : Nat} (h : 2 ≤ number) : f.get? number = none :=
  Vector.getElem?_eq_none h

/-- To read flash memory answers from the bank of the window. -/
theorem read_apply (hcommands : f.commands = true) (hn : c.window.param.toNat = n)
    (addr : UInt32) :
    ∃ notes : List Log.Notice, (∀ e ∈ notes, e.event? = none) ∧
      ((f.banks[n].answer (f.banks[n].offset addr)).1.isSome → notes = []) ∧
      Flash.read c addr ⟨f, #[]⟩ =
        .ok ((f.banks[n].answer (f.banks[n].offset addr)).1.getD 0)
          ⟨f.set n (f.banks[n].take (.read c addr)), (notes.map Effect.note).toArray⟩ := by
  simp only [Flash.read, Action.bind_apply, Action.device_apply, hn, get?_eq_some, Banks.read,
    hcommands, if_true, Action.update_apply]
  cases hanswer : (f.banks[n].answer (f.banks[n].offset addr)).1 with
  | some value => exact ⟨[], by simp, fun _ => rfl, rfl⟩
  | none =>
    refine ⟨[.flashUnreadable n f.banks[n].state c.pc (f.banks[n].offset addr >>> 1)], ?_,
      by simp, rfl⟩
    intro e he
    rw [List.mem_singleton.1 he]
    rfl

/-- To write flash memory is a cycle of a command for the bank of the window. -/
theorem write_apply (hcommands : f.commands = true) (hn : c.window.param.toNat = n)
    (addr value : UInt32) :
    ∃ notes : List Log.Notice, (∀ e ∈ notes, e.event? = none) ∧
      Flash.write c addr value ⟨f, #[]⟩ =
        .ok () ⟨f.set n (f.banks[n].take (.write c addr value)),
          (notes.map Effect.note).toArray⟩ := by
  have htold (b : Bank) (offset : UInt32) (g : Banks) :
      ∃ notes : List Log.Notice, (∀ e ∈ notes, e.event? = none) ∧
        tellResponse c n b offset value ⟨g, #[]⟩ =
          .ok () ⟨g, (notes.map Effect.note).toArray⟩ := by
    cases hviolation : (b.response offset value).violation with
    | true =>
      refine ⟨[.flashViolation n b.state c.pc value (offset >>> 1)], ?_, ?_⟩
      · simp [Log.Notice.event?]
      · simp only [tellResponse, hviolation, if_true]
        rfl
    | false =>
      cases hsilent : (b.response offset value).remark.isEmpty with
      | true =>
        refine ⟨[], by simp, ?_⟩
        simp only [tellResponse, hviolation, hsilent, Bool.not_true, Bool.false_eq_true, if_false]
        rfl
      | false =>
        refine ⟨[.flashCommand n b.state c.pc (b.response offset value).remark
          (b.base + offset)], ?_, ?_⟩
        · simp [Log.Notice.event?]
        · simp only [tellResponse, hviolation, hsilent, Bool.not_false, Bool.false_eq_true,
            if_true, if_false]
          rfl
  obtain ⟨notes, hplain, htold⟩ := htold f.banks[n] (f.banks[n].offset addr)
    (f.set n (f.banks[n].take (.write c addr value)))
  refine ⟨notes, hplain, ?_⟩
  simp only [Flash.write, Action.bind_apply, Action.device_apply, hn, get?_eq_some, Banks.write,
    hcommands, if_true, Action.update_apply]
  exact htold

/-- No window leads anywhere but to the two banks. -/
theorem take_of_le (f : Banks) {a : Access} (h : 2 ≤ a.number) : f.take a = f := by
  cases a with
  | read c addr =>
    have hnone : f.get? c.window.param.toNat = none := get?_eq_none f h
    simp [Banks.take, Flash.read, stateAfter, Action.bind_apply, Action.device_apply, hnone,
      Action.pure_apply]
  | write c addr value =>
    have hnone : f.get? c.window.param.toNat = none := get?_eq_none f h
    simp [Banks.take, Flash.write, stateAfter, Action.bind_apply, Action.device_apply, hnone,
      Action.pure_apply]

theorem take_of_lt (hcommands : f.commands = true) {a : Access} (hn : a.number = n) :
    f.take a = f.set n (f.banks[n].take a) := by
  cases a with
  | read c addr =>
    obtain ⟨notes, -, -, happly⟩ := read_apply hcommands hn addr
    rw [Banks.take, stateAfter, happly]
  | write c addr value =>
    obtain ⟨notes, -, happly⟩ := write_apply hcommands hn addr value
    rw [Banks.take, stateAfter, happly]

/-- A read of a bank that has an answer gives it, and tells nothing. -/
theorem read_of_answer (hcommands : f.commands = true) (hn : c.window.param.toNat = n)
    {addr value : UInt32} {b : Bank}
    (hanswer : f.banks[n].answer (f.banks[n].offset addr) = (some value, b)) :
    Flash.read c addr ⟨f, #[]⟩ = .ok value ⟨f.take (.read c addr), #[]⟩ ∧
      (f.take (.read c addr)).banks[n] = b := by
  obtain ⟨notes, -, hsilent, happly⟩ := read_apply hcommands hn addr
  have hnone : notes = [] := hsilent (by rw [hanswer]; rfl)
  have hnumber : (Access.read c addr).number = n := hn
  have htake : f.banks[n].take (.read c addr) = b := by
    rw [Bank.take, hanswer]
  rw [take_of_lt hcommands hnumber, getElem_set, if_pos rfl, happly, hanswer, hnone]
  exact ⟨rfl, htake⟩

/-- A read of a bank that is not in the middle of a command gives what stands there, and changes
nothing. -/
theorem read_of_ready (hcommands : f.commands = true) (hn : c.window.param.toNat = n)
    (hready : f.banks[n].state = .ready) (addr : UInt32) :
    Flash.read c addr ⟨f, #[]⟩ =
      .ok (f.banks[n].readWord (f.banks[n].offset addr)) ⟨f, #[]⟩ := by
  have hanswer : f.banks[n].answer (f.banks[n].offset addr) =
      (some (f.banks[n].readWord (f.banks[n].offset addr)), f.banks[n]) := by
    rw [Bank.answer, hready]
  have hnumber : (Access.read c addr).number = n := hn
  have htake : f.take (.read c addr) = f := by
    rw [take_of_lt hcommands hnumber, Bank.take, hanswer, set_self]
  rw [(read_of_answer hcommands hn hanswer).1, htake]

/-- An access changes the bank that it is meant for, and no other. -/
theorem getElem_take (hcommands : f.commands = true) (a : Access) (n : Fin 2) :
    (f.take a).banks[n] = if a.number = n then f.banks[n].take a else f.banks[n] := by
  by_cases hlt : a.number < 2
  · obtain ⟨m, hm⟩ : ∃ m : Fin 2, a.number = m := ⟨⟨a.number, hlt⟩, rfl⟩
    rw [take_of_lt hcommands hm, getElem_set, hm]
    by_cases heq : m = n
    · subst heq
      rw [if_pos rfl, if_pos rfl]
    · rw [if_neg heq, if_neg fun e => heq (Fin.ext e)]
  · have hne : a.number ≠ n := by omega
    rw [take_of_le f (by omega), if_neg hne]

theorem commands_take (hcommands : f.commands = true) (a : Access) :
    (f.take a).commands = true := by
  by_cases hlt : a.number < 2
  · rw [take_of_lt hcommands (n := ⟨a.number, hlt⟩) rfl]
    exact hcommands
  · rw [take_of_le f (by omega)]
    exact hcommands

/-- How bank `n` stands after some cycles, if it lies where `b` does. -/
structure Course (n : Fin 2) (b : Bank) (past : List Cycle) (f : Banks) : Prop where
  commands : f.commands = true
  base : f.banks[n].base = b.base
  size : f.banks[n].size = b.size
  follows : f.banks[n].state.Follows past

variable {b : Bank} {past : List Cycle}

theorem Course.offset (h : Course n b past f) (addr : UInt32) :
    f.banks[n].offset addr = b.offset addr := by
  rw [Bank.offset, Bank.offset, Bank.wrap, Bank.wrap, h.base, h.size]

theorem Course.sound (h : Course n b past f) (hb : b.Sound) : f.banks[n].Sound :=
  ⟨h.size ▸ hb.powerOfTwo, h.size ▸ hb.word⟩

theorem follows_take (h : Course n b past f) {a : Access} (ha : a.number = n) :
    (f.banks[n].take a).state.Follows (past ++ (a.cycle? n b).toList) := by
  cases a with
  | read c addr =>
    have hsame := h.follows
    rw [Access.cycle?, Option.toList_none, List.append_nil, Bank.take]
    rcases f.banks[n].answer_cases (f.banks[n].offset addr) with ⟨reads, heq⟩ | ⟨-, heq⟩
    · rw [heq]
      exact hsame
    · rw [heq]
      exact trivial
  | write c addr value =>
    have hnext := follows_next h.follows ⟨b.offset addr >>> 1, value⟩
    have hnumber : c.window.param.toNat = n := ha
    rw [Access.cycle?, if_pos hnumber, Option.toList_some, ← h.offset]
    rw [← h.offset] at hnext
    exact hnext

/-- Each access adds its cycle to the past ones. -/
theorem Course.take (h : Course n b past f) (a : Access) :
    Course n b (past ++ (a.cycle? n b).toList) (f.take a) := by
  have hbank := getElem_take h.commands a n
  by_cases ha : a.number = n
  · rw [if_pos ha] at hbank
    obtain ⟨hbase, hsize⟩ := f.banks[n].layout_take a
    refine ⟨commands_take h.commands a, ?_, ?_, ?_⟩
    · rw [hbank, hbase, h.base]
    · rw [hbank, hsize, h.size]
    · rw [hbank]
      exact follows_take h ha
  · have hnone : a.cycle? n b = none := by
      cases a with
      | read c addr => rfl
      | write c addr value => exact if_neg ha
    rw [if_neg ha] at hbank
    rw [hnone, Option.toList_none, List.append_nil]
    exact ⟨commands_take h.commands a, hbank ▸ h.base, hbank ▸ h.size, hbank ▸ h.follows⟩

theorem run_concat (f : Banks) (accesses : List Access) (a : Access) :
    f.run (accesses ++ [a]) = (f.run accesses).take a := by
  rw [Banks.run, List.foldl_append]
  rfl

theorem cycles_concat (n : Nat) (b : Bank) (accesses : List Access) (a : Access) :
    cycles n b (accesses ++ [a]) = cycles n b accesses ++ (a.cycle? n b).toList := by
  rw [cycles, List.filterMap_append]
  cases h : a.cycle? n b <;> simp [cycles, h]

theorem course_run (hcommands : f.commands = true) (hready : f.banks[n].state = .ready)
    (accesses : List Access) :
    Course n f.banks[n] (cycles n f.banks[n] accesses) (f.run accesses) := by
  induction accesses using List.reverseRecOn with
  | nil =>
    refine ⟨hcommands, rfl, rfl, ?_⟩
    have hfollows : f.banks[n].state.Follows [] := by
      rw [hready]
      exact trivial
    exact hfollows
  | append_singleton accesses a ih =>
    rw [run_concat, cycles_concat]
    exact ih.take a

/-- While a bank is not busy with an erase, its state is that which its cycles lead to. -/
theorem state_run (hcommands : f.commands = true) (hready : f.banks[n].state = .ready)
    (accesses : List Access)
    (hidle : ∀ past, past <+: cycles n f.banks[n] accesses → State.ready.after past ≠ .eraseBusy) :
    (f.run accesses).banks[n].state = State.ready.after (cycles n f.banks[n] accesses) := by
  induction accesses using List.reverseRecOn with
  | nil => exact hready
  | append_singleton accesses a ih =>
    have hcourse := course_run hcommands hready accesses
    have hbefore : cycles n f.banks[n] accesses <+: cycles n f.banks[n] (accesses ++ [a]) :=
      ⟨(a.cycle? n f.banks[n]).toList, (cycles_concat ..).symm⟩
    have hstate := ih fun past hpast => hidle past (hpast.trans hbefore)
    rw [run_concat, getElem_take hcourse.commands, cycles_concat]
    by_cases ha : a.number = n
    · rw [if_pos ha]
      cases a with
      | read c addr =>
        rw [Access.cycle?, Option.toList_none, List.append_nil, Bank.take, ← hstate]
        rcases (f.run accesses).banks[n].answer_cases ((f.run accesses).banks[n].offset addr) with
          ⟨reads, heq⟩ | ⟨hbusy, -⟩
        · rw [heq]
        · exact absurd (hstate.symm.trans hbusy) (hidle _ hbefore)
      | write c addr value =>
        have hnumber : c.window.param.toNat = n := ha
        rw [Access.cycle?, if_pos hnumber, Option.toList_some, after_concat, ← hstate,
          ← hcourse.offset]
        rfl
    · have hnone : a.cycle? n f.banks[n] = none := by
        cases a with
        | read c addr => rfl
        | write c addr value => exact if_neg ha
      rw [if_neg ha, hnone, Option.toList_none, List.append_nil]
      exact hstate

/-- From a bank that reads its contents, any accesses of both banks may follow. After them

* a read changes no byte of the bank,
* a write that changes one goes to this bank, and either programs a word, just after a cycle that
  announced it, or erases all bytes or a block of them, just after the five cycles of an erase or the
  one that bypasses them,
* the last cycle of an erase, just after the other five and no more, erases. -/
theorem changed_only_by_command {f : Banks} (hcommands : f.commands = true) (n : Fin 2)
    (hb : f.banks[n].Sound) (hready : f.banks[n].state = .ready) (accesses : List Access) :
    let past := cycles n f.banks[n] accesses
    let b := (f.run accesses).banks[n]
    let next := fun a => ((f.run accesses).take a).banks[n]
    (∀ (c : Bus.Context) (addr x : UInt32), (next (.read c addr)).cells.byte x = b.cells.byte x) ∧
    (∀ (c : Bus.Context) (addr value : UInt32),
      (∃ x < b.size, (next (.write c addr value)).cells.byte x ≠ b.cells.byte x) →
      c.window.param.toNat = n ∧
      ((∃ word, [⟨word, 0xA0⟩] <:+ past) ∧
          b.Programmed (next (.write c addr value)) (b.offset addr) value ∨
        (value = 0x10 ∧ (b.offset addr >>> 1 = 0x555 ∧ eraseUnlock <:+ past ∨
            ∃ word, [⟨word, 0x80⟩] <:+ past)) ∧
          (next (.write c addr value)).Erased ∨
        (value = 0x30 ∧ (eraseUnlock <:+ past ∨ ∃ word, [⟨word, 0x80⟩] <:+ past)) ∧
          b.BlockErased (next (.write c addr value)) (b.offset addr))) ∧
    (past = eraseUnlock → ∀ (c : Bus.Context) (addr : UInt32), c.window.param.toNat = n →
      (b.offset addr >>> 1 = 0x555 →
        (next (.write c addr 0x10)).Erased ∧ (next (.write c addr 0x10)).state = .ready) ∧
      b.BlockErased (next (.write c addr 0x30)) (b.offset addr) ∧
        (next (.write c addr 0x30)).state = .eraseBusy) := by
  intro past b next
  have hcourse := course_run hcommands hready accesses
  have hsound := hcourse.sound hb
  have hoffset (addr : UInt32) : b.offset addr < b.size := Bank.wrap_lt hsound (addr - b.base)
  have hnext (a : Access) : next a = if a.number = n then b.take a else b :=
    getElem_take hcourse.commands a n
  refine ⟨fun c addr x => ?_, fun c addr value hchanged => ?_, fun hpast c addr hnumber => ?_⟩
  · rw [hnext]
    split
    · rw [Bank.take, Bank.cells_answer]
    · rfl
  · obtain ⟨x, -, hx⟩ := hchanged
    have hnumber : (Access.write c addr value).number = n := by
      by_contra hother
      rw [hnext, if_neg hother] at hx
      exact hx rfl
    rw [hnext, if_pos hnumber] at hx ⊢
    exact ⟨hnumber, command_changed hsound hcourse.follows (hoffset addr) hx⟩
  · have hstate : b.state = .eraseUnlocked := by
      have h := state_run hcommands hready accesses
      rw [show cycles n f.banks[n] accesses = eraseUnlock from hpast] at h
      have hidle : ∀ past ∈ eraseUnlock.inits, State.ready.after past ≠ .eraseBusy := by decide
      exact h fun past hprefix => hidle past ((List.mem_inits past eraseUnlock).2 hprefix)
    have hwrite (value : UInt32) :
        next (.write c addr value) = b.command (b.offset addr) value :=
      (hnext (.write c addr value)).trans (if_pos hnumber)
    rw [hwrite, hwrite]
    exact command_eraseUnlocked hsound hstate (hoffset addr)

/-- The first bank is erased although the other one, to which a cycle goes as well, and a read of the
unlocked bank come between. -/
theorem changed_only_by_command_erase :
    let f : Banks := ⟨#v[.ofLayout ⟨0xF8000000, 0x1000000⟩, .ofLayout ⟨0xF0000000, 0x800000⟩], true⟩
    let c : Bus.Context := ⟨⟨"ROM0", .rom, 0⟩, 0, .standard⟩
    let other : Bus.Context := ⟨⟨"ROM1", .rom, 1⟩, 0, .standard⟩
    let accesses : List Access := [.write c 0xF8000AAA 0xAA, .write c 0xF8000554 0x55,
      .write other 0xF0000AAA 0xAA, .read c 0xF8000000, .write c 0xF9000AAB 0x80,
      .write c 0xF8000AAA 0xAA, .write c 0xF8000554 0x55]
    let erased := ((f.run accesses).take (.write c 0xF8000AAA 0x10)).banks[0]
    f.commands = true ∧ f.banks[0].Sound ∧ f.banks[0].state = .ready ∧
      cycles 0 f.banks[0] accesses = eraseUnlock ∧ erased.Erased ∧ erased.state = .ready := by
  intro f c other accesses erased
  have hsound : f.banks[0].Sound := ⟨by decide, by decide⟩
  have hcycles : cycles 0 f.banks[0] accesses = eraseUnlock := by decide
  obtain ⟨-, -, herase⟩ := changed_only_by_command (f := f) rfl 0 hsound rfl accesses
  obtain ⟨herased, -⟩ := herase hcycles c 0xF8000AAA rfl
  have hcourse := course_run (f := f) (n := 0) rfl rfl accesses
  have hword : (f.run accesses).banks[(0 : Fin 2)].offset 0xF8000AAA >>> 1 = 0x555 := by
    rw [hcourse.offset]
    decide
  exact ⟨rfl, hsound, rfl, hcycles, herased hword⟩

def windowBase (n : Fin 2) : UInt32 := #v[0xF8000000, 0xF0000000][n]

/-- Whether an address lies in the window of a bank, which has 128 MiB. -/
def InWindow (n : Fin 2) (addr : UInt32) : Prop :=
  windowBase n ≤ addr ∧ addr ≤ windowBase n + 0x7FFFFFF

open Handler in
/-- The windows of the banks come second and third in the table. -/
theorem find?_of_inWindow {n : Fin 2} {addr : UInt32} (h : InWindow n addr) :
    ∃ e, find? standardTable addr = some e ∧ e.kind = .rom ∧ e.param.toNat = n := by
  have hfind (e : Entry) (rest : List Entry) :
      find? (e :: rest) addr = if e.contains addr then some e else find? rest addr := by
    rw [find?, List.find?_cons]
    split <;> simp_all [find?]
  have htable : standardTable =
      standardTable[0] :: standardTable[1] :: standardTable[2] :: standardTable.drop 3 := rfl
  have hgate (hlow : 0xF0000000 ≤ addr) : standardTable[0].contains addr = false := by
    change (decide (0xC0000000 ≤ addr) && decide (addr ≤ 0xC0001FFF)) = false
    simp [UInt32.le_iff_toNat_le] at *
    omega
  obtain ⟨hlow, hhigh⟩ := h
  obtain rfl | rfl : n = 0 ∨ n = 1 := by omega
  · have hwindow : standardTable[1].contains addr = true := by
      change (decide (0xF8000000 ≤ addr) && decide (addr ≤ 0xFFFFFFFF)) = true
      simpa using ⟨hlow, hhigh⟩
    rw [htable, hfind, hfind, hgate (UInt32.le_trans (by decide) hlow), hwindow]
    exact ⟨_, rfl, rfl, rfl⟩
  · have hother : standardTable[1].contains addr = false := by
      have hbelow : addr ≤ 0xF7FFFFFF := hhigh
      change (decide (0xF8000000 ≤ addr) && decide (addr ≤ 0xFFFFFFFF)) = false
      simp [UInt32.le_iff_toNat_le] at hbelow ⊢
      omega
    have hwindow : standardTable[2].contains addr = true := by
      change (decide (0xF0000000 ≤ addr) && decide (addr ≤ 0xF7FFFFFF)) = true
      simpa using ⟨hlow, hhigh⟩
    rw [htable, hfind, hfind, hfind, hgate hlow, hother, hwindow]
    exact ⟨_, rfl, rfl, rfl⟩

end Digic.Flash

namespace Digic.Machine

open Bus Flash Memory

variable {κ δ : Type} [Sd.SdCard κ] [Cf.AtaDrive δ] {s : Machine κ δ} {n : Fin 2}

/-- An access in the window of a bank reaches flash memory. -/
theorem access_of_inWindow (htable : s.handlers = Handler.standardTable) {addr : UInt32}
    (h : InWindow n addr) : ∃ c : Context, c.window.param.toNat = n ∧
      read addr s = actFlash (Flash.read c addr) s ∧
      ∀ value, write addr value s = actFlash (Flash.write c addr value) s := by
  obtain ⟨e, hfind, hkind, hparam⟩ := find?_of_inWindow h
  have hdevice : e.kind.device = .rom := by rw [hkind, Handler.Kind.device]
  rw [← htable] at hfind
  refine ⟨s.context e.toWindow, hparam, ?_, ?_⟩
  · rw [read_of_claimed hfind, hdevice]
    rfl
  · intro value
    rw [write_of_claimed hfind, hdevice]
    rfl

/-- A write in the window of a bank is a cycle for it. -/
theorem write_of_inWindow (htable : s.handlers = Handler.standardTable)
    (hcommands : s.flash.commands = true) {addr : UInt32} (h : InWindow n addr) (value : UInt32) :
    ∃ journal, write addr value s = .ok () { s with
      flash := s.flash.set n (s.flash.banks[n].command (s.flash.banks[n].offset addr) value)
      journal := journal } := by
  obtain ⟨c, hparam, -, hwrite⟩ := access_of_inWindow htable h
  obtain ⟨notes, hplain, happly⟩ := write_apply hcommands hparam addr value
  refine ⟨s.journal ++ notes, ?_⟩
  rw [hwrite]
  simp [actFlash, act, happly, foldl_absorb_plain _ hplain, Bank.take]

/-- A read in the window of a bank that is not in the middle of a command gives what stands there,
and changes nothing. -/
theorem read_of_inWindow (htable : s.handlers = Handler.standardTable)
    (hcommands : s.flash.commands = true) (hready : s.flash.banks[n].state = .ready)
    {addr : UInt32} (h : InWindow n addr) :
    read addr s = .ok (s.flash.banks[n].readWord (s.flash.banks[n].offset addr)) s := by
  obtain ⟨c, hparam, hread, -⟩ := access_of_inWindow htable h
  rw [hread]
  simp [actFlash, act, read_of_ready hcommands hparam hready addr]

/-- The next write in the window of a bank that was written before. -/
theorem write_set (htable : s.handlers = Handler.standardTable)
    (hcommands : s.flash.commands = true) {addr : UInt32} (h : InWindow n addr) (value : UInt32)
    (b : Bank) (journal : Array Log.Notice) :
    ∃ journal', write addr value { s with flash := s.flash.set n b, journal } = .ok () { s with
      flash := s.flash.set n (b.command (b.offset addr) value), journal := journal' } := by
  have hb : (s.flash.set n b).banks[n] = b := by
    rw [getElem_set, if_pos rfl]
  obtain ⟨journal', hwrite⟩ :=
    write_of_inWindow (s := { s with flash := s.flash.set n b, journal }) htable hcommands h value
  rw [hb] at hwrite
  simp only [set_set] at hwrite
  exact ⟨journal', hwrite⟩

/-- What is read of a bank that was written before. -/
theorem read_set (htable : s.handlers = Handler.standardTable)
    (hcommands : s.flash.commands = true) {addr : UInt32} (h : InWindow n addr) {b : Bank}
    (hready : b.state = .ready) (journal : Array Log.Notice) :
    read addr { s with flash := s.flash.set n b, journal } =
      .ok (b.readWord (b.offset addr)) { s with flash := s.flash.set n b, journal } := by
  have hb : (s.flash.set n b).banks[n] = b := by
    rw [getElem_set, if_pos rfl]
  have hread := read_of_inWindow (s := { s with flash := s.flash.set n b, journal }) htable
    hcommands (hb.symm ▸ hready) h
  rwa [hb] at hread

/-- The four writes of a program succeed, and the bank is programmed. -/
theorem exists_programmed (htable : s.handlers = Handler.standardTable)
    (hcommands : s.flash.commands = true) (hb : s.flash.banks[n].Sound)
    (hready : s.flash.banks[n].state = .ready) {first second third addr : UInt32}
    (hfirst : InWindow n first ∧ s.flash.banks[n].offset first = 0xAAA)
    (hsecond : InWindow n second ∧ s.flash.banks[n].offset second = 0x554)
    (hthird : InWindow n third ∧ s.flash.banks[n].offset third = 0xAAA)
    (haddr : InWindow n addr) (value : UInt32) :
    ∃ (b' : Bank) (journal : Array Log.Notice),
      (do write first 0xAA; write second 0x55; write third 0xA0; write addr value) s =
        .ok () { s with flash := s.flash.set n b', journal } ∧
      b'.state = .ready ∧ b'.base = s.flash.banks[n].base ∧ b'.size = s.flash.banks[n].size ∧
      s.flash.banks[n].Programmed b' (s.flash.banks[n].offset addr) value := by
  generalize hbank : s.flash.banks[n] = b at *
  have hself : { s with flash := s.flash.set n b, journal := s.journal } = s := by
    rw [← hbank, set_self]
  obtain ⟨j₁, h₁⟩ := write_set htable hcommands hfirst.1 0xAA b s.journal
  obtain ⟨j₂, h₂⟩ := write_set htable hcommands hsecond.1 0x55 (b.command 0xAAA 0xAA) j₁
  obtain ⟨j₃, h₃⟩ := write_set htable hcommands hthird.1 0xA0
    ((b.command 0xAAA 0xAA).command 0x554 0x55) j₂
  obtain ⟨j₄, h₄⟩ := write_set htable hcommands haddr value
    (((b.command 0xAAA 0xAA).command 0x554 0x55).command 0xAAA 0xA0) j₃
  simp only [Bank.offset_command] at h₂ h₃ h₄
  rw [hself, hfirst.2] at h₁
  rw [hsecond.2] at h₂
  rw [hthird.2] at h₃
  generalize hb' : (((b.command 0xAAA 0xAA).command 0x554 0x55).command 0xAAA 0xA0).command
    (b.offset addr) value = b' at h₄
  rw [Bank.command_unlock hready] at hb'
  have hlt : b.offset addr < b.size := Bank.wrap_lt hb (addr - b.base)
  refine ⟨b', j₄, ?_, Bank.programmed_command hb hlt value hb'⟩
  rw [bind_of_ok h₁, bind_of_ok h₂, bind_of_ok h₃]
  exact h₄

/-- The firmware programs a word by two unlock cycles and the command, all in the window of a bank,
and a write of the word. All four succeed. The bank then holds the word laid over what stood at its
four places, around its end too, and can be read at once: the word is found wherever the bank
repeats, and another address gives the bytes that stand there. Of the rest of the machine nothing is
changed but the journal. -/
theorem programmed_then_read (htable : s.handlers = Handler.standardTable)
    (hcommands : s.flash.commands = true) (n : Fin 2)
    (hsize : isPowerOfTwo s.flash.banks[n].size = true)
    (hready : s.flash.banks[n].state = .ready) {first second third addr : UInt32}
    (hfirst : InWindow n first ∧ s.flash.banks[n].offset first = 0xAAA)
    (hsecond : InWindow n second ∧ s.flash.banks[n].offset second = 0x554)
    (hthird : InWindow n third ∧ s.flash.banks[n].offset third = 0xAAA)
    (haddr : InWindow n addr) (value : UInt32) :
    let b := s.flash.banks[n]
    let place := fun (x : UInt32) (i : Nat) => ((x - b.base).toNat + i) % b.size.toNat
    ∃ (b' : Bank) (journal : Array Log.Notice) (old : UInt32),
      let s' := { s with flash := s.flash.set n b', journal }
      (do write first 0xAA; write second 0x55; write third 0xA0; write addr value) s = .ok () s' ∧
      s'.flash.banks[n] = b' ∧ (∀ k ≠ n, s'.flash.banks[k] = s.flash.banks[k]) ∧
      b'.state = .ready ∧ b'.base = b.base ∧ b'.size = b.size ∧
      (∀ i < 4, ∀ p : UInt32, p.toNat = place addr i →
        b'.cells.byte p = b.cells.byte p &&& byteOfWord value i) ∧
      (∀ p : UInt32, (∀ i < 4, p.toNat ≠ place addr i) → b'.cells.byte p = b.cells.byte p) ∧
      read addr s = .ok old s ∧
      (∀ x, InWindow n x → x.toNat ≡ addr.toNat [MOD b.size.toNat] →
        read x s' = .ok (old &&& value) s') ∧
      ∀ x, InWindow n x → ∃ w, read x s' = .ok w s' ∧
        ∀ i < 4, ∀ p : UInt32, p.toNat = place x i → byteOfWord w i = b'.cells.byte p := by
  intro b place
  have hb : b.Sound := Bank.sound_of_offset hsize hfirst.2
  obtain ⟨b', journal, hwrites, hstate, hbase, hsize', hprogrammed⟩ :=
    exists_programmed htable hcommands hb hready hfirst hsecond hthird haddr value
  have hplace (x : UInt32) (i : Nat) (p : UInt32) :
      p.toNat = place x i ↔ p = b.place (b.offset x) i := by
    rw [← UInt32.toNat_inj, Bank.toNat_place_offset hb]
  have hoffset (x : UInt32) : b'.offset x = b.offset x := by
    rw [Bank.offset, Bank.offset, Bank.wrap, Bank.wrap, hbase, hsize']
  refine ⟨b', journal, b.readWord (b.offset addr), hwrites, ?_, ?_, hstate, hbase, hsize', ?_, ?_,
    read_of_inWindow htable hcommands hready haddr, ?_, ?_⟩
  · rw [getElem_set, if_pos rfl]
  · intro k hk
    rw [getElem_set, if_neg hk.symm]
  · intro i hi p hp
    rw [(hplace addr i p).1 hp]
    exact hprogrammed.1 i hi
  · intro p hp
    exact hprogrammed.2 p fun i hi h => hp i hi ((hplace addr i p).2 h)
  · intro x hx hmirror
    rw [read_set htable hcommands hx hstate, hoffset, Bank.offset_congr hb hmirror,
      Bank.readWord_of_programmed hprogrammed hsize']
  · intro x hx
    refine ⟨_, read_set htable hcommands hx hstate journal, ?_⟩
    intro i hi p hp
    rw [(hplace x i p).1 hp, hoffset, Bank.byteOfWord_readWord hi, Bank.place, Bank.place,
      Bank.wrap, Bank.wrap, hsize']

/-- A word that lies around the end of an erased bank is found in full where the bank repeats. -/
theorem programmed_then_read_wrapping :
    let s : Machine Empty Empty := .ofModel .standard
    s.handlers = Handler.standardTable ∧ s.flash.commands = true ∧
    ∃ s', (do
        write 0xF8000AAA 0xAA; write 0xF9000554 0x55; write 0xFF000AAA 0xA0
        write 0xF8FFFFFF 0x12345678) s = .ok () s' ∧
      read 0xF9FFFFFF s' = .ok 0x12345678 s' := by
  intro s
  have hbank : s.flash.banks[(0 : Fin 2)] = .ofLayout ⟨0xF8000000, 0x1000000⟩ :=
    banks_ofModel .standard 0
  have hready : s.flash.banks[(0 : Fin 2)].state = .ready := by rw [hbank]; rfl
  have hsize : isPowerOfTwo s.flash.banks[(0 : Fin 2)].size = true := by rw [hbank]; rfl
  have hunlock (addr : UInt32) (h : InWindow 0 addr) {offset : UInt32}
      (ho : (Bank.ofLayout ⟨0xF8000000, 0x1000000⟩).offset addr = offset) :
      InWindow 0 addr ∧ s.flash.banks[(0 : Fin 2)].offset addr = offset := by
    rw [hbank]
    exact ⟨h, ho⟩
  have haddr : InWindow 0 0xF8FFFFFF := ⟨by decide, by decide⟩
  obtain ⟨b', journal, old, hwrites, -, -, -, -, -, -, -, hold, hmirror, -⟩ :=
    programmed_then_read (s := s) rfl rfl 0 hsize hready
      (hunlock 0xF8000AAA ⟨by decide, by decide⟩ rfl)
      (hunlock 0xF9000554 ⟨by decide, by decide⟩ rfl)
      (hunlock 0xFF000AAA ⟨by decide, by decide⟩ rfl) haddr 0x12345678
  have hblank : old = 0xFFFFFFFF := by
    have h := read_of_inWindow (s := s) rfl rfl hready haddr
    rw [hold, hbank] at h
    simp [Bank.readWord, Bank.byteAt, Bank.ofLayout, byte_blank] at h
    exact h.trans (by decide)
  have hread := hmirror 0xF9FFFFFF ⟨by decide, by decide⟩ (by rw [hbank]; rfl)
  rw [hblank] at hread
  exact ⟨rfl, rfl, _, hwrites, hread⟩

end Digic.Machine
