/-!
# Pages

A page is a fixed run of bytes, the unit in which memory is kept.
-/
namespace Digic.Memory

def pageSize : Nat := 4096

structure Page where
  bytes : ByteArray
  size_bytes : bytes.size = pageSize

namespace Page

def get (p : Page) (i : Fin pageSize) : UInt8 :=
  have := p.size_bytes
  p.bytes[i.val]

def set (p : Page) (i : Fin pageSize) (b : UInt8) : Page :=
  ⟨p.bytes.set! i.val b, by simp [p.size_bytes]⟩

private def tabulateFrom (f : Fin pageSize → UInt8) (n : Nat) (acc : ByteArray)
    (h : acc.size + n = pageSize) : Page :=
  match n with
  | 0 => ⟨acc, h⟩
  | n + 1 =>
    tabulateFrom f n (acc.push (f ⟨acc.size, by omega⟩)) (by simp [ByteArray.size_push]; omega)

def tabulate (f : Fin pageSize → UInt8) : Page :=
  tabulateFrom f pageSize (ByteArray.emptyWithCapacity pageSize) (Nat.zero_add _)

theorem get_set (p : Page) (i j : Fin pageSize) (b : UInt8) :
    (p.set i b).get j = if i = j then b else p.get j := by
  by_cases h : i = j
  · subst h
    simpa [get, set] using ByteArray.getElem_set!_self p.bytes i.val b (by simp [p.size_bytes])
  · have hv : i.val ≠ j.val := fun e => h (Fin.ext e)
    simpa [get, set, h] using
      ByteArray.getElem_set!_ne p.bytes i.val j.val b hv (by simp [p.size_bytes])

private theorem get_tabulateFrom (f : Fin pageSize → UInt8) (n : Nat) (acc : ByteArray)
    (h : acc.size + n = pageSize) (hacc : ∀ i (hi : i < acc.size), acc[i] = f ⟨i, by omega⟩)
    (j : Fin pageSize) : (tabulateFrom f n acc h).get j = f j := by
  induction n generalizing acc with
  | zero =>
    have hj : j.val < acc.size := by have := j.isLt; omega
    exact hacc j.val hj
  | succ n ih =>
    rw [tabulateFrom]
    apply ih
    intro i hi
    rw [ByteArray.size_push] at hi
    by_cases he : i = acc.size
    · subst he
      simp [ByteArray.getElem_eq_getElem_data, ← ByteArray.size_data]
    · have hi' : i < acc.size := by omega
      rw [← hacc i hi']
      simp [ByteArray.getElem_eq_getElem_data, Array.getElem_push, hi']

theorem get_tabulate (f : Fin pageSize → UInt8) (i : Fin pageSize) :
    (tabulate f).get i = f i :=
  get_tabulateFrom f pageSize (ByteArray.emptyWithCapacity pageSize) (Nat.zero_add _)
    (fun i hi => absurd (show i < 0 from hi) (Nat.not_lt_zero i)) i

end Page

end Digic.Memory
