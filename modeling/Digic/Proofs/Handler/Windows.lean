import Digic.Handler.Table
/-!
# Which window claims an address

The first handler that contains an address claims it. A window that no earlier handler overlaps
claims all of its range, so that for such windows the table can be read as a list of ranges.
-/
namespace Digic.Handler

namespace Entry

def disjoint (h other : Entry) : Bool := h.high < other.low || other.high < h.low

theorem contains_iff {h : Entry} {addr : UInt32} :
    h.contains addr = true ↔ h.low ≤ addr ∧ addr ≤ h.high := by
  simp [contains]

theorem contains_of_disjoint {h other : Entry} {addr : UInt32} (hdisjoint : h.disjoint other = true)
    (hother : other.contains addr = true) : h.contains addr = false := by
  rw [contains_iff] at hother
  simp only [disjoint, Bool.or_eq_true, decide_eq_true_eq, UInt32.lt_iff_toNat_lt] at hdisjoint
  rw [Bool.eq_false_iff, ne_eq, contains_iff]
  simp only [UInt32.le_iff_toNat_le] at hother ⊢
  omega

end Entry

/-- No handler that comes before one of this kind overlaps it. -/
def Leads (table : List Entry) (kind : Kind) : Prop :=
  ∀ i : Fin table.length, table[i].kind = kind →
    ∀ h ∈ table.take i, h.disjoint table[i] = true

instance (table : List Entry) (kind : Kind) : Decidable (Leads table kind) :=
  inferInstanceAs (Decidable (∀ i : Fin table.length, table[i].kind = kind →
    ∀ h ∈ table.take i, h.disjoint table[i] = true))

theorem find?_eq_some_iff {table : List Entry} {addr : UInt32} {h : Entry}
    (hleads : Leads table h.kind) :
    find? table addr = some h ↔ h ∈ table ∧ h.contains addr = true := by
  constructor
  · intro hfind
    rw [find?] at hfind
    have hcontains : h.contains addr = true := by simpa using List.find?_some hfind
    exact ⟨List.mem_of_find?_eq_some hfind, hcontains⟩
  · rintro ⟨hmem, hcontains⟩
    obtain ⟨i, hi, rfl⟩ := List.mem_iff_getElem.1 hmem
    refine List.find?_eq_some_iff_getElem.2 ⟨hcontains, i, hi, rfl, fun j hj => ?_⟩
    have hearlier : table[j] ∈ table.take i :=
      List.mem_take_iff_getElem.2 ⟨j, by omega, rfl⟩
    have hdisjoint := hleads ⟨i, hi⟩ rfl table[j] hearlier
    rw [Entry.contains_of_disjoint hdisjoint hcontains]
    rfl

/-- The windows of a kind: where each begins and ends, and its parameter. -/
def windows (kind : Kind) : List (UInt32 × UInt32 × UInt32) :=
  (standardTable.filter (·.kind = kind)).map fun h => (h.low, h.high, h.param)

theorem claimed_iff {kind : Kind} (hleads : Leads standardTable kind) (addr : UInt32)
    (P : UInt32 → Prop) :
    (∃ h, find? standardTable addr = some h ∧ h.kind = kind ∧ P h.param) ↔
      ∃ w ∈ windows kind, w.1 ≤ addr ∧ addr ≤ w.2.1 ∧ P w.2.2 := by
  simp only [windows, List.mem_map, List.mem_filter, decide_eq_true_eq]
  constructor
  · rintro ⟨h, hfind, hkind, hparam⟩
    obtain ⟨hmem, hcontains⟩ := (find?_eq_some_iff (hkind ▸ hleads)).1 hfind
    obtain ⟨hlow, hhigh⟩ := Entry.contains_iff.1 hcontains
    exact ⟨_, ⟨h, ⟨hmem, hkind⟩, rfl⟩, hlow, hhigh, hparam⟩
  · rintro ⟨_, ⟨h, ⟨hmem, hkind⟩, rfl⟩, hlow, hhigh, hparam⟩
    have hcontains : h.contains addr = true := Entry.contains_iff.2 ⟨hlow, hhigh⟩
    exact ⟨h, (find?_eq_some_iff (hkind ▸ hleads)).2 ⟨hmem, hcontains⟩, hkind, hparam⟩

theorem leads_rom : Leads standardTable .rom := by decide +kernel

theorem leads_interrupts : Leads standardTable .interrupts := by decide +kernel

theorem leads_gpio : Leads standardTable .gpio := by decide +kernel

theorem leads_cfAta : Leads standardTable .cfAta := by decide +kernel

theorem leads_edmacSwitch : Leads standardTable .edmacSwitch := by decide +kernel

theorem leads_edmac : Leads standardTable .edmac := by decide +kernel

theorem leads_sdDma : Leads standardTable .sdDma := by decide +kernel

theorem leads_cfDma : Leads standardTable .cfDma := by decide +kernel

theorem windows_rom : windows .rom =
    [(0xF8000000, 0xFFFFFFFF, 0), (0xF0000000, 0xF7FFFFFF, 1)] := rfl

theorem windows_interrupts : windows .interrupts =
    [(0xC0201000, 0xC0201FFF, 0), (0xD4011000, 0xD4011FFF, 1)] := rfl

theorem windows_gpio : windows .gpio = [(0xC0220000, 0xC022FFFF, 0)] := rfl

theorem windows_cfAta : windows .cfAta =
    [(0xC0600000, 0xC060FFFF, 0), (0xC0620000, 0xC062FFFF, 2)] := rfl

theorem windows_edmacSwitch : windows .edmacSwitch = [(0xC0F05000, 0xC0F05FFF, 0)] := rfl

theorem windows_edmac : windows .edmac =
    [(0xC0F04000, 0xC0F04FFF, 0), (0xC0F26000, 0xC0F26FFF, 1), (0xC0F30000, 0xC0F30FFF, 2)] := rfl

theorem windows_sdDma : windows .sdDma =
    [(0xC0510000, 0xC05100FF, 1), (0xC0530000, 0xC0530FFF, 3), (0xC8020000, 0xC80200FF, 6)] := rfl

theorem windows_cfDma : windows .cfDma = [(0xC0500000, 0xC0500FFF, 0)] := rfl

end Digic.Handler
