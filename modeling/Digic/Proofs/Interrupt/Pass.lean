import Digic.Machine.State
import Digic.Proofs.Interrupt.Countdown
import Mathlib.Data.List.Find
/-!
# What one pass does

A pass comes to the lines from the highest down, and to the line of the timer last. If nothing is in
service it takes the first line that is due into service, and from then on no other line is due. So
what a pass does can be read off the state before it: which line it delivers, and what it leaves of
each line.
-/
namespace Digic.Interrupt

/-- What a pass leaves of a line that it does not take into service. -/
def Line.elapse (l : Line) : Line :=
  if 1 < l.countdown then { l with countdown := l.countdown - 1 } else l

@[simp] theorem Line.enabled_elapse (l : Line) : l.elapse.enabled = l.enabled := by
  unfold elapse
  split <;> rfl

theorem Line.countdown_elapse (l : Line) :
    l.elapse.countdown = if 1 < l.countdown then l.countdown - 1 else l.countdown := by
  unfold elapse
  split <;> rfl

namespace Controller

variable {c : Controller} {timer rearm id other : UInt32} {ids : List UInt32}

theorem line_visit_self (h : ¬ c.isDue id) (timer rearm : UInt32) :
    (c.visit timer rearm id).1.line id = (c.line id).elapse := by
  rw [visit_of_not_isDue h, Line.elapse]
  split
  case isTrue hmany =>
    have hpos : 0 < (c.line id).countdown := UInt32.lt_trans (by decide) hmany
    exact line_setLine_self c _ (lt_of_countdown_pos hpos)
  case isFalse => rfl

/-- A turn that takes nothing into service leaves the other lines as due as they were. -/
theorem isDue_visit_of_ne (h : ¬ c.isDue id) (hne : other ≠ id) (timer rearm : UInt32) :
    (c.visit timer rearm id).1.isDue other = c.isDue other := by
  rw [isDue, isDue, line_visit_of_ne c hne, (active_visit_of_not_isDue h timer rearm).1]

/-- While something is in service, turns of different lines let these elapse. -/
theorem line_visitAll_of_active (hbusy : c.active ≠ 0) (hnodup : ids.Nodup)
    (timer rearm other : UInt32) : (c.visitAll timer rearm ids).1.line other =
      if other ∈ ids then (c.line other).elapse else c.line other := by
  induction ids generalizing c with
  | nil => rfl
  | cons id ids ih =>
    obtain ⟨hfresh, hdistinct⟩ := List.nodup_cons.1 hnodup
    have hdue : ¬ c.isDue id := not_isDue_of_active hbusy id
    have hactive := (active_visit_of_not_isDue hdue timer rearm).1
    rw [visitAll_cons, ih (hactive ▸ hbusy) hdistinct]
    by_cases hother : other = id
    · subst hother
      simp [hfresh, line_visit_self hdue]
    · simp [line_visit_of_ne c hother, hother]

/-- A line that is due is delivered, and the lines after it elapse. -/
theorem visitAll_cons_of_isDue (hdue : c.isDue id) (hid : id ≠ 0) (hnodup : (id :: ids).Nodup)
    (timer rearm : UInt32) :
    (c.visitAll timer rearm (id :: ids)).2 = [.serviced id] ∧
      (c.visitAll timer rearm (id :: ids)).1.active = id ∧
      ∀ other, (c.visitAll timer rearm (id :: ids)).1.line other =
        if id = other then served timer rearm other
        else if other ∈ id :: ids then (c.line other).elapse else c.line other := by
  obtain ⟨hfresh, hdistinct⟩ := List.nodup_cons.1 hnodup
  have hvisit := visit_of_isDue hdue timer rearm
  have hbusy : (c.visit timer rearm id).1.active ≠ 0 := by
    rw [hvisit]
    exact hid
  obtain ⟨hactive, hnone⟩ := visitAll_of_active hbusy timer rearm ids
  rw [visitAll_cons]
  refine ⟨?_, ?_, fun other => ?_⟩
  · rw [hnone, hvisit]
    rfl
  · rw [hactive, hvisit]
  · rw [line_visitAll_of_active hbusy hdistinct]
    by_cases hother : other = id
    · subst hother
      rw [if_neg hfresh, if_pos rfl, hvisit]
      exact line_setLine_self c _ (lt_of_isDue hdue)
    · simp [line_visit_of_ne c hother, hother, Ne.symm hother]

/-- Turns of different lines deliver the first of them that is due, and let the others elapse. -/
theorem visitAll_eq (hzero : ∀ id ∈ ids, id ≠ 0) (hnodup : ids.Nodup) (c : Controller)
    (timer rearm : UInt32) :
    let first := ids.find? (c.isDue ·)
    (c.visitAll timer rearm ids).2 = first.toList.map .serviced ∧
      (c.visitAll timer rearm ids).1.active = first.getD c.active ∧
      ∀ other, (c.visitAll timer rearm ids).1.line other =
        if first = some other then served timer rearm other
        else if other ∈ ids then (c.line other).elapse else c.line other := by
  induction ids generalizing c with
  | nil => exact ⟨rfl, rfl, fun other => rfl⟩
  | cons id ids ih =>
    obtain ⟨hid, hrest⟩ := List.forall_mem_cons.1 hzero
    obtain ⟨hfresh, hdistinct⟩ := List.nodup_cons.1 hnodup
    by_cases hdue : c.isDue id
    · have hfirst : (id :: ids).find? (c.isDue ·) = some id := by simp [hdue]
      have hdelivered := visitAll_cons_of_isDue hdue hid hnodup timer rearm
      simpa [hfirst] using hdelivered
    · obtain ⟨hevents, hactive, hlines⟩ := ih hrest hdistinct (c.visit timer rearm id).1
      obtain ⟨hsame, hnil⟩ := active_visit_of_not_isDue hdue timer rearm
      have hfirst : (id :: ids).find? (c.isDue ·) =
          ids.find? ((c.visit timer rearm id).1.isDue ·) := by
        rw [List.find?_cons_of_neg hdue]
        refine List.find?_congr fun other hother => ?_
        have hne : other ≠ id := fun h => hfresh (h ▸ hother)
        exact (isDue_visit_of_ne hdue hne timer rearm).symm
      simp only [hfirst]
      rw [visitAll_cons]
      refine ⟨?_, ?_, fun other => ?_⟩
      · rw [hevents, hnil]
        rfl
      · rw [hactive, hsame]
      · rw [hlines other]
        by_cases hother : other = id
        · subst hother
          have hnot : ids.find? ((c.visit timer rearm other).1.isDue ·) ≠ some other :=
            fun h => hfresh (List.mem_of_find?_eq_some h)
          simp [hnot, hfresh, line_visit_self hdue]
        · simp [line_visit_of_ne c hother, hother]

theorem pairwise_linesDescending : linesDescending.Pairwise (· > ·) := by
  rw [linesDescending, List.pairwise_map, List.pairwise_reverse]
  refine List.Pairwise.imp_of_mem ?_ List.pairwise_lt_range'
  intro m n hm hn hlt
  rw [List.mem_range'_1] at hm hn
  simp only [lineCount] at hm hn
  change m.toUInt32 < n.toUInt32
  rw [UInt32.lt_iff_toNat_lt]
  simp only [Nat.toUInt32, UInt32.toNat_ofNat']
  omega

theorem mem_passOrder : id ∈ passOrder timer ↔ id ≠ 0 ∧ id.toNat < lineCount := by
  rw [passOrder, List.mem_append, List.mem_filter, mem_linesDescending]
  by_cases hid : id = timer
  · subst hid
    split <;> simp_all
  · split <;> simp_all

theorem nodup_passOrder (timer : UInt32) : (passOrder timer).Nodup := by
  refine List.nodup_append.2 ⟨nodup_linesDescending.filter _, ?_, ?_⟩
  · split <;> simp
  · rintro a ha b hb rfl
    split at hb
    · exact absurd (List.mem_singleton.1 hb) (by simpa using (List.mem_filter.1 ha).2)
    · cases hb

/-- Going down, one finds the highest. -/
theorem find?_eq_some_iff_highest (hsorted : ids.Pairwise (· > ·)) (p : UInt32 → Bool) :
    ids.find? p = some id ↔ (id ∈ ids ∧ p id) ∧ ∀ other ∈ ids, p other → other ≤ id := by
  have hhighest {id : UInt32} (h : ids.find? p = some id) :
      ∀ other ∈ ids, p other → other ≤ id := by
    intro other hmem hp
    obtain ⟨-, before, after, rfl, hbefore⟩ := List.find?_eq_some_iff_append.1 h
    rw [List.pairwise_append, List.pairwise_cons] at hsorted
    rcases List.mem_append.1 hmem with hmem | hmem
    · simpa [hp] using hbefore other hmem
    · rcases List.mem_cons.1 hmem with rfl | hmem
      · exact UInt32.le_refl _
      · exact UInt32.le_of_lt (hsorted.2.1.1 other hmem)
  constructor
  · intro h
    exact ⟨⟨List.mem_of_find?_eq_some h, List.find?_some h⟩, hhighest h⟩
  · rintro ⟨⟨hmem, hp⟩, hall⟩
    obtain ⟨found, hfound⟩ := Option.isSome_iff_exists.1 (List.find?_isSome.2 ⟨id, hmem, hp⟩)
    have hle : found ≤ id := hall found (List.mem_of_find?_eq_some hfound) (List.find?_some hfound)
    rw [hfound, UInt32.le_antisymm hle (hhighest hfound id hmem hp)]

/-- A line that may be taken into service as soon as nothing else is. -/
def Ready (c : Controller) (id : UInt32) : Prop :=
  (1 ≤ id ∧ id ≤ 0x1FF) ∧ c.scheduled id = 1 ∧ c.isEnabled id

/-- The highest of the lines that are ready. The line of the timer counts only if it is the only
one. -/
def Chosen (c : Controller) (timer id : UInt32) : Prop :=
  c.Ready id ∧ (id ≠ timer → ∀ other, c.Ready other → other ≠ timer → other ≤ id) ∧
    (id = timer → ∀ other, c.Ready other → other = timer)

theorem exists_line_iff : (1 ≤ id ∧ id ≤ 0x1FF) ↔ id ≠ 0 ∧ id.toNat < lineCount := by
  have hlast : (0x1FF : UInt32).toNat = 511 := rfl
  rw [UInt32.le_iff_toNat_le, UInt32.le_iff_toNat_le, UInt32.toNat_one, hlast, lineCount, ne_eq,
    ← UInt32.toNat_inj, UInt32.toNat_zero]
  omega

theorem active?_eq_none : c.active? = none ↔ c.active = 0 := by
  rw [active?]
  split <;> simp_all

/-- While nothing is in service, the lines that are due in a pass are the ready ones. -/
theorem isDue_iff_ready (hfree : c.active = 0) (hmem : id ∈ passOrder timer) :
    c.isDue id ↔ c.Ready id := by
  have hactive : c.active? = none := active?_eq_none.2 hfree
  have hexists : id ∈ passOrder timer ↔ id ≠ 0 ∧ id.toNat < lineCount := mem_passOrder
  rw [isDue_iff, Ready, exists_line_iff, ← hexists]
  simp [hmem, hactive]

theorem mem_passOrder_of_ready (h : c.Ready id) : id ∈ passOrder timer :=
  mem_passOrder.2 (exists_line_iff.1 h.1)

/-- The first line of a pass that is due is the chosen one. -/
theorem find?_passOrder (hfree : c.active = 0) :
    (passOrder timer).find? (c.isDue ·) = some id ↔ c.Chosen timer id := by
  have hplain (other : UInt32) : (other ∈ linesDescending.filter (· ≠ timer) ∧ c.isDue other) ↔
      c.Ready other ∧ other ≠ timer := by
    have hexists : other ∈ passOrder timer ↔ other ≠ 0 ∧ other.toNat < lineCount := mem_passOrder
    rw [List.mem_filter, mem_linesDescending, ← hexists]
    constructor
    · rintro ⟨⟨hmem, hne⟩, hdue⟩
      exact ⟨(isDue_iff_ready hfree hmem).1 hdue, by simpa using hne⟩
    · rintro ⟨hready, hne⟩
      have hmem : other ∈ passOrder timer := mem_passOrder_of_ready hready
      exact ⟨⟨hmem, by simpa using hne⟩, (isDue_iff_ready hfree hmem).2 hready⟩
  have hsorted := pairwise_linesDescending.filter fun other => decide (other ≠ timer)
  have hhighest (id : UInt32) :
      (linesDescending.filter (· ≠ timer)).find? (c.isDue ·) = some id ↔
        (c.Ready id ∧ id ≠ timer) ∧ ∀ other, c.Ready other → other ≠ timer → other ≤ id := by
    rw [find?_eq_some_iff_highest hsorted, hplain]
    simp only [← and_imp, ← hplain]
  have hnone : (linesDescending.filter (· ≠ timer)).find? (c.isDue ·) = none ↔
      ∀ other, c.Ready other → other = timer := by
    rw [List.find?_eq_none]
    refine forall_congr' fun other => ?_
    rw [← not_and, hplain, not_and_not_right]
  have htimer : (if timer ≠ 0 ∧ timer.toNat < lineCount then [timer] else []).find? (c.isDue ·) =
      some id ↔ c.Ready id ∧ id = timer := by
    by_cases hexists : timer ≠ 0 ∧ timer.toNat < lineCount
    · have hmem : timer ∈ passOrder timer := mem_passOrder.2 hexists
      by_cases hdue : c.isDue timer
      · have hready := (isDue_iff_ready hfree hmem).1 hdue
        simp only [if_pos hexists, List.find?_cons_of_pos (p := (c.isDue ·)) hdue,
          Option.some.injEq]
        exact ⟨fun h => ⟨h ▸ hready, h.symm⟩, fun h => h.2.symm⟩
      · have hready : ¬ c.Ready timer := fun h => hdue ((isDue_iff_ready hfree hmem).2 h)
        simp only [if_pos hexists, List.find?_cons_of_neg (p := (c.isDue ·)) hdue, List.find?_nil]
        exact ⟨nofun, fun h => absurd (h.2 ▸ h.1) hready⟩
    · rw [if_neg hexists]
      refine ⟨nofun, fun ⟨hready, hid⟩ => absurd ?_ hexists⟩
      exact exists_line_iff.1 (hid ▸ hready.1)
  rw [passOrder, List.find?_append, Option.or_eq_some_iff, hhighest, hnone, htimer, Chosen]
  by_cases hid : id = timer
  · simp [hid, and_comm]
  · simp [hid]

def first (c : Controller) (timer : UInt32) : Option UInt32 :=
  (passOrder timer).find? (c.isDue ·)

theorem first_eq_some_iff : c.first timer = some id ↔ c.active? = none ∧ c.Chosen timer id := by
  by_cases hfree : c.active = 0
  · rw [first, find?_passOrder hfree, active?_eq_none.2 hfree]
    simp
  · have hbusy : c.active? ≠ none := fun h => hfree (active?_eq_none.1 h)
    have hnone : c.first timer = none := by
      rw [first, List.find?_eq_none]
      exact fun other _ => not_isDue_of_active hfree other
    simp [hnone, hbusy]

/-- Some line is taken into service if nothing is in service and some line is ready. -/
theorem first_ne_none_iff : c.first timer ≠ none ↔ c.active? = none ∧ ∃ id, c.Ready id := by
  rw [Option.ne_none_iff_exists']
  constructor
  · rintro ⟨id, hid⟩
    obtain ⟨hfree, hready, -⟩ := first_eq_some_iff.1 hid
    exact ⟨hfree, id, hready⟩
  · rintro ⟨hfree, id, hready⟩
    have hmem : id ∈ passOrder timer := mem_passOrder_of_ready hready
    have hdue : c.isDue id := (isDue_iff_ready (active?_eq_none.1 hfree) hmem).2 hready
    rw [← Option.isSome_iff_exists]
    exact List.find?_isSome.2 ⟨id, hmem, hdue⟩

theorem ne_zero_of_first (h : c.first timer = some id) : id ≠ 0 := by
  rw [first] at h
  exact (mem_passOrder.1 (List.mem_of_find?_eq_some h)).1

theorem pass_eq (c : Controller) (timer rearm : UInt32) :
    (c.pass timer rearm).2 = (c.first timer).toList.map .serviced ∧
      (c.pass timer rearm).1.active = (c.first timer).getD c.active ∧
      ∀ id, (c.pass timer rearm).1.line id =
        if c.first timer = some id then served timer rearm id
        else if id ∈ passOrder timer then (c.line id).elapse else c.line id := by
  have hzero : ∀ id ∈ passOrder timer, id ≠ 0 := fun id hid => (mem_passOrder.1 hid).1
  rw [pass, first]
  exact visitAll_eq hzero (nodup_passOrder timer) c timer rearm

theorem line_pass_of_first (h : c.first timer = some id) (rearm : UInt32) :
    (c.pass timer rearm).1.line id = served timer rearm id := by
  rw [(c.pass_eq timer rearm).2.2, if_pos h]

/-- A line that does not exist is as it was, however one looks at it. -/
theorem line_pass_of_ne (hzero : id ≠ 0) (h : c.first timer ≠ some id) (rearm : UInt32) :
    (c.pass timer rearm).1.line id = (c.line id).elapse := by
  rw [(c.pass_eq timer rearm).2.2, if_neg h]
  by_cases hmem : id ∈ passOrder timer
  · rw [if_pos hmem]
  · have hlast : lineCount ≤ id.toNat := by
      rw [mem_passOrder, not_and] at hmem
      exact Nat.le_of_not_lt (hmem hzero)
    rw [if_neg hmem, line_of_le c hlast]
    rfl

theorem line_pass_zero (c : Controller) (timer rearm : UInt32) :
    (c.pass timer rearm).1.line 0 = c.line 0 := by
  have hfirst : c.first timer ≠ some 0 := fun h => ne_zero_of_first h rfl
  have hmem : 0 ∉ passOrder timer := fun h => (mem_passOrder.1 h).1 rfl
  rw [(c.pass_eq timer rearm).2.2, if_neg hfirst, if_neg hmem]

theorem events_pass_eq_nil_iff : (c.pass timer rearm).2 = [] ↔ c.first timer = none := by
  rw [(c.pass_eq timer rearm).1]
  cases c.first timer <;> simp

theorem events_pass_eq_serviced_iff :
    (c.pass timer rearm).2 = [.serviced id] ↔ c.first timer = some id := by
  rw [(c.pass_eq timer rearm).1]
  cases c.first timer <;> simp

/-- A line that turns of a pass do not name as the timer's is a line like any other. -/
theorem visitAll_plain {timer' rearm' : UInt32} (h : ∀ id ∈ ids, id ≠ timer ∧ id ≠ timer')
    (c : Controller) : c.visitAll timer rearm ids = c.visitAll timer' rearm' ids := by
  induction ids generalizing c with
  | nil => rfl
  | cons id ids ih =>
    obtain ⟨⟨hid, hid'⟩, hrest⟩ := List.forall_mem_cons.1 h
    have hvisit : c.visit timer rearm id = c.visit timer' rearm' id := by
      simp only [visit, hid, hid', if_false]
    simp only [visitAll_cons, hvisit, ih hrest]

theorem passOrder_of_not_exists (h : ¬ (timer ≠ 0 ∧ timer.toNat < lineCount)) :
    passOrder timer = linesDescending := by
  rw [passOrder, if_neg h, List.append_nil, List.filter_eq_self]
  intro id hmem
  have hne : id ≠ timer := fun hid => h (mem_linesDescending.1 (hid ▸ hmem))
  simpa using hne

theorem pass_of_not_exists (c : Controller) (rearm : UInt32)
    (h : ¬ (timer ≠ 0 ∧ timer.toNat < lineCount)) : c.pass timer rearm = c.pass 0 0 := by
  have hzero : ¬ ((0 : UInt32) ≠ 0 ∧ (0 : UInt32).toNat < lineCount) := fun h => h.1 rfl
  rw [pass, pass, passOrder_of_not_exists h, passOrder_of_not_exists hzero]
  refine visitAll_plain (fun id hmem => ?_) c
  rw [mem_linesDescending] at hmem
  exact ⟨fun hid => h (hid ▸ hmem), hmem.1⟩

/-- What a pass makes of a controller, and what it tells. -/
structure Passes (c : Controller) (timer rearm : UInt32) (after : Controller)
    (events : List Event) : Prop where
  /-- One line is delivered at most. -/
  atMostOne : events = [] ∨ ∃ id, events = [.serviced id]
  /-- A line is delivered if nothing is in service and some line is ready. -/
  delivers : events ≠ [] ↔ c.active? = none ∧ ∃ id, c.Ready id
  /-- It is the highest ready line, and the timer's only if no other one is ready. -/
  chooses : ∀ id, events = [.serviced id] ↔ c.active? = none ∧ c.Chosen timer id
  /-- The processor's line is raised once for a delivery, and left alone otherwise. -/
  raises : ∀ cpu : Cpu, events.foldl Cpu.take cpu =
    if events = [] then cpu else { cpu with line := true, raises := cpu.raises + 1 }
  /-- The delivered line is in service and disabled. It waits again if it is the timer's. -/
  delivered : ∀ id, events = [.serviced id] → after.active? = some id ∧
    after.isEnabled id = false ∧ after.scheduled id =
      if id = timer then (if 1 < rearm then rearm - 1 else rearm) else 0
  /-- What is in service stays there. -/
  kept : events = [] → after.active? = c.active?
  /-- Any other line but line zero loses one from its countdown, down to one. -/
  others : ∀ id, id ≠ 0 → events ≠ [.serviced id] → after.isEnabled id = c.isEnabled id ∧
    after.scheduled id = if 1 < c.scheduled id then c.scheduled id - 1 else c.scheduled id
  /-- No pass comes to line zero. -/
  zero : after.isEnabled 0 = c.isEnabled 0 ∧ after.scheduled 0 = c.scheduled 0

/-- What one pass does, in whatever state it finds the controller. If there is no line of the timer,
all lines are treated alike. -/
theorem pass_delivers_highest (c : Controller) (timer rearm : UInt32) :
    c.Passes timer rearm (c.pass timer rearm).1 (c.pass timer rearm).2 ∧
      (timer = 0 ∨ lineCount ≤ timer.toNat → c.pass timer rearm = c.pass 0 0) := by
  obtain ⟨hevents, hactive, -⟩ := c.pass_eq timer rearm
  refine ⟨⟨?atMostOne, ?delivers, ?chooses, ?raises, ?delivered, ?kept, ?others, ?zero⟩, ?plain⟩
  case atMostOne =>
    rw [hevents]
    cases c.first timer with
    | none => exact .inl rfl
    | some id => exact .inr ⟨id, rfl⟩
  case delivers => rw [ne_eq, events_pass_eq_nil_iff, ← ne_eq, first_ne_none_iff]
  case chooses => exact fun id => events_pass_eq_serviced_iff.trans first_eq_some_iff
  case raises =>
    intro cpu
    rw [hevents]
    cases c.first timer <;> rfl
  case delivered =>
    intro id hid
    have hfirst : c.first timer = some id := events_pass_eq_serviced_iff.1 hid
    rw [hfirst, Option.getD_some] at hactive
    rw [active?, hactive, if_neg (ne_zero_of_first hfirst), isEnabled, scheduled,
      line_pass_of_first hfirst, served]
    by_cases htimer : id = timer
    · simp [htimer]
    · simp [htimer]
  case kept =>
    intro hnone
    rw [active?, hactive, events_pass_eq_nil_iff.1 hnone]
    rfl
  case others =>
    intro id hid hne
    have hfirst : c.first timer ≠ some id := fun h => hne (events_pass_eq_serviced_iff.2 h)
    rw [isEnabled, scheduled, line_pass_of_ne hid hfirst, Line.enabled_elapse,
      Line.countdown_elapse]
    exact ⟨rfl, rfl⟩
  case zero =>
    rw [isEnabled, scheduled, line_pass_zero]
    exact ⟨rfl, rfl⟩
  case plain =>
    intro htimer
    refine c.pass_of_not_exists rearm ?_
    rintro ⟨hne, hlt⟩
    exact htimer.elim hne (Nat.not_le_of_lt hlt)

/-- A pass does not come to line zero: a request of it that has five passes to wait still has them
afterwards, though the line was not delivered. -/
theorem pass_spares_line_zero :
    let c := ((new.enable 0).1.request 0 5).1
    c.scheduled 0 = 5 ∧ Event.serviced 0 ∉ (c.pass 0x0A 0).2 ∧
      (c.pass 0x0A 0).1.scheduled 0 = 5 ∧
      (c.pass 0x0A 0).1.scheduled 0 ≠ c.scheduled 0 - 1 := by
  intro c
  have hmem : 0 ∉ passOrder 0x0A := fun h => (mem_passOrder.1 h).1 rfl
  obtain ⟨hline, hnone⟩ := visitAll_of_not_mem c 0x0A 0 hmem
  rw [← pass] at hline hnone
  have hscheduled : c.scheduled 0 = 5 := by decide +kernel
  have hafter : (c.pass 0x0A 0).1.scheduled 0 = 5 := by
    rw [scheduled, hline, ← hscheduled, scheduled]
  refine ⟨hscheduled, fun hserviced => hnone ?_, hafter, by rw [hafter, hscheduled]; decide⟩
  exact List.mem_filterMap.2 ⟨_, hserviced, rfl⟩

end Controller

end Digic.Interrupt
