import IncidentLens.Effects.Runs
import IncidentLens.Events.Store

/-!
# Milestones

The milestones of an investigation are read page by page from the event store, to which events are appended
between the pages.
-/
namespace IncidentLens.Events
open Data Effects List

def milestoneEventTypes : List RuntimeEventType :=
  [.investigationCreated, .investigationStarted, .investigationStatusChanged, .investigationCompleted,
    .investigationCancelled, .investigationFailed, .approvalRequested, .approvalApproved, .approvalRejected,
    .approvalConsumed, .changesetCreated, .changesetStatusChanged, .changesetRolledBack, .conclusionCreated,
    .registryProposalCreated, .registryProposalDecided]

def milestoneFilter (investigationId : String) : PageFilter where
  investigationId := some investigationId
  eventTypes := milestoneEventTypes

/-- The loop of `_milestones` with the events its views are made of, and what was last assigned at its last page. -/
structure MilestoneLoop where
  table : EventTable
  afterSequence : ℕ := 0
  items : List RuntimeEvent := []
  finished : Bool := false
  seen : ℕ := 0

inductive MilestoneMove
  | append (event : RuntimeEvent)
  | page

namespace MilestoneLoop

def step (investigationId : String) (m : MilestoneLoop) : MilestoneMove → Option MilestoneLoop
  | .append event => match Events.append m.table event with
    | .ok (_, table) => some { m with table := table }
    | .error _ => none
  | .page =>
    if m.finished then none
    else match listPage m.table (milestoneFilter investigationId) m.afterSequence 500 with
      | .ok page =>
        let more := page.hasMore && !page.items.isEmpty
        some { m with
          items := m.items ++ page.items
          finished := !more
          afterSequence := if more then page.nextAfterSequence else m.afterSequence
          seen := m.table.assigned }
      | .error _ => none

/-- How far the store was read. -/
def reach (m : MilestoneLoop) : ℕ := if m.finished then m.seen else m.afterSequence

end MilestoneLoop

def milestones (investigationId : String) (table : EventTable) : System MilestoneLoop MilestoneMove where
  init := { table := table }
  step := MilestoneLoop.step investigationId

section
variable {investigationId : String} {table : EventTable} {m m' : MilestoneLoop}

lemma listPage_reach {page : RuntimeEventPage} {filter : PageFilter} {limit afterSequence : ℕ}
    (hlimit : 1 ≤ limit ∧ limit ≤ 500) (hafter : afterSequence ≤ table.assigned)
    (hpage : listPage table filter afterSequence limit = .ok page) :
    ∃ high, high = (if page.hasMore && !page.items.isEmpty then page.nextAfterSequence else table.assigned) ∧
      afterSequence ≤ high ∧ high ≤ table.assigned ∧
      page.items = (between EventRow.sequence filter.selects afterSequence high table.rows).map eventFromRow := by
  obtain ⟨_, hfound, hitems, -, -⟩ := listPage_eq table filter afterSequence hlimit
  rw [hpage] at hfound
  cases hfound
  have hrows : ∀ event ∈ page.items, afterSequence < event.sequence ∧ event.sequence ≤ table.assigned := by
    intro event hevent
    rw [hitems] at hevent
    obtain ⟨row, hrow, rfl⟩ := mem_map.mp hevent
    obtain ⟨hmem, hlow, -⟩ := mem_behind.mp (mem_of_mem_take hrow)
    exact ⟨hlow, table.bounded row hmem⟩
  obtain ⟨_, hfound, -, more, hmore, hle, hlast, heq⟩ := listPage_between table filter afterSequence
    (if page.hasMore && !page.items.isEmpty then page.nextAfterSequence else table.assigned) hlimit
  rw [hpage] at hfound
  cases hfound
  rw [hmore] at heq ⊢
  refine ⟨_, rfl, ?_⟩
  cases more with
  | false =>
    refine ⟨hafter, le_rfl, ?_⟩
    simp only [Bool.false_eq_true, if_false] at heq ⊢
    rw [← heq, filter_eq_self.mpr fun event hevent => decide_eq_true (hrows event hevent).2]
    exact (append_nil _).symm
  | true =>
    obtain ⟨last, hlast, hnext⟩ := hlast rfl
    have hend := hrows last (mem_of_getLast? hlast)
    simp only [if_true] at heq ⊢
    refine ⟨by omega, by omega, ?_⟩
    rw [← heq, filter_eq_self.mpr fun event hevent => decide_eq_true (hle rfl event hevent), between_self]
    exact (append_nil _).symm

/-- What was gathered is what the store holds up to where it was read. -/
structure MilestoneLoop.Gathered (investigationId : String) (m : MilestoneLoop) : Prop where
  items : m.items = (between EventRow.sequence (milestoneFilter investigationId).selects 0 m.reach m.table.rows).map
    eventFromRow
  reach_le : m.reach ≤ m.table.assigned

lemma MilestoneLoop.Gathered.append (h : m.Gathered investigationId) (event : RuntimeEvent) :
    { m with table := m.table.insert event }.Gathered investigationId where
  items := by
    refine h.items.trans (congrArg (map eventFromRow) (between_append_above ?_).symm)
    intro row hrow
    rw [mem_singleton.mp hrow]
    exact Nat.lt_succ_of_le h.reach_le
  reach_le := Nat.le_succ_of_le h.reach_le

theorem MilestoneLoop.Gathered.step {move : MilestoneMove} (h : m.Gathered investigationId)
    (hstep : m.step investigationId move = some m') : m'.Gathered investigationId := by
  cases move with
  | append event =>
    simp only [MilestoneLoop.step, Events.append] at hstep
    split_ifs at hstep
    obtain rfl := Option.some.inj hstep
    exact h.append event
  | page =>
    simp only [MilestoneLoop.step] at hstep
    split_ifs at hstep with hover
    obtain ⟨page, hpage, -⟩ := listPage_eq m.table (milestoneFilter investigationId) m.afterSequence
      (by omega : 1 ≤ 500 ∧ 500 ≤ 500)
    rw [hpage] at hstep
    obtain rfl := Option.some.inj hstep
    obtain ⟨hitems, hreach⟩ := h
    have hposition : m.reach = m.afterSequence := if_neg hover
    rw [hposition] at hitems hreach
    obtain ⟨high, hhigh, hlow, htop, hnew⟩ := listPage_reach (by omega) hreach hpage
    have hend : MilestoneLoop.reach { m with
        items := m.items ++ page.items
        finished := !(page.hasMore && !page.items.isEmpty)
        afterSequence := if page.hasMore && !page.items.isEmpty then page.nextAfterSequence else m.afterSequence
        seen := m.table.assigned } = high := by
      rw [hhigh, MilestoneLoop.reach]
      cases page.hasMore && !page.items.isEmpty <;> rfl
    constructor
    · rw [hend, hitems, hnew, ← map_append, Increasing.between_append_between m.table.increasing (Nat.zero_le _) hlow]
    · rw [hend]
      exact htop

/-- Whatever is appended between the pages, the loop has gathered every milestone of the investigation up to
where it has read, each of them once and in order; and when it is over, all that were stored at its last page. -/
theorem milestones_gathered (h : (milestones investigationId table).Reached (fun _ _ => True) m) :
    m.items = (between EventRow.sequence (milestoneFilter investigationId).selects 0 m.reach m.table.rows).map
        eventFromRow ∧ m.items.Pairwise fun a b => a.sequence < b.sequence := by
  have hgathered : m.Gathered investigationId := by
    refine h.invariant ⟨?_, Nat.zero_le _⟩ fun _ _ _ hs _ hstep => hs.step hstep
    exact (congrArg (map eventFromRow) between_self).symm
  refine ⟨hgathered.items, ?_⟩
  rw [hgathered.items]
  exact pairwise_map.mpr (m.table.increasing.filter _)

end

/-! ### A start that is read, and an end that comes later -/

lemma noRows_increasing : ([] : List EventRow).Pairwise fun a b => a.sequence < b.sequence := List.Pairwise.nil

lemma noRows_bounded : ∀ row ∈ ([] : List EventRow), row.sequence ≤ 0 := forall_mem_nil _

def noRows : EventTable := ⟨[], 0, noRows_increasing, noRows_bounded⟩

def inv1Event (eventId : String) (eventType : RuntimeEventType) : RuntimeEvent where
  eventId := eventId
  eventType := eventType
  occurredAt := "2026-01-01T00:00:00Z"
  payload := [("investigation_id", .string "inv-1")]

def startedRead : MilestoneLoop where
  table := (noRows.insert (inv1Event "ev-1" .investigationStarted)).insert (inv1Event "ev-2" .investigationCompleted)
  items := [{ inv1Event "ev-1" .investigationStarted with sequence := 1 }]
  finished := true
  seen := 1

theorem started_gathered :
    startedRead.items = (between EventRow.sequence (milestoneFilter "inv-1").selects 0 1 startedRead.table.rows).map
        eventFromRow ∧
      startedRead.items.Pairwise fun a b => a.sequence < b.sequence :=
  milestones_gathered (.next (.append (inv1Event "ev-2" .investigationCompleted)) (.next .page
    (.next (.append (inv1Event "ev-1" .investigationStarted)) (.start (S := milestones "inv-1" noRows)) trivial rfl)
    trivial rfl) trivial rfl)

end IncidentLens.Events
