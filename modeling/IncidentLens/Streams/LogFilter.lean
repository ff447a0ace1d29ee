import IncidentLens.Streams.LogStream
import Mathlib.Data.Fintype.EquivFin

/-!
# The filter of a log stream

The four fields of the filter and the targets of the principal are checked once in the clauses
of a page and once in the loop over live records.
-/
namespace IncidentLens.Streams
open Effects Logs

namespace CursorLogStream

/-- What the loop checks of a record, beside the pause and its sequence. -/
def passesLive (self : CursorLogStream) (record : LogRecord) : Bool :=
  self.serviceId = some record.serviceName && passes self.targetId record.targetId &&
    passes self.severity record.severity.value && passes self.sourceRef record.sourceRef

/-- A sequence of updates, until one is refused. -/
def updates (self : CursorLogStream) : List FilterUpdate → Except String CursorLogStream
  | [] => .ok self
  | action :: actions => (self.update action).bind fun self => self.updates actions

/-- The two paths let the same records through, and only those of allowed targets. -/
structure Consistent (filter : CursorLogStream) (record : LogRecord) : Prop where
  agree : filter.passesLive record = true ↔ filter.finds record = true
  authorized : ∀ ids, filter.allowedTargetIds = some ids → record.targetId ∉ ids →
    filter.passesLive record = false ∧ filter.finds record = false

/-- No filter is an empty string that the record does not equal. -/
def strict (self : CursorLogStream) (record : LogRecord) : Bool :=
  self.severity ≠ some "" && (self.sourceRef ≠ some "" || record.sourceRef = "")

/-- A record of the service, the severity and the source passes the target filter exactly if its
target is allowed and no filter is an empty string. -/
def Fits (self : CursorLogStream) (record : LogRecord) : Prop :=
  self.serviceId = some record.serviceName → passes self.severity record.severity.value = true →
    passes self.sourceRef record.sourceRef = true → (passes self.targetId record.targetId = true ↔
      self.allowedTargetIds.all (fun ids => ids.contains record.targetId) = true ∧ self.strict record = true)

/-- A filter that no record gets through; or one of no empty strings, whose target is the one
allowed target, or which has neither a target nor an allow-list. -/
def Aligned (self : CursorLogStream) : Prop :=
  self.serviceId = none ∨ (∃ name, self.severity = some name ∧ name ≠ "" ∧ ∀ severity : LogSeverity, severity.value ≠ name) ∨
    self.severity ≠ some "" ∧ self.sourceRef ≠ some "" ∧ match self.allowedTargetIds with
      | none => self.targetId = none ∨ self.targetId = some ""
      | some ids => ∃ target, self.targetId = some target ∧ target ≠ "" ∧ ∀ id, id ∈ ids ↔ id = target

/-! ### The two paths -/

section
variable {self : CursorLogStream} {record : LogRecord}

lemma all_eq_iff_passes {filter : Option String} {value : String} :
    filter.all (fun f => decide (value = f)) = true ↔ passes filter value = true ∧ (filter ≠ some "" ∨ value = "") := by
  cases filter with
  | none => simp [passes]
  | some f =>
    by_cases hf : f = ""
    · simp [passes, hf]
    · simp [passes, hf, eq_comm]

lemma severity_value_ne (severity : LogSeverity) : severity.value ≠ "" := by cases severity <;> decide

lemma finds_iff : self.finds record = true ↔ self.serviceId = some record.serviceName ∧
    passes self.severity record.severity.value = true ∧ passes self.sourceRef record.sourceRef = true ∧
      self.allowedTargetIds.all (fun ids => ids.contains record.targetId) = true ∧ self.strict record = true := by
  have hseverity := @all_eq_iff_passes self.severity record.severity.value
  have hsourceRef := @all_eq_iff_passes self.sourceRef record.sourceRef
  have hne := severity_value_ne record.severity
  cases hservice : self.serviceId with
  | none => simp [finds, hservice]
  | some serviceId =>
    simp only [finds, hservice, Option.any_some, PageQuery.admits, pageQuery, Bool.and_eq_true, decide_eq_true_eq,
      hseverity, hsourceRef, hne, or_false, strict, Bool.or_eq_true, Option.some.injEq]
    constructor
    · rintro ⟨⟨⟨hname, hpass, hstrict⟩, hpass', hstrict'⟩, hallowed⟩
      exact ⟨(of_decide_eq_true hname).symm, hpass, hpass', hallowed, hstrict, hstrict'⟩
    · rintro ⟨hname, hpass, hpass', hallowed, hstrict, hstrict'⟩
      exact ⟨⟨⟨decide_eq_true hname.symm, hpass, hstrict⟩, hpass', hstrict'⟩, hallowed⟩

lemma passesLive_iff : self.passesLive record = true ↔ self.serviceId = some record.serviceName ∧
    passes self.severity record.severity.value = true ∧ passes self.sourceRef record.sourceRef = true ∧
      passes self.targetId record.targetId = true := by
  simp only [passesLive, Bool.and_eq_true, decide_eq_true_eq]
  constructor
  · rintro ⟨⟨⟨hservice, htarget⟩, hseverity⟩, hsourceRef⟩
    exact ⟨hservice, hseverity, hsourceRef, htarget⟩
  · rintro ⟨hservice, hseverity, hsourceRef, htarget⟩
    exact ⟨⟨⟨hservice, htarget⟩, hseverity⟩, hsourceRef⟩

lemma consistent_iff_fits : self.Consistent record ↔ self.Fits record := by
  constructor
  · intro h hservice hseverity hsourceRef
    have hagree := h.agree
    rw [passesLive_iff, finds_iff] at hagree
    constructor
    · intro htarget
      exact (hagree.mp ⟨hservice, hseverity, hsourceRef, htarget⟩).2.2.2
    · rintro ⟨hallowed, hstrict⟩
      exact (hagree.mpr ⟨hservice, hseverity, hsourceRef, hallowed, hstrict⟩).2.2.2
  · intro h
    have hagree : self.passesLive record = true ↔ self.finds record = true := by
      rw [passesLive_iff, finds_iff]
      constructor
      · rintro ⟨hservice, hseverity, hsourceRef, htarget⟩
        exact ⟨hservice, hseverity, hsourceRef, (h hservice hseverity hsourceRef).mp htarget⟩
      · rintro ⟨hservice, hseverity, hsourceRef, hboth⟩
        exact ⟨hservice, hseverity, hsourceRef, (h hservice hseverity hsourceRef).mpr hboth⟩
    refine ⟨hagree, fun ids hids hout => ?_⟩
    have hfinds : self.finds record = false := by
      by_contra hfinds
      obtain ⟨-, -, -, hallowed, -⟩ := finds_iff.mp (Bool.eq_true_of_not_eq_false hfinds)
      rw [hids, Option.all_some, List.contains_iff_mem] at hallowed
      exact hout hallowed
    refine ⟨?_, hfinds⟩
    by_contra hlive
    rw [hagree.mp (Bool.eq_true_of_not_eq_false hlive)] at hfinds
    cases hfinds

/-- A record that shows what a filter lets through. -/
def probe (serviceName targetId sourceRef : String) (severity : LogSeverity) : LogRecord where
  logId := "log-1"
  subscriptionId := some "subscription-1"
  projectId := "project-1"
  targetId := targetId
  serviceName := serviceName
  sourceKind := .file
  scope := .host
  sourceRef := sourceRef
  cursor := "0"
  dedupeKey := "key-1"
  observedAt := 0
  severity := severity
  messageRedacted := ""
  streamSequence := 1

lemma Aligned.fits (h : self.Aligned) : self.Fits record := by
  intro hservice hseverity hsourceRef
  rcases h with hnone | ⟨name, hname, hne, hbogus⟩ | ⟨hstrict, hstrict', htargets⟩
  · rw [hnone] at hservice
    cases hservice
  · rw [hname, passes, Option.all_some, Bool.or_eq_true, decide_eq_true_eq, decide_eq_true_eq] at hseverity
    rcases hseverity with hempty | hvalue
    · exact absurd hempty hne
    · exact absurd hvalue.symm (hbogus record.severity)
  · have hall : self.strict record = true := by simp [strict, hstrict, hstrict']
    simp only [hall, and_true]
    cases hids : self.allowedTargetIds with
    | none =>
      rw [hids] at htargets
      rcases htargets with hnone | hempty
      · simp [hnone, passes]
      · simp [hempty, passes]
    | some ids =>
      rw [hids] at htargets
      obtain ⟨target, htarget, hne, honly⟩ := htargets
      simp [htarget, passes, hne, honly, eq_comm]

lemma aligned_of_fits {serviceName : String} (hservice : self.serviceId = some serviceName) {severity : LogSeverity}
    (hseverity : passes self.severity severity.value = true)
    (h : ∀ targetId sourceRef, self.Fits (probe serviceName targetId sourceRef severity)) : self.Aligned := by
  -- a source that passes, and a target that passes
  have hsource : ∃ sourceRef, passes self.sourceRef sourceRef = true ∧ (self.sourceRef = some "" → sourceRef ≠ "") := by
    cases hsourceRef : self.sourceRef with
    | none => exact ⟨"", by simp [passes], by simp⟩
    | some name =>
      by_cases hempty : name = ""
      · exact ⟨"source", by simp [passes, hempty], by simp⟩
      · exact ⟨name, by simp [passes], fun _ => hempty⟩
  obtain ⟨sourceRef, hpass, hdiffers⟩ := hsource
  have hfits : ∀ targetId, passes self.targetId targetId = true ↔
      self.allowedTargetIds.all (fun ids => ids.contains targetId) = true ∧
        self.strict (probe serviceName targetId sourceRef severity) = true :=
    fun targetId => h targetId sourceRef hservice hseverity hpass
  have htarget : ∃ targetId, passes self.targetId targetId = true := by
    cases self.targetId with
    | none => exact ⟨"", by simp [passes]⟩
    | some name => exact ⟨name, by simp [passes]⟩
  obtain ⟨targetId, htarget⟩ := htarget
  have hstrict : self.severity ≠ some "" ∧ self.sourceRef ≠ some "" := by
    have := ((hfits targetId).mp htarget).2
    simp only [strict, probe, Bool.and_eq_true, decide_eq_true_eq, Bool.or_eq_true] at this
    refine ⟨this.1, fun hempty => ?_⟩
    rcases this.2 with hne | heq
    · exact hne hempty
    · exact hdiffers hempty (of_decide_eq_true heq)
  have hfits' : ∀ targetId, passes self.targetId targetId = true ↔
      self.allowedTargetIds.all (fun ids => ids.contains targetId) = true := by
    intro targetId
    rw [hfits]
    simp [strict, hstrict.1, hstrict.2]
  refine .inr (.inr ⟨hstrict.1, hstrict.2, ?_⟩)
  cases hids : self.allowedTargetIds with
  | none =>
    simp only [hids, Option.all_none, iff_true] at hfits'
    cases hname : self.targetId with
    | none => exact .inl rfl
    | some name =>
      by_contra hne
      obtain ⟨other, hother⟩ := Infinite.exists_notMem_finset ({name} : Finset String)
      have hpasses := hfits' other
      simp only [hname, passes, Option.all_some, Bool.or_eq_true, decide_eq_true_eq] at hpasses
      rcases hpasses with hempty | hsame
      · exact hne (.inr (congrArg some hempty))
      · exact hother (Finset.mem_singleton.mpr hsame.symm)
  | some ids =>
    simp only [hids, Option.all_some, List.contains_iff_mem] at hfits'
    obtain ⟨other, hother⟩ := Infinite.exists_notMem_finset ids.toFinset
    rw [List.mem_toFinset] at hother
    cases hname : self.targetId with
    | none =>
      rw [hname] at hfits'
      exact absurd ((hfits' other).mp rfl) hother
    | some name =>
      have hne : name ≠ "" := by
        intro hempty
        rw [hname, hempty] at hfits'
        exact absurd ((hfits' other).mp rfl) hother
      refine ⟨name, rfl, hne, fun id => ?_⟩
      rw [← hfits' id, hname]
      simp [passes, hne, eq_comm]

lemma aligned_iff_fits : self.Aligned ↔ ∀ record, self.Fits record := by
  refine ⟨fun h record => h.fits, fun h => ?_⟩
  cases hservice : self.serviceId with
  | none => exact .inl hservice
  | some serviceName =>
    by_cases hsome : ∃ severity : LogSeverity, passes self.severity severity.value = true
    · obtain ⟨severity, hseverity⟩ := hsome
      exact aligned_of_fits hservice hseverity fun _ _ => h _
    · right
      left
      cases hname : self.severity with
      | none => exact absurd ⟨.info, by simp [hname, passes]⟩ hsome
      | some name =>
        refine ⟨name, rfl, ?_, ?_⟩
        · rintro rfl
          exact hsome ⟨.info, by simp [hname, passes]⟩
        · rintro severity rfl
          exact hsome ⟨severity, by simp [hname, passes]⟩

end

/-! ### Updates -/

/-- The target filter is one of the allowed targets, as the handshake checks. -/
def Authorized (filter : CursorLogStream) : Prop :=
  ∀ ids target, filter.allowedTargetIds = some ids → filter.targetId = some target → target ∈ ids

lemma update_authorized {self filter : CursorLogStream} {action : FilterUpdate} (hself : self.Authorized)
    (h : self.update action = .ok filter) : filter.Authorized := by
  unfold update at h
  split_ifs at h with hrefused
  cases h
  intro ids target hids htarget
  change self.allowedTargetIds = some ids at hids
  change action.targetId.getD self.targetId = some target at htarget
  cases haction : action.targetId with
  | none =>
    rw [haction] at htarget
    exact hself ids target hids htarget
  | some named =>
    rw [haction, Option.getD_some] at htarget
    by_contra hout
    exact hrefused (by simp [haction, htarget, hids, hout])

lemma updates_authorized {self filter : CursorLogStream} {actions : List FilterUpdate} (hself : self.Authorized)
    (h : self.updates actions = .ok filter) : filter.Authorized := by
  induction actions generalizing self with
  | nil =>
    cases h
    exact hself
  | cons action actions ih =>
    simp only [updates] at h
    cases hupdate : self.update action with
    | error message =>
      rw [hupdate] at h
      cases h
    | ok next =>
      rw [hupdate] at h
      exact ih (update_authorized hself hupdate) h

/-- After any updates, a record is treated alike on both paths exactly if the filter fits it, and
every record is exactly if the filter is aligned. A stream that began with an allowed target
filter still has one. -/
theorem filters_consistent_iff (self filter : CursorLogStream) (actions : List FilterUpdate)
    (h : self.updates actions = .ok filter) : (∀ record, filter.Consistent record ↔ filter.Fits record) ∧
      ((∀ record, filter.Consistent record) ↔ filter.Aligned) ∧ (self.Authorized → filter.Authorized) := by
  refine ⟨fun record => consistent_iff_fits, ?_, fun hself => updates_authorized hself h⟩
  rw [aligned_iff_fits]
  exact forall_congr' fun record => consistent_iff_fits

/-- Without a target filter the loop lets a record of a foreign target through; with one, the
pages hold a record of another target. -/
theorem filters_inconsistent :
    (∃ filter, CursorLogStream.updates { serviceId := some "shop", allowedTargetIds := some ["web"] }
        [{ severity := some (some "error") }] = .ok filter ∧
      filter.passesLive (probe "shop" "db" "app.log" .error) = true ∧
      filter.finds (probe "shop" "db" "app.log" .error) = false ∧
      ¬ filter.Consistent (probe "shop" "db" "app.log" .error)) ∧
    ∃ filter, CursorLogStream.updates { serviceId := some "shop", allowedTargetIds := some ["web", "db"] }
        [{ targetId := some (some "web") }] = .ok filter ∧
      filter.passesLive (probe "shop" "db" "app.log" .error) = false ∧
      filter.finds (probe "shop" "db" "app.log" .error) = true ∧
      ¬ filter.Consistent (probe "shop" "db" "app.log" .error) := by
  constructor
  · refine ⟨_, rfl, rfl, rfl, fun h => ?_⟩
    cases h.agree.mp rfl
  · refine ⟨_, rfl, rfl, rfl, fun h => ?_⟩
    cases h.agree.mpr rfl

/-- A principal with one target, who filters by it. -/
theorem single_target_consistent : ∃ filter,
    CursorLogStream.updates { serviceId := some "shop", allowedTargetIds := some ["web"] }
      [{ targetId := some (some "web") }] = .ok filter ∧ ∀ record, filter.Consistent record := by
  refine ⟨_, rfl, (filters_consistent_iff { serviceId := some "shop", allowedTargetIds := some ["web"] } _
    [{ targetId := some (some "web") }] rfl).2.1.mpr ?_⟩
  refine .inr (.inr ⟨by decide, by decide, "web", rfl, by decide, fun id => ?_⟩)
  exact List.mem_singleton

end CursorLogStream
end IncidentLens.Streams
