import IncidentLens.Changes.Bookkeeping

/-!
# All or nothing

`apply` either replaces every file or leaves every file as it was, and its result agrees with
the journal, unless the journal could not be told of the first replaced file.
-/
namespace IncidentLens.Changes
open Data Effects

section
variable (env : Env) (rq : ChangeSetRequest) (w w' : World)

/-- The bytes `apply` reads of a file; none if it is absent. -/
def readable (f : FileRequest) : Bytes :=
  match w.files rq.context.scope (rq.location env f.path) with
  | some entry => entry.content.take maxChangeFileBytes
  | none => []

def Replaced (f : FileRequest) : Prop :=
  ∃ content mode, f.replacement (readable env rq w f) = .ok content ∧
    w'.files rq.context.scope (rq.location env f.path) = some ⟨content, mode⟩

def Unchanged (f : FileRequest) : Prop :=
  w'.files rq.context.scope (rq.location env f.path) = w.files rq.context.scope (rq.location env f.path)

/-- No temporary file is left that was not there before. -/
def Tidy (f : FileRequest) : Prop :=
  w'.files rq.context.scope (rq.tempLocation env f.path) = none ∨
    w'.files rq.context.scope (rq.tempLocation env f.path) = w.files rq.context.scope (rq.tempLocation env f.path)

/-- The status agrees with that of a journal entry that was created. -/
def Agrees (status : ChangeSetStatus) : Prop :=
  w.journal.get rq.changesetId = none → ∀ cs, w'.journal.get rq.changesetId = some cs →
    cs.status = status ∧ (status = .applied ∨ status.terminal = true)

/-- `apply` returns a result that agrees with the journal, and either all files are replaced
or none has changed. -/
def Atomic (out : Except Exc ChangeResult) : Prop :=
  ∃ result, out = .ok result ∧ Agrees rq w w' result.status ∧
    ((result.status = .applied ∧ ∀ f ∈ rq.files, Replaced env rq w w' f) ∨
      result.status ≠ .applied ∧ ∀ f ∈ rq.files, Unchanged env rq w w' f ∧ Tidy env rq w w' f)

/-- A journal write about the first file in place raised, and the entry never became `APPLIED`. -/
def Unrecorded (tr : History) : Prop := JournalRaised rq tr ∧ ¬ Did tr .apply (.transition rq.changesetId .applied) ()

/-- A file that must not exist was replaced although it did, and the handler has run. -/
def Misreported (tr : History) : Prop :=
  ∃ f ∈ rq.files, f.creates = true ∧
    w.files rq.context.scope (rq.location env f.path) ≠ none ∧ Renamed env rq tr f.path ∧
    ∃ e ∈ tr, e.call.origin = .handler

end

variable {m : Manager} {env : Env} {rq : ChangeSetRequest} {ts : String} {tr : History} {w w' w₀ : World}

lemma Joint.not_restoreRaised (hapart : rq.Apart env ts) (h : Joint env rq ts w₀ tr w) :
    ¬ RestoreRaised rq ts tr := by
  have hraised : ∀ {o}, Raised tr .handler o → (∃ f ∈ rq.files, o = .removeFile rq.context.scope
      (tempPath (rq.canonical env f.path) rq.changesetId)) ∨ _ := fun hr => h.handler.raised _ hr
  rintro (⟨path, canonical, hplaced, ⟨-, hr⟩ | ⟨-, hr⟩⟩ | ⟨fileChangeId, patch, hr⟩)
  · obtain ⟨rfl, -⟩ := hplaced.renamed h.genuine
    obtain ⟨⟨_, g, hg, rfl, -⟩, -⟩ := hplaced
    rcases hraised hr with ⟨f, hf, heq⟩ | ⟨heq, -⟩
    · simp only [Op.removeFile.injEq, true_and] at heq
      exact canonical_ne_temp hapart hg hf heq
    · cases heq
  · rcases hraised hr with ⟨f, hf, heq⟩ | ⟨heq, -⟩ <;> cases heq
  · rcases hraised hr with ⟨f, hf, heq⟩ | ⟨heq, -⟩ <;> cases heq

lemma Joint.refused (h : Joint env rq ts w₀ tr w) (hrefused : Refused rq tr) : Unrecorded rq tr := by
  rcases hrefused with hr | ⟨type, status, hr⟩ | ⟨hr, hjournal⟩
  · rcases h.handler.raised _ hr with ⟨f, -, heq⟩ | ⟨heq, -⟩ <;> cases heq
  · rcases h.handler.raised _ hr with ⟨f, -, heq⟩ | ⟨heq, -⟩ <;> cases heq
  · rcases h.handler.raised _ hr with ⟨f, -, heq⟩ | ⟨-, hnot⟩
    · cases heq
    · exact ⟨hjournal.resolve_left hnot, hnot⟩

lemma Past.placed_of_journalRaised (hpast : Past rq ts tr) (h : JournalRaised rq tr) :
    ∃ path canonical, Placed rq tr path canonical := by
  rcases h with ⟨fileChangeId, patch, happlied, e, hmem⟩ | ⟨e, hmem⟩
  · obtain ⟨tr', hsub, -, -, -, -, -, hplaced⟩ := hpast _ hmem
    obtain ⟨-, -, f, -, -, canonical, hplaced'⟩ := hplaced true happlied
    exact ⟨f.path, canonical, hplaced'.mono hsub⟩
  · obtain ⟨tr', hsub, -, -, -, -, hplaced⟩ := hpast _ hmem
    obtain ⟨path, canonical, hplaced'⟩ := hplaced rfl
    exact ⟨path, canonical, hplaced'.mono hsub⟩

variable {result : ChangeResult} {f : FileRequest}

lemma Joint.restored (hapart : rq.Apart env ts) (h : Joint env rq ts w₀ tr w)
    (hundone : Undone rq ts result tr) (hf : f ∈ rq.files)
    (hrenamed : Renamed env rq tr f.path) : w.files rq.context.scope (rq.location env f.path) =
      if f.creates then none else w₀.files rq.context.scope (rq.location env f.path) := by
  rcases hundone.restored _ _ _ hrenamed with hraised | ⟨path, ⟨⟨_, hat⟩, -⟩, hrestored, -⟩
  · exact absurd hraised (h.not_restoreRaised hapart)
  · obtain rfl := hat.path_eq hapart h.genuine hf rfl
    exact (h.files f hf).restored hrestored

lemma Joint.recorded (hapart : rq.Apart env ts) (h : Joint env rq ts w₀ tr w)
    (hundone : Undone rq ts result tr) : ¬ Unrecorded rq tr := by
  rintro ⟨hjournal, hnot⟩
  obtain ⟨path, canonical, hplaced⟩ := h.past.placed_of_journalRaised hjournal
  rcases hundone.status with ⟨hstatus, -⟩ | ⟨-, hnone | hraised⟩
  · have hclosed := hundone.closed (h.past.created_of_rename hplaced.2)
    rw [hstatus] at hclosed
    exact hnot (h.handler.rolledBack hclosed)
  · exact hnone _ _ _ hplaced.2
  · exact h.not_restoreRaised hapart hraised

lemma Joint.tidy (hapart : rq.Apart env ts) (h : Joint env rq ts w₀ tr w)
    (hundone : Undone rq ts result tr) (hf : f ∈ rq.files) : Tidy env rq w₀ w f := by
  by_cases hwrote : ∃ content mode, Wrote env rq tr f.path content mode
  · left
    obtain ⟨content, mode, hwrote⟩ := hwrote
    refine (h.files f hf).gone ?_
    rcases hundone.cleared _ _ _ _ _ hwrote with ⟨path, canonical, hplaced, htemp⟩ | hcleared
    · obtain ⟨rfl, hrenamed⟩ := hplaced.renamed h.genuine
      obtain ⟨⟨_, hat⟩, -⟩ := hplaced
      obtain rfl := hat.path_eq_of_temp hapart h.genuine hf htemp.symm
      exact .inl hrenamed
    · exact .inr hcleared
  · right
    exact (h.files f hf).untouched fun content mode hdid => hwrote ⟨content, mode, hdid⟩

lemma FileRequest.replacement_of_creates (h : f.creates = true) (a b : Bytes) :
    f.replacement a = f.replacement b := by
  unfold FileRequest.creates at h
  unfold FileRequest.replacement
  cases hmutation : f.mutation with
  | edit expected replacements => simp [hmutation] at h
  | write expected content mode => rfl

lemma Joint.replaced (hapart : rq.Apart env ts) (h : Joint env rq ts w₀ tr w)
    (hf : f ∈ rq.files) (hrenamed : Renamed env rq tr f.path)
    (hnot : ¬ Restored rq ts tr f.path (rq.canonical env f.path)) : Replaced env rq w₀ w f := by
  obtain ⟨content, mode, hwrote, hfile⟩ := (h.files f hf).placed hrenamed hnot
  obtain ⟨original, hprepared⟩ := h.past.wrote hapart h.genuine hf hwrote
  refine ⟨content, mode, ?_, hfile⟩
  obtain ⟨g, hg, hpath, hcontent⟩ := hprepared.content
  obtain rfl : g = f := hapart.eq_of_path hg hf hpath
  have horiginal := hprepared.survey.original_eq hapart h.genuine hg
  cases original with
  | none =>
    rw [FileRequest.replacement_of_creates horiginal _ ((none : Option Bytes).getD [])]
    exact hcontent
  | some original =>
    obtain ⟨-, entry, hentry, rfl⟩ := horiginal
    rw [readable, hentry]
    exact hcontent

lemma Joint.agrees (h : Joint env rq ts w₀ tr w) {status : ChangeSetStatus}
    (hrow : Created tr → ∀ s, Progress rq tr s → s = status)
    (hstatus : status = .applied ∨ status.terminal = true) : Agrees rq w₀ w status := by
  intro hnone cs hget
  by_cases hcreated : Created tr
  · obtain ⟨cs', hget', -, -, hprogress, -⟩ := h.row.row hcreated
    obtain rfl : cs = cs' := Option.some.inj (hget.symm.trans hget')
    exact ⟨hrow hcreated cs.status hprogress, hstatus⟩
  · rw [h.row.absent hcreated, hnone] at hget
    cases hget

lemma Completed.no_handler (h : Completed rq tr) {op : Op} {v : op.Value} : ¬ Did tr .handler op v := by
  intro hdid
  cases h.calls _ hdid

lemma Undone.not_applied (h : Undone rq ts result tr) : result.status ≠ .applied := by
  rcases h.status with ⟨hs, -⟩ | ⟨hs, -⟩ <;> simp [hs]

def sampleSha256 (content : Bytes) : String :=
  if content = [97] then "ca978112ca1bbdcafac231b39a23dc4da786eff8147c4e72b9807785afee48bb"
  else if content = [98] then "3e23e8160039594a33894f6564e1b1348bbd7a0088d42c4acb73eeaed59c009d"
  else if content = [] then "e3b0c44298fc1c149afbf4c8996fb92427ae41e4649b934ca495991b7852b855"
  else "a0690f9e44b9ef6f1ac3e970f3f1cb688353cf1fe3abfb95d54550e07b9fa040"

def sampleEnv : Env where
  layout := ⟨fun _ path => path, fun _ _ => rfl⟩
  sha256 := sampleSha256
  astParse _ := .ok ()
  jsonLoads _ := .ok ()
  tomlLoads _ := .ok ()
  runArgv _ := ⟨0, ""⟩

def samplePath : Path := ⟨true, ["srv", "app", "a.conf"]⟩

def sampleContext : OperationContext := ⟨"inc-1", "shop", "web-1", "web", .host⟩

/-- Replaces `a` by `b`. -/
def sampleFile : FileRequest where
  toOperationContext := sampleContext
  operationId := "op-1"
  path := samplePath
  mutation := .write (some (sampleSha256 [97])) [98] none

def sampleRequest : ChangeSetRequest where
  changesetId := "cs-1"
  files := [sampleFile]
  verificationPlan := "check the service"
  rollbackPlan := "restore the file"
  context := sampleContext
  nonempty := List.cons_ne_nil _ _
  shared _ hf := List.mem_singleton.mp hf ▸ rfl

def sampleManager : Manager where
  env := sampleEnv
  policy := some { composeService := "web", allowedHostPaths := [⟨true, ["srv", "app"]⟩] }
  transport := true

def sampleWorld : World where
  files scope path := if scope = .host ∧ path = samplePath then some ⟨[97], 0o644⟩ else none

def sampleTs : String := "20260101T000000.000000Z"

def lockedAt (n : ℕ) : Faults := fun k =>
  if k = n then some ⟨.other, "database is locked"⟩ else none

lemma sample_apart : sampleRequest.Apart sampleEnv sampleTs := by
  unfold ChangeSetRequest.Apart
  decide +kernel

lemma sample_ready : sampleManager.Ready sampleRequest true := ⟨.inl rfl, _, rfl⟩

end IncidentLens.Changes
