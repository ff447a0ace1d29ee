import IncidentLens.Changes.Protocol
import IncidentLens.Data.Results

/-!
# Steps 1-6: before any file is touched

`apply` keeps to its protocol up to the remote backups, with the invariants of its loops over
the files. An exception in these steps leaves nothing to undo.
-/
namespace IncidentLens.Changes
open Data Effects Routine List ChangeSetRequest Dict

section
variable {σ : Type} {lawful : History → Call → Prop}

lemma wp_call {origin : Origin} {o : Op} {Q : o.Value → σ → History → Prop}
    {X : Exc → σ → History → Prop} {l : σ} {tr : History} (hlawful : lawful tr ⟨origin, o⟩)
    (hok : ∀ v, Q v l (⟨⟨origin, o⟩, .ok v⟩ :: tr)) (herror : ∀ e, X e l (⟨⟨origin, o⟩, .error e⟩ :: tr)) :
    wp lawful (call origin o) Q X l tr := by
  refine ⟨hlawful, ?_⟩
  intro r
  cases r with
  | ok v => exact hok v
  | error e => exact herror e

lemma emitChangesetEvent_spec {m : Manager} {origin : Origin} {changesetId : String}
    {status : ChangeSetStatus} {created : Bool} {Q : Unit → σ → History → Prop}
    {X : Exc → σ → History → Prop} {l : σ} {tr : History}
    (hlawful : ∀ type, lawful tr ⟨origin, .publish type changesetId status⟩) (hsilent : Q () l tr)
    (hok : ∀ type, Q () l (⟨⟨origin, .publish type changesetId status⟩, .ok ()⟩ :: tr))
    (herror : ∀ type e, X e l (⟨⟨origin, .publish type changesetId status⟩, .error e⟩ :: tr)) :
    wp lawful (emitChangesetEvent m origin changesetId status created) Q X l tr := by
  unfold emitChangesetEvent
  by_cases hevents : m.events = true
  · rw [if_pos hevents]
    exact wp_call (hlawful _) (fun _ => hok _) fun e => herror _ e
  · rw [if_neg hevents]
    exact hsilent

end

variable {m : Manager} {rq : ChangeSetRequest} {ts : String} {l : Locals} {tr tr' : History}

section Monotone

lemma Did.of_cons {c : Call} {r : Raising Exc Call.Value c} {origin : Origin} {op : Op} {v : op.Value}
    (h : Did (⟨c, r⟩ :: tr) origin op v) (hne : c ≠ ⟨origin, op⟩) : Did tr origin op v := by
  rcases mem_cons.mp h with heq | hmem
  · exact absurd (congrArg Event.call heq).symm hne
  · exact hmem

lemma Did.of_cons_error {c : Call} {e : Exc} {origin : Origin} {op : Op} {v : op.Value}
    (h : Did (⟨c, .error e⟩ :: tr) origin op v) : Did tr origin op v := by
  rcases mem_cons.mp h with heq | hmem
  · cases heq
  · exact hmem

lemma Canonical.mono {f : FileRequest} {canonical : Path} (h : Canonical tr f canonical)
    (hsub : tr ⊆ tr') : Canonical tr' f canonical := by
  unfold Canonical at h ⊢
  cases hscope : f.scope with
  | container _ => simpa only [hscope] using h
  | host =>
    simp only [hscope] at h ⊢
    split_ifs at h ⊢
    · obtain ⟨parent, hparent, heq⟩ := h
      exact ⟨parent, hparent.mono hsub, heq⟩
    · exact h.mono hsub

variable {original : Option Bytes} {path canonical : Path}

lemma Preflighted.mono {f : FileRequest} {canonical : Path}
    (h : Preflighted tr f canonical original) (hsub : tr ⊆ tr') : Preflighted tr' f canonical original := by
  refine ⟨h.1.mono hsub, ?_⟩
  cases original with
  | none =>
    obtain ⟨hcreates, e, hkind, hraised⟩ := h.2
    exact ⟨hcreates, e, hkind, hsub hraised⟩
  | some content =>
    obtain ⟨hcreates, ⟨metadata, hlink, hstat⟩, hread⟩ := h.2
    exact ⟨hcreates, ⟨metadata, hlink, hstat.mono hsub⟩, hread.mono hsub⟩

lemma At.mono (h : At rq tr path canonical original) (hsub : tr ⊆ tr') : At rq tr' path canonical original := by
  obtain ⟨f, hf, hpath, hpre⟩ := h
  exact ⟨f, hf, hpath, hpre.mono hsub⟩

lemma Created.mono (h : Created tr) (hsub : tr ⊆ tr') : Created tr' := by
  obtain ⟨cs, hcs⟩ := h
  exact ⟨cs, hcs.mono hsub⟩

lemma Secured.mono (h : Secured rq ts tr path canonical original) (hsub : tr ⊆ tr') :
    Secured rq ts tr' path canonical original := by
  intro hnew
  obtain ⟨content, horiginal, hcopy, hread, hrecord⟩ := h hnew
  exact ⟨content, horiginal, hcopy.mono hsub, hread.mono hsub, fun f hf hpath => (hrecord f hf hpath).mono hsub⟩

lemma Prepared.mono {content : Bytes} (h : Prepared rq ts tr path canonical original content) (hsub : tr ⊆ tr') :
    Prepared rq ts tr' path canonical original content :=
  ⟨h.survey.mono hsub, h.content, h.secured.mono hsub, h.created.mono hsub⟩

lemma Placed.mono (h : Placed rq tr path canonical) (hsub : tr ⊆ tr') : Placed rq tr' path canonical := by
  obtain ⟨⟨original, hat⟩, hrename⟩ := h
  exact ⟨⟨original, hat.mono hsub⟩, hrename.mono hsub⟩

end Monotone

/-- Nothing has been done to files yet; the journal entry is there as `changeset_created` says. -/
structure Base (l : Locals) (tr : History) : Prop where
  calls : ∀ e ∈ tr, e.call.origin = .apply ∧ e.call.stage = 0
  applied : l.appliedFiles = []
  written : l.writtenTemps = []
  temps : l.tempPaths = []
  failures : l.rollbackFailures = []
  created : l.changesetCreated = true ↔ Created tr

lemma Base.upTo (h : Base l tr) : UpTo 0 tr := fun e he => (h.calls e he).2.le

variable {o : Op} {f : FileRequest} {done rest : List FileRequest}

lemma Base.call_error (hop : Call.stage ⟨.apply, o⟩ = 0) (e : Exc) (h : Base l tr) :
    Base l (⟨⟨.apply, o⟩, .error e⟩ :: tr) := by
  refine ⟨?_, h.applied, h.written, h.temps, h.failures, h.created.trans ⟨?_, ?_⟩⟩
  · exact forall_mem_cons.mpr ⟨⟨rfl, hop⟩, h.calls⟩
  · exact fun hcreated => hcreated.mono (subset_cons_self _ _)
  · rintro ⟨cs, hcs⟩
    exact ⟨cs, hcs.of_cons_error⟩

/-- A call other than the creation of the journal entry. -/
def Op.inspects : Op → Bool
  | createChangeset _ => false
  | op => (Call.stage ⟨.apply, op⟩ == 0)

lemma Base.call (hop : o.inspects = true) (r : Raising Exc Call.Value ⟨.apply, o⟩)
    (h : Base l tr) : Base l (⟨⟨.apply, o⟩, r⟩ :: tr) := by
  have hstage : Call.stage ⟨.apply, o⟩ = 0 := by cases o <;> simp_all [Op.inspects]
  refine ⟨?_, h.applied, h.written, h.temps, h.failures, h.created.trans ⟨?_, ?_⟩⟩
  · exact forall_mem_cons.mpr ⟨⟨rfl, hstage⟩, h.calls⟩
  · exact fun hcreated => hcreated.mono (subset_cons_self _ _)
  · rintro ⟨cs, hcs⟩
    rcases mem_cons.mp hcs with heq | hmem
    · cases heq
      simp [Op.inspects] at hop
    · exact ⟨cs, hmem⟩

/-- The local variables keep what steps 1-2 have found out about a path. -/
def Known (rq : ChangeSetRequest) (l : Locals) (tr : History) (path : Path) : Prop :=
  ∃ canonical original, l.canonicalPaths.get? path = some canonical ∧
    l.originalContents.get? path = some (original.getD []) ∧
    l.backends.get? path = some rq.context.scope ∧ At rq tr path canonical original

lemma Known.mono {path : Path} (h : Known rq l tr path) (hsub : tr ⊆ tr') : Known rq l tr' path := by
  obtain ⟨canonical, original, hcanonical, horiginal, hscope, hat⟩ := h
  exact ⟨canonical, original, hcanonical, horiginal, hscope, hat.mono hsub⟩

lemma ChangeSetRequest.scope_eq (hf : f ∈ rq.files) : f.scope = rq.context.scope := by rw [← rq.shared f hf]

lemma checkPresence_eq_ok {metadata : Option FileMetadata} (h : checkPresence f metadata = .ok ()) :
    (metadata.isNone = f.creates) ∧ ∀ found, metadata = some found → found.isSymlink = false := by
  unfold checkPresence at h
  cases metadata with
  | none =>
    cases hcreates : f.creates <;> simp [hcreates] at h ⊢
  | some found =>
    cases hlink : found.isSymlink <;> cases hcreates : f.creates <;> simp [hlink, hcreates] at h ⊢

/-- Steps 1-2 for the files before the current one. -/
structure Surveying (rq : ChangeSetRequest) (done : List FileRequest) (l : Locals) (tr : History) :
    Prop extends Base l tr where
  known : ∀ f ∈ done, Known rq l tr f.path
  news : ∀ path, path ∈ l.newFiles ↔ ∃ f ∈ done, f.path = path ∧ f.creates = true

lemma lstatOrAbsent_spec (f : FileRequest) {Q : Option FileMetadata → Locals → History → Prop}
    {X : Exc → Locals → History → Prop} (hquiet : UpTo 0 tr)
    (hsome : ∀ metadata, Q (some metadata) l (⟨⟨.apply, .lstat f.scope f.path⟩, .ok metadata⟩ :: tr))
    (hnone : ∀ e : Exc, e.kind = .remotePath → Q none l (⟨⟨.apply, .lstat f.scope f.path⟩, .error e⟩ :: tr))
    (herror : ∀ e : Exc, X e l (⟨⟨.apply, .lstat f.scope f.path⟩, .error e⟩ :: tr)) :
    wp (Lawful rq ts) (lstatOrAbsent f) Q X l tr := by
  unfold lstatOrAbsent
  simp only [wp_bind, wp_attempt]
  refine wp_call hquiet hsome ?_
  intro e
  split_ifs with hkind
  · exact hnone e hkind
  · exact herror e

lemma canonicalize_spec (policy : ServiceRegistration)
    {metadata : Option FileMetadata} (hcreates : metadata.isNone = f.creates)
    {Q : Path → Locals → History → Prop} {X : Exc → Locals → History → Prop} (hbase : Base l tr)
    (hok : ∀ canonical tr', tr ⊆ tr' → Base l tr' → Canonical tr' f canonical → Q canonical l tr')
    (herror : ∀ e tr', Base l tr' → X e l tr') : wp (Lawful rq ts) (canonicalize policy f metadata) Q X l tr := by
  have hcheck : ∀ canonical tr', tr ⊆ tr' → Base l tr' → Canonical tr' f canonical →
      wp (Lawful rq ts) (if RemotePathPolicy.contains policy canonical .host then pure canonical
        else raise (changeApplyError ("resolved path " ++ canonical.str ++ " escapes allowed roots")))
        Q X l tr' := by
    intro canonical tr' hsub hbase' hcanonical
    split_ifs
    · exact hok canonical tr' hsub hbase' hcanonical
    · exact herror _ tr' hbase'
  unfold canonicalize
  unfold Canonical at hok hcheck
  cases hscope : f.scope with
  | container container =>
    simp only [hscope] at hok
    exact hok f.path tr (List.Subset.refl tr) hbase rfl
  | host =>
    simp only [hscope] at hok hcheck
    cases metadata with
    | none =>
      have hnew : f.creates = true := by simpa using hcreates.symm
      simp only [hnew, if_true] at hcheck
      refine wp_bind.mpr (wp_call trivial ?_ ?_)
      · intro parent
        exact hcheck _ _ (subset_cons_self _ _) (hbase.call rfl _)
          ⟨parent, mem_cons_self, rfl⟩
      · exact fun e => herror e _ (hbase.call rfl _)
    | some found =>
      have hold : f.creates = false := by simpa using hcreates.symm
      simp only [hold, Bool.false_eq_true, if_false] at hcheck
      refine wp_bind.mpr (wp_call trivial ?_ ?_)
      · intro canonical
        exact hcheck _ _ (subset_cons_self _ _) (hbase.call rfl _) mem_cons_self
      · exact fun e => herror e _ (hbase.call rfl _)


lemma preflight_spec (policy : ServiceRegistration)
    (hfiles : rq.files = done ++ f :: rest) (h : Surveying rq done l tr) :
    wp (Lawful rq ts) (preflight m policy f) (fun _ => Surveying rq (done ++ [f])) (fun _ => Base) l tr := by
  have hf : f ∈ rq.files := by simp [hfiles]
  -- what is known of the other paths is not touched
  have hknown : ∀ {l' : Locals} {tr' : History} {canonical : Path} {original : Option Bytes},
      tr ⊆ tr' → l'.canonicalPaths = l.canonicalPaths.set f.path canonical →
      l'.originalContents = l.originalContents.set f.path (original.getD []) →
      l'.backends = l.backends.set f.path f.scope → Preflighted tr' f canonical original →
      ∀ g ∈ done ++ [f], Known rq l' tr' g.path := by
    intro l' tr' canonical original hsub hcanonical horiginal hbackend hpre g hg
    by_cases hpath : f.path = g.path
    · refine ⟨canonical, original, ?_, ?_, ?_, f, hf, hpath, hpre⟩
      · rw [hcanonical, hpath, get?_set_self]
      · rw [horiginal, hpath, get?_set_self]
      · rw [hbackend, hpath, get?_set_self, scope_eq hf]
    · have hgdone : g ∈ done := by
        rcases mem_append.mp hg with hg | hg
        · exact hg
        · exact absurd (by rw [mem_singleton.mp hg]) hpath
      obtain ⟨c, o, hc, ho, hs, hat⟩ := h.known g hgdone
      refine ⟨c, o, ?_, ?_, ?_, hat.mono hsub⟩
      · rw [hcanonical, get?_set_of_ne _ _ hpath, hc]
      · rw [horiginal, get?_set_of_ne _ _ hpath, ho]
      · rw [hbackend, get?_set_of_ne _ _ hpath, hs]
  have hbase : Base { l with backends := l.backends.set f.path f.scope } tr :=
    ⟨h.calls, h.applied, h.written, h.temps, h.failures, h.created⟩
  unfold preflight
  simp only [wp_bind, wp_modify]
  refine lstatOrAbsent_spec f h.upTo ?_ ?_ fun e => hbase.call rfl _
  · -- the path is there
    intro metadata
    have hbase' := hbase.call (o := .lstat f.scope f.path) rfl (.ok metadata)
    refine wp_ofExcept ?_ fun e _ => hbase'
    intro _ hpresent
    obtain ⟨hcreates, hlink⟩ := checkPresence_eq_ok hpresent
    refine wp_ofExcept ?_ fun e _ => hbase'
    intro _ _
    refine canonicalize_spec policy hcreates hbase' ?_ fun e tr' hbase'' => hbase''
    intro canonical tr' hsub hbase'' hcanonical
    have hbase₃ : Base { l with
        backends := l.backends.set f.path f.scope
        canonicalPaths := l.canonicalPaths.set f.path canonical } tr' :=
      ⟨hbase''.calls, h.applied, h.written, h.temps, h.failures, hbase''.created⟩
    have hold : f.creates = false := by simpa using hcreates.symm
    unfold readOriginal
    refine wp_bind.mpr (wp_call hbase₃.upTo ?_ fun e => hbase₃.call rfl _)
    intro content
    have hbase₄ := hbase₃.call (o := .readBytes f.scope canonical maxChangeFileBytes) rfl (.ok content)
    have hsub' : tr ⊆ (⟨⟨.apply, .readBytes f.scope canonical maxChangeFileBytes⟩, .ok content⟩ ::
        tr' : History) :=
      fun e he => mem_cons_of_mem _ (hsub (mem_cons_of_mem _ he))
    have hpre : Preflighted (⟨⟨.apply, .readBytes f.scope canonical maxChangeFileBytes⟩, .ok content⟩ ::
        tr') f canonical (some content) :=
      ⟨hcanonical.mono (subset_cons_self _ _), hold,
        ⟨metadata, hlink metadata rfl, mem_cons_of_mem _ (hsub mem_cons_self)⟩,
        mem_cons_self⟩
    have hnews : ∀ path, path ∈ l.newFiles ↔ ∃ g ∈ done ++ [f], g.path = path ∧ g.creates = true := by
      intro path
      rw [h.news path]
      constructor
      · rintro ⟨g, hg, hpath⟩
        exact ⟨g, mem_append_left _ hg, hpath⟩
      · rintro ⟨g, hg, hpath, hnew⟩
        rcases mem_append.mp hg with hg | hg
        · exact ⟨g, hg, hpath, hnew⟩
        · rw [mem_singleton.mp hg, hold] at hnew
          cases hnew
    simp only [wp_bind, wp_modify]
    have hend : Surveying rq (done ++ [f]) { l with
        backends := l.backends.set f.path f.scope
        canonicalPaths := l.canonicalPaths.set f.path canonical
        originalContents := l.originalContents.set f.path content
        originalModes := l.originalModes.set f.path metadata.mode }
        (⟨⟨.apply, .readBytes f.scope canonical maxChangeFileBytes⟩, .ok content⟩ :: tr') :=
      ⟨⟨hbase₄.calls, h.applied, h.written, h.temps, h.failures, hbase₄.created⟩, hknown hsub' rfl rfl rfl hpre, hnews⟩
    cases f.expectedSha256 with
    | none => exact hend
    | some expected => exact wp_ofExcept (fun _ _ => hend) fun _ _ => hend.toBase
  · -- the path is absent
    intro e hkind
    have hbase' := hbase.call (o := .lstat f.scope f.path) rfl (.error e)
    refine wp_ofExcept ?_ fun e _ => hbase'
    intro _ hpresent
    obtain ⟨hcreates, -⟩ := checkPresence_eq_ok hpresent
    refine wp_ofExcept ?_ fun e _ => hbase'
    intro _ _
    refine canonicalize_spec policy hcreates hbase' ?_ fun e tr' hbase'' => hbase''
    intro canonical tr' hsub hbase'' hcanonical
    have hnew : f.creates = true := by simpa using hcreates.symm
    have hpre : Preflighted tr' f canonical none := ⟨hcanonical, hnew, e, hkind, hsub mem_cons_self⟩
    refine ⟨⟨hbase''.calls, h.applied, h.written, h.temps, h.failures, hbase''.created⟩,
      hknown (fun e he => hsub (mem_cons_of_mem _ he)) rfl rfl rfl hpre, ?_⟩
    intro path
    change path ∈ f.path :: l.newFiles ↔ _
    rw [mem_cons, h.news path]
    constructor
    · rintro (rfl | ⟨g, hg, hpath⟩)
      · exact ⟨f, by simp, rfl, hnew⟩
      · exact ⟨g, mem_append_left _ hg, hpath⟩
    · rintro ⟨g, hg, hpath, hgnew⟩
      rcases mem_append.mp hg with hg | hg
      · exact .inr ⟨g, hg, hpath, hgnew⟩
      · rw [mem_singleton.mp hg] at hpath
        exact .inl hpath.symm

/-- After steps 1-2. -/
structure Surveyed (rq : ChangeSetRequest) (l : Locals) (tr : History) : Prop extends Base l tr where
  known : ∀ f ∈ rq.files, Known rq l tr f.path
  news : ∀ path, path ∈ l.newFiles ↔ IsNew rq path

lemma survey_spec (policy : ServiceRegistration) (h : Base {} tr) :
    wp (Lawful rq ts) (rq.files.forM (preflight m policy)) (fun _ => Surveyed rq) (fun _ => Base) {} tr := by
  refine wp_forM (Surveying rq) ?_ ?_ ?_
  · intro done f rest hfiles l tr h
    exact preflight_spec policy hfiles h
  · refine ⟨h, ?_, ?_⟩
    · rintro f ⟨⟩
    · intro path
      simp
  · intro l tr h
    exact ⟨h.toBase, h.known, h.news⟩


/-- Steps 3 and 4: what `done` files have been computed, and what `checked` files validated. -/
structure Computing (rq : ChangeSetRequest) (done checked : List FileRequest) (l : Locals)
    (tr : History) : Prop extends Surveyed rq l tr where
  contents : ∀ f ∈ done, ∃ original content, l.originalContents.get? f.path = some original ∧
    l.newContents.get? f.path = some content ∧ Content rq f.path original content
  results : ∀ f ∈ checked, ∃ result, l.validationResults.get? f.path = some result

lemma lookup_eq_ok {α : Type} {d : Dict Path α} {path : Path} {a : α} (h : lookup d path = .ok a) :
    d.get? path = some a := by
  unfold lookup at h
  cases hget : d.get? path with
  | none => simp [hget] at h
  | some b =>
    simp only [hget, Except.ok.injEq] at h
    rw [h]

lemma computeReplacement_spec (hfiles : rq.files = done ++ f :: rest) (h : Computing rq done [] l tr) :
    wp (Lawful rq ts) (computeReplacement f) (fun _ => Computing rq (done ++ [f]) []) (fun _ => Base) l tr := by
  have hf : f ∈ rq.files := by simp [hfiles]
  unfold computeReplacement
  simp only [wp_bind, wp_get]
  refine wp_ofExcept ?_ fun _ _ => h.toBase
  intro original horiginal
  refine wp_ofExcept ?_ fun _ _ => h.toBase
  intro content hcontent
  refine ⟨⟨⟨h.calls, h.applied, h.written, h.temps, h.failures, h.created⟩, h.known, h.news⟩, ?_, ?_⟩
  · intro g hg
    by_cases hpath : f.path = g.path
    · refine ⟨original, content, hpath ▸ lookup_eq_ok horiginal, ?_, f, hf, hpath, hcontent⟩
      change (l.newContents.set f.path content).get? g.path = some content
      rw [hpath, get?_set_self]
    · have hgdone : g ∈ done := by
        rcases mem_append.mp hg with hg | hg
        · exact hg
        · exact absurd (by rw [mem_singleton.mp hg]) hpath
      obtain ⟨o, c, ho, hc, hcontent'⟩ := h.contents g hgdone
      exact ⟨o, c, ho, (get?_set_of_ne _ _ hpath).trans hc, hcontent'⟩
  · rintro g ⟨⟩

lemma validate_spec (h : Computing rq rq.files done l tr) (_ : rq.files = done ++ f :: rest) :
    wp (Lawful rq ts) (validate m f) (fun _ => Computing rq rq.files (done ++ [f])) (fun _ => Base) l tr := by
  unfold validate
  simp only [wp_bind, wp_get]
  refine wp_ofExcept ?_ fun _ _ => h.toBase
  intro content _
  refine wp_ofExcept ?_ fun _ _ => h.toBase
  intro result _
  refine ⟨⟨⟨h.calls, h.applied, h.written, h.temps, h.failures, h.created⟩, h.known, h.news⟩, h.contents, ?_⟩
  intro g hg
  by_cases hpath : f.path = g.path
  · refine ⟨result, ?_⟩
    change (l.validationResults.set f.path result).get? g.path = some result
    rw [hpath, get?_set_self]
  · have hgdone : g ∈ done := by
      rcases mem_append.mp hg with hg | hg
      · exact hg
      · exact absurd (by rw [mem_singleton.mp hg]) hpath
    obtain ⟨r, hr⟩ := h.results g hgdone
    exact ⟨r, (get?_set_of_ne _ _ hpath).trans hr⟩

lemma computing_spec (h : Surveyed rq l tr) :
    wp (Lawful rq ts) (rq.files.forM computeReplacement) (fun _ => Computing rq rq.files [])
      (fun _ => Base) l tr := by
  refine wp_forM (fun done => Computing rq done []) ?_ ?_ fun _ _ => id
  · intro done f rest hfiles l tr h
    exact computeReplacement_spec hfiles h
  · refine ⟨h, ?_, ?_⟩
    · rintro f ⟨⟩
    · rintro f ⟨⟩

lemma validating_spec (h : Computing rq rq.files [] l tr) :
    wp (Lawful rq ts) (rq.files.forM (validate m)) (fun _ => Computing rq rq.files rq.files)
      (fun _ => Base) l tr := by
  refine wp_forM (Computing rq rq.files) ?_ h fun _ _ => id
  intro done f rest hfiles l tr h
  exact validate_spec h hfiles

/-- What the local variables hold from the draft on. -/
structure Plan (rq : ChangeSetRequest) (l : Locals) (tr : History) : Prop where
  known : ∀ f ∈ rq.files, Known rq l tr f.path
  news : ∀ path, path ∈ l.newFiles ↔ IsNew rq path
  contents : ∀ f ∈ rq.files, ∃ original content, l.originalContents.get? f.path = some original ∧
    l.newContents.get? f.path = some content ∧ Content rq f.path original content
  results : ∀ f ∈ rq.files, ∃ result, l.validationResults.get? f.path = some result
  created : Created tr

lemma Plan.mono (h : Plan rq l tr) (hsub : tr ⊆ tr') : Plan rq l tr' :=
  ⟨fun f hf => (h.known f hf).mono hsub, h.news, h.contents, h.results, h.created.mono hsub⟩

/-- Steps 5 and 6 before any file has been touched, `done` of them with a remote backup. -/
structure Securing (rq : ChangeSetRequest) (ts : String) (done : List FileRequest) (l : Locals)
    (tr : History) : Prop extends Base l tr where
  plan : Plan rq l tr
  secured : ∀ f ∈ done, ¬ IsNew rq f.path → ∃ canonical content,
    l.canonicalPaths.get? f.path = some canonical ∧ l.originalContents.get? f.path = some content ∧
    l.backupPaths.get? f.path = some (backupPath canonical ts) ∧
    Did tr .apply (.copyFile rq.context.scope canonical (backupPath canonical ts)) () ∧
    Did tr .apply (.readBytes rq.context.scope (backupPath canonical ts) maxChangeFileBytes) content ∧
    Did tr .apply (.updateFileChange rq.changesetId f.operationId
      { remoteBackupPath := some (backupPath canonical ts) }) ()

lemma Securing.call {done : List FileRequest} (hop : o.inspects = true)
    (r : Raising Exc Call.Value ⟨.apply, o⟩) (h : Securing rq ts done l tr) :
    Securing rq ts done l (⟨⟨.apply, o⟩, r⟩ :: tr) := by
  have hsub := subset_cons_self (⟨⟨.apply, o⟩, r⟩ : Event Call (Raising Exc Call.Value)) tr
  refine ⟨h.toBase.call hop r, h.plan.mono hsub, ?_⟩
  intro f hf hnew
  obtain ⟨canonical, content, hcanonical, hcontent, hbackup, hcopy, hread, hrecord⟩ := h.secured f hf hnew
  exact ⟨canonical, content, hcanonical, hcontent, hbackup, hcopy.mono hsub, hread.mono hsub, hrecord.mono hsub⟩

lemma buildFileChange_drafts {change : FileChange} (hf : f ∈ rq.files)
    (hnews : ∀ path, path ∈ l.newFiles ↔ IsNew rq path)
    (h : buildFileChange m.env f l.newContents l.newFiles = .ok change) : Drafts rq f change := by
  unfold buildFileChange at h
  cases hcontent : lookup l.newContents f.path with
  | error e => simp [hcontent] at h
  | ok content =>
    simp only [hcontent] at h
    split_ifs at h
    obtain rfl := Except.ok.inj h
    refine ⟨rfl, rfl, ?_, ?_, rfl, rfl⟩
    · rw [← scope_eq hf]
      unfold backendForChange
      cases hscope : f.scope with
      | host => simp [RemoteScope.kind]
      | container container => simp [RemoteScope.kind]
    · simp only [decide_eq_true_eq]
      exact hnews f.path

lemma createDraft_spec (approvalId : Option String) (h : Computing rq rq.files rq.files l tr) :
    wp (Lawful rq ts) (createDraft m rq approvalId) (fun _ => Securing rq ts []) (fun _ => Base) l tr := by
  unfold createDraft
  simp only [wp_bind, wp_get]
  refine wp_ofExcept ?_ fun _ _ => h.toBase
  intro files hfiles
  have hdrafts : List.Forall₂ (Drafts rq) rq.files files :=
    ((forall₂_and_left rq.files files).mpr ⟨fun _ hf => hf, mapM_eq_ok_iff.mp hfiles⟩).imp
      fun f change hf => buildFileChange_drafts hf.1 h.news hf.2
  have hlawful : Lawful rq ts tr ⟨.apply, .createChangeset (draft rq files approvalId)⟩ := ⟨h.upTo, rfl, hdrafts⟩
  refine wp_call hlawful ?_ fun e => h.call_error rfl e
  intro _
  -- the flag is set right after the call
  have hbase : Base { l with changesetCreated := true }
      (⟨⟨.apply, .createChangeset (draft rq files approvalId)⟩, .ok ()⟩ :: tr) := by
    refine ⟨?_, h.applied, h.written, h.temps, h.failures, ?_⟩
    · exact forall_mem_cons.mpr ⟨⟨rfl, rfl⟩, h.calls⟩
    · exact ⟨fun _ => ⟨_, mem_cons_self⟩, fun _ => rfl⟩
  have hend : Securing rq ts [] { l with changesetCreated := true } _ :=
    ⟨hbase, ⟨fun f hf => (h.known f hf).mono (subset_cons_self _ _), h.news, h.contents, h.results,
      hbase.created.mp rfl⟩, fun f hf => by cases hf⟩
  exact emitChangesetEvent_spec (fun _ => trivial) hend (fun _ => hend.call rfl _)
    fun _ _ => hbase.call rfl _


lemma Securing.transition {done : List FileRequest} {status : ChangeSetStatus}
    (hstatus : status ∈ [.preflighted, .locallyBackedUp, .remotelyBackedUp]) (h : Securing rq ts done l tr) :
    wp (Lawful rq ts) (transition m .apply rq.changesetId status)
      (fun _ => Securing rq ts done) (fun _ => Base) l tr := by
  have hinspects : Op.inspects (.transition rq.changesetId status) = true := by
    simp only [mem_cons, not_mem_nil, or_false] at hstatus
    rcases hstatus with rfl | rfl | rfl <;> rfl
  have hlawful : Lawful rq ts tr ⟨.apply, .transition rq.changesetId status⟩ := by
    refine ⟨rfl, h.plan.created, fun e he => (h.upTo e he).trans (Nat.zero_le 2), by simp at hstatus ⊢; tauto, ?_⟩
    rintro rfl
    simp at hstatus
  unfold Changes.transition
  refine wp_bind.mpr (wp_call hlawful ?_ fun e => h.toBase.call hinspects _)
  intro _
  have h' := h.call hinspects (.ok ())
  exact emitChangesetEvent_spec (fun _ => trivial) h' (fun _ => h'.call rfl _)
    fun _ _ => h'.toBase.call rfl _

lemma lawful_record (hf : f ∈ rq.files) (hcreated : Created tr) {patch : FileChangePatch}
    (happlied : patch.applied = none) (hbackup : patch.remoteBackupPath = none)
    (hrollback : patch.rollbackResult = none) :
    Lawful rq ts tr ⟨.apply, .updateFileChange rq.changesetId f.operationId patch⟩ := by
  refine ⟨rfl, hcreated, hrollback, ⟨f, hf, rfl⟩, ?_, ?_⟩
  · intro backup h
    rw [hbackup] at h
    cases h
  · intro applied h
    rw [happlied] at h
    cases h

lemma backUpLocally_spec (hf : f ∈ rq.files) (h : Securing rq ts [] l tr) :
    wp (Lawful rq ts) (backUpLocally rq f) (fun _ => Securing rq ts []) (fun _ => Base) l tr := by
  have hrecord : ∀ tr' (ref : BackupReference), Securing rq ts [] l tr' → wp (Lawful rq ts)
      (call .apply (.updateFileChange rq.changesetId f.operationId { localBackupRef := some ref.name }))
      (fun _ => Securing rq ts []) (fun _ => Base) l tr' := by
    intro tr' ref h'
    exact wp_call (lawful_record hf h'.plan.created rfl rfl rfl) (fun _ => h'.call rfl _) fun _ => h'.toBase.call rfl _
  unfold backUpLocally
  simp only [wp_bind, wp_get]
  split_ifs with hnew
  · simp only [wp_bind]
    refine wp_call trivial ?_ fun _ => h.toBase.call rfl _
    intro ref
    exact hrecord _ ref (h.call rfl _)
  · simp only [wp_bind]
    refine wp_ofExcept ?_ fun _ _ => h.toBase
    intro original _
    refine wp_call trivial ?_ fun _ => h.toBase.call rfl _
    intro ref
    have h' := h.call (o := .vaultStore f.targetId f.incidentId rq.changesetId f.path original) rfl
      (.ok ref)
    refine wp_call trivial ?_ fun _ => h'.toBase.call rfl _
    intro loaded
    have h'' := h'.call (o := .vaultLoad ref) rfl (.ok loaded)
    split_ifs
    · exact hrecord _ ref h''
    · exact h''.toBase

lemma backUpRemotely_spec (hfiles : rq.files = done ++ f :: rest) (h : Securing rq ts done l tr) :
    wp (Lawful rq ts) (backUpRemotely rq ts f) (fun _ => Securing rq ts (done ++ [f])) (fun _ => Base) l tr := by
  have hf : f ∈ rq.files := by simp [hfiles]
  unfold backUpRemotely
  simp only [wp_bind, wp_get]
  split_ifs with hmem
  · refine ⟨h.toBase, h.plan, ?_⟩
    intro g hg hnew
    rcases mem_append.mp hg with hg | hg
    · exact h.secured g hg hnew
    · rw [mem_singleton.mp hg] at hnew
      exact absurd ((h.plan.news _).mp hmem) hnew
  · simp only [wp_bind]
    have hnew : ¬ IsNew rq f.path := fun hnew => hmem ((h.plan.news _).mpr hnew)
    obtain ⟨canonical, original, hcanonical, horiginal, -, hat⟩ := h.plan.known f hf
    refine wp_ofExcept ?_ fun _ _ => h.toBase
    intro canonical' hcanonical'
    obtain rfl : canonical = canonical' := Option.some.inj (hcanonical.symm.trans (lookup_eq_ok hcanonical'))
    refine wp_ofExcept ?_ fun _ _ => h.toBase
    intro content hcontent
    have hcontent' := lookup_eq_ok hcontent
    have hcopyLawful : Lawful rq ts tr ⟨.apply, .copyFile f.scope canonical (backupPath canonical ts)⟩ :=
      ⟨h.upTo, scope_eq hf, rfl, f.path, original, hnew, hat⟩
    refine wp_call hcopyLawful ?_ fun _ => h.toBase.call rfl _
    intro _
    have h' := h.call (o := .copyFile f.scope canonical (backupPath canonical ts)) rfl (.ok ())
    refine wp_call h'.upTo ?_ fun _ => h'.toBase.call rfl _
    intro found
    have h'' := h'.call (o := .readBytes f.scope (backupPath canonical ts) maxChangeFileBytes) rfl
      (.ok found)
    split_ifs with hfound
    · subst hfound
      have hrecordLawful : Lawful rq ts (⟨⟨.apply, .readBytes f.scope (backupPath canonical ts)
          maxChangeFileBytes⟩, .ok found⟩ :: ⟨⟨.apply, .copyFile f.scope canonical
            (backupPath canonical ts)⟩, .ok ()⟩ :: tr) ⟨.apply, .updateFileChange rq.changesetId
              f.operationId { remoteBackupPath := some (backupPath canonical ts) }⟩ := by
        refine ⟨rfl, h''.plan.created, rfl, ⟨f, hf, rfl⟩, ?_, ?_⟩
        · intro backup hbackup
          obtain rfl := Option.some.inj hbackup
          refine ⟨rfl, h''.upTo, f, hf, rfl, canonical, original, ?_, rfl⟩
          exact hat.mono fun e he => mem_cons_of_mem _ (mem_cons_of_mem _ he)
        · intro applied happlied
          cases happlied
      have hbase : Base { l with
          backupPaths := l.backupPaths.set f.path (backupPath canonical ts) } _ :=
        ⟨h''.calls, h.applied, h.written, h.temps, h.failures, h''.created⟩
      refine wp_bind.mpr (wp_call hrecordLawful ?_ fun _ => hbase.call rfl _)
      intro _
      have hend := h''.call (o := .updateFileChange rq.changesetId f.operationId
        { remoteBackupPath := some (backupPath canonical ts) }) rfl (.ok ())
      refine ⟨hbase.call rfl _, ⟨hend.plan.known, hend.plan.news, hend.plan.contents,
        hend.plan.results, hend.plan.created⟩, ?_⟩
      intro g hg hgnew
      change ∃ canonical' content', l.canonicalPaths.get? g.path = some canonical' ∧
        l.originalContents.get? g.path = some content' ∧
        (l.backupPaths.set f.path (backupPath canonical ts)).get? g.path = _ ∧ _
      rcases mem_append.mp hg with hg | hg
      · obtain ⟨c, o, hc, ho, hbackup, hcopy, hread, hrecord⟩ := hend.secured g hg hgnew
        refine ⟨c, o, hc, ho, ?_, hcopy, hread, hrecord⟩
        by_cases hpath : f.path = g.path
        · rw [hpath, get?_set_self]
          rw [hpath, hc] at hcanonical
          rw [Option.some.inj hcanonical]
        · rw [get?_set_of_ne _ _ hpath, hbackup]
      · rw [mem_singleton.mp hg, ← scope_eq hf]
        refine ⟨canonical, found, hcanonical, hcontent', get?_set_self _ _ _, ?_, ?_, ?_⟩
        · exact mem_cons_of_mem _ (mem_cons_of_mem _ mem_cons_self)
        · exact mem_cons_of_mem _ mem_cons_self
        · exact mem_cons_self
    · exact h''.toBase

lemma backingUpLocally_spec (h : Securing rq ts [] l tr) :
    wp (Lawful rq ts) (rq.files.forM (backUpLocally rq)) (fun _ => Securing rq ts []) (fun _ => Base) l tr := by
  refine wp_forM (fun _ => Securing rq ts []) ?_ h fun _ _ => id
  intro done f rest hfiles l tr h
  exact backUpLocally_spec (by simp [hfiles]) h

lemma backingUpRemotely_spec (h : Securing rq ts [] l tr) :
    wp (Lawful rq ts) (rq.files.forM (backUpRemotely rq ts)) (fun _ => Securing rq ts rq.files)
      (fun _ => Base) l tr := by
  refine wp_forM (Securing rq ts) ?_ h fun _ _ => id
  intro done f rest hfiles l tr h
  exact backUpRemotely_spec hfiles h

end IncidentLens.Changes
