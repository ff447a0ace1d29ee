import IncidentLens.Changes.Placement

/-!
# The failure handler

After an exception the handler restores every file that was renamed into place, removes the
temporary files that were not, and closes the journal entry; a file stays replaced only if a
call that restores it has raised.
-/
namespace IncidentLens.Changes
open Data Effects Routine List

section
variable (rq : ChangeSetRequest) (ts : String)

/-- A call that restores a file, or records that, has raised. -/
def RestoreRaised (tr : History) : Prop :=
  (∃ path canonical, Placed rq tr path canonical ∧
    ((IsNew rq path ∧ Raised tr .handler (.removeFile rq.context.scope canonical)) ∨
      ¬ IsNew rq path ∧ Raised tr .handler
        (.rename rq.context.scope (backupPath canonical ts) canonical))) ∨
  ∃ fileChangeId patch, Raised tr .handler (.updateFileChange rq.changesetId fileChangeId patch)

/-- The journal says that the file is restored. -/
def Withdrawn (tr : History) (path : Path) : Prop :=
  ∃ f ∈ rq.files, f.path = path ∧ ∃ result, Did tr .handler (.updateFileChange rq.changesetId
    f.operationId { rollbackResult := some result, applied := some false }) ()

def Op.target : Op → Option Path
  | rename _ _ target | removeFile _ target => some target
  | _ => none

def Op.transitions : Op → Bool
  | transition _ _ => true
  | _ => false

/-- The clean-up between two files, `done` of the applied ones having been visited. -/
structure Restoring (l₀ : Locals) (tr₀ : History) (done : List Path) (l : Locals) (tr : History) :
    Prop where
  sub : tr₀ ⊆ tr
  calls : ∀ e ∈ tr, e ∈ tr₀ ∨ e.call.origin = .handler ∧ e.call.op.transitions = false ∧
    ∀ target, e.call.op.target = some target → ∃ path ∈ done, l₀.canonicalPaths.get? path = some target
  locals : l = { l₀ with rollbackFailures := l.rollbackFailures }
  restored : ∀ path ∈ done, path ∈ l.rollbackFailures ∨ ∃ canonical,
    l₀.canonicalPaths.get? path = some canonical ∧ Restored rq ts tr path canonical ∧ Withdrawn rq tr path
  failures : l.rollbackFailures ≠ [] → RestoreRaised rq ts tr

/-- The removal of the temporary files `done`, after the applied files have been visited. -/
structure Clearing (l₀ : Locals) (tr₀ : History) (done : List (Path × Path)) (l : Locals) (tr : History) :
    Prop where
  sub : tr₀ ⊆ tr
  calls : ∀ e ∈ tr, e ∈ tr₀ ∨ e.call.origin = .handler ∧ e.call.op.transitions = false
  locals : l = { l₀ with rollbackFailures := l.rollbackFailures }
  restored : ∀ path ∈ l₀.appliedFiles, path ∈ l.rollbackFailures ∨ ∃ canonical,
    l₀.canonicalPaths.get? path = some canonical ∧ Restored rq ts tr path canonical ∧ Withdrawn rq tr path
  failures : l.rollbackFailures ≠ [] → RestoreRaised rq ts tr
  cleared : ∀ item ∈ done, item.1 ∈ l₀.appliedFiles ∨ item.1 ∉ l₀.writtenTemps ∨
    ∃ r, (⟨⟨.handler, .removeFile rq.context.scope item.2⟩, r⟩ :
      Event Call (Raising Exc Call.Value)) ∈ tr

/-- What a failed `apply` leaves behind. -/
structure Undone (result : ChangeResult) (tr : History) : Prop where
  status : (result.status = .rolledBack ∧ ∃ path canonical, Placed rq tr path canonical) ∨
    result.status = .failed ∧ ((∀ scope temp canonical, ¬ Did tr .apply (.rename scope temp canonical) ()) ∨
      RestoreRaised rq ts tr)
  restored : ∀ scope temp canonical, Did tr .apply (.rename scope temp canonical) () →
    RestoreRaised rq ts tr ∨ ∃ path, Placed rq tr path canonical ∧
      Restored rq ts tr path canonical ∧ Withdrawn rq tr path
  cleared : ∀ scope temp content mode exclusive,
    Did tr .apply (.writeBytes scope temp content mode exclusive) () →
    (∃ path canonical, Placed rq tr path canonical ∧ temp = tempPath canonical rq.changesetId) ∨
    ∃ r, (⟨⟨.handler, .removeFile rq.context.scope temp⟩, r⟩ : Event Call (Raising Exc Call.Value)) ∈ tr
  closed : Created tr → Did tr .handler (.transition rq.changesetId result.status) ()
  handled : Created tr → ∃ e ∈ tr, e.call.origin = .handler

/-- The journal refuses the last transition of the failure handler. -/
def Refused (tr : History) : Prop :=
  Raised tr .handler (.transition rq.changesetId .failed) ∨
  (∃ type status, Raised tr .handler (.publish type rq.changesetId status)) ∨
  (Raised tr .handler (.transition rq.changesetId .rolledBack) ∧
    (Did tr .apply (.transition rq.changesetId .applied) () ∨ JournalRaised rq tr))

end

variable {m : Manager} {rq : ChangeSetRequest} {ts : String} {l l₀ : Locals} {tr tr' tr₀ : History}

lemma Raised.mono {origin : Origin} {op : Op} (h : Raised tr origin op) (hsub : tr ⊆ tr') : Raised tr' origin op := by
  obtain ⟨e, he⟩ := h
  exact ⟨e, hsub he⟩

lemma RestoreRaised.mono (h : RestoreRaised rq ts tr) (hsub : tr ⊆ tr') : RestoreRaised rq ts tr' := by
  rcases h with ⟨path, canonical, hplaced, hraised⟩ | ⟨fileChangeId, patch, hraised⟩
  · refine .inl ⟨path, canonical, hplaced.mono hsub, ?_⟩
    exact hraised.imp (fun h => ⟨h.1, h.2.mono hsub⟩) fun h => ⟨h.1, h.2.mono hsub⟩
  · exact .inr ⟨fileChangeId, patch, hraised.mono hsub⟩

lemma Restored.mono {path canonical : Path} (h : Restored rq ts tr path canonical) (hsub : tr ⊆ tr') :
    Restored rq ts tr' path canonical :=
  h.imp (fun h => ⟨h.1, h.2.mono hsub⟩) fun h => ⟨h.1, h.2.mono hsub⟩

variable {path : Path}

lemma Withdrawn.mono (h : Withdrawn rq tr path) (hsub : tr ⊆ tr') : Withdrawn rq tr' path := by
  obtain ⟨f, hf, hpath, result, hdid⟩ := h
  exact ⟨f, hf, hpath, result, hdid.mono hsub⟩

lemma JournalRaised.mono (h : JournalRaised rq tr) (hsub : tr ⊆ tr') : JournalRaised rq tr' := by
  rcases h with ⟨fileChangeId, patch, happlied, hraised⟩ | hraised
  · exact .inl ⟨fileChangeId, patch, happlied, hraised.mono hsub⟩
  · exact .inr (hraised.mono hsub)

lemma fileReqByPath_ne_error (h : ∃ f ∈ rq.files, f.path = path) (e : Exc) : fileReqByPath rq path ≠ .error e := by
  obtain ⟨f, hf, hpath⟩ := h
  unfold fileReqByPath
  cases hfind : rq.files.find? fun f => f.path = path with
  | none => exact absurd (by simpa using hpath) (find?_eq_none.mp hfind f hf)
  | some g => simp

lemma lookup_ne_error {α : Type} {d : Dict Path α} {a : α} (h : d.get? path = some a)
    (e : Exc) : lookup d path ≠ .error e := by
  simp [lookup, h]

lemma Restoring.visit {done fs : List Path} {path canonical : Path}
    (h : Restoring rq ts l₀ tr₀ done l tr) (hsub : tr ⊆ tr')
    (hcanonical : l₀.canonicalPaths.get? path = some canonical)
    (hcalls : ∀ e ∈ tr', e ∈ tr ∨ e.call.origin = .handler ∧ e.call.op.transitions = false ∧
      ∀ target, e.call.op.target = some target → target = canonical)
    (hfs : ∀ p ∈ l.rollbackFailures, p ∈ fs)
    (hend : path ∈ fs ∨ Restored rq ts tr' path canonical ∧ Withdrawn rq tr' path)
    (hfailures : fs ≠ [] → RestoreRaised rq ts tr') :
    Restoring rq ts l₀ tr₀ (done ++ [path]) { l with rollbackFailures := fs } tr' := by
  refine ⟨fun e he => hsub (h.sub he), ?_, ?_, ?_, hfailures⟩
  · intro e he
    rcases hcalls e he with he | ⟨horigin, htransitions, htarget⟩
    · rcases h.calls e he with he | ⟨horigin, htransitions, htarget⟩
      · exact .inl he
      · refine .inr ⟨horigin, htransitions, ?_⟩
        intro target ht
        obtain ⟨p, hp, hget⟩ := htarget target ht
        exact ⟨p, mem_append_left _ hp, hget⟩
    · refine .inr ⟨horigin, htransitions, ?_⟩
      intro target ht
      exact ⟨path, by simp, by rw [hcanonical, htarget target ht]⟩
  · rw [h.locals]
  · intro p hp
    rcases mem_append.mp hp with hp | hp
    · rcases h.restored p hp with hp | ⟨c, hc, hrestored, hwithdrawn⟩
      · exact .inl (hfs p hp)
      · exact .inr ⟨c, hc, hrestored.mono hsub, hwithdrawn.mono hsub⟩
    · rw [mem_singleton.mp hp]
      exact hend.imp id fun h => ⟨canonical, hcanonical, h⟩

lemma Restoring.clash {done rest : List Path} {path canonical : Path} {o : Op} {v : o.Value}
    (h₀ : Recoverable rq ts l₀ tr₀) (hfiles : l₀.appliedFiles.reverse = done ++ path :: rest)
    (h : Restoring rq ts l₀ tr₀ done l tr) (hcanonical : l₀.canonicalPaths.get? path = some canonical)
    (htarget : o.target = some canonical) (hdid : Did tr .handler o v) : Clash rq tr canonical := by
  rcases h.calls _ hdid with hold | ⟨-, -, hfresh⟩
  · cases h₀.calls _ hold
  · obtain ⟨p, hp, hget⟩ := hfresh canonical htarget
    have hmem : ∀ q ∈ done ++ path :: rest, q ∈ l₀.appliedFiles := fun q hq => by
      rw [← hfiles] at hq
      exact mem_reverse.mp hq
    have hnodup : (done ++ path :: rest).Nodup := hfiles ▸ nodup_reverse.mpr h₀.nodup
    have hne : path ≠ p := fun heq =>
      (nodup_append.mp hnodup).2.2 p hp path mem_cons_self heq.symm
    obtain ⟨c, hc, -, ⟨⟨original, hat⟩, -⟩, -⟩ := h₀.applied path (hmem path (by simp))
    obtain ⟨c', hc', -, ⟨⟨original', hat'⟩, -⟩, -⟩ := h₀.applied p (hmem p (mem_append_left _ hp))
    obtain rfl : canonical = c := Option.some.inj (hcanonical.symm.trans hc)
    obtain rfl : canonical = c' := Option.some.inj (hget.symm.trans hc')
    exact .inr ⟨path, p, canonical, original, original', hne, hat.mono h.sub, hat'.mono h.sub, rfl⟩

lemma restoreFile_spec {done rest : List Path} (h₀ : Recoverable rq ts l₀ tr₀)
    (hfiles : l₀.appliedFiles.reverse = done ++ path :: rest) (h : Restoring rq ts l₀ tr₀ done l tr) :
    wp (Lawful rq ts) (restoreFile rq path)
      (fun _ => Restoring rq ts l₀ tr₀ (done ++ [path])) (fun _ _ _ => False) l tr := by
  have hpath : path ∈ l₀.appliedFiles := mem_reverse.mp (by simp [hfiles])
  obtain ⟨canonical, hcanonical, hscope, hplaced₀, hnew, hbackup, hrequested⟩ := h₀.applied path hpath
  have hplaced : Placed rq tr path canonical := hplaced₀.mono h.sub
  obtain ⟨fs, rfl⟩ : ∃ fs, l = { l₀ with rollbackFailures := fs } := ⟨_, h.locals⟩
  unfold restoreFile
  simp only [wp_bind, wp_get, wp_attempt]
  refine wp_ofExcept ?_ fun e he => fileReqByPath_ne_error hrequested e he
  intro f hf
  obtain ⟨hf, hfpath⟩ := fileReqByPath_eq_ok hf
  refine wp_ofExcept ?_ fun e he => lookup_ne_error hscope e he
  intro scope hscope'
  obtain rfl : rq.context.scope = scope := Option.some.inj (hscope.symm.trans (lookup_eq_ok hscope'))
  refine wp_ofExcept ?_ fun e he => lookup_ne_error hcanonical e he
  intro canonical' hcanonical'
  obtain rfl : canonical = canonical' := Option.some.inj (hcanonical.symm.trans (lookup_eq_ok hcanonical'))
  -- the restoring call `o`, then the record of it
  have hrestore : ∀ (o : Op) (result : RollbackResult),
      o.target = some canonical → o.transitions = false → Lawful rq ts tr ⟨.handler, o⟩ →
      (∀ tr', Raised tr' .handler o → tr ⊆ tr' → RestoreRaised rq ts tr') →
      (∀ tr' v, Did tr' .handler o v → Restored rq ts tr' path canonical) →
      wp (Lawful rq ts) (do
          let _ ← call .handler o
          call .handler (.updateFileChange rq.changesetId f.operationId
            { rollbackResult := some result, applied := some false }))
        (fun _ => Restoring rq ts l₀ tr₀ (done ++ [path]))
        (fun _ l' => Restoring rq ts l₀ tr₀ (done ++ [path])
          { l' with rollbackFailures := l'.rollbackFailures ++ [path] })
        { l₀ with rollbackFailures := fs } tr := by
    intro o result htarget htransitions hlawful hraised hdone
    refine wp_bind.mpr (wp_call hlawful ?_ ?_)
    · intro v
      have hrestored := hdone (⟨⟨.handler, o⟩, .ok v⟩ :: tr) v mem_cons_self
      have hrecord : Lawful rq ts (⟨⟨.handler, o⟩, .ok v⟩ :: tr) ⟨.handler, .updateFileChange
          rq.changesetId f.operationId { rollbackResult := some result, applied := some false }⟩ :=
        ⟨rfl, rfl, rfl, f, hf, rfl, canonical, by
          rw [hfpath]; exact hplaced.mono (subset_cons_self _ _), by rwa [hfpath]⟩
      have hcalls : ∀ r : Raising Exc Call.Value ⟨.handler, .updateFileChange rq.changesetId
          f.operationId { rollbackResult := some result, applied := some false }⟩,
          ∀ e ∈ (⟨_, r⟩ :: ⟨⟨.handler, o⟩, .ok v⟩ :: tr : History), e ∈ tr ∨ e.call.origin = .handler ∧
            e.call.op.transitions = false ∧ ∀ target, e.call.op.target = some target →
              target = canonical := by
        intro r e he
        rcases mem_cons.mp he with rfl | he
        · exact .inr ⟨rfl, rfl, fun _ h => by cases h⟩
        · rcases mem_cons.mp he with rfl | he
          · exact .inr ⟨rfl, htransitions, fun target h => Option.some.inj (h.symm.trans htarget)⟩
          · exact .inl he
      have hsub : ∀ r : Raising Exc Call.Value ⟨.handler, .updateFileChange rq.changesetId
          f.operationId { rollbackResult := some result, applied := some false }⟩,
          tr ⊆ (⟨_, r⟩ :: ⟨⟨.handler, o⟩, .ok v⟩ :: tr : History) :=
        fun _ e he => mem_cons_of_mem _ (mem_cons_of_mem _ he)
      refine wp_call hrecord ?_ ?_
      · intro _
        exact h.visit (hsub _) hcanonical (hcalls _) (fun _ => id)
          (.inr ⟨hrestored.mono (subset_cons_self _ _), f, hf, hfpath, result, mem_cons_self⟩)
          fun hne => (h.failures hne).mono (hsub _)
      · intro e
        exact h.visit (hsub _) hcanonical (hcalls _) (fun _ => mem_append_left _)
          (.inl (by simp)) fun _ => .inr ⟨_, _, e, mem_cons_self⟩
    · intro e
      refine h.visit (subset_cons_self _ _) hcanonical ?_ (fun _ => mem_append_left _)
        (.inl (by simp)) fun _ => hraised _ ⟨e, mem_cons_self⟩ (subset_cons_self _ _)
      intro e he
      rcases mem_cons.mp he with rfl | he
      · exact .inr ⟨rfl, htransitions, fun target h => Option.some.inj (h.symm.trans htarget)⟩
      · exact .inl he
  by_cases hmem : path ∈ l₀.newFiles
  · rw [if_pos hmem]
    refine hrestore (.removeFile rq.context.scope canonical) .removed rfl rfl ?_ ?_ ?_
    · exact ⟨rfl, .inl ⟨path, hnew.mp hmem, hplaced, fun hdid =>
        h.clash h₀ hfiles hcanonical rfl hdid⟩⟩
    · exact fun tr' hraised hsub => .inl ⟨path, canonical, hplaced.mono hsub, .inl ⟨hnew.mp hmem, hraised⟩⟩
    · exact fun tr' _ hdid => .inl ⟨hnew.mp hmem, hdid⟩
  · rw [if_neg hmem]
    have hold : ¬ IsNew rq path := fun h => hmem (hnew.mpr h)
    simp only [wp_bind]
    refine wp_ofExcept ?_ fun e he => absurd he (lookup_ne_error (hbackup hold) e)
    intro backup hbackup'
    obtain rfl := Option.some.inj ((hbackup hold).symm.trans (lookup_eq_ok hbackup'))
    refine wp_bind.mp (hrestore
      (.rename rq.context.scope (backupPath canonical ts) canonical) .restored rfl rfl ?_ ?_ ?_)
    · exact ⟨rfl, path, hold, hplaced, rfl, fun hdid => h.clash h₀ hfiles hcanonical rfl hdid⟩
    · exact fun tr' hraised hsub => .inl ⟨path, canonical, hplaced.mono hsub, .inr ⟨hold, hraised⟩⟩
    · exact fun tr' _ hdid => .inr ⟨hold, hdid⟩

lemma removeTemp_spec {done rest : List (Path × Path)} {item : Path × Path}
    (h₀ : Recoverable rq ts l₀ tr₀) (hitems : l₀.tempPaths = done ++ item :: rest)
    (h : Clearing rq ts l₀ tr₀ done l tr) :
    wp (Lawful rq ts) (removeTemp item) (fun _ => Clearing rq ts l₀ tr₀ (done ++ [item]))
      (fun _ _ _ => False) l tr := by
  obtain ⟨fs, rfl⟩ : ∃ fs, l = { l₀ with rollbackFailures := fs } := ⟨_, h.locals⟩
  unfold removeTemp
  simp only [wp_bind, wp_get]
  by_cases hskip : item.1 ∈ l₀.appliedFiles ∨ item.1 ∉ l₀.writtenTemps
  · rw [if_pos hskip]
    refine ⟨h.sub, h.calls, h.locals, h.restored, h.failures, ?_⟩
    intro i hi
    rcases mem_append.mp hi with hi | hi
    · exact h.cleared i hi
    · rw [mem_singleton.mp hi]
      exact hskip.imp id .inl
  · rw [if_neg hskip]
    push Not at hskip
    obtain ⟨hscope, canonical, original, content, mode, -, hat, htemp, hwrite⟩ :=
      h₀.temps item.1 item.2 (by simp [hitems]) hskip.2
    simp only [wp_bind, wp_attempt]
    refine wp_ofExcept ?_ fun e he => absurd he (lookup_ne_error hscope e)
    intro scope hscope'
    obtain rfl : rq.context.scope = scope := Option.some.inj (hscope.symm.trans (lookup_eq_ok hscope'))
    have hlawful : Lawful rq ts tr ⟨.handler, .removeFile rq.context.scope item.2⟩ :=
      ⟨rfl, .inr ⟨item.1, canonical, original, content, mode, hat.mono h.sub, htemp, hwrite.mono h.sub⟩⟩
    have hend : ∀ r, Clearing rq ts l₀ tr₀ (done ++ [item]) { l₀ with rollbackFailures := fs }
        (⟨⟨.handler, .removeFile rq.context.scope item.2⟩, r⟩ :: tr) := by
      intro r
      have hsub := subset_cons_self (⟨⟨.handler, .removeFile rq.context.scope item.2⟩, r⟩ :
        Event Call (Raising Exc Call.Value)) tr
      refine ⟨fun e he => hsub (h.sub he), ?_, h.locals, ?_, fun hne => (h.failures hne).mono hsub, ?_⟩
      · exact forall_mem_cons.mpr ⟨.inr ⟨rfl, rfl⟩, h.calls⟩
      · intro path hpath
        rcases h.restored path hpath with hfailed | ⟨c, hc, hrestored, hwithdrawn⟩
        · exact .inl hfailed
        · exact .inr ⟨c, hc, hrestored.mono hsub, hwithdrawn.mono hsub⟩
      · intro i hi
        rcases mem_append.mp hi with hi | hi
        · rcases h.cleared i hi with hi | hi | ⟨r', hr'⟩
          · exact .inl hi
          · exact .inr (.inl hi)
          · exact .inr (.inr ⟨r', hsub hr'⟩)
        · rw [mem_singleton.mp hi]
          exact .inr (.inr ⟨r, mem_cons_self⟩)
    exact wp_call hlawful (fun _ => hend _) fun _ => hend _

lemma restoring_spec (h₀ : Recoverable rq ts l₀ tr₀) :
    wp (Lawful rq ts) (l₀.appliedFiles.reverse.forM (restoreFile rq))
      (fun _ => Clearing rq ts l₀ tr₀ []) (fun _ _ _ => False) l₀ tr₀ := by
  refine wp_forM (Restoring rq ts l₀ tr₀) ?_ ?_ ?_
  · intro done path rest hfiles l tr h
    exact restoreFile_spec h₀ hfiles h
  · exact ⟨List.Subset.refl _, fun e he => .inl he, rfl, by rintro path ⟨⟩, fun hne => absurd h₀.failures hne⟩
  · intro l tr h
    exact ⟨h.sub, fun e he => (h.calls e he).imp id fun h => ⟨h.1, h.2.1⟩, h.locals,
      fun path hpath => h.restored path (mem_reverse.mpr hpath), h.failures, by rintro item ⟨⟩⟩

lemma clearing_spec (h₀ : Recoverable rq ts l₀ tr₀) (h : Clearing rq ts l₀ tr₀ [] l tr) :
    wp (Lawful rq ts) (l₀.tempPaths.forM removeTemp)
      (fun _ => Clearing rq ts l₀ tr₀ l₀.tempPaths) (fun _ _ _ => False) l tr := by
  refine wp_forM (Clearing rq ts l₀ tr₀) ?_ h fun _ _ => id
  intro done item rest hitems l tr h
  exact removeTemp_spec h₀ hitems h

lemma Clearing.did {items : List (Path × Path)} (h : Clearing rq ts l₀ tr₀ items l tr) {op : Op}
    {v : op.Value} (hdid : Did tr .apply op v) : Did tr₀ .apply op v := by
  rcases h.calls _ hdid with hmem | ⟨horigin, -⟩
  · exact hmem
  · cases horigin

lemma Clearing.undone {result : ChangeResult} {es : History} (h₀ : Recoverable rq ts l₀ tr₀)
    (h : Clearing rq ts l₀ tr₀ l₀.tempPaths l tr) (hes : ∀ e ∈ es, e.call.origin = .handler)
    (hstatus : result.status = if l₀.appliedFiles ≠ [] ∧ l.rollbackFailures = [] then .rolledBack else .failed)
    (hclosed : Created tr₀ → Did es .handler (.transition rq.changesetId result.status) ()) :
    Undone rq ts result (es ++ tr) := by
  have hsub : tr ⊆ es ++ tr := subset_append_right _ _
  have hdid : ∀ {op : Op} {v : op.Value}, Did (es ++ tr) .apply op v → Did tr₀ .apply op v := by
    intro op v hdid
    rcases mem_append.mp hdid with hmem | hmem
    · cases hes _ hmem
    · exact h.did hmem
  refine ⟨?_, ?_, ?_, ?_, ?_⟩
  · rw [hstatus]
    by_cases hrolled : l₀.appliedFiles ≠ [] ∧ l.rollbackFailures = []
    · rw [if_pos hrolled]
      obtain ⟨path, hpath⟩ := exists_mem_of_ne_nil _ hrolled.1
      obtain ⟨canonical, -, -, hplaced, -⟩ := h₀.applied path hpath
      exact .inl ⟨rfl, path, canonical, (hplaced.mono h.sub).mono hsub⟩
    · rw [if_neg hrolled]
      refine .inr ⟨rfl, ?_⟩
      by_cases happlied : l₀.appliedFiles = []
      · left
        intro scope temp canonical hrename
        obtain ⟨path, hpath, -⟩ := h₀.placed scope temp canonical (hdid hrename)
        rw [happlied] at hpath
        cases hpath
      · exact .inr ((h.failures fun hnone => hrolled ⟨happlied, hnone⟩).mono hsub)
  · intro scope temp canonical hrename
    obtain ⟨path, hpath, hcanonical⟩ := h₀.placed scope temp canonical (hdid hrename)
    obtain ⟨c, hc, -, hplaced, -⟩ := h₀.applied path hpath
    obtain rfl : canonical = c := Option.some.inj (hcanonical.symm.trans hc)
    rcases h.restored path hpath with hfailed | ⟨c, hc, hrestored, hwithdrawn⟩
    · exact .inl ((h.failures (ne_nil_of_mem hfailed)).mono hsub)
    · obtain rfl : canonical = c := Option.some.inj (hcanonical.symm.trans hc)
      exact .inr ⟨path, (hplaced.mono h.sub).mono hsub, hrestored.mono hsub, hwithdrawn.mono hsub⟩
  · intro scope temp content mode exclusive hwrite
    obtain ⟨path, hwritten, hmem⟩ := h₀.written scope temp content mode exclusive (hdid hwrite)
    obtain ⟨-, canonical, -, -, -, hcanonical, -, htemp, -⟩ := h₀.temps path temp hmem hwritten
    rcases h.cleared _ hmem with happlied | hunwritten | ⟨r, hr⟩
    · obtain ⟨c, hc, -, hplaced, -⟩ := h₀.applied path happlied
      obtain rfl : canonical = c := Option.some.inj (hcanonical.symm.trans hc)
      exact .inl ⟨path, canonical, (hplaced.mono h.sub).mono hsub, htemp⟩
    · exact absurd hwritten hunwritten
    · exact .inr ⟨r, hsub hr⟩
  · rintro ⟨cs, hcs⟩
    exact (hclosed ⟨cs, hdid hcs⟩).mono (subset_append_left _ _)
  · rintro ⟨cs, hcs⟩
    exact ⟨_, mem_append_left _ (hclosed ⟨cs, hdid hcs⟩), rfl⟩

lemma close_spec {status : ChangeSetStatus} {Q : Unit → Locals → History → Prop} {X : Exc → Locals → History → Prop}
    (hlawful : Lawful rq ts tr ⟨.handler, .transition rq.changesetId status⟩)
    (hok : ∀ es : History, (∀ e ∈ es, e.call.origin = .handler) →
      Did es .handler (.transition rq.changesetId status) () → Q () l (es ++ tr))
    (herror : ∀ e, X e l (⟨⟨.handler, .transition rq.changesetId status⟩, .error e⟩ :: tr))
    (hpublish : ∀ type (es : History) e,
      X e l (⟨⟨.handler, .publish type rq.changesetId status⟩, .error e⟩ :: (es ++ tr))) :
    wp (Lawful rq ts) (transition m .handler rq.changesetId status) Q X l tr := by
  unfold transition
  refine wp_bind.mpr (wp_call hlawful ?_ herror)
  intro _
  refine emitChangesetEvent_spec (fun _ => trivial) ?_ ?_ ?_
  · exact hok [⟨⟨.handler, .transition rq.changesetId status⟩, .ok ()⟩] (by simp) mem_cons_self
  · intro type
    exact hok [⟨⟨.handler, .publish type rq.changesetId status⟩, .ok ()⟩,
      ⟨⟨.handler, .transition rq.changesetId status⟩, .ok ()⟩] (by simp)
      (mem_cons_of_mem _ mem_cons_self)
  · exact fun type e => hpublish type [⟨⟨.handler, .transition rq.changesetId status⟩, .ok ()⟩] e

lemma handleFailure_spec (e : Exc) (h₀ : Recoverable rq ts l₀ tr₀) :
    wp (Lawful rq ts) (handleFailure m rq e) (fun result _ => Undone rq ts result)
      (fun _ _ => Refused rq) l₀ tr₀ := by
  unfold handleFailure
  simp only [wp_bind, wp_get]
  refine wp_mono (restoring_spec h₀) ?_ fun _ _ _ h => h.elim
  intro _ l tr h
  refine wp_mono (clearing_spec h₀ h) ?_ fun _ _ _ h => h.elim
  intro _ l tr h
  obtain ⟨fs, rfl⟩ : ∃ fs, l = { l₀ with rollbackFailures := fs } := ⟨_, h.locals⟩
  -- no transition of the handler precedes
  have hfirst : ∀ target, ¬ Did tr .handler (.transition rq.changesetId target) () := by
    intro target hdid
    rcases h.calls _ hdid with hold | ⟨-, htransitions⟩
    · cases h₀.calls _ hold
    · cases htransitions
  have hmarked : l₀.appliedFiles ≠ [] →
      Did tr .apply (.transition rq.changesetId .applied) () ∨ JournalRaised rq tr := fun hne =>
    (h₀.marked hne).imp (fun h' => h'.mono h.sub) fun h' => h'.mono h.sub
  have hundone : ∀ (result : ChangeResult) (es : History),
      result.status = (if l₀.appliedFiles ≠ [] ∧ fs = [] then .rolledBack else .failed) →
      (∀ e ∈ es, e.call.origin = .handler) →
      (Created tr₀ → Did es .handler (.transition rq.changesetId result.status) ()) →
      Undone rq ts result (es ++ tr) := fun result es hstatus hes => h.undone h₀ hes hstatus
  by_cases hrolled : l₀.appliedFiles ≠ [] ∧ fs = []
  · have hdecide : decide (l₀.appliedFiles ≠ [] ∧ fs = []) = true := by simpa using hrolled
    simp only [hdecide, if_true]
    by_cases hcreated : l₀.changesetCreated = true
    · rw [if_pos hcreated]
      simp only [wp_bind]
      refine close_spec ⟨rfl, (h₀.created.mp hcreated).mono h.sub, by simp, hfirst⟩ ?_ ?_ ?_
      · intro es hes hclosed
        refine emitChangesetEvent_spec (fun _ => trivial) ?_ ?_ ?_
        · exact hundone _ es (if_pos hrolled).symm hes fun _ => hclosed
        · intro type
          refine hundone _ (_ :: es) (if_pos hrolled).symm ?_ fun _ =>
            hclosed.mono (subset_cons_self _ _)
          intro e he
          rcases mem_cons.mp he with rfl | he
          · rfl
          · exact hes e he
        · exact fun type e => .inr (.inl ⟨type, _, e, mem_cons_self⟩)
      · intro e
        refine .inr (.inr ⟨⟨e, mem_cons_self⟩, ?_⟩)
        exact (hmarked hrolled.1).imp (fun h' => h'.mono (subset_cons_self _ _))
          fun h' => h'.mono (subset_cons_self _ _)
      · exact fun type es e => .inr (.inl ⟨type, _, e, mem_cons_self⟩)
    · rw [if_neg hcreated]
      exact hundone _ [] (if_pos hrolled).symm (by rintro e ⟨⟩) fun hc =>
        absurd (h₀.created.mpr hc) hcreated
  · have hdecide : decide (l₀.appliedFiles ≠ [] ∧ fs = []) = false := by simpa using hrolled
    simp only [hdecide, Bool.false_eq_true, if_false]
    by_cases hcreated : l₀.changesetCreated = true
    · rw [if_pos hcreated]
      simp only [wp_bind]
      refine close_spec ⟨rfl, (h₀.created.mp hcreated).mono h.sub, by simp, hfirst⟩ ?_ ?_ ?_
      · intro es hes hclosed
        exact hundone _ es (if_neg hrolled).symm hes fun _ => hclosed
      · exact fun e => .inl ⟨e, mem_cons_self⟩
      · exact fun type es e => .inr (.inl ⟨type, _, e, mem_cons_self⟩)
    · rw [if_neg hcreated]
      exact hundone _ [] (if_neg hrolled).symm (by rintro e ⟨⟩) fun hc =>
        absurd (h₀.created.mpr hc) hcreated

lemma applyLocked_spec (policy : ServiceRegistration) (protectedPaths : List Path)
    (approvalId : Option String) (h : Base {} tr) :
    wp (Lawful rq ts) (applyLocked m rq policy protectedPaths approvalId ts)
      (fun result _ tr' => result.status = .applied ∧ Completed rq tr' ∨ Undone rq ts result tr')
      (fun _ _ => Refused rq) {} tr := by
  unfold applyLocked
  simp only [wp_bind, wp_attempt]
  refine wp_mono (applySteps_spec policy protectedPaths approvalId h) ?_ ?_
  · intro result _ tr' h
    exact .inl h
  · intro e l tr' h
    exact wp_mono (handleFailure_spec e h) (fun _ _ _ => .inr) fun _ _ _ => id

/-- The manager finds a transport for a target. -/
def Manager.Resolves (m : Manager) (projectId targetId : String) : Prop :=
  match m.projects with
  | some projects =>
    if m.sessions then ∃ record, projects projectId = .ok record ∧ targetId ∈ record.targets
    else m.transport = true
  | none => m.transport = true

lemma resolveTransportFor_spec {σ : Type} {lawful : History → Call → Prop} {origin : Origin}
    {projectId targetId : String} {Q : Unit → σ → History → Prop} {X : Exc → σ → History → Prop} {l : σ}
    (hlawful : lawful tr ⟨origin, .connect projectId targetId⟩) (hsilent : m.Resolves projectId targetId → Q () l tr)
    (hok : m.Resolves projectId targetId → Q () l (⟨⟨origin, .connect projectId targetId⟩, .ok ()⟩ :: tr))
    (hraised : ∀ e, X e l (⟨⟨origin, .connect projectId targetId⟩, .error e⟩ :: tr))
    (herror : ∀ e, ¬ m.Resolves projectId targetId → X e l tr) :
    wp lawful (resolveTransportFor m origin projectId targetId) Q X l tr := by
  unfold resolveTransportFor
  unfold Manager.Resolves at hsilent hok herror
  cases hprojects : m.projects with
  | none =>
    simp only [hprojects] at hsilent herror ⊢
    split_ifs with htransport
    · exact hsilent htransport
    · exact herror _ htransport
  | some projects =>
    simp only [hprojects] at hsilent hok herror ⊢
    by_cases hsessions : m.sessions = true
    · simp only [hsessions, if_true] at hok herror ⊢
      refine wp_bind.mpr (wp_ofExcept ?_ ?_)
      · intro record hrecord
        by_cases htarget : targetId ∈ record.targets
        · rw [if_pos htarget]
          exact wp_call hlawful (fun _ => hok ⟨record, hrecord, htarget⟩) hraised
        · rw [if_neg htarget]
          refine herror _ ?_
          rintro ⟨record', hrecord', htarget'⟩
          rw [hrecord] at hrecord'
          exact htarget (Except.ok.inj hrecord' ▸ htarget')
      · intro e he
        refine herror e ?_
        rintro ⟨record, hrecord, -⟩
        rw [he] at hrecord
        cases hrecord
    · simp only [hsessions, Bool.false_eq_true, if_false] at hsilent herror ⊢
      split_ifs with htransport
      · exact hsilent htransport
      · exact herror _ htransport

/-- What `apply` needs before it locks anything. -/
def Manager.Ready (m : Manager) (rq : ChangeSetRequest) (transport : Bool) : Prop :=
  (transport = true ∨ m.Resolves rq.context.projectId rq.context.targetId) ∧
    ∃ registration, resolvePolicy m rq = .ok registration

/-- Calls that end `apply` with an exception. -/
def Crashed (rq : ChangeSetRequest) (tr : History) : Prop :=
  Refused rq tr ∨ ∃ o, o.faultable = false ∧ Raised tr .apply o

lemma Refused.mono (h : Refused rq tr) (hsub : tr ⊆ tr') : Refused rq tr' := by
  rcases h with hraised | ⟨type, status, hraised⟩ | ⟨hraised, hjournal⟩
  · exact .inl (hraised.mono hsub)
  · exact .inr (.inl ⟨type, status, hraised.mono hsub⟩)
  · exact .inr (.inr ⟨hraised.mono hsub, hjournal.imp (fun h => h.mono hsub) fun h => h.mono hsub⟩)

lemma Undone.release {result : ChangeResult} {key : LockKey}
    {r : Raising Exc Call.Value ⟨.apply, .release key⟩} (h : Undone rq ts result tr) :
    Undone rq ts result (⟨⟨.apply, .release key⟩, r⟩ :: tr) := by
  have hsub := subset_cons_self (⟨⟨.apply, .release key⟩, r⟩ :
    Event Call (Raising Exc Call.Value)) tr
  have hcreated : Created (⟨⟨.apply, .release key⟩, r⟩ :: tr) → Created tr := by
    rintro ⟨cs, hcs⟩
    exact ⟨cs, hcs.of_cons (by rintro ⟨⟩)⟩
  refine ⟨?_, ?_, ?_, fun hc => (h.closed (hcreated hc)).mono hsub, ?_⟩
  · rcases h.status with ⟨hstatus, path, canonical, hplaced⟩ | ⟨hstatus, hnone | hraised⟩
    · exact .inl ⟨hstatus, path, canonical, hplaced.mono hsub⟩
    · exact .inr ⟨hstatus, .inl fun scope temp canonical hdid =>
        hnone scope temp canonical (hdid.of_cons (by rintro ⟨⟩))⟩
    · exact .inr ⟨hstatus, .inr (hraised.mono hsub)⟩
  · intro scope temp canonical hdid
    rcases h.restored scope temp canonical (hdid.of_cons (by rintro ⟨⟩)) with
      hraised | ⟨path, hplaced, hrestored, hwithdrawn⟩
    · exact .inl (hraised.mono hsub)
    · exact .inr ⟨path, hplaced.mono hsub, hrestored.mono hsub, hwithdrawn.mono hsub⟩
  · intro scope temp content mode exclusive hdid
    rcases h.cleared scope temp content mode exclusive (hdid.of_cons (by rintro ⟨⟩)) with
      ⟨path, canonical, hplaced, htemp⟩ | ⟨r', hr'⟩
    · exact .inl ⟨path, canonical, hplaced.mono hsub, htemp⟩
    · exact .inr ⟨r', hsub hr'⟩
  · intro hc
    obtain ⟨e, he, horigin⟩ := h.handled (hcreated hc)
    exact ⟨e, hsub he, horigin⟩

lemma resolved_spec (transport : Bool) {k : M Locals ChangeResult}
    {Q : ChangeResult → Locals → History → Prop} (hbase : Base {} [])
    (hk : ∀ tr, Base {} tr → (transport = true ∨ m.Resolves rq.context.projectId rq.context.targetId) →
      wp (Lawful rq ts) k Q (fun _ _ tr => ¬ m.Ready rq transport ∨ Crashed rq tr) {} tr) :
    wp (Lawful rq ts) (if transport then k else do
        resolveTransportFor m .apply rq.context.projectId rq.context.targetId
        k) Q (fun _ _ tr => ¬ m.Ready rq transport ∨ Crashed rq tr) {} [] := by
  by_cases htransport : transport = true
  · rw [if_pos htransport]
    exact hk [] hbase (.inl htransport)
  · rw [if_neg htransport]
    refine wp_bind.mpr (resolveTransportFor_spec trivial ?_ ?_ ?_ ?_)
    · exact fun h => hk [] hbase (.inr h)
    · exact fun h => hk _ (hbase.call rfl _) (.inr h)
    · exact fun e => .inr (.inr ⟨.connect _ _, rfl, e, mem_cons_self⟩)
    · intro e hresolves
      refine .inl ?_
      rintro ⟨htransport' | hresolves', -⟩
      · exact htransport htransport'
      · exact hresolves hresolves'

lemma apply_spec (approvalId : Option String) (transport : Bool) :
    wp (Lawful rq ts) (apply m rq approvalId transport ts)
      (fun result _ tr => m.Ready rq transport ∧ (result.status = .applied ∧ Completed rq tr ∨ Undone rq ts result tr))
      (fun _ _ tr => ¬ m.Ready rq transport ∨ Crashed rq tr) {} [] := by
  have hbase : Base {} [] := by
    refine ⟨by rintro e ⟨⟩, rfl, rfl, rfl, rfl, ⟨by rintro ⟨⟩, ?_⟩⟩
    rintro ⟨cs, ⟨⟩⟩
  unfold apply
  refine resolved_spec transport hbase ?_
  intro tr hbase htransport
  refine wp_bind.mpr (wp_ofExcept ?_ ?_)
  · rintro ⟨policy, protectedPaths⟩ hpolicy
    have hready : m.Ready rq transport := ⟨htransport, _, hpolicy⟩
    simp only [wp_bind, wp_attempt]
    refine wp_forM (fun _ l tr => l = {} ∧ Base l tr) ?_ ⟨rfl, hbase⟩ ?_
    · rintro _ key _ _ l tr ⟨rfl, h⟩
      exact wp_call trivial (fun _ => ⟨rfl, h.call rfl _⟩)
        fun e => .inr (.inr ⟨.acquire key, rfl, e, mem_cons_self⟩)
    rintro l tr ⟨rfl, h⟩
    refine wp_mono (applyLocked_spec policy protectedPaths approvalId h) ?_ ?_
    · intro result l tr h
      refine wp_forM (fun _ _ tr => result.status = .applied ∧ Completed rq tr ∨ Undone rq ts result tr) ?_ h ?_
      · intro _ key _ _ l tr h
        refine wp_call trivial (fun _ => ?_) fun e =>
          .inr (.inr ⟨.release key, rfl, e, mem_cons_self⟩)
        exact h.imp (fun h => ⟨h.1, h.2.cons rfl⟩) fun h => h.release
      · exact fun l tr h => ⟨hready, h⟩
    · intro e l tr h
      refine wp_forM (fun _ _ tr => Refused rq tr) ?_ h fun l tr h => .inr (.inl h)
      intro _ key _ _ l tr h
      exact wp_call trivial (fun _ => h.mono (subset_cons_self _ _)) fun e =>
        .inr (.inr ⟨.release key, rfl, e, mem_cons_self⟩)
  · intro e hpolicy
    refine .inl ?_
    rintro ⟨-, registration, hregistration⟩
    rw [hpolicy] at hregistration
    cases hregistration

end IncidentLens.Changes
