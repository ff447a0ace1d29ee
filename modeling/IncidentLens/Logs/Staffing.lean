import IncidentLens.Logs.Manager

/-!
# Tasks of running subscriptions

Operations of the manager move tasks on towards their end, except that a start adds a reader and a writer.
What reads is the reader of a running subscription; a subscription that runs is active, and there is room for it.
-/
namespace IncidentLens.Logs
open Data Effects SubscriptionTask SubscriptionTable List Dict

/-! ### Statuses -/

namespace SubscriptionTable
variable {t t' : SubscriptionTable} {row row' : SubscriptionRow} {subscriptionId key : String}
  {status : LogSubscriptionStatus} {allowedFrom : List LogSubscriptionStatus}

lemma subscriptionId_of_get (h : t.getSubscription subscriptionId = some row) : row.subscriptionId = subscriptionId := by
  simpa using find?_some h

lemma status_of_get (h : t.getSubscription subscriptionId = some row) : t.status subscriptionId = some row.status := by
  rw [status, h]
  rfl

lemma get_of_status (h : t.status subscriptionId = some status) :
    ∃ row, t.getSubscription subscriptionId = some row ∧ row.status = status :=
  Option.map_eq_some_iff.mp h

lemma status_put (h : t.getSubscription subscriptionId = some row) (hid : row'.subscriptionId = subscriptionId) :
    (t.put row').status key = if key = subscriptionId then some row'.status else t.status key := by
  have hput : (t.put row').getSubscription key =
      (t.getSubscription key).map fun r => if r.subscriptionId = row'.subscriptionId then row' else r :=
    find?_replaceRow SubscriptionRow.subscriptionId t.rows row' key
  rw [status, hput, hid]
  split_ifs with hkey
  · subst hkey
    rw [h, Option.map_some, if_pos (subscriptionId_of_get h), Option.map_some]
  · cases hget : t.getSubscription key with
    | none => rw [status, hget]; rfl
    | some r =>
      rw [status_of_get hget, Option.map_some, subscriptionId_of_get hget, if_neg hkey, Option.map_some]

lemma status_mark (h : t.getSubscription subscriptionId = some row) (error : String) :
    (t.put { row with status := .error, lastErrorRedacted := some error }).status key =
      if key = subscriptionId then some .error else t.status key := by
  have hid := subscriptionId_of_get h
  exact status_put h hid

lemma status_transition (h : t.transitionStatus subscriptionId status allowedFrom = .ok t') :
    (∃ current ∈ allowedFrom, t.status subscriptionId = some current) ∧
      ∀ key, t'.status key = if key = subscriptionId then some status else t.status key := by
  unfold transitionStatus at h
  split at h
  · cases h
  · rename_i row hrow
    split_ifs at h with hallowed
    cases h
    have hid := subscriptionId_of_get hrow
    exact ⟨⟨row.status, hallowed, status_of_get hrow⟩, fun key => status_put hrow hid⟩

lemma transition_ok (h : t.status subscriptionId = some status) (hallowed : status ∈ allowedFrom) (target : LogSubscriptionStatus) :
    ∃ t', t.transitionStatus subscriptionId target allowedFrom = .ok t' := by
  obtain ⟨row, hrow, rfl⟩ := get_of_status h
  refine ⟨t.put { row with status := target }, ?_⟩
  rw [transitionStatus, hrow]
  exact if_pos hallowed

lemma status_delete (h : t.deleteSubscription subscriptionId = .ok t') :
    ∀ key, t'.status key = if key = subscriptionId then some .deleted else t.status key := by
  unfold deleteSubscription at h
  split at h
  · cases h
  · rename_i row hrow
    cases h
    have hid := subscriptionId_of_get hrow
    exact fun key => status_put hrow hid

lemma status_create (h : t.createSubscription subscriptionId = .ok t') : t.status subscriptionId = none ∧
      ∀ key, t'.status key = if key = subscriptionId then some .active else t.status key := by
  unfold createSubscription at h
  split_ifs at h with hfresh
  cases h
  have hnone : t.getSubscription subscriptionId = none := by
    refine find?_eq_none.mpr fun row hrow hid => hfresh ?_
    rw [← of_decide_eq_true hid]
    exact mem_map_of_mem hrow
  refine ⟨by rw [status, hnone]; rfl, fun key => ?_⟩
  rw [status, status, getSubscription, find?_append]
  change ((t.getSubscription key).or _).map _ = _
  split_ifs with hkey
  · subst hkey
    rw [hnone, Option.none_or, find?_cons_of_pos (by simp)]
    rfl
  · rw [find?_cons_of_neg (by simpa using Ne.symm hkey), find?_nil, Option.or_none]

lemma create_ok (h : t.status subscriptionId = none) : ∃ t', t.createSubscription subscriptionId = .ok t' := by
  unfold createSubscription
  split_ifs with hstored
  · obtain ⟨row, hrow, rfl⟩ := mem_map.mp hstored
    rw [status_of_get (find?_of_nodup t.unique hrow)] at h
    cases h
  · exact ⟨_, rfl⟩

lemma status_listed (h : row ∈ t.listActiveOptInSubscriptions) : t.status row.subscriptionId = some .active := by
  obtain ⟨hrow, hlisted⟩ := mem_filter.mp h
  rw [status_of_get (find?_of_nodup t.unique hrow), (of_decide_eq_true hlisted).1]

end SubscriptionTable

/-! ### Tasks -/

/-- A reader that was neither cancelled nor tears its subscription down. -/
def SubscriptionTask.reads (task : SubscriptionTask) : Bool :=
  task.kind = .reader ∧ (task.stage = .looping ∨ task.stage = .emitting)

namespace LogSubscriptionManager
variable {maxActive maxFailures : ℕ} {s t u : LogSubscriptionManager} {task : SubscriptionTask}
  {tasks : SubscriptionTasks} {subscriptionId : String}

/-- The tasks of `t` are tasks of `s`, perhaps further on their way out. -/
structure Winding (s t : LogSubscriptionManager) : Prop where
  ids : (t.tasks.map taskId).Sublist (s.tasks.map taskId)
  older : ∀ task ∈ t.tasks, ∃ old ∈ s.tasks, old.taskId = task.taskId ∧ old.subscriptionId = task.subscriptionId ∧
    old.kind = task.kind ∧ (task.reads = true → old.reads = true)
  next : t.nextTask = s.nextTask

lemma Winding.of_eq (htasks : t.tasks = s.tasks) (hnext : t.nextTask = s.nextTask) : Winding s t := by
  refine ⟨by rw [htasks], fun task htask => ⟨task, htasks ▸ htask, rfl, rfl, rfl, id⟩, hnext⟩

lemma Winding.trans (h : Winding s t) (h' : Winding t u) : Winding s u := by
  refine ⟨h'.ids.trans h.ids, fun task htask => ?_, h'.next.trans h.next⟩
  obtain ⟨mid, hmid, hid, hsub, hkind, hreads⟩ := h'.older task htask
  obtain ⟨old, hold, hid', hsub', hkind', hreads'⟩ := h.older mid hmid
  exact ⟨old, hold, hid'.trans hid, hsub'.trans hsub, hkind'.trans hkind, fun h => hreads' (hreads h)⟩

lemma Winding.after (h : Winding s t) (htasks : u.tasks = s.tasks) (hnext : u.nextTask = s.nextTask) : Winding u t :=
  (Winding.of_eq htasks.symm hnext.symm).trans h

lemma Winding.setStage {taskIds : List ℕ} {stage : TaskStage}
    (h : ∀ task ∈ s.tasks, task.taskId ∈ taskIds → ({ task with stage } : SubscriptionTask).reads = true → task.reads = true) :
    Winding s (s.setStage taskIds stage) := by
  refine ⟨?_, fun task htask => ?_, rfl⟩
  · have hmap : (s.setStage taskIds stage).tasks.map taskId = s.tasks.map taskId := by
      simp only [LogSubscriptionManager.setStage, map_map]
      refine map_congr_left fun task _ => ?_
      simp only [Function.comp_apply]
      split_ifs <;> rfl
    rw [hmap]
  · obtain ⟨old, hold, hnew⟩ := mem_map.mp htask
    refine ⟨old, hold, ?_⟩
    split_ifs at hnew with hmem
    · subst hnew
      exact ⟨rfl, rfl, rfl, h old hold hmem⟩
    · subst hnew
      exact ⟨rfl, rfl, rfl, id⟩

lemma Winding.finish (s : LogSubscriptionManager) (taskId : ℕ) : Winding s (s.finish taskId) := by
  refine ⟨List.Sublist.map _ filter_sublist, fun task htask => ?_, rfl⟩
  exact ⟨task, (mem_filter.mp htask).1, rfl, rfl, rfl, id⟩

lemma not_reads_setStage {taskIds : List ℕ} {stage : TaskStage} (hstage : stage ≠ .looping ∧ stage ≠ .emitting)
    (htask : task ∈ (s.setStage taskIds stage).tasks) (hmem : task.taskId ∈ taskIds) : task.reads = false := by
  obtain ⟨old, -, rfl⟩ := mem_map.mp htask
  split_ifs at hmem ⊢ with hold
  · simp [reads, hstage]
  · exact absurd hmem hold

lemma Winding.cancel (s : LogSubscriptionManager) (taskIds : List ℕ) : Winding s (s.cancel taskIds) :=
  .setStage fun task _ _ hreads => by simp [reads] at hreads

lemma mem_of_task? {taskId : ℕ} (h : s.task? taskId = some task) : task ∈ s.tasks ∧ task.taskId = taskId := by
  exact ⟨mem_of_find?_eq_some h, by simpa using find?_some h⟩

/-- Task ids are drawn once, a subscription that has tasks is stored, and what reads is the reader of a
running subscription. -/
structure Staffed (s : LogSubscriptionManager) : Prop where
  ids : (s.tasks.map taskId).Nodup
  below : ∀ task ∈ s.tasks, task.taskId < s.nextTask
  rooted : ∀ task ∈ s.tasks, s.table.status task.subscriptionId ≠ none
  owns : ∀ task ∈ s.tasks, task.reads = true →
    ∃ tasks, s.running.get? task.subscriptionId = some tasks ∧ tasks.reader = task.taskId

lemma Staffed.winding (hs : Staffed s) (h : Winding s t) (hrooted : ∀ key, s.table.status key ≠ none → t.table.status key ≠ none)
    (howns : ∀ task ∈ t.tasks, task.reads = true → t.running.get? task.subscriptionId = s.running.get? task.subscriptionId) :
    Staffed t := by
  refine ⟨hs.ids.sublist h.ids, fun task htask => ?_, fun task htask => ?_, fun task htask hreads => ?_⟩
  all_goals obtain ⟨old, hold, hid, hsub, -, holder⟩ := h.older task htask
  · rw [← hid, h.next]
    exact hs.below old hold
  · rw [← hsub]
    exact hrooted _ (hs.rooted old hold)
  · rw [howns task htask hreads, ← hsub, ← hid]
    exact hs.owns old hold (holder hreads)

lemma Staffed.relieve (hs : Staffed s) (h : Winding s t) (htable : t.table = s.table)
    (hget : s.running.get? subscriptionId = some tasks) (hrunning : t.running = s.running.pop subscriptionId)
    (hreader : ∀ task ∈ t.tasks, task.taskId = tasks.reader → task.reads = false) : Staffed t := by
  refine hs.winding h (by rw [htable]; exact fun _ => id) fun task htask hreads => ?_
  rw [hrunning, get?_pop, if_neg]
  rintro rfl
  obtain ⟨old, hold, hid, hsub, -, holder⟩ := h.older task htask
  obtain ⟨tasks', hget', hreads'⟩ := hs.owns old hold (holder hreads)
  rw [hsub, hget] at hget'
  cases hget'
  rw [hreader task htask (hid.symm.trans hreads'.symm)] at hreads
  cases hreads

/-! ### What each operation keeps -/

/-- The next failure of the task's subscription is its last. -/
def exhausted (maxFailures : ℕ) (s : LogSubscriptionManager) (task : SubscriptionTask) : Prop :=
  (∃ row, s.table.getSubscription task.subscriptionId = some row ∧ row.status ≠ .deleted) ∧
    maxFailures ≤ (s.failures.get? task.subscriptionId).getD 0 + 1

structure Kept (maxActive : ℕ) (s : LogSubscriptionManager) : Prop where
  staffed : s.Staffed
  active : ∀ key ∈ s.running.keys, s.table.status key = some .active
  bounded : s.running.length ≤ maxActive

lemma Kept.congr (h : Kept maxActive s) (hw : Winding s t) (htable : t.table = s.table) (hrunning : t.running = s.running) :
    Kept maxActive t := by
  refine ⟨h.staffed.winding hw (by rw [htable]; exact fun _ => id) fun _ _ _ => by rw [hrunning], ?_, ?_⟩
  · rw [htable, hrunning]
    exact h.active
  · rw [hrunning]
    exact h.bounded

lemma Kept.relieve (h : Kept maxActive s) (hw : Winding s t) (htable : t.table = s.table)
    (hget : s.running.get? subscriptionId = some tasks) (hrunning : t.running = s.running.pop subscriptionId)
    (hreader : ∀ task ∈ t.tasks, task.taskId = tasks.reader → task.reads = false) : Kept maxActive t := by
  refine ⟨h.staffed.relieve hw htable hget hrunning hreader, fun key hkey => ?_, ?_⟩
  · rw [htable]
    refine h.active key ?_
    rw [hrunning] at hkey
    exact (pop_sublist _ _).map Prod.fst |>.subset hkey
  · rw [hrunning]
    exact Nat.le_trans (pop_sublist _ _).length_le h.bounded

lemma Kept.setStatus (h : Kept maxActive s) {table : SubscriptionTable} {status : LogSubscriptionStatus}
    (hstatus : ∀ key, table.status key = if key = subscriptionId then some status else s.table.status key)
    (hstopped : subscriptionId ∉ s.running.keys) : Kept maxActive { s with table } := by
  refine ⟨h.staffed.winding (.of_eq rfl rfl) (fun key hkey => ?_) fun _ _ _ => rfl, fun key hkey => ?_, h.bounded⟩
  · change table.status key ≠ none
    rw [hstatus]
    split_ifs
    · exact Option.some_ne_none _
    · exact hkey
  · change table.status key = some .active
    rw [hstatus, if_neg]
    · exact h.active key hkey
    · rintro rfl
      exact hstopped hkey

lemma start_cases (h : s.start subscriptionId = .ok t) : s.table.status subscriptionId ≠ none ∧
    (subscriptionId ∈ s.running.keys ∧ t = s ∨ subscriptionId ∉ s.running.keys ∧ t = s.launch subscriptionId) := by
  unfold start at h
  split at h
  · cases h
  · rename_i row hrow
    cases h
    refine ⟨by rw [status_of_get hrow]; exact Option.some_ne_none _, ?_⟩
    split_ifs with hruns
    · exact .inl ⟨mem_keys_iff.mpr (Option.isSome_iff_exists.mp hruns), rfl⟩
    · refine .inr ⟨fun hkey => hruns ?_, rfl⟩
      exact Option.isSome_iff_exists.mpr (mem_keys_iff.mp hkey)

lemma start_ok (h : s.table.status subscriptionId ≠ none) : ∃ t, s.start subscriptionId = .ok t := by
  obtain ⟨status, hstatus⟩ := Option.ne_none_iff_exists'.mp h
  obtain ⟨row, hrow, -⟩ := get_of_status hstatus
  rw [start, hrow]
  exact ⟨_, rfl⟩

lemma Staffed.launch (hs : Staffed s) (hrow : s.table.status subscriptionId ≠ none)
    (hstopped : subscriptionId ∉ s.running.keys) : Staffed (s.launch subscriptionId) := by
  have hmem : ∀ task ∈ (s.launch subscriptionId).tasks, task ∈ s.tasks ∨
      task = { taskId := s.nextTask, subscriptionId, kind := .reader } ∨
        task = { taskId := s.nextTask + 1, subscriptionId, kind := .writer } := by
    intro task htask
    simpa [LogSubscriptionManager.launch] using htask
  refine ⟨?_, fun task htask => ?_, fun task htask => ?_, fun task htask hreads => ?_⟩
  · have hold : ∀ taskId ∈ s.tasks.map SubscriptionTask.taskId, taskId < s.nextTask := by
      intro taskId hid
      obtain ⟨task, htask, rfl⟩ := mem_map.mp hid
      exact hs.below task htask
    simp only [LogSubscriptionManager.launch, map_append, map_cons, map_nil]
    refine nodup_append.mpr ⟨hs.ids, by simp, fun old hid new hnew => ?_⟩
    have := hold old hid
    rcases mem_cons.mp hnew with rfl | hnew
    · omega
    · rw [mem_singleton.mp hnew]
      omega
  · rcases hmem task htask with hold | rfl | rfl
    · have := hs.below task hold
      simp only [LogSubscriptionManager.launch]
      omega
    · simp [LogSubscriptionManager.launch]
    · simp [LogSubscriptionManager.launch]
  · rcases hmem task htask with hold | rfl | rfl
    · exact hs.rooted task hold
    · exact hrow
    · exact hrow
  · rcases hmem task htask with hold | rfl | rfl
    · obtain ⟨tasks, hget, hreader⟩ := hs.owns task hold hreads
      have hne : subscriptionId ≠ task.subscriptionId := by
        rintro rfl
        exact hstopped (mem_keys_iff.mpr ⟨tasks, hget⟩)
      exact ⟨tasks, (get?_set_of_ne _ _ hne).trans hget, hreader⟩
    · exact ⟨_, get?_set_self _ _ _, rfl⟩
    · simp [SubscriptionTask.reads] at hreads

lemma Kept.start (h : Kept maxActive s) (hactive : s.table.status subscriptionId = some .active)
    (hroom : subscriptionId ∉ s.running.keys → s.running.length < maxActive) (hstart : s.start subscriptionId = .ok t) :
    Kept maxActive t := by
  obtain ⟨hrow, ⟨-, rfl⟩ | ⟨hstopped, rfl⟩⟩ := start_cases hstart
  · exact h
  have hrunning : (s.launch subscriptionId).running = s.running ++ [(subscriptionId, ⟨s.nextTask, s.nextTask + 1⟩)] :=
    set_of_not_mem hstopped _
  refine ⟨h.staffed.launch hrow hstopped, fun key hkey => ?_, ?_⟩
  · rw [hrunning, Dict.keys, map_append, mem_append] at hkey
    rcases hkey with hold | hnew
    · exact h.active key hold
    · rw [mem_singleton.mp hnew]
      exact hactive
  · rw [hrunning, length_append]
    exact hroom hstopped

lemma winding_stop (s : LogSubscriptionManager) (subscriptionId : String) (tasks : SubscriptionTasks) (next : Continuation) :
    Winding s (s.stop subscriptionId tasks next) :=
  ((Winding.of_eq rfl rfl).trans (.cancel _ _)).trans (.of_eq rfl rfl)

lemma Kept.stop (h : Kept maxActive s) (hget : s.running.get? subscriptionId = some tasks) (next : Continuation) :
    Kept maxActive (s.stop subscriptionId tasks next) := by
  refine h.relieve (winding_stop s subscriptionId tasks next) rfl hget rfl fun task htask hid => ?_
  exact not_reads_setStage ⟨by simp, by simp⟩ htask (by simp [hid])

lemma winding_closeRest (s : LogSubscriptionManager) (rest : List String) : Winding s (s.closeRest rest) := by
  induction rest with
  | nil => exact .of_eq rfl rfl
  | cons subscriptionId rest ih =>
    unfold closeRest
    split
    · exact ih
    · exact winding_stop _ _ _ _

lemma Kept.closeRest (h : Kept maxActive s) (rest : List String) : Kept maxActive (s.closeRest rest) := by
  induction rest with
  | nil => exact h
  | cons subscriptionId rest ih =>
    unfold LogSubscriptionManager.closeRest
    split
    · exact ih
    · rename_i hget
      exact h.stop hget _

lemma winding_proceed (s : LogSubscriptionManager) (next : Continuation) : Winding s (s.proceed next) := by
  cases next with
  | pause subscriptionId =>
    simp only [proceed]
    split <;> exact .of_eq rfl rfl
  | delete subscriptionId =>
    simp only [proceed]
    split <;> exact .of_eq rfl rfl
  | closeAll rest => exact winding_closeRest s rest

/-- The subscription that is to be paused or deleted does not run. -/
def Settled (s : LogSubscriptionManager) : Continuation → Prop
  | .pause subscriptionId | .delete subscriptionId => subscriptionId ∉ s.running.keys
  | .closeAll _ => True

lemma Kept.proceed (h : Kept maxActive s) {next : Continuation} (hsettled : s.Settled next) :
    Kept maxActive (s.proceed next) := by
  cases next with
  | pause subscriptionId =>
    simp only [LogSubscriptionManager.proceed]
    split
    · rename_i table htable
      exact h.setStatus (status_transition htable).2 hsettled
    · exact h
  | delete subscriptionId =>
    simp only [LogSubscriptionManager.proceed]
    split
    · rename_i table htable
      exact h.setStatus (status_delete htable) hsettled
    · exact h
  | closeAll rest => exact h.closeRest rest

lemma winding_stopThen (s : LogSubscriptionManager) (subscriptionId : String) (next : Continuation) :
    Winding s (s.stopThen subscriptionId next) := by
  unfold stopThen
  split
  · exact winding_proceed s next
  · exact winding_stop _ _ _ _

lemma Kept.stopThen (h : Kept maxActive s) {next : Continuation} (hsettled : subscriptionId ∉ s.running.keys → s.Settled next) :
    Kept maxActive (s.stopThen subscriptionId next) := by
  unfold LogSubscriptionManager.stopThen
  split
  · rename_i hnone
    refine h.proceed (hsettled fun hkey => ?_)
    obtain ⟨tasks, hget⟩ := mem_keys_iff.mp hkey
    rw [hnone] at hget
    cases hget
  · rename_i hget
    exact h.stop hget next

lemma winding_teardownRunning (s : LogSubscriptionManager) (task : SubscriptionTask) : Winding s (s.teardownRunning task) := by
  unfold teardownRunning
  split
  · exact .finish s _
  · refine ((Winding.cancel _ _).trans (.setStage fun task _ _ hreads => ?_)).after rfl rfl
    simp [reads] at hreads

lemma Kept.teardownRunning (h : Kept maxActive s) (htask : task ∈ s.tasks) (hreads : task.reads = true) :
    Kept maxActive (s.teardownRunning task) := by
  obtain ⟨tasks, hget, hreader⟩ := h.staffed.owns task htask hreads
  have hwinding := winding_teardownRunning s task
  unfold LogSubscriptionManager.teardownRunning at hwinding ⊢
  rw [hget] at hwinding ⊢
  refine h.relieve hwinding rfl hget rfl fun task' htask' hid => ?_
  exact not_reads_setStage ⟨by simp, by simp⟩ htask' (by simp [hid, hreader])

lemma recordFailure_cases (maxFailures : ℕ) (s : LogSubscriptionManager) (task : SubscriptionTask) (error : String) (suspends : Bool) :
    s.recordFailure maxFailures task error suspends = s ∨
      ∃ failures, s.recordFailure maxFailures task error suspends = { s with failures } ∨
        ∃ row, s.table.getSubscription task.subscriptionId = some row ∧ s.exhausted maxFailures task ∧
          s.recordFailure maxFailures task error suspends = ({ s with failures } : LogSubscriptionManager).giveUp task row error suspends := by
  unfold recordFailure
  split
  · exact .inl rfl
  · rename_i row hrow
    split_ifs with hdeleted
    · exact .inl rfl
    · refine .inr ⟨s.failures.set task.subscriptionId ((s.failures.get? task.subscriptionId).getD 0 + 1), ?_⟩
      dsimp only
      split_ifs with hcount
      · exact .inl rfl
      · exact .inr ⟨row, hrow, ⟨⟨row, hrow, hdeleted⟩, Nat.le_of_not_lt hcount⟩, rfl⟩

lemma winding_giveUp (s : LogSubscriptionManager) (htask : task ∈ s.tasks) (hreads : task.reads = true)
    (hunique : (s.tasks.map taskId).Nodup) (row : SubscriptionRow) (error : String) (suspends : Bool) :
    Winding s (s.giveUp task row error suspends) := by
  unfold giveUp
  dsimp only
  split_ifs
  · refine (Winding.setStage fun task' htask' hid _ => ?_).after rfl rfl
    rw [inj_on_of_nodup_map hunique htask' htask (mem_singleton.mp hid)]
    exact hreads
  · exact (winding_teardownRunning _ _).after rfl rfl

lemma winding_recordFailure (s : LogSubscriptionManager) (htask : task ∈ s.tasks) (hreads : task.reads = true)
    (hunique : (s.tasks.map taskId).Nodup) (error : String) (suspends : Bool) :
    Winding s (s.recordFailure maxFailures task error suspends) := by
  rcases recordFailure_cases maxFailures s task error suspends with h | ⟨failures, h | ⟨row, -, -, h⟩⟩
  · rw [h]
    exact .of_eq rfl rfl
  · rw [h]
    exact .of_eq rfl rfl
  · rw [h]
    exact (winding_giveUp { s with failures } htask hreads hunique row error suspends).after rfl rfl

lemma teardownRunning_table (s : LogSubscriptionManager) (task : SubscriptionTask) (table : SubscriptionTable) :
    ({ s with table } : LogSubscriptionManager).teardownRunning task = { s.teardownRunning task with table } := by
  unfold teardownRunning
  dsimp only
  split <;> rfl

lemma teardownRunning_eq (s : LogSubscriptionManager) (task : SubscriptionTask) : (s.teardownRunning task).table = s.table ∧
    task.subscriptionId ∉ (s.teardownRunning task).running.keys := by
  unfold teardownRunning
  split
  · rename_i hnone
    refine ⟨rfl, fun hkey => ?_⟩
    obtain ⟨tasks, hget⟩ := mem_keys_iff.mp hkey
    cases hnone.symm.trans hget
  · refine ⟨rfl, fun hkey => ?_⟩
    obtain ⟨tasks, hget⟩ := mem_keys_iff.mp hkey
    change (s.running.pop task.subscriptionId).get? task.subscriptionId = some tasks at hget
    rw [get?_pop, if_pos rfl] at hget
    cases hget

lemma winding_unwind (h : s.unwind task = some t) : Winding s t := by
  unfold unwind at h
  split at h
  · cases h
  · cases h
  · cases h
    exact .finish s _
  · split_ifs at h
    · cases h
      exact .finish s _
    · cases h
      exact .cancel s _

lemma unwind_eq (h : s.unwind task = some t) : t.table = s.table ∧ t.running = s.running := by
  unfold unwind at h
  split at h
  · cases h
  · cases h
  · cases h
    exact ⟨rfl, rfl⟩
  · split_ifs at h
    · cases h
      exact ⟨rfl, rfl⟩
    · cases h
      exact ⟨rfl, rfl⟩

lemma wake_eq {p : Pending} (h : s.wake p = some t) : t = { s with pending := s.pending.erase p } := by
  unfold wake at h
  split_ifs at h
  exact (Option.some.inj h).symm

end LogSubscriptionManager

end IncidentLens.Logs
