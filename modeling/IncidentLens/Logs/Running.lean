import IncidentLens.Logs.Staffing

/-!
# Running subscriptions

Every subscription that runs is stored as active, no subscription has two readers, and no more than
`max_active` of them run, as long as subscriptions are resumed and created below the bound and a coroutine
that has stopped a subscription does not find it running again.
-/
namespace IncidentLens.Logs
open Data Effects SubscriptionTable SubscriptionTask List Option LogSubscriptionManager

namespace LogSubscriptionManager

structure Held (maxActive : ℕ) (s : LogSubscriptionManager) : Prop where
  active : ∀ subscriptionId ∈ s.running.keys, s.table.status subscriptionId = some .active
  single : ((s.tasks.filter reads).map subscriptionId).Nodup
  bounded : s.running.length ≤ maxActive

/-- No subscription has two reader tasks, not even one that reads and one that is on its way out. -/
def OneReader (s : LogSubscriptionManager) : Prop :=
  ((s.tasks.filter fun task => task.kind = .reader).map subscriptionId).Nodup

/-- A subscription is created or resumed below the bound, and restored if it is still active. When the tasks
that a `pause` or a `delete` has stopped are gone, the subscription does not run again; the event of a last
failure does not suspend the reader. -/
def Clean (maxActive maxFailures : ℕ) (s : LogSubscriptionManager) : ManagerMove → Prop
  | .validated subscriptionId => s.table.status subscriptionId = none → s.running.length < maxActive
  | .resume subscriptionId =>
    s.table.status subscriptionId = some .paused ∨ s.table.status subscriptionId = some .error → s.running.length < maxActive
  | .restored (subscriptionId :: _) => s.running.length < maxActive →
      ∀ status, s.table.status subscriptionId = some status → status = .active
  | .stopped _ (.pause subscriptionId) | .stopped _ (.delete subscriptionId) => subscriptionId ∉ s.running.keys
  | .readFailed taskId _ true => ∀ task, s.task? taskId = some task → ¬ s.exhausted maxFailures task
  | _ => True

/-- All readers of the subscription have ended. -/
def Vacant (s : LogSubscriptionManager) (subscriptionId : String) : Prop :=
  ∀ task ∈ s.tasks, task.kind = .reader → task.subscriptionId ≠ subscriptionId

/-- A subscription that does not run is started again when its last reader has ended. -/
def Patient (s : LogSubscriptionManager) : ManagerMove → Prop
  | .resume subscriptionId | .restored (subscriptionId :: _) =>
    subscriptionId ∉ s.running.keys → s.Vacant subscriptionId
  | .startActiveOptIn => ∀ row ∈ s.table.listActiveOptInSubscriptions,
      row.subscriptionId ∉ s.running.keys → s.Vacant row.subscriptionId
  | _ => True

end LogSubscriptionManager

def logSubscriptions (maxActive maxFailures : ℕ) (table : SubscriptionTable) :
    System LogSubscriptionManager ManagerMove where
  init := { table }
  step := step maxActive maxFailures

namespace LogSubscriptionManager
variable {maxActive maxFailures : ℕ} {s t u : LogSubscriptionManager} {task : SubscriptionTask}
  {tasks : SubscriptionTasks} {subscriptionId : String}

/-! ### Steps -/

lemma map_wake_eq {p : Pending} {f : LogSubscriptionManager → LogSubscriptionManager} (h : (s.wake p).map f = some t) :
    t = f { s with pending := s.pending.erase p } := by
  obtain ⟨woken, hwake, rfl⟩ := map_eq_some_iff.mp h
  rw [wake_eq hwake]

lemma taken {taskId : ℕ} {kind : TaskKind} {stage : TaskStage} {f : SubscriptionTask → LogSubscriptionManager}
    (h : ((s.task? taskId).bind fun task => if task.kind = kind ∧ task.stage = stage then some (f task) else none) = some t) :
    ∃ task, s.task? taskId = some task ∧ (task.kind = kind ∧ task.stage = stage) ∧ t = f task := by
  obtain ⟨task, htask, h⟩ := bind_eq_some_iff.mp h
  split_ifs at h with hstage
  exact ⟨task, htask, hstage, (some.inj h).symm⟩

lemma reads_of_task? {taskId : ℕ} {stage : TaskStage} (h : s.task? taskId = some task)
    (hstage : task.kind = .reader ∧ task.stage = stage) (hearly : stage = .looping ∨ stage = .emitting) :
    task ∈ s.tasks ∧ task.reads = true := by
  refine ⟨(mem_of_task? h).1, ?_⟩
  simp [reads, hstage, hearly]

lemma Kept.recordFailure (h : Kept maxActive s) (htask : task ∈ s.tasks) (hreads : task.reads = true) {error : String}
    {suspends : Bool} (hclean : suspends = true → ¬ s.exhausted maxFailures task) :
    Kept maxActive (s.recordFailure maxFailures task error suspends) := by
  rcases recordFailure_cases maxFailures s task error suspends with heq | ⟨failures, heq | ⟨row, hrow, hexhausted, heq⟩⟩
  · rw [heq]
    exact h
  · rw [heq]
    exact h.congr (.of_eq rfl rfl) rfl rfl
  · cases suspends with
    | true => exact absurd hexhausted (hclean rfl)
    | false =>
      rw [heq]
      have hcounted : Kept maxActive { s with failures } := h.congr (.of_eq rfl rfl) rfl rfl
      obtain ⟨htable, hstopped⟩ := teardownRunning_eq { s with failures } task
      -- the row is changed before the teardown, but nothing comes between
      change Kept maxActive (LogSubscriptionManager.teardownRunning { s with failures, table := _ } task)
      rw [teardownRunning_table { s with failures } task]
      have hstatus : ∀ key, (s.table.put { row with status := .error, lastErrorRedacted := some error }).status key =
          if key = task.subscriptionId then some .error
          else (LogSubscriptionManager.teardownRunning { s with failures } task).table.status key := by
        rw [htable]
        exact fun key => status_mark hrow error
      exact (hcounted.teardownRunning htask hreads).setStatus hstatus hstopped

lemma Kept.resume (h : Kept maxActive s)
    (hroom : s.table.status subscriptionId = some .paused ∨ s.table.status subscriptionId = some .error →
      s.running.length < maxActive) : Kept maxActive (s.resume subscriptionId) := by
  unfold LogSubscriptionManager.resume
  split
  · exact h
  · rename_i table htable
    obtain ⟨⟨current, hcurrent, hstatus⟩, hafter⟩ := status_transition htable
    have hbefore : s.table.status subscriptionId = some .paused ∨ s.table.status subscriptionId = some .error := by
      rcases mem_cons.mp hcurrent with rfl | hcurrent
      · exact .inl hstatus
      · rw [mem_singleton.mp hcurrent] at hstatus
        exact .inr hstatus
    have hstopped : subscriptionId ∉ s.running.keys := by
      intro hkey
      rw [h.active subscriptionId hkey] at hbefore
      simp at hbefore
    have hset : Kept maxActive { s with table } := h.setStatus hafter hstopped
    have hactive : table.status subscriptionId = some .active := by rw [hafter, if_pos rfl]
    obtain ⟨t, ht⟩ := start_ok (s := { s with table }) (hactive ▸ some_ne_none _)
    rw [ht]
    exact hset.start hactive (fun _ => hroom hbefore) ht

lemma Kept.restore (h : Kept maxActive s) {rest : List String}
    (hactive : ∀ key ∈ rest.head?, s.running.length < maxActive →
      ∀ status, s.table.status key = some status → status = .active) : Kept maxActive (s.restore maxActive rest) := by
  cases rest with
  | nil => exact h
  | cons subscriptionId rest =>
    simp only [LogSubscriptionManager.restore]
    split_ifs with hfull
    · exact h
    cases hstart : s.start subscriptionId with
    | error _ => exact h
    | ok t =>
      obtain ⟨status, hstatus⟩ := ne_none_iff_exists'.mp (start_cases hstart).1
      have hroom : s.running.length < maxActive := by omega
      rw [hactive subscriptionId rfl hroom status hstatus] at hstatus
      exact (h.start hstatus (fun _ => hroom) hstart).congr (.of_eq rfl rfl) rfl rfl

variable {move : ManagerMove}

lemma Kept.step (h : Kept maxActive s) (hclean : Clean maxActive maxFailures s move)
    (hstep : s.step maxActive maxFailures move = some t) : Kept maxActive t := by
  cases move with
  | create optInStreaming =>
    simp only [step] at hstep
    split_ifs at hstep
    · cases hstep
      exact h
    · cases hstep
      exact h.congr (.of_eq rfl rfl) rfl rfl
  | validated subscriptionId =>
    obtain rfl := map_wake_eq hstep
    have hwoken : Kept maxActive { s with pending := s.pending.erase .validating } := h.congr (.of_eq rfl rfl) rfl rfl
    dsimp only
    split
    · exact hwoken
    · rename_i table htable
      obtain ⟨hnone, hafter⟩ := status_create htable
      have hstopped : subscriptionId ∉ s.running.keys := by
        intro hkey
        cases hnone.symm.trans (h.active subscriptionId hkey)
      have hactive : table.status subscriptionId = some .active := by rw [hafter, if_pos rfl]
      obtain ⟨t, ht⟩ := start_ok (s := { s with table, pending := s.pending.erase .validating })
        (hactive ▸ some_ne_none _)
      rw [ht]
      exact (hwoken.setStatus hafter hstopped).start hactive (fun _ => hclean hnone) ht
  | rejected =>
    rw [wake_eq hstep]
    exact h.congr (.of_eq rfl rfl) rfl rfl
  | pause subscriptionId =>
    cases hstep
    exact h.stopThen id
  | resume subscriptionId =>
    cases hstep
    exact h.resume hclean
  | delete subscriptionId =>
    cases hstep
    exact h.stopThen id
  | startActiveOptIn =>
    cases hstep
    refine h.restore fun key hkey _ status hstatus => ?_
    rw [head?_map] at hkey
    obtain ⟨row, hrow, rfl⟩ := map_eq_some_iff.mp hkey
    rw [status_listed (mem_of_mem_head? hrow)] at hstatus
    exact (some.inj hstatus).symm
  | restored rest =>
    obtain rfl := map_wake_eq hstep
    have hwoken : Kept maxActive { s with pending := s.pending.erase (.restoring rest) } := h.congr (.of_eq rfl rfl) rfl rfl
    refine hwoken.restore fun key hkey => ?_
    cases rest with
    | nil => cases hkey
    | cons subscriptionId rest =>
      cases hkey
      exact hclean
  | closeAll =>
    cases hstep
    exact h.closeRest _
  | stopped tasks next =>
    simp only [step] at hstep
    split_ifs at hstep
    obtain rfl := map_wake_eq hstep
    have hwoken : Kept maxActive { s with pending := s.pending.erase (.stopping tasks next) } := h.congr (.of_eq rfl rfl) rfl rfl
    refine hwoken.proceed ?_
    cases next with
    | pause subscriptionId => exact hclean
    | delete subscriptionId => exact hclean
    | closeAll rest => exact trivial
  | read taskId =>
    obtain ⟨task, -, -, rfl⟩ := taken hstep
    exact h.congr (.of_eq rfl rfl) rfl rfl
  | readFailed taskId error suspends =>
    obtain ⟨task, htask, hstage, rfl⟩ := taken hstep
    obtain ⟨hmem, hreads⟩ := reads_of_task? htask hstage (.inl rfl)
    refine h.recordFailure hmem hreads fun hsuspends => ?_
    subst hsuspends
    exact hclean task htask
  | emitted taskId =>
    obtain ⟨task, htask, hstage, rfl⟩ := taken hstep
    obtain ⟨hmem, hreads⟩ := reads_of_task? htask hstage (.inr rfl)
    exact h.teardownRunning hmem hreads
  | writeFailed taskId =>
    obtain ⟨task, -, -, rfl⟩ := taken hstep
    exact h
  | ended taskId =>
    obtain ⟨task, -, hstep⟩ := bind_eq_some_iff.mp hstep
    obtain ⟨htable, hrunning⟩ := unwind_eq hstep
    exact h.congr (winding_unwind hstep) htable hrunning
  | crash =>
    cases hstep
    refine ⟨⟨nodup_nil, ?_, ?_, ?_⟩, ?_, Nat.zero_le _⟩
    all_goals exact fun _ h => absurd h not_mem_nil

lemma nodup_subscriptions {p : SubscriptionTask → Bool} (hunique : (s.tasks.map taskId).Nodup)
    (h : ∀ task ∈ s.tasks, ∀ task' ∈ s.tasks, p task = true → p task' = true →
      task.subscriptionId = task'.subscriptionId → task.taskId = task'.taskId) :
    ((s.tasks.filter p).map SubscriptionTask.subscriptionId).Nodup := by
  refine List.Nodup.map_on ?_ ((List.Nodup.of_map _ hunique).filter _)
  intro task htask task' htask' heq
  obtain ⟨hmem, hp⟩ := mem_filter.mp htask
  obtain ⟨hmem', hp'⟩ := mem_filter.mp htask'
  exact inj_on_of_nodup_map hunique hmem hmem' (h task hmem task' hmem' hp hp' heq)

lemma Kept.held (h : Kept maxActive s) : Held maxActive s := by
  refine ⟨h.active, nodup_subscriptions h.staffed.ids fun task htask task' htask' hreads hreads' heq => ?_, h.bounded⟩
  obtain ⟨tasks, hget, hid⟩ := h.staffed.owns task htask hreads
  obtain ⟨tasks', hget', hid'⟩ := h.staffed.owns task' htask' hreads'
  rw [heq, hget'] at hget
  cases hget
  exact hid.symm.trans hid'

def Alone (s : LogSubscriptionManager) : Prop :=
  ∀ task ∈ s.tasks, ∀ task' ∈ s.tasks, task.kind = .reader → task'.kind = .reader →
    task.subscriptionId = task'.subscriptionId → task.taskId = task'.taskId

lemma Alone.winding (h : Alone s) (hw : Winding s t) : Alone t := by
  intro task htask task' htask' hkind hkind' heq
  obtain ⟨old, hold, hid, hsub, holdkind, -⟩ := hw.older task htask
  obtain ⟨old', hold', hid', hsub', holdkind', -⟩ := hw.older task' htask'
  rw [← hid, ← hid']
  exact h old hold old' hold' (holdkind.trans hkind) (holdkind'.trans hkind') (hsub.trans (heq.trans hsub'.symm))

lemma Alone.start (h : Alone s) (hvacant : subscriptionId ∉ s.running.keys → s.Vacant subscriptionId)
    (hstart : s.start subscriptionId = .ok t) : Alone t := by
  obtain ⟨-, ⟨-, rfl⟩ | ⟨hstopped, rfl⟩⟩ := start_cases hstart
  · exact h
  have hmem : ∀ task ∈ (s.launch subscriptionId).tasks, task.kind = .reader →
      task ∈ s.tasks ∨ task = { taskId := s.nextTask, subscriptionId, kind := .reader } := by
    intro task htask hkind
    rcases mem_append.mp htask with hold | hnew
    · exact .inl hold
    rcases mem_cons.mp hnew with rfl | hnew
    · exact .inr rfl
    · rw [mem_singleton.mp hnew] at hkind
      cases hkind
  intro task htask task' htask' hkind hkind' heq
  rcases hmem task htask hkind with hold | rfl
  · rcases hmem task' htask' hkind' with hold' | rfl
    · exact h task hold task' hold' hkind hkind' heq
    · exact absurd heq (hvacant hstopped task hold hkind)
  · rcases hmem task' htask' hkind' with hold' | rfl
    · exact absurd heq.symm (hvacant hstopped task' hold' hkind')
    · rfl

lemma Alone.resume (h : Alone s) (hvacant : subscriptionId ∉ s.running.keys → s.Vacant subscriptionId) :
    Alone (s.resume subscriptionId) := by
  unfold LogSubscriptionManager.resume
  split
  · exact h
  · rename_i table _
    have hset : Alone { s with table } := h.winding (.of_eq rfl rfl)
    cases hstart : LogSubscriptionManager.start { s with table } subscriptionId with
    | error _ => exact hset
    | ok t => exact hset.start hvacant hstart

lemma Alone.restore (h : Alone s) {rest : List String}
    (hvacant : ∀ key ∈ rest.head?, key ∉ s.running.keys → s.Vacant key) : Alone (s.restore maxActive rest) := by
  cases rest with
  | nil => exact h
  | cons subscriptionId rest =>
    simp only [LogSubscriptionManager.restore]
    split_ifs
    · exact h
    cases hstart : s.start subscriptionId with
    | error _ => exact h
    | ok t => exact (h.start (hvacant subscriptionId rfl) hstart).winding (.of_eq rfl rfl)

lemma Alone.step (h : Alone s) (hs : Staffed s) (hpatient : Patient s move)
    (hstep : s.step maxActive maxFailures move = some t) : Alone t := by
  cases move with
  | create optInStreaming =>
    simp only [LogSubscriptionManager.step] at hstep
    split_ifs at hstep
    · cases hstep
      exact h
    · cases hstep
      exact h.winding (.of_eq rfl rfl)
  | validated subscriptionId =>
    obtain rfl := map_wake_eq hstep
    dsimp only
    split
    · exact h.winding (.of_eq rfl rfl)
    · rename_i table htable
      -- a new id has no tasks yet
      have hvacant : s.Vacant subscriptionId := by
        rintro task htask - rfl
        exact hs.rooted task htask (status_create htable).1
      have hset : Alone { s with table, pending := s.pending.erase .validating } := h.winding (.of_eq rfl rfl)
      cases hstart : LogSubscriptionManager.start { s with table, pending := s.pending.erase .validating } subscriptionId with
      | error _ => exact hset
      | ok t => exact hset.start (fun _ => hvacant) hstart
  | rejected =>
    rw [wake_eq hstep]
    exact h.winding (.of_eq rfl rfl)
  | pause subscriptionId =>
    cases hstep
    exact h.winding (winding_stopThen _ _ _)
  | resume subscriptionId =>
    cases hstep
    exact h.resume hpatient
  | delete subscriptionId =>
    cases hstep
    exact h.winding (winding_stopThen _ _ _)
  | startActiveOptIn =>
    cases hstep
    refine h.restore fun key hkey => ?_
    rw [head?_map] at hkey
    obtain ⟨row, hrow, rfl⟩ := map_eq_some_iff.mp hkey
    exact hpatient row (mem_of_mem_head? hrow)
  | restored rest =>
    obtain rfl := map_wake_eq hstep
    have hwoken : Alone { s with pending := s.pending.erase (.restoring rest) } := h.winding (.of_eq rfl rfl)
    refine hwoken.restore fun key hkey => ?_
    cases rest with
    | nil => cases hkey
    | cons subscriptionId rest =>
      cases hkey
      exact hpatient
  | closeAll =>
    cases hstep
    exact h.winding (winding_closeRest _ _)
  | stopped tasks next =>
    simp only [LogSubscriptionManager.step] at hstep
    split_ifs at hstep
    obtain rfl := map_wake_eq hstep
    exact h.winding ((winding_proceed _ _).after rfl rfl)
  | read taskId =>
    obtain ⟨task, -, -, rfl⟩ := taken hstep
    exact h.winding (.of_eq rfl rfl)
  | readFailed taskId error suspends =>
    obtain ⟨task, htask, hstage, rfl⟩ := taken hstep
    obtain ⟨hmem, hreads⟩ := reads_of_task? htask hstage (.inl rfl)
    exact h.winding (winding_recordFailure s hmem hreads hs.ids error suspends)
  | emitted taskId =>
    obtain ⟨task, -, -, rfl⟩ := taken hstep
    exact h.winding (winding_teardownRunning s task)
  | writeFailed taskId =>
    obtain ⟨task, -, -, rfl⟩ := taken hstep
    exact h
  | ended taskId =>
    obtain ⟨task, -, hstep⟩ := bind_eq_some_iff.mp hstep
    exact h.winding (winding_unwind hstep)
  | crash =>
    cases hstep
    exact fun _ htask => absurd htask not_mem_nil

/-! ### Nothing less will do -/

lemma started_runs (h : s.start subscriptionId = .ok t) : subscriptionId ∈ t.running.keys ∧ t.table = s.table := by
  obtain ⟨-, ⟨hrunning, rfl⟩ | ⟨-, rfl⟩⟩ := start_cases h
  · exact ⟨hrunning, rfl⟩
  · exact ⟨Dict.mem_keys_iff.mpr ⟨_, Dict.get?_set_self _ _ _⟩, rfl⟩

lemma started_length (h : s.start subscriptionId = .ok t) (hstopped : subscriptionId ∉ s.running.keys) :
    t.running.length = s.running.length + 1 := by
  obtain ⟨-, ⟨hrunning, -⟩ | ⟨-, rfl⟩⟩ := start_cases h
  · exact absurd hrunning hstopped
  · change (s.running.set _ _).length = _
    rw [Dict.set_of_not_mem hstopped, length_append]
    rfl

lemma Kept.clean_of_held (h : Kept maxActive s) (hstep : s.step maxActive maxFailures move = some t)
    (hheld : Held maxActive t) : Clean maxActive maxFailures s move := by
  cases move with
  | validated subscriptionId =>
    intro hnone
    obtain rfl := map_wake_eq hstep
    have hstopped : subscriptionId ∉ s.running.keys := by
      intro hkey
      cases hnone.symm.trans (h.active subscriptionId hkey)
    obtain ⟨table, htable⟩ := create_ok hnone
    have hactive : table.status subscriptionId = some .active := by rw [(status_create htable).2, if_pos rfl]
    obtain ⟨t, ht⟩ := start_ok (s := { s with table, pending := s.pending.erase .validating })
      (hactive ▸ some_ne_none _)
    simp only [htable, ht, orElse] at hheld
    have := hheld.bounded
    rw [started_length ht hstopped] at this
    exact this
  | resume subscriptionId =>
    intro hbefore
    cases hstep
    have hstopped : subscriptionId ∉ s.running.keys := by
      intro hkey
      rw [h.active subscriptionId hkey] at hbefore
      simp at hbefore
    obtain ⟨table, htable⟩ : ∃ table, s.table.resumeSubscription subscriptionId = .ok table := by
      rcases hbefore with hpaused | herror
      · exact transition_ok hpaused (by simp) .active
      · exact transition_ok herror (by simp) .active
    have hactive : table.status subscriptionId = some .active := by
      rw [(status_transition htable).2, if_pos rfl]
    obtain ⟨t, ht⟩ := start_ok (s := { s with table }) (hactive ▸ some_ne_none _)
    simp only [LogSubscriptionManager.resume, htable, ht, orElse] at hheld
    have := hheld.bounded
    rw [started_length ht hstopped] at this
    exact this
  | restored rest =>
    cases rest with
    | nil => exact trivial
    | cons subscriptionId rest =>
      intro hroom status hstatus
      obtain rfl := map_wake_eq hstep
      obtain ⟨t, ht⟩ := start_ok (s := { s with pending := s.pending.erase (.restoring (subscriptionId :: rest)) })
        (show s.table.status subscriptionId ≠ none from hstatus ▸ some_ne_none _)
      obtain ⟨hruns, htable⟩ := started_runs ht
      simp only [LogSubscriptionManager.restore, ht, if_neg (Nat.not_le.mpr hroom)] at hheld
      have hactive := hheld.active subscriptionId hruns
      rw [htable] at hactive
      exact some.inj (hstatus.symm.trans hactive)
  | stopped tasks next =>
    simp only [LogSubscriptionManager.step] at hstep
    split_ifs at hstep
    obtain rfl := map_wake_eq hstep
    cases next with
    | pause subscriptionId =>
      intro hkey
      obtain ⟨table, htable⟩ : ∃ table, s.table.pauseSubscription subscriptionId = .ok table :=
        transition_ok (h.active subscriptionId hkey) (by simp) .paused
      simp only [LogSubscriptionManager.proceed, htable] at hheld
      have hactive := hheld.active subscriptionId hkey
      rw [(status_transition htable).2, if_pos rfl] at hactive
      cases hactive
    | delete subscriptionId =>
      intro hkey
      obtain ⟨row, hrow, -⟩ := get_of_status (h.active subscriptionId hkey)
      have htable : s.table.deleteSubscription subscriptionId = .ok (s.table.put { row with status := .deleted }) := by
        rw [deleteSubscription, hrow]
      simp only [LogSubscriptionManager.proceed, htable] at hheld
      have hactive := hheld.active subscriptionId hkey
      rw [status_delete htable, if_pos rfl] at hactive
      cases hactive
    | closeAll rest => exact trivial
  | readFailed taskId error suspends =>
    cases suspends with
    | false => exact trivial
    | true =>
      intro task htask hexhausted
      simp only [LogSubscriptionManager.step, htask, bind_some] at hstep
      split_ifs at hstep with hstage
      cases hstep
      obtain ⟨hmem, hreads⟩ := reads_of_task? htask hstage (.inl rfl)
      obtain ⟨tasks, hget, -⟩ := h.staffed.owns task hmem hreads
      obtain ⟨⟨row, hrow, hdeleted⟩, hcount⟩ := hexhausted
      have hactive := hheld.active task.subscriptionId
      simp only [LogSubscriptionManager.recordFailure, hrow, if_neg hdeleted, if_neg (Nat.not_lt.mpr hcount), giveUp,
        if_true] at hactive
      have herror := hactive (Dict.mem_keys_iff.mpr ⟨tasks, hget⟩)
      change (s.table.put { row with status := .error, lastErrorRedacted := some error }).status task.subscriptionId = _ at herror
      rw [status_mark hrow error, if_pos rfl] at herror
      cases herror
  | create optInStreaming => exact trivial
  | rejected => exact trivial
  | pause subscriptionId => exact trivial
  | delete subscriptionId => exact trivial
  | startActiveOptIn => exact trivial
  | closeAll => exact trivial
  | read taskId => exact trivial
  | emitted taskId => exact trivial
  | writeFailed taskId => exact trivial
  | ended taskId => exact trivial
  | crash => exact trivial

end LogSubscriptionManager

open LogSubscriptionManager

/-! ### Every run -/

lemma kept_of_reached {maxActive maxFailures : ℕ} {table : SubscriptionTable} {s : LogSubscriptionManager}
    {good : LogSubscriptionManager → ManagerMove → Prop} (hgood : ∀ s move, good s move → Clean maxActive maxFailures s move)
    (hs : (logSubscriptions maxActive maxFailures table).Reached good s) : Kept maxActive s := by
  refine hs.invariant ?_ fun s move t h hmove hstep => h.step (hgood s move hmove) hstep
  refine ⟨⟨nodup_nil, ?_, ?_, ?_⟩, ?_, Nat.zero_le _⟩
  all_goals exact fun _ h => absurd h not_mem_nil

/-- Over every run of clean steps; and a step that is not clean breaks it. A run in which subscriptions are also
started again only when their readers have ended never has two reader tasks of one subscription. -/
theorem running_subscriptions_held (maxActive maxFailures : ℕ) (table : SubscriptionTable) :
    (∀ s, (logSubscriptions maxActive maxFailures table).Reached (Clean maxActive maxFailures) s → Held maxActive s ∧
        ∀ move t, s.step maxActive maxFailures move = some t → (Held maxActive t ↔ Clean maxActive maxFailures s move)) ∧
    ∀ s, (logSubscriptions maxActive maxFailures table).Reached
      (fun s move => Clean maxActive maxFailures s move ∧ Patient s move) s → OneReader s := by
  refine ⟨fun s hs => ?_, fun s hs => ?_⟩
  · have hkept := kept_of_reached (fun _ _ => id) hs
    exact ⟨hkept.held, fun move t hstep => ⟨hkept.clean_of_held hstep, fun hclean => (hkept.step hclean hstep).held⟩⟩
  · have hkept : Kept maxActive s := kept_of_reached (fun _ _ h => h.1) hs
    have halone : Alone s := by
      induction hs with
      | start => exact fun _ htask => absurd htask not_mem_nil
      | next move hreached hmove hstep ih =>
        have hbefore : Kept maxActive _ := kept_of_reached (fun _ _ h => h.1) hreached
        exact (ih hbefore).step hbefore.staffed hmove.2 hstep
    refine nodup_subscriptions hkept.staffed.ids fun task htask task' htask' hkind hkind' heq => ?_
    exact halone task htask task' htask' (of_decide_eq_true hkind) (of_decide_eq_true hkind') heq

/-- A subscription is paused, another one takes its place, and the first one is resumed. -/
theorem resumed_over_the_bound : ∃ s, (logSubscriptions 1 3 {}).runFrom { table := {} }
      [.create true, .validated "sub-1", .pause "sub-1", .ended 0, .ended 1, .stopped ⟨0, 1⟩ (.pause "sub-1"),
        .create true, .validated "sub-2", .resume "sub-1"] = some s ∧
    s.running.keys = ["sub-2", "sub-1"] ∧ ¬ Held 1 s := by
  refine ⟨_, rfl, rfl, fun h => ?_⟩
  have hbounded := h.bounded
  exact absurd hbounded (by decide)

def refusedTable : SubscriptionTable where
  rows := [{ subscriptionId := "sub-1", optInStreaming := true, status := .error, lastErrorRedacted := some "refused" }]
  unique := nodup_singleton _

/-- A subscription whose reader fails for good, and that is resumed when both its tasks are gone. -/
theorem resumed_after_error : ∃ s, (logSubscriptions 1 1 {}).runFrom { table := {} }
      [.create true, .validated "sub-1", .readFailed 0 "refused" false, .ended 1, .ended 0, .resume "sub-1"] = some s ∧
    s.running.keys = ["sub-1"] ∧ Held 1 s ∧ OneReader s := by
  have hcreated : (logSubscriptions 1 1 {}).Reached (fun s move => Clean 1 1 s move ∧ Patient s move)
      { table := {}, pending := [.validating] } := .next (.create true) .start ⟨trivial, trivial⟩ rfl
  have hrefused : (logSubscriptions 1 1 {}).Reached (fun s move => Clean 1 1 s move ∧ Patient s move)
      { table := refusedTable, failures := [("sub-1", 1)], nextTask := 2 } := by
    refine System.Reached.runFrom (.next (.validated "sub-1") hcreated ⟨fun _ => Nat.zero_lt_one, trivial⟩ rfl)
      [.readFailed 0 "refused" false, .ended 1, .ended 0] (fun s move hmove => ?_) rfl
    simp only [mem_cons, not_mem_nil, or_false] at hmove
    rcases hmove with rfl | rfl | rfl <;> exact ⟨trivial, trivial⟩
  have hvacant : Vacant { table := refusedTable, failures := [("sub-1", 1)], nextTask := 2 } "sub-1" :=
    fun _ htask => absurd htask not_mem_nil
  have hreached := System.Reached.next (ManagerMove.resume "sub-1") hrefused ⟨fun _ => Nat.zero_lt_one, fun _ => hvacant⟩ rfl
  refine ⟨_, rfl, rfl, ?_, ?_⟩
  · exact ((running_subscriptions_held 1 1 {}).1 _ (hreached.mono fun _ _ h => h.1)).1
  · exact (running_subscriptions_held 1 1 {}).2 _ hreached

end IncidentLens.Logs
