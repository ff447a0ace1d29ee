import IncidentLens.Changes.Gate
import IncidentLens.Effects.Locks
import Mathlib.Data.Prod.Lex
import Mathlib.Data.String.Basic
import Mathlib.Data.List.Sort

/-!
# Path locks

The tasks of a change manager run concurrently. `apply` takes the locks of its requested
paths in order, outside the block that gives them back; `rollback` takes none.
-/
namespace IncidentLens.Changes
open Data Effects LockKey Routine List

/-! ### The order of the locks -/

def LockKey.toTuple (key : LockKey) : String ×ₗ String ×ₗ String := toLex (key.targetId, toLex (key.scope, key.path))

lemma LockKey.toTuple_injective : Function.Injective LockKey.toTuple := by
  rintro ⟨t, s, p⟩ ⟨t', s', p'⟩ h
  simpa [toTuple] using h

instance : LinearOrder LockKey := LinearOrder.lift' toTuple toTuple_injective

lemma LockKey.le_iff {a b : LockKey} : a.le b ↔ a ≤ b := by
  change a.le b ↔ a.toTuple ≤ b.toTuple
  simp [le, toTuple, Prod.Lex.toLex_le_toLex]

instance : Std.Total le := ⟨fun a b => by simp only [le_iff, le_total]⟩

instance : IsTrans LockKey le := ⟨fun _ _ _ hab hbc =>
  le_iff.mpr ((le_iff.mp hab).trans (le_iff.mp hbc))⟩

lemma lockKeys_sorted (rq : ChangeSetRequest) : (lockKeys rq).Pairwise (· < ·) := by
  have hle : (lockKeys rq).Pairwise le := pairwise_insertionSort _ _
  have hnodup : (lockKeys rq).Nodup := (perm_insertionSort _ _).nodup_iff.mpr (nodup_dedup _)
  exact hle.imp₂ (fun _ _ hle hne => lt_of_le_of_ne (le_iff.mp hle) hne) hnodup

/-! ### Tasks -/

def locking : Locking Call (Raising Exc Call.Value) LockKey where
  action c := match c.op with
    | .acquire key => some (.acquire key)
    | .release key => some (.release key)
    | _ => none
  grant
    | ⟨_, .acquire _⟩ => .ok ()
    | ⟨_, .release _⟩ => .ok ()
    | _ => .error ⟨.other, ""⟩

inductive Job
  | apply (request : ChangeSetRequest) (approvalId : Option String) (transport : Bool) (ts : String)
  | rollback (changesetId : String) (approvalId : Option String)

def releaseAll : List LockKey → Program Call (Raising Exc Call.Value) Unit
  | [] => .ret ()
  | key :: keys => .call ⟨.apply, .release key⟩ fun _ => releaseAll keys

/-- The locks that have been taken, given back or not. -/
def acquired (tr : History) : List LockKey :=
  tr.filterMap fun e => match e.call.op with
    | .acquire key => some key
    | _ => none

/-- The `try` block, whose `finally` gives back the locks, begins after the last one. -/
def entered (request : ChangeSetRequest) (tr : History) : Bool := (lockKeys request).all fun key => key ∈ acquired tr

/-- What a task does once `CancelledError` has been raised in it. -/
def cleanup (job : Job) (tr : History) : Program Call (Raising Exc Call.Value) Unit :=
  match job with
  | .apply request _ _ _ => if entered request tr then releaseAll (held locking tr) else .ret ()
  | .rollback _ _ => .ret ()

def jobs (m : Manager) : Jobs Job Call (Raising Exc Call.Value) where
  program
    | .apply request approvalId transport ts =>
      (apply m request approvalId transport ts {}).bind fun _ => .ret ()
    | .rollback changesetId approvalId => (rollback m changesetId approvalId ()).bind fun _ => .ret ()
  cleanup := cleanup

abbrev ChangeTask := Task Job Call (Raising Exc Call.Value)

abbrev ChangePool := Pool Job Call (Raising Exc Call.Value) LockKey

def LockLawful (job : Job) (tr : History) (c : Call) : Prop :=
  match job with
  | .rollback _ _ => c.op.locks = false
  | .apply request _ _ _ => match c.op with
    | .acquire key => key :: held locking tr <:+ (lockKeys request).reverse
    | .release key => ∃ rest, held locking tr = key :: rest ∧ key :: rest <:+ (lockKeys request).reverse
    | .connect _ _ => True
    | _ => held locking tr = (lockKeys request).reverse

/-- What a job holds, and that it holds all its locks from its first file call to its first
release. -/
def LockTracked (job : Job) (tr : History) : Prop :=
  match job with
  | .rollback _ _ => held locking tr = []
  | .apply request _ _ _ => held locking tr <:+ (lockKeys request).reverse ∧
      ((∃ e ∈ tr, e.call.op.outside = false) → held locking tr = (lockKeys request).reverse ∨
        ∃ e ∈ tr, ∃ key, e.call.op = .release key)

section
variable {m : Manager} {rq : ChangeSetRequest} {job : Job} {tr : History}

variable {origin : Origin} {key : LockKey} {c : Call}

lemma held_acquire (r : Raising Exc Call.Value ⟨origin, .acquire key⟩) :
    held locking (⟨⟨origin, .acquire key⟩, r⟩ :: tr) = key :: held locking tr := rfl

lemma held_release (r : Raising Exc Call.Value ⟨origin, .release key⟩) :
    held locking (⟨⟨origin, .release key⟩, r⟩ :: tr) = (held locking tr).erase key := rfl

lemma held_other (hc : c.op.locks = false) (r : Raising Exc Call.Value c) :
    held locking (⟨c, r⟩ :: tr) = held locking tr := by
  obtain ⟨origin, o⟩ := c
  cases o <;> first | rfl | cases hc

lemma disciplined : Disciplined locking LockLawful := by
  refine ⟨?_, ?_⟩
  · rintro job tr ⟨origin, o⟩ key hlawful haction
    cases o with
    | acquire key' =>
      obtain rfl : key' = key := by simpa [locking] using haction
      cases job with
      | rollback changesetId approvalId => cases hlawful
      | apply request approvalId transport ts =>
        have hsorted := (pairwise_reverse.mpr (lockKeys_sorted request)).sublist
          (List.IsSuffix.sublist hlawful)
        exact fun key'' hmem => rel_of_pairwise_cons hsorted hmem
    | _ => cases haction
  · rintro job tr ⟨origin, o⟩ key hlawful haction
    cases o with
    | release key' =>
      obtain rfl : key' = key := by simpa [locking] using haction
      cases job with
      | rollback changesetId approvalId => cases hlawful
      | apply request approvalId transport ts =>
        obtain ⟨rest, hheld, -⟩ := hlawful
        rw [hheld]
        exact mem_cons_self
    | _ => cases haction

lemma lockTracked_keep (r : Raising Exc Call.Value c) (h : LockTracked job tr)
    (hlawful : LockLawful job tr c) : LockTracked job (⟨c, r⟩ :: tr) := by
  cases job with
  | rollback changesetId approvalId =>
    unfold LockTracked
    rw [held_other hlawful]
    exact h
  | apply request approvalId transport ts =>
    obtain ⟨hsuffix, hcovered⟩ := h
    obtain ⟨origin, o⟩ := c
    cases o with
    | acquire key =>
      refine ⟨hlawful, ?_⟩
      rintro ⟨e, he, houtside⟩
      rcases mem_cons.mp he with rfl | he
      · cases houtside
      · rcases hcovered ⟨e, he, houtside⟩ with hall | ⟨e', he', hrelease⟩
        · -- every lock is held already
          have hlength := List.IsSuffix.length_le hlawful
          rw [hall] at hlength
          simp at hlength
        · exact .inr ⟨e', mem_cons_of_mem _ he', hrelease⟩
    | release key =>
      obtain ⟨rest, hheld, hrest⟩ := hlawful
      refine ⟨?_, fun _ => .inr ⟨_, mem_cons_self, key, rfl⟩⟩
      rw [held_release, hheld, erase_cons_head]
      exact (suffix_cons _ _).trans hrest
    | connect projectId targetId =>
      refine ⟨hsuffix, ?_⟩
      rintro ⟨e, he, houtside⟩
      rcases mem_cons.mp he with rfl | he
      · cases houtside
      · rcases hcovered ⟨e, he, houtside⟩ with hall | ⟨e', he', hrelease⟩
        · exact .inl hall
        · exact .inr ⟨e', mem_cons_of_mem _ he', hrelease⟩
    | _ => exact ⟨hsuffix, fun _ => .inl hlawful⟩

lemma ungranted_acquire (e : Exc) : Ungranted locking (⟨⟨origin, .acquire key⟩, .error e⟩ :: tr) :=
  ⟨_, mem_cons_self, by simp [locking], by simp [locking]⟩

lemma ungranted_release (e : Exc) : Ungranted locking (⟨⟨origin, .release key⟩, .error e⟩ :: tr) :=
  ⟨_, mem_cons_self, by simp [locking], by simp [locking]⟩

lemma LockLawful.of_outside {approvalId : Option String} {transport : Bool} {ts : String}
    (hheld : held locking tr = (lockKeys rq).reverse) (hc : c.op.outside = false) :
    LockLawful (.apply rq approvalId transport ts) tr c := by
  obtain ⟨origin, o⟩ := c
  cases o <;> first | exact hheld | cases hc

lemma Op.locks_of_outside {o : Op} (h : o.outside = false) : o.locks = false := by
  cases o <;> first | rfl | cases h

lemma apply_locks (approvalId : Option String) (transport : Bool) (ts : String) :
    wp (LockLawful (.apply rq approvalId transport ts)) (apply m rq approvalId transport ts)
      (fun _ _ => Settled locking) (fun _ _ => Settled locking) {} [] := by
  have hresolve : wp (LockLawful (.apply rq approvalId transport ts))
      (resolveTransportFor m .apply rq.context.projectId rq.context.targetId : M Locals Unit)
      (fun _ _ tr => held locking tr = []) (fun _ _ => Settled locking) {} [] :=
    resolveTransportFor_spec trivial (fun _ => rfl) (fun _ => rfl) (fun _ => .inl rfl) fun _ _ => .inl rfl
  -- the `finally`, after a result or an exception of `_apply_locked`
  have hrelease : ∀ {l : Locals} {tr : History} {result : Except Exc ChangeResult},
      held locking tr = (lockKeys rq).reverse →
      wp (LockLawful (.apply rq approvalId transport ts))
        ((lockKeys rq).reverse.forM fun key => call .apply (.release key))
        (fun _ l tr => wp (LockLawful (.apply rq approvalId transport ts)) (ofExcept result)
          (fun _ _ => Settled locking) (fun _ _ => Settled locking) l tr)
        (fun _ _ => Settled locking) l tr := by
    intro l tr result hheld
    refine wp_forM (fun done _ tr => (lockKeys rq).reverse = done ++ held locking tr) ?_ ?_ ?_
    · intro done key rest hkeys l tr hdone
      have hrest : held locking tr = key :: rest := append_cancel_left (hdone.symm.trans hkeys)
      refine wp_call ⟨rest, hrest, hkeys ▸ suffix_append _ _⟩ ?_ fun e => .inr (ungranted_release e)
      intro _
      rw [held_release, hrest, erase_cons_head, hkeys, append_assoc, singleton_append]
    · simpa using hheld.symm
    · intro l tr hdone
      have hnil : held locking tr = [] := by simpa using hdone
      exact wp_ofExcept (fun _ _ => .inl hnil) fun _ _ => .inl hnil
  unfold apply
  have hstart : held locking ([] : History) = [] := rfl
  refine resolved_wp (I := fun tr => held locking tr = []) transport hstart hresolve ?_
  intro l tr hnone
  refine wp_bind.mpr (wp_ofExcept ?_ fun _ _ => .inl hnone)
  rintro ⟨policy, entries⟩ -
  simp only [wp_bind, wp_attempt]
  refine wp_forM (fun done _ tr => held locking tr = done.reverse) ?_ hnone ?_
  · intro done key rest hkeys l tr hheld
    refine wp_call ?_ ?_ fun e => .inr (ungranted_acquire e)
    · change key :: held locking tr <:+ (lockKeys rq).reverse
      rw [hheld, hkeys, reverse_append, reverse_cons, append_assoc]
      exact suffix_append _ _
    · intro _
      rw [held_acquire, hheld, reverse_append, reverse_singleton, singleton_append]
  · intro l tr hheld
    refine wp_mono ((applyLocked_calls policy entries approvalId ts).wp
      (fun _ _ => LockLawful.of_outside) ?_ hheld) (fun _ _ _ => hrelease) fun _ _ _ => hrelease
    intro tr c r hheld hc
    rw [held_other (Op.locks_of_outside hc), hheld]

lemma program_locks (m : Manager) (job : Job) :
    ((jobs m).program job).wp (LockLawful job) (fun _ => Settled locking) [] := by
  cases job with
  | apply request approvalId transport ts =>
    refine Program.wp_bind.mpr (Program.wp_mono (apply_locks approvalId transport ts) ?_)
    rintro ⟨r, l⟩ tr hend
    cases r with
    | ok result => exact hend
    | error e => exact hend
  | rollback changesetId approvalId =>
    have hstart : held locking ([] : History) = [] := rfl
    have h : wp (LockLawful (.rollback changesetId approvalId)) (rollback m changesetId approvalId)
        (fun _ _ tr => held locking tr = []) (fun _ _ tr => held locking tr = []) () [] :=
      (rollback_calls changesetId approvalId).wp (I := fun tr => held locking tr = [])
        (fun _ _ _ hc => hc) (fun tr c r hnil hc => (held_other hc r).trans hnil) hstart
    refine Program.wp_bind.mpr (Program.wp_mono h ?_)
    rintro ⟨r, l⟩ tr hend
    cases r with
    | ok result => exact .inl hend
    | error e => exact .inl hend

lemma releaseAll_locks {approvalId : Option String} {transport : Bool} {ts : String}
    {keys : List LockKey} (hkeys : keys <:+ (lockKeys rq).reverse) (hheld : held locking tr = keys) :
    (releaseAll keys).wp (LockLawful (.apply rq approvalId transport ts)) (fun _ => Settled locking) tr := by
  induction keys generalizing tr with
  | nil => exact .inl hheld
  | cons key keys ih =>
    refine ⟨⟨keys, hheld, hkeys⟩, fun r => ih ((suffix_cons _ _).trans hkeys) ?_⟩
    rw [held_release, hheld, erase_cons_head]

def HalfLocked (s : ChangePool) (i : ℕ) : Prop :=
  ∃ task request approvalId transport ts, s.tasks i = some task ∧
    task.job = .apply request approvalId transport ts ∧ held locking task.trace ≠ [] ∧ entered request task.trace = false

lemma cleanup_locks (h : LockTracked job tr)
    (hfull : ∀ request approvalId transport ts, job = .apply request approvalId transport ts →
      held locking tr ≠ [] → entered request tr = true) :
    (cleanup job tr).wp (LockLawful job) (fun _ => Settled locking) tr := by
  cases job with
  | rollback changesetId approvalId => exact .inl h
  | apply request approvalId transport ts =>
    unfold cleanup
    by_cases hentered : entered request tr = true
    · simp only [hentered, if_true]
      exact releaseAll_locks h.1 rfl
    · simp only [hentered, Bool.false_eq_true, if_false]
      exact .inl (by_contra fun hne => hentered (hfull _ _ _ _ rfl hne))

end

/-! ### Work on one file -/

/-- A file of a target, symbolic links resolved. -/
structure Place where
  targetId : String
  scope : RemoteScope
  location : Path
  deriving DecidableEq

section
variable (layouts : String → Layout)

def placeOf (targetId : String) (scope : RemoteScope) (path : Path) : Place :=
  ⟨targetId, scope, (layouts targetId).loc scope path⟩

def FileRequest.place (f : FileRequest) : Place := placeOf layouts f.targetId f.scope f.path

def FileRequest.lockKey (f : FileRequest) : LockKey := ⟨f.targetId, scopeLockKey f.scope, f.path.str⟩

/-- A file change that `rollback` restores at the place. -/
def Restores (cs : ChangeSet) (place : Place) : Prop :=
  ∃ change ∈ cs.files, change.applied = true ∧
    ∃ scope, backendForChange change = .ok scope ∧ place = placeOf layouts cs.targetId scope change.remotePath

/-- The files of a task: those of its request, or of the change set it has read. -/
def Names (task : ChangeTask) (place : Place) : Prop :=
  match task.job with
  | .apply request _ _ _ => ∃ f ∈ request.files, f.place layouts = place
  | .rollback changesetId _ => ∃ cs, Did task.trace .rollback (.getChangeset changesetId) (some cs) ∧
      Restores layouts cs place

/-- The task is between its first read of the file and its end: for `apply`, the release of
its locks. -/
def Works (task : ChangeTask) (place : Place) : Prop :=
  task.rest ≠ .ret () ∧ match task.job with
    | .apply request _ _ _ => (∃ f ∈ request.files, f.place layouts = place ∧
        ∃ r, (⟨⟨.apply, .lstat f.scope f.path⟩, r⟩ : Event Call (Raising Exc Call.Value)) ∈ task.trace) ∧
        ∀ e ∈ task.trace, ∀ key, e.call.op ≠ .release key
    | .rollback changesetId _ => ∃ cs, Did task.trace .rollback (.getChangeset changesetId) (some cs) ∧
        Restores layouts cs place

/-- Every requested path of the file has this lock; a rollback has none. -/
def Guards (task : ChangeTask) (place : Place) (key : LockKey) : Prop :=
  match task.job with
  | .apply request _ _ _ => ∀ f ∈ request.files, f.place layouts = place → f.lockKey = key
  | .rollback _ _ => False

/-- Tasks that share a file are guarded by one lock. -/
def Aligned (s : ChangePool) : Prop :=
  ∀ i j task task', i ≠ j → s.tasks i = some task → s.tasks j = some task' →
    ∀ place, Names layouts task place → Names layouts task' place →
      ∃ key, Guards layouts task place key ∧ Guards layouts task' place key

def Exclusive (s : ChangePool) : Prop :=
  ∀ i j task task', i ≠ j → s.tasks i = some task → s.tasks j = some task' →
    ∀ place, ¬ (Works layouts task place ∧ Works layouts task' place)

variable {layouts} {task : ChangeTask} {place : Place} {key : LockKey}

lemma Works.names (h : Works layouts task place) : Names layouts task place := by
  obtain ⟨-, h⟩ := h
  unfold Names
  cases hjob : task.job with
  | apply request approvalId transport ts =>
    simp only [hjob] at h ⊢
    obtain ⟨⟨f, hf, hplace, -⟩, -⟩ := h
    exact ⟨f, hf, hplace⟩
  | rollback changesetId approvalId =>
    simp only [hjob] at h ⊢
    exact h

lemma mem_lockKeys {rq : ChangeSetRequest} {f : FileRequest} (hf : f ∈ rq.files) : f.lockKey ∈ lockKeys rq := by
  unfold lockKeys
  rw [mem_insertionSort, mem_dedup]
  exact mem_map_of_mem hf

lemma Works.held (h : Works layouts task place) (hguards : Guards layouts task place key)
    (htracked : LockTracked task.job task.trace) : key ∈ held locking task.trace := by
  obtain ⟨-, h⟩ := h
  cases hjob : task.job with
  | apply request approvalId transport ts =>
    simp only [Guards, LockTracked, hjob] at h hguards htracked
    obtain ⟨⟨f, hf, hplace, r, hread⟩, hrelease⟩ := h
    rcases htracked.2 ⟨_, hread, rfl⟩ with hall | ⟨e, he, key', hkey'⟩
    · rw [hall, ← hguards f hf hplace]
      exact mem_reverse.mpr (mem_lockKeys hf)
    · exact absurd hkey' (hrelease e he key')
  | rollback changesetId approvalId =>
    simp [Guards, hjob] at hguards

/-- In every run in which no task is cancelled while it holds some of its locks only: tasks
that share a file by one lock exclude each other, no tasks wait for each other for ever, and
a task that has ended holds no lock. -/
theorem locks_hold (m : Manager) (layouts : String → Layout) {s : ChangePool}
    (h : (scheduler locking (jobs m)).Reached (fun s e => ∀ i, e = .cancel i → ¬ HalfLocked s i) s) :
    (Aligned layouts s → Exclusive layouts s) ∧ (∀ S, ¬ s.Stuck locking S) ∧
      ∀ i key, s.Ended i → ¬ s.Holds locking i key := by
  have horderly : s.Orderly locking LockLawful LockTracked := by
    refine orderly_of_reached disciplined (program_locks m) ?_ (fun _ _ _ r => lockTracked_keep r)
      (h.mono ?_)
    · intro job
      cases job with
      | apply request approvalId transport ts =>
        exact ⟨nil_suffix, fun hcall => absurd hcall (by simp)⟩
      | rollback changesetId approvalId => rfl
    · intro s e hgood horderly
      cases e with
      | cancel i =>
        intro task htask
        refine cleanup_locks (horderly.tasks i task htask).2.2.2 ?_
        intro request approvalId transport ts hjob hheld
        by_contra hentered
        exact hgood i rfl ⟨task, request, approvalId, transport, ts, htask, hjob, hheld, Bool.eq_false_iff.mpr hentered⟩
      | _ => exact trivial
  refine ⟨?_, horderly.not_stuck disciplined, fun i key hended => horderly.ended hended key⟩
  rintro haligned i j task task' hij htask htask' place ⟨hworks, hworks'⟩
  obtain ⟨key, hguards, hguards'⟩ := haligned i j task task' hij htask htask' place hworks.names hworks'.names
  refine hij (horderly.single i j key ⟨task, htask, ?_⟩ ⟨task', htask', ?_⟩)
  · exact hworks.held hguards (horderly.tasks i task htask).2.2.2
  · exact hworks'.held hguards' (horderly.tasks j task' htask').2.2.2

end

/-! ### Three tasks -/

/-- The environment answers in the state before any change. -/
def answers (env : Env) (w : World) (c : Call) : Raising Exc Call.Value c := (perform env c.op w).1

/-- The sample file and one that sorts before it. -/
def twoFiles : ChangeSetRequest where
  changesetId := "cs-2"
  files := [sampleFile, { sampleFile with operationId := "op-2", path := ⟨true, ["srv", "app", "0.conf"]⟩ }]
  verificationPlan := "check the service"
  rollbackPlan := "restore the files"
  context := sampleContext
  nonempty := cons_ne_nil _ _
  shared f hf := by
    simp only [mem_cons, not_mem_nil, or_false] at hf
    rcases hf with rfl | rfl <;> rfl

def leakedKey : LockKey := ⟨"web-1", "host", "/srv/app/0.conf"⟩

/-- The second task is cancelled while it waits for the lock of the first one. -/
def leakingMoves : List (Move Job Call (Raising Exc Call.Value)) :=
  [.start 0 (.apply sampleRequest none true sampleTs), .answer 0 (answers sampleEnv sampleWorld),
    .start 1 (.apply twoFiles none true sampleTs), .answer 1 (answers sampleEnv sampleWorld), .cancel 1,
    .start 2 (.apply twoFiles none true sampleTs)]

def Op.looksAt (scope : RemoteScope) (path : Path) : Op → Bool
  | lstat scope' path' => scope' = scope ∧ path' = path
  | _ => false

def Op.gives : Op → Bool
  | release _ => true
  | _ => false

def hasEnded (task : ChangeTask) : Bool :=
  match task.rest with
  | .ret _ => true
  | .call _ _ => false

def asksFor (task : ChangeTask) (key : LockKey) : Bool :=
  match task.rest with
  | .call ⟨_, .acquire key'⟩ _ => key' = key
  | _ => false

section
variable {s : ChangePool} {i : ℕ} {key : LockKey}

lemma ended_of_hasEnded (h : (s.tasks i).any hasEnded = true) : s.Ended i := by
  obtain ⟨⟨job, rest, tr⟩, htask, hended⟩ := (Option.any_eq_true _ _).mp h
  cases rest with
  | ret a => exact ⟨job, tr, htask⟩
  | call c k => cases hended

lemma waits_of_asksFor (hlocked : s.locked key = true)
    (h : (s.tasks i).any (asksFor · key) = true) : s.Waits locking i key := by
  obtain ⟨⟨job, rest, tr⟩, htask, hasks⟩ := (Option.any_eq_true _ _).mp h
  cases rest with
  | ret a => cases hasks
  | call c k =>
    obtain ⟨origin, o⟩ := c
    cases o with
    | acquire key' =>
      obtain rfl : key' = key := of_decide_eq_true hasks
      exact ⟨hlocked, job, _, k, tr, htask, rfl⟩
    | _ => cases hasks

/-- The test of `Works` for a task of `apply`. -/
def worksOn (layouts : String → Layout) (place : Place) (task : ChangeTask) : Bool :=
  !hasEnded task && match task.job with
    | .apply request _ _ _ => (request.files.any fun f => f.place layouts = place ∧
        task.trace.any fun e => e.call.op.looksAt f.scope f.path ∧ e.call.origin = .apply) &&
        task.trace.all fun e => !e.call.op.gives
    | .rollback _ _ => false

lemma works_of_worksOn {layouts : String → Layout} {place : Place} {task : ChangeTask}
    (h : worksOn layouts place task = true) : Works layouts task place := by
  obtain ⟨job, rest, tr⟩ := task
  obtain ⟨hended, hjob⟩ := Bool.and_eq_true_iff.mp h
  refine ⟨?_, ?_⟩
  · rintro rfl
    cases hended
  cases job with
  | rollback changesetId approvalId => cases hjob
  | apply request approvalId transport ts =>
    obtain ⟨hreads, hgives⟩ := Bool.and_eq_true_iff.mp hjob
    obtain ⟨f, hf, hread⟩ := any_eq_true.mp hreads
    obtain ⟨hplace, hread⟩ := of_decide_eq_true hread
    obtain ⟨⟨⟨origin, o⟩, r⟩, he, hlooks⟩ := any_eq_true.mp hread
    obtain ⟨hlooks, rfl⟩ := of_decide_eq_true hlooks
    refine ⟨⟨f, hf, hplace, ?_⟩, ?_⟩
    · cases o with
      | lstat scope path =>
        obtain ⟨rfl, rfl⟩ := of_decide_eq_true hlooks
        exact ⟨r, he⟩
      | _ => cases hlooks
    · intro e he key hkey
      have hnot := all_eq_true.mp hgives e he
      rw [hkey] at hnot
      cases hnot

end

def resolvedRequest : ChangeSetRequest where
  changesetId := "cs-3"
  files := [{ sampleFile with operationId := "op-3", path := linkedPath }]
  verificationPlan := "check the service"
  rollbackPlan := "restore the file"
  context := sampleContext
  nonempty := cons_ne_nil _ _
  shared _ hf := mem_singleton.mp hf ▸ rfl

def overlappingMoves : List (Move Job Call (Raising Exc Call.Value)) :=
  .start 0 (.apply sampleRequest none true sampleTs) :: .start 1 (.apply resolvedRequest none true sampleTs) ::
    [0, 0, 0, 0, 1, 1, 1, 1].map fun i => .answer i (answers linkedManager.env linkedWorld)

def linkedPlace : Place := ⟨"web-1", .host, linkedPath⟩

/-- A task cancelled while it waits for its second lock keeps the first one, for which another
task then waits for ever; and two tasks that know a file by different paths work on it at
the same time. -/
theorem locks_fail : (∃ s, (scheduler locking (jobs sampleManager)).Reached (fun _ _ => True) s ∧ s.Ended 1 ∧
      s.Holds locking 1 leakedKey ∧ s.Stuck locking {2}) ∧
    ∃ s, (scheduler locking (jobs linkedManager)).Reached (fun _ _ => True) s ∧
      ¬ Exclusive (fun _ => linkedManager.env.layout) s := by
  constructor
  · have hrun : (((scheduler locking (jobs sampleManager)).runFrom {} leakingMoves).any fun s =>
        s.locked leakedKey && (s.tasks 1).any hasEnded &&
          ((s.tasks 1).any fun task => leakedKey ∈ held locking task.trace) &&
          (s.tasks 2).any (asksFor · leakedKey)) = true := by
      decide +kernel
    obtain ⟨s, hs, htest⟩ := (Option.any_eq_true _ _).mp hrun
    simp only [Bool.and_eq_true] at htest
    obtain ⟨⟨⟨hlocked, hended⟩, hheld⟩, hasks⟩ := htest
    obtain ⟨task, htask, hmem⟩ := (Option.any_eq_true _ _).mp hheld
    have hended := ended_of_hasEnded hended
    have hholds : s.Holds locking 1 leakedKey := ⟨task, htask, of_decide_eq_true hmem⟩
    refine ⟨s, .runFrom .start _ (fun _ _ _ => trivial) hs, hended, hholds, by simp, ?_⟩
    intro i hi
    obtain rfl := Finset.mem_singleton.mp hi
    exact ⟨leakedKey, waits_of_asksFor hlocked hasks, 1, hholds, .inr hended⟩
  · have hrun : (((scheduler locking (jobs linkedManager)).runFrom {} overlappingMoves).any fun s =>
        (s.tasks 0).any (worksOn (fun _ => linkedManager.env.layout) linkedPlace) &&
          (s.tasks 1).any (worksOn (fun _ => linkedManager.env.layout) linkedPlace)) = true := by
      decide +kernel
    obtain ⟨s, hs, htest⟩ := (Option.any_eq_true _ _).mp hrun
    simp only [Bool.and_eq_true] at htest
    obtain ⟨task, htask, hworks⟩ := (Option.any_eq_true _ _).mp htest.1
    obtain ⟨task', htask', hworks'⟩ := (Option.any_eq_true _ _).mp htest.2
    refine ⟨s, .runFrom .start _ (fun _ _ _ => trivial) hs, fun hexclusive => ?_⟩
    exact hexclusive 0 1 task task' (by decide) htask htask' linkedPlace
      ⟨works_of_worksOn hworks, works_of_worksOn hworks'⟩

/-- One task has the lock and another waits for it. -/
theorem sample_locks_hold : ∃ s, (scheduler locking (jobs sampleManager)).Reached
        (fun s e => ∀ i, e = .cancel i → ¬ HalfLocked s i) s ∧
      (Aligned (fun _ => sampleEnv.layout) s → Exclusive (fun _ => sampleEnv.layout) s) ∧
      (∀ S, ¬ s.Stuck locking S) ∧ ∀ i key, s.Ended i → ¬ s.Holds locking i key := by
  have hrun : ((scheduler locking (jobs sampleManager)).runFrom {} (leakingMoves.take 4)).isSome = true := by
    decide +kernel
  obtain ⟨s, hs⟩ := Option.isSome_iff_exists.mp hrun
  have hgood : ∀ s, ∀ e ∈ leakingMoves.take 4, ∀ i, e = .cancel i → ¬ HalfLocked s i := by
    intro s e he i hcancel
    subst hcancel
    simp [leakingMoves] at he
  exact ⟨s, .runFrom .start _ hgood hs, locks_hold sampleManager _ (.runFrom .start _ hgood hs)⟩

end IncidentLens.Changes
