import IncidentLens.Shell.Frame
import IncidentLens.Effects.Runs

/-!
# Interrupted commands on a persistent shell

Calls enter, wait for the lock and run one at a time. A call can be cancelled while it
waits, its write can raise, and it can be cancelled, fail or time out while it reads. The
process handles the commands it received in order, whatever became of their callers, so its
stream is the concatenation of their frames.
-/
namespace IncidentLens.Shell
open Data Effects

/-- How the locked section of a call ends, with the chunks it read. -/
inductive Fate
  -- `write` fails or is cancelled, before or after the process got the command
  | writeRaises (sent : Bool)
  -- `read` fails, or the call is cancelled at a `read`
  | readRaises (chunks : List Bytes)
  | timesOut (chunks : List Bytes)
  -- the reader stops, at the marker or at an empty chunk
  | completes (chunks : List Bytes)

/-- What can happen to the calls of one shell; `run` takes the first call that waits. -/
inductive Event
  | enter (x : Call)
  | cancelWaiting (i : ℕ)
  | run (fate : Fate)

/-- The shell, with what the process writes for the commands it received and nobody has read,
the calls that wait for the lock, and the results returned so far. -/
structure PersistentShell where
  closed : Bool := false
  stream : Bytes := []
  waiting : List Call := []
  returned : List (Call × ShellResult) := []
  deriving DecidableEq

def PersistentShell.receive (s : PersistentShell) (x : Call) : PersistentShell := { s with stream := s.stream ++ x.frame }

def PersistentShell.take (s : PersistentShell) (chunks : List Bytes) : Option PersistentShell :=
  if chunks.flatten.isPrefixOf s.stream then
    some { s with stream := s.stream.drop chunks.flatten.length }
  else none

/-- The loop of `_read_until_marker` ends with the last of these chunks. -/
def Call.readsAll (x : Call) (chunks : List Bytes) : Bool :=
  (readUntilMarker (markerBytes x.marker) chunks []).2.isEmpty &&
    (contains (markerBytes x.marker) chunks.flatten || chunks.any List.isEmpty)

/-- `_execute_locked`, with the environment's choices. -/
def PersistentShell.executeLocked (s : PersistentShell) (x : Call) : Fate → Option PersistentShell
  | .writeRaises sent => some (if sent then s.receive x else s)
  | .readRaises chunks => (s.receive x).take chunks
  | .timesOut chunks => ((s.receive x).take chunks).map fun s => { s with closed := true }
  | .completes chunks =>
    if x.readsAll chunks then
      ((s.receive x).take chunks).map fun s => { s with
        closed := s.closed || (x.answer chunks).closed
        returned := s.returned ++ [(x, (x.answer chunks).result)] }
    else none

/-- One step of the shell. `_closed` is tested when a call enters, and not again when it gets
the lock. -/
def PersistentShell.step (s : PersistentShell) : Event → Option PersistentShell
  | .enter x => some (if s.closed then s else { s with waiting := s.waiting ++ [x] })
  | .cancelWaiting i => some { s with waiting := s.waiting.eraseIdx i }
  | .run fate => match s.waiting with
    | [] => none
    | x :: waiting => PersistentShell.executeLocked { s with waiting := waiting } x fate

def persistentShell : System PersistentShell Event := ⟨{}, PersistentShell.step⟩

/-- A result a call may return: its own, or its own bytes with status -1 where the stream ended
before the marker. -/
def Call.Own (x : Call) (r : ShellResult) : Prop :=
  x.UpToNewline r ∨ ∃ q, q <+: x.frame ∧ q.length < x.markerEnd ∧ r = ⟨x.command, cap q, -1⟩

/-- No result is made of another call's bytes. -/
def PersistentShell.Uncontaminated (s : PersistentShell) : Prop := ∀ p ∈ s.returned, p.1.Own p.2

/-- The step leaves no bytes behind on a shell that stays open: a call interrupted after its
command was sent has timed out or had everything read, one that finds the marker reads the
whole frame, and one that got the lock of a closed shell finds nothing to read. -/
def Contained (s : PersistentShell) : Event → Prop
  | .run fate => match s.waiting with
    | [] => True
    | x :: _ => match fate with
      | .writeRaises sent => s.closed = false → sent = false
      | .readRaises chunks => s.closed = false → (s.stream ++ x.frame).length ≤ chunks.flatten.length
      | .timesOut _ => True
      | .completes chunks => (s.closed = true → s.stream = []) ∧
          (contains (markerBytes x.marker) chunks.flatten = true → x.frame.length ≤ chunks.flatten.length)
  | _ => True

/-! ### The answer of one call -/

lemma readUntilMarker_join (marker : Bytes) (chunks : List Bytes) (buffer : Bytes) :
    let o := readUntilMarker marker chunks buffer
    o.1 ++ o.2.flatten = buffer ++ chunks.flatten := by
  induction chunks generalizing buffer with
  | nil => simp [readUntilMarker]
  | cons c cs ih =>
    simp only [readUntilMarker]
    split_ifs with hc hm
    · simp [hc]
    · simp
    · simp [ih]

variable {x : Call} {chunks : List Bytes} {s t : PersistentShell}

lemma readUntilMarker_of_readsAll (h : x.readsAll chunks = true) :
    readUntilMarker (markerBytes x.marker) chunks [] = (chunks.flatten, []) := by
  simp only [Call.readsAll, Bool.and_eq_true, List.isEmpty_iff] at h
  have hjoin := readUntilMarker_join (markerBytes x.marker) chunks []
  simp only [h.1, List.flatten_nil, List.append_nil, List.nil_append] at hjoin
  exact Prod.ext hjoin h.1

/-- A call that reads its own frame only returns an own result, and closes the shell unless it
read the whole frame. -/
theorem answer_own (hall : x.readsAll chunks = true) (hpre : chunks.flatten <+: x.frame)
    (hwhole : contains (markerBytes x.marker) chunks.flatten = true → x.frame.length ≤ chunks.flatten.length) :
    x.Own (x.answer chunks).result ∧ ((x.answer chunks).closed = true ∨ chunks.flatten = x.frame) := by
  simp only [Call.answer, readUntilMarker_of_readsAll hall]
  by_cases hm : contains (markerBytes x.marker) chunks.flatten = true
  · have heq : chunks.flatten = x.frame := hpre.eq_of_length_le (hwhole hm)
    simp only [heq, parseOutput_frame]
    exact ⟨.inl (.inr rfl), .inr trivial⟩
  · have hnone : find (markerBytes x.marker) chunks.flatten = -1 := by
      rw [contains, Bool.not_eq_true, Option.isSome_eq_false_iff, Option.isNone_iff_eq_none] at hm
      rw [find, hm]
    have hshort : chunks.flatten.length < x.markerEnd := by
      rw [contains_marker_iff x hpre] at hm
      omega
    simp only [parseOutput, hnone, if_true]
    exact ⟨.inr ⟨_, hpre, hshort, rfl⟩, .inl trivial⟩

/-! ### Runs -/

/-- An open shell has nothing left to read, and every result so far is its call's own. -/
structure PersistentShell.Inv (s : PersistentShell) : Prop where
  drained : s.closed = false → s.stream = []
  own : s.Uncontaminated

lemma take_eq_some (h : s.take chunks = some t) :
    chunks.flatten <+: s.stream ∧ t = { s with stream := s.stream.drop chunks.flatten.length } := by
  simp only [PersistentShell.take, List.isPrefixOf_iff_prefix, Option.ite_none_right_eq_some, Option.some.injEq] at h
  exact ⟨h.1, h.2.symm⟩

lemma executeLocked_inv {waiting : List Call} {fate : Fate}
    (hs : s.Inv) (hw : s.waiting = x :: waiting) (hc : Contained s (.run fate))
    (h : PersistentShell.executeLocked { s with waiting := waiting } x fate = some t) : t.Inv := by
  simp only [Contained, hw] at hc
  cases fate with
  | writeRaises sent =>
    obtain rfl := Option.some.inj h
    cases sent with
    | false => exact ⟨hs.drained, hs.own⟩
    | true => exact ⟨fun hopen => absurd (hc hopen) (by decide), hs.own⟩
  | readRaises chunks =>
    obtain ⟨hpre, rfl⟩ := take_eq_some h
    refine ⟨fun hopen => ?_, hs.own⟩
    exact List.drop_of_length_le (hc hopen)
  | timesOut chunks =>
    obtain ⟨u, hu, rfl⟩ := Option.map_eq_some_iff.mp h
    obtain ⟨hpre, rfl⟩ := take_eq_some hu
    exact ⟨fun hopen => Bool.noConfusion hopen, hs.own⟩
  | completes chunks =>
    simp only [PersistentShell.executeLocked, Option.ite_none_right_eq_some] at h
    obtain ⟨hall, h⟩ := h
    obtain ⟨u, hu, rfl⟩ := Option.map_eq_some_iff.mp h
    obtain ⟨hpre, rfl⟩ := take_eq_some hu
    have hempty : s.stream = [] := by
      cases hopen : s.closed with
      | false => exact hs.drained hopen
      | true => exact hc.1 hopen
    simp only [PersistentShell.receive, hempty, List.nil_append] at hpre
    obtain ⟨hown, hclosed⟩ := answer_own hall hpre hc.2
    refine ⟨fun hopen => ?_, fun p hp => ?_⟩
    · simp only [Bool.or_eq_false_iff] at hopen
      rcases hclosed with hclosed | hwhole
      · simp [hclosed] at hopen
      · simp [PersistentShell.receive, hempty, hwhole]
    · rcases List.mem_append.mp hp with hp | hp
      · exact hs.own p hp
      · obtain rfl := List.mem_singleton.mp hp
        exact hown

lemma step_inv (e : Event) (hs : s.Inv) (hc : Contained s e) (h : s.step e = some t) : t.Inv := by
  cases e with
  | enter x =>
    obtain rfl := Option.some.inj h
    split_ifs
    · exact hs
    · exact ⟨hs.drained, hs.own⟩
  | cancelWaiting i =>
    obtain rfl := Option.some.inj h
    exact ⟨hs.drained, hs.own⟩
  | run fate =>
    cases hw : s.waiting with
    | nil => simp [PersistentShell.step, hw] at h
    | cons x waiting =>
      simp only [PersistentShell.step, hw] at h
      exact executeLocked_inv hs hw hc h

/-- While every step is contained, every result returned is its call's own. -/
theorem contained_uncontaminated {s : PersistentShell} (h : persistentShell.Reached Contained s) :
    s.Uncontaminated := by
  have hinit : PersistentShell.Inv {} := ⟨fun _ => rfl, fun p hp => absurd hp List.not_mem_nil⟩
  have hinv : s.Inv := h.invariant hinit fun _ e _ hs hc hstep => step_inv e hs hc hstep
  exact hinv.own

/-- A command still running when its caller gives up. -/
def slowCall : Call where
  command := ascii "cat secrets"
  marker := ⟨List.replicate 32 97, replicate_a⟩
  output := ascii "token"
  status := 3
  status_le := by decide
  fresh := by decide

def nextCall : Call where
  command := ascii "pwd"
  marker := ⟨List.replicate 32 98, replicate_token rfl⟩
  output := ascii "/srv"
  status := 0
  status_le := by decide
  fresh := by decide

/-- A command that completes, then one that times out and is still running. -/
theorem completed_then_timedOut_uncontaminated :
    ∃ s, persistentShell.Reached Contained s ∧ s.returned.length = 1 ∧ s.closed = true ∧
      s.stream ≠ [] ∧ s.Uncontaminated := by
  let r : Call × ShellResult := (nextCall, ⟨nextCall.command, nextCall.output, 0⟩)
  have h1 : persistentShell.Reached Contained ⟨false, [], [nextCall], []⟩ := .next (.enter nextCall) .start trivial rfl
  have h2 : persistentShell.Reached Contained ⟨false, [], [], [r]⟩ :=
    .next (.run (.completes [nextCall.frame])) h1 ⟨Bool.noConfusion, fun _ => by decide +kernel⟩
      (by decide +kernel)
  have h3 : persistentShell.Reached Contained ⟨false, [], [slowCall], [r]⟩ := .next (.enter slowCall) h2 trivial rfl
  have h4 : persistentShell.Reached Contained ⟨true, slowCall.frame, [], [r]⟩ :=
    .next (.run (.timesOut [])) h3 trivial (by decide +kernel)
  exact ⟨_, h4, rfl, rfl, by decide, contained_uncontaminated h4⟩

/-- The first call is cancelled while it reads. The second one is answered with the frame of the
first in front of its own output. -/
theorem cancelled_read_contaminates :
    ∃ s, persistentShell.runFrom {} [.enter slowCall, .run (.readRaises []), .enter nextCall,
        .run (.completes [slowCall.frame ++ nextCall.frame])] = some s ∧
      s.returned = [(nextCall, ⟨nextCall.command, slowCall.frame ++ nextCall.output, 0⟩)] ∧ ¬ s.Uncontaminated := by
  refine ⟨⟨false, [], [], [(nextCall, ⟨nextCall.command, slowCall.frame ++ nextCall.output, 0⟩)]⟩,
    by decide +kernel, rfl, fun h => ?_⟩
  rcases h _ (List.mem_singleton_self _) with hown | ⟨q, -, -, hlost⟩
  · revert hown
    simp only [Call.UpToNewline]
    decide +kernel
  · have hstatus : (0 : ℤ) = -1 := congrArg ShellResult.exitStatus hlost
    exact absurd hstatus (by decide)

end IncidentLens.Shell
