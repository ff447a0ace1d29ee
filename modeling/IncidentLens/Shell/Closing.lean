import IncidentLens.Shell.Session

/-!
# Closing a shell between the awaits of its calls

`execute` tests `_closed` when it is called and not again when it gets the lock, so that a
call may be anywhere between two awaits when `close` is called: waiting for the lock, with
its command on the way, or reading.
-/
namespace IncidentLens.Shell.Closing
open Data Effects PersistentShell

inductive Stage
  -- `process.write` has been called
  | writing
  -- in `_read_until_marker`
  | reading (buffer : Bytes)
  -- the read has timed out, and `process.close` has been called
  | abandoning
  deriving DecidableEq

/-- What `execute` does in the end; `lost` if it gave up on the frame. -/
inductive Outcome
  | returned (result : ShellResult) (lost : Bool)
  | raised
  deriving DecidableEq

/-- A call that has ended, after `close` was called or before. -/
structure Ended where
  call : Call
  outcome : Outcome
  closing : Bool
  deriving DecidableEq

/-- The shell with its calls. For each command given to `process.write` it is kept whether `close`
had been called. -/
structure PersistentShell where
  closed : Bool := false
  closing : Bool := false
  holder : Option (Call × Stage) := none
  waiting : List Call := []
  writes : List (Call × Bool) := []
  ended : List Ended := []
  deriving DecidableEq

inductive Event
  | enter (x : Call)
  -- the lock is given to the first call that waits
  | grant
  | written
  | writeRaises
  -- `process.read` returns, nothing at the end of the stream
  | chunk (bytes : Bytes)
  | readRaises
  | timesOut
  -- `process.close` returns or raises after a timeout
  | abandoned
  | cancelHolder
  | cancelWaiting (i : ℕ)
  | close

namespace PersistentShell

/-- `_execute_locked` up to its first await. -/
def acquire (s : PersistentShell) (x : Call) : PersistentShell :=
  { s with holder := some (x, .writing), writes := s.writes ++ [(x, s.closing)] }

def finish (s : PersistentShell) (x : Call) (outcome : Outcome) : PersistentShell :=
  { s with holder := none, ended := s.ended ++ [⟨x, outcome, s.closing⟩] }

def answer (s : PersistentShell) (x : Call) (output : Bytes) : PersistentShell :=
  let parsed := parseOutput output (markerBytes x.marker)
  { s with closed := s.closed || parsed.closed }.finish x
    (.returned ⟨x.command, cap parsed.stdout, parsed.exitStatus⟩ parsed.closed)

def step (s : PersistentShell) : Event → Option PersistentShell
  | .enter x =>
    if s.closed then some { s with ended := s.ended ++ [⟨x, .raised, s.closing⟩] }
    else if s.holder = none ∧ s.waiting = [] then some (s.acquire x)
    else some { s with waiting := s.waiting ++ [x] }
  | .grant => match s.holder, s.waiting with
    | none, x :: waiting => some (acquire { s with waiting := waiting } x)
    | _, _ => none
  | .written => match s.holder with
    | some (x, .writing) => some { s with holder := some (x, .reading []) }
    | _ => none
  | .writeRaises => match s.holder with
    | some (x, .writing) => some (s.finish x .raised)
    | _ => none
  | .chunk bytes => match s.holder with
    | some (x, .reading buffer) =>
      if bytes = [] then some (s.answer x buffer)
      else if contains (markerBytes x.marker) (buffer ++ bytes) then some (s.answer x (buffer ++ bytes))
      else some { s with holder := some (x, .reading (buffer ++ bytes)) }
    | _ => none
  | .readRaises => match s.holder with
    | some (x, .reading _) => some (s.finish x .raised)
    | _ => none
  | .timesOut => match s.holder with
    | some (x, .reading _) => some { s with closed := true, holder := some (x, .abandoning) }
    | _ => none
  | .abandoned => match s.holder with
    | some (x, .abandoning) => some (s.finish x .raised)
    | _ => none
  | .cancelHolder => s.holder.map fun (x, _) => s.finish x .raised
  | .cancelWaiting i => (s.waiting[i]?).map fun x =>
    { s with waiting := s.waiting.eraseIdx i, ended := s.ended ++ [⟨x, .raised, s.closing⟩] }
  | .close => some { s with closed := true, closing := true }

end PersistentShell

def persistentShell : System PersistentShell Event := ⟨{}, PersistentShell.step⟩

/-- The steps that end calls without any output of the process. -/
def Event.silent : Event → Bool
  | .grant | .written | .timesOut | .abandoned => true
  | _ => false

/-- All calls can end although the process writes nothing more. -/
def PersistentShell.Ends (s : PersistentShell) : Prop :=
  ∃ es t, (∀ e ∈ es, e.silent = true) ∧ persistentShell.runFrom s es = some t ∧ t.holder = none ∧ t.waiting = []

/-- No command is written once `close` has been called, what ends from then on without its frame
raises, and on a closed shell no call waits for output for ever. -/
structure PersistentShell.Shut (s : PersistentShell) : Prop where
  writes : ∀ w ∈ s.writes, w.2 = false
  ended : ∀ e ∈ s.ended, e.closing = true → e.outcome = .raised ∨ ∃ result, e.outcome = .returned result false
  ends : s.closed = true → s.Ends

/-- `close` is called while no call waits for the lock; after it a read in progress does not meet the
end of the stream, and the marker arrives with its status line. -/
def Orderly (s : PersistentShell) : Event → Prop
  | .close => s.waiting = []
  | .chunk bytes => s.closing = true → ∀ x buffer, s.holder = some (x, .reading buffer) → bytes ≠ [] ∧
      (contains (markerBytes x.marker) (buffer ++ bytes) = true →
        (parseOutput (buffer ++ bytes) (markerBytes x.marker)).closed = false)
  | _ => True

/-! ### Ending without output -/

variable {e : Event}

lemma runFrom_cons {s t : PersistentShell} (h : s.step e = some t) (es : List Event) :
    persistentShell.runFrom s (e :: es) = persistentShell.runFrom t es := by
  change (s.step e).bind _ = _
  rw [h]
  rfl

lemma PersistentShell.Ends.cons {s t : PersistentShell} (ht : t.Ends) (he : e.silent = true)
    (h : s.step e = some t) : s.Ends := by
  obtain ⟨es, u, hes, hrun, hend⟩ := ht
  exact ⟨e :: es, u, List.forall_mem_cons.mpr ⟨he, hes⟩, (runFrom_cons h es).trans hrun, hend⟩

lemma PersistentShell.ends_of_free (s : PersistentShell) (hfree : s.holder = none) : s.Ends := by
  obtain ⟨closed, closing, holder, waiting, writes, ended⟩ := s
  obtain rfl : holder = none := hfree
  induction waiting generalizing closed writes ended with
  | nil => exact ⟨[], _, by simp, rfl, rfl, rfl⟩
  | cons x waiting ih =>
    have hlast := ih true (writes ++ [(x, closing)]) (ended ++ [⟨x, .raised, closing⟩])
    exact (((hlast.cons (e := .abandoned) rfl rfl).cons (e := .timesOut) rfl rfl).cons (e := .written) rfl rfl).cons
      (e := .grant) rfl rfl

lemma PersistentShell.ends (s : PersistentShell) : s.Ends := by
  cases hholder : s.holder with
  | none => exact s.ends_of_free hholder
  | some pair =>
    obtain ⟨x, stage⟩ := pair
    have hlast : ∀ s : PersistentShell, s.holder = some (x, .abandoning) → s.Ends := by
      intro s h
      have hstep : s.step .abandoned = some (s.finish x .raised) := by simp only [step, h]
      exact (ends_of_free _ rfl).cons (e := .abandoned) rfl hstep
    have hread : ∀ (s : PersistentShell) buffer, s.holder = some (x, .reading buffer) → s.Ends := by
      intro s buffer h
      have hstep : s.step .timesOut = some { s with closed := true, holder := some (x, .abandoning) } := by
        simp only [step, h]
      exact (hlast _ rfl).cons (e := .timesOut) rfl hstep
    cases stage with
    | writing =>
      have hstep : s.step .written = some { s with holder := some (x, .reading []) } := by simp only [step, hholder]
      exact (hread _ [] rfl).cons (e := .written) rfl hstep
    | reading buffer => exact hread s buffer hholder
    | abandoning => exact hlast s hholder

/-! ### Orderly runs -/

structure PersistentShell.Inv (s : PersistentShell) : Prop where
  closed : s.closing = true → s.closed = true
  alone : s.closing = true → s.waiting = []
  writes : ∀ w ∈ s.writes, w.2 = false
  ended : ∀ e ∈ s.ended, e.closing = true → e.outcome = .raised ∨ ∃ result, e.outcome = .returned result false

variable {s t : PersistentShell} {x : Call}

lemma PersistentShell.Inv.acquire (h : s.Inv) (hopen : s.closing = false) : (s.acquire x).Inv := by
  refine ⟨h.closed, h.alone, ?_, h.ended⟩
  intro w hw
  rcases List.mem_append.mp hw with hw | hw
  · exact h.writes w hw
  · rw [List.mem_singleton.mp hw]
    exact hopen

lemma PersistentShell.Inv.set (h : s.Inv) (b : Bool) (holder : Option (Call × Stage)) :
    ({ s with closed := s.closed || b, holder := holder } : PersistentShell).Inv :=
  ⟨fun hclosing => Bool.or_eq_true_iff.mpr (.inl (h.closed hclosing)), h.alone, h.writes, h.ended⟩

lemma PersistentShell.Inv.record {outcome : Outcome} (h : s.Inv)
    (hend : s.closing = true → outcome = .raised ∨ ∃ result, outcome = .returned result false) :
    ({ s with ended := s.ended ++ [⟨x, outcome, s.closing⟩] } : PersistentShell).Inv := by
  refine ⟨h.closed, h.alone, h.writes, ?_⟩
  intro e he
  rcases List.mem_append.mp he with he | he
  · exact h.ended e he
  · rw [List.mem_singleton.mp he]
    exact hend

lemma PersistentShell.Inv.raised (h : s.Inv) (x : Call) : (s.finish x .raised).Inv := by
  have hset := h.set false none
  rw [Bool.or_false] at hset
  exact hset.record fun _ => .inl rfl

lemma PersistentShell.Inv.answer {output : Bytes} (h : s.Inv)
    (hwhole : s.closing = true → (parseOutput output (markerBytes x.marker)).closed = false) :
    (s.answer x output).Inv := by
  refine (h.set (parseOutput output (markerBytes x.marker)).closed none).record fun hclosing => .inr ?_
  rw [hwhole hclosing]
  exact ⟨_, rfl⟩

lemma PersistentShell.Inv.chunk {bytes : Bytes} (h : s.Inv) (horderly : Orderly s (.chunk bytes))
    (hstep : s.step (.chunk bytes) = some t) : t.Inv := by
  simp only [step] at hstep
  split at hstep
  · rename_i x buffer hholder
    have hwhole : s.closing = true → bytes ≠ [] ∧ _ := fun hclosing => horderly hclosing x buffer hholder
    split_ifs at hstep with hempty hmarker
    · obtain rfl := Option.some.inj hstep
      exact h.answer fun hclosing => absurd hempty (hwhole hclosing).1
    · obtain rfl := Option.some.inj hstep
      exact h.answer fun hclosing => (hwhole hclosing).2 hmarker
    · obtain rfl := Option.some.inj hstep
      exact ⟨h.closed, h.alone, h.writes, h.ended⟩
  · cases hstep

lemma PersistentShell.Inv.grant (h : s.Inv) (hstep : s.step .grant = some t) : t.Inv := by
  simp only [step] at hstep
  split at hstep
  · rename_i x waiting _ hwaiting
    obtain rfl := Option.some.inj hstep
    have hopen : s.closing = false := by
      rw [Bool.eq_false_iff]
      intro hclosing
      rw [h.alone hclosing] at hwaiting
      cases hwaiting
    have hrest : ({ s with waiting := waiting } : PersistentShell).Inv :=
      ⟨h.closed, fun hclosing => absurd hclosing (by rw [hopen]; exact Bool.false_ne_true), h.writes, h.ended⟩
    exact hrest.acquire hopen
  · cases hstep

lemma PersistentShell.Inv.step (h : s.Inv) (horderly : Orderly s e) (hstep : s.step e = some t) : t.Inv := by
  cases e with
  | enter x =>
    simp only [PersistentShell.step] at hstep
    split_ifs at hstep with hclosed hfree
    · obtain rfl := Option.some.inj hstep
      exact h.record fun _ => .inl rfl
    · obtain rfl := Option.some.inj hstep
      exact h.acquire (Bool.eq_false_iff.mpr fun hclosing => hclosed (h.closed hclosing))
    · obtain rfl := Option.some.inj hstep
      exact ⟨h.closed, fun hclosing => absurd (h.closed hclosing) hclosed, h.writes, h.ended⟩
  | grant => exact h.grant hstep
  | chunk bytes => exact h.chunk horderly hstep
  | written =>
    simp only [PersistentShell.step] at hstep
    split at hstep
    · obtain rfl := Option.some.inj hstep
      exact ⟨h.closed, h.alone, h.writes, h.ended⟩
    · cases hstep
  | timesOut =>
    simp only [PersistentShell.step] at hstep
    split at hstep
    · obtain rfl := Option.some.inj hstep
      exact ⟨fun _ => rfl, h.alone, h.writes, h.ended⟩
    · cases hstep
  | cancelHolder =>
    obtain ⟨⟨x, stage⟩, -, rfl⟩ := Option.map_eq_some_iff.mp hstep
    exact h.raised x
  | cancelWaiting i =>
    obtain ⟨x, hx, rfl⟩ := Option.map_eq_some_iff.mp hstep
    have hrest : ({ s with waiting := s.waiting.eraseIdx i } : PersistentShell).Inv := by
      refine ⟨h.closed, fun hclosing => ?_, h.writes, h.ended⟩
      change s.waiting.eraseIdx i = []
      rw [h.alone hclosing, List.eraseIdx_nil]
    exact hrest.record fun _ => .inl rfl
  | close =>
    obtain rfl := Option.some.inj hstep
    exact ⟨fun _ => rfl, fun _ => horderly, h.writes, h.ended⟩
  | writeRaises | readRaises | abandoned =>
    simp only [PersistentShell.step] at hstep
    split at hstep
    · obtain rfl := Option.some.inj hstep
      exact h.raised _
    · cases hstep

/-- While every step is orderly, nothing is sent to a closed shell and no call is left with half a frame. -/
theorem orderly_shut {s : PersistentShell} (h : persistentShell.Reached Orderly s) : s.Shut := by
  have hinit : PersistentShell.Inv {} := ⟨Bool.noConfusion, fun _ => rfl, by rintro w ⟨⟩, by rintro e ⟨⟩⟩
  have hinv : s.Inv := h.invariant hinit fun _ _ _ hs horderly hstep => hs.step horderly hstep
  exact ⟨hinv.writes, hinv.ended, fun _ => s.ends⟩

/-- `close` is called while a command is being read, which then comes whole. -/
theorem closed_while_reading_shut : ∃ s, persistentShell.Reached Orderly s ∧ s.closing = true ∧
      s.ended = [⟨nextCall, .returned ⟨nextCall.command, nextCall.output, 0⟩ false, true⟩, ⟨slowCall, .raised, true⟩] ∧
      s.Shut := by
  have h1 : persistentShell.Reached Orderly ⟨false, false, some (nextCall, .writing), [], [(nextCall, false)], []⟩ :=
    .next (.enter nextCall) .start trivial rfl
  have h2 : persistentShell.Reached Orderly ⟨false, false, some (nextCall, .reading []), [], [(nextCall, false)], []⟩ :=
    .next .written h1 trivial rfl
  have h3 : persistentShell.Reached Orderly ⟨true, true, some (nextCall, .reading []), [], [(nextCall, false)], []⟩ :=
    .next .close h2 rfl rfl
  have h4 : persistentShell.Reached Orderly ⟨true, true, none, [], [(nextCall, false)],
      [⟨nextCall, .returned ⟨nextCall.command, nextCall.output, 0⟩ false, true⟩]⟩ := by
    refine .next (.chunk nextCall.frame) h3 ?_ (by decide +kernel)
    rintro - x buffer hholder
    obtain ⟨rfl, hstage⟩ := Prod.mk.inj (Option.some.inj hholder)
    obtain rfl := Stage.reading.inj hstage
    exact ⟨by decide, fun _ => by decide +kernel⟩
  have h5 : persistentShell.Reached Orderly ⟨true, true, none, [], [(nextCall, false)],
      [⟨nextCall, .returned ⟨nextCall.command, nextCall.output, 0⟩ false, true⟩, ⟨slowCall, .raised, true⟩]⟩ :=
    .next (.enter slowCall) h4 trivial rfl
  exact ⟨_, h5, rfl, rfl, orderly_shut h5⟩

/-- `close` is called while one call reads and one waits: the first returns what it has with the
end of the stream, and then the command of the second is written. -/
theorem closed_while_waiting_not_shut :
    ∃ s, persistentShell.runFrom {} [.enter slowCall, .written, .enter nextCall, .close, .chunk [], .grant] = some s ∧
      s.closing = true ∧ s.writes = [(slowCall, false), (nextCall, true)] ∧
      s.ended = [⟨slowCall, .returned ⟨slowCall.command, [], -1⟩ true, true⟩] ∧ ¬ s.Shut := by
  refine ⟨⟨true, true, some (nextCall, .writing), [], [(slowCall, false), (nextCall, true)],
    [⟨slowCall, .returned ⟨slowCall.command, [], -1⟩ true, true⟩]⟩, by decide +kernel, rfl, rfl, rfl, fun h => ?_⟩
  exact absurd (h.writes (nextCall, true) (by simp)) Bool.noConfusion

end IncidentLens.Shell.Closing
