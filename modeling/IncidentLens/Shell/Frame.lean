import IncidentLens.Data.Bytes
import Mathlib

/-!
# Framed commands on a persistent shell

One process serves all commands of a session. Each command is sent with a printed marker
line behind it, and its output is what the process wrote before that line. The process
answers in read chunks of its own choosing: the reader joins chunks until the marker is in
its buffer, and parses the buffer.
-/
namespace IncidentLens.Shell
open Data
open List hiding contains

/-- `_MAX_OUTPUT_SIZE`, 2 MiB. -/
def maxOutputSize : ℕ := 2 * 1024 * 1024

def newline : UInt8 := 10
def colon : UInt8 := 58

def isHexDigit (b : UInt8) : Bool := (48 ≤ b && b ≤ 57) || (97 ≤ b && b ≤ 102)

/-- What `secrets.token_hex(16)` returns. -/
def Token := {t : Bytes // t.length = 32 ∧ ∀ b ∈ t, isHexDigit b = true}

lemma replicate_token {b : UInt8} (h : isHexDigit b = true) :
    (replicate 32 b).length = 32 ∧ ∀ c ∈ replicate 32 b, isHexDigit c = true := by
  refine ⟨length_replicate, ?_⟩
  intro c hc
  rwa [eq_of_mem_replicate hc]

lemma replicate_a : (replicate 32 (97 : UInt8)).length = 32 ∧ ∀ c ∈ replicate 32 (97 : UInt8), isHexDigit c = true :=
  replicate_token rfl

instance : DecidableEq Token := inferInstanceAs (DecidableEq {_t : Bytes // _})

def markerBytes (marker : Token) : Bytes := ascii "__INCIDENTLENS_END_" ++ marker.val ++ ascii "__"

/-- The text written to the process for one command. -/
def framedCommand (command : Bytes) (marker : Token) : Bytes :=
  command ++ ascii "\n" ++
  ascii "__incidentlens_status=$?\n" ++
  ascii "printf '\\n" ++ markerBytes marker ++ ascii ":%s\\n' \"$__incidentlens_status\"\n"

/-- Result of a shell command execution. -/
structure ShellResult where
  command : Bytes
  stdout : Bytes
  exitStatus : ℤ
  deriving DecidableEq

/-- `stdout[:-1]` when it ends with a newline. -/
def dropNewline (stdout : Bytes) : Bytes := if stdout.getLast? = some newline then stdout.dropLast else stdout

/-- Exit status behind the marker, `none` where the code gives up on the frame. -/
def parseStatus (afterMarker : Bytes) : Option ℤ :=
  let colonIdx := find [colon] afterMarker
  if colonIdx = -1 then none
  else int? (strip (slice afterMarker (colonIdx + 1) (find [newline] afterMarker)))

/-- What `_parse_output` answers, and whether it marked the shell closed. -/
structure Parsed where
  stdout : Bytes
  exitStatus : ℤ
  closed : Bool
  deriving DecidableEq

def parseOutput (output marker : Bytes) : Parsed :=
  let markerIdx := find marker output
  if markerIdx = -1 then ⟨output, -1, true⟩
  else match parseStatus (sliceFrom output (markerIdx + marker.length)) with
    | none => ⟨output, -1, true⟩
    | some exitStatus =>
      let headerEnd := rfind newline (sliceTo output markerIdx)
      let stdout := if headerEnd ≠ -1 then sliceTo output headerEnd else []
      ⟨dropNewline stdout, exitStatus, false⟩

/-- Join chunks until the marker is in the buffer, or the stream ends (an empty chunk, or no
chunk left). The second component is what stays unread. -/
def readUntilMarker (marker : Bytes) : List Bytes → Bytes → Bytes × List Bytes
  | [], buffer => (buffer, [])
  | chunk :: unread, buffer =>
    if chunk = [] then (buffer, unread)
    else if contains marker (buffer ++ chunk) then (buffer ++ chunk, unread)
    else readUntilMarker marker unread (buffer ++ chunk)

/-- The line the process prints behind the marker. -/
def statusLine (status : ℕ) : Bytes := colon :: decimal status ++ [newline]

def frame (marker : Token) (output : Bytes) (status : ℕ) : Bytes :=
  output ++ newline :: markerBytes marker ++ statusLine status

/-- One command of a session, with the marker drawn for it and the reaction of the remote
process: any output without the marker and any exit status. -/
structure Call where
  command : Bytes
  marker : Token
  output : Bytes
  status : ℕ
  status_le : status ≤ 255
  fresh : ¬ markerBytes marker <:+: output
  deriving DecidableEq

/-- The bytes the process writes for the command. -/
def Call.frame (x : Call) : Bytes := Shell.frame x.marker x.output x.status

/-- A command together with a split of its frame into read chunks. -/
structure Exchange extends Call where
  chunks : List Bytes
  split : chunks.flatten = toCall.frame
  nonempty : ∀ c ∈ chunks, c ≠ []
  size_le : ∀ c ∈ chunks, c.length ≤ 4096

/-- The 2 MiB cap on a command's output. -/
def cap (stdout : Bytes) : Bytes := if stdout.length > maxOutputSize then stdout.take maxOutputSize else stdout

/-- The outcome of reading and parsing: the result, whether the shell was marked closed, and
the chunks that were not read. -/
structure Answer where
  result : ShellResult
  closed : Bool
  unread : List Bytes
  deriving DecidableEq

/-- What `_execute_locked` does after the command was written. -/
def Call.answer (x : Call) (chunks : List Bytes) : Answer :=
  let (output, unread) := readUntilMarker (markerBytes x.marker) chunks []
  let parsed := parseOutput output (markerBytes x.marker)
  ⟨⟨x.command, cap parsed.stdout, parsed.exitStatus⟩, parsed.closed, unread⟩

inductive ShellError
  | shellClosed
  deriving DecidableEq

/-- State of a `PersistentShell` and of the channel behind it. -/
structure Session where
  closed : Bool := false
  unread : List Bytes := []
  sent : List Bytes := []
  deriving DecidableEq

/-- The process receives a framed command and answers with the exchange's chunks. -/
def Session.write (s : Session) (x : Exchange) : Session :=
  { s with
    unread := s.unread ++ x.chunks
    sent := s.sent ++ [framedCommand x.command x.marker] }

/-- One uninterrupted `execute`. -/
def Session.execute (s : Session) (x : Exchange) : Session × Except ShellError ShellResult :=
  if s.closed then (s, .error .shellClosed)
  else
    let s := s.write x
    let a := x.answer s.unread
    ({ s with closed := s.closed || a.closed, unread := a.unread }, .ok a.result)

/-! ### The marker is found where the frame put it -/

lemma newline_not_mem_marker (marker : Token) : newline ∉ markerBytes marker := by
  intro h
  simp only [markerBytes, mem_append] at h
  rcases h with (h | h) | h
  · revert h; decide
  · exact absurd (marker.property.2 _ h) (by decide)
  · revert h; decide

lemma find?_marker_frame (x : Call) : find? (markerBytes x.marker) x.frame = some (x.output.length + 1) :=
  find?_after_separator (newline_not_mem_marker x.marker) x.fresh

def Call.markerEnd (x : Call) : ℕ := x.output.length + 1 + (markerBytes x.marker).length

lemma Call.markerEnd_lt (x : Call) : x.markerEnd < (x.frame).length := by
  simp only [markerEnd, frame, Shell.frame, statusLine, length_append, length_cons]
  omega

lemma contains_marker_iff (x : Call) {q : Bytes} (hq : q <+: x.frame) :
    contains (markerBytes x.marker) q = true ↔ x.markerEnd ≤ q.length := by
  rw [contains, find?_prefix (find?_marker_frame x) hq, Call.markerEnd]
  split_ifs with h <;> simp [h]

/-! ### Reading and parsing one frame -/

/-- The chunk that completes the marker carries the rest of the frame too: everything before
the last chunk ends before the marker does. -/
def Call.Delivered (x : Call) (chunks : List Bytes) : Prop := chunks.dropLast.flatten.length < x.markerEnd

instance (x : Call) (chunks : List Bytes) : Decidable (x.Delivered chunks) := inferInstanceAs (Decidable (_ < _))

/-- The reader stops with a prefix of the frame that reaches the marker's end, and nothing is
left exactly when the last chunk completed the marker. -/
theorem readUntilMarker_frame (x : Call) (cs : List Bytes) (buffer : Bytes)
    (hframe : buffer ++ cs.flatten = x.frame)
    (hne : ∀ c ∈ cs, c ≠ []) (hshort : buffer.length < x.markerEnd) :
    let o := readUntilMarker (markerBytes x.marker) cs buffer
    o.1 ++ o.2.flatten = x.frame ∧ x.markerEnd ≤ o.1.length ∧
      o.2 <:+ cs ∧ (o.2 = [] ↔ buffer.length + cs.dropLast.flatten.length < x.markerEnd) := by
  induction cs generalizing buffer with
  | nil =>
    have hlen := x.markerEnd_lt
    rw [← hframe] at hlen
    simp only [flatten_nil, append_nil] at hlen
    omega
  | cons c cs ih =>
    have hc : c ≠ [] := hne c (by simp)
    have hframe' : (buffer ++ c) ++ cs.flatten = x.frame := by rw [← hframe]; simp
    have hpre : buffer ++ c <+: x.frame := ⟨_, hframe'⟩
    simp only [readUntilMarker, hc, if_false]
    split_ifs with hm
    · rw [contains_marker_iff x hpre] at hm
      refine ⟨hframe', hm, suffix_cons c cs, ?_⟩
      cases cs with
      | nil => simp [hshort]
      | cons d ds =>
        simp only [length_append] at hm
        simp only [dropLast_cons_cons, flatten_cons, length_append, reduceCtorEq, false_iff]
        omega
    · rw [contains_marker_iff x hpre] at hm
      obtain ⟨hjoin, hreach, hsuffix, hrest⟩ := ih (buffer ++ c) hframe' (fun d hd => hne d (by simp [hd])) (by omega)
      refine ⟨hjoin, hreach, hsuffix.trans (suffix_cons c cs), hrest.trans ?_⟩
      cases cs with
      | nil =>
        have hlen := x.markerEnd_lt
        rw [← hframe'] at hlen
        simp only [flatten_nil, append_nil] at hlen
        omega
      | cons d ds => simp [Nat.add_assoc]

lemma readUntilMarker_chunks (x : Call) (chunks : List Bytes) (hsplit : chunks.flatten = x.frame)
    (hne : ∀ c ∈ chunks, c ≠ []) :
    let o := readUntilMarker (markerBytes x.marker) chunks []
    o.1 <+: x.frame ∧ x.markerEnd ≤ o.1.length ∧ (o.2 = [] ↔ x.Delivered chunks) ∧
      (o.1 = x.frame ↔ x.Delivered chunks) := by
  obtain ⟨hjoin, hreach, hsuffix, hrest⟩ := readUntilMarker_frame x chunks []
    (by simpa using hsplit) hne (by simp [Call.markerEnd])
  rw [length_nil, Nat.zero_add] at hrest
  refine ⟨⟨_, hjoin⟩, hreach, hrest, ?_⟩
  rw [Call.Delivered, ← hrest]
  constructor
  · intro hall
    rw [hall, append_right_eq_self, flatten_eq_nil_iff] at hjoin
    exact eq_nil_iff_forall_not_mem.mpr fun c hc =>
      hne c (hsuffix.subset hc) (hjoin c hc)
  · intro hnil
    rwa [hnil, flatten_nil, append_nil] at hjoin

lemma parseStatus_statusLine {n : ℕ} (h : n ≤ 255) : parseStatus (statusLine n) = some (n : ℤ) := by
  have hall : ∀ n : Fin 256, parseStatus (statusLine n) = some ((n : ℕ) : ℤ) := by decide +kernel
  exact hall ⟨n, by omega⟩

lemma parseStatus_cut {n k : ℕ} (h : n ≤ 255) (hk : k < (statusLine n).length) :
    parseStatus ((statusLine n).take k) ≠ some (n : ℤ) := by
  have hall : ∀ n : Fin 256, ∀ k : Fin (statusLine n).length,
      parseStatus ((statusLine n).take k) ≠ some ((n : ℕ) : ℤ) := by decide +kernel
  exact hall ⟨n, by omega⟩ ⟨k, hk⟩

/-- The parser's answer once the marker has arrived: the status decides, and the output is the
command's without one trailing newline. -/
theorem parseOutput_marker (x : Call) (rest : Bytes) :
    parseOutput (x.output ++ newline :: markerBytes x.marker ++ rest) (markerBytes x.marker) =
      match parseStatus rest with
      | none => ⟨x.output ++ newline :: markerBytes x.marker ++ rest, -1, true⟩
      | some exitStatus => ⟨dropNewline x.output, exitStatus, false⟩ := by
  have hfind : find (markerBytes x.marker) (x.output ++ newline :: markerBytes x.marker ++ rest) =
      ((x.output.length + 1 : ℕ) : ℤ) := by
    rw [find, find?_after_separator (newline_not_mem_marker x.marker) x.fresh]
  have hafter : sliceFrom (x.output ++ newline :: markerBytes x.marker ++ rest)
      (((x.output.length + 1 : ℕ) : ℤ) + (markerBytes x.marker).length) = rest := by
    rw [← Nat.cast_add, sliceFrom_natCast]
    exact drop_left' (by simp; omega)
  have hheader : rfind newline (sliceTo (x.output ++ newline :: markerBytes x.marker ++ rest)
      ((x.output.length + 1 : ℕ) : ℤ)) = (x.output.length : ℤ) := by
    have htake : (x.output ++ newline :: markerBytes x.marker ++ rest).take (x.output.length + 1) =
        x.output ++ newline :: [] := by
      simp [take_append, take_of_length_le]
    rw [sliceTo_natCast, htake, rfind, rfind?_append_cons_of_not_mem (by simp)]
  have hstdout : sliceTo (x.output ++ newline :: markerBytes x.marker ++ rest)
      (x.output.length : ℤ) = x.output := by
    simp
  have hne : ((x.output.length + 1 : ℕ) : ℤ) ≠ -1 := by omega
  have hne' : ((x.output.length : ℕ) : ℤ) ≠ -1 := by omega
  simp only [parseOutput, hfind, hne, if_false, hafter]
  cases parseStatus rest with
  | none => rfl
  | some exitStatus =>
    simp only [hheader, hne', hstdout, ne_eq, not_false_eq_true, if_true]

lemma parseOutput_frame (x : Call) : parseOutput (x.frame) (markerBytes x.marker) =
      ⟨dropNewline x.output, x.status, false⟩ := by
  rw [Call.frame, frame, parseOutput_marker, parseStatus_statusLine x.status_le]

lemma parseOutput_cut (x : Call) {q : Bytes} (hq : q <+: x.frame) (hend : x.markerEnd ≤ q.length)
    (hcut : q ≠ x.frame) : (parseOutput q (markerBytes x.marker)).exitStatus ≠ x.status := by
  have hlt : q.length < (x.frame).length := lt_of_le_of_ne hq.length_le fun h => hcut (hq.eq_of_length h)
  have hsplit : q = x.output ++ newline :: markerBytes x.marker ++
      (statusLine x.status).take (q.length - x.markerEnd) := by
    have htake := prefix_iff_eq_take.mp hq
    have hlen : (x.output ++ newline :: markerBytes x.marker).length = x.markerEnd := by
      simp only [Call.markerEnd, length_append, length_cons]
      omega
    rw [htake, length_take, Nat.min_eq_left hlt.le, Call.frame, frame, take_append, hlen, take_of_length_le (by omega)]
  have hk : q.length - x.markerEnd < (statusLine x.status).length := by
    simp only [Call.frame, frame, length_append, length_cons] at hlt
    simp only [Call.markerEnd] at hend ⊢
    omega
  have hstatus := parseStatus_cut x.status_le hk
  rw [hsplit, parseOutput_marker]
  cases hp : parseStatus ((statusLine x.status).take (q.length - x.markerEnd)) with
  | none =>
    change (-1 : ℤ) ≠ x.status
    omega
  | some exitStatus =>
    rw [hp] at hstatus
    exact fun h => hstatus (congrArg some h)

/-- A delivered frame is read whole and parses to the command's own output, up to a trailing
newline, and status. -/
theorem answer_delivered (x : Call) (chunks : List Bytes) (hsplit : chunks.flatten = x.frame)
    (hne : ∀ c ∈ chunks, c ≠ []) (hx : x.Delivered chunks) :
    x.answer chunks = ⟨⟨x.command, cap (dropNewline x.output), x.status⟩, false, []⟩ := by
  obtain ⟨-, -, hrest, hall⟩ := readUntilMarker_chunks x chunks hsplit hne
  simp only [Call.answer, hall.mpr hx, hrest.mpr hx, parseOutput_frame]

lemma answer_not_delivered (x : Call) (chunks : List Bytes) (hsplit : chunks.flatten = x.frame)
    (hne : ∀ c ∈ chunks, c ≠ []) (hx : ¬ x.Delivered chunks) : (x.answer chunks).result.exitStatus ≠ x.status := by
  obtain ⟨hpre, hreach, -, hall⟩ := readUntilMarker_chunks x chunks hsplit hne
  exact parseOutput_cut x hpre hreach (mt hall.mp hx)

/-! ### Sequences of commands -/

/-- The result is the command's own, byte for byte. -/
def Call.Exact (x : Call) (r : ShellResult) : Prop := r = ⟨x.command, cap x.output, x.status⟩

/-- The result is the command's own, except that one trailing newline may be missing. -/
def Call.UpToNewline (x : Call) (r : ShellResult) : Prop :=
  r = ⟨x.command, cap x.output, x.status⟩ ∨ r = ⟨x.command, cap (dropNewline x.output), x.status⟩

/-- Every command of the sequence returns a result that is its own in the sense of `own`, and
leaves nothing unread behind. -/
def Framed (own : Call → ShellResult → Prop) (s : Session) : List Exchange → Prop
  | [] => True
  | x :: xs => (∃ r, (s.execute x).2 = .ok r ∧ own x.toCall r) ∧ (s.execute x).1.unread = [] ∧
      Framed own (s.execute x).1 xs

/-- A session on which the next command starts: open, with nothing left to read. -/
structure Session.Clean (s : Session) : Prop where
  opened : s.closed = false
  drained : s.unread = []

lemma execute_clean {s : Session} (hs : s.Clean) (x : Exchange) :
    s.execute x = (⟨(x.answer x.chunks).closed, (x.answer x.chunks).unread,
      s.sent ++ [framedCommand x.command x.marker]⟩, .ok (x.answer x.chunks).result) := by
  simp [Session.execute, Session.write, hs.opened, hs.drained]

lemma cap_dropNewline_eq_iff (output : Bytes) : cap (dropNewline output) = cap output ↔
      output.getLast? ≠ some newline ∨ maxOutputSize < output.length := by
  unfold dropNewline
  split_ifs with hlast
  · obtain ⟨t, rfl⟩ := getLast?_eq_some_iff.mp hlast
    simp only [dropLast_concat, hlast, ne_eq, not_true_eq_false, false_or, length_append, length_singleton, cap]
    split_ifs with h1 h2 h2
    · simp only [take_append_of_le_length h1.le, true_iff]
      omega
    · omega
    · rw [take_append_of_le_length (by omega), take_of_length_le (by omega)]
      simp only [true_iff]
      omega
    · simp only [self_eq_append_right, cons_ne_self, false_iff]
      omega
  · simp [hlast]

/-- From a clean session, the results are the commands' own exactly when every frame is
delivered and `own` tolerates what the parser strips. -/
theorem framed_iff (own : Call → ShellResult → Prop)
    (hstatus : ∀ x r, own x r → r.exitStatus = x.status) {s : Session} (hs : s.Clean) (xs : List Exchange) :
    Framed own s xs ↔ ∀ x ∈ xs, x.Delivered x.chunks ∧
      own x.toCall ⟨x.command, cap (dropNewline x.output), x.status⟩ := by
  induction xs generalizing s with
  | nil => simp [Framed]
  | cons x xs ih =>
    rw [Framed, forall_mem_cons, execute_clean hs]
    by_cases hx : x.Delivered x.chunks
    · simp only [answer_delivered x.toCall x.chunks x.split x.nonempty hx]
      rw [ih ⟨rfl, rfl⟩]
      simp [hx]
    · refine ⟨fun ⟨⟨r, hr, hown⟩, _⟩ => ?_, fun h => absurd h.1.1 hx⟩
      obtain rfl := Except.ok.inj hr
      exact absurd (hstatus _ _ hown) (answer_not_delivered _ _ x.split x.nonempty hx)

/-- Persistent-shell framing: on a fresh session every command gets its own output and status,
and nothing of its frame is left unread, exactly when the read chunk that completes the
marker always carries the whole status line. The output is exact to the byte when moreover
no output of at most 2 MiB ends with a newline of its own. -/
theorem execute_framed_iff (xs : List Exchange) : (Framed Call.UpToNewline {} xs ↔ ∀ x ∈ xs, x.Delivered x.chunks) ∧
      (Framed Call.Exact {} xs ↔ ∀ x ∈ xs, x.Delivered x.chunks ∧
        (x.output.getLast? ≠ some newline ∨ maxOutputSize < x.output.length)) := by
  have hs : Session.Clean {} := ⟨rfl, rfl⟩
  constructor
  · rw [framed_iff _ (by rintro x r (rfl | rfl) <;> rfl) hs]
    simp [Call.UpToNewline]
  · rw [framed_iff _ (by rintro x r rfl; rfl) hs]
    simp [Call.Exact, ShellResult.mk.injEq, cap_dropNewline_eq_iff]

/-- `exit 12` without output, whose frame arrives in two reads: the last one holds only the
final newline. -/
def splitStatus : Exchange where
  command := ascii "exit 12"
  marker := ⟨replicate 32 97, replicate_a⟩
  output := []
  status := 12
  chunks := [newline :: markerBytes ⟨replicate 32 97, replicate_a⟩ ++ ascii ":12", [newline]]
  status_le := by decide
  fresh := by decide
  split := by decide
  nonempty := by decide
  size_le := by decide

/-- The reader stops at the marker, the parser reads status 1, and a newline stays unread. -/
theorem splitStatus_misread :
    (({} : Session).execute splitStatus).2 = .ok ⟨ascii "exit 12", [], 1⟩ ∧
      (({} : Session).execute splitStatus).1.unread = [[newline]] ∧
      ¬ Framed Call.UpToNewline {} [splitStatus] := by
  refine ⟨by decide +kernel, by decide +kernel, ?_⟩
  rw [framed_iff _ (by rintro x r (rfl | rfl) <;> rfl) ⟨rfl, rfl⟩]
  simp only [mem_singleton, forall_eq, not_and]
  exact fun h => absurd h (by decide)

end IncidentLens.Shell
