import IncidentLens.Data.LineBreaks
import IncidentLens.Evidence.Service
import IncidentLens.Investigations.Discovery
import IncidentLens.Investigations.Store

/-!
# Reading in pages

`evidence_read`, `host_read` and `container_read` answer with as many whole lines as fit a budget, and say in a
heading from which line to go on. The heading and the lines together are cut to the length of a summary; a file
is read up to its first mebibyte.
-/
namespace IncidentLens.Investigations.Paging
open Data Logs Evidence List

def toolOutcomeSummaryMaxLength : ℕ := 4000
def evidenceReferenceSummaryMaxLength : ℕ := 2000
def modelVisibleLineContentMaxLength : ℕ := 3200
def maxFileReadBytes : ℕ := 1048576

/-- The largest `_LINE_NUMBER` that a tool takes. -/
def lineNumberMax : ℕ := 1000000

inductive ToolExecutionError
  | invalidArguments
  | endBeforeStart
  | startBeyondLines (startLine total : ℕ)
  | lineExceedsBudget (line : ℕ)
  | rangesCombined
  | notCollected (evidenceId : String)
  | notReadable (evidenceId : String)
  | responseTooLarge (size : ℕ)
  | notOwned
  | invalidEvidence
  | notStored
  deriving DecidableEq

/-! ### Lines -/

/-- `splitlines(keepends=True)`. -/
def splitLines (text : List Char) : List (List Char) := Data.splitLines Discovery.isLineBreak text

structure LinePage where
  content : List Char
  startLine : ℕ
  endLine : ℕ
  totalLines : ℕ
  hasMore : Bool
  nextStartLine : Option ℕ
  deriving DecidableEq

/-- The lines that the loop of `_line_page` selects before one does not fit. -/
def fill (selectedChars : ℕ) : List (List Char) → List (List Char)
  | [] => []
  | line :: lines =>
    if modelVisibleLineContentMaxLength < selectedChars + line.length then []
    else line :: fill (selectedChars + line.length) lines

/-- `_line_page`; line numbers start at one. -/
def linePage (content : List Char) (startLine : ℕ) (endLine : Option ℕ) : Except ToolExecutionError LinePage :=
  if endLine.any (fun last => decide (last < startLine)) then .error .endBeforeStart
  else
    let lines := splitLines content
    let total := lines.length
    if total = 0 then .ok ⟨[], 0, 0, 0, false, none⟩
    else if total < startLine then .error (.startBeyondLines startLine total)
    else
      let requestedEnd := min (endLine.getD total) total
      let selected := fill 0 ((lines.drop (startLine - 1)).take (requestedEnd + 1 - startLine))
      if selected = [] then .error (.lineExceedsBudget startLine)
      else
        let actualEnd := startLine + selected.length - 1
        .ok {
          content := selected.flatten
          startLine := startLine
          endLine := actualEnd
          totalLines := total
          hasMore := decide (actualEnd < total)
          nextStartLine := if actualEnd < total then some (actualEnd + 1) else none }

/-- `_model_visible_summary`. -/
def modelVisibleSummary (heading content : List Char) : List Char :=
  heading ++ content.take (toolOutcomeSummaryMaxLength - heading.length)

/-! ### The tools -/

/-- What a heading says about the lines under it; `truncated` when there are bytes that were not read. -/
structure Window where
  startLine : ℕ
  endLine : ℕ
  totalLines : ℕ
  truncated : Bool
  hasMore : Bool
  nextStartLine : Option ℕ
  deriving DecidableEq

def LinePage.window (page : LinePage) (truncated : Bool) : Window where
  startLine := page.startLine
  endLine := page.endLine
  totalLines := page.totalLines
  truncated := truncated
  hasMore := page.hasMore || truncated
  nextStartLine := page.nextStartLine.or (if truncated then some (page.endLine + 1) else none)

def Window.text (window : Window) : String :=
  let atLeast := if window.truncated then ">=" else ""
  let next := (window.nextStartLine.map toString).getD "none"
  s!"lines={window.startLine}-{window.endLine}/{atLeast}{window.totalLines} " ++
    s!"has_more={window.hasMore} next_start_line={next}"

structure ToolResult where
  evidence : List EvidenceReference := []
  summary : List Char
  outputBytes : ℕ
  deriving DecidableEq

/-- The run that a tool is called for, and whom its evidence is attributed to. -/
structure ToolContext where
  run : AgentRun
  attribution : Attribution
  operationId : String

/-- The ranges of a call, as the schema of the tool admits them. -/
structure ReadArguments where
  startLine : Option ℕ := none
  endLine : Option ℕ := none
  offset : Option ℕ := none
  limit : Option ℕ := none

def ReadArguments.valid (args : ReadArguments) : Bool :=
  args.startLine.all (fun line => decide (1 ≤ line ∧ line ≤ lineNumberMax)) &&
    args.endLine.all (fun line => decide (1 ≤ line ∧ line ≤ lineNumberMax)) &&
    args.offset.all (fun offset => decide (offset ≤ maxFileReadBytes)) &&
    args.limit.all (fun limit => decide (1 ≤ limit ∧ limit ≤ maxFileReadBytes))

def ReadArguments.hasLineRange (args : ReadArguments) : Bool := args.startLine.isSome || args.endLine.isSome
def ReadArguments.hasByteRange (args : ReadArguments) : Bool := args.offset.isSome || args.limit.isSome

def evidenceHeading (ref : EvidenceRef) (window : Window) : List Char :=
  let source := ref.sourceRef.getD ""
  let metadata := ", ".intercalate (ref.metadata.map fun member => s!"{member.1}={member.2}")
  (s!"evidence {ref.evidenceRefId} kind={ref.evidenceKind.value} source={source} metadata=\x7b{metadata}\x7d " ++
    window.text ++ "; content:\n").toList

/-- `_handle_evidence_read`. -/
def evidenceRead (ctx : ToolContext) (rows : List Row) (evidenceId : String) (args : ReadArguments) :
    Except ToolExecutionError ToolResult :=
  if evidenceId ∉ ctx.run.evidence.map EvidenceReference.evidenceId then .error (.notCollected evidenceId)
  else match Evidence.getEvidence rows evidenceId with
    | none => .error (.notReadable evidenceId)
    | some ref => do
      let page ← linePage ref.contentRedacted.toList (args.startLine.getD 1) args.endLine
      let summary := modelVisibleSummary (evidenceHeading ref (page.window false)) page.content
      .ok {
        evidence := [⟨ref.evidenceRefId, ctx.operationId,
          String.ofList (summary.take evidenceReferenceSummaryMaxLength)⟩]
        summary := summary
        outputBytes := page.content.length }

/-- A regular file of a host or of a container, under its canonical path. -/
structure RemoteFile where
  scope : LogScope
  container : String := ""
  path : String
  content : Bytes

structure FileReadResult where
  content : Bytes
  sha256 : String
  size : ℕ
  truncated : Bool

/-- What is computed on bytes and texts outside the handlers: `hashlib.sha256` of bytes, decoding with
`errors="replace"`, the digest of a text and the classes of characters. -/
structure Codecs where
  digest : Bytes → String
  decode : Bytes → List Char
  sha256 : Sha256
  classes : CharClasses

section
variable (codecs : Codecs)

/-- `Gateway.read` of an authorised path. -/
def gatewayRead (file : RemoteFile) (offset limit : ℕ) : Except ToolExecutionError FileReadResult :=
  let content := (file.content.take (offset + limit)).drop offset
  if file.scope = .host ∧ maxFileReadBytes < content.length then .error (.responseTooLarge content.length)
  else .ok {
    content := content
    sha256 := codecs.digest content
    size := file.content.length
    truncated := decide (offset + limit < file.content.length) }

def readMetadata (file : RemoteFile) (args : ReadArguments) (sourceSha256 : String) : Dict String String :=
  let lineMode := !args.hasByteRange
  [("operation", if file.scope = .host then "host_read" else "container_read"), ("scope", file.scope.value),
    ("container", file.container), ("read_mode", if lineMode then "lines" else "bytes"),
    ("start_line", if lineMode then toString (args.startLine.getD 1) else ""),
    ("end_line", if lineMode then (args.endLine.map toString).getD "" else ""),
    ("offset", if lineMode then "" else toString (args.offset.getD 0)),
    ("limit", if lineMode then "" else toString (args.limit.getD maxFileReadBytes)),
    ("source_sha256", sourceSha256)]

/-- `_latest_matching_file_read` among the first thousand snapshots of the run. -/
def latestMatchingFileRead (rows : List Row) (agentRunId sourceRef : String) (metadata : Dict String String) :
    Option EvidenceRef :=
  let snapshots := (rows.map Row.evidence).filter fun ref =>
    ref.agentRunId = some agentRunId ∧ ref.evidenceKind = .fileSnapshot
  ((snapshots.insertionSort fun e e' => e.createdAt ≤ e'.createdAt).take 1000).reverse.find? fun ref =>
    ref.sourceRef = some sourceRef ∧ metadata.all fun member => Dict.get? ref.metadata member.1 = some member.2

/-- The snapshot that a read records. -/
def snapshot (ctx : ToolContext) (file : RemoteFile) (args : ReadArguments) (sourceSha256 : String)
    (text : List Char) : EvidenceRef :=
  persisted codecs.sha256 codecs.classes ctx.attribution ctx.run.agentRunId (some file.path)
    (recordFileSnapshot codecs.classes (String.ofList text) file.content.length (readMetadata file args sourceSha256))

/-- The checks of the evidence service, and what the store returns for a snapshot. -/
def record (runs : Dict String RunOwner) (rows : List Row) (e : EvidenceRef) : Except ToolExecutionError EvidenceRef :=
  if !ownedByIncident runs e then .error .notOwned
  else if !e.valid then .error .invalidEvidence
  else match (create codecs.sha256 rows e).2 with
    | none => .error .notStored
    | some ref => .ok ref

def lineHeading (file : RemoteFile) (sourceSha256 : String) (window : Window) : List Char :=
  (s!"read {file.path} ({file.content.length} bytes) " ++ window.text ++ s!"; sha256={sourceSha256}; content:\n").toList

def byteHeading (file : RemoteFile) (result : FileReadResult) : List Char :=
  let truncated := if result.truncated then "True" else "False"
  (s!"read {file.path} ({result.size} bytes, truncated={truncated}); sha256={result.sha256}; ").toList

def unchangedStub (file : RemoteFile) (sourceSha256 previous : String) : List Char :=
  (s!"FILE_UNCHANGED_STUB path={file.path} sha256={sourceSha256} unchanged_since_evidence={previous}; " ++
    "previous content remains authoritative").toList

/-- `(empty content)` stands for an empty text. -/
def orEmpty (text : List Char) : List Char := if text = [] then "(empty content)".toList else text

/-- `_bound_content` with `CONTENT_MAX_LENGTH`. -/
def boundContent (ctx : ToolContext) (text : List Char) : List Char :=
  text.take (min ctx.run.budget.maxOutputBytesPerTool contentMaxLength)

/-- `_file_read` of an authorised path. -/
def fileRead (ctx : ToolContext) (runs : Dict String RunOwner) (rows : List Row) (file : RemoteFile)
    (args : ReadArguments) : Except ToolExecutionError ToolResult :=
  if args.hasLineRange && args.hasByteRange then .error .rangesCombined
  else do
    let lineMode := !args.hasByteRange
    let result ← gatewayRead codecs file (if lineMode then 0 else args.offset.getD 0)
      (if lineMode then maxFileReadBytes else min (args.limit.getD maxFileReadBytes) maxFileReadBytes)
    let text := codecs.decode result.content
    let page ← if lineMode then (linePage text (args.startLine.getD 1) args.endLine).map some else .ok none
    let text := (page.map LinePage.content).getD (boundContent ctx text)
    match latestMatchingFileRead rows ctx.run.agentRunId file.path (readMetadata file args result.sha256) with
    | some previous =>
      let summary := unchangedStub file result.sha256 previous.evidenceRefId
      .ok {
        evidence := [⟨previous.evidenceRefId, ctx.operationId, String.ofList summary⟩]
        summary := summary
        outputBytes := summary.length }
    | none => do
      let ref ← record codecs runs rows (snapshot codecs ctx file args result.sha256 text)
      let heading := (page.map fun page => lineHeading file result.sha256 (page.window result.truncated)).getD
        (byteHeading file result)
      let summary := modelVisibleSummary heading (orEmpty ref.contentRedacted.toList)
      .ok {
        evidence := [⟨ref.evidenceRefId, ctx.operationId,
          String.ofList (summary.take evidenceReferenceSummaryMaxLength)⟩]
        summary := summary
        outputBytes := text.length }

end

/-! ### A read from the first line on -/

inductive Source
  | evidence (ref : EvidenceRef)
  | file (remote : RemoteFile)

/-- A run that reads, and the rows that are stored when it asks for the lines from a number on. -/
structure Reader where
  ctx : ToolContext
  runs : Dict String RunOwner
  rows : ℕ → List Row

namespace Source
section
variable (codecs : Codecs) (reader : Reader)

def text : Source → List Char
  | evidence ref => ref.contentRedacted.toList
  | file remote => codecs.decode remote.content

def readText : Source → List Char
  | evidence ref => ref.contentRedacted.toList
  | file remote => codecs.decode (remote.content.take maxFileReadBytes)

def truncated : Source → Bool
  | evidence _ => false
  | file remote => decide (maxFileReadBytes < remote.content.length)

def heading (window : Window) : Source → List Char
  | evidence ref => evidenceHeading ref window
  | file remote => lineHeading remote (codecs.digest (remote.content.take maxFileReadBytes)) window

/-- How the text of some lines is shown: evidence is redacted already. -/
def render (text : List Char) : Source → List Char
  | evidence _ => text
  | file _ => orEmpty (redactMessage codecs.classes text contentMaxLength).messageRedacted

def read (source : Source) (startLine : ℕ) : Except ToolExecutionError ToolResult :=
  let args : ReadArguments := { startLine := some startLine }
  if args.valid then
    match source with
    | evidence ref => evidenceRead reader.ctx (reader.rows startLine) ref.evidenceRefId args
    | file remote => fileRead codecs reader.ctx reader.runs (reader.rows startLine) remote args
  else .error .invalidArguments

end
end Source

/-- The entries of a list, one for each line, that a window is about. -/
def Window.of {α : Type*} (window : Window) (entries : List α) : List α :=
  (entries.drop (window.startLine - 1)).take (window.endLine + 1 - window.startLine)

section
variable (codecs : Codecs) (reader : Reader) (source : Source)

/-- The call returns the heading of a window and under it the lines of the window, none of them cut. -/
def Shows (startLine : ℕ) (window : Window) : Prop :=
  ∃ result, source.read codecs reader startLine = .ok result ∧ result.summary =
    source.heading codecs window ++ source.render codecs (window.of (splitLines (source.text codecs))).flatten

/-- The windows of the calls that follow `next_start_line` until `has_more` is false. -/
inductive Follows : ℕ → List Window → Prop
  | last {startLine : ℕ} {window : Window} : Shows codecs reader source startLine window → window.hasMore = false →
      Follows startLine [window]
  | next {startLine nextStartLine : ℕ} {window : Window} {windows : List Window} :
      Shows codecs reader source startLine window → window.hasMore = true →
      window.nextStartLine = some nextStartLine → Follows nextStartLine windows → Follows startLine (window :: windows)

def ShowsEveryLine : Prop :=
  ∃ windows, Follows codecs reader source 1 windows ∧
    let lines := (splitLines (source.text codecs)).zipIdx 1
    windows.flatMap (Window.of · lines) = lines

end

/-- The numbers that the pages of a content lead to. -/
inductive Reached (content : List Char) : ℕ → Prop
  | first : Reached content 1
  | next {startLine nextStartLine : ℕ} {page : LinePage} : Reached content startLine →
      linePage content startLine none = .ok page → page.nextStartLine = some nextStartLine →
      Reached content nextStartLine

/-- The store takes a snapshot and has none like it. -/
structure Recordable (codecs : Codecs) (reader : Reader) (file : RemoteFile) (startLine : ℕ) (page : LinePage) : Prop where
  whole : file.content.length ≤ maxFileReadBytes
  unread : latestMatchingFileRead (reader.rows startLine) reader.ctx.run.agentRunId file.path
    (readMetadata file { startLine := some startLine } (codecs.digest file.content)) = none
  owned : ownedByIncident reader.runs
    (snapshot codecs reader.ctx file { startLine := some startLine } (codecs.digest file.content) page.content) = true
  valid : (snapshot codecs reader.ctx file { startLine := some startLine } (codecs.digest file.content) page.content).valid = true
  fresh : ∀ row ∈ reader.rows startLine, conflicts codecs.sha256
    (snapshot codecs reader.ctx file { startLine := some startLine } (codecs.digest file.content) page.content) row = false

/-- The run has collected the evidence, and it is stored. -/
structure Collected (reader : Reader) (ref : EvidenceRef) (startLine : ℕ) : Prop where
  owned : ref.evidenceRefId ∈ reader.ctx.run.evidence.map EvidenceReference.evidenceId
  stored : Evidence.getEvidence (reader.rows startLine) ref.evidenceRefId = some ref

def Available (codecs : Codecs) (reader : Reader) (startLine : ℕ) (page : LinePage) : Source → Prop
  | .evidence ref => Collected reader ref startLine
  | .file remote => Recordable codecs reader remote startLine page

/-- The run can ask for a page and nothing of it is cut. -/
structure Admits (codecs : Codecs) (reader : Reader) (source : Source) (startLine : ℕ) (page : LinePage) : Prop where
  number : startLine ≤ lineNumberMax
  fits : (source.heading codecs (page.window false)).length + (source.render codecs page.content).length ≤
    toolOutcomeSummaryMaxLength
  available : Available codecs reader startLine page source

/-! ### One page -/

lemma fill_prefix (chars : ℕ) (lines : List (List Char)) : fill chars lines <+: lines := by
  induction lines generalizing chars with
  | nil => exact nil_prefix
  | cons line lines ih =>
    unfold fill
    split_ifs with hfit
    · exact nil_prefix
    · exact cons_prefix_cons.mpr ⟨rfl, ih _⟩

lemma fill_eq_nil_iff {line : List Char} {lines : List (List Char)} :
    fill 0 (line :: lines) = [] ↔ modelVisibleLineContentMaxLength < line.length := by
  simp [fill]

/-- The page from a line on: some lines, and where the next one starts. -/
structure PageAt (content : List Char) (startLine : ℕ) (page : LinePage) : Prop where
  startLine_eq : page.startLine = startLine
  startLine_le : startLine ≤ page.endLine
  endLine_le : page.endLine ≤ (splitLines content).length
  content_eq : page.content = (((splitLines content).drop (startLine - 1)).take (page.endLine + 1 - startLine)).flatten
  hasMore_eq : page.hasMore = decide (page.endLine < (splitLines content).length)
  nextStartLine_eq : page.nextStartLine = if page.endLine < (splitLines content).length then some (page.endLine + 1) else none

variable {startLine : ℕ}

lemma pageAt_of_linePage {content : List Char} {endLine : Option ℕ} {page : LinePage}
    (hone : 1 ≤ startLine) (hlines : splitLines content ≠ []) (h : linePage content startLine endLine = .ok page) :
    PageAt content startLine page := by
  have hpos : (splitLines content).length ≠ 0 := by simpa using hlines
  unfold linePage at h
  split at h
  · cases h
  simp only [hpos, if_false] at h
  split at h
  · cases h
  split at h
  · cases h
  next hend hstart hselected =>
  obtain rfl := Except.ok.inj h
  set requested := ((splitLines content).drop (startLine - 1)).take
    (min (endLine.getD (splitLines content).length) (splitLines content).length + 1 - startLine) with hrequested
  have hprefix := fill_prefix 0 requested
  have hlength : (fill 0 requested).length ≤ (splitLines content).length - (startLine - 1) :=
    hprefix.length_le.trans (by simp [hrequested])
  have hsome : 0 < (fill 0 requested).length := length_pos_iff.mpr hselected
  refine ⟨rfl, ?_, ?_, ?_, rfl, rfl⟩
  · simp only
    omega
  · simp only
    omega
  · have hall : fill 0 requested <+: (splitLines content).drop (startLine - 1) := hprefix.trans (List.take_prefix _ _)
    simp only
    rw [show startLine + (fill 0 requested).length - 1 + 1 - startLine = (fill 0 requested).length by omega,
      ← prefix_iff_eq_take.mp hall]

lemma exists_linePage {content : List Char} (hone : 1 ≤ startLine) (hle : startLine ≤ (splitLines content).length)
    (hshort : ∀ line ∈ splitLines content, line.length ≤ modelVisibleLineContentMaxLength) :
    ∃ page, linePage content startLine none = .ok page := by
  obtain ⟨line, lines, hdrop⟩ : ∃ line lines, (splitLines content).drop (startLine - 1) = line :: lines := by
    refine exists_cons_of_ne_nil ?_
    rw [Ne, drop_eq_nil_iff]
    omega
  have hline : line ∈ splitLines content := mem_of_mem_drop (hdrop ▸ mem_cons_self)
  have hcount : (splitLines content).length + 1 - startLine = (splitLines content).length - startLine + 1 := by omega
  have hselected : fill 0 (((splitLines content).drop (startLine - 1)).take
      ((splitLines content).length + 1 - startLine)) ≠ [] := by
    rw [hdrop, hcount, take_succ_cons, Ne, fill_eq_nil_iff]
    exact Nat.not_lt.mpr (hshort line hline)
  have hpos : (splitLines content).length ≠ 0 := by omega
  simp [linePage, hpos, Nat.not_lt.mpr hle, hselected]

/-! ### One call -/

lemma modelVisibleSummary_of_fits {heading content : List Char}
    (h : heading.length + content.length ≤ toolOutcomeSummaryMaxLength) :
    modelVisibleSummary heading content = heading ++ content := by
  rw [modelVisibleSummary, take_of_length_le (by omega)]

lemma valid_startLine (hone : 1 ≤ startLine) (hle : startLine ≤ lineNumberMax) :
    ReadArguments.valid { startLine := some startLine } = true := by
  simp [ReadArguments.valid, hone, hle]

lemma create_of_fresh {sha256 : Sha256} {rows : List Row} {e : EvidenceRef}
    (h : ∀ row ∈ rows, conflicts sha256 e row = false) : (create sha256 rows e).2 = some e := by
  have hany : rows.any (conflicts sha256 e) = false := any_eq_false.mpr fun row hrow => by simp [h row hrow]
  have hfind : rows.find? (conflicts sha256 e) = none := find?_eq_none.mpr fun row hrow => by simp [h row hrow]
  simp [create, Evidence.insertOrIgnore, hany, find?_append, hfind, Evidence.conflicts]

section
variable {codecs : Codecs} {reader : Reader} {startLine : ℕ} {page : LinePage}

lemma snapshot_content (ctx : ToolContext) (file : RemoteFile) (args : ReadArguments) (sourceSha256 : String)
    (text : List Char) : (snapshot codecs ctx file args sourceSha256 text).contentRedacted.toList =
      (redactMessage codecs.classes text contentMaxLength).messageRedacted := by
  simp [snapshot, persisted, Recorded.contentRedacted, Recorded.redacted, recordFileSnapshot, EvidenceKind.contentMax]

lemma read_evidence {ref : EvidenceRef} (hone : 1 ≤ startLine)
    (hpage : linePage ref.contentRedacted.toList startLine none = .ok page)
    (h : Admits codecs reader (.evidence ref) startLine page) :
    ∃ result, (Source.evidence ref).read codecs reader startLine = .ok result ∧
      result.summary = evidenceHeading ref (page.window false) ++ page.content := by
  have hcollected : Collected reader ref startLine := h.available
  let summary := modelVisibleSummary (evidenceHeading ref (page.window false)) page.content
  have hread : (Source.evidence ref).read codecs reader startLine = .ok {
      evidence := [⟨ref.evidenceRefId, reader.ctx.operationId,
        String.ofList (summary.take evidenceReferenceSummaryMaxLength)⟩]
      summary := summary
      outputBytes := page.content.length } := by
    simp only [Source.read, valid_startLine hone h.number, if_true, evidenceRead]
    rw [if_neg (not_not.mpr hcollected.owned), hcollected.stored]
    simp only [Option.getD_some, hpage]
    rfl
  exact ⟨_, hread, modelVisibleSummary_of_fits h.fits⟩

lemma gatewayRead_whole {file : RemoteFile} (h : file.content.length ≤ maxFileReadBytes) :
    gatewayRead codecs file 0 maxFileReadBytes = .ok {
      content := file.content
      sha256 := codecs.digest file.content
      size := file.content.length
      truncated := false } := by
  have htake : file.content.take (0 + maxFileReadBytes) = file.content := take_of_length_le (by omega)
  simp only [gatewayRead, htake, drop_zero]
  rw [if_neg (by omega), decide_eq_false (by omega)]

lemma read_file {file : RemoteFile} (hone : 1 ≤ startLine)
    (hpage : linePage (codecs.decode file.content) startLine none = .ok page)
    (h : Admits codecs reader (.file file) startLine page) :
    ∃ result, (Source.file file).read codecs reader startLine = .ok result ∧
      result.summary = (Source.file file).heading codecs (page.window false) ++
        (Source.file file).render codecs page.content := by
  have hrecordable : Recordable codecs reader file startLine page := h.available
  have hwhole : file.content.take maxFileReadBytes = file.content := take_of_length_le hrecordable.whole
  have hrecord : record codecs reader.runs (reader.rows startLine)
      (snapshot codecs reader.ctx file { startLine := some startLine } (codecs.digest file.content) page.content) =
      .ok (snapshot codecs reader.ctx file { startLine := some startLine } (codecs.digest file.content) page.content) := by
    simp [record, hrecordable.owned, hrecordable.valid, create_of_fresh hrecordable.fresh]
  have hfits := h.fits
  simp only [Source.heading, Source.render, hwhole] at hfits ⊢
  let summary := modelVisibleSummary (lineHeading file (codecs.digest file.content) (page.window false))
    (orEmpty (redactMessage codecs.classes page.content contentMaxLength).messageRedacted)
  have hread : (Source.file file).read codecs reader startLine = .ok {
      evidence := [⟨(snapshot codecs reader.ctx file { startLine := some startLine } (codecs.digest file.content)
        page.content).evidenceRefId, reader.ctx.operationId,
        String.ofList (summary.take evidenceReferenceSummaryMaxLength)⟩]
      summary := summary
      outputBytes := page.content.length } := by
    simp only [Source.read, valid_startLine hone h.number, if_true, fileRead, ReadArguments.hasByteRange,
      ReadArguments.hasLineRange, Option.isSome_none, Option.isSome_some, Bool.or_false, Bool.and_false, Bool.not_false,
      Bool.false_eq_true, if_false, gatewayRead_whole hrecordable.whole]
    simp only [bind, Except.bind, Option.getD_some, hpage, Except.map, Option.map_some, hrecordable.unread, hrecord,
      snapshot_content]
    rfl
  exact ⟨_, hread, modelVisibleSummary_of_fits hfits⟩

end

/-! ### All calls -/

section
variable {codecs : Codecs} {reader : Reader} {source : Source} {startLine : ℕ} {page : LinePage}

lemma shows_of_linePage (hone : 1 ≤ startLine) (hpage : linePage (source.text codecs) startLine none = .ok page)
    (hcontent : page.content = ((page.window false).of (splitLines (source.text codecs))).flatten)
    (h : Admits codecs reader source startLine page) : Shows codecs reader source startLine (page.window false) := by
  cases source with
  | evidence ref =>
    obtain ⟨result, hread, hsummary⟩ := read_evidence hone hpage h
    refine ⟨result, hread, ?_⟩
    rw [← hcontent]
    exact hsummary
  | file remote =>
    obtain ⟨result, hread, hsummary⟩ := read_file hone hpage h
    refine ⟨result, hread, ?_⟩
    rw [← hcontent]
    exact hsummary

lemma follows_of_reached
    (hshort : ∀ line ∈ splitLines (source.text codecs), line.length ≤ modelVisibleLineContentMaxLength)
    (hadmits : ∀ startLine page, Reached (source.text codecs) startLine →
      linePage (source.text codecs) startLine none = .ok page → Admits codecs reader source startLine page)
    (hreached : Reached (source.text codecs) startLine) (hone : 1 ≤ startLine)
    (hle : startLine ≤ (splitLines (source.text codecs)).length) :
    ∃ windows, Follows codecs reader source startLine windows ∧
      windows.flatMap (Window.of · ((splitLines (source.text codecs)).zipIdx 1)) =
        ((splitLines (source.text codecs)).zipIdx 1).drop (startLine - 1) := by
  -- induction on the lines that are left
  induction hleft : (splitLines (source.text codecs)).length - startLine using Nat.strong_induction_on
    generalizing startLine with
  | _ left ih =>
    obtain ⟨page, hpage⟩ := exists_linePage hone hle hshort
    have hat := pageAt_of_linePage hone (ne_nil_of_length_pos (by omega)) hpage
    have hstart : (page.window false).startLine = startLine := hat.startLine_eq
    have hof : ∀ {α : Type} (entries : List α), (page.window false).of entries =
        (entries.drop (startLine - 1)).take (page.endLine + 1 - startLine) := by
      intro α entries
      rw [Window.of, hstart]
      rfl
    have hshows := shows_of_linePage hone hpage (by rw [hof, ← hat.content_eq]) (hadmits startLine page hreached hpage)
    have hmore : (page.window false).hasMore = decide (page.endLine < (splitLines (source.text codecs)).length) := by
      simp [LinePage.window, hat.hasMore_eq]
    by_cases hlast : page.endLine < (splitLines (source.text codecs)).length
    · -- more lines are left than this page shows
      have hnext : page.nextStartLine = some (page.endLine + 1) := by rw [hat.nextStartLine_eq, if_pos hlast]
      have hstartLine := hat.startLine_le
      obtain ⟨windows, hfollows, hwindows⟩ := ih ((splitLines (source.text codecs)).length - (page.endLine + 1)) (by omega)
        (.next hreached hpage hnext) (by omega) hlast rfl
      refine ⟨page.window false :: windows, .next hshows (by rw [hmore, decide_eq_true hlast])
        (by simp [LinePage.window, hnext]) hfollows, ?_⟩
      rw [flatMap_cons, hwindows, hof]
      have hdrop : (((splitLines (source.text codecs)).zipIdx 1).drop (startLine - 1)).drop (page.endLine + 1 - startLine) =
          ((splitLines (source.text codecs)).zipIdx 1).drop (page.endLine + 1 - 1) := by
        rw [drop_drop]
        congr 1
        omega
      rw [← hdrop, take_append_drop]
    · refine ⟨[page.window false], .last hshows (by rw [hmore, decide_eq_false hlast]), ?_⟩
      rw [flatMap_cons, flatMap_nil, append_nil, hof]
      refine take_of_length_le ?_
      simp only [length_drop, length_zipIdx]
      have := hat.endLine_le
      omega

lemma showsEveryLine (hshort : ∀ line ∈ splitLines (source.text codecs), line.length ≤ modelVisibleLineContentMaxLength)
    (hadmits : ∀ startLine page, Reached (source.text codecs) startLine →
      linePage (source.text codecs) startLine none = .ok page → Admits codecs reader source startLine page) :
    ShowsEveryLine codecs reader source := by
  by_cases hlines : splitLines (source.text codecs) = []
  · have hpage : linePage (source.text codecs) 1 none = .ok ⟨[], 0, 0, 0, false, none⟩ := by simp [linePage, hlines]
    refine ⟨[_], .last (shows_of_linePage le_rfl hpage ?_ (hadmits 1 _ .first hpage)) rfl, ?_⟩
    · simp [Window.of, hlines]
    · simp [Window.of, hlines]
  · obtain ⟨windows, hfollows, hwindows⟩ := follows_of_reached hshort hadmits .first le_rfl (length_pos_iff.mpr hlines)
    exact ⟨windows, hfollows, hwindows⟩

lemma endLine_of_not_hasMore {endLine : Option ℕ} (hone : 1 ≤ startLine)
    (hpage : linePage (source.readText codecs) startLine endLine = .ok page)
    (h : (page.window (source.truncated)).hasMore = false) : page.endLine = (splitLines (source.text codecs)).length := by
  have hmore : page.hasMore = false ∧ source.truncated = false := by simpa [LinePage.window] using h
  have htext : source.readText codecs = source.text codecs := by
    cases source with
    | evidence ref => rfl
    | file remote =>
      have hwhole : remote.content.length ≤ maxFileReadBytes := by simpa [Source.truncated] using hmore.2
      simp only [Source.readText, Source.text, take_of_length_le hwhole]
  rw [htext] at hpage
  by_cases hlines : splitLines (source.text codecs) = []
  · simp only [linePage, hlines, length_nil, if_true] at hpage
    split at hpage
    · cases hpage
    · obtain rfl := Except.ok.inj hpage
      simp [hlines]
  · have hat := pageAt_of_linePage hone hlines hpage
    have hend : ¬ page.endLine < (splitLines (source.text codecs)).length := by
      have := hat.hasMore_eq
      rw [hmore.1] at this
      simpa using this.symm
    exact le_antisymm hat.endLine_le (not_lt.mp hend)

lemma linePage_of_long {content line : List Char} {endLine : Option ℕ} (hone : 1 ≤ startLine)
    (hline : (splitLines content)[startLine - 1]? = some line) (hlong : modelVisibleLineContentMaxLength < line.length)
    (hend : ∀ last ∈ endLine, startLine ≤ last) :
    linePage content startLine endLine = .error (.lineExceedsBudget startLine) := by
  obtain ⟨hlt, hget⟩ := List.getElem?_eq_some_iff.mp hline
  have hany : endLine.any (fun last => decide (last < startLine)) = false := by
    cases endLine with
    | none => rfl
    | some last => simpa using hend last rfl
  have hpos : (splitLines content).length ≠ 0 := by omega
  have hle : ¬ (splitLines content).length < startLine := by omega
  have hdrop : (splitLines content).drop (startLine - 1) = line :: (splitLines content).drop (startLine - 1 + 1) := by
    rw [List.drop_eq_getElem_cons hlt, hget]
  have hcount : ∃ n, min (endLine.getD (splitLines content).length) (splitLines content).length + 1 - startLine = n + 1 := by
    refine Nat.exists_eq_add_one.mpr ?_
    cases endLine with
    | none =>
      simp only [Option.getD_none, min_self]
      omega
    | some last =>
      have := hend last rfl
      simp only [Option.getD_some]
      omega
  obtain ⟨n, hn⟩ := hcount
  have hselected : fill 0 (((splitLines content).drop (startLine - 1)).take
      (min (endLine.getD (splitLines content).length) (splitLines content).length + 1 - startLine)) = [] := by
    rw [hdrop, hn, List.take_succ_cons, fill_eq_nil_iff]
    exact hlong
  simp [linePage, hany, hpos, hle, hselected]

end

/-- The lines make up the content. They are shown one by one when they are within the budget and every page of
them is admitted; a heading without more is under the last line of the whole content, and a longer line is refused by
its number. -/
theorem reads_every_line (codecs : Codecs) (reader : Reader) (source : Source) :
    (splitLines (source.text codecs)).flatten = source.text codecs ∧
    ((∀ line ∈ splitLines (source.text codecs), line.length ≤ modelVisibleLineContentMaxLength) →
      (∀ startLine page, Reached (source.text codecs) startLine →
        linePage (source.text codecs) startLine none = .ok page → Admits codecs reader source startLine page) →
      ShowsEveryLine codecs reader source) ∧
    (∀ startLine endLine page, 1 ≤ startLine → linePage (source.readText codecs) startLine endLine = .ok page →
      (page.window source.truncated).hasMore = false → page.endLine = (splitLines (source.text codecs)).length) ∧
    ∀ startLine line, 1 ≤ startLine → (splitLines (source.text codecs))[startLine - 1]? = some line →
      modelVisibleLineContentMaxLength < line.length →
      linePage (source.text codecs) startLine none = .error (.lineExceedsBudget startLine) := by
  refine ⟨Data.flatten_splitLines _ _, showsEveryLine, fun startLine endLine page hone hpage h =>
    endLine_of_not_hasMore hone hpage h, ?_⟩
  intro startLine line hone hline hlong
  exact linePage_of_long hone hline hlong nofun

/-! ### Two short reads and a long line -/

lemma reached_of_single {content : List Char} {startLine : ℕ} {page : LinePage}
    (hpage : linePage content 1 none = .ok page) (hlast : page.nextStartLine = none) (h : Reached content startLine) :
    startLine = 1 := by
  induction h with
  | first => rfl
  | next _ hpage' hnext ih =>
    subst ih
    obtain rfl := Except.ok.inj (hpage.symm.trans hpage')
    rw [hlast] at hnext
    cases hnext

def sampleConfig : String := "port: 8080\nhost: a\n"

/-- The digests of the texts of the sample, and some other digits for every other text. -/
def sampleDigest (text : String) : String :=
  let digest := "1997c34fa61d4db78f7e5283801499e70b5a9dc0d4a45f5d0cc53fc2d4680187"
  let members := "\x7b\"container\": \"\", \"end_line\": \"\", \"limit\": \"\", \"offset\": \"\", " ++
    "\"operation\": \"host_read\", \"read_mode\": \"lines\", \"scope\": \"host\", \"size_bytes\": \"19\", \"source_sha256\": \"" ++ digest ++
    "\", \"start_line\": \"1\"\x7d|" ++ digest
  if text = sampleConfig then digest
  else if text = "file_snapshot|payments|dev-a|payment-api|run-1|/srv/app/app.conf|" ++ members then
    "b10103d096fc5eca585a2fd3cb011f5800db0e10bcf35c0047535ce84df124de"
  else if text = "file_snapshot|run-1|payments|dev-a|payment-api|/srv/app/app.conf||||" ++ members then
    "bde936c8200d2bae0721eca7af8caf8dc1056190c24b90a18f81bbf7b59fbce4"
  else "0000000000000000000000000000000000000000000000000000000000000000"

lemma length_sampleDigest (text : String) : (sampleDigest text).length = 64 := by
  unfold sampleDigest
  simp only
  split_ifs <;> decide +kernel

lemma sampleDigest_barless (text : String) : '|' ∉ (sampleDigest text).toList := by
  unfold sampleDigest
  simp only
  split_ifs <;> decide +kernel

def sampleCodecs : Codecs where
  digest bytes := sampleDigest (String.ofList (bytes.map fun b => Char.ofNat b.toNat))
  decode bytes := bytes.map fun b => Char.ofNat b.toNat
  sha256 := {
    hexdigest := sampleDigest
    length_hexdigest := length_sampleDigest
    barless := sampleDigest_barless }
  classes := .ascii

def sampleFile : RemoteFile where
  scope := .host
  path := "/srv/app/app.conf"
  content := ascii sampleConfig

def sampleRun : AgentRun where
  agentRunId := "run-1"
  investigationId := "inv-1"
  parentRunId := none
  kind := .parent
  status := .running
  budget := {}
  usage := {}
  evidence := [⟨"ev-1", "op-1", ""⟩]

def sampleContext : ToolContext where
  run := sampleRun
  attribution := ⟨"inc-1", "payments", "dev-a", "payment-api", "agent", 0⟩
  operationId := "op-2"

def sampleEvidence (contentRedacted : String) : EvidenceRef where
  evidenceRefId := "ev-1"
  incidentId := "inc-1"
  evidenceKind := .commandOutput
  agentRunId := some "run-1"
  projectId := "payments"
  targetId := "dev-a"
  serviceName := "payment-api"
  sourceRef := some "op-1"
  contentRedacted := contentRedacted
  contentSha256 := sampleDigest contentRedacted
  createdAt := 0
  createdBy := "agent"

def sampleReader (rows : List Row) : Reader where
  ctx := sampleContext
  runs := [("run-1", ⟨"inc-1", "payments", "dev-a", none⟩)]
  rows _ := rows

def sampleRows (contentRedacted : String) : List Row := [⟨sampleEvidence contentRedacted, ""⟩]

lemma config_linePage : linePage sampleConfig.toList 1 none = .ok ⟨sampleConfig.toList, 1, 2, 2, false, none⟩ := by
  decide +kernel

lemma config_short : ∀ line ∈ splitLines sampleConfig.toList, line.length ≤ modelVisibleLineContentMaxLength := by
  decide +kernel

theorem config_read : ShowsEveryLine sampleCodecs (sampleReader []) (.file sampleFile) ∧
    ShowsEveryLine sampleCodecs (sampleReader (sampleRows sampleConfig)) (.evidence (sampleEvidence sampleConfig)) := by
  have htext : (Source.file sampleFile).text sampleCodecs = sampleConfig.toList := by decide +kernel
  constructor
  · refine (reads_every_line sampleCodecs (sampleReader []) (.file sampleFile)).2.1 ?_ ?_
    · rw [htext]
      exact config_short
    · rw [htext]
      intro startLine page hreached hpage
      obtain rfl := reached_of_single config_linePage rfl hreached
      obtain rfl := Except.ok.inj (config_linePage.symm.trans hpage)
      refine ⟨by decide +kernel, by decide +kernel, ?_⟩
      refine ⟨by decide +kernel, by decide +kernel, by decide +kernel, by decide +kernel, ?_⟩
      intro row hrow
      exact absurd hrow not_mem_nil
  · refine (reads_every_line sampleCodecs _ (.evidence (sampleEvidence sampleConfig))).2.1 config_short ?_
    intro startLine page hreached hpage
    obtain rfl := reached_of_single config_linePage rfl hreached
    obtain rfl := Except.ok.inj (config_linePage.symm.trans hpage)
    exact ⟨by decide +kernel, by decide +kernel, by decide +kernel, by decide +kernel⟩

lemma splitLines_replicate (n : ℕ) : splitLines (replicate (n + 1) 'a') = [replicate (n + 1) 'a'] := by
  rw [replicate_succ]
  refine Data.splitLines_of_unbroken fun c hc => ?_
  rw [← replicate_succ] at hc
  rw [eq_of_mem_replicate hc]
  decide

/-- One line of 3201 characters. -/
def longLine : String := String.ofList (replicate 3201 'a')

theorem longLine_not_shown :
    ¬ ShowsEveryLine sampleCodecs (sampleReader (sampleRows longLine)) (.evidence (sampleEvidence longLine)) := by
  have htext : (sampleEvidence longLine).contentRedacted.toList = replicate (3200 + 1) 'a' := String.toList_ofList
  have hlines : splitLines (sampleEvidence longLine).contentRedacted.toList = [replicate (3200 + 1) 'a'] := by
    rw [htext, splitLines_replicate]
  have hpage : linePage (sampleEvidence longLine).contentRedacted.toList 1 none = .error (.lineExceedsBudget 1) := by
    have hline : (splitLines (sampleEvidence longLine).contentRedacted.toList)[1 - 1]? =
        some (replicate (3200 + 1) 'a') := by
      rw [hlines]
      exact getElem?_cons_zero
    have hlong : modelVisibleLineContentMaxLength < (replicate (3200 + 1) 'a').length := by
      rw [length_replicate]
      decide
    exact linePage_of_long le_rfl hline hlong nofun
  have hread : (Source.evidence (sampleEvidence longLine)).read sampleCodecs (sampleReader (sampleRows longLine)) 1 =
      .error (.lineExceedsBudget 1) := by
    have hstored : Evidence.getEvidence ((sampleReader (sampleRows longLine)).rows 1) (sampleEvidence longLine).evidenceRefId =
        some (sampleEvidence longLine) := by
      simp [Evidence.getEvidence, sampleReader, sampleRows]
    have howned : (sampleEvidence longLine).evidenceRefId ∈
        (sampleReader (sampleRows longLine)).ctx.run.evidence.map EvidenceReference.evidenceId := by
      simp [sampleEvidence, sampleReader, sampleContext, sampleRun]
    simp only [Source.read, valid_startLine le_rfl (by decide +kernel), if_true, evidenceRead]
    rw [if_neg (not_not.mpr howned), hstored]
    simp only [Option.getD_some, hpage]
    rfl
  rintro ⟨windows, hfollows, -⟩
  cases hfollows with
  | last hshows _ =>
    obtain ⟨result, hok, -⟩ := hshows
    cases hread.symm.trans hok
  | next hshows _ _ _ =>
    obtain ⟨result, hok, -⟩ := hshows
    cases hread.symm.trans hok

end IncidentLens.Investigations.Paging
