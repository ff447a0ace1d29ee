import IncidentLens.Data.JsonText
import IncidentLens.Data.LineBreaks
import IncidentLens.Streams.WorkspaceStream

/-!
# Server-sent events

A frame is lines of fields with a blank line behind them. The client cuts what it reads at blank lines, wherever the
network has cut it.
-/
namespace IncidentLens.Streams.Sse
open Data Json List

/-! ### Writing -/

/-- The breaks of `str.splitlines`. -/
def isLineBreak (c : Char) : Bool :=
  (10 ≤ c.toNat && c.toNat ≤ 13) || (28 ≤ c.toNat && c.toNat ≤ 30) || c.toNat = 0x85 || c.toNat = 0x2028 ||
    c.toNat = 0x2029

/-- `encoded.splitlines() or [""]`. -/
def dataLines (data : Dict String Json) : List (List Char) :=
  match bareLines isLineBreak (write (object data)) with
  | [] => [[]]
  | lines => lines

/-- `_sse`. -/
def sse (event eventId : Option (List Char)) (data : Option (Dict String Json))
    (comment : Option (List Char)) : List Char :=
  let lines := (comment.map (": ".toList ++ ·)).toList ++ (event.map ("event: ".toList ++ ·)).toList ++
    (eventId.map ("id: ".toList ++ ·)).toList ++ ((data.map dataLines).getD []).map ("data: ".toList ++ ·)
  ['\n'].intercalate lines ++ ['\n', '\n']

/-- A frame that the stream sends. -/
inductive Frame
  | message (event eventId : List Char) (data : Dict String Json)
  | heartbeat (comment : List Char)

def Frame.text : Frame → List Char
  | message event eventId data => sse (some event) (some eventId) (some data) none
  | heartbeat comment => sse none none none (some comment)

def kindValue : WorkspaceResourceKind → String
  | .overview => "overview"
  | .target => "target"
  | .service => "service"
  | .issue => "issue"
  | .investigation => "investigation"
  | .evidence => "evidence"

def nullable (text : Option String) : Json := text.elim .null .string

def changedFrame (invalidation : WorkspaceResourceChanged) : Frame :=
  .message "resource.changed".toList invalidation.eventId.toList
    [("schema_version", .number "1"), ("event_id", .string invalidation.eventId),
      ("event_type", .string "resource.changed"), ("occurred_at", .string invalidation.occurredAt),
      ("resource_kind", .string (kindValue invalidation.resourceKind)), ("resource_id", nullable invalidation.resourceId),
      ("target_id", nullable invalidation.targetId), ("service_id", nullable invalidation.serviceId)]

def gapFrame (afterEventId now : String) : Frame :=
  .message "stream.gap".toList afterEventId.toList
    [("schema_version", .number "1"), ("event_id", .string afterEventId), ("event_type", .string "stream.gap"),
      ("occurred_at", .string now), ("reason", .string "event cursor not found in retained history"),
      ("action", .string "reload_snapshot")]

/-- What the stream sends, at a time. -/
def frameOf (now : String) : WorkspaceFrame → Frame
  | .changed invalidation => changedFrame invalidation
  | .gap afterEventId => gapFrame afterEventId now
  | .heartbeat => .heartbeat ("heartbeat ".toList ++ now.toList)

/-! ### Reading -/

/-- What `\s` matches in the client's language. -/
def isSpace (c : Char) : Bool :=
  (9 ≤ c.toNat && c.toNat ≤ 13) || (0x2000 ≤ c.toNat && c.toNat ≤ 0x200a) ||
    [0x20, 0xa0, 0x1680, 0x2028, 0x2029, 0x202f, 0x205f, 0x3000, 0xfeff].contains c.toNat

/-- `replace(/\r\n?/g, '\n')`. -/
def normalize : List Char → List Char
  | [] => []
  | '\r' :: '\n' :: rest => '\n' :: normalize rest
  | '\r' :: rest => '\n' :: normalize rest
  | c :: rest => c :: normalize rest

/-- A second line feed ends a part. -/
def scan (parts : List (List Char) × List Char) (c : Char) : List (List Char) × List Char :=
  if c = '\n' ∧ parts.2.getLast? = some '\n' then (parts.1 ++ [parts.2.dropLast], []) else (parts.1, parts.2 ++ [c])

/-- `split('\n\n')`, with its last part by itself. -/
def split (text : List Char) : List (List Char) × List Char := text.foldl scan ([], [])

structure Fields where
  dataLines : List (List Char) := []
  event : Option (List Char) := none
  lastEventId : Option (List Char)

def Fields.line (f : Fields) (line : List Char) : Fields :=
  if "data:".toList.isPrefixOf line then { f with dataLines := f.dataLines ++ [(line.drop 5).dropWhile isSpace] }
  else if "event:".toList.isPrefixOf line then { f with event := some ((line.drop 6).dropWhile isSpace) }
  else if "id:".toList.isPrefixOf line then { f with lastEventId := some ((line.drop 3).dropWhile isSpace) }
  else f

/-- What `onSseEvent` is called with; the data before they are parsed. -/
structure StreamEvent where
  rawData : Option (List Char)
  event : Option (List Char)
  id : Option (List Char)

structure Heard where
  lastEventId : Option (List Char) := none
  events : List StreamEvent := []

def Heard.chunk (h : Heard) (chunk : List Char) : Heard :=
  let f := (chunk.splitOn '\n').foldl Fields.line { lastEventId := h.lastEventId }
  { lastEventId := f.lastEventId
    events := h.events ++
      [⟨if f.dataLines = [] then none else some (['\n'].intercalate f.dataLines), f.event, f.lastEventId⟩] }

structure SseClient where
  buffer : List Char := []
  heard : Heard := {}

/-- One turn of the reading loop of `createSseClient`. -/
def SseClient.read (c : SseClient) (value : List Char) : SseClient :=
  let chunks := split (normalize (c.buffer ++ value))
  { buffer := chunks.2, heard := chunks.1.foldl Heard.chunk c.heard }

/-! ### What is read -/

/-- A text for one line. -/
abbrev Unbroken (text : List Char) : Prop := '\n' ∉ text ∧ '\r' ∉ text

/-- The name of the event and its id are of one line and do not begin with a space. -/
def Frame.Plain : Frame → Prop
  | message event eventId _ =>
    Unbroken event ∧ Unbroken eventId ∧ event.dropWhile isSpace = event ∧ eventId.dropWhile isSpace = eventId
  | heartbeat comment => Unbroken comment

/-- The lines of the payload, without the spaces that they begin with. -/
def rawData (data : Dict String Json) : List Char := ['\n'].intercalate ((dataLines data).map (dropWhile isSpace))

def Heard.frame (h : Heard) : Frame → Heard
  | .message event eventId data =>
    { lastEventId := some eventId, events := h.events ++ [⟨some (rawData data), some event, some eventId⟩] }
  | .heartbeat _ => { h with events := h.events ++ [⟨none, none, h.lastEventId⟩] }

/-- The lines of a frame before the blank one. -/
def Frame.lines : Frame → List (List Char)
  | message event eventId data =>
    ("event: ".toList ++ event) :: ("id: ".toList ++ eventId) :: (dataLines data).map ("data: ".toList ++ ·)
  | heartbeat comment => [": ".toList ++ comment]

section
variable {c : SseClient} {h : Heard} {f : Frame} {data : Dict String Json} {text : List Char}

lemma dataLines_ne_nil (data : Dict String Json) : dataLines data ≠ [] := by
  unfold dataLines
  split
  · exact cons_ne_nil _ _
  · assumption

/-- No payload breaks a line of its frame. -/
lemma unbroken_dataLines {line : List Char} (h : line ∈ dataLines data) : Unbroken line := by
  have hplain : ∀ c ∈ line, isLineBreak c = false := by
    unfold dataLines at h
    split at h
    · rw [mem_singleton.mp h]
      exact fun _ => nofun
    · exact not_break_of_mem_bareLines (by decide) h
  constructor
  · exact fun hmem => absurd (hplain _ hmem) (by decide)
  · exact fun hmem => absurd (hplain _ hmem) (by decide)

lemma lines_spec (h : f.Plain) {line : List Char} (hline : line ∈ f.lines) : line ≠ [] ∧ Unbroken line := by
  have hlabel : ∀ (label : String) (rest : List Char), label.toList ≠ [] → Unbroken label.toList → Unbroken rest →
      label.toList ++ rest ≠ [] ∧ Unbroken (label.toList ++ rest) := by
    intro label rest hne hhead htail
    refine ⟨fun hnil => hne (append_eq_nil_iff.mp hnil).1, ?_, ?_⟩
    · exact fun hmem => (mem_append.mp hmem).elim hhead.1 htail.1
    · exact fun hmem => (mem_append.mp hmem).elim hhead.2 htail.2
  cases f with
  | message event eventId data =>
    rcases mem_cons.mp hline with rfl | hline
    · exact hlabel "event: " event (by decide) (by decide) h.1
    rcases mem_cons.mp hline with rfl | hline
    · exact hlabel "id: " eventId (by decide) (by decide) h.2.1
    obtain ⟨line, hmem, rfl⟩ := mem_map.mp hline
    exact hlabel "data: " line (by decide) (by decide) (unbroken_dataLines hmem)
  | heartbeat comment =>
    rw [mem_singleton.mp hline]
    exact hlabel ": " comment (by decide) (by decide) h

/-! ### The text between two blank lines -/

lemma scan_more (parts : List (List Char)) (rest text : List Char) :
    text.foldl scan (parts, rest) = (parts ++ (text.foldl scan ([], rest)).1, (text.foldl scan ([], rest)).2) := by
  induction text generalizing parts rest with
  | nil => simp
  | cons c text ih =>
    rw [foldl_cons, foldl_cons, ih, ih (scan ([], rest) c).1]
    unfold scan
    split_ifs <;> simp

/-- What is left over is in one part. -/
lemma split_rest (text : List Char) : split (split text).2 = ([], (split text).2) ∧ (split text).2 ⊆ text := by
  induction text using reverseRecOn with
  | nil => exact ⟨rfl, Subset.refl _⟩
  | append_singleton text c ih =>
    have hstep : split (text ++ [c]) = scan (split text) c := by rw [split, foldl_append]; rfl
    rw [hstep]
    unfold scan
    split_ifs with hend
    · exact ⟨rfl, nil_subset _⟩
    · refine ⟨?_, append_subset.mpr ⟨fun _ hd => mem_append_left _ (ih.2 hd), subset_append_right _ _⟩⟩
      change split ((split text).2 ++ [c]) = _
      rw [split, foldl_append, ← split, ih.1]
      exact if_neg hend

lemma split_append (text more : List Char) : split (text ++ more) =
    ((split text).1 ++ (split ((split text).2 ++ more)).1, (split ((split text).2 ++ more)).2) := by
  have hrest : split ((split text).2 ++ more) = more.foldl scan ([], (split text).2) := by
    rw [split, foldl_append, ← split, (split_rest text).1]
  rw [hrest, split, foldl_append, ← split, ← scan_more]

lemma scan_line {line : List Char} (h : '\n' ∉ line) (parts : List (List Char)) (rest : List Char) :
    line.foldl scan (parts, rest) = (parts, rest ++ line) := by
  induction line generalizing rest with
  | nil => simp
  | cons c line ih =>
    have hc : ¬ (c = '\n' ∧ rest.getLast? = some '\n') := fun hc => h (hc.1 ▸ mem_cons_self)
    rw [foldl_cons, scan, if_neg hc, ih fun hmem => h (mem_cons_of_mem c hmem), append_assoc]
    rfl

lemma scan_lines {lines : List (List Char)} (h : ∀ line ∈ lines, line ≠ [] ∧ '\n' ∉ line) (parts : List (List Char))
    (rest : List Char) : (lines.flatMap (· ++ ['\n'])).foldl scan (parts, rest) =
      (parts, rest ++ lines.flatMap (· ++ ['\n'])) := by
  induction lines generalizing rest with
  | nil => simp
  | cons line lines ih =>
    obtain ⟨hne, hline⟩ := h line mem_cons_self
    have hopen : ¬ ('\n' = '\n' ∧ (rest ++ line).getLast? = some '\n') := by
      rintro ⟨-, hlast⟩
      rw [getLast?_append_of_ne_nil _ hne] at hlast
      exact hline (mem_of_getLast? hlast)
    rw [flatMap_cons, foldl_append, foldl_append, scan_line hline, foldl_cons, foldl_nil, scan, if_neg hopen,
      ih fun l hl => h l (mem_cons_of_mem _ hl)]
    simp

lemma flatMap_lines {lines : List (List Char)} (h : lines ≠ []) :
    lines.flatMap (· ++ ['\n']) = ['\n'].intercalate lines ++ ['\n'] := by
  induction lines with
  | nil => exact absurd rfl h
  | cons line lines ih =>
    cases lines with
    | nil => simp
    | cons next lines =>
      rw [flatMap_cons, ih (cons_ne_nil _ _), intercalate_cons_of_ne_nil (cons_ne_nil _ _)]
      simp

lemma lines_ne_nil (f : Frame) : f.lines ≠ [] := by cases f <;> exact cons_ne_nil _ _

lemma text_eq (f : Frame) : f.text = f.lines.flatMap (· ++ ['\n']) ++ ['\n'] := by
  rw [flatMap_lines (lines_ne_nil f), append_assoc]
  cases f <;> rfl

lemma split_frame (h : f.Plain) (rest : List Char) :
    split (f.text ++ rest) = (['\n'].intercalate f.lines :: (split rest).1, (split rest).2) := by
  have hframe : split f.text = ([['\n'].intercalate f.lines], []) := by
    rw [text_eq, split, foldl_append, scan_lines fun l hl => ⟨(lines_spec h hl).1, (lines_spec h hl).2.1⟩,
      flatMap_lines (lines_ne_nil f)]
    simp [scan]
  rw [split_append, hframe]
  rfl

/-! ### The client -/

lemma normalize_eq (h : '\r' ∉ text) : normalize text = text := by
  fun_induction normalize text with
  | case1 => rfl
  | case2 | case3 => exact absurd mem_cons_self h
  | case4 c rest _ _ ih => rw [ih fun hmem => h (mem_cons_of_mem c hmem)]

/-- However the text is cut into reads. -/
lemma reads_eq (reads : List (List Char)) (c : SseClient) (hplain : '\r' ∉ c.buffer ++ reads.flatten)
    (hrest : split c.buffer = ([], c.buffer)) : reads.foldl SseClient.read c =
      { buffer := (split (c.buffer ++ reads.flatten)).2
        heard := (split (c.buffer ++ reads.flatten)).1.foldl Heard.chunk c.heard } := by
  induction reads generalizing c with
  | nil =>
    rw [foldl_nil, flatten_nil, append_nil, hrest]
    rfl
  | cons value reads ih =>
    rw [flatten_cons, ← append_assoc] at hplain ⊢
    have hread : c.read value =
        ⟨(split (c.buffer ++ value)).2, (split (c.buffer ++ value)).1.foldl Heard.chunk c.heard⟩ := by
      rw [SseClient.read, normalize_eq fun hmem => hplain (mem_append_left _ hmem)]
    obtain ⟨hsplit, hsub⟩ := split_rest (c.buffer ++ value)
    rw [foldl_cons, hread, ih _ ?_ hsplit, split_append (c.buffer ++ value), foldl_append]
    exact fun hmem => hplain ((mem_append.mp hmem).elim (fun hmem => mem_append_left _ (hsub hmem)) (mem_append_right _))

lemma foldl_data (lines : List (List Char)) (f : Fields) : (lines.map ("data: ".toList ++ ·)).foldl Fields.line f =
    { f with dataLines := f.dataLines ++ lines.map (dropWhile isSpace) } := by
  induction lines generalizing f with
  | nil => simp
  | cons line lines ih =>
    have hline : f.line ("data: ".toList ++ line) = { f with dataLines := f.dataLines ++ [line.dropWhile isSpace] } := rfl
    rw [map_cons, foldl_cons, hline, ih]
    simp

lemma chunk_frame (h' : f.Plain) : h.chunk (['\n'].intercalate f.lines) = h.frame f := by
  unfold Heard.chunk
  rw [splitOn_intercalate '\n' (fun l hl => (lines_spec h' hl).2.1) (lines_ne_nil f)]
  cases f with
  | message event eventId data =>
    obtain ⟨-, -, hevent, hid⟩ := h'
    have hfirst : ∀ f : Fields, f.line ("event: ".toList ++ event) = { f with event := some event } := by
      intro f
      change { f with event := some (event.dropWhile isSpace) } = _
      rw [hevent]
    have hsecond : ∀ f : Fields, f.line ("id: ".toList ++ eventId) = { f with lastEventId := some eventId } := by
      intro f
      change { f with lastEventId := some (eventId.dropWhile isSpace) } = _
      rw [hid]
    simp only [Frame.lines, foldl_cons, hfirst, hsecond, foldl_data, nil_append]
    rw [if_neg (by simpa using dataLines_ne_nil data)]
    rfl
  | heartbeat comment => rfl

lemma split_frames {frames : List Frame} (h : ∀ f ∈ frames, f.Plain) :
    split (frames.flatMap Frame.text) = (frames.map fun f => ['\n'].intercalate f.lines, []) := by
  induction frames with
  | nil => rfl
  | cons f frames ih =>
    rw [flatMap_cons, split_frame (h f mem_cons_self), ih fun g hg => h g (mem_cons_of_mem _ hg)]
    rfl

lemma no_return {frames : List Frame} (h : ∀ f ∈ frames, f.Plain) : '\r' ∉ frames.flatMap Frame.text := by
  intro hmem
  obtain ⟨f, hf, hmem⟩ := mem_flatMap.mp hmem
  rw [text_eq] at hmem
  rcases mem_append.mp hmem with hmem | hmem
  · obtain ⟨line, hline, hmem⟩ := mem_flatMap.mp hmem
    rcases mem_append.mp hmem with hmem | hmem
    · exact (lines_spec (h f hf) hline).2.2 hmem
    · exact absurd hmem (by decide)
  · exact absurd hmem (by decide)

/-- A payload without breaks comes back as it was. -/
lemma rawData_eq (hplain : ∀ c ∈ write (object data), isLineBreak c = false) : rawData data = write (object data) := by
  obtain ⟨rest, hwrite⟩ : ∃ rest, write (object data) = '{' :: rest := ⟨_, rfl⟩
  unfold rawData dataLines bareLines
  rw [hwrite] at hplain ⊢
  rw [splitLines_of_unbroken hplain, map_singleton, rdropWhile_eq_self_iff.mpr fun hne => by simp [hplain _ (getLast_mem hne)]]
  change ['\n'].intercalate ['{' :: rest] = _
  simp

/-- Wherever the network cuts the frames, the client has heard what they say when it has read them, and nothing is
left over. A payload that the writer did not have to cut is handed on as it was encoded. -/
theorem frames_heard {frames : List Frame} (h : ∀ f ∈ frames, f.Plain) {reads : List (List Char)}
    (hreads : reads.flatten = frames.flatMap Frame.text) :
    reads.foldl SseClient.read {} = { buffer := [], heard := frames.foldl Heard.frame {} } ∧
      ∀ event eventId data, Frame.message event eventId data ∈ frames →
        (∀ c ∈ write (object data), isLineBreak c = false) → rawData data = write (object data) := by
  refine ⟨?_, fun _ _ _ _ hplain => rawData_eq hplain⟩
  rw [reads_eq reads {} (by simpa [hreads] using no_return h) rfl, hreads]
  change SseClient.mk (split (frames.flatMap Frame.text)).2 ((split (frames.flatMap Frame.text)).1.foldl _ _) = _
  rw [split_frames h, foldl_map]
  congr 1
  exact foldl_ext _ _ _ fun _ f hf => chunk_frame (h f hf)

end

/-! ### A frame that is cut within its blank line -/

def targetChanged : WorkspaceResourceChanged where
  eventId := "ev-1"
  occurredAt := "2026-01-01T00:00:00Z"
  resourceKind := .target

def sentFrames : List Frame := [.changed targetChanged, .heartbeat].map (frameOf "2026-01-01T00:00:15Z")

def cutReads : List (List Char) := [(sentFrames.flatMap Frame.text).take 226, (sentFrames.flatMap Frame.text).drop 226]

theorem cut_heard : cutReads.foldl SseClient.read {} = { buffer := [], heard := sentFrames.foldl Heard.frame {} } := by
  have hplain : ∀ f ∈ sentFrames, f.Plain := by
    intro f hf
    rcases mem_cons.mp hf with rfl | hf
    · exact ⟨by decide, by decide, rfl, rfl⟩
    · rw [mem_singleton.mp hf]
      exact ⟨by decide, by decide⟩
  exact (frames_heard hplain (show cutReads.flatten = _ by simp [cutReads])).1

end IncidentLens.Streams.Sse
