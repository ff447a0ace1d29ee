import Mathlib.Tactic.Ring
import IncidentLens.Data.Lines

/-!
# File log sources

One poll of a log file: the file is statted, the bytes after the cursor are read up to a
bound, and the complete lines among them are returned with a cursor each.
-/
namespace IncidentLens.Logs
open Data UInt8

abbrev Time := ℤ

def newline : UInt8 := 10

def maxTailReadBytes : ℕ := 16 * 1024 * 1024

/-! ### Decoding with replacement -/

def replacement : Char := Char.ofNat 0xFFFD

/-- An unfinished sequence: the bounds of the bytes still due and the code read so far. -/
structure Unfinished where
  due : List (ℕ × ℕ)
  code : ℕ

/-- A byte that starts a sequence: what it decodes to by itself, or the sequence it opens. -/
def lead (b : UInt8) : List Char × Option Unfinished :=
  let n := b.toNat
  if n < 0x80 then ([Char.ofNat n], none)
  else if 0xC2 ≤ n ∧ n ≤ 0xDF then ([], some ⟨[(0x80, 0xBF)], n - 0xC0⟩)
  else if n = 0xE0 then ([], some ⟨[(0xA0, 0xBF), (0x80, 0xBF)], 0⟩)
  else if n = 0xED then ([], some ⟨[(0x80, 0x9F), (0x80, 0xBF)], 0xD⟩)
  else if 0xE1 ≤ n ∧ n ≤ 0xEF then ([], some ⟨[(0x80, 0xBF), (0x80, 0xBF)], n - 0xE0⟩)
  else if n = 0xF0 then ([], some ⟨[(0x90, 0xBF), (0x80, 0xBF), (0x80, 0xBF)], 0⟩)
  else if 0xF1 ≤ n ∧ n ≤ 0xF3 then ([], some ⟨[(0x80, 0xBF), (0x80, 0xBF), (0x80, 0xBF)], n - 0xF0⟩)
  else if n = 0xF4 then ([], some ⟨[(0x80, 0x8F), (0x80, 0xBF), (0x80, 0xBF)], 4⟩)
  else ([replacement], none)

/-- A sequence that breaks off is one replacement character, and the byte that breaks it is
read again as the start of the next. -/
def decodeFrom : Option Unfinished → Bytes → List Char
  | none, [] => []
  | some _, [] => [replacement]
  | none, b :: s => (lead b).1 ++ decodeFrom (lead b).2 s
  | some p, b :: s => match p.due with
    | [] => replacement :: (lead b).1 ++ decodeFrom (lead b).2 s
    | (lo, hi) :: due =>
      if lo ≤ b.toNat ∧ b.toNat ≤ hi then
        let code := 64 * p.code + b.toNat % 64
        if due = [] then Char.ofNat code :: decodeFrom none s else decodeFrom (some ⟨due, code⟩) s
      else replacement :: (lead b).1 ++ decodeFrom (lead b).2 s

/-- `raw.decode("utf-8", errors="replace")`. -/
def decodeReplace (raw : Bytes) : String := String.ofList (decodeFrom none raw)

/-! ### Cursors -/

/-- The position stored for a subscription. -/
structure LogCursor where
  cursor : String
  deriving DecidableEq

structure RawLogLine where
  sourceRef : String
  cursor : String
  observedAt : Time
  text : String
  deriving DecidableEq

/-- `int(s)`; cursors are ASCII texts. -/
def parseInt? (s : List Char) : Option ℤ :=
  if s.all fun c => c.toNat < 128 then int? (s.map fun c => ofNat c.toNat) else none

/-- The byte offset of a `file:offset=<int>` cursor. -/
def parseFileOffset (cursor : LogCursor) : ℤ :=
  match (cursor.cursor.toList.dropWhile (· ≠ '=')).tail? with
  | some value => (parseInt? value).getD 0
  | none => 0

def fileCursor (offset : ℤ) : String := "file:offset=" ++ toString offset

/-! ### Polls -/

structure FileMetadata where
  size : ℕ
  modifiedNs : ℤ

/-- What a poll asks of the host about its file. -/
structure FileTransport (ε : Type) where
  lstat : Except ε FileMetadata
  readBytes : ℤ → ℕ → Except ε Bytes

structure FileStreamResult where
  generation : String
  lines : List RawLogLine
  rotated : Bool := false

def generationFor (m : FileMetadata) : String := s!"mtime={m.modifiedNs}:size={m.size}"

/-- The loop over the pieces of the data: blank pieces are skipped and leave the offset as it
is. -/
def streamLines (sourceRef : String) (now : Time) : ℤ → List Bytes → List RawLogLine
  | _, [] => []
  | cursorOffset, raw :: rest =>
    if raw = [] then streamLines sourceRef now cursorOffset rest
    else
      let cursorOffset := cursorOffset + raw.length + 1
      { sourceRef := sourceRef
        cursor := fileCursor cursorOffset
        observedAt := now
        text := decodeReplace raw } :: streamLines sourceRef now cursorOffset rest

/-- `FileLogSource.stream` over an open session. -/
def FileLogSource.stream {ε : Type} (transport : FileTransport ε) (sourceRef : String) (now : Time)
    (cursor : Option LogCursor) : Except ε FileStreamResult := do
  let stat ← transport.lstat
  let offset := (cursor.map parseFileOffset).getD 0
  let rotated : Bool := (stat.size : ℤ) < offset
  let offset := if rotated then 0 else offset
  if (stat.size : ℤ) ≤ offset then
    return { generation := generationFor stat, lines := [] }
  let data ← transport.readBytes offset maxTailReadBytes
  let lastNewline := rfind newline data
  if lastNewline = -1 then
    return { generation := generationFor stat, lines := [] }
  let complete := sliceTo data (lastNewline + 1)
  return { generation := generationFor stat
           lines := streamLines sourceRef now offset (complete.splitOn newline)
           rotated := rotated }

/-! ### Offsets survive their texts -/

lemma toNat_of_isDigit {c : Char} (hc : c.isDigit) : 48 ≤ c.toNat ∧ c.toNat ≤ 57 := by
  have h : 48 ≤ c.val ∧ c.val ≤ 57 := by simpa [Char.isDigit] using hc
  exact ⟨UInt32.le_iff_toNat_le.mp h.1, UInt32.le_iff_toNat_le.mp h.2⟩

lemma digit?_ofNat {c : Char} (hc : c.isDigit) : digit? (ofNat c.toNat) = some (c.toNat - 48) := by
  obtain ⟨hlo, hhi⟩ := toNat_of_isDigit hc
  have h : (ofNat c.toNat).toNat = c.toNat := by
    simp only [toNat_ofNat']
    omega
  rw [digit?, if_pos, h]
  simp only [le_iff_toNat_le, h]
  exact ⟨hlo, hhi⟩

lemma digitsFrom_digits {ds : List Char} (hds : ∀ c ∈ ds, c.isDigit) (acc : ℕ) (hne : ds ≠ []) (sep : Bool) :
    digitsFrom acc sep (ds.map fun c => ofNat c.toNat) = some (Nat.ofDigitChars 10 ds acc) := by
  induction ds generalizing acc sep with
  | nil => exact absurd rfl hne
  | cons c ds ih =>
    simp only [List.map_cons, digitsFrom, digit?_ofNat (hds c List.mem_cons_self)]
    cases ds with
    | nil => simp [digitsFrom, Nat.ofDigitChars]
    | cons d ds =>
      rw [ih (fun c' hc' => hds c' (List.mem_cons_of_mem _ hc')) _ (by simp) true]
      simp [Nat.ofDigitChars]

lemma strip_of_forall {s : Bytes} (h : ∀ b ∈ s, isSpace b = false) : strip s = s := by
  have hself : ∀ t : Bytes, (∀ b ∈ t, isSpace b = false) → t.dropWhile isSpace = t := by
    intro t ht
    cases t with
    | nil => rfl
    | cons b t => simp [ht b List.mem_cons_self]
  rw [strip, hself s h, hself s.reverse (fun b hb => h b (List.mem_reverse.mp hb)), List.reverse_reverse]

lemma parseInt?_toDigits (n : ℕ) : parseInt? (Nat.toDigits 10 n) = some (n : ℤ) := by
  have hdigit : ∀ c ∈ Nat.toDigits 10 n, c.isDigit := fun c hc =>
    Nat.isDigit_of_mem_toDigits (by decide) (by decide) hc
  have hrange : ∀ c ∈ Nat.toDigits 10 n, 48 ≤ c.toNat ∧ c.toNat ≤ 57 := fun c hc =>
    toNat_of_isDigit (hdigit c hc)
  have hbyte : ∀ b ∈ (Nat.toDigits 10 n).map (fun c => UInt8.ofNat c.toNat), 48 ≤ b.toNat ∧ b.toNat ≤ 57 := by
    intro b hb
    obtain ⟨c, hc, rfl⟩ := List.mem_map.mp hb
    have hc := hrange c hc
    simp only [UInt8.toNat_ofNat']
    omega
  have hspace : strip ((Nat.toDigits 10 n).map fun c => UInt8.ofNat c.toNat) =
      (Nat.toDigits 10 n).map fun c => UInt8.ofNat c.toNat := by
    refine strip_of_forall fun b hb => ?_
    have h := hbyte b hb
    simp only [isSpace, Bool.or_eq_false_iff, beq_eq_false_iff_ne, Bool.and_eq_false_iff,
      decide_eq_false_iff_not, UInt8.le_iff_toNat_le, ne_eq, ← UInt8.toNat_inj, UInt8.reduceToNat]
    omega
  have hsum := digitsFrom_digits hdigit 0 Nat.toDigits_ne_nil false
  rw [Nat.ofDigitChars_ten_toDigits] at hsum
  rw [parseInt?, if_pos (by simpa using fun c hc => by have := hrange c hc; omega), int?, hspace]
  split
  · rename_i t ht
    have h := hbyte 43 (by rw [ht]; exact List.mem_cons_self)
    simp at h
  · rename_i t ht
    have h := hbyte 45 (by rw [ht]; exact List.mem_cons_self)
    simp at h
  · rw [hsum]
    rfl

@[simp] lemma parseFileOffset_fileCursor (n : ℕ) : parseFileOffset ⟨fileCursor n⟩ = n := by
  have htext : (fileCursor n).toList = "file:offset=".toList ++ Nat.toDigits 10 n := by
    have hdec : (toString (n : ℤ)).toList = Nat.toDigits 10 n := Nat.toList_repr
    rw [fileCursor, String.toList_append, hdec]
  have hvalue : ((fileCursor n).toList.dropWhile (· ≠ '=')).tail? = some (Nat.toDigits 10 n) := by
    rw [htext]
    rfl
  simp only [parseFileOffset, hvalue, parseInt?_toDigits, Option.getD_some]

lemma fileCursor_inj {m n : ℕ} (h : fileCursor m = fileCursor n) : m = n := by
  have h := congrArg (fun c => parseFileOffset ⟨c⟩) h
  simpa using h

/-! ### What one poll returns -/

lemma streamLines_append_blank (sourceRef : String) (now : Time) (o : ℤ) (ls : List Bytes) :
    streamLines sourceRef now o (ls ++ [[]]) = streamLines sourceRef now o ls := by
  induction ls generalizing o with
  | nil => rfl
  | cons l ls ih => simp [streamLines, ih]

/-- Where a poll starts to read: at its offset, or at 0 when the file is shorter. -/
def startOffset (size offset : ℕ) : ℕ := if size < offset then 0 else offset

lemma startOffset_le (size offset : ℕ) : startOffset size offset ≤ offset := by
  unfold startOffset
  split_ifs <;> omega

lemma startOffset_of_le {size offset : ℕ} (h : offset ≤ size) : startOffset size offset = offset := by
  rw [startOffset, if_neg (by omega)]

section Stream
variable {ε : Type} {transport : FileTransport ε} (sourceRef : String) (now : Time) {cursor : Option LogCursor}
  {stat : FileMetadata} {offset : ℕ}

lemma rotated_offset (size offset : ℕ) :
    (if decide ((size : ℤ) < (offset : ℤ)) = true then (0 : ℤ) else offset) = startOffset size offset := by
  simp [startOffset, decide_eq_true_eq]

lemma stream_eq {ls : List Bytes} {t : Bytes} (hstat : transport.lstat = .ok stat)
    (hoffset : (cursor.map parseFileOffset).getD 0 = offset) (hsize : startOffset stat.size offset < stat.size)
    (hread : transport.readBytes (startOffset stat.size offset) maxTailReadBytes = .ok (content newline ls t))
    (hsep : Separated newline ls t) : ∃ r, FileLogSource.stream transport sourceRef now cursor = .ok r ∧
      r.lines = streamLines sourceRef now (startOffset stat.size offset) ls := by
  have hnot : ¬ ((stat.size : ℤ) ≤ (startOffset stat.size offset : ℤ)) := by omega
  have hnone : Separated newline ls [] := ⟨hsep.1, List.not_mem_nil⟩
  have hcut : sliceTo (content newline ls t) (((size ls : ℤ) - 1) + 1) = content newline ls [] := by
    have h := take_size_add newline ls t 0
    rw [Nat.add_zero, List.take_zero] at h
    rw [Int.sub_add_cancel, sliceTo_natCast, h]
  simp only [FileLogSource.stream, hstat, hoffset, bind, Except.bind, rotated_offset, if_neg hnot, hread,
    rfind_content hsep, pure, Except.pure]
  by_cases hls : size ls = 0
  · have hnil : ls = [] := by
      cases ls with
      | nil => rfl
      | cons l ls => simp at hls
    subst hnil
    exact ⟨_, rfl, rfl⟩
  · rw [if_neg (by omega), hcut, splitOn_content hnone, streamLines_append_blank]
    exact ⟨_, rfl, rfl⟩

lemma stream_nothing (hstat : transport.lstat = .ok stat)
    (hoffset : (cursor.map parseFileOffset).getD 0 = offset) (hsize : stat.size ≤ startOffset stat.size offset) :
    ∃ r, FileLogSource.stream transport sourceRef now cursor = .ok r ∧ r.lines = [] := by
  have hle : (stat.size : ℤ) ≤ (startOffset stat.size offset : ℤ) := by omega
  simp only [FileLogSource.stream, hstat, hoffset, bind, Except.bind, rotated_offset, if_pos hle, pure, Except.pure]
  exact ⟨_, rfl, rfl⟩

end Stream
end IncidentLens.Logs
