import IncidentLens.Logs.Polling
import IncidentLens.Logs.Docker

/-!
# What a subscription reads

A source of log lines, as its subscription sees it: where each line starts, which position a
cursor names, and what a reading that starts from a cursor hands over. Readings pass over no
line: what starts between the position of the reading and the cursor of a line it hands over
was handed over no later. Log files are such sources.
-/
namespace IncidentLens.Logs
open Data List

structure Source where
  Line : Type
  /-- What the reader gets to see when it starts to read. -/
  Look : Type
  Holds : Line → Prop
  start : Line → ℕ
  Carries : RawLogLine → Line → Prop
  read : Look → Option LogCursor → Time → List RawLogLine
  opening : Option LogCursor → Time → ℕ
  position : LogCursor → ℕ
  Known : LogCursor → Prop
  known_read : ∀ {look cursor now r}, (∀ c, cursor = some c → Known c) → r ∈ read look cursor now → Known ⟨r.cursor⟩
  opening_known : ∀ {c} now, Known c → opening (some c) now = position c
  covers : ∀ {look cursor now i r l}, (∀ c, cursor = some c → Known c) → (read look cursor now)[i]? = some r →
    Holds l → opening cursor now ≤ start l → start l < position ⟨r.cursor⟩ →
    ∃ r' ∈ (read look cursor now).take (i + 1), Carries r' l

/-! ### Log files -/

lemma cursor_streamLines {sourceRef : String} {now : Time} {o : ℕ} {ls : List Bytes} {r : RawLogLine}
    (h : r ∈ streamLines sourceRef now o ls) : r.sourceRef = sourceRef ∧ ∃ n : ℕ, r.cursor = fileCursor n := by
  induction ls generalizing o with
  | nil => cases h
  | cons l ls ih =>
    rw [streamLines] at h
    split_ifs at h
    · exact ih h
    · rcases mem_cons.mp h with rfl | h
      · exact ⟨rfl, o + l.length + 1, by push_cast; rfl⟩
      · have hcast : (o : ℤ) + l.length + 1 = (o + l.length + 1 : ℕ) := by push_cast; rfl
        rw [hcast] at h
        exact ih h

/-- Counted from no later than its true position, a poll hands over a line before any cursor
past its start. -/
theorem streamLines_covers (sourceRef : String) (now : Time) {ds gs : List Bytes} (hds : ds <+: gs) {o o' : ℕ}
    (ho : o' ≤ o) {i : ℕ} {r : RawLogLine} (hr : (streamLines sourceRef now o' ds)[i]? = some r)
    {x : ℕ × Bytes} (hx : x ∈ located o gs) (hne : x.2 ≠ []) (hlt : (x.1 : ℤ) < parseFileOffset ⟨r.cursor⟩) :
    ∃ r' ∈ (streamLines sourceRef now o' ds).take (i + 1), r'.text = decodeReplace x.2 := by
  induction ds generalizing gs o o' i with
  | nil => simp [streamLines] at hr
  | cons d ds ih =>
    obtain ⟨rest, rfl⟩ := hds
    rw [cons_append, located, mem_cons] at hx
    have hcast : (o' : ℤ) + d.length + 1 = (o' + d.length + 1 : ℕ) := by push_cast; rfl
    rw [streamLines] at hr ⊢
    by_cases hd : d = []
    · rw [if_pos hd] at hr ⊢
      rcases hx with rfl | hx
      · exact absurd hd hne
      · exact ih (prefix_append ds rest) (by omega) hr hx
    · rw [if_neg hd, hcast] at hr ⊢
      cases i with
      | zero =>
        obtain rfl := Option.some.inj hr
        simp only [parseFileOffset_fileCursor] at hlt
        rcases hx with rfl | hx
        · exact ⟨_, mem_cons_self, rfl⟩
        · have := le_of_mem_located hx
          omega
      | succ i =>
        rcases hx with rfl | hx
        · exact ⟨_, mem_cons_self, rfl⟩
        · obtain ⟨r', hr', htext⟩ := ih (prefix_append ds rest) (by omega) hr hx
          refine ⟨r', ?_, htext⟩
          rw [take_succ_cons]
          exact mem_cons_of_mem _ hr'

lemma poll_reads (sourceRef : String) {file : Bytes} {p : Poll} (hread : p.read <+: file)
    {cursor : Option LogCursor} {n : ℕ} (hcursor : (cursor.map parseFileOffset).getD 0 = n) :
    ∃ o ls, o ≤ n ∧ ls <+: terminated newline (file.drop o) ∧
      p.readFrom sourceRef cursor = streamLines sourceRef p.now o ls := by
  have hinfo : p.transport.lstat = .ok ⟨p.statted.length, p.modifiedNs⟩ := rfl
  have hstart := startOffset_le p.statted.length n
  generalize ho : startOffset p.statted.length n = o at hstart
  obtain ⟨t, hdata, hsep⟩ := exists_content newline ((p.read.drop o).take maxTailReadBytes)
  have hpre : terminated newline ((p.read.drop o).take maxTailReadBytes) <+: terminated newline (file.drop o) :=
    terminated_prefix ((List.take_prefix _ _).trans (hread.drop o))
  rcases Nat.lt_or_ge o p.statted.length with hin | hout
  · obtain ⟨r, hr, hlines⟩ := stream_eq sourceRef p.now hinfo hcursor (by rw [ho]; exact hin)
      (by rw [ho]; exact congrArg Except.ok hdata) hsep
    rw [ho] at hlines
    exact ⟨o, _, hstart, hpre, by simp only [Poll.readFrom, hr, hlines]⟩
  · obtain ⟨r, hr, hlines⟩ := stream_nothing sourceRef p.now hinfo hcursor (by rw [ho]; exact hout)
    exact ⟨o, [], hstart, nil_prefix, by simp only [Poll.readFrom, hr, hlines, streamLines]⟩

def KnownFileCursor (c : LogCursor) : Prop := ∃ n : ℕ, c.cursor = fileCursor n

lemma offset_of_known {cursor : Option LogCursor} (h : ∀ c, cursor = some c → KnownFileCursor c) :
    ∃ n : ℕ, (cursor.map parseFileOffset).getD 0 = n := by
  cases cursor with
  | none => exact ⟨0, rfl⟩
  | some c =>
    obtain ⟨n, hn⟩ := h c rfl
    obtain ⟨text⟩ := c
    obtain rfl : text = fileCursor n := hn
    exact ⟨n, parseFileOffset_fileCursor n⟩

/-- A file that its polls see longer and longer prefixes of. -/
def fileSource (sourceRef : String) (file : Bytes) : Source where
  Line := ℕ × Bytes
  Look := { p : Poll // p.read <+: file }
  Holds x := x ∈ located 0 (terminated newline file) ∧ x.2 ≠ []
  start x := x.1
  Carries r x := r.sourceRef = sourceRef ∧ r.text = decodeReplace x.2
  read p cursor _ := p.1.readFrom sourceRef cursor
  opening cursor _ := ((cursor.map parseFileOffset).getD 0).toNat
  position c := (parseFileOffset c).toNat
  Known := KnownFileCursor
  known_read {p cursor now r} hknown hr := by
    obtain ⟨n, hn⟩ := offset_of_known hknown
    obtain ⟨o, ls, -, -, hread⟩ := poll_reads sourceRef p.2 hn
    rw [hread] at hr
    exact (cursor_streamLines hr).2
  opening_known _ _ := rfl
  covers {p cursor now i r x} hknown hr hx hfrom hlt := by
    obtain ⟨n, hn⟩ := offset_of_known hknown
    obtain ⟨o, ls, ho, hpre, hread⟩ := poll_reads sourceRef p.2 hn
    rw [hread] at hr ⊢
    rw [hn, Int.toNat_natCast] at hfrom
    obtain ⟨r', hr', htext⟩ := streamLines_covers sourceRef p.1.now hpre le_rfl hr
      (mem_located_drop hx.1 (ho.trans hfrom)) hx.2 (by omega)
    exact ⟨r', hr', (cursor_streamLines (mem_of_mem_take hr')).1, htext⟩

end IncidentLens.Logs
