import Mathlib.Data.List.Pairwise
import IncidentLens.Logs.Sources

/-!
# Polling a growing file

A history of polls over a file that only grows, each started from the cursor of the last line
emitted so far. The polls give out the complete lines that are not blank, each with the
offset just after its newline, as long as no blank line stands before another line and every
line fits in one read.
-/
namespace IncidentLens.Logs
open Data RawLogLine List

/-- One poll: the file when it is statted and, by then perhaps longer, when it is read. -/
structure Poll where
  statted : Bytes
  read : Bytes
  grown : statted <+: read
  modifiedNs : ℤ
  now : Time

open Poll

def Poll.transport (p : Poll) : FileTransport Unit where
  lstat := .ok ⟨p.statted.length, p.modifiedNs⟩
  readBytes offset maxBytes := .ok ((p.read.drop offset.toNat).take maxBytes)

def lastCursor (emitted : List RawLogLine) : Option LogCursor := emitted.getLast?.map fun l => ⟨l.cursor⟩

def Poll.readFrom (sourceRef : String) (p : Poll) (cursor : Option LogCursor) : List RawLogLine :=
  match FileLogSource.stream p.transport sourceRef p.now cursor with
  | .ok r => r.lines
  | .error _ => []

/-- The lines that a poll adds to those emitted before. -/
def Poll.lines (sourceRef : String) (p : Poll) (emitted : List RawLogLine) : List RawLogLine :=
  p.readFrom sourceRef (lastCursor emitted)

def pollAll (sourceRef : String) (polls : List Poll) : List RawLogLine :=
  polls.foldl (fun emitted p => emitted ++ p.lines sourceRef emitted) []

/-- The polls see ever longer prefixes of `file`. -/
def Growth (file : Bytes) (polls : List Poll) : Prop :=
  polls.Pairwise (fun p q => p.read <+: q.statted) ∧ ∀ p ∈ polls, p.read <+: file

def RawLogLine.placed (l : RawLogLine) : String × String := (l.text, l.cursor)

/-- How a line with its start is to be emitted. -/
def rendered (x : ℕ × Bytes) : String × String := (decodeReplace x.2, fileCursor (x.1 + x.2.length + 1 : ℕ))

/-- The complete lines of a file that are not blank. -/
def expected (file : Bytes) : List (String × String) :=
  ((located 0 (terminated newline file)).filter fun x => x.2 ≠ []).map rendered

/-- What is emitted is always a part of the expected lines from the first on, and all that
were complete at the stat when a poll finds nothing more. -/
def Partitioned (file : Bytes) : Prop :=
  ∀ sourceRef polls, Growth file polls →
    (pollAll sourceRef polls).map placed <+: expected file ∧
      ∀ p, Growth file (polls ++ [p]) → p.lines sourceRef (pollAll sourceRef polls) = [] →
        expected p.statted <+: (pollAll sourceRef polls).map placed

/-- No blank line before another line, and no line longer than one read. -/
def Pollable (ls : List Bytes) : Prop :=
  ls.Pairwise (fun l l' => l = [] → l' = []) ∧ ∀ l ∈ ls, l ≠ [] → l.length < maxTailReadBytes

/-! ### One poll -/

lemma pollAll_concat (sourceRef : String) (polls : List Poll) (p : Poll) : pollAll sourceRef (polls ++ [p]) =
      pollAll sourceRef polls ++ p.lines sourceRef (pollAll sourceRef polls) := by
  simp [pollAll]

lemma streamLines_placed (sourceRef : String) (now : Time) (o : ℕ) {ls bs : List Bytes}
    (hls : ∀ l ∈ ls, l ≠ []) (hbs : ∀ l ∈ bs, l = []) :
    (streamLines sourceRef now o (ls ++ bs)).map placed = (located o ls).map rendered := by
  induction ls generalizing o with
  | nil =>
    induction bs with
    | nil => rfl
    | cons b bs ih =>
      simp only [nil_append, streamLines, hbs b mem_cons_self, if_true]
      exact ih fun l hl => hbs l (mem_cons_of_mem _ hl)
  | cons l ls ih =>
    have h := ih (o + l.length + 1) fun l' hl' => hls l' (mem_cons_of_mem _ hl')
    push_cast at h
    simp only [cons_append, streamLines, hls l mem_cons_self, if_false, map_cons, h, located]
    simp [placed, rendered]

variable {ls : List Bytes} {emitted : List RawLogLine}

lemma lastCursor_offset (h : emitted.map placed = (located 0 ls).map rendered) :
    ((lastCursor emitted).map parseFileOffset).getD 0 = (size ls : ℤ) := by
  rcases eq_nil_or_concat ls with rfl | ⟨init, l, rfl⟩
  · have hnil : emitted = [] := by simpa [located] using h
    simp [hnil, lastCursor]
  · have hlast := congrArg getLast? h
    simp only [getLast?_map, concat_eq_append, located_append, map_append, located, map_cons,
      map_nil, getLast?_append, getLast?_singleton, Option.some_or] at hlast
    obtain ⟨x, hx, hplaced⟩ := Option.map_eq_some_iff.mp hlast
    have hcursor : x.cursor = fileCursor (size (init ++ [l]) : ℕ) := by
      have h := congrArg Prod.snd hplaced
      simpa [placed, rendered, size_append, Nat.add_assoc] using h
    rw [lastCursor, hx, concat_eq_append]
    simp [hcursor]

lemma Poll.lines_eq (sourceRef : String) (p : Poll) {ms : List Bytes} {t : Bytes}
    (hemitted : emitted.map placed = (located 0 ls).map rendered) (hstat : size ls < p.statted.length)
    (hread : (p.read.drop (size ls)).take maxTailReadBytes = content newline ms t) (hsep : Separated newline ms t) :
    p.lines sourceRef emitted = streamLines sourceRef p.now (size ls) ms := by
  have hinfo : p.transport.lstat = .ok ⟨p.statted.length, p.modifiedNs⟩ := rfl
  have hstart : startOffset p.statted.length (size ls) = size ls := startOffset_of_le hstat.le
  have hdata : p.transport.readBytes (size ls) maxTailReadBytes = .ok (content newline ms t) := by
    rw [← hread]
    rfl
  obtain ⟨r, hr, hlines⟩ := stream_eq sourceRef p.now hinfo (lastCursor_offset hemitted)
    (by rw [hstart]; exact hstat) (by rw [hstart]; exact hdata) hsep
  simp only [lines, readFrom, hr, hlines, hstart]

lemma Poll.lines_nothing (sourceRef : String) (p : Poll) (hemitted : emitted.map placed = (located 0 ls).map rendered)
    (hstat : size ls = p.statted.length) : p.lines sourceRef emitted = [] := by
  have hinfo : p.transport.lstat = .ok ⟨p.statted.length, p.modifiedNs⟩ := rfl
  obtain ⟨r, hr, hlines⟩ := stream_nothing sourceRef p.now hinfo (lastCursor_offset hemitted)
    (by rw [startOffset_of_le hstat.le, hstat])
  simp only [lines, readFrom, hr, hlines]

/-! ### What is expected of a file -/

lemma expected_prefix {p s : Bytes} (h : p <+: s) : expected p <+: expected s := by
  obtain ⟨ms, hms⟩ := terminated_prefix (b := newline) h
  rw [expected, expected, ← hms, located_append, filter_append, map_append]
  exact prefix_append _ _

lemma filter_located {ls bs : List Bytes} (o : ℕ) (hls : ∀ l ∈ ls, l ≠ []) (hbs : ∀ l ∈ bs, l = []) :
    (located o (ls ++ bs)).filter (fun x => x.2 ≠ []) = located o ls := by
  have hmem : ∀ (o : ℕ) (ms : List Bytes), ∀ x ∈ located o ms, x.2 ∈ ms := by
    intro o ms x hx
    rw [← map_snd_located o ms]
    exact mem_map_of_mem hx
  rw [located_append, filter_append, filter_eq_self.mpr, filter_eq_nil_iff.mpr, append_nil]
  · intro x hx
    simp [hbs x.2 (hmem _ _ x hx)]
  · intro x hx
    simp [hls x.2 (hmem _ _ x hx)]

lemma expected_content {ls bs : List Bytes} {t : Bytes} (hsep : Separated newline (ls ++ bs) t)
    (hls : ∀ l ∈ ls, l ≠ []) (hbs : ∀ l ∈ bs, l = []) :
    expected (content newline (ls ++ bs) t) = (located 0 ls).map rendered := by
  rw [expected, terminated_content hsep, filter_located 0 hls hbs]

lemma pollable_split (h : ls.Pairwise fun l l' => l = [] → l' = []) :
    ∃ ns bs, ls = ns ++ bs ∧ (∀ l ∈ ns, l ≠ []) ∧ ∀ l ∈ bs, l = [] := by
  induction ls with
  | nil => exact ⟨[], [], rfl, by simp, by simp⟩
  | cons l ls ih =>
    obtain ⟨hl, hrest⟩ := pairwise_cons.mp h
    by_cases hblank : l = []
    · refine ⟨[], l :: ls, rfl, by simp, fun m hm => ?_⟩
      rcases mem_cons.mp hm with rfl | hm
      · exact hblank
      · exact hl m hm hblank
    · obtain ⟨ns, bs, rfl, hns, hbs⟩ := ih hrest
      refine ⟨l :: ns, bs, rfl, fun m hm => ?_, hbs⟩
      rcases mem_cons.mp hm with rfl | hm
      · exact hblank
      · exact hns m hm

/-! ### A poll that meets no blank line -/

section Steps
variable (sourceRef : String) {xs ys bs : List Bytes} {t : Bytes} {emitted : List RawLogLine} {p : Poll}

/-- After the lines `xs` a poll emits some of the lines that follow, and none only when the
file held no other line at the stat. -/
theorem poll_step (hsep : Separated newline (xs ++ (ys ++ bs)) t)
    (hxs : ∀ l ∈ xs, l ≠ []) (hys : ∀ l ∈ ys, l ≠ []) (hbs : ∀ l ∈ bs, l = [])
    (hfit : ∀ l ∈ ys, l.length < maxTailReadBytes) (hemitted : emitted.map placed = (located 0 xs).map rendered)
    (hstat : size xs ≤ p.statted.length) (hread : p.read <+: content newline (xs ++ (ys ++ bs)) t) : ∃ zs, zs <+: ys ∧
      (emitted ++ p.lines sourceRef emitted).map placed = (located 0 (xs ++ zs)).map rendered ∧
      size (xs ++ zs) ≤ p.read.length ∧
      (p.lines sourceRef emitted = [] → expected p.statted <+: (located 0 xs).map rendered) := by
  have hstatted := p.grown.trans hread
  have hgrown := p.grown.length_le
  have hsepx : Separated newline xs [] := ⟨fun l hl => hsep.1 l (mem_append_left _ hl), not_mem_nil⟩
  have hexpectx : expected (content newline xs []) = (located 0 xs).map rendered := by
    have h : expected (content newline (xs ++ []) []) = _ := expected_content (by simpa using hsepx) hxs (by simp)
    rwa [append_nil] at h
  rw [content_append] at hread hstatted
  rcases Nat.eq_or_lt_of_le hstat with heq | hlt
  · have hlines := lines_nothing sourceRef p hemitted heq
    have hcut : p.statted = content newline xs [] := by
      have h := take_size_add newline xs (content newline (ys ++ bs) t) 0
      rw [Nat.add_zero, heq, take_zero] at h
      rw [← h]
      exact prefix_iff_eq_take.mp hstatted
    refine ⟨[], nil_prefix, by simp [hlines, hemitted], by simp; omega, fun _ => ?_⟩
    rw [hcut, hexpectx]
  · have hdrop : p.read.drop (size xs) <+: content newline (ys ++ bs) t := by
      obtain ⟨r, hr⟩ := hread
      refine ⟨r, ?_⟩
      rw [← drop_append_of_le_length (by omega), hr, drop_size]
    have hsepy : Separated newline (ys ++ bs) t := ⟨fun l hl => hsep.1 l (mem_append_right _ hl), hsep.2⟩
    obtain ⟨j, u, -, hdata, hsepj, hnext, -⟩ := prefix_content hsepy ((List.take_prefix maxTailReadBytes _).trans hdrop)
    have hlines := lines_eq sourceRef p hemitted hlt hdata hsepj
    rw [take_append] at hlines hdata
    have hplaced : (p.lines sourceRef emitted).map placed =
        (located (size xs) (ys.take j)).map rendered := by
      rw [hlines]
      exact streamLines_placed sourceRef p.now (size xs) (fun l hl => hys l (mem_of_mem_take hl))
        fun l hl => hbs l (mem_of_mem_take hl)
    have hlen := congrArg length hdata
    simp only [length_take, length_drop, length_content, size_append] at hlen
    refine ⟨ys.take j, take_prefix _ _, ?_, ?_, fun hnone => ?_⟩
    · rw [map_append, hemitted, hplaced, located_append, map_append, Nat.zero_add]
    · rw [size_append]
      omega
    · have hzs : ys.take j = [] := by
        rw [hnone] at hplaced
        have h := congrArg length hplaced
        simp only [map_nil, length_nil, length_map, length_located] at h
        exact length_eq_zero_iff.mp h.symm
      rcases take_eq_nil_iff.mp hzs with rfl | rfl
      · -- no separator in the data: the file ends within the next line
        cases ys with
        | nil =>
          have h := expected_prefix hstatted
          rwa [← content_append, nil_append, expected_content (by simpa using hsep) hxs hbs] at h
        | cons y ys =>
          have hu := (hnext y rfl).length_le
          have hy := hfit y mem_cons_self
          simp only [take_zero, size_nil, Nat.zero_sub] at hlen
          have hshort : p.statted <+: content newline xs y := by
            have htake := take_size_add newline xs (content newline (y :: ys ++ bs) t) y.length
            rw [cons_append, content, take_left] at htake
            rw [← htake]
            exact prefix_take_iff.mpr ⟨hstatted, by omega⟩
          have hsepxy : Separated newline (xs ++ []) y := ⟨by simpa using hsepx.1, hsepy.1 y (by simp)⟩
          have h := expected_prefix hshort
          have hexpecty := expected_content hsepxy hxs (by simp)
          rw [append_nil] at hexpecty
          rwa [hexpecty] at h
      · have h := expected_prefix hstatted
        rwa [← content_append, nil_append, expected_content (by simpa using hsep) hxs hbs] at h

end Steps

/-! ### Histories of polls -/

lemma pollAll_placed (sourceRef : String) {ns bs : List Bytes} {t : Bytes}
    (hsep : Separated newline (ns ++ bs) t) (hns : ∀ l ∈ ns, l ≠ []) (hbs : ∀ l ∈ bs, l = [])
    (hfit : ∀ l ∈ ns, l.length < maxTailReadBytes) {polls : List Poll}
    (hgrowth : Growth (content newline (ns ++ bs) t) polls) : ∃ xs ys, ns = xs ++ ys ∧
      (pollAll sourceRef polls).map placed = (located 0 xs).map rendered ∧
      ∀ s : Bytes, (∀ p ∈ polls, p.read <+: s) → size xs ≤ s.length := by
  induction polls using reverseRecOn with
  | nil => exact ⟨[], ns, rfl, rfl, by simp⟩
  | append_singleton polls p ih =>
    obtain ⟨hpairs, hreads⟩ := hgrowth
    obtain ⟨hpairs', -, hbefore⟩ := pairwise_append.mp hpairs
    obtain ⟨xs, ys, rfl, hemitted, hinside⟩ := ih ⟨hpairs', fun q hq => hreads q (mem_append_left _ hq)⟩
    have hstat := hinside p.statted fun q hq => hbefore q hq p (by simp)
    have hread := hreads p (by simp)
    rw [append_assoc] at hread hsep
    obtain ⟨zs, ⟨ws, rfl⟩, hplaced, hlen, -⟩ := poll_step sourceRef hsep
      (fun l hl => hns l (mem_append_left _ hl)) (fun l hl => hns l (mem_append_right _ hl)) hbs
      (fun l hl => hfit l (mem_append_right _ hl)) hemitted hstat hread
    refine ⟨xs ++ zs, ws, by simp, ?_, fun s hs => ?_⟩
    · rw [pollAll_concat, hplaced]
    · exact hlen.trans (hs p (by simp)).length_le

variable {file : Bytes}

lemma partitioned_of_pollable (h : Pollable (terminated newline file)) : Partitioned file := by
  obtain ⟨t, hfile, hsep⟩ := exists_content newline file
  obtain ⟨ns, bs, hls, hns, hbs⟩ := pollable_split h.1
  have hfit := h.2
  rw [hls] at hfile hsep hfit
  have hfit' : ∀ l ∈ ns, l.length < maxTailReadBytes := fun l hl =>
    hfit l (mem_append_left _ hl) (hns l hl)
  intro sourceRef polls hgrowth
  rw [hfile] at hgrowth
  obtain ⟨xs, ys, rfl, hemitted, hinside⟩ := pollAll_placed sourceRef hsep hns hbs hfit' hgrowth
  refine ⟨?_, fun p hp hnone => ?_⟩
  · rw [hemitted, hfile, expected_content hsep hns hbs, located_append, map_append]
    exact prefix_append _ _
  · rw [hfile] at hp
    obtain ⟨hpairs, hreads⟩ := hp
    have hstat := hinside p.statted fun q hq => (pairwise_append.mp hpairs).2.2 q hq p (by simp)
    have hread := hreads p (by simp)
    rw [append_assoc] at hread hsep
    obtain ⟨-, -, -, -, hall⟩ := poll_step sourceRef hsep
      (fun l hl => hns l (mem_append_left _ hl)) (fun l hl => hns l (mem_append_right _ hl)) hbs
      (fun l hl => hfit' l (mem_append_right _ hl)) hemitted hstat hread
    rw [hemitted]
    exact hall hnone

/-! ### The first line that goes wrong -/

lemma exists_bad {ls : List Bytes} (h : ¬ Pollable ls) : ∃ pre l post, ls = pre ++ l :: post ∧ Pollable pre ∧ l ≠ [] ∧
      ([] ∈ pre ∨ maxTailReadBytes ≤ l.length) := by
  induction ls using reverseRecOn with
  | nil => exact absurd ⟨List.Pairwise.nil, by simp⟩ h
  | append_singleton pre l ih =>
    by_cases hpre : Pollable pre
    · refine ⟨pre, l, [], rfl, hpre, ?_, ?_⟩
      · rintro rfl
        refine h ⟨pairwise_append.mpr ⟨hpre.1, by simp, by simp⟩, fun m hm hne => ?_⟩
        rcases mem_append.mp hm with hm | hm
        · exact hpre.2 m hm hne
        · exact absurd (mem_singleton.mp hm) hne
      · by_contra hgood
        obtain ⟨hblank, hlong⟩ := not_or.mp hgood
        refine h ⟨pairwise_append.mpr ⟨hpre.1, by simp, fun m hm m' _ hnil => ?_⟩, fun m hm hne => ?_⟩
        · exact absurd (hnil ▸ hm) hblank
        · rcases mem_append.mp hm with hm | hm
          · exact hpre.2 m hm hne
          · rw [mem_singleton.mp hm]
            omega
    · obtain ⟨pre', m, post, rfl, hpre', hne, hbad⟩ := ih hpre
      exact ⟨pre', m, post ++ [l], by simp, hpre', hne, hbad⟩

def Poll.of (file : Bytes) : Poll := ⟨file, file, prefix_refl _, 0, 0⟩

lemma growth_replicate {file file' : Bytes} (h : file <+: file') (n : ℕ) : Growth file' (replicate n (of file)) := by
  refine ⟨pairwise_replicate.mpr (.inr (prefix_refl _)), fun p hp => ?_⟩
  rw [eq_of_mem_replicate hp]
  exact h

lemma exists_quiet (sourceRef : String) (h : Partitioned file) :
    ∃ n, (of file).lines sourceRef (pollAll sourceRef (replicate n (of file))) = [] := by
  by_contra hnever
  have hgrows : ∀ n, n ≤ (pollAll sourceRef (replicate n (of file))).length := by
    intro n
    induction n with
    | zero => exact Nat.zero_le _
    | succ n ih =>
      have hne : (of file).lines sourceRef (pollAll sourceRef (replicate n (of file))) ≠ [] := fun h => hnever ⟨n, h⟩
      have hpos := length_pos_iff.mpr hne
      rw [replicate_succ', pollAll_concat, length_append]
      omega
  have hbound := (h sourceRef _ (growth_replicate (prefix_refl _) ((expected file).length + 1))).1.length_le
  have hmore := hgrows ((expected file).length + 1)
  simp only [length_map] at hbound
  omega

lemma exists_complete (sourceRef : String) (h : Partitioned file) :
    ∃ n, (pollAll sourceRef (replicate n (of file))).map placed = expected file := by
  obtain ⟨n, hquiet⟩ := exists_quiet sourceRef h
  obtain ⟨hpre, hall⟩ := h sourceRef _ (growth_replicate (prefix_refl _) n)
  have hnext : Growth file (replicate n (of file) ++ [of file]) := by
    rw [← replicate_succ']
    exact growth_replicate (prefix_refl _) _
  exact ⟨n, hpre.eq_of_length_le (hall _ hnext hquiet).length_le⟩

lemma streamLines_leading_blanks (sourceRef : String) (now : Time) (o : ℤ) {bs : List Bytes}
    (hbs : ∀ l ∈ bs, l = []) (ls : List Bytes) :
    streamLines sourceRef now o (bs ++ ls) = streamLines sourceRef now o ls := by
  induction bs with
  | nil => rfl
  | cons b bs ih =>
    simp only [cons_append, streamLines, hbs b mem_cons_self, if_true]
    exact ih fun l hl => hbs l (mem_cons_of_mem _ hl)

lemma expected_next {ns bs rest : List Bytes} {l s : Bytes}
    (hsep : Separated newline (ns ++ bs ++ l :: rest) s) (hns : ∀ m ∈ ns, m ≠ []) (hbs : ∀ m ∈ bs, m = [])
    (hl : l ≠ []) : (located 0 ns).map rendered ++ [rendered (size (ns ++ bs), l)] <+:
      expected (content newline (ns ++ bs ++ l :: rest) s) := by
  rw [expected, terminated_content hsep, located_append, filter_append, filter_located 0 hns hbs,
    map_append, located, filter_cons_of_pos (by simpa using hl), map_cons, Nat.zero_add]
  exact (prefix_append_right_inj _).mpr ⟨_, rfl⟩

/-- A poll that meets the line `l` after blank lines: it counts the blank lines as bytes read
but not in the cursor. -/
theorem poll_after_blanks (sourceRef : String) {ns bs : List Bytes} {l : Bytes} {emitted : List RawLogLine}
    (hsep : Separated newline (ns ++ bs ++ [l]) []) (hbs : ∀ m ∈ bs, m = []) (hl : l ≠ [])
    (hemitted : emitted.map placed = (located 0 ns).map rendered) :
    (of (content newline (ns ++ bs ++ [l]) [])).lines sourceRef emitted = [] ∨
      ((of (content newline (ns ++ bs ++ [l]) [])).lines sourceRef emitted).map placed = [rendered (size ns, l)] ∧
        size bs + l.length < maxTailReadBytes := by
  have hdrop : (content newline (ns ++ bs ++ [l]) []).drop (size ns) = content newline (bs ++ [l]) [] := by
    rw [append_assoc, content_append, drop_size]
  have hsepRest : Separated newline (bs ++ [l]) [] := by
    refine ⟨fun m hm => hsep.1 m ?_, not_mem_nil⟩
    rw [append_assoc]
    exact mem_append_right _ hm
  have hread : ((of (content newline (ns ++ bs ++ [l]) [])).read.drop (size ns)).take maxTailReadBytes <+:
      content newline (bs ++ [l]) [] := by
    rw [← hdrop]
    exact take_prefix _ _
  have hstat : size ns < (content newline (ns ++ bs ++ [l]) []).length := by
    simp only [length_content, size_append, size_cons, size_nil]
    omega
  obtain ⟨j, u, -, hdata, hsepj, -, -⟩ := prefix_content hsepRest hread
  have hlines := lines_eq sourceRef _ hemitted hstat hdata hsepj
  rw [take_append, streamLines_leading_blanks sourceRef _ _ fun m hm => hbs m (mem_of_mem_take hm)] at hlines
  rcases Nat.lt_or_ge bs.length j with hfull | hcut
  · have hone : [l].take (j - bs.length) = [l] := take_of_length_le (by simp; omega)
    have hwhole : (bs ++ [l]).take j = bs ++ [l] := take_of_length_le (by simp; omega)
    have hlen := congrArg length hdata
    rw [hwhole] at hlen
    simp only [length_take, length_content, size_append, size_cons, size_nil] at hlen
    refine .inr ⟨?_, by omega⟩
    rw [hlines, hone]
    have h : (streamLines sourceRef 0 (size ns) ([l] ++ [])).map placed = _ :=
      streamLines_placed sourceRef 0 (size ns) (by simpa using hl) (by simp)
    exact h
  · -- the line is never complete in what is read
    refine .inl ?_
    rw [hlines, Nat.sub_eq_zero_of_le hcut]
    rfl

lemma not_partitioned {file t : Bytes} {pre post : List Bytes} {l : Bytes}
    (hfile : file = content newline (pre ++ l :: post) t) (hsep : Separated newline (pre ++ l :: post) t)
    (hpre : Pollable pre) (hl : l ≠ []) (hbad : [] ∈ pre ∨ maxTailReadBytes ≤ l.length) : ¬ Partitioned file := by
  intro h
  obtain ⟨ns, bs, rfl, hns, hbs⟩ := pollable_split hpre.1
  have hsepBefore : Separated newline (ns ++ bs) [] := ⟨fun m hm => hsep.1 m (mem_append_left _ hm), not_mem_nil⟩
  have hsepNext : Separated newline (ns ++ bs ++ [l]) [] := by
    refine ⟨fun m hm => hsep.1 m ?_, not_mem_nil⟩
    simp only [mem_append, mem_cons] at hm ⊢
    tauto
  have hpart : Partitioned (content newline (ns ++ bs) []) :=
    partitioned_of_pollable (by rwa [terminated_content hsepBefore])
  obtain ⟨n, hemitted⟩ := exists_complete "" hpart
  rw [expected_content hsepBefore hns hbs] at hemitted
  have hgrow : content newline (ns ++ bs) [] <+: content newline (ns ++ bs ++ [l]) [] := by
    rw [content_append newline (ns ++ bs)]
    exact content_prefix _ _ nil_prefix
  have hinside : content newline (ns ++ bs ++ [l]) [] <+: file := by
    have hsplit : ns ++ bs ++ l :: post = ns ++ bs ++ [l] ++ post := by simp
    rw [hfile, hsplit, content_append newline (ns ++ bs ++ [l])]
    exact content_prefix _ _ nil_prefix
  have hbefore : Growth file (replicate n (of (content newline (ns ++ bs) []))) :=
    growth_replicate (hgrow.trans hinside) n
  have hpolls : Growth file (replicate n (of (content newline (ns ++ bs) [])) ++
      [of (content newline (ns ++ bs ++ [l]) [])]) := by
    refine ⟨pairwise_append.mpr ⟨hbefore.1, by simp, fun q hq q' hq' => ?_⟩, fun q hq => ?_⟩
    · rw [eq_of_mem_replicate hq, mem_singleton.mp hq']
      exact hgrow
    · rcases mem_append.mp hq with hq | hq
      · exact hbefore.2 q hq
      · rw [mem_singleton.mp hq]
        exact hinside
  rcases poll_after_blanks "" hsepNext hbs hl hemitted with hnothing | ⟨hline, hfits⟩
  · have hall := (h "" _ hbefore).2 _ hpolls hnothing
    rw [hemitted] at hall
    have hlen := ((expected_next hsepNext hns hbs hl).trans hall).length_le
    simp at hlen
  · have hall := (h "" _ hpolls).1
    rw [pollAll_concat, map_append, hemitted, hline, hfile] at hall
    have heq := prefix_of_prefix_length_le hall (expected_next hsep hns hbs hl) (by simp)
    have hrow := (prefix_append_right_inj _).mp heq
    simp only [cons_prefix_cons, rendered, Prod.mk.injEq] at hrow
    have hsize := fileCursor_inj hrow.1.2
    rw [size_append] at hsize
    have hnone : bs = [] := by
      cases bs with
      | nil => rfl
      | cons b bs =>
        rw [size_cons] at hsize
        omega
    rcases hbad with hblank | hlong
    · rw [hnone, append_nil] at hblank
      exact hns [] hblank rfl
    · omega

/-- Polling partitions a file exactly when its blank lines come last and each of its lines
fits in one read. -/
theorem partitioned_iff (file : Bytes) : Partitioned file ↔ Pollable (terminated newline file) := by
  refine ⟨fun h => ?_, partitioned_of_pollable⟩
  by_contra hbad
  obtain ⟨t, hfile, hsep⟩ := exists_content newline file
  obtain ⟨pre, l, post, hls, hpre, hl, hwhy⟩ := exists_bad hbad
  rw [hls] at hfile hsep
  exact not_partitioned hfile hsep hpre hl hwhy h

/-- `a`, a blank line, `b`: the cursor of `b` comes out as 4, one byte short. -/
theorem blank_line_not_partitioned : ¬ Partitioned [97, 10, 10, 98, 10] := by
  have hsep : Separated newline ([[97], []] ++ [98] :: []) [] := by
    unfold Separated newline
    decide
  have hpre : Pollable [[97], []] := by
    unfold Pollable maxTailReadBytes
    decide
  have hfile : ([97, 10, 10, 98, 10] : Bytes) = content newline ([[97], []] ++ [98] :: []) [] := rfl
  exact not_partitioned hfile hsep hpre (by decide) (.inl (by decide))

end IncidentLens.Logs
