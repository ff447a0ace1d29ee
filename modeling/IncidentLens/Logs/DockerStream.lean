import IncidentLens.Logs.Docker

/-!
# Reconnecting to a container log

A line of a followed log that starts with a timestamp and a blank is emitted without them, and its cursor
carries the timestamp. The cursor of any other line carries the last timestamp before it, and the epoch if
there was none. What a cursor carries is where a reconnect begins.
-/
namespace IncidentLens.Logs
open Data List DockerLogSource

/-- What `partition(" ")` puts before the first blank. -/
def headOf (raw : Bytes) : List Char := (decodeFrom none raw).takeWhile (· ≠ ' ')

def stampOf (raw : Bytes) : Option (List Char) :=
  if ' ' ∈ decodeFrom none raw ∧ isDockerTs (headOf raw) then some (headOf raw) else none

def messageOf (raw : Bytes) : List Char :=
  if (stampOf raw).isSome then (decodeFrom none raw).drop ((headOf raw).length + 1) else decodeFrom none raw

/-- The line begins like a timestamp that goes on up to the blank. -/
def Blurred (raw : Bytes) : Prop :=
  ' ' ∈ decodeFrom none raw ∧ (dockerTs (headOf raw)).isSome ∧ isDockerTs (headOf raw) = false

def epochTs : List Char := "1970-01-01T00:00:00Z".toList

def stamps (lines : List Bytes) : List (List Char) := lines.filterMap stampOf

/-- The time of the last line: its timestamp, or the last one before it, or the epoch. -/
def timeOf (lines : List Bytes) : List Char := (stamps lines).getLastD epochTs

/-- The time that `--since` is given. -/
def sinceArgument (bootstrap : List Char) (cursor : Option LogCursor) : List Char :=
  (cursor.bind parseDockerCursor).getD bootstrap

/-- The timestamps come in the order of time, and none before the epoch. -/
def Chronological (instant : List Char → Time) (lines : List Bytes) : Prop :=
  (epochTs :: stamps lines).Pairwise fun a b => instant a ≤ instant b

lemma isDockerTs_epochTs : isDockerTs epochTs := by decide

lemma isDockerTs_of_mem_stamps {lines : List Bytes} {ts : List Char} (h : ts ∈ stamps lines) : isDockerTs ts := by
  obtain ⟨raw, -, hstamp⟩ := mem_filterMap.mp h
  unfold stampOf at hstamp
  split_ifs at hstamp with hfull
  rw [← Option.some.inj hstamp]
  exact hfull.2

lemma timeOf_append (lines more : List Bytes) : timeOf (lines ++ more) = (stamps more).getLastD (timeOf lines) := by
  unfold timeOf stamps
  rw [filterMap_append]
  simp only [getLastD_eq_getLast?, getLast?_append]
  cases (more.filterMap stampOf).getLast? <;> rfl

lemma timeOf_concat (lines : List Bytes) (raw : Bytes) :
    timeOf (lines ++ [raw]) = (stampOf raw).getD (timeOf lines) := by
  rw [timeOf_append, stamps]
  cases hstamp : stampOf raw with
  | none => rw [filterMap_cons_none hstamp]; rfl
  | some ts => rw [filterMap_cons_some hstamp]; rfl

lemma timeOf_mem (lines : List Bytes) : timeOf lines ∈ epochTs :: stamps lines := by
  unfold timeOf
  rw [getLastD_eq_getLast?]
  cases hlast : (stamps lines).getLast? with
  | none => exact mem_cons_self
  | some ts => exact mem_cons_of_mem _ (mem_of_getLast? hlast)

lemma isDockerTs_timeOf (lines : List Bytes) : isDockerTs (timeOf lines) := by
  rcases mem_cons.mp (timeOf_mem lines) with h | h
  · rw [h]
    exact isDockerTs_epochTs
  · exact isDockerTs_of_mem_stamps h

lemma lineFromRaw_eq (sourceRef : String) (now : Time) {raw : Bytes} (h : ¬ Blurred raw) (seq : ℕ)
    (lastValidTs : Option (List Char)) : lineFromRaw sourceRef now raw seq lastValidTs =
      (⟨sourceRef, dockerCursor ((stampOf raw).getD (lastValidTs.getD epochTs)) seq, now, String.ofList (messageOf raw)⟩,
        (stampOf raw).getD (lastValidTs.getD epochTs)) := by
  unfold lineFromRaw
  by_cases hstamp : ' ' ∈ decodeFrom none raw ∧ (dockerTs (headOf raw)).isSome
  · have hfull : isDockerTs (headOf raw) = true := by
      by_contra hnot
      exact h ⟨hstamp.1, hstamp.2, Bool.not_eq_true _ ▸ hnot⟩
    have hof : stampOf raw = some (headOf raw) := if_pos ⟨hstamp.1, hfull⟩
    have hmessage : messageOf raw = (decodeFrom none raw).drop ((headOf raw).length + 1) := by
      rw [messageOf, hof]
      rfl
    rw [hof, hmessage]
    exact if_pos hstamp
  · have hof : stampOf raw = none := by
      refine if_neg fun hfull => hstamp ⟨hfull.1, ?_⟩
      have hts : dockerTs (headOf raw) = some [] := of_decide_eq_true hfull.2
      rw [hts]
      rfl
    have hmessage : messageOf raw = decodeFrom none raw := by
      rw [messageOf, hof]
      rfl
    rw [hof, hmessage]
    exact if_neg hstamp

section Runs
variable (sourceRef : String) (now : Time)

lemma foldl_readLine (lines : List Bytes) : (lines.foldl (readLine sourceRef now) {}).seq = lines.length ∧
      (lines.foldl (readLine sourceRef now) {}).yielded.length = lines.length ∧ ((∀ raw ∈ lines, ¬ Blurred raw) →
        (lines.foldl (readLine sourceRef now) {}).lastValidTs.getD epochTs = timeOf lines) := by
  induction lines using reverseRecOn with
  | nil => exact ⟨rfl, rfl, fun _ => rfl⟩
  | append_singleton lines raw ih =>
    obtain ⟨hseq, hlength, hlast⟩ := ih
    rw [foldl_concat]
    refine ⟨?_, ?_, fun hclear => ?_⟩
    · rw [readLine, hseq, length_append, length_singleton]
    · rw [readLine, length_append, length_append, hlength, length_singleton, length_singleton]
    · have hraw := hclear raw (mem_append_right _ (mem_singleton_self raw))
      have hbefore := hlast fun r hr => hclear r (mem_append_left _ hr)
      rw [readLine, lineFromRaw_eq sourceRef now hraw, timeOf_concat, hbefore]
      rfl

lemma yielded_append (lines more : List Bytes) (s : DockerReader) :
    ∃ rest, ((lines ++ more).foldl (readLine sourceRef now) s).yielded =
      (lines.foldl (readLine sourceRef now) s).yielded ++ rest := by
  induction more using reverseRecOn with
  | nil => exact ⟨[], by rw [append_nil, append_nil]⟩
  | append_singleton more raw ih =>
    obtain ⟨rest, hrest⟩ := ih
    rw [← append_assoc, foldl_concat, readLine, hrest, append_assoc]
    exact ⟨_, rfl⟩

lemma yielded_getElem? {lines : List Bytes} {i : ℕ} {raw : Bytes} (hraw : lines[i]? = some raw)
    (hclear : ∀ r ∈ lines.take (i + 1), ¬ Blurred r) : (lines.foldl (readLine sourceRef now) {}).yielded[i]? = some
      ⟨sourceRef, dockerCursor (timeOf (lines.take (i + 1))) (i + 1), now, String.ofList (messageOf raw)⟩ := by
  have htake : lines.take (i + 1) = lines.take i ++ [raw] := by
    rw [take_add_one, hraw]
    rfl
  have hlength : (lines.take i).length = i := by
    rw [length_take]
    have := (List.getElem?_eq_some_iff.mp hraw).1
    omega
  obtain ⟨hseq, hyielded, hlast⟩ := foldl_readLine sourceRef now (lines.take i)
  have hlast := hlast fun r hr => hclear r (htake ▸ mem_append_left _ hr)
  rw [hlength] at hseq hyielded
  have hone : ((lines.take (i + 1)).foldl (readLine sourceRef now) {}).yielded[i]? = some
      ⟨sourceRef, dockerCursor (timeOf (lines.take (i + 1))) (i + 1), now, String.ofList (messageOf raw)⟩ := by
    have hrawclear := hclear raw (htake ▸ mem_append_right _ (mem_singleton_self raw))
    rw [htake, foldl_concat, readLine, lineFromRaw_eq sourceRef now hrawclear, hlast, hseq, timeOf_concat]
    dsimp only
    rw [getElem?_append_right hyielded.le, hyielded, Nat.sub_self]
    rfl
  obtain ⟨rest, hrest⟩ := yielded_append sourceRef now (lines.take (i + 1)) (lines.drop (i + 1)) {}
  rw [take_append_drop] at hrest
  rw [hrest, List.getElem?_append_left (List.getElem?_eq_some_iff.mp hone).1]
  exact hone

end Runs

lemma timeOf_mono {instant : List Char → Time} {lines : List Bytes} (horder : Chronological instant lines) {i j : ℕ}
    (h : i ≤ j) : instant (timeOf (lines.take i)) ≤ instant (timeOf (lines.take j)) := by
  obtain ⟨more, hmore⟩ : ∃ more, lines.take j = lines.take i ++ more := by
    obtain ⟨more, hmore⟩ := take_prefix_take_left h
    exact ⟨more, hmore.symm⟩
  have hstamps : epochTs :: stamps lines =
      (epochTs :: stamps (lines.take i)) ++ (stamps more ++ stamps (lines.drop j)) := by
    have hlines : lines = lines.take i ++ more ++ lines.drop j := by rw [← hmore, take_append_drop]
    conv_lhs => rw [hlines]
    simp only [stamps, filterMap_append, cons_append, append_assoc]
  rw [Chronological, hstamps, pairwise_append] at horder
  rw [hmore, timeOf_append]
  cases hlast : (stamps more).getLast? with
  | none => rw [getLastD_eq_getLast?, hlast, Option.getD_none]
  | some ts =>
    rw [getLastD_eq_getLast?, hlast, Option.getD_some]
    have hlater : ts ∈ stamps more ++ stamps (lines.drop j) := mem_append_left _ (mem_of_getLast? hlast)
    exact horder.2.2 _ (timeOf_mem (lines.take i)) _ hlater

/-- Every chunking yields one line for each terminated line. As long as no line is blurred, each is without its
timestamp, and its cursor is read back as the time of the line: a reconnect begins there, which is no later than
any line that follows, and not at the epoch once a line had a timestamp. -/
theorem docker_stream_resumes (sourceRef : String) (now : Time) (chunks : List Bytes) :
    (stream sourceRef now chunks).length = (terminated newline chunks.flatten).length ∧
    ∀ i line raw, (stream sourceRef now chunks)[i]? = some line → (terminated newline chunks.flatten)[i]? = some raw →
      (∀ r ∈ (terminated newline chunks.flatten).take (i + 1), ¬ Blurred r) →
      line.text = String.ofList (messageOf raw) ∧
      parseDockerCursor ⟨line.cursor⟩ = some (timeOf ((terminated newline chunks.flatten).take (i + 1))) ∧
      ∀ instant, Chronological instant (terminated newline chunks.flatten) → ∀ bootstrap j, i ≤ j →
        instant (sinceArgument bootstrap (some ⟨line.cursor⟩)) ≤
          instant (timeOf ((terminated newline chunks.flatten).take (j + 1))) := by
  obtain ⟨t, hbytes, hsep⟩ := exists_content newline chunks.flatten
  have hstream : stream sourceRef now chunks =
      ((terminated newline chunks.flatten).foldl (readLine sourceRef now) {}).yielded := by
    rw [stream, foldl_readChunk sourceRef now hbytes hsep]
  rw [hstream]
  refine ⟨(foldl_readLine sourceRef now _).2.1, fun i line raw hline hraw hclear => ?_⟩
  rw [yielded_getElem? sourceRef now hraw hclear] at hline
  obtain rfl := Option.some.inj hline
  have hparse := parseDockerCursor_dockerCursor
    (isDockerTs_timeOf ((terminated newline chunks.flatten).take (i + 1))) (i + 1)
  refine ⟨rfl, hparse, fun instant horder bootstrap j hij => ?_⟩
  rw [sinceArgument, Option.bind_some, hparse, Option.getD_some]
  exact timeOf_mono horder (Nat.succ_le_succ hij)

/-- `b"a\n"`, and a line whose first word begins with a timestamp. -/
def unstampedChunk : Bytes := [97, 10]

def blurredChunk : Bytes := "2026-08-12T10:00:00Zx a\n".toList.map asciiByte

/-- The one cursor is read back as the epoch, which no line carries, and the other is not read back. -/
theorem unstamped_line_epoch :
    (¬ ∀ chunks i line, (stream "web" 0 chunks)[i]? = some line →
      parseDockerCursor ⟨line.cursor⟩ = (stamps ((terminated newline chunks.flatten).take (i + 1))).getLast?) ∧
    (stream "web" 0 [blurredChunk]).map (fun line => parseDockerCursor ⟨line.cursor⟩) = [none] := by
  constructor
  · intro h
    have hparse := h [unstampedChunk] 0 _ rfl
    revert hparse
    decide +kernel
  · decide +kernel

end IncidentLens.Logs
