import Mathlib.Data.List.TakeWhile
import IncidentLens.Logs.Service

/-!
# Docker log sources

A followed container log arrives in chunks, is cut into lines, and every line gets a cursor
made of the timestamp it starts with and its number in the stream.
-/
namespace IncidentLens.Logs
open Data

/-! ### Timestamps -/

/-- The zeros of the decimal scripts; nine more digits follow each. -/
def decimalZeros : List ℕ :=
  [0x30, 0x660, 0x6f0, 0x7c0, 0x966, 0x9e6, 0xa66, 0xae6, 0xb66, 0xbe6, 0xc66, 0xce6, 0xd66, 0xde6, 0xe50,
    0xed0, 0xf20, 0x1040, 0x1090, 0x17e0, 0x1810, 0x1946, 0x19d0, 0x1a80, 0x1a90, 0x1b50, 0x1bb0, 0x1c40,
    0x1c50, 0xa620, 0xa8d0, 0xa900, 0xa9d0, 0xa9f0, 0xaa50, 0xabf0, 0xff10, 0x104a0, 0x10d30, 0x11066, 0x110f0,
    0x11136, 0x111d0, 0x112f0, 0x11450, 0x114d0, 0x11650, 0x116c0, 0x11730, 0x118e0, 0x11950, 0x11c50, 0x11d50,
    0x11da0, 0x11f50, 0x16a60, 0x16ac0, 0x16b50, 0x1d7ce, 0x1d7d8, 0x1d7e2, 0x1d7ec, 0x1d7f6, 0x1e140, 0x1e2f0,
    0x1e4f0, 0x1e950, 0x1fbf0]

/-- `\d`, which takes the digits of every script. -/
def isDecimal (c : Char) : Bool := decimalZeros.any fun start => start ≤ c.toNat && c.toNat ≤ start + 9

/-- `\d{n}`. -/
def digits : ℕ → List Char → Option (List Char)
  | 0, s => some s
  | n + 1, c :: s => if isDecimal c then digits n s else none
  | _ + 1, [] => none

def literal (c : Char) : List Char → Option (List Char)
  | d :: s => if d = c then some s else none
  | [] => none

/-- `(?:\.\d+)?`. -/
def fraction : List Char → Option (List Char)
  | '.' :: c :: s => if isDecimal c then some (s.dropWhile isDecimal) else some ('.' :: c :: s)
  | s => some s

/-- `(?:Z|[+-]\d{2}:\d{2})?`. -/
def zone : List Char → Option (List Char)
  | c :: s =>
    if c = 'Z' then some s
    else if c = '+' ∨ c = '-' then
      some ((((digits 2 s).bind (literal ':')).bind (digits 2)).getD (c :: s))
    else some (c :: s)
  | [] => some []

def matchAll : List (List Char → Option (List Char)) → List Char → Option (List Char)
  | [], s => some s
  | f :: fs, s => (f s).bind (matchAll fs)

/-- `_DOCKER_TS_RE.match`: what follows the match. -/
def dockerTs : List Char → Option (List Char) :=
  matchAll [digits 4, literal '-', digits 2, literal '-', digits 2, literal 'T', digits 2, literal ':',
    digits 2, literal ':', digits 2, fraction, zone]

/-- `_DOCKER_TS_RE.fullmatch`. -/
def isDockerTs (s : List Char) : Bool := dockerTs s = some []

/-- The time of a `docker:time=<ts>:seq=<n>` cursor. -/
def parseDockerCursor (cursor : LogCursor) : Option (List Char) :=
  if "docker:time=".toList.isPrefixOf cursor.cursor.toList then
    let ts := beforeFirst ":seq=".toList (cursor.cursor.toList.drop "docker:time=".length)
    if isDockerTs ts then some ts else none
  else none

def dockerCursor (ts : List Char) (seq : ℕ) : String :=
  String.ofList ("docker:time=".toList ++ ts ++ ":seq=".toList ++ Nat.toDigits 10 seq)

/-! ### The stream -/

/-- `_line_from_raw`: the line and the last valid timestamp after it. -/
def lineFromRaw (sourceRef : String) (now : Time) (raw : Bytes) (seq : ℕ) (lastValidTs : Option (List Char)) :
    RawLogLine × List Char :=
  let text := decodeFrom none raw
  let head := text.takeWhile (· ≠ ' ')
  if ' ' ∈ text ∧ (dockerTs head).isSome then
    ({ sourceRef := sourceRef
       cursor := dockerCursor head seq
       observedAt := now
       text := String.ofList (text.drop (head.length + 1)) }, head)
  else
    let ts := lastValidTs.getD "1970-01-01T00:00:00Z".toList
    ({ sourceRef := sourceRef
       cursor := dockerCursor ts seq
       observedAt := now
       text := String.ofList text }, ts)

structure DockerReader where
  seq : ℕ := 0
  lastValidTs : Option (List Char) := none
  yielded : List RawLogLine := []

def readLine (sourceRef : String) (now : Time) (s : DockerReader) (raw : Bytes) : DockerReader :=
  let line := lineFromRaw sourceRef now raw (s.seq + 1) s.lastValidTs
  { seq := s.seq + 1
    lastValidTs := some line.2
    yielded := s.yielded ++ [line.1] }

/-- The buffer keeps what follows the last newline. -/
def readChunk (sourceRef : String) (now : Time) (s : Bytes × DockerReader) (chunk : Bytes) : Bytes × DockerReader :=
  let parts := (s.1 ++ chunk).splitOn newline
  (parts.getLastD [], parts.dropLast.foldl (readLine sourceRef now) s.2)

/-- The lines of `DockerLogSource.stream` for the chunks that arrive. -/
def DockerLogSource.stream (sourceRef : String) (now : Time) (chunks : List Bytes) : List RawLogLine :=
  (chunks.foldl (readChunk sourceRef now) ([], {})).2.yielded

lemma foldl_readChunk (sourceRef : String) (now : Time) {chunks : List Bytes} {ls : List Bytes} {t : Bytes}
    (h : chunks.flatten = content newline ls t) (hsep : Separated newline ls t) :
    chunks.foldl (readChunk sourceRef now) ([], {}) = (t, ls.foldl (readLine sourceRef now) {}) := by
  induction chunks using List.reverseRecOn generalizing ls t with
  | nil =>
    cases ls with
    | nil =>
      obtain rfl : t = [] := h.symm
      rfl
    | cons l ls => simp [content] at h
  | append_singleton chunks chunk ih =>
    obtain ⟨t₀, hbefore, hsep₀⟩ := exists_content newline chunks.flatten
    obtain ⟨t₁, hpiece, hsep₁⟩ := exists_content newline (t₀ ++ chunk)
    have hjoin : content newline ls t =
        content newline (terminated newline chunks.flatten ++ terminated newline (t₀ ++ chunk)) t₁ := by
      rw [← h, content_append, ← hpiece, List.flatten_append, List.flatten_singleton]
      conv_lhs => rw [hbefore]
      rw [content_eq_append, List.append_assoc, ← content_eq_append]
    have hsepj : Separated newline (terminated newline chunks.flatten ++ terminated newline (t₀ ++ chunk)) t₁ :=
      ⟨fun l hl => (List.mem_append.mp hl).elim (hsep₀.1 l) (hsep₁.1 l), hsep₁.2⟩
    have hsame := congrArg (List.splitOn newline) hjoin
    rw [splitOn_content hsep, splitOn_content hsepj] at hsame
    obtain ⟨rfl, hlast⟩ := List.append_inj' hsame rfl
    obtain rfl : t = t₁ := List.singleton_injective hlast
    rw [List.foldl_concat, ih hbefore hsep₀, readChunk, hpiece, splitOn_content hsep₁, List.dropLast_concat,
      List.foldl_append, ← hpiece]
    simp

/-! ### What timestamps are made of -/

def stampChar (c : Char) : Bool := isDecimal c || "-T:.Z+".toList.contains c

/-- `f` takes characters of timestamps off the front. -/
def Eats (f : List Char → Option (List Char)) : Prop := ∀ s r, f s = some r → ∃ p, s = p ++ r ∧ ∀ c ∈ p, stampChar c

lemma eats_digits (n : ℕ) : Eats (digits n) := by
  induction n with
  | zero =>
    intro s r h
    exact ⟨[], by simpa [digits] using h, by simp⟩
  | succ n ih =>
    intro s r h
    cases s with
    | nil => cases h
    | cons c s =>
      rw [digits] at h
      split_ifs at h with hc
      obtain ⟨p, rfl, hp⟩ := ih s r h
      refine ⟨c :: p, rfl, fun d hd => ?_⟩
      rcases List.mem_cons.mp hd with rfl | hd
      · simp [stampChar, hc]
      · exact hp d hd

lemma eats_literal {c : Char} (hc : stampChar c) : Eats (literal c) := by
  intro s r h
  cases s with
  | nil => cases h
  | cons d s =>
    rw [literal] at h
    split_ifs at h with hd
    cases h
    exact ⟨[d], rfl, by simpa [hd] using hc⟩

lemma eats_bind {f g : List Char → Option (List Char)} (hf : Eats f) (hg : Eats g) : Eats fun s => (f s).bind g := by
  intro s r h
  obtain ⟨u, hu, hr⟩ := Option.bind_eq_some_iff.mp h
  obtain ⟨p, rfl, hp⟩ := hf s u hu
  obtain ⟨q, rfl, hq⟩ := hg u r hr
  refine ⟨p ++ q, by simp, fun c hc => ?_⟩
  rcases List.mem_append.mp hc with hc | hc
  · exact hp c hc
  · exact hq c hc

lemma eats_fraction : Eats fraction := by
  intro s r h
  match s with
  | [] => exact ⟨[], by simpa [fraction] using h, by simp⟩
  | [c] => exact ⟨[], by simpa [fraction] using h, by simp⟩
  | c :: d :: s =>
    by_cases hdot : c = '.'
    · subst hdot
      rw [fraction] at h
      split_ifs at h with hd
      · cases h
        refine ⟨'.' :: d :: s.takeWhile isDecimal, by simp [List.takeWhile_append_dropWhile], fun e he => ?_⟩
        simp only [List.mem_cons] at he
        rcases he with rfl | rfl | he
        · rfl
        · simp [stampChar, hd]
        · simp [stampChar, List.mem_takeWhile_imp he]
      · exact ⟨[], by simpa using h, by simp⟩
    · have hrest : fraction (c :: d :: s) = some (c :: d :: s) := by
        unfold fraction
        split
        · rename_i heq
          cases heq
          exact absurd rfl hdot
        · rfl
      exact ⟨[], Option.some.inj (hrest.symm.trans h), by simp⟩

lemma eats_zone : Eats zone := by
  have hoffset : Eats fun s => ((digits 2 s).bind (literal ':')).bind (digits 2) :=
    eats_bind (eats_bind (eats_digits 2) (eats_literal rfl)) (eats_digits 2)
  intro s r h
  cases s with
  | nil => exact ⟨[], by simpa [zone] using h, by simp⟩
  | cons c s =>
    simp only [zone] at h
    split_ifs at h with hz hsign
    · cases h
      exact ⟨[c], rfl, by simp [hz]; decide⟩
    · cases hrest : ((digits 2 s).bind (literal ':')).bind (digits 2) with
      | none => exact ⟨[], by simpa [hrest] using h, by simp⟩
      | some u =>
        rw [hrest] at h
        cases h
        obtain ⟨p, hs, hp⟩ := hoffset s u hrest
        refine ⟨c :: p, by simp [hs], fun d hd => ?_⟩
        rcases List.mem_cons.mp hd with rfl | hd
        · rcases hsign with rfl | rfl <;> rfl
        · exact hp d hd
    · exact ⟨[], by simpa using h, by simp⟩

lemma eats_matchAll {fs : List (List Char → Option (List Char))} (h : ∀ f ∈ fs, Eats f) : Eats (matchAll fs) := by
  induction fs with
  | nil =>
    intro s r h
    exact ⟨[], by simpa [matchAll] using h, by simp⟩
  | cons f fs ih =>
    exact eats_bind (h f List.mem_cons_self) (ih fun g hg => h g (List.mem_cons_of_mem _ hg))

lemma eats_dockerTs : Eats dockerTs := by
  refine eats_matchAll fun f hf => ?_
  simp only [List.mem_cons, List.not_mem_nil, or_false] at hf
  rcases hf with rfl | rfl | rfl | rfl | rfl | rfl | rfl | rfl | rfl | rfl | rfl | rfl | rfl
  all_goals first
    | exact eats_digits _
    | exact eats_literal rfl
    | exact eats_fraction
    | exact eats_zone

lemma stampChar_of_isDockerTs {ts : List Char} (h : isDockerTs ts) : ∀ c ∈ ts, stampChar c := by
  obtain ⟨p, hp, hall⟩ := eats_dockerTs ts [] (by simpa [isDockerTs] using h)
  rw [List.append_nil] at hp
  rw [hp]
  exact hall

lemma stampChar_ne {c d : Char} (h : stampChar c) (hd : stampChar d = false) : c ≠ d := by
  rintro rfl
  rw [hd] at h
  cases h

/-! ### Texts with a cursor -/

def asciiByte (c : Char) : UInt8 := UInt8.ofNat c.toNat

lemma find?_after {ts w : List Char} (r : List Char) (h : ∀ c ∈ ts, c ≠ 's') :
    find? (':' :: 's' :: w) (ts ++ ((':' :: 's' :: w) ++ r)) = some ts.length := by
  induction ts with
  | nil => simp [find?]
  | cons c ts ih =>
    have hnot : ¬ (':' :: 's' :: w) <+: c :: (ts ++ ((':' :: 's' :: w) ++ r)) := by
      intro hp
      obtain ⟨-, hp⟩ := List.cons_prefix_cons.mp hp
      cases ts with
      | nil => cases (List.cons_prefix_cons.mp hp).1
      | cons d ts => exact h d (by simp) (List.cons_prefix_cons.mp hp).1.symm
    simp only [List.cons_append, find?, List.isPrefixOf_iff_prefix] at ih hnot ⊢
    rw [if_neg hnot, ih fun d hd => h d (List.mem_cons_of_mem _ hd)]
    rfl

lemma parseDockerCursor_dockerCursor {ts : List Char} (hts : isDockerTs ts) (seq : ℕ) :
    parseDockerCursor ⟨dockerCursor ts seq⟩ = some ts := by
  have hmark : ":seq=".toList = ':' :: 's' :: "eq=".toList := rfl
  have hfind : find? ":seq=".toList (ts ++ (":seq=".toList ++ Nat.toDigits 10 seq)) = some ts.length := by
    rw [hmark]
    exact find?_after _ fun c hc => stampChar_ne (stampChar_of_isDockerTs hts c hc) (by decide)
  have hlist : (dockerCursor ts seq).toList =
      "docker:time=".toList ++ (ts ++ (":seq=".toList ++ Nat.toDigits 10 seq)) := by
    refine String.toList_ofList.trans ?_
    rw [List.append_assoc, List.append_assoc]
  have hstart : "docker:time=".toList.isPrefixOf (dockerCursor ts seq).toList := by
    rw [hlist, List.isPrefixOf_iff_prefix]
    exact List.prefix_append _ _
  have hdrop : (dockerCursor ts seq).toList.drop "docker:time=".length =
      ts ++ (":seq=".toList ++ Nat.toDigits 10 seq) := by
    rw [hlist]
    rfl
  have hbefore : beforeFirst ":seq=".toList (ts ++ (":seq=".toList ++ Nat.toDigits 10 seq)) = ts := by
    simp only [beforeFirst, hfind, List.take_left]
  simp only [parseDockerCursor, hstart, if_true, hdrop, hbefore, hts]

end IncidentLens.Logs
