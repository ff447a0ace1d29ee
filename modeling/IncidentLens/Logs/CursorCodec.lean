import IncidentLens.Logs.Cursors
import IncidentLens.Logs.Pages

/-!
# The codec of the log cursors

Eleven digits of base 64 hold two bits more than a sequence, which the decoder drops, and a sequence of
64 bits may be too large for a store of signed integers.
-/
namespace IncidentLens.Logs

open List

lemma charSextet?_eq_some {c : Char} {d : ℕ} (h : charSextet? c = some d) : d < 64 ∧ sextetChar d = c := by
  unfold charSextet? at h
  obtain ⟨hd, hc, -⟩ := idxOf?_eq_some_iff.mp h
  refine ⟨hd, ?_⟩
  rw [sextetChar, getD_eq_getElem?_getD, getElem?_eq_getElem hd]
  exact hc

variable {ds : List ℕ}

lemma mapM_charSextet?_eq_some {cs : List Char} (h : cs.mapM charSextet? = some ds) :
    (∀ d ∈ ds, d < 64) ∧ cs = ds.map sextetChar := by
  induction cs generalizing ds with
  | nil =>
    obtain rfl : [] = ds := by simpa using h
    exact ⟨by simp, rfl⟩
  | cons c cs ih =>
    simp only [mapM_cons, Option.bind_eq_bind, Option.bind_eq_some_iff, Option.pure_def, Option.some.injEq] at h
    obtain ⟨d, hd, rest, hrest, rfl⟩ := h
    obtain ⟨hlt, rfl⟩ := charSextet?_eq_some hd
    obtain ⟨hall, rfl⟩ := ih hrest
    refine ⟨fun e he => ?_, rfl⟩
    rcases mem_cons.mp he with rfl | he
    · exact hlt
    · exact hall e he

/-! ### Digits -/

lemma sextetsValue_append (ds es : List ℕ) :
    sextetsValue (ds ++ es) = sextetsValue ds * 64 ^ es.length + sextetsValue es := by
  induction es using reverseRecOn with
  | nil => simp [sextetsValue]
  | append_singleton es e ih =>
    have hstep : ∀ xs : List ℕ, ∀ x, sextetsValue (xs ++ [x]) = sextetsValue xs * 64 + x := by
      intro xs x
      simp [sextetsValue]
    rw [← append_assoc, hstep, ih, hstep, length_append, length_singleton]
    ring

lemma sextetsValue_lt (h : ∀ d ∈ ds, d < 64) : sextetsValue ds < 64 ^ ds.length := by
  induction ds using reverseRecOn with
  | nil => simp [sextetsValue]
  | append_singleton ds d ih =>
    have hlast := h d (by simp)
    have hrest := ih fun e he => h e (mem_append_left _ he)
    rw [sextetsValue_append, length_append, length_singleton, pow_succ]
    have hone : sextetsValue [d] = d := by simp [sextetsValue]
    rw [hone]
    omega

lemma sextets_sextetsValue (h : ∀ d ∈ ds, d < 64) : sextets ds.length (sextetsValue ds) = ds := by
  induction ds using reverseRecOn with
  | nil => rfl
  | append_singleton ds d ih =>
    have hlast := h d (by simp)
    have hrest := ih fun e he => h e (mem_append_left _ he)
    have hvalue : sextetsValue (ds ++ [d]) = sextetsValue ds * 64 + d := by simp [sextetsValue]
    have hdiv : (sextetsValue ds * 64 + d) / 64 = sextetsValue ds := by omega
    have hmod : (sextetsValue ds * 64 + d) % 64 = d := by omega
    rw [length_append, length_singleton, sextets, hvalue, hdiv, hmod, hrest]

/-! ### Accepted cursors -/

lemma decodeLogCursor_eq_ok {cursor : String} {n : ℕ} (h : decodeLogCursor cursor = .ok n) :
    ∃ ds : List ℕ, ds.length = 11 ∧ (∀ d ∈ ds, d < 64) ∧ cursor = cursorPrefix ++ String.ofList (ds.map sextetChar) ∧
      n = sextetsValue ds / 4 := by
  unfold decodeLogCursor at h
  split_ifs at h with hstart
  split at h
  · rename_i ds hds
    split_ifs at h with hlength
    obtain ⟨hall, hchars⟩ := mapM_charSextet?_eq_some hds
    refine ⟨ds, hlength, hall, ?_, (Except.ok.inj h).symm⟩
    obtain ⟨rest, hrest⟩ := isPrefixOf_iff_prefix.mp hstart
    have hdrop : cursor.toList.drop cursorPrefix.length = rest := by
      rw [← hrest]
      exact drop_left
    rw [hdrop] at hchars
    refine String.toList_inj.mp ?_
    rw [String.toList_append, String.toList_ofList, ← hchars, hrest]
  · cases h

def Tight (cursor : String) : Prop := ∀ c ∈ cursor.toList.getLast?, c ∈ "AEIMQUYcgkosw048".toList

/-- The first digit leaves the sign bit clear. -/
def SignClear (cursor : String) : Prop :=
  ∀ c ∈ (cursor.toList.drop cursorPrefix.length).head?, c ∈ "ABCDEFGHIJKLMNOPQRSTUVWXYZabcdef".toList

/-- A sequence is a position: no page query of the store fails on it. -/
def Usable (n : ℕ) : Prop := ∀ (rows : List LogRecord) (query : PageQuery), 1 ≤ query.limit → query.limit ≤ 500 →
  (query.beforeSequence = none ∨ query.afterSequence = none) →
  (∀ position ∈ [query.beforeSequence, query.afterSequence, query.snapshotSequence], position = none ∨ position = some n) →
  ∃ result, listProductPage rows query = .ok result

lemma usable_iff {n : ℕ} : Usable n ↔ n < 2 ^ 63 := by
  constructor
  · intro h
    have hmin : 1 ≤ 200 := by decide
    have hmax : 200 ≤ 500 := by decide
    obtain ⟨result, hresult⟩ := h [] { serviceName := "", afterSequence := some n } hmin hmax (.inl rfl) (by simp)
    by_contra hbig
    have hbind : unbindable (some n) = true := by simpa [unbindable] using hbig
    simp [listProductPage, hbind] at hresult
  · intro hsmall rows query hmin hmax hsides hpositions
    have hbind : ∀ position, position = none ∨ position = some n → unbindable position = false := by
      rintro position (rfl | rfl)
      · rfl
      · simpa [unbindable] using hsmall
    have hbefore := hbind query.beforeSequence (hpositions _ (by simp))
    have hafter := hbind query.afterSequence (hpositions _ (by simp))
    have hsnapshot := hbind query.snapshotSequence (hpositions _ (by simp))
    have hone : (query.beforeSequence.isSome && query.afterSequence.isSome) = false := by
      rcases hsides with h | h
      · simp [h]
      · simp [h]
    have hlimits : (decide (query.limit < 1) || decide (500 < query.limit)) = false := by
      simp only [Bool.or_eq_false_iff, decide_eq_false_iff_not]
      omega
    unfold listProductPage
    simp only [hone, hlimits, hbefore, hafter, hsnapshot, Bool.or_self, Bool.false_eq_true, if_false]
    exact ⟨_, rfl⟩

lemma toList_cursor (ds : List ℕ) : (cursorPrefix ++ String.ofList (ds.map sextetChar)).toList =
    cursorPrefix.toList ++ ds.map sextetChar := by
  rw [String.toList_append, String.toList_ofList]

section Digits
variable {ds : List ℕ} (hlength : ds.length = 11) (hall : ∀ d ∈ ds, d < 64)
include hlength hall

lemma encodeLogCursor_digits : encodeLogCursor (sextetsValue ds / 4 : ℕ) =
    .ok (cursorPrefix ++ String.ofList ((sextets 11 (sextetsValue ds / 4 * 4)).map sextetChar)) := by
  have hlt := sextetsValue_lt hall
  rw [hlength] at hlt
  unfold encodeLogCursor
  rw [if_neg (by omega), if_neg (by push_cast; omega), Int.toNat_natCast]

lemma encode_digits_iff :
    encodeLogCursor (sextetsValue ds / 4 : ℕ) = .ok (cursorPrefix ++ String.ofList (ds.map sextetChar)) ↔
      sextetsValue ds % 4 = 0 := by
  rw [encodeLogCursor_digits hlength hall]
  have hself := sextets_sextetsValue hall
  rw [hlength] at hself
  constructor
  · intro h
    have hchars : (sextets 11 (sextetsValue ds / 4 * 4)).map sextetChar = ds.map sextetChar :=
      String.ofList_injective (String.append_right_inj _ |>.mp (Except.ok.inj h))
    have hdigits := congrArg (mapM charSextet?) hchars
    rw [mapM_charSextet? fun d hd => lt_of_mem_sextets hd, mapM_charSextet? hall] at hdigits
    have hvalue := congrArg sextetsValue (Option.some.inj hdigits)
    have hlt := sextetsValue_lt hall
    rw [hlength] at hlt
    rw [sextetsValue_sextets, Nat.mod_eq_of_lt (by omega)] at hvalue
    omega
  · intro h
    have hback : sextetsValue ds / 4 * 4 = sextetsValue ds := by omega
    rw [hback, hself]

lemma tight_iff : Tight (cursorPrefix ++ String.ofList (ds.map sextetChar)) ↔ sextetsValue ds % 4 = 0 := by
  obtain ⟨front, last, rfl⟩ : ∃ front last, ds = front ++ [last] := by
    rcases eq_nil_or_concat ds with rfl | ⟨front, last, rfl⟩
    · cases hlength
    · exact ⟨front, last, concat_eq_append⟩
  have hlast := hall last (by simp)
  have hvalue : sextetsValue (front ++ [last]) = sextetsValue front * 64 + last := by simp [sextetsValue]
  have hchar : (sextetChar last ∈ "AEIMQUYcgkosw048".toList) ↔ last % 4 = 0 := by
    have hall : (range 64).all (fun d => decide (sextetChar d ∈ "AEIMQUYcgkosw048".toList ↔ d % 4 = 0)) = true := by
      decide +kernel
    exact of_decide_eq_true (all_eq_true.mp hall last (mem_range.mpr hlast))
  have hend : (cursorPrefix ++ String.ofList ((front ++ [last]).map sextetChar)).toList.getLast? = some (sextetChar last) := by
    rw [toList_cursor, map_append, ← append_assoc]
    exact getLast?_concat
  unfold Tight
  rw [hend, hvalue]
  simp only [Option.mem_def, Option.some.injEq, forall_eq', hchar]
  omega

lemma signClear_iff :
    SignClear (cursorPrefix ++ String.ofList (ds.map sextetChar)) ↔ sextetsValue ds / 4 < 2 ^ 63 := by
  obtain ⟨first, rest, rfl⟩ : ∃ first rest, ds = first :: rest := by
    cases ds with
    | nil => cases hlength
    | cons first rest => exact ⟨first, rest, rfl⟩
  have hfirst := hall first mem_cons_self
  have hrest := sextetsValue_lt fun d hd => hall d (mem_cons_of_mem first hd)
  have hten : rest.length = 10 := Nat.succ.inj hlength
  have hvalue : sextetsValue (first :: rest) = first * 64 ^ 10 + sextetsValue rest := by
    rw [← hten, ← singleton_append, sextetsValue_append]
    simp [sextetsValue]
  rw [hten] at hrest
  have hchar : (sextetChar first ∈ "ABCDEFGHIJKLMNOPQRSTUVWXYZabcdef".toList) ↔ first < 32 := by
    have hall : (range 64).all (fun d => decide (sextetChar d ∈ "ABCDEFGHIJKLMNOPQRSTUVWXYZabcdef".toList ↔ d < 32)) =
        true := by decide +kernel
    exact of_decide_eq_true (all_eq_true.mp hall first (mem_range.mpr hfirst))
  have hhead : ((cursorPrefix ++ String.ofList ((first :: rest).map sextetChar)).toList.drop cursorPrefix.length).head? =
      some (sextetChar first) := by
    rw [toList_cursor]
    rfl
  unfold SignClear
  rw [hhead, hvalue]
  simp only [Option.mem_def, Option.some.injEq, forall_eq', hchar]
  omega

end Digits

/-- Every cursor given out is read back. Of the cursors that are accepted those are given out that have no
bits to spare, and those are positions whose sequence does not reach the sign bit. -/
theorem log_cursor_codec (sequence : ℤ) (cursor : String) (n : ℕ) :
    (encodeLogCursor sequence = .ok cursor → ∃ m : ℕ, sequence = m ∧ decodeLogCursor cursor = .ok m) ∧
    (decodeLogCursor cursor = .ok n →
      (encodeLogCursor n = .ok cursor ↔ Tight cursor) ∧ (Usable n ↔ SignClear cursor) ∧
      ∀ other, decodeLogCursor other = .ok n → Tight cursor → Tight other → cursor = other) := by
  constructor
  · intro h
    obtain ⟨n, rfl⟩ : ∃ n : ℕ, sequence = n := by
      unfold encodeLogCursor at h
      split_ifs at h with hneg
      exact ⟨sequence.toNat, by omega⟩
    exact ⟨n, rfl, decodeLogCursor_encodeLogCursor h⟩
  · intro h
    have hcanonical : ∀ other, decodeLogCursor other = .ok n → (encodeLogCursor n = .ok other ↔ Tight other) := by
      intro other hother
      obtain ⟨ds, hlength, hall, rfl, rfl⟩ := decodeLogCursor_eq_ok hother
      exact (encode_digits_iff hlength hall).trans (tight_iff hlength hall).symm
    refine ⟨hcanonical cursor h, ?_, fun other hother htight htight' => ?_⟩
    · obtain ⟨ds, hlength, hall, rfl, rfl⟩ := decodeLogCursor_eq_ok h
      exact usable_iff.trans (signClear_iff hlength hall).symm
    · have hcursor := (hcanonical cursor h).mpr htight
      rw [(hcanonical other hother).mpr htight'] at hcursor
      exact (Except.ok.inj hcursor).symm

/-- Two cursors of the first position, of which the encoder writes one, and a cursor that no page is found for. -/
theorem cursors_unusable :
    (decodeLogCursor "lc1_AAAAAAAAAAA" = .ok 0 ∧ decodeLogCursor "lc1_AAAAAAAAAAB" = .ok 0 ∧
      encodeLogCursor 0 ≠ .ok "lc1_AAAAAAAAAAB") ∧
    decodeLogCursor "lc1_gAAAAAAAAAA" = .ok (2 ^ 63) ∧ ¬ Usable (2 ^ 63) := by
  refine ⟨⟨?_, ?_, ?_⟩, ?_, ?_⟩
  · decide +kernel
  · decide +kernel
  · decide +kernel
  · decide +kernel
  · rw [usable_iff]
    exact lt_irrefl _

end IncidentLens.Logs
