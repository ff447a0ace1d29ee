import IncidentLens.Data.Bisect
import Mathlib

/-!
# The conservative estimator

A text counts for its length over a ratio, rounded up. Calibration lowers the ratio, and a
restored file is cut to the longest prefix that fits its cap with a marker behind it.
-/
namespace IncidentLens.Investigations.Estimator
open Data

/-- Float arithmetic: the float nearest to a number, `none` for one that is too large. -/
structure Rounding where
  round : ℚ≥0 → Option ℚ≥0
  mono {x y : ℚ≥0} (h : x ≤ y) : ∀ b ∈ round y, ∃ a ∈ round x, a ≤ b

def exact : Rounding where
  round := some
  mono h _ hb := ⟨_, rfl, h.trans_eq (Option.some.inj hb)⟩

variable (arith : Rounding) (charsPerToken : ℚ≥0)

/-- `count_text`, `none` where it raises: the quotient overflows, or the ratio is zero. -/
def countText (text : List Char) : Option ℕ :=
  if charsPerToken = 0 then none
  else ((arith.round text.length).bind fun length => arith.round (length / charsPerToken)).map
    fun tokens => max 1 ⌈tokens⌉₊

/-- `calibrate`. -/
def calibrate (actualInputTokens estimatedInputTokens : ℤ) : ℚ≥0 :=
  if estimatedInputTokens ≤ 0 ∨ actualInputTokens ≤ estimatedInputTokens then charsPerToken
  else
    let implied := do
      let estimated ← arith.round estimatedInputTokens.toNat
      let scaled ← arith.round (charsPerToken * estimated)
      let actual ← arith.round actualInputTokens.toNat
      arith.round (scaled / actual)
    match implied with
    | some implied => if implied < charsPerToken then implied else charsPerToken
    | none => charsPerToken

/-- The ratio after a sequence of calls of `calibrate`. -/
def calibrated (calls : List (ℤ × ℤ)) : ℚ≥0 :=
  calls.foldl (fun ratio call => calibrate arith ratio call.1 call.2) charsPerToken

def marker : List Char := "\n...[restored file truncated]".toList

/-- Whether a text counts for at most `maxTokens`. -/
def fits (maxTokens : ℤ) (text : List Char) : Option Bool :=
  (countText arith charsPerToken text).map fun n : ℕ => decide ((n : ℤ) ≤ maxTokens)

/-- `_truncate_text_to_tokens`. -/
def truncateTextToTokens (text : List Char) (maxTokens : ℤ) : Option (List Char) :=
  (fits arith charsPerToken maxTokens text).bind fun whole =>
    if whole then some text
    else (lastFit (fun middle => fits arith charsPerToken maxTokens (text.take middle ++ marker)) 0 text.length).map
      fun low => text.take low ++ marker

/-- The text fits, and when it had to be cut, no longer prefix fits with the marker. -/
def Truncated (text : List Char) (maxTokens : ℤ) (result : List Char) : Prop :=
  fits arith charsPerToken maxTokens result = some true ∧
    (fits arith charsPerToken maxTokens text ≠ some true → ∃ low ≤ text.length, result = text.take low ++ marker ∧
      ∀ middle ≤ text.length, fits arith charsPerToken maxTokens (text.take middle ++ marker) = some true → middle ≤ low)

/-- One of the halvings of the text overflows, and all before it fit. -/
def Overflows (text : List Char) (maxTokens : ℤ) : Prop :=
  ∃ k, 0 < text.length / 2 ^ k ∧
    (∀ j < k, fits arith charsPerToken maxTokens
      (text.take (text.length - text.length / 2 ^ (j + 1)) ++ marker) = some true) ∧
    fits arith charsPerToken maxTokens (text.take (text.length - text.length / 2 ^ (k + 1)) ++ marker) = none

section
variable {arith charsPerToken} {text text' : List Char} {maxTokens : ℤ}

lemma countText_mono (hle : text.length ≤ text'.length) {n' : ℕ} (h : countText arith charsPerToken text' = some n') :
    ∃ n ≤ n', countText arith charsPerToken text = some n := by
  unfold countText at h ⊢
  split_ifs at h ⊢
  obtain ⟨tokens', htokens, rfl⟩ := Option.map_eq_some_iff.mp h
  obtain ⟨length', hlength, htokens⟩ := Option.bind_eq_some_iff.mp htokens
  obtain ⟨length, hround, hlength⟩ := arith.mono (Nat.cast_le.mpr hle) length' hlength
  obtain ⟨tokens, hdivide, htokens⟩ := arith.mono (div_le_div_of_nonneg_right hlength zero_le) tokens' htokens
  refine ⟨max 1 ⌈tokens⌉₊, max_le_max le_rfl (Nat.ceil_le_ceil htokens), ?_⟩
  rw [hround, Option.bind_some, hdivide, Option.map_some]

lemma fits_mono (hle : text.length ≤ text'.length) (h : fits arith charsPerToken maxTokens text' = some true) :
    fits arith charsPerToken maxTokens text = some true := by
  obtain ⟨n', hcount', hfits⟩ := Option.map_eq_some_iff.mp h
  obtain ⟨n, hn, hcount⟩ := countText_mono hle hcount'
  have hcap : (n : ℤ) ≤ maxTokens := (Int.ofNat_le.mpr hn).trans (of_decide_eq_true hfits)
  simp [fits, hcount, hcap]

lemma fits_none (hle : text.length ≤ text'.length) (h : fits arith charsPerToken maxTokens text = none) :
    fits arith charsPerToken maxTokens text' = none := by
  cases hcount : countText arith charsPerToken text' with
  | none => simp [fits, hcount]
  | some n' =>
    obtain ⟨n, _, hshort⟩ := countText_mono hle hcount
    simp [fits, hshort] at h

lemma descending_fits (text : List Char) (maxTokens : ℤ) :
    Descending fun middle => fits arith charsPerToken maxTokens (text.take middle ++ marker) where
  fits h := fits_mono (by simp; omega)
  probed h := fits_none (by simp; omega)

end

/-- A text is cut to its longest prefix that fits with the marker exactly when it fits itself, or
when the marker alone fits and no estimate on the way overflows. -/
theorem truncated_iff (calls : List (ℤ × ℤ)) (text : List Char) (maxTokens : ℤ) :
    (∃ result, truncateTextToTokens arith (calibrated arith charsPerToken calls) text maxTokens = some result ∧
      Truncated arith (calibrated arith charsPerToken calls) text maxTokens result) ↔
    fits arith (calibrated arith charsPerToken calls) maxTokens text = some true ∨
      (fits arith (calibrated arith charsPerToken calls) maxTokens text ≠ none ∧
        fits arith (calibrated arith charsPerToken calls) maxTokens marker = some true ∧
        ¬Overflows arith (calibrated arith charsPerToken calls) text maxTokens) := by
  generalize calibrated arith charsPerToken calls = ratio
  have hdesc : Descending fun middle => fits arith ratio maxTokens (text.take middle ++ marker) :=
    descending_fits text maxTokens
  have hnone := lastFit_eq_none hdesc (Nat.zero_le text.length)
  simp only [Nat.sub_zero] at hnone
  cases hwhole : fits arith ratio maxTokens text with
  | none => simp [truncateTextToTokens, hwhole]
  | some whole =>
    cases whole with
    | true =>
      refine iff_of_true ⟨text, by simp [truncateTextToTokens, hwhole], hwhole, fun h => absurd hwhole h⟩ (.inl rfl)
    | false =>
      cases hsearch : lastFit (fun middle => fits arith ratio maxTokens (text.take middle ++ marker)) 0 text.length with
      | none => simp [truncateTextToTokens, hwhole, hsearch, show Overflows arith ratio text maxTokens from hnone.mp hsearch]
      | some low =>
        have hprobed : ¬Overflows arith ratio text maxTokens := fun h => by simp [hnone.mpr h] at hsearch
        obtain ⟨_, hlow, hfit, hmax⟩ := lastFit_spec hdesc (Nat.zero_le _) hsearch
        simp only [truncateTextToTokens, hwhole, hsearch, hprobed]
        constructor
        · rintro ⟨result, hresult, hfits, hcut⟩
          obtain ⟨low', _, rfl, _⟩ := hcut (by simp [hwhole])
          exact .inr ⟨by simp, fits_mono (by simp) hfits, not_false⟩
        · intro h
          refine ⟨text.take low ++ marker, rfl, ?_, fun _ => ⟨low, hlow, rfl, hmax⟩⟩
          rcases hfit with rfl | hfit
          · simpa using h
          · exact hfit

/-- Two characters of one token each, and a cap of one token. -/
theorem marker_over_cap : ¬∃ result,
    truncateTextToTokens exact (calibrated exact (5 / 2) [(5, 2)]) "ab".toList 1 = some result ∧
      Truncated exact (calibrated exact (5 / 2) [(5, 2)]) "ab".toList 1 result := by
  have hratio : calibrated exact (5 / 2) [(5, 2)] = 1 := by decide +kernel
  have hcount (text : List Char) : countText exact 1 text = some (max 1 text.length) := by
    simp [countText, exact]
  rw [hratio]
  rintro ⟨result, _, hfits, hcut⟩
  obtain ⟨low, _, rfl, _⟩ := hcut (by simp [fits, hcount])
  simp only [fits, hcount, List.length_append, Option.map_some, Option.some.injEq, decide_eq_true_eq] at hfits
  have hmarker : marker.length = 29 := rfl
  omega

end IncidentLens.Investigations.Estimator
