import IncidentLens.Data.Bytes
import Mathlib.Tactic.Ring

/-!
# Opaque log cursors

A product cursor is a stream sequence in eight bytes, written in the URL alphabet of base 64
without its padding.
-/
namespace IncidentLens.Logs

def cursorPrefix : String := "lc1_"

def urlsafeAlphabet : List Char := "ABCDEFGHIJKLMNOPQRSTUVWXYZabcdefghijklmnopqrstuvwxyz0123456789-_".toList

/-- The last `k` digits of a number in base 64. -/
def sextets : ℕ → ℕ → List ℕ
  | 0, _ => []
  | k + 1, n => sextets k (n / 64) ++ [n % 64]

def sextetsValue (ds : List ℕ) : ℕ := ds.foldl (fun v d => v * 64 + d) 0

def sextetChar (d : ℕ) : Char := urlsafeAlphabet.getD d 'A'

def charSextet? (c : Char) : Option ℕ := urlsafeAlphabet.idxOf? c

/-- Eight bytes take eleven digits; the last one ends with two bits that carry nothing. -/
def encodeLogCursor (sequence : ℤ) : Except String String :=
  if sequence < 0 then .error "log sequence must be a non-negative integer"
  else if 2 ^ 64 ≤ sequence then .error "log sequence is out of range"
  else .ok (cursorPrefix ++ String.ofList ((sextets 11 (sequence.toNat * 4)).map sextetChar))

def decodeLogCursor (cursor : String) : Except String ℕ :=
  if cursorPrefix.toList.isPrefixOf cursor.toList then
    match (cursor.toList.drop cursorPrefix.length).mapM charSextet? with
    | some ds => if ds.length = 11 then .ok (sextetsValue ds / 4) else .error "malformed product log cursor"
    | none => .error "malformed product log cursor"
  else .error "not a product log cursor"

@[simp] lemma length_sextets (k n : ℕ) : (sextets k n).length = k := by
  induction k generalizing n with
  | zero => rfl
  | succ k ih => simp [sextets, ih]

lemma lt_of_mem_sextets {k n d : ℕ} (h : d ∈ sextets k n) : d < 64 := by
  induction k generalizing n with
  | zero => cases h
  | succ k ih =>
    rw [sextets, List.mem_append, List.mem_singleton] at h
    cases h with
    | inl h => exact ih h
    | inr h => omega

lemma sextetsValue_sextets (k n : ℕ) : sextetsValue (sextets k n) = n % 64 ^ k := by
  induction k generalizing n with
  | zero => simp [sextets, sextetsValue, Nat.mod_one]
  | succ k ih =>
    have hstep : sextetsValue (sextets (k + 1) n) = sextetsValue (sextets k (n / 64)) * 64 + n % 64 := by
      simp [sextets, sextetsValue]
    rw [hstep, ih, Nat.pow_succ', Nat.mod_mul]
    omega

lemma charSextet?_sextetChar {d : ℕ} (h : d < 64) : charSextet? (sextetChar d) = some d := by
  have hall : (List.range 64).all (fun d => charSextet? (sextetChar d) == some d) = true := by decide +kernel
  exact eq_of_beq (List.all_eq_true.mp hall d (List.mem_range.mpr h))

lemma mapM_charSextet? {ds : List ℕ} (h : ∀ d ∈ ds, d < 64) : (ds.map sextetChar).mapM charSextet? = some ds := by
  induction ds with
  | nil => rfl
  | cons d ds ih =>
    have hrest := ih fun e he => h e (List.mem_cons_of_mem _ he)
    simp [charSextet?_sextetChar (h d List.mem_cons_self), hrest]

lemma decodeLogCursor_encodeLogCursor {n : ℕ} {cursor : String} (h : encodeLogCursor n = .ok cursor) :
    decodeLogCursor cursor = .ok n := by
  unfold encodeLogCursor at h
  split_ifs at h with hneg hbig
  obtain rfl := Except.ok.inj h
  have hlist : (cursorPrefix ++ String.ofList ((sextets 11 (n * 4)).map sextetChar)).toList =
      cursorPrefix.toList ++ (sextets 11 (n * 4)).map sextetChar :=
    String.toList_append.trans (congrArg _ String.toList_ofList)
  have hstart : cursorPrefix.toList.isPrefixOf
      (cursorPrefix.toList ++ (sextets 11 (n * 4)).map sextetChar) = true := by
    rw [List.isPrefixOf_iff_prefix]
    exact List.prefix_append _ _
  have hdrop : (cursorPrefix.toList ++ (sextets 11 (n * 4)).map sextetChar).drop cursorPrefix.length =
      (sextets 11 (n * 4)).map sextetChar := List.drop_left
  have hvalue : sextetsValue (sextets 11 (n * 4)) / 4 = n := by
    rw [sextetsValue_sextets, Nat.mod_eq_of_lt (by push_cast at hbig; omega), Nat.mul_div_cancel _ (by decide)]
  simp only [decodeLogCursor, Int.toNat_natCast, hlist, hstart, hdrop, if_true,
    mapM_charSextet? (fun d hd => lt_of_mem_sextets hd), length_sextets, hvalue]

end IncidentLens.Logs
