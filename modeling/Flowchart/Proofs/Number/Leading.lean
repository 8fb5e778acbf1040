import Flowchart.Proofs.Text.Stripping
import Flowchart.Number.Digits

/-!
# The number in a text

`leading` fails exactly on a run of digits that is too long, and a number it reads is always short
enough to be written (`leading_cases`).  Otherwise it reads the number that the text `StartsWith`
(`leading_eq_some_iff`).  A number that is short enough to be written is read back from its decimal
form (`leading_toString`), which is a text of the characters `-` and `0` to `9`.  `ofText?`, which
takes a text whole, reads it back as well (`ofText?_toString`).
-/

namespace Flowchart
namespace Number

/-- The run of digits from which `leading` takes its number. -/
def leadingDigits (s : List Char) : List Char :=
  (splitSign (s.dropWhile Text.isBlank)).2.takeWhile isDigit

lemma isDigit_eq (c : Char) : isDigit c = c.isDigit := by
  simp [isDigit, Char.isDigit, Char.le_def]

lemma isDigit_iff {c : Char} : isDigit c = true ↔ 48 ≤ c.toNat ∧ c.toNat ≤ 57 := by
  rw [isDigit, Bool.and_eq_true, decide_eq_true_eq, decide_eq_true_eq]
  exact Iff.rfl

lemma isBlank_of_isDigit {c : Char} (h : isDigit c = true) : Text.isBlank c = false := by
  have hc := isDigit_iff.1 h
  simp only [Text.isBlank, Text.inRanges, Text.blankRanges, List.any_cons, List.any_nil,
    Bool.or_false, Bool.or_eq_false_iff, Bool.and_eq_false_iff, decide_eq_false_iff_not]
  omega

/-- A digit is not a sign. -/
lemma splitSign_of_isDigit {c : Char} (hc : isDigit c = true) (s : List Char) :
    splitSign (c :: s) = (false, c :: s) := by
  have hminus : c ≠ '-' := by rintro rfl; simp [isDigit] at hc
  have hplus : c ≠ '+' := by rintro rfl; simp [isDigit] at hc
  rw [splitSign]
  · simpa using hminus
  · simpa using hplus

/-- A text of digits only is its own run of digits. -/
lemma leadingDigits_eq_self {s : List Char} (h : ∀ c ∈ s, isDigit c = true) :
    leadingDigits s = s := by
  cases s with
  | nil => rfl
  | cons c s =>
    have hc := h c (by simp)
    rw [leadingDigits, List.dropWhile_cons_of_neg (by simp [isBlank_of_isDigit hc]),
      splitSign_of_isDigit hc]
    exact List.takeWhile_eq_self_iff.2 h

/-! ### Values -/

lemma valueOfDigits_eq (s : List Char) : valueOfDigits s = Nat.ofDigitChars 10 s 0 := by
  rw [valueOfDigits, ofDigitValues, List.foldl_map, Nat.ofDigitChars_eq_foldl]
  rfl

/-- A run of `k` digits stands for a number below `10 ^ k`. -/
lemma valueOfDigits_lt {s : List Char} (h : ∀ c ∈ s, isDigit c = true) :
    valueOfDigits s < 10 ^ s.length := by
  rw [valueOfDigits_eq]
  induction s with
  | nil => simp
  | cons c s ih =>
    have hc := isDigit_iff.1 (h c (by simp))
    have ih := ih fun d hd => h d (by simp [hd])
    have hzero : '0'.toNat = 48 := rfl
    rw [Nat.ofDigitChars_cons, Nat.ofDigitChars_eq_ofDigitChars_zero, List.length_cons,
      Nat.pow_succ, hzero]
    calc 10 ^ s.length * (10 * 0 + (c.toNat - 48)) + Nat.ofDigitChars 10 s 0
        < 10 ^ s.length * (c.toNat - 48) + 10 ^ s.length := by simpa using ih
      _ = 10 ^ s.length * (c.toNat - 48 + 1) := by rw [Nat.mul_add, Nat.mul_one]
      _ ≤ 10 ^ s.length * 10 := Nat.mul_le_mul_left _ (by omega)

lemma natAbs_signed (negative : Bool) (n : Nat) : (signed negative n).natAbs = n := by
  cases negative <;> simp [signed]

/-! ### Success and failure -/

lemma leading_eq (s : List Char) :
    leading s =
      if leadingDigits s = [] then .ok none
      else (ofDigits (leadingDigits s)).map fun n =>
        some (signed (splitSign (s.dropWhile Text.isBlank)).1 n) := by
  unfold leading leadingDigits
  cases hsplit : splitSign (s.dropWhile Text.isBlank) with
  | mk negative body => cases hdigits : body.takeWhile isDigit <;> simp [hdigits]

/-- Reading fails exactly on a run of digits that is too long, and then names its length; a number
that is read can be written again. -/
lemma leading_cases (s : List Char) :
    (maxDigits < (leadingDigits s).length ∧
        leading s = .error (.read (leadingDigits s).length)) ∨
      ((leadingDigits s).length ≤ maxDigits ∧
        ∃ n?, leading s = .ok n? ∧ ∀ n ∈ n?, n.natAbs < 10 ^ maxDigits) := by
  rw [leading_eq]
  by_cases hnil : leadingDigits s = []
  · exact .inr ⟨by simp [hnil], none, by simp [hnil], by simp⟩
  · simp only [if_neg hnil, ofDigits]
    by_cases hlen : (leadingDigits s).length ≤ maxDigits
    · refine .inr ⟨hlen, _, by rw [if_pos hlen]; rfl, ?_⟩
      rintro n ⟨rfl⟩
      rw [natAbs_signed]
      have hdigits : ∀ c ∈ leadingDigits s, isDigit c = true := fun c hc =>
        List.mem_takeWhile_imp hc
      exact Nat.lt_of_lt_of_le (valueOfDigits_lt hdigits) (Nat.pow_le_pow_right (by decide) hlen)
    · exact .inl ⟨by omega, by rw [if_neg hlen]; rfl⟩

/-! ### The number at the front of a text -/

/-- What a sign makes of a number. -/
inductive Signs (n : Nat) : List Char → Int → Prop
  | plain : Signs n [] n
  | plus : Signs n ['+'] n
  | minus : Signs n ['-'] (-n)

/-- A text starts with a number if it has blanks, then an optional sign, and then a run of digits,
which goes on as long as there are digits. -/
inductive StartsWith (s : List Char) : Int → Prop
  | intro (blanks sign digits rest : List Char) (m : Int)
      (split : s = blanks ++ (sign ++ (digits ++ rest)))
      (blank : ∀ c ∈ blanks, Text.isBlank c = true) (digit : ∀ c ∈ digits, c.isDigit = true)
      (nonempty : digits ≠ []) (ends : ∀ c ∈ rest.head?, c.isDigit = false)
      (signs : Signs (Nat.ofDigitChars 10 digits 0) sign m) : StartsWith s m

section

variable {n : Nat} {m : Int} {sign s : List Char}

/-- In front of a digit, a sign is split off, and it is not blank. -/
lemma Signs.splitSign_append (h : Signs n sign m) {c : Char} (hc : isDigit c = true)
    (s : List Char) :
    (splitSign (sign ++ c :: s)).2 = c :: s ∧ signed (splitSign (sign ++ c :: s)).1 n = m ∧
      (sign ++ c :: s).dropWhile Text.isBlank = sign ++ c :: s := by
  cases h with
  | plain =>
    rw [List.nil_append, splitSign_of_isDigit hc]
    exact ⟨rfl, rfl, List.dropWhile_cons_of_neg (by simp [isBlank_of_isDigit hc])⟩
  | plus => exact ⟨rfl, rfl, rfl⟩
  | minus => exact ⟨rfl, rfl, rfl⟩

lemma exists_signs (s : List Char) :
    ∃ sign, sign ++ (splitSign s).2 = s ∧ ∀ n, Signs n sign (signed (splitSign s).1 n) := by
  unfold splitSign
  split
  · exact ⟨['-'], rfl, fun n => .minus⟩
  · exact ⟨['+'], rfl, fun n => .plus⟩
  · exact ⟨[], rfl, fun n => .plain⟩

lemma leading_of_startsWith (h : StartsWith s m)
    (hshort : (leadingDigits s).length ≤ maxDigits) : leading s = .ok (some m) := by
  obtain ⟨blanks, sign, digits, rest, m, rfl, hblank, hdigit, hne, hends, hsigns⟩ := h
  simp only [← isDigit_eq] at hdigit hends
  have hrun : (digits ++ rest).takeWhile isDigit = digits := by
    rw [(span_append (.inr hends)).1, List.takeWhile_eq_self_iff.2 hdigit]
  obtain ⟨c, digits, rfl⟩ := List.exists_cons_of_ne_nil hne
  obtain ⟨hsplit, hvalue, hfront⟩ := hsigns.splitSign_append (hdigit c (by simp)) (digits ++ rest)
  have hdrop : (blanks ++ (sign ++ (c :: digits ++ rest))).dropWhile Text.isBlank
      = sign ++ c :: (digits ++ rest) := by
    rw [List.dropWhile_append_of_pos hblank]
    exact hfront
  have hleading : leadingDigits (blanks ++ (sign ++ (c :: digits ++ rest))) = c :: digits := by
    rw [leadingDigits, hdrop, hsplit]
    exact hrun
  rw [hleading] at hshort
  rw [leading_eq, hleading, if_neg hne, ofDigits, if_pos hshort, hdrop, valueOfDigits_eq]
  exact congrArg (fun m => Except.ok (some m)) hvalue

lemma startsWith_of_leading (h : leading s = .ok (some m)) : StartsWith s m := by
  obtain ⟨sign, hsign, hsigns⟩ := exists_signs (s.dropWhile Text.isBlank)
  have hs : s.takeWhile Text.isBlank ++ (sign ++ (leadingDigits s ++
      (splitSign (s.dropWhile Text.isBlank)).2.dropWhile isDigit)) = s := by
    rw [leadingDigits, List.takeWhile_append_dropWhile, hsign, List.takeWhile_append_dropWhile]
  rw [leading_eq, ofDigits] at h
  split at h
  · cases h
  · next hne =>
    split at h
    · obtain rfl := Option.some.inj (Except.ok.inj h)
      refine .intro _ _ _ _ _ hs.symm (fun c => List.mem_takeWhile_imp)
        (fun c hc => isDigit_eq c ▸ List.mem_takeWhile_imp hc) hne
        (fun c hc => isDigit_eq c ▸ eq_false_of_mem_head?_dropWhile hc) ?_
      rw [valueOfDigits_eq]
      exact hsigns _
    · cases h

/-- Unless it has too many digits, the number at the front of a text is read, and no other. -/
lemma leading_eq_some_iff (h : (leadingDigits s).length ≤ maxDigits) :
    leading s = .ok (some m) ↔ StartsWith s m :=
  ⟨startsWith_of_leading, fun hs => leading_of_startsWith hs h⟩

end

/-! ### The decimal form -/

lemma toList_toString (n : Int) :
    (toString n).toList =
      if 0 ≤ n then Nat.toDigits 10 n.natAbs else '-' :: Nat.toDigits 10 n.natAbs := by
  rw [Int.toString_eq_repr, Int.repr_eq_if]
  split
  · rw [Nat.toList_repr, show n.toNat = n.natAbs by omega]
  · rw [String.toList_append, Nat.toList_repr, show (-n).toNat = n.natAbs by omega]
    rfl

lemma isDigit_of_mem_toDigits {c : Char} {n : Nat} (h : c ∈ Nat.toDigits 10 n) :
    isDigit c = true := by
  rw [isDigit_eq]
  exact Nat.isDigit_of_mem_toDigits (by decide) (by decide) h

lemma mem_toString {c : Char} {n : Int} (h : c ∈ (toString n).toList) :
    c = '-' ∨ isDigit c = true := by
  rw [toList_toString] at h
  split at h
  · exact .inr (isDigit_of_mem_toDigits h)
  · rcases List.mem_cons.1 h with rfl | h
    · exact .inl rfl
    · exact .inr (isDigit_of_mem_toDigits h)

/-- No character of a decimal form is blank. -/
lemma isBlank_of_mem_toString {c : Char} {n : Int} (h : c ∈ (toString n).toList) :
    Text.isBlank c = false := by
  rcases mem_toString h with rfl | h
  · decide
  · exact isBlank_of_isDigit h

lemma takeWhile_isDigit_toDigits (n : Nat) :
    (Nat.toDigits 10 n).takeWhile isDigit = Nat.toDigits 10 n :=
  List.takeWhile_eq_self_iff.2 fun _ => isDigit_of_mem_toDigits

lemma ofDigits_toDigits {n : Nat} (h : n < 10 ^ maxDigits) :
    ofDigits (Nat.toDigits 10 n) = .ok n := by
  have hlen : (Nat.toDigits 10 n).length ≤ maxDigits :=
    (Nat.length_toDigits_le_iff (by decide) (by decide)).2 h
  rw [ofDigits, if_pos hlen, valueOfDigits_eq, Nat.ofDigitChars_ten_toDigits]

lemma splitSign_toString (n : Int) :
    splitSign (toString n).toList = (decide (n < 0), Nat.toDigits 10 n.natAbs) := by
  rw [toList_toString]
  split
  · next h =>
    obtain ⟨c, s, hs⟩ := List.exists_cons_of_ne_nil (Nat.toDigits_ne_nil (n := n.natAbs) (b := 10))
    have hc : isDigit c = true := isDigit_of_mem_toDigits (n := n.natAbs) (by simp [hs])
    have hneg : decide (n < 0) = false := by simpa using h
    rw [hs, splitSign_of_isDigit hc, hneg]
  · next h =>
    have hneg : decide (n < 0) = true := by simpa using h
    rw [hneg]
    rfl

lemma toString_injective {m n : Int} (h : toString m = toString n) : m = n := by
  have hsplit := congrArg (fun s => splitSign s.toList) h
  simp only [splitSign_toString, Prod.mk.injEq, decide_eq_decide] at hsplit
  have hvalue := congrArg (Nat.ofDigitChars 10 · 0) hsplit.2
  simp only [Nat.ofDigitChars_ten_toDigits] at hvalue
  omega

lemma signed_natAbs (n : Int) : signed (decide (n < 0)) n.natAbs = n := by
  by_cases hn : n < 0
  · simp only [signed, hn, decide_true, if_true]
    omega
  · simp only [signed, hn, decide_false, Bool.false_eq_true, if_false]
    omega

/-- Which numbers can be written. -/
lemma write_eq (n : Int) :
    write n = if n.natAbs < 10 ^ maxDigits then .ok (toString n) else .error .write := by
  have hdigits : (Nat.toDigits 10 n.natAbs).length ≤ maxDigits ↔ n.natAbs < 10 ^ maxDigits :=
    Nat.length_toDigits_le_iff (by decide) (by decide)
  simp only [write, hdigits]

/-- A number that can be written is read back from its decimal form. -/
lemma leading_toString {n : Int} (h : n.natAbs < 10 ^ maxDigits) :
    leading (toString n).toList = .ok (some n) := by
  have hfront : (toString n).toList.dropWhile Text.isBlank = (toString n).toList :=
    dropWhile_eq_self fun c hc => isBlank_of_mem_toString (List.mem_of_mem_head? hc)
  have hdigits : leadingDigits (toString n).toList = Nat.toDigits 10 n.natAbs := by
    rw [leadingDigits, hfront, splitSign_toString, takeWhile_isDigit_toDigits]
  rw [leading_eq, hdigits, if_neg Nat.toDigits_ne_nil, ofDigits_toDigits h, hfront,
    splitSign_toString]
  simp [Except.map, signed_natAbs]

/-! ### A text that is a number -/

lemma decimal?_of_isDigit {c : Char} (h : isDigit c = true) : decimal? c = some (digitValue c) := by
  have hc := isDigit_iff.1 h
  rw [decimal?, zeros, List.find?_cons_of_pos (by simp; omega)]
  rfl

lemma groupedDigits_of_isDigit {s : List Char} (h : ∀ c ∈ s, isDigit c = true) {after : Bool}
    (hs : s ≠ [] ∨ after = true) :
    groupedDigits decimal? after s = some (s.map digitValue) := by
  induction s generalizing after with
  | nil =>
    obtain rfl : after = true := hs.resolve_left (absurd rfl)
    rfl
  | cons c s ih =>
    have hc := h c List.mem_cons_self
    have hne : c ≠ '_' := by
      rintro rfl
      exact absurd hc (by decide)
    have hrest := ih (fun d hd => h d (List.mem_cons_of_mem c hd)) (.inr rfl)
    rw [groupedDigits, decimal?_of_isDigit hc, hrest]
    · rfl
    · simpa using fun _ => hne

/-- A number that can be written is the number that its decimal form consists of. -/
lemma ofText?_toString {n : Int} (h : n.natAbs < 10 ^ maxDigits) :
    ofText? (toString n).toList = some n := by
  have htrim : Text.trim Text.isWhiteSpace (toString n).toList = (toString n).toList :=
    Text.trim_eq_self fun c hc => by simp [Text.isWhiteSpace, isBlank_of_mem_toString hc]
  have hdigits : groupedDigits decimal? false (Nat.toDigits 10 n.natAbs)
      = some ((Nat.toDigits 10 n.natAbs).map digitValue) :=
    groupedDigits_of_isDigit (fun _ => isDigit_of_mem_toDigits) (.inl Nat.toDigits_ne_nil)
  have hlen : ((Nat.toDigits 10 n.natAbs).map digitValue).length ≤ maxDigits := by
    rw [List.length_map]
    exact (Nat.length_toDigits_le_iff (by decide) (by decide)).2 h
  have hvalue : ofDigitValues ((Nat.toDigits 10 n.natAbs).map digitValue) = n.natAbs := by
    rw [← valueOfDigits, valueOfDigits_eq, Nat.ofDigitChars_ten_toDigits]
  simp only [ofText?, htrim, splitSign_toString, hdigits, Option.bind_eq_bind, Option.bind_some,
    if_pos hlen, hvalue, signed_natAbs]

end Number
end Flowchart
