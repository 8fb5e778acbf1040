import Flowchart.Json.Read
import Flowchart.Json.Write
import Flowchart.Proofs.Number.Leading

/-!
# JSON texts are read back

A value is `Readable` if it has no floating-point number, its whole numbers are short enough to be
written and read, the members of each of its objects have distinct names, and containers are not
nested too deeply.  Such a value has a text in every layout, and is read back from it
(`exists_render`).

That it has a text is a matter of its whole numbers (`Readable.writes`).  What is `written` is then
read back by a proof that follows the writer.  A piece of text is read whatever stands behind it, as
long as that cannot go on with a number: behind a value come a comma, a line end or a closing mark
(`Stops`).

* `readString_flatMap` for strings: every escape stands for one character;
* `readNumber_toString` for whole numbers;
* `readSequence_writeSequence` for items and members, whatever reads one of them;
* `readValue_written` for all values, by induction over them.

The text of a readable value has no carriage return in it (`notMem_written`), since strings escape
it.
-/

namespace Flowchart
namespace Json

variable {s t : List Char} {layout : Layout} {level depth : Nat}

/-! ### Readable values -/

/-- A value whose containers are nested at most as deeply as the number says, and that has only
numbers and names that are read back. -/
inductive Readable : Nat → Json → Prop where
  | null {depth : Nat} : Readable depth .null
  | bool {depth : Nat} (b : Bool) : Readable depth (.bool b)
  | int {depth : Nat} {n : Int} (h : n.natAbs < 10 ^ Number.maxDigits) : Readable depth (.int n)
  | string {depth : Nat} (s : String) : Readable depth (.string s)
  | array {depth : Nat} {vs : List Json} (h : ∀ v ∈ vs, Readable depth v) :
      Readable (depth + 1) (.array vs)
  | object {depth : Nat} {ms : List (String × Json)} (hnames : (ms.map Prod.fst).Nodup)
      (h : ∀ m ∈ ms, Readable depth m.2) : Readable (depth + 1) (.object ms)

/-- What may stand behind a value: a comma, a line end or a closing mark, or nothing. -/
def Stops (t : List Char) : Prop :=
  ∀ c ∈ t.head?, c = ',' ∨ c = '\n' ∨ c = ']' ∨ c = '}'

/-! ### Strings -/

/-- The four digits of a control character give it back. -/
lemma exists_hex (n : Nat) (h : n < 0x20) :
    ∃ a b c d, Text.hex 4 n = [a, b, c, d] ∧ unit? a b c d = some n ∧
      '\r' ∉ [a, b, c, d] := by
  have hdigits : ∀ n < 0x20, Text.hex 4 n = ['0', '0', (n / 16).digitChar, (n % 16).digitChar] ∧
      unit? '0' '0' (n / 16).digitChar (n % 16).digitChar = some n ∧
      '\r' ∉ ['0', '0', (n / 16).digitChar, (n % 16).digitChar] := by
    decide
  exact ⟨_, _, _, _, hdigits n h⟩

lemma readString_short (opening : Nat) {e c : Char} (h : shortEscape? e = some c)
    (t : List Char) : readString opening ('\\' :: e :: t) = consChar c (readString opening t) := by
  have hu : e ≠ 'u' := by
    rintro rfl
    cases h
  rw [readString, h]
  · simp [hu]
  · simp [hu]

/-- An escaped character is read back if something follows it. -/
lemma readString_escapeChar (opening : Nat) (c : Char) (ht : t ≠ []) :
    readString opening (escapeChar c ++ t) = consChar c (readString opening t) := by
  unfold escapeChar
  split_ifs with hquote hslash hfeed hreturn htab hback hform hcontrol
  · exact readString_short opening (by rw [hquote]; rfl) t
  · exact readString_short opening (by rw [hslash]; rfl) t
  · exact readString_short opening (by rw [hfeed]; rfl) t
  · exact readString_short opening (by rw [hreturn]; rfl) t
  · exact readString_short opening (by rw [htab]; rfl) t
  · exact readString_short opening (by rw [hback]; rfl) t
  · exact readString_short opening (by rw [hform]; rfl) t
  · -- four digits, which make no pair with what follows
    obtain ⟨a, b, d, e, hhex, hunit, -⟩ := exists_hex c.toNat hcontrol
    obtain ⟨x, t, rfl⟩ := List.exists_cons_of_ne_nil ht
    have hhigh : isHighUnit c.toNat = false := by
      simp only [isHighUnit, Bool.and_eq_false_iff, decide_eq_false_iff_not]
      omega
    have hlow : isLowUnit c.toNat = false := by
      simp only [isLowUnit, Bool.and_eq_false_iff, decide_eq_false_iff_not]
      omega
    have hchar : unitChar c.toNat = c := by
      simp [unitChar, hhigh, hlow, Char.ofNat_toNat]
    rw [hhex]
    simp only [List.cons_append, List.nil_append]
    rw [readString, hunit]
    simp only [hhigh, hchar]
  · rw [List.singleton_append, readString, if_neg hcontrol] <;> simp_all

lemma readString_flatMap (opening : Nat) (s t : List Char) :
    readString opening (s.flatMap escapeChar ++ '"' :: t) = .ok (s, t) := by
  induction s with
  | nil => simp [readString]
  | cons c s ih =>
    rw [List.flatMap_cons, List.append_assoc, readString_escapeChar opening c (by simp), ih]
    rfl

/-! ### Numbers -/

/-- The decimal form of a number starts with a zero only if the number is zero. -/
lemma head?_toDigits {n : Nat} (h : 0 < n) : (Nat.toDigits 10 n).head? ≠ some '0' := by
  induction n using Nat.strong_induction_on with
  | _ n ih =>
    by_cases hlt : n < 10
    · rw [Nat.toDigits_of_lt_base hlt]
      interval_cases n <;> decide
    · rw [Nat.toDigits_of_base_le (by decide) (by omega),
        List.head?_append_of_ne_nil _ Nat.toDigits_ne_nil]
      exact ih (n / 10) (by omega) (by omega)

lemma isDigit_of_stops (ht : Stops t) : ∀ c ∈ t.head?, Number.isDigit c = false := by
  intro c hc
  rcases ht c hc with rfl | rfl | rfl | rfl <;> decide

/-- A number starts with its minus or with a digit. -/
lemma exists_toString_eq_cons (n : Int) :
    ∃ c s, (toString n).toList = c :: s ∧ (c = '-' ∨ Number.isDigit c = true) := by
  rw [Number.toList_toString]
  split
  · obtain ⟨c, ds, hds⟩ :=
      List.exists_cons_of_ne_nil (Nat.toDigits_ne_nil (n := n.natAbs) (b := 10))
    exact ⟨c, ds, hds, .inr (Number.isDigit_of_mem_toDigits (n := n.natAbs) (by simp [hds]))⟩
  · exact ⟨'-', _, rfl, .inl rfl⟩

/-- All the digits of a number stand before the point. -/
lemma splitWhole_toDigits (n : Nat) (ht : Stops t) :
    splitWhole (Nat.toDigits 10 n ++ t) = (Nat.toDigits 10 n, t) := by
  rcases Nat.eq_zero_or_pos n with rfl | hn
  · rfl
  · obtain ⟨c, ds, hds⟩ := List.exists_cons_of_ne_nil (Nat.toDigits_ne_nil (n := n) (b := 10))
    have hc : c ≠ '0' := by simpa [hds] using head?_toDigits hn
    have hdigits : ∀ d ∈ Nat.toDigits 10 n, Number.isDigit d = true := fun _ =>
      Number.isDigit_of_mem_toDigits
    have hrest : t.takeWhile Number.isDigit = [] ∧ t.dropWhile Number.isDigit = t := by
      cases t with
      | nil => exact ⟨rfl, rfl⟩
      | cons d t => simp [isDigit_of_stops ht d rfl]
    have hsplit : splitWhole (Nat.toDigits 10 n ++ t)
        = ((Nat.toDigits 10 n ++ t).takeWhile Number.isDigit,
          (Nat.toDigits 10 n ++ t).dropWhile Number.isDigit) := by
      rw [hds, List.cons_append, splitWhole]
      simp [hc]
    rw [hsplit, List.takeWhile_append_of_pos hdigits, List.dropWhile_append_of_pos hdigits, hrest.1,
      hrest.2, List.append_nil]

lemma splitFraction_of_stops (ht : Stops t) : splitFraction t = ([], t) := by
  cases t with
  | nil => rfl
  | cons c t =>
    have hc := ht c rfl
    rw [splitFraction]
    rintro rest heq
    obtain ⟨rfl, -⟩ := List.cons.inj heq
    simp at hc

lemma splitExponent_of_stops (ht : Stops t) : splitExponent t = (none, t) := by
  cases t with
  | nil => rfl
  | cons c t =>
    have hc : ¬ (c = 'e' ∨ c = 'E') := by
      rcases ht c rfl with rfl | rfl | rfl | rfl <;> decide
    simp only [splitExponent]
    split
    · rfl
    · rw [if_neg hc]

lemma readNumber_toString {n : Int} (h : n.natAbs < 10 ^ Number.maxDigits) (ht : Stops t) :
    readNumber ((toString n).toList ++ t) = .ok (.int n, t) := by
  have hdigits : Number.ofDigits (Nat.toDigits 10 n.natAbs) = .ok n.natAbs :=
    Number.ofDigits_toDigits h
  have hwhole := splitWhole_toDigits n.natAbs ht
  obtain ⟨c, ds, hds⟩ :=
    List.exists_cons_of_ne_nil (Nat.toDigits_ne_nil (n := n.natAbs) (b := 10))
  have hc : Number.isDigit c = true :=
    Number.isDigit_of_mem_toDigits (n := n.natAbs) (by simp [hds])
  have hminus : c ≠ '-' := by
    rintro rfl
    cases hc
  rw [Number.toList_toString]
  rw [hds] at hdigits hwhole ⊢
  rw [List.cons_append] at hwhole
  split
  · next hn =>
    have hsign : Number.signed false n.natAbs = n := by
      simp [Number.signed, hn]
    simp [readNumber, hminus, hwhole, splitFraction_of_stops ht, splitExponent_of_stops ht, hdigits,
      hsign]
  · next hn =>
    have hsign : Number.signed true n.natAbs = n := by
      simp only [Number.signed, if_true]
      omega
    simp [readNumber, hwhole, splitFraction_of_stops ht, splitExponent_of_stops ht, hdigits, hsign]

/-! ### Simple values -/

lemma dropWord?_eq_none {word : String} {s : List Char} (h : ¬ word.toList <+: s) :
    dropWord? word s = none := by
  rw [dropWord?, if_neg]
  rwa [List.isPrefixOf_iff_prefix]

/-- Neither of the first two letters of a word is a digit. -/
lemma exists_of_mem_words {w : String × Json} (hw : w ∈ words) :
    ∃ a b u, w.1.toList = a :: b :: u ∧ Number.isDigit a = false ∧ Number.isDigit b = false := by
  simp only [words, List.mem_cons, List.not_mem_nil, or_false] at hw
  rcases hw with rfl | rfl | rfl | rfl | rfl | rfl <;> simp [Number.isDigit]

/-- A number is no word. -/
lemma readScalar_toString {n : Int} (h : n.natAbs < 10 ^ Number.maxDigits) (ht : Stops t) :
    readScalar ((toString n).toList ++ t) = .ok (.int n, t) := by
  have hnone : ∀ w ∈ words, (dropWord? w.1 ((toString n).toList ++ t)).map (w.2, ·) = none := by
    intro w hw
    obtain ⟨a, b, u, hword, ha, hb⟩ := exists_of_mem_words hw
    obtain ⟨c, ds, hds⟩ :=
      List.exists_cons_of_ne_nil (Nat.toDigits_ne_nil (n := n.natAbs) (b := 10))
    have hc : Number.isDigit c = true :=
      Number.isDigit_of_mem_toDigits (n := n.natAbs) (by simp [hds])
    rw [dropWord?_eq_none, Option.map_none]
    rw [Number.toList_toString, hds, hword]
    -- a digit comes first, or right after the minus
    split
    · rw [List.cons_append, List.cons_prefix_cons]
      rintro ⟨rfl, -⟩
      simp [ha] at hc
    · rw [List.cons_append, List.cons_append, List.cons_prefix_cons, List.cons_prefix_cons]
      rintro ⟨-, rfl, -⟩
      simp [hb] at hc
  rw [readScalar, List.findSome?_eq_none_iff.2 hnone]
  exact readNumber_toString h ht

lemma readSimple_writeString (s : String) (t : List Char) :
    readSimple (writeString s ++ t) = .ok (.string s, t) := by
  simp only [writeString, List.cons_append, List.append_assoc, List.nil_append, readSimple]
  rw [readString_flatMap]
  simp

/-- The first character of a value: no white space, no closing mark, no byte order mark. -/
structure Opens (c : Char) : Prop where
  not_isSpace : isSpace c = false
  ne_bracket : c ≠ ']'
  ne_mark : c ≠ '\uFEFF'

instance (c : Char) : Decidable (Opens c) :=
  decidable_of_iff (isSpace c = false ∧ c ≠ ']' ∧ c ≠ '\uFEFF')
    ⟨fun h => ⟨h.1, h.2.1, h.2.2⟩, fun h => ⟨h.1, h.2, h.3⟩⟩

lemma opens_of_isDigit {c : Char} (h : Number.isDigit c = true) : Opens c := by
  have hc := Number.isDigit_iff.1 h
  have hne (d : Char) (hd : d.toNat < 48 ∨ 57 < d.toNat) : c ≠ d := by
    rintro rfl
    omega
  refine ⟨?_, hne _ (by decide), hne _ (by decide)⟩
  simp [isSpace, hne ' ' (by decide), hne '\t' (by decide), hne '\n' (by decide),
    hne '\r' (by decide)]

/-! ### Items and members -/

/-- Elements as text, with what stands between them. -/
def writeSequence {α : Type} (layout : Layout) (level : Nat) (text : α → List Char) (a : α)
    (as : List α) : List Char :=
  text a ++ as.flatMap fun b => layout.separator level ++ text b

/-- The text that is written for a value; nothing if it has none. -/
def written (layout : Layout) (level : Nat) (v : Json) : List Char :=
  match write layout level v with
  | .ok s => s
  | .error _ => []

/-- A member of an object as text. -/
def writtenMember (layout : Layout) (level : Nat) (m : String × Json) : List Char :=
  writeString m.1 ++ ':' :: ' ' :: written layout level m.2

/-- The value has a text. -/
def Writes (layout : Layout) (level : Nat) (v : Json) : Prop :=
  write layout level v = .ok (written layout level v)

lemma writes_of_eq_ok {v : Json} (h : write layout level v = .ok s) : Writes layout level v := by
  rw [Writes, written, h]

lemma written_eq {v : Json} (h : write layout level v = .ok s) : written layout level v = s := by
  rw [written, h]

lemma writeItems_eq {vs : List Json} (h : ∀ v ∈ vs, Writes layout level v) :
    writeItems layout level vs
      = .ok (vs.flatMap fun v => layout.separator level ++ written layout level v) := by
  induction vs with
  | nil => rw [writeItems]; rfl
  | cons v vs ih =>
    rw [writeItems, h v (by simp), ih fun w hw => h w (by simp [hw])]
    rfl

lemma writeMembers_eq {ms : List (String × Json)} (h : ∀ m ∈ ms, Writes layout level m.2) :
    writeMembers layout level ms
      = .ok (ms.flatMap fun m => layout.separator level ++ writtenMember layout level m) := by
  induction ms with
  | nil => rw [writeMembers]; rfl
  | cons m ms ih =>
    rw [writeMembers, h m (by simp), ih fun w hw => h w (by simp [hw]), List.flatMap_cons,
      writtenMember, ← List.append_assoc _ (writeString m.1)]
    rfl

lemma write_array_cons {v : Json} {vs : List Json}
    (h : ∀ w ∈ v :: vs, Writes layout (level + 1) w) :
    write layout level (.array (v :: vs)) = .ok ('[' :: (layout.newline (level + 1) ++
      writeSequence layout (level + 1) (written layout (level + 1)) v vs ++
      layout.newline level ++ [']'])) := by
  rw [write, h v (by simp), writeItems_eq fun w hw => h w (by simp [hw]), writeSequence]
  simp only [bind, Except.bind, pure, Except.pure, List.cons_append, List.append_assoc]

lemma write_object_cons {m : String × Json} {ms : List (String × Json)}
    (h : ∀ w ∈ m :: ms, Writes layout (level + 1) w.2) :
    write layout level (.object (m :: ms)) = .ok ('{' :: (layout.newline (level + 1) ++
      writeSequence layout (level + 1) (writtenMember layout (level + 1)) m ms ++
      layout.newline level ++ ['}'])) := by
  rw [write, h m (by simp), writeMembers_eq fun w hw => h w (by simp [hw]), writeSequence,
    writtenMember]
  simp only [bind, Except.bind, pure, Except.pure, List.cons_append, List.append_assoc]

lemma write_int {n : Int} (h : n.natAbs < 10 ^ Number.maxDigits) :
    write layout level (.int n) = .ok (toString n).toList := by
  rw [write, Number.write_eq, if_pos h]
  rfl

/-- A readable value has a text. -/
lemma Readable.writes {v : Json} (h : Readable depth v) (layout : Layout) (level : Nat) :
    Writes layout level v := by
  induction h generalizing level with
  | null => exact writes_of_eq_ok (by rw [write])
  | bool b => exact writes_of_eq_ok (by rw [write])
  | int h => exact writes_of_eq_ok (write_int h)
  | string s => exact writes_of_eq_ok (by rw [write])
  | @array _ vs h ih =>
    cases vs with
    | nil => exact writes_of_eq_ok (by rw [write])
    | cons v vs => exact writes_of_eq_ok (write_array_cons fun w hw => ih w hw (level + 1))
  | @object _ ms hnames h ih =>
    cases ms with
    | nil => exact writes_of_eq_ok (by rw [write])
    | cons m ms => exact writes_of_eq_ok (write_object_cons fun w hw => ih w hw (level + 1))

lemma written_array_cons {v : Json} {vs : List Json} (h : ∀ w ∈ v :: vs, Readable depth w)
    (layout : Layout) (level : Nat) :
    written layout level (.array (v :: vs)) = '[' :: (layout.newline (level + 1) ++
      writeSequence layout (level + 1) (written layout (level + 1)) v vs ++
      layout.newline level ++ [']']) :=
  written_eq (write_array_cons fun w hw => (h w hw).writes layout (level + 1))

lemma written_object_cons {m : String × Json} {ms : List (String × Json)}
    (h : ∀ w ∈ m :: ms, Readable depth w.2) (layout : Layout) (level : Nat) :
    written layout level (.object (m :: ms)) = '{' :: (layout.newline (level + 1) ++
      writeSequence layout (level + 1) (writtenMember layout (level + 1)) m ms ++
      layout.newline level ++ ['}']) :=
  written_eq (write_object_cons fun w hw => (h w hw).writes layout (level + 1))

lemma skipSpace_of_not_isSpace {c : Char} (h : isSpace c = false) (s : List Char) :
    skipSpace (c :: s) = c :: s := by
  simp [skipSpace, h]

/-- The line end and the spaces before an item are skipped. -/
lemma skipSpace_newline (layout : Layout) (level : Nat) (s : List Char) :
    skipSpace (layout.newline level ++ s) = skipSpace s := by
  cases layout with
  | line => rfl
  | indented width =>
    refine List.dropWhile_append_of_pos fun c hc => ?_
    rcases List.mem_cons.1 hc with rfl | hc
    · rfl
    · rw [List.eq_of_mem_replicate hc]
      rfl

/-- Between two items there is a comma, and white space behind it. -/
lemma exists_separator (layout : Layout) (level : Nat) :
    ∃ gap, layout.separator level = ',' :: gap ∧ ∀ s, skipSpace (gap ++ s) = skipSpace s := by
  cases layout with
  | line => exact ⟨[' '], rfl, fun s => rfl⟩
  | indented width => exact ⟨_, rfl, skipSpace_newline (.indented width) level⟩

lemma stops_newline (layout : Layout) (level : Nat) {closing : Char}
    (h : closing = ']' ∨ closing = '}') (t : List Char) :
    Stops (layout.newline level ++ closing :: t) := by
  cases layout with
  | line =>
    rintro c ⟨⟩
    exact .inr (.inr h)
  | indented width =>
    rintro c ⟨⟩
    exact .inr (.inl rfl)

/-- A text that starts with neither white space nor the given closing mark. -/
def Starts (closing : Char) (s : List Char) : Prop :=
  ∃ c u, s = c :: u ∧ isSpace c = false ∧ c ≠ closing

lemma Starts.append {closing : Char} (h : Starts closing s) (t : List Char) :
    Starts closing (s ++ t) := by
  obtain ⟨c, u, rfl, hc⟩ := h
  exact ⟨c, u ++ t, rfl, hc⟩

lemma Starts.skipSpace_eq {closing : Char} (h : Starts closing s) : skipSpace s = s := by
  obtain ⟨c, u, rfl, hc, -⟩ := h
  exact skipSpace_of_not_isSpace hc u

section Sequence

variable {α : Type} {closing : Char} {element : Reader α} {text : α → List Char} {a : α}
  {as : List α}

/-- Elements are read back one by one if each of them is, whatever may stand behind it. -/
lemma readSequence_of_lt (hclosing : closing = ']' ∨ closing = '}')
    (hread : ∀ b ∈ a :: as, ∀ u, Stops u → element (text b ++ u) = .ok (b, u))
    (hstart : ∀ b ∈ as, Starts closing (text b)) {bound : Nat} (hbound : as.length < bound)
    (layout : Layout) (level outer : Nat) (t : List Char) :
    readSequence closing element bound
      (writeSequence layout level text a as ++ (layout.newline outer ++ closing :: t))
        = .ok (a :: as, t) := by
  obtain ⟨bound, rfl⟩ : ∃ b, bound = b + 1 := ⟨bound - 1, by omega⟩
  rw [writeSequence, List.append_assoc]
  have hspace : isSpace closing = false ∧ closing ≠ ',' := by
    rcases hclosing with rfl | rfl <;> decide
  induction as generalizing a bound with
  | nil =>
    have ha := hread a (by simp) _ (stops_newline layout outer hclosing t)
    rw [readSequence, List.flatMap_nil, List.nil_append, ha]
    simp only [skipSpace_newline, skipSpace_of_not_isSpace hspace.1, if_true]
  | cons b as ih =>
    obtain ⟨gap, hsep, hgap⟩ := exists_separator layout level
    obtain ⟨bound, rfl⟩ : ∃ b, bound = b + 1 := by
      rw [List.length_cons] at hbound
      exact ⟨bound - 1, by omega⟩
    have ih := ih (a := b) (fun c hc => hread c (by simp_all))
      (fun c hc => hstart c (by simp [hc])) bound (by simpa using hbound)
    rw [List.flatMap_cons, List.append_assoc, List.append_assoc]
    generalize (as.flatMap fun b => layout.separator level ++ text b) ++
      (layout.newline outer ++ closing :: t) = rest at ih ⊢
    have ha := hread a (by simp) (',' :: gap ++ (text b ++ rest))
      (by rintro c ⟨⟩; exact .inl rfl)
    have hb := ((hstart b (by simp)).append rest).skipSpace_eq
    rw [hsep, readSequence, ha]
    simp only [List.cons_append, skipSpace_of_not_isSpace (show isSpace ',' = false by decide),
      if_neg hspace.2.symm, hgap, hb, if_true]
    rw [ih]

/-- There are no more elements than characters, so the bound of the reader is never reached. -/
lemma readSequence_writeSequence (hclosing : closing = ']' ∨ closing = '}')
    (hread : ∀ b ∈ a :: as, ∀ u, Stops u → element (text b ++ u) = .ok (b, u))
    (hstart : ∀ b ∈ as, Starts closing (text b)) (layout : Layout) (level outer : Nat)
    (t : List Char) :
    let s := writeSequence layout level text a as ++ (layout.newline outer ++ closing :: t)
    readSequence closing element (s.length + 1) s = .ok (a :: as, t) := by
  refine readSequence_of_lt hclosing hread hstart ?_ layout level outer t
  have hflat : as.length ≤ (as.flatMap fun b => layout.separator level ++ text b).length := by
    obtain ⟨gap, hsep, -⟩ := exists_separator layout level
    rw [hsep, List.length_flatMap]
    calc as.length = (as.map fun _ => 1).sum := by simp
      _ ≤ _ := List.sum_le_sum fun b _ => by simp
  rw [writeSequence, List.length_append, List.length_append]
  omega

end Sequence

/-! ### All values -/

lemma exists_written_eq_cons {v : Json} (h : Readable depth v) (layout : Layout) (level : Nat) :
    ∃ c s, written layout level v = c :: s ∧ Opens c := by
  cases h with
  | null => exact ⟨'n', _, rfl, by decide⟩
  | bool b =>
    cases b
    · exact ⟨'f', _, rfl, by decide⟩
    · exact ⟨'t', _, rfl, by decide⟩
  | @int _ n h =>
    obtain ⟨c, s, hs, rfl | hc⟩ := exists_toString_eq_cons n
    · exact ⟨'-', s, by rw [written_eq (write_int h), hs], by decide⟩
    · exact ⟨c, s, by rw [written_eq (write_int h), hs], opens_of_isDigit hc⟩
  | string s => exact ⟨'"', _, rfl, by decide⟩
  | @array _ vs h =>
    cases vs with
    | nil => exact ⟨'[', _, written_eq (by rw [write]), by decide⟩
    | cons v vs => exact ⟨'[', _, written_array_cons h layout level, by decide⟩
  | @object _ ms hnames h =>
    cases ms with
    | nil => exact ⟨'{', _, written_eq (by rw [write]), by decide⟩
    | cons m ms => exact ⟨'{', _, written_object_cons h layout level, by decide⟩

lemma starts_written {v : Json} (h : Readable depth v) (layout : Layout) (level : Nat) :
    Starts ']' (written layout level v) := by
  obtain ⟨c, s, hs, hc⟩ := exists_written_eq_cons h layout level
  exact ⟨c, s, hs, hc.not_isSpace, hc.ne_bracket⟩

lemma starts_writtenMember (layout : Layout) (level : Nat) (m : String × Json) :
    Starts '}' (writtenMember layout level m) :=
  ⟨'"', _, rfl, by decide, by decide⟩

lemma readMember_writtenMember {value : Reader Json} {m : String × Json} (hm : Readable depth m.2)
    (hvalue : ∀ u, Stops u → value (written layout level m.2 ++ u) = .ok (m.2, u)) (ht : Stops t) :
    readMember value (writtenMember layout level m ++ t) = .ok (m, t) := by
  have hskip : skipSpace (' ' :: (written layout level m.2 ++ t)) = written layout level m.2 ++ t :=
    ((starts_written hm layout level).append t).skipSpace_eq
  simp only [writtenMember, writeString, List.cons_append, List.append_assoc, List.nil_append,
    readMember]
  rw [readString_flatMap]
  simp only [skipSpace_of_not_isSpace (show isSpace ':' = false by decide), hskip, hvalue t ht,
    String.ofList_toList]

lemma setMember_of_notMem {name : String} {value : Json} {ms : List (String × Json)}
    (h : name ∉ ms.map Prod.fst) : setMember name value ms = ms ++ [(name, value)] := by
  induction ms with
  | nil => rfl
  | cons m ms ih =>
    obtain ⟨hm, hms⟩ := not_or.1 (List.mem_cons.not.1 h)
    rw [setMember, if_neg (Ne.symm hm), ih hms, List.cons_append]

/-- Members with distinct names are an object as they are. -/
lemma ofMembers_eq {ms : List (String × Json)} (h : (ms.map Prod.fst).Nodup) :
    ofMembers ms = .object ms := by
  have hfold : ∀ acc : List (String × Json), ((acc ++ ms).map Prod.fst).Nodup →
      ms.foldl (fun ms m => setMember m.1 m.2 ms) acc = acc ++ ms := by
    clear h
    induction ms with
    | nil => simp
    | cons m ms ih =>
      intro acc hacc
      have hm : m.1 ∉ acc.map Prod.fst := by
        rw [List.map_append, List.map_cons, List.nodup_append] at hacc
        intro hmem
        exact hacc.2.2 _ hmem m.1 List.mem_cons_self rfl
      rw [List.foldl_cons, setMember_of_notMem hm, ih _ (by simpa using hacc), List.append_assoc,
        List.singleton_append]
  rw [ofMembers, hfold [] (by simpa using h), List.nil_append]

lemma readArray_eq {value : Reader Json} {vs : List Json} (hs : Starts ']' s)
    (h : readSequence ']' value (s.length + 1) s = .ok (vs, t)) (layout : Layout) (level : Nat) :
    readArray value (layout.newline level ++ s) = .ok (.array vs, t) := by
  rw [readArray, skipSpace_newline, hs.skipSpace_eq]
  split
  · obtain ⟨c, u, heq, -, hc⟩ := hs
    exact absurd (List.cons.inj heq).1.symm hc
  · rw [h]

lemma readObject_eq {value : Reader Json} {ms : List (String × Json)} (hs : Starts '}' s)
    (h : readSequence '}' (readMember value) (s.length + 1) s = .ok (ms, t))
    (hnames : (ms.map Prod.fst).Nodup) (layout : Layout) (level : Nat) :
    readObject value (layout.newline level ++ s) = .ok (.object ms, t) := by
  rw [readObject, skipSpace_newline, hs.skipSpace_eq]
  split
  · obtain ⟨c, u, heq, -, hc⟩ := hs
    exact absurd (List.cons.inj heq).1.symm hc
  · rw [h, ← ofMembers_eq hnames]

lemma readValue_of_simple {c : Char} (hsquare : c ≠ '[') (hcurly : c ≠ '{') (depth : Nat)
    (s : List Char) : readValue depth (c :: s) = readSimple (c :: s) := by
  cases depth <;> simp [readValue, hsquare, hcurly]

/-- A readable value is read back, whatever may stand behind it. -/
lemma readValue_written {v : Json} (h : Readable depth v) (layout : Layout) (level : Nat)
    (ht : Stops t) : readValue depth (written layout level v ++ t) = .ok (v, t) := by
  induction h generalizing level t with
  | null => exact readValue_of_simple (c := 'n') (by decide) (by decide) _ _
  | bool b =>
    cases b
    · exact readValue_of_simple (c := 'f') (by decide) (by decide) _ _
    · exact readValue_of_simple (c := 't') (by decide) (by decide) _ _
  | @int depth n h =>
    have hscalar := readScalar_toString h ht
    obtain ⟨c, s, hs, hc⟩ := exists_toString_eq_cons n
    have hne (d : Char) (hminus : d ≠ '-') (hdigit : Number.isDigit d = false) : c ≠ d := by
      rintro rfl
      simp [hminus, hdigit] at hc
    rw [hs] at hscalar
    rw [written_eq (write_int h), hs, List.cons_append,
      readValue_of_simple (hne '[' (by decide) (by decide)) (hne '{' (by decide) (by decide))]
    simpa [readSimple, hne '"' (by decide) (by decide)] using hscalar
  | string s =>
    rw [written_eq (by rw [write]), ← readSimple_writeString s t]
    exact readValue_of_simple (c := '"') (by decide) (by decide) _ _
  | @array depth vs h ih =>
    cases vs with
    | nil => rw [written_eq (by rw [write])]; rfl
    | cons v vs =>
      have hitems := readSequence_writeSequence (.inl (rfl : ']' = ']'))
        (fun w hw u hu => ih w hw (level + 1) hu)
        (fun w hw => starts_written (h w (by simp [hw])) layout (level + 1)) layout (level + 1)
        level t
      have hstarts := (((starts_written (h v (by simp)) layout (level + 1)).append (vs.flatMap
        fun w => layout.separator (level + 1) ++ written layout (level + 1) w)).append
        (layout.newline level ++ ']' :: t))
      rw [written_array_cons h]
      simp only [List.cons_append, List.append_assoc, List.nil_append, readValue]
      exact readArray_eq hstarts hitems layout (level + 1)
  | @object depth ms hnames h ih =>
    cases ms with
    | nil => rw [written_eq (by rw [write])]; rfl
    | cons m ms =>
      have hmembers := readSequence_writeSequence (.inr (rfl : '}' = '}'))
        (fun w hw u hu => readMember_writtenMember (h w hw) (fun u hu => ih w hw (level + 1) hu) hu)
        (fun w _ => starts_writtenMember layout (level + 1) w) layout (level + 1) level t
      have hstarts := (((starts_writtenMember layout (level + 1) m).append (ms.flatMap
        fun w => layout.separator (level + 1) ++ writtenMember layout (level + 1) w)).append
        (layout.newline level ++ '}' :: t))
      rw [written_object_cons h]
      simp only [List.cons_append, List.append_assoc, List.nil_append, readValue]
      exact readObject_eq hstarts hmembers hnames layout (level + 1)

/-! ### Whole texts -/

lemma notMem_escapeChar (c : Char) : '\r' ∉ escapeChar c := by
  unfold escapeChar
  split_ifs with hquote hslash hfeed hreturn htab hback hform hcontrol
  iterate 7
    · decide
  · obtain ⟨a, b, d, e, hhex, -, hdigits⟩ := exists_hex c.toNat hcontrol
    rw [hhex]
    simpa using hdigits
  · simpa using Ne.symm hreturn

lemma notMem_writeString (s : String) : '\r' ∉ writeString s := by
  simp [writeString, notMem_escapeChar]

lemma notMem_newline (layout : Layout) (level : Nat) : '\r' ∉ layout.newline level := by
  cases layout <;> simp [Layout.newline]

lemma notMem_separator (layout : Layout) (level : Nat) : '\r' ∉ layout.separator level := by
  cases layout with
  | line => simp [Layout.separator]
  | indented width => simp [Layout.separator, notMem_newline]

lemma notMem_writeSequence {α : Type} {text : α → List Char} {a : α} {as : List α}
    (h : ∀ b ∈ a :: as, '\r' ∉ text b) (layout : Layout) (level : Nat) :
    '\r' ∉ writeSequence layout level text a as := by
  simp only [writeSequence, List.mem_append, List.mem_flatMap, not_or, not_exists, not_and]
  exact ⟨h a (by simp), fun b hb => ⟨notMem_separator layout level, h b (by simp [hb])⟩⟩

/-- A carriage return inside a string is escaped, and there is none elsewhere. -/
lemma notMem_written {v : Json} (h : Readable depth v) (layout : Layout) (level : Nat) :
    '\r' ∉ written layout level v := by
  induction h generalizing level with
  | null => rw [written_eq (by rw [write])]; decide
  | bool b => cases b <;> (rw [written_eq (by rw [write])]; decide)
  | @int _ n h =>
    have hdigits : '\r' ∉ Nat.toDigits 10 n.natAbs := fun hmem =>
      absurd (Number.isDigit_of_mem_toDigits hmem) (by decide)
    rw [written_eq (write_int h), Number.toList_toString]
    split <;> simpa using hdigits
  | string s => exact notMem_writeString s
  | @array _ vs h ih =>
    cases vs with
    | nil => rw [written_eq (by rw [write])]; decide
    | cons v vs =>
      have hitems := notMem_writeSequence (fun w hw => ih w hw (level + 1)) layout (level + 1)
      rw [written_array_cons h]
      simp [hitems, notMem_newline]
  | @object _ ms hnames h ih =>
    cases ms with
    | nil => rw [written_eq (by rw [write])]; decide
    | cons m ms =>
      have hmember : ∀ w ∈ m :: ms, '\r' ∉ writtenMember layout (level + 1) w := fun w hw => by
        simp [writtenMember, notMem_writeString, ih w hw]
      have hmembers := notMem_writeSequence hmember layout (level + 1)
      rw [written_object_cons h]
      simp [hmembers, notMem_newline]

/-- A readable value has a text without carriage returns, and is read back from it and a line
end. -/
lemma exists_render {v : Json} (h : Readable maxNesting v) (layout : Layout) :
    ∃ t, v.render layout = .ok t ∧ '\r' ∉ t.toList ∧ parse (t.toList ++ ['\n']) = .ok v := by
  refine ⟨String.ofList (written layout 0 v), ?_, ?_, ?_⟩
  · rw [render, h.writes]
    rfl
  · rw [String.toList_ofList]
    exact notMem_written h layout 0
  · obtain ⟨c, s, hs, hc⟩ := exists_written_eq_cons h layout 0
    have hread := readValue_written h layout 0 (t := ['\n']) (by rintro c ⟨⟩; exact .inr (.inl rfl))
    rw [String.toList_ofList]
    rw [hs, List.cons_append] at hread ⊢
    simp only [parse, readText, List.head?_cons, Option.some.injEq, if_neg hc.ne_mark,
      skipSpace_of_not_isSpace hc.not_isSpace, hread]
    rfl

/-- A number with too many digits keeps the whole value from being written. -/
example : (array [.null, .int (10 ^ 4300 : Nat)]).render .line = .error .write := by
  decide +kernel

end Json
end Flowchart
