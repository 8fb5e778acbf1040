import Flowchart.Proofs.Lists
import Flowchart.Text.Blank

/-!
# Stripping

Stripping takes the blanks off both ends of a text and nothing else (`exists_eq_strip`).  A text is
stripped exactly if neither its first nor its last character is blank (`strip_eq_self_iff`), which
makes stripping idempotent; blanks put in front of a text or behind it are taken off again.
-/

namespace Flowchart
namespace Text

/-! ### Stripped texts -/

lemma strip_eq_rdropWhile (s : List Char) : strip s = (s.dropWhile isBlank).rdropWhile isBlank :=
  rfl

/-- The stripped texts are those with no blank at either end. -/
lemma strip_eq_self_iff {s : List Char} :
    strip s = s ↔ (∀ a ∈ s.head?, isBlank a = false) ∧ ∀ a ∈ s.getLast?, isBlank a = false := by
  constructor
  · intro h
    have hlen := congrArg List.length h
    have h₁ : strip s <+: s.dropWhile isBlank := List.rdropWhile_prefix _ _
    have h₂ : s.dropWhile isBlank <:+ s := List.dropWhile_suffix isBlank
    have hfront : s.dropWhile isBlank = s := by
      have := h₁.length_le
      have := h₂.length_le
      exact h₂.eq_of_length (by omega)
    have hback : s.rdropWhile isBlank = s := by
      rw [strip_eq_rdropWhile, hfront] at h
      exact h
    refine ⟨fun a ha => ?_, fun a ha => ?_⟩
    · cases s with
      | nil => simp at ha
      | cons b s =>
        obtain rfl : b = a := by simpa using ha
        simpa using List.dropWhile_eq_self_iff.1 hfront
    · have hne : s ≠ [] := by rintro rfl; simp at ha
      obtain rfl : s.getLast hne = a := by simpa [List.getLast?_eq_some_getLast hne] using ha
      simpa using List.rdropWhile_eq_self_iff.1 hback hne
  · rintro ⟨hhead, hlast⟩
    rw [strip_eq_rdropWhile, dropWhile_eq_self hhead, List.rdropWhile_eq_self_iff]
    intro hne
    simp [hlast _ (List.getLast?_eq_some_getLast hne)]

lemma strip_eq_self {s : List Char} (h : ∀ a ∈ s, isBlank a = false) : strip s = s :=
  strip_eq_self_iff.2
    ⟨fun a ha => h a (List.mem_of_mem_head? ha), fun a ha => h a (List.mem_of_mem_getLast? ha)⟩

lemma trim_eq_self {p : Char → Bool} {s : List Char} (h : ∀ a ∈ s, p a = false) : trim p s = s := by
  have hfront : s.dropWhile p = s := dropWhile_eq_self fun a ha => h a (List.mem_of_mem_head? ha)
  show (s.dropWhile p).rdropWhile p = s
  rw [hfront, List.rdropWhile_eq_self_iff]
  intro hne
  simp [h _ (List.getLast_mem hne)]

lemma head?_strip (s : List Char) : ∀ a ∈ (strip s).head?, isBlank a = false := by
  intro a ha
  -- what is left after the front is stripped starts with the same character
  have hpre : strip s <+: s.dropWhile isBlank := List.rdropWhile_prefix _ _
  obtain ⟨t, ht⟩ := hpre
  have hhead : (s.dropWhile isBlank).head? = some a := by
    rw [← ht, List.head?_append, Option.mem_def.1 ha, Option.some_or]
  exact eq_false_of_mem_head?_dropWhile hhead

lemma getLast?_strip (s : List Char) : ∀ a ∈ (strip s).getLast?, isBlank a = false := by
  intro a ha
  have hne : strip s ≠ [] := by
    intro h
    simp [h] at ha
  obtain rfl : (strip s).getLast hne = a := by
    simpa [List.getLast?_eq_some_getLast hne] using ha
  exact Bool.eq_false_iff.2 (List.rdropWhile_last_not isBlank (s.dropWhile isBlank) hne)

@[simp] lemma strip_strip (s : List Char) : strip (strip s) = strip s :=
  strip_eq_self_iff.2 ⟨head?_strip s, getLast?_strip s⟩

/-! ### What is taken off -/

/-- Only blanks are taken off, in front and behind. -/
lemma exists_eq_strip (s : List Char) :
    ∃ front back, s = front ++ strip s ++ back ∧ (∀ a ∈ front, isBlank a = true) ∧
      ∀ a ∈ back, isBlank a = true := by
  refine ⟨s.takeWhile isBlank, (s.dropWhile isBlank).rtakeWhile isBlank, ?_,
    fun _ => List.mem_takeWhile_imp, fun _ => List.mem_rtakeWhile_imp⟩
  rw [List.append_assoc, strip_eq_rdropWhile, List.rdropWhile_append_rtakeWhile,
    List.takeWhile_append_dropWhile]

lemma strip_cons_of_isBlank {a : Char} (ha : isBlank a = true) (s : List Char) :
    strip (a :: s) = strip s := by
  rw [strip_eq_rdropWhile, List.dropWhile_cons_of_pos ha]
  rfl

lemma strip_append_of_isBlank {a : Char} (ha : isBlank a = true) (s : List Char) :
    strip (s ++ [a]) = strip s := by
  rw [strip_eq_rdropWhile, strip_eq_rdropWhile, List.dropWhile_append]
  split
  · next h =>
    rw [List.isEmpty_iff] at h
    simp [h, ha]
  · exact List.rdropWhile_concat_pos _ _ _ ha

/-- Blanks around a text are taken off together with its own. -/
lemma strip_append_append {front back : List Char} (hfront : ∀ a ∈ front, isBlank a = true)
    (hback : ∀ a ∈ back, isBlank a = true) (s : List Char) :
    strip (front ++ s ++ back) = strip s := by
  induction back using List.reverseRecOn with
  | nil =>
    rw [List.append_nil, strip_eq_rdropWhile, List.dropWhile_append_of_pos hfront]
    rfl
  | append_singleton back a ih =>
    rw [← List.append_assoc, strip_append_of_isBlank (hback a (by simp))]
    exact ih fun b hb => hback b (by simp [hb])

lemma count_eq_zero_of_isBlank {a : Char} (ha : isBlank a = false) {s : List Char}
    (hs : ∀ b ∈ s, isBlank b = true) : s.count a = 0 :=
  List.count_eq_zero.2 fun hmem => by simpa [ha] using hs a hmem

/-- Stripping loses no character that is not blank. -/
lemma count_strip {a : Char} (ha : isBlank a = false) (s : List Char) :
    (strip s).count a = s.count a := by
  obtain ⟨front, back, hs, hfront, hback⟩ := exists_eq_strip s
  conv_rhs => rw [hs]
  rw [List.count_append, List.count_append, count_eq_zero_of_isBlank ha hfront,
    count_eq_zero_of_isBlank ha hback, Nat.zero_add, Nat.add_zero]

lemma mem_strip_of_not_isBlank {a : Char} {s : List Char} (h : a ∈ s) (ha : isBlank a = false) :
    a ∈ strip s := by
  rw [← List.count_pos_iff, count_strip ha]
  exact List.count_pos_iff.2 h

lemma strip_infix (s : List Char) : strip s <:+: s := by
  obtain ⟨front, back, hs, -, -⟩ := exists_eq_strip s
  exact ⟨front, back, hs.symm⟩

end Text
end Flowchart
