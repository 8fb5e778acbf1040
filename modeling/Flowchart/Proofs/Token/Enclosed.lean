import Flowchart.Chart.Written
import Flowchart.Token.Scan
import Mathlib

/-!
# What constructs contain

Each of the three readers of constructs stops at the first mark that closes its construct, so what
it has read in front of that mark does not depend on the text behind it:

* `readBalanced_append`: in front of the closing bracket, only the surplus of opening brackets
  counts;
* `readDatabase_append`: a text without `]]` and without a `]` at its end is read whole;
* `readQuoted_flatMap`: the marks of an edge label are read as what they stand for.
-/

namespace Flowchart
namespace Token

/-! ### Balanced texts -/

/-- A text is balanced in a pair of brackets if each of its prefixes has at least as many opening
as closing ones, and the text as many. -/
structure Balanced (opening closing : Char) (s : List Char) : Prop where
  count_le : ∀ p ∈ s.inits, p.count closing ≤ p.count opening
  count_eq : s.count opening = s.count closing

instance (o c : Char) (s : List Char) : Decidable (Balanced o c s) :=
  decidable_of_iff ((∀ p ∈ s.inits, p.count c ≤ p.count o) ∧ s.count o = s.count c)
    ⟨fun h => ⟨h.1, h.2⟩, fun h => ⟨h.count_le, h.count_eq⟩⟩

lemma Balanced.cons_of_ne {o c a : Char} {s : List Char} (h : Balanced o c s) (ho : a ≠ o)
    (hc : a ≠ c) : Balanced o c (a :: s) := by
  refine ⟨fun p hp => ?_, ?_⟩
  · rw [List.inits_cons, List.mem_cons, List.mem_map] at hp
    rcases hp with rfl | ⟨q, hq, rfl⟩
    · simp
    · rw [List.count_cons_of_ne hc, List.count_cons_of_ne ho]
      exact h.count_le q hq
  · rw [List.count_cons_of_ne hc, List.count_cons_of_ne ho]
    exact h.count_eq

lemma balanced_of_notMem {o c : Char} {s : List Char} (ho : o ∉ s) (hc : c ∉ s) :
    Balanced o c s := by
  refine ⟨fun p hp => ?_, by rw [List.count_eq_zero.2 ho, List.count_eq_zero.2 hc]⟩
  have hpre : p <+: s := (List.mem_inits p s).1 hp
  rw [List.count_eq_zero.2 fun h => hc (hpre.subset h)]
  exact Nat.zero_le _

/-! ### Brackets -/

/-- Put a text in front of what a construct contains. -/
def Enclosed.prepend (s : List Char) (e : Enclosed) : Enclosed :=
  { e with inner := s ++ e.inner }

lemma Enclosed.prepend_nil (e : Enclosed) : e.prepend [] = e := rfl

lemma Enclosed.cons_prepend (a : Char) (s : List Char) (e : Enclosed) :
    (e.prepend s).cons a = e.prepend (a :: s) := rfl

section Brackets

variable {o c : Char}

lemma readBalanced_opening (d : Nat) (s : List Char) :
    readBalanced o c d (o :: s) = (readBalanced o c (d + 1) s).cons o := by
  simp [readBalanced]

lemma readBalanced_closing_zero (hoc : o ≠ c) (s : List Char) :
    readBalanced o c 0 (c :: s) = ⟨[], s, true⟩ := by
  simp [readBalanced, hoc.symm]

lemma readBalanced_closing_succ (hoc : o ≠ c) (d : Nat) (s : List Char) :
    readBalanced o c (d + 1) (c :: s) = (readBalanced o c d s).cons c := by
  simp [readBalanced, hoc.symm]

lemma readBalanced_other {a : Char} (ho : a ≠ o) (hc : a ≠ c) (d : Nat) (s : List Char) :
    readBalanced o c d (a :: s) = (readBalanced o c d s).cons a := by
  simp [readBalanced, ho, hc]

/-- A text that does not close more brackets than are open is read whole, and only its surplus of
opening brackets is kept in mind. -/
lemma readBalanced_append (hoc : o ≠ c) {d : Nat} {s : List Char}
    (h : ∀ p ∈ s.inits, p.count c ≤ d + p.count o) (t : List Char) :
    readBalanced o c d (s ++ t)
      = (readBalanced o c (d + s.count o - s.count c) t).prepend s := by
  induction s generalizing d with
  | nil => simp [Enclosed.prepend_nil]
  | cons a s ih =>
    have htail : ∀ p ∈ s.inits, (a :: p).count c ≤ d + (a :: p).count o := by
      intro p hp
      exact h (a :: p) (by simpa [List.inits_cons] using hp)
    have hone := htail [] (by simp)
    rw [List.cons_append]
    by_cases ho : a = o
    · subst ho
      have ih := ih (d := d + 1) fun p hp => by
        have := htail p hp
        rw [List.count_cons_self, List.count_cons_of_ne hoc] at this
        omega
      rw [readBalanced_opening, ih, Enclosed.cons_prepend, List.count_cons_self,
        List.count_cons_of_ne hoc, show d + 1 + s.count a = d + (s.count a + 1) by omega]
    · by_cases hc : a = c
      · subst hc
        -- one bracket at least is open here
        obtain ⟨d, rfl⟩ : ∃ d', d = d' + 1 := by
          rw [List.count_cons_self, List.count_cons_of_ne ho, List.count_nil,
            List.count_nil] at hone
          exact ⟨d - 1, by omega⟩
        have ih := ih (d := d) fun p hp => by
          have := htail p hp
          rw [List.count_cons_self, List.count_cons_of_ne ho] at this
          omega
        rw [readBalanced_closing_succ hoc, ih, Enclosed.cons_prepend, List.count_cons_self,
          List.count_cons_of_ne ho]
        congr 2
        omega
      · have ih := ih (d := d) fun p hp => by
          have := htail p hp
          rwa [List.count_cons_of_ne hc, List.count_cons_of_ne ho] at this
        rw [readBalanced_other ho hc, ih, Enclosed.cons_prepend, List.count_cons_of_ne hc,
          List.count_cons_of_ne ho]

/-- A balanced text ends at the closing bracket that follows it. -/
lemma readBalanced_of_balanced (hoc : o ≠ c) {s : List Char} (h : Balanced o c s)
    (t : List Char) : readBalanced o c 0 (s ++ c :: t) = ⟨s, t, true⟩ := by
  have hprefix : ∀ p ∈ s.inits, p.count c ≤ 0 + p.count o := by simpa using h.count_le
  have hzero : 0 + s.count o - s.count c = 0 := by
    have := h.count_eq
    omega
  rw [readBalanced_append hoc hprefix, hzero, readBalanced_closing_zero hoc]
  simp [Enclosed.prepend]

/-- The closing bracket behind a text that opens one and closes none closes the inner bracket, not
the construct. -/
lemma closing_mem_readBalanced (hoc : o ≠ c) {s : List Char} (ho : o ∈ s) (hc : c ∉ s)
    (t : List Char) : c ∈ (readBalanced o c 0 (s ++ c :: t)).inner := by
  have hprefix : ∀ p ∈ s.inits, p.count c ≤ 0 + p.count o := by
    intro p hp
    have : c ∉ p := fun h => hc (((List.mem_inits _ _).1 hp).subset h)
    simp [List.count_eq_zero_of_not_mem this]
  obtain ⟨d, hd⟩ : ∃ d, 0 + s.count o - s.count c = d + 1 := by
    have := List.count_pos_iff.2 ho
    rw [List.count_eq_zero_of_not_mem hc]
    exact ⟨s.count o - 1, by omega⟩
  rw [readBalanced_append hoc hprefix, hd, readBalanced_closing_succ hoc]
  simp [Enclosed.prepend, Enclosed.cons]

end Brackets

/-! ### Databases -/

lemma readDatabase_cons {a : Char} {s : List Char} (h : a = ']' → s.head? ≠ some ']') :
    readDatabase (a :: s) = (readDatabase s).cons a := by
  rw [readDatabase]
  rintro t rfl rfl
  simp at h

/-- A text without `]]`, and without a `]` at its end, ends at the `]]` that follows it. -/
lemma readDatabase_append {s : List Char} (h : ¬ [']', ']'] <:+: s) (hlast : s.getLast? ≠ some ']')
    (t : List Char) : readDatabase (s ++ ']' :: ']' :: t) = ⟨s, t, true⟩ := by
  induction s with
  | nil => simp [readDatabase]
  | cons a s ih =>
    have htail : ¬ [']', ']'] <:+: s := fun hs => h (hs.trans (List.suffix_cons a s).isInfix)
    have hlast' : s.getLast? ≠ some ']' := by
      intro hs
      rw [List.getLast?_cons, hs] at hlast
      simp at hlast
    have hhead : a = ']' → (s ++ ']' :: ']' :: t).head? ≠ some ']' := by
      rintro rfl
      cases s with
      | nil => simp at hlast
      | cons b s =>
        intro hb
        obtain rfl : b = ']' := by simpa using hb
        exact h ⟨[], s, rfl⟩
    rw [List.cons_append, readDatabase_cons hhead, ih htail hlast']
    rfl

/-! ### Quotes -/

lemma readQuoted_escape (a : Char) (s : List Char) :
    readQuoted ('\\' :: a :: s) = (readQuoted s).cons a := by
  rw [readQuoted]

lemma readQuoted_other {a : Char} (hquote : a ≠ '"') (hslash : a ≠ '\\') (s : List Char) :
    readQuoted (a :: s) = (readQuoted s).cons a := by
  rw [readQuoted]
  · exact hquote
  · rintro _ _ rfl
    exact absurd rfl hslash

/-- A written label is read back, whatever follows its closing quote. -/
lemma readQuoted_flatMap (s t : List Char) :
    readQuoted (s.flatMap Written.labelChar ++ '"' :: t) = ⟨s, t, true⟩ := by
  induction s with
  | nil => simp [readQuoted]
  | cons a s ih =>
    rw [List.flatMap_cons, List.append_assoc]
    by_cases ha : a = '\\' ∨ a = '"'
    · rw [Written.labelChar, if_pos ha]
      simp only [List.cons_append, List.nil_append]
      rw [readQuoted_escape, ih]
      rfl
    · rw [Written.labelChar, if_neg ha]
      rw [not_or] at ha
      simp only [List.cons_append, List.nil_append]
      rw [readQuoted_other ha.2 ha.1, ih]
      rfl

end Token
end Flowchart
