import Flowchart.Proofs.Token.Continued
import Flowchart.Proofs.Token.Fitting
import Flowchart.Token.Cursor

/-!
# Reading in place

What a scanner in place reads at a position depends only on the text behind the position, and is
what the readers of lists make of that text: `closingBracket_eq`, `quoted_eq` and the like say so
for each construct, and `advance_eq` for a step.  None of the readers fails, for each compares its
position with the length of the text before it reads a character.

The lemmas name the text behind a position by `text.toList.drop pos = s`, and `drop_succ` takes them
to the next character.

For brackets `balanced_exact` says what is read without mentioning how: the one balanced text in
front of a closing bracket, and the whole text if there is none.
-/

namespace Flowchart
namespace Token

/-- A database ends at a `]]`, or there is none and it takes the whole text. -/
lemma readDatabase_cases (s : List Char) :
    ((readDatabase s).closed = true ∧
        s = (readDatabase s).inner ++ ']' :: ']' :: (readDatabase s).rest) ∨
      readDatabase s = ⟨s, [], false⟩ := by
  fun_induction readDatabase s with
  | case1 => exact .inr rfl
  | case2 s => exact .inl ⟨rfl, rfl⟩
  | case3 a s _ ih =>
    rcases ih with ⟨hclosed, hs⟩ | hopen
    · exact .inl ⟨hclosed, congrArg (a :: ·) hs⟩
    · exact .inr (by rw [hopen]; rfl)

namespace Cursor

variable {text : Array Char}

@[simp] lemma ok_bind {α β : Type} (a : α) (f : α → Except Outside β) :
    (.ok a >>= f) = f a := rfl

@[simp] lemma pure_eq_ok {α : Type} (a : α) : (pure a : Except Outside α) = .ok a := rfl

/-! ### Characters and words -/

lemma not_lt_size_of_drop {pos : Nat} (h : text.toList.drop pos = []) : ¬ pos < text.size := by
  simpa using h

lemma lt_size_of_drop {pos : Nat} {a : Char} {s : List Char} (h : text.toList.drop pos = a :: s) :
    pos < text.size := by
  by_contra hle
  have hnil : text.toList.drop pos = [] := List.drop_eq_nil_of_le (by simpa using hle)
  rw [h] at hnil
  cases hnil

lemma drop_add_of_append {pos : Nat} {s t : List Char} (h : text.toList.drop pos = s ++ t) :
    text.toList.drop (pos + s.length) = t := by
  rw [← List.drop_drop, h, List.drop_left]

lemma drop_succ {pos : Nat} {a : Char} {s : List Char} (h : text.toList.drop pos = a :: s) :
    text.toList.drop (pos + 1) = s :=
  drop_add_of_append (s := [a]) h

lemma charAt_eq {pos : Nat} {a : Char} {s : List Char} (h : text.toList.drop pos = a :: s) :
    charAt text pos = .ok a := by
  have ha : text[pos]? = some a := by
    rw [← Array.getElem?_toList, ← List.head?_drop, h]
    rfl
  rw [charAt, ha]

lemma slice_eq {start stop : Nat} {s t : List Char} (h : text.toList.drop start = s ++ t)
    (hstop : stop = start + s.length) : slice text start stop = s := by
  subst hstop
  rw [slice, Array.toList_extract, List.extract_eq_take_drop, h, Nat.add_sub_cancel_left,
    List.take_left]

lemma startsWith_iff {word s : List Char} {pos : Nat} (h : text.toList.drop pos = s) :
    startsWith text word pos = true ↔ word <+: s := by
  rw [startsWith, slice, Array.toList_extract, List.extract_eq_take_drop, h,
    Nat.add_sub_cancel_left, decide_eq_true_iff, List.prefix_iff_eq_take, eq_comm]

/-- A word that is not found is said to stand at the end of the text. -/
lemma find_of_nil {word : List Char} {pos : Nat} (hpos : pos ≤ text.size)
    (h : text.toList.drop pos = []) : find text word pos = pos := by
  have hsize := not_lt_size_of_drop h
  rw [find, if_neg hsize]
  exact Nat.le_antisymm (Nat.not_lt.1 hsize) hpos

lemma find_of_startsWith {word : List Char} {pos : Nat} {a : Char} {s : List Char}
    (h : text.toList.drop pos = a :: s) (hword : word <+: a :: s) : find text word pos = pos := by
  rw [find, if_pos (lt_size_of_drop h), if_pos ((startsWith_iff h).2 hword)]

lemma find_of_not_startsWith {word : List Char} {pos : Nat} {a : Char} {s : List Char}
    (h : text.toList.drop pos = a :: s) (hword : ¬ word <+: a :: s) :
    find text word pos = find text word (pos + 1) := by
  rw [find, if_pos (lt_size_of_drop h), if_neg (mt (startsWith_iff h).1 hword)]

lemma find_newline {pos : Nat} {s : List Char} (h : text.toList.drop pos = s)
    (hpos : pos ≤ text.size) :
    find text ['\n'] pos = pos + (s.takeWhile (· ≠ '\n')).length := by
  induction s generalizing pos with
  | nil => exact find_of_nil hpos h
  | cons a s ih =>
    by_cases ha : a = '\n'
    · subst ha
      exact find_of_startsWith h (by simp)
    · rw [find_of_not_startsWith h (by simpa using Ne.symm ha),
        ih (drop_succ h) (lt_size_of_drop h), List.takeWhile_cons_of_pos (by simpa using ha),
        List.length_cons]
      omega

lemma find_brackets {pos : Nat} {s : List Char} (h : text.toList.drop pos = s)
    (hpos : pos ≤ text.size) :
    find text [']', ']'] pos = pos + (readDatabase s).inner.length := by
  fun_induction readDatabase s generalizing pos with
  | case1 => exact find_of_nil hpos h
  | case2 s => exact find_of_startsWith h ⟨s, rfl⟩
  | case3 a s hclose ih =>
    have hword : ¬ [']', ']'] <+: a :: s := by
      rintro ⟨t, ht⟩
      obtain ⟨rfl, rfl⟩ := List.cons.inj ht
      exact hclose t rfl rfl
    rw [find_of_not_startsWith h hword, ih (drop_succ h) (lt_size_of_drop h)]
    simp only [Enclosed.cons, List.length_cons]
    omega

/-! ### Constructs -/

lemma skipWhile_eq {p : Char → Bool} {pos : Nat} {s : List Char} (h : text.toList.drop pos = s) :
    skipWhile text p pos = .ok (pos + (s.takeWhile p).length) := by
  induction s generalizing pos with
  | nil =>
    rw [skipWhile, if_neg (not_lt_size_of_drop h)]
    rfl
  | cons a s ih =>
    rw [skipWhile, if_pos (lt_size_of_drop h), charAt_eq h, ok_bind]
    by_cases ha : p a
    · rw [if_pos ha, ih (drop_succ h), List.takeWhile_cons_of_pos ha, List.length_cons,
        Nat.add_assoc, Nat.add_comm 1]
    · rw [if_neg ha, List.takeWhile_cons_of_neg ha]
      rfl

/-- The position behind a construct that was read from `pos` on. -/
def behind (pos : Nat) (s : List Char) (e : Enclosed) : Nat :=
  pos + (s.length - e.rest.length)

lemma behind_cons {e : Enclosed} {s : List Char} (h : e.rest.length ≤ s.length) (a : Char)
    (pos : Nat) : behind pos (a :: s) (e.cons a) = behind (pos + 1) s e := by
  simp only [behind, Enclosed.cons, List.length_cons]
  omega

lemma closingBracket_eq {o c : Char} {depth pos : Nat} {s : List Char}
    (h : text.toList.drop pos = s) :
    closingBracket text o c depth pos
      = .ok (pos + (readBalanced o c depth s).inner.length,
          behind pos s (readBalanced o c depth s)) := by
  induction s generalizing depth pos with
  | nil =>
    rw [closingBracket.eq_def, if_neg (not_lt_size_of_drop h)]
    rfl
  | cons a s ih =>
    -- the character belongs to the construct, whatever it does to the depth
    have htake (depth' : Nat) :
        closingBracket text o c depth' (pos + 1)
          = .ok (pos + ((readBalanced o c depth' s).cons a).inner.length,
              behind pos (a :: s) ((readBalanced o c depth' s).cons a)) := by
      rw [ih (drop_succ h), behind_cons (rest_readBalanced_suffix o c depth' s).length_le]
      simp only [Enclosed.cons, List.length_cons, Nat.add_assoc, Nat.add_comm 1]
    rw [closingBracket.eq_def, if_pos (lt_size_of_drop h), charAt_eq h, ok_bind,
      readBalanced.eq_def]
    by_cases ho : a = o
    · simp only [if_pos ho]
      exact htake (depth + 1)
    by_cases hc : a = c
    · simp only [if_neg ho, if_pos hc]
      cases depth with
      | zero =>
        have hone : s.length + 1 - s.length = 1 := Nat.add_sub_cancel_left ..
        simp only [behind, List.length_cons, hone]
        rfl
      | succ depth => exact htake depth
    · simp only [if_neg ho, if_neg hc]
      exact htake depth

lemma balanced_eq {o c : Char} (hoc : o ≠ c) {pos : Nat} {s : List Char}
    (h : text.toList.drop pos = s) :
    balanced text o c pos
      = .ok ((readBalanced o c 0 s).inner, behind pos s (readBalanced o c 0 s)) := by
  have hsplit : ∃ t, s = (readBalanced o c 0 s).inner ++ t := by
    have hbalances := balances_readBalanced hoc 0 s
    generalize readBalanced o c 0 s = e at hbalances
    cases hbalances with
    | closed inner rest split => exact ⟨_, split⟩
    | unclosed => exact ⟨[], (List.append_nil s).symm⟩
  obtain ⟨t, ht⟩ := hsplit
  simp only [balanced, closingBracket_eq h, ok_bind, slice_eq (h.trans ht) rfl]
  rfl

/-- A text starts with a balanced one and the bracket that closes it. -/
structure BalancedFront (opening closing : Char) (s front : List Char) : Prop where
  balanced : Balanced opening closing front
  front : front ++ [closing] <+: s

instance (o c : Char) (s l : List Char) : Decidable (BalancedFront o c s l) :=
  decidable_of_iff (Balanced o c l ∧ l ++ [c] <+: s) ⟨fun h => ⟨h.1, h.2⟩, fun h => ⟨h.1, h.2⟩⟩

lemma balanced_of_front {o c : Char} (hoc : o ≠ c) {pos : Nat} {l : List Char}
    (h : BalancedFront o c (text.toList.drop pos) l) :
    balanced text o c pos = .ok (l, pos + l.length + 1) := by
  obtain ⟨t, ht⟩ := h.front
  rw [List.append_assoc, List.singleton_append] at ht
  have hbehind : behind pos (l ++ c :: t) ⟨l, t, true⟩ = pos + l.length + 1 := by
    simp only [behind, List.length_append, List.length_cons]
    omega
  rw [balanced_eq hoc ht.symm, readBalanced_of_balanced hoc h.balanced, hbehind]

/-- What stands between brackets is the one balanced text in front of its closing bracket.  If there
is none, it is the rest of the text, which then never closes more brackets than it opens. -/
theorem balanced_exact (text : Array Char) (pos : Nat) (hpos : pos ≤ text.size) {o c : Char}
    (hoc : o ≠ c) :
    (∀ l, BalancedFront o c (text.toList.drop pos) l →
      balanced text o c pos = .ok (l, pos + l.length + 1) ∧
        ∀ l', BalancedFront o c (text.toList.drop pos) l' → l' = l) ∧
    ((∀ l, ¬ BalancedFront o c (text.toList.drop pos) l) →
      balanced text o c pos = .ok (text.toList.drop pos, text.size) ∧
        ∀ p, p <+: text.toList.drop pos → p.count c ≤ p.count o) := by
  constructor
  · intro l hl
    have hread := balanced_of_front hoc hl
    refine ⟨hread, fun l' hl' => ?_⟩
    -- there is only one result
    rw [balanced_of_front hoc hl'] at hread
    exact congrArg Prod.fst (Except.ok.inj hread)
  · intro hnone
    have hread := balanced_eq hoc (rfl : text.toList.drop pos = _)
    have hbalances := balances_readBalanced hoc 0 (text.toList.drop pos)
    generalize readBalanced o c 0 (text.toList.drop pos) = e at hread hbalances
    cases hbalances with
    | closed inner rest split count_le count_eq =>
      simp only [Nat.zero_add] at count_le count_eq
      refine absurd ⟨⟨count_le, count_eq.symm⟩, rest, ?_⟩ (hnone inner)
      rw [split, List.append_assoc, List.singleton_append]
    | unclosed count_le =>
      simp only [Nat.zero_add] at count_le
      have hbehind : behind pos (text.toList.drop pos) ⟨text.toList.drop pos, [], false⟩
          = text.size := by
        simp only [behind, List.length_drop, Array.length_toList, List.length_nil]
        omega
      rw [hbehind] at hread
      exact ⟨hread, fun p hp => count_le p ((List.mem_inits _ _).2 hp)⟩

theorem balanced_exact_nested :
    balanced "[a[b]c] d".toList.toArray '[' ']' 1 = .ok ("a[b]c".toList, 7) ∧
      balanced "[a[b]c".toList.toArray '[' ']' 1 = .ok ("a[b]c".toList, 6) := by
  have hbrackets : '[' ≠ ']' := by decide
  constructor
  · have hexact := balanced_exact "[a[b]c] d".toList.toArray 1 (by decide) hbrackets
    exact (hexact.1 "a[b]c".toList (by decide)).1
  · have hexact := balanced_exact "[a[b]c".toList.toArray 1 (by decide) hbrackets
    have hnone : ∀ l ∈ "a[b]c".toList.inits, ¬ BalancedFront '[' ']' "a[b]c".toList l := by decide
    refine (hexact.2 fun l hl => hnone l ?_ hl).1
    exact (List.mem_inits _ _).2 ((List.prefix_append _ _).trans hl.front)

lemma quoted_eq {pos : Nat} {s : List Char} (h : text.toList.drop pos = s) :
    quoted text pos
      = .ok ((readQuoted s).inner,
          behind pos s (readQuoted s) + if (readQuoted s).closed then 0 else 1) := by
  fun_induction readQuoted s generalizing pos with
  | case1 =>
    rw [quoted, if_neg (not_lt_size_of_drop h)]
    rfl
  | case2 s =>
    rw [quoted, if_pos (lt_size_of_drop h), charAt_eq h]
    simp [behind]
  | case3 a s ih =>
    have hnext := drop_succ h
    have hbehind : behind pos ('\\' :: a :: s) ((readQuoted s).cons a)
        = behind (pos + 2) s (readQuoted s) := by
      have hle := (rest_readQuoted_suffix s).length_le
      simp only [behind, Enclosed.cons, List.length_cons]
      omega
    rw [quoted, if_pos (lt_size_of_drop h), charAt_eq h, ok_bind, if_neg (by decide),
      if_pos ⟨rfl, lt_size_of_drop hnext⟩, charAt_eq hnext, ok_bind, ih (drop_succ hnext), hbehind]
    rfl
  | case4 a s hquote hescape ih =>
    have hlast : ¬ (a = '\\' ∧ pos + 1 < text.size) := by
      rintro ⟨rfl, hlt⟩
      cases s with
      | nil => exact absurd hlt (not_lt_size_of_drop (drop_succ h))
      | cons b s => exact hescape b s rfl rfl
    rw [quoted, if_pos (lt_size_of_drop h), charAt_eq h, ok_bind, if_neg hquote, if_neg hlast,
      ih (drop_succ h), behind_cons (rest_readQuoted_suffix s).length_le]
    rfl

/-! ### Steps -/

/-- A step of scanning, as the token and the position behind it. -/
def outcome (pos : Nat) (s : List Char) (n : Step) : Option Token × Nat :=
  (n.token?, n.position pos s)

lemma outcome_skip (pos : Nat) (s : List Char) : outcome pos s (.skip s) = (none, pos + 1) := by
  simp [outcome, Step.skip, Step.position]

lemma directive_eq {pos : Nat} {s : List Char} (h : text.toList.drop pos = '@' :: s) :
    directive text pos = .ok (outcome pos s (step '@' s)) := by
  have hname : text.toList.drop (pos + 1)
      = s.takeWhile isNameChar ++ s.dropWhile isNameChar := by
    rw [drop_succ h, List.takeWhile_append_dropWhile]
  have hvalue : text.toList.drop (pos + 1 + (s.takeWhile isNameChar).length)
      = (s.dropWhile isNameChar).takeWhile isValueChar
        ++ (s.dropWhile isNameChar).dropWhile isValueChar := by
    rw [drop_add_of_append hname, List.takeWhile_append_dropWhile]
  have hposition : pos + 1 + (s.takeWhile isNameChar).length
        + ((s.dropWhile isNameChar).takeWhile isValueChar).length
      = (step '@' s).position pos s := by
    have hlength : s.length = (s.takeWhile isNameChar).length
        + (((s.dropWhile isNameChar).takeWhile isValueChar).length
          + ((s.dropWhile isNameChar).dropWhile isValueChar).length) := by
      rw [← List.length_append, List.takeWhile_append_dropWhile, ← List.length_append,
        List.takeWhile_append_dropWhile]
    simp only [Step.position, step, readDirective]
    omega
  simp only [directive, skipWhile_eq (drop_succ h), skipWhile_eq (drop_add_of_append hname),
    ok_bind, slice_eq hname rfl, slice_eq hvalue hposition.symm, hposition]
  rfl

lemma database_eq {pos : Nat} {s : List Char} (h : text.toList.drop pos = '[' :: '[' :: s) :
    database text pos = outcome pos ('[' :: s) (step '[' ('[' :: s)) := by
  have hnext : text.toList.drop (pos + 2) = s := drop_succ (drop_succ h)
  have hstop := find_brackets hnext (lt_size_of_drop (drop_succ h))
  have hstep : step '[' ('[' :: s) = .node .database (readDatabase s) 2 := rfl
  obtain ⟨t, ht⟩ := inner_readDatabase_prefix s
  have hposition : pos + 2 + (readDatabase s).inner.length + 2
      = (Step.node .database (readDatabase s) 2).position pos ('[' :: s) := by
    have hlength : (readDatabase s).inner.length + 2
        = s.length - (readDatabase s).rest.length + if (readDatabase s).closed then 0 else 2 := by
      rcases readDatabase_cases s with ⟨hclosed, hs⟩ | hopen
      · have := congrArg List.length hs
        simp only [List.length_append, List.length_cons] at this
        rw [hclosed, if_pos rfl]
        omega
      · rw [hopen]
        rfl
    have hle := (rest_readDatabase_suffix s).length_le
    simp only [Step.position, Step.node, List.length_cons]
    omega
  simp only [database, hstop, slice_eq (hnext.trans ht.symm) rfl, hposition, hstep]
  rfl

lemma bracketed_eq {shape : Shape} {o c : Char} (hoc : o ≠ c) {pos : Nat} {s : List Char} {a : Char}
    (h : text.toList.drop pos = a :: s) :
    bracketed text shape o c pos
      = .ok (outcome pos s (.node shape (readBalanced o c 0 s) 0)) := by
  have hposition : behind (pos + 1) s (readBalanced o c 0 s)
      = (Step.node shape (readBalanced o c 0 s) 0).position pos s := by
    simp [behind, Step.node, Step.position]
  simp only [bracketed, balanced_eq hoc (drop_succ h), ok_bind, hposition]
  rfl

lemma label_eq {pos : Nat} {s : List Char} (h : text.toList.drop pos = '"' :: s) :
    label text pos = .ok (outcome pos s (step '"' s)) := by
  simp only [label, quoted_eq (drop_succ h), ok_bind]
  rfl

lemma comment_eq {pos : Nat} {s : List Char} (h : text.toList.drop pos = '#' :: s) :
    (none, find text ['\n'] pos) = outcome pos s (step '#' s) := by
  have hstep : step '#' s = .skip (s.dropWhile (· ≠ '\n')) := rfl
  have hlength : s.length
      = (s.takeWhile (· ≠ '\n')).length + (s.dropWhile (· ≠ '\n')).length := by
    rw [← List.length_append, List.takeWhile_append_dropWhile]
  rw [find_newline h (Nat.le_of_lt (lt_size_of_drop h)), List.takeWhile_cons_of_pos (by decide),
    hstep]
  simp only [outcome, Step.skip, Step.position, List.length_cons, Prod.mk.injEq, true_and]
  omega

/-- A bracket opens a construct of its shape, unless a second one makes it a database. -/
lemma advance_bracket {shape : Shape} {o c : Char} (hshape : shapeOf? o = some (shape, c))
    {pos : Nat} {s : List Char} (h : text.toList.drop pos = o :: s)
    (hdatabase : ¬ ['[', '['] <+: o :: s) : advance text pos = .ok (outcome pos s (step o s)) := by
  obtain ⟨hbrackets, hother⟩ : shape.brackets? = some (o, c) ∧ o ∉ [' ', '\t', '\n', '#', '@'] := by
    unfold shapeOf? at hshape
    split at hshape <;> cases hshape <;> exact ⟨rfl, by decide⟩
  have hhead : shape = .rectangle → s.head? ≠ some '[' := by
    rintro rfl hhead
    obtain rfl : '[' = o := by cases hbrackets; rfl
    obtain ⟨t, rfl⟩ := List.head?_eq_some_iff.1 hhead
    exact hdatabase ⟨t, rfl⟩
  have hadvance : advance text pos = bracketed text shape o c pos := by
    simp only [List.mem_cons, List.not_mem_nil, or_false, not_or] at hother
    simp [advance, charAt_eq h, hother, startsWith_iff h, hdatabase, hshape]
  rw [hadvance, step_of_brackets hbrackets hhead]
  exact bracketed_eq (Shape.brackets_ne hbrackets).1 h

lemma advance_dash {pos : Nat} {s : List Char} (h : text.toList.drop pos = '-' :: s) :
    advance text pos = .ok (outcome pos s (step '-' s)) := by
  by_cases hdashed : ∃ t, s = '-' :: '>' :: t
  · obtain ⟨t, rfl⟩ := hdashed
    simp [advance, charAt_eq h, startsWith_iff h, shapeOf?, found, outcome, step, Step.position,
      Nat.add_assoc]
  by_cases hsolid : ∃ t, s = '>' :: t
  · obtain ⟨t, rfl⟩ := hsolid
    simp [advance, charAt_eq h, startsWith_iff h, shapeOf?, found, outcome, step, Step.position]
  rw [not_exists] at hdashed hsolid
  rw [step_dash hsolid hdashed, outcome_skip]
  have hword (word : List Char) (hword : ∀ t, s ≠ word ++ t) : ¬ '-' :: word <+: '-' :: s := by
    rintro ⟨t, ht⟩
    exact hword t (List.cons.inj ht).2.symm
  simp [advance, charAt_eq h, startsWith_iff h, shapeOf?, hword ['-', '>'] hdashed,
    hword ['>'] hsolid]

/-- A scanner in place makes the step that the text behind its position asks for. -/
lemma advance_eq {pos : Nat} {a : Char} {s : List Char} (h : text.toList.drop pos = a :: s) :
    advance text pos = .ok (outcome pos s (step a s)) := by
  by_cases ha : a ∈ ['\n', '#', '@', '[', '{', '(', '-', '"']
  · simp only [List.mem_cons, List.not_mem_nil, or_false] at ha
    rcases ha with rfl | rfl | rfl | rfl | rfl | rfl | rfl | rfl
    · simp [advance, charAt_eq h, found, outcome, step, Step.position]
    · simp [advance, charAt_eq h, comment_eq h]
    · simpa [advance, charAt_eq h] using directive_eq h
    · by_cases hdatabase : ['[', '['] <+: '[' :: s
      · obtain ⟨t, ht⟩ := hdatabase
        obtain rfl : '[' :: t = s := (List.cons.inj ht).2
        simp [advance, charAt_eq h, startsWith_iff h, database_eq h]
      · exact advance_bracket rfl h hdatabase
    · exact advance_bracket rfl h (by simp)
    · exact advance_bracket rfl h (by simp)
    · exact advance_dash h
    · simpa [advance, charAt_eq h, startsWith_iff h, shapeOf?] using label_eq h
  · rw [step_of_notMem ha, outcome_skip]
    simp only [List.mem_cons, List.not_mem_nil, or_false, not_or] at ha
    have hshape : shapeOf? a = none := by
      rw [shapeOf?] <;> tauto
    simp [advance, charAt_eq h, startsWith_iff h, @eq_comm Char _ a, ha, hshape]

end Cursor
end Token
end Flowchart
