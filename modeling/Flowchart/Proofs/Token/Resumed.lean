import Flowchart.Proofs.Token.Cursor

/-!
# Scanning on from a position

A scanner in place can be stopped behind any token and go on from there, for what it finds depends
only on the text behind its position.  `finish_resumable` says what can be relied on: it never reads
behind the end of the text, every step moves it on, and to stop it changes nothing about what it
finds.

It comes to rest at the end of the text or, if the last construct is not closed, behind it, by the
length of the closing mark that it looked for (`confined_step`).

All this is said of a `Run` of single steps, and there is one from each position to the end of the
text (`run_scanFrom`).  The loops follow it (`Run.finish_eq`, `Run.exists_take`).
-/

namespace Flowchart
namespace Token

/-! ### Constructs that are not closed -/

/-- Every quote in a text is escaped: an odd number of backslashes stands directly in front of it,
so that the last of them is not escaped itself. -/
def QuotesEscaped (s : List Char) : Prop :=
  ∀ front later, s = front ++ '"' :: later → Odd (front.rtakeWhile (· = '\\')).length

lemma QuotesEscaped.escape {s : List Char} (h : QuotesEscaped s) (a : Char) :
    QuotesEscaped ('\\' :: a :: s) := by
  rintro front later hs
  rcases front with _ | ⟨b, _ | ⟨b', front⟩⟩
  · simp at hs
  · obtain ⟨rfl, -⟩ : '\\' = b ∧ _ := List.cons.inj hs
    decide
  · simp only [List.cons_append, List.cons.injEq] at hs
    obtain ⟨rfl, rfl, hs⟩ := hs
    have hodd := h front later hs
    rw [rtakeWhile_cons, rtakeWhile_cons]
    split
    · next hall =>
      have hfront : front.rtakeWhile (· = '\\') = front :=
        List.rtakeWhile_eq_self_iff.2 fun x hx =>
          hall x (List.mem_cons_of_mem _ (List.mem_cons_of_mem _ hx))
      rw [hfront] at hodd
      exact hodd.add_even (by decide : Even 2)
    · next hall =>
      rw [if_neg fun hrest => hall (List.forall_mem_cons.2 ⟨by decide, hrest⟩)]
      exact hodd

lemma QuotesEscaped.other {a : Char} {s : List Char} (h : QuotesEscaped s) (hquote : a ≠ '"')
    (hslash : a = '\\' → s = []) : QuotesEscaped (a :: s) := by
  rintro front later hs
  rcases front with _ | ⟨b, front⟩
  · exact absurd (List.cons.inj hs).1 hquote
  · obtain ⟨rfl, htail⟩ := List.cons.inj hs
    have ha : a ≠ '\\' := fun ha => by simp [hslash ha] at htail
    rw [rtakeWhile_cons, if_neg fun hall => ha (by simpa using hall a List.mem_cons_self)]
    exact h front later htail

/-- A label that is not closed takes the whole text. -/
lemma quotesEscaped_of_readQuoted {s : List Char} (h : (readQuoted s).closed = false) :
    (readQuoted s).rest = [] ∧ QuotesEscaped s := by
  fun_induction readQuoted s with
  | case1 => exact ⟨rfl, by simp [QuotesEscaped]⟩
  | case2 s => cases h
  | case3 a s ih => exact ⟨(ih h).1, (ih h).2.escape a⟩
  | case4 a s hquote hescape ih =>
    refine ⟨(ih h).1, (ih h).2.other hquote fun ha => ?_⟩
    cases s with
    | nil => rfl
    | cons b s => exact absurd rfl (hescape b s ha)

/-- A text that is a construct without its closing mark, the token that is read from it, and by how
much the mark that is skipped all the same takes the position past the end of the text. -/
inductive Unclosed : List Char → Token → Nat → Prop
  | label {s : List Char} (inner : String) (h : QuotesEscaped s) :
    Unclosed ('"' :: s) (.label inner) 1
  | database {s : List Char} (h : ¬ [']', ']'] <:+: s) :
    Unclosed ('[' :: '[' :: s) (.node .database (String.ofList (Text.strip s))) 2

/-- A step at the start of a text stays within it, or it is the last one and reads a construct that
is not closed. -/
def Step.Confined (s : List Char) (n : Step) : Prop :=
  n.overrun = 0 ∨ (n.rest = [] ∧ ∃ t, n.token? = some t ∧ Unclosed s t n.overrun)

lemma confined_database (s : List Char) :
    (Step.node .database (readDatabase s) 2).Confined ('[' :: '[' :: s) := by
  rcases readDatabase_cases s with ⟨hclosed, -⟩ | hopen
  · exact .inl (if_pos hclosed)
  · have hmark := notInfix_readDatabase s
    rw [hopen] at hmark ⊢
    exact .inr ⟨rfl, _, rfl, .database hmark⟩

lemma confined_label (s : List Char) : (step '"' s).Confined ('"' :: s) := by
  have hoverrun : (step '"' s).overrun = if (readQuoted s).closed then 0 else 1 := rfl
  by_cases hclosed : (readQuoted s).closed = true
  · exact .inl (hoverrun.trans (if_pos hclosed))
  · obtain ⟨hrest, hescaped⟩ := quotesEscaped_of_readQuoted (Bool.eq_false_of_not_eq_true hclosed)
    refine .inr ⟨hrest, _, rfl, ?_⟩
    rw [hoverrun, if_neg hclosed]
    exact .label _ hescaped

lemma confined_step (a : Char) (s : List Char) : (step a s).Confined (a :: s) := by
  unfold step
  split
  · exact .inl rfl
  · exact .inl rfl
  · exact .inl rfl
  · exact confined_database _
  · exact .inl (ite_self _)
  · exact .inl (ite_self _)
  · exact .inl (ite_self _)
  · exact .inl rfl
  · exact .inl rfl
  · exact confined_label _
  · exact .inl rfl

namespace Cursor

variable {text : Array Char}

/-! ### Positions -/

/-- The text behind the position after a step is what the step leaves. -/
lemma drop_position {pos : Nat} {a : Char} {s : List Char} (h : text.toList.drop pos = a :: s) :
    text.toList.drop ((step a s).position pos s) = (step a s).rest := by
  have hrest : text.toList.drop (pos + 1 + (s.length - (step a s).rest.length))
      = (step a s).rest := by
    rw [← List.drop_drop, drop_succ h]
    exact (List.suffix_iff_eq_drop.1 (rest_step_suffix a s)).symm
  rw [Step.position, ← List.drop_drop, hrest]
  rcases confined_step a s with hwithin | ⟨hnil, -⟩
  · rw [hwithin, List.drop_zero]
  · rw [hnil, List.drop_nil]

lemma lt_position (pos : Nat) (a : Char) (s : List Char) : pos < (step a s).position pos s := by
  simp only [Step.position]
  omega

/-- Induction on the steps from a position to the end of the text. -/
lemma position_induction (text : Array Char) {P : Nat → Prop}
    (outside : ∀ pos, text.toList.drop pos = [] → P pos)
    (inside : ∀ pos a s, text.toList.drop pos = a :: s → P ((step a s).position pos s) → P pos)
    (pos : Nat) : P pos := by
  induction hn : text.size - pos using Nat.strong_induction_on generalizing pos with
  | _ n ih =>
    cases h : text.toList.drop pos with
    | nil => exact outside pos h
    | cons a s =>
      have hpos := lt_size_of_drop h
      have hafter := lt_position pos a s
      exact inside pos a s h (ih _ (by omega) _ rfl)

/-- A step is only made inside the text. -/
lemma exists_of_advance {pos after : Nat} {t? : Option Token}
    (h : advance text pos = .ok (t?, after)) :
    ∃ a s, text.toList.drop pos = a :: s ∧ outcome pos s (step a s) = (t?, after) := by
  cases hdrop : text.toList.drop pos with
  | nil =>
    obtain ⟨c, hc, -⟩ := exists_of_bind_eq_ok h
    have hlt := (Array.getElem?_eq_some_iff.1 (charAt_eq_ok hc)).1
    exact absurd hlt (not_lt_size_of_drop hdrop)
  | cons a s =>
    rw [advance_eq hdrop] at h
    exact ⟨a, s, rfl, Except.ok.inj h⟩

lemma lt_size_of_advance {pos after : Nat} {t? : Option Token}
    (h : advance text pos = .ok (t?, after)) : pos < text.size := by
  obtain ⟨a, s, hdrop, -⟩ := exists_of_advance h
  exact lt_size_of_drop hdrop

/-- Every step succeeds and moves on. -/
lemma exists_advance {pos : Nat} (hpos : pos < text.size) :
    ∃ t? after, advance text pos = .ok (t?, after) ∧ pos < after := by
  have hdrop : text.toList.drop pos = text[pos] :: text.toList.drop (pos + 1) := by
    simpa using List.drop_eq_getElem_cons (l := text.toList) hpos
  have hadvance := advance_eq hdrop
  exact ⟨_, _, hadvance, lt_of_advance hpos hadvance⟩

/-! ### Runs -/

/-- What is noted of a step that leads to a position. -/
def noted (t? : Option Token) (after : Nat) : List (Token × Nat) := t?.toList.map (·, after)

/-- A scanner goes from one position to another step by step, and finds some tokens on the way, each
with the position behind it. -/
inductive Run (text : Array Char) : Nat → List (Token × Nat) → Nat → Prop
  | refl (pos : Nat) : Run text pos [] pos
  | move {pos after final : Nat} {t? : Option Token} {later : List (Token × Nat)}
      (first : advance text pos = .ok (t?, after)) (rest : Run text after later final) :
      Run text pos (noted t? after ++ later) final

lemma scanFrom_of_nil {pos : Nat} (h : text.toList.drop pos = []) :
    scanFrom text.toList pos = ([], pos) := by
  rw [scanFrom, h, scanAt]

lemma scanFrom_of_cons {pos after : Nat} {t? : Option Token} {a : Char} {s : List Char}
    (h : text.toList.drop pos = a :: s) (hstep : outcome pos s (step a s) = (t?, after)) :
    scanFrom text.toList pos
      = (noted t? after ++ (scanFrom text.toList after).1, (scanFrom text.toList after).2) := by
  obtain ⟨rfl, rfl⟩ := Prod.mk.inj hstep
  rw [scanFrom, h, scanAt, scanFrom, drop_position h]
  cases (step a s).token? <;> rfl

/-- A run to the end of the text. -/
lemma run_scanFrom (text : Array Char) (pos : Nat) :
    Run text pos (scanFrom text.toList pos).1 (scanFrom text.toList pos).2 := by
  induction pos using position_induction text with
  | outside pos h =>
    rw [scanFrom_of_nil h]
    exact .refl pos
  | inside pos a s h ih =>
    rw [scanFrom_of_cons h rfl]
    exact .move (advance_eq h) ih

lemma drop_scanFrom (text : Array Char) (pos : Nat) :
    text.toList.drop (scanFrom text.toList pos).2 = [] := by
  induction pos using position_induction text with
  | outside pos h => rw [scanFrom_of_nil h, h]
  | inside pos a s h ih => rw [scanFrom_of_cons h rfl, ih]

namespace Run

variable {pos final : Nat} {found : List (Token × Nat)}

/-- A run to the end finds the tokens of the text it starts from. -/
lemma scan_eq (h : Run text pos found final) (hend : text.toList.drop final = []) :
    scan (text.toList.drop pos) = found.map Prod.fst := by
  induction h with
  | refl pos => rw [hend, scan_nil, List.map_nil]
  | @move pos after final t? later first _ ih =>
    obtain ⟨a, s, hdrop, hstep⟩ := exists_of_advance first
    obtain ⟨rfl, rfl⟩ := Prod.mk.inj hstep
    rw [hdrop, scan_cons, ← drop_position hdrop, ih hend, noted, List.map_append, List.map_map]
    cases (step a s).token? <;> rfl

/-- Each token is found behind the one before. -/
lemma pairwise_lt (h : Run text pos found final) :
    (pos :: found.map Prod.snd).Pairwise (· < ·) := by
  induction h with
  | refl pos => simp
  | @move pos after final t? later first _ ih =>
    obtain ⟨hlater, hafter⟩ := List.pairwise_cons.1 ih
    have hpos := lt_of_advance (lt_size_of_advance first) first
    have hall : ∀ q ∈ after :: later.map Prod.snd, pos < q := by
      rintro q (_ | ⟨_, hq⟩)
      · exact hpos
      · exact hpos.trans (hlater q hq)
    cases t? with
    | none => exact .cons (fun q hq => hall q (List.mem_cons_of_mem _ hq)) hafter
    | some t => exact .cons hall ih

end Run

/-! ### Loops -/

lemma next_of_nil {pos : Nat} (h : text.toList.drop pos = []) :
    next text pos = .ok (none, pos) := by
  rw [next, dif_neg (not_lt_size_of_drop h)]

lemma next_of_none {pos after : Nat} (h : advance text pos = .ok (none, after)) :
    next text pos = next text after := by
  rw [next, dif_pos (lt_size_of_advance h)]
  split
  · next heq =>
    rw [h] at heq
    cases heq
    rfl
  · next hne => exact absurd h (hne after)

lemma next_of_some {pos after : Nat} {t : Token} (h : advance text pos = .ok (some t, after)) :
    next text pos = .ok (some t, after) := by
  rw [next, dif_pos (lt_size_of_advance h)]
  split
  · next heq =>
    rw [h] at heq
    cases heq
  · exact h

lemma finish_of_none {pos after : Nat} (h : next text pos = .ok (none, after)) :
    finish text pos = .ok ([], after) := by
  rw [finish]
  split <;> simp_all

lemma finish_of_some {pos after final : Nat} {t : Token} {later : List (Token × Nat)}
    (h : next text pos = .ok (some t, after)) (hlater : finish text after = .ok (later, final)) :
    finish text pos = .ok ((t, after) :: later, final) := by
  rw [finish]
  split <;> simp_all

lemma finish_congr {pos after : Nat} (h : next text pos = next text after) :
    finish text pos = finish text after := by
  rw [finish.eq_def text pos, finish.eq_def text after]
  split <;> split <;> simp_all

namespace Run

variable {pos final : Nat} {found : List (Token × Nat)}

lemma finish_eq (h : Run text pos found final) (hend : text.toList.drop final = []) :
    finish text pos = .ok (found, final) := by
  induction h with
  | refl pos => exact finish_of_none (next_of_nil hend)
  | @move pos after final t? later first _ ih =>
    cases t? with
    | none => exact (finish_congr (next_of_none first)).trans (ih hend)
    | some t => exact finish_of_some (next_of_some first) (ih hend)

/-- A scanner that stops behind some tokens has the others of its run before it. -/
lemma exists_take (h : Run text pos found final) (hend : text.toList.drop final = []) (k : Nat) :
    ∃ q, take text k pos = .ok (found.take k, q) ∧ Run text q (found.drop k) final := by
  induction h generalizing k with
  | refl pos =>
    refine ⟨pos, ?_, by rw [List.drop_nil]; exact .refl pos⟩
    cases k with
    | zero => rfl
    | succ k => rw [take, next_of_nil hend]; rfl
  | @move pos after final t? later first rest ih =>
    cases k with
    | zero => exact ⟨pos, rfl, .move first rest⟩
    | succ k =>
      cases t? with
      | none =>
        obtain ⟨q, htake, hrun⟩ := ih hend (k + 1)
        refine ⟨q, ?_, hrun⟩
        rw [take, next_of_none first, ← take]
        exact htake
      | some t =>
        obtain ⟨q, htake, hrun⟩ := ih hend k
        refine ⟨q, ?_, hrun⟩
        rw [take, next_of_some first, ok_bind]
        simp only [htake, ok_bind]
        rfl

end Run

/-- A scanner in place finds what a scanner of lists finds that counts positions. -/
theorem finish_eq_scanFrom (text : Array Char) (pos : Nat) :
    finish text pos = .ok (scanFrom text.toList pos) :=
  (run_scanFrom text pos).finish_eq (drop_scanFrom text pos)

/-! ### Where a scanner comes to rest -/

/-- Where a scanner comes to rest after it has found some tokens from a position on: at the end of
the text or, if the last token was read from a construct that is not closed, behind it by the length
of the closing mark. -/
inductive Ending (text : Array Char) (pos : Nat) (found : List (Token × Nat)) : Nat → Prop
  | inside : Ending text pos found text.size
  | past {earlier : List (Token × Nat)} {start k : Nat} {t : Token}
      (run : Run text pos earlier start) (last : found = earlier ++ [(t, text.size + k)])
      (unclosed : Unclosed (text.toList.drop start) t k) : Ending text pos found (text.size + k)

lemma Ending.move {pos after final : Nat} {t? : Option Token} {later : List (Token × Nat)}
    (first : advance text pos = .ok (t?, after)) (h : Ending text after later final) :
    Ending text pos (noted t? after ++ later) final := by
  cases h with
  | inside => exact .inside
  | past run last unclosed =>
    exact .past (.move first run) (by rw [last, List.append_assoc]) unclosed

/-- Nothing is found behind the end of the text. -/
lemma Run.eq_of_size_le {pos final : Nat} {found : List (Token × Nat)}
    (h : Run text pos found final) (hpos : text.size ≤ pos) : found = [] ∧ final = pos := by
  cases h with
  | refl => exact ⟨rfl, rfl⟩
  | move first => exact absurd (lt_size_of_advance first) (Nat.not_lt.2 hpos)

lemma Run.ending {pos final : Nat} {found : List (Token × Nat)} (h : Run text pos found final)
    (hend : text.toList.drop final = []) (hpos : pos ≤ text.size) :
    Ending text pos found final := by
  induction h with
  | refl pos =>
    obtain rfl : pos = text.size := Nat.le_antisymm hpos (Nat.not_lt.1 (not_lt_size_of_drop hend))
    exact .inside
  | @move pos after final t? later first rest ih =>
    obtain ⟨a, s, hdrop, hstep⟩ := exists_of_advance first
    obtain ⟨rfl, rfl⟩ := Prod.mk.inj hstep
    have hsize : text.size = pos + 1 + s.length := by
      have := congrArg List.length hdrop
      simp only [List.length_drop, Array.length_toList, List.length_cons] at this
      omega
    have hle := (rest_step_suffix a s).length_le
    rcases confined_step a s with hwithin | ⟨hnil, t, htoken, hunclosed⟩
    · refine .move first (ih hend ?_)
      simp only [Step.position, hwithin]
      omega
    · -- the step is the last one, and behind the text there is nothing to be found
      have hafter : (step a s).position pos s = text.size + (step a s).overrun := by
        simp only [Step.position, hnil, List.length_nil]
        omega
      obtain ⟨rfl, rfl⟩ := rest.eq_of_size_le (by omega)
      rw [hafter, htoken]
      refine .past (.refl pos) rfl ?_
      rw [hdrop]
      exact hunclosed

/-! ### Scanning on -/

/-- A scanner never reads behind the end of a text, whatever position it starts from, and every step
moves it on.  It finds the tokens of the text behind the position, each behind the one before, and
comes to rest at the end of the text unless the last construct is not closed.  If it stops after any
number of tokens, it is at a position from which exactly the others are found. -/
theorem finish_resumable (text : Array Char) (p : Nat) :
    (∀ q < text.size, ∃ t? after, advance text q = .ok (t?, after) ∧ q < after) ∧
      ∃ found final, finish text p = .ok (found, final) ∧
        found.map Prod.fst = scan (text.toList.drop p) ∧
        (p :: found.map Prod.snd).Pairwise (· < ·) ∧
        (p ≤ text.size → Ending text p found final) ∧
        ∀ k, ∃ q, take text k p = .ok (found.take k, q) ∧
          finish text q = .ok (found.drop k, final) ∧
          scan (text.toList.drop q) = (found.drop k).map Prod.fst := by
  have hrun := run_scanFrom text p
  have hend := drop_scanFrom text p
  refine ⟨fun q hq => exists_advance hq, _, _, finish_eq_scanFrom text p, (hrun.scan_eq hend).symm,
    hrun.pairwise_lt, hrun.ending hend, fun k => ?_⟩
  obtain ⟨q, htake, hrest⟩ := hrun.exists_take hend k
  exact ⟨q, htake, hrest.finish_eq hend, hrest.scan_eq hend⟩

example : finish "[a] \"b".toList.toArray 0
    = .ok ([(.node .rectangle "a", 3), (.label "b", 7)], 7) := by decide +kernel

end Cursor
end Token
end Flowchart
