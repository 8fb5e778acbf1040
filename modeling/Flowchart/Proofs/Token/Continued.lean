import Flowchart.Proofs.Token.Reading

/-!
# Texts that go on

What a step of scanning reads in a text can only change by more text behind it if the step comes to
the end of the text.  There are three cases (`ends`):

* the step is settled, and what follows is left for later steps;
* it lasts until the end of the line, as a comment or a directive does, or it finds nothing because
  a dash stands last;
* it reads a construct that is not closed, and a line end behind it becomes part of the construct.

In the last two cases the step finds the last token of the text.  So all tokens but the last stay
when a text goes on (`dropLast_scan_prefix`), and a text in which the last construct is closed can
be scanned up to a line end or a comment (`scan_append_of_closed`).
-/

namespace Flowchart
namespace Token

/-! ### Constructs -/

/-- A construct with more text behind it. -/
def Enclosed.extend (e : Enclosed) (u : List Char) : Enclosed := { e with rest := e.rest ++ u }

/-- A reader closes its construct inside a text, or takes the whole text and a line end after it. -/
def Settles (read : List Char → Enclosed) (s : List Char) : Prop :=
  (∀ u, read (s ++ u) = (read s).extend u) ∨ ((read s).rest = [] ∧ (read (s ++ ['\n'])).rest = [])

/-- A reader that takes one character and goes on. -/
lemma Settles.cons {read read' : List Char → Enclosed} {b : Char} {s s' : List Char}
    (h : Settles read' s) (hread : ∀ u, read (s' ++ u) = (read' (s ++ u)).cons b) :
    Settles read s' := by
  have hnil : read s' = (read' s).cons b := by simpa using hread []
  rcases h with h | ⟨h₁, h₂⟩
  · refine .inl fun u => ?_
    rw [hread, hnil, h]
    rfl
  · refine .inr ⟨?_, ?_⟩
    · rw [hnil]
      exact h₁
    · rw [hread]
      exact h₂

lemma settles_readBalanced {o c : Char} (hc : c ≠ '\n') (d : Nat) (s : List Char) :
    Settles (readBalanced o c d) s := by
  induction s generalizing d with
  | nil =>
    have hline : readBalanced o c d ['\n'] = ⟨['\n'], [], false⟩ := by
      by_cases ho : '\n' = o
      · rw [ho, readBalanced_opening]
        rfl
      · rw [readBalanced_other ho hc.symm]
        rfl
    exact .inr ⟨rfl, by rw [List.nil_append, hline]⟩
  | cons a s ih =>
    by_cases ho : a = o
    · subst ho
      exact (ih (d + 1)).cons fun u => readBalanced_opening d (s ++ u)
    · by_cases hca : a = c
      · subst hca
        cases d with
        | zero =>
          refine .inl fun u => ?_
          rw [List.cons_append, readBalanced_closing_zero (Ne.symm ho),
            readBalanced_closing_zero (Ne.symm ho)]
          rfl
        | succ d => exact (ih d).cons fun u => readBalanced_closing_succ (Ne.symm ho) d (s ++ u)
      · exact (ih d).cons fun u => readBalanced_other ho hca d (s ++ u)

lemma settles_readDatabase (s : List Char) : Settles readDatabase s := by
  fun_induction readDatabase s with
  | case1 => exact .inr ⟨rfl, rfl⟩
  | case2 s => exact .inl fun u => rfl
  | case3 a s hclose ih =>
    cases s with
    | nil =>
      -- a bracket that stands last closes nothing, even if a line end follows
      exact .inr ⟨by rw [readDatabase_cons (by simp)]; rfl,
        by rw [List.singleton_append, readDatabase_cons (by simp)]; rfl⟩
    | cons b s =>
      refine ih.cons fun u => readDatabase_cons ?_
      rintro rfl hb
      exact hclose s rfl (by simpa using hb)

lemma settles_readQuoted (s : List Char) : Settles readQuoted s := by
  fun_induction readQuoted s with
  | case1 => exact .inr ⟨rfl, rfl⟩
  | case2 s => exact .inl fun u => rfl
  | case3 a s ih => exact ih.cons fun u => readQuoted_escape a (s ++ u)
  | case4 a s hquote hescape ih =>
    by_cases ha : a = '\\'
    · -- a backslash that stands last is taken as it is, and otherwise takes the line end with it
      subst ha
      cases s with
      | nil => exact .inr ⟨rfl, rfl⟩
      | cons b s => exact absurd rfl (hescape b s rfl)
    · exact ih.cons fun u => readQuoted_other hquote ha (s ++ u)

/-! ### Ends of lines -/

/-- A text that starts with a line end or a comment. -/
def EndsLine (u : List Char) : Prop := u.head? = some '\n' ∨ u.head? = some '#'

lemma EndsLine.not_of_head {u : List Char} (h : EndsLine u) {p : Char → Bool}
    (hline : p '\n' = false) (hcomment : p '#' = false) : ∀ a ∈ u.head?, p a = false := by
  rcases h with h | h <;> simp [h, hline, hcomment]

lemma readDirective_append {s u : List Char} (h : (readDirective s).2 ≠ [] ∨ EndsLine u) :
    readDirective (s ++ u) = ((readDirective s).1, (readDirective s).2 ++ u) := by
  have hvalue : (s.dropWhile isNameChar).dropWhile isValueChar ≠ [] ∨
      ∀ a ∈ u.head?, isValueChar a = false :=
    h.imp_right fun hu => hu.not_of_head (by decide) (by decide)
  have hname : s.dropWhile isNameChar ≠ [] ∨ ∀ a ∈ u.head?, isNameChar a = false := by
    refine h.imp ?_ fun hu => hu.not_of_head (by decide) (by decide)
    intro hne hnil
    simp [readDirective, hnil] at hne
  obtain ⟨hn₁, hn₂⟩ := span_append hname
  obtain ⟨hv₁, hv₂⟩ := span_append hvalue
  simp only [readDirective, hn₁, hn₂, hv₁, hv₂]

/-- A comment is skipped up to the next line end. -/
lemma EndsLine.scan_dropWhile {u : List Char} (h : EndsLine u) :
    scan (u.dropWhile (· ≠ '\n')) = scan u := by
  cases u with
  | nil => simp [EndsLine] at h
  | cons a u =>
    rcases h with h | h
    · obtain rfl : a = '\n' := by simpa using h
      rfl
    · obtain rfl : a = '#' := by simpa using h
      rw [scan_cons]
      rfl

/-! ### Steps -/

/-- A step with more text behind it. -/
def Step.extend (n : Step) (u : List Char) : Step := { n with rest := n.rest ++ u }

/-- What happens to a step when the text goes on. -/
inductive Ends (c : Char) (s : List Char) : Prop where
  /-- What follows is left for later steps. -/
  | settled (h : ∀ u, step c (s ++ u) = (step c s).extend u)
  /-- The step is the last one and leaves line ends and comments for later. -/
  | line (hone : (scan (c :: s)).length ≤ 1)
      (h : ∀ u, EndsLine u → scan (c :: (s ++ u)) = scan (c :: s) ++ scan u)
  /-- The step is the last one and takes a line end with it. -/
  | unclosed (h : (scan (c :: s)).length = 1) (hnewline : (scan (c :: (s ++ ['\n']))).length = 1)

lemma ends_comment (s : List Char) : Ends '#' s := by
  have hstep : ∀ s, step '#' s = .skip (s.dropWhile (· ≠ '\n')) := fun _ => rfl
  by_cases hnil : s.dropWhile (· ≠ '\n') = []
  · have hscan : scan ('#' :: s) = [] := by
      rw [scan_cons, hstep, hnil]
      exact scan_nil
    refine .line (by simp [hscan]) fun u hu => ?_
    have hdrop : (s ++ u).dropWhile (· ≠ '\n') = u.dropWhile (· ≠ '\n') := by
      rw [List.dropWhile_append, hnil]
      rfl
    rw [scan_cons, hstep, hdrop, hscan]
    exact hu.scan_dropWhile
  · refine .settled fun u => ?_
    rw [hstep, hstep, (span_append (.inl hnil)).2]
    rfl

lemma ends_directive (s : List Char) : Ends '@' s := by
  have hstep : ∀ s, step '@' s
      = ⟨some (.directive (String.ofList (readDirective s).1)), (readDirective s).2, 0⟩ :=
    fun _ => rfl
  by_cases hnil : (readDirective s).2 = []
  · have hscan : scan ('@' :: s) = [.directive (String.ofList (readDirective s).1)] := by
      rw [scan_cons, hstep, hnil, scan_nil]
      rfl
    refine .line (by simp [hscan]) fun u hu => ?_
    rw [scan_cons, hstep, readDirective_append (.inr hu), hnil, hscan]
    rfl
  · refine .settled fun u => ?_
    rw [hstep, hstep, readDirective_append (.inl hnil)]
    rfl

/-- A token that takes the rest of a text is its only one. -/
lemma length_scan_eq_one {c : Char} {s : List Char} (htoken : (step c s).token?.isSome)
    (hrest : (step c s).rest = []) : (scan (c :: s)).length = 1 := by
  obtain ⟨t, ht⟩ := Option.isSome_iff_exists.1 htoken
  rw [scan_cons, ht, hrest, scan_nil]
  rfl

/-- A step that reads a construct. -/
lemma ends_construct {c : Char} {s r : List Char} {read : List Char → Enclosed}
    (hread : Settles read r) {f : Enclosed → Step} (hf : ∀ e u, f (e.extend u) = (f e).extend u)
    (htoken : ∀ e, (f e).token?.isSome) (hrest : ∀ e, (f e).rest = e.rest)
    (hstep : ∀ u, step c (s ++ u) = f (read (r ++ u))) : Ends c s := by
  have hnil : step c s = f (read r) := by simpa using hstep []
  rcases hread with h | ⟨h₁, h₂⟩
  · refine .settled fun u => ?_
    rw [hstep, hnil, h, hf]
  · refine .unclosed (length_scan_eq_one ?_ ?_) (length_scan_eq_one ?_ ?_)
    · rw [hnil]
      exact htoken _
    · rw [hnil, hrest, h₁]
    · rw [hstep]
      exact htoken _
    · rw [hstep, hrest, h₂]

lemma ends_node {c : Char} {s r : List Char} {read : List Char → Enclosed} (hread : Settles read r)
    {shape : Shape} {k : Nat} (hstep : ∀ u, step c (s ++ u) = .node shape (read (r ++ u)) k) :
    Ends c s :=
  ends_construct hread (f := (Step.node shape · k)) (fun _ _ => rfl) (fun _ => rfl) (fun _ => rfl)
    hstep

lemma ends_brackets {shape : Shape} {o c : Char} (h : shape.brackets? = some (o, c))
    {s : List Char} (hs : shape = .rectangle → ∀ u, (s ++ u).head? ≠ some '[') : Ends o s := by
  have hc : c ≠ '\n' := by
    rcases Shape.brackets_cases h with ⟨-, -, rfl⟩ | ⟨-, -, rfl⟩ | ⟨-, -, rfl⟩ <;> decide
  exact ends_node (settles_readBalanced hc 0 s) fun u => step_of_brackets h fun hr => hs hr u

lemma ends_square (s : List Char) : Ends '[' s := by
  cases s with
  | nil => exact .unclosed (length_scan_eq_one rfl rfl) (length_scan_eq_one rfl rfl)
  | cons a s =>
    by_cases ha : a = '['
    · subst ha
      exact ends_node (settles_readDatabase s) fun u => rfl
    · have hshape : Shape.rectangle.brackets? = some ('[', ']') := rfl
      exact ends_brackets hshape fun _ u => by simpa using ha

lemma step_dash {s : List Char} (h : ∀ r, s ≠ '>' :: r) (h' : ∀ r, s ≠ '-' :: '>' :: r) :
    step '-' s = .skip s := by
  unfold step
  split <;> simp_all

lemma scan_dash {s : List Char} (h : ∀ r, s ≠ '>' :: r) (h' : ∀ r, s ≠ '-' :: '>' :: r) :
    scan ('-' :: s) = scan s := by
  rw [scan_cons, step_dash h h']
  rfl

lemma EndsLine.ne_cons {u : List Char} (h : EndsLine u) {a : Char} (hline : a ≠ '\n')
    (hcomment : a ≠ '#') (r : List Char) : u ≠ a :: r := by
  rintro rfl
  simp [EndsLine, hline, hcomment] at h

/-- A dash at the end of a line is skipped. -/
lemma EndsLine.scan_dash {u : List Char} (h : EndsLine u) : scan ('-' :: u) = scan u :=
  Token.scan_dash (h.ne_cons (by decide) (by decide)) fun _ => h.ne_cons (by decide) (by decide) _

/-- A dash that cannot start an arrow, whatever follows. -/
lemma settled_dash {s : List Char} (h : ∀ u r, s ++ u ≠ '>' :: r)
    (h' : ∀ u r, s ++ u ≠ '-' :: '>' :: r) : Ends '-' s := by
  refine .settled fun u => ?_
  rw [step_dash (h u) (h' u), step_dash (by simpa using h []) (by simpa using h' [])]
  rfl

lemma ends_dash (s : List Char) : Ends '-' s := by
  have hone : scan ['-'] = [] := (scan_dash (by simp) (by simp)).trans scan_nil
  cases s with
  | nil =>
    refine .line (by simp [hone]) fun u hu => ?_
    rw [hone]
    exact hu.scan_dash
  | cons a s =>
    by_cases hgreater : a = '>'
    · subst hgreater
      exact .settled fun u => rfl
    by_cases hdash : a = '-'
    · subst hdash
      cases s with
      | nil =>
        -- two dashes may become a dashed arrow, but not at the end of a line
        have htwo : scan ['-', '-'] = [] := (scan_dash (by simp) (by simp)).trans hone
        refine .line (by simp [htwo]) fun u hu => ?_
        have hu' : ∀ r, '-' :: u ≠ '-' :: '>' :: r := by
          simpa using hu.ne_cons (by decide) (by decide)
        rw [htwo]
        exact (scan_dash (by simp) hu').trans hu.scan_dash
      | cons b s =>
        by_cases hb : b = '>'
        · subst hb
          exact .settled fun u => rfl
        · exact settled_dash (by simp) (by simp [hb])
    · exact settled_dash (by simp [hgreater]) (by simp [hdash])

lemma ends_quote (s : List Char) : Ends '"' s :=
  ends_construct (settles_readQuoted s)
    (f := fun e => ⟨some (.label (String.ofList e.inner)), e.rest, if e.closed then 0 else 1⟩)
    (fun _ _ => rfl) (fun _ => rfl) (fun _ => rfl) fun _ => rfl

/-- Every character that starts no token is skipped. -/
lemma step_of_notMem {c : Char} (hc : c ∉ ['\n', '#', '@', '[', '{', '(', '-', '"'])
    (s : List Char) : step c s = .skip s := by
  unfold step
  split <;> simp_all

/-- A step is settled, or it is the last one of its text. -/
lemma ends (c : Char) (s : List Char) : Ends c s := by
  by_cases hc : c ∈ ['\n', '#', '@', '[', '{', '(', '-', '"']
  · simp only [List.mem_cons, List.not_mem_nil, or_false] at hc
    rcases hc with rfl | rfl | rfl | rfl | rfl | rfl | rfl | rfl
    · exact .settled fun u => rfl
    · exact ends_comment s
    · exact ends_directive s
    · exact ends_square s
    · exact ends_brackets (show Shape.diamond.brackets? = _ from rfl) (by simp)
    · exact ends_brackets (show Shape.ellipse.brackets? = _ from rfl) (by simp)
    · exact ends_dash s
    · exact ends_quote s
  · refine .settled fun u => ?_
    rw [step_of_notMem hc, step_of_notMem hc]
    rfl

/-! ### Whole texts -/

/-- Induction on a text, step by step. -/
lemma step_induction {P : List Char → Prop} (nil : P [])
    (cons : ∀ c s, P (step c s).rest → P (c :: s)) (s : List Char) : P s := by
  induction s using scan.induct with
  | case1 => exact nil
  | case2 c s _ _ ih => exact cons c s ih
  | case3 c s _ _ _ ih => exact cons c s ih

lemma scan_of_settled {c : Char} {s : List Char} (h : ∀ u, step c (s ++ u) = (step c s).extend u)
    (u : List Char) :
    scan (c :: s ++ u) = (step c s).token?.toList ++ scan ((step c s).rest ++ u) := by
  rw [List.cons_append, scan_cons, h]
  rfl

/-- All tokens but the last stay when a text goes on. -/
lemma dropLast_scan_prefix (s u : List Char) : (scan s).dropLast <+: scan (s ++ u) := by
  induction s using step_induction with
  | nil => simp [scan_nil]
  | cons c s ih =>
    cases ends c s with
    | settled h =>
      rw [scan_cons, scan_of_settled h]
      exact dropLast_append_prefix ih
    | line hone _ => exact dropLast_prefix_of_length_le hone
    | unclosed hone _ => exact dropLast_prefix_of_length_le hone.le

/-- What follows a text does not change its tokens if it starts with a line end or a comment, unless
the text ends in a construct that takes the line end with it. -/
lemma scan_append_or (s : List Char) :
    (∀ u, EndsLine u → scan (s ++ u) = scan s ++ scan u) ∨
      (scan (s ++ ['\n'])).length = (scan s).length := by
  induction s using step_induction with
  | nil => exact .inl fun u _ => by rw [scan_nil]; rfl
  | cons c s ih =>
    cases ends c s with
    | settled h =>
      refine ih.imp (fun ih u hu => ?_) fun ih => ?_
      · rw [scan_of_settled h, ih u hu, scan_cons, List.append_assoc]
      · rw [scan_of_settled h, scan_cons, List.length_append, List.length_append, ih]
    | line _ h => exact .inl h
    | unclosed h hnewline => exact .inr (hnewline.trans h.symm)

/-- If a line end behind a text is read as such, the text is scanned before any line end or comment
behind it. -/
lemma scan_append_of_closed {s u : List Char} (hs : scan (s ++ ['\n']) = scan s ++ [.newline])
    (hu : EndsLine u) : scan (s ++ u) = scan s ++ scan u := by
  rcases scan_append_or s with h | h
  · exact h u hu
  · rw [hs, List.length_append] at h
    simp at h

end Token
end Flowchart
