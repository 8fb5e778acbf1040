import Flowchart.Proofs.Token.Continued

/-!
# Texts with characters replaced

There are two places where each occurrence of a character gives way to a longer text.

* A quoted label has a backslash in front of each backslash and each quote.  Two replacements, one
  after the other, put them there, and scanning takes them off again wherever the label stands
  (`ofText_label_append`).
* A text may come with a carriage return in front of each line feed.  It has the same tokens, except
  that what stands inside nodes and quoted labels keeps its carriage returns (`ofText_crlf`).

For the second result, the three readers of constructs commute with the replacement, since a
carriage return opens and closes nothing, and stripping does, since it is blank.  A comment or the
value of a directive ends in front of the line feed and takes the carriage return with it, so that
the texts left behind a step differ by a character that is skipped.  What is compared step by step
is therefore the token and the tokens of what is left (`Step.Returns`).
-/

namespace Flowchart

/-! ### Replacing a character -/

namespace Text

/-- A text in which each occurrence of a character is replaced by another text. -/
def replace (old : Char) (new s : List Char) : List Char :=
  s.flatMap fun a => if a = old then new else [a]

/-- A text whose lines end with a carriage return and a line feed, where they ended with a line feed
before. -/
def crlf (s : List Char) : List Char := replace '\n' ['\r', '\n'] s

variable {a : Char} {s : List Char}

@[simp] lemma crlf_nil : crlf [] = [] := rfl

@[simp] lemma crlf_newline (s : List Char) : crlf ('\n' :: s) = '\r' :: '\n' :: crlf s := rfl

lemma crlf_cons (ha : a ≠ '\n') (s : List Char) : crlf (a :: s) = a :: crlf s := by
  simp [crlf, replace, ha]

lemma crlf_append (s t : List Char) : crlf (s ++ t) = crlf s ++ crlf t :=
  List.flatMap_append

/-- Only a line feed brings in a character, so any other character in front was there before. -/
lemma exists_of_crlf_eq_cons (ha : a ≠ '\r') {r : List Char} (h : crlf s = a :: r) :
    ∃ r', s = a :: r' ∧ r = crlf r' := by
  cases s with
  | nil => cases h
  | cons b s =>
    by_cases hb : b = '\n'
    · subst hb
      exact absurd (List.cons.inj h).1.symm ha
    · rw [crlf_cons hb] at h
      obtain ⟨rfl, rfl⟩ := List.cons.inj h
      exact ⟨s, rfl, rfl⟩

lemma head?_crlf_ne (ha : a ≠ '\r') (h : s.head? ≠ some a) : (crlf s).head? ≠ some a := by
  intro hhead
  obtain ⟨r, hr⟩ := List.head?_eq_some_iff.1 hhead
  obtain ⟨r', rfl, -⟩ := exists_of_crlf_eq_cons ha hr
  exact h rfl

lemma isBlank_of_mem_crlf (hs : ∀ b ∈ s, isBlank b = true) (ha : a ∈ crlf s) :
    isBlank a = true := by
  obtain ⟨b, hb, hab⟩ := List.mem_flatMap.1 ha
  split at hab
  · rcases List.mem_pair.1 hab with rfl | rfl <;> decide
  · rw [List.mem_singleton.1 hab]
    exact hs b hb

/-- The characters at the ends of a stripped text are not blank, hence no line feeds. -/
lemma strip_crlf_of_strip (hs : strip s = s) : strip (crlf s) = crlf s := by
  have hne {a : Char} (ha : isBlank a = false) : a ≠ '\n' := by
    rintro rfl
    exact absurd ha (by decide)
  obtain ⟨hhead, hlast⟩ := strip_eq_self_iff.1 hs
  refine strip_eq_self_iff.2 ⟨?_, ?_⟩
  · cases s with
    | nil => simp
    | cons a s =>
      rw [crlf_cons (hne (hhead a rfl))]
      exact hhead
  · obtain rfl | ⟨init, a, rfl⟩ := List.eq_nil_or_concat s
    · simp
    · rw [List.concat_eq_append] at hlast ⊢
      rw [crlf_append, crlf_cons (hne (hlast a (by simp))), crlf_nil]
      simpa using hlast

/-- A carriage return is a blank like the line feed that brings it in. -/
lemma strip_crlf (s : List Char) : strip (crlf s) = crlf (strip s) := by
  obtain ⟨front, back, hs, hfront, hback⟩ := exists_eq_strip s
  calc strip (crlf s)
      = strip (crlf front ++ crlf (strip s) ++ crlf back) := by
        rw [← crlf_append, ← crlf_append, ← hs]
    _ = strip (crlf (strip s)) :=
        strip_append_append (fun _ => isBlank_of_mem_crlf hfront)
          (fun _ => isBlank_of_mem_crlf hback) _
    _ = crlf (strip s) := strip_crlf_of_strip (strip_strip s)

end Text

/-! ### Quoted labels -/

namespace Written

/-- The marks in a quoted label come from replacing the backslashes and then the quotes.  The second
replacement leaves the backslashes of the first alone. -/
lemma label_eq_replace (s : String) :
    label s = '"' ::
      Text.replace '"' ['\\', '"'] (Text.replace '\\' ['\\', '\\'] s.toList) ++ ['"'] := by
  have hchar (c : Char) :
      labelChar c = Text.replace '"' ['\\', '"'] (Text.replace '\\' ['\\', '\\'] [c]) := by
    unfold labelChar
    by_cases hslash : c = '\\'
    · subst hslash
      rfl
    · by_cases hquote : c = '"' <;> simp [Text.replace, hslash, hquote]
  have htext : s.toList.flatMap labelChar
      = Text.replace '"' ['\\', '"'] (Text.replace '\\' ['\\', '\\'] s.toList) := by
    simp only [funext hchar, Text.replace, List.flatMap_assoc, List.flatMap_singleton]
  rw [label, htext]

end Written

namespace Token

/-- A label is quoted by two replacements, and a quoted label is read back as the only token in
front of those of what follows, whatever follows. -/
theorem ofText_label_append (s r : String) :
    Written.label s = '"' ::
        Text.replace '"' ['\\', '"'] (Text.replace '\\' ['\\', '\\'] s.toList) ++ ['"'] ∧
      ofText (String.ofList (Written.label s) ++ r) = .label s :: ofText r := by
  refine ⟨Written.label_eq_replace s, ?_⟩
  rw [ofText, String.toList_append, String.toList_ofList]
  exact readsAs_label s r.toList

/-! ### Constructs with carriage returns -/

/-- A construct in a text with carriage returns. -/
def Enclosed.crlf (e : Enclosed) : Enclosed := ⟨Text.crlf e.inner, Text.crlf e.rest, e.closed⟩

lemma Enclosed.crlf_cons {a : Char} (ha : a ≠ '\n') (e : Enclosed) :
    (e.cons a).crlf = e.crlf.cons a := by
  simp [Enclosed.crlf, Enclosed.cons, Text.crlf_cons ha]

lemma Enclosed.crlf_cons_newline (e : Enclosed) :
    (e.cons '\n').crlf = (e.crlf.cons '\n').cons '\r' := rfl

open Text (crlf crlf_nil crlf_newline crlf_cons)

lemma readBalanced_crlf {o c : Char} (hoc : o ≠ c) (ho : o ≠ '\r' ∧ o ≠ '\n')
    (hc : c ≠ '\r' ∧ c ≠ '\n') (d : Nat) (s : List Char) :
    readBalanced o c d (crlf s) = (readBalanced o c d s).crlf := by
  induction s generalizing d with
  | nil => rfl
  | cons a s ih =>
    by_cases ha : a = '\n'
    · subst ha
      rw [crlf_newline, readBalanced_other ho.1.symm hc.1.symm,
        readBalanced_other ho.2.symm hc.2.symm, readBalanced_other ho.2.symm hc.2.symm, ih,
        Enclosed.crlf_cons_newline]
    rw [crlf_cons ha]
    by_cases hao : a = o
    · subst hao
      rw [readBalanced_opening, readBalanced_opening, ih, Enclosed.crlf_cons ha]
    by_cases hac : a = c
    · subst hac
      cases d with
      | zero =>
        rw [readBalanced_closing_zero hoc, readBalanced_closing_zero hoc]
        rfl
      | succ d =>
        rw [readBalanced_closing_succ hoc, readBalanced_closing_succ hoc, ih, Enclosed.crlf_cons ha]
    · rw [readBalanced_other hao hac, readBalanced_other hao hac, ih, Enclosed.crlf_cons ha]

lemma readDatabase_crlf (s : List Char) : readDatabase (crlf s) = (readDatabase s).crlf := by
  fun_induction readDatabase s with
  | case1 => rfl
  | case2 s => rfl
  | case3 a s hclose ih =>
    by_cases ha : a = '\n'
    · subst ha
      rw [crlf_newline, readDatabase_cons (by simp), readDatabase_cons (by simp), ih,
        Enclosed.crlf_cons_newline]
    · have hhead : a = ']' → (crlf s).head? ≠ some ']' := by
        rintro rfl
        refine Text.head?_crlf_ne (by decide) fun hs => ?_
        obtain ⟨r, rfl⟩ := List.head?_eq_some_iff.1 hs
        exact hclose r rfl rfl
      rw [crlf_cons ha, readDatabase_cons hhead, ih, Enclosed.crlf_cons ha]

lemma readQuoted_crlf (s : List Char) : readQuoted (crlf s) = (readQuoted s).crlf := by
  fun_induction readQuoted s with
  | case1 => rfl
  | case2 s => rfl
  | case3 a s ih =>
    rw [crlf_cons (by decide)]
    by_cases ha : a = '\n'
    · -- the backslash takes the carriage return, and the line feed stands for itself
      subst ha
      rw [crlf_newline, readQuoted_escape, readQuoted_other (by decide) (by decide), ih,
        Enclosed.crlf_cons_newline]
    · rw [crlf_cons ha, readQuoted_escape, ih, Enclosed.crlf_cons ha]
  | case4 a s hquote hescape ih =>
    by_cases ha : a = '\n'
    · subst ha
      rw [crlf_newline, readQuoted_other (by decide) (by decide),
        readQuoted_other (by decide) (by decide), ih, Enclosed.crlf_cons_newline]
    by_cases hslash : a = '\\'
    · -- a backslash that stands last is taken as it is
      subst hslash
      cases s with
      | nil => rfl
      | cons b s => exact absurd rfl (hescape b s rfl)
    · rw [crlf_cons ha, readQuoted_other hquote hslash, ih, Enclosed.crlf_cons ha]

/-! ### Runs of characters -/

section Runs

variable {p : Char → Bool}

/-- A run that ends at either character of a line end. -/
lemma takeWhile_crlf_of_neg (hreturn : p '\r' = false) (hline : p '\n' = false) (s : List Char) :
    (crlf s).takeWhile p = s.takeWhile p ∧ (crlf s).dropWhile p = crlf (s.dropWhile p) := by
  induction s with
  | nil => exact ⟨rfl, rfl⟩
  | cons a s ih =>
    by_cases ha : a = '\n'
    · subst ha
      simp [hreturn, hline]
    · rw [crlf_cons ha]
      by_cases hp : p a = true
      · simpa [hp] using ih
      · simp [hp, crlf_cons ha]

/-- A run that ends at the line feed has the carriage return in front of it as well. -/
lemma takeWhile_crlf_of_pos (hreturn : p '\r' = true) (hline : p '\n' = false) (s : List Char) :
    (crlf s).takeWhile p = s.takeWhile p ∨ (crlf s).takeWhile p = s.takeWhile p ++ ['\r'] := by
  induction s with
  | nil => exact .inl rfl
  | cons a s ih =>
    by_cases ha : a = '\n'
    · subst ha
      simp [hreturn, hline]
    · rw [crlf_cons ha]
      by_cases hp : p a = true
      · simpa [hp] using ih
      · simp [hp]

lemma scan_return (s : List Char) : scan ('\r' :: s) = scan s := by
  rw [scan_cons]
  rfl

/-- What is left behind such a run lacks the carriage return, which would be skipped. -/
lemma scan_dropWhile_crlf (hreturn : p '\r' = true) (hline : p '\n' = false) (s : List Char) :
    scan ((crlf s).dropWhile p) = scan (crlf (s.dropWhile p)) := by
  induction s with
  | nil => rfl
  | cons a s ih =>
    by_cases ha : a = '\n'
    · subst ha
      simp [hreturn, hline, scan_return]
    · rw [crlf_cons ha]
      by_cases hp : p a = true
      · simpa [hp] using ih
      · simp [hp, crlf_cons ha]

end Runs

/-! ### Steps -/

/-- A token of a text whose lines end with a carriage return and a line feed: what stands inside
nodes and quoted labels has such line ends, too. -/
protected def crlf : Token → Token
  | node shape text => node shape (String.ofList (crlf text.toList))
  | label text => label (String.ofList (crlf text.toList))
  | arrow dashed => arrow dashed
  | directive text => directive text
  | newline => newline

/-- A step finds the same token with carriage returns, and leaves a text with the same tokens. -/
def Step.Returns (next' next : Step) : Prop :=
  next'.token? = next.token?.map Token.crlf ∧ scan next'.rest = scan (crlf next.rest)

lemma returns_skip (s : List Char) : (Step.skip (crlf s)).Returns (.skip s) := ⟨rfl, rfl⟩

lemma returns_node (shape : Shape) (e : Enclosed) (k : Nat) :
    (Step.node shape e.crlf k).Returns (.node shape e k) := by
  refine ⟨?_, rfl⟩
  simp only [Step.node, Enclosed.crlf, Token.crlf, Option.map_some, Text.strip_crlf,
    String.toList_ofList]

lemma returns_brackets {shape : Shape} {o c : Char} (h : shape.brackets? = some (o, c))
    {s : List Char} (hs : shape = .rectangle → s.head? ≠ some '[') :
    (step o (crlf s)).Returns (step o s) := by
  have hmarks : o ≠ c ∧ (o ≠ '\r' ∧ o ≠ '\n') ∧ c ≠ '\r' ∧ c ≠ '\n' := by
    rcases Shape.brackets_cases h with ⟨-, rfl, rfl⟩ | ⟨-, rfl, rfl⟩ | ⟨-, rfl, rfl⟩ <;> decide
  obtain ⟨hoc, ho, hc⟩ := hmarks
  rw [step_of_brackets h hs, step_of_brackets h fun hr => Text.head?_crlf_ne (by decide) (hs hr),
    readBalanced_crlf hoc ho hc]
  exact returns_node ..

lemma returns_square (s : List Char) : (step '[' (crlf s)).Returns (step '[' s) := by
  by_cases hs : s.head? = some '['
  · obtain ⟨r, rfl⟩ := List.head?_eq_some_iff.1 hs
    have hstep (u : List Char) : step '[' ('[' :: u) = .node .database (readDatabase u) 2 := rfl
    rw [crlf_cons (by decide), hstep, hstep, readDatabase_crlf]
    exact returns_node ..
  · exact returns_brackets (show Shape.rectangle.brackets? = _ from rfl) fun _ => hs

lemma returns_comment (s : List Char) : (step '#' (crlf s)).Returns (step '#' s) :=
  ⟨rfl, scan_dropWhile_crlf (by decide) (by decide) s⟩

lemma returns_directive (s : List Char) : (step '@' (crlf s)).Returns (step '@' s) := by
  obtain ⟨hname, hrest⟩ := takeWhile_crlf_of_neg (p := isNameChar) (by decide) (by decide) s
  have hvalue : Text.strip ((crlf (s.dropWhile isNameChar)).takeWhile isValueChar)
      = Text.strip ((s.dropWhile isNameChar).takeWhile isValueChar) := by
    rcases takeWhile_crlf_of_pos (p := isValueChar) (by decide) (by decide)
      (s.dropWhile isNameChar) with h | h
    · rw [h]
    · rw [h, Text.strip_append_of_isBlank (by decide)]
  refine ⟨?_, ?_⟩
  · simp only [step, readDirective, hname, hrest, hvalue, Option.map_some, Token.crlf]
  · simp only [step, readDirective, hrest]
    exact scan_dropWhile_crlf (by decide) (by decide) _

lemma returns_quote (s : List Char) : (step '"' (crlf s)).Returns (step '"' s) := by
  simp only [Step.Returns, step, readQuoted_crlf, Enclosed.crlf, Option.map_some, Token.crlf,
    String.toList_ofList, and_self]

lemma returns_dash (s : List Char) : (step '-' (crlf s)).Returns (step '-' s) := by
  by_cases hgreater : ∃ r, s = '>' :: r
  · obtain ⟨r, rfl⟩ := hgreater
    exact ⟨rfl, rfl⟩
  by_cases hdash : ∃ r, s = '-' :: '>' :: r
  · obtain ⟨r, rfl⟩ := hdash
    exact ⟨rfl, rfl⟩
  rw [not_exists] at hgreater hdash
  have hgreater' : ∀ r, crlf s ≠ '>' :: r := by
    intro r hr
    obtain ⟨r', hs, -⟩ := Text.exists_of_crlf_eq_cons (by decide) hr
    exact hgreater r' hs
  have hdash' : ∀ r, crlf s ≠ '-' :: '>' :: r := by
    intro r hr
    obtain ⟨r', rfl, hr'⟩ := Text.exists_of_crlf_eq_cons (by decide) hr
    obtain ⟨r'', rfl, -⟩ := Text.exists_of_crlf_eq_cons (by decide) hr'.symm
    exact hdash r'' rfl
  rw [step_dash hgreater hdash, step_dash hgreater' hdash']
  exact returns_skip s

/-- A step at any character but a line feed. -/
lemma returns_step {c : Char} (hc : c ≠ '\n') (s : List Char) :
    (step c (crlf s)).Returns (step c s) := by
  by_cases hmark : c ∈ ['#', '@', '[', '{', '(', '-', '"']
  · simp only [List.mem_cons, List.not_mem_nil, or_false] at hmark
    rcases hmark with rfl | rfl | rfl | rfl | rfl | rfl | rfl
    · exact returns_comment s
    · exact returns_directive s
    · exact returns_square s
    · exact returns_brackets (show Shape.diamond.brackets? = _ from rfl) (by simp)
    · exact returns_brackets (show Shape.ellipse.brackets? = _ from rfl) (by simp)
    · exact returns_dash s
    · exact returns_quote s
  · have hskip : c ∉ ['\n', '#', '@', '[', '{', '(', '-', '"'] :=
      fun h => (List.mem_cons.1 h).elim hc hmark
    rw [step_of_notMem hskip, step_of_notMem hskip]
    exact returns_skip s

/-! ### Whole texts -/

lemma scan_crlf (s : List Char) : scan (crlf s) = (scan s).map Token.crlf := by
  induction s using step_induction with
  | nil => simp [scan_nil]
  | cons c s ih =>
    by_cases hc : c = '\n'
    · -- a line end outside of all constructs: its carriage return is skipped
      subst hc
      rw [crlf_newline, scan_return, scan_cons, scan_cons]
      exact congrArg (Token.newline :: ·) ih
    · obtain ⟨htoken, hrest⟩ := returns_step hc s
      rw [crlf_cons hc, scan_cons, htoken, hrest, ih, scan_cons, List.map_append,
        Option.toList_map]

/-- Carriage returns in front of the line feeds change nothing but what stands inside nodes and
quoted labels, where they stay. -/
theorem ofText_crlf (text : String) :
    ofText (String.ofList (crlf text.toList)) = (ofText text).map Token.crlf := by
  rw [ofText, String.toList_ofList]
  exact scan_crlf text.toList

end Token
end Flowchart
