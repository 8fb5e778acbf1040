import Flowchart.Proofs.Text.Stripping
import Flowchart.Proofs.Token.Enclosed

/-!
# Scanning what was written

A text `ReadsAs` some tokens if scanning finds them at the front of every text that starts with it,
and then goes on with what follows.  Such texts can be put one after the other, so the canonical
text of a chart is scanned piece by piece: spaces, line ends, arrows, edge labels, directives, and
the nodes whose label `Fits` their shape.

A node whose label opens a bracket of its shape that it does not close takes in its own closing
bracket: it `Spoils` every text it stands in (`spoils_node`).  A text made of pieces that are each
read in full or spoil the text is spoiled by any one of them (`spoils_flatMap`).
-/

namespace Flowchart
namespace Token

/-! ### Pieces of text -/

/-- Every text that starts with `s` is scanned as the tokens `ts` and those of what follows. -/
def ReadsAs (s : List Char) (ts : List Token) : Prop :=
  ∀ t, scan (s ++ t) = ts ++ scan t

lemma scan_nil : scan [] = [] := by
  rw [scan]

lemma scan_cons (c : Char) (s : List Char) :
    scan (c :: s) = (step c s).token?.toList ++ scan (step c s).rest := by
  rw [scan]
  cases (step c s).token? <;> rfl

namespace ReadsAs

lemma nil : ReadsAs [] [] := fun _ => rfl

lemma append {s₁ s₂ : List Char} {ts₁ ts₂ : List Token} (h₁ : ReadsAs s₁ ts₁)
    (h₂ : ReadsAs s₂ ts₂) : ReadsAs (s₁ ++ s₂) (ts₁ ++ ts₂) := by
  intro t
  rw [List.append_assoc, h₁, h₂, List.append_assoc]

lemma flatMap {α : Type} {l : List α} {f : α → List Char} {g : α → List Token}
    (h : ∀ a ∈ l, ReadsAs (f a) (g a)) : ReadsAs (l.flatMap f) (l.flatMap g) := by
  induction l with
  | nil => exact nil
  | cons a l ih =>
    rw [List.flatMap_cons, List.flatMap_cons]
    exact (h a (by simp)).append (ih fun b hb => h b (by simp [hb]))

lemma scan_eq {s : List Char} {ts : List Token} (h : ReadsAs s ts) : scan s = ts := by
  have := h []
  rwa [List.append_nil, scan_nil, List.append_nil] at this

end ReadsAs

lemma readsAs_space : ReadsAs [' '] [] := by
  intro t
  rw [List.singleton_append, scan_cons]
  rfl

lemma readsAs_newline : ReadsAs ['\n'] [.newline] := by
  intro t
  rw [List.singleton_append, scan_cons]
  rfl

lemma readsAs_arrow (dashed : Bool) : ReadsAs (Written.arrow dashed) [.arrow dashed] := by
  intro t
  cases dashed
  · exact scan_cons '-' ('>' :: t)
  · exact scan_cons '-' ('-' :: '>' :: t)

lemma readsAs_label (s : String) : ReadsAs (Written.label s) [.label s] := by
  intro t
  have hq := readQuoted_flatMap s.toList t
  rw [Written.label, List.cons_append, List.cons_append, List.append_assoc, List.singleton_append,
    scan_cons]
  simp [step, hq]

/-! ### Directives -/

section

variable {name value r : List Char}

/-- A directive is read from its name and its stripped value, up to where its value has to end. -/
lemma readDirective_written (hname : ∀ c ∈ name, isNameChar c = true)
    (hvalue : ∀ c ∈ value, isValueChar c = true) (hstrip : Text.strip value = value)
    (hr : ∀ c ∈ r.head?, isValueChar c = false) :
    readDirective (name ++ ' ' :: (value ++ r)) = (name ++ ' ' :: value, r) := by
  have hspace : isValueChar ' ' = true := by decide
  obtain ⟨hn₁, hn₂⟩ := span_append (l := name) (u := ' ' :: (value ++ r))
    (p := isNameChar) (.inr (by rintro _ ⟨⟩; decide))
  obtain ⟨hv₁, hv₂⟩ := span_append (l := value) (.inr hr)
  rw [List.takeWhile_eq_self_iff.2 hname] at hn₁
  rw [List.dropWhile_eq_nil_iff.2 hname, List.nil_append] at hn₂
  rw [List.takeWhile_eq_self_iff.2 hvalue] at hv₁
  rw [List.dropWhile_eq_nil_iff.2 hvalue, List.nil_append] at hv₂
  simp only [readDirective, hn₁, hn₂, List.takeWhile_cons_of_pos hspace,
    List.dropWhile_cons_of_pos hspace, hv₁, hv₂,
    Text.strip_cons_of_isBlank (show Text.isBlank ' ' = true by decide), hstrip]

/-- A directive is read back from its name and its stripped value if its line ends behind it. -/
lemma readsAs_directive (hname : ∀ c ∈ name, isNameChar c = true)
    (hvalue : ∀ c ∈ value, isValueChar c = true) (hstrip : Text.strip value = value) :
    ReadsAs ('@' :: name ++ ' ' :: value ++ ['\n'])
      [.directive (String.ofList (name ++ ' ' :: value)), .newline] := by
  intro t
  have hread : readDirective (name ++ ' ' :: (value ++ '\n' :: t))
      = (name ++ ' ' :: value, '\n' :: t) :=
    readDirective_written hname hvalue hstrip (by rintro _ ⟨⟩; decide)
  have hstep : step '@' (name ++ ' ' :: (value ++ '\n' :: t))
      = ⟨some (.directive (String.ofList (name ++ ' ' :: value))), '\n' :: t, 0⟩ := by
    simp [step, hread]
  simp only [List.cons_append, List.append_assoc, List.nil_append]
  rw [scan_cons, hstep]
  exact congrArg _ (readsAs_newline t)

lemma directiveName_ofList (h : ' ' ∉ name) (value : List Char) :
    directiveName (String.ofList (name ++ ' ' :: value)) = String.ofList name := by
  have hne : ∀ c ∈ name, decide (c ≠ ' ') = true := by simpa using List.forall_mem_ne'.2 h
  rw [directiveName, String.toList_ofList, List.takeWhile_append_of_pos hne,
    List.takeWhile_cons_of_neg (by decide), List.append_nil]

lemma directiveValue_ofList (h : ' ' ∉ name) (value : List Char) :
    directiveValue (String.ofList (name ++ ' ' :: value)) = String.ofList value := by
  have hne : ∀ c ∈ name, decide (c ≠ ' ') = true := by simpa using List.forall_mem_ne'.2 h
  rw [directiveValue, String.toList_ofList, List.dropWhile_append_of_pos hne,
    List.dropWhile_cons_of_neg (by decide)]
  rfl

end

end Token

/-! ### Labels and shapes -/

/-- The brackets of a shape whose label may contain them in pairs. -/
def Shape.brackets? : Shape → Option (Char × Char)
  | .rectangle => some ('[', ']')
  | .diamond => some ('{', '}')
  | .ellipse => some ('(', ')')
  | .database => none

/-- A label fits a shape if it is stripped, balanced in the brackets of the shape, and, for a
database, free of `]]`. -/
structure Shape.Fits (shape : Shape) (label : String) : Prop where
  stripped : Text.strip label.toList = label.toList
  balanced : ∀ b ∈ shape.brackets?, Token.Balanced b.1 b.2 label.toList
  unclosed : shape = .database → ¬ [']', ']'] <:+: label.toList

instance (shape : Shape) (label : String) : Decidable (shape.Fits label) :=
  decidable_of_iff
    (Text.strip label.toList = label.toList ∧
      (∀ b ∈ shape.brackets?, Token.Balanced b.1 b.2 label.toList) ∧
      (shape = .database → ¬ [']', ']'] <:+: label.toList))
    ⟨fun h => ⟨h.1, h.2.1, h.2.2⟩, fun h => ⟨h.stripped, h.balanced, h.unclosed⟩⟩

namespace Shape

variable {shape : Shape} {o c : Char}

lemma brackets_cases (h : shape.brackets? = some (o, c)) :
    (shape = .rectangle ∧ o = '[' ∧ c = ']') ∨ (shape = .diamond ∧ o = '{' ∧ c = '}') ∨
      (shape = .ellipse ∧ o = '(' ∧ c = ')') := by
  cases shape <;> simp_all [brackets?, eq_comm]

lemma eq_database_of_brackets (h : shape.brackets? = none) : shape = .database := by
  cases shape <;> simp_all [brackets?]

lemma opening_of_brackets (h : shape.brackets? = some (o, c)) : shape.opening = [o] := by
  rcases brackets_cases h with ⟨rfl, rfl, rfl⟩ | ⟨rfl, rfl, rfl⟩ | ⟨rfl, rfl, rfl⟩ <;> rfl

lemma closing_of_brackets (h : shape.brackets? = some (o, c)) : shape.closing = [c] := by
  rcases brackets_cases h with ⟨rfl, rfl, rfl⟩ | ⟨rfl, rfl, rfl⟩ | ⟨rfl, rfl, rfl⟩ <;> rfl

lemma brackets_ne (h : shape.brackets? = some (o, c)) : o ≠ c ∧ o ≠ ' ' ∧ c ≠ ' ' ∧ c ≠ '[' := by
  rcases brackets_cases h with ⟨rfl, rfl, rfl⟩ | ⟨rfl, rfl, rfl⟩ | ⟨rfl, rfl, rfl⟩ <;> decide

lemma isBlank_opening (h : shape.brackets? = some (o, c)) : Text.isBlank o = false := by
  rcases brackets_cases h with ⟨rfl, rfl, rfl⟩ | ⟨rfl, rfl, rfl⟩ | ⟨rfl, rfl, rfl⟩ <;> decide

lemma isBlank_closing (h : shape.brackets? = some (o, c)) : Text.isBlank c = false := by
  rcases brackets_cases h with ⟨rfl, rfl, rfl⟩ | ⟨rfl, rfl, rfl⟩ | ⟨rfl, rfl, rfl⟩ <;> decide

lemma pad_rectangle (label : List Char) :
    rectangle.pad label = if label.head? = some '[' then ' ' :: label else label := rfl

lemma pad_database (label : List Char) :
    database.pad label = if label.getLast? = some ']' then label ++ [' '] else label := rfl

/-- The padding is stripped off again. -/
lemma strip_pad (shape : Shape) {label : List Char} (h : Text.strip label = label) :
    Text.strip (shape.pad label) = label := by
  cases shape with
  | rectangle =>
    rw [pad_rectangle]
    split
    · rw [Text.strip_cons_of_isBlank (by decide), h]
    · exact h
  | database =>
    rw [pad_database]
    split
    · rw [Text.strip_append_of_isBlank (by decide), h]
    · exact h
  | diamond => exact h
  | ellipse => exact h

lemma mem_pad_iff (shape : Shape) {a : Char} (ha : a ≠ ' ') {label : List Char} :
    a ∈ shape.pad label ↔ a ∈ label := by
  cases shape <;> simp only [pad] <;> (try split) <;> simp [ha]

lemma balanced_pad (h : shape.brackets? = some (o, c)) {label : List Char}
    (hl : Token.Balanced o c label) : Token.Balanced o c (shape.pad label) := by
  rcases brackets_cases h with ⟨rfl, rfl, rfl⟩ | ⟨rfl, rfl, rfl⟩ | ⟨rfl, rfl, rfl⟩
  · rw [pad_rectangle]
    split
    · exact hl.cons_of_ne (by decide) (by decide)
    · exact hl
  · exact hl
  · exact hl

end Shape

namespace Token

/-! ### Nodes -/

variable {shape : Shape} {o c : Char}

/-- An opening bracket starts a node, unless a second `[` makes it a database. -/
lemma step_of_brackets (h : shape.brackets? = some (o, c)) {s : List Char}
    (hs : shape = .rectangle → s.head? ≠ some '[') :
    step o s = .node shape (readBalanced o c 0 s) 0 := by
  rcases Shape.brackets_cases h with ⟨rfl, rfl, rfl⟩ | ⟨rfl, rfl, rfl⟩ | ⟨rfl, rfl, rfl⟩
  · cases s with
    | nil => rfl
    | cons a s =>
      have ha : a ≠ '[' := by simpa using hs rfl
      simp [step, ha]
  · rfl
  · rfl

/-- The padding keeps a rectangle from looking like a database. -/
lemma head?_pad_append {label t : List Char} (hc : c ≠ '[') :
    shape = .rectangle → (shape.pad label ++ c :: t).head? ≠ some '[' := by
  rintro rfl
  rw [Shape.pad_rectangle]
  split
  · simp
  · next hlabel =>
    cases label with
    | nil => simpa using hc
    | cons a label => simpa using hlabel

/-- Scanning a written node reads its brackets. -/
lemma scan_node_of_brackets (h : shape.brackets? = some (o, c)) (label : String) (t : List Char) :
    let e := readBalanced o c 0 (shape.pad label.toList ++ c :: t)
    scan (Written.node shape label ++ t)
      = .node shape (String.ofList (Text.strip e.inner)) :: scan e.rest := by
  have hc : c ≠ '[' := (Shape.brackets_ne h).2.2.2
  rw [Written.node, Shape.opening_of_brackets h, Shape.closing_of_brackets h]
  simp only [List.append_assoc, List.cons_append, List.nil_append]
  rw [scan_cons, step_of_brackets h (head?_pad_append hc)]
  rfl

lemma readsAs_node_database {label : String} (h : Shape.database.Fits label) :
    ReadsAs (Written.node .database label) [.node .database label] := by
  intro t
  have hpad : ¬ [']', ']'] <:+: Shape.database.pad label.toList ∧
      (Shape.database.pad label.toList).getLast? ≠ some ']' := by
    have hfree := h.unclosed rfl
    rw [Shape.pad_database]
    split
    · refine ⟨fun hin => ?_, by simp⟩
      -- the space behind the label is no part of a `]]`
      rcases List.infix_concat_iff.1 hin with hsuf | hin
      · have := hsuf.getLast (by simp)
        simp at this
      · exact hfree hin
    · next hlast => exact ⟨hfree, hlast⟩
  have hread := readDatabase_append hpad.1 hpad.2 t
  have hstep : step '[' ('[' :: (Shape.database.pad label.toList ++ ']' :: ']' :: t))
      = .node .database ⟨Shape.database.pad label.toList, t, true⟩ 2 := by
    simp [step, hread]
  simp only [Written.node, Shape.opening, Shape.closing, List.append_assoc, List.cons_append,
    List.nil_append]
  rw [scan_cons, hstep]
  simp [Step.node, Shape.strip_pad _ h.stripped]

/-- A node whose label fits its shape is read back. -/
lemma readsAs_node {label : String} (h : shape.Fits label) :
    ReadsAs (Written.node shape label) [.node shape label] := by
  cases hb : shape.brackets? with
  | none =>
    obtain rfl := Shape.eq_database_of_brackets hb
    exact readsAs_node_database h
  | some b =>
    obtain ⟨o, c⟩ := b
    intro t
    have hbal := Shape.balanced_pad hb (h.balanced _ hb)
    rw [scan_node_of_brackets hb, readBalanced_of_balanced (Shape.brackets_ne hb).1 hbal]
    simp [Shape.strip_pad _ h.stripped]

/-! ### Labels that were read -/

lemma strip_of_step_eq_node {a : Char} {s : List Char} {label : String}
    (h : (step a s).token? = some (.node shape label)) :
    Text.strip label.toList = label.toList := by
  -- all four kinds of node come out of `Step.node`, which strips
  have hnode : ∀ (shape' : Shape) (e : Enclosed) (k : Nat),
      (Step.node shape' e k).token? = some (.node shape label) →
      Text.strip label.toList = label.toList := by
    intro shape' e k heq
    obtain ⟨-, rfl⟩ : shape' = shape ∧ String.ofList (Text.strip e.inner) = label := by
      simpa [Step.node] using heq
    rw [String.toList_ofList, Text.strip_strip]
  unfold step at h
  split at h
  case h_4 => exact hnode _ _ _ h
  case h_5 => exact hnode _ _ _ h
  case h_6 => exact hnode _ _ _ h
  case h_7 => exact hnode _ _ _ h
  all_goals simp [Step.skip] at h

/-- The labels that scanning finds are stripped. -/
lemma strip_of_mem_scan {s : List Char} {label : String} (h : .node shape label ∈ scan s) :
    Text.strip label.toList = label.toList := by
  induction s using scan.induct with
  | case1 => simp [scan_nil] at h
  | case2 a s next hnone ih =>
    rw [scan_cons, hnone] at h
    exact ih h
  | case3 a s next t hsome ih =>
    rw [scan_cons, hsome] at h
    rcases List.mem_cons.1 h with rfl | h
    · exact strip_of_step_eq_node hsome
    · exact ih h

end Token

/-- A label without the brackets of its shape fits it. -/
lemma Shape.fits_of_notMem {shape : Shape} {label : String}
    (hstrip : Text.strip label.toList = label.toList)
    (hclosing : ¬ shape.closing <:+: label.toList)
    (hopening : ∀ b ∈ shape.brackets?, b.1 ∉ label.toList) : shape.Fits label := by
  refine ⟨hstrip, fun b hb => ?_, ?_⟩
  · rw [closing_of_brackets hb, List.singleton_infix_iff] at hclosing
    exact Token.balanced_of_notMem (hopening b hb) hclosing
  · rintro rfl
    exact hclosing

namespace Token

/-! ### Labels that take in a bracket -/

/-- Every text that starts with `s` has a node whose label closes its own shape. -/
def Spoils (s : List Char) : Prop :=
  ∀ t, ∃ shape label, .node shape label ∈ scan (s ++ t) ∧ shape.closing <:+: label.toList

/-- A label that opens a bracket and closes none is not read back: it comes with the bracket that
was to close its node. -/
lemma spoils_node (h : shape.brackets? = some (o, c)) {label : String} (ho : o ∈ label.toList)
    (hc : c ∉ label.toList) : Spoils (Written.node shape label) := by
  intro t
  obtain ⟨hoc, hospace, hcspace, -⟩ := Shape.brackets_ne h
  have hmem := closing_mem_readBalanced hoc ((shape.mem_pad_iff hospace).2 ho)
    (fun hin => hc ((shape.mem_pad_iff hcspace).1 hin)) t
  rw [scan_node_of_brackets h label t]
  refine ⟨_, _, List.mem_cons_self, ?_⟩
  rw [Shape.closing_of_brackets h, List.singleton_infix_iff, String.toList_ofList]
  exact Text.mem_strip_of_not_isBlank hmem (Shape.isBlank_closing h)

/-- A text is decided if it is read in full or spoils what it stands in. -/
def Decided (s : List Char) : Prop := (∃ ts, ReadsAs s ts) ∨ Spoils s

variable {s t : List Char}

lemma Spoils.append (hs : Spoils s) (t : List Char) : Spoils (s ++ t) := by
  intro u
  rw [List.append_assoc]
  exact hs (t ++ u)

lemma Decided.spoils_append (hs : Decided s) (ht : Spoils t) : Spoils (s ++ t) := by
  rcases hs with ⟨ts, hs⟩ | hs
  · intro u
    obtain ⟨shape, label, hmem, hclosing⟩ := ht u
    refine ⟨shape, label, ?_, hclosing⟩
    rw [List.append_assoc, hs]
    exact List.mem_append_right _ hmem
  · exact hs.append t

lemma Decided.append (hs : Decided s) (ht : Decided t) : Decided (s ++ t) := by
  rcases ht with ⟨us, ht⟩ | ht
  · rcases hs with ⟨ts, hs⟩ | hs
    · exact .inl ⟨_, hs.append ht⟩
    · exact .inr (hs.append t)
  · exact .inr (hs.spoils_append ht)

lemma decided_flatMap {α : Type} {l : List α} {f : α → List Char} (h : ∀ a ∈ l, Decided (f a)) :
    Decided (l.flatMap f) := by
  induction l with
  | nil => exact .inl ⟨[], .nil⟩
  | cons a l ih =>
    rw [List.flatMap_cons]
    exact (h a (by simp)).append (ih fun b hb => h b (by simp [hb]))

/-- If all pieces are decided and one of them spoils, so does the whole. -/
lemma spoils_flatMap {α : Type} {l : List α} {f : α → List Char} (h : ∀ a ∈ l, Decided (f a))
    {b : α} (hb : b ∈ l) (hspoils : Spoils (f b)) : Spoils (l.flatMap f) := by
  induction l with
  | nil => exact absurd hb List.not_mem_nil
  | cons a l ih =>
    rw [List.flatMap_cons]
    rcases List.mem_cons.1 hb with rfl | hb
    · exact hspoils.append _
    -- what stands in front of the piece is read in full, or spoils the text before it can
    · exact (h a (by simp)).spoils_append (ih (fun a ha => h a (by simp [ha])) hb)

end Token
end Flowchart
