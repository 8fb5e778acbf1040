import Flowchart.Proofs.Token.Continued
import Flowchart.Proofs.Token.Fitting

/-!
# What scanning finds

Not every list of tokens comes from a text.  What can be said of a token that was found depends on
the tokens behind it (`Found`).

* Only the last token can be a node that was not closed.  So every other node is read back when it
  is written, and so is a database wherever it stands.  A last node of another shape is read back
  exactly if it opens as many brackets of its shape as it closes.
* A directive lasts until its line ends, so that a line end or nothing comes behind it.  Its name
  has letters and digits only, its value no line end and no comment, and it is read back when it is
  written.

`found_step` says this of the token of one step, where the tokens behind it are those of the text
that is left, and `found_scan` of every token of a text.
-/

namespace Flowchart
namespace Token

/-! ### Found tokens -/

/-- A node that was found with the tokens `later` behind it. -/
structure NodeFound (shape : Shape) (label : String) (later : List Token) : Prop where
  /-- With a token behind it, or as a database, it is read back. -/
  again : later ≠ [] ∨ shape = .database →
    ofText (String.ofList (Written.node shape label)) = [.node shape label]
  /-- As the last token it is read back exactly if it has as many opening as closing brackets. -/
  last : later = [] → ∀ b ∈ shape.brackets?,
    (ofText (String.ofList (Written.node shape label)) = [.node shape label] ↔
      label.toList.count b.1 = label.toList.count b.2)

/-- A directive that was found with the tokens `later` behind it. -/
structure DirectiveFound (text : String) (later : List Token) : Prop where
  /-- Its line ends behind it. -/
  ends : ∀ t ∈ later.head?, t = .newline
  /-- Its name has ASCII letters and digits only. -/
  name : ∀ c ∈ (directiveName text).toList, c.isAlphanum = true
  stripped : Text.strip (directiveValue text).toList = (directiveValue text).toList
  noNewline : '\n' ∉ (directiveValue text).toList
  noComment : '#' ∉ (directiveValue text).toList
  /-- It is read back from its text behind its mark. -/
  again : ofText ("@" ++ text) = [.directive text]

/-- What can be said of a token that was found with the tokens `later` behind it. -/
def Found (later : List Token) : Token → Prop
  | node shape text => NodeFound shape text later
  | directive text => DirectiveFound text later
  | _ => True

/-! ### Nodes -/

variable {shape : Shape} {o c : Char}

lemma ofText_node {label : String} (h : shape.Fits label) :
    ofText (String.ofList (Written.node shape label)) = [.node shape label] := by
  rw [ofText, String.toList_ofList]
  exact (readsAs_node h).scan_eq

/-- A text that closes no bracket before it is opened is still such a text when it is stripped,
since brackets are not blank. -/
lemma count_le_strip (ho : Text.isBlank o = false) (hc : Text.isBlank c = false) {s : List Char}
    (h : ∀ p ∈ s.inits, p.count c ≤ p.count o) :
    ∀ p ∈ (Text.strip s).inits, p.count c ≤ p.count o := by
  intro p hp
  obtain ⟨front, back, hs, hfront, -⟩ := Text.exists_eq_strip s
  obtain ⟨q, hq⟩ := (List.mem_inits _ _).1 hp
  have hle := h (front ++ p) ((List.mem_inits _ _).2 ⟨q ++ back, by rw [hs, ← hq]; simp⟩)
  simpa only [List.count_append, Text.count_eq_zero_of_isBlank ho hfront,
    Text.count_eq_zero_of_isBlank hc hfront, Nat.zero_add] using hle

lemma fits_strip (h : shape.brackets? = some (o, c)) {s : List Char}
    (hs : Balanced o c (Text.strip s)) : shape.Fits (String.ofList (Text.strip s)) := by
  refine ⟨by rw [String.toList_ofList, Text.strip_strip], ?_, ?_⟩
  · rw [h, String.toList_ofList]
    rintro _ ⟨⟩
    exact hs
  · rintro rfl
    cases h

/-- What is read between brackets closes none before it is opened, and is balanced if anything is
left behind it. -/
lemma balanced_readBalanced (hoc : o ≠ c) (s : List Char) :
    (∀ p ∈ (readBalanced o c 0 s).inner.inits, p.count c ≤ p.count o) ∧
      ((readBalanced o c 0 s).rest ≠ [] → Balanced o c (readBalanced o c 0 s).inner) := by
  have hbalances := balances_readBalanced hoc 0 s
  generalize readBalanced o c 0 s = e at hbalances
  cases hbalances with
  | closed inner rest split count_le count_eq =>
    simp only [Nat.zero_add] at count_le count_eq
    exact ⟨count_le, fun _ => ⟨count_le, count_eq.symm⟩⟩
  | unclosed count_le =>
    simp only [Nat.zero_add] at count_le
    exact ⟨count_le, fun hrest => absurd rfl hrest⟩

lemma nodeFound_brackets (h : shape.brackets? = some (o, c)) (s : List Char) :
    NodeFound shape (String.ofList (Text.strip (readBalanced o c 0 s).inner))
      (scan (readBalanced o c 0 s).rest) := by
  have ho := Shape.isBlank_opening h
  have hc := Shape.isBlank_closing h
  obtain ⟨hle, hclosed⟩ := balanced_readBalanced (Shape.brackets_ne h).1 s
  generalize readBalanced o c 0 s = e at hle hclosed ⊢
  -- the label fits its shape as soon as it has as many brackets of either kind
  have hagain (heq : (Text.strip e.inner).count o = (Text.strip e.inner).count c) :
      ofText (String.ofList (Written.node shape (String.ofList (Text.strip e.inner))))
        = [.node shape (String.ofList (Text.strip e.inner))] :=
    ofText_node (fits_strip h ⟨count_le_strip ho hc hle, heq⟩)
  refine ⟨fun hlater => hagain ?_, fun _ b hb => ?_⟩
  · have hrest : e.rest ≠ [] := by
      intro hnil
      rcases hlater with hlater | rfl
      · exact hlater (by rw [hnil, scan_nil])
      · cases h
    rw [Text.count_strip ho, Text.count_strip hc, (hclosed hrest).count_eq]
  · obtain rfl : (o, c) = b := by simpa [h] using hb
    rw [String.toList_ofList]
    refine ⟨fun hread => ?_, hagain⟩
    rw [ofText, String.toList_ofList] at hread
    simpa using (balanced_of_scan_node h hread).count_eq

lemma nodeFound_database (s : List Char) (later : List Token) :
    NodeFound .database (String.ofList (Text.strip (readDatabase s).inner)) later := by
  have hfits : Shape.database.Fits (String.ofList (Text.strip (readDatabase s).inner)) := by
    refine ⟨by rw [String.toList_ofList, Text.strip_strip], by simp [Shape.brackets?], fun _ => ?_⟩
    rw [String.toList_ofList]
    exact fun hin => notInfix_readDatabase s (hin.trans (Text.strip_infix _))
  exact ⟨fun _ => ofText_node hfits, fun _ b hb => by simp [Shape.brackets?] at hb⟩

/-! ### Directives -/

lemma isNameChar_eq (c : Char) : isNameChar c = c.isAlphanum := by
  simp [isNameChar, Char.isAlphanum, Char.isAlpha, Char.isUpper, Char.isLower, Char.isDigit,
    Char.le_def, Bool.or_comm, Bool.or_assoc]

lemma head?_scan_of_newline {s : List Char} (h : ∀ a ∈ s.head?, a = '\n') :
    ∀ t ∈ (scan s).head?, t = .newline := by
  cases s with
  | nil => simp [scan_nil]
  | cons a s =>
    obtain rfl := h a rfl
    rw [scan_cons]
    rintro t ⟨⟩
    rfl

/-- Where the value of a directive ends, its line does, perhaps after a comment. -/
lemma head?_scan_of_not_isValueChar {s : List Char} (h : ∀ a ∈ s.head?, isValueChar a = false) :
    ∀ t ∈ (scan s).head?, t = .newline := by
  by_cases hcomment : s.head? = some '#'
  · obtain ⟨s, rfl⟩ := List.head?_eq_some_iff.1 hcomment
    rw [scan_cons]
    refine head?_scan_of_newline fun a ha => ?_
    simpa using eq_false_of_mem_head?_dropWhile ha
  · refine head?_scan_of_newline fun a ha => ?_
    have hne : a ≠ '#' := by
      rintro rfl
      exact hcomment ha
    simpa [isValueChar, hne] using h a ha

/-- A directive is read back if nothing is left behind it. -/
lemma scan_directive {name value : List Char} (hname : ∀ c ∈ name, isNameChar c = true)
    (hvalue : ∀ c ∈ value, isValueChar c = true) (hstrip : Text.strip value = value) :
    scan ('@' :: (name ++ ' ' :: value)) = [.directive (String.ofList (name ++ ' ' :: value))] := by
  have hread : readDirective (name ++ ' ' :: value) = (name ++ ' ' :: value, []) := by
    simpa using readDirective_written (r := []) hname hvalue hstrip (by simp)
  rw [scan_cons]
  simp [step, hread, scan_nil]

lemma directiveFound_readDirective (s : List Char) :
    DirectiveFound (String.ofList (readDirective s).1) (scan (readDirective s).2) := by
  have hname : ∀ a ∈ s.takeWhile isNameChar, isNameChar a = true := fun a => List.mem_takeWhile_imp
  have hvalue : ∀ a ∈ Text.strip ((s.dropWhile isNameChar).takeWhile isValueChar),
      isValueChar a = true :=
    fun a ha => List.mem_takeWhile_imp ((Text.strip_infix _).subset ha)
  have hspace : ' ' ∉ s.takeWhile isNameChar := fun hmem => absurd (hname _ hmem) (by decide)
  have hends : ∀ t ∈ (scan (readDirective s).2).head?, t = .newline :=
    head?_scan_of_not_isValueChar fun a => eq_false_of_mem_head?_dropWhile
  have hstrip := Text.strip_strip ((s.dropWhile isNameChar).takeWhile isValueChar)
  have htext : (readDirective s).1 = s.takeWhile isNameChar ++
      ' ' :: Text.strip ((s.dropWhile isNameChar).takeWhile isValueChar) := rfl
  rw [htext]
  generalize s.takeWhile isNameChar = name, Text.strip _ = value at *
  refine ⟨hends, ?_, ?_, ?_, ?_, ?_⟩
  · rw [directiveName_ofList hspace, String.toList_ofList]
    exact fun a ha => isNameChar_eq a ▸ hname a ha
  · rw [directiveValue_ofList hspace, String.toList_ofList]
    exact hstrip
  · rw [directiveValue_ofList hspace, String.toList_ofList]
    exact fun hmem => absurd (hvalue _ hmem) (by decide)
  · rw [directiveValue_ofList hspace, String.toList_ofList]
    exact fun hmem => absurd (hvalue _ hmem) (by decide)
  · have hmark : ("@" ++ String.ofList (name ++ ' ' :: value)).toList
        = '@' :: (name ++ ' ' :: value) := by
      simp
    rw [ofText, hmark]
    exact scan_directive hname hvalue hstrip

/-! ### Scanning -/

lemma found_step (a : Char) (s : List Char) :
    ∀ t ∈ (step a s).token?, t.Found (scan (step a s).rest) := by
  unfold step
  split <;> rintro t ⟨⟩
  · trivial
  · exact directiveFound_readDirective _
  · exact nodeFound_database _ _
  · exact nodeFound_brackets (show Shape.rectangle.brackets? = _ from rfl) _
  · exact nodeFound_brackets (show Shape.diamond.brackets? = _ from rfl) _
  · exact nodeFound_brackets (show Shape.ellipse.brackets? = _ from rfl) _
  · trivial
  · trivial
  · trivial

lemma found_scan {s : List Char} {front later : List Token} {t : Token}
    (h : scan s = front ++ t :: later) : t.Found later := by
  induction s using step_induction generalizing front with
  | nil => simp [scan_nil] at h
  | cons a s ih =>
    rw [scan_cons] at h
    cases htoken : (step a s).token? with
    | none =>
      rw [htoken] at h
      exact ih h
    | some first =>
      rw [htoken, Option.toList_some, List.singleton_append] at h
      cases front with
      | nil =>
        obtain ⟨rfl, rfl⟩ := List.cons.inj h
        exact found_step a s first htoken
      | cons _ front => exact ih (List.cons.inj h).2

/-- Every node that scanning finds is read back when it is written, apart from a last one whose
brackets are not equal in number, and every directive ends its line and is read back as well. -/
theorem found_of_ofText (text : String) :
    (∀ front shape label later, ofText text = front ++ .node shape label :: later →
        NodeFound shape label later) ∧
      ∀ front directive later, ofText text = front ++ .directive directive :: later →
        DirectiveFound directive later :=
  ⟨fun _ _ _ _ h => found_scan h, fun _ _ _ h => found_scan h⟩

theorem found_of_ofText_unclosed :
    let text := "[ [a] ] @dir b c#d\n(e (f)"
    let directive : Token := .directive "dir b c"
    ofText text = [.node .rectangle "[a]", directive, .newline, .node .ellipse "e (f)"] ∧
      ofText "[ [a]]" = [.node .rectangle "[a]"] ∧ ofText "@dir b c" = [directive] ∧
      ofText "(e (f))" = [.node .ellipse "e (f)"] := by
  intro text directive
  have htext : ofText text
      = [.node .rectangle "[a]", directive, .newline, .node .ellipse "e (f)"] := by
    decide +kernel
  obtain ⟨hnode, hdirective⟩ := found_of_ofText text
  have hlast := hnode [.node .rectangle "[a]", directive, .newline] _ _ [] htext
  exact ⟨htext, (hnode [] _ _ _ htext).again (.inl (by simp)),
    (hdirective [.node .rectangle "[a]"] _ _ htext).again,
    (hlast.last rfl ('(', ')') rfl).2 (by decide)⟩

end Token
end Flowchart
