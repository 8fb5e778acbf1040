import Flowchart.Proofs.Token.Reading

/-!
# Labels that fit

A written node is read back as itself exactly if its label fits its shape (`ofText_node_iff`).  One
half is that such a node is read wherever it stands (`readsAs_node`).  For the other half, suppose
that a label is read back:

* Stripping loses only blanks, so what was read has as many closing brackets as the label.  If the
  reader had stopped too early or too late, it would have fewer or more of them; so it stopped at
  the bracket that was written to close the node, and what stands in front is balanced
  (`balances_readBalanced`, `balanced_of_scan_node`).
* A database is read up to the first `]]`, so what was read has none (`notInfix_readDatabase`), and
  neither has the label.
-/

namespace Flowchart

/-! ### Where a reader stops -/

namespace Token

section Brackets

variable {o c : Char}

/-- What is read of a text with `d` brackets open: up to the first closing bracket in front of
which all of them have been closed, or the whole text if there is no such bracket. -/
inductive Enclosed.Balances (o c : Char) (d : Nat) (s : List Char) : Enclosed → Prop
  | closed (inner rest : List Char) (split : s = inner ++ c :: rest)
      (count_le : ∀ p ∈ inner.inits, p.count c ≤ d + p.count o)
      (count_eq : inner.count c = d + inner.count o) : Balances o c d s ⟨inner, rest, true⟩
  | unclosed (count_le : ∀ p ∈ s.inits, p.count c ≤ d + p.count o) : Balances o c d s ⟨s, [], false⟩

/-- A reader that takes one more character, and has one bracket more open behind it, one less or as
many. -/
lemma Enclosed.Balances.cons {a : Char} {d d' : Nat} {s : List Char} {e : Enclosed}
    (h : e.Balances o c d' s) (hd : d' + [a].count c = d + [a].count o) :
    (e.cons a).Balances o c d (a :: s) := by
  have hsplit (p : List Char) (x : Char) : (a :: p).count x = [a].count x + p.count x := by
    rw [← List.singleton_append, List.count_append]
  have hinits {t : List Char} (ht : ∀ p ∈ t.inits, p.count c ≤ d' + p.count o) :
      ∀ p ∈ (a :: t).inits, p.count c ≤ d + p.count o := by
    intro p hp
    rw [List.inits_cons, List.mem_cons, List.mem_map] at hp
    rcases hp with rfl | ⟨q, hq, rfl⟩
    · simp
    · have := ht q hq
      rw [hsplit q c, hsplit q o]
      omega
  cases h with
  | closed inner rest split count_le count_eq =>
    refine .closed (a :: inner) rest (by rw [split]; rfl) (hinits count_le) ?_
    rw [hsplit inner c, hsplit inner o]
    omega
  | unclosed count_le => exact .unclosed (hinits count_le)

lemma balances_readBalanced (hoc : o ≠ c) (d : Nat) (s : List Char) :
    (readBalanced o c d s).Balances o c d s := by
  induction s generalizing d with
  | nil => exact .unclosed (by simp)
  | cons a s ih =>
    by_cases ho : a = o
    · subst ho
      rw [readBalanced_opening]
      exact (ih (d + 1)).cons (by simp [hoc])
    · by_cases hc : a = c
      · subst hc
        cases d with
        | zero =>
          rw [readBalanced_closing_zero hoc]
          exact .closed [] s rfl (by simp) rfl
        | succ d =>
          rw [readBalanced_closing_succ hoc]
          exact (ih d).cons (by simp [ho])
      · rw [readBalanced_other ho hc]
        exact (ih d).cons (by simp [ho, hc])

lemma Balanced.of_cons_of_ne {a : Char} {s : List Char} (ho : a ≠ o) (hc : a ≠ c)
    (h : Balanced o c (a :: s)) : Balanced o c s := by
  refine ⟨fun p hp => ?_, ?_⟩
  · have := h.count_le (a :: p) (by simpa [List.inits_cons] using hp)
    rwa [List.count_cons_of_ne hc, List.count_cons_of_ne ho] at this
  · have := h.count_eq
    rwa [List.count_cons_of_ne hc, List.count_cons_of_ne ho] at this

end Brackets

/-- What a database contains is a part of the text. -/
lemma inner_readDatabase_prefix (s : List Char) : (readDatabase s).inner <+: s := by
  fun_induction readDatabase s with
  | case1 => exact List.prefix_rfl
  | case2 s => exact List.nil_prefix
  | case3 a s _ ih => exact List.cons_prefix_cons.2 ⟨rfl, ih⟩

/-- What a database contains has no `]]`. -/
lemma notInfix_readDatabase (s : List Char) : ¬ [']', ']'] <:+: (readDatabase s).inner := by
  fun_induction readDatabase s with
  | case1 => simp
  | case2 s => simp
  | case3 a s hclose ih =>
    intro hin
    rcases List.infix_cons_iff.1 hin with hpre | hin
    · -- the two brackets would stand at the front of the text as well
      have hfront : [']', ']'] <+: a :: s :=
        hpre.trans (List.cons_prefix_cons.2 ⟨rfl, inner_readDatabase_prefix s⟩)
      obtain ⟨t, ht⟩ := hfront
      obtain ⟨rfl, rfl⟩ := List.cons.inj ht
      exact hclose t rfl rfl
    · exact ih hin

end Token

/-! ### Nodes that are read back -/

namespace Shape

variable {shape : Shape} {o c : Char}

lemma count_pad (shape : Shape) {a : Char} (ha : a ≠ ' ') (label : List Char) :
    (shape.pad label).count a = label.count a := by
  have hspace : [' '].count a = 0 := List.count_eq_zero.2 (by simpa using ha)
  cases shape with
  | rectangle =>
    rw [pad_rectangle]
    split
    · rw [← List.singleton_append, List.count_append, hspace, Nat.zero_add]
    · rfl
  | database =>
    rw [pad_database]
    split
    · rw [List.count_append, hspace, Nat.add_zero]
    · rfl
  | diamond => rfl
  | ellipse => rfl

lemma balanced_of_pad (h : shape.brackets? = some (o, c)) {label : List Char}
    (hl : Token.Balanced o c (shape.pad label)) : Token.Balanced o c label := by
  rcases brackets_cases h with ⟨rfl, rfl, rfl⟩ | ⟨rfl, rfl, rfl⟩ | ⟨rfl, rfl, rfl⟩
  · rw [pad_rectangle] at hl
    split at hl
    · exact hl.of_cons_of_ne (by decide) (by decide)
    · exact hl
  · exact hl
  · exact hl

end Shape

namespace Token

variable {shape : Shape} {o c : Char} {label : String}

lemma strip_of_node_eq {inner : List Char}
    (h : Token.node shape label = .node shape (String.ofList (Text.strip inner))) :
    Text.strip inner = label.toList := by
  rw [Token.node.injEq] at h
  rw [h.2, String.toList_ofList]

/-- A label that is read back is balanced in the brackets of its shape. -/
lemma balanced_of_scan_node (h : shape.brackets? = some (o, c))
    (hscan : scan (Written.node shape label) = [.node shape label]) :
    Balanced o c label.toList := by
  obtain ⟨hoc, -, hspace, -⟩ := Shape.brackets_ne h
  have hread := scan_node_of_brackets h label []
  rw [List.append_nil, hscan] at hread
  have hstrip := strip_of_node_eq (List.cons.inj hread).1
  have hbalances := balances_readBalanced hoc 0 (shape.pad label.toList ++ [c])
  -- as many closing brackets were read as the label has
  have hcount : (readBalanced o c 0 (shape.pad label.toList ++ [c])).inner.count c
      = (shape.pad label.toList).count c :=
    calc _ = (Text.strip _).count c := (Text.count_strip (Shape.isBlank_closing h) _).symm
      _ = label.toList.count c := congrArg (List.count c) hstrip
      _ = (shape.pad label.toList).count c := (shape.count_pad hspace _).symm
  generalize readBalanced o c 0 (shape.pad label.toList ++ [c]) = e at hcount hbalances
  cases hbalances with
  | unclosed count_le => simp at hcount
  | closed inner rest split count_le count_eq =>
    have hnone : rest.count c = 0 := by
      have hcount : inner.count c = _ := hcount
      have := congrArg (List.count c) split
      simp only [List.count_append, List.count_cons_self, List.count_nil] at this
      omega
    -- a text behind the bracket that was taken would end with the one that was written
    obtain rfl : rest = [] := by
      by_contra hne
      have hlast : rest.getLast? = some c := by
        rw [← List.getLast?_append_of_ne_nil (inner ++ [c]) hne, List.append_assoc,
          List.singleton_append, ← split, List.getLast?_concat]
      exact List.count_eq_zero.1 hnone (List.mem_of_getLast? hlast)
    have hpad : inner = shape.pad label.toList := (List.append_cancel_right split).symm
    rw [hpad] at count_le count_eq
    exact Shape.balanced_of_pad h ⟨by simpa using count_le, by omega⟩

/-- A database label that is read back has no `]]`. -/
lemma notInfix_of_scan_node
    (hscan : scan (Written.node .database label) = [.node .database label]) :
    ¬ [']', ']'] <:+: label.toList := by
  have hread : scan (Written.node .database label)
      = .node .database (String.ofList (Text.strip
          (readDatabase (Shape.database.pad label.toList ++ [']', ']'])).inner)) ::
        scan (readDatabase (Shape.database.pad label.toList ++ [']', ']'])).rest := scan_cons _ _
  rw [hscan] at hread
  have hstrip := strip_of_node_eq (List.cons.inj hread).1
  rw [← hstrip]
  exact fun hin => notInfix_readDatabase _ (hin.trans (Text.strip_infix _))

/-- A node is read back from its text, as the only token and with the same label, exactly if its
label fits its shape. -/
theorem ofText_node_iff (shape : Shape) (label : String) :
    ofText (String.ofList (Written.node shape label)) = [.node shape label] ↔
      shape.Fits label := by
  rw [ofText, String.toList_ofList]
  constructor
  · intro hscan
    refine ⟨strip_of_mem_scan (hscan ▸ List.mem_cons_self), ?_, ?_⟩
    · exact fun b hb => balanced_of_scan_node hb hscan
    · rintro rfl
      exact notInfix_of_scan_node hscan
  · exact fun h => (readsAs_node h).scan_eq

end Token
end Flowchart
