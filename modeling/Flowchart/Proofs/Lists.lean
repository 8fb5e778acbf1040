import Mathlib

/-!
# Lists

What the proofs need about lists in general, gathered here.

* `List.eraseDups` keeps the first occurrence of each member.  A member at the end of a list is kept
  if it is not in the list before (`eraseDups_concat`), and the rest follows by induction from the
  right.
* `takeWhile` and `dropWhile` see a longer list alike if the run ends before (`span_append`).
* In a list without repetitions, `[x, y].Sublist l` says that `x` comes before `y`
  (`pair_sublist_trans`, `pair_sublist_iff_idxOf`).
* What is found or filtered by a key does not depend on how the members are written
  (`find?_map_of`, `filter_map_of`), and keys without repetitions split a list up
  (`flatMap_filter_perm`).
-/

namespace Flowchart

variable {α β : Type}

/-! ### First occurrences -/

section EraseDups

variable [BEq α] [LawfulBEq α]

lemma eraseDups_concat (l : List α) (a : α) :
    (l ++ [a]).eraseDups = if a ∈ l then l.eraseDups else l.eraseDups ++ [a] := by
  rw [List.eraseDups_append]
  by_cases ha : a ∈ l <;> simp [List.removeAll, List.eraseDups_cons, ha]

lemma nodup_eraseDups (l : List α) : l.eraseDups.Nodup := by
  induction l using List.reverseRecOn with
  | nil => exact List.nodup_nil
  | append_singleton l a ih =>
    rw [eraseDups_concat]
    split
    · exact ih
    · next ha =>
      rw [← List.concat_eq_append]
      exact ih.concat (mt List.mem_eraseDups.1 ha)

lemma eraseDups_of_nodup {l : List α} (h : l.Nodup) : l.eraseDups = l := by
  induction l using List.reverseRecOn with
  | nil => rfl
  | append_singleton l a ih =>
    rw [← List.concat_eq_append, List.nodup_concat] at h
    rw [eraseDups_concat, if_neg h.1, ih h.2]

omit [LawfulBEq α] in
lemma eraseDups_eq_nil_iff {l : List α} : l.eraseDups = [] ↔ l = [] := by
  cases l <;> simp [List.eraseDups_cons]

lemma eraseDups_filter (p : α → Bool) (l : List α) :
    (l.filter p).eraseDups = l.eraseDups.filter p := by
  induction l using List.reverseRecOn with
  | nil => rfl
  | append_singleton l a ih =>
    rw [List.filter_append, eraseDups_concat]
    by_cases hp : p a = true
    · rw [List.filter_singleton, hp, cond_true, eraseDups_concat, ih]
      by_cases ha : a ∈ l <;> simp [ha, hp]
    · rw [List.filter_singleton, Bool.eq_false_of_not_eq_true hp, cond_false, List.append_nil, ih]
      split <;> simp [hp]

/-- The first occurrences in two lists: those in the first one, and then the new ones in the
second. -/
lemma eraseDups_append_filter (l l' : List α) :
    (l ++ l').eraseDups = l.eraseDups ++ l'.eraseDups.filter (· ∉ l.eraseDups) := by
  rw [List.eraseDups_append, List.removeAll, eraseDups_filter]
  refine congrArg _ (List.filter_congr fun a _ => ?_)
  simp

variable [BEq β] [LawfulBEq β]

/-- Repetitions that are left out before make no difference. -/
lemma eraseDups_map_eraseDups (f : α → β) (l : List α) :
    (l.eraseDups.map f).eraseDups = (l.map f).eraseDups := by
  induction l using List.reverseRecOn with
  | nil => rfl
  | append_singleton l a ih =>
    rw [eraseDups_concat, List.map_append, List.map_singleton, eraseDups_concat]
    by_cases ha : a ∈ l
    · rw [if_pos ha, if_pos (List.mem_map_of_mem ha), ih]
    · rw [if_neg ha, List.map_append, List.map_singleton, eraseDups_concat, ih]
      have hmem : f a ∈ l.eraseDups.map f ↔ f a ∈ l.map f := by simp
      simp only [hmem]

lemma eraseDups_map {f : α → β} (hf : Function.Injective f) (l : List α) :
    (l.map f).eraseDups = l.eraseDups.map f := by
  rw [← eraseDups_map_eraseDups, eraseDups_of_nodup ((nodup_eraseDups l).map hf)]

end EraseDups

/-! ### Runs -/

section Runs

variable {p : α → Bool} {a : α} {s : List α}

/-- What follows a run of members does not change it if the run ends before. -/
lemma span_append {l u : List α} (h : l.dropWhile p ≠ [] ∨ ∀ a ∈ u.head?, p a = false) :
    (l ++ u).takeWhile p = l.takeWhile p ∧ (l ++ u).dropWhile p = l.dropWhile p ++ u := by
  induction l with
  | nil =>
    rcases h with h | h
    · exact absurd rfl h
    · cases u with
      | nil => exact ⟨rfl, rfl⟩
      | cons a u => simp [h a rfl]
  | cons a l ih =>
    by_cases ha : p a = true
    · rw [List.dropWhile_cons_of_pos ha] at h
      simpa [ha] using ih h
    · simp [ha]

lemma dropWhile_eq_self (h : ∀ a ∈ s.head?, p a = false) : s.dropWhile p = s :=
  (span_append (l := []) (.inr h)).2

lemma eq_false_of_mem_head?_dropWhile (h : a ∈ (s.dropWhile p).head?) : p a = false := by
  have hnot := List.head?_dropWhile_not p s
  rw [Option.mem_def.1 h] at hnot
  simpa using hnot

lemma rtakeWhile_cons (p : α → Bool) (a : α) (s : List α) :
    (a :: s).rtakeWhile p = if ∀ b ∈ a :: s, p b = true then a :: s else s.rtakeWhile p := by
  split
  · next hall => exact List.rtakeWhile_eq_self_iff.2 hall
  · next hall =>
    have hback : s.reverse.dropWhile p ≠ [] ∨ ∀ b ∈ [a].head?, p b = false := by
      by_contra! hback
      refine hall (List.forall_mem_cons.2 ⟨by simpa using hback.2, ?_⟩)
      simpa [List.dropWhile_eq_nil_iff] using hback.1
    rw [List.rtakeWhile, List.reverse_cons, (span_append hback).1, List.rtakeWhile]

end Runs

/-! ### Members in order -/

lemma pair_sublist_cons_iff {x y a : α} {l : List α} :
    [x, y].Sublist (a :: l) ↔ [x, y].Sublist l ∨ x = a ∧ y ∈ l := by
  rw [List.sublist_cons_iff]
  refine or_congr_right ⟨?_, ?_⟩
  · rintro ⟨r, hr, hsub⟩
    obtain ⟨rfl, rfl⟩ := List.cons.inj hr
    exact ⟨rfl, List.singleton_sublist.1 hsub⟩
  · rintro ⟨rfl, hy⟩
    exact ⟨[y], rfl, List.singleton_sublist.2 hy⟩

/-- In a list without repetitions, what comes after what comes after a member comes after it. -/
lemma pair_sublist_trans {x y z : α} {l : List α} (hl : l.Nodup) (hxy : [x, y].Sublist l)
    (hyz : [y, z].Sublist l) : [x, z].Sublist l := by
  induction l with
  | nil => simp at hxy
  | cons a l ih =>
    obtain ⟨ha, hl⟩ := List.nodup_cons.1 hl
    rcases pair_sublist_cons_iff.1 hyz with hyz' | ⟨rfl, -⟩
    · rcases pair_sublist_cons_iff.1 hxy with hxy' | ⟨rfl, -⟩
      · exact (ih hl hxy' hyz').cons a
      · exact pair_sublist_cons_iff.2 (.inr ⟨rfl, hyz'.subset (List.mem_pair.2 (.inr rfl))⟩)
    · -- the list starts with `y`, so nothing comes before it
      rcases pair_sublist_cons_iff.1 hxy with hxy' | ⟨-, hy⟩
      · exact absurd (hxy'.subset (List.mem_pair.2 (.inr rfl))) ha
      · exact absurd hy ha

/-- In a list without repetitions, one member stands behind another if its index is larger. -/
lemma pair_sublist_iff_idxOf [BEq α] [LawfulBEq α] {x y : α} {l : List α} (hl : l.Nodup)
    (hy : y ∈ l) : [x, y].Sublist l ↔ l.idxOf x < l.idxOf y := by
  induction l with
  | nil => exact absurd hy List.not_mem_nil
  | cons a l ih =>
    obtain ⟨ha, hl⟩ := List.nodup_cons.1 hl
    by_cases hya : y = a
    · -- nothing stands before the first member
      subst hya
      rw [List.idxOf_cons_self]
      refine ⟨fun hsub => absurd ?_ ha, fun hlt => absurd hlt (Nat.not_lt_zero _)⟩
      rcases pair_sublist_cons_iff.1 hsub with hsub | ⟨-, hmem⟩
      · exact hsub.subset (by simp)
      · exact hmem
    · have hmem : y ∈ l := (List.mem_cons.1 hy).resolve_left hya
      rw [List.idxOf_cons_ne l (Ne.symm hya)]
      by_cases hxa : x = a
      · subst hxa
        rw [List.idxOf_cons_self]
        exact ⟨fun _ => Nat.succ_pos _, fun _ => pair_sublist_cons_iff.2 (.inr ⟨rfl, hmem⟩)⟩
      · rw [List.idxOf_cons_ne l (Ne.symm hxa), Nat.succ_lt_succ_iff, ← ih hl hmem,
          pair_sublist_cons_iff]
        exact or_iff_left fun h => hxa h.1

lemma dropLast_append_prefix {l m m' : List α} (h : m.dropLast <+: m') :
    (l ++ m).dropLast <+: l ++ m' := by
  cases m with
  | nil =>
    rw [List.append_nil]
    have hl : l.dropLast <+: l := List.dropLast_prefix l
    exact hl.trans (List.prefix_append l m')
  | cons t m =>
    rw [List.dropLast_append_of_ne_nil (by simp)]
    exact List.prefix_append_right_inj l |>.2 h

lemma dropLast_prefix_of_length_le {l l' : List α} (h : l.length ≤ 1) : l.dropLast <+: l' := by
  have hnil : l.dropLast = [] := List.length_eq_zero_iff.1 (by rw [List.length_dropLast]; omega)
  rw [hnil]
  exact List.nil_prefix

lemma dropLast_prefix_of_append {l new : List α} (h : new.length ≤ 1) :
    (l ++ new).dropLast <+: l := by
  have hnew : new.dropLast <+: [] := dropLast_prefix_of_length_le h
  simpa using dropLast_append_prefix (l := l) hnew

/-! ### Members by a key -/

lemma filter_map_of {f : α → β} {p : β → Bool} {q : α → Bool} (h : ∀ a, p (f a) = q a)
    (l : List α) : (l.map f).filter p = (l.filter q).map f := by
  rw [List.filter_map]
  exact congrArg _ (List.filter_congr fun a _ => h a)

lemma find?_map_of {f : α → β} {p : β → Bool} {q : α → Bool} (h : ∀ a, p (f a) = q a)
    (l : List α) : (l.map f).find? p = (l.find? q).map f := by
  rw [List.find?_map]
  exact congrArg _ (List.find?_congr fun a _ => h a)

/-- Sorting the members of a list by a key loses and repeats none. -/
lemma flatMap_filter_perm [DecidableEq α] {f : β → α} {keys : List α} {l : List β}
    (hkeys : keys.Nodup) (h : ∀ b ∈ l, f b ∈ keys) :
    (keys.flatMap fun k => l.filter fun b => f b = k).Perm l := by
  induction keys generalizing l with
  | nil =>
    have hnil : l = [] := List.eq_nil_iff_forall_not_mem.2 fun b hb => by simpa using h b hb
    simp [hnil]
  | cons k keys ih =>
    obtain ⟨hk, hkeys⟩ := List.nodup_cons.1 hkeys
    have hrest : ∀ b ∈ l.filter (fun b => !decide (f b = k)), f b ∈ keys := by
      intro b hb
      obtain ⟨hb, hne⟩ := List.mem_filter.1 hb
      exact (List.mem_cons.1 (h b hb)).resolve_left (by simpa using hne)
    -- the other keys find the same members among those that do not have the first key
    have hsame : (keys.flatMap fun k' => l.filter fun b => f b = k')
        = keys.flatMap fun k' =>
          (l.filter fun b => !decide (f b = k)).filter fun b => f b = k' := by
      refine List.flatMap_congr fun k' hk' => ?_
      rw [List.filter_filter]
      refine List.filter_congr fun b _ => ?_
      have hne : k' ≠ k := by
        rintro rfl
        exact hk hk'
      by_cases hb : f b = k' <;> simp [hb, hne]
    rw [List.flatMap_cons, hsame]
    exact ((ih hkeys hrest).append_left _).trans (List.filter_append_perm _ l)

/-- Two lists of equal length without repetitions differ by a renaming of all there is. -/
lemma exists_perm_map [DecidableEq α] {l l' : List α} (hl : l.Nodup) (hl' : l'.Nodup)
    (hlength : l.length = l'.length) : ∃ r : Equiv.Perm α, l' = l.map r := by
  induction l generalizing l' with
  | nil => exact ⟨Equiv.refl α, List.eq_nil_of_length_eq_zero hlength.symm⟩
  | cons a l ih =>
    cases l' with
    | nil => cases hlength
    | cons b l' =>
      obtain ⟨ha, hl⟩ := List.nodup_cons.1 hl
      obtain ⟨hb, hl'⟩ := List.nodup_cons.1 hl'
      obtain ⟨r, rfl⟩ := ih hl hl' (Nat.succ.inj hlength)
      -- what stands for `a` so far changes places with `b`, and no other member is concerned
      refine ⟨r.trans (Equiv.swap (r a) b), ?_⟩
      have hrest : ∀ x ∈ l, r x = (r.trans (Equiv.swap (r a) b)) x := by
        intro x hx
        have hne : r x ≠ r a := by
          intro heq
          exact ha (r.injective heq ▸ hx)
        have hne' : r x ≠ b := by
          rintro rfl
          exact hb (List.mem_map_of_mem hx)
        rw [Equiv.trans_apply, Equiv.swap_apply_of_ne_of_ne hne hne']
      rw [List.map_cons, Equiv.trans_apply, Equiv.swap_apply_left, List.map_congr_left hrest]

/-! ### Lookup -/

section Lookup

variable {κ : Type} [BEq κ] [LawfulBEq κ]

lemma lookup_cons_eq [DecidableEq κ] (k k' : κ) (a : α) (es : List (κ × α)) :
    ((k, a) :: es).lookup k' = if k' = k then some a else es.lookup k' := by
  by_cases h : k' = k
  · simp [h]
  · simp [List.lookup_cons, h, beq_eq_false_iff_ne.2 h]

lemma lookup_eq_none_iff {es : List (κ × α)} {k : κ} :
    es.lookup k = none ↔ k ∉ es.map Prod.fst := by
  rw [List.lookup_eq_none_iff]
  simp only [bne_iff_ne, List.mem_map, not_exists, not_and]
  exact forall₂_congr fun _ _ => ne_comm

/-- If neither the keys nor the values repeat, a value is found that stands at some place exactly if
its key stands there. -/
lemma lookup_zip_iff {as : List κ} {bs : List α} (has : as.Nodup) (hbs : bs.Nodup) {a : κ} {b : α}
    (hlookup : (as.zip bs).lookup a = some b) {j : Nat} {a' : κ} {b' : α} (ha : as[j]? = some a')
    (hb : bs[j]? = some b') : b = b' ↔ a = a' := by
  obtain ⟨i, hai, hbi⟩ : ∃ i, as[i]? = some a ∧ bs[i]? = some b := by
    obtain ⟨before, after, heq, -⟩ := List.lookup_eq_some_iff.1 hlookup
    have hmem : (a, b) ∈ as.zip bs := by simp [heq]
    obtain ⟨i, hi⟩ := List.mem_iff_getElem?.1 hmem
    exact ⟨i, List.getElem?_zip_eq_some.1 hi⟩
  have hlength {γ : Type} {l : List γ} {c : γ} (h : l[i]? = some c) : i < l.length :=
    (List.getElem?_eq_some_iff.1 h).1
  constructor
  · rintro rfl
    obtain rfl : i = j := (List.getElem?_inj (hlength hbi) hbs).1 (hbi.trans hb.symm)
    simpa [hai] using ha
  · rintro rfl
    obtain rfl : i = j := (List.getElem?_inj (hlength hai) has).1 (hai.trans ha.symm)
    simpa [hbi] using hb

end Lookup

/-! ### Lists side by side -/

lemma forall₂_of_mapM {ε : Type} {f : α → Except ε β} {as : List α} {bs : List β}
    (h : as.mapM f = .ok bs) : List.Forall₂ (fun a b => f a = .ok b) as bs := by
  induction as generalizing bs with
  | nil =>
    cases h
    exact .nil
  | cons a as ih =>
    rw [List.mapM_cons] at h
    cases ha : f a with
    | error e => rw [ha] at h; cases h
    | ok b =>
      cases has : as.mapM f with
      | error e => rw [ha, has] at h; cases h
      | ok bs' =>
        rw [ha, has] at h
        cases h
        exact .cons ha (ih has)

lemma exists_of_mem_forall₂ {R : α → β → Prop} {as : List α} {bs : List β}
    (h : List.Forall₂ R as bs) {b : β} (hb : b ∈ bs) : ∃ a ∈ as, R a b := by
  induction h with
  | nil => cases hb
  | @cons a b' as bs hR _ ih =>
    rcases List.mem_cons.1 hb with rfl | hb
    · exact ⟨a, List.mem_cons_self, hR⟩
    · obtain ⟨a', ha', hR'⟩ := ih hb
      exact ⟨a', List.mem_cons_of_mem a ha', hR'⟩

lemma forall₂_getLast? {R : α → β → Prop} {as : List α} {bs : List β}
    (h : List.Forall₂ R as bs) {b : β} (hb : bs.getLast? = some b) :
    ∃ a, as.getLast? = some a ∧ R a b := by
  induction h with
  | nil => cases hb
  | @cons a b' as bs hab htail ih =>
    cases htail with
    | nil =>
      obtain rfl : b' = b := by simpa using hb
      exact ⟨a, rfl, hab⟩
    | cons hab' htail =>
      rw [List.getLast?_cons_cons] at hb ⊢
      exact ih hb

end Flowchart
