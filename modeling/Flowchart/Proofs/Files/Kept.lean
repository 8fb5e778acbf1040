import Flowchart.Files
import Flowchart.Proofs.Lists

/-!
# Files are kept

What was written under a path is read from it later, whatever is written to other places in between
(`read_of_write`).  Other paths may lead to the same place, so that what counts is where a write
goes, not under which path.

A path still leads to where it led before because folders only come to be: every name that could be
entered can be entered later (`enter_of_grows`).  And no file turns into a folder.  A folder at a
place comes about by writing a file below it, and a path leads below a place only through a folder
that is there already (`hasFolder_of_locate`).
-/

namespace Flowchart
namespace Files
namespace Folder

variable {f g : Folder} {place other : List String} {path : String} {bytes : Text.Bytes}

/-! ### Putting a file -/

/-- A file that is replaced keeps its place in the list. -/
lemma lookup_replace (files : List (List String × Text.Bytes)) (place other : List String)
    (bytes : Text.Bytes) :
    (files.map fun (p, b) => if p = place then (p, bytes) else (p, b)).lookup other
      = if other = place then (files.lookup place).map fun _ => bytes else files.lookup other := by
  induction files with
  | nil => simp
  | cons file files ih =>
    obtain ⟨p, b⟩ := file
    rw [List.map_cons, lookup_cons_eq, lookup_cons_eq]
    by_cases hp : p = place
    · subst hp
      rw [if_pos rfl, lookup_cons_eq, ih]
      by_cases ho : other = p <;> simp [ho]
    · rw [if_neg hp, lookup_cons_eq, ih]
      by_cases ho : other = place
      · simp [ho, Ne.symm hp]
      · simp [ho]

@[simp] lemma get?_put (f : Folder) (place other : List String) (bytes : Text.Bytes) :
    (f.put place bytes).get? other = if other = place then some bytes else f.get? other := by
  unfold put
  split
  · next hplace =>
    obtain ⟨old, hold⟩ := Option.isSome_iff_exists.1 hplace
    rw [get?, lookup_replace, ← get?, hold]
    rfl
  · next hplace =>
    rw [Option.not_isSome_iff_eq_none] at hplace
    rw [get?, List.lookup_append, ← get?, lookup_cons_eq]
    by_cases ho : other = place
    · simp [ho, hplace]
    · simp [ho]

/-- The places of the files are those there were, and the one that was written. -/
lemma mem_put_iff (f : Folder) (place other : List String) (bytes : Text.Bytes) :
    other ∈ (f.put place bytes).files.map Prod.fst ↔
      other = place ∨ other ∈ f.files.map Prod.fst := by
  have hmem (p : List String) (h : Folder) : p ∉ h.files.map Prod.fst ↔ h.get? p = none := by
    rw [get?, List.lookup_eq_none_iff, List.mem_map]
    simp only [bne_iff_ne]
    exact ⟨fun h file hfile heq => h ⟨file, hfile, heq.symm⟩,
      fun h ⟨file, hfile, heq⟩ => h file hfile heq.symm⟩
  rw [← not_iff_not, not_or, hmem, hmem, get?_put]
  by_cases h : other = place <;> simp [h]

lemma hasFolder_iff :
    f.hasFolder place = true ↔
      place = [] ∨ ∃ p ∈ f.files.map Prod.fst, place <+: p ∧ p ≠ place := by
  simp [hasFolder]

/-- A new file makes folders of the places above it, and of no others. -/
lemma hasFolder_put_iff :
    (f.put place bytes).hasFolder other = true ↔
      f.hasFolder other = true ∨ other <+: place ∧ place ≠ other := by
  simp only [hasFolder_iff, mem_put_iff, or_and_right, exists_or, exists_eq_left]
  rw [or_right_comm, or_assoc]

lemma hasFolder_of_above (h : f.hasFolder place = true) (hp : other <+: place) :
    f.hasFolder other = true := by
  rw [hasFolder_iff] at h ⊢
  rcases h with rfl | ⟨p, hmem, hle, hne⟩
  · exact .inl (List.prefix_nil.1 hp)
  · refine .inr ⟨p, hmem, hp.trans hle, ?_⟩
    rintro rfl
    exact hne (hp.eq_of_length_le hle.length_le)

/-! ### Where a path leads -/

/-- Every folder of the one is a folder of the other. -/
def Grows (f g : Folder) : Prop :=
  ∀ place, f.hasFolder place = true → g.hasFolder place = true

lemma grows_put (f : Folder) (place : List String) (bytes : Text.Bytes) :
    f.Grows (f.put place bytes) :=
  fun _ h => hasFolder_put_iff.2 (.inl h)

lemma enter_of_grows (h : f.Grows g) {here there : Position} {name : String}
    (he : f.enter path here name = .ok there) : g.enter path here name = .ok there := by
  unfold enter at he ⊢
  split_ifs at he ⊢ with hdot hdots hlong
  · exact he
  · exact he
  · cases here with
    | none => cases he
    | some place =>
      simp only at he ⊢
      split_ifs at he with hfolder
      rw [if_pos (h _ hfolder)]
      exact he

/-- A position that is reached is a folder. -/
def Reached (f : Folder) (position : Position) : Prop :=
  ∀ place ∈ position, f.hasFolder place = true

lemma reached_enter {here there : Position} {name : String} (h : f.Reached here)
    (he : f.enter path here name = .ok there) : f.Reached there := by
  unfold enter at he
  split_ifs at he with hdot hdots hlong
  · cases he
    exact h
  · cases he
    split
    · rintro _ ⟨⟩
      exact hasFolder_of_above (h _ rfl) (List.dropLast_prefix _)
    · rintro _ ⟨⟩
  · cases here with
    | none => cases he
    | some place =>
      simp only at he
      split_ifs at he with hfolder
      cases he
      rintro _ ⟨⟩
      exact hfolder

lemma foldlM_enter_of_grows (h : f.Grows g) {names : List String} {here there : Position}
    (he : names.foldlM (f.enter path) here = .ok there) :
    names.foldlM (g.enter path) here = .ok there := by
  induction names generalizing here with
  | nil => exact he
  | cons name names ih =>
    rw [List.foldlM_cons] at he ⊢
    cases hname : f.enter path here name with
    | error e => rw [hname] at he; cases he
    | ok next =>
      rw [hname] at he
      rw [enter_of_grows h hname]
      exact ih he

lemma reached_foldlM_enter {names : List String} {here there : Position} (h : f.Reached here)
    (he : names.foldlM (f.enter path) here = .ok there) : f.Reached there := by
  induction names generalizing here with
  | nil => cases he; exact h
  | cons name names ih =>
    rw [List.foldlM_cons] at he
    cases hname : f.enter path here name with
    | error e => rw [hname] at he; cases he
    | ok next =>
      rw [hname] at he
      exact ih (reached_enter h hname) he

lemma locate_eq_ok_iff {position : Position} {name : Option String} :
    f.locate path = .ok (position, name) ↔ '\x00' ∉ path.toList ∧ path.utf8ByteSize ≤ maxPath ∧
      path ≠ "" ∧ (names path).dropLast.foldlM (f.enter path)
        (if isAbsolute path then none else some []) = .ok position ∧
      (names path).getLast? = name := by
  unfold locate
  by_cases hnul : path.toList.contains '\x00' = true
  · simp_all
  by_cases hlong : maxPath < path.utf8ByteSize
  · simp_all
  by_cases hempty : path = ""
  · simp_all
  rw [if_neg hnul, if_neg hlong, if_neg hempty]
  cases hfold : (names path).dropLast.foldlM (f.enter path)
    (if isAbsolute path then none else some []) <;> simp_all

lemma locate_of_grows (h : f.Grows g) {there : Position × Option String}
    (hl : f.locate path = .ok there) : g.locate path = .ok there := by
  obtain ⟨hnul, hlong, hempty, hfold, hname⟩ := locate_eq_ok_iff.1 hl
  exact locate_eq_ok_iff.2 ⟨hnul, hlong, hempty, foldlM_enter_of_grows h hfold, hname⟩

lemma hasFolder_of_locate {name : Option String}
    (h : f.locate path = .ok (some place, name)) : f.hasFolder place = true := by
  obtain ⟨-, -, -, hfold, -⟩ := locate_eq_ok_iff.1 h
  refine reached_foldlM_enter ?_ hfold place rfl
  split
  · rintro _ ⟨⟩
  · rintro _ ⟨⟩
    rfl

/-- A path that leads to a place of a file leads there for reading and for writing. -/
lemma resolve_eq_ok_iff {toWrite : Bool} :
    f.resolve path toWrite = .ok place ↔ ∃ above name, f.locate path = .ok (some above, some name) ∧
      name ≠ "." ∧ name ≠ ".." ∧ endsWithSlash path = false ∧ name.utf8ByteSize ≤ maxName ∧
      f.hasFolder place = false ∧ place = above ++ [name] := by
  unfold resolve
  cases hl : f.locate path with
  | error e => simp
  | ok there =>
    obtain ⟨_ | above, _ | name⟩ := there
    · simp
    · simp only
      split_ifs <;> simp
    · simp
    · simp only [Except.ok.injEq, Prod.mk.injEq, Option.some.injEq, exists_and_left,
        exists_eq_left', and_assoc]
      split_ifs with hdots hlong hfolder hslash
      · simp only [false_iff]
        rcases hdots with rfl | rfl | ⟨-, hslash⟩ <;> simp [*]
      · simp [hlong]
      · simp only [false_iff]
        rintro ⟨-, -, -, -, hnone, rfl⟩
        simp [hfolder] at hnone
      · simp [hslash]
      · simp only [not_or, not_and] at hdots
        simp only [Bool.not_eq_true] at hslash
        constructor
        · rintro ⟨⟩
          exact ⟨hdots.1, hdots.2.1, hslash, not_lt.1 hlong, by simpa using hfolder, rfl⟩
        · rintro ⟨-, -, -, -, -, rfl⟩
          rfl

lemma resolve_of_grows (h : f.Grows g) {toWrite toWrite' : Bool}
    (hr : f.resolve path toWrite = .ok place) (hplace : g.hasFolder place = false) :
    g.resolve path toWrite' = .ok place := by
  obtain ⟨above, name, hl, hdot, hdots, hslash, hlong, -, rfl⟩ := resolve_eq_ok_iff.1 hr
  exact resolve_eq_ok_iff.2
    ⟨above, name, locate_of_grows h hl, hdot, hdots, hslash, hlong, hplace, rfl⟩

/-! ### Folders with the same places -/

/-- Two folders have files and folders at the same places; the contents may differ. -/
structure SamePlaces (f g : Folder) : Prop where
  hasFolder_eq : ∀ place, f.hasFolder place = g.hasFolder place
  isSome_get?_eq : ∀ place, (f.get? place).isSome = (g.get? place).isSome

/-- What is put at a place does not decide where files and folders are. -/
lemma samePlaces_put (f : Folder) (place : List String) (bytes bytes' : Text.Bytes) :
    (f.put place bytes).SamePlaces (f.put place bytes') where
  hasFolder_eq other := by
    rw [Bool.eq_iff_iff, hasFolder_put_iff, hasFolder_put_iff]
  isSome_get?_eq other := by
    rw [get?_put, get?_put]
    split <;> rfl

/-- Where a path leads does not depend on what is in the files. -/
lemma SamePlaces.resolve_eq (h : f.SamePlaces g) (path : String) (toWrite : Bool) :
    f.resolve path toWrite = g.resolve path toWrite := by
  have henter : f.enter path = g.enter path := by
    funext here name
    unfold enter
    simp only [h.hasFolder_eq, h.isSome_get?_eq]
  have hlocate : f.locate path = g.locate path := by
    unfold locate
    rw [henter]
  unfold resolve
  simp only [hlocate, h.hasFolder_eq, h.isSome_get?_eq]

/-! ### Writing and reading -/

lemma write_eq_ok_iff :
    f.write path bytes = .ok g ↔
      ∃ place, f.resolve path true = .ok place ∧ g = f.put place bytes := by
  unfold write
  cases f.resolve path true <;> simp [Except.map, eq_comm]

/-- A file is at a place, with the given contents. -/
structure Holds (f : Folder) (place : List String) (bytes : Text.Bytes) : Prop where
  get?_eq : f.get? place = some bytes
  hasFolder_eq : f.hasFolder place = false

/-- A file is written, and not to the given place. -/
def WritesElsewhere (place : List String) (f g : Folder) : Prop :=
  ∃ path bytes, f.write path bytes = .ok g ∧ f.resolve path true ≠ .ok place

lemma holds_put (h : f.hasFolder place = false) (bytes : Text.Bytes) :
    (f.put place bytes).Holds place bytes := by
  refine ⟨by simp, ?_⟩
  rw [← Bool.not_eq_true, hasFolder_put_iff]
  simp [h]

/-- A write to another place changes neither the file nor what leads to it. -/
lemma WritesElsewhere.grows_and_holds (h : WritesElsewhere place f g) :
    f.Grows g ∧ (f.Holds place bytes → g.Holds place bytes) := by
  obtain ⟨path, bytes', hw, hne⟩ := h
  obtain ⟨other, hr, rfl⟩ := write_eq_ok_iff.1 hw
  have hother : place ≠ other := by
    rintro rfl
    exact hne hr
  refine ⟨grows_put f other bytes', fun hholds => ⟨by simp [hother, hholds.get?_eq], ?_⟩⟩
  rw [← Bool.not_eq_true, hasFolder_put_iff, hholds.hasFolder_eq]
  rintro (⟨⟨⟩⟩ | ⟨hle, -⟩)
  -- the folder above the new file was there before, so the place is not above the new file
  obtain ⟨above, name, hl, -, -, -, -, -, rfl⟩ := resolve_eq_ok_iff.1 hr
  have habove : place <+: above := by
    rcases List.prefix_concat_iff.1 hle with heq | habove
    · exact absurd heq hother
    · exact habove
  have hfolder := hasFolder_of_above (hasFolder_of_locate hl) habove
  rw [hholds.hasFolder_eq] at hfolder
  cases hfolder

lemma read_put (hr : f.resolve path false = .ok place) (bytes : Text.Bytes) :
    (f.put place bytes).read path = .ok bytes := by
  obtain ⟨-, -, -, -, -, -, -, hfolder, -⟩ := resolve_eq_ok_iff.1 hr
  have hholds := holds_put hfolder bytes
  simp only [read, resolve_of_grows (grows_put f place bytes) hr hholds.hasFolder_eq,
    hholds.get?_eq]

/-- What is written under a path is read from it, as long as nothing else is written where it
leads. -/
lemma read_of_write {saved later : Folder} (hr : f.resolve path true = .ok place)
    (hw : f.write path bytes = .ok saved)
    (hlater : Relation.ReflTransGen (WritesElsewhere place) saved later) :
    later.read path = .ok bytes := by
  obtain ⟨_, hr', rfl⟩ := write_eq_ok_iff.1 hw
  obtain rfl : place = _ := by simpa [hr] using hr'
  obtain ⟨-, -, -, -, -, -, -, hfolder, -⟩ := resolve_eq_ok_iff.1 hr
  have hkept : f.Grows later ∧ later.Holds place bytes := by
    induction hlater with
    | refl => exact ⟨grows_put f place bytes, holds_put hfolder bytes⟩
    | tail _ hstep ih =>
      obtain ⟨hgrows, hholds⟩ := hstep.grows_and_holds
      exact ⟨fun p hp => hgrows p (ih.1 p hp), hholds ih.2⟩
  simp only [read, resolve_of_grows hkept.1 hr hkept.2.hasFolder_eq, hkept.2.get?_eq]

end Folder
end Files
end Flowchart
