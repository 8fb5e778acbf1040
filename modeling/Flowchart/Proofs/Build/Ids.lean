import Flowchart.Build.Ids
import Flowchart.Proofs.Number.Leading

/-!
# What a supply still offers

A supply is `Fresh` if no name that can still be drawn comes twice, and it `Lasts` for a number of
draws if so many names are left.  A draw hands out the next name (`draw_eq_ok_iff`), and both
properties pass on to the supply that is left.  `FreshFor` adds the ids that are already in use.
Counting gives a fresh supply, whatever the stem and the start are.
-/

namespace Flowchart
namespace IdSupply

variable {ids ids' : IdSupply} {id : String}

/-- The name with the number `i` can still be drawn. -/
def Offers (ids : IdSupply) (i : Nat) : Prop :=
  ids.drawn ≤ i ∧ ∀ size ∈ ids.size, i < size

/-- No name that can still be drawn comes twice. -/
def Fresh (ids : IdSupply) : Prop :=
  ∀ i j, ids.Offers i → ids.Offers j → ids.name i = ids.name j → i = j

/-- So many more names can be drawn. -/
def Lasts (ids : IdSupply) (n : Nat) : Prop :=
  ∀ size ∈ ids.size, ids.drawn + n ≤ size

instance (ids : IdSupply) (n : Nat) : Decidable (ids.Lasts n) :=
  inferInstanceAs (Decidable (∀ size ∈ ids.size, ids.drawn + n ≤ size))

/-- The supply after one draw. -/
def next (ids : IdSupply) : IdSupply := { ids with drawn := ids.drawn + 1 }

lemma hasRunOut_eq_false_iff : ids.hasRunOut = false ↔ ids.Offers ids.drawn := by
  cases h : ids.size <;> simp [hasRunOut, Offers, h]

lemma draw_eq_ok_iff :
    ids.draw = .ok (id, ids') ↔
      ids.Offers ids.drawn ∧ id = ids.name ids.drawn ∧ ids' = ids.next := by
  rw [← hasRunOut_eq_false_iff]
  cases h : ids.hasRunOut <;> simp [draw, h, next, eq_comm]

lemma draw_eq_error (h : ¬ ids.Offers ids.drawn) : ids.draw = .error .write := by
  rw [← hasRunOut_eq_false_iff, Bool.not_eq_false] at h
  rw [draw, if_pos h]

lemma Lasts.offers {n : Nat} (h : ids.Lasts (n + 1)) : ids.Offers ids.drawn :=
  ⟨Nat.le_refl _, fun size hsize => by have := h size hsize; omega⟩

lemma Lasts.draw_eq {n : Nat} (h : ids.Lasts (n + 1)) :
    ids.draw = .ok (ids.name ids.drawn, ids.next) :=
  draw_eq_ok_iff.2 ⟨h.offers, rfl, rfl⟩

lemma Lasts.next {n : Nat} (h : ids.Lasts (n + 1)) : ids.next.Lasts n := by
  intro size hsize
  have := h size hsize
  show ids.drawn + 1 + n ≤ size
  omega

lemma Offers.of_next {i : Nat} (h : ids.next.Offers i) : ids.Offers i :=
  ⟨Nat.le_of_succ_le h.1, h.2⟩

lemma Fresh.next (h : ids.Fresh) : ids.next.Fresh :=
  fun i j hi hj => h i j hi.of_next hj.of_next

/-- The name that was drawn does not come again. -/
lemma Fresh.name_ne (h : ids.Fresh) (ho : ids.Offers ids.drawn) {i : Nat}
    (hi : ids.next.Offers i) : ids.name i ≠ ids.name ids.drawn := by
  intro heq
  have hnum := h i ids.drawn hi.of_next ho heq
  have hlt : ids.drawn + 1 ≤ i := hi.1
  omega

/-- The ids in use are distinct, and what can still be drawn comes neither twice nor among them. -/
structure FreshFor (ids : IdSupply) (used : List String) : Prop where
  fresh : ids.Fresh
  nodup : used.Nodup
  name_notMem : ∀ i, ids.Offers i → ids.name i ∉ used

lemma Fresh.freshFor_nil (h : ids.Fresh) : ids.FreshFor [] :=
  ⟨h, List.nodup_nil, fun _ _ => List.not_mem_nil⟩

lemma FreshFor.of_perm {used used' : List String} (h : ids.FreshFor used)
    (hp : used'.Perm used) : ids.FreshFor used' :=
  ⟨h.fresh, hp.nodup_iff.2 h.nodup, fun i hi hmem => h.name_notMem i hi (hp.mem_iff.1 hmem)⟩

/-- The next id can be used. -/
lemma FreshFor.next {used : List String} (h : ids.FreshFor used) (ho : ids.Offers ids.drawn) :
    ids.next.FreshFor (ids.name ids.drawn :: used) := by
  refine ⟨h.fresh.next, List.nodup_cons.2 ⟨h.name_notMem _ ho, h.nodup⟩, fun i hi hmem => ?_⟩
  rcases List.mem_cons.1 hmem with heq | hmem
  · exact h.fresh.name_ne ho hi heq
  · exact h.name_notMem i hi.of_next hmem

/-! ### Several draws -/

/-- The supply after so many draws. -/
def advance (ids : IdSupply) (n : Nat) : IdSupply := { ids with drawn := ids.drawn + n }

/-- The names that so many draws hand out. -/
def ahead (ids : IdSupply) (n : Nat) : List String := (List.range' ids.drawn n).map ids.name

lemma advance_advance (ids : IdSupply) (m n : Nat) :
    (ids.advance m).advance n = ids.advance (m + n) := by
  simp [advance, Nat.add_assoc]

lemma advance_succ (ids : IdSupply) (n : Nat) : ids.advance (n + 1) = ids.next.advance n := by
  simp [advance, next, Nat.add_assoc, Nat.add_comm 1 n]

lemma ahead_succ (ids : IdSupply) (n : Nat) :
    ids.ahead (n + 1) = ids.name ids.drawn :: ids.next.ahead n := by
  simp [ahead, next, List.range'_succ]

lemma ahead_add (ids : IdSupply) (m n : Nat) :
    ids.ahead (m + n) = ids.ahead m ++ (ids.advance m).ahead n := by
  simp [ahead, advance, ← List.map_append]

lemma Lasts.advance {m n : Nat} (h : ids.Lasts (m + n)) : (ids.advance m).Lasts n := by
  intro size hsize
  have := h size hsize
  show ids.drawn + m + n ≤ size
  omega

lemma Fresh.nodup_ahead (h : ids.Fresh) {n : Nat} (hlasts : ids.Lasts n) : (ids.ahead n).Nodup := by
  have hoffers : ∀ i ∈ List.range' ids.drawn n, ids.Offers i := by
    intro i hi
    rw [List.mem_range'_1] at hi
    refine ⟨hi.1, fun size hsize => ?_⟩
    have := hlasts size hsize
    omega
  exact List.Nodup.map_on (fun i hi j hj heq => h i j (hoffers i hi) (hoffers j hj) heq)
    List.nodup_range'

/-- A supply that counts never repeats an id. -/
lemma sequential_fresh (stem : String) (start : Int) : (sequential stem start).Fresh := by
  intro i j _ _ heq
  have hnum : toString (start + (i : Int)) = toString (start + (j : Int)) := by
    have hlist := congrArg String.toList heq
    simp only [sequential, String.toList_append] at hlist
    exact String.toList_inj.1 (List.append_cancel_left hlist)
  have := Number.toString_injective hnum
  omega

end IdSupply
end Flowchart
