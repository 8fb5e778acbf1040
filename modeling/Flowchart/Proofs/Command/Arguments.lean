import Flowchart.Command.Arguments
import Flowchart.Proofs.Lists
import Flowchart.Proofs.Number.Leading

/-!
# Options among the arguments

Arguments are placed one after the other, so that gathering from a list is gathering from its first
part and then from the rest (`Settled.gather_append`).  For this the first part must not end with an
option that waits for its value, and a mark must stay with what it follows (`Joint`).

An `Override` sets the values of some options.  If the arguments are not about these options, it
makes no difference whether the values are set before gathering or afterwards
(`Override.gather_on`).  Hence arguments that only set values can be put in wherever there is a
joint, and all they do to the request is to set the values in it (`ofArguments_insert`).
-/

namespace Flowchart
namespace Command

/-! ### Placing arguments -/

lemma gather_nil (g : Gathered) : gather g [] = .ok g := by
  rw [gather]

lemma gather_cons (g : Gathered) (a : Argument) (args : List Argument) :
    gather g (a :: args) = g.place a args >>= fun next => gather next.1 next.2 := by
  rw [gather]
  split
  · next h => rw [h]; rfl
  · next h => rw [h]; rfl

/-- The argument is an option that needs a value and has none attached. -/
def Argument.awaits : Argument → Bool
  | .switch s spelling value =>
    match unfoldArgument s spelling value with
    | .ok (_, last, none) => last.takesValue
    | _ => false
  | _ => false

lemma valueFor_append {s : Switch} {attached : Option String} {args : List Argument}
    (h : args ≠ [] ∨ s.takesValue = false ∨ attached.isSome) (more : List Argument) :
    valueFor s attached (args ++ more)
      = (valueFor s attached args).map fun (value, rest) => (value, rest ++ more) := by
  unfold valueFor
  by_cases hs : s.takesValue
  · rw [if_pos hs, if_pos hs]
    cases attached with
    | some value => rfl
    | none =>
      cases args with
      | nil => simp [hs] at h
      | cons a args => cases a <;> rfl
  · rw [if_neg hs, if_neg hs]
    rfl

/-- Nothing in `before` depends on what is in `after`: there is no mark, the last argument awaits no
value, and no mark follows it. -/
structure Settled (before after : List Argument) : Prop where
  mark : .mark ∉ before
  awaits : ∀ a ∈ before.getLast?, a.awaits = false
  next : before = [] ∨ after.head? ≠ some .mark

namespace Settled

variable {before after args : List Argument} {a : Argument}

lemma of_suffix (h : Settled before after) {rest : List Argument} (hrest : rest <:+ before) :
    Settled rest after := by
  refine ⟨fun hmem => h.mark (hrest.mem hmem), fun a ha => ?_, ?_⟩
  · obtain ⟨taken, rfl⟩ := hrest
    refine h.awaits a ?_
    rw [Option.mem_def] at ha ⊢
    rw [List.getLast?_append, ha]
    rfl
  · rcases h.next with rfl | hnext
    · exact .inl (List.suffix_nil.1 hrest)
    · exact .inr hnext

lemma insert (h : Settled before after) (hmark : .mark ∉ args) :
    Settled before (args ++ after) := by
  refine ⟨h.mark, h.awaits, h.next.imp_right fun hnext => ?_⟩
  cases args with
  | nil => exact hnext
  | cons a args =>
    rintro ⟨⟩
    exact hmark List.mem_cons_self

/-- What comes after the arguments that are looked at stays as it is. -/
lemma place_append (h : Settled (a :: args) after) (g : Gathered) :
    g.place a (args ++ after) = (g.place a args).map fun next => (next.1, next.2 ++ after) := by
  have hnext : after.head? ≠ some .mark := h.next.resolve_left (List.cons_ne_nil a args)
  cases a with
  | unknown text => rfl
  | mark => exact absurd List.mem_cons_self h.mark
  | plain text =>
    cases hinput : g.input with
    | some input => simp [Gathered.place, hinput, Except.map]
    | none =>
      cases args with
      | cons a args => cases a <;> simp [Gathered.place, hinput, Except.map]
      | nil =>
        cases after with
        | nil => simp [Gathered.place, hinput, Except.map]
        | cons b after => cases b <;> simp_all [Gathered.place, Except.map]
  | switch s spelling value =>
    simp only [Gathered.place]
    cases hunfold : unfoldArgument s spelling value with
    | error stop => rfl
    | ok unfolded =>
      obtain ⟨before, last, attached⟩ := unfolded
      have hvalue : args ≠ [] ∨ last.takesValue = false ∨ attached.isSome := by
        cases args with
        | cons b args => exact .inl (List.cons_ne_nil b args)
        | nil =>
          have hawaits := h.awaits _ rfl
          cases attached with
          | none => exact .inr (.inl (by simpa [Argument.awaits, hunfold] using hawaits))
          | some value => exact .inr (.inr rfl)
      simp only [valueFor_append hvalue]
      cases valueFor last attached args with
      | error stop => rfl
      | ok taken =>
        simp only [Except.map]
        cases g.setAll before last taken.1 <;> rfl

/-- Gathering from two lists is gathering from the one and then from the other. -/
lemma gather_append (h : Settled before after) (g : Gathered) :
    gather g (before ++ after) = gather g before >>= fun g => gather g after := by
  induction g, before using gather.induct with
  | case1 g =>
    rw [gather_nil]
    rfl
  | case2 g a args stop hplace =>
    rw [List.cons_append, gather_cons, gather_cons, h.place_append, hplace]
    rfl
  | case3 g a args g' rest hplace ih =>
    rw [List.cons_append, gather_cons, gather_cons, h.place_append, hplace]
    exact ih (h.of_suffix ((Gathered.suffix_of_place hplace).trans (List.suffix_cons a args)))

end Settled

/-! ### Overriding options -/

/-- The options an argument stands for. -/
def Argument.switches : Argument → List Switch
  | .switch s spelling value =>
    match unfoldArgument s spelling value with
    | .ok (before, last, _) => before ++ [last]
    | .error _ => []
  | _ => []

/-- Values of options that are set whatever else is said about them. -/
structure Override where
  output : Option (Option String) := none
  direction : Option (Option Direction) := none
  spacing : Option (Option Spacing) := none
  trace : Bool := false
  verbose : Bool := false

namespace Override

variable (o : Override)

/-- What is gathered, with the values set. -/
def on (g : Gathered) : Gathered :=
  { g with
    output := o.output.getD g.output
    direction := o.direction.getD g.direction
    spacing := o.spacing.getD g.spacing
    trace := o.trace || g.trace
    verbose := o.verbose || g.verbose }

/-- Settings with the values set. -/
def settings (s : Settings) : Settings :=
  { s with
    output := o.output.getD s.output
    direction := o.direction.getD s.direction
    spacing := o.spacing.getD s.spacing
    trace := o.trace || s.trace
    verbose := o.verbose || s.verbose }

/-- A request with the values set in its settings. -/
def request : Request → Request
  | .run s => .run (o.settings s)
  | .help => .help
  | .refuse reason => .refuse reason

/-- Setting the option `s` and setting the values do not get into each other's way. -/
def Spares (s : Switch) : Prop :=
  match s with
  | .output => o.output = none
  | .direction => o.direction = none
  | .spacing => o.spacing = none
  | _ => True

variable {o}

lemma spares_of_none {s : Switch} (houtput : s = .output → o.output = none)
    (hdirection : s = .direction → o.direction = none)
    (hspacing : s = .spacing → o.spacing = none) : o.Spares s := by
  cases s with
  | output => exact houtput rfl
  | direction => exact hdirection rfl
  | spacing => exact hspacing rfl
  | _ => trivial

lemma request_on (g : Gathered) : (o.on g).request = o.request g.request := by
  unfold Gathered.request
  cases hinput : g.input with
  | none => simp only [on, hinput, request]
  | some input => cases hextras : g.extras <;> simp only [on, hinput, hextras, request, settings]

lemma set_on {s : Switch} (h : o.Spares s) (g : Gathered) (value : String) :
    (o.on g).set s value = (g.set s value).map o.on := by
  cases s with
  | help => rfl
  | trace => simp only [Gathered.set, Except.map, on, Bool.or_true]
  | verbose => simp only [Gathered.set, Except.map, on, Bool.or_true]
  | output =>
    have hnone : o.output = none := h
    simp only [Gathered.set, Except.map, on, hnone, Option.getD_none]
  | format =>
    simp only [Gathered.set]
    split
    · cases choose (α := Format) .format value <;> rfl
    · rfl
  | direction =>
    have hnone : o.direction = none := h
    simp only [Gathered.set]
    split
    · cases choose (α := Direction) .direction value with
      | error stop => rfl
      | ok d => simp only [Except.map, on, hnone, Option.getD_none]
    · simp only [Except.map, on, hnone, Option.getD_none]
  | spacing =>
    have hnone : o.spacing = none := h
    simp only [Gathered.set]
    split
    · split
      · simp only [Except.map, on, hnone, Option.getD_none]
      · rfl
    · simp only [Except.map, on, hnone, Option.getD_none]

lemma setAll_on {before : List Switch} {last : Switch} (h : ∀ s ∈ before ++ [last], o.Spares s)
    (g : Gathered) (value : String) :
    (o.on g).setAll before last value = (g.setAll before last value).map o.on := by
  simp only [Gathered.setAll]
  induction before generalizing g with
  | nil => exact set_on (h last (by simp)) g value
  | cons s before ih =>
    simp only [List.foldlM_cons]
    rw [set_on (h s (by simp))]
    cases g.set s "" with
    | error stop => rfl
    | ok g => exact ih (fun s hs => h s (by simp_all)) g

lemma place_on {a : Argument} (h : ∀ s ∈ a.switches, o.Spares s) (g : Gathered)
    (args : List Argument) :
    (o.on g).place a args = (g.place a args).map fun next => (o.on next.1, next.2) := by
  have hinput : (o.on g).input = g.input := rfl
  cases a with
  | unknown text => rfl
  | plain text =>
    simp only [Gathered.place, hinput]
    split <;> rfl
  | mark =>
    simp only [Gathered.place, hinput]
    split <;> rfl
  | switch s spelling value =>
    simp only [Gathered.place]
    cases hunfold : unfoldArgument s spelling value with
    | error stop => rfl
    | ok unfolded =>
      obtain ⟨before, last, attached⟩ := unfolded
      have hall : ∀ s ∈ before ++ [last], o.Spares s := by
        simpa only [Argument.switches, hunfold] using h
      simp only [setAll_on hall]
      cases valueFor last attached args with
      | error stop => rfl
      | ok taken =>
        simp only
        cases g.setAll before last taken.1 <;> rfl

/-- Values that the arguments do not set can be set before gathering or after it. -/
lemma gather_on {args : List Argument} (h : ∀ a ∈ args, ∀ s ∈ a.switches, o.Spares s)
    (g : Gathered) : gather (o.on g) args = (gather g args).map o.on := by
  induction g, args using gather.induct with
  | case1 g =>
    rw [gather_nil, gather_nil]
    rfl
  | case2 g a args stop hplace =>
    rw [gather_cons, gather_cons, place_on (h a List.mem_cons_self), hplace]
    rfl
  | case3 g a args g' rest hplace ih =>
    rw [gather_cons, gather_cons, place_on (h a List.mem_cons_self), hplace]
    have hrest := Gathered.suffix_of_place hplace
    exact ih fun b hb => h b (List.mem_cons_of_mem a (hrest.mem hb))

end Override

/-! ### Sorting -/

lemma sortDashed_ne_mark (arg : List Char) : sortDashed arg ≠ .ok .mark := by
  unfold sortDashed
  simp only
  intro h
  split at h
  · next a heq =>
    split at heq
    · obtain ⟨s, -, hs⟩ := Option.map_eq_some_iff.1 heq
      rw [← hs] at h
      cases h
    · cases heq
  · cases h
  · split at h <;> cases h
  · cases h

lemma sortOne_ne_mark (arg : String) : sortOne arg ≠ .ok .mark := by
  unfold sortOne
  split
  · exact nofun
  · split
    · exact sortDashed_ne_mark _
    · exact nofun

/-- Arguments in front of a mark are sorted one by one. -/
lemma sortArguments_append {before : List String} (h : "--" ∉ before) (after : List String) :
    sortArguments (before ++ after)
      = before.mapM sortOne >>= fun sorted => (sortArguments after).map (sorted ++ ·) := by
  induction before with
  | nil =>
    rw [List.nil_append]
    cases sortArguments after <;> rfl
  | cons arg before ih =>
    obtain ⟨harg, hbefore⟩ := not_or.1 (mt List.mem_cons.2 h)
    rw [List.cons_append, sortArguments, if_neg (Ne.symm harg), ih hbefore, List.mapM_cons]
    cases sortOne arg with
    | error reason => rfl
    | ok a =>
      cases before.mapM sortOne with
      | error reason => rfl
      | ok sorted => cases sortArguments after <;> rfl

lemma head?_sortArguments {args : List String} {sorted : List Argument}
    (h : sortArguments args = .ok sorted) (hne : args.head? ≠ some "--") :
    sorted.head? ≠ some .mark := by
  cases args with
  | nil =>
    cases h
    exact nofun
  | cons arg args =>
    rw [sortArguments, if_neg (by simpa using hne)] at h
    cases harg : sortOne arg with
    | error reason => rw [harg] at h; cases h
    | ok a =>
      cases hargs : sortArguments args with
      | error reason => rw [harg, hargs] at h; cases h
      | ok rest =>
        rw [harg, hargs] at h
        cases h
        rintro ⟨⟩
        exact sortOne_ne_mark arg harg

lemma notMem_of_sorted {args : List String} {sorted : List Argument}
    (h : List.Forall₂ (fun arg a => sortOne arg = .ok a) args sorted) : .mark ∉ sorted := by
  induction h with
  | nil => exact List.not_mem_nil
  | cons harg _ ih =>
    rintro (_ | ⟨_, hmem⟩)
    · exact sortOne_ne_mark _ harg
    · exact ih hmem

/-! ### More arguments -/

/-- The options that arguments stand for. -/
def switchesOf (args : List String) : List Switch :=
  match sortArguments args with
  | .ok sorted => sorted.flatMap Argument.switches
  | .error _ => []

/-- An argument is an option that takes the next argument for its value. -/
def awaitsValue (arg : String) : Bool :=
  match sortOne arg with
  | .ok a => a.awaits
  | .error _ => false

/-- Options can be put between the arguments `before` and `after`: no mark comes before them, the
last argument does not take the next one for its value, and no mark is cut off from what it
follows. -/
@[mk_iff] structure Joint (before after : List String) : Prop where
  mark : "--" ∉ before
  value : ∀ arg ∈ before.getLast?, awaitsValue arg = false
  next : before = [] ∨ after.head? ≠ some "--"

instance (before after : List String) : Decidable (Joint before after) :=
  decidable_of_iff _ (joint_iff before after).symm

lemma Joint.settled {before after : List String} (h : Joint before after)
    {first last : List Argument} (hbefore : before.mapM sortOne = .ok first)
    (hafter : sortArguments after = .ok last) : Settled first last := by
  have hfirst := forall₂_of_mapM hbefore
  refine ⟨notMem_of_sorted hfirst, fun a ha => ?_, ?_⟩
  · obtain ⟨arg, harg, hsort⟩ := forall₂_getLast? hfirst ha
    simpa only [awaitsValue, hsort] using h.value arg harg
  · rcases h.next with rfl | hnext
    · cases hfirst
      exact .inl rfl
    · exact .inr (head?_sortArguments hafter hnext)

/-- Arguments that set values, whatever has been gathered and whatever follows. -/
structure Sets (added : List String) (o : Override) : Prop where
  mark : "--" ∉ added
  gather : ∃ sorted, added.mapM sortOne = .ok sorted ∧
    ∀ g rest, Command.gather g (sorted ++ rest) = Command.gather (o.on g) rest

lemma Override.ofGathered_map (o : Override) (gathered : Except Stop Gathered) :
    Request.ofGathered (gathered.map o.on) = o.request (.ofGathered gathered) := by
  cases gathered with
  | ok g => exact request_on g
  | error stop => cases stop <;> rfl

lemma spares_of_switchesOf {o : Override} {args : List String} {sorted : List Argument}
    (hsorted : sortArguments args = .ok sorted) (h : ∀ s ∈ switchesOf args, o.Spares s) :
    ∀ a ∈ sorted, ∀ s ∈ a.switches, o.Spares s := by
  intro a ha s hs
  refine h s ?_
  rw [switchesOf, hsorted]
  exact List.mem_flatMap.2 ⟨a, ha, hs⟩

/-- Arguments that set values can be left out and the values set afterwards, if no other option is
about the same. -/
lemma ofArguments_insert {o : Override} {before added after : List String}
    (hjoint : Joint before after) (hsets : Sets added o)
    (hspares : ∀ s ∈ switchesOf (before ++ after), o.Spares s) :
    Request.ofArguments (before ++ (added ++ after))
      = o.request (.ofArguments (before ++ after)) := by
  obtain ⟨sorted, hsorted, hgather⟩ := hsets.gather
  rw [Request.ofArguments, Request.ofArguments, sortArguments_append hjoint.mark,
    sortArguments_append hjoint.mark, sortArguments_append hsets.mark, hsorted]
  cases hbefore : before.mapM sortOne with
  | error reason => rfl
  | ok first =>
    cases hafter : sortArguments after with
    | error reason => rfl
    | ok last =>
      have hall : sortArguments (before ++ after) = .ok (first ++ last) := by
        rw [sortArguments_append hjoint.mark, hbefore, hafter]
        rfl
      have hspares : ∀ a ∈ last, ∀ s ∈ a.switches, o.Spares s := fun a ha =>
        spares_of_switchesOf hall hspares a (List.mem_append_right first ha)
      have hsettled : Settled first last := hjoint.settled hbefore hafter
      have hsettled' : Settled first (sorted ++ last) :=
        hsettled.insert (notMem_of_sorted (forall₂_of_mapM hsorted))
      calc Request.ofGathered (gather {} (first ++ (sorted ++ last)))
          = .ofGathered (gather {} first >>= fun g => gather g (sorted ++ last)) := by
            rw [hsettled'.gather_append]
        _ = .ofGathered (gather {} first >>= fun g => (gather g last).map o.on) := by
            simp only [hgather, Override.gather_on hspares]
        _ = .ofGathered ((gather {} first >>= fun g => gather g last).map o.on) := by
            cases gather {} first <;> rfl
        _ = o.request (.ofGathered (gather {} (first ++ last))) := by
            rw [o.ofGathered_map, hsettled.gather_append]

/-- Options that no argument is about keep the values they have at first. -/
lemma ofArguments_eq_request {o : Override} (hempty : o.on {} = {}) {args : List String}
    (hspares : ∀ s ∈ switchesOf args, o.Spares s) :
    Request.ofArguments args = o.request (.ofArguments args) := by
  rw [Request.ofArguments]
  cases hsorted : sortArguments args with
  | error reason => rfl
  | ok sorted =>
    calc Request.ofGathered (gather {} sorted)
        = .ofGathered (gather (o.on {}) sorted) := by rw [hempty]
      _ = o.request (.ofGathered (gather {} sorted)) := by
          rw [Override.gather_on (spares_of_switchesOf hsorted hspares), o.ofGathered_map]

/-! ### Single options -/

/-- An option that takes a value takes the plain argument after it. -/
lemma gather_value {s : Switch} (htakes : s.takesValue = true) {g g' : Gathered} {value : String}
    (hset : g.set s value = .ok g') (spelling : String) (rest : List Argument) :
    gather g (.switch s spelling none :: .plain value :: rest) = gather g' rest := by
  rw [gather_cons]
  simp only [Gathered.place, unfoldArgument, valueFor, htakes, if_true, Gathered.setAll,
    List.foldlM_nil, pure_bind, hset]
  rfl

lemma sets_trace : Sets ["--trace"] { trace := true } where
  mark := by decide
  gather := ⟨[.switch .trace "--trace" none], by decide, fun g rest => by
    rw [List.singleton_append, gather_cons]
    rfl⟩

lemma sets_verbose {arg : String} (h : arg = "-v" ∨ arg = "--verbose") :
    Sets [arg] { verbose := true } where
  mark := by rcases h with rfl | rfl <;> decide
  gather := ⟨[.switch .verbose arg none], by rcases h with rfl | rfl <;> decide, fun g rest => by
    rw [List.singleton_append, gather_cons]
    rfl⟩

lemma sets_output {path : String} (hmark : path ≠ "--")
    (hplain : sortOne path = .ok (.plain path)) :
    Sets ["-o", path] { output := some (some path) } := by
  refine ⟨by simp [Ne.symm hmark], [.switch .output "-o" none, .plain path], ?_, fun g rest => ?_⟩
  · rw [List.mapM_cons, List.mapM_cons, hplain]
    rfl
  · refine gather_value rfl ?_ "-o" rest
    rw [Gathered.set, if_pos hmark]
    rfl

/-! ### Numbers among the arguments -/

/-- Every spelling has a letter in it. -/
lemma any_letter_spellings :
    (spellings.all fun p => p.1.toList.any fun c => c ≠ '-' && !Number.isDigit c) = true := by
  decide +kernel

lemma spelling_ne {n : Int} {p : String × Switch} (hp : p ∈ spellings) {s : List Char}
    (hs : s ⊆ (toString n).toList) : p.1.toList ≠ s := by
  rintro rfl
  have hletter := List.all_eq_true.1 any_letter_spellings p hp
  obtain ⟨c, hc, hletter⟩ := List.any_eq_true.1 hletter
  rcases Number.mem_toString (hs hc) with rfl | hdigit
  · simp at hletter
  · simp [hdigit] at hletter

lemma isNegativeNumber_of_isDigit {s : List Char} (hs : s ≠ [])
    (h : ∀ c ∈ s, Number.isDigit c = true) : isNegativeNumber ('-' :: s) = true := by
  have hend : s.getLast? ≠ some '\n' := by
    intro hend
    exact absurd (h _ (List.mem_of_getLast? hend)) (by decide)
  have hdigits : s.dropWhile (fun c => (Number.decimal? c).isSome) = [] := by
    rw [List.dropWhile_eq_nil_iff]
    intro c hc
    rw [Number.decimal?_of_isDigit (h c hc)]
    rfl
  simp only [isNegativeNumber, if_neg hend, hdigits]
  simpa using hs

lemma sortDashed_of_isDigit {n : Int} {c : Char} {s : List Char}
    (hn : (toString n).toList = '-' :: c :: s) :
    sortDashed ('-' :: c :: s) = .ok (.plain (toString n)) := by
  have hdigits : ∀ d ∈ c :: s, Number.isDigit d = true := by
    rw [Number.toList_toString] at hn
    split at hn
    · exact absurd (Number.isDigit_of_mem_toDigits (hn ▸ List.mem_cons_self)) (by decide)
    · intro d hd
      rw [← (List.cons.inj hn).2] at hd
      exact Number.isDigit_of_mem_toDigits hd
  have hequals : ('-' :: c :: s).dropWhile (· ≠ '=') = [] := by
    rw [List.dropWhile_eq_nil_iff, ← hn]
    intro d hd
    rcases Number.mem_toString hd with rfl | hdigit
    · decide
    · rw [decide_eq_true_eq]
      rintro rfl
      exact absurd hdigit (by decide)
  have hsplit : splitEquals ('-' :: c :: s) = ('-' :: c :: s, none) := by
    rw [splitEquals, hequals]
  have hcandidates : candidates ('-' :: c :: s) = [] := by
    unfold candidates
    split
    · next heq =>
      obtain ⟨-, rfl, -⟩ : '-' = '-' ∧ c = '-' ∧ s = _ := by simpa using heq
      exact absurd (hdigits _ List.mem_cons_self) (by decide)
    · rw [List.map_eq_nil_iff, List.filter_eq_nil_iff]
      intro p hp
      rw [decide_eq_true_eq]
      refine spelling_ne (n := n) hp ?_
      rw [hn]
      exact List.take_subset 2 _
  have htext : String.ofList ('-' :: c :: s) = toString n := by
    rw [← hn, String.ofList_toList]
  simp only [sortDashed, hsplit, hcandidates, htext,
    isNegativeNumber_of_isDigit (List.cons_ne_nil c s) hdigits, Bool.true_or, if_true]

/-- The decimal form of a number is no option, even with a minus in front. -/
lemma sortOne_toString (n : Int) : sortOne (toString n) = .ok (.plain (toString n)) := by
  have hlookup : spellings.lookup (toString n) = none := by
    rw [List.lookup_eq_none_iff]
    intro p hp
    rw [bne_iff_ne]
    intro heq
    exact spelling_ne hp (List.Subset.refl _) (congrArg String.toList heq.symm)
  rw [sortOne, hlookup]
  simp only
  split
  · next heq => exact sortDashed_of_isDigit heq
  · rfl

lemma sets_defaults (d : Direction) {n : Int} (hn : n.natAbs < 10 ^ Number.maxDigits) :
    Sets ["--direction", d.name, "--spacing", toString n]
      { direction := some (some d), spacing := some (some (.number n)) } := by
  have hname : d.name ≠ "--" ∧ sortOne d.name = .ok (.plain d.name) ∧
      choose .direction d.name = .ok d := by
    cases d <;> decide +kernel
  have hne : toString n ≠ "--" := by
    intro h
    have hread := Number.ofText?_toString hn
    rw [h] at hread
    cases hread
  have hdirection (g : Gathered) :
      g.set .direction d.name = .ok { g with direction := some d } := by
    rw [Gathered.set, if_pos hname.1, hname.2.2]
    rfl
  have hspacing (g : Gathered) :
      g.set .spacing (toString n) = .ok { g with spacing := some (.number n) } := by
    rw [Gathered.set, if_pos hne, Number.ofText?_toString hn]
  refine ⟨?_, [.switch .direction "--direction" none, .plain d.name,
    .switch .spacing "--spacing" none, .plain (toString n)], ?_, fun g rest => ?_⟩
  · simp only [List.mem_cons, List.not_mem_nil, or_false, not_or]
    exact ⟨by decide, Ne.symm hname.1, by decide, Ne.symm hne⟩
  · simp only [List.mapM_cons, hname.2.1, sortOne_toString]
    rfl
  · exact (gather_value rfl (hdirection g) _ _).trans (gather_value rfl (hspacing _) _ _)

end Command
end Flowchart
