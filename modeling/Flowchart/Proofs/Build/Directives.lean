import Flowchart.Proofs.Build.Meaning
import Flowchart.Proofs.Token.Reading
import Flowchart.Trace

/-!
# Directives in a text

A spacing is the only thing in a text that can keep it from being read: `exists_parse_iff` says when
a text has a chart, whatever the options are and whether or not there is a trace.

The directives that a chart is written with are read back (`readsAs_optionLines`), and they set the
options that they were written for (`foldl_directed_directiveTokens`).  In front of any text they do
the same as options that are set from the start (`graph_parse_directiveLines`).
-/

namespace Flowchart
namespace Token

/-! ### Spacings and directions -/

lemma isValueChar_of_isDigit {c : Char} (h : Number.isDigit c = true) : isValueChar c = true := by
  have hrange := Number.isDigit_iff.1 h
  rw [isValueChar, Bool.and_eq_true, decide_eq_true_eq, decide_eq_true_eq]
  constructor
  · rintro rfl
    simp at hrange
  · rintro rfl
    simp at hrange

/-- The token of a spacing that is written with the given value. -/
def spacing (value : List Char) : Token :=
  .directive (String.ofList ("spacing".toList ++ ' ' :: value))

/-- The token of a direction. -/
def direction (d : Direction) : Token :=
  .directive (String.ofList ("direction".toList ++ ' ' :: d.name.toList))

lemma overlong?_spacing (value : List Char) :
    (spacing value).overlong? =
      if Number.maxDigits < (Number.leadingDigits value).length then
        some (Number.leadingDigits value).length
      else none := by
  have hname : ' ' ∉ "spacing".toList := by decide
  simp only [overlong?, spacing, directiveName_ofList hname, directiveValue_ofList hname,
    String.ofList_toList, String.toList_ofList, true_and]

lemma overlong?_eq_none {t : Token} (h : ∀ text, t ≠ .directive text) : t.overlong? = none := by
  cases t with
  | directive text => exact absurd rfl (h text)
  | _ => rfl

lemma overlong?_direction (d : Direction) : (direction d).overlong? = none := by
  cases d <;> decide

end Token

namespace Build

lemma applyDirective_spacing (o : Options) {value : List Char} {n : Int}
    (h : Number.leading value = .ok (some n)) :
    applyDirective o (String.ofList ("spacing".toList ++ ' ' :: value))
      = .ok ({ o with nodeSpacing := n }, .directiveApplied (toString n)) := by
  have hname : ' ' ∉ "spacing".toList := by decide
  simp only [applyDirective, Token.directiveName_ofList hname, Token.directiveValue_ofList hname,
    String.ofList_toList, String.toList_ofList, h]
  rfl

lemma directed_spacing {o : Options} {value : List Char} {n : Int}
    (h : Number.leading value = .ok (some n)) :
    directed o (.spacing value) = { o with nodeSpacing := n } := by
  simp only [directed, Token.spacing, applyDirective_spacing o h]

lemma directed_direction (o : Options) (d : Direction) :
    directed o (.direction d) = { o with direction := d } := by
  cases d <;> rfl

lemma foldl_directed_eq_self {ts : List Token} (h : ∀ t ∈ ts, ∀ text, t ≠ .directive text)
    (o : Options) : ts.foldl directed o = o := by
  induction ts with
  | nil => rfl
  | cons t ts ih =>
    rw [List.foldl_cons]
    cases t with
    | directive text => exact absurd rfl (h (.directive text) (by simp) text)
    | _ => exact ih fun t ht => h t (by simp [ht])

/-- A spacing that was read can be written. -/
lemma natAbs_directed_lt {o : Options} (t : Token)
    (h : o.nodeSpacing.natAbs < 10 ^ Number.maxDigits) :
    (directed o t).nodeSpacing.natAbs < 10 ^ Number.maxDigits := by
  cases t with
  | directive text =>
    rcases applyDirective_cases o text with ⟨k, -, ha⟩ | ⟨-, o', a, ha, heq | hlt⟩
    · simpa only [directed, ha] using h
    · simpa only [directed, ha, heq] using h
    · simpa only [directed, ha] using hlt
  | _ => exact h

lemma natAbs_foldl_directed_lt {o : Options} (ts : List Token)
    (h : o.nodeSpacing.natAbs < 10 ^ Number.maxDigits) :
    (ts.foldl directed o).nodeSpacing.natAbs < 10 ^ Number.maxDigits := by
  induction ts generalizing o with
  | nil => exact h
  | cons t ts ih => exact ih (natAbs_directed_lt t h)

/-- If the spacing that holds from the start can be written, so can that of the chart. -/
lemma natAbs_of_parse_lt {ids : IdSupply} {o : Options} {text : String} {g : Graph}
    (hfresh : ids.Fresh) (ho : o.nodeSpacing.natAbs < 10 ^ Number.maxDigits)
    (hg : (parse ids o text).graph = .ok g) :
    g.options.nodeSpacing.natAbs < 10 ^ Number.maxDigits := by
  rw [(depicts_of_build hfresh hg).2]
  exact natAbs_foldl_directed_lt _ ho

/-! ### Directives that were written -/

/-- The tokens of the directives that options are written with. -/
def directiveTokens (o : Options) : List Token :=
  (if o.direction = ({} : Options).direction then [] else [.direction o.direction, .newline]) ++
    if o.nodeSpacing = ({} : Options).nodeSpacing then []
    else [.spacing (toString o.nodeSpacing).toList, .newline]

lemma readsAs_directionLine (d : Direction) :
    Token.ReadsAs (s!"@direction {d.name}".toList ++ ['\n']) [.direction d, .newline] := by
  have hvalue : d.name.toList.all Token.isValueChar = true := by
    cases d <;> decide
  have hstrip : Text.strip d.name.toList = d.name.toList := by
    cases d <;> decide
  have htext : s!"@direction {d.name}".toList
      = '@' :: "direction".toList ++ ' ' :: d.name.toList := by
    rw [String.toList_append]
    rfl
  rw [htext]
  exact Token.readsAs_directive (List.all_eq_true.1 (by decide)) (List.all_eq_true.1 hvalue) hstrip

lemma readsAs_spacingLine (n : Int) :
    Token.ReadsAs (s!"@spacing {n}".toList ++ ['\n'])
      [.spacing (toString n).toList, .newline] := by
  have hvalue : ∀ c ∈ (toString n).toList, Token.isValueChar c = true := by
    intro c hc
    rcases Number.mem_toString hc with rfl | hdigit
    · decide
    · exact Token.isValueChar_of_isDigit hdigit
  have hstrip : Text.strip (toString n).toList = (toString n).toList :=
    Text.strip_eq_self fun c hc => Number.isBlank_of_mem_toString hc
  have htext : s!"@spacing {n}".toList
      = '@' :: "spacing".toList ++ ' ' :: (toString n).toList := by
    rw [String.toList_append]
    rfl
  rw [htext]
  exact Token.readsAs_directive (List.all_eq_true.1 (by decide)) hvalue hstrip

lemma readsAs_direction (o : Options) :
    Token.ReadsAs ((Written.direction o).flatMap (· ++ ['\n']))
      (if o.direction = ({} : Options).direction then []
        else [.direction o.direction, .newline]) := by
  rw [Written.direction]
  split
  · exact .nil
  · rw [List.flatMap_singleton]
    exact readsAs_directionLine o.direction

lemma readsAs_optionLines (o : Options) :
    Token.ReadsAs ((Written.optionLines o).flatMap (· ++ ['\n'])) (directiveTokens o) := by
  rw [Written.optionLines, List.flatMap_append]
  refine (readsAs_direction o).append ?_
  split
  · exact .nil
  · rw [List.flatMap_singleton]
    exact readsAs_spacingLine o.nodeSpacing

lemma nodeKeys_directiveTokens (o : Options) : nodeKeys (directiveTokens o) = [] := by
  unfold directiveTokens
  split <;> split <;> rfl

lemma linksFrom_directiveTokens (o : Options) (ts : List Token) :
    linksFrom none none false (directiveTokens o ++ ts) = linksFrom none none false ts := by
  unfold directiveTokens
  split <;> split <;> rfl

lemma mem_directiveTokens {o : Options} {t : Token} (h : t ∈ directiveTokens o) :
    t = .direction o.direction ∨ t = .spacing (toString o.nodeSpacing).toList ∨ t = .newline := by
  rcases List.mem_append.1 h with h | h
  · split at h
    · exact absurd h List.not_mem_nil
    · rcases List.mem_pair.1 h with rfl | rfl
      · exact .inl rfl
      · exact .inr (.inr rfl)
  · split at h
    · exact absurd h List.not_mem_nil
    · rcases List.mem_pair.1 h with rfl | rfl
      · exact .inr (.inl rfl)
      · exact .inr (.inr rfl)

lemma overlong?_directiveTokens {o : Options} (h : o.nodeSpacing.natAbs < 10 ^ Number.maxDigits) :
    ∀ t ∈ directiveTokens o, t.overlong? = none := by
  intro t ht
  rcases mem_directiveTokens ht with rfl | rfl | rfl
  · exact Token.overlong?_direction _
  · rcases Number.leading_cases (toString o.nodeSpacing).toList with ⟨-, herr⟩ | ⟨hle, -⟩
    · rw [Number.leading_toString h] at herr
      cases herr
    · rw [Token.overlong?_spacing, if_neg (by omega)]
  · rfl

/-- The directives that options are written with set them again. -/
lemma foldl_directed_directiveTokens {o : Options}
    (h : o.nodeSpacing.natAbs < 10 ^ Number.maxDigits) :
    (directiveTokens o).foldl directed {}
      = { direction := o.direction, nodeSpacing := o.nodeSpacing } := by
  have hread := Number.leading_toString h
  have hspacing : ∀ o', directed o' (.spacing (toString o.nodeSpacing).toList)
      = { o' with nodeSpacing := o.nodeSpacing } := fun o' => directed_spacing hread
  have hnewline : ∀ o', directed o' .newline = o' := fun o' => rfl
  unfold directiveTokens
  split <;> split <;> simp_all [directed_direction]

/-! ### Directives in front of a text -/

/-- The lines that set a direction and a spacing. -/
def directiveLines (d : Direction) (n : Int) : String :=
  s!"@direction {d.name}\n@spacing {n}\n"

lemma toList_directiveLines (d : Direction) (n : Int) :
    (directiveLines d n).toList
      = s!"@direction {d.name}".toList ++ ['\n'] ++ (s!"@spacing {n}".toList ++ ['\n']) := by
  simp only [directiveLines, String.toList_append, List.append_assoc]
  rfl

lemma notMem_directiveLines (d : Direction) (n : Int) : '\r' ∉ (directiveLines d n).toList := by
  have hname : '\r' ∉ d.name.toList := by
    cases d <;> decide
  have hnumber : '\r' ∉ (toString n).toList := by
    intro hmem
    rcases Number.mem_toString hmem with heq | hdigit
    · exact absurd heq (by decide)
    · exact absurd hdigit (by decide)
  simp only [directiveLines, String.toList_append, List.mem_append, not_or]
  exact ⟨⟨⟨⟨by decide, hname⟩, by decide⟩, hnumber⟩, by decide⟩

lemma ofText_directiveLines (d : Direction) (n : Int) (text : String) :
    Token.ofText (directiveLines d n ++ text)
      = [.direction d, .newline, .spacing (toString n).toList, .newline] ++ Token.ofText text := by
  rw [Token.ofText, String.toList_append, toList_directiveLines]
  exact (readsAs_directionLine d).append (readsAs_spacingLine n) text.toList

lemma step_direction (s : State) (d : Direction) :
    (s.step (.direction d)).failure = none ∧
      (s.step (.direction d)).state = { s with options := { s.options with direction := d } } := by
  cases d <;> exact ⟨rfl, rfl⟩

lemma step_spacing (s : State) {value : List Char} {n : Int}
    (h : Number.leading value = .ok (some n)) :
    (s.step (.spacing value)).failure = none ∧
      (s.step (.spacing value)).state
        = { s with options := { s.options with nodeSpacing := n } } := by
  simp only [Token.spacing, State.step, State.direct, applyDirective_spacing s.options h, and_self]

/-- The end of an empty line leads nowhere. -/
lemma step_newline {s : State} (h : s.chain = {}) :
    (s.step .newline).failure = none ∧ (s.step .newline).state = s := by
  obtain ⟨nodes, edges, options, ids, chain⟩ := s
  obtain rfl : chain = {} := h
  exact ⟨rfl, rfl⟩

lemma graph_run_cons {s : State} {t : Token} (h : (s.step t).failure = none) (i : Nat)
    (ts : List Token) :
    (run i s (t :: ts)).graph = (run (i + 1) (s.step t).state ts).graph := by
  simp only [run, h, Result.graph]

/-- The index of the first token plays no part in the chart. -/
lemma graph_run_index (i j : Nat) (s : State) (ts : List Token) :
    (run i s ts).graph = (run j s ts).graph := by
  induction ts generalizing i j s with
  | nil => rfl
  | cons t ts ih =>
    cases h : (s.step t).failure with
    | none =>
      rw [graph_run_cons h, graph_run_cons h]
      exact ih (i + 1) (j + 1) _
    | some e => simp only [run, h, Result.graph]

/-- The first lines of a text set the options as if they had been so from the start. -/
lemma graph_parse_directiveLines (ids : IdSupply) (o : Options) (d : Direction) {n : Int}
    (hn : n.natAbs < 10 ^ Number.maxDigits) (text : String) :
    (parse ids o (directiveLines d n ++ text)).graph
      = (parse ids { o with direction := d, nodeSpacing := n } text).graph := by
  have hspacing (s : State) := step_spacing s (Number.leading_toString hn)
  simp only [parse, build, ofText_directiveLines, List.cons_append, List.nil_append]
  rw [graph_run_cons (step_direction _ d).1, (step_direction _ d).2,
    graph_run_cons (step_newline rfl).1, (step_newline rfl).2, graph_run_cons (hspacing _).1,
    (hspacing _).2, graph_run_cons (step_newline rfl).1, (step_newline rfl).2]
  exact graph_run_index _ _ _ _

/-! ### Texts that can be read -/

/-- With enough ids, a text is read into a chart exactly if no spacing in it has too many digits,
and a trace then gets both of its snapshots.  The only error is that of the first such spacing. -/
theorem exists_parse_iff (ids : IdSupply) (o : Options) (trace : Trace) (text : String)
    (hlasts : ids.Lasts (idsNeeded (Token.ofText text))) :
    ((∃ g, (parse ids o text).graph = .ok g ∧
        (trace.addParse text (parse ids o text)).stages
          = trace.stages ++ [.ofTokens (Token.ofText text), .ofGraph g]) ↔
      ∀ t ∈ Token.ofText text, t.overlong? = none) ∧
    ∀ e, (parse ids o text).graph = .error e ↔
      ∃ k, (Token.ofText text).findSome? Token.overlong? = some k ∧ e = .read k := by
  have hfail : (parse ids o text).failure
      = ((Token.ofText text).findSome? Token.overlong?).map .read := failure_build hlasts
  refine ⟨⟨?_, fun hshort => ?_⟩, fun e => ?_⟩
  · rintro ⟨g, hg, -⟩
    rw [(graph_eq_ok_iff.1 hg).1, eq_comm, Option.map_eq_none_iff] at hfail
    exact List.findSome?_eq_none_iff.1 hfail
  · obtain ⟨g, hg⟩ : ∃ g, (parse ids o text).graph = .ok g := exists_build hlasts hshort
    refine ⟨g, hg, ?_⟩
    simp [Trace.addParse, Trace.addPass, Trace.addStage, Trace.addRecords, hg]
  · rw [graph_eq_error_iff, hfail, Option.map_eq_some_iff]
    simp only [eq_comm]

theorem exists_parse_iff_counting :
    ∃ g, (parse .counting {} "@spacing 30\n[A] -> (B)").graph = .ok g := by
  obtain ⟨g, hg, -⟩ := (exists_parse_iff .counting {} {} "@spacing 30\n[A] -> (B)"
    (by decide +kernel)).1.2 (by decide +kernel)
  exact ⟨g, hg⟩

/-- A text that sets the spacing to a number with too many digits has no chart. -/
lemma graph_parse_spacing {digits : List Char} (h : ∀ c ∈ digits, Number.isDigit c = true)
    (hlong : Number.maxDigits < digits.length) {ids : IdSupply} (hids : ids.Lasts 0) (o : Options) :
    (parse ids o (String.ofList ('@' :: "spacing".toList ++ ' ' :: digits ++ ['\n']))).graph
      = .error (.read digits.length) := by
  have hread : Token.ReadsAs ('@' :: "spacing".toList ++ ' ' :: digits ++ ['\n'])
      [.spacing digits, .newline] :=
    Token.readsAs_directive (List.all_eq_true.1 (by decide))
      (fun c hc => Token.isValueChar_of_isDigit (h c hc))
      (Text.strip_eq_self fun c hc => Number.isBlank_of_isDigit (h c hc))
  have htokens : Token.ofText
      (String.ofList ('@' :: "spacing".toList ++ ' ' :: digits ++ ['\n']))
      = [.spacing digits, .newline] := by
    rw [Token.ofText, String.toList_ofList, hread.scan_eq]
  have hfail : (build ids o [.spacing digits, .newline]).failure = some (.read digits.length) := by
    rw [failure_build, List.findSome?_cons, Token.overlong?_spacing,
      Number.leadingDigits_eq_self h, if_pos hlong]
    · rfl
    · exact hids
  rw [parse, htokens]
  exact graph_eq_error_iff.2 hfail

theorem graph_parse_overlong_spacing :
    (parse .counting {}
      (String.ofList ('@' :: "spacing".toList ++ ' ' :: List.replicate 4301 '9' ++ ['\n']))).graph
      = .error (.read 4301) := by
  have hdigits : ∀ c ∈ List.replicate 4301 '9', Number.isDigit c = true := by
    intro c hc
    rw [List.eq_of_mem_replicate hc]
    decide
  have hlong : Number.maxDigits < (List.replicate 4301 '9').length := by
    rw [List.length_replicate]
    decide
  have herror := graph_parse_spacing hdigits hlong
    (show IdSupply.counting.Lasts 0 by decide +kernel) {}
  rwa [List.length_replicate] at herror

end Build
end Flowchart
