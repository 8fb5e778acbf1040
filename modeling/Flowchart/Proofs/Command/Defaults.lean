import Flowchart.Proofs.Build.Directives
import Flowchart.Proofs.Command.Effects
import Flowchart.Proofs.Text.Utf8

/-!
# Defaults of the command

The direction and the spacing that a chart has unless its text says otherwise can be given to the
command or written in the first lines of the text.  It makes no difference which
(`defaults_eq_directives`): the tokens of such lines lead the pass to the state that it would have
started in with these options, and folding line ends goes past the lines.

The two runs that are compared have different files before them, so that their folders agree only in
what is written to them (`Effect.Matches`).
-/

namespace Flowchart
namespace Command

variable {ids : IdSupply} {s : Settings} {d : Direction} {n : Int}

/-- Settings with a direction and a spacing. -/
def Settings.withDefaults (s : Settings) (d : Direction) (n : Int) : Settings :=
  { s with direction := some d, spacing := some (.number n) }

lemma resultOf_withDefaults (hdirection : s.direction = none) (hspacing : s.spacing = none)
    (hn : n.natAbs < 10 ^ Number.maxDigits) (text : String) :
    (s.withDefaults d n).resultOf ids text = s.resultOf ids (Build.directiveLines d n ++ text) := by
  have hoptions : s.options = {} := by
    simp only [Settings.options, hdirection, hspacing, Option.getD_none]
  have hblank (text' : String) : s.leavesBlank text' = false := by
    simp [Settings.leavesBlank, hspacing]
  have hblank' : (s.withDefaults d n).leavesBlank text = false := by
    simp [Settings.leavesBlank, Settings.withDefaults]
  rw [Settings.resultOf, Settings.resultOf, hoptions, Build.graph_parse_directiveLines ids {} d hn,
    hblank, hblank']
  rfl

/-- A file with a text is answered with defaults as a file that starts with directives is answered
without. -/
lemma answer_withDefaults (hdirection : s.direction = none) (hspacing : s.spacing = none)
    (hn : n.natAbs < 10 ^ Number.maxDigits) (text : String) :
    (s.withDefaults d n).answer ids (.ok (Text.encode text.toList))
      = s.answer ids (.ok (Text.encode (Build.directiveLines d n ++ text).toList)) := by
  simp only [Settings.answer, Text.read_encode]
  rw [String.toList_append, Text.foldLineEnds_append (Build.notMem_directiveLines d n),
    String.ofList_append, String.ofList_toList, resultOf_withDefaults hdirection hspacing hn]

/-- Two runs end alike and write alike, each in its own folder. -/
structure Effect.Matches (e e' : Effect) (folder folder' : Files.Folder) : Prop where
  status : e.status = e'.status
  out : e.out = e'.out
  files : e.folder = folder ∧ e'.folder = folder' ∨
    ∃ place bytes, e.folder = folder.put place bytes ∧ e'.folder = folder'.put place bytes

lemma matches_deliver {folder folder' : Files.Folder} (h : folder.SamePlaces folder')
    (target? : Option String) (answer : Except (Except Error Nat) String) :
    (deliver folder target? answer).Matches (deliver folder' target? answer) folder folder' := by
  cases answer with
  | error status => exact ⟨rfl, rfl, .inl ⟨rfl, rfl⟩⟩
  | ok text =>
    cases target? with
    | none => exact ⟨rfl, rfl, .inl ⟨rfl, rfl⟩⟩
    | some path =>
      simp only [deliver, Files.Folder.write, h.resolve_eq path true]
      cases folder'.resolve path true with
      | ok place => exact ⟨rfl, rfl, .inr ⟨place, _, rfl, rfl⟩⟩
      | error e => cases e <;> exact ⟨rfl, rfl, .inl ⟨rfl, rfl⟩⟩

/-- Defaults for the direction and the spacing are the same as directives in the first lines of the
text: the chart is the same, or the error, and so is what the command says and writes.  The options
may stand anywhere among the arguments. -/
theorem defaults_eq_directives (d : Direction) (n : Int) (hn : n.natAbs < 10 ^ Number.maxDigits)
    (text : String) :
    (∀ ids, (Build.parse ids { direction := d, nodeSpacing := n } text).graph
      = (Build.parse ids {} (Build.directiveLines d n ++ text)).graph) ∧
    ∀ (ids : IdSupply) (before after : List String) (folder : Files.Folder) (place : List String)
      (stdin : Text.Bytes), Joint before after →
      .direction ∉ switchesOf (before ++ after) → .spacing ∉ switchesOf (before ++ after) →
      (∀ s, Request.ofArguments (before ++ after) = .run s →
        s.input ≠ "-" ∧ folder.resolve s.input false = .ok place) →
      let plain := folder.put place (Text.encode text.toList)
      let directed := folder.put place (Text.encode (Build.directiveLines d n ++ text).toList)
      (effect ids (before ++ (["--direction", d.name, "--spacing", toString n] ++ after))
          plain stdin).Matches (effect ids (before ++ after) directed stdin) plain directed := by
  refine ⟨fun ids => (Build.graph_parse_directiveLines ids {} d hn text).symm, ?_⟩
  intro ids before after folder place stdin hjoint hdirection hspacing hinput plain directed
  have hspares (o : Override) (houtput : o.output = none) :
      ∀ s ∈ switchesOf (before ++ after), o.Spares s := fun s hs =>
    Override.spares_of_none (fun _ => houtput) (fun heq => absurd (heq ▸ hs) hdirection)
      (fun heq => absurd (heq ▸ hs) hspacing)
  have hgiven := ofArguments_insert hjoint (sets_defaults d hn) (hspares _ rfl)
  have hnone := ofArguments_eq_request
    (o := { direction := some none, spacing := some none }) rfl (hspares _ rfl)
  rw [effect_eq, effect_eq, hgiven]
  cases hrequest : Request.ofArguments (before ++ after) with
  | help =>
    rw [Override.request, Request.effect, Request.effect]
    exact ⟨rfl, rfl, .inl ⟨rfl, rfl⟩⟩
  | refuse reason =>
    rw [Override.request, Request.effect, Request.effect]
    exact ⟨rfl, rfl, .inl ⟨rfl, rfl⟩⟩
  | run s =>
    rw [hrequest] at hnone
    have hunset : s.direction = none ∧ s.spacing = none := by
      injection hnone with hs
      rw [hs]
      exact ⟨rfl, rfl⟩
    obtain ⟨hfile, hplace⟩ := hinput s hrequest
    have hread (bytes : Text.Bytes) : s.source (folder.put place bytes) stdin = .ok bytes := by
      rw [Settings.source, if_neg hfile, Files.Folder.read_put hplace]
    have hanswer : (s.withDefaults d n).answer ids ((s.withDefaults d n).source plain stdin)
        = s.answer ids (s.source directed stdin) := by
      rw [hread, ← answer_withDefaults hunset.1 hunset.2 hn]
      exact congrArg ((s.withDefaults d n).answer ids) (hread _)
    show (deliver plain s.target?
        ((s.withDefaults d n).answer ids ((s.withDefaults d n).source plain stdin))).Matches
      (deliver directed s.target? (s.answer ids (s.source directed stdin))) plain directed
    rw [hanswer]
    exact matches_deliver (Files.Folder.samePlaces_put folder place _ _) s.target? _

theorem defaults_eq_directives_negative :
    let text := "[A]\n@spacing 7\n[B] -> [A]"
    let folder : Files.Folder := ⟨[(["x", "y"], [])]⟩
    let plain := folder.put ["x", "a"] (Text.encode text.toList)
    let directed :=
      folder.put ["x", "a"] (Text.encode (Build.directiveLines .right (-30) ++ text).toList)
    Request.ofArguments ["x/a", "-ox/a"]
        = .run ⟨"x/a", some "x/a", .json, none, none, false, false⟩ ∧
      (effect .counting ["x/a", "--direction", "LR", "--spacing", "-30", "-ox/a"] plain []).Matches
        (effect .counting ["x/a", "-ox/a"] directed []) plain directed := by
  intro text folder plain directed
  have hrequest : Request.ofArguments ["x/a", "-ox/a"]
      = .run ⟨"x/a", some "x/a", .json, none, none, false, false⟩ := by decide +kernel
  have hn : (-30 : Int).natAbs < 10 ^ Number.maxDigits :=
    Nat.lt_of_lt_of_le (by decide : 30 < 10 ^ 2) (Nat.pow_le_pow_right (by decide) (by decide))
  refine ⟨hrequest, (defaults_eq_directives .right (-30) hn text).2 .counting ["x/a"] ["-ox/a"]
    folder ["x", "a"] [] (by decide +kernel) (by decide +kernel) (by decide +kernel) ?_⟩
  intro s hs
  obtain rfl : _ = s := Request.run.inj (hrequest.symm.trans hs)
  exact ⟨by decide, by rfl⟩

end Command
end Flowchart
