import Flowchart.Command.Run
import Flowchart.Proofs.Command.Arguments
import Flowchart.Proofs.Files.Kept

/-!
# What a run leaves behind

A run of the command reads, makes an answer of what it read, and delivers the answer
(`effect_eq`).  The answer is a text or the status of a failure.  Reading and answering change
nothing and print nothing, and delivering either prints the text or writes it to one file, which is
the last thing that can fail.  `effect_confined` draws the conclusions.

The answer does not depend on where it goes, nor on whether a trace or a log is asked for: none of
these settings occurs in `Settings.answer`.
-/

namespace Flowchart
namespace Command

/-! ### What the command has to say -/

/-- What the settings make of a text: the text that is to be written, or the error. -/
def Settings.resultOf (s : Settings) (ids : IdSupply) (text : String) : Except Error String :=
  match (Build.parse ids s.options text).graph with
  | .error e => .error (.number e)
  | .ok g => if s.leavesBlank text then blankResultText s.format g else resultText s.format g

/-- What the settings make of bytes that were read: the text that is to be written, or the status
with which the command ends. -/
def Settings.answer (s : Settings) (ids : IdSupply) (source : Except Files.Error Text.Bytes) :
    Except (Except Error Nat) String :=
  match source with
  | .error (.system _) => .error (.ok 1)
  | .error e => .error (.error (.file e))
  | .ok bytes =>
    match Text.read bytes with
    | .error e => .error (.error (.bytes e))
    | .ok text => (s.resultOf ids (String.ofList text)).mapError .error

lemma draft_cases (s : Settings) (ids : IdSupply) (text : String) :
    (∃ e log, draft s ids text = .error (e, log) ∧ s.resultOf ids text = .error e) ∨
      ∃ d, draft s ids text = .ok d ∧ s.resultOf ids text = .ok d.text := by
  simp only [draft, Settings.resultOf]
  cases (Build.parse ids s.options text).graph with
  | error e => exact .inl ⟨_, _, rfl, rfl⟩
  | ok g =>
    by_cases hblank : s.leavesBlank text = true
    · simp only [hblank, if_true]
      cases blankResultText s.format g with
      | error e => exact .inl ⟨_, _, rfl, rfl⟩
      | ok result => exact .inr ⟨_, rfl, rfl⟩
    · simp only [hblank, Bool.false_eq_true, if_false]
      cases resultText s.format g with
      | error e => exact .inl ⟨_, _, rfl, rfl⟩
      | ok result => exact .inr ⟨_, rfl, rfl⟩

/-- The work fails and says nothing on the standard output, or it makes a draft. -/
lemma work_cases (s : Settings) (ids : IdSupply) (source : Except Files.Error Text.Bytes) :
    (∃ o, work s ids source = .error o ∧ o.out = "" ∧ o.status ≠ .ok 0 ∧
        s.answer ids source = .error o.status) ∨
      ∃ d, work s ids source = .ok d ∧ s.answer ids source = .ok d.text := by
  unfold work Settings.answer
  cases source with
  | error e =>
    cases e with
    | system e => exact .inl ⟨_, rfl, rfl, by simp [Outcome.failed], rfl⟩
    | nul => exact .inl ⟨_, rfl, rfl, by simp, rfl⟩
  | ok bytes =>
    simp only
    cases Text.read bytes with
    | error e => exact .inl ⟨_, rfl, rfl, by simp, rfl⟩
    | ok text =>
      simp only
      rcases draft_cases s ids (String.ofList text) with
        ⟨e, log, hdraft, hresult⟩ | ⟨d, hdraft, hresult⟩
      · rw [hdraft, hresult]
        exact .inl ⟨_, rfl, rfl, by simp, rfl⟩
      · rw [hdraft, hresult]
        exact .inr ⟨d, rfl, rfl⟩

/-! ### What it leaves behind -/

/-- What a run leaves behind, its error output and its log apart. -/
structure Effect where
  status : Except Error Nat
  out : String
  folder : Files.Folder

/-- What a run of the command leaves behind. -/
def effect (ids : IdSupply) (args : List String) (folder : Files.Folder) (stdin : Text.Bytes) :
    Effect :=
  let (outcome, folder) := execute ids args folder stdin
  ⟨outcome.status, outcome.out, folder⟩

/-- An answer is printed or, if there is a target, written to it. -/
def deliver (folder : Files.Folder) (target? : Option String) :
    Except (Except Error Nat) String → Effect
  | .error status => ⟨status, "", folder⟩
  | .ok text =>
    match target? with
    | none => ⟨.ok 0, text, folder⟩
    | some path =>
      match folder.write path (Text.encode text.toList) with
      | .ok folder => ⟨.ok 0, "", folder⟩
      | .error (.system _) => ⟨.ok 1, "", folder⟩
      | .error e => ⟨.error (.file e), "", folder⟩

/-- The bytes that a run reads. -/
def Settings.source (s : Settings) (folder : Files.Folder) (stdin : Text.Bytes) :
    Except Files.Error Text.Bytes :=
  if s.input = "-" then .ok stdin else folder.read s.input

/-- What a request leaves behind. -/
def Request.effect (ids : IdSupply) (folder : Files.Folder) (stdin : Text.Bytes) :
    Request → Effect
  | .help => ⟨.ok 0, Command.help, folder⟩
  | .refuse _ => ⟨.ok 2, "", folder⟩
  | .run s => deliver folder s.target? (s.answer ids (s.source folder stdin))

variable {ids : IdSupply} {args : List String} {folder : Files.Folder} {stdin : Text.Bytes}

lemma execute_of_run {s : Settings} (h : Request.ofArguments args = .run s) :
    execute ids args folder stdin =
      match work s ids (s.source folder stdin) with
      | .error outcome => (outcome, folder)
      | .ok d =>
        match s.target? with
        | none => (d.printed, folder)
        | some path =>
          match folder.write path (Text.encode d.text.toList) with
          | .ok folder => (d.written path (.ok ()), folder)
          | .error e => (d.written path (.error e), folder) := by
  rw [execute, h]
  rfl

/-- A run reads, answers and delivers its answer. -/
lemma effect_eq (ids : IdSupply) (args : List String) (folder : Files.Folder)
    (stdin : Text.Bytes) :
    effect ids args folder stdin = (Request.ofArguments args).effect ids folder stdin := by
  cases hrequest : Request.ofArguments args with
  | help =>
    rw [effect, execute, hrequest]
    rfl
  | refuse reason =>
    rw [effect, execute, hrequest]
    rfl
  | run s =>
    rw [effect, execute_of_run hrequest, Request.effect]
    rcases work_cases s ids (s.source folder stdin) with
      ⟨o, hwork, hout, -, hanswer⟩ | ⟨d, hwork, hanswer⟩
    · rw [hwork, hanswer]
      simp only [deliver, hout]
    · rw [hwork, hanswer]
      simp only [deliver]
      cases s.target? with
      | none => rfl
      | some path =>
        simp only
        cases folder.write path (Text.encode d.text.toList) with
        | ok folder => rfl
        | error e => cases e <;> rfl

lemma deliver_of_failure {target? : Option String} {answer : Except (Except Error Nat) String}
    (h : (deliver folder target? answer).status ≠ .ok 0) :
    (deliver folder target? answer).out = "" ∧ (deliver folder target? answer).folder = folder := by
  unfold deliver at h ⊢
  split at h
  · exact ⟨rfl, rfl⟩
  · split at h
    · exact absurd rfl h
    · split at h
      · exact absurd rfl h
      · exact ⟨rfl, rfl⟩
      · exact ⟨rfl, rfl⟩

lemma answer_ne_zero {s : Settings} {source : Except Files.Error Text.Bytes}
    {status : Except Error Nat} (h : s.answer ids source = .error status) : status ≠ .ok 0 := by
  rcases work_cases s ids source with ⟨o, -, -, hstatus, hanswer⟩ | ⟨d, -, hanswer⟩
  · rw [h] at hanswer
    cases hanswer
    exact hstatus
  · rw [h] at hanswer
    cases hanswer

/-! ### Files -/

/-- A run has succeeded, and its text is in the file under a path: it is not printed, and no other
file is changed. -/
structure Effect.WritesTo (e : Effect) (folder : Files.Folder) (path text : String) : Prop where
  status : e.status = .ok 0
  out : e.out = ""
  read : e.folder.read path = .ok (Text.encode text.toList)
  elsewhere : ∃ place, folder.resolve path true = .ok place ∧
    ∀ other, other ≠ place → e.folder.get? other = folder.get? other

/-- A text that is delivered to a file is in it afterwards, also if the file was there before. -/
lemma writesTo_deliver {path : String} {answer : Except (Except Error Nat) String}
    (hfailed : ∀ status, answer = .error status → status ≠ .ok 0)
    (h : (deliver folder (some path) answer).status = .ok 0) :
    ∃ text, answer = .ok text ∧
      (deliver folder (some path) answer).WritesTo folder path text := by
  cases answer with
  | error status => exact absurd h (hfailed status rfl)
  | ok text =>
    refine ⟨text, rfl, ?_⟩
    cases hwrite : folder.write path (Text.encode text.toList) with
    | error e => cases e <;> simp [deliver, hwrite] at h
    | ok saved =>
      have hdeliver : deliver folder (some path) (.ok text) = ⟨.ok 0, "", saved⟩ := by
        simp only [deliver, hwrite]
      obtain ⟨place, hplace, hsaved⟩ := Files.Folder.write_eq_ok_iff.1 hwrite
      rw [hdeliver]
      refine ⟨rfl, rfl, Files.Folder.read_of_write hplace hwrite .refl, place, hplace, ?_⟩
      intro other hother
      rw [hsaved, Files.Folder.get?_put, if_neg hother]

/-! ### Trace and log -/

/-- Settings without a trace and without a log. -/
def Settings.quiet (s : Settings) : Settings := { s with trace := false, verbose := false }

/-- A request without a trace and without a log. -/
def Request.quiet : Request → Request
  | .run s => .run s.quiet
  | .help => .help
  | .refuse reason => .refuse reason

/-- A trace and a log leave nothing behind: neither the answer nor its target depends on them. -/
lemma effect_quiet (r : Request) : r.quiet.effect ids folder stdin = r.effect ids folder stdin := by
  cases r <;> rfl

lemma effect_of_quiet {args' : List String}
    (h : (Request.ofArguments args').quiet = (Request.ofArguments args).quiet) :
    effect ids args' folder stdin = effect ids args folder stdin := by
  rw [effect_eq, ← effect_quiet, h, effect_quiet, ← effect_eq]

/-- Arguments that ask for a trace or for the log can be put in or left out. -/
lemma effect_of_quiet_arguments {o : Override} (houtput : o.output = none)
    (hdirection : o.direction = none) (hspacing : o.spacing = none)
    {before added after : List String} (hjoint : Joint before after) (hsets : Sets added o) :
    effect ids (before ++ (added ++ after)) folder stdin
      = effect ids (before ++ after) folder stdin := by
  have hspares : ∀ s ∈ switchesOf (before ++ after), o.Spares s := fun _ _ =>
    Override.spares_of_none (fun _ => houtput) (fun _ => hdirection) (fun _ => hspacing)
  refine effect_of_quiet ?_
  rw [ofArguments_insert hjoint hsets hspares]
  cases Request.ofArguments (before ++ after) with
  | run s =>
    simp only [Override.request, Request.quiet, Settings.quiet, Override.settings, houtput,
      hdirection, hspacing, Option.getD_none]
  | _ => rfl

/-- Without its output file a request is that of the other arguments. -/
lemma ofArguments_without_output {before after : List String} {path : String}
    (hjoint : Joint before after) (hmark : path ≠ "--")
    (hplain : sortOne path = .ok (.plain path)) (hnone : .output ∉ switchesOf (before ++ after))
    {s : Settings} (h : Request.ofArguments (before ++ (["-o", path] ++ after)) = .run s) :
    s.output = some path ∧
      Request.ofArguments (before ++ after) = .run { s with output := none } := by
  have hspares (output : Option (Option String)) :
      ∀ s ∈ switchesOf (before ++ after), ({ output } : Override).Spares s := fun s hs =>
    Override.spares_of_none (fun heq => absurd (heq ▸ hs) hnone) (fun _ => rfl) (fun _ => rfl)
  rw [ofArguments_insert hjoint (sets_output hmark hplain) (hspares _)] at h
  have hkept := ofArguments_eq_request (o := { output := some none }) rfl (hspares _)
  cases hrequest : Request.ofArguments (before ++ after) with
  | run s' =>
    rw [hrequest] at h hkept
    cases h
    exact ⟨rfl, hkept⟩
  | _ =>
    rw [hrequest] at h
    cases h

/-! ### All effects -/

/-- What a run leaves behind.  If it fails, nothing: no file is changed and nothing is printed.  If
it succeeds and has an output file, then that file holds what would be printed without it, and
nothing else is changed or printed.  A trace and a log make no difference. -/
theorem effect_confined (ids : IdSupply) (args : List String) (folder : Files.Folder)
    (stdin : Text.Bytes) :
    ((effect ids args folder stdin).status ≠ .ok 0 →
      (effect ids args folder stdin).out = "" ∧ (effect ids args folder stdin).folder = folder) ∧
    (Request.ofArguments args = .help → effect ids args folder stdin = ⟨.ok 0, help, folder⟩) ∧
    (∀ s path, Request.ofArguments args = .run s → s.target? = some path →
      (effect ids args folder stdin).status = .ok 0 →
      ∃ text, (effect ids args folder stdin).WritesTo folder path text ∧
        ∀ args', Request.ofArguments args' = .run { s with output := none } →
          effect ids args' folder stdin = ⟨.ok 0, text, folder⟩) ∧
    (∀ before path after s, args = before ++ (["-o", path] ++ after) → Joint before after →
      path ≠ "--" → sortOne path = .ok (.plain path) → .output ∉ switchesOf (before ++ after) →
      Request.ofArguments args = .run s → s.output = some path ∧
        Request.ofArguments (before ++ after) = .run { s with output := none }) ∧
    (∀ args', (Request.ofArguments args').quiet = (Request.ofArguments args).quiet →
      effect ids args' folder stdin = effect ids args folder stdin) ∧
    ∀ before after arg, args = before ++ after → Joint before after →
      arg ∈ ["--trace", "-v", "--verbose"] →
      effect ids (before ++ ([arg] ++ after)) folder stdin = effect ids args folder stdin := by
  refine ⟨?_, fun hrequest => ?_, ?_, ?_, fun args' => effect_of_quiet, ?_⟩
  · intro hstatus
    rw [effect_eq] at hstatus ⊢
    cases hrequest : Request.ofArguments args with
    | help =>
      rw [hrequest] at hstatus
      exact absurd rfl hstatus
    | refuse reason => exact ⟨rfl, rfl⟩
    | run s =>
      rw [hrequest] at hstatus
      exact deliver_of_failure hstatus
  · rw [effect_eq, hrequest]
    rfl
  · intro s path hrequest htarget hstatus
    rw [effect_eq, hrequest, Request.effect, htarget] at hstatus ⊢
    obtain ⟨text, hanswer, hwrites⟩ := writesTo_deliver (fun _ => answer_ne_zero) hstatus
    refine ⟨text, hwrites, fun args' hrequest' => ?_⟩
    -- the output file is not read, and its name is in no answer
    have hsame : Settings.answer { s with output := none } ids
        (Settings.source { s with output := none } folder stdin) = .ok text := hanswer
    rw [effect_eq, hrequest', Request.effect, hsame]
    rfl
  · rintro before path after s rfl hjoint hmark hplain hnone hrequest
    exact ofArguments_without_output hjoint hmark hplain hnone hrequest
  · rintro before after arg rfl hjoint harg
    simp only [List.mem_cons, List.not_mem_nil, or_false] at harg
    rcases harg with rfl | hverbose
    · exact effect_of_quiet_arguments rfl rfl rfl hjoint sets_trace
    · exact effect_of_quiet_arguments rfl rfl rfl hjoint (sets_verbose hverbose)

theorem effect_confined_onto_input :
    let folder : Files.Folder := ⟨[(["a"], Text.encode "[A] --> [A]".toList), (["b"], [])]⟩
    Request.ofArguments ["-o", "./a", "a", "-f", "dsl"]
        = .run ⟨"a", some "./a", .text, none, none, false, false⟩ ∧
      (effect .counting ["-o", "./a", "a", "-f", "dsl"] folder []).status = .ok 0 ∧
      ∃ text,
        (effect .counting ["-o", "./a", "a", "-f", "dsl"] folder []).WritesTo folder "./a" text ∧
        effect .counting ["a", "-f", "dsl"] folder [] = ⟨.ok 0, text, folder⟩ ∧
        effect .counting ["a", "--trace", "-f", "dsl"] folder [] = ⟨.ok 0, text, folder⟩ := by
  intro folder
  have hrequest : Request.ofArguments ["-o", "./a", "a", "-f", "dsl"]
      = .run ⟨"a", some "./a", .text, none, none, false, false⟩ := by decide +kernel
  have hstatus : (effect .counting ["-o", "./a", "a", "-f", "dsl"] folder []).status = .ok 0 := by
    decide +kernel
  obtain ⟨-, -, hfile, hwithout, -, -⟩ :=
    effect_confined .counting ["-o", "./a", "a", "-f", "dsl"] folder []
  obtain ⟨text, hwrites, hprinted⟩ := hfile _ "./a" hrequest rfl hstatus
  have hprinted := hprinted ["a", "-f", "dsl"]
    (hwithout [] "./a" ["a", "-f", "dsl"] _ rfl (by decide +kernel) (by decide)
      (by decide +kernel) (by decide +kernel) hrequest).2
  refine ⟨hrequest, hstatus, text, hwrites, hprinted, ?_⟩
  obtain ⟨-, -, -, -, -, htrace⟩ := effect_confined .counting ["a", "-f", "dsl"] folder []
  exact (htrace ["a"] ["-f", "dsl"] "--trace" rfl (by decide +kernel) (by decide)).trans hprinted

end Command
end Flowchart
