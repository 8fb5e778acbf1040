import Flowchart.Proofs.Exchange.Charts
import Flowchart.Proofs.Files.Kept
import Flowchart.Proofs.Json.RoundTrip
import Flowchart.Proofs.Text.Utf8
import Flowchart.Store

/-!
# Saved charts

A chart that was saved as JSON is loaded from its file as it was, in every layout and whatever is
written to other files in between (`exists_saveJson_loadJson`).  On the way it is a JSON value, a
text, bytes in a file, and all of that again in the other direction:

* its value is `Json.Readable`, so that it has a text and is read back from it
  (`readable_graphJson`);
* its text has no carriage return, so that folding line ends changes nothing in it;
* its bytes are kept in their file;
* and the value is that of one chart only.

Floating-point numbers are left out, and so are whole numbers with more digits than are written and
read (`Graph.Plain`).
-/

namespace Flowchart

/-! ### Charts without long or broken numbers -/

/-- A style of a node without floating-point numbers, whose whole numbers can be read. -/
structure NodeStyle.Plain (s : NodeStyle) : Prop where
  strokeWidth : s.strokeWidth = none
  opacity : s.opacity = none
  roughness : s.roughness = none
  fontSize : ∀ n ∈ s.fontSize, n.natAbs < 10 ^ Number.maxDigits
  fontFamily : ∀ n ∈ s.fontFamily, n.natAbs < 10 ^ Number.maxDigits

/-- A style of an edge without floating-point numbers. -/
structure EdgeStyle.Plain (s : EdgeStyle) : Prop where
  strokeWidth : s.strokeWidth = none
  roughness : s.roughness = none

/-- Options whose numbers can be read. -/
structure Options.Plain (o : Options) : Prop where
  nodeSpacing : o.nodeSpacing.natAbs < 10 ^ Number.maxDigits
  rankSpacing : o.rankSpacing.natAbs < 10 ^ Number.maxDigits
  padding : o.padding.natAbs < 10 ^ Number.maxDigits

/-- A chart without floating-point numbers, whose whole numbers can be read. -/
structure Graph.Plain (g : Graph) : Prop where
  node : ∀ n ∈ g.nodes, ∀ s ∈ n.style, s.Plain
  edge : ∀ e ∈ g.edges, ∀ s ∈ e.style, s.Plain
  options : g.options.Plain

/-! ### Their JSON is read back -/

namespace Exchange

open Json (Readable)

variable {α : Type} {depth : Nat}

/-- Members that have some of the given names, each at most once, and readable values. -/
structure ReadableMembers (depth : Nat) (names : List String) (ms : Members) : Prop where
  sublist : List.Sublist (ms.map Prod.fst) names
  readable : ∀ m ∈ ms, Readable depth m.2

namespace ReadableMembers

variable {names names' : List String} {ms ms' : Members}

lemma append (h : ReadableMembers depth names ms) (h' : ReadableMembers depth names' ms') :
    ReadableMembers depth (names ++ names') (ms ++ ms') := by
  refine ⟨?_, fun m hm => ?_⟩
  · rw [List.map_append]
    exact h.sublist.append h'.sublist
  · rcases List.mem_append.1 hm with hm | hm
    · exact h.readable m hm
    · exact h'.readable m hm

lemma object (h : ReadableMembers depth names ms) (hnames : names.Nodup) :
    Readable (depth + 1) (.object ms) :=
  .object (hnames.sublist h.sublist) h.readable

lemma write (f : Field) {v : Json} (h : Readable depth v) :
    ReadableMembers depth [f.wire] (f.write v) :=
  ⟨List.Sublist.refl _, by simpa [Field.write] using h⟩

lemma writeOptional (f : Field) {write : α → Json} {a : Option α}
    (h : ∀ b ∈ a, Readable depth (write b)) :
    ReadableMembers depth [f.wire] (f.writeOptional write a) := by
  cases a with
  | none => exact ⟨List.nil_sublist _, fun m hm => by cases hm⟩
  | some b => exact .write f (h b rfl)

end ReadableMembers

open ReadableMembers

lemma readable_array {write : α → Json} {as : List α} (h : ∀ a ∈ as, Readable depth (write a)) :
    Readable (depth + 1) (.array (as.map write)) := by
  refine .array fun v hv => ?_
  obtain ⟨a, ha, rfl⟩ := List.mem_map.1 hv
  exact h a ha

lemma readable_nodeStyleMembers {s : NodeStyle} (h : s.Plain) :
    Readable (depth + 1) (.object (nodeStyleMembers s)) := by
  rw [nodeStyleMembers, h.strokeWidth, h.opacity, h.roughness]
  refine object (((((((((writeOptional _ ?_).append (writeOptional _ ?_)).append
    (writeOptional _ ?_)).append (writeOptional _ ?_)).append (writeOptional _ ?_)).append
    (writeOptional _ ?_)).append (writeOptional _ ?_)).append (writeOptional _ ?_)).append
    (writeOptional _ ?_)) (by decide)
  · exact fun _ _ => .string _
  · exact fun _ _ => .string _
  · rintro _ ⟨⟩
  · exact fun _ _ => .string _
  · exact fun _ _ => .string _
  · rintro _ ⟨⟩
  · exact fun n hn => .int (h.fontSize n hn)
  · exact fun n hn => .int (h.fontFamily n hn)
  · rintro _ ⟨⟩

lemma readable_edgeStyleMembers {s : EdgeStyle} (h : s.Plain) :
    Readable (depth + 1) (.object (edgeStyleMembers s)) := by
  rw [edgeStyleMembers, h.strokeWidth, h.roughness]
  refine object ((((((writeOptional _ ?_).append (writeOptional _ ?_)).append
    (writeOptional _ ?_)).append (writeOptional _ ?_)).append (writeOptional _ ?_)).append
    (writeOptional _ ?_)) (by decide)
  · exact fun _ _ => .string _
  · rintro _ ⟨⟩
  · exact fun _ _ => .string _
  · exact fun _ _ => .string _
  · exact fun _ _ => .string _
  · rintro _ ⟨⟩

lemma readable_optionsJson {o : Options} (h : o.Plain) : Readable (depth + 1) (optionsJson o) :=
  object (((((write _ (.string _)).append (write _ (.string _))).append
    (write _ (.int h.nodeSpacing))).append (write _ (.int h.rankSpacing))).append
    (write _ (.int h.padding))) (by decide)

lemma readable_nodeJson {n : Node} (h : ∀ s ∈ n.style, s.Plain) :
    Readable (depth + 2) (nodeJson n) := by
  refine object ((((write _ (.string _)).append (write _ (.string _))).append
    (write _ (.string _))).append (writeOptional _ fun s hs => ?_)) (by decide)
  exact readable_nodeStyleMembers (h s (Option.mem_filter_iff.1 hs).1)

lemma readable_edgeJson {e : Edge} (h : ∀ s ∈ e.style, s.Plain) :
    Readable (depth + 2) (edgeJson e) := by
  refine object (((((write _ (.string _)).append (write _ (.string _))).append
    (write _ (.string _))).append (writeOptional _ fun _ _ => .string _)).append
    (writeOptional _ fun s hs => ?_)) (by decide)
  exact readable_edgeStyleMembers (h s (Option.mem_filter_iff.1 hs).1)

lemma readable_graphJson {g : Graph} (h : g.Plain) : Readable (depth + 4) (graphJson g) :=
  object (((write _ (readable_array fun n hn => readable_nodeJson (h.node n hn))).append
    (write _ (readable_array fun e he => readable_edgeJson (h.edge e he)))).append
    (write _ (readable_optionsJson h.options))) (by decide)

end Exchange

/-! ### Saving and loading -/

namespace Store

open Files.Folder (WritesElsewhere)

variable {f : Files.Folder} {path : String} {place : List String}

/-- A text that was written is read with its line ends folded, as long as nothing else is written to
its place. -/
lemma exists_writeText (hr : f.resolve (Files.tidy path) true = .ok place) (text : String) :
    ∃ saved, writeText f path text = .ok saved ∧
      ∀ later, Relation.ReflTransGen (WritesElsewhere place) saved later →
        readText later path = .ok (Text.foldLineEnds text.toList) := by
  have hw : f.write (Files.tidy path) (Text.encode text.toList)
      = .ok (f.put place (Text.encode text.toList)) :=
    Files.Folder.write_eq_ok_iff.2 ⟨place, hr, rfl⟩
  refine ⟨_, by rw [writeText, hw]; rfl, fun later hlater => ?_⟩
  rw [readText, Files.Folder.read_of_write hr hw hlater]
  simp only [Except.mapError, bind, Except.bind, Text.read_encode]

/-- A chart has a JSON text, and its value is read back from the text with the line ends folded. -/
lemma exists_jsonText {g : Graph} (h : g.Plain) (layout : Json.Layout) :
    ∃ text, jsonText layout g = .ok text ∧
      Json.parse (Text.foldLineEnds text.toList) = .ok g.toJson := by
  have hreadable : Json.Readable (988 + 4) g.toJson := Exchange.readable_graphJson h
  obtain ⟨t, ht, hreturn, hparse⟩ := Json.exists_render hreadable layout
  refine ⟨t ++ "\n", by rw [jsonText, ht]; rfl, ?_⟩
  have hreturn' : '\r' ∉ (t ++ "\n").toList := by simp [hreturn]
  rw [Text.foldLineEnds_eq_self hreturn', String.toList_append]
  exact hparse

/-- A chart that was saved as JSON is loaded as it was, whatever is written to other places in
between. -/
theorem exists_saveJson_loadJson {g : Graph} (h : g.Accepted) (hplain : g.Plain)
    (width : Option Int) (hr : f.resolve (Files.tidy path) true = .ok place) :
    ∃ saved, saveJson (.ofWidth? width) f g path = .ok saved ∧
      ∀ later, Relation.ReflTransGen (WritesElsewhere place) saved later →
        loadJson later path = .ok g := by
  obtain ⟨text, htext, hparse⟩ := exists_jsonText hplain (.ofWidth? width)
  obtain ⟨saved, hsaved, hread⟩ := exists_writeText hr text
  refine ⟨saved, ?_, fun later hlater => ?_⟩
  · rw [saveJson, htext]
    exact hsaved
  · rw [loadJson, hread later hlater]
    simp only [bind, Except.bind, hparse, Except.mapError, Graph.ofJson_toJson_iff.2 h.storable]

theorem exists_saveJson_loadJson_escaped :
    let style : NodeStyle := { strokeColor := some "\x7f\r", fontSize := some (-12) }
    let g : Graph :=
      { nodes := [⟨"\n", .database, "a\r\n\"\\\x01😀", some style⟩]
        edges := [⟨"", "\n", "\n", some "\r", none⟩]
        options := { padding := -1 } }
    let f : Files.Folder := ⟨[(["old", "x"], [])]⟩
    g.Accepted ∧ g.Plain ∧
      f.resolve (Files.tidy "old/.././a.json") true = .ok ["a.json"] ∧
      ∃ saved, saveJson (.ofWidth? (some (-3))) f g "old/.././a.json" = .ok saved ∧
        ∀ later, Relation.ReflTransGen (WritesElsewhere ["a.json"]) saved later →
          loadJson later "old/.././a.json" = .ok g := by
  intro style g f
  have haccepted : g.Accepted :=
    .stored (Graph.ofJson_toJson_iff.2 ⟨⟨by decide, by decide⟩, by decide⟩)
  have hsmall (n : Int) (hn : n.natAbs < 10 ^ 3) : n.natAbs < 10 ^ Number.maxDigits :=
    hn.trans (Nat.pow_lt_pow_right (by decide) (by decide))
  have hplain : g.Plain := by
    refine ⟨?_, ?_, hsmall _ (by decide), hsmall _ (by decide), hsmall _ (by decide)⟩
    · intro n hn s hs
      obtain rfl := List.mem_singleton.1 hn
      obtain rfl : style = s := by simpa using hs
      refine ⟨rfl, rfl, rfl, ?_, ?_⟩
      · rintro _ ⟨⟩
        exact hsmall _ (by decide)
      · rintro _ ⟨⟩
    · intro e he s hs
      obtain rfl := List.mem_singleton.1 he
      cases hs
  have hr : f.resolve (Files.tidy "old/.././a.json") true = .ok ["a.json"] := by rfl
  exact ⟨haccepted, hplain, hr, exists_saveJson_loadJson haccepted hplain (some (-3)) hr⟩

end Store
end Flowchart
