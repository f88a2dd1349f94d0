import JsxWidgets.Proofs.Structure.Scope
import JsxWidgets.Proofs.Text.Words
import JsxWidgets.Syntax.Grammar

/-!
# Samples of text

The structure of a file shows the first texts that the census meets, up to a limit that the user
chooses. A collector of samples compares the number of those it has with the limit whenever it meets
a text (`Census.keepSample`), and the facts behind a text do not depend on whether the text was
kept. So the limit is felt nowhere but in the samples, and there it only cuts the list off
(`analyzeStructure_limited`).

A sample is the canonical form of a text that is not blank. With a limit that leaves room for all of
them, the samples are all such texts in the scope of the census. The attributes of imports and
exports are outside of it, so the texts of the module are shown completely exactly if no text stands
there (`samplesTruncated_iff`).
-/

namespace JsxWidgets

open Syntax

/-! ### Texts of a module -/

/-- The text that a node shows: what stands between tags, in its canonical form, unless it is
blank. -/
def sampleText? (n : Node) : Option String :=
  match n.form with
  | .text value => if Text.isAllBlank value then none else some (Text.normalize value)
  | _ => none

/-- The texts that a module shows, in order. -/
def Syntax.Module.shownTexts (m : Module) : List String := m.nodes.filterMap sampleText?

theorem sampleText?_of_form {n : Node} (h : ∀ value, n.form ≠ .text value) :
    sampleText? n = none := by
  unfold sampleText?
  split
  next value hform => exact absurd hform (h value)
  next => rfl

namespace Census

/-- The only sample at a node is the text that it shows. -/
theorem samples_facts (config : Config) (around : Surroundings) (n : Node) :
    samples (facts config around n) = (sampleText? n).toList := by
  by_cases htext : ∃ value, n.form = .text value
  · obtain ⟨value, hform⟩ := htext
    rw [facts, sampleText?, hform]
    dsimp only
    rw [Text.isEmpty_normalize]
    split <;> rfl
  · have hform : ∀ value, n.form ≠ .text value := fun value h => htext ⟨value, h⟩
    rw [sampleText?_of_form hform]
    rw [facts]
    -- All other facts are about something else.
    split
    next => rfl
    next =>
      split
      · split <;> rfl
      · rfl
    next =>
      split <;> rfl
    next name _ =>
      rw [attributeFacts, samples, List.filterMap_append]
      split
      · rw [List.filterMap_map]
        simp
      · rfl
    next value h => exact absurd h (hform value)
    next =>
      rw [samples, List.filterMap_map]
      simp

/-- The samples of a module are the texts in the scope of the census. -/
theorem samples_ofModule (config : Config) (m : Module) :
    samples (ofModule config m) = m.surveyed.filterMap sampleText? :=
  filterMap_ofModule (samples_facts config) m

/-! ### The collector -/

/-- **The collector of samples**: a text is kept as long as there are fewer than the limit. -/
def keepSample (limit : ℕ) (kept : List String) (fact : Fact) : List String :=
  match fact with
  | .sample text => if kept.length < limit then kept ++ [text] else kept
  | _ => kept

/-- What one fact does to the samples: with the limit in view, it is as if all texts were kept. -/
theorem keepSample_take (limit : ℕ) (all : List String) (fact : Fact) :
    keepSample limit (all.take limit) fact = (all ++ samples [fact]).take limit := by
  cases fact with
  | sample text =>
    change (if (all.take limit).length < limit then all.take limit ++ [text] else all.take limit)
      = (all ++ [text]).take limit
    rw [List.take_append]
    split
    next hroom =>
      -- There is room, so nothing has been cut off yet.
      have hall : all.length < limit := by
        rw [List.length_take] at hroom
        omega
      rw [List.take_of_length_le (Nat.le_of_lt hall), List.take_of_length_le]
      rw [List.length_singleton]
      omega
    next hfull =>
      have hall : limit - all.length = 0 := by
        rw [List.length_take] at hfull
        omega
      rw [hall, List.take_zero, List.append_nil]
  | _ =>
    change all.take limit = (all ++ []).take limit
    rw [List.append_nil]

/-- **The collector keeps the first texts**, and no other fact matters to it. -/
theorem foldl_keepSample (limit : ℕ) (facts : List Fact) :
    facts.foldl (keepSample limit) [] = (samples facts).take limit := by
  -- The texts met so far are carried along, as a list of which the collector has the front.
  have hrun : ∀ all : List String, facts.foldl (keepSample limit) (all.take limit)
      = (all ++ samples facts).take limit := by
    induction facts with
    | nil =>
      intro all
      change all.take limit = (all ++ []).take limit
      rw [List.append_nil]
    | cons fact facts ih =>
      intro all
      have hsplit : samples (fact :: facts) = samples [fact] ++ samples facts :=
        List.filterMap_append (l := [fact])
      rw [List.foldl_cons, keepSample_take, ih, hsplit, List.append_assoc]
  have hempty := hrun []
  rwa [List.take_nil, List.nil_append] at hempty

/-! ### What depends on the limit -/

/-- The facts are told apart by the packages of the framework, and by no other choice. -/
theorem ofModule_congr {config config' : Config}
    (h : config.frameworkPrefixes = config'.frameworkPrefixes) (m : Module) :
    ofModule config m = ofModule config' m := by
  have hkind : importKind config = importKind config' := by
    funext source
    rw [importKind, importKind, Config.isFrameworkSource, Config.isFrameworkSource, h]
  have hrecord : importRecord config = importRecord config' := by
    funext typeOnly bindings source
    rw [importRecord, importRecord, hkind]
  have hfacts : facts config = facts config' := by
    funext around n
    rw [facts, facts, hrecord]
  rw [ofModule, ofModule, survey, survey, hfacts]

end Census

/-- A choice of how many samples are shown, all other choices being as they are. -/
def Config.withLimit (config : Config) (limit : ℕ) : Config :=
  { config with textSampleLimit := limit }

/-- A structure of which only the first samples are shown. -/
def ComponentStructure.withSamples (s : ComponentStructure) (limit : ℕ) : ComponentStructure :=
  { s with textSamples := s.textSamples.take limit }

section Samples

variable (m : Module) (path : String) (config : Config)

theorem textSamples_analyzeStructure : (analyzeStructure m path config).textSamples
    = (m.surveyed.filterMap sampleText?).take config.textSampleLimit := by
  rw [← Census.samples_ofModule config]
  rfl

/-- **The limit only cuts the samples off**: every other field is the same, and of the samples with
a greater limit the first ones are left. -/
theorem analyzeStructure_limited {limit limit' : ℕ} (h : limit ≤ limit') :
    analyzeStructure m path (config.withLimit limit)
      = (analyzeStructure m path (config.withLimit limit')).withSamples limit := by
  have hfacts : Census.ofModule (config.withLimit limit) m
      = Census.ofModule (config.withLimit limit') m := Census.ofModule_congr rfl m
  -- All other fields are read off the facts, the module and the choices that are the same.
  have hfields : analyzeStructure m path (config.withLimit limit)
      = { analyzeStructure m path (config.withLimit limit') with
          textSamples :=
            (Census.samples (Census.ofModule (config.withLimit limit') m)).take limit } := by
    rw [analyzeStructure, hfacts]
    rfl
  have hsamples : (analyzeStructure m path (config.withLimit limit')).textSamples.take limit
      = (Census.samples (Census.ofModule (config.withLimit limit') m)).take limit := by
    change ((Census.samples _).take limit').take limit = _
    rw [List.take_take, Nat.min_eq_left h]
  rw [hfields, ComponentStructure.withSamples, hsamples]

/-- With room for all texts of the module, the samples are all of them exactly if none stands in the
attributes of imports and exports. -/
theorem textSamples_eq_iff (hroom : m.shownTexts.length ≤ config.textSampleLimit) :
    (analyzeStructure m path config).textSamples = m.shownTexts
      ↔ ∀ n ∈ m.linked, sampleText? n = none := by
  have hparted : Parted m.shownTexts (m.surveyed.filterMap sampleText?)
      (m.linked.filterMap sampleText?) := m.parted_surveyed.filterMap sampleText?
  have hlength : (m.surveyed.filterMap sampleText?).length ≤ config.textSampleLimit :=
    Nat.le_trans hparted.sublist.length_le hroom
  rw [textSamples_analyzeStructure, List.take_of_length_le hlength, hparted.kept_eq_iff,
    List.filterMap_eq_nil_iff]

end Samples

/-- **The sample limit only truncates samples.** With two limits, the structures of a module are the
same but for the samples, of which the smaller limit leaves the first ones. The samples are what a
collector makes of the facts, which compares their number with the limit at every text. With room
for all texts of the module they are these texts in order, exactly if none of them stands in the
attributes of imports and exports. -/
theorem samplesTruncated_iff (m : Module) (path : String) (config : Config) {limit limit' : ℕ}
    (h : limit ≤ limit') :
    analyzeStructure m path (config.withLimit limit)
        = (analyzeStructure m path (config.withLimit limit')).withSamples limit ∧
      (analyzeStructure m path (config.withLimit limit)).textSamples
        = (Census.ofModule (config.withLimit limit) m).foldl (Census.keepSample limit) [] ∧
      (m.shownTexts.length ≤ limit →
        ((analyzeStructure m path (config.withLimit limit)).textSamples = m.shownTexts
          ↔ ∀ n ∈ m.linked, sampleText? n = none)) := by
  refine ⟨analyzeStructure_limited m path config h, ?_, ?_⟩
  · exact (Census.foldl_keepSample limit _).symm
  · exact textSamples_eq_iff m path (config.withLimit limit)

/-- A file with a text in the attributes of an import and another one in its component. -/
def importedText : List Char :=
  "import a from \"b\" with \x7b c: <p>hi</p> \x7d; const C = () => <p> a  b </p>;".toList

/-- A text in the attributes of an import is none of the samples. -/
theorem not_samplesTruncated_importedText : ∃ m faults,
    Module.read? (.ofPath "C.tsx") importedText = some (m, faults) ∧
    m.shownTexts = ["hi", "a b"] ∧ m.shownTexts.length ≤ ({} : Config).textSampleLimit ∧
    (analyzeStructure m "C.tsx" {}).textSamples = ["a b"] := by
  have htexts : (Module.read? (.ofPath "C.tsx") importedText).any (fun read =>
      read.1.shownTexts == ["hi", "a b"]
        && (analyzeStructure read.1 "C.tsx" {}).textSamples == ["a b"]) = true := by decide +kernel
  obtain ⟨⟨m, faults⟩, hread, hm⟩ := (Option.any_eq_true _ _).mp htexts
  obtain ⟨hshown, hsamples⟩ : m.shownTexts = ["hi", "a b"] ∧
      (analyzeStructure m "C.tsx" {}).textSamples = ["a b"] := by simpa using hm
  have hroom : m.shownTexts.length ≤ ({} : Config).textSampleLimit := by
    rw [hshown]
    decide
  exact ⟨m, faults, hread, hshown, hroom, hsamples⟩

/-- With room for one text less, only the first text of two is shown; the blanks between the
elements are none. -/
theorem samplesTruncated_iff_twoTexts : ∃ m faults,
    Module.read? (.ofPath "C.jsx") "const C = () => <p> a  b <i>c</i> </p>;".toList
        = some (m, faults) ∧
    1 ≤ 2 ∧ m.shownTexts.length ≤ 2 ∧
    analyzeStructure m "C.jsx" (({} : Config).withLimit 1)
        = (analyzeStructure m "C.jsx" (({} : Config).withLimit 2)).withSamples 1 ∧
    (analyzeStructure m "C.jsx" (({} : Config).withLimit 2)).textSamples = m.shownTexts := by
  have hreadable : (Module.read? (.ofPath "C.jsx")
      "const C = () => <p> a  b <i>c</i> </p>;".toList).any (fun read =>
        decide (read.1.shownTexts.length ≤ 2) && read.1.linked.all (sampleText? · == none))
          = true := by decide +kernel
  obtain ⟨⟨m, faults⟩, hread, hm⟩ := (Option.any_eq_true _ _).mp hreadable
  obtain ⟨hroom, hlinked⟩ : m.shownTexts.length ≤ 2 ∧ ∀ n ∈ m.linked, sampleText? n = none := by
    simpa using hm
  have hsmall := samplesTruncated_iff m "C.jsx" {} (by decide : 1 ≤ 2)
  have hlarge := samplesTruncated_iff m "C.jsx" {} (Nat.le_refl 2)
  exact ⟨m, faults, hread, by decide, hroom, hsmall.1, (hlarge.2.2 hroom).mpr hlinked⟩

end JsxWidgets
