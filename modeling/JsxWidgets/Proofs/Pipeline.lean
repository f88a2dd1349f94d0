import JsxWidgets.Proofs.Behaviour.HookRecords
import JsxWidgets.Proofs.Emission.Indentation
import JsxWidgets.Proofs.File.NullSafety
import JsxWidgets.Proofs.Grammar.TagRules
import JsxWidgets.Proofs.Lowering.Reports
import JsxWidgets.Proofs.Lowering.Retargeting
import JsxWidgets.Proofs.Structure.ClassNames
import JsxWidgets.Proofs.Structure.CompositionTree
import JsxWidgets.Transform

/-!
# The whole way

What holds of everything that `transform?` writes for a text, put together from what the single
steps guarantee. There are four questions about the way as a whole.

* **Which texts have a result?** Those that can be read: the configuration has no say in it
  (`transform?_eq_some_iff`, `isSome_transform?_congr`), and neither has a mark of the byte order in
  front (`transform?_mark`).
* **What holds of a result?** `Transformation.Sound` lists it: the module is well-formed, every
  widget fits its place, the composition is connected, the file is null safe, and its method returns
  the tree that has been printed (`sound_transform?`).
* **Where does a report come from?** Its kind tells the step: a fault of the text is malformed
  input, doubts about the component are ambiguities, and what has no rule is unmapped
  (`diagnosticsOf_transform`). Hence nothing is reported exactly if all of the file has been
  translated (`diagnostics_transform_eq_nil_iff`).
* **What does a setting change?** Other overrides change the tags of widgets and the wording of the
  reports on them (`SourceFile.transform_retarget`), another package changes the file alone
  (`SourceFile.transform_packageName`), and another path changes what is told of the path
  (`SourceFile.transform_path`).
-/

namespace JsxWidgets

open Syntax

/-! ### Which texts have a result -/

/-- **A text has a result if and only if it can be read** as a module in the language of its path;
the result is that of the module and its faults. -/
theorem transform?_eq_some_iff {path text : String} {config : Config} {t : Transformation} :
    transform? path text config = some t ↔
      ∃ m faults, Module.read? (Dialect.ofPath path) (withoutMark text) = some (m, faults) ∧
        t = SourceFile.transform ⟨path, withoutMark text, m, faults⟩ config := by
  rw [transform?, SourceFile.read?, Option.map_map, Option.map_eq_some_iff]
  constructor
  · rintro ⟨⟨m, faults⟩, hread, rfl⟩
    exact ⟨m, faults, hread, rfl⟩
  · rintro ⟨m, faults, hread, rfl⟩
    exact ⟨(m, faults), hread, rfl⟩

/-- Whether there is a result is up to the text and its language, whatever the configuration. -/
theorem isSome_transform?_congr {path path' text : String} (config config' : Config)
    (h : Dialect.ofPath path = Dialect.ofPath path') :
    (transform? path text config).isSome = (transform? path' text config').isSome := by
  simp only [transform?, SourceFile.read?, Option.isSome_map, h]

/-- **A mark of the byte order makes no difference** in front of a text that has none. -/
theorem transform?_mark (path : String) {text : String} (config : Config)
    (h : text.toList.head? ≠ some '\ufeff') :
    transform? path ("\ufeff" ++ text) config = transform? path text config := by
  have hmark : withoutMark ("\ufeff" ++ text) = text.toList := by
    have hchars : ("\ufeff" ++ text).toList = '\ufeff' :: text.toList := String.toList_append
    rw [withoutMark, hchars]
    rfl
  have hnone : withoutMark text = text.toList := by
    unfold withoutMark
    split
    · next rest hchars => exact absurd (by rw [hchars]; rfl) h
    · rfl
  rw [transform?, transform?, SourceFile.read?, SourceFile.read?, hmark, hnone]

/-! ### Reports by their kind -/

/-- Whether a module renders markup, which is then what is lowered. -/
def Syntax.Module.Renders (m : Module) : Prop := (m.component?.bind (·.renderedMarkup?)).isSome

/-- What is said about the markup that is lowered if the component renders none. -/
def Syntax.Module.renderDiagnostics (m : Module) : List (Diagnostic Location) :=
  match m.component?.bind (·.renderedMarkup?), m.firstElement? with
  | some _, _ => []
  | none, some _ =>
    [⟨.structuralAmbiguity,
      "no rendered JSX found for the component; lowering the first JSX element in the file", none⟩]
  | none, none => [⟨.structuralAmbiguity, "no JSX to lower", none⟩]

/-- What is said about the markup of a module that has no rule. -/
def Syntax.Module.markupDiagnostics (overrides : Overrides) (m : Module) :
    List (Diagnostic Location) :=
  m.loweredMarkup?.elim [] fun markup => (markup.reports overrides).map (·.construct.diagnostic)

/-- **Lowering a module is lowering its markup**, or making an empty box if it has none, with what
is said about the choice of the markup in front of the reports. -/
theorem lowerModule_eq (overrides : Overrides) (m : Module) :
    lowerModule overrides m =
      let made := m.loweredMarkup?.elim (pure .empty) (lowerMarkup overrides)
      ⟨made.value,
        { made.notes with diagnostics := m.renderDiagnostics ++ made.notes.diagnostics }⟩ := by
  rw [lowerModule, Module.renderDiagnostics, Module.loweredMarkup?]
  -- What is lowered is the rendered markup, else the first element, else nothing.
  cases m.component?.bind (·.renderedMarkup?) with
  | some markup => rfl
  | none => cases m.firstElement? <;> rfl

/-- Hence the reports are on that choice and on what of the markup has no rule. -/
theorem diagnostics_lowerModule (overrides : Overrides) (m : Module) :
    (lowerModule overrides m).notes.diagnostics
      = m.renderDiagnostics ++ m.markupDiagnostics overrides := by
  rw [lowerModule_eq, Module.markupDiagnostics]
  cases m.loweredMarkup? with
  | none => rfl
  | some markup =>
    have hreports := (lowerNode_reports overrides markup).diagnostics
    rw [Option.elim_some, Option.elim_some, ← hreports]
    simp only [lowerMarkup, Noted.notes_map]

namespace Transformation

/-- The reports of a kind. -/
def diagnosticsOf (kind : DiagnosticKind) (t : Transformation) : List (Diagnostic Location) :=
  t.diagnostics.filter (·.kind = kind)

end Transformation

/-- All reports of a list are of a kind. -/
def AreOf {π : Type} (kind : DiagnosticKind) (ds : List (Diagnostic π)) : Prop :=
  ∀ d ∈ ds, d.kind = kind

section Kinds

variable {π : Type} {kind : DiagnosticKind} {ds : List (Diagnostic π)}

/-- Of reports of one kind, asking for a kind keeps all or none. -/
theorem AreOf.filter_eq (h : AreOf kind ds) (kind' : DiagnosticKind) :
    ds.filter (·.kind = kind') = if kind = kind' then ds else [] := by
  split
  · next heq => exact List.filter_eq_self.mpr fun d hd => decide_eq_true ((h d hd).trans heq)
  · next hne =>
    refine List.filter_eq_nil_iff.mpr fun d hd hkind => hne ?_
    exact (h d hd).symm.trans (of_decide_eq_true hkind)

/-- Reports that are made one by one are of the kind of each. -/
theorem AreOf.map {α : Type} {xs : List α} {report : α → Diagnostic π}
    (h : ∀ x, (report x).kind = kind) : AreOf kind (xs.map report) := by
  intro d hd
  obtain ⟨x, -, rfl⟩ := List.mem_map.mp hd
  exact h x

/-- The faults of a text are malformed input. -/
theorem SourceFile.areOf_diagnostics (f : SourceFile) : AreOf .malformedInput f.diagnostics :=
  AreOf.map fun _ => rfl

/-- Doubts about the component are ambiguities. -/
theorem areOf_componentDiagnostics (m : Module) :
    AreOf .structuralAmbiguity (componentDiagnostics m) := by
  intro d hd
  rw [componentDiagnostics] at hd
  rcases List.mem_append.mp hd with hmissing | hseveral
  · split at hmissing
    · cases hmissing
    · rw [List.mem_singleton.mp hmissing]
  · split at hseveral
    · rw [List.mem_singleton.mp hseveral]
    · cases hseveral

/-- Doubts about the markup to lower are ambiguities. -/
theorem Syntax.Module.areOf_renderDiagnostics (m : Module) :
    AreOf .structuralAmbiguity m.renderDiagnostics := by
  intro d hd
  unfold Module.renderDiagnostics at hd
  split at hd
  · cases hd
  · rw [List.mem_singleton.mp hd]
  · rw [List.mem_singleton.mp hd]

/-- What of the markup has no rule is unmapped. -/
theorem Syntax.Module.areOf_markupDiagnostics (overrides : Overrides) (m : Module) :
    AreOf .unmappedConstruct (m.markupDiagnostics overrides) := by
  unfold Module.markupDiagnostics
  cases m.loweredMarkup? with
  | none => exact fun d hd => nomatch hd
  | some markup => exact AreOf.map fun _ => rfl

/-- What the analyses of behaviour could not record is unmapped. -/
theorem areOf_analyzeState (m : Module) (locate : Locator) :
    AreOf .unmappedConstruct (analyzeState m locate).diagnostics := by
  intro d hd
  obtain ⟨d', hd', rfl⟩ := List.mem_map.mp hd
  -- It is about a hook or about a handler.
  rcases List.mem_append.mp hd' with hhook | hhandler
  · obtain ⟨name, -, rfl⟩ := List.mem_map.mp hhook
    rfl
  · obtain ⟨s, -, hs⟩ := List.mem_filterMap.mp hhandler
    unfold Handler.Site.diagnostic? at hs
    split at hs
    · cases hs
    · cases hs
      rfl

end Kinds

section File

variable (f : SourceFile) (config : Config)

/-- The reports of a file, step by step. -/
theorem diagnostics_transform : (f.transform config).diagnostics =
    f.diagnostics ++ componentDiagnostics f.module ++ (analyzeState f.module f.locate).diagnostics
      ++ (f.module.renderDiagnostics ++ f.module.markupDiagnostics config.targetOverrides) := by
  rw [← diagnostics_lowerModule]
  rfl

/-- **The kind of a report tells the step that made it.** Each step reports in order, so the reports
of a kind are those of its steps, one behind the other. -/
theorem diagnosticsOf_transform (kind : DiagnosticKind) :
    (f.transform config).diagnosticsOf kind =
      match kind with
      | .malformedInput => f.diagnostics
      | .structuralAmbiguity => componentDiagnostics f.module ++ f.module.renderDiagnostics
      | .unmappedConstruct =>
        (analyzeState f.module f.locate).diagnostics
          ++ f.module.markupDiagnostics config.targetOverrides := by
  -- Every step makes reports of one kind.
  have hfaults := f.areOf_diagnostics.filter_eq kind
  have hcomponent := (areOf_componentDiagnostics f.module).filter_eq kind
  have hstate := (areOf_analyzeState f.module f.locate).filter_eq kind
  have hrender := f.module.areOf_renderDiagnostics.filter_eq kind
  have hmarkup := (f.module.areOf_markupDiagnostics config.targetOverrides).filter_eq kind
  rw [Transformation.diagnosticsOf, diagnostics_transform]
  simp only [List.filter_append, hfaults, hcomponent, hstate, hrender, hmarkup]
  cases kind with
  | malformedInput => simp
  | structuralAmbiguity => simp
  | unmappedConstruct => simp

end File

/-! ### Files that are translated without a report -/

/-- **A file all of which is translated.** -/
structure SourceFile.Translated (f : SourceFile) (overrides : Overrides) : Prop where
  /-- The text has no faults. -/
  faults : f.faults = []
  /-- The component is there and renders markup. -/
  rendered : f.module.Renders
  /-- There is one candidate with a name at most. -/
  single : f.module.candidateNames.length ≤ 1
  /-- Each hook that is called belongs to the framework or is defined in the file. -/
  hooks : ∀ c ∈ HookCall.ofModule f.module,
    (Hook.ofBuiltin? c).isSome ∨ ((Hook.definitions f.module).get? c.name).isSome
  /-- The body of each handler is found. -/
  handlers : ∀ n ∈ f.module.nodes, ∀ s ∈ Handler.sites (FunctionIndex.ofModule f.module) n,
    s.body.isSome
  /-- There is a rule for everything in the markup. -/
  markup : ∀ markup ∈ f.module.loweredMarkup?, markup.reports overrides = []

section Silent

variable {m : Module}

/-- Nothing is said about the component if there is one and no doubt about it. -/
theorem componentDiagnostics_eq_nil_iff :
    componentDiagnostics m = [] ↔ m.component?.isSome ∧ m.candidateNames.length ≤ 1 := by
  rw [componentDiagnostics, List.append_eq_nil_iff]
  refine and_congr ?_ ?_
  · split
    · next hsome => exact iff_of_true rfl hsome
    · next hnone => exact iff_of_false (List.cons_ne_nil _ _) hnone
  · split
    · next hseveral => exact iff_of_false (List.cons_ne_nil _ _) (by omega)
    · next hsingle => exact iff_of_true rfl (by omega)

theorem Syntax.Module.renderDiagnostics_eq_nil_iff : m.renderDiagnostics = [] ↔ m.Renders := by
  rw [Module.renderDiagnostics, Module.Renders]
  cases m.component?.bind (·.renderedMarkup?) with
  | some markup => exact iff_of_true rfl rfl
  | none =>
    -- Something is said, whether there is an element or not.
    refine iff_of_false (fun h => ?_) Bool.false_ne_true
    cases hfirst : m.firstElement? <;> rw [hfirst] at h <;> cases h

theorem Syntax.Module.markupDiagnostics_eq_nil_iff {overrides : Overrides} :
    m.markupDiagnostics overrides = [] ↔
      ∀ markup ∈ m.loweredMarkup?, markup.reports overrides = [] := by
  rw [Module.markupDiagnostics]
  cases m.loweredMarkup? with
  | none => exact iff_of_true rfl nofun
  | some markup =>
    rw [Option.elim_some, List.map_eq_nil_iff]
    exact ⟨fun h _ hmarkup => Option.some.inj hmarkup ▸ h, fun h => h markup rfl⟩

/-- Nothing is said about hooks if all that are called are known. -/
theorem diagnostics_analyzeHooks_eq_nil_iff : (analyzeHooks m).2 = [] ↔
    ∀ c ∈ HookCall.ofModule m,
      (Hook.ofBuiltin? c).isSome ∨ ((Hook.definitions m).get? c.name).isSome := by
  rw [analyzeHooks, List.map_eq_nil_iff, Hook.undefinedNames, List.eq_nil_iff_forall_not_mem]
  constructor
  · intro h c hc
    by_contra hunknown
    -- A call that is not known would be among the names that are reported.
    refine h c.name (Text.mem_firstOccurrences.mpr (List.mem_map_of_mem
      (List.mem_filter.mpr ⟨hc, ?_⟩)))
    rw [not_or, Bool.not_eq_true, Bool.not_eq_true, Option.isSome_eq_false_iff,
      Option.isSome_eq_false_iff] at hunknown
    rw [hunknown.1, hunknown.2, Bool.and_self]
  · intro h name hname
    obtain ⟨c, hc, rfl⟩ := List.mem_map.mp (Text.mem_firstOccurrences.mp hname)
    obtain ⟨hmem, hunknown⟩ := List.mem_filter.mp hc
    rw [Bool.and_eq_true, Option.isNone_iff_eq_none, Option.isNone_iff_eq_none] at hunknown
    rcases h c hmem with hbuiltin | hdefined
    · rw [hunknown.1] at hbuiltin
      cases hbuiltin
    · rw [hunknown.2] at hdefined
      cases hdefined

/-- Nothing is said about handlers if the bodies of all are found. -/
theorem diagnostics_analyzeHandlers_eq_nil_iff {vars : List (StateVariable Place)} :
    (analyzeHandlers m vars).2 = [] ↔ ∀ n ∈ m.nodes,
      ∀ s ∈ Handler.sites (FunctionIndex.ofModule m) n, s.body.isSome := by
  have hsite : ∀ s : Handler.Site, s.diagnostic? = none ↔ s.body.isSome := by
    intro s
    rw [Handler.Site.diagnostic?]
    cases s.body with
    | none => exact iff_of_false nofun Bool.false_ne_true
    | some body => exact iff_of_true rfl rfl
  rw [analyzeHandlers]
  dsimp only
  rw [List.filterMap_eq_nil_iff]
  simp only [List.mem_flatMap, hsite]
  exact ⟨fun h n hn s hs => h s ⟨n, hn, hs⟩, fun h s ⟨n, hn, hs⟩ => h n hn s hs⟩

theorem diagnostics_analyzeState_eq_nil_iff {locate : Locator} :
    (analyzeState m locate).diagnostics = [] ↔
      (∀ c ∈ HookCall.ofModule m,
        (Hook.ofBuiltin? c).isSome ∨ ((Hook.definitions m).get? c.name).isSome) ∧
      ∀ n ∈ m.nodes, ∀ s ∈ Handler.sites (FunctionIndex.ofModule m) n, s.body.isSome := by
  have hdiagnostics : (analyzeState m locate).diagnostics = ((analyzeHooks m).2
      ++ (analyzeHandlers m (analyzeVariables m (analyzeHooks m).1)).2).map (·.map locate) := rfl
  rw [hdiagnostics, List.map_eq_nil_iff, List.append_eq_nil_iff,
    diagnostics_analyzeHooks_eq_nil_iff, diagnostics_analyzeHandlers_eq_nil_iff]

end Silent

/-- **Nothing is reported exactly if all of the file is translated.** So there is no silent loss:
a file for which no diagnostic is made has one component, which renders markup that has a rule for
every construct in it. -/
theorem diagnostics_transform_eq_nil_iff (f : SourceFile) (config : Config) :
    (f.transform config).diagnostics = [] ↔ f.Translated config.targetOverrides := by
  have hfaults : f.diagnostics = [] ↔ f.faults = [] := by
    rw [SourceFile.diagnostics, List.map_eq_nil_iff]
  rw [diagnostics_transform]
  simp only [List.append_eq_nil_iff, hfaults, componentDiagnostics_eq_nil_iff,
    diagnostics_analyzeState_eq_nil_iff, Module.renderDiagnostics_eq_nil_iff,
    Module.markupDiagnostics_eq_nil_iff]
  constructor
  · rintro ⟨⟨⟨hfaults, -, hsingle⟩, hhooks, hhandlers⟩, hrendered, hmarkup⟩
    exact ⟨hfaults, hrendered, hsingle, hhooks, hhandlers, hmarkup⟩
  · rintro ⟨hfaults, hrendered, hsingle, hhooks, hhandlers, hmarkup⟩
    -- What renders markup is a component.
    obtain ⟨markup, hbind⟩ := Option.isSome_iff_exists.mp hrendered
    obtain ⟨c, hc, -⟩ := Option.bind_eq_some_iff.mp hbind
    exact ⟨⟨⟨hfaults, Option.isSome_of_eq_some hc, hsingle⟩, hhooks, hhandlers⟩, hrendered, hmarkup⟩

/-! ### What holds of a result -/

/-- The file that is written for a component. -/
def SourceFile.widgetFile (f : SourceFile) (config : Config) : Dart.WidgetFile :=
  let t := f.transform config
  .ofAnalyses t.structureFacts t.state t.widgetTree config

/-- **What holds of a result for a file that has been read.** -/
structure Transformation.Sound (f : SourceFile) (config : Config) (t : Transformation) : Prop where
  /-- The module is well-formed. -/
  formed : ∀ n ∈ f.module, n.WellFormed
  /-- Every widget fits its place, if there is markup to lower. -/
  fits : ∀ markup ∈ f.module.loweredMarkup?, ∀ w ∈ t.widgetTree.root.nodes,
    Fits config.targetOverrides markup.nodes t.widgetTree.customComponents t.widgetTree.root w
  /-- Else there is an empty box. -/
  empty : f.module.loweredMarkup? = none → t.widgetTree.root = .empty
  /-- All names in the composition are reached from the component. -/
  connected : t.compositionTree.Connected
    (t.structureFacts.componentName.getD CompositionTree.anonymousRoot)
  /-- The tree is the one that has been printed. -/
  code : t.code = Dart.emit t.widgetTree.root
  /-- The file is null safe in what it declares for the properties with names of fields. -/
  nullSafe : (f.widgetFile config).NullSafe ((t.state.props.map (·.name)).filter Dart.isIdentifier)
  /-- What is written ends in the method that returns the tree. -/
  returns : ∃ (front : String) (names : List String),
    t.componentSource = front ++ "  Widget build(BuildContext context) \x7b\n"
      ++ String.join (names.map fun n => Dart.takeLine n ++ "\n")
      ++ "    return " ++ Dart.emitAt 2 t.widgetTree.root ++ ";\n  \x7d\n\x7d\n"

/-- The widgets of a lowered module fit. -/
theorem lowerModule_fits {overrides : Overrides} {m : Module} {markup : Node}
    (hmarkup : m.loweredMarkup? = some markup) :
    ∀ w ∈ (lowerModule overrides m).value.nodes,
      Fits overrides markup.nodes (Text.sortedSet (lowerModule overrides m).notes.components)
        (lowerModule overrides m).value w := by
  rw [lowerModule_eq, hmarkup]
  intro w hw
  have hfits := lowerMarkup_fits overrides markup w hw
  refine { hfits with noted := fun hsource hrow => ?_ }
  exact Text.mem_sortedSet.mpr (hfits.noted hsource hrow)

/-- **What is found out and written for a well-formed module is sound.** -/
theorem SourceFile.sound_transform (f : SourceFile) (config : Config)
    (hformed : ∀ n ∈ f.module, n.WellFormed) : (f.transform config).Sound f config where
  formed := hformed
  fits _ hmarkup := lowerModule_fits hmarkup
  empty hnone := by
    have hroot : (f.transform config).widgetTree.root
        = (lowerModule config.targetOverrides f.module).value := rfl
    rw [hroot, lowerModule_eq, hnone]
    rfl
  connected := CompositionTree.connected_of_inOrder (Composition.inOrder_analyzeState _ _)
  code := rfl
  nullSafe := by
    rw [Dart.filter_isIdentifier_names]
    exact Dart.WidgetFile.nullSafe_of_parts rfl rfl fun _ h => Dart.state_ofAnalyses h
  returns := Dart.code_build (f.widgetFile config)

/-- **Every result is sound**: what is read is well-formed, and the rest follows. -/
theorem sound_transform? {path text : String} {config : Config} {t : Transformation}
    (h : transform? path text config = some t) :
    ∃ f, SourceFile.read? path text = some f ∧ t.Sound f config := by
  obtain ⟨f, hread, rfl⟩ := Option.map_eq_some_iff.mp h
  obtain ⟨⟨m, faults⟩, hmodule, rfl⟩ := Option.map_eq_some_iff.mp hread
  exact ⟨_, hread, SourceFile.sound_transform _ config (Module.wellFormed_of_read? hmodule)⟩

/-! ### What a setting changes -/

/-- **Results that are alike** but for the tags of widgets and the wording of reports on them. -/
structure Transformation.Alike (o₁ o₂ : Overrides) (t₁ t₂ : Transformation) : Prop where
  /-- The structure is the same. -/
  structureFacts : t₁.structureFacts = t₂.structureFacts
  /-- The behaviour is the same. -/
  state : t₁.state = t₂.state
  /-- The composition is the same. -/
  compositionTree : t₁.compositionTree = t₂.compositionTree
  /-- The trees are alike. -/
  widgetTree : t₁.widgetTree.Alike o₁ o₂ t₂.widgetTree
  /-- The reports are of the same kinds, one for one. -/
  kinds : t₁.diagnostics.map (·.kind) = t₂.diagnostics.map (·.kind)

section Settings

variable (f : SourceFile) (config : Config)

/-- Other overrides give a tree that is alike. -/
theorem SourceFile.widgetTree_retarget (overrides : Overrides) :
    (f.transform config).widgetTree.Alike config.targetOverrides overrides
      (f.transform { config with targetOverrides := overrides }).widgetTree :=
  LoweredTree.alike_ofNoted _ (lowerModule_alike f.module)

/-- **Other overrides give a result that is alike**: only what is lowered asks for them. -/
theorem SourceFile.transform_retarget (overrides : Overrides) :
    (f.transform config).Alike config.targetOverrides overrides
      (f.transform { config with targetOverrides := overrides }) := by
  have halike := f.widgetTree_retarget config overrides
  refine ⟨rfl, rfl, rfl, halike, ?_⟩
  -- The reports of the other steps do not depend on them.
  have hdiagnostics : ∀ config' : Config, (f.transform config').diagnostics
      = f.diagnostics ++ componentDiagnostics f.module
        ++ (analyzeState f.module f.locate).diagnostics
        ++ (f.transform config').widgetTree.diagnostics := fun _ => rfl
  rw [hdiagnostics, hdiagnostics]
  simp only [List.map_append, halike.kinds]

/-- Other overrides leave everything in the file but the tree. -/
theorem SourceFile.widgetFile_retarget (overrides : Overrides) :
    f.widgetFile { config with targetOverrides := overrides } =
      { f.widgetFile config with
        root := (f.transform { config with targetOverrides := overrides }).widgetTree.root } := by
  rw [SourceFile.widgetFile, SourceFile.widgetFile, Dart.WidgetFile.ofAnalyses,
    Dart.WidgetFile.ofAnalyses, (f.widgetTree_retarget config overrides).customComponents]
  rfl

/-- **The name of the package** is in the file alone. -/
theorem SourceFile.transform_packageName (name : String) :
    f.transform { config with packageName := name } =
      { f.transform config with
        componentSource := (f.widgetFile { config with packageName := name }).code } :=
  rfl

/-- **The path** is told back, is asked whether it is that of a page, and is named in the file. -/
theorem SourceFile.transform_path (path : String) :
    SourceFile.transform { f with path := path } config =
      { f.transform config with
        structureFacts :=
          { (f.transform config).structureFacts with
            filePath := path
            isPage := isPage path (f.transform config).structureFacts.componentName config }
        componentSource := (SourceFile.widgetFile { f with path := path } config).code } :=
  rfl

/-- A component with a name has the same class in every file: only the first line of the file tells
the path. -/
theorem SourceFile.widgetFile_path {name : String}
    (hname : f.module.component?.bind (·.name) = some name) (path : String) :
    SourceFile.widgetFile { f with path := path } config =
      { f.widgetFile config with path := path } := by
  have hclass : ∀ path : String, Dart.className (analyzeStructure f.module path config)
      = Dart.asClassName name := fun path => by
    have hfound : (analyzeStructure f.module path config).componentName
        = f.module.component?.bind (·.name) := rfl
    rw [Dart.className, hfound, hname, Option.getD_some]
  have hown : Dart.className (f.transform config).structureFacts = Dart.asClassName name :=
    hclass f.path
  have hother : Dart.className (SourceFile.transform { f with path := path } config).structureFacts
      = Dart.asClassName name := hclass path
  rw [SourceFile.widgetFile, SourceFile.widgetFile, Dart.WidgetFile.ofAnalyses,
    Dart.WidgetFile.ofAnalyses, hown, hother]
  rfl

end Settings

end JsxWidgets
