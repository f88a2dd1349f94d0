import JsxWidgets.Proofs.Component.Discovery
import JsxWidgets.Proofs.Component.Returns
import JsxWidgets.Proofs.Lowering.Reports

/-!
# What is lowered for the component of a module

A function is found to be the component of a module because it gives markup, and that markup is then
taken from it a second time and lowered. Both questions have one answer (`exists_renderedMarkup?`),
so for functions the tree is that of the markup, and nothing about it is unclear.

A class is found by its parent alone. Whether it renders markup depends on its methods of the name
`render`; if it renders none, the first element of the module is lowered and the module is reported
as ambiguous. This agrees with what the methods return (`ExtractionAgrees`) exactly if the first of
them returns markup where a scan comes by, whenever any of them returns markup at all
(`extractionAgrees_iff`).
-/

namespace JsxWidgets

open Syntax Expression

/-! ### Components that render -/

/-- Whether a component is a function. -/
def Component.isFunction (c : Component) : Bool :=
  match c.body with
  | .function _ | .arrow _ => true
  | .classBody _ => false

/-- The methods of a class with the name of the one that renders it. -/
def renderMethods (cls : Node) : List Node :=
  (classMembers cls).filterMap fun member =>
    match member with
    | ⟨.method, _, [⟨.word "render", _, _⟩, fn]⟩ => some fn
    | _ => none

/-- **A component renders markup**: it is a function, or a class whose method returns some. -/
def Component.Renders (c : Component) : Prop :=
  ∀ cls, c.body = .classBody cls → ∃ fn ∈ renderMethods cls, functionReturns fn ≠ []

theorem renderMethod?_eq (cls : Node) : renderMethod? cls = (renderMethods cls).head? :=
  List.head?_filterMap.symm

/-- **A function that is the component of a module** gives markup. -/
theorem exists_renderedMarkup? {m : Module} {c : Component} (hc : m.component? = some c)
    (hfunction : c.isFunction = true) : ∃ x, c.renderedMarkup? = some x ∧ x.form = .markup := by
  obtain ⟨rule, hdiscovers⟩ := component?_eq_some_iff.mp hc
  obtain ⟨-, d, -, -, hqualifies, -⟩ := hdiscovers.first
  cases hqualifies with
  | function h => exact ⟨_, h, form_of_functionMarkup? h⟩
  | arrow _ h => exact ⟨_, h, form_of_arrowMarkup? h⟩
  | functionExpr _ h => exact ⟨_, h, form_of_functionMarkup? h⟩
  | classBased => cases hfunction

/-- A class renders what a scan of its first method comes by. -/
theorem renderedMarkup?_classBody (name : Option String) (kind : ComponentKind) (cls : Node) :
    (Component.mk name kind (.classBody cls)).renderedMarkup?
      = (renderMethods cls).head?.bind fun fn => firstScanned (functionReturns fn) := by
  rw [← renderMethod?_eq]
  exact Option.bind_congr fun fn _ => functionMarkup?_eq fn

/-- What is rendered is rendered by some method. -/
theorem renders_of_renderedMarkup? {c : Component} {x : Node} (h : c.renderedMarkup? = some x) :
    c.Renders := by
  obtain ⟨name, kind, body⟩ := c
  rintro cls rfl
  rw [renderedMarkup?_classBody] at h
  obtain ⟨fn, hfn, hx⟩ := Option.bind_eq_some_iff.mp h
  refine ⟨fn, List.mem_of_head? hfn, fun hnil => ?_⟩
  rw [hnil] at hx
  cases hx

/-! ### Reports of ambiguity -/

/-- How often a tree is reported as ambiguous. -/
def LoweredTree.ambiguities (t : LoweredTree) : ℕ :=
  t.diagnostics.countP (·.kind = .structuralAmbiguity)

/-- Lowering markup makes nothing ambiguous. -/
theorem countP_lowerMarkup (overrides : Overrides) (markup : Node) :
    (lowerMarkup overrides markup).notes.diagnostics.countP (·.kind = .structuralAmbiguity)
      = 0 := by
  rw [lowerMarkup, Noted.notes_map, (lowerNode_reports overrides markup).diagnostics,
    List.countP_map, List.countP_eq_zero]
  intro r _
  exact Bool.false_ne_true

section Module

variable (m : Module) (name : Option String) (config : Config)

/-- The tree of a module that renders markup. -/
theorem lowerToWidgetTree_of_rendered {x : Node}
    (h : m.component?.bind (·.renderedMarkup?) = some x) :
    lowerToWidgetTree m name config = .ofNoted name (lowerMarkup config.targetOverrides x) := by
  rw [lowerToWidgetTree, lowerModule, h]

theorem ambiguities_of_rendered {x : Node} (h : m.component?.bind (·.renderedMarkup?) = some x) :
    (lowerToWidgetTree m name config).ambiguities = 0 := by
  rw [lowerToWidgetTree_of_rendered m name config h]
  exact countP_lowerMarkup config.targetOverrides x

variable (h : m.component?.bind (·.renderedMarkup?) = none)
include h

/-- The tree of a module that renders no markup. -/
theorem root_of_not_rendered :
    (lowerToWidgetTree m name config).root = m.firstElement?.elim .empty fun element =>
      (lowerMarkup config.targetOverrides element).value := by
  rw [lowerToWidgetTree, lowerModule, h]
  cases m.firstElement? <;> rfl

theorem ambiguities_of_not_rendered : (lowerToWidgetTree m name config).ambiguities = 1 := by
  have hdiagnostics : ∃ message, (lowerToWidgetTree m name config).diagnostics
      = ⟨.structuralAmbiguity, message, none⟩ :: (m.firstElement?.elim [] fun element =>
        (lowerMarkup config.targetOverrides element).notes.diagnostics) := by
    rw [lowerToWidgetTree, lowerModule, h]
    cases m.firstElement? with
    | none => exact ⟨_, rfl⟩
    | some element => exact ⟨_, rfl⟩
  obtain ⟨message, hdiagnostics⟩ := hdiagnostics
  rw [LoweredTree.ambiguities, hdiagnostics, List.countP_cons_of_pos rfl]
  cases m.firstElement? with
  | none => rfl
  | some element => rw [Option.elim_some, countP_lowerMarkup]

end Module

/-! ### Agreement -/

/-- **What is found and what is lowered agree.** -/
structure ExtractionAgrees (m : Module) (name : Option String) (config : Config) : Prop where
  /-- A component that is a function renders markup, and exactly that is lowered. -/
  functions : ∀ c, m.component? = some c → c.isFunction = true →
    ∃ x, c.renderedMarkup? = some x ∧ x.form = .markup ∧
      lowerToWidgetTree m name config = .ofNoted name (lowerMarkup config.targetOverrides x) ∧
      (lowerToWidgetTree m name config).ambiguities = 0
  /-- If the component renders markup, nothing is ambiguous. -/
  rendered : (∃ c, m.component? = some c ∧ c.Renders) →
    (lowerToWidgetTree m name config).ambiguities = 0
  /-- If there is no component, or a class that renders none, this is reported once. -/
  ambiguous : (¬ ∃ c, m.component? = some c ∧ c.Renders) →
    (lowerToWidgetTree m name config).ambiguities = 1
  /-- Then the root is what the first element of the module becomes, or empty without one. -/
  fallback : (¬ ∃ c, m.component? = some c ∧ c.Renders) →
    (lowerToWidgetTree m name config).root = m.firstElement?.elim .empty fun element =>
      (lowerMarkup config.targetOverrides element).value

/-- **The method that renders a class is scanned**: if a method of the name returns markup, the
first one returns some that the scan comes by. -/
def Syntax.Module.RenderScanned (m : Module) : Prop :=
  ∀ c cls, m.component? = some c → c.body = .classBody cls → c.Renders →
    ∃ fn r, (renderMethods cls).head? = some fn ∧ r ∈ functionReturns fn ∧ r.scanned = true

/-- A component that renders is seen to, if the method of a class is scanned. -/
theorem isSome_rendered_iff {m : Module} : (m.component?.bind (·.renderedMarkup?)).isSome ↔
    ∃ c, m.component? = some c ∧ c.Renders ∧ ∀ cls, c.body = .classBody cls →
      ∃ fn r, (renderMethods cls).head? = some fn ∧ r ∈ functionReturns fn ∧ r.scanned = true := by
  rw [Option.isSome_bind, Option.any_eq_true]
  refine exists_congr fun c => and_congr_right fun hc => ?_
  constructor
  · intro h
    obtain ⟨x, hx⟩ := Option.isSome_iff_exists.mp h
    refine ⟨renders_of_renderedMarkup? hx, fun cls hcls => ?_⟩
    obtain ⟨name, kind, body⟩ := c
    obtain rfl : body = .classBody cls := hcls
    rw [renderedMarkup?_classBody] at hx
    obtain ⟨fn, hfn, hx⟩ := Option.bind_eq_some_iff.mp hx
    obtain ⟨r, hr, hscanned⟩ := isSome_firstScanned_iff.mp (Option.isSome_of_eq_some hx)
    exact ⟨fn, r, hfn, hr, hscanned⟩
  · rintro ⟨-, h⟩
    -- a function renders wherever it returns; a class only by its first render method
    cases hfunction : c.isFunction with
    | true =>
      obtain ⟨x, hx, -⟩ := exists_renderedMarkup? hc hfunction
      exact Option.isSome_of_eq_some hx
    | false =>
      obtain ⟨name, kind, fn | fn | cls⟩ := c
      · cases hfunction
      · cases hfunction
      · obtain ⟨fn, r, hfn, hr, hscanned⟩ := h cls rfl
        rw [renderedMarkup?_classBody, hfn, Option.bind_some, isSome_firstScanned_iff]
        exact ⟨r, hr, hscanned⟩

/-- **When what is found and what is lowered agree**: exactly if the method that renders a class is
scanned. Functions need no condition. -/
theorem extractionAgrees_iff (m : Module) (name : Option String) (config : Config) :
    ExtractionAgrees m name config ↔ m.RenderScanned := by
  have hrendered := @isSome_rendered_iff m
  constructor
  · intro h c cls hc hcls hrenders
    -- Nothing is reported, so something is rendered.
    have hzero := h.rendered ⟨c, hc, hrenders⟩
    have hsome : (m.component?.bind (·.renderedMarkup?)).isSome := by
      rw [Option.isSome_iff_ne_none]
      intro hnone
      rw [ambiguities_of_not_rendered m name config hnone] at hzero
      cases hzero
    obtain ⟨c', hc', -, hmethod⟩ := hrendered.mp hsome
    obtain rfl := Option.some.inj (hc.symm.trans hc')
    exact hmethod cls hcls
  · intro h
    have hiff : (m.component?.bind (·.renderedMarkup?)).isSome ↔
        ∃ c, m.component? = some c ∧ c.Renders := by
      rw [hrendered]
      refine exists_congr fun c => and_congr_right fun hc => and_iff_left_of_imp fun hrenders => ?_
      exact fun cls hcls => h c cls hc hcls hrenders
    have hnone : (¬ ∃ c, m.component? = some c ∧ c.Renders) →
        m.component?.bind (·.renderedMarkup?) = none := fun hnot =>
      Option.not_isSome_iff_eq_none.mp fun hsome => hnot (hiff.mp hsome)
    refine ⟨fun c hc hfunction => ?_, fun hrenders => ?_, fun hnot => ?_, fun hnot => ?_⟩
    · obtain ⟨x, hx, hform⟩ := exists_renderedMarkup? hc hfunction
      have hbind : m.component?.bind (·.renderedMarkup?) = some x := by
        rw [hc, Option.bind_some, hx]
      exact ⟨x, hx, hform, lowerToWidgetTree_of_rendered m name config hbind,
        ambiguities_of_rendered m name config hbind⟩
    · obtain ⟨x, hx⟩ := Option.isSome_iff_exists.mp (hiff.mpr hrenders)
      exact ambiguities_of_rendered m name config hx
    · exact ambiguities_of_not_rendered m name config (hnone hnot)
    · exact root_of_not_rendered m name config (hnone hnot)

/-- A class that returns markup in the cleanup of an exception handler only. -/
def cleanupClass : Node :=
  ⟨.cls, 1, [.list [⟨.method, 29, [.leaf (.word "render") 29,
    ⟨.fn, 35, [.list [], cleanupReturn, .list [], .absent]⟩]⟩],
    .leaf (.name "Component") 17, .list [], .list [], .list []]⟩

/-- The module that declares it. -/
def cleanupRender : Module :=
  [⟨.declStmt, 1, [⟨.classDecl, 1, [.leaf (.binder "C") 7, cleanupClass]⟩]⟩]

/-- The method returns markup, and the module is reported as ambiguous. -/
theorem not_extractionAgrees_cleanupRender :
    (∃ c, cleanupRender.component? = some c ∧ c.Renders) ∧
      (lowerToWidgetTree cleanupRender none default).ambiguities = 1 ∧
      ¬ ExtractionAgrees cleanupRender none default := by
  have hrenders : ∃ c, cleanupRender.component? = some c ∧ c.Renders := by
    refine ⟨⟨some "C", .classBased, .classBody cleanupClass⟩, rfl, ?_⟩
    rintro cls ⟨⟩
    exact ⟨_, List.mem_singleton_self _, List.cons_ne_nil _ _⟩
  have hone : (lowerToWidgetTree cleanupRender none default).ambiguities = 1 := by decide
  refine ⟨hrenders, hone, fun h => ?_⟩
  rw [h.rendered hrenders] at hone
  cases hone

end JsxWidgets
