import JsxWidgets.Composition
import JsxWidgets.Proofs.Lowering.Noting
import JsxWidgets.Proofs.Structure.RenderedMarkup
import JsxWidgets.Proofs.Structure.Scope
import JsxWidgets.Proofs.Text.Order
import JsxWidgets.StateAnalysis

/-!
# The analyses agree on components

Five analyses look for elements, each in its own way: the census, the composition, the search for a
first element, the lowering, and the analysis of event handlers. All of them look at the same nodes,
in the same order, except that the census passes over the attributes of imports and exports. So they
agree as long as nothing stands there that they have to agree on (`Module.LinksFit`).

The condition is exact (`analysesAgree_iff`): what the census counts and what it passes over are
parts of what the others find, so every component and every handler that it passes over is missed.
-/

namespace JsxWidgets

open Syntax Expression

/-! ### The census -/

section Census

variable (m : Module) (path : String) (config : Config)

/-- The components in the scope of the census. -/
def Syntax.Module.surveyedComponents (m : Module) : List String :=
  m.surveyed.filterMap Composition.component?

/-- The number of elements is that of the tags that the census meets. -/
theorem totalElements_analyzeStructure :
    (analyzeStructure m path config).totalElements = (m.surveyed.filterMap Node.tag?).length := by
  change (Census.tags (Census.ofModule config m)).length = _
  rw [Census.tags_ofModule]

theorem map_text_customTags :
    ((m.surveyed.filterMap Node.tag?).filter (·.isCustom)).map (·.text) = m.surveyedComponents := by
  rw [List.filter_filterMap, List.map_filterMap]
  rfl

/-- A component is recorded exactly if an element with its tag is met. -/
theorem mem_customComponents {name : String} :
    name ∈ (analyzeStructure m path config).customComponents ↔ name ∈ m.surveyedComponents := by
  change name ∈ Text.sortedSet (((Census.tags (Census.ofModule config m)).filter _).map _) ↔ _
  rw [Text.mem_sortedSet, Census.tags_ofModule, map_text_customTags]

/-- An element is a component, or it is counted by its tag. -/
theorem total_htmlElements :
    m.surveyedComponents.length + Text.total (analyzeStructure m path config).htmlElements
      = (analyzeStructure m path config).totalElements := by
  rw [totalElements_analyzeStructure, ← map_text_customTags, List.length_map]
  change _ + Text.total (Text.tally (((Census.tags (Census.ofModule config m)).filter _).map _)) = _
  rw [Text.total_tally, Census.tags_ofModule, List.length_map]
  exact (List.length_eq_length_filter_add TagName.isCustom).symm

/-- An attribute is recorded as a handler exactly if one of that name is met, and the name is that
of a handler. -/
theorem mem_eventHandlers {name : String} :
    name ∈ (analyzeStructure m path config).eventHandlers
      ↔ name ∈ m.surveyed.filterMap attributeName? ∧ Naming.isEventHandler name = true := by
  change name ∈ Text.sortedSet
    (((Census.observations (Census.ofModule config m)).map (·.name)).filter _) ↔ _
  rw [Text.mem_sortedSet, Census.names_observations_ofModule, List.mem_filter]

end Census

/-! ### The composition -/

/-- An element with a tag has an opening tag. -/
theorem opening?_of_tag? {n : Node} {tag : TagName} (h : n.tag? = some tag) :
    ∃ o, n.opening? = some o := by
  unfold Node.tag? at h
  split at h
  · exact ⟨_, rfl⟩
  · cases h

/-- There is one record for each element that uses a component. -/
theorem flatMap_child_note (index : FunctionIndex) (parent around : Option String) (n : Node) :
    (Composition.note index parent around n).flatMap (fun r => [r.child])
      = (Composition.component? n).toList := by
  rw [Composition.note]
  cases hname : Composition.component? n with
  | none => rfl
  | some name =>
    obtain ⟨tag, htag, -⟩ := Option.map_eq_some_iff.mp hname
    obtain ⟨o, ho⟩ := opening?_of_tag? (Option.filter_eq_some_iff.mp htag).1
    rw [ho]
    rfl

/-- The composition has a record for each use of a component, in order. -/
theorem map_child_analyzeComposition (m : Module) :
    (analyzeComposition m).map (·.child) = m.nodes.filterMap Composition.component? := by
  rw [List.filterMap_eq_flatMap_toList, List.map_eq_flatMap, analyzeComposition]
  exact Survey.runAll_eq_nodes (fun around n => flatMap_child_note _ _ around n)
    (fun _ _ _ => rfl) none m

/-- So has the analysis of behaviour, wherever the uses are told to be. -/
theorem map_child_analyzeState (m : Module) (locate : Locator) :
    (analyzeState m locate).composition.map (·.child)
      = m.nodes.filterMap Composition.component? := by
  rw [← map_child_analyzeComposition]
  change ((analyzeComposition m).map (·.map locate)).map (·.child) = _
  rw [List.map_map]
  rfl

/-! ### The lowering

The lowering notes a component when it meets an element that has no row and is a component by its
tag. Elements inside a text are merged or left out without a note, and the attributes of elements
with a row are not lowered. So fewer components may be noted than there are, but every one of them
is the tag of an element below (`components_lowerMarkup`). -/

/-- The components that the elements of a tree use. -/
def Syntax.Node.components (n : Node) : List String := n.nodes.filterMap Composition.component?

/-- What the components of a node below are, are components of the node. -/
theorem components_subset_of_below {m n : Node} (h : m ∈ Node.nodesOf n.parts) :
    m.components ⊆ n.components :=
  List.filterMap_subset _ (Node.nodes_subset_of_mem_nodesOf h)

/-- A tag without a row is that of a component, and is among those of its node. -/
theorem mem_components_of_rowOf? {overrides : Overrides} {n : Node} {el : Element}
    (hel : n.element? = some el) (hrow : overrides.rowOf? el.tag = none) :
    el.tag.text ∈ n.components := by
  have hcustom : el.tag.isCustom = true := by
    rw [Overrides.rowOf?] at hrow
    split at hrow
    · cases hrow
    · split at hrow
      · assumption
      · cases hrow
  refine List.mem_filterMap.mpr ⟨n, n.self_mem_nodes, ?_⟩
  obtain ⟨place, p₁, f₂, p₂, more, f₃, p₃, closing, rfl⟩ := Node.element?_eq_some hel
  simp [Composition.component?, Node.tag?, Option.filter, hcustom]

/-- What is below a node has no other components. -/
theorem route_components (names : List String) :
    Route (fun n => n.components ⊆ names)
      (fun a => ∀ m ∈ Node.nodesOf a.parts, m.components ⊆ names) := by
  have hbelow : ∀ {n m : Node}, n.components ⊆ names → m ∈ Node.nodesOf n.parts →
      m.components ⊆ names := fun hn hm =>
    List.Subset.trans (components_subset_of_below hm) hn
  constructor
  case inner => exact fun hn hform => hbelow hn (inner_below hform)
  case fragment => exact fun hn _ hm => hbelow hn (Node.mem_nodesOf_of_mem hm)
  case children => exact fun hn hel m hm => hbelow hn (Node.children_below hel m hm)
  case attributes =>
    exact fun hn hel a ha _ hm =>
      hbelow hn (Node.mem_nodesOf_trans (Node.attributes_below hel a ha) hm)
  case markup => exact fun ha hgiven => ha _ (attributeMarkup_below hgiven)

/-- **All steps of the lowering note components of the nodes they come to**, and no others. -/
theorem keeps_components (overrides : Overrides) (names : List String) :
    Route.Keeps overrides (fun n => n.components ⊆ names)
      (fun a => ∀ m ∈ Node.nodesOf a.parts, m.components ⊆ names)
      (fun notes => notes.components ⊆ names) where
  append := fun ha hb => by
    rw [Notes.components_append]
    exact List.append_subset.mpr ⟨ha, hb⟩
  reports := fun _ => List.nil_subset names
  component := fun hn hel hrow =>
    List.cons_subset.mpr ⟨hn (mem_components_of_rowOf? hel hrow), List.nil_subset names⟩
  classes := fun _ _ => List.nil_subset names

/-- **What the lowering notes as a component** is one, at the markup or below it. -/
theorem components_lowerMarkup (overrides : Overrides) (markup : Node) :
    (lowerMarkup overrides markup).notes.components ⊆ markup.components :=
  (route_components markup.components).keeps_lowerMarkup (keeps_components overrides _)
    (List.Subset.refl _)

/-- The lowering notes only components that are used somewhere in the module. -/
theorem components_lowerModule (overrides : Overrides) (m : Module) :
    (lowerModule overrides m).notes.components
      ⊆ m.nodes.filterMap Composition.component? := by
  have hmarkup : ∀ x ∈ m.nodes, (lowerMarkup overrides x).notes.components
      ⊆ m.nodes.filterMap Composition.component? := by
    intro x hx
    have hbelow : x.nodes ⊆ m.nodes := fun k hk => Node.mem_nodesOf_of_mem_nodes hx hk
    exact List.Subset.trans (components_lowerMarkup overrides x) (List.filterMap_subset _ hbelow)
  rw [lowerModule]
  split
  next markup hrendered => exact hmarkup markup (renderedMarkup?_mem hrendered)
  next =>
    split
    next element hfirst => exact hmarkup element (List.mem_of_find?_eq_some hfirst)
    next => exact List.nil_subset _

/-- Hence the components of a tree are used in the module. -/
theorem customComponents_lowerToWidgetTree (m : Module) (component : Option String)
    (config : Config) :
    (lowerToWidgetTree m component config).customComponents
      ⊆ m.nodes.filterMap Composition.component? := by
  intro name hname
  change name ∈ Text.sortedSet _ at hname
  rw [Text.mem_sortedSet] at hname
  exact components_lowerModule config.targetOverrides m hname

/-! ### Event handlers -/

/-- Whether a node is an attribute with an expression that handles an event. -/
def isHandler (attr : Node) : Bool :=
  match attr.form, attr.attributeValue with
  | .attr name, .expression _ => Naming.isEventHandler name.text
  | _, _ => false

/-- The attributes of an opening tag that handle events. -/
def handlersIn (n : Node) : List Node :=
  match n.form with
  | .opening _ => n.attributes.filter isHandler
  | _ => []

theorem handlersIn_of_form {n : Node} (h : ∀ tag, n.form ≠ .opening tag) : handlersIn n = [] := by
  unfold handlersIn
  split
  next tag hform => exact absurd hform (h tag)
  next => rfl

/-- The attributes of a module that handle events. -/
def Syntax.Module.handlerAttributes (m : Module) : List Node := m.nodes.flatMap handlersIn

/-- **A record of a handler stems from an attribute**: it tells the event that the attribute is
named for, and the place of the attribute. -/
def EventHandler.StemsFrom (locate : Locator) (attr : Node) (h : EventHandler Location) : Prop :=
  ∃ name, attributeName? attr = some name ∧ h.eventType = Naming.eventOf name
    ∧ h.location = locate attr.place

/-- An attribute has a handler if it handles an event. -/
theorem site?_cases (index : FunctionIndex) (tag : TagName) (attr : Node) :
    (isHandler attr = false ∧ Handler.site? index tag attr = none)
      ∨ ∃ site name, isHandler attr = true ∧ Handler.site? index tag attr = some site
        ∧ attributeName? attr = some name ∧ site.event = name ∧ site.place = attr.place := by
  unfold Handler.site?
  split
  next name e hform hvalue =>
    have his : isHandler attr = Naming.isEventHandler name.text := by rw [isHandler, hform, hvalue]
    have hname : attributeName? attr = some name.text := by rw [attributeName?, hform]
    -- the attribute has a name and a value; its name decides whether it handles an event
    cases hevent : Naming.isEventHandler name.text with
    | false => exact Or.inl ⟨his.trans hevent, rfl⟩
    | true => exact Or.inr ⟨_, name.text, his.trans hevent, rfl, hname, rfl, rfl⟩
  next hother =>
    refine Or.inl ⟨?_, rfl⟩
    unfold isHandler
    split
    next name e hform hvalue => exact (hother name e hform hvalue).elim
    next => rfl

/-- The records of the handlers in an opening tag, attribute by attribute. -/
theorem attributes_stem (index : FunctionIndex) (vars : Handler.Variables) (locate : Locator)
    (tag : TagName) (attributes : List Node) :
    List.Forall₂ (EventHandler.StemsFrom locate) (attributes.filter isHandler)
      (((attributes.filterMap (Handler.site? index tag)).map (·.record vars)).map
        (·.map locate)) := by
  induction attributes with
  | nil => exact List.Forall₂.nil
  | cons attr attributes ih =>
    rcases site?_cases index tag attr with ⟨hnot, hnone⟩ | ⟨site, name, his, hsome, hname, hs⟩
    · rw [List.filter_cons_of_neg (by simp [hnot]), List.filterMap_cons_none hnone]
      exact ih
    · rw [List.filter_cons_of_pos his, List.filterMap_cons_some hsome]
      refine List.Forall₂.cons ⟨name, hname, ?_, ?_⟩ ih
      · exact congrArg Naming.eventOf hs.1
      · exact congrArg locate hs.2

/-- The records of an opening tag stem from its attributes one by one. -/
theorem handlersIn_stem (index : FunctionIndex) (vars : Handler.Variables) (locate : Locator)
    (n : Node) :
    List.Forall₂ (EventHandler.StemsFrom locate) (handlersIn n)
      (((Handler.sites index n).map (·.record vars)).map (·.map locate)) := by
  -- only an opening tag has attributes to look at
  by_cases hopening : ∃ tag, n.form = .opening tag
  · obtain ⟨tag, hform⟩ := hopening
    have hin : handlersIn n = n.attributes.filter isHandler := by rw [handlersIn, hform]
    have hsites : Handler.sites index n = n.attributes.filterMap (Handler.site? index tag) := by
      rw [Handler.sites, hform]
    rw [hin, hsites]
    exact attributes_stem index vars locate tag n.attributes
  · have hin : handlersIn n = [] := handlersIn_of_form (not_exists.mp hopening)
    have hsites : Handler.sites index n = [] := by
      unfold Handler.sites
      split
      next tag hform => exact absurd ⟨tag, hform⟩ hopening
      next => rfl
    rw [hin, hsites]
    exact List.Forall₂.nil

/-- **So the records of handlers stem from the attributes of the module that hold handlers.** -/
theorem handlers_stem (m : Module) (locate : Locator) :
    List.Forall₂ (EventHandler.StemsFrom locate) m.handlerAttributes
      (analyzeState m locate).handlers := by
  let index := FunctionIndex.ofModule m
  let vars := Handler.namesOf (analyzeVariables m (analyzeHooks m).1)
  change List.Forall₂ _ _ (((m.nodes.flatMap (Handler.sites index)).map (·.record vars)).map _)
  rw [List.map_flatMap, List.map_flatMap]
  refine List.rel_flatMap (List.forall₂_same.mpr fun _ _ => rfl) ?_
  rintro n _ rfl
  exact handlersIn_stem index vars locate n

/-- A handler is an attribute of the module with the name of an event. -/
theorem mem_handlerAttributes {m : Module} {attr : Node} (h : attr ∈ m.handlerAttributes) :
    attr ∈ m.nodes ∧ ∃ name, attributeName? attr = some name
      ∧ Naming.isEventHandler name = true := by
  obtain ⟨n, hn, hattr⟩ := List.mem_flatMap.mp h
  unfold handlersIn at hattr
  split at hattr
  next =>
    obtain ⟨hmem, his⟩ := List.mem_filter.mp hattr
    -- the attribute stands in the list of the opening tag, hence below the node
    have hbelow : attr ∈ n.nodes := by
      unfold Node.attributes at hmem
      split at hmem
      · exact Node.nodes_subset (Node.first_mem_nodes ..)
          (Node.mem_nodes_of_below (Node.mem_nodesOf_of_mem hmem))
      · cases hmem
    refine ⟨Node.mem_nodesOf_of_mem_nodes hn hbelow, ?_⟩
    unfold isHandler at his
    split at his
    next name _ hform _ => exact ⟨name.text, by rw [attributeName?, hform], his⟩
    next => cases his
  next => cases hattr

/-! ### Agreement -/

/-- **The analyses agree on components**, whatever name the component of the module is given. -/
structure AnalysesAgree (m : Module) (path : String) (config : Config) (locate : Locator) :
    Prop where
  /-- There is a record of composition for every element that is not counted by its tag. -/
  counts : (analyzeState m locate).composition.length
      + Text.total (analyzeStructure m path config).htmlElements
    = (analyzeStructure m path config).totalElements
  /-- The components of the records are those of the structure. -/
  children : ∀ name, name ∈ (analyzeState m locate).composition.map (·.child)
    ↔ name ∈ (analyzeStructure m path config).customComponents
  /-- The lowered tree uses no other components. -/
  lowered : ∀ component, (lowerToWidgetTree m component config).customComponents
    ⊆ (analyzeStructure m path config).customComponents
  /-- There is a first element unless there are none. -/
  first : m.firstElement? = none ↔ (analyzeStructure m path config).totalElements = 0
  /-- The records of handlers stem from attributes with the names in the structure. -/
  handlers : List.Forall₂
    (fun attr h => (∃ name ∈ (analyzeStructure m path config).eventHandlers,
        attributeName? attr = some name) ∧ h.StemsFrom locate attr)
    m.handlerAttributes (analyzeState m locate).handlers

/-- **What may stand in the attributes of imports and exports.** -/
structure Syntax.Module.LinksFit (m : Module) : Prop where
  /-- No component is used. -/
  components : ∀ n ∈ m.linked, Composition.component? n = none
  /-- There is an element only if there is another one elsewhere. -/
  elements : (∃ n ∈ m.linked, n.tag?.isSome) → ∃ n ∈ m.surveyed, n.tag?.isSome
  /-- An event is handled only if one of its name is handled elsewhere. -/
  handlers : ∀ attr ∈ m.handlerAttributes, attr ∈ m.linked →
    ∃ name ∈ m.surveyed.filterMap attributeName?, attributeName? attr = some name

section Agreement

variable (m : Module) (path : String) (config : Config) (locate : Locator)

/-- The uses of components and the plain elements make up all elements exactly if no component is
used where the census does not look. -/
theorem counts_iff :
    (analyzeState m locate).composition.length
        + Text.total (analyzeStructure m path config).htmlElements
      = (analyzeStructure m path config).totalElements
      ↔ ∀ n ∈ m.linked, Composition.component? n = none := by
  have hparted := (m.parted_surveyed.filterMap Composition.component?).length_eq
  have hall : (analyzeState m locate).composition.length
      = (m.nodes.filterMap Composition.component?).length := by
    rw [← map_child_analyzeState m locate, List.length_map]
  have hsurveyed : (m.surveyed.filterMap Composition.component?).length
      = m.surveyedComponents.length := rfl
  have htotal := total_htmlElements m path config
  rw [← List.filterMap_eq_nil_iff, ← List.length_eq_zero_iff]
  omega

/-- The lowering and the census agree on whether there is an element at all, exactly if elements
that the census does not see are not the only ones. -/
theorem first_iff :
    (m.firstElement? = none ↔ (analyzeStructure m path config).totalElements = 0)
      ↔ ((∃ n ∈ m.linked, n.tag?.isSome) → ∃ n ∈ m.surveyed, n.tag?.isSome) := by
  have hfirst : m.firstElement? = none ↔ ¬ ∃ n ∈ m.nodes, n.tag?.isSome := by
    rw [Module.firstElement?, List.find?_eq_none, not_exists]
    exact forall_congr' fun n => by rw [not_and]
  have htotal : (analyzeStructure m path config).totalElements = 0
      ↔ ¬ ∃ n ∈ m.surveyed, n.tag?.isSome := by
    rw [totalElements_analyzeStructure, List.length_eq_zero_iff, List.filterMap_eq_nil_iff,
      not_exists]
    exact forall_congr' fun n => by rw [not_and, Option.not_isSome_iff_eq_none]
  -- what composition sees is what the census surveys and what it does not
  have hnodes : (∃ n ∈ m.nodes, n.tag?.isSome)
      ↔ (∃ n ∈ m.surveyed, n.tag?.isSome) ∨ ∃ n ∈ m.linked, n.tag?.isSome := by
    rw [← exists_or]
    exact exists_congr fun n => by rw [m.parted_surveyed.mem_iff, or_and_right]
  rw [hfirst, htotal, hnodes, not_iff_not]
  exact or_iff_left_iff_imp

/-- Every handler has its name in the structure exactly if this is so for those that stand where the
census does not look. -/
theorem handlers_iff :
    List.Forall₂
        (fun attr h => (∃ name ∈ (analyzeStructure m path config).eventHandlers,
          attributeName? attr = some name) ∧ EventHandler.StemsFrom locate attr h)
        m.handlerAttributes (analyzeState m locate).handlers
      ↔ ∀ attr ∈ m.handlerAttributes, attr ∈ m.linked →
        ∃ name ∈ m.surveyed.filterMap attributeName?, attributeName? attr = some name := by
  rw [List.forall₂_and_left, and_iff_left (handlers_stem m locate)]
  refine forall₂_congr fun attr hattr => ?_
  obtain ⟨hmem, name, hname, hevent⟩ := mem_handlerAttributes hattr
  have hnamed : ∀ names : List String,
      (∃ name ∈ names, attributeName? attr = some name) ↔ name ∈ names := by
    intro names
    rw [hname]
    exact ⟨fun ⟨_, hmem, heq⟩ => Option.some.inj heq ▸ hmem, fun hmem => ⟨name, hmem, rfl⟩⟩
  rw [hnamed, hnamed, mem_eventHandlers, and_iff_left hevent]
  -- An attribute in the scope of the census has its name there.
  refine ⟨fun h _ => h, fun h => ?_⟩
  rcases m.parted_surveyed.mem_iff.mp hmem with hsurveyed | hlinked
  · exact List.mem_filterMap.mpr ⟨attr, hsurveyed, hname⟩
  · exact h hlinked

/-- **The analyses agree exactly if nothing stands in the attributes of imports and exports that
they have to agree on.** -/
theorem analysesAgree_iff : AnalysesAgree m path config locate ↔ m.LinksFit := by
  constructor
  · intro h
    exact ⟨(counts_iff m path config locate).mp h.counts, (first_iff m path config).mp h.first,
      (handlers_iff m path config locate).mp h.handlers⟩
  · intro h
    -- Without components in links every component is in the scope of the census.
    have hcomponents : ∀ name, name ∈ m.nodes.filterMap Composition.component?
        ↔ name ∈ (analyzeStructure m path config).customComponents := by
      intro name
      have hlinked : m.linked.filterMap Composition.component? = [] :=
        List.filterMap_eq_nil_iff.mpr h.components
      rw [mem_customComponents, Module.surveyedComponents,
        (m.parted_surveyed.filterMap Composition.component?).mem_iff, hlinked,
        or_iff_left List.not_mem_nil]
    refine ⟨(counts_iff m path config locate).mpr h.components, fun name => ?_,
      fun component name hname => ?_, (first_iff m path config).mpr h.elements,
      (handlers_iff m path config locate).mpr h.handlers⟩
    · rw [map_child_analyzeState]
      exact hcomponents name
    · exact (hcomponents name).mp (customComponents_lowerToWidgetTree m component config hname)

end Agreement

/-- The module of `import a from "b" with { c: <Card /> }`. -/
def linkedCard : Module :=
  [⟨.importFrom false [.main "a"] "b", 1, [.list [⟨.keyed, 26, [.leaf (.word "c") 26,
    ⟨.markup, 29, [⟨.element, 29, [⟨.opening (.simple "Card"), 29, [.list [], .absent]⟩,
      .list [], .absent]⟩]⟩]⟩]]⟩]

/-- A component in the attributes of an import is composed and lowered, but not counted. -/
theorem not_analysesAgree_linkedCard :
    (analyzeState linkedCard Location.ofPlaceOnly).composition.map (·.child) = ["Card"] ∧
    (lowerToWidgetTree linkedCard none default).customComponents = ["Card"] ∧
    (analyzeStructure linkedCard "C.tsx" default).totalElements = 0 ∧
    (analyzeStructure linkedCard "C.tsx" default).customComponents = [] ∧
    ¬ AnalysesAgree linkedCard "C.tsx" default Location.ofPlaceOnly :=
  ⟨by decide, by decide, by decide, by decide, fun h => absurd h.counts (by decide)⟩

end JsxWidgets
