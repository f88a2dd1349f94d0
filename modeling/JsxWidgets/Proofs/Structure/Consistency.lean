import Mathlib.Order.Bounds.Basic
import JsxWidgets.Proofs.Grammar.TagRules
import JsxWidgets.Proofs.Structure.Concatenation
import JsxWidgets.Proofs.Structure.Components

/-!
# The census counts what is there

The numbers of a structure have a meaning without the walk that finds them. The elements are those
of the module, the depth is that of the longest chain of elements one inside the other, and an
attribute belongs to the innermost element around it, which carries it in its opening tag. What the
walk hands down says the same: at every node, how many elements are around it and which one is the
innermost (`Census.contextAt_survey`).

The walk does not enter the attributes of imports and exports, where elements can stand. So the
numbers are right exactly if no elements stand there. All that has to be known of the module is that
its markup is in its place (`Module.WellMarked.censusConsistent_iff_linksUncounted`), as that of
every module that has been read is (`censusConsistent_iff`).
-/

namespace JsxWidgets

open Syntax

/-! ### What the walk hands down -/

/-- Whether a node stands in the attributes of an import or of exports. -/
def Syntax.Placed.isLinked (x : Placed) : Bool := x.around.any fun n => Census.isListing n.form

/-- The nodes that the census looks at, with what is around them. -/
def Syntax.Module.surveyedPlaced (m : Module) : List Placed := m.placed.filter (!·.isLinked)

namespace Census

/-- What surrounds a node, read off the nodes around it. -/
def Surroundings.ofNodes (around : List Node) : Surroundings :=
  ⟨(around.filterMap Node.tag?).length, ((around.findSome? Node.tag?).map TagName.text).getD ""⟩

/-- What surrounds the parts of a node is read off the node and those around it. -/
theorem Surroundings.inside_ofNodes (n : Node) (around : List Node) :
    (ofNodes around).inside n = ofNodes (n :: around) := by
  rw [inside, ofNodes, ofNodes, List.filterMap_cons, List.findSome?_cons]
  cases n.tag? <;> rfl

/-- **What the census knows at a node** is read off the nodes around it. -/
theorem contextAt_survey (config : Config) (around : List Node) :
    (survey config).contextAt ⟨0, ""⟩ around
      = if around.any (fun n => isListing n.form) then none else some (.ofNodes around) := by
  induction around with
  | nil => rfl
  | cons n around ih =>
    rw [Survey.contextAt, ih, List.any_cons]
    cases hrest : around.any fun n => isListing n.form with
    | true => rw [if_pos rfl, Bool.or_true, if_pos rfl, Option.bind_none]
    | false =>
      rw [if_neg Bool.false_ne_true, Bool.or_false, Option.bind_some,
        ← Surroundings.inside_ofNodes]
      rfl

/-- The census comes to a node unless it stands in the attributes of an import or of exports. -/
theorem contextAt_scope (around : List Node) :
    scope.contextAt () around
      = if around.any (fun n => isListing n.form) then none else some () := by
  induction around with
  | nil => rfl
  | cons n around ih =>
    rw [Survey.contextAt, ih, List.any_cons]
    cases around.any fun n => isListing n.form with
    | true => rw [if_pos rfl, Bool.or_true, if_pos rfl, Option.bind_none]
    | false =>
      rw [if_neg Bool.false_ne_true, Bool.or_false, Option.bind_some]
      rfl

/-- The facts are those at the nodes that the census looks at. -/
theorem ofModule_placed (config : Config) (m : Module) :
    ofModule config m
      = m.surveyedPlaced.flatMap fun x => facts config (.ofNodes x.around) x.node := by
  rw [ofModule, Survey.runAll_placed fun _ _ _ => rfl, Module.surveyedPlaced]
  induction m.placed with
  | nil => rfl
  | cons x xs ih =>
    rw [List.flatMap_cons, ih, Survey.noteAt, contextAt_survey, ← Placed.isLinked]
    cases hlinked : x.isLinked with
    | true =>
      rw [List.filter_cons_of_neg (by simp [hlinked]), if_pos rfl]
      rfl
    | false =>
      rw [List.filter_cons_of_pos (by simp [hlinked]), List.flatMap_cons,
        if_neg Bool.false_ne_true]
      rfl

end Census

/-- The nodes in the attributes of imports and exports are those with one of them around. -/
theorem Syntax.Module.linked_placed (m : Module) :
    m.linked = (m.placed.filter Placed.isLinked).map Placed.node := by
  rw [linked, Survey.runAll_missed_placed fun _ _ _ => rfl]
  congr 1
  refine List.filter_congr fun x _ => ?_
  rw [Census.contextAt_scope, Placed.isLinked]
  cases x.around.any fun n => Census.isListing n.form <;> rfl

/-! ### Elements and their tags -/

/-- What has a tag is an element. -/
theorem form_of_tag? {n : Node} {tag : TagName} (h : n.tag? = some tag) : n.form = .element := by
  by_contra hform
  rw [tag?_of_form_ne hform] at h
  cases h

section Tags

variable {m : Module}

/-- Without elements in the attributes of imports and exports the census sees all tags. -/
theorem filterMap_tag?_surveyed (hlinked : ∀ n ∈ m.linked, n.form ≠ .element) :
    m.surveyed.filterMap Node.tag? = m.nodes.filterMap Node.tag? :=
  (m.parted_surveyed.filterMap Node.tag?).kept_eq_iff.mpr
    (List.filterMap_eq_nil_iff.mpr fun n hn => tag?_of_form_ne (hlinked n hn))

variable (hm : m.WellMarked)
include hm

/-- Every element of a module that is marked well has a tag, the words of which hold no marks. -/
theorem exists_tag_of_mem_nodes {n : Node} (hn : n ∈ m.nodes) (hform : n.form = .element) :
    ∃ tag, n.tag? = some tag ∧ tag.isPlain = true := by
  obtain ⟨x, hx, rfl⟩ := m.exists_mem_placed hn
  exact (hm.inPlace x hx).tag hform

/-- So the elements are exactly the nodes with a tag. -/
theorem isSome_tag?_iff {n : Node} (hn : n ∈ m.nodes) : n.tag?.isSome ↔ n.form = .element := by
  rw [Option.isSome_iff_exists]
  refine ⟨fun ⟨_, htag⟩ => form_of_tag? htag, fun hform => ?_⟩
  obtain ⟨tag, htag, -⟩ := exists_tag_of_mem_nodes hm hn hform
  exact ⟨tag, htag⟩

/-- The words of the tags that the census meets hold no marks. -/
theorem isPlain_of_mem_tags {tag : TagName} (h : tag ∈ m.surveyed.filterMap Node.tag?) :
    tag.isPlain = true := by
  obtain ⟨n, hn, htag⟩ := List.mem_filterMap.mp h
  have hnodes : n ∈ m.nodes := m.parted_surveyed.mem_iff.mpr (Or.inl hn)
  obtain ⟨tag', htag', hplain⟩ := exists_tag_of_mem_nodes hm hnodes (form_of_tag? htag)
  rwa [Option.some.inj (htag.symm.trans htag')]

/-- There are as many elements as tags. -/
theorem countP_element : m.nodes.countP (fun n => n.form = .element)
    = (m.nodes.filterMap Node.tag?).length := by
  rw [List.length_filterMap_eq_countP]
  exact List.countP_congr fun n hn => by rw [decide_eq_true_iff, isSome_tag?_iff hm hn]

end Tags

/-! ### Owners -/

/-- Only an opening tag has attributes. -/
theorem form_of_mem_attributes {opening a : Node} (h : a ∈ opening.attributes) :
    ∃ tag, opening.form = .opening tag := by
  unfold Node.attributes at h
  split at h
  · exact ⟨_, rfl⟩
  · cases h

/-- The tag of an element is that of its opening tag. -/
theorem tag?_of_opening? {e opening : Node} {tag : TagName} (h : e.opening? = some opening)
    (hform : opening.form = .opening tag) : e.tag? = some tag := by
  unfold Node.opening? at h
  split at h
  next place o parts =>
    obtain rfl := Option.some.inj h
    obtain ⟨form, opened, rest⟩ := o
    obtain rfl : form = .opening tag := hform
    rfl
  next => cases h

/-- The owner is what the walk of the census hands down. -/
theorem Syntax.IsOwner.owner_ofNodes {e : Node} {x : Placed} (h : IsOwner e x) :
    ∃ tag, e.tag? = some tag ∧ (Census.Surroundings.ofNodes x.around).owner = tag.text := by
  obtain ⟨row, opening, outer, haround, hrow, hopening, hattribute⟩ := h.carries
  obtain ⟨tag, hform⟩ := form_of_mem_attributes hattribute
  have htag := tag?_of_opening? hopening hform
  refine ⟨tag, htag, ?_⟩
  have hrow : row.tag? = none := tag?_of_form_ne (by simp [hrow])
  have hopening : opening.tag? = none := tag?_of_form_ne (by simp [hform])
  rw [Census.Surroundings.ofNodes, haround, List.findSome?_cons, hrow, List.findSome?_cons,
    hopening, List.findSome?_cons, htag]
  rfl

section Links

variable {m : Module} (hlinked : ∀ n ∈ m.linked, n.form ≠ .element)
include hlinked

/-- If no element stands in the attributes of imports and exports, every element is in the view of
the census. -/
theorem isLinked_of_element {x : Placed} (hx : x ∈ m.placed) (hform : x.node.form = .element) :
    x.isLinked = false := by
  by_contra hnot
  refine hlinked x.node ?_ hform
  rw [m.linked_placed]
  exact List.mem_map_of_mem (List.mem_filter.mpr ⟨hx, Bool.of_not_eq_false hnot⟩)

/-- An attribute has its element around. -/
theorem isLinked_of_owner {e : Node} {x : Placed} (hx : x ∈ m.placed) (howner : IsOwner e x) :
    x.isLinked = false := by
  obtain ⟨row, opening, outer, haround, hrow, -, hattribute⟩ := howner.carries
  obtain ⟨tag, hopening⟩ := form_of_mem_attributes hattribute
  have helement : e.form = .element := by simpa using List.find?_some howner.innermost
  have hplaced : ⟨e, outer⟩ ∈ m.placed :=
    Module.mem_placed_of_around hx ⟨[row, opening], haround.symm⟩
  have houter : outer.any (fun n => Census.isListing n.form) = false :=
    isLinked_of_element hlinked hplaced helement
  rw [Placed.isLinked, haround, List.any_cons, List.any_cons, List.any_cons, houter, hrow, hopening,
    helement]
  rfl

end Links

/-! ### Observations -/

/-- **An observation tells about an attribute**: its name, the kind of its value, and its owner. -/
structure Observes (x : Placed) (o : PropObservation) : Prop where
  /-- The name. -/
  name : attributeName? x.node = some o.name
  /-- The kind of the value. -/
  kind : o.kind = x.node.attributeValue.kind
  /-- The tag of the owner. -/
  owner : ∃ e tag, IsOwner e x ∧ e.tag? = some tag ∧ o.element = tag.text

/-- What has the name of an attribute is one. -/
theorem form_of_attributeName? {n : Node} {name : String} (h : attributeName? n = some name) :
    ∃ a, n.form = .attr a := by
  unfold attributeName? at h
  split at h
  next a hform => exact ⟨a, hform⟩
  next => cases h

/-- There is one observation for each attribute, in order. -/
theorem observes_facts (config : Config) {xs : List Placed} (h : ∀ x ∈ xs, x.InPlace) :
    List.Forall₂ Observes (xs.filter fun x => (attributeName? x.node).isSome)
      (xs.flatMap fun x =>
        Census.observations (Census.facts config (.ofNodes x.around) x.node)) := by
  induction xs with
  | nil => exact List.Forall₂.nil
  | cons x xs ih =>
    have hrest := ih fun y hy => h y (List.mem_cons_of_mem x hy)
    rw [List.flatMap_cons]
    -- a node in place that has an attribute name is owned by an element
    cases hname : attributeName? x.node with
    | none =>
      rw [Census.observations_facts, hname, List.filter_cons_of_neg (by simp [hname])]
      exact hrest
    | some name =>
      obtain ⟨a, hform⟩ := form_of_attributeName? hname
      obtain ⟨e, howner⟩ := (h x List.mem_cons_self).owner a hform
      obtain ⟨tag, htag, howned⟩ := howner.owner_ofNodes
      rw [Census.observations_facts, hname, List.filter_cons_of_pos (by simp [hname])]
      exact List.Forall₂.cons ⟨hname, rfl, e, tag, howner, htag, howned⟩ hrest

/-! ### Depth -/

/-- **Elements one inside the other**, the innermost one first. -/
structure Nested (m : Module) (chain : List Node) : Prop where
  /-- They are elements of the module. -/
  elements : ∀ e ∈ chain, e ∈ m.nodes ∧ e.form = .element
  /-- Each one is below the next. -/
  below : chain.IsChain Node.Below

/-- Taking the greater one again and again gives the greatest. -/
theorem isGreatest_foldl_max (start : Nat) (ns : List Nat) :
    IsGreatest {d | d = start ∨ d ∈ ns} (ns.foldl max start) := by
  -- the start changes at each step, hence it is general
  induction ns generalizing start with
  | nil => exact ⟨Or.inl rfl, fun d hd => (hd.resolve_right List.not_mem_nil).le⟩
  | cons n ns ih =>
    obtain ⟨hmem, hupper⟩ := ih (max start n)
    rw [List.foldl_cons]
    constructor
    · rcases hmem with heq | hmem
      · rw [heq]
        rcases max_choice start n with hmax | hmax
        · exact Or.inl hmax
        · rw [hmax]
          exact Or.inr List.mem_cons_self
      · exact Or.inr (List.mem_cons_of_mem n hmem)
    · have hstart : max start n ≤ ns.foldl max (max start n) := hupper (Or.inl rfl)
      rintro d (rfl | hd)
      · exact (le_max_left ..).trans hstart
      · rcases List.mem_cons.mp hd with rfl | hd
        · exact (le_max_right ..).trans hstart
        · exact hupper (Or.inr hd)

/-- The elements around something. -/
def Syntax.Placed.elementsAround (x : Placed) : List Node := x.around.filter (·.form = .element)

/-- The depths that the census writes down. -/
theorem mem_depths_ofModule {config : Config} {m : Module} {d : Nat} :
    d ∈ Census.depths (Census.ofModule config m)
      ↔ ∃ x ∈ m.surveyedPlaced, x.node.tag?.isSome
        ∧ d = (x.around.filterMap Node.tag?).length + 1 := by
  rw [Census.ofModule_placed, Census.depths, List.filterMap_flatMap, List.mem_flatMap]
  refine exists_congr fun x => and_congr_right fun _ => ?_
  change d ∈ Census.depths _ ↔ _
  rw [Census.depths_facts, Option.mem_toList, Option.map_eq_some_iff,
    Option.isSome_iff_exists, exists_and_right]
  exact and_congr_right fun _ => eq_comm

section Depth

variable {m : Module} (hm : m.WellMarked)
include hm

/-- There are as many elements around a node as tags. -/
theorem length_filterMap_tag?_around {x : Placed} (hx : x ∈ m.placed) :
    (x.around.filterMap Node.tag?).length = x.elementsAround.length := by
  rw [List.length_filterMap_eq_countP, Placed.elementsAround, ← List.countP_eq_length_filter]
  refine List.countP_congr fun n hn => ?_
  obtain ⟨inner, outer, haround⟩ := List.append_of_mem hn
  have hplaced := Module.mem_placed_of_around hx ⟨inner, haround.symm⟩
  rw [decide_eq_true_iff, isSome_tag?_iff hm (Module.mem_nodes_of_mem_placed hplaced)]

omit hm in
/-- An element with the elements around it. -/
theorem nested_elementsAround {x : Placed} (hx : x ∈ m.placed) (hform : x.node.form = .element) :
    Nested m (x.node :: x.elementsAround) := by
  have hfilter : x.node :: x.elementsAround
      = (x.node :: x.around).filter fun n => n.form = .element := by
    rw [List.filter_cons_of_pos (by simp [hform]), Placed.elementsAround]
  constructor
  · intro e he
    rcases List.mem_cons.mp he with rfl | he
    · exact ⟨Module.mem_nodes_of_mem_placed hx, hform⟩
    · obtain ⟨hmem, helement⟩ := List.mem_filter.mp he
      obtain ⟨inner, outer, haround⟩ := List.append_of_mem hmem
      have hplaced := Module.mem_placed_of_around hx ⟨inner, haround.symm⟩
      exact ⟨Module.mem_nodes_of_mem_placed hplaced, of_decide_eq_true helement⟩
  · rw [hfilter]
    exact ((Module.pairwise_placed hx).filter _).isChain

omit hm in
/-- The innermost one of nested elements stands as deep as they are nested. -/
theorem Nested.exists_placed {e : Node} {chain : List Node} (h : Nested m (e :: chain)) :
    ∃ x ∈ m.placed, x.node = e ∧ chain.length ≤ x.elementsAround.length := by
  induction chain generalizing e with
  | nil =>
    obtain ⟨x, hx, hnode⟩ := m.exists_mem_placed (h.elements e List.mem_cons_self).1
    exact ⟨x, hx, hnode, Nat.zero_le _⟩
  | cons outer chain ih =>
    obtain ⟨hbelow, hchain⟩ := List.isChain_cons_cons.mp h.below
    have helements := fun k hk => h.elements k (List.mem_cons_of_mem e hk)
    obtain ⟨y, hy, rfl, hlength⟩ := ih ⟨helements, hchain⟩
    -- Around the inner element are the outer one and what is around that.
    obtain ⟨inner, hplaced⟩ := Module.placed_below hy hbelow
    refine ⟨_, hplaced, rfl, ?_⟩
    have helement : y.node.form = .element :=
      (h.elements y.node (List.mem_cons_of_mem e List.mem_cons_self)).2
    rw [Placed.elementsAround, List.filter_append, List.filter_cons_of_pos (by simp [helement]),
      List.length_append, List.length_cons, List.length_cons]
    exact Nat.le_add_left_of_le (Nat.succ_le_succ hlength)

end Depth

/-- **The depth of a module** is that of its most nested elements. -/
theorem isGreatest_depth {m : Module} (hm : m.WellMarked)
    (hlinked : ∀ n ∈ m.linked, n.form ≠ .element) (path : String) (config : Config) :
    IsGreatest {d | ∃ chain, Nested m chain ∧ chain.length = d}
      (analyzeStructure m path config).maxDepth := by
  obtain ⟨hmem, hupper⟩ :=
    isGreatest_foldl_max 0 (Census.depths (Census.ofModule config m))
  have hdepth : ∀ x ∈ m.placed, (x.around.filterMap Node.tag?).length = x.elementsAround.length :=
    fun x hx => length_filterMap_tag?_around hm hx
  constructor
  · -- The depth is zero, or it was written down at some element.
    rcases hmem with hzero | hmem
    · exact ⟨[], ⟨fun _ => (nomatch ·), List.IsChain.nil⟩, hzero.symm⟩
    · obtain ⟨x, hx, htag, heq⟩ := mem_depths_ofModule.mp hmem
      have hplaced : x ∈ m.placed := (List.mem_filter.mp hx).1
      obtain ⟨tag, htag⟩ := Option.isSome_iff_exists.mp htag
      refine ⟨_, nested_elementsAround hplaced (form_of_tag? htag), ?_⟩
      rw [List.length_cons, ← hdepth x hplaced]
      exact heq.symm
  · rintro d ⟨chain, hchain, rfl⟩
    cases chain with
    | nil => exact Nat.zero_le _
    | cons e chain =>
      obtain ⟨x, hx, rfl, hlength⟩ := hchain.exists_placed
      have helement : x.node.form = .element := (hchain.elements _ List.mem_cons_self).2
      have hsurveyed : x ∈ m.surveyedPlaced :=
        List.mem_filter.mpr ⟨hx, by rw [isLinked_of_element hlinked hx helement]; rfl⟩
      have htag : x.node.tag?.isSome :=
        (isSome_tag?_iff hm (Module.mem_nodes_of_mem_placed hx)).mpr helement
      have hle := hupper (Or.inr (mem_depths_ofModule.mpr ⟨x, hsurveyed, htag, rfl⟩))
      rw [hdepth x hx] at hle
      exact (Nat.succ_le_succ hlength).trans hle

/-! ### Consistency -/

/-- How often an element of a module has a tag with some text. -/
def Syntax.Module.tagCount (m : Module) (text : String) : Nat :=
  ((m.nodes.filterMap Node.tag?).map TagName.text).count text

/-- **The numbers of a structure are those of its module.** -/
structure CensusConsistent (m : Module) (s : ComponentStructure) : Prop where
  /-- All elements are counted. -/
  total : s.totalElements = m.nodes.countP fun n => n.form = .element
  /-- They are counted by their tags. -/
  sum : Text.total s.elements = s.totalElements
  /-- The count of a tag is the number of its occurrences. -/
  elements : ∀ text, s.elements.lookup text
    = if m.tagCount text = 0 then none else some (m.tagCount text)
  /-- Those that are no components are counted apart. -/
  htmlElements : s.htmlElements = s.elements.filter fun entry => entry.1 ∉ s.customComponents
  /-- Every tag is a component or counted apart. -/
  keys : ∀ text, text ∈ s.elements.map Prod.fst
    ↔ text ∈ s.customComponents ∨ text ∈ s.htmlElements.map Prod.fst
  /-- The observations are counted by their names. -/
  attributes : Text.total s.attributes = s.observations.length
  /-- There is one observation for each attribute, in order, with the owner of the attribute. -/
  observations : List.Forall₂ Observes
    (m.placed.filter fun x => (attributeName? x.node).isSome) s.observations
  /-- The depth is the length of the longest chain of elements one inside the other. -/
  depth : IsGreatest {d | ∃ chain, Nested m chain ∧ chain.length = d} s.maxDepth
  /-- The class of complexity is that of these numbers and the number of calls of hooks. -/
  complexity : s.complexity = .classify s.totalElements s.maxDepth s.observations.length
    (m.nodes.filterMap HookCall.hookName?).length

/-- The number of calls of hooks up to which a class of complexity is kept. -/
def Complexity.hookBound? : Complexity → Option Nat
  | .simple => some 1
  | .moderate => some 3
  | .complex => none

/-- More calls of hooks leave the class of complexity as it is up to a bound. -/
theorem Complexity.classify_hooks {elements depth attributes hooks hooks' : Nat}
    (h : hooks ≤ hooks') :
    classify elements depth attributes hooks = classify elements depth attributes hooks'
      ↔ ∀ bound ∈ (classify elements depth attributes hooks).hookBound?, hooks' ≤ bound := by
  rw [classify_eq, classify_eq]
  split
  · next hcomplex =>
    rw [if_pos (by omega)]
    simp [hookBound?]
  · -- The other three numbers do not make the class complex, so only the calls can.
    next hnot =>
    by_cases hmany : 3 < hooks'
    · rw [if_pos (by omega : _ ∨ _ ∨ _ ∨ 3 < hooks')]
      split <;> simp [hookBound?] <;> omega
    · rw [if_neg (by omega : ¬ (20 < elements ∨ 5 < depth ∨ 15 < attributes ∨ 3 < hooks'))]
      split
      · next hmoderate =>
        rw [if_pos (by omega)]
        simpa [hookBound?] using hmany
      · by_cases hsome : 1 < hooks'
        · rw [if_pos (Or.inr (Or.inr (Or.inr hsome)))]
          simpa [hookBound?] using hsome
        · rw [if_neg (by omega)]
          simpa [hookBound?] using hsome

/-- **What may stand in the attributes of imports and exports.** -/
structure Syntax.Module.LinksUncounted (m : Module) (s : ComponentStructure) : Prop where
  /-- There are no elements. -/
  elements : ∀ n ∈ m.linked, n.form ≠ .element
  /-- There are no more calls of hooks than the class of complexity allows in all. -/
  hooks : ∀ bound ∈ s.complexity.hookBound?,
    (m.nodes.filterMap HookCall.hookName?).length ≤ bound

section Consistency

variable {m : Module} (hm : m.WellMarked) (path : String) (config : Config)

/-- The elements are tallied by the texts of the tags that the census meets. -/
theorem elements_eq : (analyzeStructure m path config).elements
    = Text.tally ((m.surveyed.filterMap Node.tag?).map TagName.text) := by
  rw [← @Census.tags_ofModule config m]
  rfl

/-- The observations are made at the nodes that the census comes to, in order. -/
theorem observations_eq : (analyzeStructure m path config).observations
    = m.surveyedPlaced.flatMap fun x =>
        Census.observations (Census.facts config (.ofNodes x.around) x.node) := by
  change Census.observations (Census.ofModule config m) = _
  rw [Census.ofModule_placed, Census.observations, List.filterMap_flatMap]
  rfl

/-- **The complexity counts the calls of hooks that are met**; it is right if the others would not
raise it. -/
theorem complexity_iff :
    (analyzeStructure m path config).complexity
        = .classify (analyzeStructure m path config).totalElements
          (analyzeStructure m path config).maxDepth
          (analyzeStructure m path config).observations.length
          (m.nodes.filterMap HookCall.hookName?).length
      ↔ ∀ bound ∈ (analyzeStructure m path config).complexity.hookBound?,
        (m.nodes.filterMap HookCall.hookName?).length ≤ bound := by
  have hhooks : (analyzeStructure m path config).hooks = m.surveyed.filterMap HookCall.hookName? :=
    Census.hooks_ofModule m
  have hle : (analyzeStructure m path config).hooks.length
      ≤ (m.nodes.filterMap HookCall.hookName?).length := by
    rw [hhooks]
    exact (m.parted_surveyed.sublist.filterMap _).length_le
  rw [complexity_analyzeStructure]
  exact Complexity.classify_hooks hle

include hm

/-- **The number of elements is right** exactly if none stands where the census does not look. -/
theorem total_iff : (analyzeStructure m path config).totalElements
      = m.nodes.countP (fun n => n.form = .element)
    ↔ ∀ n ∈ m.linked, n.form ≠ .element := by
  have hparted := (m.parted_surveyed.filterMap Node.tag?).length_eq
  have hlinked : m.linked.filterMap Node.tag? = [] ↔ ∀ n ∈ m.linked, n.form ≠ .element := by
    rw [List.filterMap_eq_nil_iff]
    refine forall₂_congr fun n hn => ?_
    have hnodes : n ∈ m.nodes := m.parted_surveyed.mem_iff.mpr (Or.inr hn)
    rw [← Option.not_isSome_iff_eq_none, isSome_tag?_iff hm hnodes]
  rw [totalElements_analyzeStructure, countP_element hm, ← hlinked, ← List.length_eq_zero_iff]
  omega

/-- An element is a component if its tag is among the components. -/
theorem mem_customComponents_of_mem_tags {tag : TagName}
    (h : tag ∈ m.surveyed.filterMap Node.tag?) :
    tag.text ∈ (analyzeStructure m path config).customComponents ↔ tag.isCustom = true := by
  rw [mem_customComponents, ← map_text_customTags, List.mem_map]
  constructor
  · rintro ⟨other, hother, htext⟩
    obtain ⟨hmem, hcustom⟩ := List.mem_filter.mp hother
    rwa [← TagName.isCustom_congr (isPlain_of_mem_tags hm hmem) (isPlain_of_mem_tags hm h) htext]
  · exact fun hcustom => ⟨tag, List.mem_filter.mpr ⟨h, hcustom⟩, rfl⟩

/-- Plain elements are the entries of the tally that are no components. -/
theorem htmlElements_eq : (analyzeStructure m path config).htmlElements
    = (analyzeStructure m path config).elements.filter fun entry =>
        entry.1 ∉ (analyzeStructure m path config).customComponents := by
  have hhtml : (analyzeStructure m path config).htmlElements
      = Text.tally (((m.surveyed.filterMap Node.tag?).filter (!·.isCustom)).map TagName.text) := by
    rw [← @Census.tags_ofModule config m]
    rfl
  -- What is left out by the kind of its tag is left out by the text of it.
  have hsame : ((m.surveyed.filterMap Node.tag?).filter (!·.isCustom)).map TagName.text
      = ((m.surveyed.filterMap Node.tag?).map TagName.text).filter fun text =>
          text ∉ (analyzeStructure m path config).customComponents := by
    rw [List.filter_map]
    refine congrArg (List.map TagName.text) (List.filter_congr fun tag htag => ?_)
    have hmem := mem_customComponents_of_mem_tags hm path config htag
    cases hcustom : tag.isCustom <;> simp [hmem, hcustom]
  rw [hhtml, hsame, Text.tally_filter, elements_eq]

/-- The tags in the tally are those of the components and the plain elements together. -/
theorem keys_iff (text : String) : text ∈ (analyzeStructure m path config).elements.map Prod.fst
    ↔ text ∈ (analyzeStructure m path config).customComponents
      ∨ text ∈ (analyzeStructure m path config).htmlElements.map Prod.fst := by
  have hkeys : text ∈ (analyzeStructure m path config).customComponents →
      text ∈ (analyzeStructure m path config).elements.map Prod.fst := by
    rw [elements_eq, Text.map_fst_tally, Text.mem_sortedSet, mem_customComponents,
      ← map_text_customTags]
    exact fun h => List.map_subset _ (List.filter_subset_self _) h
  constructor
  · intro h
    -- a tag that is no custom component is counted among the plain ones
    by_cases hcustom : text ∈ (analyzeStructure m path config).customComponents
    · exact Or.inl hcustom
    · obtain ⟨entry, hentry, rfl⟩ := List.mem_map.mp h
      rw [htmlElements_eq hm]
      exact Or.inr (List.mem_map_of_mem (List.mem_filter.mpr ⟨hentry, decide_eq_true hcustom⟩))
  · rintro (hcustom | hhtml)
    · exact hkeys hcustom
    · rw [htmlElements_eq hm] at hhtml
      exact List.map_subset _ (List.filter_subset_self _) hhtml

/-- **There is an observation for each attribute** if no element stands where the census does not
look. -/
theorem observations_iff (hlinked : ∀ n ∈ m.linked, n.form ≠ .element) :
    List.Forall₂ Observes (m.placed.filter fun x => (attributeName? x.node).isSome)
      (analyzeStructure m path config).observations := by
  -- All attributes are in the scope of the census.
  have hscope : (m.placed.filter fun x => (attributeName? x.node).isSome)
      = m.surveyedPlaced.filter fun x => (attributeName? x.node).isSome := by
    rw [Module.surveyedPlaced, List.filter_filter]
    refine List.filter_congr fun x hx => ?_
    cases hname : attributeName? x.node with
    | none => rfl
    | some name =>
      obtain ⟨a, hform⟩ := form_of_attributeName? hname
      obtain ⟨e, howner⟩ := (hm.inPlace x hx).owner a hform
      rw [isLinked_of_owner hlinked hx howner]
      rfl
  rw [hscope, observations_eq]
  exact observes_facts config fun x hx => hm.inPlace x (List.mem_filter.mp hx).1

end Consistency

/-- **Where all markup is in its place, the numbers of a module are right exactly if nothing that is
counted stands in the attributes of imports and exports.** -/
theorem Syntax.Module.WellMarked.censusConsistent_iff_linksUncounted {m : Module}
    (hm : m.WellMarked) (path : String) (config : Config) :
    CensusConsistent m (analyzeStructure m path config)
      ↔ m.LinksUncounted (analyzeStructure m path config) := by
  constructor
  · intro h
    exact ⟨(total_iff hm path config).mp h.total, (complexity_iff path config).mp h.complexity⟩
  · intro h
    have htags := filterMap_tag?_surveyed h.elements
    constructor
    case total => exact (total_iff hm path config).mpr h.elements
    case sum => rw [elements_eq, Text.total_tally, List.length_map, totalElements_analyzeStructure]
    case elements =>
      intro text
      rw [elements_eq, Text.lookup_tally, htags]
      rfl
    case htmlElements => exact htmlElements_eq hm path config
    case keys => exact keys_iff hm path config
    case attributes => exact (Text.total_tally _).trans (List.length_map ..)
    case observations => exact observations_iff hm path config h.elements
    case depth => exact isGreatest_depth hm h.elements path config
    case complexity => exact (complexity_iff path config).mpr h.hooks

/-- **The numbers of a module that has been read are right exactly if nothing that is counted stands
in the attributes of imports and exports.** -/
theorem censusConsistent_iff {dialect : Dialect} {chars : List Char} {m : Module}
    {faults : List Fault} (hread : Module.read? dialect chars = some (m, faults)) (path : String)
    (config : Config) : CensusConsistent m (analyzeStructure m path config)
      ↔ m.LinksUncounted (analyzeStructure m path config) :=
  (Module.wellMarked_of_read? hread).censusConsistent_iff_linksUncounted path config

/-- A file with a component in the attributes of an import. -/
def importedCard : List Char := "import a from \"b\" with \x7b c: <Card /> \x7d;".toList

/-- A component in the attributes of an import is an element that is not counted. -/
theorem not_censusConsistent_importedCard : ∃ m faults,
    Module.read? (.ofPath "C.tsx") importedCard = some (m, faults) ∧
    (analyzeStructure m "C.tsx" default).totalElements = 0 ∧
    (m.nodes.countP fun n => n.form = .element) = 1 ∧
    ¬ CensusConsistent m (analyzeStructure m "C.tsx" default) := by
  have hcounts : (Module.read? (.ofPath "C.tsx") importedCard).any (fun read =>
      (analyzeStructure read.1 "C.tsx" default).totalElements == 0
        && (read.1.nodes.countP fun n => n.form = .element) == 1) = true := by decide +kernel
  obtain ⟨⟨m, faults⟩, hread, hm⟩ := (Option.any_eq_true _ _).mp hcounts
  obtain ⟨hzero, hone⟩ : (analyzeStructure m "C.tsx" default).totalElements = 0 ∧
      (m.nodes.countP fun n => n.form = .element) = 1 := by simpa using hm
  refine ⟨m, faults, hread, hzero, hone, fun h => ?_⟩
  have htotal := h.total
  omega

/-- The file is read, and its census is consistent exactly if that component does no harm. -/
theorem censusConsistent_iff_importedCard : ∃ m faults,
    Module.read? (.ofPath "C.tsx") importedCard = some (m, faults) ∧
    (CensusConsistent m (analyzeStructure m "C.tsx" default)
      ↔ m.LinksUncounted (analyzeStructure m "C.tsx" default)) := by
  have hreadable : (Module.read? (.ofPath "C.tsx") importedCard).isSome = true := by decide +kernel
  obtain ⟨⟨m, faults⟩, hread⟩ := Option.isSome_iff_exists.mp hreadable
  exact ⟨m, faults, hread, censusConsistent_iff hread "C.tsx" default⟩

end JsxWidgets
