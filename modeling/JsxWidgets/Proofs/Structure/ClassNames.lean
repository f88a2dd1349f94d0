import JsxWidgets.Proofs.Expression.Wrappers
import JsxWidgets.Proofs.Lowering.Noting
import JsxWidgets.Proofs.Grammar.TagRules
import JsxWidgets.Proofs.Structure.Scope
import JsxWidgets.Proofs.Structure.RenderedMarkup
import JsxWidgets.Proofs.Text.Order
import JsxWidgets.Structure

/-!
# Class names in the structure and in the lowered tree

The census and the lowering both take words from the attributes that hold class names, and each
reads the value of the attribute in its own way. The census takes the pieces of a sum of texts, and
of a template what is written in the source. The lowering first asks whether the value is a plain
text, and a template without substitutions is one, with its escapes resolved. That is the only value
on which the two differ (`classTokens_agree_iff`).

Apart from the words, the two look at different nodes. The lowering follows the markup of one
component, and goes nowhere where the census does not look (`route_seen`), unless the markup that it
starts from stands in the attributes of an import or of exports, which the census passes over. Both
conditions together are exact in every module whose markup is in its place
(`Module.WellMarked.classesAgree_iff_classesFit`), and so in every module that has been read
(`classesAgree_iff`).
-/

namespace JsxWidgets

open Syntax Expression

/-! ### One attribute -/

/-- Parentheses and type assertions around a text do not change its class names. -/
theorem classTokens_unwrap (e : Node) : classTokens e.unwrap = classTokens e := by
  rw [classTokens, classTokens, pieces, pieces, summands?_unwrap, operandPieces_unwrap]

/-- The pieces of a template without substitutions, if an attribute has one as its value. -/
def Syntax.Node.plainTemplate? (attr : Node) : Option (List Quasi) :=
  match attr.attributeValue with
  | .expression e =>
    match e.unwrap with
    | ⟨.template quasis, _, []⟩ => some quasis
    | _ => none
  | _ => none

/-- A template without substitutions is lowered as its text, and counted as it is written. -/
theorem classTokens_of_plainTemplate {attr : Node} {quasis : List Quasi}
    (h : attr.plainTemplate? = some quasis) :
    (GivenValue.ofAttribute attr).classTokens = Text.words (String.join (quasis.map Quasi.text))
      ∧ attr.attributeValue.classTokens = (quasis.map Quasi.raw).flatMap Text.words := by
  unfold Node.plainTemplate? at h
  split at h
  next e hvalue =>
    split at h
    next qs place hunwrap =>
      obtain rfl := Option.some.inj h
      rw [GivenValue.ofAttribute, hvalue]
      -- the two passes read the template apart: one its cooked text, the other its raw parts
      constructor
      · change (GivenValue.ofExpr e).classTokens = _
        rw [GivenValue.ofExpr, hunwrap]
        rfl
      · change classTokens e = _
        rw [← classTokens_unwrap, hunwrap]
        rfl
    next => cases h
  next => cases h

/-- Any other value has the same class names for the lowering and for the census. -/
theorem classTokens_of_plainTemplate_none {attr : Node} (h : attr.plainTemplate? = none) :
    (GivenValue.ofAttribute attr).classTokens = attr.attributeValue.classTokens := by
  unfold Node.plainTemplate? at h
  rw [GivenValue.ofAttribute]
  cases hvalue : attr.attributeValue with
  | missing | quoted | emptyBraces | markup => rfl
  | expression e =>
    rw [hvalue] at h
    change (GivenValue.ofExpr e).classTokens = classTokens e
    rw [← classTokens_unwrap, GivenValue.ofExpr]
    dsimp only at h
    -- A quoted text, a template, markup, and anything else.
    split
    next s place parts hunwrap =>
      rw [hunwrap]
      exact (List.flatMap_singleton Text.words s).symm
    next quasis place hunwrap =>
      rw [hunwrap] at h
      cases h
    next place n hunwrap =>
      rw [hunwrap]
      rfl
    next => rfl

/-- The class names that the lowering notes for a node. -/
def Syntax.Node.loweredClasses (n : Node) : List String :=
  if n.holdsClasses then (GivenValue.ofAttribute n).classTokens else []

/-- **A template whose class names are spelled as they are**: the words of its text are those of its
source. -/
def Plainly (quasis : List Quasi) : Prop :=
  ∀ token, token ∈ Text.words (String.join (quasis.map Quasi.text))
    ↔ token ∈ (quasis.map Quasi.raw).flatMap Text.words

/-- **An attribute has the same class names for both analyses** unless it is a template that is not
spelled plainly. -/
theorem classTokens_agree_iff (attr : Node) :
    (∀ token, token ∈ (GivenValue.ofAttribute attr).classTokens
      ↔ token ∈ attr.attributeValue.classTokens)
      ↔ ∀ quasis ∈ attr.plainTemplate?, Plainly quasis := by
  cases htemplate : attr.plainTemplate? with
  | none =>
    rw [classTokens_of_plainTemplate_none htemplate]
    exact ⟨fun _ _ h => (nomatch h), fun _ _ => Iff.rfl⟩
  | some quasis =>
    obtain ⟨hlowered, hcensus⟩ := classTokens_of_plainTemplate htemplate
    rw [hlowered, hcensus]
    exact ⟨fun h q hq => Option.some.inj hq ▸ h, fun h => h quasis rfl⟩

/-! ### What the census sees of a node -/

/-- What the census sees of a node and below it. -/
def Syntax.Node.seen (n : Node) : List Node := Census.scope.run () n

/-- The census sees a node and what it sees of the parts, unless the node lists the attributes of
exports or of an import. -/
theorem seen_eq {n : Node} (h : Census.isListing n.form = false) :
    n.seen = n :: n.parts.flatMap Node.seen := by
  have henter : ∀ number, Census.scope.enter () n number = some () := fun _ => by
    change (if Census.isListing n.form then none else some ()) = _
    rw [if_neg (ne_true_of_eq_false h)]
  rw [Node.seen, Survey.run_eq, Survey.runParts_of_forall_enter henter]
  rfl

/-- It sees the node itself. -/
theorem self_mem_seen (n : Node) : n ∈ n.seen := by
  rw [Node.seen, Survey.run_eq]
  exact List.mem_append_left _ (List.mem_singleton_self n)

/-- What it sees of a part it sees of the node. -/
theorem mem_seen_of_part {n part : Node} (h : Census.isListing n.form = false)
    (hpart : part ∈ n.parts) {k : Node} (hk : k ∈ part.seen) : k ∈ n.seen := by
  rw [seen_eq h]
  exact List.mem_cons_of_mem n (List.mem_flatMap.mpr ⟨part, hpart, hk⟩)

/-- What is seen of something that is seen is seen. -/
theorem seen_subset {m n : Node} (h : m ∈ n.seen) : m.seen ⊆ n.seen := by
  induction n using Node.induction_below with
  | step n ih =>
    -- a listing is not entered, so it sees itself only
    cases hlisting : Census.isListing n.form with
    | true =>
      have hskip : ∀ number, Census.scope.enter () n number = none := fun _ => by
        change (if Census.isListing n.form then none else some ()) = _
        rw [if_pos hlisting]
      rw [Node.seen, Survey.run_eq, Survey.runParts_of_forall_skip fun later _ => hskip later,
        List.append_nil] at h
      rw [List.mem_singleton.mp h]
      exact List.Subset.refl _
    | false =>
      rw [seen_eq hlisting] at h
      rcases List.mem_cons.mp h with rfl | h
      · exact List.Subset.refl _
      · obtain ⟨part, hpart, hm⟩ := List.mem_flatMap.mp h
        have hsub := ih part (Node.mem_nodesOf_of_mem hpart) hm
        exact fun k hk => mem_seen_of_part hlisting hpart (hsub hk)

/-- What it sees of a module it sees of one of the items. -/
theorem mem_surveyed {m : Module} {n : Node} : n ∈ m.surveyed ↔ ∃ item ∈ m, n ∈ item.seen :=
  List.mem_flatMap

/-- What it sees of a node that it sees in a module it sees of the module. -/
theorem seen_subset_surveyed {m : Module} {n : Node} (h : n ∈ m.surveyed) :
    n.seen ⊆ m.surveyed := by
  obtain ⟨item, hitem, hn⟩ := mem_surveyed.mp h
  exact fun k hk => mem_surveyed.mpr ⟨item, hitem, seen_subset hn hk⟩

/-- It sees an expression through wrappers. -/
theorem unwrap_mem_seen (e : Node) : e.unwrap ∈ e.seen := by
  fun_induction Node.unwrap e with
  | case6 n => exact self_mem_seen n
  | case1 _ _ ih | case2 _ _ _ ih | case3 _ _ ih | case4 _ _ _ ih | case5 _ _ ih =>
    exact mem_seen_of_part rfl List.mem_cons_self ih

/-! ### What the lowering notes -/

/-- What is taken apart as an element is one. -/
theorem form_of_element? {n : Node} {el : Element} (h : n.element? = some el) :
    n.form = .element := by
  obtain ⟨place, p₁, f₂, p₂, more, f₃, p₃, closing, rfl⟩ := Node.element?_eq_some h
  rfl

/-- What a child gives way to is a part of it that the census sees. -/
theorem inner_part {n e : Node} (h : n.childForm = .inner e) :
    e ∈ n.parts ∧ Census.isListing n.form = false := by
  unfold Node.childForm at h
  split at h
  split at h <;> try cases h
  -- Braces hold what stands for the child if it is no text.
  case h_5 =>
    split at h <;> cases h
    exact ⟨List.mem_cons_self, rfl⟩
  all_goals exact ⟨List.mem_cons_self, rfl⟩

/-- An element in its place, by its parts. -/
theorem eq_of_element? {n : Node} {el : Element} (hn : n.WellMarked) (hel : n.element? = some el) :
    ∃ place opened types closing, n = ⟨.element, place,
      [⟨.opening el.tag, opened, [.list el.attributes, types]⟩, .list el.children, closing]⟩ := by
  cases hn with
  | plain hform hparts =>
    obtain ⟨place, p₁, f₂, p₂, more, f₃, p₃, closing, heq⟩ := Node.element?_eq_some hel
    cases heq
    cases hform
  | element =>
    cases hel
    exact ⟨_, _, _, _, rfl⟩

/-- A part of a tree that the census sees: all elements in it have their markup in its place. -/
structure Syntax.Node.SeenIn (pool : List Node) (n : Node) : Prop where
  /-- The census sees what it sees of the part. -/
  seen : n.seen ⊆ pool
  /-- The elements have their markup in its place. -/
  elements : ∀ e ∈ n.nodes, e.form = .element → e.WellMarked

/-- A part of what is seen is seen. -/
theorem Syntax.Node.SeenIn.part {pool : List Node} {n part : Node} (h : n.SeenIn pool)
    (hform : Census.isListing n.form = false) (hpart : part ∈ n.parts) : part.SeenIn pool where
  seen := fun _ hk => h.seen (mem_seen_of_part hform hpart hk)
  elements := fun e he =>
    h.elements e (Node.nodes_subset (Node.mem_nodes_of_below (Node.mem_nodesOf_of_mem hpart)) he)

/-- So is what is seen through wrappers. -/
theorem Syntax.Node.SeenIn.unwrap {pool : List Node} {e : Node} (h : e.SeenIn pool) :
    e.unwrap.SeenIn pool where
  seen := fun _ hk => h.seen (seen_subset (unwrap_mem_seen e) hk)
  elements := fun k hk => h.elements k (Node.nodes_subset e.unwrap_mem_nodes hk)

/-- The lowering goes where the census looks. -/
theorem route_seen (pool : List Node) :
    Route (Node.SeenIn pool) (Node.SeenIn pool) := by
  constructor
  case inner =>
    intro n e hn hform
    obtain ⟨hmem, hlisting⟩ := inner_part hform
    exact hn.part hlisting hmem
  case fragment => exact fun hn m hm => hn.part rfl hm
  case children =>
    intro n el hn hel m hm
    have hmarked : n.WellMarked := hn.elements n n.self_mem_nodes (form_of_element? hel)
    obtain ⟨place, opened, types, closing, rfl⟩ := eq_of_element? hmarked hel
    have hrow : (Node.list el.children).SeenIn pool := hn.part rfl (by simp)
    exact hrow.part rfl hm
  case attributes =>
    intro n el hn hel a ha
    have hmarked : n.WellMarked := hn.elements n n.self_mem_nodes (form_of_element? hel)
    obtain ⟨place, opened, types, closing, rfl⟩ := eq_of_element? hmarked hel
    have hopening := hn.part rfl List.mem_cons_self
    have hrow : (Node.list el.attributes).SeenIn pool := hopening.part rfl List.mem_cons_self
    exact hrow.part rfl ha
  case markup =>
    intro a name m ha hgiven
    obtain ⟨attrName, place, inner, rfl, -, hvalue⟩ := GivenAttribute.ofNode?_eq_named hgiven
    have hinner : inner.SeenIn pool := ha.part rfl List.mem_cons_self
    rcases attributeMarkup_cases hvalue with rfl | ⟨p, e, rfl, -, p', hunwrap⟩
    · exact hinner
    · -- The markup is inside braces, and there may be parentheses around it.
      have hmarkup := (hinner.part rfl List.mem_cons_self : e.SeenIn pool).unwrap
      rw [hunwrap] at hmarkup
      exact hmarkup.part rfl List.mem_cons_self

/-- **All steps of the lowering keep to what is seen**: what they note are class names of attributes
that are seen. -/
theorem keeps_seen (overrides : Overrides) (pool : List Node) :
    Route.Keeps overrides (Node.SeenIn pool) (Node.SeenIn pool)
      (fun notes => notes.classNames ⊆ pool.flatMap Node.loweredClasses) where
  append := fun ha hb => by
    rw [Notes.classNames_append]
    exact List.append_subset.mpr ⟨ha, hb⟩
  reports := fun _ => List.nil_subset _
  component := fun _ _ _ => List.nil_subset _
  classes := by
    intro a g ha hgiven
    cases g with
    | spread e => exact List.nil_subset _
    | named name value =>
      obtain ⟨attrName, place, inner, rfl, rfl, rfl⟩ := GivenAttribute.ofNode?_eq_named hgiven
      exact fun token htoken => List.mem_flatMap.mpr ⟨_, ha.seen (self_mem_seen _), htoken⟩

/-- **What the lowering notes as class names** is in attributes that the census sees. -/
theorem classNames_lowerMarkup (overrides : Overrides) {markup : Node} {pool : List Node}
    (h : markup.SeenIn pool) :
    (lowerMarkup overrides markup).notes.classNames ⊆ pool.flatMap Node.loweredClasses :=
  (route_seen pool).keeps_lowerMarkup (keeps_seen overrides pool) h

/-! ### Agreement -/

/-- The markup of a module that is lowered. -/
def Syntax.Module.loweredMarkup? (m : Module) : Option Node :=
  (m.component?.bind (·.renderedMarkup?)).or m.firstElement?

/-- The markup that is lowered is a node of the module. -/
theorem loweredMarkup?_mem {m : Module} {markup : Node} (h : m.loweredMarkup? = some markup) :
    markup ∈ m.nodes := by
  rcases Option.or_eq_some_iff.mp h with hrendered | ⟨-, hfirst⟩
  · exact renderedMarkup?_mem hrendered
  · exact List.mem_of_find?_eq_some hfirst

/-- What is noted as class names for a module is noted for that markup. -/
theorem classNames_lowerModule (overrides : Overrides) (m : Module) :
    (lowerModule overrides m).notes.classNames
      = m.loweredMarkup?.elim [] fun markup => (lowerMarkup overrides markup).notes.classNames := by
  rw [lowerModule, Module.loweredMarkup?]
  cases m.component?.bind (·.renderedMarkup?) with
  | some markup => rfl
  | none => cases m.firstElement? <;> rfl

/-- **Both analyses record the same class names.** -/
structure ClassesAgree (m : Module) (path : String) (config : Config) : Prop where
  /-- For an attribute that holds class names, the lowering adds those that the census adds. -/
  attributes : ∀ attr ∈ m.nodes, attr.holdsClasses = true → ∀ mark around token,
    token ∈ (lowerClass mark (.ofAttribute attr)).notes.classNames
      ↔ token ∈ Census.classTokens (Census.facts config around attr)
  /-- The lowered tree has no class names that the structure has not. -/
  trees : ∀ component, (lowerToWidgetTree m component config).classNames
    ⊆ (analyzeStructure m path config).classNames

/-- **What class names may be like** and where they may stand. -/
structure Syntax.Module.ClassesFit (m : Module) (config : Config) : Prop where
  /-- Templates without substitutions spell them as they are. -/
  templates : ∀ attr ∈ m.nodes, attr.holdsClasses = true → ∀ quasis ∈ attr.plainTemplate?,
    Plainly quasis
  /-- If what is lowered stands in the attributes of an import or of exports, its class names stand
  elsewhere as well. -/
  links : ∀ markup ∈ m.loweredMarkup?, markup ∉ m.surveyed →
    (lowerMarkup config.targetOverrides markup).notes.classNames
      ⊆ m.surveyed.flatMap Node.countedClasses

section Agreement

variable {m : Module} (path : String) (config : Config)

/-- The class names of a structure are those of the attributes that the census sees. -/
theorem mem_classNames {token : String} :
    token ∈ (analyzeStructure m path config).classNames
      ↔ token ∈ m.surveyed.flatMap Node.countedClasses := by
  change token ∈ Text.sortedSet (Census.classTokens (Census.ofModule config m)) ↔ _
  rw [Text.mem_sortedSet, Census.classTokens_ofModule]

/-- Attribute by attribute, both analyses agree exactly if all templates are spelled plainly. -/
theorem attributes_iff : (∀ attr ∈ m.nodes, attr.holdsClasses = true → ∀ mark around token,
      token ∈ (lowerClass mark (.ofAttribute attr)).notes.classNames
        ↔ token ∈ Census.classTokens (Census.facts config around attr))
    ↔ ∀ attr ∈ m.nodes, attr.holdsClasses = true → ∀ quasis ∈ attr.plainTemplate?,
      Plainly quasis := by
  refine forall₃_congr fun attr _ hclasses => ?_
  rw [← classTokens_agree_iff]
  simp only [lowerClass_notes, Census.classTokens_facts, Node.countedClasses, hclasses, if_true]
  exact ⟨fun h => h "" ⟨0, ""⟩, fun h _ _ => h⟩

/-- The tree brings no further class names exactly if those of the markup stand where the census
looks. -/
theorem trees_iff : (∀ component, (lowerToWidgetTree m component config).classNames
      ⊆ (analyzeStructure m path config).classNames)
    ↔ ∀ markup ∈ m.loweredMarkup?, (lowerMarkup config.targetOverrides markup).notes.classNames
      ⊆ m.surveyed.flatMap Node.countedClasses := by
  -- the names of the lowered tree are sorted, which changes nothing for membership
  have hnames : ∀ component token, token ∈ (lowerToWidgetTree m component config).classNames
      ↔ ∃ markup ∈ m.loweredMarkup?,
        token ∈ (lowerMarkup config.targetOverrides markup).notes.classNames := by
    intro component token
    change token ∈ Text.sortedSet (lowerModule config.targetOverrides m).notes.classNames ↔ _
    rw [Text.mem_sortedSet, classNames_lowerModule]
    cases m.loweredMarkup? <;> simp
  constructor
  · intro h markup hmarkup token htoken
    have hlowered := (hnames none token).mpr ⟨markup, hmarkup, htoken⟩
    exact (mem_classNames path config).mp (h none hlowered)
  · intro h component token htoken
    obtain ⟨markup, hmarkup, htoken⟩ := (hnames component token).mp htoken
    exact (mem_classNames path config).mpr (h markup hmarkup htoken)

end Agreement

/-- **Where all markup is in its place, the class names agree exactly if they are spelled as they
are, and what is lowered stands where the census looks.** Only what is lowered has to be marked
well: the census asks an attribute for its words wherever it stands. -/
theorem Syntax.Module.WellMarked.classesAgree_iff_classesFit {m : Module} (hm : m.WellMarked)
    (path : String) (config : Config) : ClassesAgree m path config ↔ m.ClassesFit config := by
  constructor
  · intro h
    exact ⟨(attributes_iff config).mp h.attributes,
      fun markup hmarkup _ => (trees_iff path config).mp h.trees markup hmarkup⟩
  · intro h
    have hattributes := (attributes_iff config).mpr h.templates
    refine ⟨hattributes, (trees_iff path config).mpr fun markup hmarkup => ?_⟩
    by_cases hsurveyed : markup ∈ m.surveyed
    · -- What the lowering notes is in attributes that the census sees, and for these both agree.
      have hseen : markup.SeenIn m.surveyed := by
        refine ⟨seen_subset_surveyed hsurveyed, fun e he hform => ?_⟩
        exact hm.of_mem_nodes (Node.mem_nodesOf_of_mem_nodes (loweredMarkup?_mem hmarkup) he) hform
      intro token htoken
      obtain ⟨attr, hattr, hlowered⟩ := List.mem_flatMap.mp
        (classNames_lowerMarkup config.targetOverrides hseen htoken)
      refine List.mem_flatMap.mpr ⟨attr, hattr, ?_⟩
      unfold Node.loweredClasses at hlowered
      split at hlowered
      next hclasses =>
        have hnodes : attr ∈ m.nodes := m.parted_surveyed.mem_iff.mpr (Or.inl hattr)
        have hagree := hattributes attr hnodes hclasses "" ⟨0, ""⟩ token
        rw [lowerClass_notes, Census.classTokens_facts] at hagree
        exact hagree.mp hlowered
      next => cases hlowered
    · exact h.links markup hmarkup hsurveyed

/-- **The class names in a module that has been read agree exactly if they are spelled as they are,
and what is lowered stands where the census looks.** -/
theorem classesAgree_iff {dialect : Dialect} {chars : List Char} {m : Module} {faults : List Fault}
    (hread : Module.read? dialect chars = some (m, faults)) (path : String) (config : Config) :
    ClassesAgree m path config ↔ m.ClassesFit config :=
  (Module.wellMarked_of_read? hread).classesAgree_iff_classesFit path config

/-- A file with a paragraph whose class names are a template with an escaped tab. -/
def escapedTemplate : List Char :=
  "const C = () => <p className=\x7b`a\\tb`\x7d />;".toList

/-- An escaped tab parts two class names for the lowering, and is part of one for the census. -/
theorem not_classesAgree_escapedTemplate : ∃ m faults,
    Module.read? (.ofPath "C.tsx") escapedTemplate = some (m, faults) ∧
    (lowerToWidgetTree m (some "C") default).classNames = ["a", "b"] ∧
    (analyzeStructure m "C.tsx" default).classNames = ["a\\tb"] ∧
    ¬ ClassesAgree m "C.tsx" default := by
  have hnames : (Module.read? (.ofPath "C.tsx") escapedTemplate).any (fun read =>
      (lowerToWidgetTree read.1 (some "C") default).classNames == ["a", "b"]
        && (analyzeStructure read.1 "C.tsx" default).classNames == ["a\\tb"]) = true := by
    decide +kernel
  obtain ⟨⟨m, faults⟩, hread, hm⟩ := (Option.any_eq_true _ _).mp hnames
  obtain ⟨hlowered, hcounted⟩ : (lowerToWidgetTree m (some "C") default).classNames = ["a", "b"] ∧
      (analyzeStructure m "C.tsx" default).classNames = ["a\\tb"] := by simpa using hm
  refine ⟨m, faults, hread, hlowered, hcounted, fun h => ?_⟩
  have hsubset := h.trees (some "C")
  rw [hlowered, hcounted] at hsubset
  exact absurd hsubset (by decide)

/-- The file is read, and the analyses agree on it exactly if that template does no harm. -/
theorem classesAgree_iff_escapedTemplate : ∃ m faults,
    Module.read? (.ofPath "C.tsx") escapedTemplate = some (m, faults) ∧
    (ClassesAgree m "C.tsx" default ↔ m.ClassesFit default) := by
  have hreadable : (Module.read? (.ofPath "C.tsx") escapedTemplate).isSome = true := by
    decide +kernel
  obtain ⟨⟨m, faults⟩, hread⟩ := Option.isSome_iff_exists.mp hreadable
  exact ⟨m, faults, hread, classesAgree_iff hread "C.tsx" default⟩

end JsxWidgets
