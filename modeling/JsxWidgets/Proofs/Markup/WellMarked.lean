import JsxWidgets.Proofs.Syntax.Surroundings
import JsxWidgets.Syntax.Markup

/-!
# Markup in its place

The type of nodes is uniform, so it does not say that an attribute stands in an opening tag, and an
opening tag at the front of an element. Analyses rely on it: they ask an opening tag for its
attributes, and whoever meets an attribute takes it that the innermost element around is the one
that it belongs to. `Node.WellMarked` says that all markup in a tree is in its place, and that the
words of a tag hold neither a point nor a colon, so that its text tells how it is put together.
-/

namespace JsxWidgets.Syntax

/-- Whether a word of a tag holds no mark that joins such words. -/
def isTagWord (word : String) : Bool := word.toList.all fun c => c ≠ '.' && c ≠ ':'

/-- Whether all words of a tag hold no mark that joins such words. -/
def TagName.isPlain : TagName → Bool
  | .simple name => isTagWord name
  | .member object property => object.isPlain && isTagWord property
  | .namespaced space name => isTagWord space && isTagWord name

namespace TagName

theorem notMem_of_isTagWord {word : String} (h : isTagWord word = true) :
    '.' ∉ word.toList ∧ ':' ∉ word.toList := by
  have hall := List.all_eq_true.mp h
  exact ⟨fun hdot => by simpa using hall '.' hdot, fun hcolon => by simpa using hall ':' hcolon⟩

theorem notMem_simple {name : String} (h : (simple name).isPlain = true) :
    '.' ∉ (simple name).text.toList ∧ ':' ∉ (simple name).text.toList :=
  notMem_of_isTagWord h

theorem dot_mem_member (object : TagName) (property : String) :
    '.' ∈ (member object property).text.toList := by
  simp [text]

theorem colon_mem_namespaced (space name : String) :
    ':' ∈ (namespaced space name).text.toList := by
  simp [text]

theorem dot_notMem_namespaced {space name : String} (h : (namespaced space name).isPlain = true) :
    '.' ∉ (namespaced space name).text.toList := by
  obtain ⟨hspace, hname⟩ := (Bool.and_eq_true _ _).mp h
  simp [text, (notMem_of_isTagWord hspace).1, (notMem_of_isTagWord hname).1]

/-- **The text of a tag tells whether it names a component.** -/
theorem isCustom_congr {a b : TagName} (ha : a.isPlain = true) (hb : b.isPlain = true)
    (h : a.text = b.text) : a.isCustom = b.isCustom := by
  cases a with
  | simple name =>
    have hname := notMem_simple ha
    cases b with
    | simple name' => exact congrArg (fun n : String => n.toList.head?.any Text.isUpper) h
    | member object property => exact absurd (h ▸ dot_mem_member object property) hname.1
    | namespaced space name' => exact absurd (h ▸ colon_mem_namespaced space name') hname.2
  | member object property =>
    cases b with
    | simple name => exact absurd (h ▸ dot_mem_member object property) (notMem_simple hb).1
    | member => rfl
    | namespaced space name =>
      exact absurd (h ▸ dot_mem_member object property) (dot_notMem_namespaced hb)
  | namespaced space name =>
    cases b with
    | simple name' => exact absurd (h ▸ colon_mem_namespaced space name) (notMem_simple hb).2
    | member object property =>
      exact absurd (h ▸ dot_mem_member object property) (dot_notMem_namespaced ha)
    | namespaced => rfl

end TagName

/-- Whether a construct has its place anywhere: it is no element, and no part of one that is found
nowhere else. -/
@[reducible] def Form.isPlain : Form → Bool
  | .element | .opening _ | .attr _ => false
  | _ => true

/-- Whether a construct may stand in a row of attributes. -/
def Form.isAttribute : Form → Bool
  | .attr _ | .spread => true
  | _ => false

/-- **All markup in a tree is in its place**: opening tags are the first parts of elements, and
attributes are in opening tags. -/
inductive Node.WellMarked : Node → Prop
  /-- Something that is no element, with parts of any kind. -/
  | plain {form : Form} {place : Place} {parts : List Node} (hform : form.isPlain = true)
    (hparts : ∀ n ∈ parts, WellMarked n) : WellMarked ⟨form, place, parts⟩
  /-- An element. -/
  | element {tag : TagName} {place opened : Place} {attributes children : List Node}
    {types closing : Node} (htag : tag.isPlain = true)
    (hforms : ∀ a ∈ attributes, a.form.isAttribute = true)
    (hattributes : ∀ a ∈ attributes, ∀ n ∈ a.parts, WellMarked n)
    (hchildren : ∀ n ∈ children, WellMarked n) (htypes : WellMarked types)
    (hclosing : WellMarked closing) :
    WellMarked ⟨.element, place,
      [⟨.opening tag, opened, [.list attributes, types]⟩, .list children, closing]⟩

/-- All markup in a module is in its place. -/
def Module.WellMarked (m : Module) : Prop := ∀ n ∈ m, n.WellMarked

namespace Node

@[simp] theorem wellMarked_mk {form : Form} {place : Place} {parts : List Node}
    (hform : form.isPlain = true) :
    WellMarked ⟨form, place, parts⟩ ↔ ∀ n ∈ parts, n.WellMarked := by
  constructor
  · rintro (⟨-, hparts⟩ | _)
    · exact hparts
    · cases hform
  · exact .plain hform

theorem WellMarked.parts {n : Node} (h : n.WellMarked) (hform : n.form.isPlain = true) :
    ∀ part ∈ n.parts, part.WellMarked := by
  obtain ⟨form, place, parts⟩ := n
  exact (wellMarked_mk hform).mp h

@[simp] theorem wellMarked_leaf {form : Form} {place : Place} (hform : form.isPlain = true) :
    (leaf form place).WellMarked := .plain hform fun _ h => nomatch h

@[simp] theorem wellMarked_list {nodes : List Node} :
    (list nodes).WellMarked ↔ ∀ n ∈ nodes, n.WellMarked := wellMarked_mk rfl

end Node

/-- The elements in a tree have their markup in its place. -/
theorem Node.WellMarked.of_mem_nodes {root e : Node} (h : root.WellMarked) (he : e ∈ root.nodes)
    (hform : e.form = .element) : e.WellMarked := by
  induction h with
  | plain hplain _ ih =>
    rcases mem_nodes_iff.mp he with rfl | hbelow
    · obtain rfl := hform
      cases hplain
    · obtain ⟨part, hpart, he⟩ := mem_nodesOf.mp hbelow
      exact ih part hpart he
  | @element tag place opened attributes children types closing htag hforms hattributes hchildren
    htypes hclosing ihattributes ihchildren ihtypes ihclosing =>
    rcases mem_nodes_iff.mp he with rfl | hbelow
    · exact .element htag hforms hattributes hchildren htypes hclosing
    -- Below the element: its opening tag with the row of attributes and the types, its children,
    -- and its closing tag.
    simp only [nodesOf, nodes_mk, list, List.mem_cons, List.mem_append, List.cons_append,
      List.not_mem_nil, or_false] at hbelow
    rcases hbelow with rfl | rfl | (hattribute | htype) | rfl | hchild | hclose
    · cases hform
    · cases hform
    · obtain ⟨a, ha, he⟩ := mem_nodesOf.mp hattribute
      rcases mem_nodes_iff.mp he with rfl | hbelow
      · have hnot := hforms e ha
        rw [hform] at hnot
        cases hnot
      · obtain ⟨part, hpart, he⟩ := mem_nodesOf.mp hbelow
        exact ihattributes a ha part hpart he
    · exact ihtypes htype
    · cases hform
    · obtain ⟨child, hmem, he⟩ := mem_nodesOf.mp hchild
      exact ihchildren child hmem he
    · exact ihclosing hclose

theorem Module.WellMarked.of_mem_nodes {m : Module} (h : m.WellMarked) {e : Node}
    (he : e ∈ m.nodes) (hform : e.form = .element) : e.WellMarked := by
  obtain ⟨item, hitem, he⟩ := Node.mem_nodesOf.mp he
  exact (h item hitem).of_mem_nodes he hform

/-! ### Where markup stands -/

/-- **The owner of an attribute**: the innermost element around, which carries it in its opening
tag. -/
structure IsOwner (e : Node) (x : Placed) : Prop where
  /-- The attribute is in a row in the opening tag of the element. -/
  carries : ∃ row opening outer, x.around = row :: opening :: e :: outer ∧ row.form = .list
    ∧ e.opening? = some opening ∧ x.node ∈ opening.attributes
  /-- The element is the innermost one around. -/
  innermost : x.around.find? (·.form = .element) = some e

/-- **Markup that stands in its place.** -/
structure Placed.InPlace (x : Placed) : Prop where
  /-- An element has a tag. -/
  tag : x.node.form = .element → ∃ tag, x.node.tag? = some tag ∧ tag.isPlain = true
  /-- An attribute has an owner. -/
  owner : ∀ name, x.node.form = .attr name → ∃ e, IsOwner e x

theorem Placed.inPlace_of_isPlain {x : Placed} (h : x.node.form.isPlain = true) : x.InPlace where
  tag := fun hform => by rw [hform] at h; cases h
  owner := fun name hform => by rw [hform] at h; cases h

/-- All that is listed with a node stands in its place. -/
def Node.AllInPlace (n : Node) : Prop :=
  ∀ around, ∀ x ∈ Survey.placing.run around n, x.InPlace

theorem Node.allInPlace_of_isPlain {n : Node} (hform : n.form.isPlain = true)
    (hparts : ∀ part ∈ n.parts, part.AllInPlace) : n.AllInPlace := by
  intro around x hx
  rcases Survey.mem_run_placing.mp hx with rfl | ⟨part, hpart, hx⟩
  · exact Placed.inPlace_of_isPlain hform
  · exact hparts part hpart _ x hx

/-- An attribute with the row, the opening tag and the element around it. -/
theorem attribute_inPlace {tag : TagName} {place opened : Place} {attributes : List Node}
    {types : Node} {rest : List Node} {a : Node} (ha : a ∈ attributes)
    (hform : a.form.isAttribute = true) (around : List Node) :
    Placed.InPlace ⟨a, .list attributes :: ⟨.opening tag, opened, [.list attributes, types]⟩ ::
      ⟨.element, place, ⟨.opening tag, opened, [.list attributes, types]⟩ :: rest⟩ :: around⟩ := by
  refine ⟨fun helement => ?_, fun name hname => ?_⟩
  · have hnot : a.form.isAttribute = false := congrArg Form.isAttribute helement
    rw [hform] at hnot
    cases hnot
  · exact ⟨_, ⟨_, _, around, rfl, rfl, rfl, ha⟩, rfl⟩

theorem Node.WellMarked.allInPlace {n : Node} (h : n.WellMarked) : n.AllInPlace := by
  induction h with
  | plain hform _ hparts => exact allInPlace_of_isPlain hform hparts
  | @element tag place opened attributes children types closing htag hforms _ _ _ _ hattributes
    hchildren htypes hclosing =>
    intro around x hx
    rcases Survey.mem_run_placing.mp hx with rfl | ⟨part, hpart, hx⟩
    · exact ⟨fun _ => ⟨tag, rfl, htag⟩, fun _ => (nomatch ·)⟩
    -- What is listed with the opening tag, the children, and the closing tag.
    simp only [List.mem_cons, List.not_mem_nil, or_false] at hpart
    rcases hpart with rfl | rfl | rfl
    · rcases Survey.mem_run_placing.mp hx with rfl | ⟨part, hpart, hx⟩
      · exact ⟨(nomatch ·), fun _ => (nomatch ·)⟩
      simp only [List.mem_cons, List.not_mem_nil, or_false] at hpart
      rcases hpart with rfl | rfl
      · rcases Survey.mem_run_placing.mp hx with rfl | ⟨a, ha, hx⟩
        · exact Placed.inPlace_of_isPlain rfl
        rcases Survey.mem_run_placing.mp hx with rfl | ⟨part, hpart, hx⟩
        · exact attribute_inPlace ha (hforms a ha) around
        · exact hattributes a ha part hpart _ x hx
      · exact htypes _ x hx
    · exact allInPlace_of_isPlain (n := .list children) rfl hchildren _ x hx
    · exact hclosing _ x hx

/-- **All markup stands in its place.** -/
theorem Module.WellMarked.inPlace {m : Module} (h : m.WellMarked) : ∀ x ∈ m.placed, x.InPlace := by
  intro x hx
  obtain ⟨item, hitem, hrun⟩ := List.mem_flatMap.mp hx
  exact (h item hitem).allInPlace [] x hrun

end JsxWidgets.Syntax
