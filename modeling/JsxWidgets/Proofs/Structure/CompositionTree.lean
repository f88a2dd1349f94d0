import Mathlib.Data.List.Forall2
import Mathlib.Logic.Relation
import JsxWidgets.Proofs.Structure.Components
import JsxWidgets.Proofs.Syntax.Surroundings
import JsxWidgets.Proofs.Text.Tables

/-!
# The composition tree

The records of a composition name their components, and the tree is made of these names alone: it
has an edge wherever a record hangs off a name (`edge_ofRecords`).

## The tree is connected

That every name can be reached from the component of the file is seen by going through the records
in order. A record hangs off that component, or off the innermost component around it, and that one
has a record in front (`composedInOrder`). So the names of the records are reached one after the
other (`reaches_child`).

## The tree groups the records

The tree is made record by record, and the records of one component may stand between those of
others. What comes out does not show this: the tree has an entry for everything that some record
hangs off, and the children there are those of its own records, each where it comes first
(`Groups`). So a record that says nothing new changes nothing, and further records add new entries
and new children at the ends of the old ones (`Extends`).
-/

namespace JsxWidgets

open Syntax

/-! ### The edges of a tree -/

namespace CompositionTree

variable {π : Type}

/-- There is an edge from a component to one inside it. -/
def Edge (t : CompositionTree) (from_ to_ : String) : Prop :=
  ∃ children, (from_, children) ∈ t.edges ∧ to_ ∈ children

/-- There is a way along edges. -/
def Reaches (t : CompositionTree) : String → String → Prop := Relation.ReflTransGen t.Edge

/-- **A tree that is connected**: all its names are reached from one. -/
structure Connected (t : CompositionTree) (start : String) : Prop where
  /-- Everything that has children is reached. -/
  keys : ∀ name children, (name, children) ∈ t.edges → t.Reaches start name
  /-- All children are reached. -/
  children : ∀ name children, (name, children) ∈ t.edges → ∀ child ∈ children,
    t.Reaches start child

/-- The children of a component are those of the records that hang off it, without repetition. -/
theorem edges_ofRecords (records : List (CompositionRecord π)) :
    (ofRecords records).edges = Text.tabulate (Text.sortedSet (records.map anchor)) fun name =>
      Text.firstOccurrences ((records.filter fun r => anchor r = name).map (·.child)) := by
  refine (Text.foldl_update anchor
    (fun known r => if known.contains r.child then known else known ++ [r.child]) []
    records).trans ?_
  refine Text.tabulate_congr fun name _ => ?_
  rw [Text.firstOccurrences, List.foldl_map]

theorem mem_edges_ofRecords {records : List (CompositionRecord π)} {name : String}
    {children : List String} (h : (name, children) ∈ (ofRecords records).edges) :
    (∃ r ∈ records, anchor r = name)
      ∧ ∀ child, child ∈ children ↔ ∃ r ∈ records, anchor r = name ∧ r.child = child := by
  rw [edges_ofRecords, Text.tabulate, List.mem_map] at h
  obtain ⟨key, hkey, heq⟩ := h
  obtain ⟨rfl, rfl⟩ := Prod.mk.inj heq
  refine ⟨List.mem_map.mp (Text.mem_sortedSet.mp hkey), fun child => ?_⟩
  simp only [Text.mem_firstOccurrences, List.mem_map, List.mem_filter, decide_eq_true_eq,
    and_assoc]

theorem edge_ofRecords {records : List (CompositionRecord π)} {r : CompositionRecord π}
    (h : r ∈ records) : (ofRecords records).Edge (anchor r) r.child := by
  have hkey : anchor r ∈ Text.sortedSet (records.map anchor) :=
    Text.mem_sortedSet.mpr (List.mem_map_of_mem h)
  have hchild : r ∈ records.filter fun r' => anchor r' = anchor r :=
    List.mem_filter.mpr ⟨h, decide_eq_true rfl⟩
  rw [Edge, edges_ofRecords]
  exact ⟨_, List.mem_map.mpr ⟨anchor r, hkey, rfl⟩,
    Text.mem_firstOccurrences.mpr (List.mem_map_of_mem hchild)⟩

/-! ### Records in order -/

/-- **Records of one component in order**: what a record hangs off, other than the component of the
file, has a record in front. -/
structure InOrder (parent : Option String) (records : List (CompositionRecord π)) : Prop where
  /-- All records are of the same component. -/
  parent : ∀ r ∈ records, r.parent = parent
  /-- The component around has a record in front. -/
  earlier : ∀ (i : Nat) (r : CompositionRecord π) (p : String), records[i]? = some r →
    r.markupParent = some p → ∃ j < i, ∃ e, records[j]? = some e ∧ e.child = p

variable {parent : Option String} {records : List (CompositionRecord π)}

/-- What a record hangs off is reached if the components of the records in front are. -/
theorem reaches_anchor (h : InOrder parent records) {i : Nat} {r : CompositionRecord π}
    (hr : records[i]? = some r)
    (hearlier : ∀ j < i, ∀ e, records[j]? = some e →
      (ofRecords records).Reaches (parent.getD anonymousRoot) e.child) :
    (ofRecords records).Reaches (parent.getD anonymousRoot) (anchor r) := by
  have hparent : r.parent = parent := h.parent r (List.mem_of_getElem? hr)
  rw [anchor, hparent]
  cases hmarkup : r.markupParent with
  | none => exact Relation.ReflTransGen.refl
  | some p =>
    obtain ⟨j, hj, e, he, rfl⟩ := h.earlier i r p hr hmarkup
    exact hearlier j hj e he

/-- The components of the records are reached one after the other. -/
theorem reaches_child (h : InOrder parent records) (i : Nat) (r : CompositionRecord π)
    (hr : records[i]? = some r) :
    (ofRecords records).Reaches (parent.getD anonymousRoot) r.child := by
  induction i using Nat.strong_induction_on generalizing r with
  | _ i ih =>
    have hanchor := reaches_anchor h hr ih
    exact hanchor.tail (edge_ofRecords (List.mem_of_getElem? hr))

/-- **Records in order make a connected tree.** -/
theorem connected_of_inOrder (h : InOrder parent records) :
    (ofRecords records).Connected (parent.getD anonymousRoot) := by
  constructor
  · intro name children hmem
    obtain ⟨⟨r, hr, rfl⟩, -⟩ := mem_edges_ofRecords hmem
    obtain ⟨i, hi⟩ := List.mem_iff_getElem?.mp hr
    exact reaches_anchor h hi fun j _ e he => reaches_child h j e he
  · intro name children hmem child hchild
    obtain ⟨r, hr, -, rfl⟩ := ((mem_edges_ofRecords hmem).2 child).mp hchild
    obtain ⟨i, hi⟩ := List.mem_iff_getElem?.mp hr
    exact reaches_child h i r hi

end CompositionTree

/-! ### The records of a module -/

namespace Composition

/-- The uses of components in a module, with what is around them. -/
def usesIn (m : Module) : List Placed := m.placed.filter fun x => (component? x.node).isSome

/-- **A record describes a use of a component**: it tells the component, the innermost component
around, and the place of the opening tag. -/
structure Describes {π : Type} (locate : Place → π) (x : Placed) (r : CompositionRecord π) :
    Prop where
  /-- The component. -/
  child : component? x.node = some r.child
  /-- The innermost component around. -/
  around : r.markupParent = x.around.findSome? component?
  /-- The place. -/
  location : ∃ o, x.node.opening? = some o ∧ r.location = locate o.place

/-- **The nearest use of a component** around something. -/
def IsNearest (y x : Placed) : Prop :=
  (component? y.node).isSome ∧
    ∃ inner, x.around = inner ++ y.node :: y.around ∧ ∀ n ∈ inner, component? n = none

theorem contextAt_survey (index : FunctionIndex) (parent : Option String) (around : List Node) :
    (survey index parent).contextAt none around = some (around.findSome? component?) := by
  induction around with
  | nil => rfl
  | cons n around ih =>
    rw [Survey.contextAt, ih, List.findSome?_cons]
    cases hname : component? n <;> simp [survey, hname]

/-- There is one record for each use of a component, in order. -/
theorem describes_analyzeComposition {π : Type} (m : Module) (locate : Place → π) :
    List.Forall₂ (Describes locate) (usesIn m) ((analyzeComposition m).map (·.map locate)) := by
  rw [analyzeComposition, Survey.runAll_placed fun _ _ _ => rfl, usesIn]
  -- a use and its record are found at the same node, with the same nodes around it
  induction m.placed with
  | nil => exact List.Forall₂.nil
  | cons x xs ih =>
    rw [List.flatMap_cons, List.map_append, Survey.noteAt, contextAt_survey]
    change List.Forall₂ _ _ ((note _ _ _ x.node).map _ ++ _)
    rw [note]
    cases hname : component? x.node with
    | none =>
      rw [List.filter_cons_of_neg (by simp [hname])]
      exact ih
    | some name =>
      obtain ⟨tag, htag, -⟩ := Option.map_eq_some_iff.mp hname
      obtain ⟨o, ho⟩ := opening?_of_tag? (Option.filter_eq_some_iff.mp htag).1
      rw [List.filter_cons_of_pos (by simp [hname]), ho]
      exact List.Forall₂.cons ⟨hname, rfl, o, ho, rfl⟩ ih

theorem parent_of_mem_analyzeComposition {m : Module} {r : CompositionRecord Place}
    (h : r ∈ analyzeComposition m) : r.parent = m.component?.bind (·.name) := by
  rw [analyzeComposition, Survey.runAll_placed fun _ _ _ => rfl] at h
  obtain ⟨x, -, hr⟩ := List.mem_flatMap.mp h
  rw [Survey.noteAt, contextAt_survey] at hr
  change r ∈ note _ _ _ x.node at hr
  unfold note at hr
  split at hr
  · rw [List.mem_singleton.mp hr]
  · cases hr

/-- A use of a component around another one stands in front of it. -/
theorem usesIn_earlier {m : Module} {i : Nat} {x : Placed} (hx : (usesIn m)[i]? = some x)
    {y : Placed} (hy : IsNearest y x) : ∃ j < i, (usesIn m)[j]? = some y := by
  obtain ⟨hi, hget⟩ := List.getElem?_eq_some_iff.mp hx
  have hsplit : usesIn m = (usesIn m).take i ++ x :: (usesIn m).drop (i + 1) := by
    rw [← hget, ← List.drop_eq_getElem_cons hi, List.take_append_drop]
  -- The same cut in the list of all nodes.
  obtain ⟨front, back, hplaced, hfront, hback⟩ := List.filter_eq_append_iff.mp hsplit
  obtain ⟨passed, back', rfl, hpassed, -, -⟩ := List.filter_eq_cons_iff.mp hback
  obtain ⟨hcomponent, inner, haround, -⟩ := hy
  rw [← List.append_assoc] at hplaced
  have hsuffix : y.node :: y.around <:+ x.around := ⟨inner, haround.symm⟩
  have hfrontmem : y ∈ front :=
    (List.mem_append.mp (Module.placed_earlier hplaced hsuffix)).resolve_right fun hmem =>
      hpassed y hmem hcomponent
  have htake : y ∈ (usesIn m).take i := hfront ▸ List.mem_filter.mpr ⟨hfrontmem, hcomponent⟩
  obtain ⟨j, hj, hyj⟩ := List.mem_take_iff_getElem.mp htake
  have hlength := Nat.lt_min.mp hj
  exact ⟨j, hlength.1, List.getElem?_eq_some_iff.mpr ⟨hlength.2, hyj⟩⟩

/-- What a record says to be around it is the nearest use of a component. -/
theorem exists_nearest {x : Placed} {p : String} (h : x.around.findSome? component? = some p) :
    ∃ y, IsNearest y x ∧ component? y.node = some p := by
  obtain ⟨inner, n, outer, haround, hname, hinner⟩ := List.findSome?_eq_some_iff.mp h
  exact ⟨⟨n, outer⟩, ⟨Option.isSome_of_eq_some hname, inner, haround, hinner⟩, hname⟩

/-- **A composition that is in order and connected.** -/
structure Composed {π : Type} (m : Module) (locate : Place → π)
    (composition : List (CompositionRecord π)) : Prop where
  /-- There is one record for each use of a component, in order. -/
  records : List.Forall₂ (Describes locate) (usesIn m) composition
  /-- What a record says to be around it is the component of an earlier record, that of the nearest
  use of a component around. -/
  nearest : ∀ (i : Nat) (r : CompositionRecord π) (p : String), composition[i]? = some r →
    r.markupParent = some p →
      ∃ j < i, ∃ (e : CompositionRecord π) (x y : Placed),
        composition[j]? = some e ∧ e.child = p
          ∧ (usesIn m)[i]? = some x ∧ (usesIn m)[j]? = some y ∧ IsNearest y x
  /-- All names in the tree are reached from the component of the module. -/
  connected : (CompositionTree.ofRecords composition).Connected
    ((m.component?.bind (·.name)).getD CompositionTree.anonymousRoot)

theorem exists_getElem?_of_forall₂ {α β : Type} {R : α → β → Prop} {xs : List α} {ys : List β}
    (h : List.Forall₂ R xs ys) {i : Nat} {x : α} (hx : xs[i]? = some x) :
    ∃ y, ys[i]? = some y ∧ R x y := by
  obtain ⟨hi, rfl⟩ := List.getElem?_eq_some_iff.mp hx
  have hi' : i < ys.length := h.length_eq ▸ hi
  exact ⟨ys[i], List.getElem?_eq_getElem hi', h.get hi hi'⟩

/-- What a record says to be around it is the component of an earlier record: that of the nearest
use of a component around the use that it describes. -/
theorem nearest_analyzeState {m : Module} {locate : Locator} {i : Nat}
    {r : CompositionRecord Location} {p : String}
    (hr : (analyzeState m locate).composition[i]? = some r) (hp : r.markupParent = some p) :
    ∃ j < i, ∃ (e : CompositionRecord Location) (x y : Placed),
      (analyzeState m locate).composition[j]? = some e ∧ e.child = p
        ∧ (usesIn m)[i]? = some x ∧ (usesIn m)[j]? = some y ∧ IsNearest y x := by
  have hrecords : List.Forall₂ (Describes locate) (usesIn m) (analyzeState m locate).composition :=
    describes_analyzeComposition m locate
  obtain ⟨x, hx, hdescribes⟩ := exists_getElem?_of_forall₂ hrecords.flip hr
  obtain ⟨y, hy, hname⟩ := exists_nearest (hdescribes.around.symm.trans hp)
  obtain ⟨j, hj, hyj⟩ := usesIn_earlier hx hy
  obtain ⟨e, he, hdescribes'⟩ := exists_getElem?_of_forall₂ hrecords hyj
  have hchild : e.child = p := Option.some.inj (hdescribes'.child.symm.trans hname)
  exact ⟨j, hj, e, x, y, he, hchild, hx, hyj, hy⟩

/-- The records of a module are in order. -/
theorem inOrder_analyzeState (m : Module) (locate : Locator) :
    CompositionTree.InOrder (m.component?.bind (·.name)) (analyzeState m locate).composition where
  parent r hr := by
    obtain ⟨r', hr', rfl⟩ := List.mem_map.mp hr
    exact parent_of_mem_analyzeComposition hr'
  earlier i r p hr hp := by
    obtain ⟨j, hj, e, -, -, he, hchild, -⟩ := nearest_analyzeState hr hp
    exact ⟨j, hj, e, he, hchild⟩

/-- **Every composition is in order and connected.** -/
theorem composed_analyzeState (m : Module) (locate : Locator) :
    Composed m locate (analyzeState m locate).composition where
  records := describes_analyzeComposition m locate
  nearest _ _ _ hr hp := nearest_analyzeState hr hp
  connected := CompositionTree.connected_of_inOrder (inOrder_analyzeState m locate)

end Composition

/-! ## Groups of records -/

namespace CompositionTree

variable {π : Type}

/-! ### What a record hangs off -/

/-- **What a record hangs off**: the component around, else the component of the file, else the name
that stands for one without a name. -/
inductive HangsOff (r : CompositionRecord π) : String → Prop
  /-- There is a component around. -/
  | around {name : String} (haround : r.markupParent = some name) : HangsOff r name
  /-- There is none around, but the component of the file has a name. -/
  | component {name : String} (haround : r.markupParent = none) (hparent : r.parent = some name) :
    HangsOff r name
  /-- There is neither. -/
  | root (haround : r.markupParent = none) (hparent : r.parent = none) : HangsOff r "<root>"

theorem hangsOff_iff {r : CompositionRecord π} {name : String} :
    HangsOff r name ↔ anchor r = name := by
  constructor
  · rintro (haround | ⟨haround, hparent⟩ | ⟨haround, hparent⟩)
    · rw [anchor, haround]
      rfl
    · rw [anchor, haround, hparent]
      rfl
    · rw [anchor, haround, hparent]
      rfl
  · rintro rfl
    -- the markup around comes before the component, the component before the root
    rw [anchor]
    cases haround : r.markupParent with
    | some name => exact .around haround
    | none =>
      cases hparent : r.parent with
      | some name => exact .component haround hparent
      | none => exact .root haround hparent

instance (r : CompositionRecord π) (name : String) : Decidable (HangsOff r name) :=
  decidable_of_iff _ hangsOff_iff.symm

/-- The names of the components that hang off something, in the order of their records. -/
def childrenOff (records : List (CompositionRecord π)) (name : String) : List String :=
  (records.filter fun r => HangsOff r name).map (·.child)

theorem childrenOff_append (records more : List (CompositionRecord π)) (name : String) :
    childrenOff (records ++ more) name = childrenOff records name ++ childrenOff more name := by
  rw [childrenOff, List.filter_append, List.map_append]
  rfl

/-! ### Groups -/

/-- **A tree that groups records by what they hang off.** -/
structure Groups (records : List (CompositionRecord π)) (t : CompositionTree) : Prop where
  /-- The root is the first component of a file that a record tells. -/
  root : t.root = (records.filterMap (·.parent)).head?
  /-- The entries are in the order of their names, and so there is one for each name. -/
  sorted : t.edges.Pairwise fun e e' => e.1 < e'.1
  /-- There is an entry for everything that some record hangs off. -/
  keys : ∀ name, name ∈ t.edges.map Prod.fst ↔ ∃ r ∈ records, HangsOff r name
  /-- The children are those of the records there, each where it comes first. -/
  children : ∀ name children, (name, children) ∈ t.edges →
    Text.ListsFirsts (childrenOff records name) children

/-- **A tree that has grown**: it has further entries, and further children at the ends. -/
structure Extends (t t' : CompositionTree) : Prop where
  /-- A root stays. -/
  root : ∀ name, t.root = some name → t'.root = some name
  /-- An entry stays, and its children stay in front. -/
  edges : ∀ name children, (name, children) ∈ t.edges →
    ∃ children', (name, children') ∈ t'.edges ∧ children <+: children'

/-- The entries of a tree, without the order of the records. -/
theorem edges_eq_childrenOff (records : List (CompositionRecord π)) :
    (ofRecords records).edges = Text.tabulate (Text.sortedSet (records.map anchor)) fun name =>
      Text.firstOccurrences (childrenOff records name) := by
  rw [edges_ofRecords]
  refine Text.tabulate_congr fun name _ => ?_
  simp only [childrenOff, hangsOff_iff]

theorem mem_edges_iff {records : List (CompositionRecord π)} {name : String}
    {children : List String} :
    (name, children) ∈ (ofRecords records).edges ↔
      (∃ r ∈ records, HangsOff r name) ∧
        children = Text.firstOccurrences (childrenOff records name) := by
  simp only [edges_eq_childrenOff, Text.tabulate, List.mem_map, Text.mem_sortedSet, hangsOff_iff,
    Prod.mk.injEq]
  constructor
  · rintro ⟨_, ⟨r, hr, rfl⟩, rfl, rfl⟩
    exact ⟨⟨r, hr, rfl⟩, rfl⟩
  · rintro ⟨⟨r, hr, rfl⟩, rfl⟩
    exact ⟨_, ⟨r, hr, rfl⟩, rfl, rfl⟩

theorem map_fst_edges (records : List (CompositionRecord π)) :
    (ofRecords records).edges.map Prod.fst = Text.sortedSet (records.map anchor) := by
  rw [edges_ofRecords, Text.map_fst_tabulate]

theorem root_ofRecords (records : List (CompositionRecord π)) :
    (ofRecords records).root = (records.filterMap (·.parent)).head? :=
  List.head?_filterMap.symm

theorem groups_self (records : List (CompositionRecord π)) :
    Groups records (ofRecords records) where
  root := root_ofRecords records
  sorted := by
    have hkeys := Text.sortedSet_sorted (records.map anchor)
    rw [← map_fst_edges] at hkeys
    exact List.pairwise_map.mp hkeys
  keys name := by
    simp only [map_fst_edges, Text.mem_sortedSet, List.mem_map, hangsOff_iff]
  children name children hmem := by
    rw [(mem_edges_iff.mp hmem).2]
    exact Text.listsFirsts_firstOccurrences _

/-- Records that are all there twice. -/
theorem ofRecords_append_self (records : List (CompositionRecord π)) :
    ofRecords (records ++ records) = ofRecords records := by
  have hroot : (ofRecords (records ++ records)).root = (ofRecords records).root := by
    rw [root_ofRecords, root_ofRecords, List.filterMap_append, List.head?_append, Option.or_self]
  have hedges : (ofRecords (records ++ records)).edges = (ofRecords records).edges := by
    rw [edges_eq_childrenOff, edges_eq_childrenOff, List.map_append, Text.sortedSet_append_self]
    refine Text.tabulate_congr fun name _ => ?_
    rw [childrenOff_append, Text.firstOccurrences_append_self]
  have hfields : ∀ tree : CompositionTree, tree = ⟨tree.root, tree.edges⟩ := fun _ => rfl
  rw [hfields (ofRecords (records ++ records)), hroot, hedges]

theorem extends_append (records more : List (CompositionRecord π)) :
    Extends (ofRecords records) (ofRecords (records ++ more)) where
  root name hname := by
    rw [root_ofRecords] at hname
    rw [root_ofRecords, List.filterMap_append, List.head?_append, hname, Option.some_or]
  edges name children hmem := by
    obtain ⟨⟨r, hr, hname⟩, rfl⟩ := mem_edges_iff.mp hmem
    refine ⟨_, mem_edges_iff.mpr ⟨⟨r, List.mem_append_left more hr, hname⟩, rfl⟩, ?_⟩
    rw [childrenOff_append]
    exact Text.firstOccurrences_prefix _ _

/-- **The tree of some records groups them**, in whatever order they come. The same records once
more change nothing, and further records only extend the tree. -/
theorem groups_ofRecords (records more : List (CompositionRecord π)) :
    Groups records (ofRecords records) ∧
      ofRecords (records ++ records) = ofRecords records ∧
        Extends (ofRecords records) (ofRecords (records ++ more)) :=
  ⟨groups_self records, ofRecords_append_self records, extends_append records more⟩

end CompositionTree

end JsxWidgets
