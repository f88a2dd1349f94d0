import JsxWidgets.Widget.Basic

/-!
# The widgets of a tree

`Widget.nodes` lists a widget and all widgets that hang below it, whether as children or inside the
values of its arguments.
-/

namespace JsxWidgets

mutual

/-- A widget and the widgets below it, every widget in front of what hangs below it. -/
def Widget.nodes : Widget → List Widget
  | .mk tag properties comments children source =>
    .mk tag properties comments children source
      :: (Property.nodesOf properties ++ children.nodes)

/-- The widgets in the arguments of a widget. -/
def Property.nodesOf : List Property → List Widget
  | [] => []
  | .mk _ value _ :: rest => value.nodes ++ Property.nodesOf rest

/-- The widgets in a value. -/
def Value.nodes : Value → List Widget
  | .widget w => w.nodes
  | .list values => Value.nodesOf values
  | .raw _ => []
  | .text _ => []
  | .flag _ => []

/-- The widgets in several values. -/
def Value.nodesOf : List Value → List Widget
  | [] => []
  | v :: vs => v.nodes ++ Value.nodesOf vs

/-- The widgets among children. -/
def Children.nodes : Children → List Widget
  | .none => []
  | .single _ w => w.nodes
  | .many _ ws => Widget.nodesOf ws

/-- The widgets in several trees. -/
def Widget.nodesOf : List Widget → List Widget
  | [] => []
  | w :: ws => w.nodes ++ Widget.nodesOf ws

end

namespace Widget

theorem nodesOf_eq_flatMap (ws : List Widget) : nodesOf ws = ws.flatMap nodes := by
  induction ws with
  | nil => rw [nodesOf, List.flatMap_nil]
  | cons w ws ih => rw [nodesOf, ih, List.flatMap_cons]

theorem propertyNodes_eq_flatMap (ps : List Property) :
    Property.nodesOf ps = ps.flatMap fun p => p.value.nodes := by
  induction ps with
  | nil => rw [Property.nodesOf, List.flatMap_nil]
  | cons p ps ih =>
    obtain ⟨key, value, isComment⟩ := p
    rw [Property.nodesOf, ih, List.flatMap_cons, Property.value]

/-- A widget of a tree is its root, or hangs below an argument, or below the children. -/
theorem mem_nodes_iff {x w : Widget} :
    x ∈ w.nodes ↔ x = w ∨ (∃ p ∈ w.properties, x ∈ p.value.nodes) ∨ x ∈ w.children.nodes := by
  obtain ⟨tag, properties, comments, children, source⟩ := w
  rw [nodes, List.mem_cons, List.mem_append, propertyNodes_eq_flatMap, List.mem_flatMap]
  rfl

theorem self_mem_nodes (w : Widget) : w ∈ w.nodes := mem_nodes_iff.mpr (Or.inl rfl)

theorem mem_nodesOf {x : Widget} {ws : List Widget} : x ∈ nodesOf ws ↔ ∃ w ∈ ws, x ∈ w.nodes := by
  rw [nodesOf_eq_flatMap, List.mem_flatMap]

/-- A widget is in several values if it is in one of them. -/
theorem mem_valueNodesOf {x : Widget} {vs : List Value} :
    x ∈ Value.nodesOf vs ↔ ∃ v ∈ vs, x ∈ v.nodes := by
  induction vs with
  | nil => simp [Value.nodesOf]
  | cons v vs ih => simp [Value.nodesOf, ih]

/-- A widget without arguments and children is a tree of one widget. -/
theorem nodes_of_leaf {w : Widget} (hp : w.properties = []) (hc : w.children = .none) :
    w.nodes = [w] := by
  obtain ⟨tag, properties, comments, children, source⟩ := w
  obtain rfl : properties = [] := hp
  obtain rfl : children = .none := hc
  rw [nodes, Property.nodesOf, Children.nodes, List.nil_append]

@[simp] theorem nodes_empty : Widget.empty.nodes = [.empty] := nodes_of_leaf rfl rfl

@[simp] theorem nodes_placeholder (comment : String) :
    (placeholder comment).nodes = [placeholder comment] := nodes_of_leaf rfl rfl

@[simp] theorem nodes_ofText (text : String) : (ofText text).nodes = [ofText text] := by
  simp [ofText, nodes, Property.nodesOf, Property.positional, Value.nodes, Children.nodes]

theorem nodes_column (ws : List Widget) : (column ws).nodes = column ws :: nodesOf ws := by
  rw [column, nodes, Property.nodesOf, List.nil_append, Children.nodes]

end Widget

end JsxWidgets
