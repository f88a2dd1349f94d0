import JsxWidgets.Syntax.Survey

/-!
# Nodes below a node

`Node.nodes` lists a node and everything below it. A statement about all nodes is proved by
`Node.induction_below`: it may be used for every node below, however deep, so that a function may go
several levels down in one step, as it does for the attributes and the children of an element.
-/

namespace JsxWidgets.Syntax

namespace Node

@[simp] theorem nodes_mk (form : Form) (place : Place) (parts : List Node) :
    (Node.mk form place parts).nodes = ⟨form, place, parts⟩ :: nodesOf parts := by
  rw [nodes]

theorem nodesOf_eq_flatMap (ns : List Node) : nodesOf ns = ns.flatMap nodes := by
  induction ns with
  | nil => rw [nodesOf, List.flatMap_nil]
  | cons n ns ih => rw [nodesOf, ih, List.flatMap_cons]

theorem nodes_eq (n : Node) : n.nodes = n :: nodesOf n.parts := by
  obtain ⟨form, place, parts⟩ := n
  rw [nodes_mk]

theorem self_mem_nodes (n : Node) : n ∈ n.nodes := by
  rw [nodes_eq]
  exact List.mem_cons_self

theorem mem_nodesOf {m : Node} {ns : List Node} : m ∈ nodesOf ns ↔ ∃ n ∈ ns, m ∈ n.nodes := by
  rw [nodesOf_eq_flatMap, List.mem_flatMap]

theorem mem_nodesOf_of_mem {n : Node} {ns : List Node} (h : n ∈ ns) : n ∈ nodesOf ns :=
  mem_nodesOf.mpr ⟨n, h, n.self_mem_nodes⟩

theorem first_mem_nodesOf (n : Node) (ns : List Node) : n ∈ nodesOf (n :: ns) :=
  mem_nodesOf_of_mem List.mem_cons_self

theorem second_mem_nodesOf (m n : Node) (ns : List Node) : n ∈ nodesOf (m :: n :: ns) :=
  mem_nodesOf_of_mem (List.mem_cons_of_mem m List.mem_cons_self)

theorem mem_nodes_iff {m n : Node} : m ∈ n.nodes ↔ m = n ∨ m ∈ nodesOf n.parts := by
  rw [nodes_eq, List.mem_cons]

theorem mem_nodes_of_below {m n : Node} (h : m ∈ nodesOf n.parts) : m ∈ n.nodes :=
  mem_nodes_iff.mpr (Or.inr h)

theorem first_mem_nodes (form : Form) (place : Place) (n : Node) (ns : List Node) :
    n ∈ (Node.mk form place (n :: ns)).nodes :=
  mem_nodes_of_below (first_mem_nodesOf n ns)

theorem second_mem_nodes (form : Form) (place : Place) (m n : Node) (ns : List Node) :
    n ∈ (Node.mk form place (m :: n :: ns)).nodes :=
  mem_nodes_of_below (second_mem_nodesOf m n ns)

/-- A node below another one is smaller. -/
theorem sizeOf_lt_of_mem_nodesOf {m n : Node} (h : m ∈ nodesOf n.parts) : sizeOf m < sizeOf n := by
  obtain ⟨part, hpart, hm⟩ := mem_nodesOf.mp h
  have hsize : sizeOf part < sizeOf n := by
    have := List.sizeOf_lt_of_mem hpart
    obtain ⟨form, place, parts⟩ := n
    simp only [Node.mk.sizeOf_spec] at this ⊢
    omega
  -- The node is a part itself, or it lies below one.
  rcases mem_nodes_iff.mp hm with rfl | hbelow
  · exact hsize
  · exact Nat.lt_trans (sizeOf_lt_of_mem_nodesOf hbelow) hsize
termination_by sizeOf n

/-- **Induction on what lies below.** -/
theorem induction_below {P : Node → Prop}
    (step : ∀ n : Node, (∀ m ∈ nodesOf n.parts, P m) → P n) (n : Node) : P n :=
  step n fun m hm =>
    have := sizeOf_lt_of_mem_nodesOf hm
    induction_below step m
termination_by sizeOf n

/-- What lies below a node below lies below. -/
theorem nodes_subset {m n : Node} (h : m ∈ n.nodes) : m.nodes ⊆ n.nodes := by
  induction n using induction_below with
  | step n ih =>
    rcases mem_nodes_iff.mp h with rfl | hbelow
    · exact List.Subset.refl _
    · -- Within the part in which `m` lies, the claim is known.
      obtain ⟨part, hpart, hm⟩ := mem_nodesOf.mp hbelow
      have hsub := ih part (mem_nodesOf_of_mem hpart) hm
      intro k hk
      exact mem_nodes_of_below (mem_nodesOf.mpr ⟨part, hpart, hsub hk⟩)

theorem nodes_subset_of_mem_nodesOf {m n : Node} (h : m ∈ nodesOf n.parts) : m.nodes ⊆ n.nodes :=
  nodes_subset (mem_nodes_of_below h)

/-- What is at a node below or lies below it lies below. -/
theorem mem_nodesOf_of_mem_nodes {k m : Node} {ns : List Node} (hm : m ∈ nodesOf ns)
    (hk : k ∈ m.nodes) : k ∈ nodesOf ns := by
  obtain ⟨n, hn, hmem⟩ := mem_nodesOf.mp hm
  exact mem_nodesOf.mpr ⟨n, hn, nodes_subset hmem hk⟩

/-- What lies below a node below lies below, too. -/
theorem mem_nodesOf_trans {k m n : Node} (hm : m ∈ nodesOf n.parts) (hk : k ∈ nodesOf m.parts) :
    k ∈ nodesOf n.parts :=
  mem_nodesOf_of_mem_nodes hm (mem_nodes_of_below hk)

/-- What stands in parentheses stands in no further ones. -/
theorem unwrap_unwrap (e : Node) : e.unwrap.unwrap = e.unwrap := by
  fun_induction Node.unwrap e with
  | case1 _ _ ih | case2 _ _ _ ih | case3 _ _ ih | case4 _ _ _ ih | case5 _ _ ih => exact ih
  | case6 n =>
    rw [Node.unwrap]
    all_goals assumption

/-- What stands in parentheses lies below them. -/
theorem unwrap_mem_nodes (e : Node) : e.unwrap ∈ e.nodes := by
  fun_induction Node.unwrap e with
  | case6 n => exact n.self_mem_nodes
  | case1 place e ih | case2 place e type ih | case3 place e ih | case4 place e type ih
  | case5 place e ih =>
    exact mem_nodes_of_below (mem_nodesOf.mpr ⟨e, List.mem_cons_self, ih⟩)

end Node

end JsxWidgets.Syntax
