import JsxWidgets.Component
import JsxWidgets.Proofs.Syntax.Nodes

/-!
# Where the markup of a component stands

The component of a module is a function or a class, possibly inside calls that wrap it, and what it
renders is found in its statements. All these are looked for at different depths below an item of
the module, so what is found is a node of the module (`renderedMarkup?_mem`).
-/

namespace JsxWidgets

open Syntax Expression

/-! ### What functions return -/

/-- The markup that a value is stands at it or below it. -/
theorem markup_mem {e x : Node} (h : (if isMarkup e then some e.unwrap else none) = some x) :
    x ∈ e.nodes := by
  split at h
  · cases h
    exact e.unwrap_mem_nodes
  · cases h

theorem firstReturnedMarkup?_mem {ns pool : List Node} {x : Node}
    (hns : ∀ n ∈ ns, returnedMarkup? n = some x → x ∈ Node.nodesOf pool)
    (h : firstReturnedMarkup? ns = some x) : x ∈ Node.nodesOf pool := by
  induction ns with
  | nil =>
    rw [firstReturnedMarkup?] at h
    cases h
  | cons n ns ih =>
    rw [firstReturnedMarkup?, Option.or_eq_some_iff] at h
    rcases h with h | ⟨-, h⟩
    · exact hns n List.mem_cons_self h
    · exact ih (fun m hm => hns m (List.mem_cons_of_mem n hm)) h

/-- **The markup that a statement returns** stands below it. -/
theorem returnedMarkup?_mem {n x : Node} (h : returnedMarkup? n = some x) :
    x ∈ Node.nodesOf n.parts := by
  induction n using Node.induction_below with
  | step n ih =>
    obtain ⟨form, place, parts⟩ := n
    have hone : ∀ m ∈ parts, returnedMarkup? m = some x → x ∈ Node.nodesOf parts :=
      fun m hm hx => Node.mem_nodesOf_trans (n := ⟨form, place, parts⟩)
        (Node.mem_nodesOf_of_mem hm) (ih m (Node.mem_nodesOf_of_mem hm) hx)
    -- Statements stand beside each other, or in a body that is a part of its own.
    have hseveral : ∀ ns, ns ⊆ parts → firstReturnedMarkup? ns = some x →
        x ∈ Node.nodesOf parts :=
      fun ns hsub => firstReturnedMarkup?_mem fun m hm => hone m (hsub hm)
    have hbody : ∀ body ∈ parts, firstReturnedMarkup? body.parts = some x →
        x ∈ Node.nodesOf parts := by
      intro body hmem
      refine firstReturnedMarkup?_mem fun m hm hx => ?_
      have hinside : m ∈ body.nodes :=
        Node.mem_nodes_of_below (Node.mem_nodesOf_of_mem hm)
      have hbelow : m ∈ Node.nodesOf parts :=
        Node.mem_nodesOf_of_mem_nodes (Node.mem_nodesOf_of_mem hmem) hinside
      exact Node.mem_nodesOf_trans (n := ⟨form, place, parts⟩) hbelow (ih m hbelow hx)
    unfold returnedMarkup? at h
    split at h
    · -- the value that a function gives back
      exact Node.mem_nodesOf_of_mem_nodes (Node.first_mem_nodesOf ..)
        (markup_mem h)
    · exact hseveral _ (List.Subset.refl _) h
    · -- both branches of a choice
      rcases Option.or_eq_some_iff.mp h with h | ⟨-, h⟩
      · exact hone _ (by simp) h
      · exact hone _ (by simp) h
    case h_4 | h_5 => exact hseveral _ (List.subset_cons_self _ _) h
    case h_6 code _ _ =>
      rcases Option.or_eq_some_iff.mp h with h | ⟨-, h⟩
      · exact hbody _ List.mem_cons_self h
      · exact hone _ (by simp) h
    case h_7 => exact hbody _ (List.mem_cons_of_mem _ List.mem_cons_self) h
    case h_8 | h_9 | h_10 | h_11 | h_12 =>
      -- the statement that is repeated or has a label
      exact hone _ (by simp) h
    case h_13 => cases h

theorem bodyMarkup?_mem {body x : Node} (h : bodyMarkup? body = some x) :
    x ∈ Node.nodesOf body.parts := by
  unfold bodyMarkup? at h
  split at h
  · exact firstReturnedMarkup?_mem (fun s hs hx =>
      Node.mem_nodesOf_trans (n := ⟨.body, _, _⟩) (Node.mem_nodesOf_of_mem hs)
        (returnedMarkup?_mem hx)) h
  · cases h

theorem functionMarkup?_mem {fn x : Node} (h : functionMarkup? fn = some x) : x ∈ fn.nodes := by
  unfold functionMarkup? at h
  split at h
  · refine Node.mem_nodes_of_below ?_
    exact Node.mem_nodesOf_trans (n := ⟨.fn, _, _⟩)
      (Node.second_mem_nodesOf ..) (bodyMarkup?_mem h)
  · cases h

theorem arrowMarkup?_mem {fn x : Node} (h : arrowMarkup? fn = some x) : x ∈ fn.nodes := by
  unfold arrowMarkup? at h
  split at h
  next place params code types result =>
    have hcode : code ∈ Node.nodesOf [params, code, types, result] :=
      Node.second_mem_nodesOf ..
    refine Node.mem_nodes_of_below ?_
    split at h
    · exact Node.mem_nodesOf_trans (n := ⟨.arrow, place, _⟩) hcode (bodyMarkup?_mem h)
    · exact Node.mem_nodesOf_of_mem_nodes hcode (markup_mem h)
  next => cases h

/-- The method that renders a class stands below it. -/
theorem renderMethod?_mem {cls fn : Node} (h : renderMethod? cls = some fn) : fn ∈ cls.nodes := by
  obtain ⟨member, hmember, hfn⟩ := List.exists_of_findSome?_eq_some h
  have hbelow : member ∈ Node.nodesOf cls.parts := by
    unfold classMembers at hmember
    split at hmember
    · exact Node.mem_nodesOf_of_mem_nodes (Node.first_mem_nodesOf ..)
        (Node.mem_nodes_of_below (Node.mem_nodesOf_of_mem hmember))
    · cases hmember
  refine Node.mem_nodes_of_below (Node.mem_nodesOf_trans hbelow ?_)
  split at hfn
  · cases hfn
    exact Node.second_mem_nodesOf ..
  · cases hfn

/-! ### Candidates -/

/-- The function or the class that a component is. -/
def Component.root (c : Component) : Node :=
  match c.body with
  | .function fn => fn
  | .arrow fn => fn
  | .classBody cls => cls

theorem Component.renderedMarkup?_mem {c : Component} {x : Node} (h : c.renderedMarkup? = some x) :
    x ∈ c.root.nodes := by
  obtain ⟨name, kind, fn | fn | cls⟩ := c
  · exact functionMarkup?_mem h
  · exact arrowMarkup?_mem h
  · obtain ⟨fn, hfn, hx⟩ := Option.bind_eq_some_iff.mp h
    exact Node.nodes_subset (renderMethod?_mem hfn) (functionMarkup?_mem hx)

/-- The function that a value is stands at the value, or below the calls that wrap it. -/
theorem wrappedFunction?_mem {e fn : Node} (h : wrappedFunction? e = some fn) : fn ∈ e.nodes := by
  induction e using Node.induction_below with
  | step e ih =>
    obtain ⟨form, place, parts⟩ := e
    have hbelow : ∀ m ∈ Node.nodesOf parts, wrappedFunction? m = some fn →
        fn ∈ (Node.mk form place parts).nodes := fun m hm hfn =>
      Node.mem_nodes_of_below (Node.mem_nodesOf_of_mem_nodes hm (ih m hm hfn))
    unfold wrappedFunction? at h
    split at h
    case h_6 | h_7 =>
      cases h
      exact Node.self_mem_nodes _
    case h_8 =>
      split at h
      · -- The first argument of the call stands three levels below it.
        refine hbelow _ ?_ h
        simp [Node.nodesOf, Node.self_mem_nodes]
      · cases h
    case h_9 => cases h
    all_goals exact hbelow _ (Node.first_mem_nodesOf ..) h

theorem functionCandidate?_root {name : Option String} {fn : Node} {c : Component}
    (h : functionCandidate? name fn = some c) : c.root = fn := by
  obtain ⟨-, -, rfl⟩ := Option.map_eq_some_iff.mp h
  rfl

theorem classCandidate?_root {name : Option String} {cls : Node} {c : Component}
    (h : classCandidate? name cls = some c) : c.root = cls := by
  unfold classCandidate? at h
  split at h <;> cases h
  rfl

theorem declaratorCandidate?_root {d : Node} {c : Component} (h : declaratorCandidate? d = some c) :
    c.root ∈ d.nodes := by
  unfold declaratorCandidate? at h
  split at h
  · refine Node.nodes_subset (Node.second_mem_nodes ..) ?_
    split at h
    next hfn =>
      obtain ⟨-, -, rfl⟩ := Option.map_eq_some_iff.mp h
      exact wrappedFunction?_mem hfn
    next hfn =>
      rw [functionCandidate?_root h]
      exact Node.nodes_subset (wrappedFunction?_mem hfn) (Node.second_mem_nodes ..)
    next => cases h
  · cases h

theorem declaration?_mem {item d : Node} (h : declaration? item = some d) : d ∈ item.nodes := by
  unfold declaration? at h
  split at h <;> cases h
  · exact Node.first_mem_nodes ..
  · exact Node.first_mem_nodes ..
  · exact Node.self_mem_nodes _
  · exact Node.self_mem_nodes _

theorem root_mem_of_mem_functionCandidates {item : Node} {c : Component}
    (h : c ∈ functionCandidates item) : c.root ∈ item.nodes := by
  unfold functionCandidates at h
  split at h
  case h_1 hd | h_2 hd =>
    rw [functionCandidate?_root (Option.mem_toList.mp h)]
    exact Node.nodes_subset (declaration?_mem hd) (Node.second_mem_nodes ..)
  case h_3 => cases h

theorem root_mem_of_mem_declaratorCandidates {item : Node} {c : Component}
    (h : c ∈ declaratorCandidates item) : c.root ∈ item.nodes := by
  unfold declaratorCandidates at h
  split at h
  next hd =>
    obtain ⟨d, hmem, hc⟩ := List.mem_filterMap.mp h
    have hbelow := Node.mem_nodesOf_of_mem_nodes (Node.mem_nodesOf_of_mem hmem)
      (declaratorCandidate?_root hc)
    exact Node.nodes_subset (declaration?_mem hd) (Node.mem_nodes_of_below hbelow)
  next => cases h

theorem root_mem_of_mem_classCandidates {item : Node} {c : Component}
    (h : c ∈ classCandidates item) : c.root ∈ item.nodes := by
  unfold classCandidates at h
  split at h
  case h_1 hd | h_2 hd =>
    rw [classCandidate?_root (Option.mem_toList.mp h)]
    exact Node.nodes_subset (declaration?_mem hd) (Node.second_mem_nodes ..)
  case h_3 => cases h

/-- **The component of a module** is a node of the module. -/
theorem root_mem_of_component? {m : Module} {c : Component} (h : m.component? = some c) :
    c.root ∈ m.nodes := by
  have hmem : c ∈ m.candidates := List.mem_of_head? h
  have hitem : ∃ item ∈ m, c.root ∈ item.nodes := by
    rw [Module.candidates, List.mem_append, List.mem_append] at hmem
    rcases hmem with (hmem | hmem) | hmem
    · obtain ⟨item, hitem, hc⟩ := List.mem_flatMap.mp hmem
      exact ⟨item, hitem, root_mem_of_mem_functionCandidates hc⟩
    · obtain ⟨item, hitem, hc⟩ := List.mem_flatMap.mp hmem
      exact ⟨item, hitem, root_mem_of_mem_declaratorCandidates hc⟩
    · obtain ⟨item, hitem, hc⟩ := List.mem_flatMap.mp hmem
      exact ⟨item, hitem, root_mem_of_mem_classCandidates hc⟩
  exact Node.mem_nodesOf.mpr hitem

/-- **The markup of the component of a module** is a node of the module. -/
theorem renderedMarkup?_mem {m : Module} {x : Node}
    (h : m.component?.bind (·.renderedMarkup?) = some x) : x ∈ m.nodes := by
  obtain ⟨c, hc, hx⟩ := Option.bind_eq_some_iff.mp h
  exact Node.mem_nodesOf_of_mem_nodes (root_mem_of_component? hc) (Component.renderedMarkup?_mem hx)

end JsxWidgets
