import JsxWidgets.Proofs.Syntax.Surveys

/-!
# Nodes and what surrounds them

A survey carries a context from the whole into its parts. What the context can tell about a node is
what the nodes around it tell. So a module is listed once with the nodes around each node, from the
inside out (`Module.placed`), and a survey whose way does not depend on the number of a part finds
at each node of this list what it notes in the context that these nodes make
(`Survey.runAll_placed`).

The list is in the order of surveys: what is around a node stands in front of it, with what is
around that in turn (`Module.placed_earlier`).
-/

namespace JsxWidgets.Syntax

/-- A node and the nodes around it, the innermost one first. -/
structure Placed where
  /-- The node. -/
  node : Node
  /-- What is around it. -/
  around : List Node

/-- The survey that notes every node with what is around it. -/
def Survey.placing : Survey (List Node) Placed where
  note around n := [⟨n, around⟩]
  enter around n _ := some (n :: around)

/-- The nodes of a module with what is around them, in order. -/
def Module.placed (m : Module) : List Placed := Survey.placing.runAll [] m

theorem Survey.run_placing (around : List Node) (n : Node) :
    placing.run around n = ⟨n, around⟩ :: placing.runAll (n :: around) n.parts := by
  rw [run_eq, runParts_of_forall_enter fun _ => rfl]
  rfl

/-! ### Contexts -/

namespace Survey

variable {γ ε : Type}

/-- The context in which a survey comes to a node, given what is around, unless it passes over
it. -/
def contextAt (s : Survey γ ε) (c : γ) : List Node → Option γ
  | [] => some c
  | n :: around => (s.contextAt c around).bind fun inner => s.enter inner n 0

/-- What a survey notes at a node, given what is around. -/
def noteAt (s : Survey γ ε) (c : γ) (x : Placed) : List ε :=
  (s.contextAt c x.around).elim [] fun inner => s.note inner x.node

section

variable {s : Survey γ ε} (henter : ∀ c n number, s.enter c n number = s.enter c n 0)
include henter

/-- The parts of a node are entered all or none. -/
theorem runParts_eq_elim (c : γ) (whole : Node) (number : Nat) (parts : List Node) :
    s.runParts c whole number parts
      = (s.enter c whole 0).elim [] fun inner => s.runAll inner parts := by
  cases hinner : s.enter c whole 0 with
  | none =>
    exact runParts_of_forall_skip (fun later _ => (henter c whole later).trans hinner) parts
  | some inner =>
    exact runParts_of_forall_enter (fun later => (henter c whole later).trans hinner) number parts

/-- A tree, in whatever place. -/
theorem run_placed (c : γ) (around : List Node) (n : Node) :
    ((s.contextAt c around).elim [] fun inner => s.run inner n)
      = (placing.run around n).flatMap (s.noteAt c) := by
  induction n using Node.induction_below generalizing around with
  | step n ih =>
    -- The parts are in the context of the node if there is one, and passed over otherwise.
    have hparts : ((s.contextAt c (n :: around)).elim [] fun inner => s.runAll inner n.parts)
        = (placing.runAll (n :: around) n.parts).flatMap (s.noteAt c) := by
      have hpart : ∀ part ∈ n.parts,
          ((s.contextAt c (n :: around)).elim [] fun inner => s.run inner part)
            = (placing.run (n :: around) part).flatMap (s.noteAt c) :=
        fun part hpart => ih part (Node.mem_nodesOf_of_mem hpart) (n :: around)
      rw [runAll, List.flatMap_assoc, ← List.flatMap_congr hpart]
      cases s.contextAt c (n :: around) with
      | none => exact List.flatMap_eq_nil_iff.mpr (fun _ _ => rfl) |>.symm
      | some inner => rfl
    rw [run_placing, List.flatMap_cons, ← hparts, noteAt, contextAt]
    cases s.contextAt c around with
    | none => rfl
    | some outer =>
      change s.run outer n = s.note outer n ++ _
      rw [run_eq, runParts_eq_elim henter]
      rfl

/-- **What a survey finds** is what it notes at each node in the context of its surroundings. -/
theorem runAll_placed (c : γ) (m : Module) :
    s.runAll c m = m.placed.flatMap (s.noteAt c) := by
  rw [Module.placed, runAll, runAll, List.flatMap_assoc]
  exact List.flatMap_congr fun n _ => run_placed henter c [] n

end

theorem contextAt_missed (s : Survey γ ε) (c : γ) (around : List Node) :
    s.missed.contextAt (some c) around = some (s.contextAt c around) := by
  induction around with
  | nil => rfl
  | cons n around ih =>
    rw [contextAt, ih]
    rfl

/-- **What a survey misses** are the nodes without a context. -/
theorem runAll_missed_placed {s : Survey γ ε}
    (henter : ∀ c n number, s.enter c n number = s.enter c n 0) (c : γ) (m : Module) :
    s.missed.runAll (some c) m
      = (m.placed.filter fun x => (s.contextAt c x.around).isNone).map Placed.node := by
  have henter' : ∀ c n number, s.missed.enter c n number = s.missed.enter c n 0 := fun c n number =>
    congrArg some (congrArg c.bind (funext fun inner => henter inner n number))
  rw [runAll_placed henter', ← List.filterMap_eq_map, List.filterMap_filter,
    List.filterMap_eq_flatMap_toList]
  refine List.flatMap_congr fun x _ => ?_
  rw [noteAt, contextAt_missed]
  cases s.contextAt c x.around <;> rfl

end Survey

theorem Module.map_node_placed (m : Module) : m.placed.map Placed.node = m.nodes := by
  have hall := Survey.runAll_placed (s := Survey.whole) (fun _ _ _ => rfl) () m
  have hcontext : ∀ around, Survey.whole.contextAt () around = some () := by
    intro around
    induction around with
    | nil => rfl
    | cons n around ih => rw [Survey.contextAt, ih]; rfl
  have hnote : ∀ x ∈ m.placed, Survey.whole.noteAt () x = [x.node] := fun x _ => by
    rw [Survey.noteAt, hcontext]
    rfl
  rw [← Survey.runAll_whole, hall, List.flatMap_congr hnote, List.map_eq_flatMap]

/-! ### What is around comes earlier -/

/-- Everything in a list of surroundings is known, with its own surroundings. -/
def Enclosed (known : List Placed) (around : List Node) : Prop :=
  ∀ n outer, n :: outer <:+ around → ⟨n, outer⟩ ∈ known

/-- In a list of placed nodes, the surroundings of each one are known, or in front of it. -/
def Ordered (known : List Placed) : List Placed → Prop
  | [] => True
  | x :: xs => Enclosed known x.around ∧ Ordered (x :: known) xs

theorem Enclosed.mono {known known' : List Placed} {around : List Node} (h : Enclosed known around)
    (hsub : known ⊆ known') : Enclosed known' around :=
  fun n outer hsuffix => hsub (h n outer hsuffix)

theorem Enclosed.cons {known : List Placed} {around : List Node} (h : Enclosed known around)
    (n : Node) : Enclosed (⟨n, around⟩ :: known) (n :: around) := by
  intro k outer hsuffix
  rcases List.suffix_cons_iff.mp hsuffix with heq | hrest
  · obtain ⟨rfl, rfl⟩ := List.cons.inj heq
    exact List.mem_cons_self
  · exact List.mem_cons_of_mem _ (h k outer hrest)

theorem Ordered.append {known xs ys : List Placed} (hxs : Ordered known xs)
    (hys : Ordered (xs.reverse ++ known) ys) : Ordered known (xs ++ ys) := by
  induction xs generalizing known with
  | nil => exact hys
  | cons x xs ih =>
    rw [List.reverse_cons, List.append_assoc] at hys
    exact ⟨hxs.1, ih hxs.2 hys⟩

/-- Several trees, as far as the claim is known of each of them. -/
theorem Survey.ordered_runAll_placing {around : List Node} {ns : List Node}
    (hns : ∀ n ∈ ns, ∀ known, Enclosed known around → Ordered known (placing.run around n))
    {known : List Placed} (hknown : Enclosed known around) :
    Ordered known (placing.runAll around ns) := by
  induction ns generalizing known with
  | nil => trivial
  | cons n ns ih =>
    rw [runAll_cons]
    refine (hns n List.mem_cons_self known hknown).append ?_
    exact ih (fun n' hn' => hns n' (List.mem_cons_of_mem n hn'))
      (hknown.mono (List.subset_append_right _ known))

theorem Survey.ordered_run_placing (n : Node) {around : List Node} {known : List Placed}
    (hknown : Enclosed known around) : Ordered known (placing.run around n) := by
  induction n using Node.induction_below generalizing around known with
  | step n ih =>
    rw [run_placing]
    refine ⟨hknown, ordered_runAll_placing (fun part hpart known' hknown' => ?_) (hknown.cons n)⟩
    exact ih part (Node.mem_nodesOf_of_mem hpart) hknown'

theorem Ordered.enclosed {known before after : List Placed} {x : Placed}
    (h : Ordered known (before ++ x :: after)) : Enclosed (before.reverse ++ known) x.around := by
  induction before generalizing known with
  | nil => exact h.1
  | cons y before ih =>
    rw [List.reverse_cons, List.append_assoc]
    exact ih h.2

/-- **What is around a node stands in front of it** in the list of the nodes, with what is around
that in turn. -/
theorem Module.placed_earlier {m : Module} {before after : List Placed} {x : Placed}
    (h : m.placed = before ++ x :: after) {n : Node} {outer : List Node}
    (hsuffix : n :: outer <:+ x.around) : ⟨n, outer⟩ ∈ before := by
  have hordered : Ordered [] m.placed := by
    refine Survey.ordered_runAll_placing (fun n _ known hknown => ?_) ?_
    · exact Survey.ordered_run_placing n hknown
    · intro k outer hnil
      exact absurd (List.suffix_nil.mp hnil) (List.cons_ne_nil k outer)
  rw [h] at hordered
  have hmem := hordered.enclosed n outer hsuffix
  rwa [List.append_nil, List.mem_reverse] at hmem

/-! ### What is below a node -/

/-- A node lies below another one. -/
def Node.Below (inner outer : Node) : Prop := inner ∈ Node.nodesOf outer.parts

instance : IsTrans Node Node.Below :=
  ⟨fun _ _ _ hinner houter => Node.mem_nodesOf_trans houter hinner⟩

theorem Survey.mem_run_placing {around : List Node} {n : Node} {x : Placed} :
    x ∈ placing.run around n
      ↔ x = ⟨n, around⟩ ∨ ∃ part ∈ n.parts, x ∈ placing.run (n :: around) part := by
  rw [run_placing, List.mem_cons, runAll, List.mem_flatMap]

/-- The nodes from a placed node on are listed with it. -/
theorem Survey.run_placing_subset {around : List Node} {n : Node} {x : Placed}
    (h : x ∈ placing.run around n) : placing.run x.around x.node ⊆ placing.run around n := by
  induction n using Node.induction_below generalizing around with
  | step n ih =>
    rcases mem_run_placing.mp h with rfl | ⟨part, hpart, hx⟩
    · exact List.Subset.refl _
    · have hsub := ih part (Node.mem_nodesOf_of_mem hpart) hx
      exact fun y hy => mem_run_placing.mpr (Or.inr ⟨part, hpart, hsub hy⟩)

/-- A node below stands further in. -/
theorem Survey.exists_mem_run_placing {n k : Node} (h : k ∈ n.nodes) (around : List Node) :
    ∃ inner, ⟨k, inner ++ around⟩ ∈ placing.run around n := by
  induction n using Node.induction_below generalizing around with
  | step n ih =>
    rcases Node.mem_nodes_iff.mp h with rfl | hbelow
    · exact ⟨[], mem_run_placing.mpr (Or.inl rfl)⟩
    · obtain ⟨part, hpart, hk⟩ := Node.mem_nodesOf.mp hbelow
      obtain ⟨inner, hinner⟩ := ih part (Node.mem_nodesOf_of_mem hpart) hk (n :: around)
      refine ⟨inner ++ [n], mem_run_placing.mpr (Or.inr ⟨part, hpart, ?_⟩)⟩
      rwa [List.append_assoc]

/-- **What lies below a placed node is placed**, with that node and what is around it around. -/
theorem Module.placed_below {m : Module} {x : Placed} (hx : x ∈ m.placed) {k : Node}
    (hk : k.Below x.node) : ∃ inner, ⟨k, inner ++ x.node :: x.around⟩ ∈ m.placed := by
  obtain ⟨item, hitem, hrun⟩ := List.mem_flatMap.mp hx
  obtain ⟨part, hpart, hbelow⟩ := Node.mem_nodesOf.mp hk
  obtain ⟨inner, hinner⟩ := Survey.exists_mem_run_placing hbelow (x.node :: x.around)
  have hown : (⟨k, inner ++ x.node :: x.around⟩ : Placed) ∈ Survey.placing.run x.around x.node :=
    Survey.mem_run_placing.mpr (Or.inr ⟨part, hpart, hinner⟩)
  exact ⟨inner, List.mem_flatMap.mpr ⟨item, hitem, Survey.run_placing_subset hrun hown⟩⟩

theorem Survey.isChain_of_mem_run_placing {n : Node} {around : List Node} {x : Placed}
    (hn : (n :: around).IsChain fun inner outer => inner ∈ outer.parts)
    (hx : x ∈ placing.run around n) :
    (x.node :: x.around).IsChain fun inner outer => inner ∈ outer.parts := by
  induction n using Node.induction_below generalizing around with
  | step n ih =>
    rcases mem_run_placing.mp hx with rfl | ⟨part, hpart, hx⟩
    · exact hn
    · exact ih part (Node.mem_nodesOf_of_mem hpart) (hn.cons_cons hpart) hx

/-- **What is around a node**: each one is a part of the next. -/
theorem Module.isChain_placed {m : Module} {x : Placed} (hx : x ∈ m.placed) :
    (x.node :: x.around).IsChain fun inner outer => inner ∈ outer.parts := by
  obtain ⟨item, -, hrun⟩ := List.mem_flatMap.mp hx
  exact Survey.isChain_of_mem_run_placing (List.IsChain.singleton item) hrun

/-- What is around a node is below all that is further out. -/
theorem Module.pairwise_placed {m : Module} {x : Placed} (hx : x ∈ m.placed) :
    (x.node :: x.around).Pairwise Node.Below := by
  have hbelow : (x.node :: x.around).IsChain Node.Below :=
    (Module.isChain_placed hx).imp fun _ _ => Node.mem_nodesOf_of_mem
  exact hbelow.pairwise

theorem Module.mem_nodes_of_mem_placed {m : Module} {x : Placed} (hx : x ∈ m.placed) :
    x.node ∈ m.nodes :=
  m.map_node_placed ▸ List.mem_map_of_mem hx

theorem Module.exists_mem_placed {m : Module} {n : Node} (hn : n ∈ m.nodes) :
    ∃ x ∈ m.placed, x.node = n :=
  List.mem_map.mp (m.map_node_placed.symm ▸ hn)

/-- What is around a node is placed itself. -/
theorem Module.mem_placed_of_around {m : Module} {x : Placed} (hx : x ∈ m.placed) {n : Node}
    {outer : List Node} (h : n :: outer <:+ x.around) : ⟨n, outer⟩ ∈ m.placed := by
  obtain ⟨before, after, hsplit⟩ := List.append_of_mem hx
  rw [hsplit]
  exact List.mem_append_left _ (Module.placed_earlier hsplit h)

end JsxWidgets.Syntax
