import Mathlib.Data.List.Basic
import JsxWidgets.Proofs.Syntax.Nodes

/-!
# Surveys that find the same

Several analyses walk through a module, each with a context of its own, and what one of them finds
is compared with what another one finds. Two surveys are *alike* if they enter the same parts from
related contexts and read the same off what they note at a node (`Survey.Alike`). Such a comparison
is made node by node, and the induction over the tree is done once, here (`Survey.Alike.run`).

The survey that enters every part and notes every node gives the list of all nodes
(`Survey.run_whole`). So a survey that is alike to it finds what stands in that list, in order,
whatever it carries in its context.

A survey that passes over some parts finds less. The nodes that it sees and those that it misses
together are all there are, and those it sees keep their order: the list of all nodes is *parted*
(`Parted`, `Survey.parted`).
-/

namespace JsxWidgets.Syntax

/-! ### Parted lists -/

/-- **A list that is parted in two**: the first part keeps the order of the list, and both parts
together are all of it. -/
structure Parted {α : Type} (all kept left : List α) : Prop where
  /-- What is kept keeps its order. -/
  sublist : kept.Sublist all
  /-- Nothing is lost. -/
  perm : all.Perm (kept ++ left)

namespace Parted

variable {α β : Type} {all all' kept kept' left left' : List α}

/-- A list may be kept as a whole. -/
theorem keep (all : List α) : Parted all all [] :=
  ⟨List.Sublist.refl all, by rw [List.append_nil]⟩

/-- It may be left as a whole. -/
theorem leave (all : List α) : Parted all [] all := ⟨List.nil_sublist all, List.Perm.refl all⟩

/-- Lists one behind the other are parted if each of them is. -/
theorem append (h : Parted all kept left) (h' : Parted all' kept' left') :
    Parted (all ++ all') (kept ++ kept') (left ++ left') := by
  refine ⟨h.sublist.append h'.sublist, (h.perm.append h'.perm).trans ?_⟩
  -- Only the two parts in the middle change places.
  rw [List.append_assoc, List.append_assoc]
  refine List.Perm.append_left kept ?_
  rw [← List.append_assoc, ← List.append_assoc]
  exact List.perm_append_comm.append_right left'

/-- So are many lists. -/
theorem flatMap {γ : Type} {l : List γ} {f g k : γ → List α}
    (h : ∀ x ∈ l, Parted (f x) (g x) (k x)) :
    Parted (l.flatMap f) (l.flatMap g) (l.flatMap k) := by
  induction l with
  | nil => exact keep []
  | cons x l ih =>
    rw [List.flatMap_cons, List.flatMap_cons, List.flatMap_cons]
    exact (h x List.mem_cons_self).append (ih fun y hy => h y (List.mem_cons_of_mem x hy))

/-- A parted list stays so when something is made of its members, or nothing. -/
theorem filterMap (h : Parted all kept left) (f : α → Option β) :
    Parted (all.filterMap f) (kept.filterMap f) (left.filterMap f) :=
  ⟨h.sublist.filterMap f, by
    rw [← List.filterMap_append]
    exact h.perm.filterMap f⟩

/-- It stays so when members are picked. -/
theorem filter (h : Parted all kept left) (p : α → Bool) :
    Parted (all.filter p) (kept.filter p) (left.filter p) :=
  ⟨h.sublist.filter p, by
    rw [← List.filter_append]
    exact h.perm.filter p⟩

/-- What is in the list is in one of the parts. -/
theorem mem_iff (h : Parted all kept left) {x : α} : x ∈ all ↔ x ∈ kept ∨ x ∈ left := by
  rw [h.perm.mem_iff, List.mem_append]

/-- The parts are as long as the list together. -/
theorem length_eq (h : Parted all kept left) : all.length = kept.length + left.length := by
  rw [h.perm.length_eq, List.length_append]

/-- They hold everything as often as the list. -/
theorem count_eq [BEq α] (h : Parted all kept left) (x : α) :
    all.count x = kept.count x + left.count x := by
  rw [h.perm.count_eq, List.count_append]

/-- All is kept if and only if nothing is left. -/
theorem kept_eq_iff (h : Parted all kept left) : kept = all ↔ left = [] := by
  have hlength := h.length_eq
  constructor
  · rintro rfl
    exact List.eq_nil_of_length_eq_zero (by omega)
  · rintro rfl
    exact h.sublist.eq_of_length (by rw [hlength, List.length_nil, Nat.add_zero])

/-- If one of two parts is all, they are equal if and only if the other one is all, too. -/
theorem kept_eq_kept_iff (h : Parted all kept left) (h' : Parted all kept' left')
    (hone : left = [] ∨ left' = []) : kept = kept' ↔ left ++ left' = [] := by
  rcases hone with rfl | rfl
  · rw [h.kept_eq_iff.mpr rfl, List.nil_append, ← h'.kept_eq_iff]
    exact eq_comm
  · rw [h'.kept_eq_iff.mpr rfl, List.append_nil, h.kept_eq_iff]

/-- Two lists that keep the same and leave nothing in common are equal if and only if they leave
nothing at all. -/
theorem all_eq_all_iff (h : Parted all kept left) (h' : Parted all' kept left')
    (hdisjoint : left.Disjoint left') : all = all' ↔ left = [] ∧ left' = [] := by
  constructor
  · rintro rfl
    have hperm : left.Perm left' :=
      (List.perm_append_left_iff kept).mp (h.perm.symm.trans h'.perm)
    have hnil : left = [] :=
      List.eq_nil_iff_forall_not_mem.mpr fun x hx => hdisjoint hx (hperm.subset hx)
    exact ⟨hnil, List.nil_perm.mp (hnil ▸ hperm)⟩
  · rintro ⟨rfl, rfl⟩
    rw [← h.kept_eq_iff.mpr rfl, ← h'.kept_eq_iff.mpr rfl]

/-- A list with one of two properties that exclude each other is parted by them. -/
theorem filter_or (l : List α) {p q : α → Bool} (hpq : ∀ x ∈ l, p x = true → q x = false) :
    Parted (l.filter fun x => p x || q x) (l.filter p) (l.filter q) := by
  have hp : (l.filter fun x => p x || q x).filter p = l.filter p := by
    rw [List.filter_filter]
    refine List.filter_congr fun x _ => ?_
    cases p x <;> rfl
  have hq : (l.filter fun x => p x || q x).filter (!p ·) = l.filter q := by
    rw [List.filter_filter]
    refine List.filter_congr fun x hx => ?_
    cases hx' : p x with
    | true => rw [hpq x hx hx']; rfl
    | false => rfl
  refine ⟨hp ▸ List.filter_sublist, ?_⟩
  conv_rhs => rw [← hp, ← hq]
  exact (List.filter_append_perm p _).symm

/-- A parted list stays so when something is made of its members. -/
theorem map (h : Parted all kept left) (f : α → β) :
    Parted (all.map f) (kept.map f) (left.map f) :=
  ⟨h.sublist.map f, by
    rw [← List.map_append]
    exact h.perm.map f⟩

end Parted

namespace Survey

variable {γ δ ε ζ η : Type}

/-- A survey notes at a node, and then goes through its parts. -/
theorem run_mk (s : Survey γ ε) (c : γ) (form : Form) (place : Place) (parts : List Node) :
    s.run c ⟨form, place, parts⟩
      = s.note c ⟨form, place, parts⟩ ++ s.runParts c ⟨form, place, parts⟩ 0 parts := by
  rw [run]

/-- The same, with the parts of the node by name. -/
theorem run_eq (s : Survey γ ε) (c : γ) (n : Node) :
    s.run c n = s.note c n ++ s.runParts c n 0 n.parts := by
  obtain ⟨form, place, parts⟩ := n
  exact run_mk ..

/-- There is nothing to go through where no parts are left. -/
@[simp] theorem runParts_nil (s : Survey γ ε) (c : γ) (whole : Node) (number : Nat) :
    s.runParts c whole number [] = [] := by
  rw [runParts]

/-- The first of the parts is gone into if the survey enters it, and then the others are gone
through. -/
theorem runParts_cons (s : Survey γ ε) (c : γ) (whole : Node) (number : Nat) (n : Node)
    (ns : List Node) :
    s.runParts c whole number (n :: ns)
      = ((s.enter c whole number).elim [] fun inner => s.run inner n)
        ++ s.runParts c whole (number + 1) ns := by
  rw [runParts]
  cases s.enter c whole number <;> rfl

/-- A survey of no nodes finds nothing. -/
@[simp] theorem runAll_nil (s : Survey γ ε) (c : γ) : s.runAll c [] = [] := rfl

/-- A survey of several nodes is that of the first one, and then that of the others. -/
theorem runAll_cons (s : Survey γ ε) (c : γ) (n : Node) (ns : List Node) :
    s.runAll c (n :: ns) = s.run c n ++ s.runAll c ns := List.flatMap_cons

/-- A survey that enters all parts of a node in one context. -/
theorem runParts_of_forall_enter {s : Survey γ ε} {c inner : γ} {whole : Node}
    (henter : ∀ number, s.enter c whole number = some inner) (number : Nat) (parts : List Node) :
    s.runParts c whole number parts = s.runAll inner parts := by
  induction parts generalizing number with
  | nil => rw [runParts_nil, runAll_nil]
  | cons n ns ih => rw [runParts_cons, henter, ih, runAll_cons, Option.elim_some]

/-- A survey that enters no part of a node from some number on. -/
theorem runParts_of_forall_skip {s : Survey γ ε} {c : γ} {whole : Node} {number : Nat}
    (henter : ∀ later, number ≤ later → s.enter c whole later = none) (parts : List Node) :
    s.runParts c whole number parts = [] := by
  induction parts generalizing number with
  | nil => exact runParts_nil ..
  | cons n ns ih =>
    have hrest := ih fun later hlater => henter later (Nat.le_of_succ_le hlater)
    rw [runParts_cons, henter number (Nat.le_refl number), hrest, Option.elim_none,
      List.append_nil]

/-- What holds of everything that is noted at a node holds of everything that is found in a tree. -/
theorem forall_mem_run {s : Survey γ ε} {P : ε → Prop} (hnote : ∀ c n, ∀ x ∈ s.note c n, P x)
    (c : γ) (n : Node) : ∀ x ∈ s.run c n, P x := by
  induction n using Node.induction_below generalizing c with
  | step n ih =>
    -- the induction hypothesis is for the parts of the node, so it holds for each sublist
    have hparts : ∀ parts ⊆ n.parts, ∀ number, ∀ x ∈ s.runParts c n number parts, P x := by
      intro parts hsub
      induction parts with
      | nil =>
        intro number
        rw [runParts_nil]
        exact List.forall_mem_nil P
      | cons part parts ihparts =>
        intro number
        rw [runParts_cons, List.forall_mem_append]
        refine ⟨?_, ihparts (fun p hp => hsub (List.mem_cons_of_mem part hp)) (number + 1)⟩
        cases s.enter c n number with
        | none => exact List.forall_mem_nil P
        | some inner => exact ih part (Node.mem_nodesOf_of_mem (hsub List.mem_cons_self)) inner
    rw [run_eq, List.forall_mem_append]
    exact ⟨hnote c n, hparts n.parts (List.Subset.refl _) 0⟩

/-! ### Surveys that are alike -/

/-- **Surveys that are alike** with regard to what is read off their findings. -/
structure Alike (s : Survey γ ε) (t : Survey δ ζ) (f : ε → List η) (g : ζ → List η)
    (R : γ → δ → Prop) : Prop where
  /-- The same is read off what they note at a node. -/
  note : ∀ {c d}, R c d → ∀ n, (s.note c n).flatMap f = (t.note d n).flatMap g
  /-- They enter the same parts, and the contexts stay related. -/
  enter : ∀ {c d}, R c d → ∀ n number, Option.Rel R (s.enter c n number) (t.enter d n number)

section Alike

variable {s : Survey γ ε} {t : Survey δ ζ} {f : ε → List η} {g : ζ → List η} {R : γ → δ → Prop}

/-- The parts of a node, as far as the claim is known of each of them. -/
theorem Alike.runParts (h : Alike s t f g R) {c : γ} {d : δ} (hcd : R c d) (whole : Node)
    {parts : List Node}
    (hparts : ∀ n ∈ parts, ∀ c d, R c d → (s.run c n).flatMap f = (t.run d n).flatMap g)
    (number : Nat) :
    (s.runParts c whole number parts).flatMap f = (t.runParts d whole number parts).flatMap g := by
  induction parts generalizing number with
  | nil => rw [runParts_nil, runParts_nil, List.flatMap_nil, List.flatMap_nil]
  | cons n ns ih =>
    have hfirst := hparts n List.mem_cons_self
    have hrest := ih (fun n' hn' => hparts n' (List.mem_cons_of_mem _ hn')) (number + 1)
    rw [runParts_cons, runParts_cons, List.flatMap_append, List.flatMap_append, hrest]
    congr 1
    -- Either both enter the part or none of them does.
    have henter := h.enter hcd whole number
    generalize s.enter c whole number = inner at henter
    generalize t.enter d whole number = inner' at henter
    cases henter with
    | none => rfl
    | some hinner => exact hfirst _ _ hinner

/-- **Surveys that are alike find the same** in every tree. -/
theorem Alike.run (h : Alike s t f g R) {c : γ} {d : δ} (hcd : R c d) (n : Node) :
    (s.run c n).flatMap f = (t.run d n).flatMap g := by
  induction n using Node.induction_below generalizing c d with
  | step n ih =>
    have hparts : ∀ part ∈ n.parts, ∀ c d, R c d →
        (s.run c part).flatMap f = (t.run d part).flatMap g :=
      fun part hpart _ _ hcd' => ih part (Node.mem_nodesOf_of_mem hpart) hcd'
    rw [run_eq, run_eq, List.flatMap_append, List.flatMap_append, h.note hcd n,
      h.runParts hcd n hparts 0]

/-- **Surveys that are alike find alike** in several nodes, if they start alike. -/
theorem Alike.runAll (h : Alike s t f g R) {c : γ} {d : δ} (hcd : R c d) (ns : List Node) :
    (s.runAll c ns).flatMap f = (t.runAll d ns).flatMap g := by
  rw [Survey.runAll, Survey.runAll, List.flatMap_assoc, List.flatMap_assoc]
  exact List.flatMap_congr fun n _ => h.run hcd n

end Alike

/-! ### All nodes -/

/-- The survey that notes every node. -/
def whole : Survey Unit Node := ⟨fun _ n => [n], fun _ _ _ => some ()⟩

/-- The survey of all nodes finds every node of a tree. -/
theorem run_whole (n : Node) : whole.run () n = n.nodes := by
  induction n using Node.induction_below with
  | step n ih =>
    have hparts : whole.runParts () n 0 n.parts = Node.nodesOf n.parts := by
      rw [runParts_of_forall_enter (fun _ => rfl), Survey.runAll, Node.nodesOf_eq_flatMap]
      exact List.flatMap_congr fun part hpart => ih part (Node.mem_nodesOf_of_mem hpart)
    rw [run_eq, hparts, Node.nodes_eq]
    rfl

/-- So it finds every node of a module. -/
theorem runAll_whole (m : Module) : whole.runAll () m = m.nodes := by
  rw [Survey.runAll, Module.nodes, Node.nodesOf_eq_flatMap]
  exact List.flatMap_congr fun n _ => run_whole n

/-- **A survey that enters everything** finds what stands in the list of all nodes, if what is read
off its notes does not depend on the context. -/
theorem runAll_eq_nodes {s : Survey γ ε} {f : ε → List η} {g : Node → List η}
    (hnote : ∀ c n, (s.note c n).flatMap f = g n)
    (henter : ∀ c n number, (s.enter c n number).isSome) (c : γ) (m : Module) :
    (s.runAll c m).flatMap f = m.nodes.flatMap g := by
  have halike : Alike s whole f g fun _ _ => True := by
    refine ⟨fun {c _} _ n => ?_, fun {c _} _ n number => ?_⟩
    · rw [hnote]
      exact (List.flatMap_singleton g n).symm
    · obtain ⟨inner, hinner⟩ := Option.isSome_iff_exists.mp (henter c n number)
      rw [hinner]
      exact Option.Rel.some trivial
  rw [halike.runAll trivial m, runAll_whole]

/-! ### What a survey passes over -/

/-- The nodes that a survey looks at. -/
def seen (s : Survey γ ε) : Survey γ Node := ⟨fun _ n => [n], s.enter⟩

/-- The nodes that a survey passes over. The context is that of the survey, and none within a part
that it does not enter. -/
def missed (s : Survey γ ε) : Survey (Option γ) Node where
  note c n := if c.isSome then [] else [n]
  enter c n number := some (c.bind fun inner => s.enter inner n number)

/-- Within a part that is not entered all nodes are missed. -/
theorem run_missed_none (s : Survey γ ε) (n : Node) : s.missed.run none n = n.nodes := by
  have halike : Alike s.missed whole (fun m => [m]) (fun m => [m]) fun c _ => c = none := by
    refine ⟨?_, ?_⟩
    · rintro c d rfl n
      rfl
    · rintro c d rfl n number
      exact Option.Rel.some rfl
  have hrun := halike.run (c := none) (d := ()) rfl n
  rwa [run_whole, List.flatMap_singleton', List.flatMap_singleton'] at hrun

/-- The parts of a node, as far as the claim is known of each of them. -/
theorem parted_runParts (s : Survey γ ε) (c : γ) (whole : Node) {parts : List Node}
    (hparts : ∀ n ∈ parts, ∀ inner, Parted n.nodes (s.seen.run inner n)
      (s.missed.run (some inner) n)) (number : Nat) :
    Parted (Node.nodesOf parts) (s.seen.runParts c whole number parts)
      (s.missed.runParts (some c) whole number parts) := by
  induction parts generalizing number with
  | nil =>
    rw [runParts_nil, runParts_nil, Node.nodesOf]
    exact Parted.keep []
  | cons n ns ih =>
    have hfirst := hparts n List.mem_cons_self
    have hrest := ih (fun n' hn' => hparts n' (List.mem_cons_of_mem _ hn')) (number + 1)
    rw [runParts_cons, runParts_cons, Node.nodesOf]
    refine Parted.append ?_ hrest
    -- A part is either entered, with its own claim, or missed as a whole.
    change Parted _ ((s.enter c whole number).elim _ _) (s.missed.run (s.enter c whole number) n)
    cases s.enter c whole number with
    | none =>
      rw [run_missed_none]
      exact Parted.leave n.nodes
    | some inner => exact hfirst inner

/-- **What a survey sees and what it misses is all there is.** -/
theorem parted (s : Survey γ ε) (c : γ) (n : Node) :
    Parted n.nodes (s.seen.run c n) (s.missed.run (some c) n) := by
  induction n using Node.induction_below generalizing c with
  | step n ih =>
    have hparts := s.parted_runParts c n
      (fun part hpart inner => ih part (Node.mem_nodesOf_of_mem hpart) inner) 0
    rw [run_eq, run_eq, Node.nodes_eq]
    exact (Parted.keep [n]).append hparts

/-- **Every node is looked at or passed over**, and the order is kept. -/
theorem parted_runAll (s : Survey γ ε) (c : γ) (m : Module) :
    Parted m.nodes (s.seen.runAll c m) (s.missed.runAll (some c) m) := by
  rw [Module.nodes, Node.nodesOf_eq_flatMap]
  exact Parted.flatMap fun n _ => s.parted c n

end Survey

end JsxWidgets.Syntax
