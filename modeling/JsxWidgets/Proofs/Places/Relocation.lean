import Mathlib.Data.List.Basic
import JsxWidgets.Proofs.Expression.Outline
import JsxWidgets.Proofs.Syntax.Surveys

/-!
# Moving a syntax tree

`Node.relocate` gives every node of a tree another place and leaves the tree as it is otherwise. An
analysis that only copies places finds in the moved tree what it finds in the tree, at the moved
places. It would not do so any more if it compared two places, or computed one.

Here are the tree itself, its nodes in order, and walks through it: a survey follows a move as soon
as what it notes at a node does, and as it enters the parts of a node alike (`Survey.Follows.run`).

A move keeps the form and the number of the parts of every node. So the proofs about what is asked
of a node go by its form, and by its parts as far as they are looked at: where the answer is read
off these, both sides are the same by definition, and there is something to say only where a
question is handed on to a part.
-/

namespace JsxWidgets.Syntax

/-- **A move**: what becomes of each place. What has no place has none afterwards. -/
structure Relocation where
  /-- Where something stands afterwards. -/
  target : Place → Place
  /-- No place stays no place. -/
  target_zero : target 0 = 0

mutual

/-- **A tree with every place moved.** -/
def Node.relocate (f : Place → Place) : Node → Node
  | ⟨form, place, parts⟩ => ⟨form, f place, Node.relocates f parts⟩

/-- Several trees with every place moved. -/
def Node.relocates (f : Place → Place) : List Node → List Node
  | [] => []
  | n :: ns => n.relocate f :: Node.relocates f ns

end

/-- A module with every place moved. -/
def Module.relocate (f : Place → Place) (m : Module) : Module := Node.relocates f m

namespace Node

variable {f : Place → Place}

theorem relocates_eq_map (ns : List Node) : relocates f ns = ns.map (relocate f) := by
  induction ns with
  | nil => rfl
  | cons n ns ih => rw [relocates, ih, List.map_cons]

@[simp] theorem form_relocate (n : Node) : (n.relocate f).form = n.form := by
  cases n
  rfl

@[simp] theorem place_relocate (n : Node) : (n.relocate f).place = f n.place := by
  cases n
  rfl

@[simp] theorem parts_relocate (n : Node) : (n.relocate f).parts = n.parts.map (relocate f) := by
  cases n
  exact relocates_eq_map _

theorem length_relocates (ns : List Node) : (relocates f ns).length = ns.length := by
  rw [relocates_eq_map, List.length_map]

theorem getElem?_relocates (ns : List Node) (i : Nat) :
    (relocates f ns)[i]? = ns[i]?.map (relocate f) := by
  rw [relocates_eq_map, List.getElem?_map]

/-- A question that has the same answer after a move, asked of a part that may be missing. -/
theorem map_map_relocate {β : Type} {q : Node → β} (h : ∀ n, q (n.relocate f) = q n)
    (e : Option Node) : (e.map (relocate f)).map q = e.map q := by
  cases e with
  | none => rfl
  | some e => exact congrArg some (h e)

/-- What is found first in several moved trees is what is found first in the trees. -/
theorem findSome?_relocates {q : Node → Option Node}
    (h : ∀ n, q (n.relocate f) = (q n).map (relocate f)) (ns : List Node) :
    (relocates f ns).findSome? q = (ns.findSome? q).map (relocate f) := by
  induction ns with
  | nil => rfl
  | cons n ns ih =>
    rw [relocates, List.findSome?_cons, List.findSome?_cons, h, ih]
    cases q n <;> rfl

theorem relocates_eq_nil {ns : List Node} : relocates f ns = [] ↔ ns = [] := by
  rw [relocates_eq_map, List.map_eq_nil_iff]

theorem relocates_eq_cons {ns parts : List Node} {part : Node} :
    relocates f ns = part :: parts ↔
      ∃ n ns', ns = n :: ns' ∧ n.relocate f = part ∧ relocates f ns' = parts := by
  simp only [relocates_eq_map, List.map_eq_cons_iff]

/-- A moved node has the form of the node. -/
theorem relocate_eq_mk {n : Node} {form : Form} {place : Place} {parts : List Node} :
    n.relocate f = ⟨form, place, parts⟩ ↔
      ∃ p ns, n = ⟨form, p, ns⟩ ∧ f p = place ∧ relocates f ns = parts := by
  constructor
  · intro h
    cases n
    cases h
    exact ⟨_, _, rfl, rfl, rfl⟩
  · rintro ⟨p, ns, rfl, rfl, rfl⟩
    rfl

/-- A missing part is still missing. -/
@[simp] theorem present?_relocate (n : Node) :
    (n.relocate f).present? = n.present?.map (relocate f) := by
  obtain ⟨form, place, parts⟩ := n
  cases form <;> rfl

/-- Parentheses and types stand around the same expression. -/
@[simp] theorem unwrap_relocate (e : Node) : (e.relocate f).unwrap = e.unwrap.relocate f := by
  obtain ⟨form, place, parts⟩ := e
  cases form
  case paren | asConst | nonNull =>
    match parts with
    | [e] => exact unwrap_relocate e
    | [] | _ :: _ :: _ => rfl
  case asType | satisfies =>
    match parts with
    | [e, _] => exact unwrap_relocate e
    | [] | [_] | _ :: _ :: _ :: _ => rfl
  all_goals rfl

mutual

/-- Outlines have no places. -/
theorem outline_relocate (n : Node) : (n.relocate f).outline = n.outline := by
  obtain ⟨form, place, parts⟩ := n
  have hparts := outlines_relocates parts
  cases form
  case markup =>
    rcases parts with _ | ⟨⟨form, p, inner⟩, _ | ⟨n, rest⟩⟩
    · rfl
    · -- Of an element the tag is kept, and of a fragment nothing.
      cases form
      case element =>
        rcases inner with _ | ⟨⟨first, q, attributes⟩, rest⟩
        · rfl
        · cases first
          case opening => rfl
          all_goals exact congrArg (Node.mk .markup 0) hparts
      case fragment => rfl
      all_goals exact congrArg (Node.mk .markup 0) hparts
    · rw [relocate, outline_mk (Or.inr (by simp [length_relocates])),
        outline_mk (Or.inr (by simp)), hparts]
  all_goals exact congrArg (Node.mk _ 0) hparts

theorem outlines_relocates (ns : List Node) : outlines (relocates f ns) = outlines ns := by
  cases ns with
  | nil => rfl
  | cons n ns => exact congrArg₂ List.cons (outline_relocate n) (outlines_relocates ns)

end

mutual

/-- The nodes of a moved tree, in order, are those of the tree, moved. -/
theorem nodes_relocate (n : Node) : (n.relocate f).nodes = n.nodes.map (relocate f) := by
  obtain ⟨form, place, parts⟩ := n
  rw [relocate, nodes_mk, nodes_mk, nodesOf_relocates parts]
  rfl

theorem nodesOf_relocates (ns : List Node) :
    nodesOf (relocates f ns) = (nodesOf ns).map (relocate f) := by
  cases ns with
  | nil => rfl
  | cons n ns =>
    rw [relocates, nodesOf, nodesOf, nodes_relocate n, nodesOf_relocates ns, List.map_append]

end

section Lists

variable {β γ : Type} {g : β → γ}

/-- What is found at moved nodes is what is found at the nodes, moved. -/
theorem filterMap_map_relocate {q : Node → Option β} {q' : Node → Option γ}
    (h : ∀ n, q' (n.relocate f) = (q n).map g) (ns : List Node) :
    (ns.map (relocate f)).filterMap q' = (ns.filterMap q).map g := by
  rw [List.filterMap_map, List.map_filterMap]
  exact List.filterMap_congr fun n _ => h n

/-- What is listed at moved nodes is what is listed at the nodes, moved. -/
theorem flatMap_map_relocate {q : Node → List β} {q' : Node → List γ}
    (h : ∀ n, q' (n.relocate f) = (q n).map g) (ns : List Node) :
    (ns.map (relocate f)).flatMap q' = (ns.flatMap q).map g := by
  rw [List.flatMap_map, List.map_flatMap]
  exact List.flatMap_congr fun n _ => h n

end Lists

end Node

theorem Module.nodes_relocate (m : Module) (f : Place → Place) :
    (m.relocate f).nodes = m.nodes.map (Node.relocate f) :=
  Node.nodesOf_relocates m

/-! ### Surveys -/

namespace Survey

variable {γ ε ζ : Type} {f : Place → Place} {g : ε → ζ}

/-- **Following a move**: at a moved node, a survey notes what another one notes at the node, moved,
and it enters the same parts in the same contexts. -/
structure Follows (f : Place → Place) (g : ε → ζ) (s : Survey γ ε) (s' : Survey γ ζ) : Prop where
  /-- The findings at a node are moved. -/
  note : ∀ (c : γ) (n : Node), s'.note c (n.relocate f) = (s.note c n).map g
  /-- The parts are entered alike. -/
  enter : ∀ (c : γ) (n : Node) (number : Nat), s'.enter c (n.relocate f) number = s.enter c n number

namespace Follows

variable {s : Survey γ ε} {s' : Survey γ ζ} (h : Follows f g s s')
include h

mutual

/-- **A survey that follows a move at each node does so in a tree.** -/
theorem run (c : γ) (n : Node) : s'.run c (n.relocate f) = (s.run c n).map g := by
  obtain ⟨form, place, parts⟩ := n
  have hnote := h.note c ⟨form, place, parts⟩
  have hparts := runParts c ⟨form, place, parts⟩ 0 parts
  rw [Node.relocate] at hnote hparts ⊢
  rw [run_mk, run_mk, hnote, hparts, List.map_append]

theorem runParts (c : γ) (whole : Node) (number : Nat) (parts : List Node) :
    s'.runParts c (whole.relocate f) number (Node.relocates f parts)
      = (s.runParts c whole number parts).map g := by
  cases parts with
  | nil =>
    rw [Node.relocates, runParts_nil, runParts_nil]
    rfl
  | cons n ns =>
    rw [Node.relocates, runParts_cons, runParts_cons, h.enter, runParts c whole (number + 1) ns,
      List.map_append]
    congr 1
    cases s.enter c whole number with
    | none => rfl
    | some inner => exact run inner n

end

theorem runAll (c : γ) (ns : List Node) :
    s'.runAll c (Node.relocates f ns) = (s.runAll c ns).map g := by
  rw [Survey.runAll, Survey.runAll, Node.relocates_eq_map]
  exact Node.flatMap_map_relocate (h.run c) ns

end Follows

end Survey

end JsxWidgets.Syntax
