import JsxWidgets.FunctionIndex
import JsxWidgets.Proofs.Places.Components

/-!
# The functions of a moved module

The index of a moved module has the same names, and what it holds under a name is the body of the
function, moved.
-/

namespace JsxWidgets

open Syntax Syntax.Node Expression

/-- What a function does, with every place moved. -/
def FunctionBody.relocate (f : Place → Place) : FunctionBody → FunctionBody
  | .block statements => .block (relocates f statements)
  | .value e => .value (e.relocate f)

/-- An index with every place moved. -/
def FunctionIndex.relocate (f : Place → Place) (index : FunctionIndex) : FunctionIndex :=
  index.map fun (name, body) => (name, body.relocate f)

variable {f : Place → Place}

namespace FunctionBody

/-- The body of a function moves with the function. -/
theorem ofFunction?_relocate (fn : Node) :
    ofFunction? (fn.relocate f) = (ofFunction? fn).map (relocate f) := by
  obtain ⟨form, place, parts⟩ := fn
  cases form
  case fn =>
    match parts with
    | [_, ⟨code, _, _⟩, _, _] => cases code <;> rfl
    | [] | [_] => rfl
    | [_, ⟨code, _, _⟩] | [_, ⟨code, _, _⟩, _] | _ :: ⟨code, _, _⟩ :: _ :: _ :: _ :: _ =>
      cases code <;> rfl
  all_goals rfl

/-- So does that of an expression that is a function. -/
theorem ofExpr?_relocate (e : Node) :
    ofExpr? (e.relocate f) = (ofExpr? e).map (relocate f) := by
  rw [ofExpr?, ofExpr?, unwrap_relocate]
  obtain ⟨form, place, parts⟩ := e.unwrap
  cases form
  case arrow =>
    match parts with
    | [] | [_] => rfl
    | _ :: ⟨result, _, _⟩ :: _ => cases result <;> rfl
  case functionExpr =>
    match parts with
    | [_, fn] => exact ofFunction?_relocate fn
    | [] | [_] | _ :: _ :: _ :: _ => rfl
  all_goals rfl

/-- So does that of a value that holds one. -/
theorem ofInitializer?_relocate (e : Node) :
    ofInitializer? (e.relocate f) = (ofInitializer? e).map (relocate f) := by
  simp only [ofInitializer?, unwrap_relocate, form_relocate, calleeName?_relocate,
    argument?_relocate, ofExpr?_relocate]
  split
  · split
    · cases argument? e.unwrap 0 with
      | none => rfl
      | some g => exact ofExpr?_relocate g
    · rfl
  · rfl

/-- The roots of a body move with it. -/
theorem roots_relocate (body : FunctionBody) :
    (body.relocate f).roots = relocates f body.roots := by
  cases body <;> rfl

/-- A function runs statements or has no body. -/
theorem ofFunction?_cases (fn : Node) :
    ofFunction? fn = none ∨ ∃ p params q statements types type,
      fn = ⟨.fn, p, [params, ⟨.body, q, statements⟩, types, type]⟩ := by
  unfold ofFunction?
  split
  · exact Or.inr ⟨_, _, _, _, _, _, rfl⟩
  · exact Or.inl rfl

/-- The statements that a function runs. -/
def statementsOf (fn : Node) : List Node := (ofFunction? fn).elim [] roots

/-- So do the statements of a function. -/
theorem statementsOf_relocate (fn : Node) :
    statementsOf (fn.relocate f) = relocates f (statementsOf fn) := by
  rw [statementsOf, statementsOf, ofFunction?_relocate]
  cases ofFunction? fn with
  | none => rfl
  | some body => exact roots_relocate body

/-- They are inside the function. -/
theorem mem_nodesOf_of_mem_statementsOf {fn m : Node} (h : m ∈ statementsOf fn) :
    m ∈ nodesOf fn.parts := by
  rcases ofFunction?_cases fn with hnone | ⟨_, params, q, statements, types, type, rfl⟩
  · rw [statementsOf, hnone] at h
    cases h
  · exact mem_nodesOf.mpr ⟨⟨.body, q, statements⟩, by simp, mem_nodes_of_below
      (mem_nodesOf_of_mem h)⟩

end FunctionBody

namespace FunctionIndex

open FunctionBody (statementsOf statementsOf_relocate mem_nodesOf_of_mem_statementsOf)

theorem relocate_append (front back : FunctionIndex) :
    relocate f (front ++ back) = relocate f front ++ relocate f back := List.map_append

/-- An entry has the same name, and its body moves. -/
theorem entry_relocate (name : Option String) (body : Option FunctionBody) :
    entry name (body.map (FunctionBody.relocate f)) = relocate f (entry name body) := by
  cases name <;> cases body <;> rfl

theorem wordKey?_relocate (key : Node) : wordKey? (key.relocate f) = wordKey? key := by
  rw [wordKey?, wordKey?, form_relocate]

theorem boundName?_relocate (pattern : Node) :
    boundName? (pattern.relocate f) = boundName? pattern := by
  rw [boundName?, boundName?, form_relocate]

/-! ### Functions with a body -/

theorem entry_none (name : Option String) : entry name none = [] := by
  cases name <;> rfl

/-- A declared function is listed, and what its statements name. -/
theorem ofNode_declared {form : Form} (hform : form = .fnDecl ∨ form = .exportFn) (place : Place)
    (name fn : Node) :
    ofNode ⟨form, place, [name, fn]⟩
      = entry (binderName? name) (FunctionBody.ofFunction? fn) ++ ofNodes (statementsOf fn) := by
  -- no body: the match on the function falls through to the last case
  rcases FunctionBody.ofFunction?_cases fn with h | ⟨_, _, _, _, _, _, rfl⟩
  · rw [statementsOf, h, entry_none]
    rcases hform with rfl | rfl
    · unfold ofNode
      split
      case h_4 heq => cases heq; cases h
      case h_24 => rfl
      all_goals contradiction
    · unfold ofNode
      split
      case h_5 heq => cases heq; cases h
      case h_24 => rfl
      all_goals contradiction
  · rcases hform with rfl | rfl <;> rfl

/-- A method is listed if its name is a plain word. -/
theorem ofNode_method (place : Place) (key fn : Node) :
    ofNode ⟨.method, place, [key, fn]⟩
      = (wordKey? key).elim [] fun name =>
          entry (some name) (FunctionBody.ofFunction? fn) ++ ofNodes (statementsOf fn) := by
  obtain ⟨form, p, parts⟩ := key
  cases form
  case word name =>
    rcases FunctionBody.ofFunction?_cases fn with h | ⟨_, _, _, _, _, _, rfl⟩
    · rw [statementsOf, h]
      unfold ofNode
      split
      case h_9 heq => cases heq; cases h
      case h_24 => rfl
      all_goals contradiction
    · rfl
  all_goals rfl

/-- Of a function that is a value, only what its statements name is listed. -/
theorem ofNode_functionExpr (place : Place) (name fn : Node) :
    ofNode ⟨.functionExpr, place, [name, fn]⟩ = ofNodes (statementsOf fn) := by
  rcases FunctionBody.ofFunction?_cases fn with h | ⟨_, _, _, _, _, _, rfl⟩
  · rw [statementsOf, h]
    unfold ofNode
    split
    case h_20 heq => cases heq; cases h
    case h_24 => rfl
    all_goals contradiction
  · rfl

/-- A declaration or a method has two parts, and so has a function that is a value. -/
theorem ofNode_eq_nil {form : Form}
    (hform : form = .fnDecl ∨ form = .exportFn ∨ form = .method ∨ form = .functionExpr)
    {parts : List Node} (h : parts.length ≠ 2) (place : Place) :
    ofNode ⟨form, place, parts⟩ = [] := by
  match parts with
  | [] | [_] | _ :: _ :: _ :: _ =>
    rcases hform with rfl | rfl | rfl | rfl <;> simp [ofNode]

/-- A function with too few or too many parts gives the same entries, whatever its form. -/
theorem ofNode_relocate_of_length {form : Form}
    (hform : form = .fnDecl ∨ form = .exportFn ∨ form = .method ∨ form = .functionExpr)
    {parts : List Node} (h : parts.length ≠ 2) (place : Place) :
    ofNode (Node.relocate f ⟨form, place, parts⟩) = relocate f (ofNode ⟨form, place, parts⟩) := by
  rw [Node.relocate, ofNode_eq_nil hform h, ofNode_eq_nil hform (by rwa [length_relocates])]
  rfl

/-- The entries of several nodes move if those of each of them do. -/
theorem ofNodes_relocates {ns : List Node}
    (h : ∀ n ∈ ns, ofNode (n.relocate f) = relocate f (ofNode n)) :
    ofNodes (relocates f ns) = relocate f (ofNodes ns) := by
  induction ns with
  | nil => rfl
  | cons n ns ih =>
    rw [relocates, ofNodes, ofNodes, h n List.mem_cons_self,
      ih fun m hm => h m (List.mem_cons_of_mem n hm), relocate_append]

/-- **The entries of a node move with the node**, and with all functions inside. -/
theorem ofNode_relocate (n : Node) : ofNode (n.relocate f) = relocate f (ofNode n) := by
  induction n using induction_below with
  | step n ih =>
    obtain ⟨form, place, parts⟩ := n
    have hparts : ofNodes (relocates f parts) = relocate f (ofNodes parts) :=
      ofNodes_relocates fun m hm => ih m (mem_nodesOf_of_mem hm)
    -- What the statements of a function name that is a part follows the move.
    have hbody : ∀ fn ∈ parts,
        ofNodes (statementsOf (fn.relocate f)) = relocate f (ofNodes (statementsOf fn)) := by
      intro fn hfn
      rw [statementsOf_relocate]
      exact ofNodes_relocates fun m hm =>
        ih m (mem_nodesOf.mpr ⟨fn, hfn, mem_nodes_of_below (mem_nodesOf_of_mem_statementsOf hm)⟩)
    cases form
    -- These forms only hand on what one of their parts names.
    case declStmt | exportDecl | exportExpr | paren | asConst | nonNull | item | spread =>
      match parts with
      | [d] => exact ih d (first_mem_nodesOf d [])
      | [] | _ :: _ :: _ => rfl
    case asType | satisfies =>
      match parts with
      | [e, type] => exact ih e (first_mem_nodesOf e [type])
      | [] | [_] | _ :: _ :: _ :: _ => rfl
    case classDecl | exportClass =>
      match parts with
      | [name, cls] => exact ih cls (second_mem_nodesOf name cls [])
      | [] | [_] | _ :: _ :: _ :: _ => rfl
    case block | varDecl => exact hparts
    case fnDecl | exportFn =>
      match parts with
      | [name, fn] =>
        rw [Node.relocate, relocates, relocates, relocates, ofNode_declared (by decide),
          ofNode_declared (by decide), hbody fn (by simp), binderName?_relocate,
          FunctionBody.ofFunction?_relocate, entry_relocate, relocate_append]
      | [] | [_] | _ :: _ :: _ :: _ =>
        exact ofNode_relocate_of_length (by decide) (by simp) place
    case method =>
      match parts with
      | [key, fn] =>
        rw [Node.relocate, relocates, relocates, relocates, ofNode_method, ofNode_method,
          hbody fn (by simp), wordKey?_relocate, FunctionBody.ofFunction?_relocate]
        cases wordKey? key with
        | none => rfl
        | some name => rw [Option.elim, Option.elim, entry_relocate, relocate_append]
      | [] | [_] | _ :: _ :: _ :: _ =>
        exact ofNode_relocate_of_length (by decide) (by simp) place
    case functionExpr =>
      match parts with
      | [name, fn] =>
        rw [Node.relocate, relocates, relocates, relocates, ofNode_functionExpr,
          ofNode_functionExpr, hbody fn (by simp)]
      | [] | [_] | _ :: _ :: _ :: _ =>
        exact ofNode_relocate_of_length (by decide) (by simp) place
    case cls =>
      match parts with
      | [] => rfl
      | ⟨form, p, members⟩ :: rest =>
        exact ofNodes_relocates fun m hm => ih m (mem_nodesOf_of_mem_nodes
          (first_mem_nodesOf ⟨form, p, members⟩ rest) (mem_nodes_of_below (mem_nodesOf_of_mem hm)))
    case field =>
      match parts with
      | [key, value, _] =>
        change entry (wordKey? (key.relocate f)) (FunctionBody.ofExpr? (value.relocate f)) = _
        rw [wordKey?_relocate, FunctionBody.ofExpr?_relocate, entry_relocate]
        rfl
      | [] | [_] | [_, _] | _ :: _ :: _ :: _ :: _ => rfl
    case declarator =>
      match parts with
      | [pattern, value] =>
        change entry (boundName? (pattern.relocate f))
          (FunctionBody.ofInitializer? (value.relocate f)) ++ ofNode (value.relocate f) = _
        rw [boundName?_relocate, FunctionBody.ofInitializer?_relocate, entry_relocate,
          ih value (second_mem_nodesOf pattern value []), ← relocate_append]
        rfl
      | [] | [_] | _ :: _ :: _ :: _ => rfl
    case arrow =>
      match parts with
      | [] | [_] => rfl
      | params :: ⟨code, p, statements⟩ :: rest =>
        cases code
        case body =>
          exact ofNodes_relocates fun m hm => ih m (mem_nodesOf_of_mem_nodes
            (second_mem_nodesOf params ⟨.body, p, statements⟩ rest)
            (mem_nodes_of_below (mem_nodesOf_of_mem hm)))
        all_goals rfl
    case call =>
      match parts with
      | [callee, ⟨form, p, args⟩, types] =>
        exact ofNodes_relocates fun m hm => ih m (mem_nodesOf_of_mem_nodes
          (second_mem_nodesOf callee ⟨form, p, args⟩ [types])
          (mem_nodes_of_below (mem_nodesOf_of_mem hm)))
      | [] | [_] | [_, ⟨_, _, _⟩] | _ :: ⟨_, _, _⟩ :: _ :: _ :: _ => rfl
    all_goals rfl

/-- Hence the index of a module moves with the module. -/
theorem ofModule_relocate (m : Module) : ofModule (m.relocate f) = relocate f (ofModule m) :=
  ofNodes_relocates fun n _ => ofNode_relocate n

/-- What is found under a name moves with the index. -/
theorem get?_relocate (index : FunctionIndex) (name : String) :
    get? (relocate f index) name = (get? index name).map (FunctionBody.relocate f) := by
  rw [get?, get?, relocate, List.find?_map, Option.map_map, Option.map_map]
  rfl

/-- Whether there is something under a name does not depend on where it stands. -/
theorem contains_relocate (index : FunctionIndex) (name : String) :
    contains (relocate f index) name = contains index name := by
  rw [contains, contains, get?_relocate, Option.isSome_map]

end FunctionIndex

end JsxWidgets
