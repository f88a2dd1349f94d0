import JsxWidgets.Syntax.Node

/-!
# Surveys

An analysis of a module goes through its nodes in order and writes down findings. Where the findings
depend on the node alone, `Node.nodes`, the list of all nodes, says all there is to say about the
order. Where they depend on the constructs around, or where some parts are passed over, a `Survey`
says what is found at a node and with which context its parts are entered.
-/

namespace JsxWidgets.Syntax

mutual

/-- A node and all nodes below it, in order, every node in front of its parts. -/
def Node.nodes : Node → List Node
  | ⟨form, place, parts⟩ => ⟨form, place, parts⟩ :: Node.nodesOf parts

/-- The nodes of several trees, in order. -/
def Node.nodesOf : List Node → List Node
  | [] => []
  | n :: ns => n.nodes ++ nodesOf ns

end

/-- The nodes of a module, in order. -/
def Module.nodes (m : Module) : List Node := Node.nodesOf m

/-- A walk through syntax trees that carries a context down and collects findings. -/
structure Survey (γ ε : Type) where
  /-- What is found at a node, before its parts are entered. -/
  note : γ → Node → List ε
  /-- The context of a part of a node, which is given by its number; without one the part is passed
  over. -/
  enter : γ → Node → Nat → Option γ

namespace Survey

variable {γ ε : Type}

mutual

/-- The findings in a tree. -/
def run (s : Survey γ ε) (c : γ) : Node → List ε
  | ⟨form, place, parts⟩ =>
    s.note c ⟨form, place, parts⟩ ++ s.runParts c ⟨form, place, parts⟩ 0 parts

/-- The findings in the parts of a node from the given number on. -/
def runParts (s : Survey γ ε) (c : γ) (whole : Node) (number : Nat) : List Node → List ε
  | [] => []
  | n :: ns =>
    (match s.enter c whole number with
      | some inner => s.run inner n
      | none => []) ++ s.runParts c whole (number + 1) ns

end

/-- The findings in several trees under one context. -/
def runAll (s : Survey γ ε) (c : γ) (nodes : List Node) : List ε := nodes.flatMap (s.run c)

end Survey

end JsxWidgets.Syntax
