import JsxWidgets.Hook.Calls
import JsxWidgets.Proofs.Syntax.Surveys
import JsxWidgets.Structure

/-!
# What the census looks at

The census carries along what surrounds a node. Which hooks, tags and attributes it writes down does
not depend on that: they are read off the nodes in its scope (`Module.surveyed`), one by one. Other
analyses go through all nodes of a module. The difference are the nodes that belong to an import or
to a list of exports, the attributes of other modules (`Module.linked`).
-/

namespace JsxWidgets

open Syntax Expression

/-! ### The scope -/

/-- The walk of the census, apart from what surrounds a node. -/
def Census.scope : Survey Unit Node where
  note _ n := [n]
  enter _ whole _ := if isListing whole.form then none else some ()

/-- The nodes that the census looks at. -/
def Syntax.Module.surveyed (m : Module) : List Node := Census.scope.runAll () m

/-- The nodes that the census passes over: those in the attributes of imports and exports. -/
def Syntax.Module.linked (m : Module) : List Node := Census.scope.missed.runAll (some ()) m

theorem Syntax.Module.parted_surveyed (m : Module) : Parted m.nodes m.surveyed m.linked :=
  Census.scope.parted_runAll () m

/-! ### What is read off a node -/

/-- The name of the attribute that a node is. -/
def attributeName? (n : Node) : Option String :=
  match n.form with
  | .attr name => some name.text
  | _ => none

/-- Whether a node is an attribute that holds class names. -/
def Syntax.Node.holdsClasses (n : Node) : Bool := (attributeName? n).any isClassAttribute

/-- The class names that the census writes down at a node. -/
def Syntax.Node.countedClasses (n : Node) : List String :=
  if n.holdsClasses then n.attributeValue.classTokens else []

theorem attributeName?_of_form {n : Node} (h : ∀ name, n.form ≠ .attr name) :
    attributeName? n = none := by
  unfold attributeName?
  split
  next name hform => exact absurd hform (h name)
  next => rfl

theorem countedClasses_of_form {n : Node} (h : ∀ name, n.form ≠ .attr name) :
    n.countedClasses = [] := by
  rw [Node.countedClasses, Node.holdsClasses, attributeName?_of_form h]
  rfl

theorem tag?_of_form_ne {n : Node} (h : n.form ≠ .element) : n.tag? = none := by
  obtain ⟨form, place, parts⟩ := n
  cases form <;> first | rfl | exact absurd rfl h

theorem hookName?_of_form_ne {n : Node} (h : n.form ≠ .call) : HookCall.hookName? n = none := by
  obtain ⟨form, place, parts⟩ := n
  cases form <;> first | rfl | exact absurd rfl h

namespace Census

variable {config : Config}

/-- Whether a fact is about something imported, exported or shown. -/
def Fact.isOther : Fact → Bool
  | .imported _ | .exported _ | .sample _ => true
  | _ => false

/-- **The facts at a node**, by kind. -/
theorem facts_eq (config : Config) (around : Surroundings) (n : Node) :
    ∃ others, facts config around n
        = (HookCall.hookName? n).toList.map .hook
          ++ (n.tag?.toList.map (.element · (around.depth + 1))
          ++ (n.countedClasses.map .className
          ++ ((attributeName? n).toList.map
              (fun name => .attribute ⟨around.owner, name, n.attributeValue.kind⟩)
          ++ others)))
      ∧ ∀ f ∈ others, f.isOther = true := by
  have hhook : n.form ≠ .call → HookCall.hookName? n = none := hookName?_of_form_ne
  have htag : n.form ≠ .element → n.tag? = none := tag?_of_form_ne
  have hname := attributeName?_of_form (n := n)
  have hclasses := countedClasses_of_form (n := n)
  rw [facts]
  -- Calls, elements and attributes say one thing each, all other nodes say nothing of the three.
  split
  next h =>
    rw [hhook (by simp [h]), htag (by simp [h]), hname (by simp [h]), hclasses (by simp [h])]
    exact ⟨_, rfl, by simp [Fact.isOther]⟩
  next h =>
    rw [htag (by simp [h]), hname (by simp [h]), hclasses (by simp [h]), HookCall.hookName?]
    refine ⟨[], ?_, by simp⟩
    cases calleeName? n with
    | none => rfl
    | some name => by_cases hhook : Naming.isHook name <;> simp [Option.filter, hhook]
  next h =>
    rw [hhook (by simp [h]), hname (by simp [h]), hclasses (by simp [h])]
    refine ⟨[], ?_, by simp⟩
    cases n.tag? <;> rfl
  next name h =>
    rw [hhook (by simp [h]), htag (by simp [h]), Node.countedClasses, Node.holdsClasses,
      attributeName?, h, attributeFacts]
    refine ⟨[], ?_, by simp⟩
    by_cases hclass : isClassAttribute name.text <;> simp [hclass]
  next value h =>
    rw [hhook (by simp [h]), htag (by simp [h]), hname (by simp [h]), hclasses (by simp [h])]
    by_cases hsample : (Text.normalize value).isEmpty = true
    · exact ⟨[], if_pos hsample, by simp⟩
    · exact ⟨[.sample (Text.normalize value)], if_neg hsample, by simp [Fact.isOther]⟩
  next hcall helement hattr _ =>
    rw [hhook hcall, htag helement, hname hattr, hclasses hattr]
    exact ⟨_, rfl, by simp [Fact.isOther]⟩

section Readings

variable {η : Type}

/-- What is read off the facts at a node, if nothing is read off other facts. -/
theorem filterMap_facts {f : Fact → Option η} (hf : ∀ x, x.isOther = true → f x = none)
    (around : Surroundings) (n : Node) :
    (facts config around n).filterMap f
      = (HookCall.hookName? n).toList.filterMap (fun name => f (.hook name))
        ++ (n.tag?.toList.filterMap (fun tag => f (.element tag (around.depth + 1)))
        ++ (n.countedClasses.filterMap (fun token => f (.className token))
        ++ (attributeName? n).toList.filterMap
            fun name => f (.attribute ⟨around.owner, name, n.attributeValue.kind⟩))) := by
  obtain ⟨others, heq, hothers⟩ := facts_eq config around n
  have hnone : others.filterMap f = [] :=
    List.filterMap_eq_nil_iff.mpr fun x hx => hf x (hothers x hx)
  rw [heq]
  simp only [List.filterMap_append, List.filterMap_map, hnone, List.append_nil]
  rfl

variable (around : Surroundings) (n : Node)

theorem hooks_facts : hooks (facts config around n) = (HookCall.hookName? n).toList := by
  rw [hooks, filterMap_facts fun x hx => by cases x <;> first | rfl | cases hx]
  simp

theorem tags_facts : tags (facts config around n) = n.tag?.toList := by
  rw [tags, filterMap_facts fun x hx => by cases x <;> first | rfl | cases hx]
  simp

theorem depths_facts :
    depths (facts config around n) = (n.tag?.map fun _ => around.depth + 1).toList := by
  rw [depths, filterMap_facts fun x hx => by cases x <;> first | rfl | cases hx]
  cases n.tag? <;> simp

theorem classTokens_facts : classTokens (facts config around n) = n.countedClasses := by
  rw [classTokens, filterMap_facts fun x hx => by cases x <;> first | rfl | cases hx]
  simp

theorem observations_facts : observations (facts config around n)
    = (attributeName? n).toList.map fun name => ⟨around.owner, name, n.attributeValue.kind⟩ := by
  rw [observations, filterMap_facts fun x hx => by cases x <;> first | rfl | cases hx]
  simp

end Readings

/-- What is read off the facts at each node is read off the nodes in the scope of the census, in
order. -/
theorem flatMap_ofModule {η : Type} {f : Fact → List η} {g : Node → List η}
    (hfacts : ∀ around n, (facts config around n).flatMap f = g n) (m : Module) :
    (ofModule config m).flatMap f = m.surveyed.flatMap g := by
  have halike : Survey.Alike (survey config) scope f g fun _ _ => True := by
    refine ⟨fun {around _} _ n => ?_, fun {around _} _ n number => ?_⟩
    · change (facts config around n).flatMap _ = [n].flatMap _
      rw [List.flatMap_singleton]
      exact hfacts around n
    · change Option.Rel _ (if isListing n.form then none else some (around.inside n))
        (if isListing n.form then none else some ())
      split
      · exact Option.Rel.none
      · exact Option.Rel.some trivial
  exact halike.runAll trivial m

/-- The facts of one kind, of which there is at most one at a node. -/
theorem filterMap_ofModule {η : Type} {f : Fact → Option η} {g : Node → Option η}
    (hfacts : ∀ around n, (facts config around n).filterMap f = (g n).toList) (m : Module) :
    (ofModule config m).filterMap f = m.surveyed.filterMap g := by
  rw [List.filterMap_eq_flatMap_toList, List.filterMap_eq_flatMap_toList]
  refine flatMap_ofModule (fun around n => ?_) m
  rw [← List.filterMap_eq_flatMap_toList]
  exact hfacts around n

theorem hooks_ofModule (m : Module) :
    hooks (ofModule config m) = m.surveyed.filterMap HookCall.hookName? :=
  filterMap_ofModule hooks_facts m

theorem tags_ofModule (m : Module) :
    tags (ofModule config m) = m.surveyed.filterMap Node.tag? :=
  filterMap_ofModule tags_facts m

theorem classTokens_ofModule (m : Module) :
    classTokens (ofModule config m) = m.surveyed.flatMap Node.countedClasses := by
  rw [classTokens, List.filterMap_eq_flatMap_toList]
  refine flatMap_ofModule (fun around n => ?_) m
  rw [← List.filterMap_eq_flatMap_toList]
  exact classTokens_facts around n

theorem names_observations_ofModule (m : Module) :
    (observations (ofModule config m)).map (·.name) = m.surveyed.filterMap attributeName? := by
  rw [observations, List.map_filterMap]
  refine filterMap_ofModule (fun around n => ?_) m
  rw [← List.map_filterMap, ← observations, observations_facts, List.map_map]
  exact List.map_id _

end Census

end JsxWidgets
