import JsxWidgets.Proofs.Behaviour.StateEntries
import JsxWidgets.Proofs.Syntax.Surveys

/-!
# Every read of a state variable is recorded once

A variable of a hook is read wherever its name stands as an expression or as a property on its own
(`Module.occurrences`). The walk asks at every expression whether it is the variable, apart from
parentheses and types, and then goes on into the expression. So it meets a name in parentheses once
more for each pair of them, and such a read has no place of its own.

The crux is `parted_reads`: the recorded reads are the occurrences, in order and each at its place,
and besides one read at no place for each expression that wraps the name. So every read is recorded
once exactly if the name is never wrapped (`readOnce_iff`).
-/

namespace JsxWidgets

open Syntax Expression

namespace Usage

/-! ### Where a variable is looked for -/

/-- The nodes that a variable is looked for at: all but the targets of assignments, which are no
expressions of their own. What stands within a target is looked at. -/
def standing : Survey Bool Node where
  note isTarget n := if isTarget && n.form.isExpr then [] else [n]
  enter _ n _ := some (n.form = .target)

/-- Whether a node is an occurrence of a name: an expression that is the name, or a property on its
own. -/
def isOccurrence (name : String) (n : Node) : Bool := n.form = .name name ∨ n.form = .shorthand name

/-- Whether a node wraps a name in parentheses, types or non-null marks. -/
def wraps (name : String) (n : Node) : Bool := n.unwrap.form = .name name ∧ n.form ≠ .name name

/-- Only expressions are looked through. -/
theorem isExpr_of_unwrap_eq_name {n : Node} {name : String} (h : n.unwrap.form = .name name) :
    n.form.isExpr = true := by
  revert h
  fun_cases Node.unwrap n with
  | case6 n => intro h; rw [h]; rfl
  | _ => intro _; rfl

theorem unwrap_of_form_eq_name {n : Node} {name : String} (h : n.form = .name name) :
    n.unwrap.form = .name name := by
  obtain ⟨form, place, parts⟩ := n
  subst h
  rw [Node.unwrap.eq_def]

/-! ### What is found -/

section

variable {α : Type} {f : Finding → List α}

/-- A finding that does not count is nothing, whether it is made or not. -/
theorem flatMap_ite_eq_nil {x : Finding} (hx : f x = []) (c : Prop) [Decidable c] :
    (if c then [x] else []).flatMap f = [] := by
  split
  · rw [List.flatMap_singleton, hx]
  · rfl

/-- Attributes count only where something handed on counts; the expressions in them are found on
their own. -/
theorem flatMap_passing_eq_nil (hf : ∀ p, f (.passed p) = []) (s : Subject) (tag : TagName)
    (attributes : List Node) : (attributes.filterMap (passing? s tag)).flatMap f = [] := by
  rw [List.flatMap_eq_nil_iff]
  intro finding hmem
  obtain ⟨attr, -, hpassing⟩ := List.mem_filterMap.mp hmem
  unfold passing? at hpassing
  split at hpassing
  · split at hpassing
    · cases hpassing
      exact hf _
    · cases hpassing
  · cases hpassing

end

/-- The place of a read. -/
def readPlaces : Finding → List Place
  | .read r => [r.location]
  | _ => []

/-- The places of the reads found at a node that is looked at. -/
def placesAt (name : String) (n : Node) : List Place :=
  (if isOccurrence name n then [n.place] else []) ++ if wraps name n then [0] else []

theorem isNamedBy_hook (name setter : String) (e : Node) :
    (Subject.hook name setter).isNamedBy e = decide (e.unwrap.form = .name name) := by
  rw [Subject.isNamedBy.eq_def]
  split
  next t h => simp_all
  next => simp_all
  next hname _ =>
    have hne : e.unwrap.form ≠ .name name := fun h => hname name setter name rfl h
    simp [hne]

/-- A member is never a variable of a hook, so all parts of all nodes are entered. -/
theorem enter_hook (name setter : String) (around : Around) (n : Node) (number : Nat) :
    ∃ inner, enter (.hook name setter) around n number = some inner
      ∧ inner.isTarget = decide (n.form = .target) := by
  -- only a class variable closes members, and a hook is named by an identifier
  have hmember : ¬ (n.form = .member ∧ (Subject.hook name setter).isNamedBy n) := by
    rintro ⟨hform, hnamed⟩
    obtain ⟨form, place, parts⟩ := n
    subst hform
    rw [isNamedBy_hook, Node.unwrap.eq_def] at hnamed
    exact absurd hnamed (by simp)
  rw [enter]
  by_cases htarget : n.form = .target
  · rw [if_pos htarget]
    exact ⟨_, rfl, by simp [htarget]⟩
  · rw [if_neg htarget, if_neg hmember]
    split
    · exact ⟨_, rfl, by simp [htarget]⟩
    · split
      all_goals exact ⟨_, rfl, by simp [htarget]⟩

/-- A name in parentheses has no place of its own. -/
theorem readPlace_of_wraps {name : String} {e : Node} (hunwrap : e.unwrap.form = .name name)
    (hname : e.form ≠ .name name) : readPlace e = 0 := by
  revert hunwrap hname
  fun_cases Node.unwrap e with
  | case6 e => exact fun hunwrap hname => absurd hunwrap hname
  | _ => exact fun _ _ => rfl

/-- What is found at an expression: one read if it is the name, and one at no place if it wraps the
name. -/
theorem flatMap_readPlaces_expression (name setter : String) (around : Around) {e : Node}
    (he : e.form.isExpr = true) :
    (expressionFindings (.hook name setter) around e).flatMap readPlaces = placesAt name e := by
  have hproperty : e.form ≠ .shorthand name := by
    intro h
    rw [h] at he
    cases he
  rw [expressionFindings, List.flatMap_append, flatMap_ite_eq_nil (x := .update e.place) rfl,
    List.append_nil, isNamedBy_hook, placesAt]
  by_cases hname : e.form = .name name
  · have hunwrap := unwrap_of_form_eq_name hname
    simp [readPlaces, isOccurrence, wraps, readPlace, hname, hunwrap]
  · by_cases hunwrap : e.unwrap.form = .name name
    · simp [readPlaces, isOccurrence, wraps, readPlace_of_wraps hunwrap hname, hname, hunwrap,
        hproperty]
    · simp [isOccurrence, wraps, hname, hunwrap, hproperty]

/-- What is found at a node that is no expression: a read if it is a property on its own. -/
theorem flatMap_readPlaces_other (name setter : String) (around : Around) {n : Node}
    (hn : n.form.isExpr = false) :
    (note (.hook name setter) around n).flatMap readPlaces = placesAt name n := by
  have hname : n.form ≠ .name name := by
    intro h
    rw [h] at hn
    cases hn
  -- what stands around a name as a wrapper is an expression
  have hwraps : wraps name n = false := by
    rw [wraps, decide_eq_false_iff_not]
    rintro ⟨hunwrap, -⟩
    rw [isExpr_of_unwrap_eq_name hunwrap] at hn
    cases hn
  rw [note.eq_def, hn, placesAt, hwraps, isOccurrence]
  simp only [Bool.false_eq_true, if_false, List.append_nil, hname, false_or]
  -- of the other nodes only a shorthand property and a target of the name are occurrences
  split
  next t hsubject hform =>
    cases hsubject
    by_cases ht : t = name <;> simp [hform, ht, readPlaces]
  next tag hform =>
    rw [flatMap_passing_eq_nil fun _ => rfl]
    simp [hform]
  next hform => simp [hform, Subject.isTakenBy]
  next _ _ hshorthand =>
    have hne : n.form ≠ .shorthand name := fun h => hshorthand name setter name rfl h
    simp [hne]

/-- What is found at a node does not depend on what is around, apart from targets. -/
theorem flatMap_readPlaces_note (name setter : String) (around : Around) (n : Node) :
    (note (.hook name setter) around n).flatMap readPlaces
      = (standing.note around.isTarget n).flatMap (placesAt name) := by
  change _ = (if around.isTarget && n.form.isExpr then [] else [n]).flatMap (placesAt name)
  cases hexpr : n.form.isExpr with
  | false =>
    rw [Bool.and_false, if_neg Bool.false_ne_true, List.flatMap_singleton]
    exact flatMap_readPlaces_other name setter around hexpr
  | true =>
    rw [Bool.and_true, note.eq_def, if_pos hexpr]
    split
    · rfl
    · rw [List.flatMap_singleton]
      exact flatMap_readPlaces_expression name setter around hexpr

/-- What is found of a variable is read off the nodes that are looked at, in order. -/
theorem flatMap_readPlaces_findings (name setter : String) (m : Module) :
    (findings (.hook name setter) m).flatMap readPlaces
      = (standing.runAll false m).flatMap (placesAt name) := by
  have halike : Survey.Alike (survey (.hook name setter)) standing readPlaces (placesAt name)
      fun around isTarget => around.isTarget = isTarget := by
    refine ⟨?_, ?_⟩
    · rintro around isTarget rfl n
      exact flatMap_readPlaces_note name setter around n
    · rintro around isTarget rfl n number
      obtain ⟨inner, henter, hinner⟩ := enter_hook name setter around n number
      change Option.Rel _ (enter (.hook name setter) around n number) _
      rw [henter]
      exact Option.Rel.some hinner
  exact halike.runAll rfl m

theorem map_location_reads (fs : List Finding) :
    (reads fs).map (·.location) = fs.flatMap readPlaces := by
  rw [reads, List.map_filterMap, List.filterMap_eq_flatMap_toList]
  refine List.flatMap_congr fun f _ => ?_
  cases f <;> rfl

end Usage

/-! ### The reads of a variable -/

/-- The nodes of a module that a variable is looked for at. -/
def Syntax.Module.standing (m : Module) : List Node := Usage.standing.runAll false m

/-- **The occurrences of a name**: the expressions and the properties on their own that are it. -/
def Syntax.Module.occurrences (m : Module) (name : String) : List Node :=
  m.standing.filter (Usage.isOccurrence name)

/-- The expressions that wrap a name. -/
def Syntax.Module.wrappings (m : Module) (name : String) : List Node :=
  m.standing.filter (Usage.wraps name)

/-- **What is recorded of the reads of a name**: its occurrences, in order and at their places, and
besides a read at no place for each expression that wraps it. -/
theorem parted_reads (m : Module) (h : StateHook Place) :
    Parted ((StateVariable.ofHook m h).reads.map (·.location))
      ((m.occurrences h.variableName).map (·.place))
      ((m.wrappings h.variableName).map fun _ => 0) := by
  -- the two lists are gathered node by node, like the reads
  have hfilter : ∀ (p : Node → Bool) (place : Node → Place),
      (m.standing.filter p).map place
        = m.standing.flatMap fun n => if p n then [place n] else [] := by
    intro p place
    induction m.standing with
    | nil => rfl
    | cons n ns ih => cases hp : p n <;> simp [hp, ih]
  have hreads : (StateVariable.ofHook m h).reads.map (·.location)
      = m.standing.flatMap (Usage.placesAt h.variableName) :=
    (Usage.map_location_reads _).trans
      (Usage.flatMap_readPlaces_findings h.variableName h.setter m)
  rw [hreads, Module.occurrences, Module.wrappings, hfilter, hfilter]
  -- at one node the reads are its occurrence, then what a wrapper repeats
  refine Parted.flatMap fun n _ => ?_
  have hself := Parted.keep (if Usage.isOccurrence h.variableName n then [n.place] else [])
  have hwraps := Parted.leave (if Usage.wraps h.variableName n then [0] else [] : List Place)
  simpa [Usage.placesAt] using hself.append hwraps

/-- The variables of the hooks of a module, which come first. -/
def hookVariables (m : Module) (locate : Locator) : List (StateVariable Location) :=
  (analyzeState m locate).stateVariables.take m.stateCalls.length

/-- The variables of a module are those of its hooks and then those of its class. -/
theorem stateVariables_eq (m : Module) (locate : Locator) :
    (analyzeState m locate).stateVariables
      = ((m.stateCalls.map Hook.stateHook).map (StateVariable.ofHook m)).map (·.map locate)
        ++ (StateVariable.ofClassComponent m).map (·.map locate) := by
  rw [← filterMap_state?_analyzeHooks, ← List.map_append]
  rfl

theorem hookVariables_eq (m : Module) (locate : Locator) :
    hookVariables m locate
      = (m.stateCalls.map Hook.stateHook).map fun h => (StateVariable.ofHook m h).map locate := by
  rw [hookVariables, stateVariables_eq, List.take_left' (by simp), List.map_map]
  rfl

/-- **Every read of a variable is recorded once**: there is one record for each occurrence of the
name, at its place, and there are no others. -/
def StateVariable.ReadOnce (m : Module) (locate : Locator) (v : StateVariable Location) : Prop :=
  (v.reads.map (·.location)).Perm ((m.occurrences v.name).map fun n => locate n.place)

instance (m : Module) (locate : Locator) (v : StateVariable Location) :
    Decidable (v.ReadOnce m locate) :=
  inferInstanceAs (Decidable (List.Perm _ _))

/-- **The reads of a variable of a hook are recorded once each if and only if its name is nowhere
wrapped** in parentheses, types or non-null marks. -/
theorem readOnce_iff (m : Module) (locate : Locator) :
    ∀ v ∈ hookVariables m locate, v.ReadOnce m locate ↔ m.wrappings v.name = [] := by
  rw [hookVariables_eq]
  intro v hv
  obtain ⟨h, -, rfl⟩ := List.mem_map.mp hv
  have hparted := parted_reads m h
  have hlocations : ((StateVariable.ofHook m h).map locate).reads.map (·.location)
      = ((StateVariable.ofHook m h).reads.map (·.location)).map locate := by
    rw [StateVariable.map, List.map_map, List.map_map]
    rfl
  have hplaces : (m.occurrences h.variableName).map (fun n => locate n.place)
      = ((m.occurrences h.variableName).map (·.place)).map locate := by
    rw [List.map_map]
    rfl
  change List.Perm _ ((m.occurrences h.variableName).map _) ↔ m.wrappings h.variableName = []
  rw [hlocations, hplaces]
  constructor
  · intro hperm
    -- A wrapped name has one read more than it has occurrences.
    have hlength := hperm.length_eq
    have hcount := hparted.length_eq
    simp only [List.length_map] at hlength hcount
    exact List.eq_nil_of_length_eq_zero (by omega)
  · intro hnone
    have hleft : (m.wrappings h.variableName).map (fun _ => (0 : Place)) = [] := by
      rw [hnone, List.map_nil]
    rw [hparted.kept_eq_iff.mpr hleft]

/-- The module of `const [x] = useState(); f(e)`. -/
def callWith (e : Node) : Module :=
  [⟨.declStmt, 1, [⟨.varDecl .const, 1, [⟨.declarator, 7,
    [⟨.arrayPat, 7, [.list [⟨.bind "x", 8, [.absent]⟩], .absent]⟩,
      ⟨.call, 13, [.leaf (.name "useState") 13, .list [], .list []]⟩]⟩]⟩]⟩,
    ⟨.exprStmt, 25, [⟨.call, 25, [.leaf (.name "f") 25, .list [⟨.item, 27, [e]⟩], .list []]⟩]⟩]

/-- The module of `const [x] = useState(); f({ x })`. -/
def plainRead : Module := callWith ⟨.object, 27, [.leaf (.shorthand "x") 29]⟩

/-- A property on its own is a read, at its place. -/
theorem readOnce_plainRead :
    (hookVariables plainRead Location.ofPlaceOnly).map (fun v => v.reads.map (·.location))
      = [[⟨0, 0, 29⟩]] ∧
    ∀ v ∈ hookVariables plainRead Location.ofPlaceOnly,
      v.ReadOnce plainRead Location.ofPlaceOnly := by
  have hnone : ∀ v ∈ hookVariables plainRead Location.ofPlaceOnly,
      (plainRead.wrappings v.name).isEmpty = true := by decide
  refine ⟨by decide, fun v hv => ?_⟩
  exact (readOnce_iff plainRead Location.ofPlaceOnly v hv).mpr (List.isEmpty_iff.mp (hnone v hv))

/-- The module of `const [x] = useState(); f((x))`. -/
def wrappedRead : Module := callWith ⟨.paren, 27, [.leaf (.name "x") 28]⟩

/-- A name in parentheses is read twice, once at no place. -/
theorem not_readOnce_wrappedRead :
    (hookVariables wrappedRead Location.ofPlaceOnly).map (fun v => v.reads.map (·.location))
      = [[⟨0, 0, 0⟩, ⟨0, 0, 28⟩]] ∧
    (wrappedRead.occurrences "x").map (·.place) = [28] ∧
    ¬ ∀ v ∈ hookVariables wrappedRead Location.ofPlaceOnly,
      v.ReadOnce wrappedRead Location.ofPlaceOnly :=
  ⟨by decide, by decide, by decide⟩

end JsxWidgets
