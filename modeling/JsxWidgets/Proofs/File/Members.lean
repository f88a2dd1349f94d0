import JsxWidgets.Proofs.File.StateFields
import JsxWidgets.Proofs.Text.Order

/-!
# The members of the classes

A file declares members in three places: the parameters of the constructor, the fields of the widget
class, and the fields of the class that holds the state. What they are called comes from the text
that is read: a property is called as the component takes it or reads it, a state variable as its
entry says. No other name is made up, and names that no member can have in any language are left
out.

Three things are not looked at, and each of them makes a file that is no Dart. A name may be a
reserved word, since only its characters are looked at. A pattern may take one property twice under
different names; a class may read it as often as it likes, since its reads are collected without
repetition. And all state variables of a module become fields of one class, so two of them may meet
there. `membersLegal_iff` says that nothing else can go wrong.
-/

namespace JsxWidgets

open Syntax Expression

/-! ### The names of properties -/

namespace Syntax

/-- The name that a part of an object pattern takes a property by. -/
def takenName? (part : Node) : Option String :=
  match part with
  | ⟨.patName name, _, [_]⟩ => some name
  | ⟨.patKeyed, _, [key, _]⟩ => keyName? key
  | ⟨.rest, _, ⟨.bind name, _, _⟩ :: _⟩ => some name
  | _ => none

/-- The names that a parameter takes properties by. A plain name stands for all of them. -/
def takenNames : Node → List String
  | ⟨form, _, parts⟩ =>
    match form, parts with
    | .objectPat, ⟨_, _, patternParts⟩ :: _ => patternParts.filterMap takenName?
    | .bind name, _ => [name]
    | .defaultPat, [inner, _] => takenNames inner
    | _, _ => []

end Syntax

/-- The names that a node reads properties of the class around it by. -/
def Syntax.readNames (n : Node) : List String :=
  match n with
  | ⟨.member, _, [object, ⟨.word name, _, _⟩]⟩
  | ⟨.optMember, _, [object, ⟨.word name, _, _⟩]⟩ =>
    if path? object = some "this.props" then [name] else []
  | ⟨.declarator, _, [pattern, value]⟩ =>
    if path? value = some "this.props" then takenNames pattern else []
  | _ => []

/-- **The names that a component takes properties by**, each as often as it takes one by it. -/
def Component.propNames (c : Component) : List String :=
  match c.body, c.propsParameter? with
  | .classBody cls, _ => cls.nodes.flatMap readNames
  | .function ⟨_, _, _ :: _ :: _⟩, some parameter => takenNames parameter
  | .arrow ⟨_, _, _ :: _ :: _⟩, some parameter => takenNames parameter
  | _, _ => []

/-- Whether a component is a class. -/
def Component.IsClass (c : Component) : Prop := ∃ cls, c.body = .classBody cls

namespace PropRecord

/-! ### Patterns -/

section Patterns

variable {π : Type}

theorem map_name_ofPatternPart? (part : Node) :
    (ofPatternPart? (π := π) part).map (·.name) = takenName? part := by
  unfold ofPatternPart?
  split
  · rfl
  · rw [Option.map_map]
    exact Option.map_id'
  · rfl
  · rw [takenName?]
    · rfl
    all_goals assumption

theorem map_name_ofPattern (pattern : Node) :
    (ofPattern (π := π) pattern).map (·.name) = takenNames pattern := by
  fun_induction takenNames pattern with
  | case1 place _ _ parts rest =>
    rw [ofPattern, List.map_filterMap]
    exact List.filterMap_congr fun part _ => map_name_ofPatternPart? part
  | case2 place parts name => rfl
  | case3 place inner _ ih => rw [ofPattern, ih]
  | case4 form place parts hobject hbind hdefault =>
    rw [ofPattern]
    · rfl
    all_goals assumption

end Patterns

/-! ### What changes no name -/

section Changes

variable {π : Type}

theorem map_name_changeFirst (name : String) {change : PropRecord π → PropRecord π}
    (h : ∀ r, (change r).name = r.name) (records : List (PropRecord π)) :
    (changeFirst name change records).map (·.name) = records.map (·.name) := by
  induction records with
  | nil => rfl
  | cons r rest ih =>
    rw [changeFirst]
    split
    · rw [List.map_cons, List.map_cons, h]
    · rw [List.map_cons, List.map_cons, ih]

theorem map_name_applyRows (records : List (PropRecord π)) (rows : List TypeRow) :
    (applyRows records rows).map (·.name) = records.map (·.name) := by
  rw [applyRows]
  induction rows generalizing records with
  | nil => rfl
  | cons row rows ih =>
    rw [List.foldl_cons, ih, map_name_changeFirst]
    exact fun _ => rfl

theorem map_name_applyReferences (records : List (PropRecord Place))
    (refs : List (String × Place)) :
    (applyReferences records refs).map (·.name) = records.map (·.name) := by
  rw [applyReferences]
  induction refs generalizing records with
  | nil => rfl
  | cons ref refs ih =>
    rw [List.foldl_cons, ih, map_name_changeFirst]
    exact fun _ => rfl

/-- A function has the properties that its parameter takes. -/
theorem map_name_ofFunction (parameter body : Node) :
    (ofFunction parameter body).map (·.name) = takenNames parameter := by
  rw [ofFunction, map_name_applyReferences, map_name_applyRows, map_name_ofPattern]

end Changes

/-! ### Classes -/

/-- The names that a class reads properties by. -/
def ClassRead.names : ClassRead → List String
  | .single name _ => [name]
  | .pattern records => records.map (·.name)

theorem names_classRead? (n : Node) :
    (classRead? n).toList.flatMap ClassRead.names = readNames n := by
  unfold classRead?
  split
  · next object name _ _ =>
    by_cases h : path? object = some "this.props" <;> simp [h, readNames, ClassRead.names]
  · next object name _ _ =>
    by_cases h : path? object = some "this.props" <;> simp [h, readNames, ClassRead.names]
  · next pattern value =>
    by_cases h : path? value = some "this.props" <;>
      simp [h, readNames, ClassRead.names, map_name_ofPattern]
  · rw [readNames]
    · rfl
    all_goals assumption

/-- A property is added to the names that have been seen, unless its name is among them. -/
theorem map_name_addNew (records : List (PropRecord Place)) (r : PropRecord Place) :
    (addNew records r).map (·.name)
      = if (records.map (·.name)).contains r.name then records.map (·.name)
        else records.map (·.name) ++ [r.name] := by
  have hseen : records.any (fun r' => r'.name = r.name) =
      (records.map (·.name)).contains r.name := by
    rw [Bool.eq_iff_iff, List.any_eq_true, List.contains_iff_mem, List.mem_map]
    simp only [decide_eq_true_eq]
  rw [addNew, hseen]
  split
  · rfl
  · rw [List.map_append, List.map_singleton]

/-- What a class reads is added name by name. -/
theorem map_name_applyRead (records : List (PropRecord Place)) (read : ClassRead) :
    (applyRead records read).map (·.name)
      = read.names.foldl (fun seen x => if seen.contains x then seen else seen ++ [x])
          (records.map (·.name)) := by
  cases read with
  | single name place =>
    have huse (r : PropRecord Place) : (use place r).name = r.name := rfl
    rw [applyRead, map_name_changeFirst name huse, map_name_addNew]
    rfl
  | pattern found =>
    rw [applyRead, ClassRead.names]
    induction found generalizing records with
    | nil => rfl
    | cons r found ih => rw [List.foldl_cons, ih, map_name_addNew, List.map_cons, List.foldl_cons]

/-- **A class has each property once**, however often it reads it. -/
theorem map_name_ofClass (cls : Node) :
    (ofClass cls).map (·.name) = Text.firstOccurrences (cls.nodes.flatMap readNames) := by
  -- applying a read adds its names behind those already there, unless known
  have hreads (reads : List ClassRead) (records : List (PropRecord Place)) :
      (reads.foldl applyRead records).map (·.name)
        = (reads.flatMap ClassRead.names).foldl
            (fun seen x => if seen.contains x then seen else seen ++ [x])
            (records.map (·.name)) := by
    induction reads generalizing records with
    | nil => rfl
    | cons read reads ih =>
      rw [List.foldl_cons, ih, map_name_applyRead, List.flatMap_cons, List.foldl_append]
  have hnames : (cls.nodes.filterMap classRead?).flatMap ClassRead.names
      = cls.nodes.flatMap readNames := by
    rw [List.filterMap_eq_flatMap_toList, List.flatMap_assoc]
    exact List.flatMap_congr fun n _ => names_classRead? n
  rw [ofClass, hreads, hnames]
  rfl

/-! ### Components -/

/-- A class has the properties that it reads once each, and a function those that it takes. -/
theorem map_name_ofComponent (c : Component) :
    (¬ c.IsClass ∧ (ofComponent c).map (·.name) = c.propNames) ∨
      (c.IsClass ∧ (ofComponent c).map (·.name) = Text.firstOccurrences c.propNames) := by
  obtain ⟨name, kind, body⟩ := c
  cases body with
  | classBody cls => exact Or.inr ⟨⟨cls, rfl⟩, map_name_ofClass cls⟩
  | function fn | arrow fn =>
    refine Or.inl ⟨fun ⟨_, h⟩ => (nomatch h), ?_⟩
    -- A function needs a body behind its parameters for both to be looked at.
    obtain ⟨form, place, parts⟩ := fn
    match parts with
    | [] | [_] => rfl
    | ⟨_, _, []⟩ :: _ :: _ => rfl
    | ⟨_, _, parameter :: _⟩ :: body :: _ => exact map_name_ofFunction parameter body

end PropRecord

namespace Syntax.Module

/-- The names that the component of a module takes properties by. -/
def propNames (m : Module) : List String :=
  match m.component? with
  | some c => c.propNames
  | none => []

/-- Whether the component of a module is a class. -/
def IsClass (m : Module) : Prop := ∃ c, m.component? = some c ∧ c.IsClass

/-- The names of the state variables of a module. -/
def stateNames (m : Module) : List String := m.stateEntries.map (·.1)

end Syntax.Module

theorem map_name_analyzeProps (m : Module) :
    (¬ m.IsClass ∧ (analyzeProps m).map (·.name) = m.propNames) ∨
      (m.IsClass ∧ (analyzeProps m).map (·.name) = Text.firstOccurrences m.propNames) := by
  rw [analyzeProps, Module.propNames, Module.IsClass]
  cases m.component? with
  | none => exact Or.inl ⟨fun ⟨_, h, _⟩ => (nomatch h), rfl⟩
  | some c =>
    simp only [PropRecord.map_name_applyRows, Option.some.injEq, exists_eq_left']
    exact PropRecord.map_name_ofComponent c

/-- A component has the properties that it takes or reads. -/
theorem mem_map_name_analyzeProps {m : Module} {name : String} :
    name ∈ (analyzeProps m).map (·.name) ↔ name ∈ m.propNames := by
  rcases map_name_analyzeProps m with ⟨-, h⟩ | ⟨-, h⟩
  · rw [h]
  · rw [h, Text.mem_firstOccurrences]

/-- Only a function can have a property twice. -/
theorem nodup_map_name_analyzeProps_iff {m : Module} (p : String → Bool) :
    (((analyzeProps m).map (·.name)).filter p).Nodup ↔
      (¬ m.IsClass → (m.propNames.filter p).Nodup) := by
  rcases map_name_analyzeProps m with ⟨hfunction, h⟩ | ⟨hclass, h⟩
  · rw [h]
    exact ⟨fun hnodup _ => hnodup, fun hnodup => hnodup hfunction⟩
  · rw [h]
    exact iff_of_true ((Text.nodup_firstOccurrences _).filter p) fun hnot => absurd hclass hnot

namespace Dart

/-! ### Members of a file -/

/-- The words that cannot be names in Dart. -/
def reservedWords : List String :=
  ["assert", "break", "case", "catch", "class", "const", "continue", "default", "do", "else",
    "enum", "extends", "false", "final", "finally", "for", "if", "in", "is", "new", "null",
    "rethrow", "return", "super", "switch", "this", "throw", "true", "try", "var", "void", "while",
    "with"]

/-- Reserved words are made of the characters that names are made of. -/
theorem isIdentifier_of_mem_reservedWords {word : String} (h : word ∈ reservedWords) :
    isIdentifier word := by
  revert word
  decide

namespace WidgetFile

/-- The names of the parameters of the constructor. The first one hands the key on to the parent. -/
def parameterNames (f : WidgetFile) : List String := "key" :: f.parameters.map (·.name)

/-- The names of the fields of the widget class. -/
def fieldNames (f : WidgetFile) : List String := f.fields.map (·.name)

/-- The names of the fields of the class that holds the state. -/
def stateNames (f : WidgetFile) : List String := (f.state.getD []).map (·.name)

/-- **A file whose classes declare legal members**: in each place the names are distinct, and none
of them is a reserved word. -/
structure MembersLegal (f : WidgetFile) : Prop where
  /-- The parameters of the constructor are distinct. -/
  parameters : f.parameterNames.Nodup
  /-- The fields of the widget class are distinct. -/
  fields : f.fieldNames.Nodup
  /-- The fields of the class that holds the state are distinct. -/
  state : f.stateNames.Nodup
  /-- No name is a reserved word. -/
  unreserved : ∀ name ∈ f.parameterNames ++ f.fieldNames ++ f.stateNames, name ∉ reservedWords

end WidgetFile

/-- **A module whose names fit** into the classes of one file. -/
structure FitNames (m : Module) : Prop where
  /-- A function takes no property twice by one name. -/
  takenOnce : ¬ m.IsClass → (m.propNames.filter isIdentifier).Nodup
  /-- No property is called as the parameter that every widget has. -/
  takesNoKey : "key" ∉ m.propNames
  /-- No two state variables of the module have one name. -/
  keptOnce : (m.stateNames.filter isIdentifier).Nodup
  /-- No name is a reserved word. -/
  unreserved : ∀ name ∈ m.propNames ++ m.stateNames, name ∉ reservedWords

section Names

variable (s : ComponentStructure) (m : Module) (locate : Locator) (t : LoweredTree)
  (config : Config)

/-- The fields of a file are called as the analysis calls the properties, as far as fields can be
called so. -/
theorem fieldNames_ofAnalyses :
    (WidgetFile.ofAnalyses s (analyzeState m locate) t config).fieldNames
      = ((analyzeProps m).map (·.name)).filter isIdentifier := by
  have hprops : (analyzeState m locate).props = (analyzeProps m).map (·.map locate) := rfl
  rw [WidgetFile.fieldNames, WidgetFile.ofAnalyses, List.map_map, hprops, List.filter_map,
    List.filter_map, List.map_map]
  rfl

theorem parameterNames_ofAnalyses :
    (WidgetFile.ofAnalyses s (analyzeState m locate) t config).parameterNames
      = "key" :: (WidgetFile.ofAnalyses s (analyzeState m locate) t config).fieldNames := by
  rw [WidgetFile.parameterNames, WidgetFile.fieldNames, WidgetFile.ofAnalyses, List.map_map,
    List.map_map]
  rfl

theorem stateNames_ofAnalyses :
    (WidgetFile.ofAnalyses s (analyzeState m locate) t config).stateNames
      = m.stateNames.filter isIdentifier := by
  rw [WidgetFile.stateNames, stateFields_eq, List.map_map, Module.stateNames, List.filter_map]
  exact List.map_congr_left fun entry _ => name_fieldOfDeclaration _

/-- A reserved word among names is left among those that can be names of fields. -/
theorem forall_filter_unreserved_iff (names : List String) :
    (∀ name ∈ names.filter isIdentifier, name ∉ reservedWords) ↔
      ∀ name ∈ names, name ∉ reservedWords := by
  constructor
  · intro h name hname hreserved
    have hkept := List.mem_filter.mpr ⟨hname, isIdentifier_of_mem_reservedWords hreserved⟩
    exact h name hkept hreserved
  · intro h name hname
    exact h name (List.mem_of_mem_filter hname)

/-- **The members of the classes are legal** exactly if the names of the module fit. -/
theorem membersLegal_iff :
    (WidgetFile.ofAnalyses s (analyzeState m locate) t config).MembersLegal ↔ FitNames m := by
  have hkey : "key" ∈ ((analyzeProps m).map (·.name)).filter isIdentifier ↔
      "key" ∈ m.propNames := by
    rw [List.mem_filter, mem_map_name_analyzeProps]
    exact and_iff_left (by decide)
  -- The names of all members come from the two lists that the module gives.
  have hreserved : (∀ name ∈ ("key" :: ((analyzeProps m).map (·.name)).filter isIdentifier)
        ++ ((analyzeProps m).map (·.name)).filter isIdentifier ++ m.stateNames.filter isIdentifier,
        name ∉ reservedWords) ↔ ∀ name ∈ m.propNames ++ m.stateNames, name ∉ reservedWords := by
    simp only [List.forall_mem_append, List.forall_mem_cons, forall_filter_unreserved_iff,
      mem_map_name_analyzeProps]
    constructor
    · rintro ⟨⟨-, hprops⟩, hstate⟩
      exact ⟨hprops, hstate⟩
    · rintro ⟨hprops, hstate⟩
      exact ⟨⟨⟨by decide, hprops⟩, hprops⟩, hstate⟩
  constructor
  · rintro ⟨hparameters, hfields, hstate, hunreserved⟩
    rw [parameterNames_ofAnalyses, fieldNames_ofAnalyses] at hparameters
    rw [fieldNames_ofAnalyses] at hfields
    rw [stateNames_ofAnalyses] at hstate
    rw [parameterNames_ofAnalyses, fieldNames_ofAnalyses, stateNames_ofAnalyses] at hunreserved
    exact ⟨(nodup_map_name_analyzeProps_iff _).mp hfields,
      hkey.not.mp (List.nodup_cons.mp hparameters).1, hstate, hreserved.mp hunreserved⟩
  · rintro ⟨honce, hnoKey, hstate, hunreserved⟩
    have hfields := (nodup_map_name_analyzeProps_iff isIdentifier).mpr honce
    refine ⟨?_, ?_, ?_, ?_⟩
    · rw [parameterNames_ofAnalyses, fieldNames_ofAnalyses]
      exact List.nodup_cons.mpr ⟨hkey.not.mpr hnoKey, hfields⟩
    · rwa [fieldNames_ofAnalyses]
    · rwa [stateNames_ofAnalyses]
    · rw [parameterNames_ofAnalyses, fieldNames_ofAnalyses, stateNames_ofAnalyses]
      exact hreserved.mpr hunreserved

end Names

/-- The module of `const C = ({ class: k, a: x, a: y }) => <p></p>`. -/
def clashingProps : Module :=
  [⟨.declStmt, 0, [⟨.varDecl .const, 0, [⟨.declarator, 0, [⟨.bind "C", 0, [.absent]⟩,
    ⟨.arrow, 0, [.list [⟨.objectPat, 0,
        [.list [⟨.patKeyed, 0, [.leaf (.word "class") 0, ⟨.bind "k", 0, [.absent]⟩]⟩,
          ⟨.patKeyed, 0, [.leaf (.word "a") 0, ⟨.bind "x", 0, [.absent]⟩]⟩,
          ⟨.patKeyed, 0, [.leaf (.word "a") 0, ⟨.bind "y", 0, [.absent]⟩]⟩], .absent]⟩],
      ⟨.markup, 0, [⟨.element, 0, [⟨.opening (.simple "p"), 0, [.list [], .absent]⟩, .list [],
        .leaf (.closing (.simple "p")) 0]⟩]⟩, .list [], .absent]⟩]⟩]⟩]⟩]

/-- A property is declared by the name that it is taken by, even if that is a reserved word, and as
often as it is taken. -/
theorem not_membersLegal_clashingProps :
    (WidgetFile.ofAnalyses default (analyzeState clashingProps (Location.ofPlace [])) default
        default).parameterNames = ["key", "class", "a", "a"] ∧
    ¬ (WidgetFile.ofAnalyses default (analyzeState clashingProps (Location.ofPlace [])) default
        default).MembersLegal :=
  ⟨by decide, fun h => absurd h.parameters (by decide)⟩

end Dart

end JsxWidgets
