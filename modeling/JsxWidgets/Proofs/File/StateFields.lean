import Mathlib.Data.List.Forall2
import JsxWidgets.Dart.WidgetFile
import JsxWidgets.Proofs.Behaviour.StateEntries
import JsxWidgets.Proofs.Expression.Wrappers

/-!
# The fields of the state

The class that holds the state has one field for each entry that makes a state variable and that has
a name for a field (`stateFields_eq`). What the field starts with is decided by two facts about the
initial value: its snapshot and the name of its type. Neither of the two says whether the value is
written out in full. A snapshot that is a text may be a literal text or a summary, and the type of a
template is that of texts even if the template has substitutions.

So a field that starts with a value starts with a literal, unless the initial value is a template
with substitutions; such a field starts with the text of the template
(`stateFields_initialisedBy_iff`).
-/

namespace JsxWidgets

open Syntax Expression

namespace Expression

/-! ### Initial values -/

/-- **A template with substitutions**, perhaps in parentheses or with a type behind it. -/
def Interpolates (e : Node) : Prop :=
  ∃ quasis place hole holes, e.unwrap = ⟨.template quasis, place, hole :: holes⟩

theorem Interpolates.literal?_eq_none {e : Node} (h : Interpolates e) : literal? e = none := by
  obtain ⟨quasis, place, hole, holes, h⟩ := h
  rw [← literal?_unwrap, h]
  rfl

/-- A literal text and a template with substitutions are all that is neither written out in full nor
of another type than texts. -/
theorem kind_eq_string_iff {e : Node} (h : literal? e = none) :
    kind e = .string ↔ Interpolates e := by
  rw [← literal?_unwrap] at h
  constructor
  · intro hkind
    rw [kind] at hkind
    unfold Interpolates
    generalize e.unwrap = value at h hkind ⊢
    obtain ⟨form, place, parts⟩ := value
    split at hkind
    · next v hform =>
      -- A quoted text has a value.
      obtain rfl : form = .string v := hform
      rw [literal?] at h
      cases h
    · next quasis hform =>
      obtain rfl : form = .template quasis := hform
      cases parts with
      | nil =>
        rw [literal?] at h
        cases h
      | cons hole holes => exact ⟨quasis, place, hole, holes, rfl⟩
    · cases hkind
    · cases hkind
    · cases hkind
    · cases hkind
    · split at hkind <;> cases hkind
    all_goals cases hkind
  · rintro ⟨quasis, place, hole, holes, hunwrap⟩
    rw [kind, hunwrap]

theorem Kind.typeName_eq_string_iff (k : Kind) : k.typeName = "string" ↔ k = .string := by
  cases k <;> decide

end Expression

namespace Dart

/-! ### Fields that start with something -/

namespace Field

/-- A field as it is written, up to its name. -/
def head (f : Field) : String := "  " ++ f.typeCode ++ " " ++ f.name

/-- A field that is written with the given code as its initial value. -/
def StartsWith (f : Field) (code : String) : Prop := f.stateLine = f.head ++ " = " ++ code ++ ";"

/-- A field that is written without an initial value; at most a comment stands behind it. -/
def StartsUnset (f : Field) : Prop :=
  f.stateLine = f.head ++ ";" ∨ ∃ text, f.stateLine = f.head ++ "; // initial: " ++ text

/-- **A field that starts with a literal or with nothing**: it starts with the constant for the
given value if there is one, if it starts with anything, and it is left unset if there is none. -/
structure InitialisedBy (f : Field) (value : Option Literal) : Prop where
  /-- What it starts with is the constant for the value. -/
  literal : ∀ code, f.StartsWith code → ∃ v, value = some v ∧ code = v.dart
  /-- Without a value it is left unset. -/
  unset : value = none → f.StartsUnset

theorem stateLine_eq (f : Field) :
    f.stateLine = f.head ++ match f.initial with
      | .unknown => ";"
      | .value v => " = " ++ v.dart ++ ";"
      | .remark text => "; // initial: " ++ text := rfl

theorem append_right_injective (front : String) {s t : String} (h : front ++ s = front ++ t) :
    s = t := by
  have hchars := congrArg String.toList h
  rw [String.toList_append, String.toList_append] at hchars
  exact String.toList_injective (List.append_cancel_left hchars)

/-- A field starts with something if and only if it has an initial value. -/
theorem startsWith_iff {f : Field} {code : String} :
    f.StartsWith code ↔ ∃ v, f.initial = .value v ∧ code = v.dart := by
  rw [StartsWith, stateLine_eq, String.append_assoc, String.append_assoc]
  constructor
  -- behind the head a value starts with an equals sign, the others with a semicolon
  · intro h
    have hrest := congrArg String.toList (append_right_injective f.head h)
    cases hinitial : f.initial with
    | unknown =>
      rw [hinitial] at hrest
      simp at hrest
    | remark text =>
      rw [hinitial] at hrest
      simp at hrest
    | value v =>
      refine ⟨v, rfl, String.toList_injective ?_⟩
      rw [hinitial] at hrest
      simpa using hrest.symm
  · rintro ⟨v, hv, rfl⟩
    rw [hv]
    exact congrArg (f.head ++ ·) (String.append_assoc ..)

theorem startsUnset_of_initial {f : Field} (h : ∀ v, f.initial ≠ .value v) : f.StartsUnset := by
  rw [StartsUnset, stateLine_eq]
  cases hinitial : f.initial with
  | unknown => exact Or.inl rfl
  | remark text => exact Or.inr ⟨text, (String.append_assoc ..).symm⟩
  | value v => exact absurd hinitial (h v)

end Field

/-! ### From entries to fields -/

/-- The field for a state variable that is declared as given. -/
def fieldOfDeclaration (d : Declaration) : Field :=
  stateFieldOf (π := Unit)
    { name := d.name, initialValue := d.initialValue, inferredType := d.inferredType, setter := "",
      reads := [], updates := [], passed := [] }

/-- Nothing else about a state variable matters for its field. -/
theorem stateFieldOf_eq {π : Type} (v : StateVariable π) :
    stateFieldOf v = fieldOfDeclaration v.declaration := rfl

theorem name_fieldOfDeclaration (d : Declaration) : (fieldOfDeclaration d).name = d.name := by
  unfold fieldOfDeclaration stateFieldOf
  split
  · rfl
  · dsimp only
    split <;> rfl

/-- **The fields of the state** are those of the entries that have names for fields, in order. -/
theorem stateFields_eq (s : ComponentStructure) (m : Module) (locate : Locator) (t : LoweredTree)
    (config : Config) :
    (WidgetFile.ofAnalyses s (analyzeState m locate) t config).state.getD []
      = (m.stateEntries.filter fun entry => isIdentifier entry.1).map
          fun entry => fieldOfDeclaration (.ofEntry entry) := by
  have hstate : (WidgetFile.ofAnalyses s (analyzeState m locate) t config).state.getD []
      = ((analyzeState m locate).stateVariables.filter fun v => isIdentifier v.name).map
          stateFieldOf := by
    rw [WidgetFile.ofAnalyses]
    dsimp only
    split
    · rfl
    · next hnone =>
      -- Without state there are no variables, and no fields either.
      have hempty : (analyzeState m locate).stateVariables = [] := by
        simpa [StateAnalysis.hasState] using hnone
      rw [hempty]
      rfl
  -- The declarations of the variables that are kept are those of the entries that are kept.
  have hfilter (vs : List (StateVariable Location)) :
      (vs.filter fun v => isIdentifier v.name).map stateFieldOf
        = ((vs.map StateVariable.declaration).filter fun d => isIdentifier d.name).map
            fieldOfDeclaration := by
    rw [List.filter_map, List.map_map]
    rfl
  rw [hstate, hfilter, map_declaration_stateVariables, List.filter_map, List.map_map]
  rfl

/-! ### What the fields start with -/

/-- What the field for an initial value starts with: its value, if the name of the type is that of
the type of the value. -/
theorem initial_fieldOfDeclaration (name : String) (e : Node) (v : Literal) :
    (fieldOfDeclaration (.ofEntry (name, some e))).initial = .value v
      ↔ snapshot e = v ∧ v.hasType (kind e).typeName = true := by
  -- the entry with an expression makes the field in the one branch that asks for its type
  change (if (snapshot e).hasType (kind e).typeName = true then
    ({ name := name, type := TypeName.ofText (kind e).typeName, nullable := false,
       initial := .value (snapshot e) } : Field) else _).initial = _ ↔ _
  split
  · next h =>
    constructor
    · rintro ⟨⟩
      exact ⟨rfl, h⟩
    · rintro ⟨rfl, -⟩
      rfl
  · next h =>
    constructor
    · rintro ⟨⟩
    · rintro ⟨rfl, hv⟩
      exact absurd hv h

/-- **The field for an initial value** starts with a literal or with nothing, unless the value is a
template with substitutions. -/
theorem initialisedBy_fieldOfDeclaration_iff (name : String) (e : Node) :
    (fieldOfDeclaration (.ofEntry (name, some e))).InitialisedBy (literal? e) ↔
      ¬ Interpolates e := by
  cases hvalue : literal? e with
  | some v =>
    -- The snapshot is the value, and a template with substitutions has none.
    have hsnapshot : snapshot e = v := by rw [snapshot, hvalue, Option.getD_some]
    refine iff_of_true ⟨?_, fun h => by cases h⟩ fun h => ?_
    · intro code hcode
      obtain ⟨v', hv', rfl⟩ := Field.startsWith_iff.mp hcode
      rw [initial_fieldOfDeclaration, hsnapshot] at hv'
      exact ⟨v', congrArg some hv'.1, rfl⟩
    · rw [h.literal?_eq_none] at hvalue
      cases hvalue
  | none =>
    have hsnapshot : snapshot e = .text (summary e) := by rw [snapshot, hvalue, Option.getD_none]
    rw [← kind_eq_string_iff hvalue, ← Kind.typeName_eq_string_iff]
    constructor
    · intro h hstring
      have hinitial : (fieldOfDeclaration (.ofEntry (name, some e))).initial
          = .value (.text (summary e)) :=
        (initial_fieldOfDeclaration ..).mpr ⟨hsnapshot, decide_eq_true hstring⟩
      obtain ⟨v, hv, -⟩ := h.literal _ (Field.startsWith_iff.mpr ⟨_, hinitial, rfl⟩)
      cases hv
    · intro hstring
      have hinitial (v : Literal) :
          (fieldOfDeclaration (.ofEntry (name, some e))).initial ≠ .value v := by
        rw [ne_eq, initial_fieldOfDeclaration, hsnapshot]
        rintro ⟨rfl, htype⟩
        exact hstring (of_decide_eq_true htype)
      refine ⟨fun code hcode => ?_, fun _ => Field.startsUnset_of_initial hinitial⟩
      obtain ⟨v, hv, -⟩ := Field.startsWith_iff.mp hcode
      exact absurd hv (hinitial v)

/-- **State starts with literals or is left unset.** The fields of the state are those of the calls
of `useState` and of the keys of the state of a class, as far as their names can be those of fields.
The field for an initial value starts with the constant for its value if it starts with anything,
and is left unset if it has no value, exactly if it is no template with substitutions. -/
theorem stateFields_initialisedBy_iff (s : ComponentStructure) (m : Module) (locate : Locator)
    (t : LoweredTree) (config : Config) :
    List.Forall₂
      (fun entry field => field.name = entry.1 ∧
        ∀ e, entry.2 = some e → (field.InitialisedBy (literal? e) ↔ ¬ Interpolates e))
      (m.stateEntries.filter fun entry => isIdentifier entry.1)
      ((WidgetFile.ofAnalyses s (analyzeState m locate) t config).state.getD []) := by
  rw [stateFields_eq, List.forall₂_map_right_iff, List.forall₂_same]
  rintro ⟨name, value⟩ -
  refine ⟨name_fieldOfDeclaration _, ?_⟩
  rintro e rfl
  exact initialisedBy_fieldOfDeclaration_iff name e

/-- The module of ``const [x] = useState(`a${b}`)``. -/
def templateState : Module :=
  [⟨.declStmt, 0, [⟨.varDecl .const, 0, [⟨.declarator, 0,
    [⟨.arrayPat, 0, [.list [⟨.bind "x", 0, [.absent]⟩], .absent]⟩,
      ⟨.call, 0, [.leaf (.name "useState") 0,
        .list [⟨.item, 0, [⟨.template [⟨some "a", "a"⟩, ⟨some "", ""⟩], 0,
          [.leaf (.name "b") 0]⟩]⟩], .list []]⟩]⟩]⟩]⟩]

/-- A template with a substitution has no value, but the field starts with its text. -/
theorem stateFields_template :
    ∃ e, templateState.stateEntries = [("x", some e)] ∧ literal? e = none ∧
      ((WidgetFile.ofAnalyses default (analyzeState templateState (Location.ofPlace [])) default
          default).state.map fun fields => fields.map Field.stateLine) =
        some ["  String x = '`a\\$\x7bb\x7d`';"] :=
  ⟨_, rfl, rfl, by decide⟩

end Dart

end JsxWidgets
