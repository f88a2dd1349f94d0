import JsxWidgets.Proofs.Expression.LiteralTrees
import JsxWidgets.Proofs.File.NullSafety

/-!
# The types of literals

What an expression is worth and which type it shows are read off its form by two functions that know
nothing of each other. The field of a state variable needs both: it starts with the value only if
the name of the type is that of the type of the value.

The two agree on all literal trees but those with a sign in front. A number behind a minus sign has
a value, but by its form it is an operator with an operand, of which no type is known (`IsSigned`).
So a variable that starts with such a number gets a dynamic field that is left unset, and every
other variable with a value that is not null gets a field of the type of that value, which starts
with it (`literalTypes_iff`).
-/

namespace JsxWidgets

open Syntax Expression

namespace Literal

/-- The name of the type of a value. -/
def typeName : Literal → String
  | .null => "null"
  | .bool _ => "boolean"
  | .int _ | .real .. => "number"
  | .text _ => "string"
  | .array _ => "array"
  | .object _ => "object"

/-- Whether a value is a literal of the type with the given name. Null has a type of its own, which
no field is declared with. -/
def isLiteralOf (type : String) : Literal → Bool
  | .null => type = "null"
  | .bool _ => type = "boolean"
  | .int _ => type = "number"
  | .real .. => type = "number"
  | .text _ => type = "string"
  | .array _ => type = "array"
  | .object _ => type = "object"

theorem typeName_eq_null_iff {v : Literal} : v.typeName = "null" ↔ v = .null := by
  cases v <;> simp [typeName]

theorem isLiteralOf_iff {type : String} {v : Literal} :
    v.isLiteralOf type = true ↔ type = v.typeName := by
  cases v <;> exact decide_eq_true_iff

/-- A field can start with any literal of its type but null. -/
theorem hasType_eq (type : String) (v : Literal) :
    v.hasType type = (v.isLiteralOf type && decide (type ≠ "null")) := by
  cases v with
  | null => by_cases h : type = "null" <;> simp [hasType, isLiteralOf, h]
  | bool | int | real | text | array | object =>
    -- No other type is called like that of null.
    rw [isLiteralOf, hasType]
    by_cases h : type = "null"
    · subst h; decide
    · rw [decide_eq_true h, Bool.and_true]

/-- **A name that describes a value**: it is the name of the type of the value, so that the value
passes for a literal of that type. -/
structure DescribedBy (v : Literal) (type : String) : Prop where
  /-- The name is that of the type of the value. -/
  named : type = v.typeName
  /-- The value is a literal of the type with the name. -/
  isLiteral : v.isLiteralOf type = true

theorem describedBy_iff {type : String} {v : Literal} : v.DescribedBy type ↔ type = v.typeName :=
  ⟨DescribedBy.named, fun h => ⟨h, isLiteralOf_iff.mpr h⟩⟩

theorem hasType_iff {type : String} {v : Literal} (hv : v ≠ .null) :
    v.hasType type = true ↔ type = v.typeName := by
  rw [hasType_eq, Bool.and_eq_true, isLiteralOf_iff, decide_eq_true_iff]
  refine and_iff_left_of_imp fun h hnull => hv (typeName_eq_null_iff.mp ?_)
  rw [← h, hnull]

end Literal

namespace Expression

/-! ### Values and kinds -/

/-- **An expression with a minus sign in front**, perhaps in parentheses or with a type behind
it. -/
def IsSigned (e : Node) : Prop :=
  ∃ place operand, e.unwrap = ⟨.unary .minus, place, [operand]⟩

theorem NumberValue.typeName {negative : Bool} {m : ℕ} {k : ℤ} {v : Literal}
    (h : NumberValue negative m k v) : v.typeName = "number" := by
  cases h <;> rfl

/-- What is of another form has no sign in front. -/
theorem not_signed_of_form {n : Node} (h : n.form ≠ .unary .minus) :
    ¬∃ place operand, n = ⟨.unary .minus, place, [operand]⟩ := by
  rintro ⟨place, operand, rfl⟩
  exact h rfl

/-- **The type that a literal shows is that of its value**, unless a sign stands in front. -/
theorem typeName_kind_iff {e : Node} {v : Literal} (h : literal? e = some v) :
    (kind e).typeName = v.typeName ↔ ¬ IsSigned e := by
  rw [← literal?_unwrap] at h
  have hinside := Node.inside?_unwrap e
  rw [kind, IsSigned]
  generalize e.unwrap = value at h hinside ⊢
  -- A wrapper is what it denotes, but no wrapper is left.
  cases denotes_of_literal? h with
  | wrapped hwrapped => rw [hinside] at hwrapped; cases hwrapped
  | string hform | bool hform | null hform =>
    obtain ⟨form, place, parts⟩ := value
    subst hform
    exact iff_of_true rfl (not_signed_of_form (by rintro ⟨⟩))
  | number hnumber hvalue =>
    rw [hvalue.typeName]
    cases hnumber with
    | digits hform =>
      obtain ⟨form, place, parts⟩ := value
      subst hform
      exact iff_of_true rfl (not_signed_of_form (by rintro ⟨⟩))
    | minus =>
      have hunknown : "unknown" ≠ "number" := by decide
      exact iff_of_false hunknown (not_not_intro ⟨_, _, rfl⟩)
    | wrapped hwrapped => rw [hinside] at hwrapped; cases hwrapped
  | template | array | object =>
    exact iff_of_true rfl (not_signed_of_form (by rintro ⟨⟩))

/-- What has a sign in front and a value is a number, of which no type is known. -/
theorem IsSigned.kind_eq {e : Node} (h : IsSigned e) : kind e = .expression := by
  obtain ⟨place, operand, h⟩ := h
  rw [kind, h]

theorem IsSigned.typeName_eq {e : Node} {v : Literal} (hsign : IsSigned e)
    (h : literal? e = some v) : v.typeName = "number" := by
  obtain ⟨place, operand, hunwrap⟩ := hsign
  rw [← literal?_unwrap, hunwrap] at h
  cases denotes_of_literal? h with
  | wrapped hwrapped => cases hwrapped
  | string hform | bool hform | null hform => cases hform
  | number hnumber hvalue => exact hvalue.typeName

end Expression

namespace Dart

/-! ### Fields -/

/-- **A field that holds a literal**: it is declared with the type of the literal and starts with
it. -/
structure Field.Holds (f : Field) (v : Literal) : Prop where
  /-- It is declared with a type without a mark, which is that of the literal. -/
  type : ∃ type : TypeName, f.typeCode = type.code ∧ type.Suits v
  /-- It starts with the literal. -/
  start : f.StartsWith v.dart

theorem Field.holds_of_suits {name : String} {type : TypeName} {v : Literal} (h : type.Suits v) :
    Field.Holds ⟨name, type, false, .value v⟩ v :=
  ⟨⟨type, String.append_empty, h⟩, Field.startsWith_iff.mpr ⟨v, rfl, rfl⟩⟩

/-- A dynamic field that is left unset, with a remark on its initial value. -/
def Field.IsOpen (f : Field) (remark : String) : Prop :=
  f.stateLine = "  dynamic " ++ f.name ++ "; // initial: " ++ remark

section Entries

variable {e : Node} {v : Literal} (h : literal? e = some v) (name : String)
include h

/-- The field for an initial value that is a literal. -/
theorem fieldOfDeclaration_literal :
    fieldOfDeclaration (.ofEntry (name, some e)) =
      if v.hasType (kind e).typeName = true then
        ⟨name, TypeName.ofText (kind e).typeName, false, .value v⟩
      else
        ⟨name, TypeName.ofText (kind e).typeName, !(TypeName.ofText (kind e).typeName).allowsNull,
          .remark (remarkText v)⟩ := by
  have hsnapshot : snapshot e = v := by rw [snapshot, h, Option.getD_some]
  rw [← hsnapshot]
  rfl

/-- **The field for a literal holds it**, unless a sign stands in front. -/
theorem holds_fieldOfDeclaration_iff (hv : v ≠ .null) :
    (fieldOfDeclaration (.ofEntry (name, some e))).Holds v ↔ ¬ IsSigned e := by
  rw [← typeName_kind_iff h, ← Literal.hasType_iff hv, fieldOfDeclaration_literal h name]
  have hsuits := @TypeName.suits_ofText (kind e).typeName v
  generalize TypeName.ofText (kind e).typeName = type at hsuits ⊢
  split
  · next htype => exact iff_of_true (Field.holds_of_suits (hsuits htype)) htype
  · next htype =>
    refine iff_of_false (fun hholds => ?_) htype
    obtain ⟨w, hw, -⟩ := Field.startsWith_iff.mp hholds.start
    cases hw

/-- The field for a literal with a sign in front is left open. -/
theorem isOpen_fieldOfDeclaration (hsign : IsSigned e) :
    (fieldOfDeclaration (.ofEntry (name, some e))).IsOpen v.json := by
  have hnumber := hsign.typeName_eq h
  have hnot : ¬ v.hasType (kind e).typeName = true := by
    have hv : v ≠ .null := fun hnull => by simp [hnull, Literal.typeName] at hnumber
    rw [Literal.hasType_iff hv, typeName_kind_iff h]
    exact not_not_intro hsign
  have hremark : remarkText v = v.json := by
    cases v with
    | text => simp [Literal.typeName] at hnumber
    | null | bool | int | real | array | object => rfl
  have htype : TypeName.ofText Kind.expression.typeName = .dynamic := by decide
  rw [fieldOfDeclaration_literal h, if_neg hnot, hremark, hsign.kind_eq, htype]
  simp [Field.IsOpen, Field.stateLine, Field.typeCode, TypeName.code, TypeName.allowsNull,
    ← String.append_assoc]

end Entries

/-- **Inferred types describe literals.** The type that is inferred for an expression with a value
is that of the value, so that the value is a literal of it, exactly if no sign stands in front. And
so a state variable that can be a field, with an initial value that is a literal other than null,
becomes a field of the type of the literal that starts with it, exactly if no sign stands in front
of the literal. Otherwise the field is dynamic and left unset. -/
theorem literalTypes_iff (s : ComponentStructure) (m : Module) (locate : Locator) (t : LoweredTree)
    (config : Config) :
    (∀ e v, literal? e = some v → (v.DescribedBy (inferredType (some e)) ↔ ¬ IsSigned e)) ∧
      List.Forall₂
        (fun entry field => field.name = entry.1 ∧
          ∀ e v, entry.2 = some e → literal? e = some v → v ≠ .null →
            (field.Holds v ↔ ¬ IsSigned e) ∧ (IsSigned e → field.IsOpen v.json))
        (m.stateEntries.filter fun entry => isIdentifier entry.1)
        ((WidgetFile.ofAnalyses s (analyzeState m locate) t config).state.getD []) := by
  refine ⟨fun e v h => Literal.describedBy_iff.trans (typeName_kind_iff h), ?_⟩
  rw [stateFields_eq, List.forall₂_map_right_iff, List.forall₂_same]
  rintro ⟨name, value⟩ -
  refine ⟨name_fieldOfDeclaration _, ?_⟩
  rintro e v rfl h hv
  exact ⟨holds_fieldOfDeclaration_iff h name hv, isOpen_fieldOfDeclaration h name⟩

/-- The module of `const [n] = useState(-1)`. -/
def signedState : Module :=
  [⟨.declStmt, 0, [⟨.varDecl .const, 0, [⟨.declarator, 0,
    [⟨.arrayPat, 0, [.list [⟨.bind "n", 0, [.absent]⟩], .absent]⟩,
      ⟨.call, 0, [.leaf (.name "useState") 0,
        .list [⟨.item, 0, [⟨.unary .minus, 0, [.leaf (.number (.finite 1 0)) 0]⟩]⟩],
        .list []]⟩]⟩]⟩]⟩]

/-- Minus one is a number, but no type is inferred for it, and the field does not start with it. -/
theorem not_describedBy_minusOne :
    ∃ e, signedState.stateEntries = [("n", some e)] ∧ literal? e = some (.int (-1)) ∧
      inferredType (some e) = "unknown" ∧ (Literal.int (-1)).typeName = "number" ∧
      (Literal.int (-1)).isLiteralOf (inferredType (some e)) = false ∧
      ((WidgetFile.ofAnalyses default (analyzeState signedState (Location.ofPlace [])) default
          default).state.map fun fields => fields.map Field.stateLine) =
        some ["  dynamic n; // initial: -1"] :=
  ⟨_, rfl, rfl, rfl, rfl, rfl, by decide⟩

end Dart

end JsxWidgets
