import JsxWidgets.Props.Analysis
import JsxWidgets.Proofs.Places.Components

/-!
# The properties of a moved module

Stated types have no places. The properties themselves are found by their names, and of a place they
keep no more than a copy for each use.
-/

namespace JsxWidgets

open Syntax Syntax.Node Expression

variable {f : Place → Place}

/-! ### Stated types -/

mutual

/-- The text of a type does not tell where the type stands. -/
theorem typeText_relocate (type : Node) : typeText (type.relocate f) = typeText type := by
  obtain ⟨form, place, parts⟩ := type
  cases form
  -- a reference is printed with its arguments only if it has some
  case reference =>
    rcases parts with _ | ⟨⟨first, _, _⟩, _ | ⟨⟨_, _, args⟩, rest⟩⟩
    · rfl
    · cases first <;> rfl
    · cases first
      case entity name =>
        have htexts := typeTexts_relocates args
        rcases args with _ | ⟨a, args⟩ <;> rcases rest with _ | ⟨_, _⟩
        · rfl
        · rfl
        · exact congrArg (fun ts => name.text ++ "<" ++ ", ".intercalate ts ++ ">") htexts
        · rfl
      all_goals rfl
  case arrayType =>
    rcases parts with _ | ⟨item, _ | ⟨_, _⟩⟩
    · rfl
    · exact congrArg (· ++ "[]") (typeText_relocate item)
    · rfl
  case unionType => exact congrArg (" | ".intercalate ·) (typeTexts_relocates parts)
  case interType => exact congrArg (" & ".intercalate ·) (typeTexts_relocates parts)
  case fnType =>
    rcases parts with _ | ⟨⟨_, _, params⟩, _ | ⟨_, _ | ⟨result, _ | ⟨_, _⟩⟩⟩⟩
    case cons.cons.cons.nil =>
      exact congrArg₂ (fun ps r => "(" ++ ", ".intercalate ps ++ ") => " ++ r)
        (parameterTexts_relocates params) (typeText_relocate result)
    all_goals rfl
  case parenType =>
    rcases parts with _ | ⟨type, _ | ⟨_, _⟩⟩
    · rfl
    · exact typeText_relocate type
    · rfl
  case tupleType =>
    exact congrArg (fun ts => "[" ++ ", ".intercalate ts ++ "]") (typeTexts_relocates parts)
  case tupleItem =>
    rcases parts with _ | ⟨_, _ | ⟨type, _ | ⟨_, _⟩⟩⟩
    case cons.cons.nil => exact typeText_relocate type
    all_goals rfl
  all_goals rfl

/-- Nor do the texts of several types. -/
theorem typeTexts_relocates (types : List Node) :
    typeTexts (relocates f types) = typeTexts types := by
  cases types with
  | nil => rfl
  | cons t ts => exact congrArg₂ List.cons (typeText_relocate t) (typeTexts_relocates ts)

/-- Nor do those of the parameters of a function type. -/
theorem parameterTexts_relocates (params : List Node) :
    parameterTexts (relocates f params) = parameterTexts params := by
  rcases params with _ | ⟨⟨form, _, parts⟩, rest⟩
  · rfl
  · have hrest := parameterTexts_relocates rest
    cases form
    case bind name =>
      rcases parts with _ | ⟨⟨form, p, inner⟩, _ | ⟨_, _⟩⟩
      · exact congrArg ("…" :: ·) hrest
      · have htype := typeText_relocate ⟨form, p, inner⟩
        cases form
        case absent => exact congrArg (name :: ·) hrest
        all_goals exact congrArg₂ (fun t ts => (name ++ ": " ++ t) :: ts) htype hrest
      · cases form <;> exact congrArg ("…" :: ·) hrest
    all_goals exact congrArg ("…" :: ·) hrest

end

namespace TypeRow

/-- Nor does the text of an annotation. -/
theorem textOf_relocate (type : Node) : textOf (type.relocate f) = textOf type := by
  rw [textOf, textOf, form_relocate, typeText_relocate]

/-- A member of a type gives the same row wherever it stands. -/
theorem ofMember?_relocate (member : Node) :
    ofMember? (member.relocate f) = ofMember? member := by
  obtain ⟨form, place, parts⟩ := member
  cases form
  case propertySig isOptional =>
    match parts with
    | [key, type] =>
      simp only [relocate, relocates, ofMember?, unwrap_relocate, form_relocate, textOf_relocate]
    | [] | [_] | _ :: _ :: _ :: _ => rfl
  case methodSig isOptional =>
    cases parts with
    | nil => rfl
    | cons key rest => simp only [relocate, relocates, ofMember?, unwrap_relocate, form_relocate]
  all_goals rfl

/-- So do several members. -/
theorem filterMap_ofMember?_relocates (members : List Node) :
    (relocates f members).filterMap ofMember? = members.filterMap ofMember? := by
  rw [relocates_eq_map, List.filterMap_map]
  exact List.filterMap_congr fun m _ => ofMember?_relocate m

/-- So does the type of a pattern. -/
theorem ofPattern_relocate (pattern : Node) :
    ofPattern (pattern.relocate f) = ofPattern pattern := by
  obtain ⟨form, place, parts⟩ := pattern
  cases form
  -- the members are those of the type written behind the pattern
  case objectPat =>
    match parts with
    | [] | [_] => rfl
    | _ :: ⟨form, _, _⟩ :: _ :: _ => cases form <;> rfl
    | [_, ⟨form, _, members⟩] =>
      cases form
      case objectType => exact filterMap_ofMember?_relocates members
      all_goals rfl
  case bind =>
    match parts with
    | [] => rfl
    | ⟨form, _, _⟩ :: _ :: _ => cases form <;> rfl
    | [⟨form, _, members⟩] =>
      cases form
      case objectType => exact filterMap_ofMember?_relocates members
      all_goals rfl
  case defaultPat =>
    match parts with
    | [inner, _] => exact ofPattern_relocate inner
    | [] | [_] | _ :: _ :: _ :: _ => rfl
  all_goals rfl

/-- So does a declaration of a type. -/
theorem ofDeclaration_relocate (n : Node) : ofDeclaration (n.relocate f) = ofDeclaration n := by
  obtain ⟨form, place, parts⟩ := n
  cases form
  case interface =>
    match parts with
    | [] => rfl
    | ⟨first, _, _⟩ :: rest =>
      cases first
      case binder name =>
        match rest with
        | [_, _, ⟨_, _, members⟩] =>
          simp only [relocate, relocates, ofDeclaration, filterMap_ofMember?_relocates]
        | [] | [_] | [_, _] | _ :: _ :: ⟨_, _, _⟩ :: _ :: _ => rfl
      all_goals rfl
  -- only a name for an object type declares members
  case typeName =>
    match parts with
    | [] => rfl
    | ⟨first, _, _⟩ :: rest =>
      cases first
      case binder name =>
        match rest with
        | [] | [_] => rfl
        | _ :: ⟨type, _, members⟩ :: rest =>
          cases type
          case objectType =>
            cases rest with
            | nil => simp only [relocate, relocates, ofDeclaration, filterMap_ofMember?_relocates]
            | cons _ _ => rfl
          all_goals rfl
      all_goals rfl
  all_goals rfl

end TypeRow

/-- The rows of a module are the same wherever its items stand. -/
theorem typeRows_relocate (m : Module) : typeRows (m.relocate f) = typeRows m := by
  have hfollows : Survey.Follows f id TypeRow.survey TypeRow.survey :=
    { note := fun _ n => (TypeRow.ofDeclaration_relocate n).trans (List.map_id _).symm
      enter := fun _ n _ => by simp only [TypeRow.survey, form_relocate] }
  rw [typeRows, typeRows, Module.relocate, hfollows.runAll, List.map_id]

namespace PropRecord

/-! ### Patterns -/

/-- A property with a default has no place of its own. -/
theorem ofDefault_relocate (name type : String) (value : Option Node) :
    ofDefault name type (value.map (relocate f)) = map f (ofDefault name type value) := by
  cases value with
  | none => rfl
  | some e =>
    simp only [ofDefault, Option.map_some, inferredType, kind_relocate, snapshot_relocate,
      Option.any_some, literal?_relocate]
    rfl

/-- The default in a pattern moves with the pattern. -/
theorem patternDefault?_relocate (pattern : Node) :
    patternDefault? (pattern.relocate f) = (patternDefault? pattern).map (relocate f) := by
  obtain ⟨form, place, parts⟩ := pattern
  cases form
  case defaultPat =>
    match parts with
    | [_, _] | [] | [_] | _ :: _ :: _ :: _ => rfl
  all_goals rfl

/-- What a part of a pattern is as a property does not depend on where it stands. -/
theorem ofPatternPart?_relocate (part : Node) :
    ofPatternPart? (part.relocate f) = (ofPatternPart? part).map (map f) := by
  obtain ⟨form, place, parts⟩ := part
  cases form
  case patName name =>
    match parts with
    | [value] =>
      simp only [relocate, relocates, ofPatternPart?, present?_relocate, ofDefault_relocate,
        Option.map_some]
    | [] | _ :: _ :: _ => rfl
  -- the pattern behind the key may bring a default
  case patKeyed =>
    match parts with
    | [key, pattern] =>
      simp only [relocate, relocates, ofPatternPart?, keyName?_relocate, patternDefault?_relocate,
        ofDefault_relocate, Option.map_map]
      rfl
    | [] | [_] | _ :: _ :: _ :: _ => rfl
  case rest =>
    match parts with
    | [] => rfl
    | ⟨form, _, _⟩ :: _ => cases form <;> rfl
  all_goals rfl

/-- Nor does what the whole pattern is. -/
theorem ofPattern_relocate (pattern : Node) :
    ofPattern (pattern.relocate f) = (ofPattern pattern).map (map f) := by
  obtain ⟨form, place, parts⟩ := pattern
  cases form
  case objectPat =>
    match parts with
    | [] => rfl
    | ⟨_, _, patternParts⟩ :: _ =>
      change (relocates f patternParts).filterMap ofPatternPart? = _
      rw [relocates_eq_map]
      exact filterMap_map_relocate ofPatternPart?_relocate patternParts
  case defaultPat =>
    match parts with
    | [inner, _] => exact ofPattern_relocate inner
    | [] | [_] | _ :: _ :: _ :: _ => rfl
  all_goals rfl

/-! ### Changing records -/

/-- A change that follows a move does so for the first property of a name. -/
theorem changeFirst_map {change change' : PropRecord Place → PropRecord Place}
    (h : ∀ r, change' (r.map f) = (change r).map f) (name : String)
    (records : List (PropRecord Place)) :
    changeFirst name change' (records.map (map f))
      = (changeFirst name change records).map (map f) := by
  induction records with
  | nil => rfl
  | cons r rest ih =>
    have hname : (r.map f).name = r.name := rfl
    rw [List.map_cons, changeFirst, changeFirst, hname, ih, h]
    split <;> rfl

/-- A use is recorded where the use stands. -/
theorem use_map (place : Place) (r : PropRecord Place) :
    use (f place) (r.map f) = (use place r).map f := by
  simp only [use, map, List.map_append, List.map_singleton]

/-- Types are set in the same records wherever the uses stand. -/
theorem applyRows_map (records : List (PropRecord Place)) (rows : List TypeRow) :
    applyRows (records.map (map f)) rows = (applyRows records rows).map (map f) := by
  refine List.foldl_hom (List.map (map f)) fun records row => ?_
  exact @changeFirst_map f (fun r => { r with type := row.type, required := !row.isOptional })
    (fun r => { r with type := row.type, required := !row.isOptional }) (fun _ => rfl) row.name
    records

/-! ### Functions -/

/-- A reference is by the same name wherever it stands. -/
theorem referredName?_relocate (n : Node) : referredName? (n.relocate f) = referredName? n := by
  rw [referredName?, referredName?, form_relocate]

/-- References move with the nodes they are. -/
theorem references_relocate (nodes : List Node) :
    references (nodes.map (relocate f))
      = (references nodes).map fun (name, place) => (name, f place) := by
  refine filterMap_map_relocate (fun n => ?_) nodes
  rw [referredName?_relocate, place_relocate, Option.map_map]
  rfl

/-- They are recorded in the same records, each at its place. -/
theorem applyReferences_relocate (records : List (PropRecord Place))
    (refs : List (String × Place)) :
    applyReferences (records.map (map f)) (refs.map fun (name, place) => (name, f place))
      = (applyReferences records refs).map (map f) := by
  rw [applyReferences, applyReferences, List.foldl_map]
  exact List.foldl_hom (List.map (map f)) fun records ref =>
    changeFirst_map (use_map ref.2) ref.1 records

/-- The properties of a function move with its parameter and its body. -/
theorem ofFunction_relocate (parameter body : Node) :
    ofFunction (parameter.relocate f) (body.relocate f)
      = (ofFunction parameter body).map (map f) := by
  rw [ofFunction, ofFunction, ofPattern_relocate, TypeRow.ofPattern_relocate, applyRows_map,
    nodes_relocate, references_relocate, applyReferences_relocate]

/-! ### Classes -/

/-- What a class reads, with every place moved. -/
def ClassRead.relocate (f : Place → Place) : ClassRead → ClassRead
  | .single name place => .single name (f place)
  | .pattern records => .pattern (records.map (map f))

/-- What reads properties in a class moves with the class. -/
theorem classRead?_relocate (n : Node) :
    classRead? (n.relocate f) = (classRead? n).map (ClassRead.relocate f) := by
  obtain ⟨form, place, parts⟩ := n
  cases form
  -- an access names a prop only through a plain selector
  case member | optMember =>
    match parts with
    | [] | [_] => rfl
    | object :: ⟨selector, _, _⟩ :: rest =>
      cases selector
      case word name =>
        cases rest with
        | nil =>
          simp only [Node.relocate, relocates, classRead?, path?_relocate]
          split <;> rfl
        | cons _ _ => rfl
      all_goals rfl
  case declarator =>
    match parts with
    | [pattern, value] =>
      simp only [Node.relocate, relocates, classRead?, path?_relocate, ofPattern_relocate]
      split <;> rfl
    | [] | [_] | _ :: _ :: _ :: _ => rfl
  all_goals rfl

/-- Whether a property is new does not depend on where it is used. -/
theorem addNew_map (records : List (PropRecord Place)) (r : PropRecord Place) :
    addNew (records.map (map f)) (r.map f) = (addNew records r).map (map f) := by
  have hany : (records.map (map f)).any (·.name = (r.map f).name)
      = records.any (·.name = r.name) := List.any_map
  rw [addNew, addNew, hany]
  split
  · rfl
  · rw [List.map_append]
    rfl

/-- Nor does it for several properties, one after the other. -/
theorem foldl_addNew_map (records found : List (PropRecord Place)) :
    (found.map (map f)).foldl addNew (records.map (map f))
      = (found.foldl addNew records).map (map f) := by
  rw [List.foldl_map]
  exact List.foldl_hom (List.map (map f)) addNew_map

/-- What a read in a class records moves with the read. -/
theorem applyRead_relocate (records : List (PropRecord Place)) (read : ClassRead) :
    applyRead (records.map (map f)) (read.relocate f) = (applyRead records read).map (map f) := by
  cases read with
  | single name place =>
    have hnew := addNew_map (f := f) records (ofDefault name "unknown" none)
    exact (congrArg (changeFirst name (use (f place))) hnew).trans
      (changeFirst_map (use_map place) name _)
  | pattern found => exact foldl_addNew_map records found

/-- What all of them record moves with them. -/
theorem foldl_applyRead_relocate (records : List (PropRecord Place)) (reads : List ClassRead) :
    (reads.map (ClassRead.relocate f)).foldl applyRead (records.map (map f))
      = (reads.foldl applyRead records).map (map f) := by
  rw [List.foldl_map]
  exact List.foldl_hom (List.map (map f)) applyRead_relocate

/-- The properties of a class move with the class. -/
theorem ofClass_relocate (cls : Node) :
    ofClass (cls.relocate f) = (ofClass cls).map (map f) := by
  rw [ofClass, ofClass, nodes_relocate, filterMap_map_relocate classRead?_relocate]
  exact foldl_applyRead_relocate [] _

/-! ### Components -/

/-- **The properties of a component move with it**, and are the same otherwise. -/
theorem ofComponent_relocate (c : Component) :
    ofComponent (c.relocate f) = (ofComponent c).map (map f) := by
  obtain ⟨name, kind, body⟩ := c
  -- A function has the properties of its first parameter; without one there are none.
  cases body with
  | classBody cls => exact ofClass_relocate cls
  | function fn | arrow fn =>
    match fn with
    | ⟨_, _, []⟩ => rfl
    | ⟨_, _, [⟨_, _, params⟩]⟩ => cases params <;> rfl
    | ⟨_, _, ⟨_, _, []⟩ :: _ :: _⟩ => rfl
    | ⟨_, _, ⟨_, _, parameter :: _⟩ :: code :: _⟩ => exact ofFunction_relocate parameter code

end PropRecord

/-- **The properties of a moved module** are those of the module, moved. -/
theorem analyzeProps_relocate (m : Module) :
    analyzeProps (m.relocate f) = (analyzeProps m).map (PropRecord.map f) := by
  rw [analyzeProps, analyzeProps, component?_relocate, typeRows_relocate]
  cases m.component? with
  | none => rfl
  | some c =>
    exact (congrArg (PropRecord.applyRows · (typeRows m)) (PropRecord.ofComponent_relocate c)).trans
      (PropRecord.applyRows_map _ _)

end JsxWidgets
