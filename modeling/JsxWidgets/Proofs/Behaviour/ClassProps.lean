import Mathlib.Data.List.Induction
import JsxWidgets.Proofs.Behaviour.TypedProps
import JsxWidgets.Proofs.Behaviour.VariableUpdates
import JsxWidgets.Syntax.Grammar

/-!
# Properties of a class

A class mentions its properties one by one: it accesses them, and it takes them apart with patterns.
The first mention of a name makes the record of the property, later mentions only add their
accesses to it. So the usages are all accesses of the name, wherever they stand
(`filter_ofClass`).

A default is different. It is part of a pattern, and if the name has been mentioned before, the
pattern comes too late: the record has been made, without a default. If one mention of a property
gives a default, the record shows it exactly if this is the first mention of the property
(`classDefault_iff`). A class that accesses the property in a method in front loses the default
(`not_classDefault_accessedBefore`).
-/

namespace JsxWidgets

open Syntax Expression

namespace PropRecord

/-! ### Mentions -/

/-- A mention of a property in a class. -/
inductive Mention where
  /-- An access, as `this.props.x`. -/
  | access (name : String) (place : Place)
  /-- A part of a pattern for the properties, with its default. -/
  | part (name : String) (value : Option Node)
  /-- A name for all properties, or for the rest of them. -/
  | bundle (name : String) (isRest : Bool)

namespace Mention

/-- The property that is mentioned. -/
def name : Mention → String
  | access name _ | part name _ | bundle name _ => name

/-- The place, if it is an access. -/
def place? : Mention → Option Place
  | access _ place => some place
  | _ => none

/-- The default that it gives to the property. -/
def default? : Mention → Option Node
  | part _ value => value
  | _ => none

/-- The record that is made if the property has not been mentioned before. -/
def record : Mention → PropRecord Place
  | access name _ => ofDefault name "unknown" none
  | part name value => ofDefault name "unknown" value
  | bundle name isRest => { ofDefault name "object" none with required := !isRest }

@[simp] theorem record_name (μ : Mention) : μ.record.name = μ.name := by
  cases μ <;> rfl

/-- **The record of a mention has its default**, and no other. -/
theorem record_defaultValue (μ : Mention) : μ.record.defaultValue = μ.default?.map snapshot := by
  cases μ <;> rfl

theorem record_required_of_default {μ : Mention} {d : Node} (h : μ.default? = some d) :
    μ.record.required = false := by
  cases μ with
  | part name value =>
    have hvalue : value = some d := h
    rw [hvalue]
    rfl
  | access | bundle => cases h

/-- What a part of an object pattern mentions. -/
def ofPatternPart? (part : Node) : Option Mention :=
  match part with
  | ⟨.patName name, _, [value]⟩ => some (.part name value.present?)
  | ⟨.patKeyed, _, [key, pattern]⟩ =>
    (keyName? key).map fun name => .part name (patternDefault? pattern)
  | ⟨.rest, _, ⟨.bind name, _, _⟩ :: _⟩ => some (.bundle name true)
  | _ => none

/-- What a pattern for the properties mentions. -/
def ofPattern : Node → List Mention
  | ⟨form, _, parts⟩ =>
    match form, parts with
    | .objectPat, ⟨_, _, patternParts⟩ :: _ => patternParts.filterMap ofPatternPart?
    | .bind name, _ => [.bundle name false]
    | .defaultPat, [inner, _] => ofPattern inner
    | _, _ => []

/-- The property that a node accesses: `this.props.x`, also in an optional chain. -/
def accessed? (n : Node) : Option String :=
  match n with
  | ⟨.member, _, [object, ⟨.word name, _, _⟩]⟩ | ⟨.optMember, _, [object, ⟨.word name, _, _⟩]⟩ =>
    if path? object = some "this.props" then some name else none
  | _ => none

/-- The pattern with which a declaration takes the properties apart. -/
def destructuring? (n : Node) : Option Node :=
  match n with
  | ⟨.declarator, _, [pattern, value]⟩ =>
    if path? value = some "this.props" then some pattern else none
  | _ => none

/-- What a node mentions. -/
def ofNode (n : Node) : List Mention :=
  (accessed? n).toList.map (access · n.place) ++ (destructuring? n).toList.flatMap ofPattern

/-- What a class mentions, in order. -/
def ofClass (cls : Node) : List Mention := cls.nodes.flatMap ofNode

/-- The mentions of one property in a class. -/
def ofClassProp (cls : Node) (x : String) : List Mention :=
  (ofClass cls).filter fun μ => μ.name = x

end Mention

/-! ### Reads are mentions -/

theorem ofPatternPart?_eq (part : Node) :
    ofPatternPart? part = (Mention.ofPatternPart? part).map Mention.record := by
  unfold ofPatternPart?
  split
  next => rfl
  next key pattern =>
    rw [Mention.ofPatternPart?, Option.map_map]
    rfl
  next => rfl
  next h1 h2 h3 =>
    -- no form of the parts is left, so both readings fall through
    have hnone : Mention.ofPatternPart? part = none := by
      unfold Mention.ofPatternPart?
      split
      next => exact absurd rfl (h1 _ _ _)
      next => exact absurd rfl (h2 _ _ _)
      next => exact absurd rfl (h3 _ _ _ _ _)
      next => rfl
    rw [hnone]
    rfl

/-- A pattern takes the properties that it mentions. -/
theorem ofPattern_eq (pattern : Node) :
    ofPattern pattern = (Mention.ofPattern pattern).map Mention.record := by
  fun_induction Mention.ofPattern pattern with
  | case1 place q r patternParts rest =>
    have hparts : (ofPatternPart? : Node → Option (PropRecord Place))
        = fun part => (Mention.ofPatternPart? part).map Mention.record :=
      funext ofPatternPart?_eq
    rw [ofPattern, hparts, List.map_filterMap]
  | case2 => rw [ofPattern]; rfl
  | case3 _ inner default ih => rw [ofPattern, ih]
  | case4 _ form parts h1 h2 h3 =>
    rw [ofPattern.eq_4 _ _ _ h1 h2 h3]
    rfl

/-- A pattern is no access. -/
theorem place?_of_mem_ofPattern {pattern : Node} {μ : Mention} (h : μ ∈ Mention.ofPattern pattern) :
    μ.place? = none := by
  -- the default of a pattern is passed through, every other form gives its own mentions
  fun_induction Mention.ofPattern pattern with
  | case1 place q r patternParts rest =>
    obtain ⟨part, -, hpart⟩ := List.mem_filterMap.mp h
    unfold Mention.ofPatternPart? at hpart
    split at hpart
    next => cases hpart; rfl
    next =>
      obtain ⟨name, -, rfl⟩ := Option.map_eq_some_iff.mp hpart
      rfl
    next => cases hpart; rfl
    next => cases hpart
  | case2 place name parts =>
    rw [List.mem_singleton.mp h]
    rfl
  | case3 _ inner default ih => exact ih h
  | case4 => cases h

/-- **What a mention does**: the first one of a name makes the record, and an access is a usage. -/
def addMention (records : List (PropRecord Place)) (μ : Mention) : List (PropRecord Place) :=
  match μ.place? with
  | some place => changeFirst μ.name (use place) (addNew records μ.record)
  | none => addNew records μ.record

theorem foldl_addMention_ofPattern (pattern : Node) (records : List (PropRecord Place)) :
    (Mention.ofPattern pattern).foldl addMention records
      = (ofPattern pattern).foldl addNew records := by
  rw [ofPattern_eq, List.foldl_map]
  refine List.foldl_ext _ _ _ fun rs μ hμ => ?_
  rw [addMention, place?_of_mem_ofPattern hμ]

/-- A node reads what it accesses, or what it takes apart. -/
theorem classRead?_eq (n : Node) :
    classRead? n = ((Mention.accessed? n).map (ClassRead.single · n.place)).or
      ((Mention.destructuring? n).map fun pattern => .pattern (ofPattern pattern)) := by
  unfold classRead?
  split
  case h_1 | h_2 | h_3 =>
    simp only [Mention.accessed?, Mention.destructuring?]
    split <;> rfl
  case h_4 hmember hoptMember hdeclarator =>
    rw [Mention.accessed?.eq_3 n hmember hoptMember, Mention.destructuring?.eq_2 n hdeclarator]
    rfl

/-- An access is no declaration. -/
theorem destructuring?_of_accessed? {n : Node} {x : String} (h : Mention.accessed? n = some x) :
    Mention.destructuring? n = none := by
  unfold Mention.accessed? at h
  split at h
  next => rfl
  next => rfl
  next => cases h

/-- **What a node reads is what it mentions**, one by one. -/
theorem foldl_addMention_ofNode (n : Node) (records : List (PropRecord Place)) :
    (Mention.ofNode n).foldl addMention records
      = (classRead? n).elim records (applyRead records) := by
  rw [classRead?_eq, Mention.ofNode]
  -- a node is an access or a destructuring, never both
  cases haccess : Mention.accessed? n with
  | some x =>
    rw [destructuring?_of_accessed? haccess]
    rfl
  | none =>
    cases hpattern : Mention.destructuring? n with
    | some pattern =>
      have hone : (some pattern).toList.flatMap Mention.ofPattern = Mention.ofPattern pattern :=
        List.append_nil _
      change ((some pattern).toList.flatMap Mention.ofPattern).foldl addMention records = _
      rw [hone]
      exact foldl_addMention_ofPattern pattern records
    | none => rfl

/-- A class has the properties that its mentions make. -/
theorem ofClass_eq (cls : Node) : ofClass cls = (Mention.ofClass cls).foldl addMention [] := by
  have hnodes : ∀ (nodes : List Node) (records : List (PropRecord Place)),
      (nodes.filterMap classRead?).foldl applyRead records
        = (nodes.flatMap Mention.ofNode).foldl addMention records := by
    intro nodes
    induction nodes with
    | nil => exact fun _ => rfl
    | cons n nodes ih =>
      intro records
      rw [List.flatMap_cons, List.foldl_append, foldl_addMention_ofNode, ← ih]
      cases hread : classRead? n with
      | none => rw [List.filterMap_cons_none hread]; rfl
      | some read => rw [List.filterMap_cons_some hread]; rfl
  exact hnodes cls.nodes []

/-! ### One property at a time -/

section OneProperty

variable {π : Type} {x : String}

@[simp] theorem use_name (place : π) (r : PropRecord π) : (use place r).name = r.name := rfl

/-- A change of a property of another name is not seen. -/
theorem filter_changeFirst_of_ne {name : String} (hne : name ≠ x)
    {change : PropRecord π → PropRecord π} (hname : ∀ r, (change r).name = r.name)
    (records : List (PropRecord π)) :
    (changeFirst name change records).filter (·.name = x) = records.filter (·.name = x) := by
  induction records with
  | nil => rfl
  | cons r records ih =>
    rw [changeFirst]
    split
    next hr =>
      have hother : ¬ r.name = x := fun h => hne (hr.symm.trans h)
      rw [List.filter_cons_of_neg (by simpa [hname] using hother),
        List.filter_cons_of_neg (by simpa using hother)]
    next => rw [List.filter_cons, List.filter_cons, ih]

/-- A change of the first property of a name is one of the first that has this name. -/
theorem filter_changeFirst_self {change : PropRecord π → PropRecord π}
    (hname : ∀ r, (change r).name = r.name) (records : List (PropRecord π)) :
    (changeFirst x change records).filter (·.name = x)
      = changeFirst x change (records.filter (·.name = x)) := by
  induction records with
  | nil => rfl
  | cons r records ih =>
    by_cases hr : r.name = x
    · have hkept : (r :: records).filter (·.name = x) = r :: records.filter (·.name = x) :=
        List.filter_cons_of_pos (decide_eq_true hr)
      rw [hkept, changeFirst, if_pos hr, changeFirst, if_pos hr,
        List.filter_cons_of_pos (by simpa [hname] using hr)]
    · have hleft : ∀ rs : List (PropRecord π),
          (r :: rs).filter (·.name = x) = rs.filter (·.name = x) := fun rs =>
        List.filter_cons_of_neg (by simpa using hr)
      rw [hleft, changeFirst, if_neg hr, hleft, ih]

/-- Rows about other properties are not seen. -/
theorem filter_applyRows_of_unstated {rows : List TypeRow} (hrows : ∀ row ∈ rows, row.name ≠ x)
    (records : List (PropRecord π)) :
    (applyRows records rows).filter (·.name = x) = records.filter (·.name = x) := by
  induction rows generalizing records with
  | nil => rfl
  | cons row rows ih =>
    obtain ⟨hrow, hrest⟩ := List.forall_mem_cons.mp hrows
    rw [applyRows_row, ih hrest, filter_changeFirst_of_ne hrow fun r => typedBy_name r row]

theorem filter_addNew_of_ne {r : PropRecord Place} (hne : r.name ≠ x)
    (records : List (PropRecord Place)) :
    (addNew records r).filter (·.name = x) = records.filter (·.name = x) := by
  rw [addNew]
  split
  · rfl
  · rw [List.filter_append, List.filter_cons_of_neg (by simpa using hne), List.filter_nil,
      List.append_nil]

theorem filter_addNew_self {r : PropRecord Place} (hname : r.name = x)
    (records : List (PropRecord Place)) :
    (addNew records r).filter (·.name = x) = addNew (records.filter (·.name = x)) r := by
  have hany : (records.filter (·.name = x)).any (·.name = r.name)
      = records.any (·.name = r.name) := by
    rw [List.any_filter, hname]
    simp
  rw [addNew, addNew, hany]
  split
  · rfl
  · have hone : [r].filter (·.name = x) = [r] := List.filter_cons_of_pos (decide_eq_true hname)
    rw [List.filter_append, hone]

/-- A mention of another name is not seen. -/
theorem filter_addMention_of_ne {μ : Mention} (hne : μ.name ≠ x)
    (records : List (PropRecord Place)) :
    (addMention records μ).filter (·.name = x) = records.filter (·.name = x) := by
  have hnew : (addNew records μ.record).filter (·.name = x) = records.filter (·.name = x) :=
    filter_addNew_of_ne (by rwa [μ.record_name]) records
  rw [addMention]
  split
  next place _ => rw [filter_changeFirst_of_ne hne (use_name place), hnew]
  next => exact hnew

/-- A mention of the name is one among the records that have it. -/
theorem filter_addMention_self {μ : Mention} (hname : μ.name = x)
    (records : List (PropRecord Place)) :
    (addMention records μ).filter (·.name = x) = addMention (records.filter (·.name = x)) μ := by
  have hnew : (addNew records μ.record).filter (·.name = x)
      = addNew (records.filter (·.name = x)) μ.record :=
    filter_addNew_self (by rwa [μ.record_name]) records
  rw [addMention, addMention, hname]
  split
  next place _ => rw [filter_changeFirst_self (use_name place), hnew]
  next => exact hnew

/-- **The records of a name come from its mentions**, whatever else is mentioned in between. -/
theorem filter_foldl_addMention (mentions : List Mention) (records : List (PropRecord Place)) :
    (mentions.foldl addMention records).filter (·.name = x)
      = (mentions.filter (·.name = x)).foldl addMention (records.filter (·.name = x)) := by
  induction mentions generalizing records with
  | nil => rfl
  | cons μ mentions ih =>
    rw [List.foldl_cons, ih]
    by_cases hname : μ.name = x
    · rw [filter_addMention_self hname, List.filter_cons_of_pos (by simpa using hname),
        List.foldl_cons]
    · rw [filter_addMention_of_ne hname, List.filter_cons_of_neg (by simpa using hname)]

end OneProperty

/-! ### What the mentions of a property make of it -/

/-- The record of a property: that of its first mention, used at all accesses. -/
def summary : List Mention → List (PropRecord Place)
  | [] => []
  | μ :: mentions => [{ μ.record with usages := (μ :: mentions).filterMap Mention.place? }]

/-- One more mention of the name does not make another record. -/
theorem addMention_summary {mentions : List Mention} {μ : Mention}
    (hsame : ∀ ν ∈ mentions, ν.name = μ.name) :
    addMention (summary mentions) μ = summary (mentions ++ [μ]) := by
  cases mentions with
  | nil =>
    -- The record is made, and if the mention is an access, it is the first usage.
    cases μ with
    | access name place =>
      exact if_pos rfl
    | part | bundle => rfl
  | cons first mentions =>
    have hfirst : first.record.name = μ.name := by
      rw [first.record_name]
      exact hsame first List.mem_cons_self
    have hold : ∀ usages, addNew [{ first.record with usages := usages }] μ.record
        = [{ first.record with usages := usages }] := by
      intro usages
      rw [addNew, if_pos]
      rw [List.any_cons, μ.record_name]
      exact Bool.or_eq_true_iff.mpr (Or.inl (decide_eq_true hfirst))
    rw [addMention, summary, hold, List.cons_append, summary, ← List.cons_append,
      List.filterMap_append]
    cases hplace : μ.place? with
    | none => rw [List.filterMap_cons_none hplace, List.filterMap_nil, List.append_nil]
    | some place =>
      rw [List.filterMap_cons_some hplace, List.filterMap_nil]
      exact if_pos hfirst

/-- **All mentions of a name make one record**, and the first of them decides what it says. -/
theorem foldl_addMention_of_same {x : String} (mentions : List Mention)
    (hsame : ∀ μ ∈ mentions, μ.name = x) : mentions.foldl addMention [] = summary mentions := by
  induction mentions using List.reverseRecOn with
  | nil => rfl
  | append_singleton mentions μ ih =>
    have hfront : ∀ ν ∈ mentions, ν.name = x := fun ν hν =>
      hsame ν (List.mem_append_left [μ] hν)
    have hlast : μ.name = x := hsame μ (List.mem_append_right mentions List.mem_cons_self)
    rw [List.foldl_append, ih hfront]
    exact addMention_summary fun ν hν => (hfront ν hν).trans hlast.symm

/-- **A property of a class is told by its mentions.** -/
theorem filter_ofClass (cls : Node) (x : String) :
    (ofClass cls).filter (·.name = x) = summary (Mention.ofClassProp cls x) := by
  rw [ofClass_eq, filter_foldl_addMention]
  refine foldl_addMention_of_same (x := x) (Mention.ofClassProp cls x) fun μ hμ => ?_
  exact of_decide_eq_true (List.mem_filter.mp hμ).2

/-- The accesses among the mentions of a property are all accesses of it in the class. -/
theorem filterMap_place?_ofClassProp (cls : Node) (x : String) :
    (Mention.ofClassProp cls x).filterMap Mention.place?
      = (cls.nodes.filter (Mention.accessed? · = some x)).map Node.place := by
  -- a destructuring mentions the prop without a place, so it leaves no trace here
  have hpatterns : ∀ patterns : List Node,
      ((patterns.flatMap Mention.ofPattern).filter (·.name = x)).filterMap Mention.place? = [] := by
    intro patterns
    refine List.filterMap_eq_nil_iff.mpr fun μ hμ => ?_
    obtain ⟨pattern, -, hpattern⟩ := List.mem_flatMap.mp (List.mem_filter.mp hμ).1
    exact place?_of_mem_ofPattern hpattern
  have hnode : ∀ n : Node, ((Mention.ofNode n).filter (·.name = x)).filterMap Mention.place?
      = if Mention.accessed? n = some x then [n.place] else [] := by
    intro n
    rw [Mention.ofNode, List.filter_append, List.filterMap_append, hpatterns, List.append_nil]
    cases haccess : Mention.accessed? n with
    | none => rfl
    | some y =>
      by_cases hname : y = x
      · simp [hname, Mention.name, Mention.place?]
      · simp [hname, Mention.name]
  rw [Mention.ofClassProp, Mention.ofClass]
  -- with both facts the list of nodes is filtered and mapped one node at a time
  induction cls.nodes with
  | nil => rfl
  | cons n nodes ih =>
    rw [List.flatMap_cons, List.filter_append, List.filterMap_append, ih, hnode, List.filter_cons]
    by_cases haccess : Mention.accessed? n = some x
    · simp [haccess]
    · simp [haccess]

end PropRecord

namespace PropRecord

/-- What the analysis finds of a property of a class, if no type says anything about it. -/
theorem filter_analyzeProps {m : Module} {cls : Node} (hcls : m.classComponent? = some cls)
    {x : String} (hrows : ∀ row ∈ typeRows m, row.name ≠ x) :
    (analyzeProps m).filter (·.name = x) = summary (Mention.ofClassProp cls x) := by
  obtain ⟨c, hc, hbody⟩ := Option.bind_eq_some_iff.mp hcls
  have hcode : ofComponent c = ofClass cls := by
    obtain ⟨name, kind, body⟩ := c
    cases body with
    | classBody => cases hbody; rfl
    | function | arrow => cases hbody
  have hprops : analyzeProps m = applyRows (ofClass cls) (typeRows m) := by
    rw [analyzeProps, hc, ← hcode]
  rw [hprops, filter_applyRows_of_unstated hrows, filter_ofClass]

end PropRecord

/-- **The default of a property of a class** is that of its first mention. Let no type say anything
about the property, and let exactly one mention give it a default. Then there is one record of the
property, which is used at its accesses. It says that the property may be left out and has this
default exactly if no other mention stands in front. -/
theorem classDefault_iff (m : Module) {cls d : Node} {x : String}
    (hcls : m.classComponent? = some cls) (hrows : ∀ row ∈ typeRows m, row.name ≠ x)
    (hone : (PropRecord.Mention.ofClassProp cls x).filterMap PropRecord.Mention.default? = [d]) :
    ∃ r, (analyzeProps m).filter (·.name = x) = [r] ∧
      r.usages = (cls.nodes.filter (PropRecord.Mention.accessed? · = some x)).map Node.place ∧
      (r.required = false ∧ r.defaultValue = some (snapshot d) ↔
        (PropRecord.Mention.ofClassProp cls x).head?.bind PropRecord.Mention.default?
          = some d) := by
  rw [PropRecord.filter_analyzeProps hcls hrows, ← PropRecord.filterMap_place?_ofClassProp]
  cases hmentions : PropRecord.Mention.ofClassProp cls x with
  | nil =>
    rw [hmentions] at hone
    cases hone
  | cons first mentions =>
    refine ⟨_, rfl, rfl, ?_⟩
    change first.record.required = false ∧ first.record.defaultValue = some (snapshot d)
      ↔ first.default? = some d
    rw [first.record_defaultValue]
    constructor
    · rintro ⟨-, hvalue⟩
      -- The default that the record shows is the only one that any mention gives.
      obtain ⟨e, he, -⟩ := Option.map_eq_some_iff.mp hvalue
      have hmem : e ∈ [d] := by
        rw [← hone, hmentions]
        exact List.mem_filterMap.mpr ⟨first, List.mem_cons_self, he⟩
      rw [he, List.mem_singleton.mp hmem]
    · intro hfirst
      refine ⟨PropRecord.Mention.record_required_of_default hfirst, ?_⟩
      rw [hfirst]
      rfl

/-- A class that accesses a property in a method in front of the pattern with its default. -/
def accessedBefore : List Char :=
  ("class C extends React.Component \x7b f() \x7b return this.props.x; \x7d " ++
    "render() \x7b const \x7b x = 1 \x7d = this.props; return <p/>; \x7d \x7d").toList

/-- An access in front takes the default away: the property has to be given. -/
theorem not_classDefault_accessedBefore : ∃ m faults cls d r,
    Module.read? (.ofPath "C.jsx") accessedBefore = some (m, faults) ∧
    m.classComponent? = some cls ∧ typeRows m = [] ∧
    (PropRecord.Mention.ofClassProp cls "x").filterMap PropRecord.Mention.default? = [d] ∧
    (analyzeProps m).filter (·.name = "x") = [r] ∧ r.required = true ∧ r.defaultValue = none := by
  have hfound : (Module.read? (.ofPath "C.jsx") accessedBefore).any (fun read =>
      typeRows read.1 == [] && (read.1.classComponent?.any fun cls =>
        ((PropRecord.Mention.ofClassProp cls "x").filterMap
          PropRecord.Mention.default?).length == 1) &&
        ((analyzeProps read.1).filter (·.name = "x")).map
          (fun r => (r.required, r.defaultValue.isNone)) == [(true, true)]) = true := by
    decide +kernel
  obtain ⟨⟨m, faults⟩, hread, hm⟩ := (Option.any_eq_true _ _).mp hfound
  rw [Bool.and_eq_true, Bool.and_eq_true] at hm
  obtain ⟨⟨hrows, hdefaults⟩, hrecords⟩ := hm
  obtain ⟨cls, hcls, hdefault⟩ := (Option.any_eq_true _ _).mp hdefaults
  obtain ⟨d, hd⟩ := List.length_eq_one_iff.mp (eq_of_beq hdefault)
  obtain ⟨r, hr, hfields⟩ := List.map_eq_singleton_iff.mp (eq_of_beq hrecords)
  obtain ⟨hrequired, hnone⟩ := Prod.mk.inj hfields
  exact ⟨m, faults, cls, d, r, hread, hcls, eq_of_beq hrows, hd, hr, hrequired,
    Option.isNone_iff_eq_none.mp hnone⟩

/-- A class that takes a property with a default in front of the access to it. -/
def takenBefore : List Char :=
  ("class C extends React.Component \x7b render() \x7b const \x7b x = 1 \x7d = this.props; " ++
    "return <p>\x7bthis.props.x\x7d</p>; \x7d \x7d").toList

/-- With the pattern in front the default is known, and the access is a usage. -/
theorem classDefault_iff_takenBefore : ∃ m faults cls d r,
    Module.read? (.ofPath "C.jsx") takenBefore = some (m, faults) ∧
    m.classComponent? = some cls ∧ (∀ row ∈ typeRows m, row.name ≠ "x") ∧
    (PropRecord.Mention.ofClassProp cls "x").filterMap PropRecord.Mention.default? = [d] ∧
    (analyzeProps m).filter (·.name = "x") = [r] ∧ r.usages.length = 1 ∧
    r.required = false ∧ r.defaultValue = some (snapshot d) := by
  have hfound : (Module.read? (.ofPath "C.jsx") takenBefore).any (fun read =>
      typeRows read.1 == [] && read.1.classComponent?.any fun cls =>
        (cls.nodes.filter (PropRecord.Mention.accessed? · = some "x")).length == 1 &&
          (((PropRecord.Mention.ofClassProp cls "x").filterMap
              PropRecord.Mention.default?).length == 1 &&
            ((PropRecord.Mention.ofClassProp cls "x").head?.bind
              PropRecord.Mention.default?).isSome)) = true := by
    decide +kernel
  obtain ⟨⟨m, faults⟩, hread, hm⟩ := (Option.any_eq_true _ _).mp hfound
  obtain ⟨hempty, hclass⟩ := Bool.and_eq_true_iff.mp hm
  obtain ⟨cls, hcls, hcode⟩ := (Option.any_eq_true _ _).mp hclass
  obtain ⟨haccess, hmentions⟩ := Bool.and_eq_true_iff.mp hcode
  have hrows : ∀ row ∈ typeRows m, row.name ≠ "x" := by
    rw [eq_of_beq hempty]
    exact List.forall_mem_nil _
  obtain ⟨hlength, hhead⟩ := Bool.and_eq_true_iff.mp hmentions
  obtain ⟨d, hone⟩ := List.length_eq_one_iff.mp (eq_of_beq hlength)
  obtain ⟨d', hfirst⟩ := Option.isSome_iff_exists.mp hhead
  -- There is one default, so it is the one of the first mention.
  have hsame : d' = d := by
    obtain ⟨μ, hμ, hdefault⟩ := Option.bind_eq_some_iff.mp hfirst
    have hmem := List.mem_filterMap.mpr ⟨μ, List.mem_of_mem_head? hμ, hdefault⟩
    rw [hone] at hmem
    exact List.mem_singleton.mp hmem
  subst hsame
  obtain ⟨r, hr, husages, hdefault⟩ := classDefault_iff m hcls hrows hone
  have husage : r.usages.length = 1 := by
    rw [husages, List.length_map]
    exact eq_of_beq haccess
  exact ⟨m, faults, cls, d', r, hread, hcls, hrows, hone, hr, husage, hdefault.mpr hfirst⟩

end JsxWidgets
