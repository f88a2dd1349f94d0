import Mathlib.Data.List.Basic
import JsxWidgets.Props.Analysis

/-!
# Stated types override inferred ones

What types say about properties comes in rows: first those of the type that stands at the parameter,
then those of all declared types of properties. They are applied one after the other, each to the
first property of its name, so rows overwrite what rows in front have said. What is left in the end
is told here property by property, without this order: only the last row of a name counts
(`TypesOverride`).

The proof takes the properties one by one (`applyRows_cons`): the rows of the name of the first one
are for it alone, and the properties behind it are as if these rows were not there.

The analysis of a function looks for usages between the two groups of rows. As rows change no names,
all rows may as well be applied in the end (`analyzeProps_eq`).
-/

namespace JsxWidgets

open Syntax Expression

/-- The last row of a name. -/
def TypeRow.last? (rows : List TypeRow) (name : String) : Option TypeRow :=
  (rows.filter fun row => row.name = name).getLast?

theorem TypeRow.last?_cons_self (row : TypeRow) (rows : List TypeRow) :
    last? (row :: rows) row.name = some ((last? rows row.name).getD row) := by
  have hfirst : (row :: rows).filter (fun other => other.name = row.name)
      = row :: rows.filter fun other => other.name = row.name :=
    List.filter_cons_of_pos (decide_eq_true rfl)
  rw [last?, hfirst, List.getLast?_cons]
  rfl

theorem TypeRow.last?_cons_of_ne {row : TypeRow} {name : String} (h : row.name ≠ name)
    (rows : List TypeRow) : last? (row :: rows) name = last? rows name := by
  rw [last?, List.filter_cons_of_neg (by simpa using h)]
  rfl

/-- The rows of other names. -/
def TypeRow.others (rows : List TypeRow) (name : String) : List TypeRow :=
  rows.filter fun row => row.name ≠ name

theorem TypeRow.last?_others_self (rows : List TypeRow) (name : String) :
    last? (others rows name) name = none := by
  rw [last?, others, List.filter_filter, List.getLast?_eq_none_iff, List.filter_eq_nil_iff]
  intro row _
  by_cases h : row.name = name <;> simp [h]

theorem TypeRow.last?_others_of_ne {name other : String} (h : other ≠ name) (rows : List TypeRow) :
    last? (others rows name) other = last? rows other := by
  rw [last?, last?, others, List.filter_filter]
  congr 1
  refine List.filter_congr fun row _ => ?_
  by_cases hrow : row.name = other
  · simp [hrow, h]
  · simp [hrow]

namespace PropRecord

variable {π : Type}

/-! ### The rows of one property -/

/-- A property with the type that a row states. -/
def typedBy (r : PropRecord π) (row : TypeRow) : PropRecord π :=
  { r with type := row.type, required := !row.isOptional }

/-- A property with the type that the last row of its name states, if there is one. -/
def typedByLast (rows : List TypeRow) (r : PropRecord π) : PropRecord π :=
  (TypeRow.last? rows r.name).elim r r.typedBy

@[simp] theorem typedBy_name (r : PropRecord π) (row : TypeRow) : (r.typedBy row).name = r.name :=
  rfl

@[simp] theorem typedByLast_name (rows : List TypeRow) (r : PropRecord π) :
    (typedByLast rows r).name = r.name := by
  rw [typedByLast]
  cases TypeRow.last? rows r.name <;> rfl

theorem typedByLast_idem (rows : List TypeRow) (r : PropRecord π) :
    typedByLast rows (typedByLast rows r) = typedByLast rows r := by
  rw [typedByLast, typedByLast_name, typedByLast]
  cases TypeRow.last? rows r.name <;> rfl

/-- A row of the name is overwritten by every later one. -/
theorem typedByLast_typedBy {row : TypeRow} {r : PropRecord π} (h : row.name = r.name)
    (rows : List TypeRow) : typedByLast rows (r.typedBy row) = typedByLast (row :: rows) r := by
  have hlast := TypeRow.last?_cons_self row rows
  rw [h] at hlast
  rw [typedByLast, typedByLast, hlast, typedBy_name]
  cases TypeRow.last? rows r.name <;> rfl

theorem applyRows_row (records : List (PropRecord π)) (row : TypeRow) (rows : List TypeRow) :
    applyRows records (row :: rows)
      = applyRows (changeFirst row.name (typedBy · row) records) rows := rfl

@[simp] theorem applyRows_nil (rows : List TypeRow) :
    applyRows ([] : List (PropRecord π)) rows = [] := by
  induction rows with
  | nil => rfl
  | cons row rows ih => exact ih

/-- **The rows of the name of the first property are for it alone.** -/
theorem applyRows_cons (r : PropRecord π) (records : List (PropRecord π)) (rows : List TypeRow) :
    applyRows (r :: records) rows
      = typedByLast rows r :: applyRows records (TypeRow.others rows r.name) := by
  induction rows generalizing r records with
  | nil => rfl
  | cons row rows ih =>
    rw [applyRows_row, changeFirst]
    by_cases h : row.name = r.name
    · have hothers : TypeRow.others (row :: rows) r.name = TypeRow.others rows r.name :=
        List.filter_cons_of_neg (by simpa using h)
      rw [if_pos h.symm, ih, typedByLast_typedBy h, typedBy_name, hothers]
    · have hothers : TypeRow.others (row :: rows) r.name = row :: TypeRow.others rows r.name :=
        List.filter_cons_of_pos (by simpa using h)
      have hlast : typedByLast (row :: rows) r = typedByLast rows r := by
        rw [typedByLast, TypeRow.last?_cons_of_ne h, typedByLast]
      rw [if_neg (Ne.symm h), ih, hothers, hlast, applyRows_row]

/-! ### All properties -/

/-- **Stated types override inferred ones and nothing else.** -/
structure TypesOverride (records : List (PropRecord π)) (rows : List TypeRow)
    (typed : List (PropRecord π)) : Prop where
  /-- There are as many properties as before. -/
  length : typed.length = records.length
  /-- Names, defaults and usages stay, in their order. -/
  kept : ∀ (i : Nat) (r r' : PropRecord π), records[i]? = some r → typed[i]? = some r' →
    r'.name = r.name ∧ r'.defaultValue = r.defaultValue ∧
      r'.defaultIsLiteral = r.defaultIsLiteral ∧ r'.usages = r.usages
  /-- The first property of a name has what the last row of the name says. -/
  first : ∀ (i : Nat) (r r' : PropRecord π), records[i]? = some r → typed[i]? = some r' →
    (∀ s ∈ records.take i, s.name ≠ r.name) → ∀ row, TypeRow.last? rows r.name = some row →
      r'.type = row.type ∧ r'.required = !row.isOptional
  /-- A further property of a name keeps what it has. -/
  later : ∀ (i : Nat) (r r' : PropRecord π), records[i]? = some r → typed[i]? = some r' →
    (∃ s ∈ records.take i, s.name = r.name) → r'.type = r.type ∧ r'.required = r.required
  /-- A property that no row is about keeps what it has. -/
  unstated : ∀ (i : Nat) (r r' : PropRecord π), records[i]? = some r → typed[i]? = some r' →
    TypeRow.last? rows r.name = none → r'.type = r.type ∧ r'.required = r.required

/-- A property is typed if it is the first of its name. -/
theorem getElem?_applyRows (records : List (PropRecord π)) (rows : List TypeRow) (i : Nat) :
    (applyRows records rows)[i]? = records[i]?.map fun r =>
      if ∀ s ∈ records.take i, s.name ≠ r.name then typedByLast rows r else r := by
  induction records generalizing rows i with
  | nil => rw [applyRows_nil]; rfl
  | cons first records ih =>
    rw [applyRows_cons]
    cases i with
    | zero => simp
    | succ i =>
      rw [List.getElem?_cons_succ, List.getElem?_cons_succ, ih]
      cases records[i]? with
      | none => rfl
      | some r =>
        simp only [Option.map_some, List.take_succ_cons, List.forall_mem_cons]
        -- The rows of the name of the first property have been taken away.
        by_cases hname : r.name = first.name
        · have hnone : typedByLast (TypeRow.others rows first.name) r = r := by
            rw [typedByLast, hname, TypeRow.last?_others_self]
            rfl
          have hlater : ¬ (first.name ≠ r.name ∧ ∀ s ∈ records.take i, s.name ≠ r.name) :=
            fun h => h.1 hname.symm
          rw [hnone, ite_self]
          exact congrArg some (if_neg hlater).symm
        · have hrows : typedByLast (TypeRow.others rows first.name) r = typedByLast rows r := by
            rw [typedByLast, TypeRow.last?_others_of_ne hname, typedByLast]
          rw [hrows]
          refine congrArg some (if_congr ?_ rfl rfl)
          exact (and_iff_right (Ne.symm hname)).symm

theorem length_applyRows (records : List (PropRecord π)) (rows : List TypeRow) :
    (applyRows records rows).length = records.length := by
  induction records generalizing rows with
  | nil => rw [applyRows_nil]
  | cons r records ih => rw [applyRows_cons, List.length_cons, List.length_cons, ih]

/-- The same rows once more say nothing new. -/
theorem applyRows_idem (records : List (PropRecord π)) (rows : List TypeRow) :
    applyRows (applyRows records rows) rows = applyRows records rows := by
  induction records generalizing rows with
  | nil => rw [applyRows_nil, applyRows_nil]
  | cons r records ih =>
    rw [applyRows_cons, applyRows_cons, typedByLast_idem, typedByLast_name, ih]

/-- Rows may be applied in groups. -/
theorem applyRows_append (records : List (PropRecord π)) (rows more : List TypeRow) :
    applyRows records (rows ++ more) = applyRows (applyRows records rows) more :=
  List.foldl_append

theorem typesOverride_applyRows (records : List (PropRecord π)) (rows : List TypeRow) :
    TypesOverride records rows (applyRows records rows) := by
  -- What is at an index is told by what was there.
  have hat : ∀ {i : Nat} {r r' : PropRecord π}, records[i]? = some r →
      (applyRows records rows)[i]? = some r' →
      r' = if ∀ s ∈ records.take i, s.name ≠ r.name then typedByLast rows r else r := by
    intro i r r' hr hr'
    rw [getElem?_applyRows, hr] at hr'
    exact (Option.some.inj hr').symm
  refine
    { length := length_applyRows records rows
      kept := fun i r r' hr hr' => ?_
      first := fun i r r' hr hr' hfirst row hrow => ?_
      later := fun i r r' hr hr' hlater => ?_
      unstated := fun i r r' hr hr' hnone => ?_ }
  · rw [hat hr hr']
    split
    · rw [typedByLast]
      cases TypeRow.last? rows r.name <;> exact ⟨rfl, rfl, rfl, rfl⟩
    · exact ⟨rfl, rfl, rfl, rfl⟩
  · rw [hat hr hr', if_pos hfirst, typedByLast, hrow]
    exact ⟨rfl, rfl⟩
  · obtain ⟨s, hs, hname⟩ := hlater
    rw [hat hr hr', if_neg fun hfirst => hfirst s hs hname]
    exact ⟨rfl, rfl⟩
  · have hsame : typedByLast rows r = r := by
      rw [typedByLast, hnone]
      rfl
    rw [hat hr hr', hsame, ite_self]
    exact ⟨rfl, rfl⟩

/-! ### The properties of a component -/

/-- Changes that keep names and do not disturb each other may change places. -/
theorem changeFirst_comm {f g : PropRecord π → PropRecord π} (hf : ∀ r, (f r).name = r.name)
    (hg : ∀ r, (g r).name = r.name) (hcomm : ∀ r, f (g r) = g (f r)) (name other : String)
    (records : List (PropRecord π)) :
    changeFirst name f (changeFirst other g records)
      = changeFirst other g (changeFirst name f records) := by
  induction records with
  | nil => rfl
  | cons r records ih =>
    rw [changeFirst, changeFirst]
    -- Each of the changes is for this property or for one behind it.
    by_cases hname : r.name = name <;> by_cases hother : r.name = other
    · rw [if_pos hname, if_pos hother, changeFirst, changeFirst, if_pos (by rw [hg, hname]),
        if_pos (by rw [hf, hother]), hcomm]
    · rw [if_pos hname, if_neg hother, changeFirst, changeFirst, if_pos hname,
        if_neg (by rw [hf]; exact hother)]
    · rw [if_neg hname, if_pos hother, changeFirst, changeFirst, if_neg (by rw [hg]; exact hname),
        if_pos hother]
    · rw [if_neg hname, if_neg hother, changeFirst, changeFirst, if_neg hname, if_neg hother, ih]

/-- **Usages do not depend on types**: it does not matter which are found first. -/
theorem applyReferences_applyRows (records : List (PropRecord Place)) (rows : List TypeRow)
    (refs : List (String × Place)) :
    applyReferences (applyRows records rows) refs
      = applyRows (applyReferences records refs) rows := by
  have hrow : ∀ (records : List (PropRecord Place)) (ref : String × Place),
      changeFirst ref.1 (use ref.2) (applyRows records rows)
        = applyRows (changeFirst ref.1 (use ref.2) records) rows := by
    intro records ref
    refine (List.foldl_hom (changeFirst ref.1 (use ref.2)) fun records row => ?_).symm
    exact (@changeFirst_comm Place (use ref.2) (typedBy · row) (fun _ => rfl) (fun _ => rfl)
      (fun _ => rfl) ref.1 row.name records).symm
  exact List.foldl_hom (applyRows · rows) hrow

/-- What the type that stands at the parameter of a component says. -/
def inlineRows (c : Component) : List TypeRow := c.propsParameter?.elim [] TypeRow.ofPattern

/-- The properties that a parameter takes, with their usages in a body. -/
def usedIn (body parameter : Node) : List (PropRecord Place) :=
  applyReferences (ofPattern parameter) (references body.nodes)

/-- The properties of a component with their usages, but without what types say. -/
def untyped (c : Component) : List (PropRecord Place) :=
  match c.body with
  | .classBody cls => ofClass cls
  | .function ⟨_, _, _ :: body :: _⟩ => c.propsParameter?.elim [] (usedIn body)
  | .arrow ⟨_, _, _ :: body :: _⟩ => c.propsParameter?.elim [] (usedIn body)
  | _ => []

theorem ofComponent_eq (c : Component) :
    ofComponent c = applyRows (untyped c) (inlineRows c) := by
  obtain ⟨name, kind, body⟩ := c
  cases body with
  | classBody cls => rfl
  | function fn | arrow fn =>
    match fn with
    | ⟨_, _, []⟩ => rfl
    | ⟨_, _, [⟨_, _, []⟩]⟩ => rfl
    | ⟨_, _, [⟨_, _, _ :: _⟩]⟩ => exact (applyRows_nil _).symm
    | ⟨_, _, ⟨_, _, []⟩ :: _ :: _⟩ => rfl
    | ⟨_, _, ⟨_, _, parameter :: _⟩ :: code :: _⟩ => exact applyReferences_applyRows _ _ _

end PropRecord

/-- The properties of the component of a module: all rows are applied in the end, those of the
parameter first. -/
theorem analyzeProps_eq (m : Module) :
    analyzeProps m = m.component?.elim [] fun c =>
      PropRecord.applyRows (PropRecord.untyped c) (PropRecord.inlineRows c ++ typeRows m) := by
  rw [analyzeProps]
  cases m.component? with
  | none => rfl
  | some c =>
    rw [Option.elim_some, PropRecord.applyRows_append, ← PropRecord.ofComponent_eq]

/-- **Stated types override inferred ones and nothing else**, whatever names come up repeatedly. -/
theorem typesOverride {π : Type} (records : List (PropRecord π)) (rows more : List TypeRow)
    (m : Module) :
    PropRecord.TypesOverride records rows (PropRecord.applyRows records rows) ∧
      PropRecord.applyRows (PropRecord.applyRows records rows) rows
        = PropRecord.applyRows records rows ∧
      PropRecord.applyRows (PropRecord.applyRows records rows) more
        = PropRecord.applyRows records (rows ++ more) ∧
      analyzeProps m = m.component?.elim [] fun c =>
        PropRecord.applyRows (PropRecord.untyped c) (PropRecord.inlineRows c ++ typeRows m) :=
  ⟨PropRecord.typesOverride_applyRows records rows, PropRecord.applyRows_idem records rows,
    (PropRecord.applyRows_append records rows more).symm, analyzeProps_eq m⟩

end JsxWidgets
