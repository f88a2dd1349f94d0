import Mathlib.Data.List.Basic
import JsxWidgets.Component
import JsxWidgets.Proofs.Syntax.Nodes

/-!
# How the component of a module is found

The component of a module is found among its declarations (`Module.Declares`), in the order of the
text, each of which is looked at by one of three rules. What a declaration has to be in order to
qualify is said by `Qualifies`. The component is the first declaration that qualifies, among those
of the earliest rule by which any does (`Module.Discovers`).

Whatever is appended to a module, its component stays the same, unless something in it qualifies by
an earlier rule; then the component of what is appended takes its place. All this is
`discoveryOrdered`.
-/

namespace JsxWidgets

open Syntax Expression

/-! ### Rules -/

/-- **The rules that find candidates**, in the order of preference. -/
inductive ComponentRule where
  /-- A function declaration. -/
  | function
  /-- A variable. -/
  | binding
  /-- A class. -/
  | classBased
  deriving DecidableEq

/-- The place of a rule in the order. -/
def ComponentRule.rank : ComponentRule → ℕ
  | .function => 0
  | .binding => 1
  | .classBased => 2

/-- What a declaration declares, each with the rule that looks at it. -/
def ruled (d : Node) : List (ComponentRule × Node) :=
  match d.form with
  | .fnDecl | .exportFn => [(.function, d)]
  | .varDecl _ => d.parts.map (.binding, ·)
  | .classDecl | .exportClass => [(.classBased, d)]
  | _ => []

/-- **An item of a module makes a declaration**, by itself or as an export. -/
inductive Makes : Node → Node → Prop
  /-- A declaration as a statement. -/
  | statement (place : Place) (d : Node) : Makes ⟨.declStmt, place, [d]⟩ d
  /-- A declaration behind `export`. -/
  | exported (place : Place) (d : Node) : Makes ⟨.exportDecl, place, [d]⟩ d
  /-- A function that is the default export, with or without a name. -/
  | defaultFunction (place : Place) (parts : List Node) :
    Makes ⟨.exportFn, place, parts⟩ ⟨.exportFn, place, parts⟩
  /-- A class that is the default export. -/
  | defaultClass (place : Place) (parts : List Node) :
    Makes ⟨.exportClass, place, parts⟩ ⟨.exportClass, place, parts⟩

/-- **The top-level and exported declarations of a module**, in order. -/
inductive Syntax.Module.Declares : Module → List (ComponentRule × Node) → Prop
  /-- Without items there are none. -/
  | nil : Declares [] []
  /-- An item that makes a declaration. -/
  | makes {item d : Node} {rest : Module} {ds : List (ComponentRule × Node)} (h : Makes item d)
    (hrest : Declares rest ds) : Declares (item :: rest) (ruled d ++ ds)
  /-- An item that makes none. -/
  | other {item : Node} {rest : Module} {ds : List (ComponentRule × Node)}
    (h : ∀ d, ¬ Makes item d) (hrest : Declares rest ds) : Declares (item :: rest) ds

/-- Something is declared in a module, at its top or as an export. -/
def Syntax.Module.IsDeclared (m : Module) (x : ComponentRule × Node) : Prop :=
  ∃ item ∈ m, ∃ d, Makes item d ∧ x ∈ ruled d

/-- **A value is a function**, possibly wrapped in calls that give back a component. -/
inductive Wraps : Node → Node → Prop
  /-- The function itself, without parentheses and assertions. -/
  | itself {e : Node} (h : e.unwrap.form = .arrow ∨ e.unwrap.form = .functionExpr) :
    Wraps e e.unwrap
  /-- A call whose first argument is a function. -/
  | call {e callee arg types fn : Node} {f g : Form} {p q r : Place} {more : List Node}
    {path : String} (he : e.unwrap = ⟨.call, p, [callee, ⟨f, q, ⟨g, r, [arg]⟩ :: more⟩, types]⟩)
    (hpath : path? callee = some path) (hname : lastName path ∈ componentWrappers)
    (harg : Wraps arg fn) : Wraps e fn

/-- **A declaration qualifies** as a component. -/
inductive Qualifies : ComponentRule × Node → Component → Prop
  /-- A function that returns markup. -/
  | function {form : Form} {place : Place} {name fn x : Node} (h : functionMarkup? fn = some x) :
    Qualifies (.function, ⟨form, place, [name, fn]⟩) ⟨binderName? name, .functional, .function fn⟩
  /-- A variable whose value is an arrow function that gives markup. -/
  | arrow {place namePlace : Place} {name : String} {type : List Node} {value fn x : Node}
    (hvalue : Wraps value fn) (h : arrowMarkup? fn = some x) :
    Qualifies (.binding, ⟨.declarator, place, [⟨.bind name, namePlace, type⟩, value]⟩)
      ⟨some name, .arrow, .arrow fn⟩
  /-- A variable whose value is a function expression that returns markup. -/
  | functionExpr {place namePlace fnPlace : Place} {name : String} {type : List Node}
    {value own fn x : Node} (hvalue : Wraps value ⟨.functionExpr, fnPlace, [own, fn]⟩)
    (h : functionMarkup? fn = some x) :
    Qualifies (.binding, ⟨.declarator, place, [⟨.bind name, namePlace, type⟩, value]⟩)
      ⟨some name, .functional, .function fn⟩
  /-- A class with the parent of a component. -/
  | classBased {form : Form} {place : Place} {name cls : Node} (h : extendsComponent cls = true) :
    Qualifies (.classBased, ⟨form, place, [name, cls]⟩)
      ⟨binderName? name, .classBased, .classBody cls⟩

/-- **The component that a module is found to have**, with the rule that finds it. -/
structure Syntax.Module.Discovers (m : Module) (rule : ComponentRule) (c : Component) : Prop where
  /-- No declaration before it qualifies by the same rule. -/
  first : ∃ before d after, m.Declares (before ++ (rule, d) :: after) ∧ Qualifies (rule, d) c ∧
    ∀ d' c', (rule, d') ∈ before → ¬ Qualifies (rule, d') c'
  /-- No declaration qualifies by an earlier rule. -/
  earliest : ∀ rule' d' c', rule'.rank < rule.rank → m.IsDeclared (rule', d') →
    ¬ Qualifies (rule', d') c'

/-! ### Declarations -/

/-- What the code takes for the declaration of an item is the one that the item makes. -/
theorem declaration?_eq_some_iff {item d : Node} : declaration? item = some d ↔ Makes item d := by
  constructor
  · intro h
    unfold declaration? at h
    split at h
    · cases h; exact .statement _ _
    · cases h; exact .exported _ _
    · cases h; exact .defaultFunction _ _
    · cases h; exact .defaultClass _ _
    · cases h
  · rintro (_ | _ | _ | _) <;> rfl

/-- It finds none exactly if the item makes none. -/
theorem declaration?_eq_none_iff {item : Node} :
    declaration? item = none ↔ ∀ d, ¬ Makes item d := by
  rw [Option.eq_none_iff_forall_ne_some]
  exact forall_congr' fun d => declaration?_eq_some_iff.not

/-- What an item of a module declares. -/
def declared (item : Node) : List (ComponentRule × Node) := (declaration? item).elim [] ruled

/-- What a module declares. -/
def Syntax.Module.declared (m : Module) : List (ComponentRule × Node) :=
  m.flatMap JsxWidgets.declared

/-- The declarations of a module are those of its items, one after the other. -/
theorem declares_iff {m : Module} {ds : List (ComponentRule × Node)} :
    m.Declares ds ↔ ds = m.declared := by
  constructor
  · intro h
    induction h with
    | nil => rfl
    | makes h _ ih =>
      rw [ih, Module.declared, Module.declared, List.flatMap_cons, declared,
        declaration?_eq_some_iff.mpr h, Option.elim_some]
    | other h _ ih =>
      rw [ih, Module.declared, Module.declared, List.flatMap_cons, declared,
        declaration?_eq_none_iff.mpr h, Option.elim_none, List.nil_append]
  · rintro rfl
    induction m with
    | nil => exact .nil
    | cons item rest ih =>
      rw [Module.declared, List.flatMap_cons, declared]
      cases hd : declaration? item with
      | some d => exact .makes (declaration?_eq_some_iff.mp hd) ih
      | none => exact .other (declaration?_eq_none_iff.mp hd) ih

/-- What is declared by the forms of items is in the list of declarations. -/
theorem isDeclared_iff {m : Module} {x : ComponentRule × Node} :
    m.IsDeclared x ↔ x ∈ m.declared := by
  rw [Module.declared, List.mem_flatMap]
  refine exists_congr fun item => and_congr_right fun _ => ?_
  rw [declared]
  constructor
  · rintro ⟨d, hmakes, hx⟩
    rwa [declaration?_eq_some_iff.mpr hmakes]
  · intro hx
    cases hd : declaration? item with
    | some d =>
      rw [hd] at hx
      exact ⟨d, declaration?_eq_some_iff.mp hd, hx⟩
    | none =>
      rw [hd] at hx
      cases hx

/-! ### Wrapped functions -/

/-- Wrappers of expressions make no difference to wrapped functions. -/
theorem wrappedFunction?_unwrap (e : Node) : wrappedFunction? e.unwrap = wrappedFunction? e := by
  fun_induction Node.unwrap e with
  | case1 _ _ ih | case2 _ _ _ ih | case3 _ _ ih | case4 _ _ _ ih | case5 _ _ ih =>
    rw [ih, wrappedFunction?]
  | case6 n => rfl

/-- What a value wraps depends on what stands in its parentheses only. -/
theorem Wraps.of_unwrap_eq {e e' fn : Node} (h : Wraps e' fn) (heq : e.unwrap = e'.unwrap) :
    Wraps e fn := by
  cases h with
  | itself h =>
    rw [← heq] at h ⊢
    exact .itself h
  | call he hpath hname harg => exact .call (heq.trans he) hpath hname harg

/-- A function that is found in wrappers is wrapped in them. -/
theorem wraps_of_wrappedFunction? {e fn : Node} (h : wrappedFunction? e = some fn) :
    Wraps e fn := by
  induction e using Node.induction_below with
  | step e ih =>
    obtain ⟨form, place, parts⟩ := e
    unfold wrappedFunction? at h
    split at h
    -- a function or an arrow is the end of the chain
    case h_6 | h_7 =>
      cases h
      exact Wraps.itself (e := ⟨_, place, parts⟩) (by simp [Node.unwrap])
    -- a call of a known wrapper passes its first argument on
    case h_8 callee f q g r arg more types =>
      split at h
      next hname =>
        obtain ⟨last, hlast, hwrapper⟩ := (Option.any_eq_true _ _).mp hname
        obtain ⟨path, hpath, rfl⟩ := Option.map_eq_some_iff.mp hlast
        have harg : Wraps arg fn := by
          refine ih arg ?_ h
          simp [Node.nodesOf, Node.self_mem_nodes]
        exact Wraps.call rfl hpath (List.contains_iff_mem.mp hwrapper) harg
      next => cases h
    case h_9 => cases h
    -- the parentheses and type assertions are seen through on both sides
    all_goals exact (ih _ (Node.first_mem_nodesOf ..) h).of_unwrap_eq rfl

/-- **A function is found in wrappers exactly if it is wrapped in them.** -/
theorem wrappedFunction?_eq_some_iff {e fn : Node} : wrappedFunction? e = some fn ↔ Wraps e fn := by
  refine ⟨wraps_of_wrappedFunction?, fun h => ?_⟩
  induction h with
  | @itself e h =>
    rw [← wrappedFunction?_unwrap]
    -- only the form below the wrappers counts
    generalize e.unwrap = n at h ⊢
    obtain ⟨form, place, parts⟩ := n
    rcases h with rfl | rfl
    · rfl
    · rfl
  | call he hpath hname harg ih =>
    rw [← wrappedFunction?_unwrap, he]
    unfold wrappedFunction?
    dsimp only
    rw [hpath, if_pos, ih]
    simpa using hname

/-! ### Candidates -/

/-- The candidate that a declaration is. -/
def candidate? : ComponentRule × Node → Option Component
  | (.function, ⟨_, _, [name, fn]⟩) => functionCandidate? (binderName? name) fn
  | (.binding, d) => declaratorCandidate? d
  | (.classBased, ⟨_, _, [name, cls]⟩) => classCandidate? (binderName? name) cls
  | _ => none

/-- A function is a candidate exactly if it returns markup. -/
theorem functionCandidate?_eq_some_iff {name : Option String} {fn : Node} {c : Component} :
    functionCandidate? name fn = some c
      ↔ (∃ x, functionMarkup? fn = some x) ∧ c = ⟨name, .functional, .function fn⟩ := by
  rw [functionCandidate?, Option.map_eq_some_iff]
  exact ⟨fun ⟨x, hx, hc⟩ => ⟨⟨x, hx⟩, hc.symm⟩, fun ⟨⟨x, hx⟩, hc⟩ => ⟨x, hx, hc.symm⟩⟩

/-- A class is a candidate exactly if it extends a component. -/
theorem classCandidate?_eq_some_iff {name : Option String} {cls : Node} {c : Component} :
    classCandidate? name cls = some c
      ↔ extendsComponent cls = true ∧ c = ⟨name, .classBased, .classBody cls⟩ := by
  rw [classCandidate?]
  split
  next h => simp [h, eq_comm]
  next h => simp [h]

/-- Only an arrow function gives markup as one. -/
theorem isArrow_of_arrowMarkup? {fn x : Node} (h : arrowMarkup? fn = some x) :
    fn.form = .arrow := by
  unfold arrowMarkup? at h
  split at h
  next => rfl
  next => cases h

/-- A declaration of a variable that is a candidate qualifies. -/
theorem qualifies_of_declaratorCandidate? {d : Node} {c : Component}
    (h : declaratorCandidate? d = some c) : Qualifies (.binding, d) c := by
  unfold declaratorCandidate? at h
  split at h
  next =>
    split at h
    next hvalue =>
      obtain ⟨x, hx, rfl⟩ := Option.map_eq_some_iff.mp h
      exact .arrow (wraps_of_wrappedFunction? hvalue) hx
    next hvalue =>
      obtain ⟨⟨x, hx⟩, rfl⟩ := functionCandidate?_eq_some_iff.mp h
      exact .functionExpr (wraps_of_wrappedFunction? hvalue) hx
    next => cases h
  next => cases h

/-- **A declaration is a candidate exactly if it qualifies.** -/
theorem candidate?_eq_some_iff {x : ComponentRule × Node} {c : Component} :
    candidate? x = some c ↔ Qualifies x c := by
  constructor
  · intro h
    unfold candidate? at h
    split at h
    next =>
      obtain ⟨⟨x, hx⟩, rfl⟩ := functionCandidate?_eq_some_iff.mp h
      exact .function hx
    next => exact qualifies_of_declaratorCandidate? h
    next =>
      obtain ⟨hparent, rfl⟩ := classCandidate?_eq_some_iff.mp h
      exact .classBased hparent
    next => cases h
  · intro h
    cases h with
    | function hx => exact functionCandidate?_eq_some_iff.mpr ⟨⟨_, hx⟩, rfl⟩
    -- an arrow is the first form the declarator is tried as, a function expression the second
    | @arrow place namePlace name type value fn x hvalue hx =>
      obtain ⟨form, fnPlace, parts⟩ := fn
      obtain rfl : form = .arrow := isArrow_of_arrowMarkup? hx
      rw [candidate?, declaratorCandidate?, wrappedFunction?_eq_some_iff.mpr hvalue]
      dsimp only
      rw [hx]
      rfl
    | functionExpr hvalue hx =>
      rw [candidate?, declaratorCandidate?, wrappedFunction?_eq_some_iff.mpr hvalue]
      exact functionCandidate?_eq_some_iff.mpr ⟨⟨_, hx⟩, rfl⟩
    | classBased h => exact classCandidate?_eq_some_iff.mpr ⟨h, rfl⟩

/-- The candidate that a declaration is by a rule. -/
def candidateBy? (rule : ComponentRule) (x : ComponentRule × Node) : Option Component :=
  if x.1 = rule then candidate? x else none

/-- **A declaration is a candidate by a rule** exactly if the rule looks at it and it qualifies. -/
theorem candidateBy?_eq_some_iff {rule : ComponentRule} {x : ComponentRule × Node} {c : Component} :
    candidateBy? rule x = some c ↔ x.1 = rule ∧ Qualifies x c := by
  rw [candidateBy?]
  split
  next h => rw [candidate?_eq_some_iff, and_iff_right h]
  next h => simp [h]

/-- It is none exactly if it does not qualify where the rule looks. -/
theorem candidateBy?_eq_none_iff {rule : ComponentRule} {x : ComponentRule × Node} :
    candidateBy? rule x = none ↔ (x.1 = rule → ∀ c, ¬ Qualifies x c) := by
  rw [Option.eq_none_iff_forall_ne_some, forall_comm]
  exact forall_congr' fun c => by rw [ne_eq, candidateBy?_eq_some_iff, not_and]

/-- The candidates of a module by a rule. -/
def Syntax.Module.candidatesBy (m : Module) (rule : ComponentRule) : List Component :=
  m.declared.filterMap (candidateBy? rule)

/-- What a declaration that is a function declares is looked at by the first rule, and so on. -/
theorem mem_ruled {d : Node} {x : ComponentRule × Node} (h : x ∈ ruled d) :
    x = (.function, d) ∧ (d.form = .fnDecl ∨ d.form = .exportFn) ∨
      x.1 = .binding ∧ (∃ kind, d.form = .varDecl kind) ∨
      x = (.classBased, d) ∧ (d.form = .classDecl ∨ d.form = .exportClass) := by
  unfold ruled at h
  split at h
  next hform => exact Or.inl ⟨List.mem_singleton.mp h, Or.inl hform⟩
  next hform => exact Or.inl ⟨List.mem_singleton.mp h, Or.inr hform⟩
  next kind hform =>
    obtain ⟨d', -, rfl⟩ := List.mem_map.mp h
    exact Or.inr (Or.inl ⟨rfl, kind, hform⟩)
  next hform => exact Or.inr (Or.inr ⟨List.mem_singleton.mp h, Or.inl hform⟩)
  next hform => exact Or.inr (Or.inr ⟨List.mem_singleton.mp h, Or.inr hform⟩)
  next => cases h

/-- A rule finds nothing in a declaration where nothing qualifies by it. -/
theorem filterMap_candidateBy?_eq_nil {rule : ComponentRule} {d : Node}
    (h : ∀ x ∈ ruled d, x.1 = rule → ∀ c, ¬ Qualifies x c) :
    (ruled d).filterMap (candidateBy? rule) = [] := by
  rw [List.filterMap_eq_nil_iff]
  exact fun x hx => candidateBy?_eq_none_iff.mpr (h x hx)

/-- A single declaration is a candidate by the rule that looks at it, or none. -/
theorem filterMap_candidateBy?_singleton (rule : ComponentRule) (d : Node) :
    [(rule, d)].filterMap (candidateBy? rule) = (candidate? (rule, d)).toList := by
  rw [List.filterMap_cons, List.filterMap_nil, candidateBy?, if_pos rfl]
  cases candidate? (rule, d) <;> rfl

/-- The functions of an item that are candidates are its candidates by the first rule. -/
theorem functionCandidates_eq (item : Node) :
    functionCandidates item = (declared item).filterMap (candidateBy? .function) := by
  rw [functionCandidates, declared]
  split
  next hd =>
    rw [hd]
    exact (filterMap_candidateBy?_singleton .function ⟨.fnDecl, _, [_, _]⟩).symm
  next hd =>
    rw [hd]
    exact (filterMap_candidateBy?_singleton .function ⟨.exportFn, _, [_, _]⟩).symm
  -- no item of another form makes a function declaration, so nothing of this rule qualifies
  next hfn hexport =>
    cases hd : declaration? item with
    | none => rfl
    | some d =>
      refine (filterMap_candidateBy?_eq_nil fun x hx hrule c hc => ?_).symm
      cases hc with
      | @function form place name fn x hmarkup =>
        rcases mem_ruled hx with ⟨heq, hform⟩ | ⟨hrule', -⟩ | ⟨heq, -⟩
        · obtain rfl := (Prod.ext_iff.mp heq).2
          rcases hform with rfl | rfl
          · exact hfn _ _ _ hd
          · exact hexport _ _ _ hd
        · cases hrule'
        · cases heq
      | arrow | functionExpr | classBased => cases hrule

/-- The variables are those by the second rule. -/
theorem declaratorCandidates_eq (item : Node) :
    declaratorCandidates item = (declared item).filterMap (candidateBy? .binding) := by
  rw [declaratorCandidates, declared]
  split
  next hd =>
    rw [hd, Option.elim_some, ruled]
    dsimp only
    rw [List.filterMap_map]
    rfl
  -- what makes no variable declaration makes nothing of this rule
  next hvar =>
    cases hd : declaration? item with
    | none => rfl
    | some d =>
      refine (filterMap_candidateBy?_eq_nil fun x hx hrule c hc => ?_).symm
      rcases mem_ruled hx with ⟨rfl, -⟩ | ⟨-, kind, hform⟩ | ⟨rfl, -⟩
      · cases hrule
      · obtain ⟨form, place, parts⟩ := d
        obtain rfl : form = .varDecl kind := hform
        exact hvar _ _ _ hd
      · cases hrule

/-- The classes are those by the third rule. -/
theorem classCandidates_eq (item : Node) :
    classCandidates item = (declared item).filterMap (candidateBy? .classBased) := by
  rw [classCandidates, declared]
  split
  next hd =>
    rw [hd]
    exact (filterMap_candidateBy?_singleton .classBased ⟨.classDecl, _, [_, _]⟩).symm
  next hd =>
    rw [hd]
    exact (filterMap_candidateBy?_singleton .classBased ⟨.exportClass, _, [_, _]⟩).symm
  -- no item of another form makes a class declaration
  next hcls hexport =>
    cases hd : declaration? item with
    | none => rfl
    | some d =>
      refine (filterMap_candidateBy?_eq_nil fun x hx hrule c hc => ?_).symm
      cases hc with
      | @classBased form place name cls hparent =>
        rcases mem_ruled hx with ⟨heq, -⟩ | ⟨hrule', -⟩ | ⟨heq, hform⟩
        · cases heq
        · cases hrule'
        · obtain rfl := (Prod.ext_iff.mp heq).2
          rcases hform with rfl | rfl
          · exact hcls _ _ _ hd
          · exact hexport _ _ _ hd
      | function | arrow | functionExpr => cases hrule

/-- **The candidates of a module come rule by rule.** -/
theorem candidates_eq (m : Module) :
    m.candidates
      = m.candidatesBy .function ++ m.candidatesBy .binding ++ m.candidatesBy .classBased := by
  have hrule : ∀ (rule : ComponentRule) (f : Node → List Component),
      (∀ item, f item = (declared item).filterMap (candidateBy? rule)) →
        m.flatMap f = m.candidatesBy rule := by
    intro rule f hf
    rw [Module.candidatesBy, Module.declared, List.filterMap_flatMap]
    exact List.flatMap_congr fun item _ => hf item
  rw [Module.candidates, hrule _ _ functionCandidates_eq, hrule _ _ declaratorCandidates_eq,
    hrule _ _ classCandidates_eq]

/-! ### What a rule finds -/

/-- There is none by a rule exactly if no declaration qualifies by it. -/
theorem candidatesBy_eq_nil_iff {m : Module} {rule : ComponentRule} :
    m.candidatesBy rule = [] ↔ ∀ d c, m.IsDeclared (rule, d) → ¬ Qualifies (rule, d) c := by
  simp only [isDeclared_iff]
  rw [Module.candidatesBy, List.filterMap_eq_nil_iff]
  constructor
  · intro h d c hd
    exact candidateBy?_eq_none_iff.mp (h (rule, d) hd) rfl c
  · rintro h ⟨rule', d⟩ hd
    refine candidateBy?_eq_none_iff.mpr fun hrule c => ?_
    obtain rfl : rule' = rule := hrule
    exact h d c hd

/-- The first one by a rule is the first declaration that qualifies by it. -/
theorem head?_candidatesBy_eq_some_iff {m : Module} {rule : ComponentRule} {c : Component} :
    (m.candidatesBy rule).head? = some c ↔
      ∃ before d after, m.Declares (before ++ (rule, d) :: after) ∧ Qualifies (rule, d) c ∧
        ∀ d' c', (rule, d') ∈ before → ¬ Qualifies (rule, d') c' := by
  simp only [declares_iff, eq_comm (b := m.declared)]
  rw [Module.candidatesBy, List.head?_filterMap, List.findSome?_eq_some_iff]
  constructor
  -- what stands before the first candidate qualifies for nothing under this rule
  · rintro ⟨before, ⟨rule', d⟩, after, hsplit, hd, hbefore⟩
    obtain ⟨hrule, hqualifies⟩ := candidateBy?_eq_some_iff.mp hd
    obtain rfl : rule' = rule := hrule
    refine ⟨before, d, after, hsplit, hqualifies, fun d' c' hd' => ?_⟩
    exact candidateBy?_eq_none_iff.mp (hbefore (rule', d') hd') rfl c'
  · rintro ⟨before, d, after, hsplit, hd, hbefore⟩
    refine ⟨before, (rule, d), after, hsplit, candidateBy?_eq_some_iff.mpr ⟨rfl, hd⟩, ?_⟩
    rintro ⟨rule', d'⟩ hd'
    refine candidateBy?_eq_none_iff.mpr fun hrule c' => ?_
    obtain rfl : rule' = rule := hrule
    exact hbefore d' c' hd'

/-- What a module discovers is the first candidate by a rule, with none by an earlier rule. -/
theorem discovers_iff {m : Module} {rule : ComponentRule} {c : Component} :
    m.Discovers rule c ↔ (m.candidatesBy rule).head? = some c ∧
      ∀ rule', rule'.rank < rule.rank → m.candidatesBy rule' = [] := by
  constructor
  · intro h
    exact ⟨head?_candidatesBy_eq_some_iff.mpr h.first, fun rule' hrank =>
      candidatesBy_eq_nil_iff.mpr fun d c' => h.earliest rule' d c' hrank⟩
  · rintro ⟨hfirst, hearliest⟩
    exact ⟨head?_candidatesBy_eq_some_iff.mp hfirst, fun rule' d' c' hrank =>
      candidatesBy_eq_nil_iff.mp (hearliest rule' hrank) d' c'⟩

/-- **The component of a module is what the module discovers.** -/
theorem component?_eq_some_iff {m : Module} {c : Component} :
    m.component? = some c ↔ ∃ rule, m.Discovers rule c := by
  -- The first candidate is the first by a rule by which there are any, all earlier rules being
  -- without.
  have hcases : m.component? = some c ↔
      (m.candidatesBy .function).head? = some c ∨
      m.candidatesBy .function = [] ∧ (m.candidatesBy .binding).head? = some c ∨
      m.candidatesBy .function = [] ∧ m.candidatesBy .binding = [] ∧
        (m.candidatesBy .classBased).head? = some c := by
    rw [Module.component?, candidates_eq, List.append_assoc, List.head?_append, List.head?_append,
      Option.or_eq_some_iff, Option.or_eq_some_iff, List.head?_eq_none_iff, List.head?_eq_none_iff,
      and_or_left]
  rw [hcases]
  constructor
  · rintro (h | ⟨hfunction, h⟩ | ⟨hfunction, hbinding, h⟩)
    · exact ⟨.function, discovers_iff.mpr ⟨h, fun rule' hrank => absurd hrank (Nat.not_lt_zero _)⟩⟩
    · refine ⟨.binding, discovers_iff.mpr ⟨h, fun rule' hrank => ?_⟩⟩
      cases rule' with
      | function => exact hfunction
      | binding | classBased => exact absurd hrank (by decide)
    · refine ⟨.classBased, discovers_iff.mpr ⟨h, fun rule' hrank => ?_⟩⟩
      cases rule' with
      | function => exact hfunction
      | binding => exact hbinding
      | classBased => exact absurd hrank (by decide)
  · rintro ⟨rule, h⟩
    obtain ⟨hfirst, hearliest⟩ := discovers_iff.mp h
    cases rule with
    | function => exact Or.inl hfirst
    | binding => exact Or.inr (Or.inl ⟨hearliest .function (by decide), hfirst⟩)
    | classBased =>
      have hfunction := hearliest .function (by decide)
      exact Or.inr (Or.inr ⟨hfunction, hearliest .binding (by decide), hfirst⟩)

/-- A module has no component exactly if no declaration qualifies. -/
theorem component?_eq_none_iff {m : Module} :
    m.component? = none ↔ ∀ x, m.IsDeclared x → ∀ c, ¬ Qualifies x c := by
  -- no component means that no tier has a candidate
  have hcandidates : m.component? = none ↔ ∀ rule, m.candidatesBy rule = [] := by
    rw [Module.component?, List.head?_eq_none_iff, candidates_eq, List.append_eq_nil_iff,
      List.append_eq_nil_iff]
    refine ⟨fun ⟨⟨hfunction, hbinding⟩, hclass⟩ rule => ?_, fun h => ⟨⟨h _, h _⟩, h _⟩⟩
    cases rule with
    | function => exact hfunction
    | binding => exact hbinding
    | classBased => exact hclass
  rw [hcandidates]
  constructor
  · rintro h ⟨rule, d⟩ hd c
    exact candidatesBy_eq_nil_iff.mp (h rule) d c hd
  · exact fun h rule => candidatesBy_eq_nil_iff.mpr fun d c hd => h (rule, d) hd c

/-! ### Modules that grow -/

/-- The declarations of items that are appended are appended. -/
theorem Syntax.Module.Declares.append {m more : Module} {ds ds' : List (ComponentRule × Node)}
    (h : m.Declares ds) (h' : more.Declares ds') : (m ++ more).Declares (ds ++ ds') := by
  rw [declares_iff] at h h' ⊢
  rw [h, h', Module.declared, Module.declared, Module.declared, List.flatMap_append]

/-- What is declared in a module that has grown is declared in one of the two parts. -/
theorem isDeclared_append {m more : Module} {x : ComponentRule × Node} :
    (m ++ more).IsDeclared x ↔ m.IsDeclared x ∨ more.IsDeclared x := by
  simp only [Module.IsDeclared, List.mem_append, or_and_right, exists_or]

/-- What is appended changes nothing if it has no candidate of an earlier rule. -/
theorem Syntax.Module.Discovers.append {m more : Module} {rule : ComponentRule} {c : Component}
    (h : m.Discovers rule c) (hmore : ∀ x, more.IsDeclared x → ∀ c', x.1.rank < rule.rank →
      ¬ Qualifies x c') : (m ++ more).Discovers rule c := by
  obtain ⟨⟨before, d, after, hsplit, hd, hbefore⟩, hearliest⟩ := h
  refine ⟨⟨before, d, after ++ more.declared, ?_, hd, hbefore⟩, fun rule' d' c' hrank hd' => ?_⟩
  · rw [← List.cons_append, ← List.append_assoc]
    exact hsplit.append (declares_iff.mpr rfl)
  · rcases isDeclared_append.mp hd' with hd' | hd'
    · exact hearliest rule' d' c' hrank hd'
    · exact hmore (rule', d') hd' c' hrank

/-- What is appended prevails with a candidate of an earlier rule. -/
theorem Syntax.Module.Discovers.append_earlier {m more : Module} {rule rule' : ComponentRule}
    {c c' : Component} (h : m.Discovers rule c) (h' : more.Discovers rule' c')
    (hrank : rule'.rank < rule.rank) : (m ++ more).Discovers rule' c' := by
  obtain ⟨⟨before, d, after, hsplit, hd, hbefore⟩, hearliest⟩ := h'
  refine ⟨⟨m.declared ++ before, d, after, ?_, hd, fun d' c'' hd' => ?_⟩,
    fun rule'' d' c'' hrank' hd' => ?_⟩
  · rw [List.append_assoc]
    exact Module.Declares.append (declares_iff.mpr rfl) hsplit
  · rcases List.mem_append.mp hd' with hd' | hd'
    · exact h.earliest rule' d' c'' hrank (isDeclared_iff.mpr hd')
    · exact hbefore d' c'' hd'
  · rcases isDeclared_append.mp hd' with hd' | hd'
    · exact h.earliest rule'' d' c'' (Nat.lt_trans hrank' hrank) hd'
    · exact hearliest rule'' d' c'' hrank' hd'

/-- If something qualifies by a rule, the component is found by that rule or an earlier one. -/
theorem exists_discovers_of_qualifies {m : Module} {x : ComponentRule × Node} {c : Component}
    (hx : m.IsDeclared x) (hc : Qualifies x c) :
    ∃ rule c', m.Discovers rule c' ∧ rule.rank ≤ x.1.rank := by
  cases hcomponent : m.component? with
  | none => exact absurd hc (component?_eq_none_iff.mp hcomponent x hx c)
  | some c' =>
    obtain ⟨rule, hrule⟩ := component?_eq_some_iff.mp hcomponent
    refine ⟨rule, c', hrule, Nat.le_of_not_lt fun hrank => ?_⟩
    exact hrule.earliest x.1 x.2 c hrank hx hc

/-- **How the component of a module is found.** -/
structure DiscoveryOrdered (m : Module) : Prop where
  /-- It is the first declaration that qualifies, among those of the earliest rule by which any
  does. -/
  found : ∀ c, m.component? = some c ↔ ∃ rule, m.Discovers rule c
  /-- There is none exactly if no declaration qualifies. -/
  none : m.component? = none ↔ ∀ x, m.IsDeclared x → ∀ c, ¬ Qualifies x c
  /-- It stays the same in front of items without candidates of an earlier rule. -/
  stable : ∀ rule c, m.Discovers rule c → ∀ more : Module,
    (∀ x, more.IsDeclared x → ∀ c', x.1.rank < rule.rank → ¬ Qualifies x c') →
      (m ++ more).component? = some c
  /-- In front of others, the component is theirs. -/
  overtaken : ∀ rule c, m.Discovers rule c → ∀ more : Module,
    (∃ x, more.IsDeclared x ∧ ∃ c', x.1.rank < rule.rank ∧ Qualifies x c') →
      (m ++ more).component? = more.component?
  /-- If it has a name, that is the first of the names of the candidates. -/
  name : ∀ c name, m.component? = some c → c.name = some name → m.candidateNames.head? = some name

/-- **The component of a module is found in order, and stays the same** whatever is appended, unless
that has a candidate of an earlier rule. -/
theorem discoveryOrdered (m : Module) : DiscoveryOrdered m where
  found _ := component?_eq_some_iff
  none := component?_eq_none_iff
  stable rule c h more hmore := component?_eq_some_iff.mpr ⟨rule, h.append hmore⟩
  overtaken := by
    rintro rule c h more ⟨x, hx, c', hrank, hc'⟩
    obtain ⟨rule', c'', hrule', hle⟩ := exists_discovers_of_qualifies hx hc'
    have happend := h.append_earlier hrule' (Nat.lt_of_le_of_lt hle hrank)
    rw [component?_eq_some_iff.mpr ⟨rule', happend⟩, component?_eq_some_iff.mpr ⟨rule', hrule'⟩]
  name c name hc hname := by
    obtain ⟨rest, hcandidates⟩ := List.head?_eq_some_iff.mp hc
    rw [Module.candidateNames, hcandidates, List.filterMap_cons, hname, List.head?_cons]

end JsxWidgets
