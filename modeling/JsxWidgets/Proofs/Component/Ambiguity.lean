import JsxWidgets.Proofs.Component.Discovery
import JsxWidgets.Structure

/-!
# When a module is reported as ambiguous

It is clear what the component of a module is if exactly one of its declarations qualifies
(`Module.qualified`). The analysis of the structure asks two questions in place of this one: whether
there is a component at all, and whether the candidates have more than one name. Only default
exports may go without a name, so the two questions miss a module in which all candidates but one
are such exports (`ambiguityReported_iff`).

The declarations that qualify are listed in the order of preference, so that the first of them is
the one that the component is (`component?_eq_head?`).
-/

namespace JsxWidgets

open Syntax Expression

/-! ### Declarations that qualify -/

/-- The rules, in the order of preference. -/
def ComponentRule.all : List ComponentRule := [.function, .binding, .classBased]

theorem ComponentRule.mem_all (rule : ComponentRule) : rule ∈ all := by
  cases rule <;> decide

/-- **The declarations of a module that qualify as components**, those of an earlier rule first. -/
def Syntax.Module.qualified (m : Module) : List (ComponentRule × Node) :=
  ComponentRule.all.flatMap fun rule =>
    m.declared.filter fun x => x.1 = rule && (candidate? x).isSome

/-- They are those that are declared and qualify. -/
theorem mem_qualified {m : Module} {x : ComponentRule × Node} :
    x ∈ m.qualified ↔ m.IsDeclared x ∧ ∃ c, Qualifies x c := by
  have hqualifies : (candidate? x).isSome ↔ ∃ c, Qualifies x c := by
    rw [Option.isSome_iff_exists]
    exact exists_congr fun c => candidate?_eq_some_iff
  rw [Module.qualified, List.mem_flatMap, isDeclared_iff, ← hqualifies]
  constructor
  · rintro ⟨rule, -, hx⟩
    obtain ⟨hdeclared, hfits⟩ := List.mem_filter.mp hx
    exact ⟨hdeclared, ((Bool.and_eq_true _ _).mp hfits).2⟩
  · rintro ⟨hdeclared, hsome⟩
    refine ⟨x.1, x.1.mem_all, List.mem_filter.mpr ⟨hdeclared, ?_⟩⟩
    rw [hsome, decide_eq_true rfl, Bool.true_and]

/-- The candidates of a module are its declarations that qualify, one for one. -/
theorem candidates_eq_filterMap (m : Module) : m.candidates = m.qualified.filterMap candidate? := by
  have hrule : ∀ rule, m.candidatesBy rule
      = (m.declared.filter fun x => x.1 = rule && (candidate? x).isSome).filterMap candidate? := by
    intro rule
    rw [Module.candidatesBy, List.filterMap_filter]
    refine List.filterMap_congr fun x _ => ?_
    rw [candidateBy?]
    by_cases hx : x.1 = rule
    · cases candidate? x <;> simp [hx]
    · simp [hx]
  rw [candidates_eq, hrule, hrule, hrule, ← List.filterMap_append, ← List.filterMap_append,
    Module.qualified, ComponentRule.all, List.flatMap_cons, List.flatMap_cons,
    List.flatMap_singleton, List.append_assoc]

theorem exists_candidate? {m : Module} {x : ComponentRule × Node} (hx : x ∈ m.qualified) :
    ∃ c, candidate? x = some c := by
  obtain ⟨-, c, hc⟩ := mem_qualified.mp hx
  exact ⟨c, candidate?_eq_some_iff.mpr hc⟩

theorem length_candidates (m : Module) : m.candidates.length = m.qualified.length := by
  rw [candidates_eq_filterMap, List.length_filterMap_eq_countP, List.countP_eq_length]
  intro x hx
  obtain ⟨c, hc⟩ := exists_candidate? hx
  rw [hc, Option.isSome_some]

/-- The component of a module is what the first of these declarations declares. -/
theorem component?_eq_head? (m : Module) : m.component? = m.qualified.head?.bind candidate? := by
  rw [Module.component?, candidates_eq_filterMap]
  cases hqualified : m.qualified with
  | nil => rfl
  | cons x rest =>
    obtain ⟨c, hc⟩ := exists_candidate? (m := m) (hqualified ▸ List.mem_cons_self)
    rw [List.filterMap_cons_some hc, List.head?_cons, List.head?_cons, Option.bind_some, hc]

/-! ### Reports -/

/-- The declarations of a module that qualify and have a name. -/
def Syntax.Module.named (m : Module) : List (ComponentRule × Node) :=
  m.qualified.filter fun x => (candidate? x).any (·.name.isSome)

theorem length_candidateNames (m : Module) : m.candidateNames.length = m.named.length := by
  rw [Module.candidateNames, candidates_eq_filterMap, List.filterMap_filterMap,
    List.length_filterMap_eq_countP, Module.named, ← List.countP_eq_length_filter]
  refine List.countP_congr fun x _ => ?_
  cases candidate? x <;> simp

theorem length_named_le (m : Module) : m.named.length ≤ m.qualified.length :=
  List.length_filter_le _ _

theorem isSome_component?_iff (m : Module) :
    m.component?.isSome = true ↔ m.qualified.length ≠ 0 := by
  rw [← length_candidates, Module.component?, List.isSome_head?, ne_eq, ne_eq,
    List.length_eq_zero_iff]

/-- A report is made if no declaration qualifies, or more than one with a name. -/
theorem exists_ambiguity_iff (m : Module) :
    (∃ d ∈ componentDiagnostics m, d.kind = .structuralAmbiguity)
      ↔ m.qualified.length = 0 ∨ 1 < m.named.length := by
  have hnone := isSome_component?_iff m
  rw [← length_candidateNames, componentDiagnostics]
  by_cases hsome : m.component?.isSome = true <;> by_cases hseveral : m.candidateNames.length > 1
  · simp [hsome, hseveral]
  · simpa [hsome, hseveral] using hnone.mp hsome
  · simp [hsome, hseveral]
  · simpa [hsome, hseveral] using hnone

/-- Whether a module is reported as ambiguous exactly if the number of its declarations that qualify
is not one. -/
def AmbiguityReported (m : Module) (path : String) (config : Config) : Prop :=
  (∃ d ∈ (analyzeStructure m path config).diagnostics, d.kind = .structuralAmbiguity)
    ↔ m.qualified.length ≠ 1

instance (m : Module) (path : String) (config : Config) :
    Decidable (AmbiguityReported m path config) :=
  inferInstanceAs (Decidable (_ ↔ _))

/-- **A module is reported as ambiguous exactly if it is,** unless two declarations or more qualify
of which at most one has a name. -/
theorem ambiguityReported_iff (m : Module) (path : String) (config : Config) :
    AmbiguityReported m path config ↔ m.qualified.length ≤ 1 ∨ 1 < m.named.length := by
  have hreport : (∃ d ∈ (analyzeStructure m path config).diagnostics, d.kind = .structuralAmbiguity)
      ↔ m.qualified.length = 0 ∨ 1 < m.named.length := exists_ambiguity_iff m
  have hle := length_named_le m
  rw [AmbiguityReported, hreport]
  omega

/-- The function of `() { return <p/>; }`. -/
def renderingFunction : Node :=
  ⟨.fn, 0, [.list [], ⟨.body, 0, [⟨.give, 0, [⟨.markup, 0, [⟨.element, 0,
    [⟨.opening (.simple "p"), 0, [.list [], .list []]⟩, .list [], .absent]⟩]⟩]⟩]⟩,
    .list [], .absent]⟩

/-- The module of `export default function () { return <p/>; } function A() { return <p/>; }`. -/
def namelessAndNamed : Module :=
  [⟨.exportFn, 0, [.absent, renderingFunction]⟩,
    ⟨.declStmt, 0, [⟨.fnDecl, 0, [.leaf (.binder "A") 0, renderingFunction]⟩]⟩]

/-- A candidate without a name is passed over in silence when there is only one with a name. -/
theorem not_ambiguityReported_namelessAndNamed :
    namelessAndNamed.qualified.length = 2 ∧
    (analyzeStructure namelessAndNamed "" default).diagnostics.length = 0 ∧
    ¬ AmbiguityReported namelessAndNamed "" default :=
  ⟨by decide, by decide, by decide⟩

end JsxWidgets
