import JsxWidgets.Proofs.Text.Tables
import JsxWidgets.Structure

/-!
# The structure of modules that are joined

The census carries what surrounds a node down into its parts and hands nothing back. So every item
of a module is entered in the same state, whatever items stand in front of it, and the facts about
two modules that are joined are those about the first one followed by those about the second one
(`Census.ofModule_append`). Everything that is counted from the facts follows: lists are joined,
counts are added key by key, sets are united, and the greater of two depths is that of both
(`joined_append`).

The classes of complexity are bounds on four numbers, none of which shrinks. So a module is never
simpler than a part of it.
-/

namespace JsxWidgets

open Syntax

/-! ### Classes of complexity -/

/-- The place of a class of complexity among the classes. -/
def Complexity.rank : Complexity → Nat
  | .simple => 0
  | .moderate => 1
  | .complex => 2

instance : LE Complexity := ⟨fun c d => c.rank ≤ d.rank⟩

theorem Complexity.classify_eq (elements depth attributes hooks : Nat) :
    classify elements depth attributes hooks =
      if 20 < elements ∨ 5 < depth ∨ 15 < attributes ∨ 3 < hooks then .complex
      else if 10 < elements ∨ 3 < depth ∨ 8 < attributes ∨ 1 < hooks then .moderate
      else .simple := by
  simp only [classify, Bool.or_eq_true, decide_eq_true_eq, gt_iff_lt, or_assoc]

/-- **With greater numbers the class of complexity is not lower.** -/
theorem Complexity.classify_mono {elements elements' depth depth' attributes attributes' hooks
    hooks' : Nat} (helements : elements ≤ elements') (hdepth : depth ≤ depth')
    (hattributes : attributes ≤ attributes') (hhooks : hooks ≤ hooks') :
    classify elements depth attributes hooks
      ≤ classify elements' depth' attributes' hooks' := by
  change (classify elements depth attributes hooks).rank
    ≤ (classify elements' depth' attributes' hooks').rank
  rw [classify_eq, classify_eq]
  split
  · -- A number beyond a bound stays beyond it.
    next hcomplex =>
    rw [if_pos (by omega)]
  · split
    · next hmoderate =>
      split
      · exact Nat.le_succ 1
      · rw [if_pos (by omega)]
    · exact Nat.zero_le _

/-! ### Facts -/

/-- **The facts about modules that are joined** are those about the one and those about the
other. -/
theorem Census.ofModule_append (config : Config) (a b : Module) :
    ofModule config (a ++ b) = ofModule config a ++ ofModule config b := List.flatMap_append

theorem foldl_max_append (xs ys : List Nat) :
    (xs ++ ys).foldl max 0 = max (xs.foldl max 0) (ys.foldl max 0) := by
  have hstart : ∀ n, ys.foldl max n = max n (ys.foldl max 0) := fun n => by
    rw [← @List.foldl_assoc _ max, Nat.max_zero]
  rw [List.foldl_append, hstart]

/-- **A structure joined from two**, with a bound on the number of texts that are shown. -/
structure ComponentStructure.Joined (limit : Nat) (first second whole : ComponentStructure) :
    Prop where
  /-- Imports are joined. -/
  imports : whole.imports = first.imports ++ second.imports
  /-- Exports are joined. -/
  exports : whole.exports = first.exports ++ second.exports
  /-- Calls of hooks are joined. -/
  hooks : whole.hooks = first.hooks ++ second.hooks
  /-- Attributes are joined. -/
  observations : whole.observations = first.observations ++ second.observations
  /-- The counts of the tags add up. -/
  elements : whole.elements = Text.addCounts first.elements second.elements
  /-- The counts of the names of attributes add up. -/
  attributes : whole.attributes = Text.addCounts first.attributes second.attributes
  /-- The counts of the tags that name no component add up. -/
  htmlElements : whole.htmlElements = Text.addCounts first.htmlElements second.htmlElements
  /-- Class names are united. -/
  classNames : whole.classNames = Text.unite first.classNames second.classNames
  /-- Components are united. -/
  customComponents :
    whole.customComponents = Text.unite first.customComponents second.customComponents
  /-- The names of event handlers are united. -/
  eventHandlers : whole.eventHandlers = Text.unite first.eventHandlers second.eventHandlers
  /-- The numbers of elements add up. -/
  totalElements : whole.totalElements = first.totalElements + second.totalElements
  /-- The greater depth counts. -/
  maxDepth : whole.maxDepth = max first.maxDepth second.maxDepth
  /-- The first texts of both are shown. -/
  textSamples : whole.textSamples = (first.textSamples ++ second.textSamples).take limit
  /-- The whole is not simpler than its first part. -/
  first_le : first.complexity ≤ whole.complexity
  /-- The whole is not simpler than its second part. -/
  second_le : second.complexity ≤ whole.complexity

theorem take_take_append {α : Type} (limit : Nat) (xs ys : List α) :
    (xs.take limit ++ ys.take limit).take limit = (xs ++ ys).take limit := by
  rw [List.take_append, List.take_append, List.take_take, List.take_take, Nat.min_self,
    List.length_take]
  congr 2
  omega

theorem complexity_analyzeStructure (m : Module) (path : String) (config : Config) :
    (analyzeStructure m path config).complexity
      = .classify (analyzeStructure m path config).totalElements
          (analyzeStructure m path config).maxDepth
          (analyzeStructure m path config).totalProps
          (analyzeStructure m path config).hooks.length := rfl

section Append

variable (a b : Module) (path : String) (config : Config)

/-! What is read off the facts one by one is joined as they are. -/

theorem Census.tags_append : tags (ofModule config (a ++ b))
    = tags (ofModule config a) ++ tags (ofModule config b) := by
  rw [ofModule_append]
  exact List.filterMap_append

theorem observations_append : (analyzeStructure (a ++ b) path config).observations
    = (analyzeStructure a path config).observations
      ++ (analyzeStructure b path config).observations :=
  (congrArg Census.observations (Census.ofModule_append config a b)).trans List.filterMap_append

theorem hooks_append : (analyzeStructure (a ++ b) path config).hooks
    = (analyzeStructure a path config).hooks ++ (analyzeStructure b path config).hooks :=
  (congrArg Census.hooks (Census.ofModule_append config a b)).trans List.filterMap_append

/-! Lengths add up, and the greater depth remains. -/

theorem totalElements_append : (analyzeStructure (a ++ b) path config).totalElements
    = (analyzeStructure a path config).totalElements
      + (analyzeStructure b path config).totalElements :=
  (congrArg List.length (Census.tags_append a b config)).trans List.length_append

theorem totalProps_append : (analyzeStructure (a ++ b) path config).totalProps
    = (analyzeStructure a path config).totalProps + (analyzeStructure b path config).totalProps :=
  (congrArg List.length (observations_append a b path config)).trans List.length_append

theorem maxDepth_append : (analyzeStructure (a ++ b) path config).maxDepth
    = max (analyzeStructure a path config).maxDepth (analyzeStructure b path config).maxDepth := by
  change (Census.depths (Census.ofModule config (a ++ b))).foldl max 0 = _
  rw [Census.ofModule_append, Census.depths, List.filterMap_append]
  exact foldl_max_append ..

/-- **A module is not simpler than its parts.** -/
theorem complexity_append :
    (analyzeStructure a path config).complexity ≤ (analyzeStructure (a ++ b) path config).complexity
      ∧ (analyzeStructure b path config).complexity
        ≤ (analyzeStructure (a ++ b) path config).complexity := by
  have hcalls := (congrArg List.length (hooks_append a b path config)).trans List.length_append
  rw [complexity_analyzeStructure (a ++ b), totalElements_append, maxDepth_append,
    totalProps_append, hcalls]
  constructor
  · exact Complexity.classify_mono (Nat.le_add_right ..) (Nat.le_max_left ..)
      (Nat.le_add_right ..) (Nat.le_add_right ..)
  · exact Complexity.classify_mono (Nat.le_add_left ..) (Nat.le_max_right ..)
      (Nat.le_add_left ..) (Nat.le_add_left ..)

end Append

/-- **The census is compositional**: the structure of the items of two modules is joined from the
structures of the two. -/
theorem joined_append (a b : Module) (path : String) (config : Config) :
    (analyzeStructure a path config).Joined config.textSampleLimit (analyzeStructure b path config)
      (analyzeStructure (a ++ b) path config) := by
  have hfacts := Census.ofModule_append config a b
  constructor
  case imports => exact (congrArg Census.imports hfacts).trans List.filterMap_append
  case exports => exact (congrArg Census.exports hfacts).trans List.filterMap_append
  case hooks => exact hooks_append a b path config
  case observations => exact observations_append a b path config
  -- a tally of two lists is the sum of the tallies, here and in the cases alike
  case elements =>
    change Text.tally ((Census.tags (Census.ofModule config (a ++ b))).map _) = _
    rw [Census.tags_append, List.map_append]
    exact Text.tally_append ..
  case attributes =>
    change Text.tally ((analyzeStructure (a ++ b) path config).observations.map _) = _
    rw [observations_append, List.map_append]
    exact Text.tally_append ..
  case htmlElements =>
    change Text.tally (((Census.tags (Census.ofModule config (a ++ b))).filter _).map _) = _
    rw [Census.tags_append, List.filter_append, List.map_append]
    exact Text.tally_append ..
  case classNames =>
    change Text.sortedSet (Census.classTokens (Census.ofModule config (a ++ b))) = _
    rw [hfacts, Census.classTokens, List.filterMap_append]
    exact Text.sortedSet_append ..
  case customComponents =>
    change Text.sortedSet (((Census.tags (Census.ofModule config (a ++ b))).filter _).map _) = _
    rw [Census.tags_append, List.filter_append, List.map_append]
    exact Text.sortedSet_append ..
  case eventHandlers =>
    change Text.sortedSet
      (((analyzeStructure (a ++ b) path config).observations.map _).filter _) = _
    rw [observations_append, List.map_append, List.filter_append]
    exact Text.sortedSet_append ..
  case totalElements => exact totalElements_append a b path config
  case maxDepth => exact maxDepth_append a b path config
  -- the limit is met by the joined list, not by each of the two
  case textSamples =>
    change (Census.samples (Census.ofModule config (a ++ b))).take config.textSampleLimit = _
    rw [hfacts, Census.samples, List.filterMap_append]
    exact (take_take_append ..).symm
  case first_le => exact (complexity_append a b path config).1
  case second_le => exact (complexity_append a b path config).2

end JsxWidgets
