import JsxWidgets.Proofs.Text.Order
import JsxWidgets.Proofs.Widget.Noted

/-!
# What a builder gathers

A builder keeps a finite set of class names, one of components, and a list of diagnostics, and every
step of the lowering may change them (`Gathering`). Notes are what such a step leaves behind. That a
step does in every state what notes say (`Gathering.Does`) goes through sequences of steps, so the
state in front of a step decides neither its result nor what it leaves behind.
-/

namespace JsxWidgets

open Syntax

/-! ### The state -/

/-- **What a builder has gathered so far.** -/
@[ext]
structure Gathered where
  /-- The class names. -/
  classNames : Finset String := ∅
  /-- The components. -/
  components : Finset String := ∅
  /-- The diagnostics, in the order in which they came. -/
  diagnostics : List (Diagnostic Location) := []

namespace Gathered

/-- The unions of two states, and the diagnostics of one behind those of the other. -/
def append (s t : Gathered) : Gathered :=
  ⟨s.classNames ∪ t.classNames, s.components ∪ t.components, s.diagnostics ++ t.diagnostics⟩

instance : Append Gathered := ⟨append⟩

/-- The unions of several states, and their diagnostics one after the other. -/
def join (states : List Gathered) : Gathered := states.foldr (· ++ ·) {}

/-- The state behind notes: each name goes into its set, and each diagnostic behind the others. -/
def note (s : Gathered) (n : Notes) : Gathered where
  classNames := n.classNames.foldl (fun set name => insert name set) s.classNames
  components := n.components.foldl (fun set name => insert name set) s.components
  diagnostics := s.diagnostics ++ n.diagnostics

/-- The tree of a builder with its root: the sets are listed in order. -/
def finish (s : Gathered) (name : Option String) (root : Widget) : LoweredTree where
  componentName := name
  root := root
  classNames := s.classNames.sort (· ≤ ·)
  customComponents := s.components.sort (· ≤ ·)
  diagnostics := s.diagnostics

section Append

variable (s t u : Gathered) (m n : Notes)

@[simp] theorem classNames_append : (s ++ t).classNames = s.classNames ∪ t.classNames := rfl

@[simp] theorem components_append : (s ++ t).components = s.components ∪ t.components := rfl

@[simp] theorem diagnostics_append : (s ++ t).diagnostics = s.diagnostics ++ t.diagnostics := rfl

theorem empty_append : {} ++ s = s :=
  Gathered.ext (Finset.empty_union _) (Finset.empty_union _) (List.nil_append _)

theorem append_empty : s ++ {} = s :=
  Gathered.ext (Finset.union_empty _) (Finset.union_empty _) (List.append_nil _)

theorem append_assoc : s ++ t ++ u = s ++ (t ++ u) :=
  Gathered.ext (Finset.union_assoc _ _ _) (Finset.union_assoc _ _ _) (List.append_assoc _ _ _)

/-- One after the other into a set. -/
theorem foldl_insert (names : List String) (set : Finset String) :
    names.foldl (fun set name => insert name set) set = set ∪ names.toFinset := by
  induction names generalizing set with
  | nil => exact (Finset.union_empty set).symm
  | cons name names ih =>
    rw [List.foldl_cons, ih, List.toFinset_cons, Finset.insert_union, Finset.union_insert]

/-- Noting class names adds them to the set. -/
@[simp] theorem classNames_note : (s.note n).classNames = s.classNames ∪ n.classNames.toFinset :=
  foldl_insert _ _

/-- Noting components adds them to the set. -/
@[simp] theorem components_note : (s.note n).components = s.components ∪ n.components.toFinset :=
  foldl_insert _ _

theorem note_empty : s.note {} = s := by
  refine Gathered.ext ?_ ?_ (List.append_nil _)
  · rw [classNames_note, List.toFinset_nil, Finset.union_empty]
  · rw [components_note, List.toFinset_nil, Finset.union_empty]

/-- Notes one behind the other are noted one after the other. -/
theorem note_append : s.note (m ++ n) = (s.note m).note n := by
  refine Gathered.ext ?_ ?_ (List.append_assoc _ _ _).symm
  · simp only [classNames_note, Notes.classNames_append, List.toFinset_append, Finset.union_assoc]
  · simp only [components_note, Notes.components_append, List.toFinset_append, Finset.union_assoc]

/-- Notes add to a state what they leave behind on their own. -/
theorem append_note : s ++ t.note n = (s ++ t).note n := by
  refine Gathered.ext ?_ ?_ (List.append_assoc _ _ _).symm
  · simp only [classNames_note, classNames_append, Finset.union_assoc]
  · simp only [components_note, components_append, Finset.union_assoc]

/-- Noting is appending what has been noted from nothing. -/
theorem note_eq_append : s.note n = s ++ ({} : Gathered).note n := by
  rw [append_note, append_empty]

end Append

theorem join_cons (s : Gathered) (states : List Gathered) : join (s :: states) = s ++ join states :=
  rfl

end Gathered

/-! ### Steps -/

/-- **A step that may change what is gathered.** -/
abbrev Gathering (α : Type) := StateM Gathered α

namespace Gathering

variable {α β : Type}

/-- Gathers at once what a single construct notes. -/
def perform (x : Noted α) : Gathering α := do
  modify (·.note x.notes)
  return x.value

/-- A step that does in every state what notes say. -/
def Does (step : Gathering α) (x : Noted α) : Prop :=
  ∀ s : Gathered, step.run s = (x.value, s.note x.notes)

theorem Does.pure (a : α) : Does (Pure.pure a) (Pure.pure a) := by
  intro s
  rw [StateT.run_pure, Noted.notes_pure, Gathered.note_empty]
  rfl

/-- What a result with notes does is to note them. -/
theorem does_perform (x : Noted α) : (perform x).Does x := fun _ => rfl

/-- One step behind another one. -/
theorem Does.bind {step : Gathering α} {x : Noted α} {next : α → Gathering β} {f : α → Noted β}
    (hstep : step.Does x) (hnext : ∀ a, (next a).Does (f a)) : (step >>= next).Does (x >>= f) := by
  intro s
  have hrun : (step >>= next).run s = (next x.value).run (s.note x.notes) := by
    rw [StateT.run_bind, hstep s]
    rfl
  rw [hrun, hnext, Noted.value_bind, Noted.notes_bind, Gathered.note_append]

/-- A function on the result changes nothing of what is done. -/
theorem Does.map {step : Gathering α} {x : Noted α} (h : step.Does x) (f : α → β) :
    (f <$> step).Does (f <$> x) := by
  rw [map_eq_pure_bind, map_eq_pure_bind]
  exact h.bind fun a => .pure (f a)

/-- **In every state, a step gives what it gives at the start, and leaves behind what it leaves
behind at the start, added to the state.** -/
theorem Does.run_eq {step : Gathering α} {x : Noted α} (h : step.Does x) (s : Gathered) :
    step.run s = ((step.run {}).1, s ++ (step.run {}).2) := by
  have hstart : step.run {} = (x.value, ({} : Gathered).note x.notes) := h {}
  rw [h s, hstart, Gathered.note_eq_append]

/-- The same for a sequence of steps that each do what notes say: every step gives what it gives at
the start, and what they leave behind adds up. -/
theorem run_mapM {step : α → Gathering β} {f : α → Noted β} (h : ∀ a, (step a).Does (f a))
    (items : List α) (s : Gathered) :
    (items.mapM step).run s = (items.map fun a => ((step a).run {}).1,
      s ++ Gathered.join (items.map fun a => ((step a).run {}).2)) := by
  -- each step starts from what was gathered so far, hence it is general
  induction items generalizing s with
  | nil =>
    rw [List.mapM_nil, StateT.run_pure, List.map_nil, List.map_nil, Gathered.join, List.foldr_nil,
      Gathered.append_empty]
    rfl
  | cons a items ih =>
    have hfirst := (h a).run_eq s
    have hrun : ((a :: items).mapM step).run s =
        (((step a).run {}).1 :: ((items.mapM step).run (s ++ ((step a).run {}).2)).1,
          ((items.mapM step).run (s ++ ((step a).run {}).2)).2) := by
      rw [List.mapM_cons, StateT.run_bind, hfirst]
      rfl
    rw [hrun, ih, List.map_cons, List.map_cons, Gathered.join_cons, Gathered.append_assoc]

end Gathering

/-! ### Builders -/

namespace Builder

/-- What a builder has gathered. -/
def gathered (b : Builder) : Gathered := ({} : Gathered).note b.notes

/-- A builder keeps the notes of a step like a state does. -/
theorem gathered_keep (b : Builder) (more : Notes) :
    (b.keep more).gathered = b.gathered.note more :=
  Gathered.note_append _ _ _

/-- The tree of a builder tells what it has gathered, in order. -/
theorem finish_eq (b : Builder) (name : Option String) (root : Widget) :
    b.finish name root = b.gathered.finish name root := by
  have hsort : ∀ names : List String,
      Text.sortedSet names = (∅ ∪ names.toFinset).sort (· ≤ ·) := by
    intro names
    rw [Text.sortedSet_eq_sort, Finset.empty_union]
  rw [finish, LoweredTree.ofNoted, Gathered.finish, gathered, Gathered.classNames_note,
    Gathered.components_note, hsort, hsort]
  rfl

end Builder

end JsxWidgets
