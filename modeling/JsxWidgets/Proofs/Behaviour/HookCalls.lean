import JsxWidgets.Proofs.Behaviour.HookRecords
import JsxWidgets.Proofs.Structure.Scope

/-!
# Every call of a hook is recorded once

The analysis of hooks and the census both look for calls of hooks. The walk of the analysis follows
the value of a variable to the call that it comes from, and looks into the arguments of that call
only. So it passes over what stands in the pattern of the variable, such as a default that calls a
hook, and over whatever else stands beside the way (`Module.overlookedHooks`). The census passes
over the attributes of imports and exports (`Module.linkedHooks`).

The crux is that the walk meets every call that it does not pass over exactly once and in the order
of the module, although it notes the call of a variable already at the variable
(`HookCall.notesSeen`). Then both analyses part the list of all calls, and where only one of them
passes over something it is known when they agree (`hooksAgree_iff`).
-/

namespace JsxWidgets

open Syntax Expression

namespace HookCall

/-! ### The walk -/

theorem ofDeclarator?_eq_some_iff {n : Node} {c : HookCall} :
    ofDeclarator? n = some c ↔ ∃ place pattern value name call,
      n = ⟨.declarator, place, [pattern, value]⟩ ∧ ofValue? value = some (name, call)
        ∧ c = ⟨name, some pattern, call⟩ := by
  constructor
  · intro h
    unfold ofDeclarator? at h
    split at h
    next place pattern value =>
      obtain ⟨⟨name, call⟩, hvalue, rfl⟩ := Option.map_eq_some_iff.mp h
      exact ⟨place, pattern, value, name, call, rfl, hvalue, rfl⟩
    next => cases h
  · rintro ⟨place, pattern, value, name, call, rfl, hvalue, rfl⟩
    rw [ofDeclarator?, hvalue]
    rfl

/-- Unless a variable has the value of a call, all parts of a node are entered. -/
theorem enter_free_of_none {n : Node} (h : ofDeclarator? n = none) (number : Nat) :
    enter .free n number = some .free := by
  rw [enter, h]
  rfl

section Enter

-- The walk and the list of the nodes that it sees enter the same parts.
variable {ε : Type} {s : Survey Position ε} (hs : s.enter = enter)

include hs

/-- Of a variable with the value of a call only the value is entered. -/
theorem runParts_variable {place : Place} {pattern value : Node} {c : HookCall}
    (hcall : ofDeclarator? ⟨.declarator, place, [pattern, value]⟩ = some c) :
    s.runParts .free ⟨.declarator, place, [pattern, value]⟩ 0 [pattern, value]
      = s.run .declared value := by
  have hpattern : enter .free ⟨.declarator, place, [pattern, value]⟩ 0 = none := by
    rw [enter, hcall]
    rfl
  have hvalue : enter .free ⟨.declarator, place, [pattern, value]⟩ 1 = some .declared := by
    rw [enter, hcall]
    rfl
  rw [Survey.runParts_cons, Survey.runParts_cons, Survey.runParts_nil, hs, hpattern, hvalue,
    Option.elim_none, Option.elim_some, List.nil_append, List.append_nil]

/-- On the way to the call only the way is entered. -/
theorem runParts_declared {form : Form} (hform : form ≠ .call) (place : Place) (e : Node)
    (rest : List Node) :
    s.runParts .declared ⟨form, place, e :: rest⟩ 0 (e :: rest) = s.run .declared e := by
  have hfirst : s.enter .declared ⟨form, place, e :: rest⟩ 0 = some .declared := by
    rw [hs, enter, if_neg hform, if_pos rfl]
  have hskip : ∀ later, 1 ≤ later → s.enter .declared ⟨form, place, e :: rest⟩ later = none := by
    intro later hlater
    rw [hs, enter, if_neg hform, if_neg (Nat.ne_of_gt hlater)]
  rw [Survey.runParts_cons, Survey.runParts_of_forall_skip hskip, List.append_nil, hfirst,
    Option.elim_some]

end Enter

/-! ### What the walk notes -/

/-- The walk notes the calls that it sees below a node, in order. -/
def NotesSeen (position : Position) (n : Node) : Prop :=
  (survey.run position n).map (·.name) = (survey.seen.run position n).filterMap hookName?

/-- On the way from a variable to its call the walk notes the calls that it sees but the call
itself, which it has noted at the variable. -/
def NotesBehind (n : Node) : Prop :=
  ∀ name call, ofValue? n = some (name, call) →
    name :: (survey.run .declared n).map (·.name)
      = (survey.seen.run .declared n).filterMap hookName?

theorem map_name_runParts (position : Position) (whole : Node) (parts : List Node)
    (hparts : ∀ part ∈ parts, ∀ number inner, enter position whole number = some inner →
      NotesSeen inner part) (number : Nat) :
    (survey.runParts position whole number parts).map (·.name)
      = (survey.seen.runParts position whole number parts).filterMap hookName? := by
  -- the number of the part goes up along the list, so it is general here
  induction parts generalizing number with
  | nil => rfl
  | cons part parts ih =>
    have hfirst := hparts part List.mem_cons_self number
    have hrest := ih (fun p hp => hparts p (List.mem_cons_of_mem _ hp)) (number + 1)
    rw [Survey.runParts_cons, Survey.runParts_cons, List.map_append, List.filterMap_append, hrest]
    congr 1
    change List.map _ ((enter position whole number).elim _ _)
      = List.filterMap _ ((enter position whole number).elim _ _)
    cases hinner : enter position whole number with
    | none => rfl
    | some inner => exact hfirst inner hinner

theorem map_name_note {n : Node} (h : ofDeclarator? n = none) :
    (note .free n).map (·.name) = (hookName? n).toList := by
  rw [note.eq_def]
  split
  next hform =>
    rw [h, hookName?_of_form_ne (by simp [hform])]
    rfl
  next => cases hookName? n <;> rfl
  next _ hcall =>
    rw [hookName?_of_form_ne (hcall rfl)]
    rfl

section Step

variable {n : Node} (hfree : ∀ part ∈ n.parts, NotesSeen .free part)
  (hbehind : ∀ part ∈ n.parts, NotesBehind part)

include hfree

theorem notesSeen_of_none (hcall : ofDeclarator? n = none) : NotesSeen .free n := by
  have hparts := map_name_runParts .free n n.parts (fun part hpart number inner hinner => ?_) 0
  · have hself : (survey.seen.note .free n).filterMap hookName? = (hookName? n).toList := by
      change [n].filterMap hookName? = _
      cases h : hookName? n <;> simp [h]
    rw [NotesSeen, Survey.run_eq, Survey.run_eq, List.map_append, List.filterMap_append, hself,
      ← hparts]
    congr 1
    exact map_name_note hcall
  · -- All parts are entered freely.
    rw [enter_free_of_none hcall] at hinner
    cases hinner
    exact hfree part hpart

omit hfree in
include hbehind in
theorem notesSeen_of_some {c : HookCall} (hcall : ofDeclarator? n = some c) :
    NotesSeen .free n := by
  obtain ⟨place, pattern, value, name, call, rfl, hvalue, rfl⟩ :=
    ofDeclarator?_eq_some_iff.mp hcall
  have hnote : survey.note .free ⟨.declarator, place, [pattern, value]⟩
      = [⟨name, some pattern, call⟩] := by
    change (ofDeclarator? _).toList = _
    rw [hcall]
    rfl
  -- The call is noted here, and everything behind it on the way.
  rw [NotesSeen, Survey.run_mk, Survey.run_mk, runParts_variable rfl hcall,
    runParts_variable rfl hcall, hnote]
  exact hbehind value (List.mem_cons_of_mem _ List.mem_cons_self) name call hvalue

include hbehind in
theorem notesBehind_step : NotesBehind n := by
  intro name call hvalue
  obtain ⟨form, place, parts⟩ := n
  have hway : ∀ e rest, form ≠ .call → parts = e :: rest → ofValue? e = some (name, call) →
      name :: (survey.run .declared ⟨form, place, parts⟩).map (·.name)
        = (survey.seen.run .declared ⟨form, place, parts⟩).filterMap hookName? := by
    rintro e rest hform rfl he
    have hseen : survey.seen.note .declared ⟨form, place, e :: rest⟩ = [⟨form, place, e :: rest⟩] :=
      rfl
    have hnone : hookName? ⟨form, place, e :: rest⟩ = none := hookName?_of_form_ne hform
    rw [Survey.run_mk, Survey.run_mk, runParts_declared rfl hform, runParts_declared rfl hform,
      hseen, List.filterMap_append, List.filterMap_cons_none hnone]
    exact hbehind e List.mem_cons_self name call he
  -- Along the way nothing is noted and nothing else is entered, until the call is reached.
  unfold ofValue? at hvalue
  split at hvalue
  case h_7 =>
    obtain ⟨found, hname, heq⟩ := Option.map_eq_some_iff.mp hvalue
    cases heq
    have hparts := map_name_runParts .declared ⟨.call, place, parts⟩ parts
      (fun part hpart number inner hinner => ?_) 0
    · have hself : (survey.seen.note .declared ⟨.call, place, parts⟩).filterMap hookName?
          = [name] := List.filterMap_cons_some hname
      rw [Survey.run_mk, Survey.run_mk, List.filterMap_append, hself, ← hparts]
      rfl
    · -- Of the call only the arguments are entered.
      rw [enter, if_pos rfl] at hinner
      split at hinner
      · cases hinner
        exact hfree part hpart
      · cases hinner
  case h_8 => cases hvalue
  all_goals exact hway _ _ (by decide) rfl hvalue

end Step

/-- **Each call that the walk sees is noted once, and in order.** -/
theorem notesSeen (n : Node) : NotesSeen .free n ∧ NotesBehind n := by
  induction n using Node.induction_below with
  | step n ih =>
    have hfree : ∀ part ∈ n.parts, NotesSeen .free part :=
      fun part hpart => (ih part (Node.mem_nodesOf_of_mem hpart)).1
    have hbehind : ∀ part ∈ n.parts, NotesBehind part :=
      fun part hpart => (ih part (Node.mem_nodesOf_of_mem hpart)).2
    refine ⟨?_, notesBehind_step hfree hbehind⟩
    cases hcall : ofDeclarator? n with
    | none => exact notesSeen_of_none hfree hcall
    | some c => exact notesSeen_of_some hbehind hcall

end HookCall

/-! ### The calls of a module -/

/-- The hooks that a module calls, call by call. -/
def Syntax.Module.hookNames (m : Module) : List String := m.nodes.filterMap HookCall.hookName?

/-- The hooks that are called where the analysis of hooks does not look. -/
def Syntax.Module.overlookedHooks (m : Module) : List String :=
  (HookCall.survey.missed.runAll (some .free) m).filterMap HookCall.hookName?

/-- The hooks that are called where the census does not look. -/
def Syntax.Module.linkedHooks (m : Module) : List String := m.linked.filterMap HookCall.hookName?

theorem map_name_ofModule (m : Module) :
    (HookCall.ofModule m).map (·.name)
      = (HookCall.survey.seen.runAll .free m).filterMap HookCall.hookName? := by
  rw [HookCall.ofModule, Survey.runAll, Survey.runAll, List.map_flatMap, List.filterMap_flatMap]
  exact List.flatMap_congr fun n _ => (HookCall.notesSeen n).1

theorem parted_map_name_ofModule (m : Module) :
    Parted m.hookNames ((HookCall.ofModule m).map (·.name)) m.overlookedHooks := by
  rw [map_name_ofModule]
  exact (HookCall.survey.parted_runAll .free m).filterMap HookCall.hookName?

theorem parted_hooks (m : Module) (path : String) (config : Config) :
    Parted m.hookNames (analyzeStructure m path config).hooks m.linkedHooks := by
  change Parted _ (Census.hooks (Census.ofModule config m)) _
  rw [Census.hooks_ofModule]
  exact m.parted_surveyed.filterMap HookCall.hookName?

/-! ### The analysis of hooks and the census -/

/-- **The analysis of hooks and the census see the same calls.** -/
structure HooksAgree (m : Module) (path : String) (config : Config) : Prop where
  /-- The hooks of the framework have the same calls, in the same order. -/
  builtins : (analyzeHooks m).1.filterMap Hook.builtinName?
    = (analyzeStructure m path config).hooks.filter Hook.isBuiltin
  /-- Any other hook has as many usages as calls, or it is reported. -/
  others : ∀ name, Hook.isBuiltin name = false →
    (analyzeStructure m path config).hooks.count name
        = (Hook.usagesOf name (analyzeHooks m).1).length
      ∨ Hook.undefinedDiagnostic name ∈ (analyzeHooks m).2

/-- A call that is passed over does no harm if the hook does not belong to the framework, is not
defined in the file, and is reported for another call of it. -/
def Syntax.Module.IsHarmless (m : Module) (name : String) : Prop :=
  Hook.isBuiltin name = false ∧ (Hook.definitions m).get? name = none
    ∧ name ∈ (HookCall.ofModule m).map (·.name)

section

variable {m : Module} (path : String) (config : Config)

/-- The hooks of the framework agree if none of them is passed over. -/
theorem builtins_eq_iff (hone : m.overlookedHooks = [] ∨ m.linkedHooks = []) :
    (analyzeHooks m).1.filterMap Hook.builtinName?
        = (analyzeStructure m path config).hooks.filter Hook.isBuiltin
      ↔ ∀ name ∈ m.overlookedHooks ++ m.linkedHooks, Hook.isBuiltin name = false := by
  have hrecorded := (parted_map_name_ofModule m).filter Hook.isBuiltin
  have hcounted := (parted_hooks m path config).filter Hook.isBuiltin
  have hone' : m.overlookedHooks.filter Hook.isBuiltin = []
      ∨ m.linkedHooks.filter Hook.isBuiltin = [] :=
    hone.imp (fun h => by rw [h, List.filter_nil]) fun h => by rw [h, List.filter_nil]
  rw [filterMap_builtinName?_analyzeHooks, hrecorded.kept_eq_kept_iff hcounted hone',
    ← List.filter_append, List.filter_eq_nil_iff]
  exact forall₂_congr fun name _ => by rw [Bool.not_eq_true]

/-- Another hook agrees if no call of it is passed over, or if it is reported. -/
theorem count_eq_or_reported_iff (hone : m.overlookedHooks = [] ∨ m.linkedHooks = [])
    {name : String} (hname : Hook.isBuiltin name = false) :
    (analyzeStructure m path config).hooks.count name
          = (Hook.usagesOf name (analyzeHooks m).1).length
        ∨ Hook.undefinedDiagnostic name ∈ (analyzeHooks m).2
      ↔ (name ∈ m.overlookedHooks ++ m.linkedHooks → m.IsHarmless name) := by
  have hrecorded := (parted_map_name_ofModule m).count_eq name
  have hcounted := (parted_hooks m path config).count_eq name
  have hpassed : name ∈ m.overlookedHooks ++ m.linkedHooks
      ↔ 0 < m.overlookedHooks.count name + m.linkedHooks.count name := by
    rw [← List.count_append, List.count_pos_iff]
  have hzero : m.overlookedHooks.count name = 0 ∨ m.linkedHooks.count name = 0 :=
    hone.imp (fun h => by rw [h, List.count_nil]) fun h => by rw [h, List.count_nil]
  rw [hpassed, usagesOf_analyzeHooks m hname, undefinedDiagnostic_mem_analyzeHooks,
    Module.IsHarmless, ← List.count_pos_iff]
  cases hdefinition : (Hook.definitions m).get? name with
  | some definition =>
    -- Every recorded call is a usage, so none may be passed over.
    rw [Option.isSome_some, if_pos rfl, Hook.length_callPlaces]
    simp only [reduceCtorEq, false_and, and_false, or_false, imp_false]
    omega
  | none =>
    -- There are no usages, so there must be no call at all unless one of them is reported.
    simp only [hname, true_and, Option.isSome_none, Bool.false_eq_true, if_false, List.length_nil]
    omega

end

/-- **The two analyses agree exactly if all calls are harmless that one of them passes over**,
unless both pass over calls. -/
theorem hooksAgree_iff (m : Module) (path : String) (config : Config)
    (hone : m.overlookedHooks = [] ∨ m.linkedHooks = []) :
    HooksAgree m path config
      ↔ ∀ name ∈ m.overlookedHooks ++ m.linkedHooks, m.IsHarmless name := by
  have hbuiltins := builtins_eq_iff path config hone
  have hothers := fun name (hname : Hook.isBuiltin name = false) =>
    count_eq_or_reported_iff path config hone hname
  constructor
  · intro hagree name hmem
    have hname := hbuiltins.mp hagree.builtins name hmem
    exact (hothers name hname).mp (hagree.others name hname) hmem
  · intro hharmless
    refine ⟨hbuiltins.mpr fun name hmem => (hharmless name hmem).1, fun name hname => ?_⟩
    exact (hothers name hname).mpr (hharmless name)

/-- The module of `const [a] = useState(useRef())`. -/
def argumentHook : Module :=
  [⟨.declStmt, 0, [⟨.varDecl .const, 0, [⟨.declarator, 0,
    [⟨.arrayPat, 0, [.list [⟨.bind "a", 0, [.absent]⟩], .absent]⟩,
      ⟨.call, 0, [.leaf (.name "useState") 0,
        .list [⟨.item, 0, [⟨.call, 0, [.leaf (.name "useRef") 0, .list [], .list []]⟩]⟩],
        .list []]⟩]⟩]⟩]⟩]

/-- A call in an argument is recorded, behind the call that it is an argument of. -/
theorem hooksAgree_argumentHook :
    argumentHook.overlookedHooks = [] ∧ argumentHook.hookNames = ["useState", "useRef"] ∧
    HooksAgree argumentHook "" default := by
  have hnone : argumentHook.overlookedHooks = [] := by decide
  have hlinked : argumentHook.linkedHooks = [] := by decide
  refine ⟨hnone, by decide, ?_⟩
  refine (hooksAgree_iff argumentHook "" default (Or.inl hnone)).mpr fun name hmem => ?_
  rw [hnone, hlinked] at hmem
  cases hmem

/-- The module of `const [a = useRef()] = useState()`. -/
def defaultHook : Module :=
  [⟨.declStmt, 0, [⟨.varDecl .const, 0, [⟨.declarator, 0,
    [⟨.arrayPat, 0, [.list [⟨.defaultPat, 0, [⟨.bind "a", 0, [.absent]⟩,
        ⟨.call, 0, [.leaf (.name "useRef") 0, .list [], .list []]⟩]⟩], .absent]⟩,
      ⟨.call, 0, [.leaf (.name "useState") 0, .list [], .list []]⟩]⟩]⟩]⟩]

/-- A call in a default is counted, but has no record. -/
theorem not_hooksAgree_defaultHook :
    (analyzeStructure defaultHook "" default).hooks = ["useRef", "useState"] ∧
    (analyzeHooks defaultHook).1.filterMap Hook.builtinName? = ["useState"] ∧
    ¬ HooksAgree defaultHook "" default :=
  ⟨by decide, by decide, fun h => absurd h.builtins (by decide)⟩

end JsxWidgets
