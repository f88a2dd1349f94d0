import Mathlib.Data.List.Nodup
import JsxWidgets.Proofs.Behaviour.HookCalls

/-!
# The ledger of custom hooks

A hook that is no hook of the framework is one that the file declares, or one of another file. Of
the former there should be one record for each hook that is called, with the place of its first
declaration and those of all its calls. The latter should be reported, once each, in the order in
which they are first called (`HookLedger`).

The records are made call by call from a table of definitions. For one name at a time they are
known from `filter_foldl_record`; here this is put together to a law of all records
(`filter_isCustomOf_analyzeHooks`). The table lists functions and variables, but not functions that
are exported as the default, so the ledger is right if no such function is missed
(`hookLedger_iff`).
-/

namespace JsxWidgets

open Syntax Expression

/-! ### Declarations -/

/-- The function that a node declares, and where: a function, also one that is exported as the
default, or a variable whose value is a function. -/
def Hook.declaredFunction? (n : Node) : Option (String × Place) :=
  match n with
  | ⟨.fnDecl, _, ⟨.binder name, place, _⟩ :: _⟩ => some (name, place)
  | ⟨.exportFn, _, ⟨.binder name, place, _⟩ :: _⟩ => some (name, place)
  | ⟨.declarator, _, [⟨.bind name, place, _⟩, value]⟩ =>
    if isFunction value then some (name, place) else none
  | _ => none

/-- **The functions that a module declares**, in order. -/
def Syntax.Module.declaredFunctions (m : Module) : List (String × Place) :=
  m.nodes.filterMap Hook.declaredFunction?

/-- The place of the first declaration of a function. -/
def Syntax.Module.declaredAt? (m : Module) (name : String) : Option Place :=
  (m.declaredFunctions.find? fun d => d.1 = name).map (·.2)

/-- The names of the functions that are exported as the default. -/
def Syntax.Module.defaultFunctions (m : Module) : List String :=
  m.nodes.filterMap fun n =>
    match n with
    | ⟨.exportFn, _, ⟨.binder name, _, _⟩ :: _⟩ => some name
    | _ => none

/-- What a node declares under the name of a hook is in the table, apart from default exports. -/
theorem definition?_eq_filter {n : Node} {name : String} (hhook : Naming.isHook name = true)
    (hother : ∀ p q more rest, n ≠ ⟨.exportFn, p, ⟨.binder name, q, more⟩ :: rest⟩) :
    (Hook.definition? n).filter (·.1 = name) = (Hook.declaredFunction? n).filter (·.1 = name) := by
  have hnone : ∀ (other : String) (place : Place), other ≠ name →
      (some (other, place)).filter (·.1 = name) = none :=
    fun other place hne => Option.filter_eq_none_iff.mpr fun d hd => by
      rw [← Option.some.inj hd]
      exact fun h => hne (of_decide_eq_true h)
  -- Functions with other names are in the table or not, which does not matter here.
  have hguard : ∀ (other : String) (place : Place) (isIt : Bool),
      (if Naming.isHook other && isIt then some (other, place) else none).filter (·.1 = name)
        = (if isIt then some (other, place) else none).filter (·.1 = name) := by
    intro other place isIt
    by_cases hname : other = name
    · rw [hname, hhook, Bool.true_and]
    · cases isIt <;> cases Naming.isHook other <;> simp [hnone other place hname]
  unfold Hook.definition? Hook.declaredFunction?
  split
  next other place _ _ => simpa using hguard other place true
  next other place _ value => exact hguard other place (isFunction value)
  next hfn hdeclarator =>
    split
    next => exact (hfn _ _ _ _ _ rfl).elim
    next p other q more rest =>
      have hne : other ≠ name := fun heq => hother p q more rest (by rw [heq])
      rw [Option.filter_none, hnone other q hne]
    next => exact (hdeclarator _ _ _ _ _ rfl).elim
    next => rfl

/-- **The table has the first declaration of a hook** that is not exported as the default. -/
theorem get?_definitions {m : Module} {name : String} (hhook : Naming.isHook name = true)
    (hother : name ∉ m.defaultFunctions) :
    (Hook.definitions m).get? name = m.declaredAt? name := by
  have hnodes : ∀ n ∈ m.nodes, (Hook.definition? n).filter (·.1 = name)
      = (Hook.declaredFunction? n).filter (·.1 = name) := by
    intro n hn
    refine definition?_eq_filter hhook fun p q more rest heq => hother ?_
    exact List.mem_filterMap.mpr ⟨n, hn, by rw [heq]⟩
  have hfilter : (Hook.definitions m).filter (·.1 = name)
      = m.declaredFunctions.filter (·.1 = name) := by
    rw [Hook.definitions, Module.declaredFunctions, List.filter_filterMap, List.filter_filterMap]
    exact List.filterMap_congr hnodes
  rw [Hook.Definitions.get?, Module.declaredAt?, ← List.head?_filter, ← List.head?_filter, hfilter]

/-! ### The calls -/

/-- The names of the called hooks, in the order of the calls. -/
def Syntax.Module.calledHooks (m : Module) : List String := (HookCall.ofModule m).map (·.name)

theorem isHook_of_mem_calledHooks {m : Module} {name : String} (h : name ∈ m.calledHooks) :
    Naming.isHook name = true := by
  have hmem : name ∈ m.hookNames := (parted_map_name_ofModule m).mem_iff.mpr (Or.inl h)
  obtain ⟨n, -, hn⟩ := List.mem_filterMap.mp hmem
  exact (Option.filter_eq_some_iff.mp hn).2

/-! ### The records -/

/-- The custom hook that a record is about. -/
def Hook.customName? {π : Type} : Hook π → Option String
  | .custom h => some h.name
  | _ => none

namespace Hook

theorem customName?_eq_some_iff {π : Type} {h : Hook π} {name : String} :
    h.customName? = some name ↔ isCustomOf name h = true := by
  cases h <;> simp [customName?, isCustomOf]

/-- There is no custom record of a hook of the framework. -/
theorem filter_foldl_record_of_builtin {name : String} (hname : isBuiltin name = true)
    (ds : Definitions) (calls : List HookCall) (records : List (Hook Place)) :
    (calls.foldl (record ds) records).filter (isCustomOf name)
      = records.filter (isCustomOf name) := by
  induction calls generalizing records with
  | nil => rfl
  | cons c calls ih =>
    rw [List.foldl_cons, ih]
    by_cases hne : c.name = name
    · rcases ofBuiltin?_cases c with ⟨h, -, hrecord, htells⟩ | ⟨hbuiltin, -⟩
      · exact filter_record_of_builtin ds records hrecord htells name
      · rw [hne, hname] at hbuiltin
        cases hbuiltin
    · exact filter_record_of_ne ds records hne

end Hook

/-- **The records of a custom hook**: one with all its calls, if it is called and has a
definition. -/
theorem filter_isCustomOf_analyzeHooks (m : Module) (name : String) :
    (analyzeHooks m).1.filter (Hook.isCustomOf name)
      = if Hook.isBuiltin name then []
        else ((Hook.definitions m).get? name).elim [] fun definition =>
          Hook.customRecords name definition (Hook.callPlaces name (HookCall.ofModule m)) := by
  rw [analyzeHooks]
  split
  next hname => exact Hook.filter_foldl_record_of_builtin hname _ _ []
  next hname =>
    cases hdefinition : (Hook.definitions m).get? name with
    | none => exact Hook.filter_foldl_record_of_undefined hdefinition _ []
    | some definition =>
      have hstart : ([] : List (Hook Place)).filter (Hook.isCustomOf name)
          = Hook.customRecords name definition [] := rfl
      exact Hook.filter_foldl_record (Bool.eq_false_iff.mpr hname) hdefinition _ hstart

theorem callPlaces_ne_nil_iff {m : Module} {name : String} :
    Hook.callPlaces name (HookCall.ofModule m) ≠ [] ↔ name ∈ m.calledHooks := by
  rw [ne_eq, ← List.length_eq_zero_iff, Hook.length_callPlaces, List.count_eq_zero, not_not]
  rfl

theorem mem_customRecords_iff {name : String} {definition : Place} {places : List Place}
    {h : CustomHook Place} :
    .custom h ∈ Hook.customRecords name definition places ↔
      places ≠ [] ∧ h = ⟨name, definition, places⟩ := by
  cases places <;> simp [Hook.customRecords]

/-- **A custom record** tells the place that is looked up for its hook, and all calls of it. -/
theorem custom_mem_analyzeHooks_iff {m : Module} {h : CustomHook Place} :
    .custom h ∈ (analyzeHooks m).1 ↔
      Hook.isBuiltin h.name = false ∧ h.name ∈ m.calledHooks ∧
        (Hook.definitions m).get? h.name = some h.definition ∧
          h.usages = Hook.callPlaces h.name (HookCall.ofModule m) := by
  -- only the records of this name can contain the hook, and these have a closed form
  have hown : .custom h ∈ (analyzeHooks m).1 ↔
      .custom h ∈ (analyzeHooks m).1.filter (Hook.isCustomOf h.name) := by
    simp [List.mem_filter, Hook.isCustomOf]
  rw [hown, filter_isCustomOf_analyzeHooks, ← callPlaces_ne_nil_iff]
  cases hbuiltin : Hook.isBuiltin h.name with
  | true => simp
  | false =>
    cases hdefinition : (Hook.definitions m).get? h.name with
    | none => simp
    | some definition =>
      rw [if_neg Bool.false_ne_true, Option.elim_some, mem_customRecords_iff]
      constructor
      · rintro ⟨hne, heq⟩
        refine ⟨rfl, hne, ?_, ?_⟩
        · rw [heq]
        · rw [heq]
      · rintro ⟨-, hne, hplace, husages⟩
        refine ⟨hne, ?_⟩
        rw [← husages, Option.some.inj hplace]

/-- No two custom records are about one hook. -/
theorem nodup_customName?_analyzeHooks (m : Module) :
    ((analyzeHooks m).1.filterMap Hook.customName?).Nodup := by
  refine List.nodup_iff_count_le_one.mpr fun name => ?_
  -- a name occurs as often as there are records for it
  have hcount : ((analyzeHooks m).1.filterMap Hook.customName?).count name
      = ((analyzeHooks m).1.filter (Hook.isCustomOf name)).length := by
    rw [List.count_filterMap, ← List.countP_eq_length_filter]
    refine List.countP_congr fun h _ => ?_
    rw [beq_iff_eq, Hook.customName?_eq_some_iff]
  rw [hcount, filter_isCustomOf_analyzeHooks]
  -- there is at most one record: none for a builtin, none undefined, else one for the calls
  split
  · exact Nat.zero_le _
  · cases (Hook.definitions m).get? name with
    | none => exact Nat.zero_le _
    | some definition =>
      rw [Option.elim_some]
      cases Hook.callPlaces name (HookCall.ofModule m) with
      | nil => exact Nat.zero_le _
      | cons first rest => exact Nat.le_refl _

/-! ### The reports -/

/-- The hooks that are reported. -/
def Syntax.Module.reportedHooks (m : Module) : List String :=
  Hook.undefinedNames (Hook.definitions m) (HookCall.ofModule m)

theorem reportedHooks_eq (m : Module) :
    m.reportedHooks = (Text.firstOccurrences m.calledHooks).filter fun name =>
      !Hook.isBuiltin name && ((Hook.definitions m).get? name).isNone := by
  have hcalls : ((HookCall.ofModule m).filter fun c =>
        (Hook.ofBuiltin? c).isNone && ((Hook.definitions m).get? c.name).isNone)
      = (HookCall.ofModule m).filter fun c =>
        !Hook.isBuiltin c.name && ((Hook.definitions m).get? c.name).isNone := by
    refine List.filter_congr fun c _ => ?_
    rcases Hook.ofBuiltin?_cases c with ⟨h, hbuiltin, hrecord, -⟩ | ⟨hbuiltin, hrecord⟩
    · simp [hbuiltin, hrecord]
    · simp [hbuiltin, hrecord]
  rw [Module.reportedHooks, Hook.undefinedNames, hcalls, Text.filter_firstOccurrences,
    Module.calledHooks, List.filter_map]
  rfl

theorem mem_reportedHooks_iff {m : Module} {name : String} :
    name ∈ m.reportedHooks ↔
      name ∈ m.calledHooks ∧ Hook.isBuiltin name = false ∧
        (Hook.definitions m).get? name = none := by
  rw [reportedHooks_eq, List.mem_filter, Text.mem_firstOccurrences, Bool.and_eq_true,
    Bool.not_eq_true', Option.isNone_iff_eq_none]

theorem pairwise_reportedHooks (m : Module) :
    m.reportedHooks.Pairwise fun a b => m.calledHooks.idxOf a < m.calledHooks.idxOf b := by
  rw [reportedHooks_eq]
  exact (Text.pairwise_idxOf_firstOccurrences m.calledHooks).filter _

/-! ### The ledger -/

/-- **The ledger of the custom hooks of a module is right.** -/
structure HookLedger (m : Module) : Prop where
  /-- No two records are about one hook. -/
  distinct : ((analyzeHooks m).1.filterMap Hook.customName?).Nodup
  /-- The records are those of the hooks that are called, do not belong to the framework and are
  declared in the module. Each has the place of the first declaration and those of all calls, in
  order. -/
  recorded : ∀ h : CustomHook Place, .custom h ∈ (analyzeHooks m).1 ↔
    Naming.isHook h.name = true ∧ Hook.isBuiltin h.name = false ∧
      m.declaredAt? h.name = some h.definition ∧
        h.usages = Hook.callPlaces h.name (HookCall.ofModule m) ∧ h.usages ≠ []
  /-- All other records are of hooks of the framework, one for each call. -/
  others : (analyzeHooks m).1.filterMap Hook.builtinName? = m.calledHooks.filter Hook.isBuiltin
  /-- The hooks that are called, but neither belong to the framework nor are declared, are reported,
  each once, in the order in which they are first called. -/
  reported : ∃ names : List String, (analyzeHooks m).2 = names.map Hook.undefinedDiagnostic ∧
    (∀ name, name ∈ names ↔
      name ∈ m.calledHooks ∧ Hook.isBuiltin name = false ∧ m.declaredAt? name = none) ∧
    names.Pairwise fun a b => m.calledHooks.idxOf a < m.calledHooks.idxOf b
  /-- No hook is both recorded and reported. -/
  exclusive : ∀ h : CustomHook Place, .custom h ∈ (analyzeHooks m).1 →
    Hook.undefinedDiagnostic h.name ∉ (analyzeHooks m).2

/-- If the ledger is right, the place that is looked up for a called hook is that of its first
declaration. -/
theorem HookLedger.lookup {m : Module} (hledger : HookLedger m) {name : String}
    (hcalled : name ∈ m.calledHooks) (hbuiltin : Hook.isBuiltin name = false) :
    (Hook.definitions m).get? name = m.declaredAt? name := by
  -- What is looked up can be told from the record of the hook, or from its report.
  cases hdefinition : (Hook.definitions m).get? name with
  | some definition =>
    have hrecord : .custom ⟨name, definition, Hook.callPlaces name (HookCall.ofModule m)⟩
        ∈ (analyzeHooks m).1 :=
      custom_mem_analyzeHooks_iff.mpr ⟨hbuiltin, hcalled, hdefinition, rfl⟩
    exact ((hledger.recorded _).mp hrecord).2.2.1.symm
  | none =>
    obtain ⟨names, hnames, hmem, -⟩ := hledger.reported
    have hreport : name ∈ names := by
      rw [← List.mem_map_of_injective Hook.undefinedDiagnostic_injective, ← hnames]
      exact (undefinedDiagnostic_mem_analyzeHooks m name).mpr ⟨hbuiltin, hdefinition, hcalled⟩
    exact ((hmem name).mp hreport).2.2.symm

/-- Nothing else can go wrong. -/
theorem HookLedger.of_lookup {m : Module}
    (hlookup : ∀ name ∈ m.calledHooks, Hook.isBuiltin name = false →
      (Hook.definitions m).get? name = m.declaredAt? name) : HookLedger m := by
  refine
    { distinct := nodup_customName?_analyzeHooks m
      recorded := fun h => ?_
      others := filterMap_builtinName?_analyzeHooks m
      reported := ⟨m.reportedHooks, rfl, fun name => ?_, pairwise_reportedHooks m⟩
      exclusive := fun h hrecord hreport => ?_ }
  -- the record of a hook: what is looked up is what is declared
  · rw [custom_mem_analyzeHooks_iff]
    constructor
    · rintro ⟨hbuiltin, hcalled, hdefinition, husages⟩
      refine ⟨isHook_of_mem_calledHooks hcalled, hbuiltin, ?_, husages, ?_⟩
      · rw [← hlookup h.name hcalled hbuiltin, hdefinition]
      · rw [husages]
        exact callPlaces_ne_nil_iff.mpr hcalled
    · rintro ⟨-, hbuiltin, hdeclared, husages, hne⟩
      have hcalled : h.name ∈ m.calledHooks := callPlaces_ne_nil_iff.mp (husages ▸ hne)
      refine ⟨hbuiltin, hcalled, ?_, husages⟩
      rw [hlookup h.name hcalled hbuiltin, hdeclared]
  · rw [mem_reportedHooks_iff]
    refine and_congr_right fun hcalled => and_congr_right fun hbuiltin => ?_
    rw [hlookup name hcalled hbuiltin]
  -- a recorded hook has a definition, a reported one has none
  · obtain ⟨-, -, hdefinition, -⟩ := custom_mem_analyzeHooks_iff.mp hrecord
    have hnone := ((undefinedDiagnostic_mem_analyzeHooks m h.name).mp hreport).2.1
    rw [hdefinition] at hnone
    cases hnone

/-- **The ledger is right exactly if no called hook is missed that is exported as the default**: the
place that is looked up for it is that of its first declaration. -/
theorem hookLedger_iff (m : Module) :
    HookLedger m ↔ ∀ name ∈ m.defaultFunctions, name ∈ m.calledHooks →
      Hook.isBuiltin name = false → (Hook.definitions m).get? name = m.declaredAt? name := by
  constructor
  · exact fun hledger name _ => hledger.lookup
  · intro hdefault
    refine HookLedger.of_lookup fun name hcalled hbuiltin => ?_
    by_cases hname : name ∈ m.defaultFunctions
    · exact hdefault name hname hcalled hbuiltin
    · exact get?_definitions (isHook_of_mem_calledHooks hcalled) hname

/-- The module of `export default function useA() {} useA()`. -/
def exportedHook : Module :=
  [⟨.exportFn, 1, [.leaf (.binder "useA") 25,
      ⟨.fn, 25, [.list [], ⟨.body, 32, []⟩, .list [], .absent]⟩]⟩,
    ⟨.exprStmt, 35, [⟨.call, 35, [.leaf (.name "useA") 35, .list [], .list []]⟩]⟩]

/-- A hook that is exported as the default is reported to be missing. -/
theorem not_hookLedger_exportedHook :
    exportedHook.declaredAt? "useA" = some 25 ∧
    (analyzeHooks exportedHook).1.length = 0 ∧
    (analyzeHooks exportedHook).2.map (·.message)
      = ["hook useA has no definition in this file; usage not recorded"] ∧
    ¬ HookLedger exportedHook := by
  have hnone : (analyzeHooks exportedHook).1.length = 0 := by decide
  refine ⟨by decide, hnone, by decide, fun hledger => ?_⟩
  have hrecord : .custom ⟨"useA", 25, [35]⟩ ∈ (analyzeHooks exportedHook).1 :=
    (hledger.recorded _).mpr ⟨by decide, by decide, by decide, by decide, by decide⟩
  rw [List.length_eq_zero_iff.mp hnone] at hrecord
  cases hrecord

end JsxWidgets
