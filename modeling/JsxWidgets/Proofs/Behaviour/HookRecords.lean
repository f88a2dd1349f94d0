import Mathlib.Data.List.Basic
import JsxWidgets.Hook.Analysis
import JsxWidgets.Proofs.Text.Order

/-!
# What becomes of the calls of hooks

The records of a module are put together call by call. Three things can become of a call. One of a
hook of the framework has a record of its own. One of a hook that the file defines is a usage in the
one record of that hook. One of any other hook is reported.

Accordingly three things are read off the result: the hooks of the framework by their records, in
order (`filterMap_analyzeHooks`), the usages of one hook of the file (`usagesOf_analyzeHooks`), and
the reported names (`undefinedDiagnostic_mem_analyzeHooks`). Each of them is a list of the calls
with some property, so that nothing has to be known of the way in which the records are made.
-/

namespace JsxWidgets

open Syntax Expression

namespace Hook

/-! ### Hooks of the framework -/

/-- The hooks of the framework. -/
def builtins : List String :=
  ["useState", "useEffect", "useLayoutEffect", "useInsertionEffect", "useContext", "useRef",
    "useMemo", "useCallback", "useReducer"]

/-- Whether a hook belongs to the framework. -/
def isBuiltin (name : String) : Bool := builtins.contains name

/-- The hook of the framework that a record is about. -/
def builtinName? {π : Type} : Hook π → Option String
  | .state _ => some "useState"
  | .effect h => some h.hook
  | .context _ => some "useContext"
  | .ref _ => some "useRef"
  | .memo _ => some "useMemo"
  | .callback _ => some "useCallback"
  | .reducer _ => some "useReducer"
  | .custom _ => none

/-- Exactly the calls of hooks of the framework have a record of their own, which tells the hook. -/
theorem ofBuiltin?_cases (c : HookCall) :
    (∃ h, isBuiltin c.name = true ∧ ofBuiltin? c = some h ∧ builtinName? h = some c.name)
      ∨ isBuiltin c.name = false ∧ ofBuiltin? c = none := by
  rw [ofBuiltin?]
  split
  all_goals try next hname => exact Or.inl ⟨_, by rw [hname]; rfl, rfl, by rw [hname]; rfl⟩
  -- No name of the framework is left.
  next hstate heffect hlayout hinsertion hcontext href hmemo hcallback hreducer =>
    refine Or.inr ⟨?_, rfl⟩
    simp only [isBuiltin, builtins, List.contains_cons, List.contains_nil, Bool.or_eq_false_iff,
      beq_eq_false_iff_ne, and_true]
    exact ⟨hstate, heffect, hlayout, hinsertion, hcontext, href, hmemo, hcallback, hreducer⟩

theorem ofBuiltin?_eq_none_iff (c : HookCall) :
    ofBuiltin? c = none ↔ isBuiltin c.name = false := by
  rcases ofBuiltin?_cases c with ⟨h, hbuiltin, hrecord, -⟩ | ⟨hbuiltin, hrecord⟩ <;>
    simp [hbuiltin, hrecord]

theorem isCustomOf_of_builtinName? {π : Type} {h : Hook π} {name : String}
    (hname : h.builtinName? = some name) (custom : String) : isCustomOf custom h = false := by
  cases h with
  | custom h => cases hname
  | _ => rfl

/-! ### Reading records that are about no custom hook -/

section

variable {α : Type} {read : Hook Place → Option α}

/-- A call adds what is read off its own record. Calls of other hooks change nothing. -/
theorem filterMap_record (hread : ∀ h, read (.custom h) = none) (ds : Definitions)
    (records : List (Hook Place)) (c : HookCall) :
    (record ds records c).filterMap read
      = records.filterMap read ++ ((ofBuiltin? c).bind read).toList := by
  rw [record]
  split
  · next h hc =>
    rw [List.filterMap_append, hc, Option.bind_some]
    cases hfound : read h with
    | none => rw [List.filterMap_cons_none hfound, Option.toList_none, List.filterMap_nil]
    | some x => rw [List.filterMap_cons_some hfound, Option.toList_some, List.filterMap_nil]
  · next hc =>
    rw [hc, Option.bind_none, Option.toList_none, List.append_nil]
    split
    · rfl
    · -- A hook of the file is in the records already, or it gets one of its own.
      split
      · rw [List.filterMap_map]
        refine List.filterMap_congr fun h _ => ?_
        cases h with
        | custom h => exact (hread _).trans (hread h).symm
        | _ => rfl
      · rw [List.filterMap_append, List.filterMap_cons_none (hread _), List.filterMap_nil,
          List.append_nil]

theorem filterMap_foldl_record (hread : ∀ h, read (.custom h) = none) (ds : Definitions)
    (calls : List HookCall) (records : List (Hook Place)) :
    (calls.foldl (record ds) records).filterMap read
      = records.filterMap read ++ calls.filterMap fun c => (ofBuiltin? c).bind read := by
  induction calls generalizing records with
  | nil => rw [List.foldl_nil, List.filterMap_nil, List.append_nil]
  | cons c calls ih =>
    rw [List.foldl_cons, ih, filterMap_record hread, List.append_assoc]
    congr 1
    rw [List.filterMap_cons]
    cases (ofBuiltin? c).bind read <;> rfl

end

/-! ### Records of custom hooks -/

/-- The usages that a record tells. -/
def usages {π : Type} : Hook π → List π
  | .custom h => h.usages
  | _ => []

/-- The recorded usages of a custom hook. -/
def usagesOf {π : Type} (name : String) (records : List (Hook π)) : List π :=
  (records.filter (isCustomOf name)).flatMap usages

/-- The records of a custom hook that is defined at a place and used at others: one, if it is used
at all. -/
def customRecords (name : String) (definition : Place) : List Place → List (Hook Place)
  | [] => []
  | first :: rest => [.custom ⟨name, definition, first :: rest⟩]

theorem flatMap_usages_customRecords (name : String) (definition : Place) (places : List Place) :
    (customRecords name definition places).flatMap usages = places := by
  cases places with
  | nil => rfl
  | cons first rest => exact List.append_nil _

theorem isCustomOf_addUsage {π : Type} (name custom : String) (place : π) (h : Hook π) :
    isCustomOf name (addUsage custom place h) = isCustomOf name h := by
  cases h with
  | custom h =>
    rw [addUsage]
    split <;> rfl
  | _ => rfl

/-- A usage of a custom hook changes no record of another one. -/
theorem addUsage_eq_self {π : Type} {name custom : String} (hne : custom ≠ name) (place : π)
    {h : Hook π} (hh : isCustomOf name h = true) : addUsage custom place h = h := by
  cases h with
  | custom h =>
    have hname : h.name = name := of_decide_eq_true hh
    rw [addUsage, if_neg fun heq => hne (heq.symm.trans hname)]
  | _ => rfl

theorem filter_map_addUsage (name custom : String) (place : Place) (records : List (Hook Place)) :
    (records.map (addUsage custom place)).filter (isCustomOf name)
      = (records.filter (isCustomOf name)).map (addUsage custom place) := by
  rw [List.filter_map]
  congr 1
  exact List.filter_congr fun h _ => isCustomOf_addUsage name custom place h

/-- A call of a hook of the framework changes no record of a custom hook. -/
theorem filter_record_of_builtin (ds : Definitions) (records : List (Hook Place)) {c : HookCall}
    {h : Hook Place} (hrecord : ofBuiltin? c = some h) (htells : h.builtinName? = some c.name)
    (name : String) :
    (record ds records c).filter (isCustomOf name) = records.filter (isCustomOf name) := by
  have hh : ¬ isCustomOf name h = true := by
    rw [isCustomOf_of_builtinName? htells name]
    exact Bool.false_ne_true
  rw [record, hrecord]
  dsimp only
  rw [List.filter_append, List.filter_cons_of_neg hh, List.filter_nil, List.append_nil]

/-- A call changes no record of another custom hook. -/
theorem filter_record_of_ne (ds : Definitions) (records : List (Hook Place)) {c : HookCall}
    {name : String} (hne : c.name ≠ name) :
    (record ds records c).filter (isCustomOf name) = records.filter (isCustomOf name) := by
  rcases ofBuiltin?_cases c with ⟨h, -, hrecord, htells⟩ | ⟨-, hrecord⟩
  · exact filter_record_of_builtin ds records hrecord htells name
  · rw [record, hrecord]
    dsimp only
    split
    · rfl
    · split
      · rw [filter_map_addUsage]
        have hself : ∀ h ∈ records.filter (isCustomOf name),
            addUsage c.name c.call.place h = h :=
          fun h hmem => addUsage_eq_self hne c.call.place (List.mem_filter.mp hmem).2
        exact (List.map_congr_left hself).trans (List.map_id _)
      · simp [List.filter_append, isCustomOf, hne]

/-- A call makes no record of a custom hook without a definition. -/
theorem filter_record_of_undefined {ds : Definitions} {name : String} (hname : ds.get? name = none)
    (records : List (Hook Place)) (c : HookCall) :
    (record ds records c).filter (isCustomOf name) = records.filter (isCustomOf name) := by
  by_cases hne : c.name = name
  · subst hne
    rcases ofBuiltin?_cases c with ⟨h, -, hrecord, htells⟩ | ⟨-, hrecord⟩
    · exact filter_record_of_builtin ds records hrecord htells c.name
    · rw [record]
      simp only [hrecord, hname]
  · exact filter_record_of_ne ds records hne

/-- **A call of a hook of the file is one more usage in the record of the hook.** -/
theorem filter_record_self {ds : Definitions} {c : HookCall} {definition : Place}
    (hname : isBuiltin c.name = false) (hdefinition : ds.get? c.name = some definition)
    {records : List (Hook Place)} {places : List Place}
    (hrecords : records.filter (isCustomOf c.name) = customRecords c.name definition places) :
    (record ds records c).filter (isCustomOf c.name)
      = customRecords c.name definition (places ++ [c.call.place]) := by
  rw [record, (ofBuiltin?_eq_none_iff c).mpr hname, hdefinition]
  -- The record is there already exactly if there is an earlier usage.
  cases places with
  | nil =>
    have hnone : records.any (isCustomOf c.name) = false := by
      rw [← Bool.not_eq_true, List.any_eq_true]
      rintro ⟨h, hmem, hh⟩
      have hfiltered := List.mem_filter.mpr ⟨hmem, hh⟩
      rw [hrecords] at hfiltered
      cases hfiltered
    simp [hnone, List.filter_append, hrecords, customRecords, isCustomOf]
  | cons first rest =>
    have hmem : Hook.custom ⟨c.name, definition, first :: rest⟩
        ∈ records.filter (isCustomOf c.name) := hrecords ▸ List.mem_singleton_self _
    have hany : records.any (isCustomOf c.name) = true :=
      List.any_eq_true.mpr ⟨_, List.mem_of_mem_filter hmem, (List.mem_filter.mp hmem).2⟩
    simp [hany, filter_map_addUsage, hrecords, customRecords, addUsage]

/-- The places of the calls of a hook. -/
def callPlaces (name : String) (calls : List HookCall) : List Place :=
  (calls.filter (·.name = name)).map (·.call.place)

theorem callPlaces_cons (name : String) (c : HookCall) (calls : List HookCall) :
    callPlaces name (c :: calls)
      = (if c.name = name then [c.call.place] else []) ++ callPlaces name calls := by
  by_cases hne : c.name = name <;> simp [callPlaces, hne]

theorem length_callPlaces (name : String) (calls : List HookCall) :
    (callPlaces name calls).length = (calls.map (·.name)).count name := by
  rw [callPlaces, List.length_map, List.count_eq_countP, List.countP_map,
    ← List.countP_eq_length_filter]
  rfl

theorem filter_foldl_record {ds : Definitions} {name : String} {definition : Place}
    (hname : isBuiltin name = false) (hdefinition : ds.get? name = some definition)
    (calls : List HookCall) {records : List (Hook Place)} {places : List Place}
    (hrecords : records.filter (isCustomOf name) = customRecords name definition places) :
    (calls.foldl (record ds) records).filter (isCustomOf name)
      = customRecords name definition (places ++ callPlaces name calls) := by
  induction calls generalizing records places with
  | nil => rw [List.foldl_nil, hrecords, callPlaces, List.filter_nil, List.map_nil, List.append_nil]
  | cons c calls ih =>
    rw [List.foldl_cons, callPlaces_cons]
    by_cases hne : c.name = name
    · subst hne
      rw [ih (filter_record_self hname hdefinition hrecords), List.append_assoc, if_pos rfl]
    · rw [ih ((filter_record_of_ne ds records hne).trans hrecords), if_neg hne, List.nil_append]

theorem filter_foldl_record_of_undefined {ds : Definitions} {name : String}
    (hname : ds.get? name = none) (calls : List HookCall) (records : List (Hook Place)) :
    (calls.foldl (record ds) records).filter (isCustomOf name)
      = records.filter (isCustomOf name) := by
  induction calls generalizing records with
  | nil => rfl
  | cons c calls ih => rw [List.foldl_cons, ih, filter_record_of_undefined hname]

end Hook

/-! ### The records of a module -/

/-- What is read off the records of hooks of the framework comes from their calls, in order. -/
theorem filterMap_analyzeHooks {α : Type} {read : Hook Place → Option α}
    (hread : ∀ h, read (.custom h) = none) (m : Module) :
    (analyzeHooks m).1.filterMap read
      = (HookCall.ofModule m).filterMap fun c => (Hook.ofBuiltin? c).bind read :=
  Hook.filterMap_foldl_record hread (Hook.definitions m) (HookCall.ofModule m) []

/-- **The hooks of the framework** have a record for each call, in order. -/
theorem filterMap_builtinName?_analyzeHooks (m : Module) :
    (analyzeHooks m).1.filterMap Hook.builtinName?
      = ((HookCall.ofModule m).map (·.name)).filter Hook.isBuiltin := by
  rw [filterMap_analyzeHooks fun _ => rfl, ← List.filterMap_eq_filter, List.filterMap_map]
  refine List.filterMap_congr fun c _ => ?_
  rcases Hook.ofBuiltin?_cases c with ⟨h, hbuiltin, hrecord, htells⟩ | ⟨hbuiltin, hrecord⟩
  · simp [hrecord, htells, Option.guard, hbuiltin]
  · simp [hrecord, Option.guard, hbuiltin]

/-- **The recorded usages of a custom hook** are its calls, if it is defined in the file. -/
theorem usagesOf_analyzeHooks (m : Module) {name : String} (hname : Hook.isBuiltin name = false) :
    Hook.usagesOf name (analyzeHooks m).1
      = if ((Hook.definitions m).get? name).isSome then Hook.callPlaces name (HookCall.ofModule m)
        else [] := by
  rw [analyzeHooks, Hook.usagesOf]
  cases hdefinition : (Hook.definitions m).get? name with
  | none => rw [Hook.filter_foldl_record_of_undefined hdefinition]; rfl
  | some definition =>
    -- At the start there is no record, as for a hook without usages.
    have hstart : ([] : List (Hook Place)).filter (Hook.isCustomOf name)
        = Hook.customRecords name definition [] := rfl
    rw [Hook.filter_foldl_record hname hdefinition _ hstart, Hook.flatMap_usages_customRecords]
    rfl

theorem Hook.undefinedDiagnostic_injective : Function.Injective Hook.undefinedDiagnostic := by
  intro name name' h
  have hmessage := congrArg Diagnostic.message h
  simpa [Hook.undefinedDiagnostic, String.ext_iff] using hmessage

/-- **A hook is reported** if it is called, but neither belongs to the framework nor is defined in
the file. -/
theorem undefinedDiagnostic_mem_analyzeHooks (m : Module) (name : String) :
    Hook.undefinedDiagnostic name ∈ (analyzeHooks m).2
      ↔ Hook.isBuiltin name = false ∧ (Hook.definitions m).get? name = none
          ∧ name ∈ (HookCall.ofModule m).map (·.name) := by
  rw [analyzeHooks, List.mem_map_of_injective Hook.undefinedDiagnostic_injective,
    Hook.undefinedNames, Text.mem_firstOccurrences, List.mem_map, List.mem_map]
  constructor
  · rintro ⟨c, hc, rfl⟩
    obtain ⟨hmem, hunknown⟩ := List.mem_filter.mp hc
    rw [Bool.and_eq_true, Option.isNone_iff_eq_none, Option.isNone_iff_eq_none,
      Hook.ofBuiltin?_eq_none_iff] at hunknown
    exact ⟨hunknown.1, hunknown.2, c, hmem, rfl⟩
  · rintro ⟨hbuiltin, hundefined, c, hmem, rfl⟩
    refine ⟨c, List.mem_filter.mpr ⟨hmem, ?_⟩, rfl⟩
    rw [Bool.and_eq_true, Option.isNone_iff_eq_none, Option.isNone_iff_eq_none,
      Hook.ofBuiltin?_eq_none_iff]
    exact ⟨hbuiltin, hundefined⟩

end JsxWidgets
