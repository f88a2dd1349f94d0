import JsxWidgets.Proofs.Component.Ambiguity
import JsxWidgets.Proofs.Structure.Scope

/-!
# Whether the component is the default export

The default export of a module is the value that others get without asking for a name. A component
is that value if its declaration is exported as the default, or if its name is exported as such
(`ExportedAsDefault`).

The analysis decides this by two other questions: whether any default export of the file is recorded
under the name of the component, and whether any function without a name is exported as the default.
Neither is about the component alone. `defaultExportKnown_iff` says for which modules the answer is
right all the same.
-/

namespace JsxWidgets

open Syntax Expression

/-! ### Default exports -/

/-- **An item exports a name as the default.** -/
inductive ExportsAsDefault : Node → String → Prop
  /-- The name itself, as in `export default A`. -/
  | name {place : Place} {e : Node} {name : String} (he : e.unwrap.form = .name name) :
    ExportsAsDefault ⟨.exportExpr, place, [e]⟩ name
  /-- A call with the name as its first argument, as in `export default memo(A)`. -/
  | wrapped {place p q r : Place} {e callee arg types : Node} {more : List Node} {name : String}
    (he : e.unwrap = ⟨.call, p, [callee, ⟨.list, q, ⟨.item, r, [arg]⟩ :: more⟩, types]⟩)
    (harg : arg.unwrap.form = .name name) : ExportsAsDefault ⟨.exportExpr, place, [e]⟩ name
  /-- A list of names of this file, as in `export { A as default }`. -/
  | listed {place : Place} {bindings : List ExportBinding} {parts : List Node} {name : String}
    {renamed : Option String} (hmem : .named name renamed ∈ bindings)
    (hdefault : renamed.getD name = "default") :
    ExportsAsDefault ⟨.exportList bindings none, place, parts⟩ name

/-- The declaration that the component of a module is found in. -/
def Syntax.Module.componentDeclaration? (m : Module) : Option Node := m.qualified.head?.map (·.2)

/-- Whether the declaration of the component of a module is a default export. -/
def DeclaredAsDefault (m : Module) : Prop :=
  ∃ d ∈ m.componentDeclaration?, d.form = .exportFn ∨ d.form = .exportClass

/-- **The component of a module is its default export.** -/
def ExportedAsDefault (m : Module) (c : Component) : Prop :=
  DeclaredAsDefault m ∨ ∃ name ∈ c.name, ∃ item ∈ m, ExportsAsDefault item name

/-! ### Records of default exports -/

/-- The names of the default exports that a node makes, as they are recorded. -/
def recordedDefaults (n : Node) : List String := defaultNames (Census.exportRecords n)

/-- The nodes below an item that the census looks at. -/
def nestedNodes (item : Node) : List Node := Census.scope.runParts () item 0 item.parts

/-- **A default export in an item is recorded under a name that it does not export**: the name of
what is declared, the name of what is spread as the first argument of a call, or a name in a
namespace. -/
inductive RecordsDefault : Node → String → Prop
  /-- A function or a class. -/
  | declared {form : Form} {place p : Place} {name : String} {more rest : List Node}
    (hform : form = .exportFn ∨ form = .exportClass) :
    RecordsDefault ⟨form, place, ⟨.binder name, p, more⟩ :: rest⟩ name
  /-- An interface. -/
  | interface {place p q : Place} {name : String} {more rest : List Node} :
    RecordsDefault
      ⟨.exportInterface, place, [⟨.interface, p, ⟨.binder name, q, more⟩ :: rest⟩]⟩ name
  /-- A call whose first argument is no single value. -/
  | spread {place p q : Place} {e callee first types : Node} {more : List Node} {name : String}
    (he : e.unwrap = ⟨.call, p, [callee, ⟨.list, q, first :: more⟩, types]⟩)
    (hfirst : ∀ r arg, first ≠ ⟨.item, r, [arg]⟩)
    (hname : (itemValue first).unwrap.form = .name name) :
    RecordsDefault ⟨.exportExpr, place, [e]⟩ name
  /-- Anything below the item. -/
  | nested {item n : Node} {name : String} (hn : n ∈ nestedNodes item)
    (hname : name ∈ recordedDefaults n) : RecordsDefault item name

theorem exports_facts (config : Config) (around : Census.Surroundings) (n : Node) :
    Census.exports (Census.facts config around n) = Census.exportRecords n := by
  obtain ⟨form, place, parts⟩ := n
  rw [Census.facts]
  -- only the last case of the facts can hold exports
  split
  next h =>
    cases h
    rfl
  next h =>
    cases h
    cases calleeName? ⟨.call, place, parts⟩ with
    | none => rfl
    | some name => by_cases hhook : Naming.isHook name <;> simp [hhook, Census.exports,
        Census.exportRecords]
  next h =>
    cases h
    cases Node.tag? ⟨.element, place, parts⟩ <;> rfl
  next name h =>
    cases h
    by_cases hclass : isClassAttribute name.text <;> simp [hclass, Census.attributeFacts,
        Census.exports, Census.exportRecords]
  next value h =>
    cases h
    by_cases hsample : (Text.normalize value).isEmpty = true <;> simp [hsample, Census.exports,
        Census.exportRecords]
  next =>
    rw [Census.exports, List.filterMap_map]
    exact List.filterMap_some

/-- The names of the recorded default exports are read off the nodes in the scope of the census. -/
theorem defaultNames_ofModule (config : Config) (m : Module) :
    defaultNames (Census.exports (Census.ofModule config m))
      = m.surveyed.flatMap recordedDefaults := by
  have hexports : Census.exports (Census.ofModule config m)
      = m.surveyed.flatMap Census.exportRecords := by
    rw [Census.exports, List.filterMap_eq_flatMap_toList]
    refine Census.flatMap_ofModule (fun around n => ?_) m
    rw [← List.filterMap_eq_flatMap_toList]
    exact exports_facts config around n
  rw [hexports, defaultNames, List.filterMap_flatMap]
  rfl

theorem run_scope (n : Node) : Census.scope.run () n = n :: nestedNodes n := by
  obtain ⟨form, place, parts⟩ := n
  rfl

theorem mem_surveyed_iff {m : Module} {n : Node} :
    n ∈ m.surveyed ↔ ∃ item ∈ m, n = item ∨ n ∈ nestedNodes item := by
  simp only [Module.surveyed, Survey.runAll, List.mem_flatMap, run_scope, List.mem_cons]

theorem firstArgument?_eq_some_iff {n a : Node} :
    argument? n 0 = some a ↔ ∃ p callee q first more types,
      n = ⟨.call, p, [callee, ⟨.list, q, first :: more⟩, types]⟩ ∧ itemValue first = a := by
  constructor
  · intro h
    obtain ⟨first, hfirst, ha⟩ := Option.map_eq_some_iff.mp h
    unfold arguments at hfirst
    split at hfirst
    next callee q args types =>
      -- a call without arguments has no first one
      cases args with
      | nil => cases hfirst
      | cons head more =>
        cases hfirst
        exact ⟨_, callee, q, first, more, types, rfl, ha⟩
    next => cases hfirst
  · rintro ⟨p, callee, q, first, more, types, rfl, rfl⟩
    rfl

/-- A value that is exported as the default is recorded under a name if it is that name, or a call
with the name as its first argument. -/
theorem exportedName?_eq_some_iff {e : Node} {name : String} :
    Census.exportedName? e = some name ↔
      e.unwrap.form = .name name ∨
        ∃ p callee q first more types,
          e.unwrap = ⟨.call, p, [callee, ⟨.list, q, first :: more⟩, types]⟩ ∧
            (itemValue first).unwrap.form = .name name := by
  unfold Census.exportedName?
  -- a call exports its first argument, any other expression itself
  dsimp only
  split
  next hcall =>
    rw [Option.bind_eq_some_iff, hcall]
    constructor
    · rintro ⟨a, ha, hfirst⟩
      obtain ⟨p, callee, q, first, more, types, he, rfl⟩ := firstArgument?_eq_some_iff.mp ha
      split at hfirst
      next t hname =>
        cases hfirst
        exact Or.inr ⟨p, callee, q, first, more, types, he, hname⟩
      next => cases hfirst
    · rintro (h | ⟨p, callee, q, first, more, types, he, hfirst⟩)
      · cases h
      · refine ⟨itemValue first, firstArgument?_eq_some_iff.mpr ?_, by rw [hfirst]⟩
        exact ⟨p, callee, q, first, more, types, he, rfl⟩
  next hcall =>
    constructor
    · intro h
      split at h
      next t hname =>
        cases h
        exact Or.inl hname
      next => cases h
    · rintro (h | ⟨p, callee, q, first, more, types, he, -⟩)
      · rw [h]
      · rw [he] at hcall
        exact absurd rfl hcall

theorem binderName?_eq_some_iff {n : Node} {name : String} :
    binderName? n = some name ↔ n.form = .binder name := by
  unfold binderName?
  cases n.form <;> simp

/-- An entry of a list is recorded as a default export if the list is of names of this file. -/
theorem mem_defaultNames_list {source : Option String} {bindings : List ExportBinding}
    {name : String} :
    name ∈ defaultNames (bindings.map (Census.listExport source)) ↔ source = none ∧
      ∃ renamed, .named name renamed ∈ bindings ∧ renamed.getD name = "default" := by
  simp only [defaultNames, List.filterMap_map, List.mem_filterMap, Function.comp_apply]
  constructor
  · rintro ⟨binding, hmem, h⟩
    cases binding with
    | whole t => cases h
    | named t renamed =>
      cases source with
      | some source => cases h
      | none =>
        -- a renamed binding counts by its new name
        by_cases hdefault : renamed.getD t = "default"
        · obtain rfl : t = name := by simpa [Census.listExport, hdefault] using h
          exact ⟨rfl, renamed, hmem, hdefault⟩
        · simp [Census.listExport, hdefault] at h
  · rintro ⟨rfl, renamed, hmem, hdefault⟩
    exact ⟨_, hmem, by simp [Census.listExport, hdefault]⟩

theorem mem_defaultNames_main {name : String} {recorded : Option String} :
    name ∈ defaultNames [Census.mainExport recorded] ↔ recorded = some name := by
  cases recorded <;> simp [defaultNames, Census.mainExport, eq_comm]

/-- A default export that an item makes itself is one that it exports or declares. -/
theorem exportsAsDefault_or_recordsDefault {item : Node} {name : String}
    (h : name ∈ recordedDefaults item) : ExportsAsDefault item name ∨ RecordsDefault item name := by
  unfold recordedDefaults Census.exportRecords at h
  split at h
  next d =>
    simp [defaultNames, Census.namedExport] at h
  next bindings source place parts =>
    obtain ⟨rfl, renamed, hmem, hdefault⟩ := mem_defaultNames_list.mp h
    exact Or.inl (.listed hmem hdefault)
  next => simp [defaultNames] at h
  next place binder rest =>
    obtain ⟨form, p, more⟩ := binder
    obtain rfl := binderName?_eq_some_iff.mp (mem_defaultNames_main.mp h)
    exact Or.inr (.declared (Or.inl rfl))
  next place binder rest =>
    obtain ⟨form, p, more⟩ := binder
    obtain rfl := binderName?_eq_some_iff.mp (mem_defaultNames_main.mp h)
    exact Or.inr (.declared (Or.inr rfl))
  next place p binder rest =>
    obtain ⟨form, q, more⟩ := binder
    obtain rfl := binderName?_eq_some_iff.mp (mem_defaultNames_main.mp h)
    exact Or.inr .interface
  next place e =>
    rcases exportedName?_eq_some_iff.mp (mem_defaultNames_main.mp h) with
      he | ⟨p, callee, q, first, more, types, he, hfirst⟩
    · exact Or.inl (.name he)
    -- an argument that is spread is recorded, but it exports nothing by that name
    · by_cases hitem : ∃ r arg, first = ⟨.item, r, [arg]⟩
      · obtain ⟨r, arg, rfl⟩ := hitem
        exact Or.inl (.wrapped he hfirst)
      · exact Or.inr (.spread he (fun r arg h => hitem ⟨r, arg, h⟩) hfirst)
  next => cases h

theorem mem_recordedDefaults_exportExpr {place : Place} {e : Node} {name : String} :
    name ∈ recordedDefaults ⟨.exportExpr, place, [e]⟩ ↔ Census.exportedName? e = some name :=
  mem_defaultNames_main

/-- **The default exports in an item are recorded** under the names that it exports, and under
others. -/
theorem exists_recordedDefaults_iff {item : Node} {name : String} :
    (∃ n, (n = item ∨ n ∈ nestedNodes item) ∧ name ∈ recordedDefaults n)
      ↔ ExportsAsDefault item name ∨ RecordsDefault item name := by
  constructor
  · rintro ⟨n, rfl | hn, hname⟩
    · exact exportsAsDefault_or_recordsDefault hname
    · exact Or.inr (.nested hn hname)
  -- h) | every form that exports or records a default is at the item or nested in it
  · rintro (h | h)
    · refine ⟨item, Or.inl rfl, ?_⟩
      cases h with
      | name he =>
        exact mem_recordedDefaults_exportExpr.mpr (exportedName?_eq_some_iff.mpr (Or.inl he))
      | wrapped he harg =>
        refine mem_recordedDefaults_exportExpr.mpr (exportedName?_eq_some_iff.mpr (Or.inr ?_))
        exact ⟨_, _, _, _, _, _, he, harg⟩
      | listed hmem hdefault => exact mem_defaultNames_list.mpr ⟨rfl, _, hmem, hdefault⟩
    · cases h with
      | declared hform =>
        refine ⟨_, Or.inl rfl, ?_⟩
        rcases hform with rfl | rfl
        · exact mem_defaultNames_main.mpr rfl
        · exact mem_defaultNames_main.mpr rfl
      | interface => exact ⟨_, Or.inl rfl, mem_defaultNames_main.mpr rfl⟩
      | spread he hfirst hname =>
        refine ⟨_, Or.inl rfl, mem_recordedDefaults_exportExpr.mpr ?_⟩
        exact exportedName?_eq_some_iff.mpr (Or.inr ⟨_, _, _, _, _, _, he, hname⟩)
      | nested hn hname => exact ⟨_, Or.inr hn, hname⟩

/-- The names of the recorded default exports of a module. -/
theorem mem_defaultNames_iff {config : Config} {m : Module} {name : String} :
    name ∈ defaultNames (Census.exports (Census.ofModule config m)) ↔
      (∃ item ∈ m, ExportsAsDefault item name) ∨ ∃ item ∈ m, RecordsDefault item name := by
  rw [defaultNames_ofModule, List.mem_flatMap, ← exists_or]
  simp only [mem_surveyed_iff, ← and_or_left, ← exists_recordedDefaults_iff]
  exact ⟨fun ⟨n, ⟨item, hitem, hn⟩, h⟩ => ⟨item, hitem, n, hn, h⟩,
    fun ⟨item, hitem, n, hn, h⟩ => ⟨n, ⟨item, hitem, hn⟩, h⟩⟩

/-! ### The component -/

theorem nestedNodes_eq {item : Node} (h : Census.isListing item.form = false) :
    nestedNodes item = item.parts.flatMap fun n => n :: nestedNodes n := by
  have henter : ∀ number, Census.scope.enter () item number = some () := by
    intro number
    change (if Census.isListing item.form then none else some ()) = some ()
    rw [h]
    rfl
  rw [nestedNodes, Survey.runParts_of_forall_enter henter]
  exact List.flatMap_congr fun n _ => run_scope n

theorem mem_nestedNodes {n part : Node} (h : Census.isListing n.form = false)
    (hpart : part ∈ n.parts) : part ∈ nestedNodes n := by
  rw [nestedNodes_eq h]
  exact List.mem_flatMap.mpr ⟨part, hpart, List.mem_cons_self⟩

/-- The declaration that an item makes is the item itself, or its only part. -/
theorem declaration?_cases {item d : Node} (h : declaration? item = some d) :
    d = item ∧ (item.form = .exportFn ∨ item.form = .exportClass) ∨
      item.parts = [d] ∧ Census.isListing item.form = false := by
  unfold declaration? at h
  split at h
  next => cases h; exact Or.inr ⟨rfl, rfl⟩
  next => cases h; exact Or.inr ⟨rfl, rfl⟩
  next => cases h; exact Or.inl ⟨rfl, Or.inl rfl⟩
  next => cases h; exact Or.inl ⟨rfl, Or.inr rfl⟩
  next => cases h

/-- What an item declares is looked at by the census. -/
theorem declared_mem_surveyed {m : Module} {x : ComponentRule × Node} (hx : x ∈ m.declared) :
    x.2 ∈ m.surveyed := by
  obtain ⟨item, hitem, hx⟩ := List.mem_flatMap.mp hx
  refine mem_surveyed_iff.mpr ⟨item, hitem, ?_⟩
  obtain ⟨d, hd, hx⟩ : ∃ d, declaration? item = some d ∧ x ∈ ruled d := by
    cases hd : declaration? item with
    | none => simp [JsxWidgets.declared, hd] at hx
    | some d => exact ⟨d, rfl, by simpa [JsxWidgets.declared, hd] using hx⟩
  -- A variable is a part of its declaration; anything else is the declaration itself.
  have hnode : x.2 = d ∨ ∃ kind, d.form = .varDecl kind ∧ x.2 ∈ d.parts := by
    rcases mem_ruled hx with ⟨rfl, -⟩ | ⟨-, kind, hform⟩ | ⟨rfl, -⟩
    · exact Or.inl rfl
    · rw [ruled, hform] at hx
      obtain ⟨part, hpart, rfl⟩ := List.mem_map.mp hx
      exact Or.inr ⟨kind, hform, hpart⟩
    · exact Or.inl rfl
  rcases declaration?_cases hd with ⟨rfl, hform⟩ | ⟨hparts, hlisting⟩
  · rcases hnode with hnode | ⟨kind, hkind, -⟩
    · exact Or.inl hnode
    · rw [hkind] at hform
      rcases hform with h | h <;> cases h
  · rw [nestedNodes_eq hlisting, hparts, List.flatMap_singleton, List.mem_cons]
    rcases hnode with hnode | ⟨kind, hkind, hpart⟩
    · exact Or.inr (Or.inl hnode)
    · exact Or.inr (Or.inr (mem_nestedNodes (by rw [hkind]; rfl) hpart))

/-- The name of a component whose declaration is a default export is recorded for it. -/
theorem Qualifies.name_mem {x : ComponentRule × Node} {c : Component} {name : String}
    (h : Qualifies x c) (hform : x.2.form = .exportFn ∨ x.2.form = .exportClass)
    (hname : c.name = some name) : name ∈ recordedDefaults x.2 := by
  have hrecorded : ∀ {form : Form} {place : Place} {binder body : Node},
      form = .exportFn ∨ form = .exportClass → binderName? binder = some name →
        name ∈ recordedDefaults ⟨form, place, [binder, body]⟩ := by
    rintro form place binder body (rfl | rfl) hbinder
    · exact mem_defaultNames_main.mpr hbinder
    · exact mem_defaultNames_main.mpr hbinder
  cases h with
  | function => exact hrecorded hform hname
  | arrow => rcases hform with h | h <;> cases h
  | functionExpr => rcases hform with h | h <;> cases h
  | classBased => exact hrecorded hform hname

/-- The component of a module whose declaration is a default export is recorded under its name. -/
theorem name_mem_of_declaredAsDefault (config : Config) {m : Module} {c : Component} {name : String}
    (hdeclared : DeclaredAsDefault m) (hc : m.component? = some c) (hname : c.name = some name) :
    name ∈ defaultNames (Census.exports (Census.ofModule config m)) := by
  obtain ⟨d, hd, hform⟩ := hdeclared
  obtain ⟨x, hx, rfl⟩ := Option.map_eq_some_iff.mp hd
  rw [component?_eq_head?, hx, Option.bind_some] at hc
  have hmem := isDeclared_iff.mp (mem_qualified.mp (List.mem_of_head? hx)).1
  rw [defaultNames_ofModule]
  refine List.mem_flatMap.mpr ⟨x.2, declared_mem_surveyed hmem, ?_⟩
  exact (candidate?_eq_some_iff.mp hc).name_mem hform hname

/-- The component is said to be the default export if one is recorded under its name, or if there
is one without a name that is a function. -/
theorem isDefaultExport_iff (path : String) (config : Config) {m : Module} {c : Component}
    (hc : m.component? = some c) :
    (analyzeStructure m path config).isDefaultExport = true ↔
      (∃ name ∈ c.name, (∃ item ∈ m, ExportsAsDefault item name) ∨
        ∃ item ∈ m, RecordsDefault item name) ∨ m.any isNamelessDefault = true := by
  change isDefaultExport m _ = true ↔ _
  rw [isDefaultExport, hc]
  simp only [Bool.or_eq_true, Option.any_eq_true, List.contains_iff_mem, mem_defaultNames_iff]
  rfl

/-- Whether the analysis says of the component of a module, if there is one, that it is the default
export exactly if it is. -/
def DefaultExportKnown (m : Module) (path : String) (config : Config) : Prop :=
  ∀ c, m.component? = some c →
    ((analyzeStructure m path config).isDefaultExport = true ↔ ExportedAsDefault m c)

/-- **The default exports of a module are no others than its component**, as far as names tell. -/
structure DefaultExportClear (m : Module) (c : Component) : Prop where
  /-- A component that is exported as the default without a name is a function, or there is a
  function that is. -/
  nameless : DeclaredAsDefault m → c.name = none → m.any isNamelessDefault = true
  /-- If the component is no default export, no function without a name is. -/
  others : ¬ ExportedAsDefault m c → m.any isNamelessDefault = false
  /-- Nor is a default export recorded under its name. -/
  names : ¬ ExportedAsDefault m c → ∀ name ∈ c.name, ∀ item ∈ m, ¬ RecordsDefault item name

/-- **The analysis knows whether the component is the default export** exactly if no other default
export is mistaken for it. -/
theorem defaultExportKnown_iff (m : Module) (path : String) (config : Config) :
    DefaultExportKnown m path config ↔ ∀ c, m.component? = some c → DefaultExportClear m c := by
  refine forall₂_congr fun c hc => ?_
  rw [isDefaultExport_iff path config hc]
  constructor
  · intro hiff
    refine ⟨fun hdeclared hnone => ?_, fun hnot => ?_,
      fun hnot name hname item hitem hrecords => ?_⟩
    · rcases hiff.mpr (Or.inl hdeclared) with ⟨name, hname, -⟩ | hnameless
      · rw [hnone] at hname
        cases hname
      · exact hnameless
    · exact Bool.eq_false_iff.mpr fun hnameless => hnot (hiff.mp (Or.inr hnameless))
    · exact hnot (hiff.mp (Or.inl ⟨name, hname, Or.inr ⟨item, hitem, hrecords⟩⟩))
  · intro hclear
    constructor
    · intro h
      by_contra hnot
      rcases h with ⟨name, hname, hexports | ⟨item, hitem, hrecords⟩⟩ | hnameless
      · exact hnot (Or.inr ⟨name, hname, hexports⟩)
      · exact hclear.names hnot name hname item hitem hrecords
      · rw [hclear.others hnot] at hnameless
        cases hnameless
    · rintro (hdeclared | ⟨name, hname, hexports⟩)
      -- A component with a name is recorded under it; without one it has to be a function.
      · cases hname : c.name with
        | none => exact Or.inr (hclear.nameless hdeclared hname)
        | some name =>
          have hmem := name_mem_of_declaredAsDefault config hdeclared hc hname
          exact Or.inl ⟨name, rfl, mem_defaultNames_iff.mp hmem⟩
      · exact Or.inl ⟨name, hname, Or.inl hexports⟩

/-- The module of `function A() { return <p/>; } export default function () {}`. -/
def namelessElsewhere : Module :=
  [⟨.declStmt, 0, [⟨.fnDecl, 0, [.leaf (.binder "A") 0, renderingFunction]⟩]⟩,
    ⟨.exportFn, 0, [.absent, ⟨.fn, 0, [.list [], ⟨.body, 0, []⟩, .list [], .absent]⟩]⟩]

/-- A function without a name that is exported as the default is mistaken for the component. -/
theorem not_defaultExportKnown_namelessElsewhere :
    namelessElsewhere.component?.bind (·.name) = some "A" ∧
    (analyzeStructure namelessElsewhere "" default).isDefaultExport = true ∧
    ¬ DefaultExportKnown namelessElsewhere "" default := by
  have hform : namelessElsewhere.componentDeclaration?.map (·.form) = some .fnDecl := by decide
  refine ⟨by decide, by decide, fun hknown => ?_⟩
  have hsome : namelessElsewhere.component?.isSome = true := by decide
  obtain ⟨c, hc⟩ := Option.isSome_iff_exists.mp hsome
  rcases (hknown c hc).mp (by decide) with ⟨d, hd, hexported⟩ | ⟨name, -, item, hitem, hexports⟩
  · rw [Option.mem_def.mp hd, Option.map_some, Option.some_inj] at hform
    rw [hform] at hexported
    exact absurd hexported (by decide)
  · rcases List.mem_pair.mp hitem with rfl | rfl <;> cases hexports

end JsxWidgets
