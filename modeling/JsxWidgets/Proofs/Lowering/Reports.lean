import JsxWidgets.Proofs.Lowering.Shape

/-!
# What is reported

Every construct that is not translated is reported exactly once, in the order of the source: the tag
of an element, its attributes, its children, and then the loss of its children. `Node.reports` is
that list, read off the markup alone but for the number of widgets that an element without a slot
loses.

A report is shown in the tree (`Untranslated.LeftIn`), unless it is for something below an element
without a slot: that is lost with the widgets of the children. `Noted.Reports` says of some widgets,
made with notes, that they report a list and show what is shown of it.
-/

namespace JsxWidgets

open Syntax Expression

/-! ### The list of reports -/

/-- **A report**: what is not translated, and whether the tree shows it. -/
structure Report where
  /-- What is not translated. -/
  construct : Untranslated
  /-- Whether the tree shows it. -/
  shown : Bool := true

namespace Report

/-- A report that is lost with the widgets around it. -/
def lose (r : Report) : Report := { r with shown := false }

theorem map_lose_diagnostic (rs : List Report) :
    (rs.map lose).map (·.construct.diagnostic) = rs.map (·.construct.diagnostic) := by
  rw [List.map_map]
  rfl

/-- The reports about the children of an element with a row. -/
def ofContent (overrides : Overrides) (found : ResolvedRow) (el : Element)
    (children : List Report) : List Report :=
  if found.row.roles.textLike then
    ((Node.intrusionsOf overrides el.children).filterMap
      (Intrusion.untranslated? found.target)).map (⟨·, true⟩)
  else
    -- Nothing is said about the children themselves if they give no widgets.
    match found.row.slot, (lowerNodes overrides el.children).value with
    | .none, [] => children.map lose
    | .none, ws => children.map lose ++ [⟨.dropped ws.length found.target, true⟩]
    | _, _ => children

/-- The reports of an element with a row, from those of its children: those of the tag, of the
attributes, and of the children. -/
def ofKnown (overrides : Overrides) (found : ResolvedRow) (el : Element) (children : List Report) :
    List Report :=
  (if (overrides.resolve? el.tag.text).isNone then [⟨.unknownTag el.tag.text, true⟩] else [])
    ++ (attributesUntranslated found.row el.tag.text found.target false el.given).map (⟨·, true⟩)
    ++ ofContent overrides found el children

end Report

mutual

/-- **The reports of a node** that is lowered as a child. -/
def Syntax.Node.reports (overrides : Overrides) : Node → List Report
  | ⟨form, place, parts⟩ =>
    match form, parts with
    | .text _, _ => []
    | .element, [⟨.opening tag, _, ⟨_, _, attributes⟩ :: _⟩, ⟨_, _, nodes⟩, _] =>
      match overrides.rowOf? tag with
      | none =>
        Syntax.Node.reportsOfAttributes overrides tag.text attributes
          ++ Syntax.Node.reportsOf overrides nodes
      | some found =>
        Report.ofKnown overrides found ⟨tag, attributes, nodes⟩
          (Syntax.Node.reportsOf overrides nodes)
    | .fragment, nodes => Syntax.Node.reportsOf overrides nodes
    | .container, [⟨.absent, _, _⟩] => []
    | .container, [e] =>
      match plainText? e with
      | some _ => []
      | none => Syntax.Node.reports overrides e
    | .spreadChild, [e] => [⟨.spreadChild e, true⟩]
    | .paren, [e] => Syntax.Node.reports overrides e
    | .asType, [e, _] => Syntax.Node.reports overrides e
    | .asConst, [e] => Syntax.Node.reports overrides e
    | .satisfies, [e, _] => Syntax.Node.reports overrides e
    | .nonNull, [e] => Syntax.Node.reports overrides e
    | .markup, [n] => Syntax.Node.reports overrides n
    | _, _ => [⟨.expression ⟨form, place, parts⟩, true⟩]

/-- The reports of several children. -/
def Syntax.Node.reportsOf (overrides : Overrides) : List Node → List Report
  | [] => []
  | n :: ns => Syntax.Node.reports overrides n ++ Syntax.Node.reportsOf overrides ns

/-- The reports of an attribute of a component. Markup in it is lowered. -/
def Syntax.Node.reportsOfAttribute (overrides : Overrides) (target : String) : Node → List Report
  | ⟨form, place, parts⟩ =>
    match form, parts with
    | .attr name, [inner] =>
      if isClassAttribute name.text || name.text = "key" then []
      else
        match GivenValue.ofAttribute ⟨form, place, parts⟩ with
        | .markup _ => Syntax.Node.reports overrides inner
        | _ => []
    | .spread, [e] => [⟨.spread target e, true⟩]
    | _, _ => []

/-- The reports of the attributes of a component. -/
def Syntax.Node.reportsOfAttributes (overrides : Overrides) (target : String) :
    List Node → List Report
  | [] => []
  | attr :: rest =>
    Syntax.Node.reportsOfAttribute overrides target attr
      ++ Syntax.Node.reportsOfAttributes overrides target rest

end

/-- The reports of an element. -/
def Syntax.Element.reports (overrides : Overrides) (el : Element) : List Report :=
  match overrides.rowOf? el.tag with
  | none =>
    Node.reportsOfAttributes overrides el.tag.text el.attributes
      ++ Node.reportsOf overrides el.children
  | some found => Report.ofKnown overrides found el (Node.reportsOf overrides el.children)

/-- **The reports of a child**, by what kind of child it is. -/
theorem reports_eq (overrides : Overrides) (n : Node) :
    n.reports overrides =
      match n.childForm with
      | .text _ => []
      | .element el => el.reports overrides
      | .fragment nodes => Node.reportsOf overrides nodes
      | .inner e => e.reports overrides
      | .spread e => [⟨.spreadChild e, true⟩]
      | .expression e => [⟨.expression e, true⟩] := by
  obtain ⟨form, place, parts⟩ := n
  conv => lhs; unfold Node.reports
  -- Both sides ask for the same kinds of nodes, in the same order.
  split
  all_goals first | rfl | skip
  · -- braces around an expression, which may be a text
    next e hform =>
    rw [Node.childForm]
    · cases plainText? e <;> rfl
    · exact hform
  · -- nothing that has a rule
    rw [Node.childForm]
    all_goals assumption

/-- What gives way to an expression inside reports what that does. -/
theorem reports_inner {overrides : Overrides} {n e : Node} (h : n.childForm = .inner e) :
    n.reports overrides = e.reports overrides := by
  rw [reports_eq, h]

/-- The reports of an attribute of a component, as it is given. -/
def GivenAttribute.componentReports (overrides : Overrides) (target : String) :
    GivenAttribute → List Report
  | .spread e => [⟨.spread target e, true⟩]
  | .named name value =>
    if isClassAttribute name || name = "key" then []
    else
      match value with
      | .markup n => n.reports overrides
      | _ => []

/-- An attribute of a component reports what its value does. -/
theorem reportsOfAttribute_of {overrides : Overrides} {target : String} {attr : Node}
    {g : GivenAttribute} (h : GivenAttribute.ofNode? attr = some g) :
    Node.reportsOfAttribute overrides target attr = g.componentReports overrides target := by
  unfold GivenAttribute.ofNode? at h
  split at h
  · next name place inner =>
    cases h
    simp only [Node.reportsOfAttribute, GivenAttribute.componentReports]
    split
    · rfl
    · -- The reports are read off what stands behind the equals sign, braces and all.
      cases hvalue : GivenValue.ofAttribute ⟨.attr name, place, [inner]⟩ with
      | markup n => exact eq_attributeMarkup_of_inner (fun _ _ => reports_inner) hvalue
      | standsAlone | text s | expression e => rfl
  · cases h
    rw [Node.reportsOfAttribute]
    rfl
  · cases h

theorem reportsOfAttribute_none {overrides : Overrides} {target : String} {attr : Node}
    (h : GivenAttribute.ofNode? attr = none) :
    Node.reportsOfAttribute overrides target attr = [] := by
  obtain ⟨form, place, parts⟩ := attr
  unfold Node.reportsOfAttribute
  split
  · cases h
  · cases h
  · rfl

/-- The attributes of a component report one after the other. -/
theorem reportsOfAttributes_eq_flatMap (overrides : Overrides) (target : String)
    (attrs : List Node) :
    Node.reportsOfAttributes overrides target attrs =
      (attrs.filterMap GivenAttribute.ofNode?).flatMap (·.componentReports overrides target) := by
  induction attrs with
  | nil => rw [Node.reportsOfAttributes, List.filterMap_nil, List.flatMap_nil]
  | cons attr attrs ih =>
    rw [Node.reportsOfAttributes, ih]
    cases hattr : GivenAttribute.ofNode? attr with
    | none => rw [reportsOfAttribute_none hattr, List.filterMap_cons_none hattr, List.nil_append]
    | some g =>
      rw [reportsOfAttribute_of hattr, List.filterMap_cons_some hattr, List.flatMap_cons]

/-! ### Widgets that report -/

/-- **Some widgets, made with notes, report a list**: the diagnostics are those of the list, and
what is shown of it is in the trees of the widgets. -/
structure Noted.Reports (made : Noted (List Widget)) (reports : List Report) : Prop where
  /-- The diagnostics are those of the list, in order. -/
  diagnostics : made.notes.diagnostics = reports.map (·.construct.diagnostic)
  /-- What is shown is in the trees. -/
  traces : ∀ r ∈ reports, r.shown = true →
    ∃ v ∈ made.value, ∃ x ∈ v.nodes, r.construct.LeftIn x

namespace Noted.Reports

variable {first rest : Noted (List Widget)} {reports reports' : List Report}

theorem nil : (pure [] : Noted (List Widget)).Reports [] where
  diagnostics := rfl
  traces r hr := by cases hr

theorem append (hfirst : first.Reports reports) (hrest : rest.Reports reports') :
    (do return (← first) ++ (← rest) : Noted (List Widget)).Reports (reports ++ reports') where
  diagnostics := by
    rw [Noted.notes_bind, Noted.notes_bind, Noted.notes_pure, Notes.append_empty,
      Notes.diagnostics_append, hfirst.diagnostics, hrest.diagnostics, List.map_append]
  traces r hr hshown := by
    rcases List.mem_append.mp hr with hr | hr
    · obtain ⟨v, hv, hx⟩ := hfirst.traces r hr hshown
      exact ⟨v, List.mem_append_left _ hv, hx⟩
    · obtain ⟨v, hv, hx⟩ := hrest.traces r hr hshown
      exact ⟨v, List.mem_append_right _ hv, hx⟩

end Noted.Reports

/-- **Children report one after the other.** -/
theorem lowerNodes_reports {overrides : Overrides} {ns : List Node}
    (h : ∀ m ∈ ns, (lowerNode overrides m).Reports (m.reports overrides)) :
    (lowerNodes overrides ns).Reports (Node.reportsOf overrides ns) := by
  induction ns with
  | nil =>
    rw [lowerNodes, Node.reportsOf]
    exact .nil
  | cons n ns ih =>
    rw [lowerNodes, Node.reportsOf]
    exact (h n List.mem_cons_self).append (ih fun m hm => h m (List.mem_cons_of_mem _ hm))

/-! ### Traces in the widget of an element -/

/-- What children become is in the tree around them, if there is a slot. -/
theorem nodes_place {slot : Slot} {ws : List Widget} (hslot : slot ≠ .none) {v : Widget}
    (hv : v ∈ ws) : v.nodes ⊆ (slot.place ws).nodes := by
  intro x hx
  have hholds := slot.holds_place ws
  generalize slot.place ws = children at hholds ⊢
  -- the widgets stand in the slot as they are, or behind a column
  cases hholds with
  | slotless ws => exact absurd rfl hslot
  | nobody name | empty name => cases hv
  | one name w =>
    obtain rfl := List.mem_singleton.mp hv
    rw [Children.nodes]
    exact hx
  | stacked name ws hlen =>
    rw [Children.nodes]
    show x ∈ (Widget.column ws).nodes
    rw [Widget.nodes_column]
    exact List.mem_cons_of_mem _ (Widget.mem_nodesOf.mpr ⟨v, hv, hx⟩)
  | collected name ws hne =>
    rw [Children.nodes]
    exact Widget.mem_nodesOf.mpr ⟨v, hv, hx⟩

/-- Every widget of several is in the tree that they are put into. -/
theorem nodes_siblings {ws : List Widget} {v : Widget} (hv : v ∈ ws) :
    v.nodes ⊆ (siblings ws).nodes := by
  match ws with
  | [] => cases hv
  | [w] =>
    obtain rfl := List.mem_singleton.mp hv
    exact List.Subset.refl _
  | v' :: w :: rest =>
    intro x hx
    have hlen : 2 ≤ (v' :: w :: rest).length := Nat.le_add_left 2 rest.length
    rw [siblings_eq_column hlen, Widget.nodes_column]
    exact List.mem_cons_of_mem _ (Widget.mem_nodesOf.mpr ⟨v, hv, hx⟩)

/-- An attribute that is not translated is shown where its argument is. -/
theorem Shows.leftIn {row : ElementRow} {tag target : String} {before : List Property}
    {g : GivenAttribute} {p : Property} (h : Shows row tag before g p) {u : Untranslated}
    (hu : attributeUntranslated? row tag target (Widget.hasKey "key" before) g = some u)
    {w : Widget} (hp : p ∈ w.properties) : u.LeftIn w := by
  cases h with
  | spread e =>
    cases hu
    exact hp
  | key value => cases hu
  | rule name value p hkey hrule =>
    rw [attributeUntranslated?, hrule] at hu
    split at hu <;> cases hu
  | unruled name value hkey hrule =>
    rw [attributeUntranslated?, hrule] at hu
    split at hu <;> cases hu
    exact hp

/-- A class attribute is never reported. -/
theorem attributeUntranslated?_of_isClass {row : ElementRow} {tag target : String} {keyed : Bool}
    {g : GivenAttribute} (h : g.isClass = true) :
    attributeUntranslated? row tag target keyed g = none := by
  cases g with
  | spread e => cases h
  | named name value =>
    have hname : isClassAttribute name = true := h
    rw [attributeUntranslated?, hname, Bool.true_or, if_pos rfl]

/-- Attributes that are not translated are shown where their arguments are. -/
theorem ShowsInOrder.leftIn {row : ElementRow} {tag target : String} {gs : List GivenAttribute}
    {before shown : List Property}
    (h : ShowsInOrder row tag before (gs.filter (!·.isClass)) shown) {w : Widget}
    (hshown : ∀ p ∈ shown, p ∈ w.properties) :
    ∀ u ∈ attributesUntranslated row tag target (Widget.hasKey "key" before) gs, u.LeftIn w := by
  -- The arguments in front grow along the list, and with them what is known about the key.
  induction gs generalizing before shown with
  | nil =>
    intro u hu
    cases hu
  | cons g gs ih =>
    intro u hu
    rw [attributesUntranslated, List.mem_append, Option.mem_toList] at hu
    cases hclass : g.isClass with
    | true =>
      -- Class names are translated, and stand in no argument.
      rw [attributeUntranslated?_of_isClass hclass, setsKey_of_isClass hclass, Bool.or_false] at hu
      rw [List.filter_cons_of_neg (by simp [hclass])] at h
      rcases hu with hnone | hrest
      · cases hnone
      · exact ih h hshown u hrest
    | false =>
      rw [List.filter_cons_of_pos (by simp [hclass])] at h
      cases h with
      | @cons _ _ p _ ps hp hps =>
        rcases hu with hown | hrest
        · exact hp.leftIn hown (hshown p List.mem_cons_self)
        · -- The list of what is not translated knows about the key what the arguments say.
          have hkeyed : Widget.hasKey "key" (before ++ [p])
              = (Widget.hasKey "key" before || setsKey tag g) := by
            rw [hasKey_append]
            cases hbefore : Widget.hasKey "key" before with
            | true => rw [Bool.true_or, Bool.true_or]
            | false => rw [Bool.false_or, Bool.false_or, hp.hasKey hbefore]
          rw [← hkeyed] at hrest
          exact ih hps (fun q hq => hshown q (List.mem_cons_of_mem _ hq)) u hrest

/-- What is inside a text and not translated is shown among its comments. -/
theorem Intrusion.leftIn {target : String} {lost : Intrusion} {u : Untranslated}
    (hu : lost.untranslated? target = some u) {w : Widget}
    (hproperties : ∀ p, lost.comment? = some p → p ∈ w.properties)
    (hcomments : ∀ c, lost.remark? target = some c → c ∈ w.comments) : u.LeftIn w := by
  cases lost with
  | expression e | spread e | element tag =>
    cases hu
    exact hcomments _ rfl
  | merged tag g =>
    -- Attributes stand among the arguments instead, as comments.
    cases g with
    | spread e =>
      cases hu
      exact hproperties _ rfl
    | named name value =>
      have hcomment := hproperties
      simp only [Intrusion.untranslated?, nestedUntranslated?] at hu
      simp only [Intrusion.comment?, nestedComment?] at hcomment
      split at hu
      · cases hu
      · next hclass =>
        cases hu
        exact hcomment _ (if_neg hclass)

/-- Everything inside a text that is not translated is shown among its comments. -/
theorem intrusions_leftIn {target : String} {lost : List Intrusion} {w : Widget}
    (hproperties : ∀ p ∈ lost.filterMap Intrusion.comment?, p ∈ w.properties)
    (hcomments : ∀ c ∈ lost.filterMap (Intrusion.remark? target), c ∈ w.comments) :
    ∀ u ∈ lost.filterMap (Intrusion.untranslated? target), u.LeftIn w := by
  intro u hu
  obtain ⟨l, hl, hlu⟩ := List.mem_filterMap.mp hu
  refine Intrusion.leftIn hlu (fun p hp => ?_) (fun c hc => ?_)
  · exact hproperties p (List.mem_filterMap.mpr ⟨l, hl, hp⟩)
  · exact hcomments c (List.mem_filterMap.mpr ⟨l, hl, hc⟩)

/-! ### Elements -/

section Element

variable {overrides : Overrides} {el : Element}

/-- Widgets in an argument are in the tree. -/
theorem nodes_argument {w : Widget} {p : Property} (hp : p ∈ w.properties) :
    p.value.nodes ⊆ w.nodes := fun _ hx =>
  Widget.mem_nodes_iff.mpr (Or.inr (Or.inl ⟨p, hp, hx⟩))

/-- Widgets among the children are in the tree. -/
theorem nodes_children {w : Widget} : w.children.nodes ⊆ w.nodes := fun _ hx =>
  Widget.mem_nodes_iff.mpr (Or.inr (Or.inr hx))

/-- The reports of an attribute of a component. -/
theorem componentReports_diagnostics {target : String} {g : GivenAttribute}
    (h : ∀ name n, g = .named name (.markup n) →
      (lowerNode overrides n).Reports (n.reports overrides)) :
    (componentNotes overrides target g).diagnostics
      = (g.componentReports overrides target).map (·.construct.diagnostic) := by
  cases g with
  | spread e => rfl
  | named name value =>
    simp only [componentNotes, GivenAttribute.componentReports]
    by_cases hclass : isClassAttribute name = true
    · rw [if_pos hclass, hclass, Bool.true_or, if_pos rfl]
      rfl
    · by_cases hkey : name = "key"
      · simp only [hkey, if_true, decide_true, Bool.or_true]
        rw [if_neg (by decide)]
        rfl
      · -- Every other name is taken as it is, and only markup has something to report.
        simp only [hclass, hkey, if_false, decide_false, Bool.or_false, Bool.false_eq_true]
        cases value with
        | markup n => exact (h name n rfl).diagnostics
        | standsAlone | text s | expression e => rfl

/-- What is reported for the attributes of a component comes from the markup in them and from
spreads. -/
theorem componentReports_join {target : String} {gs : List GivenAttribute}
    (h : ∀ name n, .named name (.markup n) ∈ gs →
      (lowerNode overrides n).Reports (n.reports overrides)) :
    (Notes.join (gs.map (componentNotes overrides target))).diagnostics
      = (gs.flatMap (·.componentReports overrides target)).map (·.construct.diagnostic) := by
  induction gs with
  | nil => rfl
  | cons g gs ih =>
    have hown : ∀ name n, g = .named name (.markup n) →
        (lowerNode overrides n).Reports (n.reports overrides) := by
      rintro name n rfl
      exact h name n List.mem_cons_self
    rw [List.map_cons, Notes.join_cons, Notes.diagnostics_append, componentReports_diagnostics hown,
      ih fun name n hn => h name n (List.mem_cons_of_mem _ hn), List.flatMap_cons, List.map_append]

/-- The reports of an attribute of a component are shown in its argument. -/
theorem componentReports_traces {target : String} {g : GivenAttribute} {w : Widget}
    (h : ∀ name n, g = .named name (.markup n) →
      (lowerNode overrides n).Reports (n.reports overrides))
    (hw : g.isClass = false → componentProperty overrides g ∈ w.properties) :
    ∀ r ∈ g.componentReports overrides target, r.shown = true →
      ∃ x ∈ w.nodes, r.construct.LeftIn x := by
  intro r hr hshown
  cases g with
  | spread e =>
    obtain rfl := List.mem_singleton.mp hr
    exact ⟨w, w.self_mem_nodes, hw rfl⟩
  | named name value =>
    simp only [GivenAttribute.componentReports] at hr
    split at hr
    · cases hr
    · next hname =>
      rw [Bool.or_eq_true, not_or, decide_eq_true_iff] at hname
      cases value with
      | standsAlone | text s | expression e => cases hr
      | markup n =>
        -- The trace is in the widget that the argument holds.
        obtain ⟨v, hv, x, hx, hleft⟩ := (h name n rfl).traces r hr hshown
        have hp := hw (by simpa [GivenAttribute.isClass] using hname.1)
        rw [componentProperty, if_neg hname.2, componentValue] at hp
        refine ⟨x, nodes_argument hp ?_, hleft⟩
        rw [Property.named, Property.value, Value.nodes]
        exact nodes_siblings hv hx

/-- **A component reports its attributes and then its children.** -/
theorem lowerComponent_reports (hattributes : ∀ name n, .named name (.markup n) ∈ el.given →
      (lowerNode overrides n).Reports (n.reports overrides))
    (hchildren : (lowerNodes overrides el.children).Reports
      (Node.reportsOf overrides el.children)) :
    ((fun w => [w]) <$> lowerComponent overrides el).Reports
      (Node.reportsOfAttributes overrides el.tag.text el.attributes
        ++ Node.reportsOf overrides el.children) where
  diagnostics := by
    have hjoin : (Notes.join (el.given.map (componentNotes overrides el.tag.text))).diagnostics
        = (el.given.flatMap (·.componentReports overrides el.tag.text)).map
          (·.construct.diagnostic) := componentReports_join hattributes
    rw [Noted.notes_map, lowerComponent_notes, lowerComponentAttributes_notes,
      reportsOfAttributes_eq_flatMap, Notes.diagnostics_append, Notes.diagnostics_append,
      hchildren.diagnostics, List.map_append]
    exact congrArg (· ++ _) hjoin
  traces r hr hshown := by
    refine ⟨_, List.mem_singleton_self _, ?_⟩
    rcases List.mem_append.mp hr with hr | hr
    · -- for an attribute
      rw [reportsOfAttributes_eq_flatMap] at hr
      obtain ⟨g, hg, hr⟩ := List.mem_flatMap.mp hr
      refine componentReports_traces (fun name n hgn => ?_) (fun hclass => ?_) r hr hshown
      · subst hgn
        exact hattributes name n hg
      · rw [lowerComponent_arguments.1]
        exact List.mem_map_of_mem (List.mem_filter.mpr ⟨hg, by simp [hclass]⟩)
    · -- for a child
      obtain ⟨v, hv, x, hx, hleft⟩ := hchildren.traces r hr hshown
      refine ⟨x, nodes_children ?_, hleft⟩
      rw [lowerComponent_value, componentWidget, Widget.children]
      exact nodes_place (by simp) hv hx

/-- A tag is reported exactly if it has no row. -/
theorem noteTag_diagnostics (overrides : Overrides) (tag : String) :
    (noteTag overrides tag).notes.diagnostics =
      (if (overrides.resolve? tag).isNone then [Report.mk (.unknownTag tag) true] else []).map
        (·.construct.diagnostic) := by
  unfold noteTag
  split <;> rfl

/-- What is noted for the attributes and the children of an element with a row. -/
theorem lowerKnown_diagnostics (found : ResolvedRow)
    (hchildren : (lowerNodes overrides el.children).Reports
      (Node.reportsOf overrides el.children)) :
    (lowerKnown overrides found el).notes.diagnostics =
      (attributesUntranslated found.row el.tag.text found.target false el.given).map (·.diagnostic)
        ++ (Report.ofContent overrides found el (Node.reportsOf overrides el.children)).map
          (·.construct.diagnostic) := by
  have hattributes : (knownAttributes el found).notes.diagnostics =
      (attributesUntranslated found.row el.tag.text found.target false el.given).map
        (·.diagnostic) := by
    rw [knownAttributes, lowerAttributes_notes]
    rfl
  unfold Report.ofContent
  cases htext : found.row.roles.textLike with
  | true =>
    rw [lowerKnown_notes_text overrides el found htext, Notes.diagnostics_append, hattributes,
      (collectTexts_tells overrides found.target el.children).2, if_pos rfl, List.map_map]
    rfl
  | false =>
    rw [lowerKnown_notes_box overrides el found htext, Notes.diagnostics_append, hattributes,
      Notes.diagnostics_append, hchildren.diagnostics, if_neg Bool.false_ne_true]
    refine congrArg _ ?_
    -- The loss of the children is reported where there is no slot and something to lose.
    cases found.row.slot with
    | none =>
      cases (lowerNodes overrides el.children).value with
      | nil => exact (List.append_nil _).trans (Report.map_lose_diagnostic _).symm
      | cons w ws =>
        show _ ++ [(Untranslated.dropped (w :: ws).length found.target).diagnostic] = _
        rw [List.map_append, Report.map_lose_diagnostic]
        rfl
    | single name => exact List.append_nil _
    | many name => exact List.append_nil _

/-- What is shown of the children of an element with a row. -/
theorem ofContent_traces {found : ResolvedRow} (hrow : overrides.rowOf? el.tag = some found)
    (hchildren : (lowerNodes overrides el.children).Reports
      (Node.reportsOf overrides el.children)) :
    ∀ r ∈ Report.ofContent overrides found el (Node.reportsOf overrides el.children),
      r.shown = true → ∃ x ∈ (lowerKnown overrides found el).value.nodes, r.construct.LeftIn x := by
  intro r hr hshown
  obtain ⟨shown, -, hproperties, hcomments⟩ := lowerKnown_arguments hrow
  unfold Report.ofContent at hr
  cases htext : found.row.roles.textLike with
  | true =>
    -- Everything lost in a text is shown by the widget of the text itself.
    rw [htext, if_pos rfl] at hr
    obtain ⟨u, hu, rfl⟩ := List.mem_map.mp hr
    have hlost : el.lost overrides found = Node.intrusionsOf overrides el.children := by
      rw [Element.lost, htext, if_pos rfl]
    refine ⟨_, Widget.self_mem_nodes _, intrusions_leftIn (fun p hp => ?_) (fun c hc => ?_) u hu⟩
    · rw [hproperties, Element.arguments, Element.argumentsAhead, hlost]
      exact List.mem_append_left _ (List.mem_append_right _ hp)
    · rw [hcomments, Element.remarks, htext, if_pos rfl, hlost]
      exact List.mem_append_right _ hc
  | false =>
    rw [htext, if_neg Bool.false_ne_true] at hr
    -- What is shown is not below an element without a slot.
    have hlost : ∀ rs : List Report, r ∉ rs.map Report.lose := by
      intro rs hmem
      obtain ⟨r', -, rfl⟩ := List.mem_map.mp hmem
      cases hshown
    by_cases hslot : found.row.slot = .none
    · cases hws : (lowerNodes overrides el.children).value with
      | nil =>
        rw [hslot, hws] at hr
        exact absurd hr (hlost _)
      | cons w ws =>
        rw [hslot, hws] at hr
        rcases List.mem_append.mp hr with hchild | hdrop
        · exact absurd hchild (hlost _)
        · -- The widget without a slot says itself that it loses its children.
          obtain rfl := List.mem_singleton.mp hdrop
          refine ⟨_, Widget.self_mem_nodes _, ?_⟩
          show droppedMessage _ _ ∈ (lowerKnown overrides found el).value.comments
          rw [hcomments, Element.remarks, htext, if_neg Bool.false_ne_true, hslot, hws]
          exact List.mem_append_right _ List.mem_cons_self
    · -- With a slot, the trees of the children are all there.
      have hchild : r ∈ Node.reportsOf overrides el.children := by
        cases hslot' : found.row.slot with
        | none => exact absurd hslot' hslot
        | single name | many name =>
          rw [hslot'] at hr
          exact hr
      obtain ⟨v, hv, x, hx, hleft⟩ := hchildren.traces r hchild hshown
      refine ⟨x, nodes_children ?_, hleft⟩
      rw [lowerKnown_value_box overrides el found htext, boxWidget, Widget.children]
      exact nodes_place hslot hv hx

/-- **An element with a row reports** its tag, its attributes, its children and their loss. -/
theorem lowerKnown_reports {found : ResolvedRow} (hrow : overrides.rowOf? el.tag = some found)
    (hchildren : (lowerNodes overrides el.children).Reports
      (Node.reportsOf overrides el.children)) :
    ((fun w => [w]) <$> lowerElement overrides el).Reports
      (Report.ofKnown overrides found el (Node.reportsOf overrides el.children)) where
  diagnostics := by
    rw [Noted.notes_map, lowerElement_of_row hrow, Noted.notes_bind, Notes.diagnostics_append,
      noteTag_diagnostics, lowerKnown_diagnostics found hchildren, Report.ofKnown, List.map_append,
      List.map_append, List.map_map, List.append_assoc]
    rfl
  traces r hr hshown := by
    refine ⟨_, List.mem_singleton_self _, ?_⟩
    rw [lowerElement_of_row hrow, Noted.value_bind]
    rw [Report.ofKnown, List.mem_append, List.mem_append] at hr
    rcases hr with (htag | hattribute) | hcontent
    · -- The trace of an unknown tag is the widget itself.
      split at htag
      · obtain rfl := List.mem_singleton.mp htag
        have hsource : (lowerKnown overrides found el).value.source = some el.tag.text :=
          lowerKnown_source found
        exact ⟨_, Widget.self_mem_nodes _, hsource⟩
      · cases htag
    · obtain ⟨u, hu, rfl⟩ := List.mem_map.mp hattribute
      obtain ⟨shown, hgiven, hproperties, -⟩ := lowerKnown_arguments hrow
      refine ⟨_, Widget.self_mem_nodes _, hgiven.leftIn (fun p hp => ?_) u hu⟩
      rw [hproperties, Element.arguments, Element.argumentsAhead]
      simp only [List.mem_append]
      exact Or.inl (Or.inl (Or.inl (Or.inr hp)))
    · exact ofContent_traces hrow hchildren r hcontent hshown

end Element

/-! ### Lowered trees -/

/-- A placeholder reports the expression that it stands for. -/
theorem lowerUnread_reports {e : Node} {u : Untranslated} (hmessage : u.message = shownMessage e)
    (hleft : ∀ w : Widget, shownMessage e ∈ w.comments → u.LeftIn w) :
    (lowerUnread e).Reports [⟨u, true⟩] where
  diagnostics := by
    rw [List.map_singleton, Untranslated.diagnostic, hmessage]
    rfl
  traces r hr _ := by
    obtain rfl := List.mem_singleton.mp hr
    refine ⟨.placeholder (shownMessage e), List.mem_singleton_self _, _,
      Widget.self_mem_nodes _, ?_⟩
    exact hleft _ List.mem_cons_self

/-- **Every node reports what of it is not translated.** -/
theorem lowerNode_reports (overrides : Overrides) (n : Node) :
    (lowerNode overrides n).Reports (n.reports overrides) := by
  induction n using Node.induction_below with
  | step n ih =>
    rw [lowerNode_eq, reports_eq]
    cases hform : n.childForm with
    | text shown => exact ⟨rfl, fun r hr => by cases hr⟩
    | inner e => exact ih e (inner_below hform)
    | spread e => exact lowerUnread_reports rfl fun w hw => hw
    | expression e => exact lowerUnread_reports rfl fun w hw => hw
    | fragment ns =>
      obtain ⟨place, rfl⟩ := fragment_of_childForm hform
      exact lowerNodes_reports fun m hm => ih m (Node.mem_nodesOf_of_mem hm)
    | element el =>
      have hel := element?_of_childForm hform
      have hchildren : (lowerNodes overrides el.children).Reports
          (Node.reportsOf overrides el.children) :=
        lowerNodes_reports fun m hm => ih m (Node.children_below hel m hm)
      show ((fun w => [w]) <$> lowerElement overrides el).Reports (el.reports overrides)
      unfold Element.reports
      cases hrow : overrides.rowOf? el.tag with
      | some found => exact lowerKnown_reports hrow hchildren
      | none =>
        rw [lowerElement_of_component hrow]
        -- Markup in an attribute lies below the element as well.
        refine lowerComponent_reports (fun name m hm => ?_) hchildren
        obtain ⟨attr, hmem, hattr⟩ := List.mem_filterMap.mp hm
        exact ih m (Node.mem_nodesOf_trans (Node.attributes_below hel attr hmem)
          (attributeMarkup_below hattr))

/-- **Every construct that is not translated is reported exactly once**, in the order of the source,
behind what the builder had noted before, and is shown in the tree unless it is lost. -/
theorem lower_reports_once (b : Builder) (markup : Node) :
    (b.lower markup).2.notes.diagnostics =
        b.notes.diagnostics ++ (markup.reports b.overrides).map (·.construct.diagnostic) ∧
      ∀ r ∈ markup.reports b.overrides, r.shown = true →
        ∃ x ∈ (b.lower markup).1.nodes, r.construct.LeftIn x := by
  have hreports := lowerNode_reports b.overrides markup
  refine ⟨?_, fun r hr hshown => ?_⟩
  · rw [Builder.lower_notes, lowerMarkup, Noted.notes_map, Notes.diagnostics_append,
      hreports.diagnostics]
  · obtain ⟨v, hv, x, hx, hleft⟩ := hreports.traces r hr hshown
    rw [Builder.lower_fst, lowerMarkup, Noted.value_map]
    exact ⟨x, nodes_siblings hv hx, hleft⟩

end JsxWidgets
