import JsxWidgets.Proofs.Markup.WellMarked
import JsxWidgets.Syntax.Grammar.Targets

/-!
# Well-formed trees

The type of nodes is uniform: it lets any construct have any parts. The grammar builds fewer trees,
and `Node.WellFormed` states which of its restrictions the analyses rely on.

* Markup is in its place (`WellFormed.wellMarked`).
* Nothing that is assigned to is a call (`WellFormed.form_ne_call_of_target`).
* No variable is named like the current object (`WellFormed.form_ne_this`). The word for it is a
  name in two constructs only, in which any word may stand: the dotted name of a parent or an
  interface, and the key of a member of an object type. Neither of them is ever called.

That all trees which are read are well-formed is shown rule by rule. Most rules build a construct
that may have any parts, and what they give is `Node.Plain`.
-/

namespace JsxWidgets.Syntax

/-- Whether a construct may have any parts. -/
@[reducible] def Form.isOrdinary : Form → Bool
  | .element | .opening _ | .attr _ | .target | .heritage => false
  | .propertySig _ | .methodSig _ | .getterSig | .setterSig => false
  | .name t => t ≠ "this"
  | _ => true

/-- Whether a construct is a member of an object type that has a key. -/
def Form.isSignature : Form → Bool
  | .propertySig _ | .methodSig _ | .getterSig | .setterSig => true
  | _ => false

/-- Whether a construct is found as a part of one that is no ordinary construct. -/
def Form.isLoose : Form → Bool
  | .opening _ | .list | .attr _ | .name _ | .member => true
  | _ => false

namespace Node

/-- **A dotted name** as it is read in a list of parents or interfaces: a word, which may be any,
with the given selectors behind it, the last one first. -/
inductive IsDottedName : Node → List Node → Prop
  /-- The first word. -/
  | word (text : String) (place : Place) : IsDottedName (leaf (.name text) place) []
  /-- A dotted name with one more selector. -/
  | access {e selector : Node} {place : Place} {selectors : List Node}
    (h : IsDottedName e selectors) :
    IsDottedName ⟨.member, place, [e, selector]⟩ (selector :: selectors)

/-- **A tree as the grammar builds it**, as far as analyses rely on it. -/
inductive WellFormed : Node → Prop
  /-- A construct with any parts. -/
  | ordinary {form : Form} {place : Place} {parts : List Node} (hform : form.isOrdinary = true)
    (hparts : ∀ n ∈ parts, WellFormed n) : WellFormed ⟨form, place, parts⟩
  /-- What is assigned to, if it is no pattern. -/
  | target {place : Place} {e : Node} (hform : e.form.isTarget = true) (he : WellFormed e) :
    WellFormed ⟨.target, place, [e]⟩
  /-- A parent of an interface, or an interface of a class, with type arguments. -/
  | heritage {place : Place} {e types : Node} {selectors : List Node}
    (hname : IsDottedName e selectors) (hselectors : ∀ n ∈ selectors, WellFormed n)
    (htypes : WellFormed types) : WellFormed ⟨.heritage, place, [e, types]⟩
  /-- A member of an object type. Its key may be any word. -/
  | signature {form : Form} {place : Place} {key : Node} {rest : List Node}
    (hform : form.isSignature = true)
    (hkey : (∀ text p, key ≠ leaf (.name text) p) → WellFormed key)
    (hrest : ∀ n ∈ rest, WellFormed n) : WellFormed ⟨form, place, key :: rest⟩
  /-- An element: its opening tag is its first part, and the attributes are in a row in it. -/
  | element {tag : TagName} {place opened : Place} {attributes children : List Node}
    {types closing : Node} (htag : tag.isPlain = true)
    (hforms : ∀ a ∈ attributes, a.form.isAttribute = true)
    (hattributes : ∀ a ∈ attributes, ∀ n ∈ a.parts, WellFormed n)
    (hchildren : ∀ n ∈ children, WellFormed n) (htypes : WellFormed types)
    (hclosing : WellFormed closing) :
    WellFormed ⟨.element, place,
      [⟨.opening tag, opened, [.list attributes, types]⟩, .list children, closing]⟩

/-! ### Ordinary constructs -/

/-- An ordinary construct is well-formed if and only if its parts are. -/
@[simp] theorem wellFormed_mk {form : Form} {place : Place} {parts : List Node}
    (hform : form.isOrdinary = true) :
    WellFormed ⟨form, place, parts⟩ ↔ ∀ n ∈ parts, n.WellFormed := by
  constructor
  · rintro (⟨-, hparts⟩ | _ | _ | ⟨hsignature, -, -⟩ | _)
    · exact hparts
    · cases hform
    · cases hform
    · cases form <;> first | exact absurd hform Bool.false_ne_true | cases hsignature
    · cases hform
  · exact .ordinary hform

/-- The parts of an ordinary construct. -/
theorem WellFormed.parts {n : Node} (h : n.WellFormed) (hform : n.form.isOrdinary = true) :
    ∀ part ∈ n.parts, part.WellFormed := by
  obtain ⟨form, place, parts⟩ := n
  exact (wellFormed_mk hform).mp h

/-- **A construct that may have any parts**, with parts that are well-formed. -/
structure Plain (n : Node) : Prop where
  /-- The construct may have any parts. -/
  form : n.form.isOrdinary = true
  /-- Its parts are well-formed. -/
  parts : ∀ part ∈ n.parts, part.WellFormed

@[simp] theorem Plain.wellFormed {n : Node} (h : n.Plain) : n.WellFormed := by
  obtain ⟨form, place, parts⟩ := n
  exact .ordinary h.form h.parts

/-- The nodes in a row, as parts of a construct. -/
theorem wellFormed_of_plain {nodes : List Node} (h : ∀ n ∈ nodes, n.Plain) :
    ∀ n ∈ nodes, n.WellFormed := fun n hn => (h n hn).wellFormed

/-- That a construct is ordinary is told by its form. -/
@[simp] theorem plain_mk {form : Form} {place : Place} {parts : List Node}
    (hform : form.isOrdinary = true) :
    Plain ⟨form, place, parts⟩ ↔ ∀ n ∈ parts, n.WellFormed :=
  ⟨fun h => h.parts, fun h => ⟨hform, h⟩⟩

/-- Parts that are ordinary constructs themselves. -/
theorem plain_of_parts {form : Form} {place : Place} {parts : List Node}
    (hform : form.isOrdinary = true) (hparts : ∀ n ∈ parts, n.Plain) :
    Plain ⟨form, place, parts⟩ :=
  ⟨hform, wellFormed_of_plain hparts⟩

@[simp] theorem plain_absent : absent.Plain := ⟨rfl, fun _ h => nomatch h⟩

/-- A part that may be missing. -/
theorem plain_ofOption {o : Option Node} (h : ∀ n ∈ o, n.Plain) : (ofOption o).Plain := by
  cases o with
  | some n => exact h n rfl
  | none => exact plain_absent

theorem plain_leaf {form : Form} {place : Place} (hform : form.isOrdinary = true) :
    (leaf form place).Plain := ⟨hform, fun _ h => nomatch h⟩

@[simp] theorem wellFormed_leaf {form : Form} {place : Place} (hform : form.isOrdinary = true) :
    (leaf form place).WellFormed := (plain_leaf hform).wellFormed

@[simp] theorem plain_list {nodes : List Node} :
    (list nodes).Plain ↔ ∀ n ∈ nodes, n.WellFormed := plain_mk rfl

theorem plain_list_of_parts {nodes : List Node} (h : ∀ n ∈ nodes, n.Plain) : (list nodes).Plain :=
  plain_of_parts rfl h

@[simp] theorem wellFormed_list {nodes : List Node} :
    (list nodes).WellFormed ↔ ∀ n ∈ nodes, n.WellFormed := wellFormed_mk rfl

/-- What is assigned to is a node of its own, if it is no pattern. -/
theorem WellFormed.of_target {place : Place} {e : Node} (h : WellFormed ⟨.target, place, [e]⟩) :
    e.form.isTarget = true ∧ e.WellFormed := by
  cases h with
  | ordinary hform => cases hform
  | target hform he => exact ⟨hform, he⟩
  | signature hform => cases hform

/-! ### Members of object types -/

/-- **The key of a member of an object type**: any word, or a well-formed node. -/
def IsMemberKey (key : Node) : Prop := (∀ text p, key ≠ leaf (.name text) p) → key.WellFormed

/-- Any word is a key, also the one for the current object. -/
theorem isMemberKey_name (text : String) (place : Place) :
    (leaf (.name text) place).IsMemberKey := fun h => (h text place rfl).elim

/-- An ordinary construct is a key. -/
theorem Plain.isMemberKey {key : Node} (h : key.Plain) : key.IsMemberKey := fun _ => h.wellFormed

/-! ### Markup in its place -/

theorem isPlain_of_isOrdinary {form : Form} (h : form.isOrdinary = true) : form.isPlain = true := by
  cases form <;> first | rfl | cases h

theorem isPlain_of_isSignature {form : Form} (h : form.isSignature = true) :
    form.isPlain = true := by
  cases form <;> first | rfl | cases h

/-- Markup in a dotted name is in its selectors. -/
theorem IsDottedName.wellMarked {e : Node} {selectors : List Node} (h : e.IsDottedName selectors)
    (hselectors : ∀ n ∈ selectors, n.WellMarked) : e.WellMarked := by
  induction h with
  | word text place => exact wellMarked_leaf rfl
  | access h ih =>
    obtain ⟨hselector, hselectors⟩ := List.forall_mem_cons.mp hselectors
    simp [ih hselectors, hselector]

/-- **A well-formed tree has its markup in its place.** -/
theorem WellFormed.wellMarked {n : Node} (h : n.WellFormed) : n.WellMarked := by
  induction h with
  | ordinary hform _ ih => exact .plain (isPlain_of_isOrdinary hform) ih
  | target _ _ ih => exact .plain rfl (List.forall_mem_singleton.mpr ih)
  | heritage hname _ _ ihselectors ihtypes => simp [hname.wellMarked ihselectors, ihtypes]
  | @signature form place key rest hform _ _ ihkey ihrest =>
    refine .plain (isPlain_of_isSignature hform) (List.forall_mem_cons.mpr ⟨?_, ihrest⟩)
    by_cases hword : ∃ text p, key = leaf (.name text) p
    · obtain ⟨text, p, rfl⟩ := hword
      exact wellMarked_leaf rfl
    · exact ihkey fun text p heq => hword ⟨text, p, heq⟩
  | element htag hforms _ _ _ _ ihattributes ihchildren ihtypes ihclosing =>
    exact .element htag hforms ihattributes ihchildren ihtypes ihclosing

/-! ### What lies below -/

/-- What lies below a dotted name is one of its names and accesses, or lies below a selector. -/
theorem IsDottedName.of_mem_nodes {e n : Node} {selectors : List Node}
    (h : e.IsDottedName selectors) (hn : n ∈ e.nodes) :
    n.form.isLoose = true ∨ n ∈ nodesOf selectors := by
  induction h with
  | word text place =>
    obtain rfl | hbelow := mem_nodes_iff.mp hn
    · exact Or.inl rfl
    · cases hbelow
  | @access e selector place selectors h ih =>
    rcases mem_nodes_iff.mp hn with rfl | hbelow
    · exact Or.inl rfl
    simp only [nodesOf, List.append_nil, List.mem_append] at hbelow ⊢
    rcases hbelow with he | hselector
    · exact (ih he).imp_right Or.inr
    · exact Or.inr (Or.inl hselector)

/-- What spreads an object into a row of attributes is as ordinary as elsewhere. -/
theorem wellFormed_of_isAttribute {a : Node} (hattribute : a.form.isAttribute = true)
    (hform : a.form.isLoose = false) (hparts : ∀ n ∈ a.parts, n.WellFormed) : a.WellFormed := by
  obtain ⟨form, place, parts⟩ := a
  cases form
  case attr => cases hform
  case spread => exact .ordinary rfl hparts
  all_goals cases hattribute

/-- **What lies below a well-formed tree is well-formed**, but for the parts that some constructs
are held together by. -/
theorem WellFormed.of_mem_nodes {root n : Node} (h : root.WellFormed) (hn : n ∈ root.nodes)
    (hform : n.form.isLoose = false) : n.WellFormed := by
  induction h with
  | ordinary hordinary hparts ih =>
    rcases mem_nodes_iff.mp hn with rfl | hbelow
    · exact .ordinary hordinary hparts
    · obtain ⟨part, hpart, hn⟩ := mem_nodesOf.mp hbelow
      exact ih part hpart hn
  | target htarget he ih =>
    rcases mem_nodes_iff.mp hn with rfl | hbelow
    · exact .target htarget he
    · obtain ⟨part, hpart, hn⟩ := mem_nodesOf.mp hbelow
      exact ih (List.mem_singleton.mp hpart ▸ hn)
  | heritage hname hselectors htypes ihselectors ihtypes =>
    rcases mem_nodes_iff.mp hn with rfl | hbelow
    · exact .heritage hname hselectors htypes
    simp only [nodesOf, List.append_nil, List.mem_append] at hbelow
    rcases hbelow with hname' | htype
    · rcases hname.of_mem_nodes hname' with hloose | hbelow
      · rw [hform] at hloose
        cases hloose
      · obtain ⟨selector, hselector, hn⟩ := mem_nodesOf.mp hbelow
        exact ihselectors selector hselector hn
    · exact ihtypes htype
  | @signature form place key rest hsignature hkey hrest ihkey ihrest =>
    rcases mem_nodes_iff.mp hn with rfl | hbelow
    · exact .signature hsignature hkey hrest
    rw [nodesOf, List.mem_append] at hbelow
    rcases hbelow with hbelow | hbelow
    · refine ihkey (fun text p heq => ?_) hbelow
      -- A key that is a word has nothing below it that could be well-formed.
      subst heq
      rcases mem_nodes_iff.mp hbelow with rfl | hnone
      · cases hform
      · cases hnone
    · obtain ⟨part, hpart, hn⟩ := mem_nodesOf.mp hbelow
      exact ihrest part hpart hn
  | @element tag place opened attributes children types closing htag hforms hattributes hchildren
    htypes hclosing ihattributes ihchildren ihtypes ihclosing =>
    rcases mem_nodes_iff.mp hn with rfl | hbelow
    · exact .element htag hforms hattributes hchildren htypes hclosing
    -- Below the element: its opening tag with the row of attributes and the types, its children,
    -- and its closing tag.
    simp only [nodesOf, nodes_mk, list, List.mem_cons, List.mem_append, List.cons_append,
      List.not_mem_nil, or_false] at hbelow
    rcases hbelow with rfl | rfl | (hattribute | htype) | rfl | hchild | hclose
    · cases hform
    · cases hform
    · obtain ⟨a, ha, hn⟩ := mem_nodesOf.mp hattribute
      rcases mem_nodes_iff.mp hn with rfl | hbelow
      · exact wellFormed_of_isAttribute (hforms n ha) hform (hattributes n ha)
      · obtain ⟨part, hpart, hn⟩ := mem_nodesOf.mp hbelow
        exact ihattributes a ha part hpart hn
    · exact ihtypes htype
    · cases hform
    · obtain ⟨child, hmem, hn⟩ := mem_nodesOf.mp hchild
      exact ihchildren child hmem hn
    · exact ihclosing hclose

/-! ### What is called and what is assigned to -/

/-- No well-formed tree is a variable named like the current object. -/
theorem WellFormed.form_ne_this {n : Node} (h : n.WellFormed) : n.form ≠ .name "this" := by
  intro hname
  cases h with
  | ordinary hform =>
    obtain rfl := hname
    exact absurd hform (by decide)
  | signature hform =>
    obtain rfl := hname
    cases hform
  | target | heritage | element => cases hname

/-- What parentheses and types are put around. -/
theorem WellFormed.unwrap {n : Node} (h : n.WellFormed) : n.unwrap.WellFormed := by
  fun_induction Node.unwrap n with
  | case1 _ _ ih | case3 _ _ ih | case5 _ _ ih =>
    exact ih (h.parts rfl _ List.mem_cons_self)
  | case2 _ _ _ ih | case4 _ _ _ ih => exact ih (h.parts rfl _ List.mem_cons_self)
  | case6 => exact h

/-- What is assigned to is no call. -/
theorem WellFormed.form_ne_call_of_target {n : Node} (h : n.WellFormed) (hform : n.form = .target) :
    ∀ part ∈ n.parts, part.form ≠ .call := by
  cases h with
  | ordinary hordinary =>
    obtain rfl := hform
    cases hordinary
  | target htarget =>
    refine List.forall_mem_singleton.mpr fun hcall => ?_
    rw [hcall] at htarget
    cases htarget
  | signature hsignature =>
    obtain rfl := hform
    cases hsignature
  | heritage | element => cases hform

end Node

end JsxWidgets.Syntax
