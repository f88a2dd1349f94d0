import JsxWidgets.Proofs.File.TypeSigns
import JsxWidgets.Proofs.Syntax.Readings
import JsxWidgets.Proofs.Syntax.Nodes
import JsxWidgets.Syntax.Grammar

/-!
# Types that the grammar reads

What the grammar reads where a type may stand is a type (`isType_of_read`), however deep it goes and
whatever the text is. The names in it are taken from the text as they stand there, so all that is
left to ask for is that they are spelled like names: an escape in a name may stand for a character
that no name has, which is reported but read on.

A rule asks the grammar for the types inside, of which the same is assumed. The parts of a type that
its text passes over, such as the members of objects and the parameters of functions, may be
anything.
-/

namespace JsxWidgets.Dart

open Syntax Syntax.Node Reading

/-- All names of types in a node are spelled like names. -/
def HasProperNames (n : Node) : Prop :=
  ∀ m ∈ n.nodes, ∀ name, m.form = .entity name → IsProperName name

/-- A node is a type, if the names in it are spelled like names. -/
def Typed (n : Node) : Prop := HasProperNames n → IsType n

/-- The names in a part are among the names. -/
theorem HasProperNames.part {n m : Node} (h : HasProperNames n) (hm : m ∈ n.parts) :
    HasProperNames m :=
  fun k hk => h k (nodes_subset_of_mem_nodesOf (mem_nodesOf_of_mem hm) hk)

/-- A type of a form that nothing more is known of. -/
theorem typed_further {form : Form} {place : Place} {parts : List Node} (h : form ∈ furtherForms) :
    Typed ⟨form, place, parts⟩ := fun _ => .further h parts

/-- Arguments of a name. -/
def AreArguments (n : Node) : Prop := ∃ args, n = .list args ∧ ∀ a ∈ args, Typed a

/-- A name may go without arguments. -/
theorem areArguments_nil : AreArguments (.list []) := ⟨[], rfl, nofun⟩

/-- A dotted name is a leaf. -/
theorem entityName_gives : entityName.Gives fun n => ∃ name place, n = .leaf (.entity name) place :=
  .step fun _ => .whenAt fun _ => .step fun name => .pure ⟨name, _, rfl⟩

section Rules

variable {g : Rules} (hg : (g ()).type.Gives Typed)
include hg

/-! ### Names -/

/-- The arguments in angle brackets are types. -/
theorem typeArguments_gives : (typeArguments g).Gives AreArguments := by
  refine .step fun _ => .bind (.bracketed (gives_angleList hg)) fun args hargs => ?_
  exact .when fun _ => .pure ⟨args, rfl, hargs⟩

/-- So are those behind a name, if there are any. -/
theorem nameArguments_gives : (nameArguments g).Gives AreArguments := by
  refine .step fun _ => .ite (.pure areArguments_nil) ?_
  exact .step fun _ => .step fun _ => .ite (typeArguments_gives hg) (.pure areArguments_nil)

/-- A name with arguments is a type. -/
theorem typeReference_typed : (typeReference g).Gives Typed := by
  refine .step fun place => .step fun _ => .bind entityName_gives fun n hname => ?_
  refine .bind (nameArguments_gives hg) fun list hlist => .when fun _ => .pure fun hproper => ?_
  obtain ⟨name, at₁, rfl⟩ := hname
  obtain ⟨args, rfl, hargs⟩ := hlist
  have hname := hproper.part List.mem_cons_self _ (self_mem_nodes _) name rfl
  have hlist := hproper.part (List.mem_cons_of_mem _ List.mem_cons_self)
  exact .reference hname fun a ha => hargs a ha (hlist.part ha)

/-! ### Functions and tuples -/

/-- The type of a result is one, a statement about a parameter included. -/
theorem resultType_typed : (resultType g).Gives Typed := by
  refine .step fun place => ?_
  extract_lets stated predicate
  have hstated : ∀ asserts, (stated asserts).Gives Typed := by
    intro asserts
    refine .step fun t => .step fun _ => ?_
    extract_lets rest
    -- A statement about a parameter is no type that more is known of.
    have hpredicate {parts : List Node} : Typed ⟨.predicateType, place, parts⟩ :=
      typed_further (by decide)
    have hrest : ∀ subject : Node, (rest subject).Gives Typed := fun subject =>
      .step fun _ => .step fun _ => .ite (.step fun _ => .step fun _ => .pure hpredicate)
        (.ite (.pure hpredicate) .fail)
    exact .ite (.step hrest) (.step fun _ => .step hrest)
  have hpredicate : predicate.Gives Typed :=
    .step fun _ => .step fun _ => .step fun _ => .step fun _ =>
      .ite (.step fun _ => .step hstated) (.step hstated)
  refine .bind (.attempt hpredicate) fun found hfound => ?_
  cases found with
  | some n => exact .pure (hfound n rfl)
  | none => exact hg

/-- The type of a function holds the type of its result as its last part. -/
theorem functionType_gives (form : Form) : (functionType g form).Gives fun n =>
    ∃ place params generic result, n = ⟨form, place, [params, generic, result]⟩ ∧ Typed result := by
  refine .step fun place => .step fun generic => .step fun params => .step fun _ => ?_
  exact .bind (resultType_typed hg) fun result hresult =>
    .pure ⟨place, params, generic, result, rfl, hresult⟩

/-- So it is a type. -/
theorem functionType_typed : (functionType g .fnType).Gives Typed := by
  refine (functionType_gives hg .fnType).mono ?_
  rintro _ ⟨place, params, generic, result, rfl, hresult⟩ hproper
  exact .function params generic (hresult (hproper.part (by simp)))

/-- An item of a tuple stands for its type. -/
theorem tupleItem_typed : (tupleItem g).Gives fun x => Typed x.1 := by
  refine .step fun place => .step fun found => ?_
  extract_lets label node
  have hnode : ∀ type : Node, Typed type → Typed (node type) := fun type htype hproper =>
    .item label (htype (hproper.part (by simp [node])))
  have hcompound {at₁ : Place} {parts : List Node} : Typed ⟨.compoundType, at₁, parts⟩ :=
    typed_further (by decide)
  refine .step fun _ => .ite (.step fun type => .pure (hnode _ hcompound)) ?_
  refine .bind hg fun type htype => .step fun _ => .ite (.pure (hnode _ hcompound)) ?_
  exact .pure (hnode type htype)

/-- A tuple is a type. -/
theorem tupleType_typed (place : Place) : (tupleType g place).Gives Typed := by
  refine .bind (.bracketed (gives_commaList (tupleItem_typed hg))) fun items hitems => ?_
  refine .when fun _ => .pure fun hproper => .tuple fun n hn => ?_
  obtain ⟨x, hx, rfl⟩ := List.mem_map.mp hn
  exact hitems x hx (hproper.part hn)

/-! ### Types without operators -/

omit hg in
/-- A type with one member for each key is one that is known by nothing else. -/
theorem mappedType_typed : (mappedType g).Gives Typed := by
  refine .step fun place => .step fun _ => ?_
  extract_lets signed
  refine .step fun _ => .step fun _ => .step fun _ => .step fun _ => .step fun _ => ?_
  refine .step fun _ => .step fun _ => .step fun _ => .step fun _ => .step fun _ => ?_
  refine .step fun _ => .step fun _ => ?_
  exact .pure (typed_further (by decide))

omit hg in
/-- So is a type from another module. -/
theorem importedType_typed (place : Place) : (importedType g place).Gives Typed := by
  refine .step fun _ => .step fun source => ?_
  extract_lets nothing rest going
  have hrest : ∀ u attributes, (rest u attributes).Gives Typed := fun _ _ =>
    .step fun _ => .step fun _ => .when fun _ => .step fun _ => .pure (typed_further (by decide))
  have hgoing : ∀ u, (going u).Gives Typed := by
    intro _
    refine .step fun _ => .ite (.step fun _ => .ite (hrest () _) ?_) (hrest () _)
    exact .step fun _ => .step fun _ => .step fun _ => .step fun _ => .step fun _ => .step fun u =>
      hrest u _
  split
  · exact hgoing ()
  · exact .step hgoing

/-- What a word begins is a type. -/
theorem wordType_typed (text : String) : (wordType g text).Gives Typed := by
  refine .step fun place => .step fun _ => ?_
  refine .ite (.step fun _ => .pure fun _ => .truth _) ?_
  split
  · next hword =>
    exact .step fun _ => .pure fun _ => .keyword (List.contains_iff_mem.mp hword.1)
  split
  · exact .step fun _ => .pure (typed_further (by decide))
  · refine .step fun _ => .step fun _ => .ite (.step fun _ => .pure (typed_further (by decide))) ?_
    exact .step fun _ => .step fun _ => .pure (typed_further (by decide))
  · exact .step fun _ => importedType_typed place
  · exact .when fun _ => typeReference_typed hg

/-- A type without operators is a type. -/
theorem primaryType_typed : (primaryType g).Gives Typed := by
  refine .step fun t => ?_
  -- one case for each token a type can start with
  split
  · exact .step fun _ => .pure fun _ => .text _
  · exact .step fun _ => .pure fun _ => .number _ _
  · exact .step fun _ => .pure fun _ => .literal []
  · refine .step fun _ => .step fun number => ?_
    split
    · exact .pure fun _ => .number _ _
    · exact .pure fun _ => .literal []
    · exact .fail
  · exact .step fun types => .pure fun _ => .literal types
  · refine .bind (.attempt mappedType_typed) fun found hfound => ?_
    cases found with
    | some n => exact .pure (hfound n rfl)
    | none => exact .step fun members => .pure fun _ => .object members
  · exact .step fun _ => tupleType_typed hg _
  · refine .step fun _ => .bind (.bracketed hg) fun inner hinner => .step fun _ => ?_
    exact .pure fun hproper => .paren (hinner (hproper.part List.mem_cons_self))
  · exact wordType_typed hg _
  · exact .fail

/-! ### Types with operators -/

/-- So is one with brackets behind it. -/
theorem arrayType_typed : (arrayType g).Gives Typed := by
  refine .step fun place => .bind (primaryType_typed hg) fun first hfirst => ?_
  refine .iterate Typed hfirst fun type htype => .step fun _ => .step fun _ => ?_
  refine .ite (.step fun _ => .step fun _ => .ite (.more fun hproper => ?_) ?_) (.done htype)
  · exact .array (htype (hproper.part List.mem_cons_self))
  · exact .step fun key => .step fun _ => .more (typed_further (by decide))

/-- So is one with an operator in front. -/
theorem operatorType_typed : (operatorType g).Gives Typed := by
  refine .step fun place => .step fun count => .step fun _ => .step fun _ => ?_
  extract_lets rest
  have hrest : ∀ inner : Node, Typed inner → (rest inner).Gives Typed := by
    intro inner hinner
    refine .pure ?_
    split
    · exact hinner
    · exact typed_further (by decide)
  refine .ite (.step fun _ => .step fun name => .step fun _ => .step fun _ => ?_)
    (.bind (arrayType_typed hg) hrest)
  exact .bind (.pure (typed_further (by decide))) hrest

omit hg in
/-- Types that are joined are a type, and a single one is itself. -/
theorem joinedType_typed (op : String) {form : Form}
    (hform : form = .unionType ∨ form = .interType) {p : Reading Node} (hp : p.Gives Typed) :
    (joinedType op form p).Gives Typed := by
  refine .step fun place => .step fun _ => .bind hp fun first hfirst => ?_
  -- A list of types that has one is a single type or has several, and only those are joined.
  refine .bind (P := fun types => types ≠ [] ∧ ∀ n ∈ types, Typed n)
    (.iterate (fun acc => acc ≠ [] ∧ ∀ n ∈ acc, Typed n)
      ⟨List.cons_ne_nil _ _, List.forall_mem_singleton.mpr hfirst⟩ ?_) ?_
  · rintro acc ⟨hne, hacc⟩
    refine .step fun _ => .ite (.bind hp fun n hn => .more ?_) (.done ?_)
    · exact ⟨List.cons_ne_nil _ _, List.forall_mem_cons.mpr ⟨hn, hacc⟩⟩
    · exact ⟨mt List.reverse_eq_nil_iff.mp hne, forall_mem_reverse hacc⟩
  · rintro types ⟨hne, htypes⟩
    match types with
    | [] => exact absurd rfl hne
    | [one] => exact .pure (htypes one List.mem_cons_self)
    | first :: second :: rest =>
      exact .pure fun hproper => .joined hform fun t ht => htypes t ht (hproper.part ht)

/-- A type without a condition is a type. -/
theorem unconditionalType_typed : (unconditionalType g).Gives Typed := by
  refine .step fun place => .step fun _ => .ite (functionType_typed hg) (.step fun _ => ?_)
  extract_lets last rest
  have hlast : ∀ u, (last u).Gives Typed := by
    intro _
    refine .step fun _ => .ite (.step fun _ => .bind (functionType_gives hg .makerType) ?_) ?_
    · rintro _ ⟨at₁, params, generic, result, rfl, -⟩
      dsimp only
      exact .pure (typed_further (by decide))
    · exact joinedType_typed _ (.inl rfl) (joinedType_typed _ (.inr rfl) (operatorType_typed hg))
  have hrest : ∀ u, (rest u).Gives Typed := fun _ => .step fun _ => .step fun _ => .when hlast
  exact .ite (.step fun _ => .ite (functionType_typed hg) (hrest ())) (hrest ())

/-- **Whatever the rule for types gives is a type.** -/
theorem typeRule_typed : (typeRule g).Gives Typed := by
  refine .step fun place => .bind (unconditionalType_typed hg) fun subject hsubject => ?_
  refine .step fun _ => .step fun _ => .step fun _ => .ite (.step fun _ => ?_) (.pure hsubject)
  refine .step fun _ => .step fun _ => .step fun _ => .step fun _ => .step fun _ => ?_
  exact .pure (typed_further (by decide))

end Rules

/-- **What the grammar reads as a type is one**, if its names are spelled like names. -/
theorem isType_of_read {depth : Nat} {s s' : ReadState} {type : Node}
    (h : (grammar depth).type s = .ok type s') (hproper : HasProperNames type) : IsType type := by
  -- The grammar of one level less is asked for the types inside.
  have hgives : (grammar depth).type.Gives Typed := by
    clear h
    induction depth with
    | zero => exact .fail
    | succ depth ih => exact typeRule_typed ih
  exact hgives s type s' h hproper

end JsxWidgets.Dart
