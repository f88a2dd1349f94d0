import JsxWidgets.Proofs.Decimal.Positional
import JsxWidgets.Proofs.Expression.Wrappers
import JsxWidgets.Proofs.Text.Tables

/-!
# Literal trees

An expression has a value of its own if it is written out in full. `LiteralTree` is the grammar of
such expressions, and `Denotes` says which value they have: texts, truth values and null stand for
themselves, a number is told by its sign and its digits, a template by its text, and arrays and
objects by the values in them, where the last property of a name counts.

Neither speaks of a computation. The evaluation stops as soon as a part has no value, it passes a
minus sign on to the number behind it, and it collects the fields of an object one by one in a
table that is kept in order. It gives a value exactly for the literal trees, and then the value that
they denote (`literal?_iff`).
-/

namespace JsxWidgets

open Syntax

/-! ### Numbers -/

/-- A whole number is told by the value of a double. -/
theorem Binary64.toNat?_eq_some_iff {m n : ℕ} {k : ℤ} :
    (finite m k).toNat? = some n ↔ value m k = n := by
  -- with a negative exponent the value is whole only if the mantissa divides evenly
  cases k with
  | ofNat k =>
    have hvalue : value m (Int.ofNat k) = ((m * 2 ^ k : ℕ) : ℚ) := by
      rw [value]
      push_cast
      rfl
    rw [hvalue, Nat.cast_inj, toNat?]
    exact Option.some_inj
  | negSucc k =>
    have hunit : (0 : ℚ) < 2 ^ (k + 1) := by positivity
    have hvalue : value m (Int.negSucc k) = n ↔ m = n * 2 ^ (k + 1) := by
      rw [value, zpow_negSucc, ← div_eq_mul_inv, div_eq_iff hunit.ne']
      exact_mod_cast Iff.rfl
    have hpow : 0 < Nat.pow 2 (k + 1) := Nat.pow_pos (by decide)
    rw [hvalue]
    change (if m % Nat.pow 2 (k + 1) = 0 then some (m / Nat.pow 2 (k + 1)) else none) = some n
      ↔ m = n * Nat.pow 2 (k + 1)
    constructor
    · intro h
      split at h
      next hmod =>
        rw [← Option.some.inj h]
        exact (Nat.div_mul_cancel (Nat.dvd_of_mod_eq_zero hmod)).symm
      next => cases h
    · rintro rfl
      rw [Nat.mul_mod_left, if_pos rfl, Nat.mul_div_cancel _ hpow]

namespace Expression

/-- A number with its sign: `negative` says whether there is an odd number of minus signs in front
of the digits, whose value is `m * 2 ^ k`. -/
inductive SignedNumber : Node → Bool → ℕ → ℤ → Prop
  /-- Digits. -/
  | digits {n m k} (h : n.form = .number (.finite m k)) : SignedNumber n false m k
  /-- A minus sign in front of a number. -/
  | minus {place e negative m k} (h : SignedNumber e negative m k) :
    SignedNumber ⟨.unary .minus, place, [e]⟩ (!negative) m k
  /-- A number in parentheses, or with a type behind it. -/
  | wrapped {n e negative m k} (hinside : n.inside? = some e) (h : SignedNumber e negative m k) :
    SignedNumber n negative m k

/-- The value of a number: a whole number of moderate size is an integer. -/
inductive NumberValue (negative : Bool) (m : ℕ) (k : ℤ) : Literal → Prop
  /-- A whole number below the bound. -/
  | whole {n : ℕ} (h : Binary64.value m k = n) (hbound : n < integerBound) :
    NumberValue negative m k (.int (if negative then -n else n))
  /-- A fraction, or a number that is too large. -/
  | real (h : ∀ n : ℕ, Binary64.value m k = n → integerBound ≤ n) :
    NumberValue negative m k (.real negative (.finite m k))

/-! ### The grammar -/

/-- How a key is written: as a name, in quotes, or as a number. -/
def KeyName (key : Node) (name : String) : Prop :=
  key.form = .word name ∨ key.form = .stringKey name ∨
    ∃ v : Binary64, key.form = .numberKey v ∧ name = v.positional

/-- **The expressions that are written out in full.** -/
inductive LiteralTree : Node → Prop
  /-- In parentheses, or with a type behind it. -/
  | wrapped {n e} (hinside : n.inside? = some e) (h : LiteralTree e) : LiteralTree n
  /-- A quoted text. -/
  | string {n t} (h : n.form = .string t) : LiteralTree n
  /-- A truth value. -/
  | bool {n b} (h : n.form = .bool b) : LiteralTree n
  /-- The null value. -/
  | null {n} (h : n.form = .null) : LiteralTree n
  /-- A finite number, perhaps with minus signs. -/
  | number {n negative m k} (h : SignedNumber n negative m k) : LiteralTree n
  /-- A template without substitutions. -/
  | template {quasis place} : LiteralTree ⟨.template quasis, place, []⟩
  /-- An array of literal trees, without holes and spreads. -/
  | array {place items} (hitems : ∀ n ∈ items, ∃ q e, n = ⟨.item, q, [e]⟩)
    (h : ∀ n ∈ items, ∀ e ∈ n.parts, LiteralTree e) : LiteralTree ⟨.array, place, items⟩
  /-- An object whose properties are literal trees under written keys. -/
  | object {place properties}
    (hproperties : ∀ n ∈ properties, ∃ q key value name,
      n = ⟨.keyed, q, [key, value]⟩ ∧ KeyName key name)
    (h : ∀ n ∈ properties, ∀ value ∈ n.parts.getLast?, LiteralTree value) :
    LiteralTree ⟨.object, place, properties⟩

mutual

/-- **The value that a literal tree denotes.** -/
inductive Denotes : Node → Literal → Prop
  /-- Parentheses and types behind an expression do not matter. -/
  | wrapped {n e v} (hinside : n.inside? = some e) (h : Denotes e v) : Denotes n v
  /-- A quoted text denotes itself. -/
  | string {n t} (h : n.form = .string t) : Denotes n (.text t)
  /-- So does a truth value. -/
  | bool {n b} (h : n.form = .bool b) : Denotes n (.bool b)
  /-- So does the null value. -/
  | null {n} (h : n.form = .null) : Denotes n .null
  /-- A number with its sign. -/
  | number {n negative m k v} (h : SignedNumber n negative m k) (hv : NumberValue negative m k v) :
    Denotes n v
  /-- A template denotes its text. -/
  | template {quasis place} :
    Denotes ⟨.template quasis, place, []⟩ (.text (String.join (quasis.map Quasi.text)))
  /-- An array denotes the list of what its items denote. -/
  | array {place items vs} (h : DenotesItems items vs) :
    Denotes ⟨.array, place, items⟩ (.array vs)
  /-- In an object the last property of a name counts. -/
  | object {place properties entries fields} (h : DenotesProperties properties entries)
    (hfields : Text.LastWins entries fields) : Denotes ⟨.object, place, properties⟩ (.object fields)

/-- What the items of an array denote, in order. -/
inductive DenotesItems : List Node → List Literal → Prop
  | nil : DenotesItems [] []
  | cons {place e v rest vs} (h : Denotes e v) (hrest : DenotesItems rest vs) :
    DenotesItems (⟨.item, place, [e]⟩ :: rest) (v :: vs)

/-- What the properties of an object denote, in order. -/
inductive DenotesProperties : List Node → List (String × Literal) → Prop
  | nil : DenotesProperties [] []
  | cons {place key value name v rest entries} (hkey : KeyName key name) (h : Denotes value v)
    (hrest : DenotesProperties rest entries) :
    DenotesProperties (⟨.keyed, place, [key, value]⟩ :: rest) ((name, v) :: entries)

end

/-! ### Values of numbers -/

/-- Digits have the value that their sign and their size tell. -/
theorem numberValue?_eq_some_iff {m : ℕ} {k : ℤ} {v : Literal} :
    numberValue? (.finite m k) = some v ↔ NumberValue false m k v := by
  simp only [numberValue?]
  constructor
  · intro h
    split at h
    next n hn =>
      have hvalue := Binary64.toNat?_eq_some_iff.mp hn
      rw [← Option.some.inj h]
      split
      next hbound => exact .whole hvalue hbound
      next hbound =>
        refine .real fun n' hn' => ?_
        have hsame : n = n' := by exact_mod_cast hvalue.symm.trans hn'
        exact hsame ▸ Nat.le_of_not_lt hbound
    next hn =>
      rw [← Option.some.inj h]
      -- A fraction is the value of no whole number.
      refine .real fun n hn' => ?_
      rw [Binary64.toNat?_eq_some_iff.mpr hn'] at hn
      cases hn
  · intro h
    cases h with
    | whole hvalue hbound =>
      rw [Binary64.toNat?_eq_some_iff.mpr hvalue]
      exact congrArg some (if_pos hbound)
    | real hlarge =>
      split
      next n hn =>
        have hbound := hlarge n (Binary64.toNat?_eq_some_iff.mp hn)
        rw [if_neg (Nat.not_lt.mpr hbound)]
      next => rfl

/-- Every number has a value. -/
theorem exists_numberValue (negative : Bool) (m : ℕ) (k : ℤ) : ∃ v, NumberValue negative m k v := by
  by_cases h : ∃ n : ℕ, Binary64.value m k = n ∧ n < integerBound
  · obtain ⟨n, hvalue, hbound⟩ := h
    exact ⟨_, .whole hvalue hbound⟩
  · refine ⟨_, .real fun n hvalue => ?_⟩
    exact Nat.le_of_not_lt fun hbound => h ⟨n, hvalue, hbound⟩

theorem NumberValue.unique {negative : Bool} {m : ℕ} {k : ℤ} {v w : Literal}
    (hv : NumberValue negative m k v) (hw : NumberValue negative m k w) : v = w := by
  cases hv with
  | whole hvalue hbound =>
    cases hw with
    | whole hvalue' _ =>
      have hsame : _ = _ := hvalue.symm.trans hvalue'
      rw [Nat.cast_inj.mp hsame]
    | real hlarge => exact absurd hbound (Nat.not_lt.mpr (hlarge _ hvalue))
  | real hlarge =>
    cases hw with
    | whole hvalue hbound => exact absurd hbound (Nat.not_lt.mpr (hlarge _ hvalue))
    | real => rfl

/-- A minus sign changes the sign. -/
theorem NumberValue.negated {negative : Bool} {m : ℕ} {k : ℤ} {v : Literal}
    (hv : NumberValue negative m k v) :
    ∃ w, negated? v = some w ∧ NumberValue (!negative) m k w := by
  cases hv with
  | @whole n hvalue hbound =>
    refine ⟨_, rfl, ?_⟩
    have hsign : -(if negative then -(n : ℤ) else n) = if !negative then -(n : ℤ) else n := by
      cases negative <;> simp
    rw [hsign]
    exact .whole hvalue hbound
  | real hlarge => exact ⟨_, rfl, .real hlarge⟩

/-- **The evaluation passes signs on to the digits.** -/
theorem SignedNumber.literal?_eq {e : Node} {negative : Bool} {m : ℕ} {k : ℤ} {v : Literal}
    (h : SignedNumber e negative m k) (hv : NumberValue negative m k v) : literal? e = some v := by
  induction h generalizing v with
  | @digits n m k hform =>
    obtain ⟨form, place, parts⟩ := n
    subst hform
    rw [literal?]
    exact numberValue?_eq_some_iff.mpr hv
  | @minus place e negative m k _ ih =>
    obtain ⟨u, hu⟩ := exists_numberValue negative m k
    obtain ⟨w, hw, hvalue⟩ := hu.negated
    rw [literal?, ih hu, hv.unique hvalue]
    exact hw
  | wrapped hinside _ ih => rw [seesThrough_literal? _ _ hinside, ih hv]

/-! ### What has a value denotes it -/

theorem keyName?_eq_some_iff {key : Node} {name : String} :
    keyName? key = some name ↔ KeyName key name := by
  obtain ⟨form, place, parts⟩ := key
  constructor
  · intro h
    unfold keyName? at h
    split at h
    next t hform => cases h; exact Or.inl hform
    next t hform => cases h; exact Or.inr (Or.inl hform)
    next v hform => cases h; exact Or.inr (Or.inr ⟨v, hform, rfl⟩)
    next => cases h
  · rintro (hform | hform | ⟨v, hform, rfl⟩) <;> rw [keyName?, hform]

/-- What denotes a number is one. -/
theorem Denotes.signedNumber {e : Node} {v : Literal} :
    Denotes e v → (negated? v).isSome →
      ∃ negative m k, SignedNumber e negative m k ∧ NumberValue negative m k v
  | .wrapped hinside h, hv =>
    let ⟨negative, m, k, hnumber, hvalue⟩ := h.signedNumber hv
    ⟨negative, m, k, .wrapped hinside hnumber, hvalue⟩
  | .number h hvalue, _ => ⟨_, _, _, h, hvalue⟩

section Sequences

variable {ns : List Node} (ih : ∀ e ∈ Node.nodesOf ns, ∀ v, literal? e = some v → Denotes e v)
include ih

theorem denotesItems_of_literalItems? {vs : List Literal} (h : literalItems? ns = some vs) :
    DenotesItems ns vs := by
  induction ns generalizing vs with
  | nil => cases h; exact .nil
  | cons item rest ihrest =>
    rw [literalItems?_cons] at h
    obtain ⟨v, hv, hrest⟩ := Option.bind_eq_some_iff.mp h
    obtain ⟨vs', hvs, rfl⟩ := Option.map_eq_some_iff.mp hrest
    have hlater : DenotesItems rest vs' :=
      ihrest (fun e he => ih e (List.mem_append_right _ he)) hvs
    -- Holes and spreads have no value, so this is a plain item.
    unfold itemLiteral? at hv
    split at hv
    next place e =>
      have hbelow : e ∈ Node.nodesOf (⟨.item, place, [e]⟩ :: rest) :=
        Node.mem_nodesOf_of_mem_nodes (Node.first_mem_nodesOf _ _) (Node.first_mem_nodes _ _ _ _)
      exact .cons (ih e hbelow v hv) hlater
    next => cases hv

/-- The fields that are collected are those of the properties behind those in front. -/
theorem denotesProperties_of_literalFields? {front fields : List (String × Literal)}
    (h : literalFields? ns front = some fields) :
    ∃ entries, DenotesProperties ns entries ∧
      fields = entries.foldl (fun fs entry => Literal.setField entry.1 entry.2 fs) front := by
  induction ns generalizing front with
  | nil =>
    cases h
    exact ⟨[], .nil, rfl⟩
  | cons property rest ihrest =>
    rw [literalFields?_cons] at h
    obtain ⟨⟨name, v⟩, hentry, hrest⟩ := Option.bind_eq_some_iff.mp h
    obtain ⟨entries, hentries, hfields⟩ :=
      ihrest (fun e he => ih e (List.mem_append_right _ he)) hrest
    -- Only a property with a written key has a value.
    unfold fieldLiteral? at hentry
    split at hentry
    next place key value =>
      obtain ⟨name', hname, hvalue⟩ := Option.bind_eq_some_iff.mp hentry
      obtain ⟨v', hv, hsame⟩ := Option.map_eq_some_iff.mp hvalue
      cases hsame
      have hbelow : value ∈ Node.nodesOf (⟨.keyed, place, [key, value]⟩ :: rest) :=
        Node.mem_nodesOf_of_mem_nodes (Node.first_mem_nodesOf _ _) (Node.second_mem_nodes _ _ _ _ _)
      exact ⟨(name, v) :: entries,
        .cons (keyName?_eq_some_iff.mp hname) (ih value hbelow v hv) hentries, hfields⟩
    next => cases hentry

end Sequences

/-- **What the evaluation gives is denoted.** -/
theorem denotes_of_literal? {e : Node} {v : Literal} (h : literal? e = some v) : Denotes e v := by
  induction e using Node.induction_below generalizing v with
  | step n ih =>
    obtain ⟨form, place, parts⟩ := n
    have hbelow : ∀ e ∈ Node.nodesOf parts, ∀ v, literal? e = some v → Denotes e v :=
      fun e he v hv => ih e he hv
    cases hinside : (Node.mk form place parts).inside? with
    | some e =>
      rw [seesThrough_literal? _ _ hinside] at h
      exact .wrapped hinside (hbelow e (Node.mem_nodesOf_of_mem (Node.inside?_mem hinside)) v h)
    | none =>
      unfold literal? at h
      split at h
      -- Wrappers have been dealt with.
      case h_1 | h_2 | h_3 | h_4 | h_5 => cases hinside
      case h_6 => cases h; exact .string rfl
      case h_7 => cases h; exact .bool rfl
      case h_8 => cases h; exact .null rfl
      case h_9 d =>
        cases d with
        | infinite => cases h
        | finite m k => exact .number (.digits rfl) (numberValue?_eq_some_iff.mp h)
      case h_10 e =>
        obtain ⟨u, hu, hnegated⟩ := Option.bind_eq_some_iff.mp h
        -- What is behind the sign denotes a number, so it is one.
        have hdenotes : Denotes e u := hbelow e (Node.first_mem_nodesOf e []) u hu
        obtain ⟨negative, m, k, hnumber, hvalue⟩ :=
          hdenotes.signedNumber (Option.isSome_of_eq_some hnegated)
        obtain ⟨w, hw, hvalue'⟩ := hvalue.negated
        have hsame : v = w := Option.some.inj (hnegated.symm.trans hw)
        rw [hsame]
        exact .number (.minus hnumber) hvalue'
      case h_11 => cases h; exact .template
      case h_12 =>
        obtain ⟨vs, hvs, rfl⟩ := Option.map_eq_some_iff.mp h
        exact .array (denotesItems_of_literalItems? hbelow hvs)
      case h_13 =>
        obtain ⟨fields, hfields, rfl⟩ := Option.map_eq_some_iff.mp h
        obtain ⟨entries, hentries, rfl⟩ := denotesProperties_of_literalFields? hbelow hfields
        exact .object hentries (Text.lastWins_tableOf entries)
      case h_14 => cases h

/-! ### What is denoted is the value -/

mutual

/-- **What is denoted is what the evaluation gives.** -/
theorem Denotes.literal?_eq {e : Node} {v : Literal} : Denotes e v → literal? e = some v
  | .wrapped hinside h => (seesThrough_literal? _ _ hinside).trans h.literal?_eq
  | .string h | .bool h | .null h => by
    obtain ⟨form, place, parts⟩ := e
    subst h
    rfl
  | .number h hvalue => h.literal?_eq hvalue
  | .template => rfl
  | .array h => by rw [literal?, h.literalItems?_eq]; rfl
  | .object h hfields => by
    rw [literal?, h.literalFields?_eq]
    exact congrArg (fun fields => some (Literal.object fields))
      ((Text.lastWins_tableOf _).unique hfields)

theorem DenotesItems.literalItems?_eq {items : List Node} {vs : List Literal} :
    DenotesItems items vs → literalItems? items = some vs
  | .nil => rfl
  | .cons h hrest => by rw [literalItems?, h.literal?_eq, hrest.literalItems?_eq]

theorem DenotesProperties.literalFields?_eq {properties : List Node}
    {entries front : List (String × Literal)} :
    DenotesProperties properties entries → literalFields? properties front
      = some (entries.foldl (fun fs entry => Literal.setField entry.1 entry.2 fs) front)
  | .nil => rfl
  | .cons hkey h hrest => by
    rw [literalFields?, keyName?_eq_some_iff.mpr hkey, h.literal?_eq]
    exact hrest.literalFields?_eq

end

/-! ### Literal trees and what they denote -/

mutual

/-- What denotes something is a literal tree. -/
theorem Denotes.literalTree {e : Node} {v : Literal} : Denotes e v → LiteralTree e
  | .wrapped hinside h => .wrapped hinside h.literalTree
  | .string h => .string h
  | .bool h => .bool h
  | .null h => .null h
  | .number h _ => .number h
  | .template => .template
  | .array h => .array h.literalTrees.1 h.literalTrees.2
  | .object h _ => .object h.literalTrees.1 h.literalTrees.2

theorem DenotesItems.literalTrees {items : List Node} {vs : List Literal} :
    DenotesItems items vs → (∀ n ∈ items, ∃ q e, n = ⟨.item, q, [e]⟩) ∧
      ∀ n ∈ items, ∀ e ∈ n.parts, LiteralTree e
  | .nil => ⟨List.forall_mem_nil _, List.forall_mem_nil _⟩
  | .cons h hrest => by
    obtain ⟨hitems, htrees⟩ := hrest.literalTrees
    refine ⟨List.forall_mem_cons.mpr ⟨⟨_, _, rfl⟩, hitems⟩, List.forall_mem_cons.mpr ⟨?_, htrees⟩⟩
    exact List.forall_mem_singleton.mpr h.literalTree

theorem DenotesProperties.literalTrees {properties : List Node}
    {entries : List (String × Literal)} :
    DenotesProperties properties entries →
      (∀ n ∈ properties, ∃ q key value name, n = ⟨.keyed, q, [key, value]⟩ ∧ KeyName key name) ∧
        ∀ n ∈ properties, ∀ value ∈ n.parts.getLast?, LiteralTree value
  | .nil => ⟨List.forall_mem_nil _, List.forall_mem_nil _⟩
  | .cons hkey h hrest => by
    obtain ⟨hproperties, htrees⟩ := hrest.literalTrees
    refine ⟨List.forall_mem_cons.mpr ⟨⟨_, _, _, _, rfl, hkey⟩, hproperties⟩,
      List.forall_mem_cons.mpr ⟨?_, htrees⟩⟩
    intro value hvalue
    cases hvalue
    exact h.literalTree

end

theorem exists_denotesItems {items : List Node} (hitems : ∀ n ∈ items, ∃ q e, n = ⟨.item, q, [e]⟩)
    (h : ∀ n ∈ items, ∀ e ∈ n.parts, ∃ v, Denotes e v) : ∃ vs, DenotesItems items vs := by
  induction items with
  | nil => exact ⟨[], .nil⟩
  | cons item rest ih =>
    obtain ⟨⟨place, e, rfl⟩, hrest⟩ := List.forall_mem_cons.mp hitems
    obtain ⟨hitem, hlater⟩ := List.forall_mem_cons.mp h
    obtain ⟨v, hv⟩ := hitem e List.mem_cons_self
    obtain ⟨vs, hvs⟩ := ih hrest hlater
    exact ⟨v :: vs, .cons hv hvs⟩

theorem exists_denotesProperties {properties : List Node}
    (hproperties : ∀ n ∈ properties, ∃ q key value name,
      n = ⟨.keyed, q, [key, value]⟩ ∧ KeyName key name)
    (h : ∀ n ∈ properties, ∀ value ∈ n.parts.getLast?, ∃ v, Denotes value v) :
    ∃ entries, DenotesProperties properties entries := by
  induction properties with
  | nil => exact ⟨[], .nil⟩
  | cons property rest ih =>
    obtain ⟨⟨place, key, value, name, rfl, hkey⟩, hrest⟩ := List.forall_mem_cons.mp hproperties
    obtain ⟨hproperty, hlater⟩ := List.forall_mem_cons.mp h
    obtain ⟨v, hv⟩ := hproperty value rfl
    obtain ⟨entries, hentries⟩ := ih hrest hlater
    exact ⟨(name, v) :: entries, .cons hkey hv hentries⟩

/-- **Every literal tree denotes something.** -/
theorem LiteralTree.exists_denotes {e : Node} (h : LiteralTree e) : ∃ v, Denotes e v := by
  induction h with
  | wrapped hinside _ ih =>
    obtain ⟨v, hv⟩ := ih
    exact ⟨v, .wrapped hinside hv⟩
  | string h => exact ⟨_, .string h⟩
  | bool h => exact ⟨_, .bool h⟩
  | null h => exact ⟨_, .null h⟩
  | @number n negative m k h =>
    obtain ⟨v, hv⟩ := exists_numberValue negative m k
    exact ⟨v, .number h hv⟩
  | template => exact ⟨_, .template⟩
  | array hitems _ ih =>
    obtain ⟨vs, hvs⟩ := exists_denotesItems hitems ih
    exact ⟨_, .array hvs⟩
  -- the entries have values one by one, and the last of a key wins
  | object hproperties _ ih =>
    obtain ⟨entries, hentries⟩ := exists_denotesProperties hproperties ih
    exact ⟨_, .object hentries (Text.lastWins_tableOf entries)⟩

end Expression

/-- **Exactly the literal trees have a value, and it is what they denote.** -/
theorem literal?_iff (e : Node) :
    ((∃ v, Expression.literal? e = some v) ↔ Expression.LiteralTree e) ∧
      ∀ v, Expression.literal? e = some v ↔ Expression.Denotes e v := by
  have hvalue : ∀ v, Expression.literal? e = some v ↔ Expression.Denotes e v := fun v =>
    ⟨Expression.denotes_of_literal?, Expression.Denotes.literal?_eq⟩
  refine ⟨⟨?_, ?_⟩, hvalue⟩
  · rintro ⟨v, hv⟩
    exact ((hvalue v).mp hv).literalTree
  · intro htree
    obtain ⟨v, hv⟩ := htree.exists_denotes
    exact ⟨v, (hvalue v).mpr hv⟩

end JsxWidgets
