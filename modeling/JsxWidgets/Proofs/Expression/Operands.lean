import Mathlib.Data.List.Flatten
import Mathlib.Data.List.Forall2
import JsxWidgets.Proofs.Expression.Wrappers
import JsxWidgets.Proofs.Text.Words

/-!
# Operands of a sum

A text that is put together with `+` is a tree of sums, and each of its operands stands below a
number of sums. The fixed pieces of an expression are those of the operands that at most two sums
stand around, in order: what is deeper is passed over, whatever the shape of the tree (`pieces_eq`).
So they are a part of all the fixed pieces of the tree (`AllPieces`), and all of them if it is not
deeper than that; of a long row of sums, which leans to the left, only the last two operands are
seen.

Parentheses and types do not count. They may stand around any sum, operand or branch of a choice.
-/

namespace JsxWidgets.Expression

open Syntax Syntax.Node

/-! ### What an operand is made of -/

/-- **The fixed pieces of an operand**: a quoted text is one itself, a template is made of some, and
a choice has those of its branches, in which sums have none. -/
inductive FixedPieces : Node → List String → Prop
  /-- Parentheses and types do not matter. -/
  | wrapped {n e ps} (hinside : n.inside? = some e) (h : FixedPieces e ps) : FixedPieces n ps
  /-- A quoted text. -/
  | text {n v} (hform : n.form = .string v) : FixedPieces n [v]
  /-- A template, as it is written. -/
  | template {n quasis} (hform : n.form = .template quasis) :
    FixedPieces n (quasis.map Quasi.raw)
  /-- A choice between two operands. -/
  | choice {place test yes no ps qs} (hyes : FixedPieces yes ps) (hno : FixedPieces no qs) :
    FixedPieces ⟨.conditional, place, [test, yes, no]⟩ (ps ++ qs)
  /-- Anything else, sums included. -/
  | other {n} (hinside : n.inside? = none) (htext : ∀ v, n.form ≠ .string v)
    (htemplate : ∀ quasis, n.form ≠ .template quasis)
    (hchoice : ∀ test yes no, n ≠ ⟨.conditional, n.place, [test, yes, no]⟩) : FixedPieces n []

theorem FixedPieces.eq {n : Node} {ps : List String} (h : FixedPieces n ps) :
    operandPieces n = ps := by
  induction h with
  | wrapped hinside _ ih => rw [seesThrough_operandPieces _ _ hinside, ih]
  | @text n v hform =>
    obtain ⟨form, place, parts⟩ := n
    subst hform
    rfl
  | @template n quasis hform =>
    obtain ⟨form, place, parts⟩ := n
    subst hform
    rfl
  | choice _ _ hyes hno => rw [operandPieces, hyes, hno]
  -- every shape that has pieces of its own is excluded by a hypothesis
  | @other n hinside htext htemplate hchoice =>
    obtain ⟨form, place, parts⟩ := n
    unfold operandPieces
    split
    · cases hinside
    · cases hinside
    · cases hinside
    · cases hinside
    · cases hinside
    · exact absurd rfl (htext _)
    · exact absurd rfl (htemplate _)
    · exact absurd rfl (hchoice _ _ _)
    · rfl

theorem fixedPieces_operandPieces (n : Node) : FixedPieces n (operandPieces n) := by
  induction n using induction_below with
  | step n ih =>
    cases hinside : n.inside? with
    | some e =>
      rw [seesThrough_operandPieces n e hinside]
      exact .wrapped hinside (ih e (mem_nodesOf_of_mem (inside?_mem hinside)))
    | none =>
      obtain ⟨form, place, parts⟩ := n
      -- the wrappers are gone, so the first cases of the match cannot occur
      unfold operandPieces
      split
      · cases hinside
      · cases hinside
      · cases hinside
      · cases hinside
      · cases hinside
      · exact .text rfl
      · exact .template rfl
      · next place test yes no =>
        exact .choice (ih yes (mem_nodesOf_of_mem (by simp)))
          (ih no (mem_nodesOf_of_mem (by simp)))
      · next htext htemplate _ _ _ _ _ hchoice =>
        refine .other hinside htext htemplate fun test yes no hn => ?_
        exact hchoice test yes no (congrArg Node.form hn) (congrArg Node.parts hn)

theorem fixedPieces_iff {n : Node} {ps : List String} :
    FixedPieces n ps ↔ ps = operandPieces n :=
  ⟨fun h => h.eq.symm, fun h => h ▸ fixedPieces_operandPieces n⟩

/-! ### Sums -/

/-- **A sum of two expressions**, possibly in parentheses or with a type. -/
def IsSum (e l r : Node) : Prop := ∃ place, e.unwrap = ⟨.binary .add, place, [l, r]⟩

/-- **An operand** is anything but a sum. -/
def IsOperand (e : Node) : Prop := ∀ l r, ¬ IsSum e l r

/-- What the search takes for a sum is one. -/
theorem summands?_eq_some_iff {e l r : Node} : summands? e = some (l, r) ↔ IsSum e l r := by
  rw [summands?]
  constructor
  · intro h
    split at h
    · next place l' r' hunwrap => cases h; exact ⟨place, hunwrap⟩
    · cases h
  · rintro ⟨place, hunwrap⟩
    rw [hunwrap]

/-- What it takes for no sum is an operand. -/
theorem summands?_eq_none_iff {e : Node} : summands? e = none ↔ IsOperand e := by
  rw [Option.eq_none_iff_forall_ne_some, Prod.forall]
  exact forall₂_congr fun l r => summands?_eq_some_iff.not

/-- Every expression is a sum or an operand. -/
theorem isSum_or_isOperand (e : Node) : (∃ l r, IsSum e l r) ∨ IsOperand e := by
  cases h : summands? e with
  | none => exact Or.inr (summands?_eq_none_iff.mp h)
  | some sides => exact Or.inl ⟨sides.1, sides.2, summands?_eq_some_iff.mp h⟩

/-- A sum has one pair of operands. -/
theorem IsSum.unique {e l r l' r' : Node} (h : IsSum e l r) (h' : IsSum e l' r') :
    l = l' ∧ r = r' := by
  have hsides := (summands?_eq_some_iff.mpr h).symm.trans (summands?_eq_some_iff.mpr h')
  exact Prod.mk.inj (Option.some.inj hsides)

section Sides

variable {e l r : Node}

/-- Of a sum both sides are searched. -/
theorem IsSum.pieces_eq (h : IsSum e l r) : pieces e = sidePieces l ++ sidePieces r := by
  rw [pieces, summands?_eq_some_iff.mpr h]

/-- Of a sum on one side both operands are taken. -/
theorem IsSum.sidePieces_eq (h : IsSum e l r) :
    sidePieces e = operandPieces l ++ operandPieces r := by
  rw [sidePieces, summands?_eq_some_iff.mpr h]

/-- What is no sum is taken as an operand at once. -/
theorem IsOperand.pieces_eq (h : IsOperand e) : pieces e = operandPieces e := by
  rw [pieces, summands?_eq_none_iff.mpr h]

/-- So is what is no sum on one side. -/
theorem IsOperand.sidePieces_eq (h : IsOperand e) : sidePieces e = operandPieces e := by
  rw [sidePieces, summands?_eq_none_iff.mpr h]

end Sides

/-- What holds of operands, and of a sum as soon as it holds of its operands, holds of every
expression. -/
theorem sum_induction {P : Node → Prop} (operand : ∀ e, IsOperand e → P e)
    (sum : ∀ e l r, IsSum e l r → P l → P r → P e) (e : Node) : P e := by
  induction e using induction_below with
  | step e ih =>
    rcases isSum_or_isOperand e with ⟨l, r, h⟩ | h
    · obtain ⟨place, hunwrap⟩ := h
      -- The sum may be wrapped, but its operands stand below the wrappers as well.
      have hbelow : ∀ m ∈ [l, r], m ∈ nodesOf e.parts := by
        intro m hm
        have hm' : m ∈ nodesOf e.unwrap.parts := by rw [hunwrap]; exact mem_nodesOf_of_mem hm
        rcases mem_nodes_iff.mp (unwrap_mem_nodes e) with hself | hinside
        · exact hself ▸ hm'
        · exact mem_nodesOf_trans hinside hm'
      exact sum e l r ⟨place, hunwrap⟩ (ih l (hbelow l (by simp))) (ih r (hbelow r (by simp)))
    · exact operand e h

/-- **All fixed pieces of an expression**: those of the operands of the whole tree of sums, in
order. -/
inductive AllPieces : Node → List String → Prop
  /-- A sum has those of both its operands. -/
  | sum {e l r ps qs} (h : IsSum e l r) (hl : AllPieces l ps) (hr : AllPieces r qs) :
    AllPieces e (ps ++ qs)
  /-- What is no sum is an operand. -/
  | operand {e ps} (h : IsOperand e) (hpieces : FixedPieces e ps) : AllPieces e ps

/-- **A row of sums**, which leans to the left, with its operands in order. -/
inductive LeansLeft : Node → List Node → Prop
  /-- The first operand. -/
  | first {e} (h : IsOperand e) : LeansLeft e [e]
  /-- A further operand. -/
  | more {e l r operands} (h : IsSum e l r) (hl : LeansLeft l operands) (hr : IsOperand r) :
    LeansLeft e (operands ++ [r])

/-- The operands of an expression that a number of sums stand around, each with the number of sums
around it. -/
def operandsBelow : Nat → Node → List (Nat × Node)
  | depth, ⟨form, place, parts⟩ =>
    match form, parts with
    | .paren, [e] => operandsBelow depth e
    | .asType, [e, _] => operandsBelow depth e
    | .asConst, [e] => operandsBelow depth e
    | .satisfies, [e, _] => operandsBelow depth e
    | .nonNull, [e] => operandsBelow depth e
    | .binary .add, [l, r] => operandsBelow (depth + 1) l ++ operandsBelow (depth + 1) r
    | form, parts => [(depth, ⟨form, place, parts⟩)]

/-- **The operands of an expression**, each with the number of sums around it. -/
def operands (e : Node) : List (Nat × Node) := operandsBelow 0 e

theorem seesThrough_operandsBelow (depth : Nat) : SeesThrough (operandsBelow depth) := by
  intro n e h
  unfold inside? at h
  split at h <;> cases h <;> simp only [operandsBelow]

section Depths

variable {e l r : Node} (depth : Nat)

theorem operandsBelow_of_isSum (h : IsSum e l r) :
    operandsBelow depth e = operandsBelow (depth + 1) l ++ operandsBelow (depth + 1) r := by
  obtain ⟨place, hunwrap⟩ := h
  rw [← (seesThrough_operandsBelow depth).unwrap, hunwrap, operandsBelow]

theorem operandsBelow_of_isOperand (h : IsOperand e) :
    operandsBelow depth e = [(depth, e.unwrap)] := by
  -- nothing changes under the wrappers, so the expression may be taken without them
  rw [← (seesThrough_operandsBelow depth).unwrap]
  rw [← summands?_eq_none_iff, ← summands?_unwrap] at h
  have hinside := inside?_unwrap e
  generalize e.unwrap = value at h hinside ⊢
  obtain ⟨form, place, parts⟩ := value
  unfold operandsBelow
  split
  · cases hinside
  · cases hinside
  · cases hinside
  · cases hinside
  · cases hinside
  · cases h
  · rfl

theorem le_of_mem_operandsBelow (e : Node) : ∀ o ∈ operandsBelow depth e, depth ≤ o.1 := by
  induction e using sum_induction generalizing depth with
  | operand e h =>
    rw [operandsBelow_of_isOperand depth h]
    exact List.forall_mem_singleton.mpr (Nat.le_refl _)
  | sum e l r h hl hr =>
    rw [operandsBelow_of_isSum depth h]
    refine List.forall_mem_append.mpr ⟨fun o ho => ?_, fun o ho => ?_⟩
    · exact Nat.le_of_succ_le (hl _ o ho)
    · exact Nat.le_of_succ_le (hr _ o ho)

end Depths

/-- The fixed pieces of some operands. -/
def piecesOf (os : List (Nat × Node)) : List String := os.flatMap fun o => operandPieces o.2

theorem piecesOf_append (os os' : List (Nat × Node)) :
    piecesOf (os ++ os') = piecesOf os ++ piecesOf os' := List.flatMap_append

theorem piecesOf_of_isOperand {e : Node} (depth : Nat) (h : IsOperand e) :
    piecesOf (operandsBelow depth e) = operandPieces e := by
  rw [operandsBelow_of_isOperand depth h, piecesOf, List.flatMap_singleton, operandPieces_unwrap]

/-- As an operand a sum has no pieces. -/
theorem IsSum.operandPieces_eq_nil {e l r : Node} (h : IsSum e l r) : operandPieces e = [] := by
  obtain ⟨place, hunwrap⟩ := h
  rw [← operandPieces_unwrap, hunwrap]
  rfl

theorem allPieces_iff {e : Node} {ps : List String} :
    AllPieces e ps ↔ ps = piecesOf (operands e) := by
  rw [operands]
  -- The depth does not matter for the pieces.
  generalize 0 = depth
  induction e using sum_induction generalizing depth ps with
  | operand e h =>
    rw [piecesOf_of_isOperand depth h, ← fixedPieces_iff]
    constructor
    · rintro (⟨hsum, -, -⟩ | ⟨-, hpieces⟩)
      · exact absurd hsum (h _ _)
      · exact hpieces
    · exact .operand h
  | sum e l r h hl hr =>
    rw [operandsBelow_of_isSum depth h, piecesOf_append]
    constructor
    · rintro (⟨hsum, hl', hr'⟩ | ⟨hnone, -⟩)
      · obtain ⟨rfl, rfl⟩ := h.unique hsum
        rw [(hl (depth + 1)).mp hl', (hr (depth + 1)).mp hr']
      · exact absurd h (hnone _ _)
    · rintro rfl
      exact .sum h ((hl _).mpr rfl) ((hr _).mpr rfl)

/-! ### What is found -/

/-- The fixed pieces of those operands that at most two sums stand around. -/
def shallowPieces (os : List (Nat × Node)) : List String := piecesOf (os.filter (·.1 ≤ 2))

section Shallow

variable {e : Node} {depth : Nat}

theorem shallowPieces_of_isOperand (hdepth : depth ≤ 2) (h : IsOperand e) :
    shallowPieces (operandsBelow depth e) = operandPieces e := by
  rw [shallowPieces, ← piecesOf_of_isOperand depth h, operandsBelow_of_isOperand depth h]
  simp [hdepth]

theorem shallowPieces_of_isSum {l r : Node} (h : IsSum e l r) :
    shallowPieces (operandsBelow depth e) =
      shallowPieces (operandsBelow (depth + 1) l)
        ++ shallowPieces (operandsBelow (depth + 1) r) := by
  rw [shallowPieces, operandsBelow_of_isSum depth h, List.filter_append, piecesOf_append]
  rfl

/-- Too deep down nothing is found. -/
theorem shallowPieces_of_lt (hdepth : 2 < depth) : shallowPieces (operandsBelow depth e) = [] := by
  have hnone : (operandsBelow depth e).filter (·.1 ≤ 2) = [] := by
    rw [List.filter_eq_nil_iff]
    intro o ho hle
    have hge := le_of_mem_operandsBelow depth e o ho
    have hle' : o.1 ≤ 2 := of_decide_eq_true hle
    omega
  rw [shallowPieces, hnone]
  rfl

/-- Below two sums the search sees an operand as such, and a sum not at all. -/
theorem shallowPieces_two : shallowPieces (operandsBelow 2 e) = operandPieces e := by
  rcases isSum_or_isOperand e with ⟨l, r, h⟩ | h
  · rw [shallowPieces_of_isSum h, shallowPieces_of_lt (by decide), shallowPieces_of_lt (by decide),
      h.operandPieces_eq_nil]
    rfl
  · exact shallowPieces_of_isOperand (by decide) h

/-- Below one sum it goes into one more. -/
theorem shallowPieces_one : shallowPieces (operandsBelow 1 e) = sidePieces e := by
  rcases isSum_or_isOperand e with ⟨l, r, h⟩ | h
  · rw [shallowPieces_of_isSum h, shallowPieces_two, shallowPieces_two, h.sidePieces_eq]
  · rw [shallowPieces_of_isOperand (by decide) h, h.sidePieces_eq]

/-- **Found are the pieces of the operands that at most two sums stand around.** -/
theorem pieces_eq (e : Node) : pieces e = shallowPieces (operands e) := by
  -- Every step of the search goes into one more sum, and the third would be one too many.
  rw [operands]
  rcases isSum_or_isOperand e with ⟨l, r, h⟩ | h
  · rw [shallowPieces_of_isSum h, shallowPieces_one, shallowPieces_one, h.pieces_eq]
  · rw [shallowPieces_of_isOperand (by decide) h, h.pieces_eq]

end Shallow

/-- **A tree of sums in which no operand of an operand is a sum.** -/
def IsShallow (e : Node) : Prop :=
  ∀ l r, IsSum e l r → ∀ side ∈ [l, r], ∀ l' r', IsSum side l' r' → IsOperand l' ∧ IsOperand r'

/-- The operands of a shallow tree stand in at most two sums, so that all of them are seen. -/
theorem IsShallow.depth_le {e : Node} (h : IsShallow e) : ∀ o ∈ operands e, o.1 ≤ 2 := by
  -- a side of the sum is a sum of operands or an operand itself
  have hside : ∀ l r, IsSum e l r → ∀ side ∈ [l, r], ∀ o ∈ operandsBelow 1 side, o.1 ≤ 2 := by
    intro l r hsum side hmem
    rcases isSum_or_isOperand side with ⟨l', r', hinner⟩ | hinner
    · obtain ⟨hl, hr⟩ := h l r hsum side hmem l' r' hinner
      rw [operandsBelow_of_isSum 1 hinner, operandsBelow_of_isOperand 2 hl,
        operandsBelow_of_isOperand 2 hr]
      simp
    · rw [operandsBelow_of_isOperand 1 hinner]
      exact List.forall_mem_singleton.mpr (Nat.le_succ 1)
  rw [operands]
  rcases isSum_or_isOperand e with ⟨l, r, hsum⟩ | hoperand
  · rw [operandsBelow_of_isSum 0 hsum]
    exact List.forall_mem_append.mpr ⟨hside l r hsum _ (by simp), hside l r hsum _ (by simp)⟩
  · rw [operandsBelow_of_isOperand 0 hoperand]
    exact List.forall_mem_singleton.mpr (Nat.zero_le 2)

/-- The last operand of a row is an operand of the outermost sum. -/
theorem LeansLeft.last {e r : Node} {front : List Node} (h : LeansLeft e (front ++ [r]))
    (hfront : front ≠ []) : ∃ l, IsSum e l r ∧ LeansLeft l front ∧ IsOperand r := by
  generalize hall : front ++ [r] = all at h
  cases h with
  | first =>
    have hlength := congrArg List.length hall
    have hpos := List.length_pos_iff.mpr hfront
    simp only [List.length_append, List.length_singleton] at hlength
    omega
  | @more _ l r' operands hsum hl hr =>
    obtain ⟨rfl, hlast⟩ := List.append_inj' hall rfl
    obtain rfl := List.singleton_inj.mp hlast
    exact ⟨l, hsum, hl, hr⟩

/-- **Of a long row of sums the last two operands are seen.** -/
theorem LeansLeft.pieces_eq {e a b : Node} {front : List Node}
    (h : LeansLeft e (front ++ [a, b])) (hfront : 2 ≤ front.length) :
    pieces e = operandPieces a ++ operandPieces b := by
  have happend : front ++ [a, b] = (front ++ [a]) ++ [b] := by simp
  rw [happend] at h
  obtain ⟨l, hsum, hl, hb⟩ := h.last (by simp)
  obtain ⟨l', hsum', hl', -⟩ := hl.last (List.length_pos_iff.mp (by omega))
  -- What is left of the last two operands is a sum itself.
  have hinner : ∃ l'' r'', IsSum l' l'' r'' := by
    rcases List.eq_nil_or_concat' front with rfl | ⟨front', c, rfl⟩
    · simp at hfront
    · have hne : front' ≠ [] := by rintro rfl; simp at hfront
      obtain ⟨l'', hsum'', -, -⟩ := hl'.last hne
      exact ⟨l'', c, hsum''⟩
  obtain ⟨l'', r'', hinner⟩ := hinner
  rw [hsum.pieces_eq, hsum'.sidePieces_eq, hb.sidePieces_eq, hinner.operandPieces_eq_nil,
    List.nil_append]

/-- **Pieces that are sound**, next to all the pieces of the whole tree. -/
structure SoundPieces (e : Node) (whole : List String) : Prop where
  /-- These are all the fixed pieces there are. -/
  all : ∀ ps, AllPieces e ps ↔ ps = whole
  /-- What is found is a part of them, in the same order. -/
  sublist : (pieces e).Sublist whole
  /-- It is all of them if no operand of an operand is a sum. -/
  complete : IsShallow e → pieces e = whole
  /-- Of a row of at least four operands it is those of the last two. -/
  row : ∀ front a b ps qs, LeansLeft e (front ++ [a, b]) → 2 ≤ front.length →
    FixedPieces a ps → FixedPieces b qs → pieces e = ps ++ qs
  /-- The class names are cut out of what is found, piece by piece. -/
  words : ∃ found : List (List String),
    List.Forall₂ (fun piece words => Text.CutAtBlanks piece.toList (words.map String.toList))
      (pieces e) found ∧ classTokens e = found.flatten
  /-- None of them is empty or has a blank in it. -/
  tokens : ∀ token ∈ classTokens e, token ≠ "" ∧ ∀ c ∈ token.toList, Text.isBlank c = false

/-- **The pieces of a sum are sound, and complete for two levels of sums.** -/
theorem exists_soundPieces (e : Node) : ∃ whole, SoundPieces e whole := by
  refine ⟨piecesOf (operands e), ?_⟩
  refine ⟨fun ps => allPieces_iff, ?_, fun hshallow => ?_, ?_, ?_, ?_⟩
  -- what is printed are the pieces of the operands that are not too deep
  · rw [pieces_eq]
    exact List.filter_sublist.flatMap _
  · rw [pieces_eq, shallowPieces, List.filter_eq_self.mpr]
    exact fun o ho => decide_eq_true (hshallow.depth_le o ho)
  · intro front a b ps qs hrow hfront hps hqs
    rw [hrow.pieces_eq hfront, hps.eq, hqs.eq]
  · refine ⟨(pieces e).map Text.words, ?_, List.flatMap_def⟩
    rw [List.forall₂_map_right_iff, List.forall₂_same]
    exact fun piece _ => Text.cutAtBlanks_words piece
  · intro token htoken
    obtain ⟨piece, -, hword⟩ := List.mem_flatMap.mp htoken
    refine ⟨Text.ne_empty_of_mem_words hword, ?_⟩
    exact (Text.cutAtBlanks_words piece).not_blank _ (List.mem_map_of_mem hword)

end JsxWidgets.Expression
