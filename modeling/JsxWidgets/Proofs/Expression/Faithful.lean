import Mathlib.Data.Set.Function
import JsxWidgets.Proofs.Expression.AccessRules
import JsxWidgets.Proofs.Expression.TermReading
import JsxWidgets.Proofs.Lowering.Values

/-!
# Summaries that show everything

A summary never adds parentheses. It need not, for it is made of what the grammar gives
(`isGraded_grammar`): an operand that has to be in parentheses stands in some, or it would have been
read as something else. So the summary of an expression that nothing is left out of shows all of it,
whatever is in its quoted texts.

One blank is missing. A word in front of an operand gets a blank behind it, but a sign does not, and
two signs are written like a decrement: two terms have one text exactly if they are equal once
increments and decrements in front of operands are two signs (`Term.glyphs_eq_iff`). That is all
that a summary hides (`summary_eq_iff`). Without a sign in front of the same sign the terms are
equal (`Term.spread_injective`).
-/

/-! ### Signs in front of operands -/

namespace JsxWidgets.Expression.Term

open Syntax Glyph Filter

/-- The text does not show whether a sign in front of an operand is one of two. -/
theorem glyphs_spread (t : Term) : t.spread.glyphs = t.glyphs := by
  -- The arguments behind the first one are written one by one.
  have hfurther : ∀ args : List Term, (∀ a ∈ args, a.spread.glyphs = a.glyphs) →
      furtherGlyphs (spreadAll args) = furtherGlyphs args := by
    intro args h
    induction args with
    | nil => rfl
    | cons a rest ih =>
      obtain ⟨ha, hrest⟩ := List.forall_mem_cons.mp h
      rw [spreadAll, furtherGlyphs, furtherGlyphs, ha, ih hrest]
  induction t using Term.induction with
  | name | this | string | number | bool | null => rfl
  | paren e ihe => rw [spread, glyphs, glyphs, ihe]
  | member o isHidden t iho => rw [spread, glyphs, glyphs, iho]
  | index o k iho ihk => rw [spread, glyphs, glyphs, iho, ihk]
  | call f args ihf ihargs =>
    rw [spread, glyphs, glyphs, ihf]
    cases args with
    | nil => rfl
    | cons a rest =>
      obtain ⟨ha, hrest⟩ := List.forall_mem_cons.mp ihargs
      rw [spreadAll, argumentGlyphs, argumentGlyphs, ha, hfurther rest hrest]
  | unary op e ihe => rw [spread, glyphs, glyphs, ihe]
  | update op inFront e ihe =>
    cases inFront with
    -- `++x` and `+(+x)` are written with the same two signs.
    | true =>
      rw [spread, if_pos rfl, glyphs, glyphs, glyphs, if_pos rfl, ihe]
      cases op <;> rfl
    | false => rw [spread, if_neg Bool.false_ne_true, glyphs, glyphs, ihe]
  | binary op l r ihl ihr => rw [spread, glyphs, glyphs, ihl, ihr]
  | conditional c y n ihc ihy ihn => rw [spread, glyphs, glyphs, ihc, ihy, ihn]

/-- **Two terms have one text** exactly if they are equal once increments and decrements in front of
operands are two signs. -/
theorem glyphs_eq_iff {t u : Term} (ht : t.Everywhere Fits) (hu : u.Everywhere Fits)
    (ht' : t.Everywhere IsProper) (hu' : u.Everywhere IsProper) :
    t.glyphs = u.glyphs ↔ t.spread = u.spread := by
  constructor
  · intro h
    -- The texts of numbers can be read back, for no two of them are equal.
    obtain ⟨value, hvalue⟩ : ∃ value : String → Binary64,
        ∀ v : Binary64, v.IsDouble → value v.positional = v := by
      have hinj : Set.InjOn Binary64.positional {v | v.IsDouble} := fun v hv w hw =>
        Binary64.positional_injective hv hw
      exact ⟨_, fun v hv => hinj.leftInvOn_invFunOn hv⟩
    have hread := (isRead hvalue ht ht').term [] isEnded_nil
    have hread' := (isRead hvalue hu hu').term [] isEnded_nil
    rw [List.append_nil] at hread hread'
    rw [← h] at hread'
    obtain ⟨n, hn, hn'⟩ := (hread.and hread').exists
    exact (Prod.mk.inj (Option.some.inj (hn.symm.trans hn'))).1
  · intro h
    rw [← glyphs_spread t, ← glyphs_spread u, h]

/-! ### Signs that are kept apart -/

/-- The sign in front of a term, with what stands behind it. -/
def signed? : Term → Option (UnaryOp × Term)
  | .unary .minus e => some (.minus, e)
  | .unary .plus e => some (.plus, e)
  | .update op true e => some (sign op, e)
  | _ => none

/-- **No sign stands in front of the same sign.** -/
def IsApart (t : Term) : Prop :=
  ∀ s e, t.signed? = some (s, e) → ∀ e', e.signed? ≠ some (s, e')

mutual

/-- A term in which two equal signs in front of an operand are an increment or a decrement. -/
def gather : Term → Term
  | .unary .minus (.unary .minus e) => .update .decrement true e.gather
  | .unary .plus (.unary .plus e) => .update .increment true e.gather
  | .unary op e => .unary op e.gather
  | .paren e => .paren e.gather
  | .member o isHidden t => .member o.gather isHidden t
  | .index o k => .index o.gather k.gather
  | .call f args => .call f.gather (gatherAll args)
  | .update op inFront e => .update op inFront e.gather
  | .binary op l r => .binary op l.gather r.gather
  | .conditional c y n => .conditional c.gather y.gather n.gather
  | t => t

/-- Several terms in which two equal signs are gathered. -/
def gatherAll : List Term → List Term
  | [] => []
  | a :: rest => a.gather :: gatherAll rest

end

/-- What is spread to a sign with its operand starts with that sign. -/
theorem signed?_of_spread_eq {t e : Term} {op : UpdateOp}
    (h : t.spread = .unary (sign op) e) : ∃ e', t.signed? = some (sign op, e') := by
  cases t with
  | unary op' e' =>
    injection h with hop _
    subst hop
    cases op <;> exact ⟨e', rfl⟩
  | update op' inFront e' =>
    cases inFront with
    | true =>
      injection h with hop _
      exact ⟨e', by rw [← hop]; rfl⟩
    | false => cases h
  | _ => cases h

/-- **A term that keeps signs apart is gathered again** from what it is spread to. -/
theorem gather_spread {t : Term} (h : t.Everywhere IsApart) : t.spread.gather = t := by
  have hall : ∀ args : List Term, (∀ a ∈ args, a.spread.gather = a) →
      gatherAll (spreadAll args) = args := by
    intro args h
    induction args with
    | nil => rfl
    | cons a rest ih =>
      obtain ⟨ha, hrest⟩ := List.forall_mem_cons.mp h
      rw [spreadAll, gatherAll, ha, ih hrest]
  induction t using Term.induction with
  | name | this | string | number | bool | null => rfl
  | paren e ihe =>
    rw [everywhere_paren] at h
    rw [spread, gather, ihe h.2]
  | member o isHidden t iho =>
    rw [everywhere_member] at h
    rw [spread, gather, iho h.2]
  | index o k iho ihk =>
    rw [everywhere_index] at h
    rw [spread, gather, iho h.2.1, ihk h.2.2]
  | call f args ihf ihargs =>
    rw [everywhere_call] at h
    rw [spread, gather, ihf h.2.1, hall args fun a ha => ihargs a ha (h.2.2 a ha)]
  | unary op e ihe =>
    rw [everywhere_unary] at h
    -- A sign in front is not the first of two, for the operand starts with another one.
    have hsecond : ∀ op' e', op = sign op' → e.spread ≠ .unary (sign op') e' := by
      rintro op' e' rfl heq
      obtain ⟨e'', he''⟩ := signed?_of_spread_eq heq
      refine h.1 (sign op') e ?_ e'' he''
      cases op' <;> rfl
    rw [spread, gather, ihe h.2]
    · exact fun e' hop heq => hsecond .decrement e' hop heq
    · exact fun e' hop heq => hsecond .increment e' hop heq
  | update op inFront e ihe =>
    rw [everywhere_update] at h
    cases inFront with
    | true =>
      rw [spread, if_pos rfl]
      cases op with
      | increment => rw [sign, gather, ihe h.2]
      | decrement => rw [sign, gather, ihe h.2]
    | false => rw [spread, if_neg Bool.false_ne_true, gather, ihe h.2]
  | binary op l r ihl ihr =>
    rw [everywhere_binary] at h
    rw [spread, gather, ihl h.2.1, ihr h.2.2]
  | conditional c y n ihc ihy ihn =>
    rw [everywhere_conditional] at h
    rw [spread, gather, ihc h.2.1, ihy h.2.2.1, ihn h.2.2.2]

/-- **Terms that keep signs apart are determined** by what they are spread to. -/
theorem spread_injective {t u : Term} (ht : t.Everywhere IsApart) (hu : u.Everywhere IsApart)
    (h : t.spread = u.spread) : t = u := by
  rw [← gather_spread ht, ← gather_spread hu, h]

end JsxWidgets.Expression.Term

/-! ### Summaries of what has been read -/

namespace JsxWidgets.Expression

open Syntax Glyph

/-- **An expression that a grammar can give**, up to any depth and from any state on. -/
inductive IsProduced (e : Node) : Prop where
  /-- Expressions separated by commas. -/
  | expression {depth : Nat} {s s' : ReadState} (h : (grammar depth).expression s = .ok e s')
  /-- An expression without a comma. -/
  | assignment {depth : Nat} {s s' : ReadState} (h : (grammar depth).assignment s = .ok e s')
  /-- An operand with operators behind it that bind tighter than a number. -/
  | operators {depth depth' floor : Nat} {first : Node} {s s' s₀ s₀' : ReadState}
      (hfirst : (grammar depth').unary s₀ = .ok first s₀') (hfloor : floor < Term.operandTightness)
      (h : (grammar depth).operators first floor s = .ok e s')
  /-- An operand. -/
  | unary {depth : Nat} {s s' : ReadState} (h : (grammar depth).unary s = .ok e s')
  /-- An expression that can be called or accessed. -/
  | access {depth : Nat} {s s' : ReadState} (h : (grammar depth).access s = .ok e s')

theorem IsProduced.grade {e : Node} (h : IsProduced e) : e.Grade 0 := by
  cases h with
  | expression h => exact (isGraded_grammar _).expression _ _ _ h
  | assignment h => exact ((isGraded_grammar _).assignment _ _ _ h).1
  | operators hfirst hfloor h =>
    have hgrade := (isGraded_grammar _).unary _ _ _ hfirst
    exact ((isGraded_grammar _).operators _ _ _ hgrade hfloor _ _ h).grade.mono (Nat.zero_le _)
  | unary h => exact ((isGraded_grammar _).unary _ _ _ h).mono (Nat.zero_le _)
  | access h => exact ((isGraded_grammar _).access _ _ _ h).mono (Nat.zero_le _)

/-- **An expression that is summarized in full**, and the term that it is. -/
structure IsShownAs (e : Node) (t : Term) : Prop where
  /-- The expression has been read. -/
  produced : IsProduced e
  /-- It is the term but for its places. -/
  outline : e.outline = t.node
  /-- No level of it is left out. -/
  levels : t.levels ≤ summaryDepth
  /-- Its names are words, and its numbers are doubles. -/
  proper : t.Everywhere Term.IsProper
  /-- Its logical operators are not mixed; or they are, which is a reported fault, and its operands
  bind tightly enough all the same. -/
  unmixed : t.Everywhere Term.IsUnmixed ∨ t.Everywhere Term.Fits

section Summaries

variable {e e₁ e₂ : Node} {t t₁ t₂ : Term}

/-- The operands in an expression that has been read bind tightly enough. -/
theorem IsShownAs.fits (h : IsShownAs e t) : t.Everywhere Term.Fits := by
  rcases h.unmixed with hunmixed | hfits
  · exact (h.produced.grade t h.outline hunmixed).1
  · exact hfits

theorem IsShownAs.summary_eq (h : IsShownAs e t) : summary e = written t.glyphs := by
  rw [← summary_outline e, h.outline]
  exact t.isShown summaryDepth h.levels

/-- **Expressions with one summary** are those that are equal once increments and decrements in
front of operands are two signs. If no sign stands in front of the same sign, then they are equal
but for their places. -/
theorem summary_eq_iff (h₁ : IsShownAs e₁ t₁) (h₂ : IsShownAs e₂ t₂) :
    (summary e₁ = summary e₂ ↔ t₁.spread = t₂.spread) ∧
      (t₁.Everywhere Term.IsApart → t₂.Everywhere Term.IsApart → summary e₁ = summary e₂ →
        e₁.outline = e₂.outline) := by
  have hiff : summary e₁ = summary e₂ ↔ t₁.spread = t₂.spread := by
    rw [h₁.summary_eq, h₂.summary_eq, ← Term.glyphs_eq_iff h₁.fits h₂.fits h₁.proper h₂.proper]
    constructor
    · exact written_injective (Term.plain_glyphs h₁.proper) (Term.plain_glyphs h₂.proper)
    · exact congrArg written
  refine ⟨hiff, fun hapart₁ hapart₂ hsame => ?_⟩
  have hterm : t₁ = t₂ := Term.spread_injective hapart₁ hapart₂ (hiff.mp hsame)
  rw [h₁.outline, h₂.outline, hterm]

end Summaries

/-! ### Texts in quotes, and signs -/

/-- The state in front of a text that may hold markup. -/
def startOf (text : String) : ReadState :=
  { token := (⟨text.toList, 1⟩ : Cursor).token, faults := [], scope := {},
    dialect := ⟨true, false⟩ }

/-- A backslash in quotes, to which another text is added. -/
theorem isShownAs_sum :
    IsShownAs ⟨.binary .add, 1, [.leaf (.string "\\") 1, .leaf (.string "x") 8]⟩
      (.binary .add (.string "\\") (.string "x")) where
  produced := by
    have hread : ∃ s', (grammar 12).assignment (startOf "\"\\\\\" + \"x\"") =
        .ok ⟨.binary .add, 1, [.leaf (.string "\\") 1, .leaf (.string "x") 8]⟩ s' := ⟨_, rfl⟩
    exact .assignment hread.choose_spec
  outline := rfl
  levels := by decide
  proper := by simp [Term.IsProper, Term.Everywhere, Term.subterms]
  unmixed := by simp [Term.IsUnmixed, Term.Everywhere, Term.subterms, Node.isLogical, Term.node]

/-- A text with quotes inside. -/
theorem isShownAs_quoted :
    IsShownAs (.leaf (.string "\" + \"x") 1) (.string "\" + \"x") where
  produced := by
    have hread : ∃ s', (grammar 12).assignment (startOf "\x27\" + \"x\x27") =
        .ok (.leaf (.string "\" + \"x") 1) s' := ⟨_, rfl⟩
    exact .assignment hread.choose_spec
  outline := rfl
  levels := by decide
  proper := List.forall_mem_singleton.mpr trivial
  unmixed := Or.inl (List.forall_mem_singleton.mpr trivial)

/-- A sum of two texts is told from a text that looks like one. -/
theorem summary_sum_ne_quoted :
    IsShownAs ⟨.binary .add, 1, [.leaf (.string "\\") 1, .leaf (.string "x") 8]⟩
        (.binary .add (.string "\\") (.string "x")) ∧
      IsShownAs (.leaf (.string "\" + \"x") 1) (.string "\" + \"x") ∧
      summary ⟨.binary .add, 1, [.leaf (.string "\\") 1, .leaf (.string "x") 8]⟩ ≠
        summary (.leaf (.string "\" + \"x") 1) := by
  refine ⟨isShownAs_sum, isShownAs_quoted, fun hsame => ?_⟩
  have hspread := (summary_eq_iff isShownAs_sum isShownAs_quoted).1.mp hsame
  cases hspread

theorem everywhere_isProper_x : (Term.name "x").Everywhere Term.IsProper :=
  List.forall_mem_singleton.mpr ⟨⟨'x', [], rfl, by decide, by decide⟩, by decide⟩

theorem everywhere_isUnmixed_x : (Term.name "x").Everywhere Term.IsUnmixed :=
  List.forall_mem_singleton.mpr trivial

theorem isShownAs_decrement :
    IsShownAs ⟨.update .decrement true, 1, [.leaf (.name "x") 3]⟩
      (.update .decrement true (.name "x")) where
  produced := by
    have hread : ∃ s', (grammar 12).assignment (startOf "--x") =
        .ok ⟨.update .decrement true, 1, [.leaf (.name "x") 3]⟩ s' := ⟨_, rfl⟩
    exact .assignment hread.choose_spec
  outline := rfl
  levels := by decide
  proper := Term.everywhere_update.mpr ⟨trivial, everywhere_isProper_x⟩
  unmixed := Or.inl (Term.everywhere_update.mpr ⟨trivial, everywhere_isUnmixed_x⟩)

theorem isShownAs_signs :
    IsShownAs ⟨.unary .minus, 1, [⟨.unary .minus, 3, [.leaf (.name "x") 4]⟩]⟩
      (.unary .minus (.unary .minus (.name "x"))) where
  produced := by
    have hread : ∃ s', (grammar 12).assignment (startOf "- -x") =
        .ok ⟨.unary .minus, 1, [⟨.unary .minus, 3, [.leaf (.name "x") 4]⟩]⟩ s' := ⟨_, rfl⟩
    exact .assignment hread.choose_spec
  outline := rfl
  levels := by decide
  proper := Term.everywhere_unary.mpr
    ⟨trivial, Term.everywhere_unary.mpr ⟨trivial, everywhere_isProper_x⟩⟩
  unmixed := Or.inl (Term.everywhere_unary.mpr
    ⟨trivial, Term.everywhere_unary.mpr ⟨trivial, everywhere_isUnmixed_x⟩⟩)

/-- Two signs are not told from a decrement. -/
theorem summary_signs_eq_decrement :
    IsShownAs ⟨.unary .minus, 1, [⟨.unary .minus, 3, [.leaf (.name "x") 4]⟩]⟩
        (.unary .minus (.unary .minus (.name "x"))) ∧
      IsShownAs ⟨.update .decrement true, 1, [.leaf (.name "x") 3]⟩
        (.update .decrement true (.name "x")) ∧
      summary ⟨.unary .minus, 1, [⟨.unary .minus, 3, [.leaf (.name "x") 4]⟩]⟩ =
        summary ⟨.update .decrement true, 1, [.leaf (.name "x") 3]⟩ ∧
      Node.outline ⟨.unary .minus, 1, [⟨.unary .minus, 3, [.leaf (.name "x") 4]⟩]⟩ ≠
        Node.outline ⟨.update .decrement true, 1, [.leaf (.name "x") 3]⟩ := by
  refine ⟨isShownAs_signs, isShownAs_decrement, ?_, fun hsame => ?_⟩
  · rw [isShownAs_signs.summary_eq, isShownAs_decrement.summary_eq]
    rfl
  · cases congrArg Node.form hsame

end JsxWidgets.Expression
