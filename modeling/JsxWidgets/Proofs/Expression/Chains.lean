import Mathlib.Data.List.Basic
import JsxWidgets.Hook.Analysis
import JsxWidgets.Proofs.Expression.Paths
import JsxWidgets.Proofs.Lowering.Rewriting

/-!
# Chains of accesses

A chain is a name or the current object, followed by accesses with fixed keys. Two texts are made of
it. Its path is put together from the object outwards, and has no limit. Its summary is written from
the last access inwards, with room for a level less at each access, for the object as well as for
the key.

`Chain.path?_eq_summaryWithin` says that the two are one text as long as there is more room than the
chain has accesses, so that the name that it starts with is still shown. The summaries that are
printed have room for six (`Chain.path?_eq_summary`), and then it does not matter which of the two a
place of the program takes: the text of a child, and the names that are recorded of dependencies,
contexts and the like.
-/

namespace JsxWidgets.Expression

open Syntax

/-- **Chains with a number of accesses**, without wrappers. A key is a word behind a point, or a
text without a quote in it or a number in brackets. -/
inductive Chain : Nat → Node → Prop
  /-- A name starts a chain. -/
  | name (t : String) (place : Place) (parts : List Node) : Chain 0 ⟨.name t, place, parts⟩
  /-- The current object starts a chain. -/
  | this (place : Place) (parts : List Node) : Chain 0 ⟨.this, place, parts⟩
  /-- An access behind a point. -/
  | word {steps : Nat} {object : Node} (hobject : Chain steps object) (t : String)
      (place p : Place) (parts : List Node) :
      Chain (steps + 1) ⟨.member, place, [object, ⟨.word t, p, parts⟩]⟩
  /-- An access with a text in brackets. -/
  | text {steps : Nat} {object : Node} (hobject : Chain steps object) {v : String}
      (hquote : '\x22' ∉ v.toList) (place p q : Place) (parts : List Node) :
      Chain (steps + 1) ⟨.member, place, [object, ⟨.computed, p, [⟨.string v, q, parts⟩]⟩]⟩
  /-- An access with a number in brackets. -/
  | number {steps : Nat} {object : Node} (hobject : Chain steps object) (v : Binary64)
      (place p q : Place) (parts : List Node) :
      Chain (steps + 1) ⟨.member, place, [object, ⟨.computed, p, [⟨.number v, q, parts⟩]⟩]⟩

/-- A text without a quote in it is quoted as it is. -/
theorem quotedSummary_of_notMem {v : String} (h : '\x22' ∉ v.toList) :
    quotedSummary v = "\"" ++ v ++ "\"" := by
  have hsame : (v.toList.flatMap fun c => if c = '\x22' then ['\\', c] else [c]) = v.toList := by
    refine (List.flatMap_congr fun c hc => ?_).trans (List.flatMap_singleton' v.toList)
    rw [if_neg]
    rintro rfl
    exact h hc
  rw [quotedSummary, hsame, String.ofList_toList]

namespace Chain

variable {steps : Nat} {e : Node}

/-- **The path of a chain is its summary** with room for more levels than the chain has accesses. -/
theorem path?_eq_summaryWithin (h : Chain steps e) {room : Nat} (hroom : steps < room) :
    path? e = some (summaryWithin room e) := by
  induction h generalizing room with
  | name t | this =>
    obtain ⟨room, rfl⟩ := Nat.exists_eq_add_of_lt hroom
    rfl
  | @word steps object _ t place p parts ih =>
    obtain ⟨room, rfl⟩ := Nat.exists_eq_succ_of_ne_zero (Nat.ne_zero_of_lt hroom)
    have hobject := ih (Nat.lt_of_succ_lt_succ hroom)
    have hpath : path? ⟨.member, place, [object, ⟨.word t, p, parts⟩]⟩ =
        some (summaryWithin room object ++ ("." ++ t)) := path?_of_member rfl hobject rfl
    rw [hpath, ← String.append_assoc]
    rfl
  | @text steps object _ v hquote place p q parts ih =>
    obtain ⟨room, rfl⟩ := Nat.exists_eq_succ_of_ne_zero (Nat.ne_zero_of_lt hroom)
    -- The key takes a level as well, and there is one, since the object takes some.
    obtain ⟨rest, rfl⟩ :=
      Nat.exists_eq_succ_of_ne_zero (Nat.ne_zero_of_lt (Nat.lt_of_succ_lt_succ hroom))
    have hobject := ih (Nat.lt_of_succ_lt_succ hroom)
    have hpath : path? ⟨.member, place, [object, ⟨.computed, p, [⟨.string v, q, parts⟩]⟩]⟩ =
        some (summaryWithin (rest + 1) object ++ ("[\"" ++ v ++ "\"]")) :=
      path?_of_member rfl hobject rfl
    change _ = some (summaryWithin (rest + 1) object ++ "[" ++ quotedSummary v ++ "]")
    rw [hpath, quotedSummary_of_notMem hquote]
    simp only [String.append_assoc]
    rfl
  | @number steps object _ v place p q parts ih =>
    obtain ⟨room, rfl⟩ := Nat.exists_eq_succ_of_ne_zero (Nat.ne_zero_of_lt hroom)
    obtain ⟨rest, rfl⟩ :=
      Nat.exists_eq_succ_of_ne_zero (Nat.ne_zero_of_lt (Nat.lt_of_succ_lt_succ hroom))
    have hobject := ih (Nat.lt_of_succ_lt_succ hroom)
    have hpath : path? ⟨.member, place, [object, ⟨.computed, p, [⟨.number v, q, parts⟩]⟩]⟩ =
        some (summaryWithin (rest + 1) object ++ ("[" ++ v.positional ++ "]")) :=
      path?_of_member rfl hobject rfl
    change _ = some (summaryWithin (rest + 1) object ++ "[" ++ v.positional ++ "]")
    rw [hpath]
    simp only [String.append_assoc]

/-- No wrapper stands around a chain. -/
theorem unwrap_eq (h : Chain steps e) : e.unwrap = e := by cases h <;> rfl

/-- A chain gives no fixed text. -/
theorem plainText?_eq_none (h : Chain steps e) : plainText? e = none := by cases h <;> rfl

/-- There is something in the braces around a chain. -/
theorem form_ne_absent (h : Chain steps e) : e.form ≠ .absent := by cases h <;> simp

/-- A child that is an expression with a path and without a fixed text gives its summary as the one
piece of the text, and nothing is left out. -/
theorem collectText_eq (h : Chain steps e) (hroom : steps < summaryDepth) (overrides : Overrides)
    (target : String) (place : Place) :
    collectText overrides target ⟨.container, place, [e]⟩ =
      return .piece (.computed (summary e)) := by
  rw [collectText_container, if_neg h.form_ne_absent, expressionText, h.plainText?_eq_none,
    h.path?_eq_summaryWithin hroom, h.unwrap_eq]

/-- **The path and the summary of a chain of at most six accesses are one text.** It is what a child
of a text widget prints, with nothing left out, and what is recorded of the chain elsewhere. -/
theorem path?_eq_summary (h : Chain steps e) (hsteps : steps ≤ 6) :
    path? e = some (summary e) ∧ Hook.pathOrSummary e = summary e ∧
      ∀ (path : String), path? e = some path → ∀ (overrides : Overrides) (target : String)
        (place : Place), collectText overrides target ⟨.container, place, [e]⟩ =
          return .piece (.computed path) := by
  have hroom : steps < summaryDepth := Nat.lt_succ_of_le hsteps
  have hpath : path? e = some (summary e) := h.path?_eq_summaryWithin hroom
  refine ⟨hpath, ?_, ?_⟩
  · rw [Hook.pathOrSummary, hpath]
    rfl
  · intro path hsome overrides target place
    obtain rfl : summary e = path := Option.some.inj (hpath.symm.trans hsome)
    exact h.collectText_eq hroom overrides target place

/-- `this.props.items["first.name"][1].a.b`. -/
def sixAccesses : Node :=
  let object := .mk .member 1 [.leaf .this 1, .leaf (.word "props") 6]
  let items := .mk .member 1 [object, .leaf (.word "items") 12]
  let first := .mk .member 1 [items, ⟨.computed, 17, [.leaf (.string "first.name") 18]⟩]
  let second := .mk .member 1 [first, ⟨.computed, 31, [.leaf (.number (.finite 1 0)) 32]⟩]
  ⟨.member, 1, [⟨.member, 1, [second, .leaf (.word "a") 35]⟩, .leaf (.word "b") 37]⟩

theorem path?_eq_summary_sixAccesses :
    Chain 6 sixAccesses ∧ path? sixAccesses = some (summary sixAccesses) ∧
      summary sixAccesses = "this.props.items[\"first.name\"][1].a.b" := by
  have hchain : Chain 6 sixAccesses :=
    .word (.word (.number (.text (.word (.word (.this _ _) _ _ _ _) _ _ _ _) (by decide) _ _ _ _)
      _ _ _ _ _) _ _ _ _) _ _ _ _
  exact ⟨hchain, (hchain.path?_eq_summary (by decide)).1, by decide⟩

-- One access more, and the name that the chain starts with is left out of the summary.
example :
    summary ⟨.member, 1, [sixAccesses, .leaf (.word "c") 39]⟩ =
      "….props.items[\"first.name\"][1].a.b.c" := by decide

end Chain

end JsxWidgets.Expression
