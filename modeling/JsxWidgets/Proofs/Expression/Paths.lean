import Mathlib.Data.List.Basic
import JsxWidgets.Proofs.Expression.Wrappers
import JsxWidgets.Proofs.Text.Parts

/-!
# What a path says about an expression

The path of an expression is a text, and calls are told apart by the texts of what they call. A text
says which expression it stands for as far as names are spelled like names, without a point or a
bracket: a path that is such a name is a variable (`path?_eq_bareName_iff`), and one of two names
with a point between them is a member (`path?_eq_member_iff`). The one exception is the current
object, whose path is a word that no variable may have as its name.
-/

namespace JsxWidgets

namespace Expression

open Syntax

/-- What a selector adds to a path is a word behind a point, or something in brackets. -/
theorem selectorText?_cases {selector : Node} {step : String}
    (h : selectorText? selector = some step) :
    (∃ t place parts, selector = ⟨.word t, place, parts⟩ ∧ step = "." ++ t) ∨
      selector.form = .computed ∧ ∃ inside, step = "[" ++ inside ++ "]" := by
  unfold selectorText? at h
  split at h
  next t place parts =>
    cases h
    exact Or.inl ⟨t, place, parts, rfl, rfl⟩
  next place key =>
    split at h
    next v _ =>
      cases h
      refine Or.inr ⟨rfl, "\"" ++ v ++ "\"", ?_⟩
      simp only [String.append_assoc]
      rfl
    next =>
      cases h
      exact Or.inr ⟨rfl, _, rfl⟩
    next => cases h
  next => cases h

/-- So it starts with a point or a bracket. -/
theorem selectorText?_eq_some {selector : Node} {step : String}
    (h : selectorText? selector = some step) :
    (∃ t, selector.form = .word t ∧ step.toList = '.' :: t.toList)
      ∨ ∃ rest, step.toList = '[' :: rest := by
  rcases selectorText?_cases h with ⟨t, _, _, rfl, rfl⟩ | ⟨-, inside, rfl⟩
  · exact Or.inl ⟨t, rfl, by rw [String.toList_append]; rfl⟩
  · exact Or.inr ⟨_, by rw [String.toList_append, String.toList_append]; rfl⟩

/-- **The expressions that have a path**: names, the current object, and members of these. -/
theorem path?_cases {e : Node} {path : String} (h : path? e = some path) :
    e.unwrap.form = .name path ∨ (e.unwrap.form = .this ∧ path = "this") ∨
      ∃ place object selector front step, e.unwrap = ⟨.member, place, [object, selector]⟩ ∧
        path? object = some front ∧ selectorText? selector = some step ∧ path = front ++ step := by
  revert h
  fun_induction Node.unwrap e with
  -- A path sees through the wrappers that unwrapping takes away.
  | case1 _ _ ih | case2 _ _ _ ih | case3 _ _ ih | case4 _ _ _ ih | case5 _ _ ih =>
    rw [path?]
    exact ih
  -- Without a wrapper only three forms have a path.
  | case6 n hparen hasType hasConst hsatisfies hnonNull =>
    intro h
    obtain ⟨form, place, parts⟩ := n
    rw [path?.eq_def] at h
    dsimp only at h
    split at h
    next => exact (hparen _ _ rfl).elim
    next => exact (hasType _ _ _ rfl).elim
    next => exact (hasConst _ _ rfl).elim
    next => exact (hsatisfies _ _ _ rfl).elim
    next => exact (hnonNull _ _ rfl).elim
    next =>
      cases h
      exact Or.inl rfl
    next =>
      cases h
      exact Or.inr (Or.inl ⟨rfl, rfl⟩)
    next object selector =>
      split at h
      next front step hfront hstep =>
        cases h
        exact Or.inr (Or.inr ⟨place, object, selector, front, step, rfl, hfront, hstep, rfl⟩)
      next => cases h
    next => cases h

theorem path?_of_name {e : Node} {name : String} (h : e.unwrap.form = .name name) :
    path? e = some name := by
  rw [← path?_unwrap]
  generalize e.unwrap = n at h
  obtain ⟨form, place, parts⟩ := n
  subst h
  rw [path?.eq_def]

theorem path?_of_this {e : Node} (h : e.unwrap.form = .this) : path? e = some "this" := by
  rw [← path?_unwrap]
  generalize e.unwrap = n at h
  obtain ⟨form, place, parts⟩ := n
  subst h
  rw [path?.eq_def]

theorem path?_of_member {e object selector : Node} {place : Place} {front step : String}
    (h : e.unwrap = ⟨.member, place, [object, selector]⟩) (hfront : path? object = some front)
    (hstep : selectorText? selector = some step) : path? e = some (front ++ step) := by
  rw [← path?_unwrap, h, path?.eq_def]
  simp only [hfront, hstep]

/-! ### Bare names -/

/-- A text that is spelled like a name. -/
def IsBareName (text : String) : Prop := '.' ∉ text.toList ∧ '[' ∉ text.toList

instance (text : String) : Decidable (IsBareName text) := inferInstanceAs (Decidable (_ ∧ _))

/-- A path with a step in it is no bare name. -/
theorem not_isBareName_of_member {front step : String} {selector : Node}
    (h : selectorText? selector = some step) : ¬ IsBareName (front ++ step) := by
  rintro ⟨hpoint, hbracket⟩
  rw [String.toList_append] at hpoint hbracket
  rcases selectorText?_eq_some h with ⟨t, -, hstep⟩ | ⟨rest, hstep⟩
  · exact hpoint (by simp [hstep])
  · exact hbracket (by simp [hstep])

/-- **A path that is a name is that of a variable.** -/
theorem path?_eq_bareName_iff {e : Node} {name : String} (hname : IsBareName name)
    (hthis : name ≠ "this") : path? e = some name ↔ e.unwrap.form = .name name := by
  refine ⟨fun h => ?_, path?_of_name⟩
  rcases path?_cases h with hform | ⟨-, rfl⟩ | ⟨_, _, _, front, step, -, -, hstep, rfl⟩
  · exact hform
  · exact absurd rfl hthis
  · exact absurd hname (not_isBareName_of_member hstep)

/-- The path of the current object is that of nothing else, unless a variable has it as its name. -/
theorem path?_eq_this_iff {e : Node} :
    path? e = some "this" ↔ e.unwrap.form = .this ∨ e.unwrap.form = .name "this" := by
  constructor
  · intro h
    have hbare : IsBareName "this" := by decide
    rcases path?_cases h with hform | ⟨hform, -⟩ | ⟨_, _, _, front, step, -, -, hstep, hpath⟩
    · exact Or.inr hform
    · exact Or.inl hform
    · rw [hpath] at hbare
      exact absurd hbare (not_isBareName_of_member hstep)
  · rintro (h | h)
    · exact path?_of_this h
    · exact path?_of_name h

/-- **A path of two names is that of a member**, unless a variable has it as its name. -/
theorem path?_eq_member_iff {e : Node} {front word : String} (hfront : IsBareName front)
    (hword : IsBareName word) :
    path? e = some (front ++ ("." ++ word)) ↔
      (∃ place object p parts, e.unwrap = ⟨.member, place, [object, ⟨.word word, p, parts⟩]⟩ ∧
        path? object = some front) ∨ e.unwrap.form = .name (front ++ ("." ++ word)) := by
  constructor
  · intro h
    rcases path?_cases h with hform | ⟨-, hthis⟩ |
      ⟨place, object, selector, front', step, he, hobject, hstep, hpath⟩
    · exact Or.inr hform
    · have hpoint : '.' ∈ (front ++ ("." ++ word)).toList := by simp [String.toList_append]
      rw [hthis] at hpoint
      exact absurd hpoint (by decide)
    · refine Or.inl ?_
      -- Both texts have one point or bracket that is not in either name.
      have hlists : front'.toList ++ step.toList = front.toList ++ '.' :: word.toList := by
        rw [← String.toList_append, ← hpath, String.toList_append, String.toList_append]
        rfl
      rcases selectorText?_eq_some hstep with ⟨t, ht, hpoint⟩ | ⟨rest, hbracket⟩
      · rw [hpoint] at hlists
        obtain ⟨hfronts, -, hwords⟩ :=
          (List.append_cons_inj_of_notMem hfront.1 hword.1).mp hlists.symm
        obtain ⟨form, p, parts⟩ := selector
        obtain rfl : form = .word t := ht
        obtain rfl := String.toList_inj.mp hwords
        obtain rfl := String.toList_inj.mp hfronts
        exact ⟨place, object, p, parts, he, hobject⟩
      · rw [hbracket] at hlists
        obtain ⟨-, hne, -⟩ := (List.append_cons_inj_of_notMem hfront.2 hword.2).mp hlists.symm
        exact absurd hne (by decide)
  · rintro (⟨place, object, p, parts, he, hobject⟩ | h)
    · exact path?_of_member he hobject rfl
    · exact path?_of_name h

/-- What a call calls has a path. -/
theorem calleePath?_eq_some_iff {n : Node} {path : String} :
    calleePath? n = some path ↔
      ∃ place callee rest, n = ⟨.call, place, callee :: rest⟩ ∧ path? callee = some path := by
  constructor
  · intro h
    unfold calleePath? at h
    split at h
    next place callee rest => exact ⟨place, callee, rest, rfl, h⟩
    next => cases h
  · rintro ⟨place, callee, rest, rfl, h⟩
    exact h

end Expression

end JsxWidgets
