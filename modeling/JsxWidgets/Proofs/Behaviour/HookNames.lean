import Mathlib.Data.List.TakeWhile
import JsxWidgets.Hook.Calls
import JsxWidgets.Proofs.Expression.Faithful
import JsxWidgets.Proofs.Expression.Paths
import JsxWidgets.Proofs.Text.CamelCase

/-!
# The name that makes a call a call of a hook

A call is one of a hook if the last name of the path of what it calls is the name of a hook. The
path is a text, in which keys stand as they are, and its last name is what stands behind its last
point, wherever that point comes from.

What stands in brackets does no harm. A path that ends in a key ends in a bracket, which no name of
a hook has in it (`Naming.isWordChar_of_isHook`), and in front of a last word only the point counts
(`lastName_append_word`). So a call is detected exactly if the last name *of the word or variable*
that it is called by is the name of a hook (`isDetected_iff`), and keys may be changed at will
(`Rekeyed.isDetected_iff`).

That word is its own last name unless a point is in it. An identifier that is written with an escape
can have one, and then a call of something that is no hook may be detected.
`isDetected_iff_callsHook` says exactly when.
-/

namespace JsxWidgets

open Syntax Expression

/-! ### Last segments -/

namespace Text

variable {sep : Char → Bool} {c : Char}

/-- What is in front of a separator does not matter for the last segment. -/
theorem lastSegment_append_separator (hc : sep c = true) (front t : String) :
    lastSegment sep (front ++ (String.singleton c ++ t)) = lastSegment sep t := by
  have hreverse : (front ++ (String.singleton c ++ t)).toList.reverse =
      t.toList.reverse ++ c :: front.toList.reverse := by simp [String.toList_append]
  rw [lastSegment, lastSegment, hreverse, List.takeWhile_append]
  split
  next hall =>
    have hwhole := (List.takeWhile_prefix _).eq_of_length hall
    rw [List.takeWhile_cons_of_neg (by simp [hc]), List.append_nil, hwhole]
  next => rfl

/-- A text without separators is its last segment. -/
theorem lastSegment_of_forall {t : String} (h : ∀ c ∈ t.toList, sep c = false) :
    lastSegment sep t = t := by
  have hall : t.toList.reverse.takeWhile (fun c => !sep c) = t.toList.reverse :=
    List.takeWhile_eq_self_iff.mpr fun c hc => by simp [h c (List.mem_reverse.mp hc)]
  rw [lastSegment, hall, List.reverse_reverse, String.ofList_toList]

/-- A last character that is no separator is in the last segment. -/
theorem mem_lastSegment_append_singleton (hc : sep c = false) (front : String) :
    c ∈ (lastSegment sep (front ++ String.singleton c)).toList := by
  have hreverse : (front ++ String.singleton c).toList.reverse = c :: front.toList.reverse := by
    simp
  rw [lastSegment, hreverse, List.takeWhile_cons_of_pos (by simp [hc]), String.toList_ofList]
  simp

end Text

/-- The name of a hook has only characters of ASCII names in it. -/
theorem Naming.isWordChar_of_isHook {name : String} (h : isHook name = true) {c : Char}
    (hc : c ∈ name.toList) : isWordChar c = true := by
  obtain ⟨_, rfl, first, rest, rfl, hcapital, hrest⟩ := isCamelAfter_iff.mp h
  rw [String.toList_append, List.mem_append] at hc
  rcases hc with huse | htail
  · have hword : "use".toList.all isWordChar = true := by decide
    exact List.all_eq_true.mp hword c huse
  rw [String.toList_ofList, List.mem_cons] at htail
  rcases htail with rfl | hlater
  · -- Only capitals may stand behind the word.
    have hupper : Text.isAsciiAlphanumeric c = true := by
      simp [Text.isAsciiAlphanumeric, Text.isAsciiLetter, hcapital.1, hcapital.2]
    simp [isWordChar, hupper]
  · exact hrest c hlater

namespace HookCall

/-! ### What an expression is called by -/

/-- **The name that an expression is called by**, parentheses and types aside: that of a variable,
or the word behind the point of an access to something that has a path. -/
inductive EndsIn (e : Node) (t : String) : Prop where
  /-- A variable. -/
  | variable (h : e.unwrap.form = .name t)
  /-- An access. -/
  | member {place p : Place} {object : Node} {parts : List Node}
      (h : e.unwrap = ⟨.member, place, [object, ⟨.word t, p, parts⟩]⟩)
      (hobject : (path? object).isSome = true)

theorem EndsIn.unique {e : Node} {t t' : String} (h : EndsIn e t) (h' : EndsIn e t') : t = t' := by
  rcases h with h | ⟨h, -⟩ <;> rcases h' with h' | ⟨h', -⟩
  · cases h.symm.trans h'
    rfl
  · rw [h'] at h
    cases h
  · rw [h] at h'
    cases h'
  · cases h.symm.trans h'
    rfl

/-- What is called by a name has a path. -/
theorem EndsIn.isSome_path? {e : Node} {t : String} (h : EndsIn e t) :
    (path? e).isSome = true := by
  rcases h with h | ⟨h, hobject⟩
  · rw [path?_of_name h]
    rfl
  · obtain ⟨front, hfront⟩ := Option.isSome_iff_exists.mp hobject
    rw [path?_of_member h hfront rfl]
    rfl

/-- Only the last word of a path decides its last name. -/
theorem lastName_append_word (front t : String) :
    lastName (front ++ ("." ++ t)) = lastName t := by
  have hpoint : "." = String.singleton '.' := rfl
  rw [hpoint]
  exact Text.lastSegment_append_separator (by decide) front t

/-- A path that ends in a bracket has the bracket in its last name. -/
theorem bracket_mem_lastName (front : String) : ']' ∈ (lastName (front ++ "]")).toList := by
  have hbracket : "]" = String.singleton ']' := rfl
  rw [hbracket]
  exact Text.mem_lastSegment_append_singleton (by decide) front

/-- **A path names a hook** exactly if what the expression is called by does. -/
theorem isHook_lastName_iff {e : Node} {path : String} (h : path? e = some path) :
    Naming.isHook (lastName path) = true ↔
      ∃ t, EndsIn e t ∧ Naming.isHook (lastName t) = true := by
  rcases path?_cases h with hname | ⟨hthis, rfl⟩ |
    ⟨place, object, selector, front, step, he, hfront, hstep, rfl⟩
  · refine ⟨fun hhook => ⟨path, .variable hname, hhook⟩, fun ⟨t, ht, hhook⟩ => ?_⟩
    rwa [(EndsIn.variable hname).unique ht]
  · -- The current object is no hook, and is not called by a name.
    refine ⟨fun hhook => absurd hhook (by decide), ?_⟩
    rintro ⟨t, ht | ⟨ht, -⟩, -⟩ <;> rw [ht] at hthis <;> cases hthis
  · rcases selectorText?_cases hstep with ⟨t, p, parts, rfl, rfl⟩ | ⟨hcomputed, inside, rfl⟩
    · have hends : EndsIn e t := .member he (by rw [hfront]; rfl)
      rw [lastName_append_word]
      refine ⟨fun hhook => ⟨t, hends, hhook⟩, fun ⟨t', ht', hhook⟩ => ?_⟩
      rwa [hends.unique ht']
    · constructor
      · -- No name of a hook has a bracket in it.
        intro hhook
        rw [← String.append_assoc] at hhook
        have hbracket := Naming.isWordChar_of_isHook hhook (bracket_mem_lastName _)
        exact absurd hbracket (by decide)
      · rintro ⟨t, ht | ⟨ht, -⟩, -⟩ <;> rw [he] at ht <;> cases ht
        cases hcomputed

/-! ### Detected calls -/

/-- A call that is taken for one of a hook. -/
def IsDetected (call : Node) : Prop :=
  ∃ name, calleeName? call = some name ∧ Naming.isHook name = true

/-- The name that a call calls something by. -/
def IsCalledBy (call : Node) (t : String) : Prop :=
  ∃ place callee rest, call = ⟨.call, place, callee :: rest⟩ ∧ EndsIn callee t

/-- **Calls of hooks**: of a variable that is called like a hook, or of such a member of something
that has a path. -/
def CallsHook (call : Node) : Prop := ∃ t, IsCalledBy call t ∧ Naming.isHook t = true

theorem IsCalledBy.unique {call : Node} {t t' : String} (h : IsCalledBy call t)
    (h' : IsCalledBy call t') : t = t' := by
  obtain ⟨place, callee, rest, rfl, hends⟩ := h
  obtain ⟨_, _, _, hcall, hends'⟩ := h'
  cases hcall
  exact hends.unique hends'

/-- **A call is detected** exactly if the last name of what it is called by is that of a hook. -/
theorem isDetected_iff {call : Node} :
    IsDetected call ↔ ∃ t, IsCalledBy call t ∧ Naming.isHook (lastName t) = true := by
  constructor
  · rintro ⟨name, hname, hhook⟩
    obtain ⟨path, hpath, rfl⟩ := Option.map_eq_some_iff.mp hname
    obtain ⟨place, callee, rest, rfl, hcallee⟩ := calleePath?_eq_some_iff.mp hpath
    obtain ⟨t, hends, ht⟩ := (isHook_lastName_iff hcallee).mp hhook
    exact ⟨t, ⟨place, callee, rest, rfl, hends⟩, ht⟩
  · rintro ⟨t, ⟨place, callee, rest, rfl, hends⟩, ht⟩
    obtain ⟨path, hpath⟩ := Option.isSome_iff_exists.mp hends.isSome_path?
    refine ⟨lastName path, ?_, (isHook_lastName_iff hpath).mpr ⟨t, hends, ht⟩⟩
    rw [calleeName?, calleePath?, hpath]
    rfl

/-! ### Changing keys -/

/-- A key in brackets that a path shows. -/
def IsFixedKey (key : Node) : Prop :=
  (∃ v, key.unwrap.form = .string v) ∨ ∃ v, key.unwrap.form = .number v

theorem IsFixedKey.isSome_selectorText? {key : Node} (h : IsFixedKey key) (place : Place) :
    (selectorText? ⟨.computed, place, [key]⟩).isSome = true := by
  rcases h with ⟨v, hv⟩ | ⟨v, hv⟩ <;> simp [selectorText?, hv]

/-- **Expressions that differ in keys only**: in the texts and numbers in brackets, at any depth. -/
inductive Rekeyed : Node → Node → Prop where
  /-- Nothing is changed. -/
  | refl (e : Node) : Rekeyed e e
  /-- Something is changed in parentheses, or in front of a type. -/
  | wrapped {n n' e e' : Node} (hn : n.inside? = some e) (hn' : n'.inside? = some e')
      (h : Rekeyed e e') : Rekeyed n n'
  /-- Something is changed in the object of an access. -/
  | object {o o' : Node} (h : Rekeyed o o') (place place' : Place) (selector : Node) :
      Rekeyed ⟨.member, place, [o, selector]⟩ ⟨.member, place', [o', selector]⟩
  /-- The key is changed. -/
  | key {o o' k k' : Node} (h : Rekeyed o o') (hk : IsFixedKey k) (hk' : IsFixedKey k')
      (place place' p p' : Place) :
      Rekeyed ⟨.member, place, [o, ⟨.computed, p, [k]⟩]⟩
        ⟨.member, place', [o', ⟨.computed, p', [k']⟩]⟩

namespace Rekeyed

variable {e e' : Node}

theorem isSome_path?_member (place : Place) (o selector : Node) :
    (path? ⟨.member, place, [o, selector]⟩).isSome =
      ((path? o).isSome && (selectorText? selector).isSome) := by
  rw [path?]
  cases path? o <;> cases selectorText? selector <;> rfl

/-- With other keys there is a path if there was one. -/
theorem isSome_path? (h : Rekeyed e e') : (path? e).isSome = (path? e').isSome := by
  induction h with
  | refl => rfl
  | wrapped hn hn' _ ih => rw [seesThrough_path? _ _ hn, seesThrough_path? _ _ hn', ih]
  | object _ _ _ _ ih => rw [isSome_path?_member, isSome_path?_member, ih]
  | key _ hk hk' _ _ p p' ih =>
    rw [isSome_path?_member, isSome_path?_member, ih, hk.isSome_selectorText? p,
      hk'.isSome_selectorText? p']

theorem symm (h : Rekeyed e e') : Rekeyed e' e := by
  induction h with
  | refl e => exact .refl e
  | wrapped hn hn' _ ih => exact .wrapped hn' hn ih
  | object _ place place' selector ih => exact .object ih place' place selector
  | key _ hk hk' place place' p p' ih => exact .key ih hk' hk place' place p' p

theorem endsIn (h : Rekeyed e e') {t : String} (ht : EndsIn e t) : EndsIn e' t := by
  induction h with
  | refl => exact ht
  | wrapped hn hn' _ ih =>
    have hinside := ih (by
      rcases ht with ht | ⟨ht, hobject⟩
      · exact .variable (by rw [← Node.seesThrough_unwrap _ _ hn, ht])
      · exact .member (by rw [← Node.seesThrough_unwrap _ _ hn, ht]) hobject)
    rcases hinside with hinside | ⟨hinside, hobject⟩
    · exact .variable (by rw [Node.seesThrough_unwrap _ _ hn', hinside])
    · exact .member (by rw [Node.seesThrough_unwrap _ _ hn', hinside]) hobject
  | object h _ _ selector =>
    rcases ht with ht | ⟨ht, hobject⟩ <;> cases ht
    exact .member rfl (h.isSome_path? ▸ hobject)
  | key => rcases ht with ht | ⟨ht, -⟩ <;> cases ht

/-- **Keys do not matter**: neither do they make a call one of a hook, nor do they hide one. -/
theorem isDetected_iff (h : Rekeyed e e') (place place' : Place) (rest rest' : List Node) :
    IsDetected ⟨.call, place, e :: rest⟩ ↔ IsDetected ⟨.call, place', e' :: rest'⟩ := by
  have himp : ∀ {f f' : Node} (p p' : Place) (as as' : List Node), Rekeyed f f' →
      IsDetected ⟨.call, p, f :: as⟩ → IsDetected ⟨.call, p', f' :: as'⟩ := by
    intro f f' p p' as as' hf hdetected
    obtain ⟨t, ⟨_, _, _, hcall, hends⟩, ht⟩ := HookCall.isDetected_iff.mp hdetected
    cases hcall
    exact HookCall.isDetected_iff.mpr ⟨t, ⟨p', f', as', rfl, hf.endsIn hends⟩, ht⟩
  exact ⟨himp place place' rest rest' h, himp place' place rest' rest h.symm⟩

end Rekeyed

/-! ### Detected calls and calls of hooks -/

/-- A name without a point is its own last name. -/
theorem lastName_of_notMem {t : String} (h : '.' ∉ t.toList) : lastName t = t := by
  refine Text.lastSegment_of_forall fun c hc => decide_eq_false ?_
  rintro rfl
  exact h hc

/-- There is no point in the name of a hook. -/
theorem notMem_of_isHook {t : String} (h : Naming.isHook t = true) : '.' ∉ t.toList :=
  fun hpoint => absurd (Naming.isWordChar_of_isHook h hpoint) (by decide)

/-- **Detected calls are calls of hooks**, and calls of hooks are detected, exactly as far as no
name with a point in it that a call is called by has the name of a hook as its last name. What
stands in brackets never changes whether a call is detected. -/
theorem isDetected_iff_callsHook (call : Node) :
    ((IsDetected call ↔ CallsHook call) ↔
      ∀ t, IsCalledBy call t → '.' ∈ t.toList → Naming.isHook (lastName t) = false) ∧
    ∀ e e' : Node, Rekeyed e e' → ∀ (place place' : Place) (rest rest' : List Node),
      IsDetected ⟨.call, place, e :: rest⟩ ↔ IsDetected ⟨.call, place', e' :: rest'⟩ := by
  refine ⟨?_, fun e e' h => h.isDetected_iff⟩
  rw [isDetected_iff]
  constructor
  · -- A detected name with a point is not the name of a hook itself.
    intro hexact t hcalled hpoint
    by_contra hhook
    obtain ⟨t', hcalled', ht'⟩ := hexact.mp ⟨t, hcalled, by simpa using hhook⟩
    rw [hcalled'.unique hcalled] at ht'
    exact notMem_of_isHook ht' hpoint
  · intro hpointed
    constructor
    · rintro ⟨t, hcalled, ht⟩
      have hpoint : '.' ∉ t.toList := fun hpoint => by simp [hpointed t hcalled hpoint] at ht
      exact ⟨t, hcalled, lastName_of_notMem hpoint ▸ ht⟩
    · rintro ⟨t, hcalled, ht⟩
      exact ⟨t, hcalled, by rwa [lastName_of_notMem (notMem_of_isHook ht)]⟩

/-- A call of a variable with a point in its name. -/
def pointedCall : Node :=
  ⟨.call, 1, [.leaf (.name "a.useState") 1, .list [], .list []]⟩

/-- It is read where the point is written as an escape, and is detected although it calls no
hook. -/
theorem isDetected_pointedCall :
    (∃ s', (grammar 12).assignment (startOf "a\\u002euseState()") = .ok pointedCall s') ∧
      IsProduced pointedCall ∧ IsDetected pointedCall ∧ ¬CallsHook pointedCall := by
  have hread : ∃ s', (grammar 12).assignment (startOf "a\\u002euseState()") = .ok pointedCall s' :=
    ⟨_, rfl⟩
  refine ⟨hread, .assignment hread.choose_spec, ⟨"useState", by decide, by decide⟩, ?_⟩
  rintro ⟨t, hcalled, ht⟩
  have hname : IsCalledBy pointedCall "a.useState" := ⟨1, _, _, rfl, .variable rfl⟩
  rw [hcalled.unique hname] at ht
  exact absurd ht (by decide)

end HookCall

end JsxWidgets
