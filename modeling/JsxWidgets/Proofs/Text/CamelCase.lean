import JsxWidgets.Naming
import JsxWidgets.Proofs.Text.Parts

/-!
# Names in camel case

In a name of several words each word but the first starts with a capital. So a word that is put in
front of a name makes the first letter of the name a capital, and the letter is small again when the
word is taken off. Nothing is lost on either way if the name is one of ASCII letters and signs
(`Naming.IsVariable`, `Naming.IsCapitalized`): there the two cases of a letter stand for each other
(`Text.exists_upperCase`, `Text.exists_lowerCase`), while other letters may become several.

A name that is recognised by the word in front of it is this word and a capitalised name
(`Naming.isCamelAfter_iff`).
-/

namespace JsxWidgets

namespace Text

/-! ### Letters -/

/-- A capital of ASCII. -/
def IsCapital (c : Char) : Prop := 'A' ≤ c ∧ c ≤ 'Z'

/-- A small letter of ASCII. -/
def IsSmall (c : Char) : Prop := 'a' ≤ c ∧ c ≤ 'z'

instance (c : Char) : Decidable (IsCapital c) := inferInstanceAs (Decidable (_ ∧ _))

instance (c : Char) : Decidable (IsSmall c) := inferInstanceAs (Decidable (_ ∧ _))

theorem isCapital_iff {c : Char} : IsCapital c ↔ 65 ≤ c.toNat ∧ c.toNat ≤ 90 := Iff.rfl

theorem isSmall_iff {c : Char} : IsSmall c ↔ 97 ≤ c.toNat ∧ c.toNat ≤ 122 := Iff.rfl

/-- A character of the first run is shifted as the run says, unless it has an expansion. -/
theorem mapCase_of_covers {run : CaseRun} {runs : List CaseRun} {expansions : List (Nat × List Nat)}
    {c : Char} (hcovers : run.covers c.toNat = true)
    (hexpansions : ∀ e ∈ expansions, e.1 ≠ c.toNat) :
    mapCase (run :: runs) expansions c = [Char.ofNat (c.toNat + run.shift).toNat] := by
  have hnone : expansions.find? (·.1 = c.toNat) = none := by
    rw [List.find?_eq_none]
    exact fun e he h => hexpansions e he (of_decide_eq_true h)
  have hrun : (run :: runs).find? (·.covers c.toNat) = some run := List.find?_cons_of_pos hcovers
  rw [mapCase, hnone, hrun]

theorem upperCase_of_isSmall {c : Char} (h : IsSmall c) :
    upperCase c = [Char.ofNat (c.toNat - 32)] := by
  obtain ⟨hfirst, hlast⟩ := isSmall_iff.mp h
  -- The letters of ASCII are the first run of the table, and none of them has an expansion.
  have hruns : upperRuns = ⟨0x61, 0x7A, 1, -32⟩ :: upperRuns.tail := rfl
  have hlarge : ∀ e ∈ upperExpansions, 0x80 ≤ e.1 := by decide
  rw [upperCase, hruns, mapCase_of_covers]
  · congr 2
    dsimp only
    omega
  · simp [CaseRun.covers, hfirst, hlast, Nat.mod_one]
  · intro e he heq
    have hcode : 0x80 ≤ e.1 := hlarge e he
    omega

theorem lowerCase_of_isCapital {c : Char} (h : IsCapital c) :
    lowerCase c = [Char.ofNat (c.toNat + 32)] := by
  obtain ⟨hfirst, hlast⟩ := isCapital_iff.mp h
  have hruns : lowerRuns = ⟨0x41, 0x5A, 1, 32⟩ :: lowerRuns.tail := rfl
  have hlarge : ∀ e ∈ lowerExpansions, 0x80 ≤ e.1 := by decide
  rw [lowerCase, hruns, mapCase_of_covers]
  · congr 2
  · simp [CaseRun.covers, hfirst, hlast, Nat.mod_one]
  · intro e he heq
    have hcode : 0x80 ≤ e.1 := hlarge e he
    omega

theorem toNat_ofNat_of_lt {n : Nat} (h : n < 0x80) : (Char.ofNat n).toNat = n := by
  have hvalid : n.isValidChar := Or.inl (by omega)
  rw [Char.ofNat, dif_pos hvalid]
  rfl

/-- **A small letter has a capital**, of which it is the small letter. -/
theorem exists_upperCase {c : Char} (h : IsSmall c) :
    ∃ d, upperCase c = [d] ∧ lowerCase d = [c] ∧ IsCapital d := by
  have hcode := isSmall_iff.mp h
  have hnumber : (Char.ofNat (c.toNat - 32)).toNat = c.toNat - 32 := toNat_ofNat_of_lt (by omega)
  have hcapital : IsCapital (Char.ofNat (c.toNat - 32)) := by
    rw [isCapital_iff]
    omega
  refine ⟨_, upperCase_of_isSmall h, ?_, hcapital⟩
  rw [lowerCase_of_isCapital hcapital, hnumber, Nat.sub_add_cancel (by omega), Char.ofNat_toNat]

/-- **A capital has a small letter**, of which it is the capital. -/
theorem exists_lowerCase {c : Char} (h : IsCapital c) :
    ∃ d, lowerCase c = [d] ∧ upperCase d = [c] ∧ IsSmall d := by
  have hcode := isCapital_iff.mp h
  have hnumber : (Char.ofNat (c.toNat + 32)).toNat = c.toNat + 32 := toNat_ofNat_of_lt (by omega)
  have hsmall : IsSmall (Char.ofNat (c.toNat + 32)) := by
    rw [isSmall_iff]
    omega
  refine ⟨_, lowerCase_of_isCapital h, ?_, hsmall⟩
  rw [upperCase_of_isSmall hsmall, hnumber, Nat.add_sub_cancel, Char.ofNat_toNat]

theorem capitalize_ofList_cons (c : Char) (rest : List Char) :
    capitalize (.ofList (c :: rest)) = .ofList (upperCase c ++ rest) := by
  rw [capitalize, String.toList_ofList]

theorem uncapitalize_ofList_cons (c : Char) (rest : List Char) :
    uncapitalize (.ofList (c :: rest)) = .ofList (lowerCase c ++ rest) := by
  rw [uncapitalize, String.toList_ofList]

end Text

namespace Naming

open Text

/-! ### Names -/

/-- A name of ASCII whose first character is one of some kind. -/
def IsNameFrom (kind : Char → Prop) (name : String) : Prop :=
  ∃ c rest, name = .ofList (c :: rest) ∧ kind c ∧ ∀ d ∈ rest, isWordChar d = true

/-- A name as variables have it: it starts with a small letter. -/
def IsVariable (name : String) : Prop := IsNameFrom IsSmall name

/-- A name that starts with a capital, as behind another word. -/
def IsCapitalized (name : String) : Prop := IsNameFrom IsCapital name

/-- **The name of a variable in capitals** is turned back into the name. -/
theorem IsVariable.capitalize {name : String} (h : IsVariable name) :
    IsCapitalized (Text.capitalize name) ∧ uncapitalize (Text.capitalize name) = name := by
  obtain ⟨c, rest, rfl, hc, hrest⟩ := h
  obtain ⟨d, hupper, hlower, hd⟩ := exists_upperCase hc
  rw [capitalize_ofList_cons, hupper, List.singleton_append, uncapitalize_ofList_cons, hlower]
  exact ⟨⟨d, rest, rfl, hd, hrest⟩, rfl⟩

/-- **A capitalised name without the capital** is turned back into the name. -/
theorem IsCapitalized.uncapitalize {name : String} (h : IsCapitalized name) :
    IsVariable (Text.uncapitalize name) ∧ Text.capitalize (Text.uncapitalize name) = name := by
  obtain ⟨c, rest, rfl, hc, hrest⟩ := h
  obtain ⟨d, hlower, hupper, hd⟩ := exists_lowerCase hc
  rw [uncapitalize_ofList_cons, hlower, List.singleton_append, capitalize_ofList_cons, hupper]
  exact ⟨⟨d, rest, rfl, hd, hrest⟩, rfl⟩

/-- **A name that is recognised by a word** is the word with a capitalised name behind it. -/
theorem isCamelAfter_iff {word name : String} :
    isCamelAfter word name = true ↔ ∃ tail, name = word ++ tail ∧ IsCapitalized tail := by
  constructor
  · intro h
    rw [isCamelAfter] at h
    split at h
    next c rest hdrop =>
      simp only [Bool.and_eq_true, decide_eq_true_eq] at h
      refine ⟨.ofList (c :: rest), ?_, c, rest, rfl, h.1, List.all_eq_true.mp h.2⟩
      rw [← String.toList_inj, String.toList_append, String.toList_ofList]
      exact dropFront?_eq_some_iff.mp hdrop
    next => cases h
  · rintro ⟨tail, rfl, c, rest, rfl, hc, hrest⟩
    -- the word is dropped from the front, and the tail is what is left
    have hdrop :
        dropFront? word.toList (word ++ .ofList (c :: rest)).toList = some (c :: rest) := by
      rw [dropFront?_eq_some_iff, String.toList_append, String.toList_ofList]
    rw [isCamelAfter, hdrop]
    simp only [Bool.and_eq_true, decide_eq_true_eq]
    exact ⟨hc, List.all_eq_true.mpr hrest⟩

/-! ### Names that are made up -/

/-- The setter of a variable is recognised as one. -/
theorem isSetter_setterOf {name : String} (h : IsVariable name) : isSetter (setterOf name) = true :=
  isCamelAfter_iff.mpr ⟨_, rfl, h.capitalize.1⟩

theorem eventOf_append (tail : String) : eventOf ("on" ++ tail) = uncapitalize tail := by
  rw [eventOf, dropStart?_eq_some_iff.mpr rfl, Option.getD_some]

/-- **A handler is called `on` and its event** with a capital. -/
theorem on_append_eventOf {handler : String} (h : isEventHandler handler = true) :
    "on" ++ Text.capitalize (eventOf handler) = handler := by
  obtain ⟨tail, rfl, htail⟩ := isCamelAfter_iff.mp h
  rw [eventOf_append, htail.uncapitalize.2]

theorem eventOf_inj {handler handler' : String} (h : isEventHandler handler = true)
    (h' : isEventHandler handler' = true) (heq : eventOf handler = eventOf handler') :
    handler = handler' := by
  rw [← on_append_eventOf h, heq, on_append_eventOf h']

end Naming

end JsxWidgets
