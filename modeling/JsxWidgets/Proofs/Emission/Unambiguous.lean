import JsxWidgets.Proofs.Emission.Reading

/-!
# Unique reading

Plain widgets with the same code have the same reading. The code of a call is read from the left,
and at every point the next characters decide how to go on:

* a word ends at a delimiter, which tells a tag from a name and from a truth value (`word_unique`,
  `Operand.leads`);
* a text ends at the first quote that has no backslash in front of it (`escaped_unique`);
* behind an argument, a comma says that there is another one;
* an item of a list is indented deeper than the bracket behind the last one.

Every statement carries what is left behind the part that is read, so that the parts can be put
together. The induction is on the first call; the levels agree, since both are read from the same
level on.
-/

namespace JsxWidgets.Dart

/-! ### Worded calls -/

mutual

/-- A call with words as tags and names, and without code in it. -/
def Call.Worded : Call → Prop
  | .mk tag arguments => IsWord tag ∧ Argument.AllWorded arguments

/-- Arguments with words as names. -/
def Argument.AllWorded : List Argument → Prop
  | [] => True
  | .mk key value :: rest => (key = "" ∨ IsWord key) ∧ value.Worded ∧ Argument.AllWorded rest

/-- A value with words as tags and names. -/
def Operand.Worded : Operand → Prop
  | .raw _ => False
  | .text _ => True
  | .flag _ => True
  | .call c => c.Worded
  | .list vs => Operand.AllWorded vs

/-- Values with words as tags and names. -/
def Operand.AllWorded : List Operand → Prop
  | [] => True
  | v :: vs => v.Worded ∧ Operand.AllWorded vs

end

theorem Argument.allWorded_append {as bs : List Argument} (ha : AllWorded as) (hb : AllWorded bs) :
    AllWorded (as ++ bs) := by
  match as, ha with
  | [], _ => exact hb
  | .mk key value :: rest, ⟨hkey, hvalue, hrest⟩ =>
    exact ⟨hkey, hvalue, Argument.allWorded_append hrest hb⟩

mutual

/-- The reading of a plain widget is worded. -/
theorem worded_reading (w : Widget) (h : w.Plain) : w.reading.Worded := by
  match w, h with
  | .mk tag properties comments children source, ⟨htag, _, hproperties, hchildren⟩ =>
    refine ⟨htag, Argument.allWorded_append (worded_properties properties hproperties) ?_⟩
    match children, hchildren with
    | .none, _ => trivial
    | .single slot w, h => exact ⟨Or.inr h.1, worded_reading w h.2, trivial⟩
    | .many slot ws, h => exact ⟨Or.inr h.1, worded_widgets ws h.2.2, trivial⟩

theorem worded_properties (ps : List Property) (h : Property.AllPlain ps) :
    Argument.AllWorded (Property.readings ps) := by
  match ps, h with
  | [], _ => trivial
  | .mk key value isComment :: rest, h =>
    obtain ⟨rfl, hkey, hvalue, hrest⟩ := h
    exact ⟨hkey, worded_value value hvalue, worded_properties rest hrest⟩

theorem worded_value (v : Value) (h : v.Plain) : v.reading.Worded := by
  match v, h with
  | .text s, _ => trivial
  | .flag b, _ => trivial
  | .widget w, h => exact worded_reading w h
  | .list vs, h => exact worded_values vs h

theorem worded_values (vs : List Value) (h : Value.AllPlain vs) :
    Operand.AllWorded (Value.readings vs) := by
  match vs, h with
  | [], _ => trivial
  | v :: vs, h => exact ⟨worded_value v h.1, worded_values vs h.2⟩

theorem worded_widgets (ws : List Widget) (h : Widget.AllPlain ws) :
    Operand.AllWorded (Widget.readings ws) := by
  match ws, h with
  | [], _ => trivial
  | w :: ws, h => exact ⟨worded_reading w h.1, worded_widgets ws h.2⟩

end

/-! ### Words -/

/-- Characters start with a word, behind which a delimiter stands. -/
structure Leads (chars word : List Char) (d : Char) : Prop where
  /-- The word has no delimiter in it. -/
  free : IsFree word
  /-- The delimiter is one. -/
  delimiter : isDelimiter d = true
  /-- They stand at the start. -/
  start : ∃ rest, chars = word ++ d :: rest

/-- The word at the start is determined, and so is what stands behind it. -/
theorem word_unique {a b r s : List Char} {x y : Char} (ha : IsFree a) (hb : IsFree b)
    (hx : isDelimiter x = true) (hy : isDelimiter y = true) (h : a ++ x :: r = b ++ y :: s) :
    a = b ∧ x = y ∧ r = s := by
  induction a generalizing b with
  | nil =>
    cases b with
    | nil =>
      injection h with hxy hrs
      exact ⟨rfl, hxy, hrs⟩
    | cons c b =>
      -- The delimiter would be a character of the other word.
      injection h with hxc
      rw [hxc, (isFree_cons.mp hb).1] at hx
      cases hx
  | cons c a ih =>
    cases b with
    | nil =>
      injection h with hcy
      rw [← hcy, (isFree_cons.mp ha).1] at hy
      cases hy
    | cons c' b =>
      injection h with hcc htail
      obtain ⟨hab, hxy, hrs⟩ := ih (isFree_cons.mp ha).2 (isFree_cons.mp hb).2 htail
      exact ⟨by rw [hcc, hab], hxy, hrs⟩

theorem Leads.unique {chars a b : List Char} {x y : Char} (ha : Leads chars a x)
    (hb : Leads chars b y) : a = b ∧ x = y := by
  obtain ⟨r, hr⟩ := ha.start
  obtain ⟨s, hs⟩ := hb.start
  obtain ⟨hab, hxy, -⟩ := word_unique ha.free hb.free ha.delimiter hb.delimiter (hr ▸ hs)
  exact ⟨hab, hxy⟩

/-! ### Texts -/

/-- The first character of a text in quotes, and what is left behind it. -/
def readCharacter? : List Char → Option (Char × List Char)
  | '\\' :: 'n' :: rest => some ('\n', rest)
  | '\\' :: 'r' :: rest => some ('\r', rest)
  | '\\' :: 't' :: rest => some ('\t', rest)
  | '\\' :: c :: rest => some (c, rest)
  | c :: rest => some (c, rest)
  | [] => none

theorem readCharacter?_escape (c : Char) (rest : List Char) :
    readCharacter? (escape c ++ rest) = some (c, rest) := by
  unfold escape
  split
  · next h => subst h; rfl
  split
  · next h => subst h; rfl
  split
  · next h => subst h; rfl
  split
  · next h => subst h; rfl
  split
  · next h => subst h; rfl
  split
  · next h => subst h; rfl
  -- A character that stands for itself is read as such, for it is no backslash.
  next hslash _ _ _ _ _ =>
    rw [List.singleton_append, readCharacter?]
    all_goals
      intros
      exact hslash ‹_›

/-- A character inside a text does not start with the quote that ends the text. -/
theorem escape_head (c : Char) : ∃ d rest, escape c = d :: rest ∧ d ≠ '\x27' := by
  unfold escape
  split
  · exact ⟨_, _, rfl, by decide⟩
  split
  · exact ⟨_, _, rfl, by decide⟩
  split
  · exact ⟨_, _, rfl, by decide⟩
  split
  · exact ⟨_, _, rfl, by decide⟩
  split
  · exact ⟨_, _, rfl, by decide⟩
  split
  · exact ⟨_, _, rfl, by decide⟩
  next hquote _ _ _ _ => exact ⟨_, _, rfl, hquote⟩

/-- The text up to the closing quote is determined, and so is what stands behind it. -/
theorem escaped_unique {a b r s : List Char}
    (h : a.flatMap escape ++ '\x27' :: r = b.flatMap escape ++ '\x27' :: s) : a = b ∧ r = s := by
  induction a generalizing b with
  | nil =>
    cases b with
    | nil =>
      injection h with _ hrs
      exact ⟨rfl, hrs⟩
    | cons c b =>
      -- The closing quote would be the first of the characters that stand for `c`.
      obtain ⟨d, rest, hd, hne⟩ := escape_head c
      rw [List.flatMap_cons, hd] at h
      injection h with hquote
      exact absurd hquote.symm hne
  | cons c a ih =>
    cases b with
    | nil =>
      obtain ⟨d, rest, hd, hne⟩ := escape_head c
      rw [List.flatMap_cons, hd] at h
      injection h with hquote
      exact absurd hquote hne
    | cons c' b =>
      rw [List.flatMap_cons, List.flatMap_cons, List.append_assoc, List.append_assoc] at h
      -- Both sides give their first character, and leave the rest.
      have hread := congrArg readCharacter? h
      rw [readCharacter?_escape, readCharacter?_escape] at hread
      injection hread with hread
      injection hread with hcc htail
      obtain ⟨hab, hrs⟩ := ih htail
      exact ⟨by rw [hcc, hab], hrs⟩

/-! ### How values start -/

/-- What stands behind the value of an argument or an item: a comma or the end of the line. -/
def Ends (chars : List Char) : Prop := ∃ d rest, (d = ',' ∨ d = '\n') ∧ chars = d :: rest

/-- A kind of value. -/
inductive Kind where
  /-- Code. -/
  | raw
  /-- A text. -/
  | text
  /-- A truth value. -/
  | flag
  /-- A call. -/
  | call
  /-- A list. -/
  | list
  deriving DecidableEq

/-- The kind of a value. -/
def Operand.kind : Operand → Kind
  | .raw _ => .raw
  | .text _ => .text
  | .flag _ => .flag
  | .call _ => .call
  | .list _ => .list

/-- The kind of value that has a delimiter behind its first word. -/
def Kind.before : Char → Kind
  | '\x27' => .text
  | ',' => .flag
  | '\n' => .flag
  | '(' => .call
  | ' ' => .call
  | '[' => .list
  | _ => .raw

theorem Operand.kind_of_worded {v : Operand} (h : v.Worded) : v.kind ≠ .raw := by
  cases v with
  | raw s => exact h.elim
  | text s | flag b | call c | list vs => exact nofun

/-- A call starts with its tag, or with the word that says that it is constant. -/
theorem Call.leads (level : Nat) (c : Call) (hc : c.Worded) (r : List Char) :
    ∃ word d, Leads (c.code level ++ r) word d ∧ Kind.before d = .call := by
  obtain ⟨tag, arguments⟩ := c
  have htag := hc.1.2
  cases arguments with
  | nil =>
    rw [Call.code]
    -- a bare widget may have the keyword in front of its tag
    split
    · refine ⟨"const".toList, ' ', ⟨rfl, rfl, tag.toList ++ '(' :: ')' :: r, ?_⟩, rfl⟩
      simp
    · refine ⟨tag.toList, '(', ⟨htag, rfl, ')' :: r, ?_⟩, rfl⟩
      simp
  | cons a rest =>
    rw [Call.code]
    refine ⟨tag.toList, '(', ⟨htag, rfl, ?_⟩, rfl⟩
    rw [List.append_assoc]
    exact ⟨_, rfl⟩

/-- The delimiter behind the first word of a value tells what kind of value it is. -/
theorem Operand.leads (level : Nat) (v : Operand) (hv : v.Worded) {r : List Char} (hr : Ends r) :
    ∃ word d, Leads (v.code level ++ r) word d ∧ Kind.before d = v.kind := by
  cases v with
  | raw s => exact hv.elim
  | text s =>
    -- The quote stands behind the empty word, as does the bracket of a list.
    rw [Operand.code, quoted, String.toList_append, String.toList_append, List.append_assoc,
      List.append_assoc]
    exact ⟨[], _, ⟨rfl, rfl, _, rfl⟩, rfl⟩
  | flag b =>
    obtain ⟨d, rest, hd, rfl⟩ := hr
    rw [Operand.code]
    refine ⟨(if b then "true" else "false").toList, d, ⟨?_, ?_, rest, rfl⟩, ?_⟩
    · cases b <;> rfl
    · rcases hd with rfl | rfl <;> rfl
    · rcases hd with rfl | rfl <;> rfl
  | call c => exact Call.leads level c hv r
  | list vs =>
    cases vs with
    | nil => exact ⟨[], '[', ⟨rfl, rfl, ']' :: r, rfl⟩, rfl⟩
    | cons v vs =>
      rw [Operand.code]
      exact ⟨[], '[', ⟨rfl, rfl, _, rfl⟩, rfl⟩

/-- Values that start in the same way are of the same kind. -/
theorem Operand.kind_unique {level : Nat} {v w : Operand} (hv : v.Worded) (hw : w.Worded)
    {r s : List Char} (hr : Ends r) (hs : Ends s) (h : v.code level ++ r = w.code level ++ s) :
    v.kind = w.kind := by
  obtain ⟨a, x, hleads, hkind⟩ := Operand.leads level v hv hr
  obtain ⟨b, y, hleads', hkind'⟩ := Operand.leads level w hw hs
  rw [← h] at hleads'
  obtain ⟨-, rfl⟩ := hleads.unique hleads'
  exact hkind.symm.trans hkind'

/-- No value starts with a word and a colon. -/
theorem Operand.not_leads_colon {level : Nat} {v : Operand} (hv : v.Worded) {r : List Char}
    (hr : Ends r) {word : List Char} : ¬ Leads (v.code level ++ r) word ':' := by
  intro hcolon
  obtain ⟨a, d, hleads, hkind⟩ := Operand.leads level v hv hr
  obtain ⟨-, rfl⟩ := hleads.unique hcolon
  exact Operand.kind_of_worded hv hkind.symm

/-- A name ends in a colon, and no value starts with a word and a colon. -/
theorem label_unique {level : Nat} {key key' : String} (hkey : key = "" ∨ IsWord key)
    (hkey' : key' = "" ∨ IsWord key') {v w : Operand} (hv : v.Worded) (hw : w.Worded)
    {r s : List Char} (hr : Ends r) (hs : Ends s)
    (h : (label key).toList ++ (v.code level ++ r) = (label key').toList ++ (w.code level ++ s)) :
    key = key' ∧ v.code level ++ r = w.code level ++ s := by
  have hlabel : ∀ {k : String}, IsWord k → ∀ X : List Char,
      (label k).toList ++ X = k.toList ++ ':' :: ' ' :: X := by
    intro k hk X
    rw [label, if_neg (by simpa using hk.1), String.toList_append, List.append_assoc]
    rfl
  have hnamed : ∀ {k : String}, IsWord k → ∀ X : List Char,
      Leads ((label k).toList ++ X) k.toList ':' := by
    intro k hk X
    exact ⟨hk.2, rfl, _, hlabel hk X⟩
  rcases hkey with rfl | hkey <;> rcases hkey' with rfl | hkey'
  · exact ⟨rfl, h⟩
  · -- a value on the left, a name on the right
    have hcolon := hnamed hkey' (w.code level ++ s)
    rw [← h] at hcolon
    exact absurd hcolon (Operand.not_leads_colon hv hr)
  · -- a name on the left, a value on the right
    have hcolon := hnamed hkey (v.code level ++ r)
    rw [h] at hcolon
    exact absurd hcolon (Operand.not_leads_colon hw hs)
  · rw [hlabel hkey, hlabel hkey'] at h
    obtain ⟨hkeys, -, hrest⟩ := word_unique hkey.2 hkey'.2 rfl rfl h
    injection hrest with _ hrest
    exact ⟨String.toList_injective hkeys, hrest⟩

/-! ### Unique reading -/

theorem pad_succ (level : Nat) : (pad (level + 1)).toList = (pad level).toList ++ [' ', ' '] := by
  rw [pad, pad, String.toList_ofList, String.toList_ofList, Nat.mul_add,
    ← List.replicate_append_replicate]
  rfl

/-- Behind an argument stands a comma if another one follows, and else the end of the line. -/
theorem separator_ends (more : Bool) (r : List Char) : Ends ((separator more).toList ++ r) := by
  cases more with
  | true => exact ⟨',', '\n' :: r, Or.inl rfl, rfl⟩
  | false => exact ⟨'\n', r, Or.inr rfl, rfl⟩

/-- A text in quotes is determined. -/
theorem quoted_unique {level : Nat} {a b : String} {r s : List Char}
    (h : (Operand.text a).code level ++ r = (Operand.text b).code level ++ s) :
    a = b ∧ r = s := by
  have hquoted : ∀ (t : String) (X : List Char), (Operand.text t).code level ++ X
      = '\x27' :: (t.toList.flatMap escape ++ '\x27' :: X) := by
    intro t X
    simp only [Operand.code, quoted, escaped, String.toList_append, String.toList_ofList,
      List.append_assoc]
    rfl
  rw [hquoted, hquoted] at h
  injection h with _ h
  obtain ⟨htexts, hrest⟩ := escaped_unique h
  exact ⟨String.toList_injective htexts, hrest⟩

/-- A truth value is determined. -/
theorem flag_unique {level : Nat} {a b : Bool} {r s : List Char} (hr : Ends r) (hs : Ends s)
    (h : (Operand.flag a).code level ++ r = (Operand.flag b).code level ++ s) : a = b ∧ r = s := by
  obtain ⟨x, r, hx, rfl⟩ := hr
  obtain ⟨y, s, hy, rfl⟩ := hs
  have hfree : ∀ v : Bool, IsFree (if v then "true" else "false").toList := by
    intro v
    cases v <;> rfl
  have hdelimiter : ∀ d : Char, d = ',' ∨ d = '\n' → isDelimiter d = true := by
    rintro d (rfl | rfl) <;> rfl
  rw [Operand.code, Operand.code] at h
  obtain ⟨hwords, rfl, rfl⟩ := word_unique (hfree a) (hfree b) (hdelimiter x hx) (hdelimiter y hy) h
  refine ⟨?_, rfl⟩
  cases a <;> cases b <;> first | rfl | exact absurd hwords (by decide)

/-- What stands behind the opening parenthesis of a call. -/
def Call.behind (level : Nat) (as : List Argument) (r : List Char) : List Char :=
  match as with
  | [] => ')' :: r
  | a :: rest =>
    '\n' :: (Argument.codeOf (level + 1) (a :: rest) ++ ((pad level).toList ++ ')' :: r))

/-- What stands in front of the tag of a call. -/
def Call.ahead (tag : String) (as : List Argument) : List Char :=
  if as.isEmpty && constantTags.contains tag then "const".toList ++ [' '] else []

theorem Call.code_append (level : Nat) (tag : String) (as : List Argument) (r : List Char) :
    (Call.mk tag as).code level ++ r
      = Call.ahead tag as ++ (tag.toList ++ '(' :: Call.behind level as r) := by
  cases as with
  | nil =>
    rw [Call.code, Call.ahead, Call.behind, List.isEmpty_nil, Bool.true_and]
    split <;> simp
  | cons a rest =>
    rw [Call.code, Call.ahead, Call.behind, List.isEmpty_cons, Bool.false_and,
      if_neg Bool.false_ne_true]
    simp only [List.append_assoc, List.cons_append, List.nil_append]

/-- The tag of a call is determined, and so is what stands behind the opening parenthesis. -/
theorem Call.tag_unique {level : Nat} {tag tag' : String} {as bs : List Argument}
    (htag : IsWord tag) (htag' : IsWord tag') {r s : List Char}
    (h : (Call.mk tag as).code level ++ r = (Call.mk tag' bs).code level ++ s) :
    tag = tag' ∧ Call.behind level as r = Call.behind level bs s := by
  have hconst : IsFree "const".toList := rfl
  have hparen : isDelimiter '(' = true := rfl
  have hspace : isDelimiter ' ' = true := rfl
  have hword : ∀ {X Y : List Char}, tag.toList ++ '(' :: X = tag'.toList ++ '(' :: Y →
      tag = tag' ∧ X = Y := by
    intro X Y hXY
    obtain ⟨htags, -, hbehind⟩ := word_unique htag.2 htag'.2 hparen hparen hXY
    exact ⟨String.toList_injective htags, hbehind⟩
  rw [Call.code_append, Call.code_append, Call.ahead, Call.ahead] at h
  split at h
  · split at h
    · exact hword (List.append_cancel_left h)
    · -- constant on the left only
      rw [List.append_assoc] at h
      obtain ⟨-, hdelimiter, -⟩ := word_unique hconst htag'.2 hspace hparen h
      exact absurd hdelimiter (by decide)
  · split at h
    · -- constant on the right only
      rw [List.append_assoc] at h
      obtain ⟨-, hdelimiter, -⟩ := word_unique htag.2 hconst hparen hspace h
      exact absurd hdelimiter (by decide)
    · exact hword h

/-- Whether another argument follows is determined. -/
theorem separator_unique {a b : Bool} {r s : List Char}
    (h : (separator a).toList ++ r = (separator b).toList ++ s) : r = s := by
  have hmore : ∀ X : List Char, (separator true).toList ++ X = ',' :: '\n' :: X := fun _ => rfl
  have hlast : ∀ X : List Char, (separator false).toList ++ X = '\n' :: X := fun _ => rfl
  cases a with
  | true =>
    cases b with
    | true =>
      rw [hmore, hmore] at h
      injection h with _ h
      injection h with _ hrest
    | false =>
      rw [hmore, hlast] at h
      injection h with hcomma
      exact absurd hcomma (by decide)
  | false =>
    cases b with
    | true =>
      rw [hlast, hmore] at h
      injection h with hcomma
      exact absurd hcomma (by decide)
    | false =>
      rw [hlast, hlast] at h
      injection h with _ hrest

/-- Whether a call has arguments is determined. -/
theorem Call.behind_cases {level : Nat} {as bs : List Argument} {r s : List Char}
    (h : Call.behind level as r = Call.behind level bs s) :
    (as = [] ∧ bs = [] ∧ r = s) ∨
      Argument.codeOf (level + 1) as ++ ((pad level).toList ++ ')' :: r)
        = Argument.codeOf (level + 1) bs ++ ((pad level).toList ++ ')' :: s) := by
  -- the character behind the bracket tells whether there are arguments
  match as, bs with
  | [], [] =>
    injection h with _ hrest
    exact Or.inl ⟨rfl, rfl, hrest⟩
  | [], b :: bs =>
    injection h with hbreak
    exact absurd hbreak (by decide)
  | a :: as, [] =>
    injection h with hbreak
    exact absurd hbreak (by decide)
  | a :: as, b :: bs =>
    injection h with _ harguments
    exact Or.inr harguments

/-- Whether a list has items is determined. -/
theorem Operand.list_cases {level : Nat} {vs ws : List Operand} {r s : List Char}
    (h : (Operand.list vs).code level ++ r = (Operand.list ws).code level ++ s) :
    (vs = [] ∧ ws = [] ∧ r = s) ∨
      Operand.codeOf (level + 1) vs ++ ((pad level).toList ++ ']' :: r)
        = Operand.codeOf (level + 1) ws ++ ((pad level).toList ++ ']' :: s) := by
  -- the character behind the bracket tells whether there are items
  match vs, ws with
  | [], [] =>
    injection h with _ h
    injection h with _ hrest
    exact Or.inl ⟨rfl, rfl, hrest⟩
  | [], w :: ws =>
    rw [Operand.code, Operand.code] at h
    injection h with _ h
    injection h with hbreak
    exact absurd hbreak (by decide)
  | v :: vs, [] =>
    rw [Operand.code, Operand.code] at h
    injection h with _ h
    injection h with hbreak
    exact absurd hbreak (by decide)
  | v :: vs, w :: ws =>
    simp only [Operand.code, List.cons_append, List.append_assoc] at h
    injection h with _ h
    injection h with _ hitems
    exact Or.inr hitems

/-- A line of the next level is no line that closes a bracket of this one. -/
theorem pad_succ_ne {level : Nat} {close : Char} (hclose : close ≠ ' ') {r s : List Char} :
    (pad level).toList ++ close :: r ≠ (pad (level + 1)).toList ++ s := by
  intro h
  rw [pad_succ, List.append_assoc] at h
  injection List.append_cancel_left h with hspace
  exact hclose hspace

mutual

/-- **Calls with the same code are the same**, whatever stands behind them. -/
theorem Call.code_unique (level : Nat) (c d : Call) (hc : c.Worded) (hd : d.Worded)
    {r s : List Char} (h : c.code level ++ r = d.code level ++ s) : c = d ∧ r = s := by
  match c, d, hc, hd with
  | .mk tag as, .mk tag' bs, hc, hd =>
    obtain ⟨rfl, hbehind⟩ := Call.tag_unique hc.1 hd.1 h
    rcases Call.behind_cases hbehind with ⟨rfl, rfl, hrest⟩ | harguments
    · exact ⟨rfl, hrest⟩
    · obtain ⟨hlists, hrest⟩ := Argument.codeOf_unique level as bs hc.2 hd.2 harguments
      exact ⟨by rw [hlists], hrest⟩
termination_by sizeOf c

theorem Argument.codeOf_unique (level : Nat) (as bs : List Argument)
    (has : Argument.AllWorded as) (hbs : Argument.AllWorded bs) {r s : List Char}
    (h : Argument.codeOf (level + 1) as ++ ((pad level).toList ++ ')' :: r)
      = Argument.codeOf (level + 1) bs ++ ((pad level).toList ++ ')' :: s)) : as = bs ∧ r = s := by
  match as, bs, has, hbs with
  | [], [], _, _ =>
    rw [Argument.codeOf, List.nil_append, List.nil_append] at h
    injection List.append_cancel_left h with _ hrest
    exact ⟨rfl, hrest⟩
  | [], .mk key v :: bs, _, _ =>
    -- The call would end where the line of an argument starts.
    simp only [Argument.codeOf, List.nil_append, List.append_assoc] at h
    exact absurd h (pad_succ_ne (by decide))
  | .mk key v :: as, [], _, _ =>
    simp only [Argument.codeOf, List.nil_append, List.append_assoc] at h
    exact absurd h.symm (pad_succ_ne (by decide))
  | .mk key v :: as, .mk key' w :: bs, ⟨hkey, hv, has⟩, ⟨hkey', hw, hbs⟩ =>
    -- first the names, then the values, and then the lines behind
    simp only [Argument.codeOf, List.append_assoc] at h
    obtain ⟨rfl, hvalues⟩ := label_unique hkey hkey' hv hw (separator_ends _ _)
      (separator_ends _ _) (List.append_cancel_left h)
    obtain ⟨rfl, hlines⟩ := Operand.code_unique (level + 1) v w hv hw (separator_ends _ _)
      (separator_ends _ _) hvalues
    obtain ⟨rfl, hrest⟩ := Argument.codeOf_unique level as bs has hbs (separator_unique hlines)
    exact ⟨rfl, hrest⟩
termination_by sizeOf as

theorem Operand.code_unique (level : Nat) (v w : Operand) (hv : v.Worded) (hw : w.Worded)
    {r s : List Char} (hr : Ends r) (hs : Ends s) (h : v.code level ++ r = w.code level ++ s) :
    v = w ∧ r = s := by
  have hkind := Operand.kind_unique hv hw hr hs h
  -- the first characters fix the kind, so the two operands have one constructor
  cases v with
  | raw a => exact hv.elim
  | text a =>
    cases w with
    | raw b | flag b | call d | list ws => cases hkind
    | text b =>
      obtain ⟨htexts, hrest⟩ := quoted_unique h
      exact ⟨by rw [htexts], hrest⟩
  | flag a =>
    cases w with
    | raw b | text b | call d | list ws => cases hkind
    | flag b =>
      obtain ⟨hflags, hrest⟩ := flag_unique hr hs h
      exact ⟨by rw [hflags], hrest⟩
  | call c =>
    cases w with
    | raw b | text b | flag b | list ws => cases hkind
    | call d =>
      obtain ⟨hcalls, hrest⟩ := Call.code_unique level c d hv hw h
      exact ⟨by rw [hcalls], hrest⟩
  | list vs =>
    cases w with
    | raw b | text b | flag b | call d => cases hkind
    | list ws =>
      rcases Operand.list_cases h with ⟨rfl, rfl, hrest⟩ | hitems
      · exact ⟨rfl, hrest⟩
      · obtain ⟨hlists, hrest⟩ := Operand.codeOf_unique level vs ws hv hw hitems
        exact ⟨by rw [hlists], hrest⟩
termination_by sizeOf v

theorem Operand.codeOf_unique (level : Nat) (vs ws : List Operand) (hvs : Operand.AllWorded vs)
    (hws : Operand.AllWorded ws) {r s : List Char}
    (h : Operand.codeOf (level + 1) vs ++ ((pad level).toList ++ ']' :: r)
      = Operand.codeOf (level + 1) ws ++ ((pad level).toList ++ ']' :: s)) : vs = ws ∧ r = s := by
  match vs, ws, hvs, hws with
  | [], [], _, _ =>
    rw [Operand.codeOf, List.nil_append, List.nil_append] at h
    injection List.append_cancel_left h with _ hrest
    exact ⟨rfl, hrest⟩
  | [], w :: ws, _, _ =>
    -- The list would end where the line of an item starts.
    simp only [Operand.codeOf, List.nil_append, List.append_assoc] at h
    exact absurd h (pad_succ_ne (by decide))
  | v :: vs, [], _, _ =>
    simp only [Operand.codeOf, List.nil_append, List.append_assoc] at h
    exact absurd h.symm (pad_succ_ne (by decide))
  | v :: vs, w :: ws, hvs, hws =>
    simp only [Operand.codeOf, List.append_assoc] at h
    -- There is a comma behind every item, behind the last one as well.
    have hends : ∀ X : List Char, Ends (',' :: '\n' :: X) := fun X => ⟨',', _, Or.inl rfl, rfl⟩
    obtain ⟨rfl, hitems⟩ := Operand.code_unique (level + 1) v w hvs.1 hws.1 (hends _) (hends _)
      (List.append_cancel_left h)
    injection hitems with _ hitems
    injection hitems with _ hitems
    obtain ⟨rfl, hrest⟩ := Operand.codeOf_unique level vs ws hvs.2 hws.2 hitems
    exact ⟨rfl, hrest⟩
termination_by sizeOf vs

end

/-- **Emission is unambiguous**: plain widgets with the same code have the same reading. -/
theorem reading_eq_of_emit_eq {v w : Widget} (hv : v.Plain) (hw : w.Plain) (h : emit v = emit w) :
    v.reading = w.reading := by
  have hcode : v.reading.code 0 ++ [] = w.reading.code 0 ++ [] := by
    rw [← emitAt_reading 0 v hv, ← emitAt_reading 0 w hw]
    exact congrArg (String.toList · ++ []) h
  exact (Call.code_unique 0 v.reading w.reading (worded_reading v hv) (worded_reading w hw) hcode).1

/-- A child in a slot has the code of an argument with the name of the slot. -/
theorem reading_eq_of_emit_eq_slot :
    Widget.Plain (.mk "Center" [] [] (.single "child" (.mk "Spacer" [] [] .none none)) (some "div"))
      ∧ Widget.Plain (.mk "Center" [.named "child" (.widget (.mk "Spacer" [] [] .none none))] []
        .none none)
      ∧ Widget.reading (.mk "Center" [] [] (.single "child" (.mk "Spacer" [] [] .none none))
          (some "div"))
        = Widget.reading (.mk "Center" [.named "child" (.widget (.mk "Spacer" [] [] .none none))] []
          .none none) := by
  have center : IsWord "Center" := isWord_of_tagCharacters (by decide) (by decide)
  have spacer : Widget.Plain (.mk "Spacer" [] [] .none none) :=
    ⟨isWord_of_tagCharacters (by decide) (by decide), rfl, trivial, trivial⟩
  have child : IsWord "child" := isWord_of_tagCharacters (by decide) (by decide)
  have inSlot : Widget.Plain (.mk "Center" [] []
      (.single "child" (.mk "Spacer" [] [] .none none)) (some "div")) :=
    ⟨center, rfl, trivial, child, spacer⟩
  have named : Widget.Plain (.mk "Center"
      [.named "child" (.widget (.mk "Spacer" [] [] .none none))] [] .none none) :=
    ⟨center, rfl, ⟨rfl, Or.inr child, spacer, trivial⟩, trivial⟩
  exact ⟨inSlot, named, reading_eq_of_emit_eq inSlot named (by rfl)⟩

end JsxWidgets.Dart
