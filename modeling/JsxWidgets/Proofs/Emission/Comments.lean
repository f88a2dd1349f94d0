import JsxWidgets.Proofs.Emission.Verbatim
import JsxWidgets.Proofs.Widget.Nodes

/-!
# Comments in the code

Comments change nothing of the code around them: without its comment lines, the code of a tree is
the code of the tree without its comments (`emit_withoutComments`). Commas are the point. Whether
one stands behind an argument depends on the arguments behind it, real ones only, so a comment in
between or at the end must not count.

Two conditions are needed. A widget with comments also has something real, for a widget with nothing
between its parentheses is written on one line. And no text that is written as it is looks like a
comment at the start of a line (`Dart.IsCode`), be it with spaces in front, since an argument
without a name starts its line (`commentLike_argument`).

Deleting lines is read from the left. `Dart.InlineLeft` says what is left of a text that starts
inside a line of code, `Dart.LinesLeft` of one that starts at the start of a line; both go on with
whatever stands behind, so they compose.
-/

namespace JsxWidgets

open Dart Text

/-! ### Trees without comments -/

mutual

/-- **A widget without comments**, its own and those of all widgets inside it. -/
def Widget.withoutComments : Widget → Widget
  | .mk tag properties _ children source =>
    .mk tag (Property.withoutComments properties) [] children.withoutComments source

/-- The arguments that are no comments, without comments inside them. -/
def Property.withoutComments : List Property → List Property
  | [] => []
  | .mk key value isComment :: rest =>
    if isComment then Property.withoutComments rest
    else .mk key value.withoutComments false :: Property.withoutComments rest

/-- A value without comments inside it. -/
def Value.withoutComments : Value → Value
  | .raw s => .raw s
  | .text s => .text s
  | .flag b => .flag b
  | .widget w => .widget w.withoutComments
  | .list values => .list (Value.allWithoutComments values)

/-- Several values without comments inside them. -/
def Value.allWithoutComments : List Value → List Value
  | [] => []
  | v :: vs => v.withoutComments :: Value.allWithoutComments vs

/-- Children without comments. -/
def Children.withoutComments : Children → Children
  | .none => .none
  | .single slot w => .single slot w.withoutComments
  | .many slot ws => .many slot (Widget.allWithoutComments ws)

/-- Several widgets without comments. -/
def Widget.allWithoutComments : List Widget → List Widget
  | [] => []
  | w :: ws => w.withoutComments :: Widget.allWithoutComments ws

end

/-- A widget with comments of its own. -/
def Widget.IsCommented (w : Widget) : Prop :=
  w.comments ≠ [] ∨ ∃ p ∈ w.properties, p.isComment = true

/-- A widget with a real argument or with children. -/
def Widget.HasReal (w : Widget) : Prop :=
  (∃ p ∈ w.properties, p.isComment = false) ∨ w.children.isEmpty = false

/-- The real arguments are all still there. -/
theorem any_real_withoutComments (ps : List Property) :
    ((Property.withoutComments ps).any fun p => !p.isComment) = ps.any fun p => !p.isComment := by
  induction ps with
  | nil => rfl
  | cons p ps ih =>
    obtain ⟨key, value, isComment⟩ := p
    cases isComment with
    | true => exact ih
    | false => rfl

/-- No argument is left without the comments if all arguments are comments. -/
theorem isEmpty_propertiesWithoutComments (ps : List Property) :
    (Property.withoutComments ps).isEmpty = !ps.any fun p => !p.isComment := by
  induction ps with
  | nil => rfl
  | cons p ps ih =>
    obtain ⟨key, value, isComment⟩ := p
    cases isComment with
    | true => exact ih
    | false => rfl

/-- Children stay children. -/
theorem isEmpty_childrenWithoutComments (children : Children) :
    children.withoutComments.isEmpty = children.isEmpty := by
  match children with
  | .none | .single slot w | .many slot [] | .many slot (w :: ws) => rfl

/-- So they are written on lines of their own if they were. -/
theorem hasChildLine_withoutComments (children : Children) :
    hasChildLine children.withoutComments = hasChildLine children := by
  cases children <;> rfl

/-- Without its comments, a widget has something between its parentheses if it had before. -/
theorem Widget.isEmpty_withoutComments {w : Widget} (h : w.IsCommented → w.HasReal) :
    w.withoutComments.isEmpty = w.isEmpty := by
  obtain ⟨tag, properties, comments, children, source⟩ := w
  have hempty : (Widget.mk tag properties comments children source).withoutComments.isEmpty
      = (!(properties.any fun p => !p.isComment) && children.isEmpty) := by
    rw [Widget.withoutComments, Widget.isEmpty, Widget.properties, Widget.comments, Widget.children,
      isEmpty_propertiesWithoutComments, isEmpty_childrenWithoutComments, List.isEmpty_nil,
      Bool.and_true]
  rw [hempty, Widget.isEmpty, Widget.properties, Widget.comments, Widget.children]
  by_cases hcommented : (Widget.mk tag properties comments children source).IsCommented
  · -- What is real keeps both from being empty.
    rcases h hcommented with ⟨p, hp, hreal⟩ | hchildren
    · have hany : (properties.any fun p => !p.isComment) = true :=
        List.any_eq_true.mpr ⟨p, hp, by rw [hreal]; rfl⟩
      have hne : properties.isEmpty = false :=
        List.isEmpty_eq_false_iff.mpr (List.ne_nil_of_mem hp)
      rw [hany, hne]
      rfl
    · rw [show children.isEmpty = false from hchildren, Bool.and_false, Bool.and_false]
  · -- There are no comments, so nothing is removed.
    rw [Widget.IsCommented, not_or] at hcommented
    have hcomments : comments = [] := Classical.not_not.mp hcommented.1
    have hany : (properties.any fun p => !p.isComment) = !properties.isEmpty := by
      cases properties with
      | nil => rfl
      | cons p ps =>
        have hp : p.isComment ≠ true := fun hp => hcommented.2 ⟨p, List.mem_cons_self, hp⟩
        rw [List.any_cons, Bool.eq_false_iff.mpr hp]
        rfl
    rw [hany, hcomments, Bool.not_not, List.isEmpty_nil, Bool.and_true]

/-! ### What is left of lines -/

namespace Dart

/-- **A text that is written as it is and looks like code**: it has no line feed, and no two slashes
in front, or behind spaces only. -/
def IsCode (s : String) : Prop := OneLine s ∧ startsComment s.toList = false

instance (s : String) : Decidable (IsCode s) := inferInstanceAs (Decidable (_ ∧ _))

/-- A text in front of which neither spaces nor slashes can make a comment start. -/
def StartsPlain (s : String) : Prop := s.toList.head?.any (fun c => c ≠ ' ' && c ≠ '/') = true

instance (s : String) : Decidable (StartsPlain s) := inferInstanceAs (Decidable (_ = true))

/-- A text that starts a line of code, if what stands behind it starts plainly. -/
def StartsCode (s : String) : Prop :=
  ∀ (c : Char) (rest : List Char), c ≠ ' ' → c ≠ '/' → startsComment (s.toList ++ c :: rest) = false

/-- **What is left of a text inside a line of code**, whatever stands behind it. -/
def InlineLeft (inline left : String) : Prop :=
  ∀ rest : List Char, codeRest (inline.toList ++ rest) = left.toList ++ codeRest rest

/-- **What is left of lines**, whatever stands behind them. -/
def LinesLeft (lines left : String) : Prop :=
  ∀ rest : List Char, codeLines (lines.toList ++ rest) = left.toList ++ codeLines rest

/-- What a line can end in. -/
structure EndsLine (ending : String) : Prop where
  /-- It does not go on with a comment. -/
  head : StartsPlain ending
  /-- Behind it, another line starts. -/
  left : ∀ rest : List Char, codeRest (ending.toList ++ rest) = ending.toList ++ codeLines rest

section Left

variable {a b s t left more moreLeft : String}

/-- What looks like code starts a line of code. -/
theorem StartsCode.of_isCode (h : IsCode s) : StartsCode s := fun _ rest hspace hslash =>
  startsComment_append h.2 hspace hslash rest

/-- The first character of a text that starts plainly. -/
theorem StartsPlain.exists_cons (h : StartsPlain s) :
    ∃ c chars, s.toList = c :: chars ∧ c ≠ ' ' ∧ c ≠ '/' := by
  obtain ⟨c, hc, hplain⟩ := (Option.any_eq_true _ _).mp h
  obtain ⟨chars, hchars⟩ := List.head?_eq_some_iff.mp hc
  rw [Bool.and_eq_true, decide_eq_true_eq, decide_eq_true_eq] at hplain
  exact ⟨c, chars, hchars, hplain⟩

/-- A plain start stays one whatever stands behind. -/
theorem StartsPlain.append (h : StartsPlain s) (t : String) : StartsPlain (s ++ t) := by
  obtain ⟨c, chars, hchars, -⟩ := h.exists_cons
  rw [StartsPlain, hchars] at h
  rw [StartsPlain, String.toList_append, hchars]
  exact h

/-- A line is no comment if it starts plainly, whatever stands behind it. -/
theorem StartsPlain.startsComment (h : StartsPlain s) (rest : List Char) :
    startsComment (s.toList ++ rest) = false := by
  obtain ⟨c, chars, hchars, hspace, hslash⟩ := h.exists_cons
  have hempty : Text.startsComment ([] ++ c :: (chars ++ rest)) = false :=
    startsComment_append rfl hspace hslash _
  rw [hchars]
  exact hempty

/-- A plain start starts a line of code. -/
theorem StartsCode.of_plain (h : StartsPlain s) : StartsCode s := fun c rest _ _ =>
  h.startsComment (c :: rest)

/-- A text that starts code is no comment on its own. -/
theorem StartsCode.alone (h : StartsCode s) : startsComment s.toList = false := by
  have hmore : ∀ chars rest : List Char, startsComment chars = true →
      startsComment (chars ++ rest) = true := by
    intro chars rest hchars
    fun_induction startsComment chars with
    | case1 chars ih => exact ih hchars
    | case2 => rfl
    | case3 => cases hchars
  by_cases hs : startsComment s.toList = true
  · have hparen := h '(' [] (by decide) (by decide)
    rw [hmore _ _ hs] at hparen
    cases hparen
  · exact Bool.eq_false_iff.mpr hs

/-- A start of code with a plain start behind it starts a line of code as a whole. -/
theorem StartsCode.append (h : StartsCode s) (ht : StartsPlain t) : StartsCode (s ++ t) := by
  intro d rest _ _
  obtain ⟨c, chars, hchars, hspace, hslash⟩ := ht.exists_cons
  rw [String.toList_append, hchars, List.append_assoc]
  exact h c (chars ++ d :: rest) hspace hslash

/-- All of a text without a line feed is left inside a line of code. -/
theorem InlineLeft.of_oneLine (h : OneLine s) : InlineLeft s s := fun rest => codeRest_append h rest

/-- What is left of texts inside a line is what is left of each. -/
theorem InlineLeft.append (h : InlineLeft s left) (h' : InlineLeft more moreLeft) :
    InlineLeft (s ++ more) (left ++ moreLeft) := by
  intro rest
  calc codeRest ((s ++ more).toList ++ rest)
      = codeRest (s.toList ++ (more.toList ++ rest)) := by
        rw [String.toList_append, List.append_assoc]
    _ = left.toList ++ (moreLeft.toList ++ codeRest rest) := by rw [h, h']
    _ = (left ++ moreLeft).toList ++ codeRest rest := by
        rw [String.toList_append, List.append_assoc]

/-- Nothing is left of no lines. -/
theorem LinesLeft.nil : LinesLeft "" "" := fun _ => rfl

/-- What is left of lines is what is left of each. -/
theorem LinesLeft.append (h : LinesLeft s left) (h' : LinesLeft more moreLeft) :
    LinesLeft (s ++ more) (left ++ moreLeft) := by
  intro rest
  calc codeLines ((s ++ more).toList ++ rest)
      = codeLines (s.toList ++ (more.toList ++ rest)) := by
        rw [String.toList_append, List.append_assoc]
    _ = left.toList ++ (moreLeft.toList ++ codeLines rest) := by rw [h, h']
    _ = (left ++ moreLeft).toList ++ codeLines rest := by
        rw [String.toList_append, List.append_assoc]

/-- What is left of lines with nothing left of those behind them. -/
theorem LinesLeft.append_empty (h : LinesLeft s left) (h' : LinesLeft more "") :
    LinesLeft (s ++ more) left := by
  have hboth := h.append h'
  rwa [String.append_empty] at hboth

/-- Nothing is left of a comment. -/
theorem LinesLeft.comment (level : Nat) {line : String} (h : OneLine line) :
    LinesLeft (pad level ++ "// " ++ line ++ "\n") "" := by
  intro rest
  have hchars : (pad level ++ "// " ++ line ++ "\n").toList ++ rest
      = (pad level ++ "// " ++ line).toList ++ '\n' :: rest := by
    simp only [String.toList_append, List.append_assoc]
    rfl
  have hline : OneLine (pad level ++ "// " ++ line) :=
    oneLine_append.mpr ⟨oneLine_append.mpr ⟨oneLine_pad level, by decide⟩, h⟩
  rw [hchars, codeLines_of_comment hline]
  · rfl
  · simp only [String.toList_append, List.append_assoc, pad, String.toList_ofList,
      startsComment_spaces]
    rfl

/-- **Nothing is left of a comment.** -/
theorem commentLines_left (level : Nat) (text : String) :
    LinesLeft (commentLines level text) "" := by
  have hall : ∀ lines : List String, (∀ line ∈ lines, OneLine line) →
      LinesLeft (String.join (lines.map fun line => pad level ++ "// " ++ line ++ "\n")) "" := by
    intro lines hlines
    induction lines with
    | nil => exact .nil
    | cons line lines ih =>
      rw [List.map_cons, String.join_cons]
      exact (LinesLeft.comment level (hlines line List.mem_cons_self)).append_empty
        (ih fun l hl => hlines l (List.mem_cons_of_mem _ hl))
  exact hall (Text.lines text) fun _ hline => oneLine_of_mem_lines hline

/-- So nothing is left of several. -/
theorem joinedComments_left (level : Nat) (comments : List String) :
    LinesLeft (String.join (comments.map (commentLines level))) "" := by
  induction comments with
  | nil => exact .nil
  | cons comment comments ih =>
    rw [List.map_cons, String.join_cons]
    exact (commentLines_left level comment).append_empty ih

/-- A line of code is left, up to what is left of the text on it. -/
theorem LinesLeft.line {ending : String} (level : Nat) (h : InlineLeft s left)
    (hcode : StartsCode s) (hending : EndsLine ending) :
    LinesLeft (pad level ++ s ++ ending) (pad level ++ left ++ ending) := by
  intro rest
  obtain ⟨c, tail, hhead, hspace, hslash⟩ := hending.head.exists_cons
  have hstart : startsComment ((pad level ++ s ++ ending).toList ++ rest) = false := by
    simp only [String.toList_append, List.append_assoc, hhead, pad, String.toList_ofList,
      startsComment_spaces]
    exact hcode c (tail ++ rest) hspace hslash
  have hpad := codeRest_append (oneLine_pad level)
  rw [codeLines_of_code hstart]
  simp only [String.toList_append, List.append_assoc, hpad, h _, hending.left]

/-- Lines between brackets. -/
theorem InlineLeft.block {opening closing lines : String} (level : Nat) (hopening : OneLine opening)
    (hclosing : OneLine closing) (hplain : StartsPlain closing) (h : LinesLeft lines left) :
    InlineLeft (opening ++ "\n" ++ lines ++ pad level ++ closing)
      (opening ++ "\n" ++ left ++ pad level ++ closing) := by
  intro rest
  -- The last line starts with the closing bracket, so it is code as well.
  have hlast : codeLines ((pad level).toList ++ (closing.toList ++ rest))
      = (pad level).toList ++ (closing.toList ++ codeRest rest) := by
    have hstart : startsComment ((pad level).toList ++ (closing.toList ++ rest)) = false := by
      rw [pad, String.toList_ofList, startsComment_spaces]
      exact hplain.startsComment rest
    rw [codeLines_of_code hstart, codeRest_append (oneLine_pad level), codeRest_append hclosing]
  have hbreak : ∀ r : List Char, codeRest ("\n".toList ++ r) = "\n".toList ++ codeLines r :=
    codeRest_lineFeed
  simp only [String.toList_append, List.append_assoc]
  rw [codeRest_append hopening, hbreak, h, hlast]

end Left

/-- A line can end without a comma. -/
theorem endsLine_break : EndsLine "\n" where
  head := by decide
  left := codeRest_lineFeed

/-- Or with one. -/
theorem endsLine_comma : EndsLine ",\n" where
  head := by decide
  left rest := by
    have hcomma : OneLine "," := by decide
    rw [show ",\n" = "," ++ "\n" from rfl, String.toList_append, List.append_assoc,
      codeRest_append hcomma, endsLine_break.left, List.append_assoc]

/-- What stands behind an argument is one of these. -/
theorem endsLine_separator (moreFollow : Bool) : EndsLine (separator moreFollow) := by
  cases moreFollow with
  | true => exact endsLine_comma
  | false => exact endsLine_break

/-! ### The start of a value -/

/-- A widget starts a line of code if its tag looks like code. -/
theorem startsCode_emitAt (level : Nat) {w : Widget} (h : IsCode w.tag) :
    StartsCode (emitAt level w) := by
  have hparen : StartsPlain "(" := by decide
  by_cases htag : w.tag = ""
  · rw [emitAt_nothing htag]
    exact .of_plain (by decide)
  -- either the tag or the keyword in front of it starts the line
  · cases hempty : w.isEmpty with
    | true =>
      have hconst : StartsPlain "const " := by decide
      have hparens : StartsPlain "()" := by decide
      rw [emitAt_bare htag hempty, bareCode, String.append_assoc]
      split
      · exact .of_plain (hconst.append _)
      · rw [String.empty_append]
        exact (StartsCode.of_isCode h).append hparens
    | false =>
      rw [emitAt_block htag hempty]
      simp only [String.append_assoc]
      exact (StartsCode.of_isCode h).append (hparen.append _)

/-- So does a value if the texts in it do. -/
theorem startsCode_emitValue (level : Nat) {v : Value} (h : ∀ s ∈ v.verbatim, IsCode s) :
    StartsCode (emitValue level v) := by
  have hbracket : StartsPlain "[\n" := by decide
  have hquote : StartsPlain "\x27" := by decide
  match v, h with
  | .raw s, h =>
    rw [emitValue]
    exact .of_isCode (h s (List.mem_singleton_self s))
  | .text s, _ =>
    rw [emitValue, quoted, String.append_assoc]
    exact .of_plain (hquote.append _)
  | .flag b, _ =>
    rw [emitValue]
    exact .of_plain (by cases b <;> decide)
  -- the tag of the widget is the first of its verbatim texts
  | .widget (.mk tag properties comments children source), h =>
    rw [Value.verbatim, Widget.verbatim, List.forall_mem_cons] at h
    rw [emitValue]
    exact startsCode_emitAt level h.1
  | .list [], _ =>
    rw [emitValue]
    exact .of_plain (by decide)
  | .list (v :: vs), _ =>
    rw [emitValue]
    simp only [String.append_assoc]
    exact .of_plain (hbracket.append _)

/-- The name of an argument decides, if it has one. -/
theorem startsCode_labeled {key s : String} (hkey : IsCode key) (h : StartsCode s) :
    StartsCode (label key ++ s) := by
  have hcolon : StartsPlain ": " := by decide
  rw [label]
  split
  · rw [String.empty_append]
    exact h
  · rw [String.append_assoc]
    exact (StartsCode.of_isCode hkey).append (hcolon.append s)

/-! ### What is left of a tree -/

mutual

/-- **Without its comment lines, the code of a widget is that of the widget without comments.** -/
theorem emitAt_left (level : Nat) (w : Widget) (htexts : ∀ s ∈ w.verbatim, IsCode s)
    (hreal : ∀ x ∈ w.nodes, x.IsCommented → x.HasReal) :
    InlineLeft (emitAt level w) (emitAt level w.withoutComments) := by
  have hsame := Widget.isEmpty_withoutComments (hreal w w.self_mem_nodes)
  match w, htexts, hreal, hsame with
  | .mk tag properties comments children source, htexts, hreal, hsame =>
    rw [Widget.verbatim, List.forall_mem_cons, List.forall_mem_append] at htexts
    rw [Widget.nodes, List.forall_mem_cons, List.forall_mem_append] at hreal
    obtain ⟨htag, hproperties, hchildren⟩ := htexts
    have hkept : (Widget.mk tag properties comments children source).withoutComments.tag
        = (Widget.mk tag properties comments children source).tag := rfl
    by_cases hnone : (Widget.mk tag properties comments children source).tag = ""
    · rw [emitAt_nothing hnone, emitAt_nothing (hkept.trans hnone)]
      exact .of_oneLine (by decide)
    · cases hempty : (Widget.mk tag properties comments children source).isEmpty with
      | true =>
        rw [emitAt_bare hnone hempty, emitAt_bare (hkept ▸ hnone) (hsame.trans hempty)]
        exact .of_oneLine (oneLine_bareCode htag.1)
      | false =>
        have hopening : OneLine (tag ++ "(") := oneLine_append.mpr ⟨htag.1, by decide⟩
        -- Of the comments nothing is left, and the last line still knows that children follow.
        have harguments : LinesLeft
            (emitProperties (level + 1) (hasChildLine children) properties)
            (emitProperties (level + 1) (hasChildLine children.withoutComments)
              (Property.withoutComments properties)) := by
          rw [hasChildLine_withoutComments]
          exact emitProperties_left (level + 1) _ properties hproperties hreal.2.1
        have hlines := ((joinedComments_left (level + 1) comments).append harguments).append
          (emitChildren_left (level + 1) children hchildren hreal.2.2)
        rw [emitAt_block hnone hempty, emitAt_block (hkept ▸ hnone) (hsame.trans hempty),
          blockLines, blockLines, hkept]
        exact InlineLeft.block level hopening (by decide) (by decide) hlines

/-- **What is left of arguments** is the code of the arguments without the comments. -/
theorem emitProperties_left (level : Nat) (moreFollow : Bool) (ps : List Property)
    (htexts : ∀ s ∈ Property.verbatimOf ps, IsCode s)
    (hreal : ∀ x ∈ Property.nodesOf ps, x.IsCommented → x.HasReal) :
    LinesLeft (emitProperties level moreFollow ps)
      (emitProperties level moreFollow (Property.withoutComments ps)) := by
  match ps, htexts, hreal with
  | [], _, _ => exact .nil
  | .mk key value true :: rest, htexts, hreal =>
    rw [Property.verbatimOf, List.forall_mem_append] at htexts
    rw [Property.nodesOf, List.forall_mem_append] at hreal
    have hrest := emitProperties_left level moreFollow rest htexts.2 hreal.2
    have hcomment := (commentLines_left level (commentText key value)).append hrest
    rw [String.empty_append] at hcomment
    exact hcomment
  | .mk key value false :: rest, htexts, hreal =>
    rw [Property.verbatimOf, List.forall_mem_append, if_neg Bool.false_ne_true,
      List.forall_mem_cons] at htexts
    rw [Property.nodesOf, List.forall_mem_append] at hreal
    obtain ⟨⟨hkey, hvalue⟩, hrest⟩ := htexts
    have hinline : InlineLeft (label key ++ emitValue level value)
        (label key ++ emitValue level value.withoutComments) :=
      (InlineLeft.of_oneLine (oneLine_label hkey.1)).append
        (emitValue_left level value hvalue hreal.1)
    have hline := LinesLeft.line level hinline
      (startsCode_labeled hkey (startsCode_emitValue level hvalue))
      (endsLine_separator (moreFollow || rest.any fun p => !p.isComment))
    have hlines := hline.append (emitProperties_left level moreFollow rest hrest hreal.2)
    -- The comma depends on the real arguments behind, which are all still there.
    rw [Property.withoutComments, if_neg Bool.false_ne_true, emitProperties, emitProperties,
      if_neg Bool.false_ne_true, if_neg Bool.false_ne_true, any_real_withoutComments]
    simpa only [String.append_assoc] using hlines

/-- What is left of a value is its code without the comments in it. -/
theorem emitValue_left (level : Nat) (v : Value) (htexts : ∀ s ∈ v.verbatim, IsCode s)
    (hreal : ∀ x ∈ v.nodes, x.IsCommented → x.HasReal) :
    InlineLeft (emitValue level v) (emitValue level v.withoutComments) := by
  match v, htexts, hreal with
  | .raw s, htexts, _ =>
    rw [Value.withoutComments, emitValue]
    exact .of_oneLine (htexts s (List.mem_singleton_self s)).1
  | .text s, _, _ =>
    rw [Value.withoutComments, emitValue]
    exact .of_oneLine (oneLine_quoted s)
  | .flag b, _, _ =>
    rw [Value.withoutComments, emitValue]
    exact .of_oneLine (by cases b <;> decide)
  | .widget w, htexts, hreal =>
    rw [Value.withoutComments, emitValue, emitValue]
    exact emitAt_left level w htexts hreal
  | .list [], _, _ => exact .of_oneLine (s := "[]") (by decide)
  | .list (v :: vs), htexts, hreal =>
    have hopening : OneLine "[" := by decide
    have hclosing : OneLine "]" := by decide
    have hitems := InlineLeft.block level hopening hclosing (by decide)
      (emitItems_left (level + 1) (v :: vs) htexts hreal)
    rw [emitItems, Value.allWithoutComments, emitItems] at hitems
    rw [Value.withoutComments, Value.allWithoutComments, emitValue, emitValue,
      -- the line break has to stand apart from the bracket that ends the line
      show "[\n" = "[" ++ "\n" from rfl]
    simpa only [String.append_assoc] using hitems

/-- So is what is left of the items of a list. -/
theorem emitItems_left (level : Nat) (vs : List Value)
    (htexts : ∀ s ∈ Value.verbatimOf vs, IsCode s)
    (hreal : ∀ x ∈ Value.nodesOf vs, x.IsCommented → x.HasReal) :
    LinesLeft (emitItems level vs) (emitItems level (Value.allWithoutComments vs)) := by
  match vs, htexts, hreal with
  | [], _, _ => exact .nil
  | v :: vs, htexts, hreal =>
    rw [Value.verbatimOf, List.forall_mem_append] at htexts
    rw [Value.nodesOf, List.forall_mem_append] at hreal
    rw [Value.allWithoutComments, emitItems, emitItems]
    exact (LinesLeft.line level (emitValue_left level v htexts.1 hreal.1)
      (startsCode_emitValue level htexts.1) endsLine_comma).append
        (emitItems_left level vs htexts.2 hreal.2)

/-- So is what is left of children. -/
theorem emitChildren_left (level : Nat) (children : Children)
    (htexts : ∀ s ∈ children.verbatim, IsCode s)
    (hreal : ∀ x ∈ children.nodes, x.IsCommented → x.HasReal) :
    LinesLeft (emitChildren level children) (emitChildren level children.withoutComments) := by
  match children, htexts, hreal with
  | .none, _, _ => exact .nil
  | .single slot w, htexts, hreal =>
    rw [Children.verbatim, List.forall_mem_cons] at htexts
    rw [Children.nodes] at hreal
    obtain ⟨hslot, hwidget⟩ := htexts
    -- the slot and its colon stay, and so does the line they share with the widget
    have hinline : InlineLeft (slot ++ (": " ++ emitAt level w))
        (slot ++ (": " ++ emitAt level w.withoutComments)) :=
      (InlineLeft.of_oneLine hslot.1).append
        ((InlineLeft.of_oneLine (by decide)).append (emitAt_left level w hwidget hreal))
    have hcolon : StartsPlain ": " := by decide
    have hstart : StartsCode (slot ++ (": " ++ emitAt level w)) :=
      (StartsCode.of_isCode hslot).append (hcolon.append _)
    have hline := LinesLeft.line level hinline hstart endsLine_break
    rw [Children.withoutComments, emitChildren, emitChildren]
    simpa only [String.append_assoc] using hline
  | .many slot ws, htexts, hreal =>
    rw [Children.verbatim, List.forall_mem_cons] at htexts
    rw [Children.nodes] at hreal
    obtain ⟨hslot, hwidgets⟩ := htexts
    have hopening : InlineLeft (slot ++ ": [") (slot ++ ": [") :=
      .of_oneLine (oneLine_append.mpr ⟨hslot.1, by decide⟩)
    have hstart : StartsCode (slot ++ ": [") :=
      (StartsCode.of_isCode hslot).append (by decide)
    have hclosing : InlineLeft "]" "]" := .of_oneLine (by decide)
    have hclose : StartsCode "]" := .of_plain (by decide)
    -- the opening line, the widgets and the closing line are left one by one
    have hlines := ((LinesLeft.line level hopening hstart endsLine_break).append
      (emitWidgets_left (level + 1) ws hwidgets hreal)).append
        (LinesLeft.line level hclosing hclose endsLine_break)
    rw [Children.withoutComments, emitChildren, emitChildren,
      show ": [\n" = ": [" ++ "\n" from rfl, show "]\n" = "]" ++ "\n" from rfl]
    simpa only [String.append_assoc] using hlines

/-- So is what is left of several widgets. -/
theorem emitWidgets_left (level : Nat) (ws : List Widget)
    (htexts : ∀ s ∈ Widget.verbatimOf ws, IsCode s)
    (hreal : ∀ x ∈ Widget.nodesOf ws, x.IsCommented → x.HasReal) :
    LinesLeft (emitWidgets level ws) (emitWidgets level (Widget.allWithoutComments ws)) := by
  match ws, htexts, hreal with
  | [], _, _ => exact .nil
  | w :: ws, htexts, hreal =>
    rw [Widget.verbatimOf, List.forall_mem_append] at htexts
    rw [Widget.nodesOf, List.forall_mem_append] at hreal
    have htag : IsCode w.tag := by
      cases w
      exact htexts.1 _ List.mem_cons_self
    rw [Widget.allWithoutComments, emitWidgets, emitWidgets]
    exact (LinesLeft.line level (emitAt_left level w htexts.1 hreal.1)
      (startsCode_emitAt level htag) endsLine_comma).append
        (emitWidgets_left level ws htexts.2 hreal.2)

end

/-- **Comments are inert.** Let every widget with comments also have a real argument or children,
and let every text that is written as it is look like code. Without its comment lines, the code of a
tree is the code of the tree without its comments. -/
theorem emit_withoutComments (w : Widget) (htexts : ∀ s ∈ w.verbatim, IsCode s)
    (hreal : ∀ x ∈ w.nodes, x.IsCommented → x.HasReal) :
    withoutCommentLines (emit w) = emit w.withoutComments := by
  have htag : IsCode w.tag := by
    cases w
    exact htexts _ List.mem_cons_self
  have hstart : startsComment (emit w).toList = false := (startsCode_emitAt 0 htag).alone
  have hleft : codeRest ((emit w).toList ++ []) = (emit w.withoutComments).toList ++ codeRest [] :=
    emitAt_left 0 w htexts hreal []
  rw [List.append_nil, codeRest, List.append_nil] at hleft
  rw [withoutCommentLines, codeLines_of_code hstart, hleft, String.ofList_toList]

/-- A column with a comment of its own, and in it a text with a comment between two arguments and
another one behind them. -/
def commentedColumn : Widget :=
  .mk "Column" [] ["className: a\nb"] (.many "children"
    [.mk "Text" [.mk "" (.text "//hi") false, .mk "href" (.raw "url") true,
      .mk "maxLines" (.raw "1") false, .mk "" (.text "dropped") true] [] .none none]) none

/-- The comma behind the first argument stays, and there is none behind the second. -/
theorem emit_withoutComments_column :
    (∀ s ∈ commentedColumn.verbatim, IsCode s) ∧
    (∀ x ∈ commentedColumn.nodes, x.IsCommented → x.HasReal) ∧
    withoutCommentLines (emit commentedColumn) =
      "Column(\n  children: [\n    Text(\n      \x27//hi\x27,\n      maxLines: 1\n    ),\n  ]\n)"
    := by
  have htexts : ∀ s ∈ commentedColumn.verbatim, IsCode s := by decide
  have hreal : ∀ x ∈ commentedColumn.nodes, x.IsCommented → x.HasReal := by
    intro x hx _
    simp only [commentedColumn, Widget.nodes, Property.nodesOf, Value.nodes, Children.nodes,
      Widget.nodesOf, List.append_nil, List.nil_append, List.mem_cons, List.not_mem_nil,
      or_false] at hx
    rcases hx with rfl | rfl
    · exact .inr rfl
    · exact .inl ⟨_, List.mem_cons_self, rfl⟩
  refine ⟨htexts, hreal, ?_⟩
  rw [emit_withoutComments _ htexts hreal]
  decide

/-- Two slashes count as a comment behind spaces as well. So it is not enough that no text that is
written as it is has them in front: an argument without a name whose code has a space in front of
them is taken for a comment. -/
theorem commentLike_argument :
    ¬∀ w : Widget, (∀ s ∈ w.verbatim, OneLine s ∧ Text.startsWith "//" s = false) →
      (∀ x ∈ w.nodes, x.IsCommented → x.HasReal) →
      withoutCommentLines (emit w) = emit w.withoutComments := by
  intro hall
  have htexts : ∀ s ∈ Widget.verbatim (.mk "T" [.mk "" (.raw " //x") false] [] .none none),
      OneLine s ∧ Text.startsWith "//" s = false := by decide
  have hreal : ∀ x ∈ Widget.nodes (.mk "T" [.mk "" (.raw " //x") false] [] .none none),
      x.IsCommented → x.HasReal := by
    intro x hx _
    obtain rfl := List.mem_singleton.mp hx
    exact .inl ⟨_, List.mem_cons_self, rfl⟩
  exact absurd (hall _ htexts hreal) (by decide)

end Dart

end JsxWidgets
