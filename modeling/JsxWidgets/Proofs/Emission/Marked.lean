import Mathlib.Data.List.Basic
import JsxWidgets.Dart.Emission
import JsxWidgets.Proofs.Emission.Quoted

/-!
# Where comments are printed

The code of a tree says nothing about where its characters come from. So it is written once more
with a mark on every character that comes from the text of a comment (`Dart.markedAt`); without the
marks it is the code (`text_markedAt`). A reader who goes through the marked text and knows where
comments start and end (`Dart.Mode`) finds the marked characters that stand outside of comments:
those that are exposed (`Dart.exposed`).

A comment starts at two slashes outside of a quoted text and ends at the next line feed or carriage
return. The writer cuts the text of a comment at line feeds only. What is exposed of a tree is
therefore what is exposed of the single lines that it writes (`exposed_markedAt`), and such a line
exposes something if a carriage return in it is followed by something that does not start a comment
of its own (`exposed_remark_eq_nil_iff`).
-/

namespace JsxWidgets

namespace Dart

/-! ### Marked texts -/

/-- **A text whose characters are marked** if they come from the text of a comment. -/
abbrev MarkedText := List (Char × Bool)

/-- Code. -/
def plain (s : String) : MarkedText := s.toList.map fun c => (c, false)

/-- The text of a comment. -/
def remark (s : String) : MarkedText := s.toList.map fun c => (c, true)

/-- A marked text without its marks. -/
def MarkedText.text (t : MarkedText) : String := String.ofList (t.map Prod.fst)

/-- The text of marked texts one behind the other is their texts one behind the other. -/
@[simp] theorem text_append (t u : MarkedText) :
    MarkedText.text (t ++ u) = MarkedText.text t ++ MarkedText.text u := by
  rw [MarkedText.text, List.map_append, String.ofList_append]
  rfl

/-- Code marked as plain has its own text. -/
@[simp] theorem text_plain (s : String) : MarkedText.text (plain s) = s := by
  rw [MarkedText.text, plain, List.map_map]
  exact (congrArg String.ofList (List.map_id _)).trans String.ofList_toList

/-- So has a remark. -/
@[simp] theorem text_remark (s : String) : MarkedText.text (remark s) = s := by
  rw [MarkedText.text, remark, List.map_map]
  exact (congrArg String.ofList (List.map_id _)).trans String.ofList_toList

/-- Plain code may be cut anywhere. -/
@[simp] theorem plain_append (s t : String) : plain (s ++ t) = plain s ++ plain t := by
  rw [plain, String.toList_append, List.map_append]
  rfl

/-- The text of many marked texts is theirs, joined. -/
theorem text_flatMap {α : Type} (xs : List α) (f : α → MarkedText) :
    MarkedText.text (xs.flatMap f) = String.join (xs.map fun x => MarkedText.text (f x)) := by
  induction xs with
  | nil => rfl
  | cons x xs ih => rw [List.flatMap_cons, text_append, ih, List.map_cons, String.join_cons]

/-! ### Marked code -/

/-- A comment, in as many lines as its text has. -/
def markedCommentLines (level : Nat) (text : String) : MarkedText :=
  (Text.lines text).flatMap fun line => plain (pad level ++ "// ") ++ remark line ++ plain "\n"

mutual

/-- **The code of a widget**, with the texts of its comments marked. -/
def markedAt (level : Nat) : Widget → MarkedText
  | .mk tag properties comments children _ =>
    if tag.isEmpty then plain nothing
    else if properties.isEmpty && comments.isEmpty && children.isEmpty then
      plain ((if constantTags.contains tag then "const " else "") ++ tag ++ "()")
    else
      plain (tag ++ "(\n") ++ comments.flatMap (markedCommentLines (level + 1))
        ++ markedProperties (level + 1) (hasChildLine children) properties
        ++ markedChildren (level + 1) children ++ plain (pad level) ++ plain ")"

/-- The code of arguments, behind which more may follow. -/
def markedProperties (level : Nat) (moreFollow : Bool) : List Property → MarkedText
  | [] => []
  | .mk key value isComment :: rest =>
    (if isComment then markedCommentLines level (commentText key value)
      else plain (pad level ++ label key) ++ markedValue level value
        ++ plain (separator (moreFollow || rest.any (!·.isComment))))
      ++ markedProperties level moreFollow rest

/-- The code of a value. -/
def markedValue (level : Nat) : Value → MarkedText
  | .raw s => plain s
  | .text s => plain (quoted s)
  | .flag b => plain (if b then "true" else "false")
  | .widget w => markedAt level w
  | .list [] => plain "[]"
  | .list (v :: vs) =>
    plain ("[\n" ++ pad (level + 1)) ++ markedValue (level + 1) v ++ plain ",\n"
      ++ markedItems (level + 1) vs ++ plain (pad level) ++ plain "]"

/-- The code of items of a list. -/
def markedItems (level : Nat) : List Value → MarkedText
  | [] => []
  | v :: vs =>
    plain (pad level) ++ markedValue level v ++ plain ",\n" ++ markedItems level vs

/-- The code of children. -/
def markedChildren (level : Nat) : Children → MarkedText
  | .none => []
  | .single slot w => plain (pad level ++ slot ++ ": ") ++ markedAt level w ++ plain "\n"
  | .many slot ws =>
    plain (pad level ++ slot ++ ": [\n") ++ markedWidgets (level + 1) ws ++ plain (pad level)
      ++ plain "]\n"

/-- The code of the widgets of a collection. -/
def markedWidgets (level : Nat) : List Widget → MarkedText
  | [] => []
  | w :: ws => plain (pad level) ++ markedAt level w ++ plain ",\n" ++ markedWidgets level ws

end

/-- Without the marks the lines of a comment are those that are written. -/
theorem text_markedCommentLines (level : Nat) (text : String) :
    (markedCommentLines level text).text = commentLines level text := by
  rw [markedCommentLines, text_flatMap, commentLines]
  simp only [text_append, text_plain, text_remark]

mutual

/-- **Without its marks, the marked code is the code.** -/
theorem text_markedAt (level : Nat) (w : Widget) : (markedAt level w).text = emitAt level w := by
  obtain ⟨tag, properties, comments, children, source⟩ := w
  rw [markedAt, emitAt]
  split
  · exact text_plain nothing
  · split
    · exact text_plain _
    · simp only [text_append, text_plain, text_flatMap, text_markedCommentLines,
        text_markedProperties _ _ properties, text_markedChildren _ children]

/-- So are the arguments. -/
theorem text_markedProperties (level : Nat) (moreFollow : Bool) (ps : List Property) :
    (markedProperties level moreFollow ps).text = emitProperties level moreFollow ps := by
  match ps with
  | [] => rfl
  | .mk key value true :: rest =>
    simp only [markedProperties, emitProperties, if_true, text_append, text_markedCommentLines,
      text_markedProperties level moreFollow rest]
  | .mk key value false :: rest =>
    simp only [markedProperties, emitProperties, Bool.false_eq_true, if_false, text_append,
      text_plain, text_markedValue level value, text_markedProperties level moreFollow rest]

/-- So is a value. -/
theorem text_markedValue (level : Nat) (v : Value) :
    (markedValue level v).text = emitValue level v := by
  match v with
  | .raw s | .text s | .flag b =>
    rw [markedValue, emitValue]
    exact text_plain _
  | .widget w =>
    rw [markedValue, emitValue]
    exact text_markedAt level w
  | .list [] => rfl
  | .list (v :: vs) =>
    simp only [markedValue, emitValue, text_append, text_plain, text_markedValue _ v,
      text_markedItems _ vs]

/-- So are the items of a list. -/
theorem text_markedItems (level : Nat) (vs : List Value) :
    (markedItems level vs).text = emitItems level vs := by
  match vs with
  | [] => rfl
  | v :: vs =>
    simp only [markedItems, emitItems, text_append, text_plain, text_markedValue _ v,
      text_markedItems _ vs]

/-- So are the children. -/
theorem text_markedChildren (level : Nat) (children : Children) :
    (markedChildren level children).text = emitChildren level children := by
  match children with
  | .none => rfl
  | .single slot w =>
    simp only [markedChildren, emitChildren, text_append, text_plain, text_markedAt _ w]
  | .many slot ws =>
    simp only [markedChildren, emitChildren, text_append, text_plain, text_markedWidgets _ ws]

/-- So are several widgets. -/
theorem text_markedWidgets : ∀ (level : Nat) (ws : List Widget),
    (markedWidgets level ws).text = emitWidgets level ws
  | _, [] => rfl
  | level, w :: ws => by
    simp only [markedWidgets, emitWidgets, text_append, text_plain, text_markedAt level w,
      text_markedWidgets level ws]

end

/-! ### A reader of comments -/

/-- Where a reader of a line stands. -/
inductive Mode where
  /-- In code. -/
  | code
  /-- In a text that ends at the given quote. -/
  | text (quote : Char)
  /-- In such a text, behind a backslash. -/
  | escaped (quote : Char)
  /-- In a comment that goes up to the end of the line. -/
  | comment
  deriving DecidableEq

namespace Mode

/-- Where a reader stands at a character, when the next one is known: a comment starts at two
slashes in code. -/
def upon (m : Mode) (c : Char) (next : Option Char) : Mode :=
  if m = .code ∧ c = '/' ∧ next = some '/' then .comment else m

/-- Where a reader stands behind a character. -/
def behind (m : Mode) (c : Char) : Mode :=
  if isLineEnd c then .code
  else
    match m with
    | .code => if c = '\x27' ∨ c = '\x22' then .text c else .code
    | .text quote => if c = '\\' then .escaped quote else if c = quote then .code else .text quote
    | .escaped quote => .text quote
    | .comment => .comment

end Mode

/-- **The marked characters outside of comments**, for a reader who stands somewhere. -/
def exposed (m : Mode) : MarkedText → List Char
  | [] => []
  | (c, marked) :: rest =>
    let here := m.upon c (rest.head?.map Prod.fst)
    (if marked && here ≠ .comment then [c] else []) ++ exposed (here.behind c) rest

/-- Behind the end of a line a reader starts anew. -/
theorem Mode.behind_lineEnd (m : Mode) {c : Char} (h : isLineEnd c = true) : m.behind c = .code :=
  if_pos h

/-- Only a slash can change what a reader takes the text for. -/
theorem Mode.upon_of_ne (m : Mode) {c : Char} (h : c ≠ '/') (next : Option Char) :
    m.upon c next = m :=
  if_neg fun hall => h hall.2.1

/-- In a comment nothing does, up to the end of the line. -/
theorem Mode.upon_comment (c : Char) (next : Option Char) : Mode.comment.upon c next = .comment :=
  if_neg fun hall => nomatch hall.1

/-- A comment goes up to the end of the line. -/
theorem Mode.behind_comment {c : Char} (h : isLineEnd c = false) :
    Mode.comment.behind c = .comment := by
  rw [Mode.behind, if_neg (Bool.eq_false_iff.mp h)]

/-- Behind a line feed a reader takes the text for code again. -/
theorem exposed_lineFeed (m : Mode) (rest : MarkedText) :
    exposed m (plain "\n" ++ rest) = exposed .code rest := by
  change exposed m (('\n', false) :: rest) = _
  rw [exposed, Mode.upon_of_ne m (by decide), Mode.behind_lineEnd m (by decide)]
  rfl

/-- Code exposes nothing. -/
theorem exposed_plain (s : String) (m : Mode) (rest : MarkedText) :
    ∃ m', exposed m (plain s ++ rest) = exposed m' rest := by
  rw [plain]
  induction s.toList generalizing m with
  | nil => exact ⟨m, rfl⟩
  | cons c chars ih =>
    rw [List.map_cons, List.cons_append, exposed]
    exact ih _

/-! ### Pieces of marked code -/

/-- **What a piece inside a line exposes**, whatever stands around it. -/
def InlineExposes (t : MarkedText) (chars : List Char) : Prop :=
  ∀ (m : Mode) (rest : MarkedText), ∃ m', exposed m (t ++ rest) = chars ++ exposed m' rest

/-- **What lines expose**, whatever stands behind them. -/
def LinesExpose (t : MarkedText) (chars : List Char) : Prop :=
  ∀ rest : MarkedText, exposed .code (t ++ rest) = chars ++ exposed .code rest

section Pieces

variable {t u : MarkedText} {chars chars' : List Char}

/-- Plain code exposes nothing, whatever the reader takes it for. -/
theorem InlineExposes.plain (s : String) : InlineExposes (plain s) [] := fun m rest =>
  exposed_plain s m rest

/-- Texts one behind the other expose what each of them does. -/
theorem InlineExposes.append (h : InlineExposes t chars) (h' : InlineExposes u chars') :
    InlineExposes (t ++ u) (chars ++ chars') := by
  intro m rest
  obtain ⟨m₁, h₁⟩ := h m (u ++ rest)
  obtain ⟨m₂, h₂⟩ := h' m₁ rest
  exact ⟨m₂, by rw [List.append_assoc, h₁, h₂, List.append_assoc]⟩

/-- No lines expose nothing. -/
theorem LinesExpose.nil : LinesExpose [] [] := fun _ => rfl

/-- Lines one behind the other expose what each of them does. -/
theorem LinesExpose.append (h : LinesExpose t chars) (h' : LinesExpose u chars') :
    LinesExpose (t ++ u) (chars ++ chars') := fun rest => by
  rw [List.append_assoc, h, h', List.append_assoc]

/-- So do many of them. -/
theorem LinesExpose.flatMap {α : Type} {xs : List α} {f : α → MarkedText} {g : α → List Char}
    (h : ∀ x ∈ xs, LinesExpose (f x) (g x)) : LinesExpose (xs.flatMap f) (xs.flatMap g) := by
  induction xs with
  | nil => exact .nil
  | cons x xs ih =>
    rw [List.forall_mem_cons] at h
    exact h.1.append (ih h.2)

/-- A piece with code around it, up to the end of a line. -/
theorem InlineExposes.line (h : InlineExposes t chars) (front ending : String) :
    LinesExpose (Dart.plain front ++ t ++ Dart.plain (ending ++ "\n")) chars := by
  intro rest
  obtain ⟨m₁, h₁⟩ := exposed_plain front .code (t ++ (Dart.plain (ending ++ "\n") ++ rest))
  obtain ⟨m₂, h₂⟩ := h m₁ (Dart.plain (ending ++ "\n") ++ rest)
  obtain ⟨m₃, h₃⟩ := exposed_plain ending m₂ (Dart.plain "\n" ++ rest)
  rw [List.append_assoc, List.append_assoc, h₁, h₂, plain_append, List.append_assoc, h₃,
    exposed_lineFeed]

/-- Lines between brackets. -/
theorem InlineExposes.block (h : LinesExpose t chars) (front indent closing : String) :
    InlineExposes (Dart.plain (front ++ "\n") ++ t ++ Dart.plain indent ++ Dart.plain closing)
      chars := by
  intro m rest
  obtain ⟨m₁, h₁⟩ := exposed_plain front m
    (Dart.plain "\n" ++ (t ++ (Dart.plain (indent ++ closing) ++ rest)))
  obtain ⟨m₂, h₂⟩ := exposed_plain (indent ++ closing) .code rest
  refine ⟨m₂, ?_⟩
  calc exposed m
        (Dart.plain (front ++ "\n") ++ t ++ Dart.plain indent ++ Dart.plain closing ++ rest)
      = exposed m (Dart.plain front ++
          (Dart.plain "\n" ++ (t ++ (Dart.plain (indent ++ closing) ++ rest)))) := by
        simp only [plain_append, List.append_assoc]
    _ = chars ++ exposed m₂ rest := by rw [h₁, exposed_lineFeed, h, h₂]

end Pieces

/-! ### Comments -/

/-- Whether a text has no slashes and no quotes, so that a reader of code stays in it. -/
def isCalm (s : String) : Bool := s.toList.all fun c => c ≠ '/' && c ≠ '\x27' && c ≠ '\x22'

/-- Whether no line ends in a text, so that a reader of a comment stays in it. -/
def isUnbroken (s : String) : Bool := s.toList.all (!isLineEnd ·)

/-- Code is calm exactly if its parts are. -/
theorem isCalm_append (s t : String) : isCalm (s ++ t) = (isCalm s && isCalm t) := by
  rw [isCalm, String.toList_append, List.all_append]
  rfl

/-- A reader that takes calm code for code goes on so behind it, and nothing is exposed. -/
theorem exposed_code_plain {s : String} (h : isCalm s = true) (rest : MarkedText) :
    exposed .code (plain s ++ rest) = exposed .code rest := by
  rw [isCalm] at h
  rw [plain]
  generalize s.toList = chars at h ⊢
  induction chars with
  | nil => rfl
  | cons c chars ih =>
    rw [List.all_cons, Bool.and_eq_true, Bool.and_eq_true, Bool.and_eq_true, decide_eq_true_eq,
      decide_eq_true_eq, decide_eq_true_eq] at h
    obtain ⟨⟨⟨hslash, hsingle⟩, hdouble⟩, hmore⟩ := h
    -- neither a slash nor a quote leaves the code
    have hbehind : Mode.code.behind c = .code := by
      rw [Mode.behind]
      split
      · rfl
      · exact if_neg (not_or.mpr ⟨hsingle, hdouble⟩)
    rw [List.map_cons, List.cons_append, exposed, Mode.upon_of_ne _ hslash, hbehind]
    exact ih hmore

/-- A reader in a comment stays there through code in which no line ends. -/
theorem exposed_comment_plain {s : String} (h : isUnbroken s = true) (rest : MarkedText) :
    exposed .comment (plain s ++ rest) = exposed .comment rest := by
  rw [isUnbroken] at h
  rw [plain]
  generalize s.toList = chars at h ⊢
  induction chars with
  | nil => rfl
  | cons c chars ih =>
    rw [List.all_cons, Bool.and_eq_true, Bool.not_eq_true'] at h
    rw [List.map_cons, List.cons_append, exposed, Mode.upon_comment, Mode.behind_comment h.1]
    exact ih h.2

/-- Indentation is calm. -/
theorem isCalm_pad (level : Nat) : isCalm (pad level) = true := by
  rw [isCalm, pad, String.toList_ofList, List.all_eq_true]
  intro c hc
  rw [List.eq_of_mem_replicate hc]
  decide

/-- Behind the slashes a reader is in a comment. -/
theorem exposed_slashes (rest : MarkedText) :
    exposed .code (plain "// " ++ rest) = exposed .comment rest := by
  change exposed .code (('/', false) :: ('/', false) :: (' ', false) :: rest) = _
  rw [exposed, exposed, exposed]
  rfl

/-- What a line exposes does not depend on the lines behind it. -/
theorem exposed_line (m : Mode) (t rest : MarkedText) :
    exposed m (t ++ (plain "\n" ++ rest)) = exposed m t ++ exposed .code rest := by
  induction t generalizing m with
  | nil => rw [List.nil_append, exposed_lineFeed, exposed, List.nil_append]
  | cons x t ih =>
    obtain ⟨c, marked⟩ := x
    -- The line feed behind the last character is no slash, so it starts no comment.
    have hat : m.upon c ((t ++ (plain "\n" ++ rest)).head?.map Prod.fst)
        = m.upon c (t.head?.map Prod.fst) := by
      cases t with
      | nil =>
        rw [Mode.upon, Mode.upon, if_neg, if_neg]
        · exact fun h => nomatch h.2.2
        · exact fun h => absurd (Option.some.inj h.2.2) (by decide)
      | cons y t => rfl
    rw [List.cons_append, exposed, exposed, hat, ih, List.append_assoc]

/-- **A line of a comment** exposes what its text does behind slashes. -/
theorem linesExpose_comment (level : Nat) (line : String) :
    LinesExpose (plain (pad level ++ "// ") ++ remark line ++ plain "\n")
      (exposed .comment (remark line)) := by
  intro rest
  rw [plain_append, List.append_assoc, List.append_assoc, List.append_assoc,
    exposed_code_plain (isCalm_pad level), exposed_slashes, exposed_line]

/-- **A text that stays in its comment**: whatever is in it behind the end of a line starts with two
slashes. -/
def Contained (chars : List Char) : Prop :=
  ∀ c behind, c :: behind <:+ chars → isLineEnd c = true → behind = [] ∨ ['/', '/'] <+: behind

/-- A reader of marked characters in code meets one that is exposed at once, if they do not start a
comment. -/
theorem exposed_code_remark_eq_nil_iff (chars : List Char) :
    exposed .code (chars.map fun c => (c, true)) = [] ↔
      (chars = [] ∨ ['/', '/'] <+: chars) ∧
        exposed .comment (chars.map fun c => (c, true)) = [] := by
  match chars with
  | [] => exact iff_of_true rfl ⟨Or.inl rfl, rfl⟩
  | c :: rest =>
    by_cases hslashes : ['/', '/'] <+: c :: rest
    · -- The slashes start a comment, with the first of them in it.
      obtain ⟨behind, hbehind⟩ := hslashes
      rw [← hbehind]
      exact (and_iff_right (Or.inr ⟨behind, rfl⟩)).symm
    · have hupon : Mode.code.upon c ((rest.map fun c => (c, true)).head?.map Prod.fst) = .code := by
        refine if_neg fun h => hslashes ?_
        obtain ⟨-, rfl, hnext⟩ := h
        cases rest with
        | nil => cases hnext
        | cons d rest =>
          obtain rfl : d = '/' := Option.some.inj hnext
          exact ⟨rest, rfl⟩
      refine iff_of_false (fun h => ?_) fun h => ?_
      · rw [List.map_cons, exposed, hupon] at h
        cases h
      · exact h.1.elim (fun hnil => nomatch hnil) hslashes

/-- **A text exposes nothing behind slashes** exactly if it stays in its comment. -/
theorem exposed_comment_eq_nil_iff (chars : List Char) :
    exposed .comment (chars.map fun c => (c, true)) = [] ↔ Contained chars := by
  induction chars with
  | nil =>
    refine iff_of_true rfl fun c behind hsuffix _ => ?_
    exact absurd (List.suffix_nil.mp hsuffix) (List.cons_ne_nil c behind)
  | cons c rest ih =>
    have hupon (next : Option Char) : Mode.comment.upon c next = .comment :=
      Mode.upon_comment c next
    rw [List.map_cons, exposed, hupon]
    change exposed (Mode.comment.behind c) _ = [] ↔ _
    -- a remark is contained if its first line end is and the rest is contained
    have hmore : Contained (c :: rest) ↔
        (isLineEnd c = true → rest = [] ∨ ['/', '/'] <+: rest) ∧ Contained rest := by
      constructor
      · intro h
        exact ⟨h c rest (List.suffix_refl _), fun d behind hsuffix =>
          h d behind (hsuffix.trans (List.suffix_cons c rest))⟩
      · rintro ⟨hfirst, hrest⟩ d behind hsuffix hd
        rcases List.suffix_cons_iff.mp hsuffix with heq | hsuffix
        · obtain ⟨rfl, rfl⟩ := List.cons.inj heq
          exact hfirst hd
        · exact hrest d behind hsuffix hd
    cases hend : isLineEnd c with
    | true =>
      rw [Mode.behind_lineEnd _ hend, exposed_code_remark_eq_nil_iff, hmore, ih, hend]
      exact and_congr_left' ⟨fun h _ => h, fun h => h rfl⟩
    | false =>
      rw [Mode.behind_comment hend, ih, hmore, hend]
      exact (and_iff_right fun h => nomatch h).symm

/-! ### What a widget exposes -/

end Dart

open Dart

mutual

/-- **The lines of the comments of a widget** and of those inside it that are written: those of its
own comments, and those of its arguments that are comments. Of a widget without a tag nothing is
written. -/
def Widget.remarkLines : Widget → List String
  | .mk tag properties comments children _ =>
    if tag.isEmpty then []
    else comments.flatMap Text.lines ++ Property.remarkLines properties ++ children.remarkLines

/-- The lines of comments in arguments. -/
def Property.remarkLines : List Property → List String
  | [] => []
  | .mk key value isComment :: rest =>
    (if isComment then Text.lines (commentText key value) else value.remarkLines)
      ++ Property.remarkLines rest

/-- The lines of comments in a value. -/
def Value.remarkLines : Value → List String
  | .raw _ => []
  | .text _ => []
  | .flag _ => []
  | .widget w => w.remarkLines
  | .list vs => Value.allRemarkLines vs

/-- The lines of comments in several values. -/
def Value.allRemarkLines : List Value → List String
  | [] => []
  | v :: vs => v.remarkLines ++ Value.allRemarkLines vs

/-- The lines of comments in children. -/
def Children.remarkLines : Children → List String
  | .none => []
  | .single _ w => w.remarkLines
  | .many _ ws => Widget.allRemarkLines ws

/-- The lines of comments in several widgets. -/
def Widget.allRemarkLines : List Widget → List String
  | [] => []
  | w :: ws => w.remarkLines ++ Widget.allRemarkLines ws

end

namespace Dart

/-- What a line of a comment exposes. -/
def leak (line : String) : List Char := exposed .comment (remark line)

/-- A line exposes nothing exactly if it stays in its comment. -/
theorem leak_eq_nil_iff (line : String) : leak line = [] ↔ Contained line.toList :=
  exposed_comment_eq_nil_iff line.toList

/-- **A comment exposes what leaks from its lines.** -/
theorem linesExpose_markedCommentLines (level : Nat) (text : String) :
    LinesExpose (markedCommentLines level text) ((Text.lines text).flatMap leak) :=
  .flatMap fun line _ => linesExpose_comment level line

mutual

/-- **A widget exposes what the lines of its comments do.** -/
theorem markedAt_exposes (level : Nat) (w : Widget) :
    InlineExposes (markedAt level w) (w.remarkLines.flatMap leak) := by
  obtain ⟨tag, properties, comments, children, source⟩ := w
  rw [markedAt, Widget.remarkLines]
  split
  · exact .plain nothing
  · split
    · next hempty =>
      -- There is nothing between the parentheses, and no comment either.
      rw [Bool.and_eq_true, Bool.and_eq_true, List.isEmpty_iff, List.isEmpty_iff] at hempty
      obtain ⟨⟨rfl, rfl⟩, hchildren⟩ := hempty
      have hnone : children.remarkLines = [] := by
        match children, hchildren with
        | .none, _ | .many _ [], _ => rfl
      rw [hnone]
      exact .plain _
    · have hcomments : LinesExpose (comments.flatMap (markedCommentLines (level + 1))) _ :=
        .flatMap fun comment _ => linesExpose_markedCommentLines (level + 1) comment
      have hlines := (hcomments.append (markedProperties_exposes (level + 1)
        (hasChildLine children) properties)).append (markedChildren_exposes (level + 1) children)
      have hblock := InlineExposes.block hlines (tag ++ "(") (pad level) ")"
      rw [List.flatMap_append, List.flatMap_append, List.flatMap_assoc,
        show "(\n" = "(" ++ "\n" from rfl]
      simpa only [plain_append, List.append_assoc] using hblock

/-- Arguments expose what leaks from the remarks among and in them. -/
theorem markedProperties_exposes (level : Nat) (moreFollow : Bool) (ps : List Property) :
    LinesExpose (markedProperties level moreFollow ps)
      ((Property.remarkLines ps).flatMap leak) := by
  match ps with
  | [] => exact .nil
  -- a remark leaks what its lines leak, an argument what the remarks inside it leak
  | .mk key value true :: rest =>
    rw [markedProperties, Property.remarkLines, List.flatMap_append]
    exact (linesExpose_markedCommentLines level (commentText key value)).append
      (markedProperties_exposes level moreFollow rest)
  | .mk key value false :: rest =>
    rw [markedProperties, Property.remarkLines, List.flatMap_append]
    refine LinesExpose.append ?_ (markedProperties_exposes level moreFollow rest)
    have hvalue := (markedValue_exposes level value).line (pad level ++ label key)
    cases moreFollow || rest.any fun p => !p.isComment with
    | true => exact hvalue ","
    | false => exact hvalue ""

/-- A value exposes what leaks from the remarks in it. -/
theorem markedValue_exposes (level : Nat) (v : Value) :
    InlineExposes (markedValue level v) (v.remarkLines.flatMap leak) := by
  match v with
  | .raw s | .text s | .flag b =>
    rw [markedValue]
    exact .plain _
  | .widget w =>
    rw [markedValue]
    exact markedAt_exposes level w
  | .list [] => exact .plain "[]"
  | .list (v :: vs) =>
    rw [markedValue, Value.remarkLines, show "[\n" = "[" ++ "\n" from rfl]
    have hitems :=
      InlineExposes.block (markedItems_exposes (level + 1) (v :: vs)) "[" (pad level) "]"
    rw [markedItems] at hitems
    simpa only [plain_append, List.append_assoc] using hitems

/-- So do the items of a list. -/
theorem markedItems_exposes (level : Nat) (vs : List Value) :
    LinesExpose (markedItems level vs) ((Value.allRemarkLines vs).flatMap leak) := by
  match vs with
  | [] => exact .nil
  | v :: vs =>
    rw [markedItems, Value.allRemarkLines, List.flatMap_append]
    exact ((markedValue_exposes level v).line (pad level) ",").append (markedItems_exposes level vs)

/-- So do the children. -/
theorem markedChildren_exposes (level : Nat) (children : Children) :
    LinesExpose (markedChildren level children) (children.remarkLines.flatMap leak) := by
  match children with
  | .none => exact .nil
  | .single slot w =>
    rw [markedChildren, Children.remarkLines]
    exact (markedAt_exposes level w).line (pad level ++ slot ++ ": ") ""
  | .many slot ws =>
    rw [markedChildren, Children.remarkLines]
    have hblock := InlineExposes.block (markedWidgets_exposes (level + 1) ws)
      (pad level ++ slot ++ ": [") (pad level) "]"
    have hline := hblock.line "" ""
    -- the line breaks have to stand apart from the brackets in front of them
    rw [show ": [\n" = ": [" ++ "\n" from rfl, show "]\n" = "]" ++ "\n" from rfl]
    simpa only [plain_append, List.append_assoc, show plain "" = [] from rfl,
      List.nil_append] using hline

/-- So do several widgets. -/
theorem markedWidgets_exposes : ∀ (level : Nat) (ws : List Widget),
    LinesExpose (markedWidgets level ws) ((Widget.allRemarkLines ws).flatMap leak)
  | _, [] => .nil
  | level, w :: ws => by
    rw [markedWidgets, Widget.allRemarkLines, List.flatMap_append]
    exact ((markedAt_exposes level w).line (pad level) ",").append (markedWidgets_exposes level ws)

end

/-- **No comment of a tree becomes code** exactly if the lines of its comments stay in theirs. -/
theorem exposed_markedAt_eq_nil_iff (level : Nat) (w : Widget) :
    exposed .code (markedAt level w) = [] ↔ ∀ line ∈ w.remarkLines, Contained line.toList := by
  obtain ⟨m, hm⟩ := markedAt_exposes level w .code []
  rw [List.append_nil] at hm
  rw [hm, exposed, List.append_nil, List.flatMap_eq_nil_iff]
  exact forall₂_congr fun line _ => leak_eq_nil_iff line

end Dart

end JsxWidgets
