import Mathlib.Tactic.SplitIfs
import JsxWidgets.Dart.Text

/-!
# Reading a text in quotes

A reader of Dart goes through a text in single quotes character by character. A quote closes the
text, a dollar sign starts an interpolation, a line may not end inside the text, and a backslash
changes what the character behind it says (`readText`). What the reader comes to is a
`QuotedReading`: the text and what stands behind its quote, or the thing that it stumbles over.

A text that is written in quotes is read back, whatever it is and whatever stands behind it
(`readQuoted_quoted`). One step of the induction is one character of the text: what is written for
it is read as that character, and leaves the reader inside the text (`readText_escape`).
-/

namespace JsxWidgets.Dart

/-! ### The reader -/

/-- **What reading a text in single quotes comes to.** -/
inductive QuotedReading where
  /-- The quote that closes the text: what the text says, and what stands behind the quote. -/
  | closed (text behind : String)
  /-- An interpolation. -/
  | interpolation
  /-- The end of a line inside the text. -/
  | lineEnd
  /-- An escape that gives a character by its number. -/
  | numbered
  /-- The end of the file inside the text. -/
  | unclosed
  /-- Something that is no text in quotes. -/
  | unopened
  deriving DecidableEq, Repr

/-- Whether a character ends a line. -/
def isLineEnd (c : Char) : Bool := c = '\n' || c = '\r'

/-- What a character says behind a backslash. Most characters say themselves; `x` and `u` are
followed by the number of a character. -/
def unescape? (c : Char) : Option Char :=
  if c = 'n' then some '\n'
  else if c = 'r' then some '\r'
  else if c = 't' then some '\t'
  else if c = 'b' then some '\x08'
  else if c = 'f' then some '\x0c'
  else if c = 'v' then some '\x0b'
  else if c = 'x' || c = 'u' then none
  else some c

/-- Reads on inside a text; `said` is what the text has said so far. -/
def readText (said : List Char) : List Char → QuotedReading
  | [] => .unclosed
  | c :: rest =>
    if c = '\x27' then .closed (String.ofList said) (String.ofList rest)
    else if c = '$' then .interpolation
    else if isLineEnd c then .lineEnd
    else if c = '\\' then
      match rest with
      | [] => .unclosed
      | d :: rest =>
        if isLineEnd d then .lineEnd
        else
          match unescape? d with
          | some e => readText (said ++ [e]) rest
          | none => .numbered
    else readText (said ++ [c]) rest

/-- **Reads a text in single quotes** from its opening quote on. -/
def readQuoted (code : String) : QuotedReading :=
  match code.toList with
  | [] => .unopened
  | c :: rest => if c = '\x27' then readText [] rest else .unopened

/-! ### What is written is read back -/

section Reader

variable (said rest : List Char)

theorem readText_quote :
    readText said ('\x27' :: rest) = .closed (String.ofList said) (String.ofList rest) := by
  rw [readText.eq_def]
  exact if_pos rfl

/-- Behind a backslash, a character is read for what it says there. -/
theorem readText_backslash {d e : Char} (hline : isLineEnd d = false) (h : unescape? d = some e) :
    readText said ('\\' :: d :: rest) = readText (said ++ [e]) rest := by
  conv => lhs; rw [readText.eq_def]
  dsimp only
  rw [if_neg (by decide), if_neg (by decide), if_neg (by decide), if_pos rfl,
    if_neg (by rw [hline]; decide), h]

/-- A character without a meaning of its own is read for itself. -/
theorem readText_plain {c : Char} (hquote : c ≠ '\x27') (hdollar : c ≠ '$')
    (hline : isLineEnd c = false) (hbackslash : c ≠ '\\') :
    readText said (c :: rest) = readText (said ++ [c]) rest := by
  conv => lhs; rw [readText.eq_def]
  simp [hquote, hdollar, hline, hbackslash]

/-- **What is written for a character is read as that character.** -/
theorem readText_escape (c : Char) :
    readText said (escape c ++ rest) = readText (said ++ [c]) rest := by
  -- one case for each character that has an escape, and one for all others
  unfold escape
  split_ifs with hbackslash hquote hdollar hfeed hreturn htab
  · subst hbackslash
    exact readText_backslash said rest rfl rfl
  · subst hquote
    exact readText_backslash said rest rfl rfl
  · subst hdollar
    exact readText_backslash said rest rfl rfl
  · subst hfeed
    exact readText_backslash said rest rfl rfl
  · subst hreturn
    exact readText_backslash said rest rfl rfl
  · subst htab
    exact readText_backslash said rest rfl rfl
  · have hline : isLineEnd c = false := by simp [isLineEnd, hfeed, hreturn]
    exact readText_plain said rest hquote hdollar hline hbackslash

/-- What is written for several characters is read as these characters, up to the quote. -/
theorem readText_escapes (cs : List Char) :
    readText said (cs.flatMap escape ++ '\x27' :: rest)
      = .closed (String.ofList (said ++ cs)) (String.ofList rest) := by
  induction cs generalizing said with
  | nil => rw [List.flatMap_nil, List.nil_append, readText_quote, List.append_nil]
  | cons c cs ih =>
    rw [List.flatMap_cons, List.append_assoc, readText_escape, ih, List.append_assoc]
    rfl

end Reader

/-- No line ends in what is written for a character. -/
theorem isLineEnd_escape {c d : Char} (hd : d ∈ escape c) : isLineEnd d = false := by
  unfold escape at hd
  split_ifs at hd with hbackslash hquote hdollar hfeed hreturn htab
  case neg =>
    obtain rfl := List.mem_singleton.mp hd
    simp [isLineEnd, hfeed, hreturn]
  -- An escape is a backslash and the character behind it.
  all_goals
    rw [List.mem_cons, List.mem_singleton] at hd
    rcases hd with rfl | rfl <;> rfl

/-- **A text in quotes is read back**: whatever stands behind it, the reader closes the text at its
last quote, and has then read the text. It meets no interpolation on its way, and no line ends
before that quote. -/
theorem readQuoted_quoted (s behind : String) :
    readQuoted (quoted s ++ behind) = .closed s behind ∧
      ∀ c ∈ (quoted s).toList, isLineEnd c = false := by
  have hquoted : (quoted s).toList = '\x27' :: (s.toList.flatMap escape ++ ['\x27']) := by
    simp only [quoted, escaped, String.toList_append, String.toList_ofList, List.append_assoc]
    rfl
  constructor
  · rw [readQuoted, String.toList_append, hquoted]
    simp only [List.cons_append, List.append_assoc, List.nil_append, if_true]
    rw [readText_escapes, List.nil_append, String.ofList_toList, String.ofList_toList]
  · intro c hc
    rw [hquoted, List.mem_cons, List.mem_append, List.mem_singleton] at hc
    rcases hc with rfl | hinside | rfl
    · rfl
    · obtain ⟨d, -, hd⟩ := List.mem_flatMap.mp hinside
      exact isLineEnd_escape hd
    · rfl

-- What the reader stumbles over, and a quote that closes a text too early.
example : readQuoted "'$a'" = .interpolation ∧ readQuoted "'\\'" = .unclosed ∧
    readQuoted "'it's'" = .closed "it" "s'" := by decide

end JsxWidgets.Dart
