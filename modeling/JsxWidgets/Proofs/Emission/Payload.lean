import Mathlib.Data.Nat.Init
import JsxWidgets.Dart.Emission
import JsxWidgets.Proofs.Emission.Quoted
import JsxWidgets.Widget.Payload

/-!
# Payloads as they are written

The payload of a text widget is a text if all its pieces are fixed, and code otherwise. What is
written is the same in both cases: the pieces in quotes, with single spaces between them
(`TextPiece.emitValue_payload`). For a text it is the whole that is escaped, for code every piece;
this makes no difference, since escaping goes character by character (`Dart.escaped_intercalate`).

That a fixed piece says what it says, and nothing else, is a matter of reading. A reader of a text
with interpolations (`Dart.readItems`) finds their beginnings and the quote that closes the text.
Where the code of an interpolation ends is a matter of the grammar of expressions, so the reader is
told the codes that it will meet. It then meets the characters of the fixed pieces and the codes of
the others, in order, and nothing more (`TextPiece.readItems_pieces`).
-/

namespace JsxWidgets

namespace Dart

/-! ### Escaping piece by piece -/

theorem escaped_append (s t : String) : escaped (s ++ t) = escaped s ++ escaped t := by
  rw [escaped, String.toList_append, List.flatMap_append, String.ofList_append]
  rfl

/-- Between escaped texts stand the same spaces as between the texts. -/
theorem escaped_intercalate (texts : List String) :
    escaped (" ".intercalate texts) = " ".intercalate (texts.map escaped) := by
  induction texts with
  | nil => rw [List.map_nil, String.intercalate_nil]; rfl
  | cons s rest ih =>
    cases rest with
    | nil => simp only [List.map_cons, List.map_nil, String.intercalate_singleton]
    | cons t rest =>
      have hspace : escaped " " = " " := by decide
      rw [List.map_cons, List.map_cons, String.intercalate_cons_cons, String.intercalate_cons_cons,
        escaped_append, escaped_append, hspace, ih, List.map_cons]

/-! ### The reader -/

/-- **What a reader meets inside a text.** -/
inductive TextItem where
  /-- A character that the text says. -/
  | said (c : Char)
  /-- An interpolation with its code. -/
  | code (code : String)
  deriving DecidableEq, Repr

/-- Reads one character inside a text: what it says, and what stands behind it. The quote that
closes the text says nothing, and neither do the beginning of an interpolation, the end of a line
and an escape by number. -/
def readChar? : List Char → Option (Char × List Char)
  | [] => none
  | c :: rest =>
    if c = '\x27' || c = '$' || isLineEnd c then none
    else if c = '\\' then
      match rest with
      | [] => none
      | d :: rest => if isLineEnd d then none else (unescape? d).map fun e => (e, rest)
    else some (c, rest)

theorem length_lt_of_readChar? {chars rest : List Char} {c : Char}
    (h : readChar? chars = some (c, rest)) : rest.length < chars.length := by
  match chars, h with
  | c' :: chars, h =>
    rw [readChar?.eq_def] at h
    dsimp only at h
    split at h
    · cases h
    · split at h
      -- an escape takes at least its backslash and the character behind it
      · match chars, h with
        | d :: chars, h =>
          dsimp only at h
          split at h
          · cases h
          · obtain ⟨e, -, he⟩ := Option.map_eq_some_iff.mp h
            cases he
            simp only [List.length_cons]
            omega
      · cases h
        exact Nat.lt_succ_self _

/-- **Reads a text with interpolations** from behind its opening quote, up to the quote that closes
it: what the reader meets, and what stands behind that quote. The reader is told the codes of the
interpolations, for it cannot tell by itself where they end. -/
def readItems (codes : List String) (chars : List Char) : Option (List TextItem × List Char) :=
  match _hread : readChar? chars with
  | some (c, rest) => (readItems codes rest).map fun (items, behind) => (.said c :: items, behind)
  | none =>
    match codes, chars with
    | [], '\x27' :: behind => some ([], behind)
    | code :: codes, '$' :: '\x7b' :: rest =>
      if (code.toList ++ ['\x7d']).isPrefixOf rest then
        (readItems codes (rest.drop (code.toList ++ ['\x7d']).length)).map fun (items, behind) =>
          (.code code :: items, behind)
      else none
    | _, _ => none
termination_by chars.length
decreasing_by
  · exact length_lt_of_readChar? ‹_›
  · simp only [List.length_cons, List.length_drop]
    omega

/-- **Reads a text with interpolations** from its opening quote on. -/
def readInterpolated (codes : List String) (code : String) : Option (List TextItem × List Char) :=
  match code.toList with
  | '\x27' :: inside => readItems codes inside
  | _ => none

/-- **What is written for a character is read as that character.** -/
theorem readChar?_escape (c : Char) (rest : List Char) :
    readChar? (escape c ++ rest) = some (c, rest) := by
  unfold escape
  split_ifs with hbackslash hquote hdollar hfeed hreturn htab
  case neg =>
    have hline : isLineEnd c = false := by simp [isLineEnd, hfeed, hreturn]
    simp [readChar?, hbackslash, hquote, hdollar, hline]
  all_goals
    subst c
    rfl

section Reader

variable (codes : List String) (rest behind : List Char)

/-- What is read behind some items comes behind them. -/
def prepend (items : List TextItem) (r : Option (List TextItem × List Char)) :
    Option (List TextItem × List Char) :=
  r.map fun (more, behind) => (items ++ more, behind)

theorem prepend_prepend (items more : List TextItem) (r : Option (List TextItem × List Char)) :
    prepend items (prepend more r) = prepend (items ++ more) r := by
  cases r with
  | none => rfl
  | some r => simp only [prepend, Option.map_some, List.append_assoc]

theorem readItems_escape (c : Char) :
    readItems codes (escape c ++ rest) = prepend [.said c] (readItems codes rest) := by
  rw [readItems.eq_def]
  split
  · next c' rest' h =>
    rw [readChar?_escape] at h
    cases h
    rfl
  · next h =>
    rw [readChar?_escape] at h
    cases h

/-- The reader stays inside the text while it reads what is written for characters. -/
theorem readItems_escapes (chars : List Char) :
    readItems codes (chars.flatMap escape ++ rest)
      = prepend (chars.map .said) (readItems codes rest) := by
  induction chars with
  | nil => rw [List.flatMap_nil, List.nil_append, List.map_nil, prepend]; simp
  | cons c chars ih =>
    rw [List.flatMap_cons, List.append_assoc, readItems_escape, ih, prepend_prepend]
    rfl

theorem readItems_quote : readItems [] ('\x27' :: behind) = some ([], behind) := by
  rw [readItems.eq_def]
  rfl

theorem readItems_interpolation (code : String) :
    readItems (code :: codes) ('$' :: '\x7b' :: (code.toList ++ ['\x7d'] ++ rest))
      = prepend [.code code] (readItems codes rest) := by
  rw [readItems.eq_def]
  split
  · next h => cases h
  · refine (if_pos (List.isPrefixOf_iff_prefix.mpr (List.prefix_append _ _))).trans ?_
    rw [List.drop_left]
    rfl

end Reader

end Dart

open Dart

namespace TextPiece

/-! ### Payloads -/

theorem eq_map_fixed {pieces : List TextPiece} {texts : List String}
    (h : pieces.mapM fixed? = some texts) : pieces = texts.map fixed := by
  induction pieces generalizing texts with
  | nil =>
    cases h
    rfl
  | cons p rest ih =>
    rw [List.mapM_cons] at h
    cases p with
    | fixed s =>
      obtain ⟨texts', hrest, heq⟩ : ∃ texts', rest.mapM fixed? = some texts' ∧
          some (s :: texts') = some texts := Option.bind_eq_some_iff.mp h
      cases heq
      rw [ih hrest, List.map_cons]
    | computed c => cases h

/-- The payload of pieces is written piece by piece, be it a text or code. -/
theorem emitValue_payload (level : Nat) (pieces : List TextPiece) :
    emitValue level (payload pieces) = "'" ++ " ".intercalate (pieces.map code) ++ "'" := by
  rw [payload]
  split
  · next texts h =>
    rw [eq_map_fixed h, emitValue, quoted, escaped_intercalate, List.map_map]
    rfl
  · rw [emitValue]

/-- The code of a piece that is computed. -/
def computed? : TextPiece → Option String
  | .fixed _ => none
  | .computed c => some c

/-- What a reader is to meet in a piece. -/
def items : TextPiece → List TextItem
  | .fixed s => s.toList.map .said
  | .computed c => [.code c]

/-- **What a reader is to meet in pieces** with single spaces between them. -/
def itemsOf (pieces : List TextPiece) : List TextItem :=
  [.said ' '].intercalate (pieces.map items)

/-- A piece is read as itself, and the reader is inside the text behind it. -/
theorem readItems_code (p : TextPiece) (codes : List String) (rest : List Char) :
    readItems (p.computed?.toList ++ codes) (p.code.toList ++ rest)
      = prepend p.items (readItems codes rest) := by
  cases p with
  | fixed s =>
    rw [code, escaped, String.toList_ofList]
    exact readItems_escapes codes rest s.toList
  | computed c =>
    have hcode : (TextPiece.computed c).code.toList ++ rest
        = '$' :: '\x7b' :: (c.toList ++ ['\x7d'] ++ rest) := by
      simp only [code, String.toList_append, List.append_assoc]
      rfl
    rw [hcode]
    exact readItems_interpolation codes rest c

/-- **Pieces are read as themselves**, up to the quote behind them. -/
theorem readItems_pieces (pieces : List TextPiece) (behind : List Char) :
    readItems (pieces.filterMap computed?)
        ((" ".intercalate (pieces.map code)).toList ++ '\x27' :: behind)
      = some (itemsOf pieces, behind) := by
  induction pieces with
  | nil => exact readItems_quote behind
  | cons p rest ih =>
    have hcodes :
        (p :: rest).filterMap computed? = p.computed?.toList ++ rest.filterMap computed? := by
      cases p <;> rfl
    rw [hcodes]
    -- the blank stands only between two pieces, so the last one is a case of its own
    cases rest with
    | nil =>
      rw [List.map_cons, List.map_nil, String.intercalate_singleton, readItems_code,
        List.filterMap_nil, readItems_quote, itemsOf, List.map_cons, List.map_nil,
        List.intercalate_singleton]
      exact congrArg some (Prod.ext (List.append_nil _) rfl)
    | cons q rest =>
      have hspace : " ".toList = escape ' ' := by decide
      have hitems : itemsOf (p :: q :: rest) = p.items ++ ([.said ' '] ++ itemsOf (q :: rest)) := by
        simp only [itemsOf, List.map_cons, List.intercalate_cons_cons, List.append_assoc]
      rw [List.map_cons, List.map_cons, String.intercalate_cons_cons, ← List.map_cons,
        String.toList_append, String.toList_append, hspace, List.append_assoc, List.append_assoc,
        readItems_code, readItems_escape, ih, hitems]
      rfl

/-- **Payloads are written piece by piece and read back piece by piece.** What is written is, in
quotes and with single spaces between them, every fixed piece as it would be written in quotes of
its own and every computed piece as an interpolation, whether there are computed pieces or not. A
reader, whatever stands behind, closes the text at its last quote and has then met the characters of
the fixed pieces, said by the text, and the computed pieces, each as one interpolation. So no
character of a fixed piece closes the text or starts an interpolation. -/
theorem payload_piecewise (level : Nat) (pieces : List TextPiece) :
    emitValue level (payload pieces) = "'" ++ " ".intercalate (pieces.map code) ++ "'" ∧
      (∀ s, "'" ++ (fixed s).code ++ "'" = quoted s) ∧
      (∀ c, (computed c).code = "$" ++ "\x7b" ++ c ++ "\x7d") ∧
      ∀ behind : String,
        readInterpolated (pieces.filterMap computed?) (emitValue level (payload pieces) ++ behind)
          = some (itemsOf pieces, behind.toList) := by
  refine ⟨emitValue_payload level pieces, fun s => rfl, fun c => rfl, fun behind => ?_⟩
  have hquoted : (emitValue level (payload pieces) ++ behind).toList
      = '\x27' :: ((" ".intercalate (pieces.map code)).toList ++ '\x27' :: behind.toList) := by
    rw [emitValue_payload]
    simp only [String.toList_append, List.append_assoc]
    rfl
  rw [readInterpolated, hquoted]
  exact readItems_pieces pieces behind.toList

-- A quote and a dollar sign in fixed pieces, beside an interpolation.
example :
    emitValue 0 (payload [fixed "it's $5", computed "a.b"]) = "'it\\'s \\$5 $\x7ba.b\x7d'" := by
  decide

end TextPiece

end JsxWidgets
