import JsxWidgets.Proofs.Emission.Marked
import JsxWidgets.Proofs.File.StateFields

/-!
# Remarks in a file

Besides the comments of its tree, a file has remarks on defaults that no parameter can have, and
remarks on initial values that no field can start with. Both go on a line together with a name, and
both hold a piece of the text that is read, as it is. The names are made of letters, digits and
underscores, so in front of a remark a reader is in a comment and nowhere else.

Nothing cuts a remark into lines. So the text of a remark exposes what a line of a comment would,
and line feeds in it count as well (`exposed_eq_nil_iff`).
-/

namespace JsxWidgets.Dart

/-! ### Marked files -/

/-- The remark on a default, with the default marked. -/
def DefaultRemark.markedLine (r : DefaultRemark) : MarkedText :=
  plain ("  // " ++ r.name ++ " defaults to ") ++ remark r.default

/-- A field of the state, with a remark on its initial value marked. -/
def Field.markedStateLine (f : Field) : MarkedText :=
  plain ("  " ++ f.typeCode ++ " " ++ f.name) ++
    match f.initial with
    | .unknown => plain ";"
    | .value v => plain (" = " ++ v.dart ++ ";")
    | .remark text => plain "; // initial: " ++ remark text

namespace WidgetFile

/-- The lines of the constructor and the fields. Behind the remarks they are code. -/
def markedMemberLines (f : WidgetFile) : List MarkedText :=
  f.remarks.map DefaultRemark.markedLine ++ (memberLines { f with remarks := [] }).map plain

/-- The lines of the method that builds the tree. -/
def markedBuildLines (f : WidgetFile) (names : List String) : List MarkedText :=
  ["  @override", "  Widget build(BuildContext context) \x7b"].map plain
    ++ names.map (fun n => plain ("    final " ++ n ++ " = widget." ++ n ++ ";"))
    ++ [plain "    return " ++ markedAt 2 f.root ++ plain ";", plain "  \x7d"]

/-- The lines of the classes of a component. -/
def markedClassLines (f : WidgetFile) : List MarkedText :=
  match f.state with
  | none =>
    [plain ("class " ++ f.name ++ " extends StatelessWidget \x7b")] ++ f.markedMemberLines
      ++ [plain ""] ++ f.markedBuildLines [] ++ [plain "\x7d"]
  | some fields =>
    [plain ("class " ++ f.name ++ " extends StatefulWidget \x7b")] ++ f.markedMemberLines
      ++ ["", "  @override",
        "  State<" ++ f.name ++ "> createState() => _" ++ f.name ++ "State();", "\x7d", "",
        "class _" ++ f.name ++ "State extends State<" ++ f.name ++ "> \x7b"].map plain
      ++ fields.map Field.markedStateLine ++ [plain ""]
      ++ f.markedBuildLines (f.fields.map (·.name)) ++ [plain "\x7d"]

/-- **The code of a file**, with the texts of its comments and remarks marked. -/
def marked (f : WidgetFile) : MarkedText :=
  (f.headLines.map plain ++ f.markedClassLines).flatMap (· ++ plain "\n")

end WidgetFile

/-- Without the marks a remark on a default is the line that is written. -/
theorem text_markedLine (r : DefaultRemark) : r.markedLine.text = r.line := by
  rw [DefaultRemark.markedLine, text_append, text_plain, text_remark, DefaultRemark.line]

/-- So is a field of the state. -/
theorem text_markedStateLine (f : Field) : f.markedStateLine.text = f.stateLine := by
  rw [Field.markedStateLine, Field.stateLine, text_append, text_plain]
  cases f.initial <;> simp only [text_append, text_plain, text_remark]

/-- So are lines of code. -/
theorem map_text_plain (lines : List String) : (lines.map plain).map MarkedText.text = lines := by
  rw [List.map_map]
  exact (List.map_congr_left fun s _ => text_plain s).trans (List.map_id lines)

/-- So are the lines of the constructor and the fields. -/
theorem map_text_markedMemberLines (f : WidgetFile) :
    f.markedMemberLines.map MarkedText.text = f.memberLines := by
  have hremarks : (f.remarks.map DefaultRemark.markedLine).map MarkedText.text
      = f.remarks.map DefaultRemark.line := by
    rw [List.map_map]
    exact List.map_congr_left fun r _ => text_markedLine r
  rw [WidgetFile.markedMemberLines, List.map_append, map_text_plain, hremarks,
    WidgetFile.memberLines, WidgetFile.memberLines]
  simp only [List.map_nil, List.nil_append, List.append_assoc]

/-- So are those of the method that builds the tree. -/
theorem map_text_markedBuildLines (f : WidgetFile) (names : List String) :
    (f.markedBuildLines names).map MarkedText.text = f.buildLines names := by
  have hnames : (names.map fun n => plain ("    final " ++ n ++ " = widget." ++ n ++ ";")).map
      MarkedText.text = names.map fun n => "    final " ++ n ++ " = widget." ++ n ++ ";" := by
    rw [List.map_map]
    exact List.map_congr_left fun n _ => text_plain _
  rw [WidgetFile.markedBuildLines, List.map_append, List.map_append, map_text_plain, hnames,
    WidgetFile.buildLines]
  simp only [List.map_cons, List.map_nil, text_append, text_plain, text_markedAt]

/-- So are those of the classes. -/
theorem map_text_markedClassLines (f : WidgetFile) :
    f.markedClassLines.map MarkedText.text = f.classLines := by
  have hfields (fields : List Field) : (fields.map Field.markedStateLine).map MarkedText.text
      = fields.map Field.stateLine := by
    rw [List.map_map]
    exact List.map_congr_left fun field _ => text_markedStateLine field
  rw [WidgetFile.markedClassLines, WidgetFile.classLines]
  cases f.state with
  | none =>
    simp only [List.map_append, List.map_cons, List.map_nil, text_plain, map_text_markedMemberLines,
      map_text_markedBuildLines]
  | some fields =>
    simp only [List.map_append, List.map_cons, List.map_nil, text_plain, map_text_markedMemberLines,
      map_text_markedBuildLines, hfields]

/-- **Without its marks, the marked code of a file is its code.** -/
theorem text_marked (f : WidgetFile) : f.marked.text = f.code := by
  have hlines : (f.headLines.map plain ++ f.markedClassLines).map MarkedText.text
      = f.headLines ++ f.classLines := by
    rw [List.map_append, map_text_plain, map_text_markedClassLines]
  rw [WidgetFile.marked, text_flatMap, WidgetFile.code, ← hlines, List.map_map]
  refine congrArg String.join (List.map_congr_left fun line _ => ?_)
  rw [text_append, text_plain]
  rfl

/-! ### Names in front of remarks -/

/-- A name of a field consists of letters, digits and underscores. -/
theorem isIdentifier_chars {name : String} (h : isIdentifier name = true) {c : Char}
    (hc : c ∈ name.toList) : (Text.isAsciiAlphanumeric c || c = '_') = true := by
  rw [isIdentifier] at h
  cases hchars : name.toList with
  | nil =>
    rw [hchars] at h
    cases h
  | cons d rest =>
    rw [hchars] at h hc
    obtain ⟨hfirst, hrest⟩ := (Bool.and_eq_true _ _).mp h
    rcases List.mem_cons.mp hc with rfl | hc
    · rw [Text.isAsciiAlphanumeric, Bool.or_right_comm, hfirst, Bool.true_or]
    · exact List.all_eq_true.mp hrest c hc

/-- A name keeps a reader where he is, in code. -/
theorem isCalm_of_isIdentifier {name : String} (h : isIdentifier name = true) :
    isCalm name = true := by
  rw [isCalm, List.all_eq_true]
  intro c hc
  have hpart := isIdentifier_chars h hc
  have hne (d : Char) (hd : (Text.isAsciiAlphanumeric d || d = '_') = false) : c ≠ d := by
    rintro rfl
    rw [hd] at hpart
    cases hpart
  rw [Bool.and_eq_true, Bool.and_eq_true, decide_eq_true_eq, decide_eq_true_eq, decide_eq_true_eq]
  exact ⟨⟨hne _ (by decide), hne _ (by decide)⟩, hne _ (by decide)⟩

/-- A name keeps a reader where he is, in a comment. -/
theorem isUnbroken_of_isIdentifier {name : String} (h : isIdentifier name = true) :
    isUnbroken name = true := by
  rw [isUnbroken, List.all_eq_true]
  intro c hc
  have hpart := isIdentifier_chars h hc
  rw [Bool.not_eq_true', isLineEnd, Bool.or_eq_false_iff, decide_eq_false_iff_not,
    decide_eq_false_iff_not]
  constructor <;>
  · rintro rfl
    exact absurd hpart (by decide)

/-- The type of a field is calm code. -/
theorem isCalm_typeCode (f : Field) : isCalm f.typeCode = true := by
  rw [Field.typeCode]
  cases f.type <;> cases f.nullable <;> decide

/-! ### What a file exposes -/

/-- The remark on the initial value of a field, if there is one. -/
def Field.remark? (f : Field) : Option String :=
  match f.initial with
  | .remark text => some text
  | _ => none

/-- **The texts of comments in a file**: the defaults that are remarked on, the initial values that
are remarked on, and the lines of the comments of the tree. -/
def WidgetFile.remarkLines (f : WidgetFile) : List String :=
  f.remarks.map (·.default) ++ (f.state.getD []).filterMap Field.remark? ++ f.root.remarkLines

/-- **What a list of lines exposes** when each of them gets a line feed. -/
def AllExpose (lines : List MarkedText) (chars : List Char) : Prop :=
  LinesExpose (lines.flatMap (· ++ plain "\n")) chars

/-- Lists of lines expose what each of them does. -/
theorem AllExpose.append {lines more : List MarkedText} {chars chars' : List Char}
    (h : AllExpose lines chars) (h' : AllExpose more chars') :
    AllExpose (lines ++ more) (chars ++ chars') := by
  have hboth := LinesExpose.append h h'
  rwa [← List.flatMap_append] at hboth

/-- A single line exposes what it does with its line feed. -/
theorem AllExpose.single {line : MarkedText} {chars : List Char}
    (h : LinesExpose (line ++ Dart.plain "\n") chars) : AllExpose [line] chars := by
  have hnil := LinesExpose.append h .nil
  rwa [List.append_nil chars] at hnil

/-- Each of several things has a line. -/
theorem AllExpose.map {α : Type} {xs : List α} {f : α → MarkedText} {g : α → List Char}
    (h : ∀ x ∈ xs, LinesExpose (f x ++ Dart.plain "\n") (g x)) :
    AllExpose (xs.map f) (xs.flatMap g) := by
  rw [AllExpose, List.flatMap_map]
  exact .flatMap h

/-- Lines of code expose nothing. -/
theorem AllExpose.plain (lines : List String) : AllExpose (lines.map plain) [] := by
  have hlines : AllExpose (lines.map Dart.plain) (lines.flatMap fun _ => []) :=
    .map fun line _ => (InlineExposes.plain line).line "" ""
  rwa [List.flatMap_eq_nil_iff.mpr fun _ _ => rfl] at hlines

/-- Lines of code in front of other lines and behind them expose nothing. -/
theorem AllExpose.between {lines : List MarkedText} {chars : List Char} (h : AllExpose lines chars)
    (front behind : List String) :
    AllExpose (front.map Dart.plain ++ lines ++ behind.map Dart.plain) chars := by
  have hall := ((AllExpose.plain front).append h).append (.plain behind)
  rwa [List.nil_append, List.append_nil] at hall

/-- A remark on a default exposes what leaks from the default. -/
theorem linesExpose_markedLine {r : DefaultRemark} (h : isIdentifier r.name = true) :
    LinesExpose (r.markedLine ++ plain "\n") (leak r.default) := by
  intro rest
  have hdefaults : isUnbroken " defaults to " = true := by decide
  calc exposed .code (r.markedLine ++ plain "\n" ++ rest)
      = exposed .code (plain "  " ++ (plain "// " ++ (plain r.name ++ (plain " defaults to "
          ++ (remark r.default ++ (plain "\n" ++ rest)))))) := by
        rw [DefaultRemark.markedLine, show "  // " = "  " ++ "// " from rfl]
        simp only [plain_append, List.append_assoc]
    _ = exposed .comment (remark r.default ++ (plain "\n" ++ rest)) := by
        rw [exposed_code_plain (by decide), exposed_slashes,
          exposed_comment_plain (isUnbroken_of_isIdentifier h), exposed_comment_plain hdefaults]
    _ = leak r.default ++ exposed .code rest := exposed_line _ _ _

/-- A field of the state exposes what leaks from the remark on its initial value. -/
theorem linesExpose_markedStateLine {f : Field} (h : isIdentifier f.name = true) :
    LinesExpose (f.markedStateLine ++ plain "\n") (f.remark?.toList.flatMap leak) := by
  rw [Field.markedStateLine, Field.remark?]
  cases f.initial with
  | unknown => exact ((InlineExposes.plain _).append (.plain ";")).line "" ""
  | value v => exact ((InlineExposes.plain _).append (.plain _)).line "" ""
  -- the remark stands behind two slashes, so its own text is read in comment mode
  | remark text =>
    intro rest
    have hhead : isCalm ("  " ++ f.typeCode ++ " " ++ f.name ++ "; ") = true := by
      rw [isCalm_append, isCalm_append, isCalm_append, isCalm_append, isCalm_typeCode,
        isCalm_of_isIdentifier h]
      decide
    have hinitial : isUnbroken "initial: " = true := by decide
    calc exposed .code (plain ("  " ++ f.typeCode ++ " " ++ f.name)
          ++ (plain "; // initial: " ++ remark text) ++ plain "\n" ++ rest)
        = exposed .code (plain ("  " ++ f.typeCode ++ " " ++ f.name ++ "; ") ++ (plain "// "
            ++ (plain "initial: " ++ (remark text ++ (plain "\n" ++ rest))))) := by
          rw [show "; // initial: " = "; " ++ ("// " ++ "initial: ") from rfl]
          simp only [plain_append, List.append_assoc]
      _ = exposed .comment (remark text ++ (plain "\n" ++ rest)) := by
          rw [exposed_code_plain hhead, exposed_slashes, exposed_comment_plain hinitial]
      _ = [text].flatMap leak ++ exposed .code rest := by
          rw [exposed_line, List.flatMap_cons, List.flatMap_nil, List.append_nil]
          rfl

/-- The constructor and the fields expose what leaks from the defaults. -/
theorem allExpose_markedMemberLines {f : WidgetFile}
    (h : ∀ r ∈ f.remarks, isIdentifier r.name = true) :
    AllExpose f.markedMemberLines ((f.remarks.map (·.default)).flatMap leak) := by
  have hremarks : AllExpose (f.remarks.map DefaultRemark.markedLine)
      (f.remarks.flatMap fun r => leak r.default) :=
    .map fun r hr => linesExpose_markedLine (h r hr)
  have hboth := hremarks.append (.plain (WidgetFile.memberLines { f with remarks := [] }))
  rw [List.append_nil] at hboth
  rwa [List.flatMap_map]

/-- The fields of the state expose what leaks from the remarks on them. -/
theorem allExpose_markedStateLines {fields : List Field}
    (h : ∀ f ∈ fields, isIdentifier f.name = true) :
    AllExpose (fields.map Field.markedStateLine)
      ((fields.filterMap Field.remark?).flatMap leak) := by
  rw [List.filterMap_eq_flatMap_toList, List.flatMap_assoc]
  exact .map fun f hf => linesExpose_markedStateLine (h f hf)

/-- The method that builds the tree exposes what leaks from the comments in the tree. -/
theorem allExpose_markedBuildLines (f : WidgetFile) (names : List String) :
    AllExpose (f.markedBuildLines names) (f.root.remarkLines.flatMap leak) := by
  have hline := (markedAt_exposes 2 f.root).line "    return " ";"
  rw [plain_append, ← List.append_assoc] at hline
  have hlines := (AllExpose.single hline).between
    (["  @override", "  Widget build(BuildContext context) \x7b"]
      ++ names.map fun n => "    final " ++ n ++ " = widget." ++ n ++ ";") ["  \x7d"]
  rw [List.map_append, List.map_map, List.append_assoc] at hlines
  exact hlines

/-- **A file exposes what leaks from the texts of its comments**, if the names in it are names of
fields. -/
theorem linesExpose_marked {f : WidgetFile} (hremarks : ∀ r ∈ f.remarks, isIdentifier r.name = true)
    (hfields : ∀ field ∈ f.state.getD [], isIdentifier field.name = true) :
    LinesExpose f.marked (f.remarkLines.flatMap leak) := by
  have hmembers := allExpose_markedMemberLines hremarks
  have hbuild (names : List String) := allExpose_markedBuildLines f names
  have hclass : AllExpose f.markedClassLines (f.remarkLines.flatMap leak) := by
    rw [WidgetFile.markedClassLines, WidgetFile.remarkLines, List.flatMap_append,
      List.flatMap_append]
    -- with state there are two classes, and the members stand in the first
    cases hstate : f.state with
    | none =>
      have hlines := (hmembers.between ["class " ++ f.name ++ " extends StatelessWidget \x7b"]
        [""]).append ((hbuild []).between [] ["\x7d"])
      rw [Option.getD_none, List.filterMap_nil, List.flatMap_nil, List.append_nil]
      simpa only [List.map_cons, List.map_nil, List.nil_append, List.append_assoc] using hlines
    | some fields =>
      rw [hstate, Option.getD_some] at hfields
      have hlines := ((hmembers.between ["class " ++ f.name ++ " extends StatefulWidget \x7b"]
        ["", "  @override",
          "  State<" ++ f.name ++ "> createState() => _" ++ f.name ++ "State();", "\x7d", "",
          "class _" ++ f.name ++ "State extends State<" ++ f.name ++ "> \x7b"]).append
        ((allExpose_markedStateLines hfields).between [] [""])).append
          ((hbuild (f.fields.map (·.name))).between [] ["\x7d"])
      rw [Option.getD_some]
      simpa only [List.map_cons, List.map_nil, List.nil_append, List.append_assoc] using hlines
  exact (AllExpose.plain f.headLines).append hclass

/-- The names in a file that is made from analyses are made of letters, digits and underscores. -/
theorem isIdentifier_of_mem_remarks {π : Type} (s : ComponentStructure) (a : StateAnalysis π)
    (t : LoweredTree) (config : Config) :
    ∀ r ∈ (WidgetFile.ofAnalyses s a t config).remarks, isIdentifier r.name = true := by
  intro r hr
  obtain ⟨p, hp, hremark⟩ := List.mem_filterMap.mp hr
  have hname : r.name = p.name := by
    rw [defaultRemark?] at hremark
    split at hremark
    · cases hremark
      rfl
    · cases hremark
  rw [hname]
  exact (List.mem_filter.mp hp).2

/-- In a file made from analyses all fields of the state have such names. -/
theorem isIdentifier_of_mem_state {π : Type} (s : ComponentStructure) (a : StateAnalysis π)
    (t : LoweredTree) (config : Config) :
    ∀ field ∈ (WidgetFile.ofAnalyses s a t config).state.getD [],
      isIdentifier field.name = true := by
  intro field hfield
  rw [WidgetFile.ofAnalyses] at hfield
  dsimp only at hfield
  split at hfield
  · obtain ⟨v, hv, rfl⟩ := List.mem_map.mp hfield
    rw [stateFieldOf_eq, name_fieldOfDeclaration]
    exact (List.mem_filter.mp hv).2
  · cases hfield

/-- **Comments do not become code**, except for lines that do not stay in their comments. Of the
code of a tree, and of that of a file made from analyses, the marked characters outside of comments
are those that such lines expose, so there are none exactly if all lines stay in their comments. -/
theorem exposed_eq_nil_iff {π : Type} (w : Widget) (s : ComponentStructure) (a : StateAnalysis π)
    (t : LoweredTree) (config : Config) :
    ((markedAt 0 w).text = emit w ∧
      (exposed .code (markedAt 0 w) = [] ↔ ∀ line ∈ w.remarkLines, Contained line.toList)) ∧
    ((WidgetFile.ofAnalyses s a t config).marked.text = (WidgetFile.ofAnalyses s a t config).code ∧
      (exposed .code (WidgetFile.ofAnalyses s a t config).marked = [] ↔
        ∀ line ∈ (WidgetFile.ofAnalyses s a t config).remarkLines, Contained line.toList)) := by
  refine ⟨⟨text_markedAt 0 w, exposed_markedAt_eq_nil_iff 0 w⟩, text_marked _, ?_⟩
  have hall := linesExpose_marked (isIdentifier_of_mem_remarks s a t config)
    (isIdentifier_of_mem_state s a t config) []
  rw [List.append_nil, exposed, List.append_nil] at hall
  rw [hall, List.flatMap_eq_nil_iff]
  exact forall₂_congr fun line _ => leak_eq_nil_iff line

/-- What stands behind a carriage return in a comment is printed as code. -/
theorem exposed_carriageReturn :
    (markedAt 0 (.mk "T" [] ["a\rb"] .none none)).text
        = emit (.mk "T" [] ["a\rb"] .none none) ∧
      exposed .code (markedAt 0 (.mk "T" [] ["a\rb"] .none none)) = ['b'] := by
  decide

end JsxWidgets.Dart
