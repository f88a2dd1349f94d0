import JsxWidgets.Dart.WidgetFile
import JsxWidgets.Proofs.Emission.Verbatim
import JsxWidgets.Proofs.Widget.Nodes

/-!
# Indentation

The level at which the code of a widget starts only matters for how far its lines are indented: the
code at a deeper level is the code with spaces behind every line feed (`emitAt_add`). So a widget
inside another one, however deep, has the code that it has by itself, indented by its depth
(`emitAt_within`), and the same is true of a tree inside the method that builds it.

Lines are a little awkward here. What is inserted behind the last line feed of some lines does not
belong to these lines, but to what stands behind them. `Deepened` says what there is to say about
lines with the spaces on the other side: those in front of the first line are part of the lines, and
those behind the last line are left over. In this form the law goes through a sequence of lines.
-/

namespace JsxWidgets

open Dart Text

/-! ### Lines at a deeper level -/

namespace Dart

/-- Indentations add up. -/
theorem pad_append_pad (m n : Nat) : pad m ++ pad n = pad (m + n) := by
  rw [pad, pad, pad, ← String.ofList_append, List.replicate_append_replicate, Nat.mul_add]

/-- Behind a line feed there is more indentation. -/
theorem indentLines_break (k : Nat) : indentLines (2 * k) "\n" = "\n" ++ pad k :=
  indentLines_lineFeed (2 * k)

/-- **Lines, and the same lines `k` levels deeper.** -/
def Deepened (k : Nat) (lines deeper : String) : Prop :=
  pad k ++ indentLines (2 * k) lines = deeper ++ pad k

namespace Deepened

variable {k : Nat} {lines deeper more moreDeeper : String}

theorem nil (k : Nat) : Deepened k "" "" := by
  rw [Deepened, indentLines_of_oneLine _ (by decide), String.append_empty, String.empty_append]

theorem append (h : Deepened k lines deeper) (h' : Deepened k more moreDeeper) :
    Deepened k (lines ++ more) (deeper ++ moreDeeper) := by
  calc pad k ++ indentLines (2 * k) (lines ++ more)
      = pad k ++ indentLines (2 * k) lines ++ indentLines (2 * k) more := by
        rw [indentLines_append, String.append_assoc]
    _ = deeper ++ (pad k ++ indentLines (2 * k) more) := by rw [h, String.append_assoc]
    _ = deeper ++ moreDeeper ++ pad k := by rw [h', String.append_assoc]

/-- A line; `ending` is what it ends in, line feed and all. -/
theorem line {n : Nat} {inline inlineDeeper ending : String}
    (h : indentLines (2 * k) inline = inlineDeeper)
    (hending : indentLines (2 * k) ending = ending ++ pad k) :
    Deepened k (pad n ++ inline ++ ending) (pad (n + k) ++ inlineDeeper ++ ending) := by
  rw [Deepened, indentLines_append, indentLines_append, h, hending,
    indentLines_of_oneLine _ (oneLine_pad n), Nat.add_comm n k, ← pad_append_pad k n]
  simp only [String.append_assoc]

theorem join {α : Type} {xs : List α} {f g : α → String}
    (h : ∀ x ∈ xs, Deepened k (f x) (g x)) :
    Deepened k (String.join (xs.map f)) (String.join (xs.map g)) := by
  induction xs with
  | nil => exact nil k
  | cons x xs ih =>
    rw [List.map_cons, List.map_cons, String.join_cons, String.join_cons]
    exact (h x List.mem_cons_self).append (ih fun y hy => h y (List.mem_cons_of_mem _ hy))

/-- Lines between an opening and a closing bracket, which stand on lines of their own. -/
theorem block {n : Nat} {opening closing : String} (hopening : OneLine opening)
    (hclosing : OneLine closing) (h : Deepened k lines deeper) :
    indentLines (2 * k) (opening ++ "\n" ++ lines ++ pad n ++ closing) =
      opening ++ "\n" ++ deeper ++ pad (n + k) ++ closing := by
  -- every part of the block is shifted by itself, then the shifts meet in the padding
  calc indentLines (2 * k) (opening ++ "\n" ++ lines ++ pad n ++ closing)
      = opening ++ "\n" ++ (pad k ++ indentLines (2 * k) lines) ++ pad n ++ closing := by
        rw [indentLines_append, indentLines_append, indentLines_append, indentLines_append,
          indentLines_of_oneLine _ hopening, indentLines_break,
          indentLines_of_oneLine _ (oneLine_pad n), indentLines_of_oneLine _ hclosing]
        simp only [String.append_assoc]
    _ = opening ++ "\n" ++ deeper ++ (pad k ++ pad n) ++ closing := by
        rw [h]
        simp only [String.append_assoc]
    _ = opening ++ "\n" ++ deeper ++ pad (n + k) ++ closing := by
        rw [pad_append_pad, Nat.add_comm k n]

end Deepened

theorem indentLines_comma (k : Nat) : indentLines (2 * k) ",\n" = ",\n" ++ pad k := by
  rw [show ",\n" = "," ++ "\n" from rfl, indentLines_append, indentLines_break,
    indentLines_of_oneLine _ (by decide), String.append_assoc]

theorem indentLines_separator (k : Nat) (moreFollow : Bool) :
    indentLines (2 * k) (separator moreFollow) = separator moreFollow ++ pad k := by
  cases moreFollow with
  | true => exact indentLines_comma k
  | false => exact indentLines_break k

/-! ### The code at a deeper level -/

/-- The lines of a comment are deepened. -/
theorem commentLines_deepened (n k : Nat) (text : String) :
    Deepened k (commentLines n text) (commentLines (n + k) text) := by
  refine Deepened.join fun line hline => ?_
  have hinline : OneLine ("// " ++ line) :=
    oneLine_append.mpr ⟨by decide, oneLine_of_mem_lines hline⟩
  have h := Deepened.line (n := n) (indentLines_of_oneLine (2 * k) hinline) (indentLines_break k)
  simpa only [String.append_assoc] using h

mutual

/-- **The code of a widget at a deeper level.** -/
theorem emitAt_add (n k : Nat) (w : Widget) (h : ∀ s ∈ w.verbatim, OneLine s) :
    emitAt (n + k) w = indentLines (2 * k) (emitAt n w) := by
  match w, h with
  | .mk tag properties comments children source, h =>
    rw [Widget.verbatim, List.forall_mem_cons, List.forall_mem_append] at h
    obtain ⟨htag, hproperties, hchildren⟩ := h
    generalize hw : Widget.mk tag properties comments children source = w
    have htag' : OneLine w.tag := by
      rw [← hw]
      exact htag
    by_cases hnothing : w.tag = ""
    · rw [emitAt_nothing hnothing, emitAt_nothing hnothing]
      exact (indentLines_of_oneLine _ (by decide)).symm
    · cases hempty : w.isEmpty with
      | true =>
        rw [emitAt_bare hnothing hempty, emitAt_bare hnothing hempty]
        exact (indentLines_of_oneLine _ (oneLine_bareCode htag')).symm
      | false =>
        -- the comments, the arguments and the children are shifted each on their own lines
        have hlines : Deepened k (blockLines (n + 1) w) (blockLines (n + 1 + k) w) := by
          have hcomments : Deepened k (String.join (comments.map (commentLines (n + 1))))
              (String.join (comments.map (commentLines (n + 1 + k)))) :=
            .join fun text _ => commentLines_deepened (n + 1) k text
          rw [← hw]
          have hchildren' := emitChildren_deepened (n + 1) k children hchildren
          refine (hcomments.append ?_).append hchildren'
          exact emitProperties_deepened (n + 1) k _ properties hproperties
        have hopening : OneLine (w.tag ++ "(") := oneLine_append.mpr ⟨htag', by decide⟩
        rw [emitAt_block hnothing hempty, emitAt_block hnothing hempty, Nat.add_right_comm n k 1]
        exact (hlines.block hopening (by decide)).symm

/-- So are arguments. -/
theorem emitProperties_deepened (n k : Nat) (moreFollow : Bool) (ps : List Property)
    (h : ∀ s ∈ Property.verbatimOf ps, OneLine s) :
    Deepened k (emitProperties n moreFollow ps) (emitProperties (n + k) moreFollow ps) := by
  match ps, h with
  | [], _ => exact .nil k
  | .mk key value isComment :: rest, h =>
    rw [Property.verbatimOf, List.forall_mem_append] at h
    rw [emitProperties, emitProperties]
    refine Deepened.append ?_ (emitProperties_deepened n k moreFollow rest h.2)
    cases isComment with
    | true => exact commentLines_deepened n k _
    | false =>
      rw [if_neg Bool.false_ne_true, if_neg Bool.false_ne_true]
      rw [if_neg Bool.false_ne_true, List.forall_mem_cons] at h
      have hinline : indentLines (2 * k) (label key ++ emitValue n value)
          = label key ++ emitValue (n + k) value := by
        rw [indentLines_append, indentLines_of_oneLine _ (oneLine_label h.1.1),
          emitValue_add n k value h.1.2]
      have hline := Deepened.line (n := n) hinline (indentLines_separator k
        (moreFollow || rest.any fun p => !p.isComment))
      simpa only [String.append_assoc] using hline

/-- A value at a deeper level has more indentation behind every line feed. -/
theorem emitValue_add (n k : Nat) (v : Value) (h : ∀ s ∈ v.verbatim, OneLine s) :
    emitValue (n + k) v = indentLines (2 * k) (emitValue n v) := by
  match v, h with
  | .raw s, h =>
    rw [emitValue, emitValue, indentLines_of_oneLine _ (h s (List.mem_singleton_self s))]
  | .text s, _ => rw [emitValue, emitValue, indentLines_of_oneLine _ (oneLine_quoted s)]
  | .flag b, _ =>
    rw [emitValue, emitValue, indentLines_of_oneLine]
    cases b <;> decide
  | .widget w, h =>
    rw [emitValue, emitValue]
    exact emitAt_add n k w h
  | .list [], _ =>
    rw [emitValue, emitValue]
    exact (indentLines_of_oneLine _ (by decide)).symm
  | .list (v :: vs), h =>
    have hopening : OneLine "[" := by decide
    have hclosing : OneLine "]" := by decide
    -- the items stand one level deeper than the bracket that closes the list
    have hitems := (emitItems_deepened (n + 1) k (v :: vs) h).block (n := n) hopening hclosing
    rw [emitItems, emitItems, Nat.add_right_comm n 1 k] at hitems
    rw [emitValue, emitValue, show "[\n" = "[" ++ "\n" from rfl]
    simpa only [String.append_assoc] using hitems.symm

/-- The items of a list are deepened. -/
theorem emitItems_deepened (n k : Nat) (vs : List Value)
    (h : ∀ s ∈ Value.verbatimOf vs, OneLine s) :
    Deepened k (emitItems n vs) (emitItems (n + k) vs) := by
  match vs, h with
  | [], _ => exact .nil k
  | v :: vs, h =>
    rw [Value.verbatimOf, List.forall_mem_append] at h
    rw [emitItems, emitItems]
    exact (Deepened.line (emitValue_add n k v h.1).symm (indentLines_comma k)).append
      (emitItems_deepened n k vs h.2)

/-- So are children. -/
theorem emitChildren_deepened (n k : Nat) (children : Children)
    (h : ∀ s ∈ children.verbatim, OneLine s) :
    Deepened k (emitChildren n children) (emitChildren (n + k) children) := by
  match children, h with
  | .none, _ => exact .nil k
  | .single slot w, h =>
    rw [Children.verbatim, List.forall_mem_cons] at h
    have hinline : indentLines (2 * k) (slot ++ ": " ++ emitAt n w)
        = slot ++ ": " ++ emitAt (n + k) w := by
      rw [indentLines_append, indentLines_append, indentLines_of_oneLine _ h.1,
        indentLines_of_oneLine _ (by decide), emitAt_add n k w h.2]
    have hline := Deepened.line (n := n) hinline (indentLines_break k)
    rw [emitChildren, emitChildren]
    simpa only [String.append_assoc] using hline
  | .many slot ws, h =>
    rw [Children.verbatim, List.forall_mem_cons] at h
    have hopening : OneLine (slot ++ ": [") := oneLine_append.mpr ⟨h.1, by decide⟩
    have hfirst := Deepened.line (n := n) (indentLines_of_oneLine (2 * k) hopening)
      (indentLines_break k)
    have hlast := Deepened.line (n := n) (indentLines_of_oneLine (2 * k) (s := "]") (by decide))
      (indentLines_break k)
    have hwidgets := emitWidgets_deepened (n + 1) k ws h.2
    have hlines := (hfirst.append hwidgets).append hlast
    rw [Nat.add_right_comm n 1 k] at hlines
    rw [emitChildren, emitChildren, show ": [\n" = ": [" ++ "\n" from rfl,
      show "]\n" = "]" ++ "\n" from rfl]
    simpa only [String.append_assoc] using hlines

/-- So are several widgets. -/
theorem emitWidgets_deepened (n k : Nat) (ws : List Widget)
    (h : ∀ s ∈ Widget.verbatimOf ws, OneLine s) :
    Deepened k (emitWidgets n ws) (emitWidgets (n + k) ws) := by
  match ws, h with
  | [], _ => exact .nil k
  | w :: ws, h =>
    rw [Widget.verbatimOf, List.forall_mem_append] at h
    rw [emitWidgets, emitWidgets]
    exact (Deepened.line (emitAt_add n k w h.1).symm (indentLines_comma k)).append
      (emitWidgets_deepened n k ws h.2)

end

end Dart

/-! ### Widgets inside widgets -/

mutual

/-- **A widget inside another one**, so many levels below it. An argument and a child in a slot
stand one level below their widget, the children of a collection two, for they are items of a list
in an argument. What is inside a comment is not written, so nothing is reached through it. -/
inductive Widget.Reaches : Nat → Widget → Widget → Prop
  /-- A widget reaches itself. -/
  | self (w : Widget) : Widget.Reaches 0 w w
  /-- Through the value of an argument. -/
  | argument {depth : Nat} {w v : Widget} (p : Property) : p ∈ w.properties →
    p.isComment = false → Value.Reaches depth p.value v → Widget.Reaches (depth + 1) w v
  /-- Through the child in a slot. -/
  | single {depth : Nat} {w v : Widget} (slot : String) (child : Widget) :
    w.children = .single slot child → Widget.Reaches depth child v → Widget.Reaches (depth + 1) w v
  /-- Through a child of a collection. -/
  | many {depth : Nat} {w v : Widget} (slot : String) (ws : List Widget) (child : Widget) :
    w.children = .many slot ws → child ∈ ws → Widget.Reaches depth child v →
    Widget.Reaches (depth + 2) w v

/-- A widget inside a value. -/
inductive Value.Reaches : Nat → Value → Widget → Prop
  /-- A widget as a value. -/
  | widget {depth : Nat} {w v : Widget} : Widget.Reaches depth w v →
    Value.Reaches depth (.widget w) v
  /-- In an item of a list. -/
  | item {depth : Nat} {values : List Value} {v : Widget} (value : Value) : value ∈ values →
    Value.Reaches depth value v → Value.Reaches (depth + 1) (.list values) v

end

namespace Dart

/-- The value of a real argument is among the lines of the arguments. -/
theorem emitValue_within (level : Nat) (moreFollow : Bool) {ps : List Property} {p : Property}
    (hp : p ∈ ps) (hreal : p.isComment = false) :
    Within (emitValue level p.value) (emitProperties level moreFollow ps) := by
  induction ps with
  | nil => cases hp
  | cons q ps ih =>
    obtain ⟨key, value, isComment⟩ := q
    rw [emitProperties]
    rcases List.mem_cons.mp hp with rfl | hrest
    · rw [if_neg (by rw [show isComment = false from hreal]; decide)]
      exact (((Within.refl _).append_left (pad level ++ label key)).append_right _).append_right _
    · exact (ih hrest).append_left _

/-- An item of a list is among its lines. -/
theorem emitItems_within (level : Nat) {vs : List Value} {v : Value} (hv : v ∈ vs) :
    Within (emitValue level v) (emitItems level vs) := by
  induction vs with
  | nil => cases hv
  | cons x vs ih =>
    rw [emitItems]
    rcases List.mem_cons.mp hv with rfl | hrest
    · exact (((Within.refl _).append_left (pad level)).append_right _).append_right _
    · exact (ih hrest).append_left _

/-- A child is among the lines of the children. -/
theorem emitWidgets_within (level : Nat) {ws : List Widget} {w : Widget} (hw : w ∈ ws) :
    Within (emitAt level w) (emitWidgets level ws) := by
  induction ws with
  | nil => cases hw
  | cons x ws ih =>
    rw [emitWidgets]
    rcases List.mem_cons.mp hw with rfl | hrest
    · exact (((Within.refl _).append_left (pad level)).append_right _).append_right _
    · exact (ih hrest).append_left _

/-- The lines of a widget with a tag and something between its parentheses are in its code. -/
theorem blockLines_within (level : Nat) {w : Widget} (htag : w.tag ≠ "")
    (hempty : w.isEmpty = false) : Within (blockLines (level + 1) w) (emitAt level w) := by
  rw [emitAt_block htag hempty]
  exact (((Within.refl _).append_left _).append_right _).append_right _

/-- The lines of the children are in the code of a widget that has some. -/
theorem emitChildren_within (level : Nat) {w : Widget} (htag : w.tag ≠ "")
    (hchildren : w.children.isEmpty = false) :
    Within (emitChildren (level + 1) w.children) (emitAt level w) :=
  ((Within.refl _).append_left _).trans
    (blockLines_within level htag (isEmpty_of_children hchildren))

mutual

/-- **A widget inside another one has its own code there**, at the level where it stands. -/
theorem emitAt_within (level : Nat) {depth : Nat} {w v : Widget} (h : w.Reaches depth v)
    (htags : ∀ x ∈ w.nodes, x.tag ≠ "") : Within (emitAt (level + depth) v) (emitAt level w) := by
  have htag : w.tag ≠ "" := htags w w.self_mem_nodes
  match h with
  | .self w => exact .refl _
  | .argument p hp hreal hvalue =>
    -- the tags below an argument are among those of the whole widget
    have htags' : ∀ x ∈ p.value.nodes, x.tag ≠ "" := fun x hx =>
      htags x (Widget.mem_nodes_iff.mpr (Or.inr (Or.inl ⟨p, hp, hx⟩)))
    have hbelow := value_within (level + 1) hvalue htags'
    rw [Nat.add_assoc, Nat.add_comm 1] at hbelow
    have hlines := emitValue_within (level + 1) (hasChildLine w.children) hp hreal
    have hblock : Within (emitValue (level + 1) p.value) (blockLines (level + 1) w) :=
      (hlines.append_left _).append_right _
    exact (hbelow.trans hblock).trans
      (blockLines_within level htag (isEmpty_of_mem_properties hp))
  | .single slot child hchildren hchild =>
    have htags' : ∀ x ∈ child.nodes, x.tag ≠ "" := by
      intro x hx
      refine htags x (Widget.mem_nodes_iff.mpr (Or.inr (Or.inr ?_)))
      rw [hchildren, Children.nodes]
      exact hx
    have hbelow := emitAt_within (level + 1) hchild htags'
    rw [Nat.add_assoc, Nat.add_comm 1] at hbelow
    have hlines : Within (emitAt (level + 1) child) (emitChildren (level + 1) w.children) := by
      rw [hchildren, emitChildren]
      exact ((Within.refl _).append_left _).append_right _
    exact (hbelow.trans hlines).trans (emitChildren_within level htag (by rw [hchildren]; rfl))
  | .many slot ws child hchildren hmem hchild =>
    have htags' : ∀ x ∈ child.nodes, x.tag ≠ "" := by
      intro x hx
      refine htags x (Widget.mem_nodes_iff.mpr (Or.inr (Or.inr ?_)))
      rw [hchildren, Children.nodes]
      exact Widget.mem_nodesOf.mpr ⟨child, hmem, hx⟩
    -- a child of a list stands two levels below its parent
    have hbelow := emitAt_within (level + 2) hchild htags'
    rw [Nat.add_assoc, Nat.add_comm 2] at hbelow
    have hlines : Within (emitAt (level + 2) child) (emitChildren (level + 1) w.children) := by
      rw [hchildren, emitChildren]
      exact (((emitWidgets_within (level + 2) hmem).append_left _).append_right _).append_right _
    refine (hbelow.trans hlines).trans (emitChildren_within level htag ?_)
    rw [hchildren]
    exact List.isEmpty_eq_false_iff.mpr (List.ne_nil_of_mem hmem)

/-- A widget that is reached in a value has its own code there. -/
theorem value_within (level : Nat) {depth : Nat} {value : Value} {v : Widget}
    (h : value.Reaches depth v) (htags : ∀ x ∈ value.nodes, x.tag ≠ "") :
    Within (emitAt (level + depth) v) (emitValue level value) := by
  match value, h with
  | .widget w, .widget hw =>
    rw [Value.nodes] at htags
    rw [emitValue]
    exact emitAt_within level hw htags
  | .list [], .item item hmem hitem => cases hmem
  | .list (first :: rest), .item item hmem hitem =>
    have htags' : ∀ x ∈ item.nodes, x.tag ≠ "" := by
      intro x hx
      refine htags x ?_
      rw [Value.nodes]
      exact Widget.mem_valueNodesOf.mpr ⟨item, hmem, hx⟩
    have hbelow := value_within (level + 1) hitem htags'
    rw [Nat.add_assoc, Nat.add_comm 1] at hbelow
    have hlines := emitItems_within (level + 1) hmem
    rw [emitItems] at hlines
    -- the item stands within the list's lines, and these within its brackets
    have hlist := ((hbelow.trans hlines).append_left "[\n").append_right (pad level ++ "]")
    rw [emitValue]
    simpa only [String.append_assoc] using hlist

end

/-! ### The method that builds a tree -/

/-- The line of a method that takes a property from the widget. -/
def takeLine (name : String) : String := "    final " ++ name ++ " = widget." ++ name ++ ";"

/-- The lines of a file end in the method that builds its tree. -/
theorem lines_build (f : WidgetFile) : ∃ (front names : List String),
    f.headLines ++ f.classLines = front ++ "  Widget build(BuildContext context) \x7b"
      :: (names.map takeLine ++ ["    return " ++ emitAt 2 f.root ++ ";", "  \x7d", "\x7d"]) := by
  -- The names are taken from the widget where another class holds the state.
  cases hstate : f.state with
  | none =>
    refine ⟨f.headLines ++ (["class " ++ f.name ++ " extends StatelessWidget \x7b"]
      ++ f.memberLines ++ [""] ++ ["  @override"]), [], ?_⟩
    rw [WidgetFile.classLines, hstate]
    simp only [WidgetFile.buildLines, List.append_assoc, List.map_nil]
    rfl
  | some fields =>
    refine ⟨f.headLines ++ (["class " ++ f.name ++ " extends StatefulWidget \x7b"] ++ f.memberLines
      ++ ["", "  @override",
        "  State<" ++ f.name ++ "> createState() => _" ++ f.name ++ "State();", "\x7d", "",
        "class _" ++ f.name ++ "State extends State<" ++ f.name ++ "> \x7b"]
      ++ fields.map Field.stateLine ++ [""] ++ ["  @override"]), f.fields.map (·.name), ?_⟩
    rw [WidgetFile.classLines, hstate]
    simp only [WidgetFile.buildLines, List.append_assoc]
    rfl

/-- **The code of a file ends in the method that builds its tree.** -/
theorem code_build (f : WidgetFile) : ∃ (front : String) (names : List String),
    f.code = front ++ "  Widget build(BuildContext context) \x7b\n"
      ++ String.join (names.map fun n => takeLine n ++ "\n")
      ++ "    return " ++ emitAt 2 f.root ++ ";\n  \x7d\n\x7d\n" := by
  obtain ⟨front, names, hlines⟩ := lines_build f
  refine ⟨String.join (front.map (· ++ "\n")), names, ?_⟩
  rw [WidgetFile.code, hlines]
  simp only [List.map_append, List.map_map, List.map_cons, List.map_nil, String.join_append,
    String.join_cons, String.join_nil, String.append_assoc]
  rfl

/-- **The law of indentation.** For a tree without line feeds in the texts that are written as they
are: the code at a deeper level has two more spaces for each level behind every line feed; if all
widgets have tags, every widget inside the tree has its own code there, at the level of its depth;
and the method that builds the tree returns its code with four more spaces on every line but the
first. -/
theorem emit_indentation (w : Widget) (h : ∀ s ∈ w.verbatim, OneLine s) :
    (∀ n k, emitAt (n + k) w = indentLines (2 * k) (emitAt n w)) ∧
    ((∀ x ∈ w.nodes, x.tag ≠ "") →
      ∀ depth v, w.Reaches depth v → Within (emitAt depth v) (emit w)) ∧
    ∀ f : WidgetFile, f.root = w → ∃ (front : String) (names : List String),
      f.code = front ++ "  Widget build(BuildContext context) \x7b\n"
        ++ String.join (names.map fun n => takeLine n ++ "\n")
        ++ "    return " ++ indentLines 4 (emit w) ++ ";\n  \x7d\n\x7d\n" := by
  have hadd := fun n k => emitAt_add n k w h
  refine ⟨hadd, fun htags depth v hv => ?_, ?_⟩
  · have hwithin := emitAt_within 0 hv htags
    rwa [Nat.zero_add] at hwithin
  · rintro f rfl
    -- the method prints its widget at level two, which is a shift by four blanks
    have htwo : emitAt 2 f.root = indentLines 4 (emit f.root) := hadd 0 2
    rw [← htwo]
    exact code_build f

/-- A widget in a box in a column, with a comment: it stands three levels below the column, and has
its own code there. -/
theorem emit_indentation_column :
    (∀ s ∈ Widget.verbatim (.mk "Column" [] ["two\nlines"] (.many "children"
        [.mk "Center" [] [] (.single "child" (.mk "Spacer" [] [] .none none)) none]) none),
      OneLine s) ∧
    Widget.Reaches 3 (.mk "Column" [] ["two\nlines"] (.many "children"
      [.mk "Center" [] [] (.single "child" (.mk "Spacer" [] [] .none none)) none]) none)
      (.mk "Spacer" [] [] .none none) ∧
    Within (emitAt 3 (.mk "Spacer" [] [] .none none))
      (emit (.mk "Column" [] ["two\nlines"] (.many "children"
        [.mk "Center" [] [] (.single "child" (.mk "Spacer" [] [] .none none)) none]) none)) := by
  have hlines : ∀ s ∈ Widget.verbatim (.mk "Column" [] ["two\nlines"] (.many "children"
      [.mk "Center" [] [] (.single "child" (.mk "Spacer" [] [] .none none)) none]) none),
      OneLine s := by decide
  have htags : ∀ x ∈ Widget.nodes (.mk "Column" [] ["two\nlines"] (.many "children"
      [.mk "Center" [] [] (.single "child" (.mk "Spacer" [] [] .none none)) none]) none),
      x.tag ≠ "" := by
    simp [Widget.nodes, Property.nodesOf, Children.nodes, Widget.nodesOf, Widget.tag]
  have hreaches : Widget.Reaches 3 (.mk "Column" [] ["two\nlines"] (.many "children"
      [.mk "Center" [] [] (.single "child" (.mk "Spacer" [] [] .none none)) none]) none)
      (.mk "Spacer" [] [] .none none) :=
    .many "children" _ _ rfl List.mem_cons_self (.single "child" _ rfl (.self _))
  exact ⟨hlines, hreaches, (emit_indentation _ hlines).2.1 htags 3 _ hreaches⟩

end Dart

end JsxWidgets
