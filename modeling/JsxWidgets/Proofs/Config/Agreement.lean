import JsxWidgets.Config.Field
import JsxWidgets.Proofs.Json.Reading

/-!
# The strict and the lenient way agree

A configuration may be read from a text, where everything has to be right, or taken from values,
where what does not fit is passed over. The two go about it differently: one reads characters and
stops at the first problem, the other looks the choices up by their names. Still they agree on
every single choice. If a choice on its own is read, the lenient way takes the same, and if it is
refused, the lenient way leaves the default (`loadersAgree`).

Both ways come down to one question, whether the value of a choice fits it (`Field.choose?`). On the
lenient side it is asked for each choice (`get_ofFields`), on the strict side for each entry of the
text (`ofJson_toOption`). What is made of a value that fits is the value itself (`Config.get`).
-/

namespace JsxWidgets.Config

open Json

/-! ### Choices -/

/-- **The value of a choice** in a configuration. -/
def get (c : Config) : Field → Literal
  | .frameworkPrefixes => .array (c.frameworkPrefixes.map .text)
  | .textSampleLimit => .int c.textSampleLimit
  | .pageMarkers => .array (c.pageMarkers.map .text)
  | .targetOverrides => .object (c.targetOverrides.map fun entry => (entry.1, .text entry.2))
  | .packageName => .text c.packageName

/-- The values of all choices are the configuration. -/
theorem ext_get {c c' : Config} (h : ∀ f, c.get f = c'.get f) : c = c' := by
  have htexts : Function.Injective (List.map Literal.text) :=
    List.map_injective_iff.mpr fun s t hst => Literal.text.inj hst
  have hentries : Function.Injective
      (List.map fun entry : String × String => (entry.1, Literal.text entry.2)) := by
    refine List.map_injective_iff.mpr fun entry entry' heq => ?_
    obtain ⟨hkey, hvalue⟩ := Prod.mk.inj heq
    exact Prod.ext hkey (Literal.text.inj hvalue)
  have hprefixes := htexts (Literal.array.inj (h .frameworkPrefixes))
  have hlimit := Int.ofNat.inj (Literal.int.inj (h .textSampleLimit))
  have hmarkers := htexts (Literal.array.inj (h .pageMarkers))
  have hoverrides := hentries (Literal.object.inj (h .targetOverrides))
  have hname := Literal.text.inj (h .packageName)
  obtain ⟨prefixes, limit, markers, overrides, name⟩ := c
  obtain ⟨prefixes', limit', markers', overrides', name'⟩ := c'
  simp_all

/-! ### Values that fit -/

theorem asText?_eq_some {v : Literal} {s : String} (h : asText? v = some s) : v = .text s := by
  cases v <;> cases h
  rfl

theorem asNatural?_eq_some {v : Literal} {n : Nat} (h : asNatural? v = some n) : v = .int n := by
  cases v with
  | int i =>
    cases i <;> cases h
    rfl
  | _ => cases h

/-- If all of some values fit, and each of them is told by what is made of it, so are all. -/
theorem mapM_eq_some {α β : Type} {f : α → Option β} {g : β → α}
    (hf : ∀ a b, f a = some b → a = g b) {as : List α} {bs : List β} (h : as.mapM f = some bs) :
    as = bs.map g := by
  induction as generalizing bs with
  | nil => cases h; rfl
  | cons a as ih =>
    rw [List.mapM_cons] at h
    obtain ⟨b, hb, hrest⟩ := Option.bind_eq_some_iff.mp h
    obtain ⟨others, hothers, hsame⟩ := Option.bind_eq_some_iff.mp hrest
    cases hsame
    rw [hf a b hb, ih hothers, List.map_cons]

theorem asList?_eq_some {v : Literal} {ts : List String} (h : asList? asText? v = some ts) :
    v = .array (ts.map .text) := by
  cases v with
  | array vs => rw [mapM_eq_some (fun _ _ => asText?_eq_some) h]
  | _ => cases h

theorem asTexts?_eq_some {v : Literal} {texts : List (String × String)}
    (h : asTexts? v = some texts) :
    v = .object (texts.map fun entry => (entry.1, .text entry.2)) := by
  have hentry : ∀ (entry : String × Literal) (text : String × String),
      asNamedText? entry = some text → entry = (text.1, .text text.2) := by
    rintro ⟨key, v⟩ text htext
    obtain ⟨value, hvalue, rfl⟩ := Option.map_eq_some_iff.mp htext
    exact Prod.ext rfl (asText?_eq_some hvalue)
  cases v with
  | object fields => rw [mapM_eq_some hentry h]
  | _ => cases h

/-- A list of texts is asked for alike by both loaders. -/
theorem texts?_eq (v : Literal) : texts? v = asList? asText? v := by
  cases v with
  | array items =>
    refine congrArg items.mapM (funext fun item => ?_)
    cases item <;> rfl
  | _ => rfl

/-- So is a table of texts. -/
theorem textTable?_eq (v : Literal) : textTable? v = asTexts? v := by
  cases v with
  | object fields =>
    refine congrArg fields.mapM (funext fun entry => ?_)
    obtain ⟨k, v⟩ := entry
    cases v <;> rfl
  | _ => rfl

namespace Field

section

variable (config : Config) (v : Literal)

theorem choose?_frameworkPrefixes : choose? config v .frameworkPrefixes
    = (asList? asText? v).map fun ts => { config with frameworkPrefixes := ts } := by
  rw [choose?, texts?_eq]

theorem choose?_textSampleLimit : choose? config v .textSampleLimit
    = (asNatural? v).map fun n => { config with textSampleLimit := n } := by
  cases v with
  | int i => cases i <;> rfl
  | _ => rfl

theorem choose?_pageMarkers : choose? config v .pageMarkers
    = (asList? asText? v).map fun ts => { config with pageMarkers := ts } := by
  rw [choose?, texts?_eq]

theorem choose?_targetOverrides : choose? config v .targetOverrides
    = (asTexts? v).map fun texts => { config with targetOverrides := texts } := by
  rw [choose?, textTable?_eq]

theorem choose?_packageName : choose? config v .packageName
    = (asText? v).map fun s => { config with packageName := s } := by
  cases v <;> rfl

end

variable {f : Field} {config c : Config} {v : Literal}

/-- Whether a value fits a choice does not depend on what else is chosen. -/
theorem isSome_choose? (f : Field) (config config' : Config) (v : Literal) :
    (f.choose? config v).isSome = (f.choose? config' v).isSome := by
  cases f <;> simp only [choose?_frameworkPrefixes, choose?_textSampleLimit, choose?_pageMarkers,
    choose?_targetOverrides, choose?_packageName, Option.isSome_map]

/-- **A choice that is made has its value**, and no other choice changes. -/
theorem get_of_choose? (h : f.choose? config v = some c) :
    c.get f = v ∧ ∀ g, g ≠ f → c.get g = config.get g := by
  cases f with
  | frameworkPrefixes =>
    rw [choose?_frameworkPrefixes] at h
    obtain ⟨ts, hts, rfl⟩ := Option.map_eq_some_iff.mp h
    refine ⟨(asList?_eq_some hts).symm, fun g hne => ?_⟩
    cases g <;> first | rfl | exact absurd rfl hne
  | textSampleLimit =>
    rw [choose?_textSampleLimit] at h
    obtain ⟨n, hn, rfl⟩ := Option.map_eq_some_iff.mp h
    refine ⟨(asNatural?_eq_some hn).symm, fun g hne => ?_⟩
    cases g <;> first | rfl | exact absurd rfl hne
  | pageMarkers =>
    rw [choose?_pageMarkers] at h
    obtain ⟨ts, hts, rfl⟩ := Option.map_eq_some_iff.mp h
    refine ⟨(asList?_eq_some hts).symm, fun g hne => ?_⟩
    cases g <;> first | rfl | exact absurd rfl hne
  | targetOverrides =>
    rw [choose?_targetOverrides] at h
    obtain ⟨texts, htexts, rfl⟩ := Option.map_eq_some_iff.mp h
    refine ⟨(asTexts?_eq_some htexts).symm, fun g hne => ?_⟩
    cases g <;> first | rfl | exact absurd rfl hne
  | packageName =>
    rw [choose?_packageName] at h
    obtain ⟨s, hs, rfl⟩ := Option.map_eq_some_iff.mp h
    refine ⟨(asText?_eq_some hs).symm, fun g hne => ?_⟩
    cases g <;> first | rfl | exact absurd rfl hne

/-- A choice is told by its name. -/
theorem ofName?_eq_some_iff {name : String} : ofName? name = some f ↔ f.name = name := by
  constructor
  · intro h
    have hname := List.find?_some (p := fun g : Field => decide (g.name = name)) h
    exact of_decide_eq_true hname
  · rintro rfl
    cases f <;> decide

/-- No two fields have one name. -/
theorem name_injective : Function.Injective name := by
  intro f g h
  exact Option.some.inj ((ofName?_eq_some_iff.mpr rfl).symm.trans (ofName?_eq_some_iff.mpr h.symm))

end Field

/-! ### The lenient way -/

/-- The value that is taken for a choice: the one of its name, if it fits. -/
def taken? (m : List (String × Literal)) (f : Field) : Option Literal :=
  (m.lookup f.name).filter fun v => (f.choose? {} v).isSome

section Lenient

variable (m : List (String × Literal)) (config : Config)

/-- **A field is set to what is given for it, if that fits**, and all others stay as they are. -/
theorem get_chooseFrom (f : Field) :
    (f.chooseFrom m config).get f = (taken? m f).getD (config.get f) ∧
      ∀ g, g ≠ f → (f.chooseFrom m config).get g = config.get g := by
  rw [Field.chooseFrom, taken?]
  cases m.lookup f.name with
  | none => exact ⟨rfl, fun g _ => rfl⟩
  | some v =>
    rw [Option.bind_some, Option.filter_some, Field.isSome_choose? f {} config]
    cases hchosen : f.choose? config v with
    | none => exact ⟨rfl, fun g _ => rfl⟩
    | some c => exact Field.get_of_choose? hchosen

/-- Choices that are made one after the other do not disturb each other. -/
theorem get_foldl_chooseFrom {fs : List Field} (hfs : fs.Nodup) (f : Field) :
    (fs.foldl (Field.chooseFrom m) config).get f
      = if f ∈ fs then (taken? m f).getD (config.get f) else config.get f := by
  induction fs generalizing config with
  | nil => rfl
  | cons g fs ih =>
    obtain ⟨hg, hrest⟩ := List.nodup_cons.mp hfs
    obtain ⟨hself, hothers⟩ := get_chooseFrom m config g
    rw [List.foldl_cons, ih _ hrest]
    by_cases hf : f = g
    · -- It is made now, and no choice behind it changes it.
      subst hf
      rw [if_neg hg, if_pos List.mem_cons_self, hself]
    · rw [hothers f hf]
      exact if_congr (by rw [List.mem_cons, or_iff_right hf]) rfl rfl

/-- **The lenient way takes a value for a choice if it fits**, and keeps the default otherwise. -/
theorem get_ofFields (f : Field) :
    (ofFields m).get f = (taken? m f).getD (({} : Config).get f) := by
  have hall : f ∈ Field.all := by cases f <;> decide
  rw [ofFields, get_foldl_chooseFrom m {} (by decide) f, if_pos hall]

end Lenient

/-! ### The strict way -/

/-- What is made of an entry: the value of a choice has to fit, and no choice is made twice. -/
def Draft.take? (d : Draft) (entry : String × Literal) : Option Draft :=
  match Field.ofName? entry.1 with
  | some f =>
    if d.seen.contains f then none
    else (f.choose? d.config entry.2).map fun config => ⟨config, f :: d.seen⟩
  | none => some d

/-- **The configuration that the entries of an object state**, if all of them are right. -/
def stated? (entries : List (String × Literal)) : Option Config :=
  (entries.foldlM Draft.take? {}).map Draft.config

/-- The value of a choice is read as far as it fits. -/
theorem reads_field (bound : Nat) (config : Config) (f : Field) :
    Reads bound (f.read config) fun v => f.choose? config v := by
  intro gap cs v rest hgap hv hlength hrest
  change Yields (f.read config) _ (f.choose? config v) rest
  cases f with
  | frameworkPrefixes =>
    rw [Field.choose?_frameworkPrefixes]
    exact (reads_list (reads_text bound) hgap hv (Nat.lt_succ_of_lt hlength) hrest).map _
  | textSampleLimit =>
    rw [Field.choose?_textSampleLimit]
    exact (reads_natural bound hgap hv hlength hrest).map _
  | pageMarkers =>
    rw [Field.choose?_pageMarkers]
    exact (reads_list (reads_text bound) hgap hv (Nat.lt_succ_of_lt hlength) hrest).map _
  | targetOverrides =>
    rw [Field.choose?_targetOverrides]
    exact (reads_texts bound hgap hv hlength hrest).map _
  | packageName =>
    rw [Field.choose?_packageName]
    exact (reads_text bound hgap hv hlength hrest).map _

/-- An entry of a file is read into the draft, or refused. -/
theorem readsEntry_draft (bound : Nat) :
    ReadsEntry bound true Draft.entry Draft.take? := by
  intro d said name behind gap cs v rest hsame hbehind hgap hv hlength hrest
  obtain rfl := hsame rfl
  unfold Draft.entry Draft.take?
  cases Field.ofName? said with
  | some f =>
    dsimp only
    cases hseen : d.seen.contains f with
    | true => exact ⟨.unfitting, rfl⟩
    | false =>
      -- A new choice: its value is read as far as it fits.
      have hfield : Yields (f.read d.config) (gap ++ (cs ++ rest)) (f.choose? d.config v) rest :=
        reads_field bound d.config f hgap hv hlength hrest
      rw [if_neg Bool.false_ne_true]
      refine Yields.of_eq (run_bind_ok (sign_run hbehind rfl)) ?_
      exact hfield.map fun config => (⟨config, f :: d.seen⟩ : Draft)
  | none =>
    -- Other names mean nothing, whatever value they have.
    refine Yields.of_eq (run_bind_ok (sign_run hbehind rfl)) ?_
    exact Yields.of_eq (run_bind_ok (reads_skip bound hgap hv hlength hrest)) rfl

/-- Behind the opening brace the entries are read. -/
theorem reader_run_object {gap inside : List Char} (hgap : IsGap gap) :
    reader.run (gap ++ '\x7b' :: inside)
      = (fields true Draft.entry {} >>= fun d => pure d.config).run inside := by
  rw [reader, run_bind_ok (front_run hgap rfl), if_pos rfl]
  exact run_bind_ok pass_run

/-- **A text that spells an object is read for what its entries state.** -/
theorem ofJson_toOption {text : String} {entries : List (String × Literal)}
    (h : SpellsObject text entries) : (ofJson text).toOption = stated? entries := by
  obtain ⟨gap, inside, behind, hgap, hbehind, htext, hentries⟩ := h.yields readsEntry_draft {}
  have hyields : Yields reader text.toList (stated? entries) behind := by
    rw [htext]
    exact (hentries.map Draft.config).of_eq (reader_run_object hgap)
  exact hyields.readAll hbehind

/-! ### Both ways -/

section Agreement

variable {d d' : Draft} {c : Config} {k : String} {v : Literal} {text whole : String}
  {entries m m' : List (String × Literal)}

/-- What an entry does that is taken: if it makes a choice, this choice has its value. -/
theorem take?_eq_some (h : d.take? (k, v) = some d') (f : Field) :
    (f.name = k → (f.choose? {} v).isSome ∧ d'.config.get f = v) ∧
      (f.name ≠ k → d'.config.get f = d.config.get f) := by
  unfold Draft.take? at h
  cases hfield : Field.ofName? (k, v).1 with
  | none =>
    rw [hfield] at h
    cases h
    refine ⟨fun hname => ?_, fun _ => rfl⟩
    rw [Field.ofName?_eq_some_iff.mpr hname] at hfield
    cases hfield
  | some g =>
    obtain rfl : g.name = k := Field.ofName?_eq_some_iff.mp hfield
    rw [hfield] at h
    dsimp only at h
    split at h
    · cases h
    · obtain ⟨c, hchosen, rfl⟩ := Option.map_eq_some_iff.mp h
      obtain ⟨hself, hothers⟩ := Field.get_of_choose? hchosen
      refine ⟨fun hname => ?_, fun hname => hothers f fun hsame => hname (congrArg _ hsame)⟩
      obtain rfl := Field.name_injective hname
      rw [Field.isSome_choose? f {} d.config, hchosen]
      exact ⟨rfl, hself⟩

/-- **What entries do that are all taken**: every choice that is made fits and has its value. -/
theorem foldlM_take?_eq_some (h : entries.foldlM Draft.take? d = some d')
    (hkeys : (entries.map Prod.fst).Nodup) (f : Field) :
    (∀ v, entries.lookup f.name = some v → (f.choose? {} v).isSome ∧ d'.config.get f = v) ∧
      (entries.lookup f.name = none → d'.config.get f = d.config.get f) := by
  induction entries generalizing d with
  | nil =>
    cases h
    exact ⟨fun v hv => (nomatch hv), fun _ => rfl⟩
  | cons entry entries ih =>
    obtain ⟨k, v⟩ := entry
    obtain ⟨hk, hrest⟩ := List.nodup_cons.mp hkeys
    rw [List.foldlM_cons] at h
    obtain ⟨d₁, hfirst, hothers⟩ := Option.bind_eq_some_iff.mp h
    obtain ⟨hmade, hleft⟩ := take?_eq_some hfirst f
    obtain ⟨hmade', hleft'⟩ := ih hothers hrest
    by_cases hname : f.name = k
    · -- The choice is made here, and as the names are different, not again.
      obtain ⟨hfits, hvalue⟩ := hmade hname
      have hnone : entries.lookup f.name = none := by
        rw [List.lookup_eq_none_iff]
        intro entry hentry
        have hmem : entry.1 ∈ entries.map Prod.fst := List.mem_map_of_mem hentry
        rw [bne_iff_ne, hname]
        exact fun hsame => hk (hsame ▸ hmem)
      rw [List.lookup_cons, beq_iff_eq.mpr hname]
      refine ⟨fun w hw => ?_, fun hw => (nomatch hw)⟩
      cases hw
      exact ⟨hfits, (hleft' hnone).trans hvalue⟩
    · rw [List.lookup_cons, beq_eq_false_iff_ne.mpr hname]
      exact ⟨hmade', fun hnone => (hleft' hnone).trans (hleft hname)⟩

/-- **What is stated as a whole is taken as a whole.** -/
theorem ofFields_of_stated? (h : stated? m = some c) (hkeys : (m.map Prod.fst).Nodup) :
    ofFields m = c := by
  obtain ⟨d, hd, rfl⟩ := Option.map_eq_some_iff.mp h
  -- The two configurations are compared choice by choice.
  refine ext_get fun f => ?_
  obtain ⟨hmade, hleft⟩ := foldlM_take?_eq_some hd hkeys f
  rw [get_ofFields, taken?]
  cases hv : m.lookup f.name with
  | none => exact (hleft hv).symm
  | some v =>
    obtain ⟨hfits, hvalue⟩ := hmade v hv
    rw [Option.filter_some, if_pos hfits]
    exact hvalue.symm

/-- A choice that is stated on its own is taken if it fits. -/
theorem stated?_single (f : Field) (v : Literal) : stated? [(f.name, v)] = f.choose? {} v := by
  have hentry : Draft.take? {} (f.name, v)
      = (f.choose? {} v).map fun config => ⟨config, [f]⟩ := by
    rw [Draft.take?, Field.ofName?_eq_some_iff.mpr rfl]
    rfl
  rw [stated?, List.foldlM_cons, hentry]
  cases f.choose? {} v <;> rfl

/-- The names of the choices are written as they are. -/
theorem Field.isPlain_name (f : Field) : ∀ ch ∈ f.name.toList, IsPlain ch := by
  have hall : f.name.toList.all (fun ch => decide (IsPlain ch)) = true := by cases f <;> decide
  exact fun ch hch => of_decide_eq_true (List.all_eq_true.mp hall ch hch)

/-- **The two ways agree on some values**, of which a text spells the whole. A choice is looked at
on its own: in a text that states it and nothing else. -/
structure LoadersAgree (whole : String) (m : List (String × Literal)) : Prop where
  /-- Every choice that is stated can be stated on its own. -/
  spelled : ∀ (f : Field) (v : Literal), m.lookup f.name = some v →
    ∃ text, SpellsObject text [(f.name, v)]
  /-- If it is read then, the lenient way has the same value. -/
  accepted : ∀ (f : Field) (v : Literal) (text : String) (c : Config), m.lookup f.name = some v →
    SpellsObject text [(f.name, v)] → ofJson text = .ok c → (ofFields m).get f = c.get f
  /-- If it is refused then, the lenient way has the default. -/
  refused : ∀ (f : Field) (v : Literal) (text : String) (p : Problem), m.lookup f.name = some v →
    SpellsObject text [(f.name, v)] → ofJson text = .error p →
      (ofFields m).get f = ({} : Config).get f
  /-- What is not stated has its default. -/
  absent : ∀ f : Field, m.lookup f.name = none → (ofFields m).get f = ({} : Config).get f
  /-- If the whole is read, the lenient way takes the same. -/
  whole : ∀ c, ofJson whole = .ok c → ofFields m = c
  /-- Nothing that is stated besides has a part in a choice. -/
  apart : ∀ (f : Field) (m' : List (String × Literal)), m'.lookup f.name = m.lookup f.name →
    (ofFields m').get f = (ofFields m).get f

/-- What the lenient way takes for a choice, if the text of this choice alone states `stated`. -/
theorem get_ofFields_of_single {f : Field} (hv : m.lookup f.name = some v)
    (htext : SpellsObject text [(f.name, v)]) :
    (ofFields m).get f = ((ofJson text).toOption.getD {}).get f := by
  -- Both sides ask whether the value fits, and have it if it does.
  rw [ofJson_toOption htext, stated?_single, get_ofFields, taken?, hv, Option.filter_some]
  cases hchosen : f.choose? {} v with
  | none => rfl
  | some c => exact (Field.get_of_choose? hchosen).1.symm

/-- **The lenient way takes what the strict way reads, choice by choice.** -/
theorem loadersAgree (hwhole : SpellsObject whole m) (hkeys : (m.map Prod.fst).Nodup) :
    LoadersAgree whole m where
  spelled f v hv := by
    have hmem : (f.name, v) ∈ m := (Text.lookup_eq_some_iff hkeys).mp hv
    obtain ⟨cs, hcs⟩ := hwhole.exists_spells _ hmem
    exact hcs.alone f.isPlain_name
  accepted f v text c hv htext hread := by
    rw [get_ofFields_of_single hv htext, hread]
    rfl
  refused f v text p hv htext hread := by
    rw [get_ofFields_of_single hv htext, hread]
    rfl
  absent f hnone := by
    rw [get_ofFields, taken?, hnone]
    rfl
  whole c hread := by
    have hstated := ofJson_toOption hwhole
    rw [hread] at hstated
    exact ofFields_of_stated? hstated.symm hkeys
  apart f m' hsame := by
    rw [get_ofFields, get_ofFields, taken?, taken?, hsame]

/-- A limit that fits is taken beside page markers that do not. -/
theorem loadersAgree_badMarkers :
    SpellsObject "\x7b\"textSampleLimit\":3,\"pageMarkers\":42\x7d"
        [("textSampleLimit", .int 3), ("pageMarkers", .int 42)] ∧
      LoadersAgree "\x7b\"textSampleLimit\":3,\"pageMarkers\":42\x7d"
        [("textSampleLimit", .int 3), ("pageMarkers", .int 42)] ∧
      ofFields [("textSampleLimit", .int 3), ("pageMarkers", .int 42)]
        = { textSampleLimit := 3 } := by
  have hthree : Spells ['3'] (.int 3) :=
    .digits ⟨by decide, List.all_eq_true.mp rfl⟩ (by decide) rfl
  have hmany : Spells ['4', '2'] (.int 42) :=
    .digits ⟨by decide, List.all_eq_true.mp rfl⟩ (by decide) rfl
  have hmarkers := SpellsEntries.intro isGap_nil (.of_plain Field.pageMarkers.isPlain_name)
    isGap_nil isGap_nil hmany (.close isGap_nil)
  have hlimit := SpellsEntries.intro isGap_nil (.of_plain Field.textSampleLimit.isPlain_name)
    isGap_nil isGap_nil hthree (.comma isGap_nil hmarkers)
  rw [String.ofList_toList, String.ofList_toList] at hlimit
  have hwhole := SpellsObject.entries isGap_nil hlimit isGap_nil String.toList_ofList
  exact ⟨hwhole, loadersAgree hwhole (by decide), rfl⟩

end Agreement

end JsxWidgets.Config
