import JsxWidgets.Syntax.Grammar.Types

/-!
# What readings give

`Reading.Yields p s Q` says that whatever the reading `p` gives in the state `s`, it satisfies `Q`
together with the state behind it. Nothing is said where the reading fails. One law for each way of
putting readings together says what has to hold of the parts, so that a rule of the grammar is gone
through in the order in which it reads.

What a rule builds hardly ever depends on how the text is read on: whatever state it starts in, the
nodes that it gives have the shape that it puts together. `Reading.Gives p P` says so, without
states. Its laws follow the text of a rule step by step, and most steps are passed over, since only
few of them give something that the result is built from.
-/

namespace JsxWidgets.Syntax.Reading

variable {α β σ : Type}

/-- **What a reading gives in a state** satisfies a condition, with the state behind it. -/
def Yields (p : Reading α) (s : ReadState) (Q : α → ReadState → Prop) : Prop :=
  ∀ a s', p s = .ok a s' → Q a s'

section Laws

variable {p : Reading α} {s : ReadState} {Q : α → ReadState → Prop}

/-- What is known of every result may be weakened. -/
theorem Yields.mono {R : α → ReadState → Prop} (h : Yields p s R)
    (himp : ∀ a s', R a s' → Q a s') : Yields p s Q :=
  fun a s' heq => himp a s' (h a s' heq)

/-- What holds of everything holds of every result. -/
theorem Yields.of_forall (h : ∀ a s', Q a s') : Yields p s Q := fun a s' _ => h a s'

/-- A reading that only gives a result gives that one, and passes nothing. -/
theorem yields_pure (a : α) : Yields (pure a) s Q ↔ Q a s := by
  constructor
  · intro h
    exact h a s rfl
  · rintro h b s' heq
    cases heq
    exact h

/-- A reading behind another one goes on from each of its results. -/
theorem yields_bind {f : α → Reading β} {Q : β → ReadState → Prop} :
    Yields (p >>= f) s Q ↔ Yields p s fun a s' => Yields (f a) s' Q := by
  constructor
  · intro h a s' heq b s'' hf
    refine h b s'' ?_
    change EStateM.bind p f s = _
    rw [EStateM.bind, heq]
    exact hf
  · intro h b s'' heq
    change EStateM.bind p f s = _ at heq
    rw [EStateM.bind] at heq
    -- only if the first reading succeeds is there anything to show
    cases hp : p s with
    | ok a s' =>
      rw [hp] at heq
      exact h a s' hp b s'' heq
    | error e s' =>
      rw [hp] at heq
      cases heq

/-- Nothing has to be known of the first part. -/
theorem yields_bind_of_forall {f : α → Reading β} {Q : β → ReadState → Prop}
    (h : ∀ a s', Yields (f a) s' Q) : Yields (p >>= f) s Q :=
  yields_bind.mpr (.of_forall h)

/-- A choice gives what the branch that is taken gives. -/
theorem yields_ite {c : Prop} [Decidable c] {q : Reading α} (hp : c → Yields p s Q)
    (hq : ¬ c → Yields q s Q) : Yields (if c then p else q) s Q := by
  split
  · next h => exact hp h
  · next h => exact hq h

/-- Asking for the state gives the state. -/
theorem yields_get {Q : ReadState → ReadState → Prop} : Yields get s Q ↔ Q s s := by
  constructor
  · intro h
    exact h s s rfl
  · rintro h a s' heq
    cases heq
    exact h

/-- Looking at the next token gives the token of the state. -/
theorem yields_peek {Q : Token → ReadState → Prop} : Yields peek s Q ↔ Q s.token s := by
  rw [peek, yields_bind, yields_get, yields_pure]

/-- Asking for the scope gives that of the state. -/
theorem yields_scope {Q : Scope → ReadState → Prop} : Yields scope s Q ↔ Q s.scope s := by
  rw [scope, yields_bind, yields_get, yields_pure]

/-- Asking for types gives what the language of the state says. -/
theorem yields_hasTypes {Q : Bool → ReadState → Prop} :
    Yields hasTypes s Q ↔ Q s.dialect.types s := by
  rw [hasTypes, yields_bind, yields_get, yields_pure]

/-- Asking for a mark compares the token of the state with it. -/
theorem yields_at? {text : String} {Q : Bool → ReadState → Prop} :
    Yields (at? text) s Q ↔ Q (s.token.kind == .punct text) s := by
  rw [at?, yields_bind, yields_peek, yields_pure]

/-- Asking for a word compares the token of the state with it. -/
theorem yields_atWord? {text : String} {Q : Bool → ReadState → Prop} :
    Yields (atWord? text) s Q ↔ Q (s.token.kind == .word text) s := by
  rw [atWord?, yields_bind, yields_peek, yields_pure]

/-- An operator or bracket is passed, or it does not stand next and nothing happens. -/
theorem yields_eat {text : String} {Q : Bool → ReadState → Prop} (htrue : ∀ s', Q true s')
    (hfalse : s.token.kind ≠ .punct text → Q false s) : Yields (eat text) s Q := by
  rw [eat, yields_bind, yields_at?]
  split
  · rw [yields_bind]
    exact .of_forall fun _ s' => (yields_pure true).mpr (htrue s')
  · next hat =>
    rw [yields_pure]
    exact hfalse fun heq => hat (by rw [heq, beq_self_eq_true])

/-- A word is passed, or it does not stand next and nothing happens. -/
theorem yields_eatWord {text : String} {Q : Bool → ReadState → Prop} (htrue : ∀ s', Q true s')
    (hfalse : Q false s) : Yields (eatWord text) s Q := by
  rw [eatWord, yields_bind, yields_atWord?]
  split
  · rw [yields_bind]
    exact .of_forall fun _ s' => (yields_pure true).mpr (htrue s')
  · rw [yields_pure]
    exact hfalse

/-- A failing reading gives nothing. -/
theorem yields_throw (e : Fault) : Yields (throw e : Reading α) s Q := by
  intro a s' heq
  cases heq

/-- A reading that fails has no results, so anything holds of them. -/
theorem yields_failWith (kind : FaultKind) (place : Place) :
    Yields (failWith kind place : Reading α) s Q := by
  rw [failWith, yields_bind, yields_get]
  split
  · rw [yields_bind]
    exact .of_forall fun _ _ => yields_throw _
  · exact yields_throw _

/-- The same for a failure that asks for an expression. -/
theorem yields_fail : Yields (fail : Reading α) s Q := by
  rw [fail, yields_bind]
  exact .of_forall fun _ _ => yields_failWith _ _

/-- The same for a failure at the end of the text. -/
theorem yields_failEnd : Yields (failEnd : Reading α) s Q := by
  rw [failEnd, yields_bind]
  exact .of_forall fun _ _ => yields_throw _

/-- The same for a failure that asks for a name. -/
theorem yields_failName : Yields (failName : Reading α) s Q := by
  rw [failName, yields_bind]
  exact .of_forall fun _ _ => yields_failWith _ _

/-! ### Trying -/

/-- An attempt gives a result of the reading, or nothing in the state from before. -/
theorem yields_attempt {Q : Option α → ReadState → Prop}
    (hsome : Yields p s fun a s' => Q (some a) s') (hnone : Q none s) : Yields (attempt p) s Q := by
  intro a s' heq
  rw [attempt] at heq
  cases hp : p s with
  | ok b s'' =>
    rw [hp] at heq
    cases heq
    exact hsome _ _ hp
  | error e s'' =>
    rw [hp] at heq
    cases heq
    exact hnone

/-- A tolerated reading gives a result or the fault, in whatever state that leaves. -/
theorem yields_tolerate {Q : Except Fault α → ReadState → Prop}
    (hok : Yields p s fun a s' => Q (.ok a) s') (herror : ∀ e s', Q (.error e) s') :
    Yields (tolerate p) s Q := by
  intro a s' heq
  rw [tolerate] at heq
  cases hp : p s with
  | ok b s'' =>
    rw [hp] at heq
    cases heq
    exact hok _ _ hp
  | error e s'' =>
    rw [hp] at heq
    cases heq
    exact herror _ _

/-- A reading with another one to fall back on gives a result of one of them. -/
theorem yields_orElse {q : Reading α} (hp : Yields p s Q) (hq : Yields q s Q) :
    Yields (orElse p q) s Q := by
  intro a s' heq
  rw [orElse] at heq
  -- a failure falls back to the old state, where the second reading starts
  cases h : p s with
  | ok b s'' =>
    rw [h] at heq
    cases heq
    exact hp _ _ h
  | error e s'' =>
    rw [h] at heq
    cases h' : q s with
    | ok b s₃ =>
      rw [h'] at heq
      cases heq
      exact hq _ _ h'
    | error e' s₃ =>
      rw [h'] at heq
      cases heq

/-! ### Scopes -/

/-- What does not depend on the scope and on faults holds behind a reading in another scope. -/
theorem yields_inScope {change : Scope → Scope}
    (h : Yields p { s with scope := change s.scope } fun a s' => Q a { s' with scope := s.scope }) :
    Yields (inScope change p) s Q := by
  intro a s' heq
  rw [inScope] at heq
  cases hp : p { s with scope := change s.scope } with
  | ok b s'' =>
    rw [hp] at heq
    cases heq
    exact h _ _ hp
  | error e s'' =>
    rw [hp] at heq
    cases heq

/-- A reading that keeps its faults to itself gives what it gives otherwise. -/
theorem yields_silently
    (h : Yields p { s with scope := { s.scope with isSilent := true } } fun a s' =>
      Q a { s' with faults := s.allFaults, token := { s'.token with faults := [] },
                    scope := s.scope }) :
    Yields (silently p) s Q := by
  intro a s' heq
  rw [silently] at heq
  cases hp : p { s with scope := { s.scope with isSilent := true } } with
  | ok b s'' =>
    rw [hp] at heq
    cases heq
    exact h _ _ hp
  | error e s'' =>
    rw [hp] at heq
    cases heq

end Laws

/-! ### Repetitions -/

/-- What a round of a repetition keeps, and what its last round gives. -/
def RoundOf (I : σ → ReadState → Prop) (Q : α → ReadState → Prop) :
    Round σ α → ReadState → Prop
  | .more x, s => I x s
  | .done a, s => Q a s

/-- **A repetition gives what its last round gives**, if every round keeps the invariant. -/
theorem yields_iterate {step : σ → Reading (Round σ α)} {I : σ → ReadState → Prop}
    {Q : α → ReadState → Prop} (hstep : ∀ x s, I x s → Yields (step x) s (RoundOf I Q))
    {start : σ} {s : ReadState} (hstart : I start s) : Yields (iterate start step) s Q := by
  rw [iterate, yields_bind, yields_peek]
  generalize s.token.start.rest.length + 2 = fuel
  induction fuel generalizing start s with
  | zero => exact yields_fail
  | succ fuel ih =>
    rw [repeatUpTo, yields_bind]
    refine (hstep start s hstart).mono fun r s' hr => ?_
    cases r with
    | more x => exact ih hr
    | done a => exact (yields_pure a).mpr hr

/-! ### What is given in every state -/

/-- **What a reading gives** satisfies a condition, in whatever state it starts. -/
def Gives (p : Reading α) (P : α → Prop) : Prop := ∀ s, Yields p s fun a _ => P a

namespace Gives

variable {p q : Reading α} {P : α → Prop} {Q : β → Prop}

/-- What is known of everything that is given may be weakened. -/
theorem mono {R : α → Prop} (h : Gives p R) (himp : ∀ a, R a → P a) : Gives p P :=
  fun s => (h s).mono fun a _ ha => himp a ha

/-- A reading that only gives a result gives what is known of that. -/
theorem pure {a : α} (h : P a) : Gives (pure a) P := fun _ => (yields_pure a).mpr h

/-- Behind a reading that gives what holds, it is enough to go on from what holds. -/
theorem bind {f : α → Reading β} (hp : Gives p P) (hf : ∀ a, P a → Gives (f a) Q) :
    Gives (p >>= f) Q :=
  fun s => yields_bind.mpr ((hp s).mono fun a s' ha => hf a ha s')

/-- Nothing has to be known of the first part. -/
theorem step {f : α → Reading β} (hf : ∀ a, Gives (f a) Q) : Gives (p >>= f) Q :=
  fun _ => yields_bind_of_forall fun a s' => hf a s'

/-- What is made of a result has what is asked of it. -/
theorem map {f : α → β} (h : Gives p fun a => Q (f a)) : Gives (f <$> p) Q := by
  intro s
  rw [map_eq_pure_bind, yields_bind]
  exact (h s).mono fun a s' ha => (yields_pure (f a)).mpr ha

/-- A choice gives what holds if both branches do. -/
theorem ite {c : Prop} [Decidable c] (hp : Gives p P) (hq : Gives q P) :
    Gives (if c then p else q) P :=
  fun s => yields_ite (fun _ => hp s) fun _ => hq s

/-- Something is read under a condition, and the reading goes on in any case. -/
theorem when {c : Prop} [Decidable c] {p : Reading Unit} {f : Unit → Reading β}
    (hf : ∀ u, Gives (f u) Q) : Gives (if c then p >>= f else f ()) Q :=
  ite (step hf) (hf ())

/-- Something is looked up and read under a condition, and the reading goes on in any case. -/
theorem whenAt {c : Prop} [Decidable c] {p : Reading α} {q : α → Reading Unit}
    {f : Unit → Reading β} (hf : ∀ u, Gives (f u) Q) :
    Gives (if c then p >>= fun a => q a >>= f else f ()) Q :=
  ite (step fun _ => step hf) (hf ())

/-- Something is read unless a condition holds, and the reading goes on in any case. -/
theorem whenNot {c : Prop} [Decidable c] {p : Reading Unit} {f : Unit → Reading β}
    (hf : ∀ u, Gives (f u) Q) : Gives (if c then f () else p >>= f) Q :=
  ite (hf ()) (step hf)

/-- One of two things is read, of which nothing has to be known, and the reading goes on. -/
theorem choose {c : Prop} [Decidable c] {p q : Reading α} {f : α → Reading β}
    (hf : ∀ a, Gives (f a) Q) : Gives (if c then p >>= f else q >>= f) Q :=
  ite (step hf) (step hf)

/-- One of two things is read, and the reading goes on with what it gives. -/
theorem either {c : Prop} [Decidable c] {p q : Reading α} {f : α → Reading β}
    (hp : Gives p P) (hq : Gives q P) (hf : ∀ a, P a → Gives (f a) Q) :
    Gives (if c then p >>= f else q >>= f) Q :=
  ite (bind hp hf) (bind hq hf)

/-! ### Failing -/

/-- A failure gives nothing. -/
theorem throw (e : Fault) : Gives (throw e : Reading α) P := fun _ => yields_throw e

/-- A failure for a reason gives nothing. -/
theorem failWith (kind : FaultKind) (place : Place) : Gives (failWith kind place : Reading α) P :=
  fun _ => yields_failWith kind place

/-- A failure that asks for an expression gives nothing. -/
theorem fail : Gives (fail : Reading α) P := fun _ => yields_fail

/-- A failure at the end of the text gives nothing. -/
theorem failEnd : Gives (failEnd : Reading α) P := fun _ => yields_failEnd

/-- A failure that asks for a name gives nothing. -/
theorem failName : Gives (failName : Reading α) P := fun _ => yields_failName

/-- A failure that asks for a mark gives nothing. -/
theorem failAt (wanted : String) : Gives (failAt wanted : Reading α) P :=
  step fun _ => step fun _ => failWith _ _

/-! ### Trying -/

/-- An attempt gives what holds, if it gives anything. -/
theorem attempt (h : Gives p P) : Gives (attempt p) fun o => ∀ a ∈ o, P a :=
  fun s => yields_attempt ((h s).mono fun _ _ ha _ hb => Option.some.inj hb ▸ ha) (nomatch ·, ·)

/-- A tolerated reading gives what holds, unless it gives a fault. -/
theorem tolerate (h : Gives p P) : Gives (tolerate p) fun r => ∀ a, r = .ok a → P a :=
  fun s => yields_tolerate ((h s).mono fun _ _ ha _ hb => Except.ok.inj hb ▸ ha) fun _ _ _ ha =>
    nomatch ha

/-- A reading with another one to fall back on gives what both do. -/
theorem orElse (hp : Gives p P) (hq : Gives q P) : Gives (orElse p q) P :=
  fun s => yields_orElse (hp s) (hq s)

/-! ### Scopes -/

/-- The scope makes no difference to what is known of all states. -/
theorem inScope {change : Scope → Scope} (h : Gives p P) : Gives (inScope change p) P :=
  fun _ => yields_inScope ((h _).mono fun _ _ ha => ha)

/-- Neither does keeping faults to itself. -/
theorem silently (h : Gives p P) : Gives (silently p) P :=
  fun _ => yields_silently ((h _).mono fun _ _ ha => ha)

/-- Nor does standing inside brackets. -/
theorem bracketed (h : Gives p P) : Gives (bracketed p) P := inScope h

/-- Nor does allowing `in` as an operator. -/
theorem withIn (h : Gives p P) : Gives (withIn p) P := inScope h

/-! ### Repetitions -/

/-- What a round of a repetition keeps, and what its last round gives. -/
def OfRound (I : σ → Prop) (P : α → Prop) : Round σ α → Prop
  | .more x => I x
  | .done a => P a

/-- What a round gives that gathers things of one kind and carries something else along. -/
abbrev OfGathering (P : α → Prop) : Round (List α × σ) (List α) → Prop :=
  OfRound (fun x => ∀ a ∈ x.1, P a) fun l => ∀ a ∈ l, P a

/-- A round that goes on keeps the invariant. -/
theorem more {I : σ → Prop} {x : σ} (h : I x) : Gives (Pure.pure (.more x)) (OfRound I P) :=
  pure (P := OfRound I P) h

/-- A round that ends gives what holds. -/
theorem done {I : σ → Prop} {a : α} (h : P a) : Gives (Pure.pure (.done a)) (OfRound I P) :=
  pure (P := OfRound I P) h

/-- **A loop gives what holds** if an invariant holds at the start, and each round keeps it or ends
with what holds. -/
theorem iterate {step : σ → Reading (Round σ α)} (I : σ → Prop) {start : σ} (hstart : I start)
    (hstep : ∀ x, I x → Gives (step x) (OfRound I P)) : Gives (iterate start step) P := by
  intro s
  refine yields_iterate (I := fun x _ => I x) (fun x s' hx => (hstep x hx s').mono ?_) hstart
  rintro (x | a) s' h
  · exact h
  · exact h

/-- What is gathered from a list, where something of it may be left out. -/
theorem filterMapM {γ : Type} {f : γ → Reading (Option α)} {l : List γ}
    (h : ∀ c ∈ l, Gives (f c) fun o => ∀ a ∈ o, P a) :
    Gives (l.filterMapM f) fun found => ∀ a ∈ found, P a := by
  induction l with
  | nil =>
    rw [List.filterMapM_nil]
    exact pure (by simp)
  | cons c l ih =>
    rw [List.filterMapM_cons]
    have hl : Gives (l.filterMapM f) _ := ih fun c hc => h c (List.mem_cons_of_mem _ hc)
    refine bind (h c List.mem_cons_self) fun o ho => ?_
    cases o with
    | none => exact hl
    | some a => exact bind hl fun found hfound => pure (List.forall_mem_cons.mpr ⟨ho a rfl, hfound⟩)

end Gives

/-! ### Nodes in a row -/

section Rows

variable {p : Reading α} {P : α → Prop}

/-- Items that are gathered from the back are the same items from the front. -/
theorem forall_mem_reverse {acc : List α} (h : ∀ a ∈ acc, P a) : ∀ a ∈ acc.reverse, P a :=
  fun a ha => h a (List.mem_reverse.mp ha)

/-- Each item of a list with commas is what the reading of an item gives. -/
theorem gives_commaList {close : String} (h : Gives p P) :
    Gives (commaList close p) fun l => ∀ a ∈ l, P a := by
  refine .iterate (fun acc => ∀ a ∈ acc, P a) (fun a ha => nomatch ha) fun acc hacc => ?_
  refine .step fun closes => .ite (.done (forall_mem_reverse hacc)) ?_
  refine .bind h fun a ha => .step fun goesOn => ?_
  have hmore : ∀ b ∈ a :: acc, P b := List.forall_mem_cons.mpr ⟨ha, hacc⟩
  exact .ite (.more hmore) (.step fun _ => .done (forall_mem_reverse hmore))

variable {p : Reading Node} {P : Node → Prop}

/-- So is each item up to a closing mark. -/
theorem gives_untilClose {close : String} (h : Gives p P) :
    Gives (untilClose close p) fun l => ∀ n ∈ l, P n := by
  refine .iterate (fun acc => ∀ n ∈ acc, P n) (fun n hn => nomatch hn) fun acc hacc => ?_
  refine .step fun closes => .ite (.done (forall_mem_reverse hacc)) ?_
  exact .bind h fun n hn => .more (List.forall_mem_cons.mpr ⟨hn, hacc⟩)

/-- So is each item up to a closing brace. -/
theorem gives_untilBrace (h : Gives p P) : Gives (untilBrace p) fun l => ∀ n ∈ l, P n := by
  refine .bind (P := fun nodes => ∀ n ∈ nodes, P n)
    (.iterate (fun acc => ∀ n ∈ acc, P n) (fun n hn => nomatch hn) ?_) ?_
  · intro acc hacc
    refine .step fun atEnd => .choose fun ends => ?_
    refine .ite (.step fun place => .step fun _ => .done (forall_mem_reverse hacc)) ?_
    refine .step fun closes => .ite (.done (forall_mem_reverse hacc)) ?_
    exact .bind h fun n hn => .more (List.forall_mem_cons.mpr ⟨hn, hacc⟩)
  · intro nodes hnodes
    exact .step fun atEnd => .ite (.pure hnodes) (.step fun _ => .pure hnodes)

/-- What is optional is what the reading gives, or absent. -/
theorem gives_optional {c : Reading Bool} (h : Gives p P) (habsent : P .absent) :
    Gives (optional c p) P :=
  .step fun _ => .ite h (.pure habsent)

/-- Each item of a list in angle brackets is what the reading of an item gives. -/
theorem gives_angleList (h : Gives p P) : Gives (angleList p) fun l => ∀ n ∈ l, P n := by
  refine .iterate (fun acc => ∀ n ∈ acc, P n) (fun n hn => nomatch hn) fun acc hacc => ?_
  refine .step fun closes => .ite (.step fun _ => .done (forall_mem_reverse hacc)) ?_
  refine .bind h fun n hn => .step fun goesOn => ?_
  have hmore : ∀ b ∈ n :: acc, P b := List.forall_mem_cons.mpr ⟨hn, hacc⟩
  exact .ite (.more hmore) (.step fun _ => .done (forall_mem_reverse hmore))

end Rows

end JsxWidgets.Syntax.Reading
