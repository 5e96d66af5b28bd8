import Mathlib.Tactic.Common

/-!
# Stateful programs that can fault, and machines built from them

`Prog ε σ α` is a program over a state `σ` that returns an `α` or stops with a fault `ε`. The
`_ok` lemmas invert a successful execution one operation at a time. `Stays` says that a program
that does not fault keeps the state within a relation, with rules for sequences and loops.
`SafeFrom` says more: the program does not stop with a fault of a certain kind, and what it returns
and leaves meets a postcondition.

A machine is a program for every event. `Reach` are the states of its runs, restricted to the
steps that meet a side condition, and `Reach.invariant` is the induction over a run.
-/

namespace Lispmob

/-- A program over the state `σ` that can stop with a fault `ε`. -/
abbrev Prog (ε σ α : Type) : Type :=
  StateT σ (Except ε) α

namespace Prog

variable {ε σ α β : Type} {x : Except ε α} {e : ε}

/-- A sequence of two fallible computations succeeds when both do. -/
theorem except_bind_ok {f : α → Except ε β} {b : β} :
    x >>= f = .ok b ↔ ∃ a, x = .ok a ∧ f a = .ok b := by
  cases x <;> simp [bind, Except.bind]

@[simp] theorem except_pure_ok : (pure a : Except ε α) = .ok b ↔ b = a := by
  simp [pure, Except.pure, eq_comm]

@[simp] theorem except_throw_ok : (throw e : Except ε α) = .ok b ↔ False := by
  simp [throw, throwThe, MonadExceptOf.throw]

/-- A function applied to the result of a computation. -/
theorem except_map_ok {f : α → β} {b : β} : x.map f = .ok b ↔ ∃ a, x = .ok a ∧ f a = b := by
  cases x <;> simp [Except.map]

theorem except_toOption_eq_some_iff : x.toOption = some a ↔ x = .ok a := by
  cases x <;> simp [Except.toOption]

/-! What a computation returns can be checked by running it. -/

instance decidableOk {P : α → Prop} [DecidablePred P] : (x : Except ε α) →
    Decidable (∃ a, x = .ok a ∧ P a)
  | .ok a => decidable_of_iff (P a) (by simp)
  | .error _ => isFalse (by simp)

instance decidableOkPair {P : α → β → Prop} [∀ a b, Decidable (P a b)] : (x : Except ε (α × β)) →
    Decidable (∃ a b, x = .ok (a, b) ∧ P a b)
  | .ok (a, b) => decidable_of_iff (P a b) (by simp)
  | .error _ => isFalse (by simp)

instance decidableError [DecidableEq ε] (e : ε) : (x : Except ε α) → Decidable (x = .error e)
  | .ok _ => isFalse nofun
  | .error e' => decidable_of_iff (e' = e) (by simp)

instance decidableSome {P : α → Prop} [DecidablePred P] : (o : Option α) →
    Decidable (∃ a, o = some a ∧ P a)
  | some a => decidable_of_iff (P a) (by simp)
  | none => isFalse (by simp)

/-- Run a computation that does not touch the state. -/
def lift (x : Except ε α) : Prog ε σ α :=
  fun s => x.map (·, s)

/-- The value of an option, or a fault. -/
def ofOption (e : ε) : Option α → Prog ε σ α
  | some a => pure a
  | none => throw e

/-! ## Inversion of successful executions -/

variable {s s' t : σ} {a b : α} {u : PUnit} {f : α → Prog ε σ β} {R : β → Prop} {γ : Type}
  {o : Option α} {y : Except ε α} {I : σ → Prop} {r : β × σ} {l : List γ}

theorem bind_ok {x : Prog ε σ α} :
    (x >>= f).run s = .ok r ↔ ∃ a s1, x.run s = .ok (a, s1) ∧ (f a).run s1 = .ok r := by
  rw [StateT.run_bind]
  cases x.run s with
  | error e => simp [bind, Except.bind]
  | ok p =>
    constructor
    · intro h
      exact ⟨p.1, p.2, rfl, h⟩
    · rintro ⟨a, s1, hp, h⟩
      cases hp
      exact h

theorem bind_run {x : Prog ε σ α} (h : x.run s = .ok (a, s')) (f : α → Prog ε σ β) :
    (x >>= f).run s = (f a).run s' := by
  rw [StateT.run_bind, h]
  rfl

/-- A sequence faults in its first part or in its second. -/
theorem bind_error_iff {x : Prog ε σ α} :
    (x >>= f).run s = .error e ↔
      x.run s = .error e ∨ ∃ a s1, x.run s = .ok (a, s1) ∧ (f a).run s1 = .error e := by
  rw [StateT.run_bind]
  cases x.run s with
  | error e' => simp [bind, Except.bind]
  | ok p =>
    constructor
    · intro h
      exact .inr ⟨p.1, p.2, rfl, h⟩
    · rintro (h | ⟨a, s1, hp, h⟩)
      · cases h
      · cases hp
        exact h

@[simp] theorem pure_ok : (pure a : Prog ε σ α).run s = .ok (b, s') ↔ b = a ∧ s' = s := by
  change Except.ok (a, s) = Except.ok (b, s') ↔ _
  rw [Except.ok.injEq, Prod.mk.injEq, eq_comm, @eq_comm _ s]

@[simp] theorem throw_ok {r : α × σ} : (throw e : Prog ε σ α).run s = .ok r ↔ False := by
  change Except.error e = Except.ok r ↔ _
  simp

@[simp] theorem get_ok : (get : Prog ε σ σ).run s = .ok (t, s') ↔ t = s ∧ s' = s :=
  pure_ok (a := s)

theorem get_bind_ok {f : σ → Prog ε σ β} : (get >>= f).run s = .ok r ↔ (f s).run s = .ok r :=
  Iff.rfl

theorem get_bind_error_iff {f : σ → Prog ε σ β} :
    (get >>= f).run s = .error e ↔ (f s).run s = .error e :=
  Iff.rfl

@[simp] theorem modify_ok {f : σ → σ} :
    (modify f : Prog ε σ PUnit).run s = .ok (u, s') ↔ u = ⟨⟩ ∧ s' = f s :=
  pure_ok (a := PUnit.unit) (s := f s)

@[simp] theorem lift_ok : (lift x : Prog ε σ α).run s = .ok (a, s') ↔ x = .ok a ∧ s' = s := by
  cases x <;> simp [lift, StateT.run, Except.map, eq_comm]

@[simp] theorem ofOption_ok :
    (ofOption e o : Prog ε σ α).run s = .ok (a, s') ↔ o = some a ∧ s' = s := by
  cases o with
  | none => simp only [ofOption, throw_ok, reduceCtorEq, false_and]
  | some b =>
    simp only [ofOption, pure_ok, Option.some.injEq]
    exact and_congr_left fun _ => eq_comm

@[simp] theorem set_ok : (set t : Prog ε σ PUnit).run s = .ok (u, s') ↔ u = ⟨⟩ ∧ s' = t :=
  pure_ok (a := PUnit.unit) (s := t)

/-! ## What an execution does to the state -/

/-- Every execution of `x` from `s` that does not fault ends in a state related to `s`. -/
def Stays (rel : σ → σ → Prop) (s : σ) (x : Prog ε σ α) : Prop :=
  ∀ a s', x.run s = .ok (a, s') → rel s s'

namespace Stays

variable {rel : σ → σ → Prop} {x : Prog ε σ α}

theorem of_same (hr : ∀ s, rel s s) (h : ∀ a s', x.run s = .ok (a, s') → s' = s) :
    Stays rel s x := by
  intro a s' hx
  rw [h a s' hx]
  exact hr s

/-- Sequencing, for a transitive relation. The second part may use what the first one returned. -/
theorem bind (ht : ∀ s1 s2 s3, rel s1 s2 → rel s2 s3 → rel s1 s3)
    (hx : Stays rel s x) (hf : ∀ a s1, x.run s = .ok (a, s1) → Stays rel s1 (f a)) :
    Stays rel s (x >>= f) := by
  intro b s' h
  obtain ⟨a, s1, h1, h2⟩ := bind_ok.mp h
  exact ht s s1 s' (hx a s1 h1) (hf a s1 h1 b s' h2)

theorem forM (hr : ∀ s, rel s s) (ht : ∀ s1 s2 s3, rel s1 s2 → rel s2 s3 → rel s1 s3)
    {f : γ → Prog ε σ PUnit} (h : ∀ c s, Stays rel s (f c)) :
    ∀ (l : List γ) (s : σ), Stays rel s (l.forM f)
  | [], _ => of_same hr fun _ _ hx => (pure_ok.mp hx).2
  | c :: rest, s => bind ht (h c s) fun _ s1 _ => forM hr ht h rest s1

end Stays

/-- What an iteration of a loop keeps, of the state and of what is left of the list. -/
theorem forM_induct {f : γ → Prog ε σ PUnit} {I : List γ → σ → Prop}
    (hf : ∀ {c l u s s'}, I (c :: l) s → (f c).run s = .ok (u, s') → I l s') :
    ∀ {l : List γ} {u : PUnit} {s s' : σ}, I l s → (l.forM f).run s = .ok (u, s') → I [] s'
  | [], _, _, _, hI, h => by
    obtain ⟨-, rfl⟩ := pure_ok.mp h
    exact hI
  | _ :: _, _, _, _, hI, h => by
    obtain ⟨_, _, h1, h2⟩ := bind_ok.mp h
    exact forM_induct hf (hf hI h1) h2

/-- What every iteration of a loop over a list keeps, the loop keeps. -/
theorem forM_keeps {f : γ → Prog ε σ PUnit}
    (hf : ∀ c ∈ l, ∀ u s s', I s → (f c).run s = .ok (u, s') → I s') (hI : I s)
    (h : (l.forM f).run s = .ok (u, s')) : I s' :=
  (forM_induct (I := fun left s => left ⊆ l ∧ I s) (fun hI h1 =>
    ⟨fun _ hc => hI.1 (.tail _ hc), hf _ (hI.1 (.head _)) _ _ _ hI.2 h1⟩)
    ⟨List.Subset.refl l, hI⟩ h).2

/-! ## Executions without certain faults -/

/-- The fault a computation stops with. -/
def fault : Except ε α → Option ε
  | .ok _ => none
  | .error e => some e

theorem fault_eq_some_iff : fault x = some e ↔ x = .error e := by
  cases x <;> simp [fault]

/-- The computation does not stop with a `bad` fault, and its result meets `Q`. -/
def SafeResult (bad : ε → Prop) (Q : α → Prop) : Except ε α → Prop
  | .ok a => Q a
  | .error e => ¬ bad e

namespace SafeResult

variable {bad bad' : ε → Prop} {P Q : α → Prop}

theorem bind {f : α → Except ε β} (hx : SafeResult bad P x)
    (hf : ∀ a, P a → SafeResult bad R (f a)) : SafeResult bad R (x >>= f) := by
  cases x with
  | error e => exact hx
  | ok a => exact hf a hx

theorem map {f : α → β} (hx : SafeResult bad P x) (hf : ∀ a, P a → R (f a)) :
    SafeResult bad R (x.map f) := by
  cases x with
  | error e => exact hx
  | ok a => exact hf a hx

/-- Fewer faults excluded and less said about the result. -/
theorem mono (hx : SafeResult bad P x) (hbad : ∀ e, bad' e → bad e) (hQ : ∀ a, P a → Q a) :
    SafeResult bad' Q x := by
  cases x with
  | error e => exact fun he => hx (hbad e he)
  | ok a => exact hQ a hx

/-- What is known of a successful computation can be added. -/
theorem of_ok (hx : SafeResult bad P x) (h : ∀ a, x = .ok a → Q a) : SafeResult bad Q x := by
  cases x with
  | error e => exact hx
  | ok a => exact h a rfl

theorem and (hx : SafeResult bad P x) (hy : SafeResult bad' Q x) :
    SafeResult bad (fun a => P a ∧ Q a) x := by
  cases x with
  | error e => exact hx
  | ok a => exact ⟨hx, hy⟩

theorem any : SafeResult (fun _ => False) (fun _ => True) x := by
  cases x with
  | error e => exact id
  | ok a => trivial

theorem of_forall (h : ∀ a, x = .ok a → Q a) : SafeResult (fun _ => False) Q x := by
  cases x with
  | error e => exact id
  | ok a => exact h a rfl

end SafeResult

/-- An execution of `x` from `s` does not stop with a `bad` fault, and what it returns and the state
it ends in meet `Q`. -/
def SafeFrom (bad : ε → Prop) (Q : α → σ → Prop) (s : σ) (x : Prog ε σ α) : Prop :=
  SafeResult bad (fun r => Q r.1 r.2) (x.run s)

namespace SafeFrom

variable {bad : ε → Prop} {P Q : α → σ → Prop} {x : Prog ε σ α} {R : β → σ → Prop}

theorem of_pure (h : Q a s) : SafeFrom bad Q s (pure a) :=
  h

theorem of_throw (h : ¬ bad e) : SafeFrom bad Q s (throw e) :=
  h

theorem bind (hx : SafeFrom bad P s x) (hf : ∀ a s1, P a s1 → SafeFrom bad R s1 (f a)) :
    SafeFrom bad R s (x >>= f) := by
  rw [SafeFrom, StateT.run_bind]
  exact .bind hx fun r hr => hf r.1 r.2 hr

theorem of_run (hx : SafeFrom bad Q s x) (h : x.run s = .ok (a, s')) : Q a s' := by
  rw [SafeFrom, h] at hx
  exact hx

/-- As `bind`, with the run of the first program at hand. -/
theorem bind_run (hx : SafeFrom bad P s x)
    (hf : ∀ a s1, x.run s = .ok (a, s1) → P a s1 → SafeFrom bad R s1 (f a)) :
    SafeFrom bad R s (x >>= f) :=
  bind (P := fun a s1 => x.run s = .ok (a, s1) ∧ P a s1)
    (.of_ok hx fun _ hr => ⟨hr, hx.of_run hr⟩) fun a s1 h => hf a s1 h.1 h.2

theorem get_bind {f : σ → Prog ε σ β} (h : SafeFrom bad R s (f s)) : SafeFrom bad R s (get >>= f) :=
  h

theorem of_modify {R : PUnit → σ → Prop} {f : σ → σ} (h : R ⟨⟩ (f s)) :
    SafeFrom bad R s (modify f) :=
  h

theorem of_set {R : PUnit → σ → Prop} (h : R ⟨⟩ t) : SafeFrom bad R s (set t) :=
  h

theorem of_lift {R : α → Prop} {x : Except ε α} (hx : SafeResult bad R x)
    (hQ : ∀ a, R a → Q a s) : SafeFrom bad Q s (lift x) :=
  .map hx hQ

/-- A computation that leaves the state alone comes first. -/
theorem lift_bind {P : α → Prop} (hy : SafeResult bad P y)
    (hf : ∀ a, P a → SafeFrom bad R s (f a)) : SafeFrom bad R s (lift y >>= f) :=
  bind (of_lift (Q := fun a s' => P a ∧ s' = s) hy fun _ h => ⟨h, rfl⟩) fun a _ h => by
    rw [h.2]
    exact hf a h.1

theorem of_option (he : ¬ bad e) (hQ : ∀ a, o = some a → Q a s) :
    SafeFrom bad Q s (ofOption e o) := by
  cases o with
  | none => exact he
  | some a => exact hQ a rfl

theorem not_bad (hx : SafeFrom bad Q s x) (h : x.run s = .error e) : ¬ bad e := by
  rw [SafeFrom, h] at hx
  exact hx

theorem mono (hx : SafeFrom bad P s x) (hQ : ∀ a s', P a s' → Q a s') : SafeFrom bad Q s x :=
  SafeResult.mono hx (fun _ he => he) fun r hr => hQ r.1 r.2 hr

/-- What every iteration of a loop keeps, the loop keeps. -/
theorem forM {f : γ → Prog ε σ PUnit} :
    ∀ {l : List γ} {s : σ}, (∀ c ∈ l, ∀ s, I s → SafeFrom bad (fun _ => I) s (f c)) → I s →
      SafeFrom bad (fun _ => I) s (l.forM f)
  | [], _, _, hI => hI
  | c :: _, _, hf, hI =>
    bind (hf c (by simp) _ hI) fun _ _ hI1 =>
      forM (fun c' hc => hf c' (List.mem_cons_of_mem _ hc)) hI1

end SafeFrom

/-- An execution of `x` from `s` does not stop with a `bad` fault, returns something that meets `Q`,
and ends in a state that meets the invariant `I`. -/
abbrev Keeps (bad : ε → Prop) (I : σ → Prop) (Q : α → Prop) (s : σ) (x : Prog ε σ α) : Prop :=
  SafeFrom bad (fun a s' => Q a ∧ I s') s x

namespace Keeps

variable {bad : ε → Prop} {P Q : α → Prop} {x : Prog ε σ α}

theorem bind (hx : Keeps bad I P s x)
    (hf : ∀ a s1, P a → I s1 → Keeps bad I R s1 (f a)) : Keeps bad I R s (x >>= f) :=
  SafeFrom.bind hx fun a s1 h => hf a s1 h.1 h.2

/-- A sequence whose first part does not keep the invariant. -/
theorem after {J : α → σ → Prop} (hx : SafeFrom bad J s x)
    (hf : ∀ a s1, J a s1 → Keeps bad I R s1 (f a)) : Keeps bad I R s (x >>= f) :=
  SafeFrom.bind hx hf

/-- A sequence whose first part returns nothing of interest. -/
theorem seq (hx : Keeps bad I (fun _ => True) s x)
    (hf : ∀ a s1, I s1 → Keeps bad I R s1 (f a)) : Keeps bad I R s (x >>= f) :=
  bind hx fun a s1 _ h => hf a s1 h

theorem of_pure (ha : Q a) (h : I s) : Keeps bad I Q s (pure a) :=
  SafeFrom.of_pure ⟨ha, h⟩

/-- A program that ends by returning something that does not matter. -/
theorem ret {f : α → β} (hx : Keeps bad I (fun _ => True) s x) :
    Keeps bad I (fun _ => True) s (x >>= fun a => pure (f a)) :=
  seq hx fun _ _ h => of_pure trivial h

theorem of_lift (hy : SafeResult bad Q y) (h : I s) : Keeps bad I Q s (lift y) :=
  SafeFrom.of_lift hy fun _ ha => ⟨ha, h⟩

theorem of_option {e : ε} (he : ¬ bad e) (h : I s) (hQ : ∀ a, o = some a → Q a) :
    Keeps bad I Q s (ofOption e o) :=
  SafeFrom.of_option he fun a ha => ⟨hQ a ha, h⟩

theorem of_modify {f : σ → σ} (h : I (f s)) : Keeps bad I (fun _ => True) s (modify f) :=
  SafeFrom.of_modify ⟨trivial, h⟩

theorem of_set (h : I t) : Keeps bad I (fun _ => True) s (set t) :=
  SafeFrom.of_set ⟨trivial, h⟩

theorem forM {f : γ → Prog ε σ PUnit}
    (hf : ∀ c ∈ l, ∀ s, I s → Keeps bad I (fun _ => True) s (f c)) (h : I s) :
    Keeps bad I (fun _ => True) s (l.forM f) :=
  (SafeFrom.forM (fun c hc s hs => (hf c hc s hs).mono fun _ _ h' => h'.2) h).mono
    fun _ _ h' => ⟨trivial, h'⟩

/-- What is kept of the first state relates it to the last one. -/
theorem stays {rel : σ → σ → Prop} (h : Keeps bad (rel s) Q s x) : Stays rel s x :=
  fun _ _ hx => (h.of_run hx).2

end Keeps

end Prog

/-! ## Machines and their runs -/

section Reach

variable {ε σ ev ρ : Type}

/-- The states a machine reaches from an initial state by steps that meet `ok`. -/
inductive Reach (step : ev → Prog ε σ ρ) (init : σ → Prop) (ok : σ → ev → Prop) : σ → Prop where
  | start {s : σ} (h : init s) : Reach step init ok s
  | next {s s' : σ} {e : ev} {r : ρ} (h : Reach step init ok s) (hok : ok s e)
      (hs : (step e).run s = .ok (r, s')) : Reach step init ok s'

variable {step : ev → Prog ε σ ρ} {init : σ → Prop} {ok ok' : σ → ev → Prop}

/-- What holds at the start and is kept by every step that meets `ok` holds all along the run. -/
theorem Reach.invariant {I : σ → Prop} (h0 : ∀ s, init s → I s)
    (hstep : ∀ s e r s', I s → ok s e → (step e).run s = .ok (r, s') → I s') :
    ∀ {s : σ}, Reach step init ok s → I s
  | _, .start h => h0 _ h
  | _, .next h hok hs => hstep _ _ _ _ (h.invariant h0 hstep) hok hs

/-- Run a list of events, as long as each of them meets `ok`. -/
def runWhile (step : ev → Prog ε σ ρ) (ok : σ → ev → Prop) [∀ s e, Decidable (ok s e)] :
    List ev → σ → Option σ
  | [], s => some s
  | e :: rest, s =>
    if ok s e then
      match (step e).run s with
      | .ok (_, s') => runWhile step ok rest s'
      | .error _ => none
    else none

theorem Reach.runWhile [∀ s e, Decidable (ok s e)] :
    ∀ (evs : List ev) {s s' : σ}, Reach step init ok s → runWhile step ok evs s = some s' →
      Reach step init ok s'
  | [], _, _, h, hs => Option.some.inj hs ▸ h
  | e :: rest, s, s', h, hs => by
    unfold Lispmob.runWhile at hs
    split_ifs at hs with hok
    split at hs
    · rename_i hstep
      exact Reach.runWhile rest (.next h hok hstep) hs
    · cases hs

end Reach

end Lispmob
