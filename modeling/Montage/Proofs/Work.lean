/-!
# Running work

Work on a state that may end in a fault, or in another way before it returns,
keeps what it has changed. These laws say what a run of composed work comes to.
-/

namespace Montage.Work

variable {ε σ α β : Type} {x : ExceptT ε (StateM σ) α} {f : α → ExceptT ε (StateM σ) β}
  {s t u : σ} {a : α} {b : β} {fault : ε}

/-- Work that returns is followed by what comes next. -/
theorem run_bind_of_ok (h : x.run.run s = (.ok a, t)) :
    (x >>= f).run.run s = (f a).run.run t := by
  simp only [ExceptT.run_bind, StateT.run_bind]
  rw [h]
  rfl

/-- A fault ends work. -/
theorem run_bind_of_error (h : x.run.run s = (.error fault, t)) :
    (x >>= f).run.run s = (.error fault, t) := by
  simp only [ExceptT.run_bind, StateT.run_bind]
  rw [h]
  rfl

/-- A sequence returns when the first part does and the rest does after it. -/
theorem run_bind_eq_ok :
    (x >>= f).run.run s = (.ok b, u) ↔
      ∃ a t, x.run.run s = (.ok a, t) ∧ (f a).run.run t = (.ok b, u) := by
  cases hx : x.run.run s with
  | mk outcome t =>
    cases outcome with
    | error fault =>
      rw [run_bind_of_error hx]
      constructor
      · intro h
        cases h
      · rintro ⟨_, _, h, _⟩
        cases h
    | ok a =>
      rw [run_bind_of_ok hx]
      constructor
      · exact fun h => ⟨a, t, rfl, h⟩
      · rintro ⟨_, _, h, hrest⟩
        cases h
        exact hrest

/-- Work that returns needs no handler. -/
theorem run_tryCatch_of_ok {handler : ε → ExceptT ε (StateM σ) α}
    (h : x.run.run s = (.ok a, t)) : (tryCatch x handler).run.run s = (.ok a, t) := by
  rw [ExceptT.run_tryCatch, StateT.run_bind, h]
  rfl

/-- A handler takes over work that does not return. -/
theorem run_tryCatch_of_error {handler : ε → ExceptT ε (StateM σ) α}
    (h : x.run.run s = (.error fault, t)) :
    (tryCatch x handler).run.run s = (handler fault).run.run t := by
  rw [ExceptT.run_tryCatch, StateT.run_bind, h]
  rfl

/-- Work whose faults are told in other words returns as it did. -/
theorem run_tryCatch_throw_eq_ok {rename : ε → ε} :
    (tryCatch x fun fault => throw (rename fault)).run.run s = (.ok a, t) ↔
      x.run.run s = (.ok a, t) := by
  cases hx : x.run.run s with
  | mk outcome u =>
    cases outcome with
    | ok b => rw [run_tryCatch_of_ok hx]
    | error fault =>
      rw [run_tryCatch_of_error hx]
      constructor
      · intro h
        cases h
      · intro h
        cases h

/-- Work that can be seen to return returns something. -/
theorem exists_of_isOk (h : (x.run.run s).1.isOk = true) :
    ∃ a t, x.run.run s = (.ok a, t) := by
  cases hx : x.run.run s with
  | mk outcome t =>
    rw [hx] at h
    cases outcome with
    | error fault => cases h
    | ok a => exact ⟨a, t, rfl⟩

/-! ## What a run ends in -/

/-- The run of work from a state ends in an outcome and a state of which `post`
holds, also when the outcome is a fault. -/
def Ends (x : ExceptT ε (StateM σ) α) (s : σ) (post : Except ε α → σ → Prop) : Prop :=
  post (x.run.run s).1 (x.run.run s).2

variable {post : Except ε α → σ → Prop} {after : Except ε β → σ → Prop}

/-- A known run ends in what it is known to come to. -/
theorem ends_of_run {r : Except ε α} (h : x.run.run s = (r, t)) (holds : post r t) :
    Ends x s post := by
  rw [Ends, h]
  exact holds

/-- What a run ends in may be said in a weaker way. -/
theorem Ends.mono {weaker : Except ε α → σ → Prop} (ends : Ends x s post)
    (weaken : ∀ outcome t, post outcome t → weaker outcome t) : Ends x s weaker :=
  weaken _ _ ends

/-- A sequence ends where its second part does, or in the fault of the first. -/
theorem Ends.bind (first : Ends x s post) (next : ∀ a t, post (.ok a) t → Ends (f a) t after)
    (fails : ∀ fault t, post (.error fault) t → after (.error fault) t) :
    Ends (x >>= f) s after := by
  unfold Ends at first
  cases hx : x.run.run s with
  | mk outcome t =>
    rw [hx] at first
    cases outcome with
    | error fault => exact ends_of_run (run_bind_of_error hx) (fails fault t first)
    | ok a =>
      have hnext := next a t first
      rw [Ends, run_bind_of_ok hx]
      exact hnext

/-- A sequence ends where its second part does if the first is known to return. -/
theorem ends_bind_of_ok (h : x.run.run s = (.ok a, t)) (next : Ends (f a) t after) :
    Ends (x >>= f) s after := by
  rw [Ends, run_bind_of_ok h]
  exact next

/-- A sequence ends in the fault of its first part if there is one. -/
theorem ends_bind_of_error (h : x.run.run s = (.error fault, t)) (fails : after (.error fault) t) :
    Ends (x >>= f) s after :=
  ends_of_run (run_bind_of_error h) fails

/-! ## What work throws -/

/-- What returns ends in no fault. -/
theorem no_fault_of_ok {P : ε → Prop} :
    ∀ fault, (.ok a : Except ε α) = .error fault → P fault := fun _ h => by cases h

/-- What ends in a fault returns nothing. -/
theorem no_result_of_error {A : α → Prop} :
    ∀ a, (.error fault : Except ε α) = .ok a → A a := fun _ h => by cases h

/-- Whatever the state is, the faults that work ends in have a property. -/
def Throws (P : ε → Prop) (x : ExceptT ε (StateM σ) α) : Prop :=
  ∀ s, Ends x s fun outcome _ => ∀ fault, outcome = .error fault → P fault

variable {P Q : ε → Prop}

/-- Work that always returns throws nothing. -/
theorem throws_of_ok (h : ∀ s, ∃ a t, x.run.run s = (.ok a, t)) : Throws P x := by
  intro s
  obtain ⟨a, t, hrun⟩ := h s
  exact ends_of_run hrun no_fault_of_ok

/-- A sequence throws what one of its parts throws. -/
theorem Throws.bind (first : Throws P x) (next : ∀ a, Throws P (f a)) : Throws P (x >>= f) :=
  fun s => (first s).bind (fun a t _ => next a t) fun _ _ h other heq => by
    cases heq
    exact h _ rfl

/-- Work with a handler throws what the handler throws. -/
theorem Throws.tryCatch (inner : Throws P x) {handler : ε → ExceptT ε (StateM σ) α}
    (handled : ∀ fault, P fault → Throws Q (handler fault)) :
    Throws Q (tryCatch x handler) := by
  intro s
  have hinner := inner s
  unfold Ends at hinner
  cases hx : x.run.run s with
  | mk outcome t =>
    rw [hx] at hinner
    cases outcome with
    | ok a => exact ends_of_run (run_tryCatch_of_ok hx) no_fault_of_ok
    | error fault =>
      have hhandled := handled fault (hinner fault rfl) t
      rw [Ends, run_tryCatch_of_error hx]
      exact hhandled

/-! ## What work keeps -/

/-- From a state with the property `inv` work comes to a state with it again. The
fault that it ends in has the property `P`, and what it returns has `Q`. -/
def Keeps (inv : σ → Prop) (P : ε → Prop) (Q : α → Prop) (x : ExceptT ε (StateM σ) α) : Prop :=
  ∀ s, inv s → Ends x s fun outcome t =>
    inv t ∧ (∀ fault, outcome = .error fault → P fault) ∧ ∀ a, outcome = .ok a → Q a

variable {inv : σ → Prop} {A : α → Prop} {B : β → Prop}

/-- Work that returns in a state with the property keeps it. -/
theorem keeps_of_ok (h : ∀ s, inv s → ∃ a t, x.run.run s = (.ok a, t) ∧ inv t ∧ A a) :
    Keeps inv P A x := by
  intro s hs
  obtain ⟨a, t, hrun, ht, ha⟩ := h s hs
  refine ends_of_run hrun ⟨ht, no_fault_of_ok, fun b hb => ?_⟩
  cases hb
  exact ha

/-- A value is returned. -/
theorem keeps_pure (h : A a) : Keeps inv P A (pure a) :=
  keeps_of_ok fun s hs => ⟨a, s, rfl, hs, h⟩

/-- A fault is thrown. -/
theorem keeps_throw (h : P fault) : Keeps inv P A (throw fault) :=
  fun _ hs => ends_of_run rfl ⟨hs, fun other hother => by cases hother; exact h, no_result_of_error⟩

/-- A sequence keeps what both of its parts keep. -/
theorem Keeps.bind (first : Keeps inv P A x) (next : ∀ a, A a → Keeps inv P B (f a)) :
    Keeps inv P B (x >>= f) := fun s hs =>
  (first s hs).bind (fun a t h => next a (h.2.2 a rfl) t h.1)
    fun other t h => ⟨h.1, fun fault hfault => by cases hfault; exact h.2.1 other rfl,
      no_result_of_error⟩

/-- Faults and results may be described in a weaker way. -/
theorem Keeps.mono (h : Keeps inv P A x) (weakerP : ∀ fault, P fault → Q fault)
    {C : α → Prop} (weakerA : ∀ a, A a → C a) : Keeps inv Q C x := fun s hs =>
  (h s hs).mono fun _ _ held => ⟨held.1, fun fault hfault => weakerP fault (held.2.1 fault hfault),
    fun a ha => weakerA a (held.2.2 a ha)⟩

/-- Work with a handler keeps what both keep. -/
theorem Keeps.tryCatch (inner : Keeps inv P A x) {handler : ε → ExceptT ε (StateM σ) α}
    (handled : ∀ fault, P fault → Keeps inv Q A (handler fault)) :
    Keeps inv Q A (tryCatch x handler) := by
  intro s hs
  have hinner := inner s hs
  unfold Ends at hinner
  cases hx : x.run.run s with
  | mk outcome t =>
    rw [hx] at hinner
    obtain ⟨ht, hP, hA⟩ := hinner
    cases outcome with
    | ok a => exact ends_of_run (run_tryCatch_of_ok hx) ⟨ht, no_fault_of_ok, hA⟩
    | error fault =>
      have hhandled := handled fault (hP fault rfl) t ht
      rw [Ends, run_tryCatch_of_error hx]
      exact hhandled

/-- Either branch keeps the property. -/
theorem keeps_ite {condition : Prop} [Decidable condition] {y : ExceptT ε (StateM σ) α}
    (hx : condition → Keeps inv P A x) (hy : ¬ condition → Keeps inv P A y) :
    Keeps inv P A (if condition then x else y) := by
  split
  · next h => exact hx h
  · next h => exact hy h

end Montage.Work
