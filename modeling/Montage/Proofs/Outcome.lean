import Montage.Timeline.Clip

/-!
# Taking outcomes apart

A sequence of operations returns exactly when each of them does. Statements
about an operation that returned are read off its steps with these laws, and so
are statements about the faults it can end in.
-/

namespace Montage.Outcome

variable {α β : Type}

/-- A sequence returns when the first part does and the rest does with its
result. -/
theorem bind_eq_ok {x : Outcome α} {f : α → Outcome β} {b : β} :
    (x >>= f) = .ok b ↔ ∃ a, x = .ok a ∧ f a = .ok b := by
  cases x with
  | error fault => simp [bind, Except.bind]
  | ok a => simp [bind, Except.bind]

/-- A result followed by more is what follows it. -/
@[simp]
theorem ok_bind (a : α) (f : α → Outcome β) : ((.ok a : Outcome α) >>= f) = f a := rfl

/-- A fault ends a sequence. -/
@[simp]
theorem error_bind (fault : Fault) (f : α → Outcome β) :
    ((.error fault : Outcome α) >>= f) = .error fault := rfl

/-- A pure step returns its value. -/
@[simp]
theorem pure_eq_ok {a b : α} : (pure a : Outcome α) = .ok b ↔ a = b := by
  simp [pure, Except.pure]

/-- What is turned down does not return. -/
@[simp]
theorem reject_ne_ok {why : Rejection} {a : α} : (reject why : Outcome α) ≠ .ok a := by
  simp [reject]

/-- A value that may be absent is returned when it is there. -/
@[simp]
theorem orFault_eq_ok {fault : Fault} {value : Option α} {a : α} :
    orFault fault value = .ok a ↔ value = some a := by
  cases value <;> simp [orFault]

/-- A check that returns has not found its condition. -/
@[simp]
theorem rejectIf_eq_ok {condition : Bool} {why : Rejection} {u : Unit} :
    Clip.rejectIf condition why = .ok u ↔ condition = false := by
  cases condition <;> simp [Clip.rejectIf]

/-- A requirement in front of more is met when the whole returns. -/
theorem demand_bind_eq_ok {condition : Bool} {why : Rejection} {k : Outcome β} {b : β} :
    (if condition = true then k else (reject why : Outcome α) >>= fun _ => k) = .ok b ↔
      condition = true ∧ k = .ok b := by
  cases condition with
  | true => simp
  | false => simp [reject]

/-- Telling faults in other words does not change what is returned. -/
@[simp]
theorem mapError_eq_ok {x : Outcome α} {rename : Fault → Fault} {a : α} :
    x.mapError rename = .ok a ↔ x = .ok a := by
  cases x with
  | error fault =>
    constructor
    · intro h
      cases h
    · intro h
      cases h
  | ok b => exact Iff.rfl

/-- A test that returns for all items of a list selects those that pass it. -/
theorem filterM_eq_ok {test : α → Outcome Bool} {passes : α → Bool} {items : List α}
    (h : ∀ item ∈ items, test item = .ok (passes item)) :
    items.filterM test = .ok (items.filter passes) := by
  have hgather : ∀ gathered : List α, items.filterAuxM test gathered =
      .ok ((items.filter passes).reverse ++ gathered) := by
    intro gathered
    induction items generalizing gathered with
    | nil => rfl
    | cons item items ih =>
      obtain ⟨hitem, hitems⟩ := List.forall_mem_cons.mp h
      rw [List.filterAuxM, hitem, ok_bind, ih hitems, List.filter_cons]
      cases passes item <;> simp
  rw [List.filterM, hgather, ok_bind, List.append_nil, List.reverse_reverse]
  rfl

/-- What can be seen to return a result returns it. -/
theorem eq_ok_of_toOption {x : Outcome α} {a : α} (h : x.toOption = some a) : x = .ok a := by
  cases x with
  | error fault => cases h
  | ok b =>
    cases h
    rfl

/-- Whether an outcome is a fault that passes a test. -/
def failsAs (test : Fault → Bool) : Outcome α → Bool
  | .ok _ => false
  | .error fault => test fault

/-- What can be seen to end in a fault ends in one. -/
theorem exists_of_failsAs {test : Fault → Bool} {x : Outcome α} (h : failsAs test x = true) :
    ∃ fault, x = .error fault ∧ test fault = true := by
  cases x with
  | ok a => cases h
  | error fault => exact ⟨fault, rfl, h⟩

/-- What can be seen to end for a value of an unsuitable kind ends for one. -/
theorem eq_illTyped_of_failsAs {x : Outcome α}
    (h : failsAs (fun fault => fault matches .illTyped) x = true) : x = .error .illTyped := by
  obtain ⟨fault, rfl, hkind⟩ := exists_of_failsAs h
  cases fault with
  | illTyped => rfl
  | _ => cases hkind

/-- What can be seen to end for a number that is too large ends for one. -/
theorem eq_tooLarge_of_failsAs {x : Outcome α}
    (h : failsAs (fun fault => fault matches .tooLarge) x = true) : x = .error .tooLarge := by
  obtain ⟨fault, rfl, hkind⟩ := exists_of_failsAs h
  cases fault with
  | tooLarge => rfl
  | _ => cases hkind

/-- What can be seen to return something that passes a test returns it. -/
theorem exists_of_any {x : Outcome α} {test : α → Bool} (h : x.toOption.any test = true) :
    ∃ a, x = .ok a ∧ test a = true := by
  cases x with
  | error fault => cases h
  | ok a => exact ⟨a, rfl, h⟩

/-- What can be seen to return returns something. -/
theorem exists_of_isOk {x : Outcome α} (h : x.isOk = true) : ∃ a, x = .ok a := by
  cases x with
  | error fault => cases h
  | ok a => exact ⟨a, rfl⟩

/-- A check that can be seen to pass passes. -/
theorem eq_ok_of_isOk {x : Outcome Unit} (h : x.isOk = true) : x = .ok () := by
  obtain ⟨_, h⟩ := exists_of_isOk h
  exact h

/-! ## Results -/

/-- Whatever an operation returns has a property. -/
def Returns (Q : α → Prop) (x : Outcome α) : Prop := ∀ a, x = .ok a → Q a

/-- A result is returned. -/
theorem returns_ok {Q : α → Prop} {a : α} (h : Q a) : Returns Q (.ok a : Outcome α) := by
  intro b hb
  cases hb
  exact h

/-- A pure step returns its value. -/
theorem returns_pure {Q : α → Prop} {a : α} (h : Q a) : Returns Q (pure a : Outcome α) :=
  returns_ok h

/-- The last part of a sequence returns with what the first one has returned. -/
theorem Returns.bind {Q : α → Prop} {R : β → Prop} {x : Outcome α} {f : α → Outcome β}
    (hx : Returns Q x) (hf : ∀ a, Q a → Returns R (f a)) : Returns R (x >>= f) := by
  cases x with
  | error fault =>
    intro b hb
    cases hb
  | ok a => exact hf a (hx a rfl)

/-- Results with a property have a weaker one, too. -/
theorem Returns.mono {Q R : α → Prop} {x : Outcome α} (hx : Returns Q x)
    (h : ∀ a, Q a → R a) : Returns R x := fun a ha => h a (hx a ha)

/-- Of a part of which nothing is known, nothing is used. -/
theorem returns_bind {R : β → Prop} {x : Outcome α} {f : α → Outcome β}
    (hf : ∀ a, Returns R (f a)) : Returns R (x >>= f) :=
  Returns.bind (fun _ _ => trivial : Returns (fun _ => True) x) fun a _ => hf a

/-- Either branch may return. -/
theorem returns_ite {Q : α → Prop} {condition : Prop} [Decidable condition] {x y : Outcome α}
    (hx : Returns Q x) (hy : Returns Q y) : Returns Q (if condition then x else y) := by
  split
  · exact hx
  · exact hy

/-- Operations on the items of a list return what each of them may return. -/
theorem returns_mapM {Q : β → Prop} {f : α → Outcome β} {items : List α}
    (hf : ∀ item ∈ items, Returns Q (f item)) :
    Returns (fun results => ∀ b ∈ results, Q b) (items.mapM f) := by
  induction items with
  | nil => exact returns_ok (by simp)
  | cons item items ih =>
    rw [List.mapM_cons]
    refine (hf item List.mem_cons_self).bind fun b hb => ?_
    refine (ih fun other hother => hf other (List.mem_cons_of_mem _ hother)).bind fun bs hbs => ?_
    exact returns_pure (List.forall_mem_cons.mpr ⟨hb, hbs⟩)

/-! ## Faults -/

/-- Whatever fault an operation ends in has a property. -/
def Faults (P : Fault → Prop) (x : Outcome α) : Prop := ∀ fault, x = .error fault → P fault

variable {P Q : Fault → Prop}

/-- There is no fault in a result. -/
theorem faults_ok (a : α) : Faults P (.ok a : Outcome α) := by
  intro fault h
  cases h

/-- There is no fault in a pure step. -/
theorem faults_pure (a : α) : Faults P (pure a : Outcome α) := faults_ok a

/-- A fault that has the property. -/
theorem faults_error {fault : Fault} (h : P fault) : Faults P (.error fault : Outcome α) := by
  intro _ hfault
  cases hfault
  exact h

/-- A sequence ends in a fault of one of its parts. -/
theorem Faults.bind {x : Outcome α} {f : α → Outcome β} (hx : Faults P x)
    (hf : ∀ a, x = .ok a → Faults P (f a)) : Faults P (x >>= f) := by
  cases x with
  | error fault => exact faults_error (hx fault rfl)
  | ok a => exact hf a rfl

/-- Faults with a property have a weaker one, too. -/
theorem Faults.mono {x : Outcome α} (hx : Faults P x) (h : ∀ fault, P fault → Q fault) :
    Faults Q x := fun fault hfault => h fault (hx fault hfault)

/-- A value that may be absent is missed with its fault. -/
theorem faults_orFault {fault : Fault} (h : P fault) (value : Option α) :
    Faults P (orFault fault value) := by
  cases value with
  | none => exact faults_error h
  | some a => exact faults_ok a

/-- A check turns down what it finds. -/
theorem faults_rejectIf {why : Rejection} (h : P (.rejected why)) (condition : Bool) :
    Faults P (Clip.rejectIf condition why) := by
  cases condition with
  | false => exact faults_ok ()
  | true => exact faults_error h

/-- Either branch may fail. -/
theorem faults_ite {condition : Prop} [Decidable condition] {x y : Outcome α}
    (hx : condition → Faults P x) (hy : ¬ condition → Faults P y) :
    Faults P (if condition then x else y) := by
  split
  · next h => exact hx h
  · next h => exact hy h

/-- A requirement in front of more fails with what it turns down or in what is
behind it. -/
theorem faults_demand {condition : Bool} {why : Rejection} {x : Outcome α}
    (hwhy : P (.rejected why)) (hx : condition = true → Faults P x) :
    Faults P (if condition = true then x else (reject why : Outcome β) >>= fun _ => x) :=
  faults_ite hx fun _ => faults_error hwhy

/-- A fault that is told in other words has what all such words have. -/
theorem faults_mapError {x : Outcome α} {rename : Fault → Fault} (h : ∀ fault, P (rename fault)) :
    Faults P (x.mapError rename) := by
  cases x with
  | error fault => exact faults_error (h fault)
  | ok a => exact faults_ok a

/-- Operations on the items of a list fail at one of them. -/
theorem faults_mapM {f : α → Outcome β} {items : List α}
    (hf : ∀ item ∈ items, Faults P (f item)) : Faults P (items.mapM f) := by
  induction items with
  | nil => exact faults_ok []
  | cons item items ih =>
    rw [List.mapM_cons]
    exact (hf item List.mem_cons_self).bind fun b _ =>
      (ih fun other hother => hf other (List.mem_cons_of_mem _ hother)).bind fun bs _ =>
        faults_pure (b :: bs)

/-- An operation that can end in no fault returns. -/
theorem Faults.exists_ok {x : Outcome α} (h : Faults (fun _ => False) x) : ∃ a, x = .ok a := by
  cases x with
  | error fault => exact (h fault rfl).elim
  | ok a => exact ⟨a, rfl⟩

/-! ## Faults and results -/

/-- Whatever fault an operation ends in has the property `P`, and whatever it returns
has `A`. -/
def Fares (P : Fault → Prop) (A : α → Prop) (x : Outcome α) : Prop := Faults P x ∧ Returns A x

variable {A : α → Prop} {B : β → Prop}

/-- A result is returned. -/
theorem fares_ok {a : α} (h : A a) : Fares P A (.ok a : Outcome α) := ⟨faults_ok a, returns_ok h⟩

/-- A fault is told. -/
theorem fares_error {fault : Fault} (h : P fault) : Fares P A (.error fault : Outcome α) :=
  ⟨faults_error h, fun _ ha => by cases ha⟩

/-- A sequence ends in a fault of one of its parts or returns what the last one does. -/
theorem Fares.bind {x : Outcome α} {f : α → Outcome β} (hx : Fares P A x)
    (hf : ∀ a, A a → Fares P B (f a)) : Fares P B (x >>= f) := by
  cases x with
  | error fault => exact fares_error (hx.1 fault rfl)
  | ok a => exact hf a (hx.2 a rfl)

/-- The same where the results of the first part are taken as they are. -/
theorem Faults.bind_fares {x : Outcome α} {f : α → Outcome β} (hx : Faults P x)
    (hf : ∀ a, x = .ok a → Fares P B (f a)) : Fares P B (x >>= f) :=
  Fares.bind (A := fun a => x = .ok a) ⟨hx, fun _ h => h⟩ hf

/-- A requirement in front of more fails with what it turns down. -/
theorem fares_demand {condition : Bool} {why : Rejection} {x : Outcome α}
    (hwhy : P (.rejected why)) (hx : condition = true → Fares P A x) :
    Fares P A (if condition = true then x else (reject why : Outcome β) >>= fun _ => x) := by
  cases condition with
  | true => exact hx rfl
  | false => exact fares_error hwhy

end Montage.Outcome
