import Montage.Proofs.Number.Order
import Montage.Value.Basic

/-!
# Agreement is an equivalence

Stored values agree with themselves, in either order and along chains, however
deep they are nested and whatever the order of their fields. Equality at the
top is the same relation without not-a-number, which equals nothing.
-/

namespace Montage

namespace Value

/-! ## Fields -/

/-- The field at the front is found by its name. -/
theorem find?_cons_self (name : Text) (value : Value) (fields : List (Text × Value)) :
    find? ((name, value) :: fields) name = some value := by
  simp [find?]

/-- The field at the front does not hide those of other names. -/
theorem find?_cons_of_ne {name other : Text} (h : other ≠ name) (value : Value)
    (fields : List (Text × Value)) :
    find? ((other, value) :: fields) name = find? fields name := by
  simp [find?, h]

/-- Removing the name of the field at the front leaves the others. -/
theorem remove_cons_self (name : Text) (value : Value) (fields : List (Text × Value)) :
    remove ((name, value) :: fields) name = fields := by
  simp [remove]

/-- Removing another name keeps the field at the front. -/
theorem remove_cons_of_ne {name other : Text} (h : other ≠ name) (value : Value)
    (fields : List (Text × Value)) :
    remove ((other, value) :: fields) name = (other, value) :: remove fields name := by
  simp [remove, h]

/-- Removing a field does not change what other names find. -/
theorem find?_remove {name other : Text} (h : other ≠ name) (fields : List (Text × Value)) :
    find? (remove fields other) name = find? fields name := by
  induction fields with
  | nil => rfl
  | cons field fields ih =>
    obtain ⟨mark, value⟩ := field
    by_cases hm : mark = other
    · subst hm
      rw [remove_cons_self, find?_cons_of_ne h]
    · rw [remove_cons_of_ne hm]
      by_cases hn : mark = name
      · subst hn
        rw [find?_cons_self, find?_cons_self]
      · rw [find?_cons_of_ne hn, find?_cons_of_ne hn, ih]

/-- The order in which two names are removed does not matter. -/
theorem remove_comm (name other : Text) (fields : List (Text × Value)) :
    remove (remove fields name) other = remove (remove fields other) name := by
  by_cases h : name = other
  · rw [h]
  induction fields with
  | nil => rfl
  | cons field fields ih =>
    obtain ⟨mark, value⟩ := field
    by_cases hn : mark = name
    · subst hn
      rw [remove_cons_self, remove_cons_of_ne h, remove_cons_self]
    · by_cases ho : mark = other
      · subst ho
        rw [remove_cons_of_ne hn, remove_cons_self, remove_cons_self]
      · rw [remove_cons_of_ne hn, remove_cons_of_ne ho, remove_cons_of_ne ho,
          remove_cons_of_ne hn, ih]

/-- A record with a field at the front agrees with another one that has this
field somewhere, up to the fields that remain. -/
theorem fieldsAgree_cons_left {name : Text} {value : Value} {fields others : List (Text × Value)} :
    fieldsAgree ((name, value) :: fields) others = true ↔
      ∃ other, find? others name = some other ∧ value.agrees other = true ∧
        fieldsAgree fields (remove others name) = true := by
  cases h : find? others name <;> simp [fieldsAgree, h]

/-- The same with the field at the front on the right. -/
theorem fieldsAgree_cons_right {name : Text} {value : Value}
    {fields others : List (Text × Value)} :
    fieldsAgree others ((name, value) :: fields) = true ↔
      ∃ other, find? others name = some other ∧ other.agrees value = true ∧
        fieldsAgree (remove others name) fields = true := by
  induction others generalizing fields with
  | nil => simp [fieldsAgree, find?]
  | cons field others ih =>
    obtain ⟨mark, item⟩ := field
    rw [fieldsAgree_cons_left]
    by_cases h : mark = name
    · subst h
      rw [find?_cons_self, find?_cons_self, remove_cons_self, remove_cons_self]
      simp
    · have hne : name ≠ mark := fun he => h he.symm
      rw [find?_cons_of_ne h, find?_cons_of_ne hne, remove_cons_of_ne h, remove_cons_of_ne hne]
      simp only [ih, fieldsAgree_cons_left]
      constructor
      · rintro ⟨x, hx, hix, y, hy, hyv, hrest⟩
        exact ⟨y, hy, hyv, x, hx, hix, hrest⟩
      · rintro ⟨y, hy, hyv, x, hx, hix, hrest⟩
        exact ⟨x, hx, hix, y, hy, hyv, hrest⟩

/-- What one of two agreeing records holds under a name, the other holds, too. -/
theorem fieldsAgree_extract {name : Text} {value : Value} {fields others : List (Text × Value)}
    (h : fieldsAgree fields others = true) (hf : find? fields name = some value) :
    ∃ other, find? others name = some other ∧ value.agrees other = true ∧
      fieldsAgree (remove fields name) (remove others name) = true := by
  induction fields generalizing others with
  | nil => simp [find?] at hf
  | cons field fields ih =>
    obtain ⟨mark, item⟩ := field
    rw [fieldsAgree_cons_left] at h
    obtain ⟨x, hx, hix, hrest⟩ := h
    by_cases hm : mark = name
    · subst hm
      rw [find?_cons_self] at hf
      cases hf
      exact ⟨x, hx, hix, by rwa [remove_cons_self]⟩
    · rw [find?_cons_of_ne hm] at hf
      obtain ⟨y, hy, hvy, hrest⟩ := ih hrest hf
      refine ⟨y, by rwa [find?_remove hm] at hy, hvy, ?_⟩
      rw [remove_cons_of_ne hm, fieldsAgree_cons_left]
      refine ⟨x, ?_, hix, by rwa [remove_comm]⟩
      rwa [find?_remove (fun he => hm he.symm)]

/-! ## Agreement -/

mutual

/-- A value agrees with itself. -/
theorem agrees_refl : (value : Value) → value.agrees value = true
  | .null => rfl
  | .bool b => by simp [agrees, number?, Number.agrees_refl]
  | .number n => by simp [agrees, number?, Number.agrees_refl]
  | .text s => by simp [agrees]
  | .list items => by rw [agrees]; exact listsAgree_refl items
  | .record fields => by rw [agrees]; exact fieldsAgree_refl fields

/-- A list of values agrees with itself. -/
theorem listsAgree_refl : (items : List Value) → listsAgree items items = true
  | [] => rfl
  | item :: items => by
    rw [listsAgree, Bool.and_eq_true]
    exact ⟨agrees_refl item, listsAgree_refl items⟩

/-- Fields agree with themselves. -/
theorem fieldsAgree_refl : (fields : List (Text × Value)) → fieldsAgree fields fields = true
  | [] => rfl
  | (name, value) :: fields => by
    rw [fieldsAgree_cons_left]
    exact ⟨value, find?_cons_self name value fields, agrees_refl value,
      by rw [remove_cons_self]; exact fieldsAgree_refl fields⟩

end

mutual

/-- Agreement does not depend on the order. -/
theorem agrees_comm : (a b : Value) → a.agrees b = b.agrees a
  | .null, b => by cases b <;> rfl
  | .bool m, b => by cases b <;> simp [agrees, number?, isNull, Number.agrees_comm]
  | .number m, b => by cases b <;> simp [agrees, number?, isNull, Number.agrees_comm]
  | .text s, b => by
    cases b with
    | text t => simp only [agrees]; rw [Bool.eq_iff_iff]; simp [eq_comm]
    | _ => rfl
  | .list items, b => by
    cases b with
    | list others => rw [agrees, agrees]; exact listsAgree_comm items others
    | _ => rfl
  | .record fields, b => by
    cases b with
    | record others => rw [agrees, agrees]; exact fieldsAgree_comm fields others
    | _ => rfl

/-- Agreement of lists does not depend on the order. -/
theorem listsAgree_comm : (items others : List Value) →
    listsAgree items others = listsAgree others items
  | [], [] => rfl
  | [], _ :: _ => rfl
  | _ :: _, [] => rfl
  | item :: items, other :: others => by
    rw [listsAgree, listsAgree, agrees_comm item other, listsAgree_comm items others]

/-- Agreement of fields does not depend on the order. -/
theorem fieldsAgree_comm : (fields others : List (Text × Value)) →
    fieldsAgree fields others = fieldsAgree others fields
  | [], [] => rfl
  | [], (_, _) :: _ => rfl
  | (name, value) :: fields, others => by
    rw [Bool.eq_iff_iff, fieldsAgree_cons_left, fieldsAgree_cons_right]
    simp only [agrees_comm value, fieldsAgree_comm fields]

end

mutual

/-- Agreement goes along chains. -/
theorem agrees_trans : (a b c : Value) → a.agrees b = true → b.agrees c = true →
    a.agrees c = true
  | .null, b, c, hab, hbc => by cases b <;> simp_all [agrees, isNull]
  | .bool m, b, c, hab, hbc => by
    cases b <;> cases c <;> simp_all [agrees, number?] <;>
      exact Number.agrees_trans hab hbc
  | .number m, b, c, hab, hbc => by
    cases b <;> cases c <;> simp_all [agrees, number?] <;>
      exact Number.agrees_trans hab hbc
  | .text s, b, c, hab, hbc => by cases b <;> simp_all [agrees]
  | .list items, b, c, hab, hbc => by
    cases b with
    | list others =>
      cases c with
      | list rest =>
        rw [agrees] at *
        exact listsAgree_trans items others rest hab hbc
      | _ => simp [agrees] at hbc
    | _ => simp [agrees] at hab
  | .record fields, b, c, hab, hbc => by
    cases b with
    | record others =>
      cases c with
      | record rest =>
        rw [agrees] at *
        exact fieldsAgree_trans fields others rest hab hbc
      | _ => simp [agrees] at hbc
    | _ => simp [agrees] at hab

/-- Agreement of lists goes along chains. -/
theorem listsAgree_trans : (xs ys zs : List Value) → listsAgree xs ys = true →
    listsAgree ys zs = true → listsAgree xs zs = true
  | [], ys, zs, hxy, hyz => by cases ys <;> simp_all [listsAgree]
  | x :: xs, ys, zs, hxy, hyz => by
    cases ys with
    | nil => simp [listsAgree] at hxy
    | cons y ys =>
      cases zs with
      | nil => simp [listsAgree] at hyz
      | cons z zs =>
        rw [listsAgree, Bool.and_eq_true] at *
        exact ⟨agrees_trans x y z hxy.1 hyz.1, listsAgree_trans xs ys zs hxy.2 hyz.2⟩

/-- Agreement of fields goes along chains. -/
theorem fieldsAgree_trans : (fs gs hs : List (Text × Value)) → fieldsAgree fs gs = true →
    fieldsAgree gs hs = true → fieldsAgree fs hs = true
  | [], gs, hs, hfg, hgh => by cases gs <;> simp_all [fieldsAgree]
  | (name, value) :: fs, gs, hs, hfg, hgh => by
    rw [fieldsAgree_cons_left] at *
    obtain ⟨other, hfind, hagrees, hrest⟩ := hfg
    obtain ⟨last, hlast, hagrees', hrest'⟩ := fieldsAgree_extract hgh hfind
    exact ⟨last, hlast, agrees_trans value other last hagrees hagrees',
      fieldsAgree_trans fs _ _ hrest hrest'⟩

end

/-! ## Equality -/

/-- Equality of values that count as numbers is that of the numbers. -/
theorem equal_of_numbers {a b : Value} {m n : Number} (ha : a.number? = some m)
    (hb : b.number? = some n) : a.equal b = m.equal n := by
  simp [equal, ha, hb]

/-- Equal values agree. -/
theorem agrees_of_equal {a b : Value} (h : a.equal b = true) : a.agrees b = true := by
  unfold equal at h
  split at h
  · next m n ha hb =>
    have hn : m.agrees n = true := by simp [Number.agrees, h]
    cases a <;> simp_all [agrees, number?]
  · exact h

/-- Equality does not depend on the order. -/
theorem equal_comm (a b : Value) : a.equal b = b.equal a := by
  unfold equal
  cases ha : a.number? <;> cases hb : b.number? <;>
    simp [agrees_comm a b, Number.equal_comm]

/-- Values that agree count as numbers together or not at all. -/
theorem number?_isSome_of_agrees {a b : Value} (h : a.agrees b = true) :
    a.number?.isSome = b.number?.isSome := by
  cases a <;> cases b <;> simp_all [agrees, number?, isNull]

/-- What equals a number counts as an equal one. -/
theorem exists_number_of_equal {a b : Value} {n : Number} (h : a.equal b = true)
    (hb : b.number? = some n) : ∃ m, a.number? = some m ∧ m.equal n = true := by
  have hsome := number?_isSome_of_agrees (agrees_of_equal h)
  rw [hb, Option.isSome_some, Option.isSome_iff_exists] at hsome
  obtain ⟨m, hm⟩ := hsome
  rw [equal_of_numbers hm hb] at h
  exact ⟨m, hm, h⟩

/-- Equal values of an equal value are equal. -/
theorem equal_trans {a b c : Value} (hab : a.equal b = true) (hbc : b.equal c = true) :
    a.equal c = true := by
  have hsab := number?_isSome_of_agrees (agrees_of_equal hab)
  have hsbc := number?_isSome_of_agrees (agrees_of_equal hbc)
  have hchain := agrees_trans a b c (agrees_of_equal hab) (agrees_of_equal hbc)
  unfold equal at *
  cases ha : a.number? <;> cases hb : b.number? <;> cases hc : c.number? <;>
    simp_all
  exact Number.equal_trans hab hbc

/-- A value that equals something equals itself. -/
theorem equal_self {a b : Value} (h : a.equal b = true) : a.equal a = true :=
  equal_trans h (by rwa [equal_comm])

/-- Texts are equal when they are the same. -/
@[simp]
theorem equal_text {s t : Text} : (Value.text s).equal (.text t) = decide (s = t) := rfl

/-- Only a text equals a text. -/
theorem eq_text_of_equal {value : Value} {t : Text} (h : value.equal (.text t) = true) :
    value = .text t := by
  cases value with
  | text s =>
    rw [equal_text, decide_eq_true_eq] at h
    rw [h]
  | _ => simp [equal, agrees, number?, isNull] at h

end Value

end Montage
