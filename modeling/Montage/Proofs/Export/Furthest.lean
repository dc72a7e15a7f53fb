import Mathlib.Data.List.ReduceOption
import Montage.Proofs.Export.Progress
import Montage.Proofs.Number.Range
import Montage.Proofs.Value.Clamp

/-!
# The furthest position

A tracker that is given positions one after another stands at the largest percentage that
any of them makes, in whatever order they come and however often. What it returns on
the way are exactly the percentages that are larger than all before.
-/

namespace Montage

namespace Number

/-- No number is less than itself. -/
theorem lt_irrefl (n : Number) : n.lt n = false := by
  rw [lt]
  cases n.place? with
  | none => rfl
  | some p => exact p.lt_irrefl

/-- What is larger than a number is not at most that number. -/
theorem not_le_of_lt {a b : Number} (h : a.lt b = true) : b.le a = false := by
  obtain ⟨p, q, hp, hq, hpq⟩ := lt_iff.mp h
  rw [le, Bool.or_eq_false_iff]
  constructor
  · rw [lt, hp, hq]
    exact Place.not_lt_of_lt hpq
  · rw [equal, hp, hq, decide_eq_false_iff_not]
    rintro rfl
    rw [Place.lt_irrefl] at hpq
    cases hpq

end Number

namespace Binary64

variable {x y z : Binary64}

/-- A number that is not less than a second one, but less than a third, is more than the
second one's match. -/
theorem lt_of_not_lt_of_lt (hy : y.isNaN = false) (hxy : (Number.real x).lt (.real y) = false)
    (hxz : (Number.real x).lt (.real z) = true) : (Number.real y).lt (.real z) = true := by
  obtain ⟨p, r, hp, hr, hpr⟩ := Number.lt_iff.mp hxz
  obtain ⟨q, hq⟩ := exists_place_of_isNaN hy
  have hy : (Number.real y).place? = some q := hq
  have hplaces : p.lt q = false := by
    rw [Number.lt, hp, hy] at hxy
    exact hxy
  refine Number.lt_iff.mpr ⟨q, r, hq, hr, ?_⟩
  by_contra hnot
  rw [Bool.not_eq_true] at hnot
  rw [Place.not_lt_trans hnot hplaces] at hpr
  cases hpr

/-- A percentage is zero or larger than zero, so that only one double has its value. -/
def IsPercentage (x : Binary64) : Prop := x = 0 ∨ (Number.real 0).lt (.real x) = true

/-- What is forced into the range of percentages is a percentage. -/
theorem isPercentage_within (x : Binary64) : (x.within 0 100).IsPercentage := by
  have hcases : ∀ low high : Binary64, x.within low high = low ∨
      (Number.real low).lt (.real (x.within low high)) = true := by
    intro low high
    unfold within
    dsimp only
    generalize (if (Number.real x).lt (.real high) then x else high) = forced
    split
    · next hlarger => exact .inr hlarger
    · exact .inl rfl
  exact hcases 0 100

/-- Percentages are numbers. -/
theorem IsPercentage.isNaN (h : x.IsPercentage) : x.isNaN = false := by
  rcases h with h | h
  · rw [h]
    exact isNaN_zero
  · obtain ⟨_, _, _, hx, _⟩ := Number.lt_iff.mp h
    exact isNaN_of_place hx

/-- Doubles above zero that stand at one place are the same. -/
theorem eq_of_place {p : Place} (hx : x.place? = some p) (hy : y.place? = some p)
    (positive : (Place.inner 0).lt p = true) : x = y := by
  have hunsigned : ∀ {s : Bool} {units : Nat}, 0 < signed s units →
      s = false ∧ signed s units = units := by
    intro s units hpos
    cases s with
    | false => exact ⟨rfl, rfl⟩
    | true =>
      rw [signed, if_pos rfl] at hpos
      omega
  cases p with
  | bottom => cases positive
  | top =>
    have hends : ∀ {z : Binary64}, z.place? = some .top → z = .infinity false := by
      intro z hz
      cases z with
      | nan origin => cases hz
      | infinity s =>
        cases s with
        | false => rfl
        | true => cases hz
      | finite s units grid => cases hz
    rw [hends hx, hends hy]
  | inner units =>
    have hpos : 0 < units := of_decide_eq_true positive
    have hinner : ∀ {z : Binary64}, z.place? = some (.inner units) →
        ∃ grid, z = .finite false units.toNat grid := by
      intro z hz
      cases z with
      | nan origin => cases hz
      | infinity s => cases s <;> cases hz
      | finite s a grid =>
        rw [place?, Option.some.injEq, Place.inner.injEq] at hz
        obtain ⟨rfl, hsigned⟩ := hunsigned (hz ▸ hpos)
        obtain rfl : units.toNat = a := by omega
        exact ⟨grid, rfl⟩
    obtain ⟨_, rfl⟩ := hinner hx
    obtain ⟨_, rfl⟩ := hinner hy
    rfl

/-- Percentages that are not less than each other are the same. -/
theorem IsPercentage.eq_of_not_lt (hx : x.IsPercentage) (hy : y.IsPercentage)
    (hxy : (Number.real x).lt (.real y) = false) (hyx : (Number.real y).lt (.real x) = false) :
    x = y := by
  rcases hx with hx | hx
  · rcases hy with hy | hy
    · rw [hx, hy]
    · rw [hx, hy] at hxy
      cases hxy
  · rcases hy with hy | hy
    · rw [hy, hx] at hyx
      cases hyx
    · obtain ⟨zero, p, hzero, hp, hpos⟩ := Number.lt_iff.mp hx
      obtain ⟨_, q, _, hq, _⟩ := Number.lt_iff.mp hy
      cases Number.place?_real_zero.symm.trans hzero
      simp only [Number.lt, hp, hq] at hxy hyx
      cases Place.eq_of_not_lt hxy hyx
      exact eq_of_place hp hq hpos

end Binary64

namespace ProgressTracker

open Progress

/-! ## The percentage of a position -/

/-- The hundredfold of a position as a share of the duration. -/
def scaled (total seconds : Value) : Outcome Binary64 := do
  let hundredfold ← seconds.mul (.real 100)
  (Value.number hundredfold).div total

/-- A position makes a percentage: its scaled value, forced between 0 and 100. -/
def Makes (total seconds : Value) (percent : Binary64) : Prop :=
  ∃ share, scaled total seconds = .ok share ∧
    (Value.real share).clampPercent = .ok (.real percent)

variable {total seconds : Value} {percent : Binary64}

/-- A double that is forced into the range of percentages is a percentage. -/
theorem clampPercent_real {x : Binary64} (h : x.isNaN = false) :
    (Value.real x).clampPercent = .ok (.real (x.within 0 100)) := by
  have hnan : (Value.real x).isNaN = false := h
  unfold Value.clampPercent Value.clamp Value.smaller Value.larger Binary64.within
  rw [hnan, if_neg Bool.false_ne_true, Value.lt_of_numbers rfl rfl, Outcome.ok_bind]
  dsimp only
  split
  · rw [pure_bind, Value.lt_of_numbers rfl rfl, Outcome.ok_bind]
    split <;> rfl
  · rw [pure_bind, Value.lt_of_numbers rfl rfl, Outcome.ok_bind]
    split <;> rfl

/-- What has a double counts as a number with that double. -/
theorem exists_number_of_toReal {value : Value} {x : Binary64} (h : value.toReal = .ok x) :
    ∃ n, value.number? = some n ∧ n.toReal? = some x := by
  unfold Value.toReal at h
  cases hn : value.number? with
  | none =>
    rw [hn] at h
    cases h
  | some n =>
    rw [hn] at h
    exact ⟨n, rfl, Outcome.orFault_eq_ok.mp h⟩

/-- Times that have doubles have a scaled value. -/
theorem scaled_eq {x y : Binary64} (hx : seconds.toReal = .ok x) (hy : total.toReal = .ok y) :
    scaled total seconds = .ok ((x.mul 100).div y) := by
  obtain ⟨m, hm, hmx⟩ := exists_number_of_toReal hx
  obtain ⟨n, hn, hny⟩ := exists_number_of_toReal hy
  have hmul : seconds.mul (.real 100) = .ok (.real (x.mul 100)) :=
    (Value.mul_eq_ok hm rfl).mpr (Number.combine?_real hmx 100)
  rw [scaled, hmul, Outcome.ok_bind]
  exact (Value.div_eq_ok rfl hn).mpr (Number.div?_real _ hny)

/-- A position makes a percentage unless its scaled value is not-a-number. -/
theorem exists_makes {x y : Binary64} (hx : seconds.toReal = .ok x) (hy : total.toReal = .ok y)
    (number : ∀ share, scaled total seconds = .ok share → share.isNaN = false) :
    ∃ percent, Makes total seconds percent :=
  ⟨_, _, scaled_eq hx hy, clampPercent_real (number _ (scaled_eq hx hy))⟩

/-- It is the one that the tracker computes. -/
theorem Makes.percentOf_eq (h : Makes total seconds percent) :
    percentOf total seconds = .ok percent ∧ percent.IsPercentage := by
  obtain ⟨share, hshare, hclamp⟩ := h
  have hnumber : share.isNaN = false := by
    have hcounts := Value.exists_clampPercent_iff.mp ⟨_, hclamp⟩
    by_contra hnan
    rw [Bool.not_eq_false] at hnan
    have hnone : (Value.real share).counts = false := Value.counts_eq_false.mpr (.inl hnan)
    rw [hnone] at hcounts
    cases hcounts
  obtain ⟨hundredfold, hmul, hdiv⟩ := Outcome.bind_eq_ok.mp hshare
  have hwithin : share.within 0 100 = percent :=
    Number.real.inj (Value.number.inj
      (Except.ok.inj ((clampPercent_real hnumber).symm.trans hclamp)))
  rw [← hwithin]
  refine ⟨?_, share.isPercentage_within⟩
  rw [percentOf, hmul, Outcome.ok_bind, hdiv, Outcome.ok_bind, hnumber, if_neg Bool.false_ne_true,
    Outcome.pure_eq_ok]

/-- A position makes no two percentages. -/
theorem Makes.unique {other : Binary64} (h : Makes total seconds percent)
    (h' : Makes total seconds other) : percent = other :=
  Except.ok.inj (h.percentOf_eq.1.symm.trans h'.percentOf_eq.1)

/-! ## One position -/

/-- A position is told if it makes a larger percentage than all before. -/
theorem update_of_makes (positive : total.le (.int 0) = .ok false)
    (h : Makes total seconds percent) (low : Binary64) :
    update ⟨total, low⟩ seconds = .ok (if (Number.real low).lt (.real percent) then
      (some percent, ⟨total, percent⟩) else (none, ⟨total, low⟩)) := by
  rw [update, positive, Outcome.ok_bind, if_neg Bool.false_ne_true, h.percentOf_eq.1,
    Outcome.ok_bind]
  split <;> rfl

/-! ## All positions -/

/-- Records positions one after another: what each of them returns, and the tracker behind
the last one. -/
def feed (tracker : ProgressTracker) :
    List Value → Outcome (List (Option Binary64) × ProgressTracker)
  | [] => .ok ([], tracker)
  | seconds :: later => do
    let (answer, tracker) ← tracker.update seconds
    let (answers, tracker) ← feed tracker later
    return (answer :: answers, tracker)

/-- What is returned for percentages once one was reached. -/
def answersFrom (low : Binary64) : List Binary64 → List (Option Binary64)
  | [] => []
  | p :: later =>
    if (Number.real low).lt (.real p) then some p :: answersFrom p later
    else none :: answersFrom low later

/-- The percentage that is reached once one was reached. -/
def reachedFrom (low : Binary64) : List Binary64 → Binary64
  | [] => low
  | p :: later => reachedFrom (if (Number.real low).lt (.real p) then p else low) later

/-- The tracker returns and keeps what follows from the percentages of the positions. -/
theorem feed_eq (positive : total.le (.int 0) = .ok false) {positions : List Value}
    {percents : List Binary64} (made : List.Forall₂ (Makes total) positions percents)
    (low : Binary64) :
    feed ⟨total, low⟩ positions =
      .ok (answersFrom low percents, ⟨total, reachedFrom low percents⟩) := by
  induction made generalizing low with
  | nil => rfl
  | cons hfirst _ ih =>
    rw [feed, update_of_makes positive hfirst, Outcome.ok_bind, answersFrom, reachedFrom]
    split_ifs
    · dsimp only
      rw [ih, Outcome.ok_bind]
      rfl
    · dsimp only
      rw [ih, Outcome.ok_bind]
      rfl

/-- What is returned are the records among the percentages. -/
theorem reduceOption_answersFrom (low : Binary64) (percents : List Binary64) :
    (answersFrom low percents).reduceOption = records low percents := by
  induction percents generalizing low with
  | nil => rfl
  | cons p later ih =>
    rw [answersFrom, records]
    split
    · rw [List.reduceOption_cons_of_some, ih]
    · rw [List.reduceOption_cons_of_none, ih]

/-- The last record is the percentage that is reached. -/
theorem getLastD_records (low : Binary64) (percents : List Binary64) :
    (records low percents).getLastD low = reachedFrom low percents := by
  induction percents generalizing low with
  | nil => rfl
  | cons p later ih =>
    rw [records, reachedFrom]
    split
    · rw [List.getLastD_cons, ih]
    · exact ih low

/-- A percentage is larger than each of those before it. -/
def IsRecord (before : List Binary64) (percent : Binary64) : Prop :=
  ∀ p ∈ before, (Number.real p).lt (.real percent) = true

instance (before : List Binary64) (percent : Binary64) : Decidable (IsRecord before percent) :=
  inferInstanceAs (Decidable (∀ p ∈ before, (Number.real p).lt (.real percent) = true))

/-- Being larger than all before means being larger than what they reach. -/
theorem isRecord_cons_cons {low p percent : Binary64} {later : List Binary64}
    (hp : p.isNaN = false) :
    IsRecord (low :: p :: later) percent ↔
      IsRecord ((if (Number.real low).lt (.real p) then p else low) :: later) percent := by
  unfold IsRecord
  simp only [List.forall_mem_cons]
  split
  · next hlarger => exact ⟨fun h => h.2, fun h => ⟨Number.lt_trans hlarger h.1, h⟩⟩
  · next hnot =>
    rw [Bool.not_eq_true] at hnot
    exact ⟨fun h => ⟨h.1, h.2.2⟩,
      fun h => ⟨h.1, Binary64.lt_of_not_lt_of_lt hp hnot h.1, h.2⟩⟩

/-- A percentage is returned exactly if it is larger than all before. -/
theorem getElem?_answersFrom {low : Binary64} (hlow : low.isNaN = false) {percents : List Binary64}
    (numbers : ∀ p ∈ percents, p.isNaN = false) {number : Nat} {percent : Binary64}
    (h : percents[number]? = some percent) :
    (answersFrom low percents)[number]? =
      some (if IsRecord (low :: percents.take number) percent then some percent else none) := by
  induction percents generalizing low number with
  | nil => cases h
  | cons p later ih =>
    obtain ⟨hp, hlater⟩ := List.forall_mem_cons.mp numbers
    cases number with
    | zero =>
      cases h
      rw [answersFrom]
      split <;> simp_all [IsRecord]
    | succ number =>
      have hreached : (if (Number.real low).lt (.real p) then p else low).isNaN = false := by
        split
        · exact hp
        · exact hlow
      have hrest := ih hreached hlater h
      rw [List.take_succ_cons, if_congr (isRecord_cons_cons hp) rfl rfl, ← hrest, answersFrom]
      split <;> rfl

/-- A percentage is one of some percentages, and none of them is larger. -/
structure IsLargest (percents : List Binary64) (percent : Binary64) : Prop where
  /-- It is one of them. -/
  mem : percent ∈ percents
  /-- None is larger. -/
  not_lt : ∀ p ∈ percents, (Number.real percent).lt (.real p) = false

/-- What is reached is the largest percentage. -/
theorem isLargest_reachedFrom {low : Binary64} (hlow : low.isNaN = false)
    {percents : List Binary64} (numbers : ∀ p ∈ percents, p.isNaN = false) :
    IsLargest (low :: percents) (reachedFrom low percents) := by
  induction percents generalizing low with
  | nil => exact ⟨List.mem_singleton.mpr rfl, by simp [reachedFrom, Number.lt_irrefl]⟩
  | cons p later ih =>
    obtain ⟨hp, hlater⟩ := List.forall_mem_cons.mp numbers
    rw [reachedFrom]
    cases hlarger : (Number.real low).lt (.real p) with
    | true =>
      obtain ⟨hmem, hnone⟩ := ih hp hlater
      rw [if_pos rfl]
      refine ⟨List.mem_cons_of_mem _ hmem, List.forall_mem_cons.mpr ⟨?_, hnone⟩⟩
      by_contra hless
      rw [Bool.not_eq_false] at hless
      have hback := Number.lt_trans hless hlarger
      rw [hnone p List.mem_cons_self] at hback
      cases hback
    | false =>
      obtain ⟨hmem, hnone⟩ := ih hlow hlater
      obtain ⟨hfirst, hrest⟩ := List.forall_mem_cons.mp hnone
      rw [if_neg Bool.false_ne_true]
      refine ⟨?_, List.forall_mem_cons.mpr ⟨hfirst, List.forall_mem_cons.mpr ⟨?_, hrest⟩⟩⟩
      · rcases List.mem_cons.mp hmem with hmem | hmem
        · exact List.mem_cons.mpr (.inl hmem)
        · exact List.mem_cons_of_mem _ (List.mem_cons_of_mem _ hmem)
      · by_contra hless
        rw [Bool.not_eq_false] at hless
        rw [Binary64.lt_of_not_lt_of_lt hlow hfirst hless] at hlarger
        cases hlarger

/-- Only one percentage is the largest, however the others are ordered and repeated. -/
theorem IsLargest.unique {percents others : List Binary64} {p q : Binary64}
    (hp : IsLargest percents p) (hq : IsLargest others q) (same : ∀ r, r ∈ others ↔ r ∈ percents)
    (percentages : ∀ r ∈ percents, r.IsPercentage) : p = q :=
  (percentages p hp.mem).eq_of_not_lt (percentages q ((same q).mp hq.mem))
    (hp.not_lt q ((same q).mp hq.mem)) (hq.not_lt p ((same p).mpr hp.mem))

/-- What a tracker returned and reached goes with the percentages of its positions. -/
structure Tells (percents : List Binary64) (answers : List (Option Binary64))
    (reached : Binary64) : Prop where
  /-- What is reached is the largest of zero and the percentages. -/
  largest : IsLargest (0 :: percents) reached
  /-- There is an answer for each position. -/
  length_eq : answers.length = percents.length
  /-- The answer is the percentage if this is larger than zero and all before, and
  else there is none. -/
  answer : ∀ (number : Nat) (percent : Binary64), percents[number]? = some percent →
    answers[number]? =
      some (if IsRecord (0 :: percents.take number) percent then some percent else none)
  /-- The percentages that are returned rise from zero. -/
  rises : Rises 0 answers.reduceOption
  /-- The last of them is what is reached. -/
  last : answers.reduceOption.getLastD 0 = reached

/-- There are as many answers as percentages. -/
theorem length_answersFrom (low : Binary64) (percents : List Binary64) :
    (answersFrom low percents).length = percents.length := by
  induction percents generalizing low with
  | nil => rfl
  | cons p later ih =>
    rw [answersFrom]
    split <;> rw [List.length_cons, List.length_cons, ih]

/-- What follows from percentages goes with them. -/
theorem tells_answersFrom {percents : List Binary64} (numbers : ∀ p ∈ percents, p.isNaN = false) :
    Tells percents (answersFrom 0 percents) (reachedFrom 0 percents) where
  largest := isLargest_reachedFrom Binary64.isNaN_zero numbers
  length_eq := length_answersFrom 0 percents
  answer _ _ h := getElem?_answersFrom Binary64.isNaN_zero numbers h
  rises := reduceOption_answersFrom 0 percents ▸ rises_records 0 percents
  last := reduceOption_answersFrom 0 percents ▸ getLastD_records 0 percents

/-- Positions that make percentages make a list of them. -/
theorem exists_forall₂_makes {positions : List Value}
    (makes : ∀ s ∈ positions, ∃ percent, Makes total s percent) :
    ∃ percents, List.Forall₂ (Makes total) positions percents := by
  induction positions with
  | nil => exact ⟨[], .nil⟩
  | cons s later ih =>
    obtain ⟨⟨percent, hpercent⟩, hlater⟩ := List.forall_mem_cons.mp makes
    obtain ⟨percents, hpercents⟩ := ih hlater
    exact ⟨percent :: percents, .cons hpercent hpercents⟩

/-- The percentages of positions are those that one of them makes. -/
theorem mem_of_forall₂_makes {positions : List Value} {percents : List Binary64}
    (made : List.Forall₂ (Makes total) positions percents) {p : Binary64} :
    p ∈ percents ↔ ∃ s ∈ positions, Makes total s p := by
  induction made with
  | nil => simp
  | cons hfirst _ ih =>
    rw [List.mem_cons, ih, List.exists_mem_cons_iff]
    exact or_congr_left ⟨fun h => h ▸ hfirst, fun h => h.unique hfirst⟩

/-- Fed with positions in a film of known duration, a tracker reaches the largest of zero
and the percentages that they make, whatever their order and repetitions, and what it
returns on the way are those percentages that raise the largest one so far. All doubles,
and all integers that are not too large for one, can be durations and positions. -/
theorem reaches_furthest {positions : List Value} (positive : (Value.int 0).lt total = .ok true)
    (doubles : ∀ value ∈ total :: positions, ∃ x, value.toReal = .ok x)
    (numbers : ∀ s ∈ positions, ∀ share, scaled total s = .ok share → share.isNaN = false) :
    ∃ percents answers reached, List.Forall₂ (Makes total) positions percents ∧
      (start total).feed positions = .ok (answers, ⟨total, reached⟩) ∧
      Tells percents answers reached ∧
      ∀ others, (∀ s, s ∈ others ↔ s ∈ positions) →
        ∃ answers, (start total).feed others = .ok (answers, ⟨total, reached⟩) := by
  have hknown : total.le (.int 0) = .ok false := by
    obtain ⟨n, hn, hpos⟩ := Value.number?_of_lt_ok rfl positive
    rw [Value.le_of_numbers hn rfl, Number.not_le_of_lt hpos]
  have hmakes : ∀ s ∈ positions, ∃ percent, Makes total s percent := by
    obtain ⟨⟨y, hy⟩, hpositions⟩ := List.forall_mem_cons.mp doubles
    intro s hs
    obtain ⟨x, hx⟩ := hpositions s hs
    exact exists_makes hx hy (numbers s hs)
  have hpercentages : ∀ {list : List Value} {percents : List Binary64},
      List.Forall₂ (Makes total) list percents → ∀ p ∈ percents, p.IsPercentage := by
    intro list percents made p hp
    obtain ⟨s, _, hmade⟩ := (mem_of_forall₂_makes made).mp hp
    exact hmade.percentOf_eq.2
  have htells : ∀ {list : List Value} {percents : List Binary64},
      List.Forall₂ (Makes total) list percents →
        Tells percents (answersFrom 0 percents) (reachedFrom 0 percents) :=
    fun made => tells_answersFrom fun p hp => (hpercentages made p hp).isNaN
  obtain ⟨percents, made⟩ := exists_forall₂_makes hmakes
  refine ⟨percents, _, _, made, feed_eq hknown made 0, htells made, fun others same => ?_⟩
  obtain ⟨percents', made'⟩ := exists_forall₂_makes fun s hs => hmakes s ((same s).mp hs)
  have hsame : ∀ r, r ∈ 0 :: percents' ↔ r ∈ 0 :: percents := by
    intro r
    rw [List.mem_cons, List.mem_cons, mem_of_forall₂_makes made, mem_of_forall₂_makes made']
    simp only [same]
  have hreached : reachedFrom 0 percents = reachedFrom 0 percents' :=
    (htells made).largest.unique (htells made').largest hsame
      (List.forall_mem_cons.mpr ⟨.inl rfl, hpercentages made⟩)
  exact ⟨_, hreached ▸ feed_eq hknown made' 0⟩

/-- Positions before the beginning, behind the end, out of order and told twice. -/
def wandering : List Value := [.real 1, .int (-3), .real 2, .real 1, .int 2, .real 5, .int 3]

/-- In a film of four seconds they lead to the end by way of a quarter and a half. -/
theorem reaches_furthest_wandering :
    (Value.int 0).lt (.int 4) = .ok true ∧
      (∀ value ∈ .int 4 :: wandering, ∃ x, value.toReal = .ok x) ∧
      (∀ s ∈ wandering, ∀ share, scaled (.int 4) s = .ok share → share.isNaN = false) ∧
      ∃ percents, List.Forall₂ (Makes (.int 4)) wandering percents ∧
        (start (.int 4)).feed wandering =
          .ok ([some 25, none, some 50, none, none, some 100, none], ⟨.int 4, 100⟩) ∧
        Tells percents [some 25, none, some 50, none, none, some 100, none] 100 := by
  have hpositive : (Value.int 0).lt (.int 4) = .ok true :=
    (Value.lt_of_numbers rfl rfl).trans (congrArg _ (Number.lt_int 0 4))
  have hdoubles : ∀ value ∈ .int 4 :: wandering, ∃ x, value.toReal = .ok x := by
    have hall : (.int 4 :: wandering).all (fun value => value.toReal.isOk) = true := by
      decide +kernel
    exact fun value hvalue => Outcome.exists_of_isOk (List.all_eq_true.mp hall value hvalue)
  have hnumbers : ∀ s ∈ wandering, ∀ share, scaled (.int 4) s = .ok share →
      share.isNaN = false := by
    have hall : wandering.all (fun s => (scaled (.int 4) s).toOption.all fun x => !x.isNaN) =
        true := by
      decide +kernel
    intro s hs share hshare
    have hnumber := List.all_eq_true.mp hall s hs
    rw [hshare] at hnumber
    exact (Bool.not_eq_true' _).mp hnumber
  obtain ⟨percents, answers, reached, made, hfeed, htells, _⟩ :=
    reaches_furthest hpositive hdoubles hnumbers
  have hcomputed : ((start (.int 4)).feed wandering).toOption.map
      (fun result => (result.1, result.2.percent)) =
        some ([some 25, none, some 50, none, none, some 100, none], 100) := by
    decide +kernel
  rw [hfeed] at hcomputed
  have hpair : (answers, reached) = (_, _) := Option.some.inj hcomputed
  rw [Prod.mk.injEq] at hpair
  rw [hpair.1, hpair.2] at hfeed htells
  exact ⟨hpositive, hdoubles, hnumbers, percents, made, hfeed, htells⟩

end ProgressTracker

end Montage
