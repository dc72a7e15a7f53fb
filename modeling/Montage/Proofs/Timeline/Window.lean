import Montage.Proofs.Number.Range
import Montage.Proofs.Timeline.Integrity

/-!
# Valid windows

A window between two finite moments is valid when it is long enough and ends
within its source; all else that validation asks of it follows. A window that is
cut in two at a distance from its ends leaves long enough halves if it lies
within `2 ^ 32` seconds: every rounding on the way is too small to matter.
-/

namespace Montage

/-! ## The bounds of a window -/

namespace Clip

/-- Where the lengths stand that windows are compared with, and how far apart. -/
theorem lengths_computed :
    (Number.real shortestWindow).place? = some (.inner shortestWindow.units) ∧
      (Number.real minClipDuration).place? = some (.inner minClipDuration.units) ∧
      (Number.real timeTolerance).place? = some (.inner timeTolerance.units) ∧
      Grid.step shortestWindow.units ∣ shortestWindow.units ∧ 0 < shortestWindow.units ∧
      shortestWindow.units + 3 * Number.slack ≤ minClipDuration.units ∧
      timeTolerance.units + Number.slack < Grid.unitsPerOne := by
  decide +kernel

/-- Where the shortest valid window stands. -/
theorem place?_shortestWindow :
    (Number.real shortestWindow).place? = some (.inner shortestWindow.units) :=
  lengths_computed.1

/-- Where the shortest window of an edit stands. -/
theorem place?_minClipDuration :
    (Number.real minClipDuration).place? = some (.inner minClipDuration.units) :=
  lengths_computed.2.1

/-- Where the slack of a window's end stands. -/
theorem place?_timeTolerance :
    (Number.real timeTolerance).place? = some (.inner timeTolerance.units) :=
  lengths_computed.2.2.1

/-- The shortest valid window is on the grid. -/
theorem step_dvd_shortestWindow : Grid.step shortestWindow.units ∣ shortestWindow.units :=
  lengths_computed.2.2.2.1

/-- The shortest valid window has a length. -/
theorem shortestWindow_pos : 0 < shortestWindow.units := lengths_computed.2.2.2.2.1

/-- Edits ask for more than validation, by more than three times what is lost in a
rounding of moderate size. -/
theorem shortestWindow_add_le :
    shortestWindow.units + 3 * Number.slack ≤ minClipDuration.units :=
  lengths_computed.2.2.2.2.2.1

/-- The slack of a window's end is less than one second, roundings included. -/
theorem timeTolerance_add_lt : timeTolerance.units + Number.slack < Grid.unitsPerOne :=
  lengths_computed.2.2.2.2.2.2

end Clip

namespace Number

variable {start stop length last time cut : Number} {a b : Nat}

/-- A window of moderate size that is cut off its ends has long enough halves,
although its length, the last time to cut it and the cut are all rounded. -/
theorem exists_halves (hstart : start.place? = some (.inner a))
    (hstop : stop.place? = some (.inner b)) (ordered : a ≤ b) (moderate : b < moderateRange)
    (hlength : stop.sub? start = some length)
    (hlast : length.sub? (.real minClipDuration) = some last)
    {t : Int} (htime : time.place? = some (.inner t))
    (early : time.lt (.real minClipDuration) = false) (late : last.lt time = false)
    (hcut : start.add? time = some cut) :
    ∃ first second, cut.sub? start = some first ∧ first.lt (.real Clip.shortestWindow) = false ∧
      stop.sub? cut = some second ∧ second.lt (.real Clip.shortestWindow) = false := by
  have hbounds := Clip.shortestWindow_add_le
  have hpos := Clip.shortestWindow_pos
  rw [lt_of_places htime Clip.place?_minClipDuration, decide_eq_false_iff_not] at early
  obtain ⟨t, rfl⟩ : ∃ units : Nat, t = units := ⟨t.toNat, by omega⟩
  obtain ⟨_, hlength', lengthUnits, hlengthPlace, hshorter, hloss, _⟩ :=
    exists_place?_sub? hstop hstart ordered moderate
  cases hlength.symm.trans hlength'
  -- the time lies behind a moment, so that the window is at least as long
  have hlong : minClipDuration.units ≤ lengthUnits := by
    by_contra hshort
    obtain ⟨units, hplace, hnone⟩ := exists_place?_sub?_nonpos hlengthPlace
      Clip.place?_minClipDuration hlast (by omega)
    rw [lt_of_places hplace htime, decide_eq_false_iff_not] at late
    omega
  obtain ⟨_, hlast', lastUnits, hlastPlace, _, hloss', _⟩ :=
    exists_place?_sub? hlengthPlace Clip.place?_minClipDuration hlong (by omega)
  cases hlast.symm.trans hlast'
  rw [lt_of_places hlastPlace htime, decide_eq_false_iff_not] at late
  obtain ⟨cutUnits, hcutPlace, hup, hdown, hbehind⟩ :=
    exists_place?_add? hstart htime (by omega) hcut
  have hshort : ∀ {half : Number} {units : Nat}, half.place? = some (.inner units) →
      Clip.shortestWindow.units ≤ units → half.lt (.real Clip.shortestWindow) = false := by
    intro half units hplace hunits
    rw [lt_of_places hplace Clip.place?_shortestWindow, decide_eq_false_iff_not]
    omega
  obtain ⟨first, hfirst, firstUnits, hfirstPlace, _, _, hfirstLong⟩ :=
    exists_place?_sub? hcutPlace hstart hbehind (by omega)
  obtain ⟨second, hsecond, secondUnits, hsecondPlace, _, _, hsecondLong⟩ :=
    exists_place?_sub? hstop hcutPlace (by omega) moderate
  have hgrid := Clip.step_dvd_shortestWindow
  exact ⟨first, second, hfirst, hshort hfirstPlace (hfirstLong _ hgrid (by omega)), hsecond,
    hshort hsecondPlace (hsecondLong _ hgrid (by omega))⟩

end Number

/-- What stands below a finite moment is finite. -/
theorem Value.isFinite_of_place_le {value : Value} {m n : Number} {a b : Nat}
    (hm : m.place? = some (.inner a)) (hn : value.number? = some n)
    (hb : n.place? = some (.inner b)) (h : a ≤ b) (finite : value.isFinite = .ok true) :
    (Value.number m).isFinite = .ok true := by
  obtain ⟨k, _, rfl, _⟩ := isFinite_eq_true finite
  cases hn
  obtain ⟨y, hy⟩ := Number.exists_toReal? (Outcome.orFault_eq_ok.mp finite)
  have hsome := Number.toReal?_isSome_of_place_le hm hb h (Option.isSome_iff_exists.mpr ⟨y, hy⟩)
  obtain ⟨x, hx⟩ := Option.isSome_iff_exists.mp hsome
  obtain ⟨s, grid, rfl, _⟩ := Binary64.exists_finite_of_place (Number.place?_toReal? hm hx)
  exact isFinite_of_toReal? hx rfl

/-! ## What validation asks of a window -/

namespace Clip

variable {clip : Clip}

/-- The source of a clip lasts for a finite time, and the window does not end
behind it. -/
def EndsInSource (clip : Clip) : Prop :=
  clip.source.duration.isFinite = .ok true ∧
    ∃ last, clip.source.duration.add (.real timeTolerance) = .ok last ∧
      (Value.number last).lt clip.outTime = .ok false

/-- The window of a clip is not too short. -/
def IsLong (clip : Clip) : Prop :=
  ∃ length, clip.duration = .ok length ∧
    (Value.number length).lt (.real shortestWindow) = .ok false

/-- A window that is not too short ends after it begins. -/
theorem IsLong.lt (long : clip.IsLong) {m n : Number} {a b : Nat}
    (hin : clip.inTime.number? = some m) (hm : m.place? = some (.inner a))
    (hout : clip.outTime.number? = some n) (hn : n.place? = some (.inner b)) : a < b := by
  obtain ⟨length, hlength, hlong⟩ := long
  rw [Value.lt_of_numbers rfl rfl, Except.ok.injEq] at hlong
  exact Number.lt_of_sub?_not_lt hn hm place?_shortestWindow (by exact_mod_cast shortestWindow_pos)
    ((Value.sub_eq_ok hout hin).mp hlength) hlong

/-- A clip with a known filter whose window lies between finite moments is valid
when the window ends within the source and is not too short. -/
theorem validate_iff (moments : clip.HasMoments) (start : clip.inTime.isFinite = .ok true)
    (stop : clip.outTime.isFinite = .ok true)
    (known : clip.filter.isNull = true ∨ clip.filter.isOneOf videoFilters = true) :
    clip.validate = .ok () ↔ clip.EndsInSource ∧ clip.IsLong := by
  obtain ⟨⟨m, hm, a, ha⟩, n, hn, b, hb⟩ := moments
  rw [validate_eq_ok]
  constructor
  · rintro ⟨_, _, _, _, hfinite, hinside, hlong, _⟩
    exact ⟨⟨hfinite, hinside⟩, hlong⟩
  · rintro ⟨⟨hfinite, hinside⟩, hlong⟩
    have hordered := hlong.lt hm ha hn hb
    refine ⟨start, stop, ?_, ?_, hfinite, hinside, hlong, known⟩
    · rw [Value.le_of_numbers hn hm, Number.le_of_places hb ha, Except.ok.injEq,
        decide_eq_false_iff_not]
      omega
    · rw [Value.lt_of_numbers hm rfl, Number.lt_of_places ha Number.place?_int_zero, Except.ok.injEq,
        decide_eq_false_iff_not]
      omega

/-- A window ends within the source if it does not end behind the double that is
nearest to the duration of the source. -/
theorem endsInSource_of_le {native stop : Number} {d o : Nat}
    (hnative : clip.source.duration = .number native) (finite : native.isFinite? = some true)
    (hd : native.place? = some (.inner d)) (hstop : clip.outTime.number? = some stop)
    (ho : stop.place? = some (.inner o)) (h : o ≤ Grid.nearest d 1) : clip.EndsInSource := by
  obtain ⟨x, hx⟩ := Number.exists_toReal? finite
  have hbehind := Number.add_not_lt hd hx place?_timeTolerance ho h
  have hsum : native.add? (.real timeTolerance) = some (.real (x.add timeTolerance)) :=
    Number.combine?_real hx timeTolerance
  generalize x.add timeTolerance = last at hbehind hsum
  have hfinite : clip.source.duration.isFinite = .ok true := by
    rw [hnative, Value.isFinite, finite, orFault]
  have hnumber : clip.source.duration.number? = some native := by
    rw [hnative]
    rfl
  refine ⟨hfinite, _, (Value.add_eq_ok hnumber rfl).mpr hsum, ?_⟩
  rw [Value.lt_of_numbers rfl hstop, hbehind]

/-- A window that is long enough for an edit is long enough to be valid. -/
theorem not_lt_shortestWindow {length : Number}
    (h : (Value.number length).lt (.real minClipDuration) = .ok false) :
    (Value.number length).lt (.real shortestWindow) = .ok false := by
  have hless : (Number.real shortestWindow).lt (.real minClipDuration) = true := by
    have hbounds := shortestWindow_add_le
    have hslack : 0 < Number.slack := by
      unfold Number.slack
      positivity
    rw [Number.lt_of_places place?_shortestWindow place?_minClipDuration, decide_eq_true_eq]
    omega
  rw [Value.lt_of_numbers rfl rfl, Except.ok.injEq] at h ⊢
  by_contra hshort
  rw [Bool.not_eq_false] at hshort
  rw [Number.lt_trans hshort hless] at h
  cases h

/-- A window that begins with its source is not too short if it ends late enough
for an edit. -/
theorem isLong_of_zero (hin : clip.inTime = .real 0) {stop : Number} {x : Binary64} {o : Nat}
    (hstop : clip.outTime.number? = some stop) (ho : stop.place? = some (.inner o))
    (hx : stop.toReal? = some x) (h : minClipDuration.units ≤ o) : clip.IsLong := by
  have hzero : (0 : Binary64).place? = some (.inner 0) := by
    have := Number.place?_real_zero
    rwa [Number.place?] at this
  have hplace := Binary64.place?_sub (Number.place?_toReal? ho hx) hzero (Nat.zero_le _)
  have hdifference : stop.sub? (.real 0) = some (.real (x.sub 0)) := Number.combine?_real hx 0
  generalize x.sub 0 = length at hplace hdifference
  have hduration : clip.duration = .ok (.real length) := by
    rw [duration, hin]
    exact (Value.sub_eq_ok hstop rfl).mpr hdifference
  have hlength : (Number.real length).place? = some (.inner _) := hplace
  refine ⟨_, hduration, ?_⟩
  have hbounds := shortestWindow_add_le
  have hlong : shortestWindow.units ≤ Grid.nearest o 1 :=
    Grid.le_nearest one_pos step_dvd_shortestWindow (by omega)
  rw [Value.lt_of_numbers rfl rfl, Number.lt_of_places hlength place?_shortestWindow,
    Except.ok.injEq, decide_eq_false_iff_not, Int.ofNat_lt, Nat.not_lt, Nat.sub_zero,
    Grid.nearest_of_dvd (Grid.step_dvd_nearest one_pos)]
  exact hlong

/-- A window that ends earlier ends within the source, too. -/
theorem EndsInSource.of_lt (h : clip.EndsInSource) {cut stop : Number}
    (hstop : clip.outTime.number? = some stop) (hlt : cut.lt stop = true) (id : Value) :
    { clip with id := id, outTime := .number cut }.EndsInSource := by
  obtain ⟨finite, last, hlast, hnot⟩ := h
  refine ⟨finite, last, hlast, ?_⟩
  rw [Value.lt_of_numbers rfl hstop, Except.ok.injEq] at hnot
  rw [Value.lt_of_numbers rfl rfl, Except.ok.injEq]
  cases hless : last.lt cut with
  | false => rfl
  | true => exact hnot.symm.trans (Number.lt_trans hless hlt) |>.symm

end Clip

/-! ## Sources of moderate length -/

/-- The number of seconds in about 68 years. -/
def moderateSeconds : Int := 2 ^ 31

/-- The source lasts no longer than that. -/
def Source.IsModerate (source : Source) : Prop :=
  (Value.int 0).le source.duration = .ok true ∧
    source.duration.le (.int moderateSeconds) = .ok true

/-- Whether a source is of moderate length can be computed. -/
instance (source : Source) : Decidable source.IsModerate :=
  decidable_of_iff (((Value.int 0).le source.duration).toOption = some true ∧
    (source.duration.le (.int moderateSeconds)).toOption = some true) (by
      constructor
      · rintro ⟨hlow, hhigh⟩
        exact ⟨Outcome.eq_ok_of_toOption hlow, Outcome.eq_ok_of_toOption hhigh⟩
      · rintro ⟨hlow, hhigh⟩
        rw [hlow, hhigh]
        exact ⟨rfl, rfl⟩)

/-- The units in a moderate length. -/
def moderateUnits : Nat := 2 ^ 31 * Grid.unitsPerOne

/-- A source of moderate length has its place on the grid of doubles. -/
theorem Source.IsModerate.exists_place {source : Source} (moderate : source.IsModerate)
    {native : Number} {units : Int} (hnative : source.duration.number? = some native)
    (hplace : native.place? = some (.inner units)) :
    ∃ d : Nat, units = d ∧ d ≤ moderateUnits ∧ Grid.step d ∣ d := by
  obtain ⟨hlow, hhigh⟩ := moderate
  have htop : (Number.int moderateSeconds).place? = some (.inner moderateUnits) := by
    rw [Number.place?, moderateUnits, moderateSeconds, Int.natCast_mul]
    rfl
  rw [Value.le_of_numbers rfl hnative, Number.le_of_places Number.place?_int_zero hplace,
    Except.ok.injEq, decide_eq_true_eq] at hlow
  rw [Value.le_of_numbers hnative rfl, Number.le_of_places hplace htop, Except.ok.injEq,
    decide_eq_true_eq] at hhigh
  have hrange : moderateUnits ≤ Number.exactRange := Nat.mul_le_mul_right _ (by decide)
  obtain ⟨d, rfl⟩ : ∃ d : Nat, units = d := ⟨units.toNat, by omega⟩
  exact ⟨d, rfl, by omega, Number.step_dvd_of_place hplace (by omega)⟩

/-- A window that ends within a source of moderate length is of moderate size. -/
theorem Clip.EndsInSource.lt_moderateRange {clip : Clip} (h : clip.EndsInSource)
    (moderate : clip.source.IsModerate) {stop : Number} {o : Nat}
    (hstop : clip.outTime.number? = some stop) (ho : stop.place? = some (.inner o)) :
    o < Number.moderateRange := by
  obtain ⟨finite, last, hlast, hnot⟩ := h
  obtain ⟨native, units, hduration, hplace⟩ := Value.isFinite_eq_true finite
  have hnative : clip.source.duration.number? = some native := by
    rw [hduration]
    rfl
  obtain ⟨d, rfl, hd, _⟩ := moderate.exists_place hnative hplace
  have hroom : moderateUnits + timeTolerance.units + Number.slack < Number.moderateRange := by
    have htolerance := timeTolerance_add_lt
    rw [moderateUnits, Number.moderateRange]
    omega
  obtain ⟨sum, hsum, hup, _⟩ := Number.exists_place?_add? hplace Clip.place?_timeTolerance
    (by omega) ((Value.add_eq_ok hnative rfl).mp hlast)
  rw [Value.lt_of_numbers rfl hstop, Number.lt_of_places hsum ho, Except.ok.injEq,
    decide_eq_false_iff_not] at hnot
  omega

end Montage
