import Montage.Proofs.Graph.Printed
import Montage.Proofs.Graph.Sources
import Montage.Proofs.Timeline.Window

/-!
# Windows in print

A valid window is much longer than what is lost when its ends are rounded to milliseconds.
The ends that are printed, for the picture and for the sound alike, therefore follow each
other, and two clips of which one begins where the other one ends share a printed end.
-/

namespace Montage

/-! ## Between the ends of a window -/

namespace Number

/-- A number stands for the rational number at its place. -/
theorem rational?_of_place {n : Number} {units : ℤ} (h : n.place? = some (.inner units)) :
    n.rational? = some ((units : ℚ) / Grid.unitsPerOne) := by
  rw [rational?, h]
  rfl

/-- The difference of exact moments is exact or rounded once. -/
theorem IsExact.place?_sub? {m n c : Number} {a b : ℕ} (hm : m.IsExact) (hn : n.IsExact)
    (ha : m.place? = some (.inner a)) (hb : n.place? = some (.inner b)) (ordered : b ≤ a)
    (h : m.sub? n = some c) :
    c.place? = some (.inner (a - b : ℕ)) ∨
      c.place? = some (.inner (Grid.nearest (a - b) 1 : ℕ)) := by
  rcases combine?_eq_some h with ⟨j, k, rfl, rfl, rfl⟩ | ⟨x, y, hx, hy, rfl⟩
  · left
    simp only [place?, Option.some.injEq, Place.inner.injEq] at ha hb ⊢
    rw [Int.sub_mul, ha, hb, Int.ofNat_sub ordered]
  · right
    exact Binary64.place?_sub ((hm.place?_toReal? hx).trans ha) ((hn.place?_toReal? hy).trans hb)
      ordered

end Number

namespace Clip

/-- A length that every valid window exceeds, in units: one sixty-fourth of a second. -/
def leastGap : ℕ := 2 ^ 1068

/-- It is shorter than the shortest window and longer than a millisecond. -/
theorem leastGap_computed :
    leastGap < shortestWindow.units ∧ Grid.unitsPerOne < leastGap * 10 ^ timePlaces := by
  decide +kernel

/-- It is on the grid. -/
theorem step_dvd_leastGap : Grid.step leastGap ∣ leastGap := by
  rw [leastGap, ← Nat.one_mul (2 ^ 1068)]
  exact Grid.step_dvd_of_le (by norm_num)

/-- Every integer that a window begins or ends with has at most 53 digits of base two. -/
def HasExactTimes (clip : Clip) : Prop :=
  ∀ k : ℤ, clip.inTime = .int k ∨ clip.outTime = .int k → k < 2 ^ 53

variable {clip : Clip}

/-- The ends of a window that is not too short are far apart. -/
theorem IsLong.gap (long : clip.IsLong) {m n : Number} {a b : ℕ} (hm : m.IsExact)
    (hn : n.IsExact) (hin : clip.inTime.number? = some m) (ha : m.place? = some (.inner a))
    (hout : clip.outTime.number? = some n) (hb : n.place? = some (.inner b)) :
    a + leastGap < b := by
  have hordered := long.lt hin ha hout hb
  obtain ⟨length, hlength, hlong⟩ := long
  have hplace := hn.place?_sub? hm hb ha hordered.le ((Value.sub_eq_ok hout hin).mp hlength)
  rw [Value.lt_of_numbers rfl rfl, Except.ok.injEq] at hlong
  have hleast := leastGap_computed.1
  by_contra hnear
  have hsmall : b - a ≤ leastGap := by omega
  rcases hplace with hplace | hplace <;>
    rw [Number.lt_of_places hplace place?_shortestWindow, decide_eq_false_iff_not] at hlong
  · omega
  · have hrounded : Grid.nearest (b - a) 1 ≤ leastGap :=
      Grid.nearest_le one_pos step_dvd_leastGap (by rwa [Nat.mul_one])
    omega

/-- The ends of a valid window with exact times are exact numbers from zero on. -/
theorem exists_ends (valid : clip.validate = .ok ()) (exact : clip.HasExactTimes) :
    ∃ m n a b, clip.inTime = .number m ∧ clip.outTime = .number n ∧ m.IsExact ∧ n.IsExact ∧
      m.place? = some (.inner (a : ℕ)) ∧ n.place? = some (.inner (b : ℕ)) ∧
      a + leastGap < b := by
  obtain ⟨hin, hout, _, _, _, _, hlong, _⟩ := validate_eq_ok.mp valid
  obtain ⟨⟨m, hm, a, ha⟩, n, hn, b, hb⟩ := hasMoments_of_validate valid
  obtain ⟨m', _, hinTime, _⟩ := Value.isFinite_eq_true hin
  obtain ⟨n', _, houtTime, _⟩ := Value.isFinite_eq_true hout
  rw [hinTime, Value.number?, Option.some.injEq] at hm
  rw [houtTime, Value.number?, Option.some.injEq] at hn
  subst hm hn
  have hexact : ∀ {k : Number} {units : ℕ}, k.place? = some (.inner units) →
      (clip.inTime = .number k ∨ clip.outTime = .number k) → k.IsExact := by
    intro k units hplace hend
    cases k with
    | real x => trivial
    | int k =>
      have hpos : 0 ≤ k := Number.isMoment_int.mp ⟨units, hplace⟩
      have hless : k < 2 ^ 53 := exact k hend
      change k.natAbs ≤ 2 ^ 53
      omega
  have hm := hexact ha (.inl hinTime)
  have hn := hexact hb (.inr houtTime)
  have hfirst : clip.inTime.number? = some m' := by rw [hinTime, Value.number?]
  have hlast : clip.outTime.number? = some n' := by rw [houtTime, Value.number?]
  exact ⟨m', n', a, b, hinTime, houtTime, hm, hn, ha, hb, IsLong.gap hlong hm hn hfirst ha hlast hb⟩

end Clip

/-! ## Windows in the text of stages -/

/-- A stage is printed with a window behind the name of its filter. -/
structure Stage.Cuts (stage : Stage) (filter : Text) (start stop : Numeral) : Prop where
  /-- The window begins with the one numeral. -/
  starts : stage.time "start" = .ok start.text
  /-- It ends with the other one. -/
  stops : stage.time "end" = .ok stop.text
  /-- The whole window stands between the name of the filter and the rest. -/
  printed : ∃ rest : Text, stage.text =
    .ok (stage.between (filter ++ ("start=" ++ start.text ++ ":end=" ++ stop.text) ++ rest))

namespace Stage

variable {source label : Text} {first last : Value} {start stop : Numeral}

/-- A stage with the parameters of a window tells it. -/
theorem window_eq {stage : Stage} (hstart : stage.time "start" = .ok start.text)
    (hstop : stage.time "end" = .ok stop.text) :
    stage.window = .ok ("start=" ++ start.text ++ ":end=" ++ stop.text) := by
  rw [window, hstart, hstop]
  rfl

/-- The trim of a picture cuts its window. -/
theorem cuts_trim {filter : Value} (hstart : filterNumber first timePlaces = .ok start.text)
    (hstop : filterNumber last timePlaces = .ok stop.text)
    (known : filter.isNull = true ∨ filter.isOneOf videoFilters = true) :
    (trim source label first last filter).Cuts "trim=" start stop := by
  obtain ⟨chain, _, hchain⟩ := exists_filterChain known
  refine ⟨hstart, hstop, ",setpts=PTS-STARTPTS" ++ chain, ?_⟩
  have hwindow : (trim source label first last filter).window = _ := window_eq hstart hstop
  have hparam : (trim source label first last filter).param? "filter" = .ok filter := rfl
  change trimText _ = _
  rw [trimText, hwindow, Outcome.ok_bind, hparam, Outcome.ok_bind, hchain, Outcome.ok_bind]
  simp only [Text.append_assoc]
  rfl

/-- The trim of a sound cuts its window. -/
theorem cuts_audioTrim {muted : Bool} (hstart : filterNumber first timePlaces = .ok start.text)
    (hstop : filterNumber last timePlaces = .ok stop.text) :
    (audioTrim source label first last muted).Cuts "atrim=" start stop := by
  refine ⟨hstart, hstop, ",asetpts=PTS-STARTPTS" ++ (if muted then ",volume=0" else "" : Text), ?_⟩
  have hwindow : (audioTrim source label first last muted).window = _ := window_eq hstart hstop
  have hparam : (audioTrim source label first last muted).param? "muted" =
      .ok (.bool muted) := rfl
  change audioTrimText _ = _
  rw [audioTrimText, hwindow, Outcome.ok_bind, hparam, Outcome.ok_bind]
  simp only [Text.append_assoc]
  cases muted <;> rfl

end Stage

/-! ## Windows of clips -/

/-- A file that is to be read adds no stage. -/
theorem Builder.stages_addInput (builder : Builder) (path kind : Value) :
    (builder.addInput path kind).2.stages = builder.stages := by
  unfold addInput
  split <;> rfl

namespace Clip

/-- Every trim of a clip cuts the window between two numerals, for which the times of the
clip are rounded. They follow each other from zero on. -/
structure CutsAt (clip : Clip) (start stop : Numeral) : Prop where
  /-- The first numeral is the in time in print. -/
  starts : clip.inTime.PrintsAs timePlaces start
  /-- The last one is the out time in print. -/
  stops : clip.outTime.PrintsAs timePlaces stop
  /-- The window does not begin before its source. -/
  nonneg : 0 ≤ start.value
  /-- The window is not empty. -/
  lt : start.value < stop.value
  /-- The picture of the clip is trimmed to this window. -/
  picture : ∀ (builder : Builder) (label : Text), ∃ stage,
    (builder.trimVideo clip label).stages = builder.stages ++ [stage] ∧
      stage.Cuts "trim=" start stop
  /-- So is its sound. -/
  sound : ∀ (builder : Builder) (label : Text) (muted : Bool), ∃ stage,
    (builder.trimAudio clip label muted).stages = builder.stages ++ [stage] ∧
      stage.Cuts "atrim=" start stop

variable {clip : Clip} {start stop : Numeral}

/-- Decimals of milliseconds that exact moments are rounded to follow each other if the
moments are far apart. -/
theorem lt_of_gap {m n : Number} {a b : ℕ} {r s : ℚ} (hm : m.IsExact) (hn : n.IsExact)
    (ha : m.place? = some (.inner a)) (hb : n.place? = some (.inner b)) (gap : a + leastGap < b)
    (hr : (Value.number m).FormatsTo timePlaces r)
    (hs : (Value.number n).FormatsTo timePlaces s) : 0 ≤ r ∧ r < s := by
  have hfirst := hr.roundsTo hm (Number.rational?_of_place ha)
  have hlast := hs.roundsTo hn (Number.rational?_of_place hb)
  have hleast := leastGap_computed.2
  have hpos := Grid.unitsPerOne_pos
  generalize Grid.unitsPerOne = unit at hfirst hlast hleast hpos
  generalize leastGap = far at gap hleast
  have hunit : (0 : ℚ) < unit := by exact_mod_cast hpos
  refine ⟨hfirst.nonneg (by positivity), hfirst.lt hlast ?_⟩
  have hfar : a * 10 ^ timePlaces + unit < b * 10 ^ timePlaces := by
    calc a * 10 ^ timePlaces + unit
        < a * 10 ^ timePlaces + far * 10 ^ timePlaces := Nat.add_lt_add_left hleast _
      _ = (a + far) * 10 ^ timePlaces := (Nat.add_mul _ _ _).symm
      _ ≤ b * 10 ^ timePlaces := Nat.mul_le_mul_right _ gap.le
  have hcast : (a : ℚ) * 10 ^ timePlaces + unit < b * 10 ^ timePlaces := by exact_mod_cast hfar
  rw [Int.cast_natCast, Int.cast_natCast, div_mul_eq_mul_div, div_mul_eq_mul_div,
    div_add_one hunit.ne']
  exact div_lt_div_of_pos_right hcast hunit

/-- A clip is cut at one window only. -/
theorem CutsAt.unique {start' stop' : Numeral} (h : clip.CutsAt start stop)
    (h' : clip.CutsAt start' stop') : start = start' ∧ stop = stop' :=
  ⟨h.starts.canonical.eq_of_value h'.starts.canonical (h.starts.formats.unique h'.starts.formats),
    h.stops.canonical.eq_of_value h'.stops.canonical (h.stops.formats.unique h'.stops.formats)⟩

/-- The trims of a valid clip with exact times cut a window that is not empty. -/
theorem exists_cutsAt (valid : clip.validate = .ok ()) (exact : clip.HasExactTimes) :
    ∃ start stop, clip.CutsAt start stop := by
  obtain ⟨hin, hout, _, _, _, _, _, known⟩ := validate_eq_ok.mp valid
  obtain ⟨start, hstart⟩ := Value.exists_printsAs hin (show 1 ≤ timePlaces by decide)
  obtain ⟨stop, hstop⟩ := Value.exists_printsAs hout (show 1 ≤ timePlaces by decide)
  obtain ⟨m, n, a, b, hm, hn, hexact, hexact', ha, hb, gap⟩ := exists_ends valid exact
  obtain ⟨hnonneg, hless⟩ := lt_of_gap hexact hexact' ha hb gap (hm ▸ hstart.formats)
    (hn ▸ hstop.formats)
  refine ⟨start, stop, hstart, hstop, hnonneg, hless, ?_, ?_⟩
  · intro builder label
    exact ⟨_, congrArg (· ++ [_]) (builder.stages_addInput _ _),
      Stage.cuts_trim hstart.printed hstop.printed known⟩
  · intro builder label muted
    exact ⟨_, congrArg (· ++ [_]) (builder.stages_addInput _ _),
      Stage.cuts_audioTrim hstart.printed hstop.printed⟩

/-- Exact numbers that are equal are rounded alike. -/
theorem eq_of_equal {m n : Number} {units : ℤ} {r s : ℚ} (hm : m.IsExact) (hn : n.IsExact)
    (hplace : m.place? = some (.inner units)) (h : (Value.number m).equal (.number n) = true)
    (hr : (Value.number m).FormatsTo timePlaces r)
    (hs : (Value.number n).FormatsTo timePlaces s) : r = s := by
  rw [Value.equal_of_numbers rfl rfl] at h
  obtain ⟨place, hm', hn'⟩ := Number.equal_iff.mp h
  rw [hplace] at hm'
  rw [← hm'] at hn'
  exact (hr.roundsTo hm (Number.rational?_of_place hplace)).unique
    (hs.roundsTo hn (Number.rational?_of_place hn'))

/-- The windows that the trims of valid clips cut, when they are printed in milliseconds, are
neither empty nor inverted: they begin at zero or later and end after they begin. The picture
and the sound are cut alike. A clip that begins where another one ends is cut from the very
numeral that the other one is cut to. -/
theorem cutsAt_of_valid (valid : clip.validate = .ok ()) (exact : clip.HasExactTimes) :
    ∃ start stop, clip.CutsAt start stop ∧
      ∀ other : Clip, other.validate = .ok () → other.HasExactTimes →
        clip.outTime.equal other.inTime = true → ∃ last, other.CutsAt stop last := by
  obtain ⟨start, stop, hcuts⟩ := exists_cutsAt valid exact
  refine ⟨start, stop, hcuts, fun other hvalid hexact hequal => ?_⟩
  obtain ⟨first, last, hother⟩ := exists_cutsAt hvalid hexact
  obtain ⟨_, n, _, b, _, hout, _, hn, _, hb, _⟩ := exists_ends valid exact
  obtain ⟨m, _, _, _, hin, _, hm, _⟩ := exists_ends hvalid hexact
  rw [hout, hin] at hequal
  have hvalue : first.value = stop.value := by
    refine (eq_of_equal hn hm hb hequal (hout ▸ hcuts.stops.formats) ?_).symm
    exact hin ▸ hother.starts.formats
  have hsame := hother.starts.canonical.eq_of_value hcuts.stops.canonical hvalue
  exact ⟨last, hsame ▸ hother⟩

/-- The first half of a clip. -/
def half : Clip :=
  .plain (.text "a") ⟨.text "a.mp4", .int 5, .null, .null⟩ (.int 0) (.real (.ofRatio false 5 2))
    (.int 0)

/-- The second half. -/
def rest : Clip := { half with inTime := half.outTime, outTime := .int 5 }

/-- The halves of a clip meet in writing, too. -/
theorem cutsAt_of_halves :
    half.validate = .ok () ∧ half.HasExactTimes ∧ rest.validate = .ok () ∧
      ∃ start stop last, half.CutsAt start stop ∧ rest.CutsAt stop last := by
  have hvalid : half.validate = .ok () ∧ rest.validate = .ok () :=
    ⟨Outcome.eq_ok_of_isOk (by decide +kernel), Outcome.eq_ok_of_isOk (by decide +kernel)⟩
  have hhalf : half.HasExactTimes := by
    rintro k (h | h)
    · cases h
      norm_num
    · cases h
  have hrest : rest.HasExactTimes := by
    rintro k (h | h)
    · cases h
    · cases h
      norm_num
  obtain ⟨start, stop, hcuts, hmeets⟩ := cutsAt_of_valid hvalid.1 hhalf
  obtain ⟨last, hlast⟩ := hmeets rest hvalid.2 hrest (by decide +kernel)
  exact ⟨hvalid.1, hhalf, hvalid.2, start, stop, last, hcuts, hlast⟩

end Clip

/-! ## Windows in compiled graphs -/

namespace RenderGraph.Follows

variable {graph : RenderGraph} {main shown : List Clip} {front back : List Step}
  (follows : graph.Follows main shown front back)
  (valid : ∀ clip ∈ main ++ shown, clip.validate = .ok ())
  (exact : ∀ clip ∈ main ++ shown, clip.HasExactTimes)

include follows valid exact

/-- The picture trims of a graph cut the windows of its clips. -/
theorem pictures_cut : List.Forall₂
    (fun clip stage => ∃ start stop, clip.CutsAt start stop ∧ stage.Cuts "trim=" start stop)
    (main ++ shown) (graph.stagesOf (.text "trim")) := by
  refine follows.forall₂_pictures fun clip label source htask _ _ => ?_
  have hclip := follows.mem_of_trim htask
  obtain ⟨start, stop, hcuts⟩ := Clip.exists_cutsAt (valid clip hclip) (exact clip hclip)
  obtain ⟨_, _, _, _, _, _, _, known⟩ := Clip.validate_eq_ok.mp (valid clip hclip)
  exact ⟨start, stop, hcuts, Stage.cuts_trim hcuts.starts.printed hcuts.stops.printed known⟩

/-- The sound trims of a graph cut the windows of the clips of the main track. -/
theorem sounds_cut : List.Forall₂
    (fun clip stage => ∃ start stop, clip.CutsAt start stop ∧ stage.Cuts "atrim=" start stop)
    main (graph.stagesOf (.text "atrim")) := by
  refine follows.forall₂_sounds fun clip label muted source htask _ _ => ?_
  have hclip := List.mem_append_left shown (follows.mem_of_listen htask)
  obtain ⟨start, stop, hcuts⟩ := Clip.exists_cutsAt (valid clip hclip) (exact clip hclip)
  exact ⟨start, stop, hcuts, Stage.cuts_audioTrim hcuts.starts.printed hcuts.stops.printed⟩

end RenderGraph.Follows

namespace Compile

variable {outside : Outside} {footage : Footage} {options : ExportOptions} {graph : RenderGraph}

/-- What is compiled was valid. -/
theorem Compiles.valid (h : Compiles outside footage options graph) {main overlay : List Clip}
    (tracks : footage.tracks = .ok (main, overlay)) :
    ∀ clip ∈ main ++ overlay, clip.validate = .ok () := by
  rw [List.forall_mem_append]
  obtain ⟨trace, after, h | ⟨width, height, h⟩⟩ := h
  · obtain ⟨_, _, _, _, htracks, hmain, hoverlay, _⟩ := of_run_eq_ok h
    cases tracks.symm.trans htracks
    exact ⟨hmain, hoverlay⟩
  · obtain ⟨_, _, _, htracks, hvalid, _⟩ := of_sized_eq_ok h
    cases tracks.symm.trans htracks
    exact valid_of_validate hvalid

/-- In a graph that was compiled, every trim of a picture or a sound cuts the window of its
clip, which is neither empty nor inverted. -/
theorem windows_of_compiles (h : Compiles outside footage options graph)
    (exact : ∀ clip ∈ footage.shown, clip.HasExactTimes) :
    ∃ main overlay, footage.tracks = .ok (main, overlay) ∧
      List.Forall₂
        (fun clip stage => ∃ start stop, clip.CutsAt start stop ∧ stage.Cuts "trim=" start stop)
        (main ++ options.shown overlay) (graph.stagesOf (.text "trim")) ∧
      List.Forall₂
        (fun clip stage => ∃ start stop, clip.CutsAt start stop ∧ stage.Cuts "atrim=" start stop)
        main (graph.stagesOf (.text "atrim")) := by
  obtain ⟨main, overlay, front, back, htracks, follows⟩ := h.exists_follows
  have hall : ∀ clip ∈ main ++ options.shown overlay, clip ∈ main ++ overlay := by
    intro clip hclip
    rcases List.mem_append.mp hclip with hmain | hshown
    · exact List.mem_append_left _ hmain
    · exact List.mem_append_right _ (ExportOptions.mem_of_shown hshown)
  have hvalid := fun clip hclip => h.valid htracks clip (hall clip hclip)
  have hexact := fun clip hclip =>
    exact clip (Footage.mem_shown_of_tracks htracks clip (hall clip hclip))
  exact ⟨main, overlay, htracks, follows.pictures_cut hvalid hexact,
    follows.sounds_cut hvalid hexact⟩

end Compile

end Montage
