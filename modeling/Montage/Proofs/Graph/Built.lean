import Montage.Proofs.Graph.Turns
import Montage.Proofs.Graph.Written
import Montage.Proofs.Timeline.Integrity

/-!
# What the builder holds

The stages of a builder flow. The labels that it makes come one after the other,
so that a label is new when its turn comes. Each operation of the builder is
described by the streams that wait before and after it.
-/

namespace Montage

/-- When the builder makes a label: in which part of the work, for the clip of
which number, and at which step for this clip. -/
structure Rank where
  /-- The part of the work. -/
  part : Nat
  /-- The number of the clip. -/
  clip : Nat
  /-- The step for the clip. -/
  step : Nat

namespace Rank

/-- Whether something is made before something else. -/
def Before (a b : Rank) : Prop :=
  a.part < b.part ∨
    a.part = b.part ∧ (a.clip < b.clip ∨ a.clip = b.clip ∧ a.step < b.step)

/-- What is made before something is made before everything that is not. -/
theorem Before.of_not {a b c : Rank} (h : a.Before b) (hnot : ¬ c.Before b) : a.Before c := by
  unfold Before at *
  omega

/-- What is not made before the start of a time, but before its end, tells that
the time ends after its start. -/
theorem Before.not_before {a start stop : Rank} (late : a.Before stop)
    (early : ¬ a.Before start) : ¬ stop.Before start := by
  unfold Before at *
  omega

end Rank

/-- When the builder makes a label. -/
def StreamLabel.rank : StreamLabel → Rank
  | picture index => ⟨0, index, 0⟩
  | sound index => ⟨0, index, 1⟩
  | image index number => ⟨0, index, 2 * number + 2⟩
  | passed index number => ⟨0, index, 2 * number + 2⟩
  | laid index number => ⟨0, index, 2 * number + 3⟩
  | mainVideo => ⟨1, 0, 0⟩
  | mainAudio => ⟨1, 0, 0⟩
  | inset index => ⟨2, index, 0⟩
  | overlayVideo => ⟨3, 0, 0⟩
  | overlayScaled => ⟨4, 0, 0⟩
  | overlayBase => ⟨4, 0, 0⟩
  | composited => ⟨5, 0, 0⟩
  | output => ⟨6, 0, 0⟩

/-- The labels of streams hold no brackets and no semicolons. -/
theorem StreamLabel.plain_texts (streams : List (StreamLabel × Signal)) :
    ∀ label ∈ streams.map (fun stream => stream.1.text), label.Plain := by
  intro label h
  obtain ⟨stream, _, rfl⟩ := List.mem_map.mp h
  exact stream.1.plain_text

/-- A forced frame consists of forced percentages. -/
theorem Frame.clamped_eq_ok {position : Position} {size : Size} {frame : Frame}
    (h : clamped position size = .ok frame) :
    size.width.clampPercent = .ok frame.width ∧ size.height.clampPercent = .ok frame.height ∧
      position.x.clampPercent = .ok frame.x ∧ position.y.clampPercent = .ok frame.y := by
  simp only [clamped, Outcome.bind_eq_ok, Outcome.pure_eq_ok] at h
  obtain ⟨width, hwidth, height, hheight, x, hx, y, hy, rfl⟩ := h
  exact ⟨hwidth, hheight, hx, hy⟩

/-- A frame cannot be forced exactly when one of its values is not-a-number or no
number at all. -/
theorem Frame.clamped_eq_error {position : Position} {size : Size} :
    (∃ fault, clamped position size = .error fault) ↔
      ∃ value ∈ [size.width, size.height, position.x, position.y],
        value.isNaN = true ∨ value.number? = none := by
  constructor
  · rintro ⟨fault, h⟩
    by_contra hnone
    have hforced : ∀ value ∈ [size.width, size.height, position.x, position.y],
        ∃ forced, value.clampPercent = .ok forced := by
      intro value hvalue
      cases hclamp : value.clampPercent with
      | ok forced => exact ⟨forced, rfl⟩
      | error fault =>
        exact absurd ⟨value, hvalue, Value.clampPercent_eq_error.mp ⟨fault, hclamp⟩⟩ hnone
    obtain ⟨width, hwidth⟩ := hforced size.width (by simp)
    obtain ⟨height, hheight⟩ := hforced size.height (by simp)
    obtain ⟨x, hx⟩ := hforced position.x (by simp)
    obtain ⟨y, hy⟩ := hforced position.y (by simp)
    rw [clamped, hwidth, hheight, hx, hy] at h
    cases h
  · rintro ⟨value, hvalue, hbad⟩
    obtain ⟨fault, hfault⟩ := Value.clampPercent_eq_error.mpr hbad
    cases hclamped : clamped position size with
    | error fault => exact ⟨fault, rfl⟩
    | ok frame =>
      obtain ⟨hwidth, hheight, hx, hy⟩ := Frame.clamped_eq_ok hclamped
      simp only [List.mem_cons, List.not_mem_nil, or_false] at hvalue
      rcases hvalue with rfl | rfl | rfl | rfl
      · rw [hwidth] at hfault
        cases hfault
      · rw [hheight] at hfault
        cases hfault
      · rw [hx] at hfault
        cases hfault
      · rw [hy] at hfault
        cases hfault

/-- The forced values of an overlay are a forced frame and a forced opacity. -/
theorem Overlay.clamped_eq_ok {overlay : Overlay} {frame : Frame} {opacity : Value}
    (h : overlay.clamped = .ok (frame, opacity)) :
    Frame.clamped overlay.position overlay.size = .ok frame ∧
      overlay.opacity.clampOpacity = .ok opacity := by
  simp only [clamped, Outcome.bind_eq_ok, Outcome.pure_eq_ok, Prod.mk.injEq] at h
  obtain ⟨_, hframe, _, hopacity, rfl, rfl⟩ := h
  exact ⟨hframe, hopacity⟩

namespace Builder

/-- The stages of a builder flow, their labels come before a rank, and some of
their streams wait. -/
structure Holds (builder : Builder) (rank : Rank) (waiting : List (StreamLabel × Signal)) :
    Prop where
  /-- The files are numbered in their order. -/
  numbered : Numbered builder.inputs
  /-- The stages flow, and their labels come early. -/
  flows : ∃ made, Flow Stage.Written builder.inputs builder.stages made waiting ∧
    ∀ label ∈ made, label.rank.Before rank

/-- A builder that holds nothing. -/
theorem holds_empty (rank : Rank) : empty.Holds rank [] where
  numbered number input h := by cases h
  flows := ⟨[], .empty, fun label h => absurd h List.not_mem_nil⟩

variable {builder after : Builder} {rank next : Rank}
  {waiting rest new other : List (StreamLabel × Signal)}

namespace Holds

/-- The order in which streams wait does not matter. -/
theorem perm (holds : builder.Holds rank waiting) (h : other.Perm waiting) :
    builder.Holds rank other where
  numbered := holds.numbered
  flows := by
    obtain ⟨made, flow, hmade⟩ := holds.flows
    exact ⟨made, flow.perm h, hmade⟩

/-- What comes early comes before later ranks, too. -/
theorem wait (holds : builder.Holds rank waiting) (h : ¬ next.Before rank) :
    builder.Holds next waiting where
  numbered := holds.numbered
  flows := by
    obtain ⟨made, flow, hmade⟩ := holds.flows
    exact ⟨made, flow, fun label hlabel => (hmade label hlabel).of_not h⟩

/-- Asking for a file gives one with its path, and keeps what waits. -/
theorem addInput (holds : builder.Holds rank waiting) {path : Value} {kind : Text}
    {input : GraphInput} (h : builder.addInput path (.text kind) = (input, after)) :
    after.Holds rank waiting ∧ input ∈ after.inputs ∧ input.kind = .text kind ∧
      input.path.display = path.display := by
  rcases Builder.addInput_cases ⟨kind, rfl⟩ h with ⟨rfl, hmem, hfor⟩ | ⟨rfl, rfl, _⟩
  · exact ⟨holds, hmem, hfor⟩
  · obtain ⟨made, flow, hmade⟩ := holds.flows
    have hkept : ∀ input ∈ builder.inputs,
        input ∈ builder.inputs ++ [⟨.int builder.inputs.length, path, .text kind⟩] :=
      fun input hinput => List.mem_append_left _ hinput
    exact ⟨⟨holds.numbered.snoc path (.text kind), made, flow.mono hkept fun _ h => h, hmade⟩,
      List.mem_append_right _ (List.mem_singleton_self _), rfl, rfl⟩

/-- A stage that is written takes streams which wait and makes new ones of its
rank. -/
theorem addStage (holds : builder.Holds rank waiting) (next : Rank) {stage : Stage}
    {feeds : List Feed} (written : stage.Written) (turns : stage.Turns feeds new)
    (ready : ∀ feed ∈ feeds, feed.Ready builder.inputs)
    (takes : waiting.Perm (Feed.taken feeds ++ rest)) (apart : (new.map Prod.fst).Nodup)
    (early : ∀ label ∈ new.map Prod.fst, ¬ label.rank.Before rank)
    (late : ∀ label ∈ new.map Prod.fst, label.rank.Before next) (hnext : ¬ next.Before rank) :
    (builder.addStage stage).Holds next (new ++ rest) where
  numbered := holds.numbered
  flows := by
    obtain ⟨made, flow, hmade⟩ := holds.flows
    have hfresh : (made ++ new.map Prod.fst).Nodup := by
      refine List.nodup_append.mpr ⟨flow.made_nodup, apart, ?_⟩
      rintro label hlabel _ hnew rfl
      exact early label hnew (hmade label hlabel)
    refine ⟨_, .add flow written turns ready takes hfresh (.refl _), ?_⟩
    intro label hlabel
    rcases List.mem_append.mp hlabel with hold | hnew
    · exact (hmade label hold).of_not hnext
    · exact late label hnew

/-- The label of a file's stream holds no brackets and no semicolons. -/
theorem plain_file (holds : builder.Holds rank waiting) {input : GraphInput}
    (h : input ∈ builder.inputs) : input.video.Plain ∧ input.audio.Plain :=
  ⟨GraphInput.Labels.plain holds.numbered ⟨input, h, .inl rfl⟩,
    GraphInput.Labels.plain holds.numbered ⟨input, h, .inr rfl⟩⟩

/-! ## Clips -/

/-- Trimming the picture of a valid clip. -/
theorem trimVideo (holds : builder.Holds rank waiting) {clip : Clip}
    (valid : clip.validate = .ok ()) (label : StreamLabel) (early : ¬ label.rank.Before rank)
    (late : label.rank.Before next) :
    (builder.trimVideo clip label.text).Holds next ((label, clip.window) :: waiting) := by
  obtain ⟨hin, hout, _, _, _, _, _, hfilter⟩ := Clip.validate_eq_ok.mp valid
  unfold Builder.trimVideo
  cases hinput : builder.addInput clip.source.path GraphInput.media with
  | mk input after =>
    obtain ⟨holds', hmem, hkind, hpath⟩ := holds.addInput hinput
    have hwindow : clip.window =
        .trimmed (Feed.picture input).signal clip.inTime clip.outTime clip.filter := by
      rw [Clip.window, Clip.sourcePicture, Feed.signal, hkind, hpath]
      rfl
    rw [hwindow]
    exact holds'.addStage next
      (Stage.written_trim (holds'.plain_file hmem).1 label.plain_text hin hout hfilter)
      (Stage.turns_trim input label clip.inTime clip.outTime clip.filter)
      (by simpa [Feed.Ready] using hmem) (.refl _) (List.nodup_singleton _)
      (by simpa using early) (by simpa using late) (late.not_before early)

/-- Trimming the sound of a valid clip. -/
theorem trimAudio (holds : builder.Holds rank waiting) {clip : Clip}
    (valid : clip.validate = .ok ()) (label : StreamLabel) (options : ExportOptions)
    (early : ¬ label.rank.Before rank) (late : label.rank.Before next) :
    (builder.trimAudio clip label.text
      (clip.muted.truthy || options.mainMuted.truthy)).Holds next
      ((label, clip.heard options) :: waiting) := by
  obtain ⟨hin, hout, _⟩ := Clip.validate_eq_ok.mp valid
  unfold Builder.trimAudio
  cases hinput : builder.addInput clip.source.path GraphInput.media with
  | mk input after =>
    obtain ⟨holds', hmem, hkind, hpath⟩ := holds.addInput hinput
    have hheard : clip.heard options =
        .heard (Feed.sound input).signal clip.inTime clip.outTime
          (.bool (clip.muted.truthy || options.mainMuted.truthy)) := by
      rw [Clip.heard, Feed.signal, hpath]
    have hmedium : input.kind.equal GraphInput.media = true := by
      rw [hkind]
      rfl
    rw [hheard]
    exact holds'.addStage next
      (Stage.written_audioTrim (holds'.plain_file hmem).2 label.plain_text hin hout)
      (Stage.turns_audioTrim input label clip.inTime clip.outTime _)
      (by simpa [Feed.Ready] using ⟨hmem, hmedium⟩) (.refl _) (List.nodup_singleton _)
      (by simpa using early) (by simpa using late) (late.not_before early)

/-! ## Images -/

/-- Laying a scaled picture over the one that it was scaled to. -/
theorem layOver {scaled passed : StreamLabel} {picture base : Signal} {x y left top : Value}
    (holds : builder.Holds rank ((scaled, picture) :: (passed, base) :: rest))
    (label : StreamLabel) (atEnd : Text) (hend : atEnd.Plain) (hx : x.clampPercent = .ok left)
    (hy : y.clampPercent = .ok top) (early : ¬ label.rank.Before rank)
    (late : label.rank.Before next) :
    (builder.addStage (.overlay passed.text scaled.text label.text left top atEnd)).Holds next
      ((label, .laid base picture left top (.text atEnd)) :: rest) := by
  have hready : ∀ feed ∈ [Feed.stream passed base, Feed.stream scaled picture],
      feed.Ready builder.inputs := by
    simp [Feed.Ready]
  exact holds.addStage next
    (Stage.written_overlay passed.plain_text scaled.plain_text label.plain_text hend hx hy)
    (Stage.turns_overlay passed scaled label base picture left top atEnd) hready
    (List.Perm.swap _ _ _) (List.nodup_singleton _) (by simpa using early)
    (by simpa using late) (late.not_before early)

/-- Laying an image with usable values over a picture. -/
theorem layImage {video : StreamLabel} {base : Signal} {index number : Nat}
    (holds : builder.Holds ⟨0, index, 2 * number + 2⟩ ((video, base) :: rest)) {overlay : Overlay}
    {frame : Frame} {opacity : Value} (clamped : overlay.clamped = .ok (frame, opacity)) :
    (builder.layImage index number overlay frame opacity video.text).1 =
        (StreamLabel.laid index number).text ∧
      (builder.layImage index number overlay frame opacity video.text).2.Holds
        ⟨0, index, 2 * (number + 1) + 2⟩
        ((.laid index number, Clip.withImage base overlay) :: rest) := by
  obtain ⟨hframe, hopacity⟩ := Overlay.clamped_eq_ok clamped
  obtain ⟨hwidth, hheight, hx, hy⟩ := Frame.clamped_eq_ok hframe
  obtain ⟨hnull, level, hlevel, hplain⟩ := Value.exists_level sharePlaces hopacity
  unfold Builder.layImage
  cases hinput : builder.addInput overlay.image GraphInput.image with
  | mk input after =>
    obtain ⟨holds', hmem, hkind, hpath⟩ := holds.addInput hinput
    refine ⟨(StreamLabel.text_laid index number).symm, ?_⟩
    simp only [← StreamLabel.text_laid, ← StreamLabel.text_image, ← StreamLabel.text_passed]
    have hpicture : (Feed.picture input).signal = .picture false overlay.image.display := by
      rw [Feed.signal, hkind, hpath]
      rfl
    have hscaled := holds'.addStage ⟨0, index, 2 * number + 3⟩
      (Stage.written_overlayScale_of_level (holds'.plain_file hmem).1 video.plain_text
        (StreamLabel.image index number).plain_text (StreamLabel.passed index number).plain_text
        hwidth hheight hnull hlevel hplain)
      (Stage.turns_scaleImage input video (.image index number) (.passed index number) base
        frame.width frame.height opacity overlay.image)
      (by simpa [Feed.Ready] using hmem) (.refl _) (by simp)
      (by simp [StreamLabel.rank, Rank.Before]) (by simp [StreamLabel.rank, Rank.Before])
      (by simp [Rank.Before])
    rw [hpicture] at hscaled
    have hearly : ¬ (StreamLabel.laid index number).rank.Before ⟨0, index, 2 * number + 3⟩ := by
      simp [StreamLabel.rank, Rank.Before]
    have hlate : (StreamLabel.laid index number).rank.Before
        ⟨0, index, 2 * (number + 1) + 2⟩ := by
      dsimp only [StreamLabel.rank, Rank.Before]
      omega
    have hlaid := hscaled.layOver (.laid index number) "repeat" (Text.plain_ofList (by decide))
        hx hy hearly hlate
    have hwith : Clip.withImage base overlay = .laid base
        (.scaled (.picture false overlay.image.display) base frame.width frame.height opacity)
        frame.x frame.y (.text "repeat") := by
      rw [Clip.withImage, clamped]
    rw [hwith]
    exact hlaid

/-- A note keeps what waits. -/
theorem addNote (holds : builder.Holds rank waiting) (note : Note) :
    (builder.addNote note).Holds rank waiting :=
  ⟨holds.numbered, holds.flows⟩

/-- Laying the images of a clip over its picture leaves out those whose values
cannot be forced into their ranges. -/
theorem layImages {video : StreamLabel} {base : Signal} {index number : Nat} (clip : Clip)
    (overlays : List Overlay)
    (holds : builder.Holds ⟨0, index, 2 * number + 2⟩ ((video, base) :: rest)) :
    ∃ label : StreamLabel,
      (builder.layImages index clip video.text number overlays).1 = label.text ∧
      (builder.layImages index clip video.text number overlays).2.Holds ⟨0, index + 1, 0⟩
        ((label, overlays.foldl Clip.withImage base) :: rest) := by
  induction overlays generalizing builder number video base with
  | nil => exact ⟨video, rfl, holds.wait (by simp [Rank.Before])⟩
  | cons overlay overlays ih =>
    unfold Builder.layImages
    cases hclamped : overlay.clamped with
    | ok values =>
      obtain ⟨frame, opacity⟩ := values
      obtain ⟨hlabel, hlaid⟩ := holds.layImage hclamped
      dsimp only
      rw [hlabel]
      exact ih hlaid
    | error fault =>
      have hbase : Clip.withImage base overlay = base := by
        rw [Clip.withImage, hclamped]
      have hnext : ¬ Rank.Before ⟨0, index, 2 * (number + 1) + 2⟩ ⟨0, index, 2 * number + 2⟩ := by
        dsimp only [Rank.Before]
        omega
      rw [List.foldl_cons, hbase]
      exact ih ((holds.addNote (skippedNote clip overlay)).wait hnext)

/-! ## The main track -/

/-- Adding a valid clip of the main track makes its picture and its sound. -/
theorem addMainClip {index : Nat} (holds : builder.Holds ⟨0, index, 0⟩ waiting) {clip : Clip}
    (valid : clip.validate = .ok ()) (options : ExportOptions) :
    ∃ video audio : StreamLabel,
      (builder.addMainClip options index clip).1 = (video.text, audio.text) ∧
      (builder.addMainClip options index clip).2.Holds ⟨0, index + 1, 0⟩
        ((video, clip.shown) :: (audio, clip.heard options) :: waiting) := by
  have hvideo : Builder.Holds _ ⟨0, index, 1⟩ _ :=
    holds.trimVideo valid (.picture index) (by simp [StreamLabel.rank, Rank.Before])
      (by simp [StreamLabel.rank, Rank.Before])
  have haudio : Builder.Holds _ ⟨0, index, 2 * 0 + 2⟩ _ :=
    hvideo.trimAudio valid (.sound index) options (by simp [StreamLabel.rank, Rank.Before])
      (by simp [StreamLabel.rank, Rank.Before])
  obtain ⟨label, hlabel, hlaid⟩ := (haudio.perm (List.Perm.swap _ _ _)).layImages clip clip.overlays
  rw [StreamLabel.text_picture, StreamLabel.text_sound] at hlabel hlaid
  refine ⟨label, .sound index, ?_, hlaid⟩
  rw [StreamLabel.text_sound, ← hlabel]
  rfl

/-- Adding valid clips of the main track makes a picture and a sound for each, in
their order. -/
theorem addMainClips {index : Nat} (holds : builder.Holds ⟨0, index, 0⟩ waiting)
    {clips : List Clip} (valid : ∀ clip ∈ clips, clip.validate = .ok ())
    (options : ExportOptions) :
    ∃ pairs : List ((StreamLabel × Signal) × (StreamLabel × Signal)),
      (builder.addMainClips options index clips).1 =
        pairs.map (fun pair => (pair.1.1.text, pair.2.1.text)) ∧
      pairs.map (fun pair => pair.1.2) = clips.map Clip.shown ∧
      pairs.map (fun pair => pair.2.2) = clips.map (fun clip => clip.heard options) ∧
      (builder.addMainClips options index clips).2.Holds ⟨1, 0, 0⟩
        (Stage.paired pairs ++ waiting) := by
  induction clips generalizing builder index waiting with
  | nil => exact ⟨[], rfl, rfl, rfl, holds.wait (by simp [Rank.Before])⟩
  | cons clip clips ih =>
    obtain ⟨video, audio, hlabels, hclip⟩ := holds.addMainClip (valid clip List.mem_cons_self) options
    obtain ⟨pairs, htexts, hpictures, hsounds, hclips⟩ :=
      ih hclip fun other h => valid other (List.mem_cons_of_mem _ h)
    refine ⟨((video, clip.shown), (audio, clip.heard options)) :: pairs, ?_, ?_, ?_, ?_⟩
    · rw [List.map_cons, ← htexts, ← hlabels]
      rfl
    · rw [List.map_cons, List.map_cons, hpictures]
    · rw [List.map_cons, List.map_cons, hsounds]
    · refine hclips.perm ?_
      have hmove := List.perm_append_comm_assoc
        [(video, clip.shown), (audio, clip.heard options)] (Stage.paired pairs) waiting
      simpa [Stage.paired] using hmove

/-- Putting the clips of the main track after each other joins their pictures and
their sounds. -/
theorem joinMainClips {pairs : List ((StreamLabel × Signal) × (StreamLabel × Signal))}
    (holds : builder.Holds ⟨1, 0, 0⟩ (Stage.paired pairs)) {labels : List (Text × Text)}
    (texts : labels = pairs.map fun pair => (pair.1.1.text, pair.2.1.text)) :
    (builder.addStage (.concat (labels.flatMap fun pair => [pair.1, pair.2])
      [Stage.mainVideo, Stage.mainAudio] labels.length 1 1)).Holds ⟨2, 0, 0⟩
      [(.mainVideo, .joined (pairs.map fun pair => pair.1.2)),
        (.mainAudio, .joined (pairs.map fun pair => pair.2.2))] := by
  have hlabels : labels.flatMap (fun pair => [pair.1, pair.2]) =
      (Stage.paired pairs).map fun stream => stream.1.text := by
    simp [texts, Stage.paired, List.map_flatMap, List.flatMap_map]
  have hlength : labels.length = pairs.length := by
    rw [texts, List.length_map]
  have hplain := StreamLabel.plain_texts (Stage.paired pairs)
  have hready := Feed.ready_map_ofStream builder.inputs (Stage.paired pairs)
  have htakes : (Stage.paired pairs).Perm
      (Feed.taken ((Stage.paired pairs).map Feed.ofStream) ++ []) := by
    rw [Feed.taken_map_ofStream, List.append_nil]
  rw [hlabels, hlength]
  exact holds.addStage ⟨2, 0, 0⟩ (Stage.written_concat hplain (by decide))
    (Stage.turns_concat_pairs pairs .mainVideo .mainAudio) hready htakes (by simp)
    (by simp [StreamLabel.rank, Rank.Before]) (by simp [StreamLabel.rank, Rank.Before])
    (by simp [Rank.Before])

/-- Adding the main track makes its picture and its sound. -/
theorem addMainTrack (holds : builder.Holds ⟨0, 0, 0⟩ []) {clips : List Clip}
    (valid : ∀ clip ∈ clips, clip.validate = .ok ()) (options : ExportOptions) :
    ∃ video audio : StreamLabel,
      (builder.addMainTrack options clips).1 = (video.text, audio.text) ∧
      (builder.addMainTrack options clips).2.Holds ⟨2, 0, 0⟩
        [(video, Signal.mainPicture clips), (audio, Signal.mainSound clips options)] := by
  obtain ⟨pairs, htexts, hpictures, hsounds, hclips⟩ := holds.addMainClips valid options
  rw [List.append_nil] at hclips
  have hpicture : Signal.mainPicture clips = Signal.join (pairs.map fun pair => pair.1.2) := by
    rw [hpictures]
    rfl
  have hsound : Signal.mainSound clips options = Signal.join (pairs.map fun pair => pair.2.2) := by
    rw [hsounds]
    rfl
  rw [hpicture, hsound]
  unfold Builder.addMainTrack
  cases hadded : builder.addMainClips options 0 clips with
  | mk labels after =>
    rw [hadded] at htexts hclips
    dsimp only at htexts hclips ⊢
    rw [htexts]
    match pairs, hclips with
    | [], hclips => exact ⟨.mainVideo, .mainAudio, rfl, hclips.joinMainClips rfl⟩
    | [pair], hclips => exact ⟨pair.1.1, pair.2.1, rfl, hclips.wait (by simp [Rank.Before])⟩
    | pair :: next :: pairs, hclips =>
      exact ⟨.mainVideo, .mainAudio, rfl, hclips.joinMainClips rfl⟩

/-! ## The overlay track -/

/-- Trimming the pictures of valid clips of the overlay track, in their order. -/
theorem trimOverlayClips {index : Nat} (holds : builder.Holds ⟨2, index, 0⟩ waiting)
    {clips : List Clip} (valid : ∀ clip ∈ clips, clip.validate = .ok ()) :
    ∃ streams : List (StreamLabel × Signal),
      (builder.trimOverlayClips index clips).1 = streams.map (fun stream => stream.1.text) ∧
      streams.map Prod.snd = clips.map Clip.window ∧
      (builder.trimOverlayClips index clips).2.Holds ⟨3, 0, 0⟩ (streams ++ waiting) := by
  induction clips generalizing builder index waiting with
  | nil => exact ⟨[], rfl, rfl, holds.wait (by simp [Rank.Before])⟩
  | cons clip clips ih =>
    have htrimmed : Builder.Holds _ ⟨2, index + 1, 0⟩ _ :=
      holds.trimVideo (valid clip List.mem_cons_self) (.inset index)
        (by simp [StreamLabel.rank, Rank.Before]) (by simp [StreamLabel.rank, Rank.Before])
    obtain ⟨streams, htexts, hpictures, hclips⟩ :=
      ih htrimmed fun other h => valid other (List.mem_cons_of_mem _ h)
    rw [StreamLabel.text_inset] at htexts hclips
    refine ⟨(.inset index, clip.window) :: streams, ?_, ?_, hclips.perm List.perm_middle.symm⟩
    · rw [List.map_cons, ← htexts, StreamLabel.text_inset]
      rfl
    · rw [List.map_cons, List.map_cons, hpictures]

/-- Putting the pictures of the overlay track after each other joins them. -/
theorem joinOverlayClips {streams : List (StreamLabel × Signal)}
    (holds : builder.Holds ⟨3, 0, 0⟩ (streams ++ rest)) {labels : List Text}
    (texts : labels = streams.map fun stream => stream.1.text) :
    ∃ label : StreamLabel, (builder.joinOverlayClips labels).1 = label.text ∧
      (builder.joinOverlayClips labels).2.Holds ⟨4, 0, 0⟩
        ((label, Signal.join (streams.map Prod.snd)) :: rest) := by
  have hplain := StreamLabel.plain_texts streams
  have hready := Feed.ready_map_ofStream builder.inputs streams
  have htakes : (streams ++ rest).Perm (Feed.taken (streams.map Feed.ofStream) ++ rest) := by
    rw [Feed.taken_map_ofStream]
  have hlength : labels.length = streams.length := by
    rw [texts, List.length_map]
  have hjoined := holds.addStage ⟨4, 0, 0⟩ (Stage.written_concat hplain (by decide))
    (Stage.turns_concat_pictures streams .overlayVideo) hready htakes (by simp)
    (by simp [StreamLabel.rank, Rank.Before]) (by simp [StreamLabel.rank, Rank.Before])
    (by simp [Rank.Before])
  rw [← hlength, ← texts] at hjoined
  subst texts
  match streams, holds, hjoined with
  | [], _, hjoined => exact ⟨.overlayVideo, rfl, hjoined⟩
  | [stream], holds, _ => exact ⟨stream.1, rfl, holds.wait (by simp [Rank.Before])⟩
  | stream :: next :: streams, _, hjoined => exact ⟨.overlayVideo, rfl, hjoined⟩

/-- Adding the overlay track lays its pictures over the main one, in the frame of
its first clip. -/
theorem addOverlayTrack {video : StreamLabel} {base : Signal}
    (holds : builder.Holds ⟨2, 0, 0⟩ ((video, base) :: rest)) {first : Clip} {clips : List Clip}
    {frame : Frame} (valid : ∀ clip ∈ clips, clip.validate = .ok ())
    (clamped : Frame.clamped first.position first.size = .ok frame) :
    ∃ after, builder.addOverlayTrack first clips video.text =
        .ok (StreamLabel.composited.text, after) ∧
      after.Holds ⟨6, 0, 0⟩ ((.composited, Signal.withInset base clips frame) :: rest) := by
  obtain ⟨hwidth, hheight, hx, hy⟩ := Frame.clamped_eq_ok clamped
  unfold Builder.addOverlayTrack
  rw [clamped]
  obtain ⟨streams, htexts, hpictures, htrimmed⟩ := holds.trimOverlayClips valid
  obtain ⟨picture, hpicture, hjoined⟩ := htrimmed.joinOverlayClips htexts
  dsimp only
  rw [hpicture]
  have hscaled := hjoined.addStage ⟨5, 0, 0⟩
    (Stage.written_overlayScale_of_isNull picture.plain_text video.plain_text
      StreamLabel.overlayScaled.plain_text StreamLabel.overlayBase.plain_text hwidth hheight
      rfl)
    (Stage.turns_scaleStream picture video .overlayScaled .overlayBase
      (Signal.join (streams.map Prod.snd)) base frame.width frame.height .null .null)
    (by simp [Feed.Ready]) (.refl _) (by simp) (by simp [StreamLabel.rank, Rank.Before])
    (by simp [StreamLabel.rank, Rank.Before]) (by simp [Rank.Before])
  have hearly : ¬ StreamLabel.composited.rank.Before ⟨5, 0, 0⟩ := by
    simp [StreamLabel.rank, Rank.Before]
  have hlate : StreamLabel.composited.rank.Before ⟨6, 0, 0⟩ := by
    simp [StreamLabel.rank, Rank.Before]
  have hlaid := hscaled.layOver .composited "pass" (Text.plain_ofList (by decide))
        hx hy hearly hlate
  rw [hpictures] at hlaid
  exact ⟨_, rfl, hlaid⟩

/-- Adding the overlay track, if it is shown, composes both tracks. It fails
exactly when the composition has no frame, and then with the first clip. -/
theorem addOverlay {video : StreamLabel} {main overlay : List Clip} {options : ExportOptions}
    (holds : builder.Holds ⟨2, 0, 0⟩ ((video, Signal.mainPicture main) :: rest))
    (valid : ∀ clip ∈ overlay, clip.validate = .ok ()) :
    (∃ (fault : Fault) (first : Clip), Signal.composition main overlay options = .error fault ∧
      overlay.head? = some first ∧ builder.addOverlay options overlay video.text =
        .error (.uncompilable (.overlayGeometry first.id))) ∨
    ∃ (picture : Signal) (label : StreamLabel) (after : Builder),
      Signal.composition main overlay options = .ok picture ∧
      builder.addOverlay options overlay video.text = .ok (label.text, after) ∧
      after.Holds ⟨6, 0, 0⟩ ((label, picture) :: rest) := by
  cases overlay with
  | nil => exact .inr ⟨_, video, builder, rfl, rfl, holds.wait (by simp [Rank.Before])⟩
  | cons first clips =>
    unfold Signal.composition Builder.addOverlay
    dsimp only
    by_cases hvisible : options.overlayTrackVisible.truthy
    · rw [if_pos hvisible, if_pos hvisible]
      cases hclamped : Frame.clamped first.position first.size with
      | error fault =>
        refine .inl ⟨fault, first, rfl, rfl, ?_⟩
        rw [Builder.addOverlayTrack, hclamped]
      | ok frame =>
        obtain ⟨after, hafter, hlaid⟩ := holds.addOverlayTrack valid hclamped
        exact .inr ⟨_, .composited, after, rfl, hafter, hlaid⟩
    · rw [if_neg hvisible, if_neg hvisible]
      exact .inr ⟨_, video, builder, rfl, rfl, holds.wait (by simp [Rank.Before])⟩

end Holds

end Builder

end Montage
