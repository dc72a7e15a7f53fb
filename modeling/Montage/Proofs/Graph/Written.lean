import Montage.Graph.Builder
import Montage.Graph.FilterText
import Montage.Proofs.Graph.Argument

/-!
# Stages in the filter text

The text of every stage that the builder adds exists. Its links are the labels
of the stage, the inputs before the filters and the outputs behind; a scaling
that changes the opacity has one label more, which is first an output and then
an input. Only the joining of picture and sound has no text.
-/

namespace Montage

/-- No filter chain holds brackets or semicolons. -/
theorem plain_of_mem_filterExpressions {entry : Text × Text} (h : entry ∈ filterExpressions) :
    entry.2.Plain := by
  simp only [filterExpressions, List.mem_cons, List.not_mem_nil, or_false] at h
  rcases h with rfl | rfl | rfl | rfl | rfl | rfl | rfl | rfl | rfl
  all_goals exact Text.plain_ofList (by decide)

/-- Every filter that a clip can name has a chain, which is plain. -/
theorem exists_filterExpression {name : Value} (h : name.isOneOf videoFilters = true) :
    ∃ chain, filterExpression name = .ok chain ∧ chain.Plain := by
  have hnames : videoFilters = filterExpressions.map Prod.fst := rfl
  obtain ⟨t, hmem, hequal⟩ := List.any_eq_true.mp h
  obtain ⟨known, hknown, rfl⟩ := List.mem_map.mp (hnames ▸ hmem)
  cases hfound : filterExpressions.find? fun entry => name.equal (.text entry.1) with
  | none => exact absurd hequal (List.find?_eq_none.mp hfound known hknown)
  | some entry =>
    refine ⟨entry.2, ?_, plain_of_mem_filterExpressions (List.mem_of_find?_eq_some hfound)⟩
    rw [Value.eq_text_of_equal hequal] at hfound ⊢
    rw [filterExpression, hfound]
    rfl

namespace Stage

/-- Reading labels in brackets. -/
theorem linksFrom_links {side : LinkSide} {labels : List Text} (h : ∀ label ∈ labels, label.Plain)
    (rest : List CodePoint) :
    Text.linksFrom side none ((links (labels.map .text)).points ++ rest) =
      labels.map (fun label => ⟨side, label⟩) ++ Text.linksFrom side none rest := by
  induction labels with
  | nil => rfl
  | cons label labels ih =>
    have hpoints : (links ((label :: labels).map .text)).points ++ rest =
        ("[" ++ label ++ "]" : Text).points ++ ((links (labels.map .text)).points ++ rest) := by
      simp [links, link, Text.join, Value.display]
    rw [hpoints, Text.linksFrom_link (h label List.mem_cons_self),
      ih fun other hother => h other (List.mem_cons_of_mem _ hother)]
    rfl

/-- A single label in brackets. -/
theorem links_singleton (label : Value) : links [label] = link label :=
  Text.eq_of_points (by simp [links, Text.join])

/-- Filters between labels show the labels. -/
theorem shows_between (inputs outputs : List Text) (filters : Text)
    (hin : ∀ label ∈ inputs, label.Plain) (hout : ∀ label ∈ outputs, label.Plain)
    (hfilters : filters.Plain) (hne : filters.isEmpty = false) :
    (links (inputs.map .text) ++ filters ++ links (outputs.map .text)).Shows
      (inputs.map (fun label => ⟨.input, label⟩) ++
        outputs.map fun label => ⟨.output, label⟩) := by
  refine Text.shows_of_linksFrom .output ?_
  intro rest
  simp only [Text.points_append, List.append_assoc]
  rw [linksFrom_links hin, Text.linksFrom_filters hfilters hne, linksFrom_links hout]

/-- The label that a stage needs within the filter text only: that of a picture
whose opacity is changed before it is scaled. -/
def alpha? (stage : Stage) : Option Text :=
  match stage.kind, stage.param? "opacity", stage.outputs with
  | .overlayScale, .ok opacity, scaled :: _ =>
    if opacity.isNull then none else some (scaled.display ++ "_alpha")
  | _, _, _ => none

/-- The links that the text of a stage is meant to have. -/
def chainLinks (stage : Stage) : List Link :=
  let inputs := stage.inputs.map fun label => (⟨.input, label.display⟩ : Link)
  let outputs := stage.outputs.map fun label => (⟨.output, label.display⟩ : Link)
  match stage.alpha? with
  | none => inputs ++ outputs
  | some alpha =>
    inputs.take 1 ++ [⟨.output, alpha⟩, ⟨.input, alpha⟩] ++ inputs.drop 1 ++ outputs

/-- The text of a stage exists, is not empty and shows the links that it is meant
to have. -/
def Written (stage : Stage) : Prop :=
  ∃ t, stage.text = .ok t ∧ t.isEmpty = false ∧ t.Shows stage.chainLinks

/-- A text with filters in it is not empty. -/
theorem isEmpty_between {inputs outputs : List Value} {filters : Text}
    (hne : filters.isEmpty = false) :
    (links inputs ++ filters ++ links outputs).isEmpty = false := by
  obtain ⟨points⟩ := filters
  cases points with
  | nil => cases hne
  | cons point points =>
    cases hin : (links inputs).points <;> simp [Text.isEmpty, hin]

/-- A stage whose text has filters between its labels is written. -/
theorem written_of_between {stage : Stage} (inputs outputs : List Text) (filters : Text)
    (hinputs : stage.inputs = inputs.map .text) (houtputs : stage.outputs = outputs.map .text)
    (hin : ∀ label ∈ inputs, label.Plain) (hout : ∀ label ∈ outputs, label.Plain)
    (hfilters : filters.Plain) (hne : filters.isEmpty = false) (halpha : stage.alpha? = none)
    (htext : stage.text = .ok (stage.between filters)) : stage.Written := by
  refine ⟨_, htext, isEmpty_between hne, ?_⟩
  have hlinks : stage.chainLinks = inputs.map (fun label => ⟨.input, label⟩) ++
      outputs.map fun label => ⟨.output, label⟩ := by
    unfold chainLinks
    rw [halpha, hinputs, houtputs]
    simp [Value.display, Function.comp_def]
  rw [hlinks, between, hinputs, houtputs]
  exact shows_between _ _ _ hin hout hfilters hne

variable {source label : Text}

/-- The window of a trim can be written. -/
theorem exists_window (stage : Stage) {start stop : Value}
    (hparamStart : stage.param "start" = .ok start) (hparamStop : stage.param "end" = .ok stop)
    (hstart : start.isFinite = .ok true) (hstop : stop.isFinite = .ok true) :
    ∃ window : Text, window.Plain ∧ stage.window = .ok window := by
  obtain ⟨first, hfirst, hplain⟩ := Value.exists_filterNumber_of_isFinite timePlaces hstart
  obtain ⟨last, hlast, hplain'⟩ := Value.exists_filterNumber_of_isFinite timePlaces hstop
  refine ⟨"start=" ++ first ++ ":end=" ++ last, ?_, ?_⟩
  · have hleft : ("start=" : Text).Plain := Text.plain_ofList (by decide)
    have hright : (":end=" : Text).Plain := Text.plain_ofList (by decide)
    exact ((hleft.append hplain).append hright).append hplain'
  · simp only [window, time, hparamStart, hparamStop, Outcome.ok_bind, hfirst, hlast]
    rfl

/-- The filter of a clip can be written. -/
theorem exists_filterChain {filter : Value}
    (h : filter.isNull = true ∨ filter.isOneOf videoFilters = true) :
    ∃ chain : Text, chain.Plain ∧ filterChain filter = .ok chain := by
  unfold filterChain
  split
  · next htruthy =>
    have hname : filter.isOneOf videoFilters = true := by
      rcases h with hnull | hname
      · cases filter <;> simp [Value.isNull, Value.truthy] at hnull htruthy
      · exact hname
    obtain ⟨expression, hexpression, hplain⟩ := exists_filterExpression hname
    have hcomma : ("," : Text).Plain := Text.plain_ofList (by decide)
    exact ⟨_, hcomma.append hplain, by rw [hexpression]; rfl⟩
  · exact ⟨"", Text.plain_ofList (by decide), rfl⟩

/-- Trimming a picture is written. -/
theorem written_trim {start stop filter : Value} (hsource : source.Plain) (hlabel : label.Plain)
    (hstart : start.isFinite = .ok true) (hstop : stop.isFinite = .ok true)
    (hfilter : filter.isNull = true ∨ filter.isOneOf videoFilters = true) :
    (trim source label start stop filter).Written := by
  obtain ⟨window, hwindow, hwindowText⟩ :=
    exists_window (trim source label start stop filter) rfl rfl hstart hstop
  obtain ⟨chain, hchain, hchainText⟩ := exists_filterChain hfilter
  have hparam : (trim source label start stop filter).param? "filter" = .ok filter := rfl
  have hleft : ("trim=" : Text).Plain := Text.plain_ofList (by decide)
  have hright : (",setpts=PTS-STARTPTS" : Text).Plain := Text.plain_ofList (by decide)
  refine written_of_between [source] [label]
    ("trim=" ++ window ++ ",setpts=PTS-STARTPTS" ++ chain) rfl rfl (by simpa using hsource)
    (by simpa using hlabel) (((hleft.append hwindow).append hright).append hchain) rfl rfl ?_
  change trimText _ = _
  simp only [trimText, hwindowText, hparam, hchainText, Outcome.ok_bind]
  rfl

/-- Trimming a sound is written. -/
theorem written_audioTrim {start stop : Value} {muted : Bool} (hsource : source.Plain)
    (hlabel : label.Plain) (hstart : start.isFinite = .ok true)
    (hstop : stop.isFinite = .ok true) :
    (audioTrim source label start stop muted).Written := by
  obtain ⟨window, hwindow, hwindowText⟩ :=
    exists_window (audioTrim source label start stop muted) rfl rfl hstart hstop
  have hparam : (audioTrim source label start stop muted).param? "muted" = .ok (.bool muted) := rfl
  have hleft : ("atrim=" : Text).Plain := Text.plain_ofList (by decide)
  have hright : (",asetpts=PTS-STARTPTS" : Text).Plain := Text.plain_ofList (by decide)
  have hvolume : Text.Plain ↑(if muted then ",volume=0" else "") := by
    cases muted <;> exact Text.plain_ofList (by decide)
  refine written_of_between [source] [label]
    ("atrim=" ++ window ++ ",asetpts=PTS-STARTPTS" ++ if muted then ",volume=0" else "")
    rfl rfl (by simpa using hsource)
    (by simpa using hlabel) (((hleft.append hwindow).append hright).append hvolume) rfl rfl ?_
  change audioTrimText _ = _
  simp only [audioTrimText, hwindowText, hparam, Outcome.ok_bind]
  cases muted <;> rfl

/-- Putting streams after each other is written. -/
theorem written_concat {inputs outputs : List Text} {count video audio : Nat}
    (hin : ∀ label ∈ inputs, label.Plain) (hout : ∀ label ∈ outputs, label.Plain) :
    (concat inputs outputs count video audio).Written := by
  have hn : ("concat=n=" : Text).Plain := Text.plain_ofList (by decide)
  have hv : (":v=" : Text).Plain := Text.plain_ofList (by decide)
  have ha : (":a=" : Text).Plain := Text.plain_ofList (by decide)
  have hcounts : Text.Plain ("concat=n=" ++ (Value.int count).display ++ ":v=" ++
      (Value.int video).display ++ ":a=" ++ (Value.int audio).display) := by
    have hcount := hn.append (Value.plain_display_int count)
    have hvideo := (hcount.append hv).append (Value.plain_display_int video)
    exact (hvideo.append ha).append (Value.plain_display_int audio)
  exact written_of_between inputs outputs _ rfl rfl hin hout hcounts rfl rfl rfl

/-- A share of the frame can be written. -/
theorem exists_shareText (stage : Stage) (name : Text) {value forced : Value}
    (hparam : stage.param name = .ok forced) (h : value.clampPercent = .ok forced) :
    ∃ share : Text, share.Plain ∧ stage.share name = .ok share := by
  obtain ⟨x, hx⟩ := Value.exists_share h
  refine ⟨_, plain_decimalText sharePlaces x, ?_⟩
  simp only [share, hparam, hx, Outcome.ok_bind]
  rfl

/-- Laying a picture over another one is written. -/
theorem written_overlay {base picture label atEnd : Text} {x y left top : Value}
    (hbase : base.Plain) (hpicture : picture.Plain) (hlabel : label.Plain) (hend : atEnd.Plain)
    (hx : x.clampPercent = .ok left) (hy : y.clampPercent = .ok top) :
    (overlay base picture label left top atEnd).Written := by
  obtain ⟨first, hfirst, hfirstText⟩ :=
    exists_shareText (overlay base picture label left top atEnd) "x" rfl hx
  obtain ⟨second, hsecond, hsecondText⟩ :=
    exists_shareText (overlay base picture label left top atEnd) "y" rfl hy
  have hparam : (overlay base picture label left top atEnd).param "eof_action" =
      .ok (.text atEnd) := rfl
  have hxs : ("overlay=x=main_w*" : Text).Plain := Text.plain_ofList (by decide)
  have hys : (":y=main_h*" : Text).Plain := Text.plain_ofList (by decide)
  have hends : (":eof_action=" : Text).Plain := Text.plain_ofList (by decide)
  have hlay : Text.Plain ("overlay=x=main_w*" ++ first ++ ":y=main_h*" ++ second ++
      ":eof_action=" ++ atEnd) := by
    have hplace := ((hxs.append hfirst).append hys).append hsecond
    exact (hplace.append hends).append hend
  refine written_of_between [base, picture] [label] _ rfl rfl (by simp [hbase, hpicture])
    (by simpa using hlabel) hlay rfl rfl ?_
  change overlayText _ = _
  simp only [overlayText, hfirstText, hsecondText, hparam, Outcome.ok_bind]
  rfl

/-- Scaling to the size of the output is written. -/
theorem written_scalePad {width height : Int} (hsource : source.Plain) (hlabel : label.Plain) :
    (scalePad source label (.int width) (.int height)).Written := by
  have hsize : Text.Plain ((Value.int width).display ++ ":" ++ (Value.int height).display) := by
    have hcolon : (":" : Text).Plain := Text.plain_ofList (by decide)
    exact ((Value.plain_display_int _).append hcolon).append (Value.plain_display_int _)
  have hscale : ("scale=" : Text).Plain := Text.plain_ofList (by decide)
  have hpad : (":force_original_aspect_ratio=decrease,pad=" : Text).Plain :=
    Text.plain_ofList (by decide)
  have hcentre : (":(ow-iw)/2:(oh-ih)/2,setsar=1" : Text).Plain := Text.plain_ofList (by decide)
  exact written_of_between [source] [label] _ rfl rfl
    (by simpa using hsource) (by simpa using hlabel)
    ((((hscale.append hsize).append hpad).append hsize).append hcentre) rfl rfl rfl

section OverlayScale

variable {picture reference scaled passed : Text} {w h width height opacity image : Value}

/-- The scale of a picture relative to another one can be written. -/
theorem exists_scaling (stage : Stage) (hwidth : stage.param "width" = .ok width)
    (hheight : stage.param "height" = .ok height) (hw : w.clampPercent = .ok width)
    (hh : h.clampPercent = .ok height) :
    ∃ first second : Text, stage.share "width" = .ok first ∧ stage.share "height" = .ok second ∧
      Text.Plain ("scale2ref=w=main_w*" ++ first ++ ":h=main_h*" ++ second) := by
  obtain ⟨first, hfirst, hfirstText⟩ := exists_shareText stage "width" hwidth hw
  obtain ⟨second, hsecond, hsecondText⟩ := exists_shareText stage "height" hheight hh
  have hleft : ("scale2ref=w=main_w*" : Text).Plain := Text.plain_ofList (by decide)
  have hright : (":h=main_h*" : Text).Plain := Text.plain_ofList (by decide)
  exact ⟨first, second, hfirstText, hsecondText,
    ((hleft.append hfirst).append hright).append hsecond⟩

/-- Scaling a picture relative to another one is written as one chain when its
opacity stays. -/
theorem written_overlayScale_of_isNull (hpicture : picture.Plain) (hreference : reference.Plain)
    (hscaled : scaled.Plain) (hpassed : passed.Plain) (hw : w.clampPercent = .ok width)
    (hh : h.clampPercent = .ok height) (hnull : opacity.isNull = true) :
    (overlayScale picture reference scaled passed width height opacity image).Written := by
  obtain ⟨first, second, hfirst, hsecond, hscaling⟩ := exists_scaling
    (overlayScale picture reference scaled passed width height opacity image) rfl rfl hw hh
  have hparam : (overlayScale picture reference scaled passed width height opacity
      image).param? "opacity" = .ok opacity := rfl
  have hinputs : twoLabels (overlayScale picture reference scaled passed width height opacity
      image).inputs = .ok (.text picture, .text reference) := rfl
  have houtputs : twoLabels (overlayScale picture reference scaled passed width height opacity
      image).outputs = .ok (.text scaled, .text passed) := rfl
  have halpha : (overlayScale picture reference scaled passed width height opacity
      image).alpha? = none := by
    change (if opacity.isNull then none else _) = none
    rw [hnull]
    rfl
  refine written_of_between [picture, reference] [scaled, passed]
    ("scale2ref=w=main_w*" ++ first ++ ":h=main_h*" ++ second) rfl rfl
    (by simp [hpicture, hreference]) (by simp [hscaled, hpassed]) hscaling rfl halpha ?_
  change overlayScaleText _ = _
  simp only [overlayScaleText, hinputs, houtputs, hparam, hfirst, hsecond, hnull,
    Outcome.ok_bind, if_true]
  simp only [between, Text.append_assoc]
  rfl

/-- Scaling a picture relative to another one is written as two chains when its
opacity changes: the second one starts from the label that the first one makes. -/
theorem written_overlayScale_of_level {level : Text} (hpicture : picture.Plain)
    (hreference : reference.Plain) (hscaled : scaled.Plain) (hpassed : passed.Plain)
    (hw : w.clampPercent = .ok width) (hh : h.clampPercent = .ok height)
    (hnull : opacity.isNull = false) (hlevel : filterNumber opacity sharePlaces = .ok level)
    (hplain : level.Plain) :
    (overlayScale picture reference scaled passed width height opacity image).Written := by
  obtain ⟨first, second, hfirst, hsecond, hscaling⟩ := exists_scaling
    (overlayScale picture reference scaled passed width height opacity image) rfl rfl hw hh
  have hparam : (overlayScale picture reference scaled passed width height opacity
      image).param? "opacity" = .ok opacity := rfl
  have hinputs : twoLabels (overlayScale picture reference scaled passed width height opacity
      image).inputs = .ok (.text picture, .text reference) := rfl
  have houtputs : twoLabels (overlayScale picture reference scaled passed width height opacity
      image).outputs = .ok (.text scaled, .text passed) := rfl
  have halphaPlain : Text.Plain (scaled ++ "_alpha") :=
    hscaled.append (Text.plain_ofList (by decide))
  have hmix : ("format=rgba,colorchannelmixer=aa=" : Text).Plain := Text.plain_ofList (by decide)
  have hfront := shows_between [picture] [scaled ++ "_alpha"]
    ("format=rgba,colorchannelmixer=aa=" ++ level) (by simpa using hpicture)
    (by simpa using halphaPlain) (hmix.append hplain) rfl
  have hback := shows_between [scaled ++ "_alpha", reference] [scaled, passed]
    ("scale2ref=w=main_w*" ++ first ++ ":h=main_h*" ++ second)
    (by simp [halphaPlain, hreference]) (by simp [hscaled, hpassed]) hscaling rfl
  have halpha : (overlayScale picture reference scaled passed width height opacity
      image).alpha? = some (scaled ++ "_alpha") := by
    change (if opacity.isNull then none else _) = _
    rw [hnull]
    rfl
  have hlinks : (overlayScale picture reference scaled passed width height opacity
      image).chainLinks = [⟨.input, picture⟩, ⟨.output, scaled ++ "_alpha"⟩] ++
        [⟨.input, scaled ++ "_alpha"⟩, ⟨.input, reference⟩, ⟨.output, scaled⟩,
          ⟨.output, passed⟩] := by
    unfold chainLinks
    rw [halpha]
    rfl
  refine ⟨_, ?_, ?_, hlinks ▸ hfront.append hback⟩
  · change overlayScaleText _ = _
    simp only [overlayScaleText, hinputs, houtputs, hparam, hfirst, hsecond, hnull,
      hlevel, Outcome.ok_bind, Bool.false_eq_true, if_false, List.map_cons, List.map_nil,
      links_singleton, Text.append_assoc]
    rfl
  · rfl

end OverlayScale

end Stage

end Montage
